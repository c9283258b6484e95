import OpenCompute.Workflow.History

/-!
# Restarts and purges

`durable_operations.rs`, `durable_progress.rs` and `durable_gc.rs`: an operation
that the control plane prepared is applied or refused once, and the decision is
recorded under a growing sequence number.  A restart starts a new generation and
may keep the completed steps before a selected one.  The mutation context of the
source lives inside one transaction only; here its checks are those of the
writes that it permits.
-/

namespace OpenCompute
namespace Workflow

open Relational Transaction

inductive WorkflowRefState where
  | creating
  | live
  | retained
  | restarting
  | releasing
  | released
deriving DecidableEq, Repr

structure WorkflowOperation where
  id : WorkflowOperationId
  identity : WorkflowInstanceIdentity
  kind : WorkflowOperationKind
  restartFrom : Option WorkflowRestartSelector
  targetGeneration : Nat
  priorState : WorkflowRefState
  createdAtMs : Millis
  sequence : Int
deriving DecidableEq, Repr

inductive WorkflowOperationResult where
  | applied
  | rejected (code : ErrorCode)
deriving DecidableEq, Repr

/-- The refusals that are recorded; any other failure leaves the intent open. -/
def rejectionCodes : List ErrorCode :=
  [.workflowInstanceNotFound, .workflowInstanceStateConflict, .workflowStateQuotaExceeded]

/-! ## Decisions -/

def Store.holds (s : Store) (id : WorkflowInstanceId) (p : Instance -> Bool) : Bool :=
  (s.instances.find? id).any p

def Progress.marker (p : Progress) : RestartMarker :=
  ⟨p.operationId, p.restartFrom, p.targetOrdinal⟩

/-- The instance carries the exact restart that a decision names. -/
def Progress.committed (p : Progress) (i : Instance) : Bool :=
  i.identity.creationNonce = p.creationNonce && i.generation = p.targetGeneration &&
    i.lastRestart = some p.marker

def Progress.purged (p : Progress) (r : GcReceipt) : Bool :=
  r.operationId = p.operationId && r.creationNonce = p.creationNonce &&
    r.instanceGeneration = p.expectedGeneration

/-- `workflow_progress_insert_guard`. -/
def Store.authorizes (s : Store) (p : Progress) : Bool :=
  match p.rejection, p.kind with
  | some _, _ => s.holds p.instanceId fun i =>
    i.identity.creationNonce = p.creationNonce && i.generation = p.expectedGeneration
  | none, .restart => s.holds p.instanceId p.committed
  | none, .purge => (s.gcReceipts.find? p.instanceId).any p.purged

/-- A decision that `INVALID_PROGRESS` does not count. -/
def Store.verifyOne (s : Store) (p : Progress) : Bool :=
  s.authorizes p && p.rejection.all (fun code => code ∈ rejectionCodes) &&
    (p.rejection.isSome || p.kind = .restart || (s.instances.find? p.instanceId).isNone)

def Progress.matches (p : Progress) (operation : WorkflowOperation) : Bool :=
  p.operationId = operation.id && p.creationNonce = operation.identity.creationNonce &&
    p.expectedGeneration = operation.identity.instanceGeneration &&
    p.targetGeneration = operation.targetGeneration && p.kind = operation.kind &&
    p.restartFrom = operation.restartFrom

def WorkflowOperation.targetIdentity (operation : WorkflowOperation) :
    WorkflowInstanceIdentity :=
  { operation.identity with instanceGeneration := operation.targetGeneration }

def decisionResult (s : Store) (operation : WorkflowOperation) (p : Progress) :
    Result WorkflowOperationResult := do
  match p.rejection with
  | none =>
    ensure (operation.kind = .restart -> s.holds operation.identity.instanceId (fun i =>
          i.identity = operation.targetIdentity && i.lastRestart = some p.marker) = true)
      violation
    return .applied
  | some code =>
    ensure (code ∈ rejectionCodes) violation
    ensure (s.holds operation.identity.instanceId (fun i =>
      i.identity = operation.identity) = true) violation
    return .rejected code

def readDecision (s : Store) (operation : WorkflowOperation) :
    Result (Option WorkflowOperationResult) :=
  match s.progress.find? operation.identity.instanceId with
  | none => .ok none
  | some p =>
    if p.sequence < operation.sequence then
      .ok none
    else do
      ensure (p.sequence = operation.sequence) (error .workflowRunStale)
      ensure (p.matches operation = true) violation
      ensure (s.verifyOne p = true) violation
      let result ← decisionResult s operation p
      return some result

/-- The `CHECK`s of `workflow_operation_progress`. -/
def Progress.Checks (p : Progress) : Prop :=
  1 ≤ p.sequence ∧ 1 ≤ p.expectedGeneration ∧ 1 ≤ p.targetGeneration ∧
  (p.kind = .restart -> (p.expectedGeneration : Int) < i64Max ∧
    p.targetGeneration = p.expectedGeneration + 1) ∧
  (p.kind = .purge -> p.targetGeneration = p.expectedGeneration ∧ p.restartFrom = none) ∧
  (p.restartFrom = none -> p.targetOrdinal = none) ∧
  (forall selector, selector ∈ p.restartFrom -> selector.Valid) ∧
  (forall target, target ∈ p.targetOrdinal -> target ≤ 1023) ∧
  (p.rejection = none -> p.restartFrom.isSome = true -> p.targetOrdinal.isSome = true) ∧
  (forall code, code ∈ p.rejection -> code ∈ rejectionCodes)

instance (p : Progress) : Decidable p.Checks := by
  unfold Progress.Checks
  infer_instance

/-- The upsert of a decision: a stored one gives way to a newer one only. -/
def recordProgress (s : Store) (p : Progress) : Result Store := do
  ensure p.Checks sqlError
  ensure (s.authorizes p = true) sqlError
  ensure (s.progress.rows.all (fun q =>
    q.instanceId = p.instanceId || q.operationId ≠ p.operationId) = true) sqlError
  match s.progress.find? p.instanceId with
  | none =>
    let progress ← okOr (s.progress.insert? p) sqlError
    return { s with progress := progress }
  | some old =>
    ensure (old.creationNonce = p.creationNonce ∧ old.sequence < p.sequence) sqlError
    return { s with progress := s.progress.replace p }

def WorkflowOperation.progress (operation : WorkflowOperation) (target : Option Nat)
    (rejection : Option ErrorCode) : Progress :=
  ⟨operation.identity.instanceId, operation.id, operation.sequence,
    operation.identity.creationNonce, operation.identity.instanceGeneration,
    operation.targetGeneration, operation.kind, operation.restartFrom, target, rejection⟩

def decideOperation (s : Store) (operation : WorkflowOperation) (target : Option Nat)
    (rejection : Option ErrorCode) : Result (WorkflowOperationResult × Store) := do
  let s' ← recordProgress s (operation.progress target rejection)
  let result ← readDecision s' operation
  let result ← okOr result violation
  return (result, s')

/-! ## The projection of a restart -/

structure RestartProjection where
  targetOrdinal : Option Nat
  retainStepCount : Nat
  nextEventSeq : Int
  stateBytes : Nat
  reserved : Nat
deriving DecidableEq, Repr

def WorkflowRestartSelector.selects (selector : WorkflowRestartSelector)
    (d : WorkflowStepDescriptor) : Bool :=
  d.name = selector.name && d.nameCount = selector.count &&
    selector.stepType.all fun stepType => stepType.matches d.kind

def Instance.completeBefore (i : Instance) (ordinal : Nat) : Nat :=
  i.steps.rows.countP fun s => s.ordinal < ordinal && s.state.isComplete

def Instance.before (i : Instance) (ordinal : Nat) : List Step :=
  i.steps.rows.filter fun s => s.ordinal < ordinal

def retainedBytes (target : Nat) (s : Step) : Nat :=
  s.descriptor.stateBytes + if s.ordinal < target then s.state.output.elim 0 StepOutput.size else 0

def projectFrom (i : Instance) (selected : Step) : Result RestartProjection := do
  let target := selected.ordinal
  let retain := selected.descriptor.batchEnd
  ensure (target < retain ∧ retain ≤ 1024) violation
  ensure (i.completeBefore target = target ∧ (i.before retain).length = retain)
    (error .workflowInstanceStateConflict)
  return {
    targetOrdinal := some target
    retainStepCount := retain
    nextEventSeq := i.nextEventSeq
    stateBytes := initialStateBytes i.identity i.input.size +
      ((i.before retain).map (retainedBytes target)).sum
    reserved := 1 + (i.before retain).countP fun s =>
      target ≤ s.ordinal && s.descriptor.reserves }

def restartProjection (i : Instance) (restartFrom : Option WorkflowRestartSelector) :
    Result RestartProjection :=
  match restartFrom with
  | none => .ok ⟨none, 0, 1, initialStateBytes i.identity i.input.size, 1⟩
  | some selector => do
    selector.validate
    match i.steps.rows.filter fun s =>
        selector.selects s.descriptor && !s.descriptor.rollbackStep with
    | [selected] => projectFrom i selected
    | _ => .error (error .workflowInstanceStateConflict)

def restartCapacity (limits : WorkflowsConfig) (s : Store) (i : Instance)
    (projection : RestartProjection) : Result Unit := do
  ensure (i.live = true ∨ s.instances.rows.countP Instance.live < limits.maxActive)
    (error .workflowStateQuotaExceeded)
  capacityChange limits (s.others i.id) i
    ((projection.stateBytes : Int) - i.accounts.stateBytes)
    ((projection.reserved : Int) - i.reservations)

/-! ## Applying a restart -/

/-- The `CHECK`s of `workflow_mutation_context` for a restart. -/
def restartContextChecks (operation : WorkflowOperation) (p : RestartProjection) : Prop :=
  (operation.identity.instanceGeneration : Int) < i64Max ∧
  operation.targetGeneration = operation.identity.instanceGeneration + 1 ∧
  p.retainStepCount ≤ 1024 ∧ 1 ≤ p.nextEventSeq ∧
  match operation.restartFrom, p.targetOrdinal with
  | none, none => p.retainStepCount = 0 ∧ p.nextEventSeq = 1
  | some selector, some target => selector.Valid ∧ target ≤ 1023 ∧ target < p.retainStepCount
  | _, _ => False

instance (operation : WorkflowOperation) (p : RestartProjection) :
    Decidable (restartContextChecks operation p) := by
  unfold restartContextChecks
  cases operation.restartFrom <;> cases p.targetOrdinal <;> infer_instance

-- The trigger counts rollback steps too, which the projection leaves out.
def selectionGuard (i : Instance) (selector : WorkflowRestartSelector) (target : Nat)
    (retain : Nat) : Bool :=
  (i.steps.rows.any fun s => s.ordinal = target && selector.selects s.descriptor &&
    retain = s.descriptor.batchEnd) &&
  i.steps.rows.countP (fun s => selector.selects s.descriptor) = 1 &&
  target = i.completeBefore target && retain = (i.before retain).length

/-- `workflow_context_insert_guard` for a restart. -/
def restartContextGuard (i : Instance) (operation : WorkflowOperation)
    (p : RestartProjection) (nowMs : Millis) : Bool :=
  i.identity.creationNonce = operation.identity.creationNonce &&
  i.generation = operation.identity.instanceGeneration &&
  (i.expiresAt.all fun expiry => nowMs < expiry) &&
  match operation.restartFrom with
  | none => p.nextEventSeq = 1 && p.targetOrdinal = none && p.retainStepCount = 0
  | some selector => p.nextEventSeq = i.nextEventSeq &&
    p.targetOrdinal.any fun target => selectionGuard i selector target p.retainStepCount

def restartedInstance (i : Instance) (operation : WorkflowOperation)
    (p : RestartProjection) (nowMs : Millis) : Instance :=
  { i with
    identity := { i.identity with instanceGeneration := operation.targetGeneration }
    lifecycle := .queued nowMs
    rollbackRequested := false
    hasActivated := 0 < p.retainStepCount
    updatedAtMs := nowMs
    nextEventSeq := p.nextEventSeq
    lastRestart := some ⟨operation.id, operation.restartFrom, p.targetOrdinal⟩
    steps := Table.empty
    events := Table.empty
    accounts := ⟨0, 0, 0, 0, 0, initialStateBytes i.identity i.input.size, none⟩ }

def freshState (config : WorkflowDurableConfig) (nowMs : Millis) : StepState :=
  match Instance.registeredDue config nowMs with
  | none => .pending none
  | some due => .waiting due

/-- A step before the target is kept as it is, the others start again. -/
def restartStep (target : Nat) (nextEventSeq : Int) (nowMs : Millis) (s : Step) :
    Option Step :=
  if s.ordinal < target then
    some s
  else
    Step.make? s.descriptor nowMs (bufferCeiling s.descriptor.config nextEventSeq)
      (freshState s.descriptor.config nowMs)

/-- `workflow_step_insert_guard` within a restart. -/
def restartInsertGuard (target : Nat) (s : Step) : Bool :=
  (target ≤ s.ordinal || s.state.isComplete) && !s.descriptor.rollbackStep

def reinsertStep (target : Nat) (nextEventSeq : Int) (nowMs : Millis) (i : Instance)
    (s : Step) : Result Instance := do
  let new ← okOr (restartStep target nextEventSeq nowMs s) sqlError
  ensure (restartInsertGuard target new = true) sqlError
  let steps ← okOr (i.steps.insert? new) sqlError
  return { i with steps := steps }.account

def reinsertSteps (i : Instance) (p : RestartProjection) (nowMs : Millis)
    (restarted : Instance) : Result Instance :=
  match p.targetOrdinal with
  | none => .ok restarted
  | some target =>
    (i.before p.retainStepCount).foldlM (reinsertStep target p.nextEventSeq nowMs)
      restarted

def restartRun (versionDigest : WorkflowTarget -> Digest) (operation : WorkflowOperation)
    (p : RestartProjection) (nowMs : Millis) (i : Instance) : Result Instance := do
  ensure (restartContextChecks operation p) sqlError
  ensure (restartContextGuard i operation p nowMs = true) sqlError
  let i' ← reinsertSteps i p nowMs (restartedInstance i operation p nowMs)
  verifyHistory versionDigest i'
  return i'

/-! ## Applying a purge -/

def purgeReceipt (operation : WorkflowOperation) (nowMs : Millis) : GcReceipt :=
  ⟨operation.id, operation.identity.instanceId, operation.identity.creationNonce,
    operation.identity.creationOperationId, operation.identity.instanceGeneration, nowMs⟩

def purgeInstance (s : Store) (operation : WorkflowOperation) (nowMs : Millis)
    (i : Instance) : Result Store := do
  ensure (operation.targetGeneration = operation.identity.instanceGeneration ∧
    operation.restartFrom = none) sqlError
  ensure (i.live = false) sqlError
  let receipt := purgeReceipt operation nowMs
  ensure (s.gcReceipts.rows.all (fun r => r.operationId ≠ receipt.operationId &&
    r.creationOperationId ≠ receipt.creationOperationId) = true) sqlError
  let gcReceipts ← okOr (s.gcReceipts.insert? receipt) sqlError
  return { s with
    instances := s.instances.erase i.id
    receipts := s.receipts.filter fun r => r.instanceId ≠ i.id
    gcReceipts := gcReceipts }

/-! ## The operation -/

def restartVerdict (limits : WorkflowsConfig) (s : Store) (i : Instance)
    (operation : WorkflowOperation) : Except ErrorCode RestartProjection :=
  match restartProjection i operation.restartFrom with
  | .error e => .error e.code
  | .ok projection =>
    match restartCapacity limits s i projection with
    | .error e => .error e.code
    | .ok _ => .ok projection

/-- Records a refusal, when it is one of those that are final. -/
def reject (s : Store) (operation : WorkflowOperation) (code : ErrorCode) :
    Result (WorkflowOperationResult × Store) := do
  ensure (code ∈ rejectionCodes) (error code)
  decideOperation s operation none (some code)

def applyRestart (versionDigest : WorkflowTarget -> Digest) (limits : WorkflowsConfig)
    (s : Store) (operation : WorkflowOperation) (nowMs : Millis) (i : Instance) :
    Result (WorkflowOperationResult × Store) :=
  if i.expiresAt.any (fun expiry => expiry ≤ nowMs) then
    reject s operation .workflowInstanceNotFound
  else
    match restartVerdict limits s i operation with
    | .error code => reject s operation code
    | .ok projection => do
      let i' ← restartRun versionDigest operation projection nowMs i
      decideOperation (s.put i') operation projection.targetOrdinal none

def applyPurge (s : Store) (operation : WorkflowOperation) (nowMs : Millis)
    (i : Instance) : Result (WorkflowOperationResult × Store) :=
  if i.live then
    reject s operation .workflowInstanceStateConflict
  else do
    let s' ← purgeInstance s operation nowMs i
    decideOperation s' operation none none

def applyWorkflowOperation (versionDigest : WorkflowTarget -> Digest) (s : Store)
    (operation : WorkflowOperation) (nowMs : Millis) (limits : WorkflowsConfig) :
    Result (WorkflowOperationResult × Store) := do
  limits.validate
  let _ ← durableDeadline nowMs 0
  let decision ← readDecision s operation
  match decision with
  | some result => return (result, s)
  | none => do
    let i ← okOr (s.instances.find? operation.identity.instanceId) violation
    ensure (i.identity = operation.identity ∧ 1 ≤ operation.sequence)
      (error .workflowRunStale)
    verifyHistory versionDigest i
    match operation.kind with
    | .restart => applyRestart versionDigest limits s operation nowMs i
    | .purge => applyPurge s operation nowMs i

/-! ## Acknowledged purges -/

structure WorkflowGcReceipt where
  operationId : WorkflowOperationId
  instanceId : WorkflowInstanceId
  creationNonce : WorkflowToken
  instanceGeneration : Nat
  sequence : Int
  deletedAtMs : Millis
deriving DecidableEq, Repr

def purgeDecision (s : Store) (r : GcReceipt) : Option Progress :=
  (s.progress.find? r.instanceId).filter fun p =>
    p.operationId = r.operationId && p.creationNonce = r.creationNonce &&
    p.expectedGeneration = r.instanceGeneration &&
    p.targetGeneration = r.instanceGeneration && p.kind = .purge &&
    p.rejection = none && (s.instances.find? r.instanceId).isNone

def readReceipt (s : Store) (id : WorkflowInstanceId) : Result (Option WorkflowGcReceipt) :=
  match s.gcReceipts.find? id with
  | none => .ok none
  | some r => do
    let p ← okOr (purgeDecision s r) violation
    return some ⟨r.operationId, id, r.creationNonce, r.instanceGeneration, p.sequence,
      r.deletedAtMs⟩

def sweepWorkflowGc (s : Store) (receipt : WorkflowGcReceipt) : Result Store := do
  let current ← readReceipt s receipt.instanceId
  match current with
  | none => return s
  | some current =>
    ensure (current = receipt) violation
    return { s with
      progress := s.progress.erase receipt.instanceId
      gcReceipts := s.gcReceipts.erase receipt.instanceId }

end Workflow
end OpenCompute
