import OpenCompute.Workflow.Steps

/-!
# Runs

`workflow.rs` and `durable_runs.rs`: instances are inserted queued, claimed
under a random token, and released when the run yields, finishes or loses its
lease.  A release looks only at the counters and the states of the steps.
-/

namespace OpenCompute
namespace Workflow

open Relational Transaction

/-! ## Insertion -/

structure WorkflowCreation where
  identity : WorkflowInstanceIdentity
  input : String
  retention : Option WorkflowRetention
deriving DecidableEq, Repr

structure PreparedCreation where
  identity : WorkflowInstanceIdentity
  input : DurableValue
  retention : ValidRetention
deriving DecidableEq

def prepareCreation (versionDigest : WorkflowTarget -> Digest) (c : WorkflowCreation) :
    Result PreparedCreation := do
  let retention ← okOr c.retention (error .workflowInvariantViolation)
  let retention ← retention.validate
  ensure (SafeTime c.identity.createdAtMs) (error .workflowDurationInvalid)
  validateWorkflowInstanceId c.identity.externalInstanceId
  let input ← durableValueBase64 c.input .workflowPayloadTooLarge
  ensure (c.identity.instanceGeneration = 1 ∧
      versionDigest c.identity.target = c.identity.target.descriptorSha256)
    (error .workflowInvariantViolation)
  return ⟨c.identity, input, retention⟩

def PreparedCreation.initialBytes (p : PreparedCreation) : Nat :=
  initialStateBytes p.identity p.input.size

def PreparedCreation.instance (p : PreparedCreation) : Instance where
  identity := p.identity
  input := p.input
  retention := p.retention
  lifecycle := .queued p.identity.createdAtMs
  rollbackRequested := false
  hasActivated := false
  updatedAtMs := p.identity.createdAtMs
  nextEventSeq := 1
  lastRestart := none
  steps := Table.empty
  events := Table.empty
  accounts := ⟨0, 0, 0, 0, 0, p.initialBytes, none⟩

/-- The `CHECK`s on the columns of an identity. -/
def identityChecks (identity : WorkflowInstanceIdentity) : Bool :=
  0 < identity.target.loaderSchemaVersion && identity.target.capabilityVersion = 1 &&
  identity.schedule.all fun schedule =>
    1 ≤ schedule.cron.length && schedule.cron.length ≤ 256 && 0 ≤ schedule.scheduledTime

/-- An `INSERT` into `workflow_instances` with its unique keys. -/
def insertInstance (s : Store) (p : PreparedCreation) : Result Store := do
  ensure (identityChecks p.identity = true) sqlError
  ensure (s.instances.rows.all (fun i =>
      i.identity.creationOperationId ≠ p.identity.creationOperationId &&
      (i.identity.target.definitionId ≠ p.identity.target.definitionId ||
        i.identity.externalInstanceId ≠ p.identity.externalInstanceId)) = true) sqlError
  let instances ← okOr (s.instances.insert? p.instance) sqlError
  return { s with instances := instances }

def Store.created (s : Store) (p : PreparedCreation) : Option Instance :=
  s.instances.rows.find? fun i => i.identity.creationOperationId = p.identity.creationOperationId

/-- A repeated batch is accepted only when every immutable field matches. -/
def sameCreation (s : Store) (p : PreparedCreation) : Bool :=
  (s.created p).any fun i =>
    i.identity = p.identity && i.input = p.input && i.retention = p.retention

def checkCreation (limits : WorkflowsConfig) (s : Store) (first : PreparedCreation)
    (prepared : List PreparedCreation) : Result Unit := do
  ensure (first.identity.target.instanceId = s.owner ∧
      prepared.all (fun p => p.identity.target.instanceId = s.owner) = true)
    (error .workflowInvariantViolation)
  let definition := first.identity.target.definitionId
  ensure (prepared.all (fun p => p.identity.target.definitionId = definition) = true ∧
      s.instances.rows.length + prepared.length ≤ limits.maxInstances ∧
      s.instances.rows.countP Instance.live + prepared.length ≤ limits.maxActive ∧
      s.instances.rows.countP (fun i => i.identity.target.definitionId = definition) +
        prepared.length ≤ limits.maxInstancesPerDefinition)
    (error .workflowStateQuotaExceeded)
  ensure (prepared.all (fun p =>
      p.initialBytes + failureBytes ≤ limits.maxStateBytes) = true)
    (error .workflowStateQuotaExceeded)
  capacity limits (accountCapacity s.instances.rows)
    (prepared.map fun p => p.initialBytes + failureBytes).sum

def insertPrepared (limits : WorkflowsConfig) (s : Store) (first : PreparedCreation)
    (prepared : List PreparedCreation) : Result Store := do
  let batch := first.identity.creationBatchId
  ensure (prepared.all (fun p => p.identity.creationBatchId = batch) = true)
    (error .workflowInvariantViolation)
  let batchCount := s.instances.rows.countP fun i => i.identity.creationBatchId = batch
  if prepared.any (fun p => (s.created p).isSome) then
    ensure (prepared.all (fun p => (s.created p).isSome) = true ∧
      batchCount = prepared.length) (error .workflowInvariantViolation)
    ensure (prepared.all (sameCreation s) = true) (error .workflowInvariantViolation)
    return s
  else
    ensure (batchCount = 0) (error .workflowInvariantViolation)
    checkCreation limits s first prepared
    prepared.foldlM insertInstance s

def insertWorkflows (versionDigest : WorkflowTarget -> Digest) (s : Store)
    (workflows : List WorkflowCreation) (limits : WorkflowsConfig) : Result Store := do
  ensure (workflows ≠ [] ∧ workflows.length ≤ 100) (error .workflowMethodUnsupported)
  limits.validate
  let prepared ← workflows.mapM (prepareCreation versionDigest)
  let first ← okOr prepared.head? (error .workflowMethodUnsupported)
  insertPrepared limits s first prepared

/-! ## Claims -/

/-- Backs off a queued instance that cannot be claimed. -/
def deferRun (nowMs nextRunAtMs : Millis) (i : Instance) : Result Instance :=
  match i.lifecycle with
  | .queued at_ =>
    if at_ ≤ nowMs then
      i.update { i with lifecycle := .queued nextRunAtMs, updatedAtMs := nowMs }
    else
      .ok i
  | _ => .ok i

def deferWorkflow (s : Store) (id : WorkflowInstanceId) (nowMs : Millis)
    (limits : WorkflowsConfig) : Result Store := do
  limits.validate
  let nextRunAtMs ← deadline nowMs limits.recoveryBackoffMs
  match s.instances.find? id with
  | none => return s
  | some i => do
    let i' ← deferRun nowMs nextRunAtMs i
    return s.put i'

structure ClaimedWorkflowRun where
  fence : WorkflowFence
  target : WorkflowTarget
  externalInstanceId : String
  createdAtMs : Millis
  schedule : Option WorkflowCronSchedule
  input : DurableValue
  recovered : Bool
  rollback : Bool
deriving DecidableEq

def claimRun (limits : WorkflowsConfig) (nowMs : Millis) (token : WorkflowToken)
    (i : Instance) : Result Instance := do
  let lease ← deadline nowMs limits.leaseMs
  i.updateState { i with
    lifecycle := .running ⟨token, lease, false, false⟩
    updatedAtMs := nowMs
    hasActivated := true }

/-- Claims an identity that the caller has checked, when it is queued and due. -/
def claimWorkflow (s : Store) (identity : WorkflowInstanceIdentity) (nowMs : Millis)
    (limits : WorkflowsConfig) (token : WorkflowToken) :
    Result (Option ClaimedWorkflowRun × Store) := do
  limits.validate
  match (s.instances.find? identity.instanceId).filter fun i =>
      i.lifecycle.nextRunAtMs.any fun at_ => at_ ≤ nowMs with
  | none => return (none, s)
  | some i => do
    ensure (i.identity = identity) (error .workflowInvariantViolation)
    let i' ← claimRun limits nowMs token i
    return (some ⟨⟨identity.instanceId, identity.instanceGeneration, token⟩,
      identity.target, identity.externalInstanceId, identity.createdAtMs,
      identity.schedule, i.input, i.hasActivated, i.rollbackRequested⟩, s.put i')

def heartbeatWorkflow (s : Store) (fence : WorkflowFence) (nowMs : Millis)
    (limits : WorkflowsConfig) : Result Store := do
  limits.validate
  let i ← okOr (s.instances.find? fence.instanceId) (error .workflowRunStale)
  let i' ← heartbeat limits i fence nowMs
  return s.put i'

/-! ## Release -/

/-- Where a run without running callbacks goes; nowhere is an invariant violation. -/
def releaseTo (i : Instance) (queuedAtMs : Millis) : Option Lifecycle :=
  if i.pauseRequested then
    some .paused
  else if i.anyStep (fun s => s.isPending || s.isDelayPending) ||
      i.accounts.registered = i.accounts.settled then
    some (.queued queuedAtMs)
  else if i.accounts.nextWakeAtMs ≠ none then
    some .waiting
  else
    none

def release (i : Instance) (queuedAtMs nowMs : Millis) : Result Instance := do
  ensure (i.anyStep StepState.isRunning = false) (error .workflowInstanceBusy)
  let lifecycle ← okOr (releaseTo i queuedAtMs) (error .workflowInvariantViolation)
  ensure (i.runToken.isSome = true) (error .workflowRunStale)
  i.updateState { i with lifecycle := lifecycle, updatedAtMs := nowMs }

def yieldWorkflow (s : Store) (fence : WorkflowFence) (nowMs : Millis) :
    Result (WorkflowState × Store) := do
  let i ← s.running fence nowMs
  ensure (i.admits = false) (error .workflowInstanceStateConflict)
  let i' ← release i nowMs nowMs
  return (i'.state, s.put i')

/-! ## Recovery -/

/-- Returns the callbacks of an expired run, without counting an attempt. -/
def resetStep (token : WorkflowToken) (nowMs : Millis) (i : Instance) (step : Step) :
    Result Instance :=
  match step.state with
  | .running attempt runToken _ =>
    if runToken = token then i.updateStep step (.pending (some attempt)) nowMs
    else .ok i
  | _ => .ok i

def recoverRun (queuedAtMs nowMs : Millis) (i : Instance) : Result Instance := do
  let token ← okOr i.runToken sqlError
  let i ← i.steps.rows.foldlM (resetStep token nowMs) i
  release i queuedAtMs nowMs

def Store.expiredRuns (s : Store) (nowMs : Millis) (limit : Nat) : List Instance :=
  ((s.instances.rows.filter fun i => i.leaseUntil.any fun lease => lease ≤ nowMs
    ).insertionSort fun i j =>
      i.leaseUntil.getD 0 < j.leaseUntil.getD 0 ∨
        (i.leaseUntil.getD 0 = j.leaseUntil.getD 0 ∧ i.id.toNat ≤ j.id.toNat)).take limit

def recoverOne (limits : WorkflowsConfig) (nowMs : Millis) (s : Store)
    (id : WorkflowInstanceId) : Result Store := do
  let i ← okOr (s.instances.find? id) sqlError
  let queuedAtMs ← deadline nowMs limits.recoveryBackoffMs
  let i' ← recoverRun queuedAtMs nowMs i
  return s.put i'

def recoverWorkflows (s : Store) (nowMs : Millis) (limits : WorkflowsConfig)
    (limit : Nat) : Result (Nat × Store) := do
  limits.validate
  bounded limit
  let expired := s.expiredRuns nowMs limit
  let s' ← (expired.map Instance.id).foldlM (recoverOne limits nowMs) s
  return (expired.length, s')

end Workflow
end OpenCompute
