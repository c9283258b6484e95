import OpenCompute.Workflow.Lifecycle

/-!
# The history verifier

`durable_history.rs`: one scan over the steps and one over the events recompute
every projection of an instance and compare it with what is stored.  Checks that
the types of the rows express already, such as the columns that belong to a
state, have no counterpart here.
-/

namespace OpenCompute
namespace Workflow

open Relational Transaction

def violation : PlatformError := error .workflowInvariantViolation

/-! ## One step -/

def Step.times (s : Step) : List Millis :=
  [s.startedAtMs, s.updatedAtMs] ++ s.state.due.toList ++ s.attemptStarted.toList ++
    s.deadline.toList

def stepFits (i : Instance) (s : Step) : Bool :=
  (s.state.runToken.all fun token => i.runToken = some token) &&
  (i.live || s.state.settled || s.state.isCancelled) &&
  (!i.live || !s.state.isCancelled)

/-- The delay of a retry follows from the policy, unless the version computed it. -/
def retryDelayFits (config : WorkflowStepConfig) (attempt : Attempt) (delayMs : Nat) :
    Bool :=
  config.retries.delay = none || match config.retries.delayAfter attempt.number with
    | .ok expected => expected = delayMs
    | .error _ => false

def verifyDo (config : WorkflowStepConfig) (s : Step) : Bool :=
  s.attemptNumber ≤ config.retries.limit + 1 &&
  (s.state.attempt.all fun attempt =>
    attempt.deadlineAtMs = attempt.startedAtMs + (config.timeout : Int)) &&
  match s.state with
  | .delayPending _ code => config.retries.delay = none && code = .workflowStepTimeout
  | .complete attempt _ _ => attempt.any fun attempt => s.updatedAtMs < attempt.deadlineAtMs
  | .failed attempt _ => attempt.isSome
  | .retryWait attempt code delayMs dueAtMs =>
    attempt.number ≤ config.retries.limit && dueAtMs = s.updatedAtMs + delayMs &&
    retryDelayFits config attempt delayMs &&
    (code = .workflowExecutionFailed || code = .workflowStepTimeout)
  | .waiting _ => false
  | _ => true

def verifyEnvelope (eventType : String) (expectedDue : Millis) (ceiling : Option Int)
    (output : Option StepOutput) (seq : Int) : Result Unit := do
  let envelope ← fromWire output
  ensure (1 ≤ seq ∧ envelope.eventType = eventType ∧
      (envelope.timestampMs < expectedDue ∨ ceiling.any (fun c => seq ≤ c) = true))
    violation

def verifyEventWait (eventType : String) (expectedDue : Millis) (s : Step) : Result Unit := do
  ensure (s.ceiling.any (fun seq => 0 ≤ seq) = true) violation
  match s.state with
  | .complete _ output consumed => do
    let seq ← okOr consumed violation
    verifyEnvelope eventType expectedDue s.ceiling output seq
  | .failed _ code =>
    ensure (expectedDue ≤ s.updatedAtMs ∧ code = .workflowEventTimeout) violation
  | _ => return

def verifySleep (expectedDue : Millis) (s : Step) : Result Unit := do
  ensure (s.ceiling = none ∧ s.state.consumed = none ∧ s.state.isFailed = false) violation
  ensure (s.state.isComplete = true -> expectedDue ≤ s.updatedAtMs) violation

def verifyWait (s : Step) (expectedDue : Millis) : Result Unit := do
  ensure (s.state.attempt = none ∧
    (s.state.isWaiting || s.state.settled || s.state.isCancelled) = true) violation
  ensure (SafeTime expectedDue) violation
  ensure (s.state.isWaiting = true -> s.state.due = some expectedDue) violation
  match s.descriptor.config with
  | .waitEvent eventType _ => verifyEventWait eventType expectedDue s
  | _ => verifySleep expectedDue s

def verifyStep (i : Instance) (s : Step) : Result Unit := do
  ensure (forall t, t ∈ s.times -> SafeTime t) violation
  ensure (stepFits i s = true) violation
  match s.descriptor.config, Instance.registeredDue s.descriptor.config s.startedAtMs with
  | .doStep config, _ => ensure (verifyDo config s = true) violation
  | _, some expectedDue => verifyWait s expectedDue
  | _, none => .error violation

/-! ## The scan over the steps -/

structure Scan where
  seen : List (WorkflowStepKind × String)
  consumed : List Int
  batchFirst : Nat
  batchEnd : Nat
  batchDependencies : List Nat
  rollbackStarted : Bool
  settledOrdinals : List Nat
  registered : Nat
  completed : Nat
  settled : Nat
  nextWake : Option Millis
  hasPending : Bool
  bytes : Nat

def Scan.start (i : Instance) : Scan :=
  ⟨[], [], 0, 0, [], false, [], 0, 0, 0, none, false,
    initialStateBytes i.identity i.input.size + i.lifecycle.bytes⟩

/-- Opens the next batch when the last one is full. -/
def Scan.openBatch (scan : Scan) (d : WorkflowStepDescriptor) : Scan :=
  if scan.registered = scan.batchEnd then
    { scan with
      batchFirst := scan.registered
      batchEnd := scan.registered + d.batchSize
      batchDependencies := d.dependencies
      rollbackStarted := scan.rollbackStarted || d.rollbackStep }
  else
    { scan with rollbackStarted := scan.rollbackStarted || d.rollbackStep }

def earlier (a b : Option Millis) : Option Millis :=
  match a, b with
  | some a, some b => some (min a b)
  | some a, none => some a
  | none, b => b

def Scan.add (scan : Scan) (s : Step) : Scan :=
  { scan with
    seen := (s.descriptor.kind, s.descriptor.name) :: scan.seen
    consumed := s.state.consumed.toList ++ scan.consumed
    settledOrdinals :=
      if s.state.settled then s.ordinal :: scan.settledOrdinals else scan.settledOrdinals
    registered := scan.registered + 1
    completed := scan.completed + if s.state.isComplete then 1 else 0
    settled := scan.settled + if s.state.settled then 1 else 0
    nextWake := earlier scan.nextWake s.wake
    hasPending := scan.hasPending || s.state.isPending || s.state.isRunning ||
      s.state.isDelayPending
    bytes := scan.bytes + s.bytes }

def rollbackFits (scan : Scan) (d : WorkflowStepDescriptor) : Bool :=
  if d.rollbackStep then
    d.batchSize = 1 && d.dependencies = []
  else
    !scan.rollbackStarted

def batchFits (scan : Scan) (d : WorkflowStepDescriptor) : Bool :=
  d.batchFirstOrdinal = scan.batchFirst &&
  d.batchSize = scan.batchEnd - scan.batchFirst &&
  d.dependencies = scan.batchDependencies &&
  d.dependencies.all fun parent => parent ∈ scan.settledOrdinals

def scanStep (i : Instance) (scan : Scan) (s : Step) : Result Scan := do
  let d := s.descriptor
  ensure (d.ordinal = scan.registered ∧
    d.nameCount = scan.seen.count (d.kind, d.name) + 1) violation
  ensure (rollbackFits scan d = true) violation
  let opened := scan.openBatch d
  ensure (batchFits opened d = true) violation
  ensure (s.ceiling.all (fun seq => seq < i.nextEventSeq) = true) violation
  verifyStep i s
  ensure (s.state.consumed.all (fun seq => ¬ seq ∈ scan.consumed) = true) violation
  return opened.add s

/-! ## The scan over the events -/

structure EventScan where
  count : Nat
  bytes : Nat
  previous : Int

def scanEvent (i : Instance) (consumed : List Int) (scan : EventScan) (e : Event) :
    Result EventScan := do
  ensure (scan.count + 1 ≤ i.accounts.eventCount) violation
  ensure (SafeTime e.acceptedAtMs) violation
  ensure (ValidName e.eventType) violation
  ensure (scan.previous < e.seq ∧ e.seq < i.nextEventSeq ∧ ¬ e.seq ∈ consumed) violation
  return ⟨scan.count + 1, scan.bytes + e.logicalBytes, e.seq⟩

def verifyEvents (i : Instance) (consumed : List Int) : Result EventScan := do
  let scan ← i.events.rows.foldlM (scanEvent i consumed) ⟨0, 0, 0⟩
  ensure (consumed.all (fun seq => seq < i.nextEventSeq) = true) violation
  return scan

/-! ## The instance -/

def Instance.times (i : Instance) : List Millis :=
  [i.identity.createdAtMs, i.updatedAtMs] ++ i.lifecycle.nextRunAtMs.toList ++
    i.leaseUntil.toList ++ (i.lifecycle.terminal.map Terminal.atMs).toList ++
    i.accounts.nextWakeAtMs.toList ++ i.expiresAt.toList

def expiryFits (i : Instance) : Bool :=
  i.lifecycle.terminal.all fun terminal =>
    match i.retention.expiresAt terminal.atMs (i.state = .complete) with
    | .ok expiresAtMs => expiresAtMs = terminal.expiresAtMs
    | .error _ => false

def verifyInstance (i : Instance) : Result Unit := do
  ensure (forall t, t ∈ i.times -> SafeTime t) violation
  ensure (expiryFits i = true) violation
  ensure (1 ≤ i.generation ∧ 1 ≤ i.nextEventSeq) violation
  ensure (i.live = true ∨ (i.rollbackRequested = false ∧ i.accounts.nextWakeAtMs = none)) violation

/-- The projections that the two scans recompute. -/
def projectionsFit (i : Instance) (scan : Scan) (events : EventScan) : Prop :=
  scan.registered = scan.batchEnd ∧
  scan.registered = i.accounts.registered ∧
  scan.completed = i.accounts.completed ∧
  scan.settled = i.accounts.settled ∧
  scan.nextWake = i.accounts.nextWakeAtMs ∧
  events.count = i.accounts.eventCount ∧
  events.bytes = i.accounts.eventBytes ∧
  scan.bytes + events.bytes = i.accounts.stateBytes ∧
  (i.state = .complete -> scan.settled = scan.registered) ∧
  (i.state = .waiting -> scan.nextWake ≠ none ∧ scan.hasPending = false) ∧
  ((0 < scan.registered ∨ i.state = .running) -> i.hasActivated = true) ∧
  (i.generation = 1 ↔ i.lastRestart = none) ∧
  (scan.rollbackStarted = true -> i.rollbackRequested = true ∨ i.state = .terminated)

instance (i : Instance) (scan : Scan) (events : EventScan) :
    Decidable (projectionsFit i scan events) := by
  unfold projectionsFit
  infer_instance

def verify (i : Instance) : Result Unit := do
  let scan ← (i.steps.rows.take 1025).foldlM (scanStep i) (Scan.start i)
  let events ← verifyEvents i scan.consumed
  ensure (projectionsFit i scan events) violation
  verifyInstance i

def verifyHistory (versionDigest : WorkflowTarget -> Digest) (i : Instance) : Result Unit := do
  ensure (versionDigest i.identity.target = i.identity.target.descriptorSha256) violation
  verify i

def verifyWorkflowHistory (versionDigest : WorkflowTarget -> Digest) (s : Store)
    (id : WorkflowInstanceId) : Result Unit := do
  let i ← okOr (s.instances.find? id) (error .workflowInstanceNotFound)
  verifyHistory versionDigest i

end Workflow
end OpenCompute
