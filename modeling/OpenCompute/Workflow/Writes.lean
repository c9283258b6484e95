import OpenCompute.Workflow.Accounting

/-!
# Guarded writes

Every write to an instance, its steps or its events runs the triggers of the
schema first and refreshes the counters afterwards.  Each guard is named after
its trigger.  Triggers that keep a column from being changed have no
counterpart here, because no write of the model changes such a column.
-/

namespace OpenCompute
namespace Workflow

open Relational Transaction

/-- A statement that a trigger or a constraint aborts. -/
def sqlError : PlatformError := error .workflowInvariantViolation

namespace Instance

/-! ## Fences -/

/-- The instance is running under this token, and its lease lasts beyond `nowMs`. -/
def leased (i : Instance) (token : WorkflowToken) (nowMs : Millis) : Bool :=
  i.lifecycle.run.any fun run => run.token = token && nowMs < run.leaseUntilMs

def leaseExpired (i : Instance) (token : WorkflowToken) (nowMs : Millis) : Bool :=
  i.lifecycle.run.any fun run => run.token = token && run.leaseUntilMs ≤ nowMs

def admits (i : Instance) : Bool := !i.pauseRequested && !i.yieldRequested

/--
The refresh of the counters is an `UPDATE` of its own, which
`workflow_instance_terminal_guard` and `workflow_instance_run_guard` let pass.
-/
def refreshGuard (i : Instance) : Bool :=
  i.live && (i.state ≠ .running || i.hasActivated)

/-! ## Updates of a step -/

def grantGuard (i : Instance) (old : Step) (attempt : Attempt) (token : WorkflowToken)
    (nowMs : Millis) : Bool :=
  nowMs < attempt.deadlineAtMs &&
  i.steps.rows.countP (fun s =>
    s.descriptor.batchFirstOrdinal = old.descriptor.batchFirstOrdinal) = old.descriptor.batchSize &&
  i.leased token nowMs && i.admits

/-- `workflow_step_transition_guard` and `workflow_step_terminal_guard`. -/
def stepTransitionGuard (i : Instance) (old new : Step) : Bool :=
  match old.state, new.state with
  | .pending _, .running attempt token _ => i.grantGuard old attempt token new.updatedAtMs
  | .retryWait previous _ _ due, .running attempt token _ =>
    due ≤ new.updatedAtMs && attempt.number = previous.number + 1 &&
      i.grantGuard old attempt token new.updatedAtMs
  | .running attempt token _, .complete _ _ _ =>
    new.updatedAtMs < attempt.deadlineAtMs && i.leased token new.updatedAtMs
  | .running _ token _, .failed _ _ => i.leased token new.updatedAtMs
  | .running _ token _, .retryWait _ _ _ _ => i.leased token new.updatedAtMs
  | .running _ token _, .pending _ => i.leaseExpired token new.updatedAtMs
  | .running attempt token _, .delayPending _ code =>
    attempt.deadlineAtMs ≤ new.updatedAtMs && code = .workflowStepTimeout && i.runToken = some token
  | .pending (some attempt), .failed _ _ => attempt.deadlineAtMs ≤ new.updatedAtMs && i.live
  | .pending (some attempt), .retryWait _ _ _ _ =>
    attempt.deadlineAtMs ≤ new.updatedAtMs && i.live
  | .pending (some attempt), .delayPending _ code =>
    attempt.deadlineAtMs ≤ new.updatedAtMs && code = .workflowStepTimeout && i.live
  | .delayPending _ _, .failed _ _ => i.live
  | .delayPending _ _, .retryWait _ _ _ _ => i.live
  | .waiting _, .complete _ _ _ => i.live
  | .waiting _, .failed _ _ => i.live
  | state, .cancelled _ => state.unfinished && i.live
  | _, _ => false

end Instance

/-- `workflow_step_attempt_guard`: only a grant starts a new attempt. -/
def stepAttemptGuard (old new : Step) : Bool :=
  new.state.attempt = old.state.attempt ||
  match new.descriptor.config, new.state with
  | .doStep config, .running attempt _ _ =>
    attempt.number = old.attemptNumber + 1 &&
    (match old.state with
      | .pending none => true
      | .retryWait _ _ _ due => due ≤ new.updatedAtMs
      | _ => false) &&
    attempt.startedAtMs = new.updatedAtMs &&
    attempt.deadlineAtMs = attempt.startedAtMs + config.timeout &&
    attempt.number ≤ 1 + config.retries.limit
  | _, _ => false

/-- An event may complete a wait: it came in time, or it was buffered before. -/
def eligible (due : Millis) (ceiling : Option Int) (e : Event) : Bool :=
  e.acceptedAtMs < due || ceiling.any fun seq => e.seq ≤ seq

namespace Instance

def nextEvent (i : Instance) (eventType : String) : Option Event :=
  i.events.rows.find? fun e => e.eventType = eventType

/-- The event that a completed wait names is the oldest of its type and not yet taken. -/
def consumptionGuard (i : Instance) (old : Step) (due : Millis) (eventType : String)
    (output : Option StepOutput) (consumed : Option Int) : Bool :=
  i.events.rows.any fun e =>
    consumed = some e.seq && e.eventType = eventType &&
    eligible due old.ceiling e &&
    i.events.rows.all (fun p => p.eventType ≠ e.eventType || e.seq ≤ p.seq) &&
    i.steps.rows.all (fun s => s.state.consumed ≠ some e.seq) &&
    output = some (.event ⟨e.eventType, e.payload, e.acceptedAtMs⟩)

/-- `workflow_wait_settlement_guard`. -/
def waitSettlementGuard (i : Instance) (old new : Step) : Bool :=
  match old.state with
  | .waiting due =>
    match new.state, old.descriptor.config with
    | .complete _ output consumed, .waitEvent eventType _ =>
      i.consumptionGuard old due eventType output consumed
    | .complete _ _ _, _ => due ≤ new.updatedAtMs
    | .failed _ code, .waitEvent eventType _ =>
      due ≤ new.updatedAtMs && code = .workflowEventTimeout &&
      i.events.rows.all fun e => !(e.eventType = eventType && eligible due old.ceiling e)
    | .failed _ _, _ => false
    | _, _ => true
  | _ => true

def putStep (i : Instance) (s : Step) : Instance :=
  { i with steps := i.steps.replace s }

def updateStep (i : Instance) (old : Step) (state : StepState) (nowMs : Millis) :
    Result Instance := do
  let new ← okOr (old.set? state nowMs) sqlError
  ensure (i.stepTransitionGuard old new = true) sqlError
  ensure (stepAttemptGuard old new = true) sqlError
  ensure (i.waitSettlementGuard old new = true) sqlError
  ensure (i.refreshGuard = true) sqlError
  return (i.putStep new).account

/-! ## Registration of a step -/

def registeredDue (config : WorkflowDurableConfig) (startedAtMs : Millis) :
    Option Millis :=
  match config with
  | .doStep _ => none
  | .sleep durationMs => some (startedAtMs + durationMs)
  | .sleepUntil timestampMs => some timestampMs
  | .waitEvent _ timeoutMs => some (startedAtMs + timeoutMs)

def nameCount (i : Instance) (kind : WorkflowStepKind) (name : String) : Nat :=
  i.steps.rows.countP fun s => s.descriptor.kind = kind && s.descriptor.name = name

/-- `workflow_step_insert_guard` outside of a restart. -/
def stepInsertGuard (i : Instance) (new : Step) : Bool :=
  i.lifecycle.run.any (fun run => new.updatedAtMs < run.leaseUntilMs) && i.admits &&
  i.rollbackRequested = new.descriptor.rollbackStep &&
  i.accounts.registered = new.ordinal &&
  new.state.attempt = none &&
  (if new.descriptor.kind = .doStep then new.state.isPending else new.state.isWaiting) &&
  new.descriptor.nameCount = 1 + i.nameCount new.descriptor.kind new.descriptor.name &&
  (new.ordinal = new.descriptor.batchFirstOrdinal ||
    i.steps.rows.any fun s => s.ordinal = new.descriptor.batchFirstOrdinal &&
      s.descriptor.batchSize = new.descriptor.batchSize &&
      s.descriptor.dependencies.length = new.descriptor.dependencies.length) &&
  (new.descriptor.kind ≠ .waitEvent || new.ceiling = some (i.nextEventSeq - 1)) &&
  new.state.due = registeredDue new.descriptor.config new.startedAtMs

/-- `workflow_dependency_insert_guard` for the edges of a new step. -/
def dependencyInsertGuard (i : Instance) (new : Step) : Bool :=
  new.descriptor.dependencies.all fun parent =>
    i.steps.rows.any fun s => s.ordinal = parent && s.state.settled &&
      parent < new.descriptor.batchFirstOrdinal

def insertStep (i : Instance) (new : Step) : Result Instance := do
  ensure (i.stepInsertGuard new = true) sqlError
  ensure (i.refreshGuard = true) sqlError
  let steps ← okOr (i.steps.insert? new) sqlError
  ensure (i.dependencyInsertGuard new = true) sqlError
  return { i with steps := steps }.account

/-! ## Events -/

/-- `workflow_event_insert_guard`. -/
def eventInsertGuard (i : Instance) (e : Event) : Bool :=
  decide (ValidName e.eventType) && i.live && i.nextEventSeq = e.seq && e.seq < i64Max

/-- An `INSERT` into `workflow_events`, which advances the sequence. -/
def insertEvent (i : Instance) (e : Event) : Result Instance := do
  ensure (i.eventInsertGuard e = true) sqlError
  ensure (i.refreshGuard = true) sqlError
  let events ← okOr (i.events.insert? e) sqlError
  return { i with events := events, nextEventSeq := i.nextEventSeq + 1 }.account

/-- `workflow_event_delete_guard` outside of an operation. -/
def eventDeleteGuard (i : Instance) (seq : Int) : Bool :=
  i.steps.rows.any fun s => s.descriptor.kind = .waitEvent && s.state.consumed = some seq

def deleteEvent (i : Instance) (seq : Int) : Result Instance := do
  ensure (i.eventDeleteGuard seq = true) sqlError
  ensure (i.refreshGuard = true) sqlError
  return { i with events := i.events.erase seq }.account

/-! ## Updates of the instance row -/

/-- The `CHECK`s of `workflow_instances` that its type does not express. -/
def Checks (i : Instance) : Prop :=
  1 ≤ i.generation ∧ 1 ≤ i.nextEventSeq ∧ i.accounts.registered ≤ 1024 ∧
  (i.live = false -> i.rollbackRequested = false ∧ i.accounts.nextWakeAtMs = none) ∧
  forall terminal, terminal ∈ i.lifecycle.terminal ->
    terminal.expiresAtMs ≤ (maxSafeInteger : Int) ∧
    terminal.expiresAtMs = terminal.atMs + (i.retention.duration (i.state = .complete) : Int)

instance (i : Instance) : Decidable i.Checks := by
  unfold Checks
  infer_instance

/-- `workflow_instance_run_guard` outside of an operation. -/
def instanceRunGuard (old new : Instance) : Bool :=
  (new.state ≠ .running || new.hasActivated) &&
  match old.lifecycle, new.lifecycle with
  | .running run, .running run' =>
    run'.token = run.token && run.leaseUntilMs ≤ run'.leaseUntilMs &&
    (!run.pauseRequested || run'.pauseRequested) &&
    (!run.yieldRequested || run'.yieldRequested)
  | .running run, lifecycle =>
    if lifecycle.live then
      run.leaseUntilMs ≤ new.updatedAtMs || run.yieldRequested ||
        run.pauseRequested || new.rollbackRequested
    else
      new.updatedAtMs < run.leaseUntilMs
  | _, _ => true

/-- An `UPDATE` of an instance that leaves its state column alone. -/
def update (old new : Instance) : Result Instance := do
  ensure (new.accounts = new.accounting) sqlError
  ensure (instanceRunGuard old new = true) sqlError
  ensure (old.live = true) sqlError
  ensure new.Checks sqlError
  return new

/-- `workflow_instance_frontier_guard` outside of an operation. -/
def instanceFrontierGuard (old new : Instance) : Bool :=
  (new.state = .running || !old.anyStep StepState.isRunning) &&
  (new.state ≠ .complete || new.accounts.settled = new.accounts.registered) &&
  (new.live || !old.anyStep StepState.unfinished) &&
  (new.state ≠ .waiting || (new.accounts.nextWakeAtMs ≠ none &&
    !old.anyStep fun s => s.isPending || s.isDelayPending))

/-- `workflow_instance_transition_guard` outside of an operation. -/
def instanceTransitionGuard (old new : Instance) : Bool :=
  new.state = old.state ||
  match old.state, new.state with
  | .queued, .running => true
  | .queued, .paused => true
  | .queued, .terminated => true
  | .running, state => state ≠ .running
  | .waiting, .queued => true
  | .waiting, .paused => true
  | .waiting, .terminated => true
  | .paused, .queued => true
  | .paused, .waiting => true
  | .paused, .terminated => true
  | _, _ => false

/-- An `UPDATE` of an instance that sets its state column. -/
def updateState (old new : Instance) : Result Instance := do
  ensure (instanceFrontierGuard old new = true) sqlError
  ensure (instanceTransitionGuard old new = true) sqlError
  old.update new

end Instance

/-! ## The store -/

def Store.put (s : Store) (i : Instance) : Store :=
  { s with instances := s.instances.replace i }

end Workflow
end OpenCompute
