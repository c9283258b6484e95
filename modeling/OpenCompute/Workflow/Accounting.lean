import OpenCompute.Workflow.Model

/-!
# Accounting and capacity

The view `workflow_accounting`, from which triggers refresh the counters of an
instance after every write to its steps and events, and the capacity check of
the store.  A live instance and each step that may still fail hold a
reservation of one failure record.
-/

namespace OpenCompute
namespace Workflow

open Relational Transaction

/-! ## Deadlines -/

def deadline (nowMs : Millis) (duration : Nat) : Result Millis := do
  ensure ((duration : Int) ≤ i64Max) (error .limitInvalid)
  okOr (checkedAdd nowMs duration) (error .limitInvalid)

def durableDeadline (nowMs : Millis) (duration : Nat) : Result Millis := do
  let value ← deadline nowMs duration
  ensure (SafeTime value) (error .workflowDurationInvalid)
  return value

def bounded (limit : Nat) : Result Unit :=
  ensure (limit ≠ 0 ∧ limit ≤ 1000) (error .limitInvalid)

variable {nowMs value : Millis} {duration : Nat}

theorem durableDeadline_eq_ok (hdeadline : durableDeadline nowMs duration = .ok value) :
    value = nowMs + duration ∧ SafeTime value := by
  simp only [durableDeadline, deadline, ok_iff, checkedAdd_eq_some] at hdeadline
  rcases hdeadline with ⟨_, ⟨_, _, _, hvalue⟩, hsafe, rfl⟩
  exact ⟨hvalue, hsafe⟩

theorem durableDeadline_safe {deadline : Millis}
    (hdeadline : durableDeadline nowMs 0 = .ok deadline) : SafeTime nowMs := by
  rcases durableDeadline_eq_ok hdeadline with ⟨heq, hsafe⟩
  rw [heq] at hsafe
  simpa using hsafe

/-! ## Bytes -/

def failureJson : String :=
  "\x7b\"name\":\"Error\",\"message\":\"Workflow execution failed\"\x7d"

def failureBytes : Nat := failureJson.utf8ByteSize

theorem failureBytes_eq : failureBytes = 54 := by
  decide

def StepState.bytes (s : StepState) : Nat :=
  s.output.elim 0 StepOutput.size + if s.failure.isSome then failureBytes else 0

def Step.bytes (s : Step) : Nat := s.descriptor.stateBytes + s.state.bytes

/-- The deadline a step contributes to `next_wake`. -/
def Step.wake (s : Step) : Option Millis :=
  match s.state with
  | .pending attempt => attempt.map Attempt.deadlineAtMs
  | .running attempt _ _ => some attempt.deadlineAtMs
  | .delayPending _ _ => some s.updatedAtMs
  | .retryWait _ _ _ due => some due
  | .waiting due => some due
  | _ => none

def initialStateBytes (identity : WorkflowInstanceIdentity) (inputBytes : Nat) : Nat :=
  inputBytes + instanceBytes + identity.target.definitionName.utf8ByteSize +
    identity.externalInstanceId.utf8ByteSize + identity.target.className.utf8ByteSize +
    identity.schedule.elim 0 (fun schedule => schedule.cron.utf8ByteSize + 16)

def Lifecycle.bytes (l : Lifecycle) : Nat :=
  l.output.elim 0 DurableValue.size + if l.errorCode.isSome then failureBytes else 0

namespace Instance

def historyBytes (i : Instance) : Nat :=
  (i.steps.rows.map Step.bytes).sum + (i.events.rows.map Event.logicalBytes).sum

/-- `workflow_accounting`, with the bytes that the triggers derive from it. -/
def accounting (i : Instance) : Accounting where
  registered := i.steps.rows.length
  settled := i.steps.rows.countP fun s => s.state.settled
  completed := i.steps.rows.countP fun s => s.state.isComplete
  eventCount := i.events.rows.length
  eventBytes := (i.events.rows.map Event.logicalBytes).sum
  stateBytes := initialStateBytes i.identity i.input.size + i.lifecycle.bytes + i.historyBytes
  nextWakeAtMs := (i.steps.rows.filterMap Step.wake).min?

/-- The `AFTER` triggers on the steps and events of an instance. -/
def account (i : Instance) : Instance := { i with accounts := i.accounting }

end Instance

/-! ## Reservations -/

/-- A step that may still fail and has not been charged for it, by its state. -/
def StepState.reserves (s : StepState) : Bool :=
  s.isPending || s.isRunning || s.isDelayPending || s.isWaiting

def Step.reserves (s : Step) : Bool :=
  (s.descriptor.kind = .doStep || s.descriptor.kind = .waitEvent) && s.state.reserves

def Instance.reservations (i : Instance) : Nat :=
  (if i.live then 1 else 0) + i.steps.rows.countP Step.reserves

/-- Bytes and reservations, of one instance or of several. -/
structure Usage where
  bytes : Nat
  reservations : Nat
deriving DecidableEq, Repr

def Usage.held (u : Usage) : Nat := u.bytes + u.reservations * failureBytes

def Instance.usage (i : Instance) : Usage := ⟨i.accounts.stateBytes, i.reservations⟩

def accountCapacity (instances : List Instance) : Usage :=
  ⟨(instances.map fun i => i.accounts.stateBytes).sum, (instances.map Instance.reservations).sum⟩

/-- What all instances but one use. -/
def Store.others (s : Store) (id : WorkflowInstanceId) : Usage :=
  accountCapacity (s.instances.erase id).rows

def checkGrowth (current : Nat) (change : Int) (limit : Nat) : Result Unit := do
  ensure (0 ≤ current + change) (error .workflowInvariantViolation)
  ensure (change ≤ 0 ∨ current + change ≤ limit) (error .workflowStateQuotaExceeded)

/--
The check of a change to one instance, while all other instances use `others`.
A settlement may always use a reservation that is held.
-/
def capacityChange (limits : WorkflowsConfig) (others : Usage) (i : Instance)
    (extraBytes extraReservations : Int) : Result Unit := do
  let change := extraBytes + extraReservations * failureBytes
  checkGrowth i.usage.held change limits.maxStateBytes
  checkGrowth (others.held + i.usage.held) change limits.maxTotalStateBytes

/-- The check of an insertion: every live run keeps room for its failure. -/
def capacity (limits : WorkflowsConfig) (account : Usage) (extra : Nat) : Result Unit :=
  ensure (extra ≤ limits.maxStateBytes ∧
      account.bytes + extra + account.reservations * failureBytes ≤ limits.maxTotalStateBytes)
    (error .workflowStateQuotaExceeded)

end Workflow
end OpenCompute
