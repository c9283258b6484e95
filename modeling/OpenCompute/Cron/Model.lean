import OpenCompute.Platform
import OpenCompute.Relational.Table

/-!
# Cron schedules and runs

The tables `cron_schedules` and `cron_runs`.  A row of runs carries the proof
that it satisfies the `CHECK` constraints of its table, and an update runs the
two guard triggers before the constraints.  A constraint that evaluates to
`NULL` does not fail, and neither does a guard, so that columns that may be
`NULL` are compared as SQL does.
-/

namespace OpenCompute
namespace Cron

open Relational Transaction

abbrev CronRunId := Uuid
abbrev CronActivationId := Uuid
abbrev WorkerId := Uuid
abbrev VersionId := Uuid

def cronInvariant : PlatformError :=
  ⟨.schedulerInternalProtocolError, "Cron scheduler invariant failed"⟩

/-! ## Schedules -/

structure Schedule where
  activationId : CronActivationId
  workerId : WorkerId
  versionId : VersionId
  executionGeneration : Nat
  expression : String
  nextFireAtMs : Int
  generation_pos : 1 ≤ executionGeneration
  expression_length : 1 ≤ expression.length ∧ expression.length ≤ 256
  nextFire_nonneg : 0 ≤ nextFireAtMs

instance : DecidableEq Schedule := fun a b =>
  decidable_of_iff
    ((a.activationId, a.workerId, a.versionId, a.executionGeneration, a.expression,
        a.nextFireAtMs) =
      (b.activationId, b.workerId, b.versionId, b.executionGeneration, b.expression,
        b.nextFireAtMs)) (by cases a; cases b; simp)

/-! ## Runs -/

inductive CronRunState where
  | ready
  | claimed
  | complete
  | failed
  | skipped
deriving DecidableEq, Repr

def CronRunState.terminal : CronRunState -> Bool
  | .complete | .failed | .skipped => true
  | .ready | .claimed => false

inductive CronUnknownReason where
  | transportTimeout
  | connectionLoss
  | malformedResponse
  | runtimeGenerationLost
deriving DecidableEq, Repr

structure RunColumns where
  id : CronRunId
  activationId : CronActivationId
  workerId : WorkerId
  scheduledAtMs : Int
  versionId : VersionId
  executionGeneration : Nat
  expression : String
  state : CronRunState
  attempt : Nat
  noRetry : Bool
  nextAttemptAtMs : Option Int
  claimedAtMs : Option Int
  firstDispatchedAtMs : Option Int
  dispatchDeadlineAtMs : Option Int
  lastUnknownReason : Option CronUnknownReason
  errorCode : Option String
  createdAtMs : Int
  completedAtMs : Option Int
deriving DecidableEq

namespace RunColumns

def dispatchWindowMs : Int := 900000

def DispatchCheck (r : RunColumns) : Prop :=
  match r.firstDispatchedAtMs, r.dispatchDeadlineAtMs with
  | none, none => r.attempt = 0
  | none, some _ => False
  | some first, some deadline => deadline = first + dispatchWindowMs
  | some _, none => True

def StateCheck (r : RunColumns) : Prop :=
  match r.state with
  | .ready => r.nextAttemptAtMs ≠ none ∧ r.claimedAtMs = none ∧ r.completedAtMs = none
  | .claimed => r.nextAttemptAtMs = none ∧ r.claimedAtMs ≠ none ∧ r.completedAtMs = none
  | .complete | .failed | .skipped =>
    r.nextAttemptAtMs = none ∧ r.claimedAtMs = none ∧ r.completedAtMs ≠ none

instance (r : RunColumns) : Decidable r.DispatchCheck := by
  unfold DispatchCheck
  split <;> infer_instance

instance (r : RunColumns) : Decidable r.StateCheck := by
  unfold StateCheck
  split <;> infer_instance

structure Checks (r : RunColumns) : Prop where
  scheduled_nonneg : 0 ≤ r.scheduledAtMs
  generation_pos : 1 ≤ r.executionGeneration
  expression_length : 1 ≤ r.expression.length ∧ r.expression.length ≤ 256
  attempt_le : r.attempt ≤ 4
  errorCode_length : forall code, r.errorCode = some code -> 1 ≤ code.length ∧ code.length ≤ 128
  dispatch : r.DispatchCheck
  state : r.StateCheck

instance (r : RunColumns) : Decidable r.Checks :=
  decidable_of_iff (0 ≤ r.scheduledAtMs ∧ 1 ≤ r.executionGeneration ∧
      (1 ≤ r.expression.length ∧ r.expression.length ≤ 256) ∧ r.attempt ≤ 4 ∧
      (r.errorCode.all fun code => 1 ≤ code.length ∧ code.length ≤ 128) = true ∧
      r.DispatchCheck ∧ r.StateCheck)
    ⟨fun ⟨h1, h2, h3, h4, h5, h6, h7⟩ => ⟨h1, h2, h3, h4,
        fun code hcode => by simpa [hcode] using h5, h6, h7⟩,
      fun ⟨h1, h2, h3, h4, h5, h6, h7⟩ => ⟨h1, h2, h3, h4, by
        cases hcode : r.errorCode with
        | none => rfl
        | some code => simpa using h5 code hcode, h6, h7⟩⟩

end RunColumns

structure CronRun extends RunColumns where
  checks : toRunColumns.Checks
deriving DecidableEq

/-! ## Guarded updates -/

/-- `!=` of two columns that may be `NULL`. -/
def sqlNe (a b : Option Int) : Bool :=
  match a, b with
  | some x, some y => x != y
  | _, _ => false

/-- The condition of `cron_runs_identity_guard` does not hold. -/
def IdentityKept (old new : RunColumns) : Prop :=
  old.id = new.id ∧ old.activationId = new.activationId ∧
  old.scheduledAtMs = new.scheduledAtMs ∧ old.versionId = new.versionId ∧
  old.executionGeneration = new.executionGeneration ∧
  old.expression = new.expression ∧ old.createdAtMs = new.createdAtMs ∧
  (old.firstDispatchedAtMs ≠ none ->
    ¬ (sqlNe old.firstDispatchedAtMs new.firstDispatchedAtMs = true ∨
      sqlNe old.dispatchDeadlineAtMs new.dispatchDeadlineAtMs = true))

/-- The transitions that `cron_runs_transition_guard` lets through. -/
def TransitionAllowed (old new : RunColumns) : Prop :=
  match old.state, new.state with
  | .ready, .claimed =>
    new.attempt = old.attempt + 1 ∧ new.noRetry = old.noRetry ∧ new.firstDispatchedAtMs ≠ none
  | .claimed, .ready => new.attempt = old.attempt ∧ new.noRetry = old.noRetry
  | .claimed, _ => new.attempt = old.attempt
  | .ready, .failed => new.attempt = old.attempt
  | .ready, .skipped => new.attempt = old.attempt
  | .complete, .complete => True
  | .failed, .failed => True
  | .skipped, .skipped => True
  | _, _ => False

instance (old new : RunColumns) : Decidable (IdentityKept old new) := by
  unfold IdentityKept
  infer_instance

instance (old new : RunColumns) : Decidable (TransitionAllowed old new) := by
  unfold TransitionAllowed
  split <;> infer_instance

def CronRun.update (old : CronRun) (new : RunColumns) : Except SqlError CronRun := do
  ensure (IdentityKept old.toRunColumns new)
    (.abort "cron run identity is immutable")
  ensure (TransitionAllowed old.toRunColumns new)
    (.abort "cron run transition invariant")
  if hchecks : new.Checks then
    return ⟨new, hchecks⟩
  else
    throw .constraint

theorem CronRun.update_eq_ok {old run : CronRun} {new : RunColumns} : old.update new = .ok run ↔
      IdentityKept old.toRunColumns new ∧ TransitionAllowed old.toRunColumns new ∧
        run.toRunColumns = new := by
  simp only [CronRun.update, ok_iff]
  constructor
  · rintro ⟨hidentity, htransition, hrow⟩
    split at hrow <;> cases hrow
    exact ⟨hidentity, htransition, rfl⟩
  · rintro ⟨hidentity, htransition, rfl⟩
    exact ⟨hidentity, htransition, by simp [run.checks]⟩

/-! ## The store -/

structure Store where
  owner : Uuid
  schedules : Table Schedule.activationId
  runs : Table (fun run : CronRun => run.id)
deriving DecidableEq

def Store.empty (owner : Uuid) : Store := ⟨owner, Table.empty, Table.empty⟩

/-- `UPDATE cron_runs SET … WHERE …`, row by row. -/
def updateRuns (s : Store) (selected : CronRun -> Bool) (set : CronRun -> RunColumns) :
    Except SqlError Store :=
  (s.runs.rows.filter selected).foldlM (fun s run => do
    let run ← run.update (set run)
    return { s with runs := s.runs.replace run }) s

/--
`INSERT OR IGNORE INTO cron_runs` of a new run.  The guard runs before the
conflicts of the two unique keys are noticed.
-/
def insertRun (s : Store) (run : CronRun) : Except SqlError (Bool × Store) := do
  ensure (run.state = .ready ∧ run.attempt = 0 ∧ run.noRetry = false ∧
      run.firstDispatchedAtMs = none ∧ run.dispatchDeadlineAtMs = none ∧
      run.lastUnknownReason = none ∧
      (s.schedules.find? run.activationId).any fun schedule =>
        schedule.versionId = run.versionId ∧
        schedule.executionGeneration = run.executionGeneration ∧
        schedule.expression = run.expression)
    (.abort "cron run insert authority invariant")
  if (s.runs.rows.any fun other => other.activationId = run.activationId ∧
      other.scheduledAtMs = run.scheduledAtMs) then
    return (false, s)
  else
    match s.runs.insert? run with
    | some runs => return (true, { s with runs := runs })
    | none => return (false, s)

end Cron
end OpenCompute
