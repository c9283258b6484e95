import OpenCompute.Cron.Model

/-!
# Cron delivery

Claims, reports of known and unknown results, and the statement of
`reset_claims.sql` that recovers the runs that were claimed when the process
stopped.  A report carries the run as its claim returned it.
-/

namespace OpenCompute
namespace Cron

open Relational Transaction

def sqlError {α : Type} (x : Except SqlError α) : Result α :=
  mapErr Scheduler.mapSqlError x

def addMs (nowMs : Int) (deltaMs : Nat) : Result Int := do
  ensure ((deltaMs : Int) ≤ i64Max) cronInvariant
  okOr (checkedAdd nowMs deltaMs) cronInvariant

structure ClaimedCronRun where
  id : CronRunId
  activationId : CronActivationId
  instanceId : Uuid
  workerId : WorkerId
  versionId : VersionId
  executionGeneration : Nat
  expression : String
  scheduledAtMs : Int
  attempt : Nat
  dispatchDeadlineAtMs : Int
deriving DecidableEq

/-! ## Claims -/

def overdue (nowMs : Int) (maxRetries : Nat) (run : CronRun) : Bool :=
  run.state = .ready ∧ run.firstDispatchedAtMs ≠ none ∧
    (run.dispatchDeadlineAtMs.any (fun deadline => deadline ≤ nowMs) ∨ maxRetries + 1 ≤ run.attempt)

def failOverdue (nowMs : Int) (run : CronRun) : RunColumns :=
  { run.toRunColumns with
    state := .failed
    nextAttemptAtMs := none
    errorCode := some
      (if run.dispatchDeadlineAtMs.any (fun deadline => deadline ≤ nowMs) then
        "CRON_DISPATCH_DEADLINE"
      else
        "CRON_RETRY_EXHAUSTED")
    completedAtMs := some nowMs }

def claimable (nowMs : Int) (maxRetries : Nat) (run : CronRun) : Bool :=
  run.state = .ready ∧ run.nextAttemptAtMs.any (fun next => next ≤ nowMs) ∧
    run.attempt < maxRetries + 1 ∧
    run.dispatchDeadlineAtMs.all (fun deadline => nowMs < deadline)

/-- `ORDER BY next_attempt_at_ms, scheduled_at_ms, id`. -/
def claimOrder (a b : CronRun) : Prop :=
  let next := fun (run : CronRun) => run.nextAttemptAtMs.getD 0
  next a < next b ∨ (next a = next b ∧ (a.scheduledAtMs < b.scheduledAtMs ∨
      (a.scheduledAtMs = b.scheduledAtMs ∧ a.id ≤ b.id)))

instance (a b : CronRun) : Decidable (claimOrder a b) := by
  unfold claimOrder
  infer_instance

def claimSet (nowMs firstDeadlineMs : Int) (run : CronRun) : RunColumns :=
  { run.toRunColumns with
    state := .claimed
    nextAttemptAtMs := none
    attempt := run.attempt + 1
    claimedAtMs := some nowMs
    firstDispatchedAtMs := some (run.firstDispatchedAtMs.getD nowMs)
    dispatchDeadlineAtMs := some (run.dispatchDeadlineAtMs.getD firstDeadlineMs) }

def readClaimedRun (s : Store) (id : CronRunId) : Result ClaimedCronRun := do
  let run ← okOr ((s.runs.find? id).filter fun run => run.state = .claimed)
    Scheduler.unavailable
  let deadline ← okOr run.dispatchDeadlineAtMs Scheduler.unavailable
  return {
    id := run.id
    activationId := run.activationId
    instanceId := s.owner
    workerId := run.workerId
    versionId := run.versionId
    executionGeneration := run.executionGeneration
    expression := run.expression
    scheduledAtMs := run.scheduledAtMs
    attempt := run.attempt
    dispatchDeadlineAtMs := deadline }

def claimRun (nowMs firstDeadlineMs : Int) (claims : List ClaimedCronRun × Store)
    (id : CronRunId) : Result (List ClaimedCronRun × Store) := do
  let run ← okOr ((claims.2.runs.find? id).filter fun run =>
    run.state = .ready ∧ run.nextAttemptAtMs.any (fun next => next ≤ nowMs))
    cronInvariant
  let run ← sqlError (run.update (claimSet nowMs firstDeadlineMs run))
  let s := { claims.2 with runs := claims.2.runs.replace run }
  let claimed ← readClaimedRun s id
  return (claims.1 ++ [claimed], s)

def claimIds (s : Store) (nowMs : Int) (maxRetries limit : Nat) : List CronRunId :=
  (((s.runs.rows.filter (claimable nowMs maxRetries)).insertionSort claimOrder).take
    limit).map fun run => run.id

def claimCronRuns (s : Store) (nowMs : Int) (maxRetries limit : Nat) :
    Result (List ClaimedCronRun × Store) := do
  ensure (maxRetries ≤ 3 ∧ limit ≠ 0) cronInvariant
  let firstDeadlineMs ← addMs nowMs (15 * 60 * 1000)
  let s ← sqlError (updateRuns s (overdue nowMs maxRetries) (failOverdue nowMs))
  (claimIds s nowMs maxRetries limit).foldlM (claimRun nowMs firstDeadlineMs) ([], s)

/-! ## Reports -/

inductive CronCompletion where
  | success
  | failure (noRetry : Bool) (errorCode : String)
deriving DecidableEq

inductive CronCompletionResult where
  | terminal
  | retried
  | stale
deriving DecidableEq, Repr

def Store.reported (s : Store) (run : ClaimedCronRun) : Option CronRun :=
  (s.runs.find? run.id).filter fun row =>
    row.activationId = run.activationId ∧ row.state = .claimed

def cronRetryAt (id : CronRunId) (attempt : Nat) (nowMs : Int) : Result Int := do
  let exponent := attempt - 1
  ensure (exponent < 64) cronInvariant
  let seconds := 2 * 2 ^ exponent % 2 ^ 64
  let jitterMs := id.toNat % 65536 % 1000
  ensure (seconds * 1000 + jitterMs < 2 ^ 64) cronInvariant
  addMs nowMs (seconds * 1000 + jitterMs)

def retryAt (run : ClaimedCronRun) (completion : CronCompletion) (nowMs : Int)
    (maxRetries : Nat) : Result (Option Int) :=
  match completion with
  | .failure false _ =>
    if run.attempt < maxRetries + 1 then do
      let next ← cronRetryAt run.id run.attempt nowMs
      return if next < run.dispatchDeadlineAtMs then some next else none
    else
      .ok none
  | .failure true _ => .ok none
  | .success => .ok none

def completionSet (row : CronRun) (run : ClaimedCronRun)
    (completion : CronCompletion) (next : Option Int) (nowMs : Int)
    (maxRetries : Nat) : RunColumns × CronCompletionResult :=
  let set := fun (state : CronRunState) (noRetry : Bool) (errorCode : Option String) =>
    { row.toRunColumns with
      state := state
      attempt := run.attempt
      noRetry := noRetry
      nextAttemptAtMs := next
      claimedAtMs := none
      errorCode := errorCode
      completedAtMs := if state ≠ .ready then some nowMs else none }
  match completion with
  | .success => (set .complete false none, .terminal)
  | .failure noRetry errorCode =>
    if next.isSome then
      (set .ready false (some errorCode), .retried)
    else
      (set .failed noRetry (some
        (if noRetry = false ∧ run.attempt < maxRetries + 1 then
          "CRON_DISPATCH_DEADLINE"
        else
          errorCode)), .terminal)

def completeCronRun (s : Store) (run : ClaimedCronRun) (completion : CronCompletion)
    (nowMs : Int) (maxRetries : Nat) : Result (CronCompletionResult × Store) := do
  ensure (maxRetries ≤ 3) cronInvariant
  match s.reported run with
  | none => return (.stale, s)
  | some row =>
    let next ← retryAt run completion nowMs maxRetries
    let set := completionSet row run completion next nowMs maxRetries
    let row ← sqlError (row.update set.1)
    return (set.2, { s with runs := s.runs.replace row })

/-- What becomes of a claimed run without a result: retried at `next`, or failed. -/
def unknownSet (row : CronRun) (reason : CronUnknownReason) (nowMs next : Int)
    (maxRetries : Nat) : RunColumns :=
  let retried := row.attempt < maxRetries + 1 ∧
    row.dispatchDeadlineAtMs.any (fun deadline => next < deadline)
  { row.toRunColumns with
    lastUnknownReason := some reason
    state := if retried then .ready else .failed
    nextAttemptAtMs := if retried then some next else none
    claimedAtMs := none
    errorCode :=
      if row.dispatchDeadlineAtMs.any (fun deadline => deadline ≤ next) then
        some "CRON_DISPATCH_DEADLINE"
      else if maxRetries + 1 ≤ row.attempt then
        some "CRON_RETRY_EXHAUSTED"
      else
        row.errorCode
    completedAtMs := if retried then none else some nowMs }

def markCronUnknown (s : Store) (run : ClaimedCronRun) (reason : CronUnknownReason)
    (nowMs : Int) (maxRetries : Nat) : Result (Bool × Store) := do
  ensure (maxRetries ≤ 3) cronInvariant
  let next ← addMs nowMs 250
  match s.reported run with
  | none => return (false, s)
  | some row =>
    let row ← sqlError (row.update (unknownSet row reason nowMs next maxRetries))
    return (true, { s with runs := s.runs.replace row })

/-! ## Restart -/

/-- The Cron statement of `reset_claims.sql`. -/
def resetSet (nowMs : Int) (maxRetries : Nat) (row : CronRun) : RunColumns :=
  unknownSet row (row.lastUnknownReason.getD .transportTimeout) nowMs (nowMs + 250)
    maxRetries

def resetClaims (s : Store) (nowMs : Int) (cronMaxRetries : Nat) : Result Store := do
  ensure (cronMaxRetries ≤ 3 ∧ (checkedAdd nowMs 250).isSome) Scheduler.invalid
  sqlError (updateRuns s (fun run => run.state = .claimed)
    (resetSet nowMs cronMaxRetries))

end Cron
end OpenCompute
