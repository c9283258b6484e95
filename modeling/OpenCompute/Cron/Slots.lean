import OpenCompute.Cron.Delivery
import OpenCompute.Cron.Schedule

/-!
# Projecting slots

A due schedule gets at most one run, for the newest slot of the grace window,
and moves on to its next slot.  Terminal runs are deleted by age and by a cap
for each activation.  A promotion replaces the schedules of a Worker.
-/

namespace OpenCompute
namespace Cron

open Relational Transaction

variable {Pattern : Type} (croner : Croner Pattern)

structure CronSlotSummary where
  projected : Nat
  skipped : Nat
deriving DecidableEq, Repr

/-- `ORDER BY next_fire_at_ms, activation_id`. -/
def scheduleOrder (a b : Schedule) : Prop :=
  a.nextFireAtMs < b.nextFireAtMs ∨
    (a.nextFireAtMs = b.nextFireAtMs ∧ a.activationId ≤ b.activationId)

instance (a b : Schedule) : Decidable (scheduleOrder a b) := by
  unfold scheduleOrder
  infer_instance

def dueSchedules (s : Store) (nowMs : Int) (limit : Nat) : List Schedule :=
  ((s.schedules.rows.filter fun schedule =>
    schedule.nextFireAtMs ≤ nowMs).insertionSort scheduleOrder).take limit

def slotRun (schedule : Schedule) (id : CronRunId) (scheduledAtMs nowMs : Int)
    (hslot : 0 ≤ scheduledAtMs) : CronRun :=
  { id := id
    activationId := schedule.activationId
    workerId := schedule.workerId
    scheduledAtMs := scheduledAtMs
    versionId := schedule.versionId
    executionGeneration := schedule.executionGeneration
    expression := schedule.expression
    state := .ready
    attempt := 0
    noRetry := false
    nextAttemptAtMs := some scheduledAtMs
    claimedAtMs := none
    firstDispatchedAtMs := none
    dispatchDeadlineAtMs := none
    lastUnknownReason := none
    errorCode := none
    createdAtMs := nowMs
    completedAtMs := none
    checks := {
      scheduled_nonneg := hslot
      generation_pos := schedule.generation_pos
      expression_length := schedule.expression_length
      attempt_le := Nat.zero_le 4
      errorCode_length := fun _ h => nomatch h
      dispatch := rfl
      state := ⟨by simp, rfl, rfl⟩ } }

/-- Inserts the run of a slot; a row that fails a constraint is ignored. -/
def insertSlot (s : Store) (schedule : Schedule) (id : CronRunId)
    (scheduledAtMs nowMs : Int) : Except SqlError (Bool × Store) :=
  if hslot : 0 ≤ scheduledAtMs then
    insertRun s (slotRun schedule id scheduledAtMs nowMs hslot)
  else
    .ok (false, s)

/-- `UPDATE cron_schedules SET next_fire_at_ms … WHERE … next_fire_at_ms <= now`. -/
def advanceSchedule (s : Store) (schedule : Schedule) (next nowMs : Int) : Result Store := do
  let row ← okOr ((s.schedules.find? schedule.activationId).filter fun row =>
    row.nextFireAtMs ≤ nowMs) cronInvariant
  if hnext : 0 ≤ next then
    let row : Schedule := { row with nextFireAtMs := next, nextFire_nonneg := hnext }
    return { s with schedules := s.schedules.replace row }
  else
    throw Scheduler.unavailable

def projectSlot (nowMs : Int) (state : CronSlotSummary × Store)
    (item : Schedule × CronRunId) :
    Option Int -> Result (CronSlotSummary × Store)
  | some scheduledAtMs => do
    let inserted ← sqlError (insertSlot state.2 item.1 item.2 scheduledAtMs nowMs)
    return ({ state.1 with
      projected := state.1.projected + if inserted.1 then 1 else 0 }, inserted.2)
  | none => return ({ state.1 with skipped := state.1.skipped + 1 }, state.2)

def projectSchedule (nowMs graceFloor : Int) (state : CronSlotSummary × Store)
    (item : Schedule × CronRunId) : Result (CronSlotSummary × Store) := do
  let parsed ← CronSchedule.parse croner item.1.expression
  let slot ← parsed.latestAtOrBeforeMs croner
    (max graceFloor item.1.nextFireAtMs) nowMs
  let state ← projectSlot nowMs state item slot
  let next ← parsed.nextAfterMs croner nowMs
  let s ← advanceSchedule state.2 item.1 next nowMs
  return (state.1, s)

def projectDueCronSlots (s : Store) (nowMs : Int) (misfireGraceMs limit : Nat)
    (ids : List CronRunId) : Result (CronSlotSummary × Store) := do
  ensure (0 ≤ nowMs ∧ limit ≠ 0) cronInvariant
  ensure ((misfireGraceMs : Int) ≤ i64Max) cronInvariant
  ((dueSchedules s nowMs limit).zip ids).foldlM
    (projectSchedule croner nowMs (max (nowMs - misfireGraceMs) 0)) (⟨0, 0⟩, s)

/-! ## History -/

/-- `ORDER BY completed_at_ms DESC, id DESC`, strictly. -/
def completedAfter (a b : CronRun) : Bool :=
  let completed := fun (run : CronRun) => run.completedAtMs.getD 0
  decide (completed b < completed a ∨ (completed b = completed a ∧ b.id < a.id))

def laterRuns (s : Store) (run : CronRun) : Nat :=
  s.runs.rows.countP fun other =>
    other.state.terminal && other.activationId == run.activationId && completedAfter other run

def gcCronHistory (s : Store) (nowMs : Int) (retentionMs perActivationLimit : Nat) :
    Result (Nat × Store) := do
  ensure (retentionMs ≠ 0 ∧ perActivationLimit ≠ 0) cronInvariant
  ensure ((retentionMs : Int) ≤ i64Max) cronInvariant
  let cutoff := max (nowMs - retentionMs) i64Min
  let expired := fun (run : CronRun) => run.state.terminal &&
    (run.completedAtMs.any (fun completed => completed < cutoff) ||
      decide (perActivationLimit < laterRuns s run + 1))
  let runs := s.runs.filter fun run => !expired run
  return (s.runs.rows.length - runs.rows.length, { s with runs := runs })

/-! ## Promotion -/

def insertSchedule (workerId : WorkerId) (versionId : VersionId)
    (routeGeneration : Nat) (nowMs : Int) (s : Store)
    (item : String × CronActivationId) : Result Store := do
  let parsed ← CronSchedule.parse croner item.1
  let next ← parsed.nextAfterMs croner nowMs
  if hchecks : 1 ≤ routeGeneration ∧ (1 ≤ item.1.length ∧ item.1.length ≤ 256) ∧ 0 ≤ next then
    let schedules ← okOr (s.schedules.insert?
      { activationId := item.2
        workerId := workerId
        versionId := versionId
        executionGeneration := routeGeneration
        expression := item.1
        nextFireAtMs := next
        generation_pos := hchecks.left
        expression_length := hchecks.right.left
        nextFire_nonneg := hchecks.right.right })
      ⟨.versionInvariantViolation, "Queue/Cron deployment replacement failed"⟩
    return { s with schedules := schedules }
  else
    throw ⟨.versionInvariantViolation, "Queue/Cron deployment replacement failed"⟩

/-- The Cron part of `replace_products`. -/
def replaceSchedules (s : Store) (workerId : WorkerId) (versionId : VersionId)
    (routeGeneration : Nat) (expressions : List String)
    (ids : List CronActivationId) (nowMs : Int) : Result Store :=
  (expressions.zip ids).foldlM
    (insertSchedule croner workerId versionId routeGeneration nowMs)
    { s with schedules := s.schedules.filter fun schedule => schedule.workerId ≠ workerId }

end Cron
end OpenCompute
