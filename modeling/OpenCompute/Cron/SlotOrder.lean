import OpenCompute.Cron.Runs

/-!
# Which slots are projected

In every history a projection that commits gives each due schedule of its page
the greatest slot of its window and the least slot after the time of the call,
and the slots of an activation increase.  A projection commits exactly when each
of its searches finds a slot within the search budget.
-/

namespace OpenCompute
namespace Cron

open Relational Table Transaction Transition List

variable {Pattern : Type} {croner : Croner Pattern}

/-- Every search that a projection makes for a due schedule stays in its budget. -/
def Searchable (croner : Croner Pattern) (nowMs : Int) (misfireGraceMs : Nat)
    (schedule : Schedule) : Prop :=
  exists c, CronSchedule.parse croner schedule.expression = .ok c ∧ c.InBudget croner
      (max (nowMs - misfireGraceMs) schedule.nextFireAtMs / minuteMs) ∧
    c.WalkInBudget croner
      (max (nowMs - misfireGraceMs) schedule.nextFireAtMs / minuteMs * minuteMs)
      nowMs ∧
    c.InBudget croner (nowMs / minuteMs + 1)

theorem window_start (schedule : Schedule) (nowMs : Int) (misfireGraceMs : Nat) :
    max (max (nowMs - misfireGraceMs) 0) schedule.nextFireAtMs =
      max (nowMs - misfireGraceMs) schedule.nextFireAtMs := by
  have hnonneg := schedule.nextFire_nonneg
  omega

variable {nowMs : Int} {misfireGraceMs : Nat} {ids : List CronRunId} {schedule : Schedule}
  {limit : Nat}

theorem slotOutcome_total_iff (hnow : 0 ≤ nowMs) (hdue : schedule.nextFireAtMs ≤ nowMs) :
    (exists outcome, slotOutcome croner nowMs (max (nowMs - misfireGraceMs) 0)
      schedule = .ok outcome) ↔ Searchable croner nowMs misfireGraceMs schedule := by
  have hnonneg := schedule.nextFire_nonneg
  have hstart : 0 ≤ max (nowMs - misfireGraceMs) schedule.nextFireAtMs := by omega
  have hstop : max (nowMs - misfireGraceMs) schedule.nextFireAtMs ≤ nowMs := by omega
  constructor
  · rintro ⟨⟨slot, next⟩, houtcome⟩
    rcases slotOutcome_eq_ok.mp houtcome with ⟨c, hparse, hlatest, hnext⟩
    rw [window_start] at hlatest
    rcases (CronSchedule.latestAtOrBeforeMs_total_iff hstart hstop).mp
      ⟨slot, hlatest⟩ with ⟨hbudget, hwalk⟩
    exact ⟨c, hparse, hbudget, hwalk, (CronSchedule.nextAfterMs_eq_ok.mp hnext).right.left⟩
  · rintro ⟨c, hparse, hbudget, hwalk, hafter⟩
    rcases (CronSchedule.latestAtOrBeforeMs_total_iff hstart hstop).mpr
      ⟨hbudget, hwalk⟩ with ⟨slot, hlatest⟩
    rcases CronSchedule.exists_nextAfterMs hnow hafter with ⟨next, hnext⟩
    refine ⟨(slot, next), slotOutcome_eq_ok.mpr ⟨c, hparse, ?_, hnext⟩⟩
    rw [window_start]
    exact hlatest

/-! ## One call -/

/-- What a committed projection did for a due schedule of its page. -/
def Projects (croner : Croner Pattern) (nowMs : Int) (misfireGraceMs : Nat)
    (ids : List CronRunId) (schedule : Schedule) (s t : Store) : Prop :=
  exists c next row, CronSchedule.parse croner schedule.expression = .ok c ∧
    c.IsLeastFrom croner (nowMs + 1) next ∧ Advanced schedule next row ∧
    t.schedules.find? schedule.activationId = some row ∧
    ((exists slot run id, c.IsGreatestIn croner
        (max (nowMs - misfireGraceMs) schedule.nextFireAtMs) nowMs slot ∧
        id ∈ ids ∧ NewRun schedule id slot run ∧ run ∈ t.runs ∧
        forall other, other ∈ t.runs -> other.activationId = schedule.activationId ->
          ¬ other ∈ s.runs -> other = run) ∨
      ((forall slot, c.IsSlot croner slot ->
        max (nowMs - misfireGraceMs) schedule.nextFireAtMs ≤ slot -> ¬ slot ≤ nowMs) ∧
        forall run, run ∈ t.runs -> run.activationId = schedule.activationId -> run ∈ s.runs))

/-- The effect of a committed projection on the whole store. -/
structure ProjectionCall (croner : Croner Pattern) (s : Store) (nowMs : Int)
    (misfireGraceMs limit : Nat) (ids : List CronRunId) (t : Store) : Prop where
  page : forall schedule, schedule ∈ dueSchedules s nowMs limit ->
    Projects croner nowMs misfireGraceMs ids schedule s t
  others : forall schedule, schedule ∈ s.schedules ->
    ¬ schedule ∈ dueSchedules s nowMs limit -> schedule ∈ t.schedules
  kept : forall run, run ∈ s.runs -> run ∈ t.runs
  inserted : forall run, run ∈ t.runs -> ¬ run ∈ s.runs ->
    exists schedule, schedule ∈ dueSchedules s nowMs limit ∧
      run.activationId = schedule.activationId

theorem mem_pageItems {s : Store} (hlimit : limit ≤ ids.length)
    (h : schedule ∈ dueSchedules s nowMs limit) :
    exists id, (schedule, id) ∈ pageItems s nowMs limit ids := by
  rw [← map_fst_pageItems s nowMs hlimit] at h
  rcases mem_map.mp h with ⟨item, hitem, rfl⟩
  exact ⟨item.2, hitem⟩

theorem projectionCall_of_ok {w : World} {t : Store} {summary : CronSlotSummary} (hw : Slots w)
    (hfresh : Fresh ids w.runIds) (hlimit : limit ≤ ids.length)
    (h : projectDueCronSlots croner w.store nowMs misfireGraceMs limit ids =
      .ok (summary, t)) : ProjectionCall croner w.store nowMs misfireGraceMs limit ids t := by
  have hproj := projectDueCronSlots_projection hw hfresh hlimit h
  have hready := hw.projectable nowMs hfresh hlimit
  rcases hproj.runs with ⟨_, hrows, hdistinct, hfrom, hall⟩
  constructor
  · intro schedule hschedule
    rcases mem_pageItems hlimit hschedule with ⟨id, hitem⟩
    rcases hproj.advanced (schedule, id) hitem with ⟨slot, next, row, houtcome, hrow, hfind⟩
    rcases slotOutcome_eq_ok.mp houtcome with ⟨c, hparse, hlatest, hnext⟩
    have hslot := CronSchedule.latestAtOrBeforeMs_sound hlatest
    rw [window_start] at hslot
    have hprojected := projectedSlot_of_outcome houtcome
    refine ⟨c, next, row, hparse, (CronSchedule.nextAfterMs_eq_ok.mp hnext).right.right,
      hrow, hfind, ?_⟩
    cases slot with
    | some time =>
      left
      rcases hall (schedule, id) time hitem hprojected with ⟨run, hrun, hnew⟩
      refine ⟨time, run, id, hslot, (of_mem_zip hitem).right, hnew, ?_, ?_⟩
      · exact (mem_runs_append hrows).mpr (Or.inr hrun)
      · intro other hother hact hnot
        have hinserted := ((mem_runs_append hrows).mp hother).resolve_left hnot
        exact inj_on_of_nodup_map hdistinct hinserted hrun (hact.trans hnew.activation.symm)
    | none =>
      right
      refine ⟨hslot, ?_⟩
      intro run hrun hact
      cases (mem_runs_append hrows).mp hrun with
      | inl hold => exact hold
      | inr hinserted =>
        rcases hfrom run hinserted with ⟨item, time, hother, htime, hr⟩
        have heq : item = (schedule, id) := inj_on_of_nodup_map hready.activations hother hitem
            (hr.activation.symm.trans hact)
        subst heq
        rw [hprojected] at htime
        cases htime
  · intro schedule hschedule hnot
    have hpage : ¬ schedule.activationId ∈
        (pageItems w.store nowMs limit ids).map (fun item => item.1.activationId) := by
      intro hmem
      rcases mem_map.mp hmem with ⟨item, hitem, hact⟩
      have hdue := (of_mem_zip hitem).left
      have heq := eq_of_key_eq (mem_dueSchedules hdue).left hschedule hact
      exact hnot (heq ▸ hdue)
    have hfind := hproj.others schedule.activationId hpage
    rw [find?_key hschedule] at hfind
    exact mem_of_find? hfind
  · intro run hrun
    exact (mem_runs_append hrows).mpr (Or.inl hrun)
  · intro run hrun hnot
    have hinserted := ((mem_runs_append hrows).mp hrun).resolve_left hnot
    rcases hfrom run hinserted with ⟨item, _, hitem, _, hr⟩
    exact ⟨item.1, (of_mem_zip hitem).left, hr.activation⟩

theorem projectDueCronSlots_total_iff {w : World} (hw : Slots w) (hfresh : Fresh ids w.runIds)
    (hlimit : limit ≤ ids.length) :
    (exists result, projectDueCronSlots croner w.store nowMs misfireGraceMs limit ids =
      .ok result) ↔
      (0 ≤ nowMs ∧ limit ≠ 0) ∧ (misfireGraceMs : Int) ≤ i64Max ∧
        forall schedule, schedule ∈ dueSchedules w.store nowMs limit ->
          Searchable croner nowMs misfireGraceMs schedule := by
  have hready := hw.projectable nowMs hfresh hlimit
  have hfloor : 0 ≤ max (nowMs - misfireGraceMs) 0 := by omega
  simp only [projectDueCronSlots, ok_iff]
  constructor
  · rintro ⟨result, hargs, hgrace, hloop⟩
    refine ⟨hargs, hgrace, ?_⟩
    intro schedule hschedule
    rcases mem_pageItems hlimit hschedule with ⟨id, hitem⟩
    exact (slotOutcome_total_iff hargs.left (mem_dueSchedules hschedule).right).mp
      ((projectLoop_total_iff ⟨0, 0⟩ hfloor hready).mp ⟨result, hloop⟩ (schedule, id) hitem)
  · rintro ⟨hargs, hgrace, hsearch⟩
    rcases (projectLoop_total_iff ⟨0, 0⟩ hfloor hready).mpr
      (fun item hitem => (slotOutcome_total_iff hargs.left
        (hready.due item hitem)).mpr (hsearch item.1 (of_mem_zip hitem).left)) with
      ⟨result, hloop⟩
    exact ⟨result, hargs, hgrace, hloop⟩

/-! ## Whole histories -/

/-- The slots that were projected so far, and what the next projection does. -/
structure SlotProjection (croner : Croner Pattern) (w : World) : Prop where
  once : w.projected.Nodup
  increasing : w.projected.Pairwise fun newer older => newer.1 = older.1 -> older.2 < newer.2
  logged : forall run, run ∈ w.store.runs -> (run.activationId, run.scheduledAtMs) ∈ w.projected
  commits : forall nowMs misfireGraceMs limit ids, Fresh ids w.runIds -> limit ≤ ids.length ->
    ((exists result, projectDueCronSlots croner w.store nowMs misfireGraceMs limit ids =
      .ok result) ↔
      (0 ≤ nowMs ∧ limit ≠ 0) ∧ (misfireGraceMs : Int) ≤ i64Max ∧
        forall schedule, schedule ∈ dueSchedules w.store nowMs limit ->
          Searchable croner nowMs misfireGraceMs schedule)
  call : forall nowMs misfireGraceMs limit ids summary t, Fresh ids w.runIds ->
    limit ≤ ids.length ->
    projectDueCronSlots croner w.store nowMs misfireGraceMs limit ids = .ok (summary, t) ->
    ProjectionCall croner w.store nowMs misfireGraceMs limit ids t

theorem cronSlots_projected {owner : Uuid} {actions : List Action} {w : World}
    (h : History croner owner actions w) : SlotProjection croner w := by
  have hslots := h.slots
  constructor
  · refine hslots.increasing.imp ?_
    intro newer older hlt heq
    rw [heq] at hlt
    exact absurd (hlt rfl) (lt_irrefl _)
  · exact hslots.increasing
  · exact hslots.logged
  · intro nowMs misfireGraceMs limit ids hfresh hlimit
    exact projectDueCronSlots_total_iff hslots hfresh hlimit
  · intro nowMs misfireGraceMs limit ids summary t hfresh hlimit hok
    exact projectionCall_of_ok hslots hfresh hlimit hok

theorem cronSlots_projected_everyMinute : exists w,
    History Sample.everyMinute 7 Sample.reclaimed w ∧ SlotProjection Sample.everyMinute w := by
  refine exists_run_imp (P := fun _ => True) (fun w hw _ => ?_) (by decide +kernel)
  exact cronSlots_projected hw

/-!
## A slot beyond the search budget

The fifth Monday of February comes once in 28 years.
-/

namespace Sample

def leapMondayText : String := "0 0 * FEB MON#5"

def isLeapMonday (date : Calendar.Date) (weekday : Nat) : Bool :=
  date.month == 2 && weekday == 1 && 29 ≤ date.day

def leapMonday : Croner Unit :=
  { parse := fun text => if text = leapMondayText.toList then some () else none
    minuteMatch := fun _ minute => minute == 0
    hourMatch := fun _ hour => hour == 0
    monthMatch := fun _ month => month == 2
    dayMatch := fun _ date weekday => isLeapMonday date weekday }

def leapMondayMs : Int := 27087 * 86400000

def promoteLeapMonday : Action :=
  .promote 1 1 1 [leapMondayText] [1] (leapMondayMs - 1)

end Sample

theorem leapMonday_not_in_budget {c : CronSchedule Unit} (hlast : c.includesLastDay = false) :
    ¬ c.InBudget Sample.leapMonday (Sample.leapMondayMs / minuteMs + 1) := by
  rintro ⟨_, t, ⟨⟨minute, rfl⟩, hmatch⟩, hstart, hstop, _⟩
  have hlow : 27087 * 1440 + 1 ≤ minute := by
    unfold Sample.leapMondayMs minuteMs at hstart
    omega
  have hhigh : minute ≤ 27087 * 1440 + 1 + 12 * 366 * 24 * 60 := by
    unfold Sample.leapMondayMs minuteMs searchMinutes at hstop
    omega
  have hfold : (minute * minuteMs).tmod calendarPeriodMs / minuteMs = minute := by
    unfold calendarPeriodMs minuteMs
    rw [Int.tmod_eq_emod_of_nonneg (by omega)]
    omega
  unfold CronSchedule.matchesAt at hmatch
  rw [hfold, hlast] at hmatch
  simp only [Sample.leapMonday, Bool.false_and, Bool.or_false, Bool.and_eq_true,
    beq_iff_eq] at hmatch
  rcases hmatch with ⟨⟨⟨_, _⟩, _⟩, hday⟩
  have hdays : minute.toNat / 1440 = 27088 + (minute.toNat / 1440 - 27088) := by omega
  have hall : (range 4392).all (fun day =>
      !Sample.isLeapMonday (Calendar.dateOfDay (27088 + day))
        (Calendar.weekdayOfDay (27088 + day))) = true := by
    decide +kernel
  have hnone := all_eq_true.mp hall (minute.toNat / 1440 - 27088)
    (mem_range.mpr (by omega))
  rw [← hdays, hday] at hnone
  cases hnone

theorem leapMonday_parse : exists c,
    CronSchedule.parse Sample.leapMonday Sample.leapMondayText = .ok c ∧ c.includesLastDay = false ∧
      c.matchesAt Sample.leapMonday Sample.leapMondayMs = true ∧
      c.matchesAt Sample.leapMonday (37314 * 86400000) = true := by
  have hparse : (CronSchedule.parse Sample.leapMonday Sample.leapMondayText).toOption.any
      (fun c => !c.includesLastDay && c.matchesAt Sample.leapMonday Sample.leapMondayMs &&
        c.matchesAt Sample.leapMonday (37314 * 86400000)) = true := by
    decide +kernel
  cases h : CronSchedule.parse Sample.leapMonday Sample.leapMondayText with
  | error e =>
    rw [h] at hparse
    cases hparse
  | ok c =>
    rw [h] at hparse
    simp only [Except.toOption, Option.any_some, Bool.and_eq_true, Bool.not_eq_true'] at hparse
    exact ⟨c, rfl, hparse.left.left, hparse.left.right, hparse.right⟩

theorem leapMonday_history : exists w,
    History Sample.leapMonday 7 [Sample.promoteLeapMonday] w ∧ exists schedule,
      schedule ∈ dueSchedules w.store Sample.leapMondayMs 10 ∧
      schedule.expression = Sample.leapMondayText ∧
      schedule.nextFireAtMs = Sample.leapMondayMs :=
  exists_run_of_execute (by decide +kernel)

theorem leapMonday_never_projected : exists w schedule c,
    History Sample.leapMonday 7 [Sample.promoteLeapMonday] w ∧
      schedule ∈ dueSchedules w.store Sample.leapMondayMs 10 ∧
      CronSchedule.parse Sample.leapMonday schedule.expression = .ok c ∧
      schedule.nextFireAtMs = Sample.leapMondayMs ∧
      c.IsSlot Sample.leapMonday Sample.leapMondayMs ∧
      c.IsSlot Sample.leapMonday (37314 * 86400000) ∧
      forall ids result, Fresh ids w.runIds -> 10 ≤ ids.length ->
        projectDueCronSlots Sample.leapMonday w.store Sample.leapMondayMs 300000 10 ids ≠
          .ok result := by
  rcases leapMonday_history with ⟨w, hw, schedule, hdue, hexpr, hfire⟩
  rcases leapMonday_parse with ⟨c, hparse, hlast, hnow, hlater⟩
  have hslots := History.slots hw
  refine ⟨w, schedule, c, hw, hdue, hexpr ▸ hparse, hfire, ⟨⟨27087 * 1440, ?_⟩, hnow⟩,
    ⟨⟨37314 * 1440, ?_⟩, hlater⟩, ?_⟩
  · decide
  · decide
  · intro ids result hfresh hlimit hok
    have hsearch := ((projectDueCronSlots_total_iff hslots hfresh hlimit).mp
      ⟨result, hok⟩).right.right schedule hdue
    rcases hsearch with ⟨parsed, hparsed, _, _, hbudget⟩
    rw [hexpr, hparse] at hparsed
    cases hparsed
    exact leapMonday_not_in_budget hlast hbudget

end Cron
end OpenCompute
