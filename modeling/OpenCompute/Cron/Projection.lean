import OpenCompute.Cron.Changes
import OpenCompute.Cron.Search

/-!
# What a projection does

The search part of an iteration depends on the schedule and the time alone.  In
a store whose runs lie before the next fire time of their schedule, the rest of
the iteration cannot fail: the run of the slot is inserted and the schedule
moves on.
-/

namespace OpenCompute
namespace Cron

open Relational Table Transaction Transition List Function

variable {Pattern : Type} (croner : Croner Pattern)

def slotOutcome (nowMs graceFloor : Int) (schedule : Schedule) : Result (Option Int × Int) := do
  let parsed ← CronSchedule.parse croner schedule.expression
  let slot ← parsed.latestAtOrBeforeMs croner
    (max graceFloor schedule.nextFireAtMs) nowMs
  let next ← parsed.nextAfterMs croner nowMs
  return (slot, next)

structure Advanced (schedule : Schedule) (next : Int) (row : Schedule) : Prop where
  activation : row.activationId = schedule.activationId
  worker : row.workerId = schedule.workerId
  version : row.versionId = schedule.versionId
  generation : row.executionGeneration = schedule.executionGeneration
  expression : row.expression = schedule.expression
  nextFire : row.nextFireAtMs = next

structure NewRun (schedule : Schedule) (id : CronRunId) (slot : Int) (run : CronRun) :
    Prop where
  id_eq : run.id = id
  activation : run.activationId = schedule.activationId
  slot_eq : run.scheduledAtMs = slot
  state : run.state = .ready
  attempt : run.attempt = 0
  noRetry : run.noRetry = false
  first : run.firstDispatchedAtMs = none
  deadline : run.dispatchDeadlineAtMs = none

variable {croner} {nowMs graceFloor next : Int} {schedule : Schedule} {slot : Option Int}
  {s : Store} {item : Schedule × CronRunId} {items : List (Schedule × CronRunId)}

theorem slotOutcome_eq_ok : slotOutcome croner nowMs graceFloor schedule = .ok (slot, next) ↔
      exists c, CronSchedule.parse croner schedule.expression = .ok c ∧
        c.latestAtOrBeforeMs croner (max graceFloor schedule.nextFireAtMs) nowMs = .ok slot ∧
        c.nextAfterMs croner nowMs = .ok next := by
  simp only [slotOutcome, ok_iff, Prod.mk.injEq]
  constructor
  · rintro ⟨c, hc, s, hs, n, hn, rfl, rfl⟩
    exact ⟨c, hc, hs, hn⟩
  · rintro ⟨c, hc, hs, hn⟩
    exact ⟨c, hc, slot, hs, next, hn, rfl, rfl⟩

/-! ## One iteration -/

structure Projectable (nowMs : Int) (items : List (Schedule × CronRunId)) (s : Store) :
    Prop where
  activations : (items.map fun item => item.1.activationId).Nodup
  ids : (items.map fun item => item.2).Nodup
  stored : forall item, item ∈ items -> s.schedules.find? item.1.activationId = some item.1
  due : forall item, item ∈ items -> item.1.nextFireAtMs ≤ nowMs
  fresh : forall item, item ∈ items -> ¬ item.2 ∈ s.runs.keys
  below : forall item run, item ∈ items -> run ∈ s.runs -> run.activationId = item.1.activationId ->
    run.scheduledAtMs < item.1.nextFireAtMs

structure ProjectEffect (item : Schedule × CronRunId) (nowMs : Int) (slot : Option Int)
    (next : Int) (s t : Store) : Prop where
  schedule : exists row, Advanced item.1 next row ∧
    t.schedules.find? = Function.update s.schedules.find? item.1.activationId (some row)
  run : match slot with
    | none => t.runs = s.runs
    | some time => exists run, NewRun item.1 item.2 time run ∧ t.runs.rows = s.runs.rows ++ [run]

theorem mem_runs_append {t : Store} {new : List CronRun} {run : CronRun}
    (hrows : t.runs.rows = s.runs.rows ++ new) : run ∈ t.runs ↔ run ∈ s.runs ∨ run ∈ new := by
  rw [← mem_rows, hrows, mem_append]
  rfl

def CronSlotSummary.count (summary : CronSlotSummary) (slot : Option Int) :
    CronSlotSummary :=
  match slot with
  | some _ => { summary with projected := summary.projected + 1 }
  | none => { summary with skipped := summary.skipped + 1 }

theorem advanceSchedule_effect (hstored : s.schedules.find? schedule.activationId = some schedule)
    (hdue : schedule.nextFireAtMs ≤ nowMs) (hnext : 0 ≤ next) :
    exists t row, advanceSchedule s schedule next nowMs = .ok t ∧
      Advanced schedule next row ∧ t.runs = s.runs ∧
      t.schedules.find? = update s.schedules.find? schedule.activationId (some row) := by
  let row : Schedule := { schedule with nextFireAtMs := next, nextFire_nonneg := hnext }
  refine ⟨{ s with schedules := s.schedules.replace row }, row, ?_,
    ⟨rfl, rfl, rfl, rfl, rfl, rfl⟩, rfl, ?_⟩
  · have hrow : (s.schedules.find? schedule.activationId).filter
        (fun row => decide (row.nextFireAtMs ≤ nowMs)) = some schedule := by
      rw [hstored, Option.filter_eq_some_iff]
      exact ⟨rfl, decide_eq_true hdue⟩
    simp only [advanceSchedule, ok_iff]
    exact ⟨schedule, hrow, by rw [dif_pos hnext]; rfl⟩
  · funext id
    have hmem := mem_of_find? hstored
    have hkey : Schedule.activationId schedule = Schedule.activationId row := rfl
    rw [find?_replace hmem hkey]
    by_cases h : id = schedule.activationId
    · rw [if_pos h, h, update_self]
    · rw [if_neg h, update_of_ne h]

theorem insertSlot_effect {id : CronRunId} {time : Int} (nowMs : Int)
    (hstored : s.schedules.find? schedule.activationId = some schedule)
    (hfresh : ¬ id ∈ s.runs.keys) (htime : 0 ≤ time)
    (hbelow : forall run, run ∈ s.runs -> run.activationId = schedule.activationId ->
      run.scheduledAtMs < time) :
    exists t run, insertSlot s schedule id time nowMs = .ok (true, t) ∧
      NewRun schedule id time run ∧ t.schedules = s.schedules ∧
      t.runs.rows = s.runs.rows ++ [run] := by
  let run := slotRun schedule id time nowMs htime
  have hnew : NewRun schedule id time run := ⟨rfl, rfl, rfl, rfl, rfl, rfl, rfl, rfl⟩
  rcases exists_insert? (x := run) hfresh with ⟨runs, hins⟩
  refine ⟨{ s with runs := runs }, run, ?_, hnew, rfl, (insert?_eq_some.mp hins).right⟩
  have hunique : s.runs.rows.any (fun other => decide (other.activationId = run.activationId ∧
        other.scheduledAtMs = run.scheduledAtMs)) = false := by
    rw [any_eq_false]
    intro other hother
    have hlt := hbelow other hother
    simp only [decide_eq_true_eq, not_and]
    intro hact heq
    have := hlt hact
    have hslot : run.scheduledAtMs = time := rfl
    omega
  have hguard : (s.schedules.find? run.activationId).any (fun schedule => decide
      (schedule.versionId = run.versionId ∧ schedule.executionGeneration = run.executionGeneration ∧
        schedule.expression = run.expression)) = true := by
    change (s.schedules.find? schedule.activationId).any _ = true
    rw [hstored]
    simp [run, slotRun]
  rw [insertSlot, dif_pos htime]
  unfold insertRun
  rw [hunique, hins]
  simp only [ok_iff]
  exact ⟨⟨rfl, rfl, rfl, rfl, rfl, rfl, hguard⟩, rfl⟩

theorem slotOutcome_bounds (hfloor : 0 ≤ graceFloor)
    (h : slotOutcome croner nowMs graceFloor schedule = .ok (slot, next)) :
    nowMs < next ∧ 0 ≤ next ∧ forall time, slot = some time ->
      0 ≤ time ∧ schedule.nextFireAtMs ≤ time ∧ time ≤ nowMs := by
  rcases slotOutcome_eq_ok.mp h with ⟨_, _, hlatest, hnext⟩
  rcases CronSchedule.nextAfterMs_eq_ok.mp hnext with ⟨_, _, hleast⟩
  have hlt := hleast.start_le
  refine ⟨by omega, by omega, ?_⟩
  rintro time rfl
  have hgreatest := CronSchedule.latestAtOrBeforeMs_sound hlatest
  have hstart := hgreatest.start_le
  exact ⟨by omega, by omega, hgreatest.le_stop⟩

theorem projectSchedule_effect (summary : CronSlotSummary) (hfloor : 0 ≤ graceFloor)
    (hs : Projectable nowMs (item :: items) s)
    (h : slotOutcome croner nowMs graceFloor item.1 = .ok (slot, next)) :
    exists t, projectSchedule croner nowMs graceFloor (summary, s) item =
        .ok (summary.count slot, t) ∧ ProjectEffect item nowMs slot next s t := by
  rcases slotOutcome_bounds hfloor h with ⟨_, hnonneg, hslot⟩
  rcases slotOutcome_eq_ok.mp h with ⟨c, hparse, hlatest, hnext⟩
  have hstored := hs.stored item mem_cons_self
  have hdue := hs.due item mem_cons_self
  cases slot with
  | none =>
    rcases advanceSchedule_effect hstored hdue hnonneg with
      ⟨t, row, hadvance, hrow, hruns, hschedules⟩
    refine ⟨t, ?_, ⟨row, hrow, hschedules⟩, hruns⟩
    simp only [projectSchedule, ok_iff]
    exact ⟨c, hparse, none, hlatest, _, rfl, next, hnext, t, hadvance, rfl⟩
  | some time =>
    rcases hslot time rfl with ⟨htime, _, _⟩
    rcases insertSlot_effect nowMs hstored (hs.fresh item mem_cons_self)
      htime (fun run hrun hact => by
        have := hs.below item run mem_cons_self hrun hact
        omega) with ⟨u, run, hinsert, hnew, hsched, hrows⟩
    have hstored' : u.schedules.find? item.1.activationId = some item.1 := by
      rw [hsched]
      exact hstored
    rcases advanceSchedule_effect hstored' hdue hnonneg with
      ⟨t, row, hadvance, hrow, hruns, hschedules⟩
    refine ⟨t, ?_, ⟨row, hrow, hsched ▸ hschedules⟩, run, hnew, ?_⟩
    · have hproject : projectSlot nowMs (summary, s) item (some time) =
          .ok (summary.count (some time), u) := by
        simp only [projectSlot, ok_iff, sqlError, mapErr_eq_ok]
        exact ⟨(true, u), hinsert, rfl⟩
      simp only [projectSchedule, ok_iff]
      exact ⟨c, hparse, some time, hlatest, _, hproject, next, hnext, t, hadvance, rfl⟩
    · rw [hruns]
      exact hrows

theorem slotOutcome_of_projectSchedule {state state' : CronSlotSummary × Store}
    (h : projectSchedule croner nowMs graceFloor state item = .ok state') :
    exists outcome, slotOutcome croner nowMs graceFloor item.1 = .ok outcome := by
  simp only [projectSchedule, ok_iff] at h
  rcases h with ⟨c, hparse, slot, hlatest, _, _, next, hnext, _⟩
  exact ⟨(slot, next), slotOutcome_eq_ok.mpr ⟨c, hparse, hlatest, hnext⟩⟩

theorem Projectable.step {t : Store} (hs : Projectable nowMs (item :: items) s)
    (heffect : ProjectEffect item nowMs slot next s t) : Projectable nowMs items t := by
  have hact := nodup_cons.mp hs.activations
  have hid := nodup_cons.mp hs.ids
  have hne : forall other, other ∈ items -> other.1.activationId ≠ item.1.activationId := by
    intro other hother heq
    exact hact.left (mem_map.mpr ⟨other, hother, heq⟩)
  have hruns : forall run, run ∈ t.runs -> run ∈ s.runs ∨
      (run.activationId = item.1.activationId ∧ run.id = item.2) := by
    intro run hrun
    have heff := heffect.run
    cases slot with
    | none =>
      rw [heff] at hrun
      exact Or.inl hrun
    | some time =>
      rcases heff with ⟨_, hnew, hrows⟩
      rw [mem_runs_append hrows, mem_singleton] at hrun
      rcases hrun with hrun | rfl
      · exact Or.inl hrun
      · exact Or.inr ⟨hnew.activation, hnew.id_eq⟩
  refine ⟨hact.right, hid.right, ?_, ?_, ?_, ?_⟩
  · intro other hother
    rcases heffect.schedule with ⟨_, _, hschedules⟩
    rw [hschedules, update_of_ne (hne other hother)]
    exact hs.stored other (mem_cons_of_mem item hother)
  · intro other hother
    exact hs.due other (mem_cons_of_mem item hother)
  · intro other hother hkey
    rcases mem_keys.mp hkey with ⟨run, hrun, hrid⟩
    rcases hruns run hrun with hold | ⟨_, hnew⟩
    · exact hs.fresh other (mem_cons_of_mem item hother) (mem_keys.mpr ⟨run, hold, hrid⟩)
    · exact hid.left (mem_map.mpr ⟨other, hother, hrid.symm.trans hnew⟩)
  · intro other run hother hrun hract
    rcases hruns run hrun with hold | ⟨hnew, _⟩
    · exact hs.below other run (mem_cons_of_mem item hother) hold hract
    · exact absurd (hract.symm.trans hnew) (hne other hother)

/-! ## The loop -/

def projectedSlot (croner : Croner Pattern) (nowMs graceFloor : Int)
    (schedule : Schedule) : Option Int :=
  match slotOutcome croner nowMs graceFloor schedule with
  | .ok (slot, _) => slot
  | .error _ => none

structure Projection (croner : Croner Pattern) (nowMs graceFloor : Int)
    (items : List (Schedule × CronRunId)) (s t : Store) : Prop where
  others : forall id, ¬ id ∈ items.map (fun item => item.1.activationId) ->
    t.schedules.find? id = s.schedules.find? id
  advanced : forall item, item ∈ items -> exists slot next row,
    slotOutcome croner nowMs graceFloor item.1 = .ok (slot, next) ∧ Advanced item.1 next row ∧
      t.schedules.find? item.1.activationId = some row
  runs : exists new : List CronRun, t.runs.rows = s.runs.rows ++ new ∧
    (new.map fun run => run.activationId).Nodup ∧
    (forall run, run ∈ new -> exists item time, item ∈ items ∧
      projectedSlot croner nowMs graceFloor item.1 = some time ∧
      NewRun item.1 item.2 time run) ∧
    forall item time, item ∈ items -> projectedSlot croner nowMs graceFloor item.1 = some time ->
      exists run, run ∈ new ∧ NewRun item.1 item.2 time run

theorem projectedSlot_of_outcome
    (h : slotOutcome croner nowMs graceFloor schedule = .ok (slot, next)) :
    projectedSlot croner nowMs graceFloor schedule = slot := by
  unfold projectedSlot
  rw [h]

theorem Projection.cons {u t : Store}
    (hact : ¬ item.1.activationId ∈ items.map fun item => item.1.activationId)
    (h : slotOutcome croner nowMs graceFloor item.1 = .ok (slot, next))
    (heffect : ProjectEffect item nowMs slot next s u)
    (hrest : Projection croner nowMs graceFloor items u t) :
    Projection croner nowMs graceFloor (item :: items) s t := by
  have hslot := projectedSlot_of_outcome h
  rcases heffect.schedule with ⟨row, hrow, hschedules⟩
  constructor
  · intro id hid
    rw [map_cons, mem_cons, not_or] at hid
    rw [hrest.others id hid.right, hschedules, update_of_ne hid.left]
  · intro other hother
    cases mem_cons.mp hother with
    | inl heq =>
      subst heq
      refine ⟨slot, next, row, h, hrow, ?_⟩
      rw [hrest.others _ hact, hschedules, update_self]
    | inr hmem => exact hrest.advanced other hmem
  · rcases hrest.runs with ⟨new, hrows, hnodup, hfrom, hall⟩
    have heff := heffect.run
    cases slot with
    | none =>
      refine ⟨new, by rw [hrows, heff], hnodup, ?_, ?_⟩
      · intro run hrun
        rcases hfrom run hrun with ⟨other, time, hother, htime, hnew⟩
        exact ⟨other, time, mem_cons_of_mem item hother, htime, hnew⟩
      · intro other time hother htime
        cases mem_cons.mp hother with
        | inl heq =>
          subst heq
          rw [hslot] at htime
          cases htime
        | inr hmem => exact hall other time hmem htime
    | some first =>
      rcases heff with ⟨run, hrun, hrunRows⟩
      have hdistinct : ((run :: new).map fun run => run.activationId).Nodup := by
        rw [map_cons, nodup_cons]
        refine ⟨?_, hnodup⟩
        intro hmem
        rcases mem_map.mp hmem with ⟨r, hr, heq⟩
        rcases hfrom r hr with ⟨other, _, hother, _, hnew⟩
        exact hact (mem_map.mpr ⟨other, hother,
          hnew.activation.symm.trans (heq.trans hrun.activation)⟩)
      refine ⟨run :: new, by rw [hrows, hrunRows, append_assoc]; rfl, hdistinct, ?_, ?_⟩
      · intro r hr
        cases mem_cons.mp hr with
        | inl heq =>
          subst heq
          exact ⟨item, first, mem_cons_self, hslot, hrun⟩
        | inr hmem =>
          rcases hfrom r hmem with ⟨other, time, hother, htime, hnew⟩
          exact ⟨other, time, mem_cons_of_mem item hother, htime, hnew⟩
      · intro other time hother htime
        cases mem_cons.mp hother with
        | inl heq =>
          subst heq
          rw [hslot] at htime
          cases htime
          exact ⟨run, mem_cons_self, hrun⟩
        | inr hmem =>
          rcases hall other time hmem htime with ⟨r, hr, hnew⟩
          exact ⟨r, mem_cons_of_mem run hr, hnew⟩

theorem projectLoop_sound {summary summary' : CronSlotSummary} {t : Store} (hfloor : 0 ≤ graceFloor)
    (hs : Projectable nowMs items s)
    (h : items.foldlM (projectSchedule croner nowMs graceFloor) (summary, s) = .ok (summary', t)) :
    Projection croner nowMs graceFloor items s t := by
  induction items generalizing summary s with
  | nil =>
    cases h
    exact ⟨fun _ _ => rfl, nofun, [], by simp, nodup_nil, forall_mem_nil _, nofun⟩
  | cons item items ih =>
    rcases foldlM_cons_eq_ok.mp h with ⟨_, hu, hrest⟩
    rcases slotOutcome_of_projectSchedule hu with ⟨⟨_, _⟩, houtcome⟩
    rcases projectSchedule_effect summary hfloor hs houtcome with ⟨_, hv, heffect⟩
    rw [hv] at hu
    cases hu
    exact (ih (hs.step heffect) hrest).cons (nodup_cons.mp hs.activations).left houtcome
      heffect

theorem projectLoop_total_iff (summary : CronSlotSummary) (hfloor : 0 ≤ graceFloor)
    (hs : Projectable nowMs items s) :
    (exists result, items.foldlM (projectSchedule croner nowMs graceFloor)
      (summary, s) = .ok result) ↔
      forall item, item ∈ items ->
        exists outcome, slotOutcome croner nowMs graceFloor item.1 = .ok outcome := by
  induction items generalizing summary s with
  | nil =>
    constructor
    · intro _ item hitem
      cases hitem
    · intro _
      exact ⟨(summary, s), rfl⟩
  | cons item items ih =>
    constructor
    · rintro ⟨result, h⟩ other hother
      rcases foldlM_cons_eq_ok.mp h with ⟨_, hu, hrest⟩
      rcases slotOutcome_of_projectSchedule hu with ⟨⟨slot, next⟩, houtcome⟩
      cases mem_cons.mp hother with
      | inl heq =>
        subst heq
        exact ⟨(slot, next), houtcome⟩
      | inr hmem =>
        rcases projectSchedule_effect summary hfloor hs houtcome with ⟨v, hv, heffect⟩
        rw [hv] at hu
        cases hu
        exact (ih _ (hs.step heffect)).mp ⟨result, hrest⟩ other hmem
    · intro hall
      rcases hall item mem_cons_self with ⟨⟨_, _⟩, houtcome⟩
      rcases projectSchedule_effect summary hfloor hs houtcome with ⟨_, hv, heffect⟩
      rcases (ih _ (hs.step heffect)).mpr
        (fun other hother => hall other (mem_cons_of_mem item hother)) with
        ⟨result, hrest⟩
      exact ⟨result, foldlM_cons_eq_ok.mpr ⟨_, hv, hrest⟩⟩

end Cron
end OpenCompute
