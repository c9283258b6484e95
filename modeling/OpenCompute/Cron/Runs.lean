import OpenCompute.Cron.Projection

/-!
# The life of a run

A step of the system changes each run by one of a few changes, and a claim adds
the run it returns to the history of dispatches.
-/

namespace OpenCompute
namespace Cron

open Relational Table Transaction Transition

/-! ## Reports and recovery -/

variable {s t : Store} {run : ClaimedCronRun} {nowMs graceFloor : Int}
  {maxRetries limit misfireGraceMs : Nat} {w w' : World} {ids : List CronRunId}
  {summary : CronSlotSummary} {action : Action} {completion : CronCompletion}
  {result : CronCompletionResult} {reason : CronUnknownReason} {changed : Bool} {new : RunColumns}
  {retentionMs routeGeneration : Nat} {report : ClaimedCronRun} {schedule : Schedule}
  {workerId : WorkerId} {versionId : VersionId} {expressions : List String}
  {ids : List CronActivationId} {run' : CronRun} {items : List (Schedule × CronRunId)}

theorem completeCronRun_eq_ok :
    completeCronRun s run completion nowMs maxRetries = .ok (result, t) ↔ maxRetries ≤ 3 ∧
      ((s.reported run = none ∧ result = .stale ∧ t = s) ∨
        exists row next row', s.reported run = some row ∧
          retryAt run completion nowMs maxRetries = .ok next ∧
          row.update (completionSet row run completion next nowMs maxRetries).1 = .ok row' ∧
          result = (completionSet row run completion next nowMs maxRetries).2 ∧
          t = { s with runs := s.runs.replace row' }) := by
  cases hreported : s.reported run with
  | none =>
    simp only [completeCronRun, hreported, ok_iff, Prod.mk.injEq]
    constructor
    · rintro ⟨hmax, rfl, rfl⟩
      exact ⟨hmax, .inl ⟨trivial, rfl, rfl⟩⟩
    · rintro ⟨hmax, ⟨_, rfl, rfl⟩ | ⟨row, _, _, hrow, _⟩⟩
      · exact ⟨hmax, rfl, rfl⟩
      · cases hrow
  | some row =>
    simp only [completeCronRun, hreported, ok_iff, Prod.mk.injEq, sqlError, mapErr_eq_ok]
    constructor
    · rintro ⟨hmax, next, hnext, row', hrow, rfl, rfl⟩
      exact ⟨hmax, .inr ⟨row, next, row', rfl, hnext, hrow, rfl, rfl⟩⟩
    · rintro ⟨hmax, ⟨hnone, _⟩ | ⟨r, next, row', hr, hnext, hrow, rfl, rfl⟩⟩
      · cases hnone
      · cases hr
        exact ⟨hmax, next, hnext, row', hrow, rfl, rfl⟩

theorem markCronUnknown_eq_ok : markCronUnknown s run reason nowMs maxRetries = .ok (changed, t) ↔
      maxRetries ≤ 3 ∧ (exists next, addMs nowMs 250 = .ok next) ∧
      ((s.reported run = none ∧ changed = false ∧ t = s) ∨
        exists row row', s.reported run = some row ∧
          row.update (unknownSet row reason nowMs (nowMs + 250) maxRetries) = .ok row' ∧
          changed = true ∧ t = { s with runs := s.runs.replace row' }) := by
  cases hreported : s.reported run with
  | none =>
    simp only [markCronUnknown, hreported, ok_iff, Prod.mk.injEq]
    constructor
    · rintro ⟨hmax, next, hnext, rfl, rfl⟩
      exact ⟨hmax, ⟨next, hnext⟩, .inl ⟨trivial, rfl, rfl⟩⟩
    · rintro ⟨hmax, ⟨next, hnext⟩, ⟨_, rfl, rfl⟩ | ⟨row, _, hrow, _⟩⟩
      · exact ⟨hmax, next, hnext, rfl, rfl⟩
      · cases hrow
  | some row =>
    simp only [markCronUnknown, hreported, ok_iff, Prod.mk.injEq, sqlError, mapErr_eq_ok]
    constructor
    · rintro ⟨hmax, next, hnext, row', hrow, rfl, rfl⟩
      rcases addMs_eq_ok.mp hnext with ⟨_, _, _, rfl⟩
      exact ⟨hmax, ⟨_, hnext⟩, .inr ⟨row, row', rfl, hrow, rfl, rfl⟩⟩
    · rintro ⟨hmax, ⟨next, hnext⟩, ⟨hnone, _⟩ | ⟨r, row', hr, hrow, rfl, rfl⟩⟩
      · cases hnone
      · cases hr
        rcases addMs_eq_ok.mp hnext with ⟨_, _, _, rfl⟩
        exact ⟨hmax, _, hnext, row', hrow, rfl, rfl⟩

theorem reported_eq_some {row : CronRun} : s.reported run = some row ↔
      s.runs.find? run.id = some row ∧ row.activationId = run.activationId ∧
        row.state = .claimed := by
  simp only [Store.reported, Option.filter_eq_some_iff, decide_eq_true_eq]

theorem replace_find? {id : CronRunId} {row row' : CronRun} (hfind : s.runs.find? id = some row)
    (hupdate : row.update new = .ok row') :
    (s.runs.replace row').find? = Function.update s.runs.find? id (some row') := by
  rcases find?_eq_some.mp hfind with ⟨hstored, hid⟩
  rw [find?_replace_run hstored (CronRun.id_of_update hupdate), hid]

theorem gcCronHistory_find? {count : Nat}
    (h : gcCronHistory s nowMs retentionMs limit = .ok (count, t)) (id : CronRunId) :
    t.runs.find? id = s.runs.find? id ∨
      exists run, s.runs.find? id = some run ∧ run.state.terminal = true ∧
        t.runs.find? id = none := by
  simp only [gcCronHistory, ok_iff, Prod.mk.injEq] at h
  rcases h with ⟨_, _, _, rfl⟩
  cases hfind : s.runs.find? id with
  | none =>
    left
    rw [find?_eq_none] at hfind ⊢
    intro run hrun
    exact hfind run (mem_filter.mp hrun).left
  | some run =>
    rcases find?_eq_some.mp hfind with ⟨hstored, hid⟩
    by_cases hkept : run ∈ s.runs.filter fun run => !(run.state.terminal &&
        (run.completedAtMs.any (fun completed =>
            decide (completed < max (nowMs - retentionMs) i64Min)) ||
          decide (limit < laterRuns s run + 1)))
    · left
      exact find?_eq_some.mpr ⟨hkept, hid⟩
    · right
      refine ⟨run, rfl, ?_, ?_⟩
      · by_contra hlive
        exact hkept (mem_filter.mpr ⟨hstored, by simp [hlive]⟩)
      · rw [find?_eq_none]
        intro other hother hkey
        have heq := eq_of_key_eq (mem_filter.mp hother).left hstored (hkey.trans hid.symm)
        rw [heq] at hother
        exact hkept hother

/-! ## Steps of the system -/

/-- How a step changes the run of one identifier, and the dispatches it adds. -/
inductive RunChange (owner : Uuid) : Action -> Option CronRun -> Option CronRun ->
    List Dispatch -> Prop where
  | keep {action : Action} {row : Option CronRun}
      (hclaim : forall nowMs maxRetries limit, action ≠ .claim nowMs maxRetries limit) :
      RunChange owner action row row []
  | insert {nowMs : Int} {misfireGraceMs limit : Nat} {ids : List CronRunId}
      {schedule : Schedule} {time : Int} {run : CronRun}
      (hnew : NewRun schedule run.id time run) (hid : run.id ∈ ids) :
      RunChange owner (.project nowMs misfireGraceMs limit ids) none (some run) []
  | delete {nowMs : Int} {retentionMs limit : Nat} {run : CronRun}
      (hterminal : run.state.terminal = true) :
      RunChange owner (.gc nowMs retentionMs limit) (some run) none []
  | claim {nowMs : Int} {maxRetries limit : Nat} {row row' : Option CronRun}
      {claims : List ClaimedCronRun}
      (hchange : ClaimChange owner nowMs maxRetries row row' claims) :
      RunChange owner (.claim nowMs maxRetries limit) row row'
        (claims.map fun run => ⟨run, nowMs⟩)
  | complete {report : ClaimedCronRun} {completion : CronCompletion} {nowMs : Int}
      {maxRetries : Nat} {row row' : CronRun} {next : Option Int}
      (hclaimed : row.state = .claimed)
      (hupdate : row.update
        (completionSet row report completion next nowMs maxRetries).1 = .ok row') :
      RunChange owner (.complete report completion nowMs maxRetries) (some row)
        (some row') []
  | unknown {action : Action} {reason : CronUnknownReason} {nowMs next : Int}
      {maxRetries : Nat} {row row' : CronRun}
      (haction : forall nowMs maxRetries limit, action ≠ .claim nowMs maxRetries limit)
      (hclaimed : row.state = .claimed)
      (hupdate : row.update (unknownSet row reason nowMs next maxRetries) = .ok row') :
      RunChange owner action (some row) (some row') []

def World.dispatchesOf (w : World) (id : CronRunId) : List Dispatch :=
  w.dispatched.filter fun d => d.run.id = id

theorem RunChange.of_reported {row row' : CronRun} (hreported : s.reported report = some row)
    (hupdate : row.update new = .ok row')
    (hclaim : forall nowMs maxRetries limit, action ≠ .claim nowMs maxRetries limit)
    (hchange : row.state = .claimed -> RunChange s.owner action (some row) (some row') [])
    (id : CronRunId) :
    RunChange s.owner action (s.runs.find? id) ((s.runs.replace row').find? id) [] := by
  rcases reported_eq_some.mp hreported with ⟨hfind, _, hclaimed⟩
  rw [replace_find? hfind hupdate]
  by_cases hid : id = report.id
  · subst hid
    rw [Function.update_self, hfind]
    exact hchange hclaimed
  · rw [Function.update_of_ne hid]
    exact RunChange.keep hclaim

/-! ## Slots and identifiers -/

structure Slots (w : World) : Prop where
  runIds : forall id, id ∈ w.store.runs.keys -> id ∈ w.runIds
  activationIds : forall schedule, schedule ∈ w.store.schedules ->
    schedule.activationId ∈ w.activationIds
  projectedIds : forall p, p ∈ w.projected -> p.1 ∈ w.activationIds
  logged : forall run, run ∈ w.store.runs -> (run.activationId, run.scheduledAtMs) ∈ w.projected
  below : forall schedule p, schedule ∈ w.store.schedules -> p ∈ w.projected ->
    p.1 = schedule.activationId -> p.2 < schedule.nextFireAtMs
  increasing : w.projected.Pairwise fun newer older => newer.1 = older.1 -> older.2 < newer.2

def pageItems (s : Store) (nowMs : Int) (limit : Nat) (ids : List CronRunId) :
    List (Schedule × CronRunId) :=
  (dueSchedules s nowMs limit).zip ids

theorem mem_dueSchedules (h : schedule ∈ dueSchedules s nowMs limit) :
    schedule ∈ s.schedules ∧ schedule.nextFireAtMs ≤ nowMs := by
  have hsorted := List.mem_of_mem_take h
  rw [List.mem_insertionSort] at hsorted
  rcases List.mem_filter.mp hsorted with ⟨hstored, hdue⟩
  exact ⟨hstored, by simpa using hdue⟩

theorem map_fst_pageItems (s : Store) (nowMs : Int) (hlimit : limit ≤ ids.length) :
    (pageItems s nowMs limit ids).map Prod.fst = dueSchedules s nowMs limit := by
  refine List.map_fst_zip ?_
  unfold dueSchedules
  rw [List.length_take]
  omega

theorem Slots.projectable (hw : Slots w) (nowMs : Int) (hfresh : Fresh ids w.runIds)
    (hlimit : limit ≤ ids.length) :
    Projectable nowMs (pageItems w.store nowMs limit ids) w.store := by
  have hfst : forall item, item ∈ pageItems w.store nowMs limit ids ->
      item.1 ∈ dueSchedules w.store nowMs limit :=
    fun item hitem => (List.of_mem_zip hitem).left
  constructor
  · have hnodup : ((dueSchedules w.store nowMs limit).map Schedule.activationId).Nodup := by
      have hperm := (List.perm_insertionSort scheduleOrder (w.store.schedules.rows.filter
        fun schedule => decide (schedule.nextFireAtMs ≤ nowMs))).map Schedule.activationId
      have hfilter := (w.store.schedules.filter fun schedule =>
        decide (schedule.nextFireAtMs ≤ nowMs)).nodup
      exact (hperm.nodup_iff.mpr hfilter).sublist ((List.take_sublist limit _).map _)
    rw [← map_fst_pageItems w.store nowMs hlimit, List.map_map] at hnodup
    exact hnodup
  · exact zip_snd_nodup _ hfresh.left
  · intro item hitem
    exact find?_key (mem_dueSchedules (hfst item hitem)).left
  · intro item hitem
    exact (mem_dueSchedules (hfst item hitem)).right
  · intro item hitem hkey
    exact hfresh.right item.2 (List.of_mem_zip hitem).right (hw.runIds item.2 hkey)
  · intro item run hitem hrun hact
    exact hw.below item.1 _ (mem_dueSchedules (hfst item hitem)).left (hw.logged run hrun) hact

variable {Pattern : Type} {croner : Croner Pattern}

theorem projectDueCronSlots_projection (hw : Slots w) (hfresh : Fresh ids w.runIds)
    (hlimit : limit ≤ ids.length)
    (h : projectDueCronSlots croner w.store nowMs misfireGraceMs limit ids = .ok (summary, t)) :
    Projection croner nowMs (max (nowMs - misfireGraceMs) 0)
      (pageItems w.store nowMs limit ids) w.store t := by
  simp only [projectDueCronSlots, ok_iff] at h
  rcases h with ⟨_, _, hloop⟩
  exact projectLoop_sound (by omega) (hw.projectable nowMs hfresh hlimit) hloop

theorem replaceSchedules_frame
    (h : replaceSchedules croner s workerId versionId routeGeneration expressions ids
      nowMs = .ok t) :
    t.runs = s.runs ∧ forall schedule, schedule ∈ t.schedules ->
        schedule ∈ s.schedules ∨ schedule.activationId ∈ ids := by
  refine foldlM_invariant (fun u : Store => u.runs = s.runs ∧ forall schedule,
    schedule ∈ u.schedules -> schedule ∈ s.schedules ∨ schedule.activationId ∈ ids) ?_ ?_ h
  · intro item a b hitem ha hb
    simp only [insertSchedule, ok_iff] at hb
    rcases hb with ⟨_, _, _, _, hb⟩
    split at hb
    · simp only [ok_iff] at hb
      rcases hb with ⟨_, hins, rfl⟩
      exact ⟨ha.left, forall_insert? hins ha.right (.inr (List.of_mem_zip hitem).right)⟩
    · cases hb
  · refine ⟨rfl, ?_⟩
    intro schedule hmem
    exact .inl (mem_filter.mp hmem).left

def StepRuns (w : World) (action : Action) (w' : World) : Prop :=
  forall id, exists ds,
    RunChange w.store.owner action (w.store.runs.find? id) (w'.store.runs.find? id) ds ∧
      w'.dispatchesOf id = ds ++ w.dispatchesOf id

inductive Stepped (croner : Croner Pattern) (w : World) : Action -> World -> Prop where
  | promoted {workerId : WorkerId} {versionId : VersionId} {routeGeneration : Nat}
      {expressions : List String} {ids : List CronActivationId} {nowMs : Int} {t : Store}
      (hfresh : Fresh ids w.activationIds)
      (hok : replaceSchedules croner w.store workerId versionId routeGeneration expressions
        ids nowMs = .ok t) :
      Stepped croner w (.promote workerId versionId routeGeneration expressions ids nowMs)
        { w with store := t, activationIds := ids ++ w.activationIds }
  | projected {nowMs : Int} {misfireGraceMs limit : Nat} {ids : List CronRunId}
      {summary : CronSlotSummary} {t : Store} (hfresh : Fresh ids w.runIds)
      (hlimit : limit ≤ ids.length)
      (hok : projectDueCronSlots croner w.store nowMs misfireGraceMs limit ids = .ok (summary, t)) :
      Stepped croner w (.project nowMs misfireGraceMs limit ids) { w with
        store := t
        runIds := ids ++ w.runIds
        projected := insertedSlots t ids ++ w.projected }
  | claimed {nowMs : Int} {maxRetries limit : Nat} {claims : List ClaimedCronRun} {t : Store}
      (hok : claimCronRuns w.store nowMs maxRetries limit = .ok (claims, t)) :
      Stepped croner w (.claim nowMs maxRetries limit) { w with
        store := t
        dispatched := claims.map (fun run => ⟨run, nowMs⟩) ++ w.dispatched }
  | changed {action : Action} {t : Store} (hschedules : t.schedules = w.store.schedules)
      (hproject : forall nowMs misfireGraceMs limit ids,
        action ≠ .project nowMs misfireGraceMs limit ids)
      (hchange : forall id, RunChange w.store.owner action (w.store.runs.find? id)
        (t.runs.find? id) []) : Stepped croner w action { w with store := t }

theorem next_stepped (h : w.next croner action = some w') : Stepped croner w action w' := by
  cases action <;> simp only [World.next, Option.ite_none_right_eq_some] at h
  case promote =>
    rcases h with ⟨hfresh, h⟩
    split at h <;> cases h
    exact Stepped.promoted hfresh.left ‹_›
  case project =>
    rcases h with ⟨hfresh, h⟩
    split at h <;> cases h
    exact Stepped.projected hfresh.left hfresh.right ‹_›
  case gc =>
    split at h <;> cases h
    rename_i t ht
    have hrows := gcCronHistory_find? ht
    simp only [gcCronHistory, ok_iff, Prod.mk.injEq] at ht
    rcases ht with ⟨_, _, _, rfl⟩
    refine Stepped.changed rfl (by simp) (fun id => ?_)
    cases hrows id with
    | inl hsame =>
      rw [hsame]
      exact RunChange.keep (by simp)
    | inr hdeleted =>
      rcases hdeleted with ⟨_, hfind, hterminal, hnone⟩
      rw [hfind, hnone]
      exact RunChange.delete hterminal
  case claim =>
    split at h <;> cases h
    exact Stepped.claimed ‹_›
  case complete =>
    rcases h with ⟨_, h⟩
    split at h <;> cases h
    rename_i t ht
    cases (completeCronRun_eq_ok.mp ht).right with
    | inl hstale =>
      rw [hstale.right.right]
      exact Stepped.changed rfl (by simp) fun _ => RunChange.keep (by simp)
    | inr happlied =>
      rcases happlied with ⟨row, _, row', hrow, _, hupdate, _, rfl⟩
      exact Stepped.changed rfl (by simp) (RunChange.of_reported hrow hupdate (by simp)
        fun hclaimed => RunChange.complete hclaimed hupdate)
  case markUnknown =>
    rcases h with ⟨_, h⟩
    split at h <;> cases h
    rename_i t ht
    cases (markCronUnknown_eq_ok.mp ht).right.right with
    | inl hstale =>
      rw [hstale.right.right]
      exact Stepped.changed rfl (by simp) fun _ => RunChange.keep (by simp)
    | inr happlied =>
      rcases happlied with ⟨row, row', hrow, hupdate, _, rfl⟩
      exact Stepped.changed rfl (by simp) (RunChange.of_reported hrow hupdate (by simp)
        fun hclaimed => RunChange.unknown (by simp) hclaimed hupdate)
  case restart =>
    split at h <;> cases h
    rename_i ht
    simp only [resetClaims, ok_iff, sqlError, mapErr_eq_ok] at ht
    rcases ht with ⟨_, hreset⟩
    refine Stepped.changed (updateRuns_frame hreset).right (by simp) (fun id => ?_)
    cases updateRuns_find? hreset id with
    | inl hsame =>
      rw [hsame.left]
      exact RunChange.keep (by simp)
    | inr hmoved =>
      rcases hmoved with ⟨_, _, hfind, hselected, hupdate, hfind'⟩
      rw [hfind, hfind']
      exact RunChange.unknown (by simp) (by simpa using hselected) hupdate

theorem next_runs (hw : Slots w) (h : w.next croner action = some w') : StepRuns w action w' := by
  cases next_stepped h with
  | promoted _ hok =>
    refine fun id => ⟨[], ?_, rfl⟩
    rw [(replaceSchedules_frame hok).left]
    exact RunChange.keep (by simp)
  | projected hfresh hlimit hok =>
    have hproj := projectDueCronSlots_projection hw hfresh hlimit hok
    refine fun id => ⟨[], ?_, rfl⟩
    rcases hproj.runs with ⟨_, hrows, _, hfrom, _⟩
    cases hfind : w.store.runs.find? id with
    | some run =>
      rcases find?_eq_some.mp hfind with ⟨hstored, hid⟩
      rw [find?_eq_some.mpr ⟨(mem_runs_append hrows).mpr (.inl hstored), hid⟩]
      exact RunChange.keep (by simp)
    | none =>
      cases hfind' : Table.find? _ id with
      | none => exact RunChange.keep (by simp)
      | some run =>
        rcases find?_eq_some.mp hfind' with ⟨hstored, hid⟩
        cases (mem_runs_append hrows).mp hstored with
        | inl hold => exact absurd hid (find?_eq_none.mp hfind run hold)
        | inr hnew =>
          rcases hfrom run hnew with ⟨_, _, hitem, _, hrun⟩
          have hrid := hrun.id_eq
          refine RunChange.insert (hrid ▸ hrun) ?_
          rw [hrid]
          exact (List.of_mem_zip hitem).right
  | claimed hok =>
    refine fun id => ⟨_, RunChange.claim ((claimCronRuns_changes hok).right id), ?_⟩
    unfold World.dispatchesOf
    rw [List.filter_append, List.filter_map]
    rfl
  | changed _ _ hchange => exact fun id => ⟨[], hchange id, rfl⟩

theorem slot_of_update {run : CronRun} (hupdate : run.update new = .ok run') :
    run'.activationId = run.activationId ∧ run'.scheduledAtMs = run.scheduledAtMs := by
  rcases CronRun.update_eq_ok.mp hupdate with ⟨hidentity, _, hrow⟩
  rw [hrow]
  exact ⟨hidentity.right.left.symm, hidentity.right.right.left.symm⟩

theorem RunChange.slot {owner : Uuid} {row : Option CronRun} {ds : List Dispatch}
    (hchange : RunChange owner action row (some run') ds) :
    (exists run, row = some run ∧ run'.activationId = run.activationId ∧
      run'.scheduledAtMs = run.scheduledAtMs) ∨
    (row = none ∧ exists nowMs misfireGraceMs limit ids,
      action = .project nowMs misfireGraceMs limit ids ∧ run'.id ∈ ids) := by
  generalize hrow : some run' = row' at hchange
  cases hchange with
  | keep _ => exact .inl ⟨run', hrow.symm, rfl, rfl⟩
  | insert hnew hid =>
    cases hrow
    exact .inr ⟨rfl, _, _, _, _, rfl, hid⟩
  | delete _ => cases hrow
  | claim hclaim =>
    cases hclaim with
    | keep _ => exact .inl ⟨run', hrow.symm, rfl, rfl⟩
    | fail _ hupdate | claim _ _ hupdate =>
      cases hrow
      exact .inl ⟨_, rfl, slot_of_update hupdate⟩
  | complete _ hupdate | unknown _ _ hupdate =>
    cases hrow
    exact .inl ⟨_, rfl, slot_of_update hupdate⟩

theorem StepRuns.origin (hstep : StepRuns w action w') (hrun : run' ∈ w'.store.runs) :
    (exists run, run ∈ w.store.runs ∧ run.id = run'.id ∧ run'.activationId = run.activationId ∧
      run'.scheduledAtMs = run.scheduledAtMs) ∨
    (exists nowMs misfireGraceMs limit ids,
      action = .project nowMs misfireGraceMs limit ids ∧ run'.id ∈ ids) := by
  rcases hstep run'.id with ⟨_, hchange, _⟩
  rw [find?_key hrun] at hchange
  cases hchange.slot with
  | inl hkept =>
    rcases hkept with ⟨run, hfind, hact, hslot⟩
    rcases find?_eq_some.mp hfind with ⟨hstored, hid⟩
    exact .inl ⟨run, hstored, hid, hact, hslot⟩
  | inr hnew => exact .inr hnew.right

theorem Slots.of_runs (hw : Slots w) (hstep : StepRuns w action w')
    (hproject : forall nowMs misfireGraceMs limit ids,
      action ≠ .project nowMs misfireGraceMs limit ids)
    (hschedules : w'.store.schedules = w.store.schedules) (hrunIds : w'.runIds = w.runIds)
    (hactivationIds : w'.activationIds = w.activationIds)
    (hprojected : w'.projected = w.projected) :
    Slots w' := by
  have horigin : forall run', run' ∈ w'.store.runs -> exists run,
      run ∈ w.store.runs ∧ run.id = run'.id ∧ run'.activationId = run.activationId ∧
        run'.scheduledAtMs = run.scheduledAtMs := by
    intro run' hrun'
    cases hstep.origin hrun' with
    | inl hkept => exact hkept
    | inr hnew =>
      rcases hnew with ⟨nowMs, grace, limit, ids, haction, _⟩
      exact absurd haction (hproject nowMs grace limit ids)
  constructor
  · intro id hid
    rcases mem_keys.mp hid with ⟨run', hrun', hkey⟩
    rcases horigin run' hrun' with ⟨run, hrun, hrid, _⟩
    rw [hrunIds]
    exact hw.runIds id (mem_keys.mpr ⟨run, hrun, hrid.trans hkey⟩)
  · rw [hschedules, hactivationIds]
    exact hw.activationIds
  · rw [hprojected, hactivationIds]
    exact hw.projectedIds
  · intro run' hrun'
    rcases horigin run' hrun' with ⟨run, hrun, _, hact, hslot⟩
    rw [hprojected, hact, hslot]
    exact hw.logged run hrun
  · rw [hschedules, hprojected]
    exact hw.below
  · rw [hprojected]
    exact hw.increasing

theorem insertedSlots_projection {new : List CronRun} (hw : Slots w) (hfresh : Fresh ids w.runIds)
    (hids : forall item, item ∈ items -> item.2 ∈ ids)
    (hrows : t.runs.rows = w.store.runs.rows ++ new)
    (hfrom : forall run, run ∈ new -> exists item time, item ∈ items ∧
      projectedSlot croner nowMs graceFloor item.1 = some time ∧
      NewRun item.1 item.2 time run) :
    insertedSlots t ids = new.map fun run => (run.activationId, run.scheduledAtMs) := by
  unfold insertedSlots
  rw [hrows, List.filter_append]
  have hold : w.store.runs.rows.filter (fun run => decide (run.id ∈ ids)) = [] := by
    rw [List.filter_eq_nil_iff]
    intro run hrun hid
    exact hfresh.right run.id (of_decide_eq_true hid) (hw.runIds run.id (key_mem_keys hrun))
  have hnew : new.filter (fun run => decide (run.id ∈ ids)) = new := by
    rw [List.filter_eq_self]
    intro run hrun
    rcases hfrom run hrun with ⟨item, _, hitem, _, hr⟩
    rw [hr.id_eq]
    exact decide_eq_true (hids item hitem)
  rw [hold, hnew, List.nil_append]

theorem Projection.schedule_cases (h : Projection croner nowMs graceFloor items s t)
    (hmem : schedule ∈ t.schedules) :
    (exists item slot next, item ∈ items ∧
      slotOutcome croner nowMs graceFloor item.1 = .ok (slot, next) ∧
      Advanced item.1 next schedule) ∨
    (schedule ∈ s.schedules ∧
      ¬ schedule.activationId ∈ items.map fun item => item.1.activationId) := by
  by_cases hpage : schedule.activationId ∈ items.map fun item => item.1.activationId
  · left
    rcases List.mem_map.mp hpage with ⟨item, hitem, hact⟩
    rcases h.advanced item hitem with ⟨slot, next, _, houtcome, hrow, hfind⟩
    rw [hact, find?_key hmem] at hfind
    cases hfind
    exact ⟨item, slot, next, hitem, houtcome, hrow⟩
  · right
    have hfind := find?_key hmem
    rw [h.others schedule.activationId hpage] at hfind
    exact ⟨mem_of_find? hfind, hpage⟩

theorem newRun_bounds {item : Schedule × CronRunId} {time : Int} {run : CronRun}
    (hfloor : 0 ≤ graceFloor) (htime : projectedSlot croner nowMs graceFloor item.1 = some time)
    (hrun : NewRun item.1 item.2 time run) :
    item.1.nextFireAtMs ≤ run.scheduledAtMs ∧ run.scheduledAtMs ≤ nowMs := by
  unfold projectedSlot at htime
  split at htime
  · rename_i houtcome
    have hbounds := (slotOutcome_bounds hfloor houtcome).right.right time htime
    rw [hrun.slot_eq]
    exact hbounds.right
  · cases htime

theorem Slots.project (hw : Slots w) (hfresh : Fresh ids w.runIds) (hlimit : limit ≤ ids.length)
    (h : projectDueCronSlots croner w.store nowMs misfireGraceMs limit ids = .ok (summary, t)) :
    Slots { w with
      store := t
      runIds := ids ++ w.runIds
      projected := insertedSlots t ids ++ w.projected } := by
  have hproj := projectDueCronSlots_projection hw hfresh hlimit h
  have hready := hw.projectable nowMs hfresh hlimit
  rcases hproj.runs with ⟨new, hrows, hdistinct, hfrom, _⟩
  have hids : forall item, item ∈ pageItems w.store nowMs limit ids -> item.2 ∈ ids :=
    fun item hitem => (List.of_mem_zip hitem).right
  have hstored : forall item, item ∈ pageItems w.store nowMs limit ids ->
      item.1 ∈ w.store.schedules :=
    fun item hitem => mem_of_find? (hready.stored item hitem)
  have hinserted := insertedSlots_projection hw hfresh hids hrows hfrom
  have hslots : forall p, p ∈ insertedSlots t ids -> exists item,
      item ∈ pageItems w.store nowMs limit ids ∧ p.1 = item.1.activationId ∧
        item.1.nextFireAtMs ≤ p.2 ∧ p.2 ≤ nowMs := by
    intro p hp
    rw [hinserted] at hp
    rcases List.mem_map.mp hp with ⟨run, hrun, rfl⟩
    rcases hfrom run hrun with ⟨item, _, hitem, htime, hr⟩
    exact ⟨item, hitem, hr.activation, newRun_bounds (by omega) htime hr⟩
  constructor
  · intro id hid
    rcases mem_keys.mp hid with ⟨run, hrun, rfl⟩
    rw [List.mem_append]
    cases (mem_runs_append hrows).mp hrun with
    | inl hold => exact .inr (hw.runIds _ (key_mem_keys hold))
    | inr hnew =>
      rcases hfrom run hnew with ⟨item, _, hitem, _, hr⟩
      exact .inl (hr.id_eq ▸ hids item hitem)
  · intro schedule hmem
    cases hproj.schedule_cases hmem with
    | inl hpage =>
      rcases hpage with ⟨item, _, _, hitem, _, hrow⟩
      rw [hrow.activation]
      exact hw.activationIds item.1 (hstored item hitem)
    | inr hother => exact hw.activationIds schedule hother.left
  · intro p hp
    cases List.mem_append.mp hp with
    | inl hnew =>
      rcases hslots p hnew with ⟨item, hitem, hact, _⟩
      rw [hact]
      exact hw.activationIds item.1 (hstored item hitem)
    | inr hold => exact hw.projectedIds p hold
  · intro run hrun
    rw [List.mem_append, hinserted]
    cases (mem_runs_append hrows).mp hrun with
    | inl hold => exact .inr (hw.logged run hold)
    | inr hnew => exact .inl (List.mem_map.mpr ⟨run, hnew, rfl⟩)
  · intro schedule p hmem hp hact
    cases hproj.schedule_cases hmem with
    | inl hpage =>
      rcases hpage with ⟨item, _, _, hitem, houtcome, hrow⟩
      have hlt := (slotOutcome_bounds (by omega) houtcome).left
      have hdue := hready.due item hitem
      rw [hrow.nextFire]
      cases List.mem_append.mp hp with
      | inl hnew =>
        rcases hslots p hnew with ⟨_, _, _, _, hle⟩
        exact lt_of_le_of_lt hle hlt
      | inr hold =>
        have := hw.below item.1 p (hstored item hitem) hold (hact.trans hrow.activation)
        omega
    | inr hother =>
      cases List.mem_append.mp hp with
      | inl hnew =>
        rcases hslots p hnew with ⟨item, hitem, hpact, _⟩
        exact absurd (List.mem_map.mpr ⟨item, hitem, hpact.symm.trans hact⟩) hother.right
      | inr hold => exact hw.below schedule p hother.left hold hact
  · rw [List.pairwise_append]
    refine ⟨?_, hw.increasing, ?_⟩
    · rw [hinserted, List.pairwise_map]
      have hpair := List.pairwise_map.mp hdistinct
      exact hpair.imp fun hne heq => absurd heq hne
    · intro newer hnewer older holder heq
      rcases hslots newer hnewer with ⟨item, hitem, hact, hle, _⟩
      have hlt := hw.below item.1 older (hstored item hitem) holder (heq.symm.trans hact)
      exact lt_of_lt_of_le hlt hle

theorem Slots.promote (hw : Slots w) (hfresh : Fresh ids w.activationIds)
    (h : replaceSchedules croner w.store workerId versionId routeGeneration expressions
      ids nowMs = .ok t) :
    Slots { w with store := t, activationIds := ids ++ w.activationIds } := by
  rcases replaceSchedules_frame h with ⟨hruns, hschedules⟩
  constructor
  · rw [hruns]
    exact hw.runIds
  · intro schedule hmem
    rw [List.mem_append]
    cases hschedules schedule hmem with
    | inl hold => exact .inr (hw.activationIds schedule hold)
    | inr hnew => exact .inl hnew
  · intro p hp
    rw [List.mem_append]
    exact .inr (hw.projectedIds p hp)
  · rw [hruns]
    exact hw.logged
  · intro schedule p hmem hp hact
    cases hschedules schedule hmem with
    | inl hold => exact hw.below schedule p hold hp hact
    | inr hnew => exact absurd (hact ▸ hw.projectedIds p hp) (hfresh.right _ hnew)
  · exact hw.increasing

theorem next_slots (hw : Slots w) (h : w.next croner action = some w') : Slots w' := by
  have hstep := next_runs hw h
  cases next_stepped h with
  | promoted hfresh hok => exact hw.promote hfresh hok
  | projected hfresh hlimit hok => exact hw.project hfresh hlimit hok
  | claimed hok =>
    exact hw.of_runs hstep (by simp) (claimCronRuns_changes hok).left.right rfl rfl rfl
  | changed hschedules hproject _ => exact hw.of_runs hstep hproject hschedules rfl rfl rfl

theorem slots_initial (owner : Uuid) : Slots (World.initial owner) where
  runIds := nofun
  activationIds := forall_mem_empty
  projectedIds := nofun
  logged := forall_mem_empty
  below := fun schedule _ hmem => absurd hmem (not_mem_empty schedule)
  increasing := List.Pairwise.nil

theorem History.slots {owner : Uuid} {actions : List Action} (h : History croner owner actions w) :
    Slots w :=
  Run.invariant (fun _ _ _ hu _ hnext => next_slots hu hnext) h (slots_initial owner)

end Cron
end OpenCompute
