import OpenCompute.Cron.System
import OpenCompute.Relational.Loop

/-!
# What a call does to a run

Every operation of the store either leaves a run alone or moves it by one of a
few changes.  The first part gives each statement its specification, row by
row; the second part collects them into one relation for a step of the system.
-/

namespace OpenCompute
namespace Cron

open Relational Table Transaction Transition List Function

/-! ## Updates of one row -/

variable {old : CronRun} {new : RunColumns}

theorem CronRun.id_of_update {run : CronRun} (hupdate : old.update new = .ok run) :
    run.id = old.id := by
  rcases CronRun.update_eq_ok.mp hupdate with ⟨hidentity, _, hrow⟩
  rw [hrow]
  exact hidentity.left.symm

theorem CronRun.exists_update : (exists run, old.update new = .ok run) ↔
      IdentityKept old.toRunColumns new ∧ TransitionAllowed old.toRunColumns new ∧ new.Checks := by
  constructor
  · rintro ⟨run, hupdate⟩
    rcases CronRun.update_eq_ok.mp hupdate with ⟨hidentity, htransition, hrow⟩
    exact ⟨hidentity, htransition, hrow ▸ run.checks⟩
  · rintro ⟨hidentity, htransition, hchecks⟩
    exact ⟨⟨new, hchecks⟩, CronRun.update_eq_ok.mpr ⟨hidentity, htransition, rfl⟩⟩

theorem find?_replace_run {s : Store} {run : CronRun} (hold : old ∈ s.runs)
    (hid : run.id = old.id) :
    (s.runs.replace run).find? = update s.runs.find? old.id (some run) := by
  funext id
  rw [find?_replace hold hid.symm, hid]
  by_cases h : id = old.id
  · rw [if_pos h, h, update_self]
  · rw [if_neg h, update_of_ne h]

/-! ## Updates of many rows -/

section UpdateRuns

variable {selected : CronRun -> Bool} {set : CronRun -> RunColumns}

theorem nodup_selected (s : Store) (selected : CronRun -> Bool) :
    ((s.runs.rows.filter selected).map fun run : CronRun => run.id).Nodup :=
  (s.runs.filter selected).nodup

variable {s : Store} {id : CronRunId} {nowMs : Int} {maxRetries : Nat} {t : Store} {deadline : Int}
  {claims claims' : List ClaimedCronRun × Store}

theorem updateRuns_frame (h : updateRuns s selected set = .ok t) :
    t.owner = s.owner ∧ t.schedules = s.schedules := by
  refine foldlM_invariant
    (fun u : Store => u.owner = s.owner ∧ u.schedules = s.schedules) ?_ ⟨rfl, rfl⟩ h
  intro run a b _ ha hb
  simp only [ok_iff] at hb
  rcases hb with ⟨_, _, rfl⟩
  exact ha

theorem updateRuns_find? (h : updateRuns s selected set = .ok t) (id : CronRunId) :
    (t.runs.find? id = s.runs.find? id ∧
      forall run, s.runs.find? id = some run -> selected run = false) ∨
    exists run run', s.runs.find? id = some run ∧ selected run = true ∧
      run.update (set run) = .ok run' ∧ t.runs.find? id = some run' := by
  have hstep : forall (run : CronRun) (a b : Store), run ∈ s.runs.rows.filter selected -> True ->
      a.runs.find? run.id = s.runs.find? run.id ->
      (do
        let run ← run.update (set run)
        return { a with runs := a.runs.replace run } : Except SqlError Store) = .ok b ->
      True ∧ exists v, b.runs.find? = update a.runs.find? run.id v ∧
        exists run', run.update (set run) = .ok run' ∧ v = some run' := by
    intro run a b hrun _ hview hb
    simp only [ok_iff] at hb
    rcases hb with ⟨run', hupdate, rfl⟩
    refine ⟨trivial, some run', ?_, run', hupdate, rfl⟩
    have hstored : run ∈ a.runs := by
      rw [find?_key (List.mem_filter.mp hrun).left] at hview
      exact mem_of_find? hview
    exact find?_replace_run hstored (CronRun.id_of_update hupdate)
  rcases foldlM_pointwise (fun u : Store => u.runs.find?) (fun _ => True)
    (fun run _ v => exists run', run.update (set run) = .ok run' ∧ v = some run')
    hstep (nodup_selected s selected) trivial h with ⟨_, hothers, hrows⟩
  by_cases hmem : id ∈ (s.runs.rows.filter selected).map fun run : CronRun => run.id
  · rcases List.mem_map.mp hmem with ⟨run, hrun, rfl⟩
    rcases List.mem_filter.mp hrun with ⟨hstored, hselected⟩
    rcases hrows run hrun with ⟨run', hupdate, hfind'⟩
    exact Or.inr ⟨run, run', find?_key hstored, hselected, hupdate, hfind'⟩
  · refine Or.inl ⟨hothers id hmem, ?_⟩
    intro run hfind
    rcases find?_eq_some.mp hfind with ⟨hstored, hid⟩
    by_contra hselected
    exact hmem (List.mem_map.mpr ⟨run,
      List.mem_filter.mpr ⟨hstored, by simpa using hselected⟩, hid⟩)

theorem updateRuns_total (h : forall run, run ∈ s.runs -> selected run = true ->
      exists run', run.update (set run) = .ok run') :
    exists t, updateRuns s selected set = .ok t := by
  have hbody : forall (run : CronRun) (runs : List CronRun) (a : Store),
      (forall r, r ∈ run :: runs -> exists r', r.update (set r) = .ok r') ->
      exists b, (do
        let run ← run.update (set run)
        return { a with runs := a.runs.replace run } : Except SqlError Store) = .ok b ∧
        forall r, r ∈ runs -> exists r', r.update (set r) = .ok r' := by
    intro run runs a hruns
    rcases hruns run mem_cons_self with ⟨run', hrun⟩
    refine ⟨{ a with runs := a.runs.replace run' }, ?_, fun r hr =>
      hruns r (mem_cons_of_mem run hr)⟩
    simp only [ok_iff]
    exact ⟨run', hrun, rfl⟩
  have hall : forall run, run ∈ s.runs.rows.filter selected ->
      exists run', run.update (set run) = .ok run' := by
    intro run hrun
    rcases List.mem_filter.mp hrun with ⟨hstored, hselected⟩
    exact h run hstored hselected
  rcases foldlM_total (fun (runs : List CronRun) (_ : Store) => forall run, run ∈ runs ->
    exists run', run.update (set run) = .ok run') hbody hall with ⟨t, ht, _⟩
  exact ⟨t, ht⟩

/-! ## Claims -/

def claimedOf (owner : Uuid) (run : CronRun) : ClaimedCronRun :=
  { id := run.id
    activationId := run.activationId
    instanceId := owner
    workerId := run.workerId
    versionId := run.versionId
    executionGeneration := run.executionGeneration
    expression := run.expression
    scheduledAtMs := run.scheduledAtMs
    attempt := run.attempt
    dispatchDeadlineAtMs := run.dispatchDeadlineAtMs.getD 0 }

theorem readClaimedRun_eq_ok {c : ClaimedCronRun} :
    readClaimedRun s id = .ok c ↔ exists run, s.runs.find? id = some run ∧ run.state = .claimed ∧
        run.dispatchDeadlineAtMs ≠ none ∧ c = claimedOf s.owner run := by
  simp only [readClaimedRun, ok_iff, Option.filter_eq_some_iff, decide_eq_true_eq]
  constructor
  · rintro ⟨run, ⟨hfind, hstate⟩, deadline, hdeadline, rfl⟩
    refine ⟨run, hfind, hstate, by simp [hdeadline], ?_⟩
    simp [claimedOf, hdeadline]
  · rintro ⟨run, hfind, hstate, hdeadline, rfl⟩
    rcases Option.ne_none_iff_exists'.mp hdeadline with ⟨deadline, hsome⟩
    refine ⟨run, ⟨hfind, hstate⟩, deadline, hsome, ?_⟩
    simp [claimedOf, hsome]

def dueForClaim (nowMs : Int) (run : CronRun) : Bool :=
  run.state = .ready ∧ run.nextAttemptAtMs.any (fun next => next ≤ nowMs)

theorem claimRun_eq_ok : claimRun nowMs deadline claims id = .ok claims' ↔
      exists run run', claims.2.runs.find? id = some run ∧ dueForClaim nowMs run = true ∧
        run.update (claimSet nowMs deadline run) = .ok run' ∧
        claims' = (claims.1 ++ [claimedOf claims.2.owner run'],
          { claims.2 with runs := claims.2.runs.replace run' }) := by
  simp only [claimRun, ok_iff, sqlError, mapErr_eq_ok, Option.filter_eq_some_iff,
    readClaimedRun_eq_ok]
  constructor
  · rintro ⟨run, ⟨hfind, hdue⟩, run', hupdate, c, ⟨r, hr, _, _, rfl⟩, rfl⟩
    rcases find?_eq_some.mp hfind with ⟨hstored, hid⟩
    rw [find?_replace_run hstored (CronRun.id_of_update hupdate), hid, update_self] at hr
    cases hr
    exact ⟨run, run', hfind, hdue, hupdate, rfl⟩
  · rintro ⟨run, run', hfind, hdue, hupdate, rfl⟩
    rcases find?_eq_some.mp hfind with ⟨hstored, hid⟩
    have hrow := (CronRun.update_eq_ok.mp hupdate).right.right
    refine ⟨run, ⟨hfind, hdue⟩, run', hupdate, _, ⟨run', ?_, ?_, ?_, rfl⟩, rfl⟩
    · rw [find?_replace_run hstored (CronRun.id_of_update hupdate), hid, update_self]
    · rw [hrow]
      rfl
    · rw [hrow]
      simp [claimSet]

theorem mem_claimIds {limit : Nat} (hid : id ∈ claimIds s nowMs maxRetries limit) :
    exists run, s.runs.find? id = some run ∧ claimable nowMs maxRetries run = true := by
  rcases List.mem_map.mp hid with ⟨run, hrun, rfl⟩
  have hsorted := mem_of_mem_take hrun
  rw [List.mem_insertionSort] at hsorted
  rcases List.mem_filter.mp hsorted with ⟨hstored, hclaimable⟩
  exact ⟨run, find?_key hstored, hclaimable⟩

theorem nodup_claimIds (s : Store) (nowMs : Int) (maxRetries limit : Nat) :
    (claimIds s nowMs maxRetries limit).Nodup := by
  have hperm := (perm_insertionSort claimOrder
    (s.runs.rows.filter (claimable nowMs maxRetries))).map fun run : CronRun => run.id
  have hnodup := hperm.nodup_iff.mpr (nodup_selected s (claimable nowMs maxRetries))
  exact hnodup.sublist ((take_sublist limit _).map _)

def claimView (claims : List ClaimedCronRun × Store) (id : CronRunId) :
    Option CronRun × List ClaimedCronRun :=
  (claims.2.runs.find? id, claims.1.filter fun c => c.id = id)

theorem claimRun_view (h : claimRun nowMs deadline claims id = .ok claims') :
    exists run run', claims.2.runs.find? id = some run ∧
      run.update (claimSet nowMs deadline run) = .ok run' ∧
      claims'.2.owner = claims.2.owner ∧ claims'.2.schedules = claims.2.schedules ∧
      claimView claims' = update (claimView claims) id
        (some run', (claimView claims id).2 ++ [claimedOf claims.2.owner run']) := by
  rcases claimRun_eq_ok.mp h with ⟨run, run', hfind, _, hupdate, rfl⟩
  refine ⟨run, run', hfind, hupdate, rfl, rfl, ?_⟩
  rcases find?_eq_some.mp hfind with ⟨hstored, hid⟩
  have hid' : run'.id = id := (CronRun.id_of_update hupdate).trans hid
  funext j
  simp only [claimView, filter_append]
  rw [find?_replace_run hstored (CronRun.id_of_update hupdate), hid]
  by_cases hj : j = id
  · subst hj
    simp [update_self, claimedOf, hid']
  · have hne : ¬ run'.id = j := fun heq => hj (heq.symm.trans hid')
    simp [update_of_ne hj, claimedOf, hne, claimView]

inductive ClaimChange (owner : Uuid) (nowMs : Int) (maxRetries : Nat) :
    Option CronRun -> Option CronRun -> List ClaimedCronRun -> Prop where
  | keep {row : Option CronRun}
      (hkeep : forall run, row = some run -> overdue nowMs maxRetries run = false) :
      ClaimChange owner nowMs maxRetries row row []
  | fail {run run' : CronRun} (hoverdue : overdue nowMs maxRetries run = true)
      (hupdate : run.update (failOverdue nowMs run) = .ok run') :
      ClaimChange owner nowMs maxRetries (some run) (some run') []
  | claim {run run' : CronRun} (hclaimable : claimable nowMs maxRetries run = true)
      (hkeep : overdue nowMs maxRetries run = false)
      (hupdate : run.update (claimSet nowMs (nowMs + 900000) run) = .ok run') :
      ClaimChange owner nowMs maxRetries (some run) (some run')
        [claimedOf owner run']

theorem addMs_eq_ok {t : Int} {delta : Nat} : addMs nowMs delta = .ok t ↔
      (delta : Int) ≤ i64Max ∧ i64Min ≤ nowMs + delta ∧ nowMs + delta ≤ i64Max ∧
        t = nowMs + delta := by
  simp only [addMs, ok_iff, checkedAdd_eq_some]

theorem failOverdue_not_claimable {run run' : CronRun}
    (hupdate : run.update (failOverdue nowMs run) = .ok run') :
    claimable nowMs maxRetries run' = false := by
  have hrow := (CronRun.update_eq_ok.mp hupdate).right.right
  unfold claimable
  rw [hrow]
  simp [failOverdue]

theorem claimCronRuns_changes {limit : Nat} {claims : List ClaimedCronRun}
    (h : claimCronRuns s nowMs maxRetries limit = .ok (claims, t)) :
    (t.owner = s.owner ∧ t.schedules = s.schedules) ∧ forall id,
      ClaimChange s.owner nowMs maxRetries (s.runs.find? id) (t.runs.find? id)
        (claims.filter fun c => c.id = id) := by
  simp only [claimCronRuns, ok_iff, sqlError, mapErr_eq_ok] at h
  rcases h with ⟨_, _, hdeadline, u, hfail, hfold⟩
  rcases addMs_eq_ok.mp hdeadline with ⟨_, _, _, rfl⟩
  have howner := updateRuns_frame hfail
  have hstep : forall (id : CronRunId) (a b : List ClaimedCronRun × Store),
      id ∈ claimIds u nowMs maxRetries limit ->
      (a.2.owner = s.owner ∧ a.2.schedules = s.schedules) ->
      claimView a id = claimView ([], u) id ->
      claimRun nowMs (nowMs + 900000) a id = .ok b ->
      (b.2.owner = s.owner ∧ b.2.schedules = s.schedules) ∧ exists v,
        claimView b = update (claimView a) id v ∧
        exists run run', u.runs.find? id = some run ∧
          run.update (claimSet nowMs (nowMs + 900000) run) = .ok run' ∧
          v = (some run', [claimedOf s.owner run']) := by
    intro id a b _ ha hview hb
    rcases claimRun_view hb with ⟨run, run', hfind, hupdate, hown, hsched, hviewb⟩
    refine ⟨⟨hown.trans ha.left, hsched.trans ha.right⟩, _, hviewb, run, run', ?_, hupdate, ?_⟩
    · rw [← hfind]
      exact (congrArg Prod.fst hview).symm
    · rw [hview, ha.left]
      rfl
  have hnodup : ((claimIds u nowMs maxRetries limit).map fun id => id).Nodup := by
    rw [map_id']
    exact nodup_claimIds u nowMs maxRetries limit
  rcases foldlM_pointwise claimView (fun a => a.2.owner = s.owner ∧ a.2.schedules = s.schedules)
    (fun id _ v => exists run run', u.runs.find? id = some run ∧
      run.update (claimSet nowMs (nowMs + 900000) run) = .ok run' ∧
      v = (some run', [claimedOf s.owner run'])) hstep hnodup howner hfold with
    ⟨hframe, hothers, hclaimed⟩
  refine ⟨hframe, ?_⟩
  intro id
  by_cases hid : id ∈ claimIds u nowMs maxRetries limit
  · rcases hclaimed id hid with ⟨run, run', hfind, hupdate, hview⟩
    rcases mem_claimIds hid with ⟨_, hr, hclaimable⟩
    rw [hfind] at hr
    cases hr
    rcases updateRuns_find? hfail id with ⟨hsame, hkeep⟩ | ⟨old, old', _, _, hold, hnew⟩
    · have hs : s.runs.find? id = some run := hsame.symm.trans hfind
      have ht : t.runs.find? id = some run' := congrArg Prod.fst hview
      have hc : claims.filter (fun c => decide (c.id = id)) =
          [claimedOf s.owner run'] := congrArg Prod.snd hview
      rw [hs, ht, hc]
      exact ClaimChange.claim hclaimable (hkeep run hs) hupdate
    · rw [hfind] at hnew
      cases hnew
      rw [failOverdue_not_claimable hold] at hclaimable
      cases hclaimable
  · have hid' : ¬ id ∈ (claimIds u nowMs maxRetries limit).map fun id => id := by
      rw [map_id']
      exact hid
    have hview := hothers id hid'
    have ht : t.runs.find? id = u.runs.find? id := congrArg Prod.fst hview
    have hc : claims.filter (fun c => decide (c.id = id)) = [] := congrArg Prod.snd hview
    rw [ht, hc]
    rcases updateRuns_find? hfail id with ⟨hsame, hkeep⟩ | ⟨_, _, hs, hsel, hold, hu⟩
    · rw [hsame]
      exact ClaimChange.keep hkeep
    · rw [hs, hu]
      exact ClaimChange.fail hsel hold

end UpdateRuns
end Cron
end OpenCompute
