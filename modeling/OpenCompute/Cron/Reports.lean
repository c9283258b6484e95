import OpenCompute.Cron.Guards

/-!
# Claims, reports and their fences

What holds of every run in every history of claims, known results, unknown
results, restarts, projections and deletions, at whatever times and with
whatever retry limits the calls are made.
-/

namespace OpenCompute
namespace Cron

open Relational Table Transaction Transition

variable {Pattern : Type} {croner : Croner Pattern}

/-! ## Terminal runs and exhausted runs -/

variable {run : CronRun} {maxRetries : Nat}

theorem RunChange.absorbing {owner : Uuid} {action : Action} {row' : Option CronRun}
    {new : List Dispatch} (hchange : RunChange owner action (some run) row' new)
    (hterminal : run.state.terminal = true) :
    row' = some run ∨ (row' = none ∧ exists nowMs retentionMs limit,
      action = .gc nowMs retentionMs limit) := by
  generalize hrow : some run = row at hchange
  cases hchange with
  | keep _ => exact .inl rfl
  | insert _ _ => cases hrow
  | delete _ => exact .inr ⟨rfl, _, _, _, rfl⟩
  | claim hclaim =>
    cases hclaim with
    | keep _ => exact .inl rfl
    | fail hoverdue _ =>
      cases hrow
      have hready := (of_decide_eq_true hoverdue).left
      rw [hready] at hterminal
      cases hterminal
    | claim hclaimable _ _ =>
      cases hrow
      rw [(claimable_iff.mp hclaimable).left] at hterminal
      cases hterminal
  | complete hclaimed _ | unknown _ hclaimed _ =>
    cases hrow
    rw [hclaimed] at hterminal
    cases hterminal

/-- A run whose deadline passed, or that the retry limit does not allow again. -/
def Exhausted (nowMs : Int) (maxRetries : Nat) (run : CronRun) : Prop :=
  (exists deadline, run.dispatchDeadlineAtMs = some deadline ∧ deadline ≤ nowMs) ∨
    maxRetries + 1 ≤ run.attempt

theorem overdue_of_exhausted {nowMs : Int} (hready : run.state = .ready)
    (hexhausted : Exhausted nowMs maxRetries run) : overdue nowMs maxRetries run = true := by
  have hcheck := run.checks.dispatch
  unfold RunColumns.DispatchCheck at hcheck
  unfold overdue
  rw [decide_eq_true_eq]
  refine ⟨hready, ?_, ?_⟩
  · intro hnone
    rw [hnone] at hcheck
    cases hexhausted with
    | inl hpassed =>
      rcases hpassed with ⟨deadline, hdeadline, _⟩
      rw [hdeadline] at hcheck
      exact hcheck
    | inr hattempts =>
      cases hdeadline : run.dispatchDeadlineAtMs with
      | none =>
        rw [hdeadline] at hcheck
        omega
      | some deadline =>
        rw [hdeadline] at hcheck
        exact hcheck
  · cases hexhausted with
    | inl hpassed =>
      rcases hpassed with ⟨_, hdeadline, hle⟩
      left
      rw [hdeadline]
      exact decide_eq_true hle
    | inr hattempts => exact .inr hattempts

/-! ## The lifecycle -/

structure RunLifecycle (croner : Croner Pattern) (actions : List Action) (w : World) :
    Prop where
  attempts : forall id, exists n, (w.dispatchesOf id).map (fun d => d.run.attempt) = countdown n
  dispatches : forall bound, RetriesWithin bound actions ->
    forall id, (w.dispatchesOf id).length ≤ bound + 1
  window : forall d first, d ∈ w.dispatched -> first ∈ w.dispatched ->
    first.run.id = d.run.id -> first.run.attempt = 1 ->
    d.atMs < first.atMs + 15 * 60 * 1000
  claim_commits : forall nowMs maxRetries limit,
    ¬ Aborts (claimCronRuns w.store nowMs maxRetries limit)
  unknown_commits : forall d reason nowMs maxRetries, d ∈ w.dispatched ->
    ¬ Aborts (markCronUnknown w.store d.run reason nowMs maxRetries)
  restart_commits : forall nowMs maxRetries, ¬ Aborts (resetClaims w.store nowMs maxRetries)
  completion_aborts : forall d completion nowMs maxRetries, d ∈ w.dispatched ->
    completion.ValidCode ->
    (Aborts (completeCronRun w.store d.run completion nowMs maxRetries) ↔ maxRetries ≤ 3 ∧
      (exists next, retryAt d.run completion nowMs maxRetries = .ok next) ∧
      exists row, w.store.runs.find? d.run.id = some row ∧ row.state = .claimed ∧
        row.attempt ≠ d.run.attempt)
  absorbing : forall action w' id run, w.next croner action = some w' ->
    w.store.runs.find? id = some run -> run.state.terminal = true ->
    w'.store.runs.find? id = some run ∨
      (w'.store.runs.find? id = none ∧ exists nowMs retentionMs limit,
        action = .gc nowMs retentionMs limit)
  exhausted : forall nowMs maxRetries limit, maxRetries ≤ 3 -> limit ≠ 0 ->
    i64Min ≤ nowMs + 900000 -> nowMs + 900000 ≤ i64Max ->
    exists claims t, claimCronRuns w.store nowMs maxRetries limit = .ok (claims, t) ∧
      forall run, run ∈ w.store.runs -> run.state = .ready -> Exhausted nowMs maxRetries run ->
        exists run', t.runs.find? run.id = some run' ∧ run'.state = .failed

theorem cronRun_lifecycle {owner : Uuid} {actions : List Action} {w : World}
    (h : History croner owner actions w) : RunLifecycle croner actions w := by
  rcases h.lives with ⟨hslots, hlives⟩
  constructor
  · intro id
    rcases (hlives.life id).attempts with ⟨n, hn, _⟩
    exact ⟨n, hn⟩
  · intro bound hbound id
    exact h.dispatches_le hbound id
  · intro d first hd hfirst hid hattempt
    rcases (hlives.life d.run.id).window with ⟨opened, hds, _⟩
    have hin := hds d (mem_dispatchesOf.mpr ⟨hd, rfl⟩)
    have hopened := (hds first (mem_dispatchesOf.mpr ⟨hfirst, hid⟩)).right.right hattempt
    omega
  · intro nowMs maxRetries limit habort
    rcases aborts_ensure_bind (by decide) habort with ⟨hargs, hrest⟩
    rcases aborts_addMs_bind hrest with ⟨t, ht, _⟩
    rcases hlives.claim_total hargs ⟨t, ht⟩ with ⟨result, hresult⟩
    exact not_aborts_ok hresult habort
  · intro d reason nowMs maxRetries _
    exact markUnknown_not_aborts w.store d.run reason nowMs maxRetries
  · exact restart_not_aborts w.store
  · intro d completion nowMs maxRetries hd hcode
    exact hlives.complete_aborts_iff hd hcode
  · intro action w' id run hnext hfind hterminal
    rcases next_runs hslots hnext id with ⟨new, hchange, _⟩
    rw [hfind] at hchange
    exact hchange.absorbing hterminal
  · intro nowMs maxRetries limit hmax hlimit hlow hhigh
    have hnow : exists t, addMs nowMs (15 * 60 * 1000) = .ok t :=
      ⟨nowMs + 900000, addMs_eq_ok.mpr ⟨by decide, hlow, hhigh, rfl⟩⟩
    rcases hlives.claim_total ⟨hmax, hlimit⟩ hnow with ⟨⟨claims, t⟩, hclaim⟩
    refine ⟨claims, t, hclaim, fun run hrun hready hexhausted => ?_⟩
    have hoverdue := overdue_of_exhausted hready hexhausted
    have hchange := (claimCronRuns_changes hclaim).right run.id
    rw [find?_key hrun] at hchange
    generalize hrow : some run = row at hchange
    generalize t.runs.find? run.id = row' at hchange ⊢
    generalize claims.filter (fun c => decide (c.id = run.id)) = new at hchange
    cases hchange with
    | keep hkeep =>
      rw [hkeep run hrow.symm] at hoverdue
      cases hoverdue
    | fail _ hupdate => exact ⟨_, rfl, (sameDispatch_fail hupdate).right⟩
    | claim _ hkeep _ =>
      cases hrow
      rw [hkeep] at hoverdue
      cases hoverdue

theorem reclaimed_history : exists w, History Sample.everyMinute 7 Sample.reclaimed w ∧
      w.dispatched = [⟨Sample.run 2, 60350⟩, ⟨Sample.run 1, 60000⟩] ∧
      Aborts (completeCronRun w.store (Sample.run 1) .success 60400 3) ∧
      exists r, markCronUnknown w.store (Sample.run 1) .connectionLoss 60400 3 = .ok r ∧
        r.1 = true ∧ (r.2.runs.find? 10).any (fun row => decide (row.state = .ready)) = true :=
  exists_run_of_execute (by decide +kernel)

theorem cronRun_lifecycle_reclaimed : exists w, History Sample.everyMinute 7 Sample.reclaimed w ∧
      RunLifecycle Sample.everyMinute Sample.reclaimed w := by
  rcases reclaimed_history with ⟨w, hw, _⟩
  exact ⟨w, hw, cronRun_lifecycle hw⟩

theorem late_completion_aborts : exists w, History Sample.everyMinute 7 Sample.reclaimed w ∧
      (⟨Sample.run 1, 60000⟩ : Dispatch) ∈ w.dispatched ∧
      Aborts (completeCronRun w.store (Sample.run 1) .success 60400 3) := by
  rcases reclaimed_history with ⟨w, hw, hlog, haborts, _⟩
  refine ⟨w, hw, ?_, haborts⟩
  rw [hlog]
  simp

/-! ## The fence of a delivery -/

theorem Lives.attempt_le {w : World} (hw : Lives w) {d : Dispatch}
    (hd : d ∈ w.dispatched) {row : CronRun}
    (hrow : w.store.runs.find? d.run.id = some row) : d.run.attempt ≤ row.attempt := by
  rcases (hw.life d.run.id).attempts with ⟨n, hds, hn⟩
  have hmem : d.run.attempt ∈ countdown n := by
    rw [← hds]
    exact List.mem_map.mpr ⟨d, mem_dispatchesOf.mpr ⟨hd, rfl⟩, rfl⟩
  rw [hn row hrow]
  exact (mem_countdown.mp hmem).right

/--
A report of an attempt that arrives after a later attempt of the same run was
claimed is answered as stale exactly when the later attempt is no longer
claimed.  While it is claimed, the late report of a known result fails.
-/
theorem lateReport_stale_iff {owner : Uuid} {actions : List Action} {w : World}
    (h : History croner owner actions w) {d later : Dispatch} (hd : d ∈ w.dispatched)
    (hlater : later ∈ w.dispatched) (hid : later.run.id = d.run.id)
    (hattempt : d.run.attempt < later.run.attempt) (completion : CronCompletion)
    (reason : CronUnknownReason) (nowMs : Int) (maxRetries : Nat) :
    (completeCronRun w.store d.run completion nowMs maxRetries = .ok (.stale, w.store) ↔
      maxRetries ≤ 3 ∧ ¬ exists row, w.store.runs.find? d.run.id = some row ∧
        row.state = .claimed) ∧
    (markCronUnknown w.store d.run reason nowMs maxRetries = .ok (false, w.store) ↔
      maxRetries ≤ 3 ∧ (i64Min ≤ nowMs + 250 ∧ nowMs + 250 ≤ i64Max) ∧
        ¬ exists row, w.store.runs.find? d.run.id = some row ∧ row.state = .claimed) ∧
    ((exists row, w.store.runs.find? d.run.id = some row ∧ row.state = .claimed) ->
      forall result, completeCronRun w.store d.run completion nowMs maxRetries ≠ .ok result) := by
  have hlives := h.lives.right
  have hnone : w.store.reported d.run = none ↔
      ¬ exists row, w.store.runs.find? d.run.id = some row ∧ row.state = .claimed := by
    constructor
    · rintro hreported ⟨row, hrow⟩
      rw [(reported_of_dispatch hlives hd).mpr hrow] at hreported
      cases hreported
    · intro hrow
      cases hreported : w.store.reported d.run with
      | none => rfl
      | some row => exact absurd ⟨row, (reported_of_dispatch hlives hd).mp hreported⟩ hrow
  refine ⟨?_, ?_, ?_⟩
  · rw [completeCronRun_eq_ok, ← hnone]
    constructor
    · rintro ⟨hmax, ⟨hreported, _⟩ | ⟨row, next, row', _, _, _, hresult, _⟩⟩
      · exact ⟨hmax, hreported⟩
      · cases completion with
        | success => cases hresult
        | failure noRetry errorCode => cases next <;> simp [completionSet] at hresult
    · rintro ⟨hmax, hreported⟩
      exact ⟨hmax, Or.inl ⟨hreported, rfl, rfl⟩⟩
  · rw [markCronUnknown_eq_ok, ← hnone]
    constructor
    · rintro ⟨hmax, ⟨next, hnext⟩, ⟨hreported, _⟩ | ⟨_, _, _, _, hchanged, _⟩⟩
      · rcases addMs_eq_ok.mp hnext with ⟨_, hlow, hhigh, _⟩
        exact ⟨hmax, ⟨hlow, hhigh⟩, hreported⟩
      · cases hchanged
    · rintro ⟨hmax, hrange, hreported⟩
      exact ⟨hmax, ⟨nowMs + 250, addMs_eq_ok.mpr
        ⟨by decide, hrange.left, hrange.right, rfl⟩⟩, Or.inl ⟨hreported, rfl, rfl⟩⟩
  · rintro ⟨row, hfind, hclaimed⟩ result hok
    have hreported := (reported_of_dispatch hlives hd).mpr ⟨hfind, hclaimed⟩
    have hle : later.run.attempt ≤ row.attempt := hlives.attempt_le hlater (hid ▸ hfind)
    rcases completeCronRun_eq_ok.mp hok with ⟨_, ⟨hstale, _⟩ | ⟨r, next, row', hr, _, hupdate, _⟩⟩
    · rw [hreported] at hstale
      cases hstale
    · rw [hreported] at hr
      cases hr
      have hsame := (sameDispatch_complete hclaimed hupdate).left.attempt
      have hrow := (CronRun.update_eq_ok.mp hupdate).right.right
      rw [hrow, (completionSet_columns row d.run completion next nowMs
        maxRetries).right.right.left] at hsame
      omega

theorem lateReport_stale_iff_reclaimed : exists w, History Sample.everyMinute 7 Sample.reclaimed w ∧
      (completeCronRun w.store (Sample.run 1) .success 60400 3 = .ok (.stale, w.store) ↔
        3 ≤ 3 ∧ ¬ exists row, w.store.runs.find? (Sample.run 1).id = some row ∧
          row.state = .claimed) := by
  rcases reclaimed_history with ⟨w, hw, hlog, _⟩
  have hfirst : (⟨Sample.run 1, 60000⟩ : Dispatch) ∈ w.dispatched := by
    rw [hlog]
    simp
  have hsecond : (⟨Sample.run 2, 60350⟩ : Dispatch) ∈ w.dispatched := by
    rw [hlog]
    simp
  exact ⟨w, hw, (lateReport_stale_iff hw hfirst hsecond rfl (by decide) .success
    .connectionLoss 60400 3).left⟩

theorem lateReport_not_stale : exists w, History Sample.everyMinute 7 Sample.reclaimed w ∧
      w.dispatched = [⟨Sample.run 2, 60350⟩, ⟨Sample.run 1, 60000⟩] ∧
      completeCronRun w.store (Sample.run 1) .success 60400 3 = .error Scheduler.unavailable ∧
      exists t, markCronUnknown w.store (Sample.run 1) .connectionLoss 60400 3 = .ok (true, t) ∧
        (t.runs.find? 10).any (fun row => decide (row.state = .ready)) = true := by
  rcases reclaimed_history with ⟨w, hw, hlog, haborts, ⟨_, t⟩, hmark, rfl, hready⟩
  exact ⟨w, hw, hlog, haborts, t, hmark, hready⟩

end Cron
end OpenCompute
