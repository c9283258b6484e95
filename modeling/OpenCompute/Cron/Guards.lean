import OpenCompute.Cron.Lifecycle

/-!
# Calls that the tables let through

The guards and constraints of `cron_runs` against the updates of each
operation.  Claims, unknown results and restarts never abort.  A known result
aborts exactly when it reports another attempt than the one that is claimed.
-/

namespace OpenCompute
namespace Cron

open Relational Transaction Transition

/-! ## Updates -/

theorem sqlNe_self (a : Option Int) : sqlNe a a = false := by
  cases a with
  | none => rfl
  | some x => simp [sqlNe]

variable {nowMs : Int} {maxRetries : Nat} {completion : CronCompletion} {next : Option Int}
  {e : PlatformError} {run : CronRun} {ds : List Dispatch} {α : Type} {w : World}

theorem failOverdue_updates (hoverdue : overdue nowMs maxRetries run = true) :
    exists run', run.update (failOverdue nowMs run) = .ok run' := by
  have hready : run.state = .ready := by
    exact (of_decide_eq_true hoverdue).left
  have hstate := run.checks.state
  unfold RunColumns.StateCheck at hstate
  rw [hready] at hstate
  rw [CronRun.exists_update]
  refine ⟨⟨rfl, rfl, rfl, rfl, rfl, rfl, rfl, ?_⟩, ?_, ?_⟩
  · intro _
    simp [failOverdue, sqlNe_self]
  · unfold TransitionAllowed
    rw [hready]
    rfl
  · have hchecks := run.checks
    refine ⟨hchecks.scheduled_nonneg, hchecks.generation_pos,
      hchecks.expression_length, hchecks.attempt_le, ?_, hchecks.dispatch,
      rfl, hstate.right.left, by simp [failOverdue]⟩
    intro code hcode
    simp only [failOverdue, Option.some.injEq] at hcode
    rw [← hcode]
    split <;> decide

theorem claimSet_updates (hlife : Life (some run) ds) (hmax : maxRetries ≤ 3)
    (hclaimable : claimable nowMs maxRetries run = true) :
    exists run', run.update (claimSet nowMs (nowMs + 900000) run) = .ok run' := by
  rcases claimable_iff.mp hclaimable with ⟨hready, _, _, _⟩
  have hstate := run.checks.state
  unfold RunColumns.StateCheck at hstate
  rw [hready] at hstate
  rw [CronRun.exists_update]
  have hwindow : exists first : Int, run.firstDispatchedAtMs.getD nowMs = first ∧
        run.dispatchDeadlineAtMs.getD (nowMs + 900000) = first + 900000 ∧
        (run.firstDispatchedAtMs ≠ none -> run.firstDispatchedAtMs = some first ∧
          run.dispatchDeadlineAtMs = some (first + 900000)) := by
    by_cases hzero : run.attempt = 0
    · rcases hlife.undispatched run rfl hzero with ⟨hfirst, hdeadline⟩
      refine ⟨nowMs, by rw [hfirst]; rfl, by rw [hdeadline]; rfl, ?_⟩
      intro hsome
      exact absurd hfirst hsome
    · rcases hlife.window with ⟨first, _, hrow⟩
      rcases hrow run rfl hzero with ⟨hfirst, hdeadline⟩
      exact ⟨first, by rw [hfirst]; rfl, by rw [hdeadline]; rfl, fun _ => ⟨hfirst, hdeadline⟩⟩
  rcases hwindow with ⟨_, hfirst, hdeadline, hkept⟩
  refine ⟨⟨rfl, rfl, rfl, rfl, rfl, rfl, rfl, ?_⟩, ?_, ?_⟩
  · intro hsome
    rcases hkept hsome with ⟨hf, hd⟩
    simp [claimSet, hf, hd, sqlNe]
  · unfold TransitionAllowed
    rw [hready]
    exact ⟨rfl, rfl, by simp [claimSet]⟩
  · have hchecks := run.checks
    refine ⟨hchecks.scheduled_nonneg, hchecks.generation_pos,
      hchecks.expression_length, ?_, hchecks.errorCode_length, ?_,
      rfl, by simp [claimSet], hstate.right.right⟩
    · change run.attempt + 1 ≤ 4
      omega
    · change run.dispatchDeadlineAtMs.getD (nowMs + 900000) =
        run.firstDispatchedAtMs.getD nowMs + 900000
      rw [hfirst, hdeadline]

theorem unknownSet_updates (reason : CronUnknownReason) (nowMs next : Int) (maxRetries : Nat)
    (hclaimed : run.state = .claimed) :
    exists run', run.update (unknownSet run reason nowMs next maxRetries) = .ok run' := by
  rw [CronRun.exists_update]
  have hchecks := run.checks
  refine ⟨⟨rfl, rfl, rfl, rfl, rfl, rfl, rfl, ?_⟩, ?_, ?_⟩
  · intro _
    simp [unknownSet, sqlNe_self]
  · unfold TransitionAllowed
    simp only [unknownSet]
    split <;> simp_all
  · refine ⟨hchecks.scheduled_nonneg, hchecks.generation_pos,
      hchecks.expression_length, hchecks.attempt_le, ?_, hchecks.dispatch, ?_⟩
    · intro code hcode
      simp only [unknownSet] at hcode
      split at hcode
      · cases hcode
        decide
      · split at hcode
        · cases hcode
          decide
        · exact hchecks.errorCode_length code hcode
    · unfold RunColumns.StateCheck
      simp only [unknownSet]
      by_cases hretried : run.attempt < maxRetries + 1 ∧
          run.dispatchDeadlineAtMs.any (fun deadline => decide (next < deadline)) = true
      · simp only [hretried, and_self, if_true]
        exact ⟨by simp, trivial⟩
      · simp only [hretried, if_false]
        exact ⟨trivial, trivial, by simp⟩

def CronCompletion.ValidCode : CronCompletion -> Prop
  | .success => True
  | .failure _ errorCode => 1 ≤ errorCode.length ∧ errorCode.length ≤ 128

theorem completionSet_errorCode (row : CronRun) (report : ClaimedCronRun) (next : Option Int)
    (nowMs : Int) (maxRetries : Nat) (hcode : completion.ValidCode) (code : String)
    (h : (completionSet row report completion next nowMs maxRetries).1.errorCode =
      some code) : 1 ≤ code.length ∧ code.length ≤ 128 := by
  cases completion with
  | success => simp [completionSet] at h
  | failure noRetry errorCode =>
    simp only [completionSet] at h
    split at h
    · cases h
      exact hcode
    · simp only [Option.some.injEq] at h
      rw [← h]
      split
      · decide
      · exact hcode

theorem completionSet_state (row : CronRun) {report : ClaimedCronRun}
    (hnext : retryAt report completion nowMs maxRetries = .ok next) :
    (completionSet row report completion next nowMs maxRetries).1.StateCheck := by
  cases completion with
  | success =>
    cases hnext
    simp [completionSet, RunColumns.StateCheck]
  | failure noRetry errorCode =>
    cases next with
    | none | some time => simp [completionSet, RunColumns.StateCheck]

theorem completionSet_updates_iff {report : ClaimedCronRun} {row : CronRun}
    (hlife : Life (some row) ds) (hclaimed : row.state = .claimed) (hcode : completion.ValidCode)
    (hnext : retryAt report completion nowMs maxRetries = .ok next) :
    (exists row', row.update
      (completionSet row report completion next nowMs maxRetries).1 = .ok row') ↔
      row.attempt = report.attempt := by
  rcases completionSet_columns row report completion next nowMs maxRetries with
    ⟨_, _, hattempt, _, _, hnotClaimed, hnoRetry⟩
  constructor
  · rintro ⟨row', hupdate⟩
    have hrow := (CronRun.update_eq_ok.mp hupdate).right.right
    have hsame := (sameDispatch_complete hclaimed hupdate).left.attempt
    rw [hrow, hattempt] at hsame
    exact hsame.symm
  · intro heq
    rw [CronRun.exists_update]
    have hchecks := row.checks
    have hcolumns : exists state noRetry errorCode completedAtMs,
        (completionSet row report completion next nowMs maxRetries).1 = { row.toRunColumns with
            state, noRetry, errorCode, completedAtMs
            attempt := report.attempt
            nextAttemptAtMs := next
            claimedAtMs := none } := by
      cases completion with
      | success => exact ⟨_, _, _, _, rfl⟩
      | failure noRetry errorCode => cases next <;> exact ⟨_, _, _, _, rfl⟩
    rcases hcolumns with ⟨_, _, _, _, hcolumns⟩
    have hstate := completionSet_state row hnext
    have herror := completionSet_errorCode row report next nowMs maxRetries hcode
    have hrowNoRetry : row.noRetry = false := hlife.noRetry row rfl (by rw [hclaimed]; rfl)
    generalize completionSet row report completion next nowMs maxRetries = set at *
    refine ⟨?_, ?_, ?_⟩
    · rw [hcolumns]
      refine ⟨rfl, rfl, rfl, rfl, rfl, rfl, rfl, ?_⟩
      intro _
      simp [sqlNe_self]
    · unfold TransitionAllowed
      rw [hclaimed]
      cases hset : set.1.state with
      | ready =>
        refine ⟨hattempt.trans heq.symm, ?_⟩
        rw [hrowNoRetry]
        exact hnoRetry (by rw [hset]; rfl)
      | claimed => exact absurd hset hnotClaimed
      | complete | failed | skipped => exact hattempt.trans heq.symm
    · refine ⟨?_, ?_, ?_, ?_, herror, ?_, hstate⟩
      · rw [hcolumns]
        exact hchecks.scheduled_nonneg
      · rw [hcolumns]
        exact hchecks.generation_pos
      · rw [hcolumns]
        exact hchecks.expression_length
      · rw [hattempt, ← heq]
        exact hchecks.attempt_le
      · rw [hcolumns]
        have hdispatch := hchecks.dispatch
        rw [← heq]
        exact hdispatch

/-! ## Aborts -/

def Aborts {α : Type} (result : Result α) : Prop :=
  result = .error Scheduler.unavailable

instance {α : Type} [DecidableEq α] (result : Result α) :
    Decidable (Aborts result) :=
  inferInstanceAs (Decidable (result = .error Scheduler.unavailable))

theorem not_aborts_ok {result : Result α} {a : α} (h : result = .ok a) :
    ¬ Aborts result := by
  intro habort
  rw [h] at habort
  cases habort

theorem aborts_ensure_bind {c : Prop} [Decidable c] {f : Unit -> Result α}
    (he : e ≠ Scheduler.unavailable) (h : Aborts (ensure c e >>= f)) : c ∧ Aborts (f ()) := by
  cases ensure_bind_eq_error h with
  | inl hrefused => exact absurd hrefused.right.symm he
  | inr hpassed => exact hpassed

theorem addMs_error {delta : Nat} (h : addMs nowMs delta = .error e) : e = cronInvariant := by
  cases ensure_bind_eq_error h with
  | inl hrefused => exact hrefused.right
  | inr hpassed =>
    cases hadd : checkedAdd nowMs delta with
    | none =>
      rw [hadd] at hpassed
      exact (Except.error.inj hpassed.right).symm
    | some t =>
      rw [hadd] at hpassed
      cases hpassed.right

theorem aborts_addMs_bind {delta : Nat} {f : Int -> Result α}
    (h : Aborts (addMs nowMs delta >>= f)) :
    exists t, addMs nowMs delta = .ok t ∧ Aborts (f t) := by
  cases hadd : addMs nowMs delta with
  | error e =>
    rw [hadd, addMs_error hadd] at h
    cases h
  | ok t =>
    rw [hadd] at h
    exact ⟨t, rfl, h⟩

theorem claimLoop_total {deadline : Int} {ids : List CronRunId} (claims : List ClaimedCronRun)
    {s : Store} (hnodup : ids.Nodup)
    (hrows : forall id, id ∈ ids -> exists run run', s.runs.find? id = some run ∧
      dueForClaim nowMs run = true ∧
      run.update (claimSet nowMs deadline run) = .ok run') :
    exists result, ids.foldlM (claimRun nowMs deadline) (claims, s) = .ok result := by
  have hbody : forall (id : CronRunId) (rest : List CronRunId) (a : List ClaimedCronRun × Store),
      ((id :: rest).Nodup ∧ forall j, j ∈ id :: rest -> exists run run',
        a.2.runs.find? j = some run ∧ dueForClaim nowMs run = true ∧
          run.update (claimSet nowMs deadline run) = .ok run') ->
      exists b, claimRun nowMs deadline a id = .ok b ∧ rest.Nodup ∧
        forall j, j ∈ rest -> exists run run', b.2.runs.find? j = some run ∧
          dueForClaim nowMs run = true ∧
          run.update (claimSet nowMs deadline run) = .ok run' := by
    intro id rest a hmotive
    rcases hmotive with ⟨hids, hfinds⟩
    rw [List.nodup_cons] at hids
    rcases hfinds id List.mem_cons_self with ⟨run, run', hfind, hdue, hupdate⟩
    refine ⟨_, claimRun_eq_ok.mpr ⟨run, run', hfind, hdue, hupdate, rfl⟩, hids.right, ?_⟩
    intro j hj
    have hne : j ≠ id := fun heq => hids.left (heq ▸ hj)
    rcases hfinds j (List.mem_cons_of_mem id hj) with ⟨r, r', hr, hrest⟩
    refine ⟨r, r', ?_, hrest⟩
    rw [replace_find? hfind hupdate, Function.update_of_ne hne]
    exact hr
  rcases foldlM_total (fun ids (a : List ClaimedCronRun × Store) => ids.Nodup ∧
    forall j, j ∈ ids -> exists run run', a.2.runs.find? j = some run ∧
      dueForClaim nowMs run = true ∧
      run.update (claimSet nowMs deadline run) = .ok run') hbody
    (s := (claims, s)) ⟨hnodup, hrows⟩ with ⟨t, ht, _⟩
  exact ⟨t, ht⟩

theorem Lives.claim_total (hw : Lives w) {limit : Nat} (hargs : maxRetries ≤ 3 ∧ limit ≠ 0)
    (hnow : exists t, addMs nowMs (15 * 60 * 1000) = .ok t) :
    exists result, claimCronRuns w.store nowMs maxRetries limit = .ok result := by
  rcases hnow with ⟨_, hdeadline⟩
  rcases addMs_eq_ok.mp hdeadline with ⟨_, _, _, rfl⟩
  have hfails : exists u, updateRuns w.store (overdue nowMs maxRetries)
      (failOverdue nowMs) = .ok u :=
    updateRuns_total fun run _ hoverdue => failOverdue_updates hoverdue
  rcases hfails with ⟨u, hu⟩
  have hrows : forall id, id ∈ claimIds u nowMs maxRetries limit ->
      exists run run', u.runs.find? id = some run ∧ dueForClaim nowMs run = true ∧
        run.update (claimSet nowMs (nowMs + 900000) run) = .ok run' := by
    intro id hid
    rcases mem_claimIds hid with ⟨run, hfind, hclaimable⟩
    have hdue : dueForClaim nowMs run = true := by
      unfold claimable at hclaimable
      unfold dueForClaim
      simp only [decide_eq_true_eq] at hclaimable ⊢
      exact ⟨hclaimable.left, hclaimable.right.left⟩
    cases updateRuns_find? hu id with
    | inl hsame =>
      have hlife := hw.life id
      rw [← hsame.left, hfind] at hlife
      rcases claimSet_updates hlife hargs.left hclaimable with ⟨run', hrun'⟩
      exact ⟨run, run', hfind, hdue, hrun'⟩
    | inr hfailed =>
      rcases hfailed with ⟨_, _, _, _, hold, hnew⟩
      rw [hfind] at hnew
      cases hnew
      rw [failOverdue_not_claimable hold] at hclaimable
      cases hclaimable
  rcases claimLoop_total [] (nodup_claimIds u nowMs maxRetries limit) hrows with ⟨result, hresult⟩
  refine ⟨result, ?_⟩
  simp only [claimCronRuns, ok_iff, sqlError, mapErr_eq_ok]
  exact ⟨hargs, _, hdeadline, u, hu, hresult⟩

theorem restart_not_aborts (s : Store) (nowMs : Int) (maxRetries : Nat) :
    ¬ Aborts (resetClaims s nowMs maxRetries) := by
  intro habort
  have hresets : exists u, updateRuns s (fun run => decide (run.state = .claimed))
      (resetSet nowMs maxRetries) = .ok u :=
    updateRuns_total fun run _ hclaimed => unknownSet_updates _ _ _ _ (of_decide_eq_true hclaimed)
  rcases hresets with ⟨_, hu⟩
  rcases aborts_ensure_bind (by decide) habort with ⟨_, hrest⟩
  rw [hu] at hrest
  cases hrest

theorem markUnknown_not_aborts (s : Store) (run : ClaimedCronRun)
    (reason : CronUnknownReason) (nowMs : Int) (maxRetries : Nat) :
    ¬ Aborts (markCronUnknown s run reason nowMs maxRetries) := by
  intro habort
  rcases aborts_ensure_bind (by decide) habort with ⟨hmax, hrest⟩
  rcases aborts_addMs_bind hrest with ⟨next, hnext, _⟩
  cases hreported : s.reported run with
  | none =>
    exact not_aborts_ok (markCronUnknown_eq_ok.mpr
      ⟨hmax, ⟨next, hnext⟩, Or.inl ⟨hreported, rfl, rfl⟩⟩) habort
  | some row =>
    have hclaimed := (reported_eq_some.mp hreported).right.right
    rcases unknownSet_updates reason nowMs (nowMs + 250) maxRetries hclaimed with ⟨row', hrow'⟩
    exact not_aborts_ok (markCronUnknown_eq_ok.mpr
      ⟨hmax, ⟨next, hnext⟩, Or.inr ⟨row, row', hreported, hrow', rfl, rfl⟩⟩) habort

theorem reported_of_dispatch (hw : Lives w) {d : Dispatch} (hd : d ∈ w.dispatched) {row : CronRun} :
    w.store.reported d.run = some row ↔
      w.store.runs.find? d.run.id = some row ∧ row.state = .claimed := by
  rw [reported_eq_some]
  constructor
  · rintro ⟨hfind, _, hclaimed⟩
    exact ⟨hfind, hclaimed⟩
  · rintro ⟨hfind, hclaimed⟩
    have hlife := hw.life d.run.id
    exact ⟨hfind, (hlife.activation d row (mem_dispatchesOf.mpr ⟨hd, rfl⟩) hfind).symm, hclaimed⟩

theorem retryAt_error {run : ClaimedCronRun}
    (h : retryAt run completion nowMs maxRetries = .error e) : e = cronInvariant := by
  cases completion with
  | success => cases h
  | failure noRetry errorCode =>
    cases noRetry with
    | true => cases h
    | false =>
      simp only [retryAt] at h
      split at h
      · cases hat : cronRetryAt run.id run.attempt nowMs with
        | ok next =>
          rw [hat] at h
          cases h
        | error e' =>
          rw [hat] at h
          have heq : e' = e := Except.error.inj h
          subst heq
          cases ensure_bind_eq_error hat with
          | inl hrefused => exact hrefused.right
          | inr hpassed =>
            cases ensure_bind_eq_error hpassed.right with
            | inl hrefused => exact hrefused.right
            | inr hfits => exact addMs_error hfits.right
      · cases h

theorem Lives.complete_aborts_iff (hw : Lives w) {d : Dispatch} (hd : d ∈ w.dispatched)
    (hcode : completion.ValidCode) :
    Aborts (completeCronRun w.store d.run completion nowMs maxRetries) ↔ maxRetries ≤ 3 ∧
      (exists next, retryAt d.run completion nowMs maxRetries = .ok next) ∧
      exists row, w.store.runs.find? d.run.id = some row ∧ row.state = .claimed ∧
        row.attempt ≠ d.run.attempt := by
  constructor
  · intro habort
    rcases aborts_ensure_bind (by decide) habort with ⟨hmax, hrest⟩
    cases hreported : w.store.reported d.run with
    | none =>
      rw [hreported] at hrest
      cases hrest
    | some row =>
      rcases (reported_of_dispatch hw hd).mp hreported with ⟨hfind, hclaimed⟩
      cases hnext : retryAt d.run completion nowMs maxRetries with
      | error e =>
        rw [hreported] at hrest
        simp only [hnext] at hrest
        have heq : e = Scheduler.unavailable := Except.error.inj hrest
        rw [retryAt_error hnext] at heq
        cases heq
      | ok next =>
        refine ⟨hmax, ⟨next, rfl⟩, row, hfind, hclaimed, ?_⟩
        intro heq
        have hlife := hw.life d.run.id
        rw [hfind] at hlife
        rcases (completionSet_updates_iff hlife hclaimed hcode hnext).mpr heq with ⟨row', hrow'⟩
        exact not_aborts_ok (completeCronRun_eq_ok.mpr ⟨hmax, Or.inr
          ⟨row, next, row', hreported, hnext, hrow', rfl, rfl⟩⟩) habort
  · rintro ⟨hmax, ⟨next, hnext⟩, row, hfind, hclaimed, hne⟩
    have hreported := (reported_of_dispatch hw hd).mpr ⟨hfind, hclaimed⟩
    have hlife := hw.life d.run.id
    rw [hfind] at hlife
    have hnot : ¬ exists row', row.update
        (completionSet row d.run completion next nowMs maxRetries).1 = .ok row' := by
      intro hex
      exact hne ((completionSet_updates_iff hlife hclaimed hcode hnext).mp hex)
    cases hupdate : row.update (completionSet row d.run completion next nowMs maxRetries).1 with
    | ok row' => exact absurd ⟨row', hupdate⟩ hnot
    | error e =>
      unfold completeCronRun
      rw [ensure, if_pos hmax, hreported]
      simp only [hnext]
      change (sqlError (row.update _) >>= _) = _
      rw [hupdate]
      rfl

end Cron
end OpenCompute
