import OpenCompute.Workflow.Recovery

/-!
# Recovery of every expired run

The recovery picks the expired runs with the oldest leases and releases all of
them or none.  It commits unless one of them is stuck: a rollback cancels the
unfinished steps of its instance, and a release does not know where to send an
instance whose steps are cancelled or settled.
-/

namespace OpenCompute
namespace Workflow

open Relational Table Transaction Transition List

/-- A run that pauses is released whatever its steps are. -/
def Instance.Releasable (i : Instance) : Prop :=
  i.pauseRequested = true ∨ ¬ i.Stuck

/-- When the recovery of an expired run commits. -/
def Instance.Recoverable (limits : WorkflowsConfig) (nowMs : Millis) (i : Instance) : Prop :=
  (i64Min ≤ nowMs + limits.recoveryBackoffMs ∧ nowMs + limits.recoveryBackoffMs ≤ i64Max) ∧
    i.Releasable

/-- What the recovery makes of an expired run. -/
structure Recovered (i j : Instance) : Prop where
  state : j.state = .queued ∨ j.state = .waiting ∨ j.state = .paused
  identity : j.identity = i.identity
  steps : Table.Corresponds Reset i.steps j.steps

section Expired

variable {queuedAtMs nowMs : Millis} {limits : WorkflowsConfig} {i j : Instance} {run : RunLease}
  {s : Store}

theorem releaseTo_eq_none (hi : i.Sound) (hidle : i.anyStep StepState.isRunning = false) :
    releaseTo i queuedAtMs = none ↔ ¬ i.Releasable := by
  rw [Instance.Releasable, stuck_iff hi hidle]
  unfold releaseTo
  grind

theorem GivenBack.releasable_iff (hback : GivenBack i j) : j.Releasable ↔ i.Releasable := by
  unfold Instance.Releasable Instance.pauseRequested
  rw [hback.lifecycle]
  refine or_congr_right (not_congr (and_congr (hback.steps.exists_iff ?_).symm
    (hback.steps.forall_iff ?_).symm))
  · intro old new _ hreset
    rw [hreset.same.right.right.left]
  · intro old new _ hreset
    rw [hreset.same.right.right.right]

theorem recoverRun_cases (hi : i.Sound) (hrun : i.lifecycle = .running run)
    (hlease : run.leaseUntilMs ≤ nowMs) :
    (i.Releasable ∧ exists j, recoverRun queuedAtMs nowMs i = .ok j ∧ Recovered i j) ∨
      ¬ i.Releasable ∧ forall j, recoverRun queuedAtMs nowMs i ≠ .ok j := by
  rcases recoverRun_eq hi hrun hlease queuedAtMs with ⟨k, heq, hback⟩
  rw [← hback.releasable_iff, heq]
  have hnone := @releaseTo_eq_none queuedAtMs k hback.sound hback.idle
  cases hto : releaseTo k queuedAtMs with
  | none =>
    refine .inr ⟨hnone.mp hto, fun j hj => ?_⟩
    simp only [release, ok_iff] at hj
    rcases hj with ⟨_, lifecycle, hsome, _⟩
    rw [hto] at hsome
    cases hsome
  | some lifecycle =>
    rw [hto] at hnone
    rcases release_commits hback.sound (hback.lifecycle.trans hrun) hback.idle hto
      (.inl hlease) with ⟨j, hrelease, hlifecycle, hsteps, hidentity⟩
    refine .inl ⟨not_not.mp fun hnot => (by cases hnone.mpr hnot), j, hrelease, ?_,
      hidentity.trans hback.identity, hsteps ▸ hback.steps⟩
    rcases releaseTo_facts hto with ⟨hlive, hleaves, _⟩
    unfold Instance.state
    rw [hlifecycle]
    cases lifecycle with
    | queued => exact .inl rfl
    | waiting => exact .inr (.inl rfl)
    | paused => exact .inr (.inr rfl)
    | running => exact absurd rfl hleaves
    | _ => cases hlive

theorem recoverRun_recovered (hi : i.Sound) (hrun : i.lifecycle = .running run)
    (hlease : run.leaseUntilMs ≤ nowMs) (hrecover : recoverRun queuedAtMs nowMs i = .ok j) :
    Recovered i j := by
  rcases recoverRun_cases hi hrun hlease with ⟨_, k, hk, hrecovered⟩ | ⟨_, hnone⟩
  · cases Except.ok.inj (hrecover.symm.trans hk)
    exact hrecovered
  · exact absurd hrecover (hnone j)

/-! ## The loop over the expired runs -/

theorem expiredRuns_nodup (s : Store) (nowMs : Millis) (limit : Nat) :
    ((s.expiredRuns nowMs limit).map Instance.id).Nodup := by
  refine ((take_sublist _ _).map _).nodup ?_
  rw [((perm_insertionSort _ _).map Instance.id).nodup_iff]
  exact (filter_sublist.map _).nodup s.instances.nodup

theorem expiredRuns_lease {limit : Nat} (hi : i ∈ s.expiredRuns nowMs limit) :
    i ∈ s.instances ∧ exists run, i.lifecycle = .running run ∧ run.leaseUntilMs ≤ nowMs := by
  have hfilter := (List.mem_insertionSort _).mp (List.mem_of_mem_take hi)
  rcases List.mem_filter.mp hfilter with ⟨hmem, hexpired⟩
  refine ⟨hmem, ?_⟩
  unfold Instance.leaseUntil at hexpired
  cases hlifecycle : i.lifecycle with
  | running run =>
    rw [hlifecycle] at hexpired
    exact ⟨run, rfl, of_decide_eq_true hexpired⟩
  | _ =>
    rw [hlifecycle] at hexpired
    cases hexpired

theorem recoverOne_cases (hvalid : limits.Valid) (hi : i.Sound) (hrun : i.lifecycle = .running run)
    (hlease : run.leaseUntilMs ≤ nowMs) (hfind : s.instances.find? i.id = some i) :
    (i.Recoverable limits nowMs ∧
      exists j, recoverOne limits nowMs s i.id = .ok (s.put j) ∧
        recoverRun (nowMs + limits.recoveryBackoffMs) nowMs i = .ok j) ∨
    ¬ i.Recoverable limits nowMs ∧ forall t, recoverOne limits nowMs s i.id ≠ .ok t := by
  have hone : forall t, recoverOne limits nowMs s i.id = .ok t ↔
      (i64Min ≤ nowMs + limits.recoveryBackoffMs ∧ nowMs + limits.recoveryBackoffMs ≤ i64Max) ∧
        exists j, recoverRun (nowMs + limits.recoveryBackoffMs) nowMs i = .ok j ∧ s.put j = t := by
    simp only [recoverOne, ok_iff, hfind, Option.some.injEq, exists_eq_left',
      recovery_deadline hvalid, and_assoc, exists_and_left, exists_eq_left, implies_true]
  simp only [ne_eq, hone, Instance.Recoverable]
  rcases @recoverRun_cases (nowMs + limits.recoveryBackoffMs) nowMs i run hi hrun hlease with
    ⟨_, _, _, _⟩ | ⟨_, _⟩
  · grind
  · grind

theorem recoverLoop_iff {limit : Nat} (hvalid : limits.Valid)
    (hsound : forall i, i ∈ s.instances -> i.Sound) :
    ((exists t, ((s.expiredRuns nowMs limit).map Instance.id).foldlM (recoverOne limits nowMs) s =
        .ok t) ↔ forall i, i ∈ s.expiredRuns nowMs limit -> i.Recoverable limits nowMs) ∧
      forall t, ((s.expiredRuns nowMs limit).map Instance.id).foldlM (recoverOne limits nowMs) s =
        .ok t -> forall i, i ∈ s.expiredRuns nowMs limit ->
          exists j, t.instances.find? i.id = some j ∧
            recoverRun (nowMs + limits.recoveryBackoffMs) nowMs i = .ok j := by
  have hnodup := expiredRuns_nodup s nowMs limit
  simp only [foldlM_map]
  refine foldlM_items_iff (fun (a : Store) (i : Instance) => a.instances.find? i.id)
    (fun i found => exists j, found = some j ∧
      recoverRun (nowMs + limits.recoveryBackoffMs) nowMs i = .ok j) _ ?_ hnodup.of_map
  intro i a hi hlook
  rcases expiredRuns_lease hi with ⟨hmem, _, hrun, hlease⟩
  have hfind := hlook.trans (find?_key hmem)
  rcases recoverOne_cases hvalid (hsound i hmem) hrun hlease hfind with
    ⟨hok, j, hone, hrecover⟩ | hnone
  · have hrecovered := recoverRun_recovered (hsound i hmem) hrun hlease hrecover
    have hput := find?_put hfind (congrArg WorkflowInstanceIdentity.instanceId hrecovered.identity)
    refine .inl ⟨hok, a.put j, hone, ⟨j, ?_, hrecover⟩, ?_⟩
    · rw [hput, if_pos rfl]
    · intro other hother hne
      rw [hput, if_neg fun heq => hne (inj_on_of_nodup_map hnodup hother hi heq)]
  · exact .inr hnone

theorem recoverWorkflows_iff {limit : Nat} (hsound : forall i, i ∈ s.instances -> i.Sound) :
    ((exists n t, recoverWorkflows s nowMs limits limit = .ok (n, t)) ↔
      limits.Valid ∧ (limit ≠ 0 ∧ limit ≤ 1000) ∧
        forall i, i ∈ s.expiredRuns nowMs limit -> i.Recoverable limits nowMs) ∧
    forall n t, recoverWorkflows s nowMs limits limit = .ok (n, t) ->
      n = (s.expiredRuns nowMs limit).length ∧ forall i, i ∈ s.expiredRuns nowMs limit ->
        exists j, t.instances.find? i.id = some j ∧
          recoverRun (nowMs + limits.recoveryBackoffMs) nowMs i = .ok j := by
  simp only [recoverWorkflows, bounded, ok_iff, WorkflowsConfig.validate_eq_ok, Prod.mk.injEq]
  refine ⟨⟨?_, ?_⟩, ?_⟩
  · rintro ⟨_, _, hvalid, hlimit, t, hfold, _⟩
    exact ⟨hvalid, hlimit, (recoverLoop_iff hvalid hsound).left.mp ⟨t, hfold⟩⟩
  · rintro ⟨hvalid, hlimit, hall⟩
    rcases (recoverLoop_iff hvalid hsound).left.mpr hall with ⟨t, hfold⟩
    exact ⟨_, t, hvalid, hlimit, t, hfold, rfl, rfl⟩
  · rintro n t ⟨hvalid, _, _, hfold, rfl, rfl⟩
    exact ⟨rfl, (recoverLoop_iff hvalid hsound).right _ hfold⟩

end Expired

/-- In every state of every run, whatever its times are. -/
theorem recovery_releases {env : Environment} {owner : Uuid} {clock : Millis}
    {actions : List Action} {w : World} (hrun : History env owner clock actions w)
    (nowMs : Millis) (limits : WorkflowsConfig) (limit : Nat) :
    ((exists s', recoverWorkflows w.store nowMs limits limit =
        .ok ((w.store.expiredRuns nowMs limit).length, s') ∧
      forall i, i ∈ w.store.expiredRuns nowMs limit ->
        exists j, s'.instances.find? i.id = some j ∧ Recovered i j) ↔
      limits.Valid ∧ (limit ≠ 0 ∧ limit ≤ 1000) ∧
        forall i, i ∈ w.store.expiredRuns nowMs limit -> i.Recoverable limits nowMs) ∧
    forall i, i ∈ w.store.instances -> i.anyStep StepState.isRunning = false ->
      forall queuedAtMs, releaseTo i queuedAtMs = none ↔ ¬ i.Releasable := by
  have hsound := history_sound hrun
  have hrecover := @recoverWorkflows_iff nowMs limits w.store limit hsound
  refine ⟨⟨?_, ?_⟩, fun i hi hidle queuedAtMs => releaseTo_eq_none (hsound i hi) hidle⟩
  · rintro ⟨s', hcommit, _⟩
    exact hrecover.left.mp ⟨_, s', hcommit⟩
  · intro hall
    rcases hrecover.left.mpr hall with ⟨_, s', hcommit⟩
    rcases hrecover.right _ s' hcommit with ⟨rfl, hrows⟩
    refine ⟨s', hcommit, fun i hi => ?_⟩
    rcases hrows i hi with ⟨j, hfind, hone⟩
    rcases expiredRuns_lease hi with ⟨hmem, _, hlifecycle, hlease⟩
    exact ⟨j, hfind, recoverRun_recovered (hsound i hmem) hlifecycle hlease hone⟩

namespace Sample

/-- A run with a callback that has not returned. -/
def calledBack : List Action :=
  [create, claim 0 11, start [single 0 "a" (.doStep config)] 1 11 [12]]

/-- A rollback of an instance that sleeps. -/
def rolledBack : List Action :=
  [create, claim 0 11, start [single 0 "nap" (.sleep 5000)] 1 11 [12],
    .rollback (identity 1) 2 limits]

end Sample

open Sample in
theorem recovery_releases_activated : exists w i s' j,
    OrderedHistory environment 7 0 calledBack w ∧ i ∈ w.store.expiredRuns 40000 1 ∧
    (exists s, s ∈ i.steps ∧ s.state.isRunning = true) ∧
    recoverWorkflows w.store 40000 limits 1 = .ok (1, s') ∧
    s'.instances.find? i.id = some j ∧ Recovered i j := by
  have hexec : exists w, OrderedHistory environment 7 0 calledBack w ∧
      (w.store.expiredRuns 40000 1).length = 1 ∧
      forall i, i ∈ w.store.expiredRuns 40000 1 ->
        exists s, s ∈ i.steps.rows ∧ s.state.isRunning = true :=
    exists_run_of_execute (by decide +kernel)
  rcases hexec with ⟨w, hrun, hlength, hrunning⟩
  have hallowed : forall i, i ∈ w.store.expiredRuns 40000 1 -> i.Recoverable limits 40000 := by
    intro i hi
    refine ⟨by decide, Or.inr ?_⟩
    rintro ⟨_, hfinished⟩
    rcases hrunning i hi with ⟨s, hs, hcallback⟩
    have hdone := hfinished s hs
    cases hstate : s.state with
    | running attempt run token =>
      rw [hstate] at hdone
      cases hdone
    | _ =>
      rw [hstate] at hcallback
      cases hcallback
  rcases length_eq_one_iff.mp hlength with ⟨i, hone⟩
  have hi : i ∈ w.store.expiredRuns 40000 1 := by
    rw [hone]
    exact mem_singleton_self i
  rcases (recovery_releases (hrun.weaken fun _ _ _ => trivial) 40000 limits 1).left.mpr
    ⟨by decide, by decide, hallowed⟩ with ⟨s', hrecover, hrows⟩
  rcases hrows i hi with ⟨j, hfind, hrecovered⟩
  rw [hlength] at hrecover
  exact ⟨w, i, s', j, hrun, hi, hrunning i hi, hrecover, hfind, hrecovered⟩

open Sample in
theorem recovery_wedges : exists w, OrderedHistory environment 7 0 (rolledBack ++ [claim 3 21]) w ∧
    recoverWorkflows w.store 40000 limits 1 = .error (error .workflowInvariantViolation) :=
  exists_run_of_execute (by decide +kernel)

end Workflow
end OpenCompute
