import OpenCompute.Workflow.RoundTrip

/-!
# Settled instances are claimed again

A settlement wakes a waiting instance only.  The instance of a run in progress,
or a paused one, is found settled by whatever ends the run or the pause: the
release, the yield, the recovery and the resumption commit and leave it queued
or, where a pause was asked for, paused.
-/

namespace OpenCompute
namespace Workflow

open Relational Table Transaction Transition List

/-- Where the end of its run leaves an instance whose steps are all settled. -/
def Instance.settledTo (i : Instance) (queuedAtMs : Millis) : Lifecycle :=
  if i.pauseRequested then .paused else .queued queuedAtMs

/-- The store holds the instance in this lifecycle, with the same steps. -/
def Store.HoldsAs (s : Store) (i : Instance) (lifecycle : Lifecycle) : Prop :=
  exists j, s.instances.find? i.id = some j ∧ j.identity = i.identity ∧
    j.lifecycle = lifecycle ∧ j.steps.find? = i.steps.find?

/-- Whatever ends the run or the pause of a settled instance makes it claimable. -/
structure EndsClaimable (s : Store) (i : Instance) : Prop where
  released : forall run queuedAtMs nowMs, i.lifecycle = .running run ->
    run.leaseUntilMs ≤ nowMs ∨ run.yieldRequested = true ∨ run.pauseRequested = true ->
    exists j, release i queuedAtMs nowMs = .ok j ∧ j.lifecycle = i.settledTo queuedAtMs ∧
      j.steps = i.steps
  yielded : forall fence nowMs, s.running fence nowMs = .ok i -> i.admits = false ->
    exists state s', yieldWorkflow s fence nowMs = .ok (state, s') ∧
      s'.HoldsAs i (i.settledTo nowMs)
  recovered : forall nowMs (limits : WorkflowsConfig) limit,
    i ∈ s.expiredRuns nowMs limit -> limits.Valid ->
    i64Min ≤ nowMs + limits.recoveryBackoffMs ∧ nowMs + limits.recoveryBackoffMs ≤ i64Max ->
    s.RecoversOthers nowMs limit i ->
    exists n s', recoverWorkflows s nowMs limits limit = .ok (n, s') ∧
      s'.HoldsAs i (i.settledTo (nowMs + limits.recoveryBackoffMs))
  paused : forall nowMs limits, i.live = true -> limits.Valid -> SafeTime nowMs ->
    exists s', modifyWorkflow s i.identity .pause nowMs limits = .ok s' ∧
      s'.HoldsAs i i.lifecycle.pausing
  resumed : forall nowMs limits, i.lifecycle = .paused -> limits.Valid -> SafeTime nowMs ->
    exists s', modifyWorkflow s i.identity .resume nowMs limits = .ok s' ∧
      s'.HoldsAs i (.queued nowMs)

section Settled

variable {i j : Instance} {s : Store} {nowMs queuedAtMs : Millis} {run : RunLease}

theorem settled_idle (hsettled : i.allSettled) : i.anyStep StepState.isRunning = false := by
  rw [anyStep_eq_false]
  intro t ht
  have hdone := hsettled t ht
  cases hstate : t.state with
  | running attempt token callback =>
    rw [hstate] at hdone
    cases hdone
  | _ => rfl

theorem settled_not_stuck (hsettled : i.allSettled) : ¬ i.Stuck := by
  rintro ⟨⟨t, ht, hcancelled⟩, _⟩
  rw [(cancelled_of_settled (hsettled t ht)).left] at hcancelled
  cases hcancelled

theorem releaseTo_of_settled (hi : i.Sound) (hsettled : i.allSettled) :
    releaseTo i queuedAtMs = some (i.settledTo queuedAtMs) := by
  unfold releaseTo Instance.settledTo
  rw [(registered_eq_settled_iff hi.accounts).mpr hsettled]
  split
  · rfl
  · simp

theorem release_settled (hi : i.Sound) (hsettled : i.allSettled) (hrun : i.lifecycle = .running run)
    (hends : run.leaseUntilMs ≤ nowMs ∨ run.yieldRequested = true ∨ run.pauseRequested = true) :
    exists j, release i queuedAtMs nowMs = .ok j ∧ j.lifecycle = i.settledTo queuedAtMs ∧
      j.steps = i.steps ∧ j.identity = i.identity :=
  release_commits hi hrun (settled_idle hsettled) (releaseTo_of_settled hi hsettled) hends

/-! ## The recovery -/

theorem Reset.eq_of_settled {old new : Step} (hreset : Reset old new)
    (hsettled : old.state.settled = true) : new = old := by
  cases hreset with
  | kept hsame _ => exact hsame
  | back hstate _ _ =>
    rw [hstate] at hsettled
    cases hsettled

theorem find?_of_settled (hsettled : i.allSettled)
    (hsteps : Table.Corresponds Reset i.steps j.steps) : j.steps.find? = i.steps.find? := by
  funext k
  have hrow := hsteps k
  generalize j.steps.find? k = found at hrow ⊢
  cases hfind : i.steps.find? k with
  | none =>
    rw [hfind] at hrow
    cases hrow
    rfl
  | some old =>
    rw [hfind] at hrow
    cases hrow with
    | some hreset => rw [hreset.eq_of_settled (hsettled old (mem_of_find? hfind))]

theorem recoverRun_settled (hi : i.Sound) (hsettled : i.allSettled)
    (hrun : i.lifecycle = .running run) (hlease : run.leaseUntilMs ≤ nowMs) :
    exists j, recoverRun queuedAtMs nowMs i = .ok j ∧ j.identity = i.identity ∧
      j.lifecycle = i.settledTo queuedAtMs ∧ j.steps.find? = i.steps.find? := by
  rcases recoverRun_eq hi hrun hlease queuedAtMs with ⟨k, heq, hback⟩
  have hsame := find?_of_settled hsettled hback.steps
  have hdone : k.allSettled := by
    intro t ht
    have hfind := find?_key ht
    rw [hsame] at hfind
    exact hsettled t (mem_of_find? hfind)
  rcases @release_settled k nowMs queuedAtMs run hback.sound hdone (hback.lifecycle.trans hrun)
    (.inl hlease) with ⟨j, hrelease, hlifecycle, hsteps, hidentity⟩
  refine ⟨j, heq.trans hrelease, hidentity.trans hback.identity, ?_, by rw [hsteps, hsame]⟩
  rw [hlifecycle]
  unfold Instance.settledTo Instance.pauseRequested
  rw [hback.lifecycle]

/-! ## The store -/

theorem holdsAs_put {lifecycle : Lifecycle} (hi : i ∈ s.instances)
    (hidentity : j.identity = i.identity) (hlifecycle : j.lifecycle = lifecycle)
    (hsteps : j.steps.find? = i.steps.find?) : (s.put j).HoldsAs i lifecycle :=
  ⟨j, put_find? (find?_key hi) hidentity, hidentity, hlifecycle, hsteps⟩

theorem yieldWorkflow_settled {fence : WorkflowFence} (hi : i.Sound) (hsettled : i.allSettled)
    (hrunning : s.running fence nowMs = .ok i) (hadmits : i.admits = false) :
    exists state s', yieldWorkflow s fence nowMs = .ok (state, s') ∧
      s'.HoldsAs i (i.settledTo nowMs) := by
  rcases running_eq_ok.mp hrunning with ⟨hfind, _, hleased⟩
  rcases leased_eq_true.mp hleased with ⟨run, hrun, _⟩
  have hasked : run.yieldRequested = true ∨ run.pauseRequested = true := by
    unfold Instance.admits Instance.pauseRequested Instance.yieldRequested at hadmits
    rw [hrun] at hadmits
    simp only [Lifecycle.run, Option.any_some] at hadmits
    cases hpause : run.pauseRequested with
    | true => exact .inr rfl
    | false => simpa [hpause] using hadmits
  rcases @release_settled i nowMs nowMs run hi hsettled hrun (.inr hasked) with
    ⟨j, hrelease, hlifecycle, hsteps, hidentity⟩
  refine ⟨j.state, s.put j, ?_,
    holdsAs_put (mem_of_find? hfind) hidentity hlifecycle (by rw [hsteps])⟩
  simp only [yieldWorkflow, ok_iff]
  exact ⟨i, hrunning, hadmits, j, hrelease, rfl⟩

variable {limits : WorkflowsConfig} {limit : Nat}

theorem recoverWorkflows_settled (hsound : forall k, k ∈ s.instances -> k.Sound)
    (hsettled : i.allSettled) (hpick : i ∈ s.expiredRuns nowMs limit) (hvalid : limits.Valid)
    (hrange : i64Min ≤ nowMs + limits.recoveryBackoffMs ∧
      nowMs + limits.recoveryBackoffMs ≤ i64Max)
    (hothers : s.RecoversOthers nowMs limit i) :
    exists n s', recoverWorkflows s nowMs limits limit = .ok (n, s') ∧
      s'.HoldsAs i (i.settledTo (nowMs + limits.recoveryBackoffMs)) := by
  have hrecover := @recoverWorkflows_iff nowMs limits s limit hsound
  have hreleasable : i.Releasable := .inr (settled_not_stuck hsettled)
  rcases hrecover.left.mpr ((recoversOthers_iff hvalid hrange hpick hreleasable).mpr hothers) with
    ⟨n, s', hcommit⟩
  rcases (hrecover.right n s' hcommit).right i hpick with ⟨j, hfind, hone⟩
  rcases expiredRuns_lease hpick with ⟨hi, run, hrun, hlease⟩
  rcases @recoverRun_settled i nowMs (nowMs + limits.recoveryBackoffMs) run (hsound i hi) hsettled
    hrun hlease with ⟨_, hone', hholds⟩
  cases Except.ok.inj (hone.symm.trans hone')
  exact ⟨n, s', hcommit, j, hfind, hholds⟩

theorem pause_settled (hi : i ∈ s.instances) (hsound : i.Sound) (hlive : i.live = true)
    (hvalid : limits.Valid) (hsafe : SafeTime nowMs) :
    exists s', modifyWorkflow s i.identity .pause nowMs limits = .ok s' ∧
      s'.HoldsAs i i.lifecycle.pausing := by
  rcases @pauseRun_commits nowMs i hsound hlive with ⟨j, hpause, hpaused⟩
  refine ⟨s.put j, ?_, holdsAs_put hi hpaused.identity hpaused.lifecycle (by rw [hpaused.steps])⟩
  exact (modifyWorkflow_eq_ok (find?_key hi) hlive).mpr ⟨hvalid, hsafe, j, hpause, rfl⟩

theorem resumeRun_settled {others : Usage} (hi : i.Sound) (hsettled : i.allSettled)
    (hpaused : i.lifecycle = .paused) :
    resumeRun limits others nowMs i = .ok (i.resumed nowMs) ∧
      (i.resumed nowMs).lifecycle = .queued nowMs := by
  have hnone : i.dueOrdinals nowMs = [] := by
    rw [eq_nil_iff_forall_not_mem]
    intro k hk
    rcases mem_dueOrdinals.mp hk with ⟨t, ht, hdue, _⟩
    have hdone := hsettled t ht
    cases hstate : t.state with
    | complete attempt output consumed | failed attempt code =>
      rw [hstate] at hdue
      cases hdue
    | _ =>
      rw [hstate] at hdone
      cases hdone
  have hready : i.resumable nowMs = true := by
    unfold Instance.resumable
    rw [(registered_eq_settled_iff hi.accounts).mpr hsettled]
    simp
  constructor
  · rw [resumeRun_eq, hnone]
    simp only [ok_iff, foldlM_nil]
    exact ⟨(paused_facts hi hpaused).right.left, i, rfl,
      resumed_commits hi hpaused (settled_not_stuck hsettled)⟩
  · unfold Instance.resumed
    rw [hready]
    rfl

theorem resume_settled (hi : i ∈ s.instances) (hsound : i.Sound) (hsettled : i.allSettled)
    (hpaused : i.lifecycle = .paused) (hvalid : limits.Valid) (hsafe : SafeTime nowMs) :
    exists s', modifyWorkflow s i.identity .resume nowMs limits = .ok s' ∧
      s'.HoldsAs i (.queued nowMs) := by
  rcases @resumeRun_settled i nowMs limits (s.others i.id) hsound hsettled hpaused with
    ⟨hresume, hqueued⟩
  refine ⟨s.put (i.resumed nowMs), ?_, holdsAs_put hi rfl hqueued rfl⟩
  exact (modifyWorkflow_eq_ok (find?_key hi) (paused_facts hsound hpaused).left).mpr
    ⟨hvalid, hsafe, _, hresume, rfl⟩

end Settled

/--
In every state of every run: no instance waits with all of its steps settled or
without a time to wake at, and what ends the run or the pause of a settled
instance commits and leaves it queued or paused.
-/
theorem no_lost_wakeup {env : Environment} {owner : Uuid} {clock : Millis}
    {actions : List Action} {w : World} (hrun : History env owner clock actions w) :
    forall i, i ∈ w.store.instances ->
      NoLostWakeup i ∧ (i.allSettled -> EndsClaimable w.store i) := by
  intro i hi
  have hsound := history_sound hrun
  rcases history_wakes hrun i hi with ⟨hone, hwakes⟩
  refine ⟨noLostWakeup hone hwakes, fun hsettled => ?_⟩
  constructor
  · intro run queuedAtMs nowMs hlifecycle hends
    rcases @release_settled i nowMs queuedAtMs run hone hsettled hlifecycle hends with
      ⟨j, hrelease, hto, hsteps, _⟩
    exact ⟨j, hrelease, hto, hsteps⟩
  · intro fence nowMs hrunning hadmits
    exact yieldWorkflow_settled hone hsettled hrunning hadmits
  · intro nowMs limits limit hpick hvalid hrange hothers
    exact recoverWorkflows_settled hsound hsettled hpick hvalid hrange hothers
  · intro nowMs limits hlive hvalid hsafe
    exact pause_settled hi hone hlive hvalid hsafe
  · intro nowMs limits hpaused hvalid hsafe
    exact resume_settled hi hone hsettled hpaused hvalid hsafe

open Sample in
theorem no_lost_wakeup_asleep : exists w i s',
    History environment 7 0 (napping ++ [.maintain 6000 limits 10]) w ∧
    i ∈ w.store.instances ∧ i.state = .running ∧ i.allSettled ∧
    recoverWorkflows w.store 40000 limits 1 = .ok (1, s') ∧
    s'.HoldsAs i (.queued (40000 + limits.recoveryBackoffMs)) := by
  have hexec : exists w, History environment 7 0 (napping ++ [.maintain 6000 limits 10]) w ∧
      (w.store.expiredRuns 40000 1).length = 1 ∧
        forall i, i ∈ w.store.expiredRuns 40000 1 -> i.pauseRequested = false ∧
          forall s, s ∈ i.steps.rows -> s.state.settled = true :=
    exists_run_of_execute (by decide +kernel)
  rcases hexec with ⟨w, hrun, hlength, hall⟩
  rcases length_eq_one_iff.mp hlength with ⟨i, hone⟩
  have hpick : i ∈ w.store.expiredRuns 40000 1 := by
    rw [hone]
    exact mem_singleton_self i
  rcases hall i hpick with ⟨hasked, hsettled⟩
  rcases expiredRuns_lease hpick with ⟨hi, run, hlifecycle, _⟩
  rcases ((no_lost_wakeup hrun i hi).right hsettled).recovered 40000 limits 1 hpick (by decide)
    (by decide) (recoversOthers_alone hone (by decide)) with ⟨n, s', hcommit, hholds⟩
  have hcount := ((recoverWorkflows_iff (history_sound hrun)).right n s' hcommit).left
  rw [hlength] at hcount
  rw [Instance.settledTo, hasked] at hholds
  exact ⟨w, i, s', hrun, hi, state_of_running hlifecycle, hsettled, hcount ▸ hcommit, hholds⟩

end Workflow
end OpenCompute
