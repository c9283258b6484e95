import OpenCompute.Workflow.Commits

/-!
# Recovery of expired runs

A run whose lease is over gives its callbacks back and is released.  Giving
back always commits, and a release does unless the instance has neither
anything to run nor anything to wait for.
-/

namespace OpenCompute
namespace Workflow

open Relational Table Transaction Transition

/-! ## Callbacks -/

/-- A callback of the expired run is pending again, and any other step is as before. -/
inductive Reset (old new : Step) : Prop where
  | kept (hsame : new = old) (hrunning : old.state.isRunning = false)
  | back {attempt : Attempt} {run token : WorkflowToken}
      (hstate : old.state = .running attempt run token)
      (hdescriptor : new.descriptor = old.descriptor)
      (hnew : new.state = .pending (some attempt))

theorem Reset.same {old new : Step} (hreset : Reset old new) :
    new.descriptor = old.descriptor ∧ new.state.attempt = old.state.attempt ∧
      new.state.isCancelled = old.state.isCancelled ∧
      new.state.unfinished = old.state.unfinished := by
  cases hreset with
  | kept hsame _ =>
    rw [hsame]
    exact ⟨rfl, rfl, rfl, rfl⟩
  | back hstate hdescriptor hnew =>
    rw [hdescriptor, hnew, hstate]
    exact ⟨rfl, rfl, rfl, rfl⟩

section Callbacks

variable {nowMs : Millis} {i : Instance} {run : RunLease}

theorem resetStep_commits {step : Step} (hi : i.Sound) (hrun : i.lifecycle = .running run)
    (hlease : run.leaseUntilMs ≤ nowMs) (hmem : step ∈ i.steps) :
    exists j new, resetStep run.token nowMs i step = .ok j ∧ Reset step new ∧
      j.Sound ∧ j.lifecycle = i.lifecycle ∧ j.identity = i.identity ∧
      j.steps.find? = Function.update i.steps.find? step.ordinal (some new) := by
  have hlive : i.live = true := congrArg Lifecycle.live hrun
  unfold resetStep
  cases hstate : step.state with
  | running attempt token callback =>
    have htoken : token = run.token := by
      have hheld := hi.held step hmem attempt token callback hstate
      unfold Instance.runToken at hheld
      rw [hrun] at hheld
      exact (Option.some.inj hheld).symm
    have hkind : step.descriptor.kind = .doStep := by
      have hchecks := step.checks
      rw [hstate] at hchecks
      exact hchecks
    have hchecks : (StepState.pending (some attempt)).Checks step.descriptor.kind nowMs := hkind
    have hguards : forall new : Step, new.updatedAtMs = nowMs ->
        new.state = .pending (some attempt) ->
        i.stepTransitionGuard step new = true ∧ i.waitSettlementGuard step new = true := by
      intro new hupdated hnew
      constructor
      · unfold Instance.stepTransitionGuard Instance.leaseExpired
        rw [hstate, hnew, hupdated, hrun]
        simp only [Lifecycle.run, Option.any_some, Bool.and_eq_true, decide_eq_true_eq]
        exact ⟨htoken.symm, hlease⟩
      · unfold Instance.waitSettlementGuard
        rw [hstate]
    have hattempt : (StepState.pending (some attempt)).attempt = step.state.attempt := by
      rw [hstate]
      rfl
    rcases updateStep_commits hi hlive hmem hchecks hattempt hguards with
      ⟨new, hnew, hupdate, hreplaces⟩
    have hwrites : Writes settling nowMs i (i.putStep new).account :=
      updateStep_quiet ⟨hmem, trivial⟩ rfl rfl hupdate
    refine ⟨_, new, ?_, Reset.back hstate hreplaces.descriptor hnew, hwrites.sound hi, rfl, rfl,
      hreplaces.find?⟩
    dsimp only
    rw [if_pos htoken]
    exact hupdate
  | _ =>
    refine ⟨i, step, rfl, Reset.kept rfl ?_, hi, rfl, rfl, ?_⟩
    · rw [hstate]
      rfl
    · rw [← find?_key hmem, Function.update_eq_self]

structure GivenBack (i j : Instance) : Prop where
  sound : j.Sound
  lifecycle : j.lifecycle = i.lifecycle
  identity : j.identity = i.identity
  steps : Table.Corresponds Reset i.steps j.steps

theorem recoverRun_eq (hi : i.Sound) (hrun : i.lifecycle = .running run)
    (hlease : run.leaseUntilMs ≤ nowMs) (queuedAtMs : Millis) :
    exists k, recoverRun queuedAtMs nowMs i = release k queuedAtMs nowMs ∧ GivenBack i k := by
  have hreset : exists j, i.steps.rows.foldlM (resetStep run.token nowMs) i = .ok j ∧
      (j.Sound ∧ j.lifecycle = i.lifecycle ∧ j.identity = i.identity) ∧
      Corresponds Reset i.steps j.steps := by
    refine foldlM_corresponds
      (fun a => a.Sound ∧ a.lifecycle = i.lifecycle ∧ a.identity = i.identity)
      Instance.steps Reset ?_ i.steps.nodup ⟨hi, rfl, rfl⟩ (fun step hstep => ⟨step, hstep, rfl⟩)
      fun old hold hnot => absurd (List.mem_map_of_mem hold) hnot
    rintro step a old hstep ⟨hsound, hlifecycle, hidentity⟩ hold hkey hmem
    cases eq_of_key_eq hold hstep hkey
    rcases resetStep_commits hsound (hlifecycle.trans hrun) hlease hmem with
      ⟨b, new, hb, hreset, hsound', hlifecycle', hidentity', hfind⟩
    exact ⟨b, new, hb, hreset, ⟨hsound', hlifecycle'.trans hlifecycle,
      hidentity'.trans hidentity⟩, hfind⟩
  rcases hreset with ⟨k, hloop, ⟨hsound, hlifecycle, hidentity⟩, hsteps⟩
  refine ⟨k, ?_, hsound, hlifecycle, hidentity, hsteps⟩
  unfold recoverRun
  rw [runToken_eq_some.mpr ⟨run, hrun, rfl⟩]
  show (i.steps.rows.foldlM (resetStep run.token nowMs) i >>= _) = _
  rw [hloop]
  rfl

theorem GivenBack.idle {j : Instance} (hback : GivenBack i j) :
    j.anyStep StepState.isRunning = false := by
  rw [anyStep_eq_false]
  intro new hnew
  rcases hback.steps.right hnew with ⟨_, _, hreset⟩
  cases hreset with
  | kept hsame hidle => rw [hsame, hidle]
  | back _ _ hpending =>
    rw [hpending]
    rfl

end Callbacks

/-! ## Instances that are stuck -/

/-- Steps were cancelled and all others are settled: nothing to run or to wait for. -/
def Instance.Stuck (i : Instance) : Prop :=
  (exists s, s ∈ i.steps ∧ s.state.isCancelled = true) ∧
    forall s, s ∈ i.steps -> s.state.unfinished = false

theorem registered_eq_settled_iff {i : Instance} (haccounts : i.accounts = i.accounting) :
    i.accounts.registered = i.accounts.settled ↔
      forall s, s ∈ i.steps -> s.state.settled = true := by
  rw [haccounts]
  show i.steps.rows.length = i.steps.rows.countP (fun s => s.state.settled) ↔ _
  rw [eq_comm, List.countP_eq_length]
  rfl

theorem stuck_iff {i : Instance} (hi : i.Sound) (hidle : i.anyStep StepState.isRunning = false) :
    i.Stuck ↔ i.accounts.registered ≠ i.accounts.settled ∧
      i.anyStep (fun s => s.isPending || s.isDelayPending) = false ∧
      i.accounts.nextWakeAtMs = none := by
  rw [anyStep_eq_false] at hidle
  have hfinished : (forall s, s ∈ i.steps -> s.state.unfinished = false) ↔
      i.anyStep (fun s => s.isPending || s.isDelayPending) = false ∧
        i.accounts.nextWakeAtMs = none := by
    rw [anyStep_eq_false, nextWake_eq_none hi.accounts, ← forall₂_and]
    refine forall₂_congr fun s hs => ?_
    have hnot := hidle s hs
    unfold Step.wake
    cases hstate : s.state with
    | running attempt token callback =>
      rw [hstate] at hnot
      cases hnot
    | _ => simp [StepState.unfinished, StepState.settled, StepState.isComplete,
        StepState.isFailed, StepState.isCancelled, StepState.isPending, StepState.isDelayPending]
  rw [← hfinished, Ne, registered_eq_settled_iff hi.accounts]
  refine and_congr_left fun hall => ?_
  simp only [not_forall, exists_prop]
  refine exists_congr fun s => and_congr_right fun hs => ?_
  have hdone := hall s hs
  cases hstate : s.state with
  | complete attempt output consumed | failed attempt code =>
    exact ⟨nofun, fun hnot => absurd rfl hnot⟩
  | cancelled attempt => exact ⟨fun _ => nofun, fun _ => rfl⟩
  | _ =>
    rw [hstate] at hdone
    cases hdone

/-! ## Releases -/

section Releases

variable {queuedAtMs nowMs : Millis} {i : Instance} {run : RunLease} {lifecycle : Lifecycle}

theorem releaseTo_facts (hto : releaseTo i queuedAtMs = some lifecycle) :
    lifecycle.live = true ∧ lifecycle.state ≠ .running ∧
      (lifecycle.state = .waiting -> i.accounts.nextWakeAtMs ≠ none ∧
        i.anyStep (fun s => s.isPending || s.isDelayPending) = false) := by
  unfold releaseTo at hto
  split at hto
  · cases hto
    exact ⟨rfl, fun h => (by cases h), fun h => (by cases h)⟩
  · split at hto
    · cases hto
      exact ⟨rfl, fun h => (by cases h), fun h => (by cases h)⟩
    · rename_i hquiet
      split at hto <;> cases hto
      rename_i hwake
      rw [Bool.or_eq_true, not_or, Bool.not_eq_true] at hquiet
      exact ⟨rfl, fun h => (by cases h), fun _ => ⟨hwake, hquiet.left⟩⟩

theorem release_commits (hi : i.Sound) (hrun : i.lifecycle = .running run)
    (hidle : i.anyStep StepState.isRunning = false)
    (hto : releaseTo i queuedAtMs = some lifecycle)
    (hends : run.leaseUntilMs ≤ nowMs ∨ run.yieldRequested = true ∨ run.pauseRequested = true) :
    exists j, release i queuedAtMs nowMs = .ok j ∧ j.lifecycle = lifecycle ∧
      j.steps = i.steps ∧ j.identity = i.identity := by
  rcases releaseTo_facts hto with ⟨hlive, hleaves, hwaits⟩
  have hbefore : i.live = true := congrArg Lifecycle.live hrun
  have hguard : Instance.instanceRunGuard i
      { i with lifecycle := lifecycle, updatedAtMs := nowMs } = true := by
    unfold Instance.instanceRunGuard
    rw [hrun, Bool.and_eq_true, Bool.or_eq_true]
    refine ⟨.inl (decide_eq_true hleaves), ?_⟩
    cases lifecycle with
    | running other => exact absurd rfl hleaves
    | _ =>
      dsimp only
      rw [if_pos hlive]
      simp only [Bool.or_eq_true, decide_eq_true_eq]
      rcases hends with hlease | hyield | hpause
      · exact .inl (.inl (.inl hlease))
      · exact .inl (.inl (.inr hyield))
      · exact .inl (.inr hpause)
  have hfrontier : Instance.instanceFrontierGuard i
      { i with lifecycle := lifecycle, updatedAtMs := nowMs } = true := by
    unfold Instance.instanceFrontierGuard
    simp only [Bool.and_eq_true, Bool.or_eq_true, decide_eq_true_eq, Bool.not_eq_true']
    refine ⟨⟨⟨.inr hidle, .inl ?_⟩, .inl hlive⟩, ?_⟩
    · intro hcomplete
      unfold Lifecycle.live at hlive
      rw [show lifecycle.state = .complete from hcomplete] at hlive
      cases hlive
    · by_cases hwaiting : lifecycle.state = .waiting
      · exact .inr (hwaits hwaiting)
      · exact .inl hwaiting
  have htransition : Instance.instanceTransitionGuard i
      { i with lifecycle := lifecycle, updatedAtMs := nowMs } = true := by
    unfold Instance.instanceTransitionGuard
    rw [state_of_running hrun, Bool.or_eq_true]
    exact .inr (decide_eq_true hleaves)
  have hupdate : i.updateState { i with lifecycle := lifecycle, updatedAtMs := nowMs } =
      .ok { i with lifecycle := lifecycle, updatedAtMs := nowMs } :=
    updateState_commits hi hbefore ⟨rfl, rfl, rfl, rfl, rfl⟩ rfl hlive hguard
      hfrontier htransition
  refine ⟨{ i with lifecycle := lifecycle, updatedAtMs := nowMs }, ?_, rfl, rfl, rfl⟩
  simp only [release, ok_iff]
  refine ⟨hidle, lifecycle, hto, ?_, hupdate⟩
  unfold Instance.runToken
  rw [hrun]
  rfl

variable {limits : WorkflowsConfig}

theorem recovery_deadline (hvalid : limits.Valid) :
    deadline nowMs limits.recoveryBackoffMs = .ok queuedAtMs ↔
      (i64Min ≤ nowMs + limits.recoveryBackoffMs ∧ nowMs + limits.recoveryBackoffMs ≤ i64Max) ∧
        queuedAtMs = nowMs + limits.recoveryBackoffMs := by
  rcases hvalid.right with ⟨_, _, _, _, _, _, _, _, ⟨_, _⟩, _⟩
  have hfits : (limits.recoveryBackoffMs : Int) ≤ i64Max := by
    unfold i64Max
    omega
  simp only [deadline, ok_iff, checkedAdd_eq_some, hfits, true_and, and_assoc]

theorem recovery_deadline_safe (hvalid : limits.Valid) (hsafe : SafeTime nowMs) :
    i64Min ≤ nowMs + limits.recoveryBackoffMs ∧ nowMs + limits.recoveryBackoffMs ≤ i64Max := by
  rcases hvalid.right with ⟨_, _, _, _, _, _, _, _, ⟨_, _⟩, _⟩
  unfold SafeTime maxSafeInteger at hsafe
  constructor
  · unfold i64Min
    omega
  · change i64Max ≥ nowMs + limits.recoveryBackoffMs
    unfold i64Max
    omega

end Releases

end Workflow
end OpenCompute
