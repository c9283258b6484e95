import OpenCompute.Workflow.Pause

/-!
# The round trip of a pause and a resumption

An instance is paused, its active run is drained and the instance is resumed.
All three commit, and no step changes but for what fell due in between, unless
the instance has nowhere to go after the resumption or the recovery that drains
its run picks another run that is stuck.
-/

namespace OpenCompute
namespace Workflow

open Relational Table Transaction Transition List

/-! ## The round trip -/

/--
The active run ends: it yields under its lease, or is recovered after it, in one
transaction with the other expired runs.
-/
def drainWorkflow (s : Store) (id : WorkflowInstanceId) (nowMs : Millis)
    (limits : WorkflowsConfig) (limit : Nat) : Result Store :=
  match s.instances.find? id with
  | none => .ok s
  | some i =>
    match i.lifecycle with
    | .running run =>
      if run.leaseUntilMs ≤ nowMs then
        Prod.snd <$> recoverWorkflows s nowMs limits limit
      else
        Prod.snd <$> yieldWorkflow s ⟨id, i.generation, run.token⟩ nowMs
    | _ => .ok s

def pauseAndResume (s : Store) (identity : WorkflowInstanceIdentity)
    (limits : WorkflowsConfig) (limit : Nat) (pausedAt drainedAt resumedAt : Millis) :
    Result Store := do
  let s ← modifyWorkflow s identity .pause pausedAt limits
  let s ← drainWorkflow s identity.instanceId drainedAt limits limit
  modifyWorkflow s identity .resume resumedAt limits

/-- The run can end: its callbacks have returned, or its lease is over and it is picked. -/
def Store.Drains (s : Store) (nowMs : Millis) (limit : Nat) (i : Instance) : Prop :=
  forall run, i.lifecycle = .running run ->
    if run.leaseUntilMs ≤ nowMs then i ∈ s.expiredRuns nowMs limit
    else i.anyStep StepState.isRunning = false

/-- A recovery that picks the instance commits for the other runs that it picks. -/
def Store.RecoversOthers (s : Store) (nowMs : Millis) (limit : Nat) (i : Instance) : Prop :=
  i ∈ s.expiredRuns nowMs limit ->
    limit ≤ 1000 ∧ forall k, k ∈ s.expiredRuns nowMs limit -> k.id ≠ i.id -> k.Releasable

/-! ## The steps of a round trip -/

/-- A step after a pause and a resumption: only what fell due in between has changed. -/
structure RoundTripStep (nowMs : Millis) (old new : Step) : Prop where
  descriptor : new.descriptor = old.descriptor
  attempt : new.state.attempt = old.state.attempt
  change : new.state = old.state ∨
    (exists attempt run token, old.state = .running attempt run token ∧
      new.state = .pending (some attempt)) ∨
    (exists due, old.state = .waiting due ∧ due ≤ nowMs ∧ new.state.settled = true) ∨
    (old.timesOutBy nowMs = true ∧
      (new.state.isDelayPending || new.state.isRetryWait || new.state.isFailed) = true)

section Composition

variable {nowMs : Millis} {old mid new : Step}

theorem Reset.times (hreset : Reset old new) (nowMs : Millis) :
    new.timesOutBy nowMs = old.timesOutBy nowMs ∧ new.expiresBy nowMs = old.expiresBy nowMs := by
  cases hreset with
  | kept hsame _ =>
    rw [hsame]
    exact ⟨rfl, rfl⟩
  | back hstate hdescriptor hnew =>
    unfold Step.expiresBy Step.timesOutBy Step.lastAttempt
    rw [hdescriptor, hnew, hstate]
    exact ⟨rfl, rfl⟩

theorem roundTripStep_of (hreset : Reset old mid) (hresumed : Resumed nowMs mid new) :
    RoundTripStep nowMs old new := by
  rcases hreset.same with ⟨hdescriptor, hattempt, _, _⟩
  have htimes := (hreset.times nowMs).left
  cases hresumed with
  | kept hsame _ =>
    rw [hsame]
    refine ⟨hdescriptor, hattempt, ?_⟩
    cases hreset with
    | kept hsame' _ =>
      rw [hsame']
      exact .inl rfl
    | back hstate _ hnew => exact .inr (.inl ⟨_, _, _, hstate, hnew⟩)
  | waited hstate hover hkept hnone hsettled =>
    have hsame : mid = old := by
      cases hreset with
      | kept hsame' _ => exact hsame'
      | back _ _ hnew =>
        rw [hnew] at hstate
        cases hstate
    rw [hsame] at hstate hkept
    refine ⟨hkept, ?_, .inr (.inr (.inl ⟨_, hstate, hover, hsettled⟩))⟩
    rw [hnone, hstate]
    rfl
  | timedOut hstate hover _ hkept hsome hout =>
    refine ⟨hkept.trans hdescriptor, ?_, .inr (.inr (.inr ⟨?_, ?_⟩))⟩
    · rw [← hattempt, hsome, hstate]
      rfl
    · rw [← htimes]
      unfold Step.timesOutBy
      rw [hstate]
      exact decide_eq_true hover
    · generalize new.state = state at hout
      cases hout <;> rfl

end Composition

/-! ## The round trip of a stored instance -/

/-- When an instance can be paused and resumed at these times. -/
structure RoundTripAllowed (s : Store) (limits : WorkflowsConfig) (limit : Nat)
    (pausedAt drainedAt resumedAt : Millis) (i : Instance) : Prop where
  limits : limits.Valid
  safe : SafeTime pausedAt ∧ SafeTime resumedAt
  recovery : s.RecoversOthers drainedAt limit i
  resumable : i.Resumable resumedAt

structure RoundTrip (resumedAt : Millis) (i j : Instance) : Prop where
  state : j.state = .queued ∨ (j.state = .waiting ∧ j.accounts.nextWakeAtMs ≠ none)
  identity : j.identity = i.identity
  kept : forall old, old ∈ i.steps -> exists new, new ∈ j.steps ∧ RoundTripStep resumedAt old new
  only : forall new, new ∈ j.steps -> exists old, old ∈ i.steps ∧ RoundTripStep resumedAt old new

section Stored

variable {s s' : Store} {i j : Instance} {limits : WorkflowsConfig} {nowMs : Millis}

theorem modifyWorkflow_eq_ok {action : WorkflowInstanceAction}
    (hfind : s.instances.find? i.id = some i) (hlive : i.live = true) :
    modifyWorkflow s i.identity action nowMs limits = .ok s' ↔
      limits.Valid ∧ SafeTime nowMs ∧ exists j,
        modifyRun limits (s.others i.id) nowMs i action = .ok j ∧ s' = s.put j := by
  have hexpiry : i.expiresAt = none := by
    unfold Instance.expiresAt
    rw [terminal_of_live hlive]
    rfl
  have hstored : s.instances.find? i.identity.instanceId = some i := hfind
  simp only [modifyWorkflow, ok_iff, WorkflowsConfig.validate_eq_ok, hstored,
    Option.some.injEq, exists_eq_left', hexpiry, hlive, Option.all_none, true_and]
  constructor
  · rintro ⟨hvalid, deadline, hdeadline, j, hrun, rfl⟩
    exact ⟨hvalid, durableDeadline_safe hdeadline, j, hrun, rfl⟩
  · rintro ⟨hvalid, hsafe, j, hrun, rfl⟩
    have hzero : SafeTime (nowMs + (0 : Nat)) := by
      rw [show nowMs + ((0 : Nat) : Int) = nowMs from Int.add_zero nowMs]
      exact hsafe
    exact ⟨hvalid, _, durableDeadline_commits (Nat.zero_le _) hzero, j, hrun, rfl⟩

theorem put_find? (hfind : s.instances.find? i.id = some i) (hidentity : j.identity = i.identity) :
    (s.put j).instances.find? i.id = some j := by
  rw [find?_put hfind (congrArg WorkflowInstanceIdentity.instanceId hidentity), if_pos rfl]

/-- The store holds what a drain made of the instance. -/
def Store.HoldsDrained (s : Store) (nowMs : Millis) (i : Instance) : Prop :=
  exists j, s.instances.find? i.id = some j ∧ DrainedFrom i j ∧ j.Sound ∧ j.Inbox nowMs

section Drain

variable {clock : Millis} {limit : Nat} {run : RunLease}

theorem drainWorkflow_yields (hfind : s.instances.find? i.id = some i) (hi : i.Sound)
    (hinbox : i.Inbox clock) (hle : clock ≤ nowMs) (hrun : i.lifecycle = .running run)
    (hrequested : run.pauseRequested = true) (hlease : ¬ run.leaseUntilMs ≤ nowMs)
    (hidle : i.anyStep StepState.isRunning = false) :
    exists s', drainWorkflow s i.id nowMs limits limit = .ok s' ∧ s'.HoldsDrained nowMs i := by
  rcases @yield_drains nowMs i run hi hrun hrequested hidle with ⟨j, hrelease, hdrained⟩
  have hwrites : Writes (Action.recover nowMs limits 1).permits nowMs i j :=
    (release_moves trivial hrelease).left
  refine ⟨s.put j, ?_, j, put_find? hfind hdrained.identity, hdrained, hwrites.sound hi,
    hwrites.inbox hinbox hle⟩
  have hrunning : s.running ⟨i.id, i.generation, run.token⟩ nowMs = .ok i := by
    refine running_eq_ok.mpr ⟨hfind, rfl, ?_⟩
    exact leased_eq_true.mpr ⟨run, hrun, rfl, not_le.mp hlease⟩
  have hadmits : i.admits = false := by
    unfold Instance.admits Instance.pauseRequested
    rw [hrun]
    show (!run.pauseRequested && _) = false
    rw [hrequested]
    rfl
  unfold drainWorkflow
  rw [hfind]
  dsimp only
  rw [hrun]
  dsimp only
  rw [if_neg hlease, map_eq_ok]
  refine ⟨(j.state, s.put j), ?_, rfl⟩
  simp only [yieldWorkflow, ok_iff]
  exact ⟨i, hrunning, hadmits, j, hrelease, rfl⟩

theorem drainWorkflow_recovers (hfind : s.instances.find? i.id = some i)
    (hrun : i.lifecycle = .running run) (hlease : run.leaseUntilMs ≤ nowMs) {s' : Store} :
    drainWorkflow s i.id nowMs limits limit = .ok s' ↔
      exists n, recoverWorkflows s nowMs limits limit = .ok (n, s') := by
  unfold drainWorkflow
  rw [hfind]
  dsimp only
  rw [hrun]
  dsimp only
  rw [if_pos hlease, map_eq_ok]
  simp

theorem recoversOthers_iff (hvalid : limits.Valid)
    (hrange : i64Min ≤ nowMs + limits.recoveryBackoffMs ∧
      nowMs + limits.recoveryBackoffMs ≤ i64Max)
    (hpick : i ∈ s.expiredRuns nowMs limit) (hreleasable : i.Releasable) :
    (limits.Valid ∧ (limit ≠ 0 ∧ limit ≤ 1000) ∧
      forall k, k ∈ s.expiredRuns nowMs limit -> k.Recoverable limits nowMs) ↔
    s.RecoversOthers nowMs limit i := by
  constructor
  · rintro ⟨_, ⟨_, hlimit⟩, hall⟩ _
    exact ⟨hlimit, fun k hk _ => (hall k hk).right⟩
  · intro hothers
    rcases hothers hpick with ⟨hlimit, hall⟩
    refine ⟨hvalid, ⟨?_, hlimit⟩, fun k hk => ⟨hrange, ?_⟩⟩
    · rintro rfl
      cases hpick
    · by_cases hid : k.id = i.id
      · cases eq_of_key_eq (expiredRuns_lease hk).left (expiredRuns_lease hpick).left hid
        exact hreleasable
      · exact hall k hk hid

theorem recoversOthers_alone (hone : s.expiredRuns nowMs limit = [i]) (hlimit : limit ≤ 1000) :
    s.RecoversOthers nowMs limit i := by
  refine fun _ => ⟨hlimit, fun k hk hne => absurd ?_ hne⟩
  rw [hone] at hk
  rw [mem_singleton.mp hk]

theorem drainWorkflow_iff (hfind : s.instances.find? i.id = some i)
    (hsound : forall k, k ∈ s.instances -> k.Sound) (hinbox : i.Inbox clock) (hle : clock ≤ nowMs)
    (hvalid : limits.Valid) (hsafe : SafeTime nowMs)
    (hpaused : i.lifecycle = .paused ∨
      exists run, i.lifecycle = .running run ∧ run.pauseRequested = true)
    (hdrain : s.Drains nowMs limit i) :
    ((exists s', drainWorkflow s i.id nowMs limits limit = .ok s') ↔
      s.RecoversOthers nowMs limit i) ∧
    forall s', drainWorkflow s i.id nowMs limits limit = .ok s' -> s'.HoldsDrained nowMs i := by
  have hi := hsound i (mem_of_find? hfind)
  rcases hpaused with hpaused | ⟨run, hrun, hrequested⟩
  · have hdone : drainWorkflow s i.id nowMs limits limit = .ok s := by
      unfold drainWorkflow
      rw [hfind]
      dsimp only
      rw [hpaused]
    refine ⟨iff_of_true ⟨s, hdone⟩ fun hpick => ?_, fun s' hs' => ?_⟩
    · rcases expiredRuns_lease hpick with ⟨_, _, hrun, _⟩
      rw [hpaused] at hrun
      cases hrun
    · cases Except.ok.inj (hdone.symm.trans hs')
      have hidle := (paused_facts hi hpaused).right.right
      exact ⟨i, hfind, ⟨hpaused, rfl, corresponds_of_idle hidle rfl⟩, hi, hinbox.later hle⟩
  · have hends := hdrain run hrun
    by_cases hlease : run.leaseUntilMs ≤ nowMs
    · rw [if_pos hlease] at hends
      have hasked : i.pauseRequested = true := by
        unfold Instance.pauseRequested
        rw [hrun]
        exact hrequested
      have hrecover := @recoverWorkflows_iff nowMs limits s limit hsound
      simp only [drainWorkflow_recovers hfind hrun hlease]
      rw [exists_comm, hrecover.left]
      refine ⟨recoversOthers_iff hvalid (recovery_deadline_safe hvalid hsafe) hends (.inl hasked),
        ?_⟩
      rintro s' ⟨n, hcommit⟩
      rcases (hrecover.right n s' hcommit).right i hends with ⟨j, hfind', hone⟩
      rcases @recovery_drains nowMs (nowMs + limits.recoveryBackoffMs) i run hi hrun hrequested
        hlease with ⟨_, hone', hdrained⟩
      cases Except.ok.inj (hone.symm.trans hone')
      have hwrites : Writes (Action.recover nowMs limits 1).permits nowMs i j :=
        (recoverRun_moves ⟨fun _ => trivial, trivial⟩ hone).left
      exact ⟨j, hfind', hdrained, hwrites.sound hi, hwrites.inbox hinbox hle⟩
    · rw [if_neg hlease] at hends
      rcases @drainWorkflow_yields s i limits nowMs clock limit run hfind hi hinbox hle hrun
        hrequested hlease hends with ⟨t, ht, hholds⟩
      refine ⟨iff_of_true ⟨t, ht⟩ fun hpick => ?_, fun s' hs' => ?_⟩
      · rcases expiredRuns_lease hpick with ⟨_, _, hrun', hover⟩
        cases Lifecycle.running.inj (hrun.symm.trans hrun')
        exact absurd hover hlease
      · cases Except.ok.inj (ht.symm.trans hs')
        exact hholds

end Drain

theorem DrainedFrom.resumable_iff (hdrained : DrainedFrom i j) :
    j.Resumable nowMs ↔ i.Resumable nowMs := by
  rw [Instance.resumable_iff, Instance.resumable_iff]
  refine Iff.symm (and_congr (hdrained.steps.forall_iff ?_)
    (or_congr (hdrained.steps.forall_iff ?_) (hdrained.steps.exists_iff ?_)))
  · intro old new _ hreset
    unfold Step.RetriesSafe
    rw [hreset.same.left, hreset.same.right.left, (hreset.times nowMs).left]
  · intro old new _ hreset
    rw [hreset.same.right.right.left]
  · intro old new _ hreset
    rw [hreset.same.right.right.right, (hreset.times nowMs).right]

theorem roundTrip_of {k : Instance} (hdrained : DrainedFrom i j)
    (hresumed : ResumedFrom nowMs j k) : RoundTrip nowMs i k where
  state := hresumed.state
  identity := hresumed.identity.trans hdrained.identity
  kept := by
    intro old hold
    rcases hdrained.steps.left hold with ⟨mid, hmid, hreset⟩
    rcases hresumed.steps.left hmid with ⟨new, hnew, hstep⟩
    exact ⟨new, hnew, roundTripStep_of hreset hstep⟩
  only := by
    intro new hnew
    rcases hresumed.steps.right hnew with ⟨_, hmid, hstep⟩
    rcases hdrained.steps.right hmid with ⟨old, hold, hreset⟩
    exact ⟨old, hold, roundTripStep_of hreset hstep⟩

end Stored

/-! ## The round trip in a run -/

section RoundTrips

variable {s : Store} {i : Instance} {limits : WorkflowsConfig} {limit : Nat}
  {clock pausedAt drainedAt : Millis} {mid : Instance}

theorem PausedFrom.leaseUntil (hpaused : PausedFrom i mid) : mid.leaseUntil = i.leaseUntil := by
  unfold Instance.leaseUntil
  rw [hpaused.lifecycle]
  cases i.lifecycle <;> rfl

/-- The same runs are expired after the pause. -/
theorem expiredRuns_put (hi : i ∈ s.instances) (hid : mid.id = i.id)
    (hlease : mid.leaseUntil = i.leaseUntil) (nowMs : Millis) :
    (s.put mid).expiredRuns nowMs limit =
      (s.expiredRuns nowMs limit).map fun k => if k.id = mid.id then mid else k := by
  have hsame : forall k, k ∈ s.instances ->
      (if k.id = mid.id then mid else k).leaseUntil = k.leaseUntil ∧
        (if k.id = mid.id then mid else k).id = k.id := by
    intro k hk
    split
    · rename_i hkey
      cases eq_of_key_eq hk hi (hkey.trans hid)
      exact ⟨hlease, hid⟩
    · exact ⟨rfl, rfl⟩
  unfold Store.expiredRuns
  rw [map_take]
  congr 1
  change ((s.instances.rows.map _).filter _).insertionSort _ = _
  rw [filter_map, filter_congr (q := fun k => k.leaseUntil.any fun lease => lease ≤ nowMs)
    fun k hk => by simp only [Function.comp_apply, (hsame k hk).left]]
  refine (map_insertionSort _ _ _ _ ?_).symm
  intro k hk l hl
  rcases hsame k (List.mem_filter.mp hk).left with ⟨hlease, hkey⟩
  rcases hsame l (List.mem_filter.mp hl).left with ⟨hlease', hkey'⟩
  rw [hlease, hkey, hlease', hkey']

theorem mem_expiredRuns_put (hi : i ∈ s.instances) (hid : mid.id = i.id)
    (hlease : mid.leaseUntil = i.leaseUntil) {nowMs : Millis} {k : Instance} :
    k ∈ (s.put mid).expiredRuns nowMs limit ↔
      (k ∈ s.expiredRuns nowMs limit ∧ k.id ≠ i.id) ∨
        (k = mid ∧ i ∈ s.expiredRuns nowMs limit) := by
  rw [expiredRuns_put hi hid hlease, mem_map]
  constructor
  · rintro ⟨old, hold, rfl⟩
    by_cases hkey : old.id = mid.id
    · rw [if_pos hkey]
      cases eq_of_key_eq (expiredRuns_lease hold).left hi (hkey.trans hid)
      exact .inr ⟨rfl, hold⟩
    · rw [if_neg hkey]
      exact .inl ⟨hold, hid ▸ hkey⟩
  · rintro (⟨hk, hne⟩ | ⟨rfl, hpick⟩)
    · exact ⟨k, hk, if_neg (hid ▸ hne)⟩
    · exact ⟨i, hpick, if_pos hid.symm⟩

theorem PausedFrom.picked_iff (hpaused : PausedFrom i mid) (hi : i ∈ s.instances) :
    mid ∈ (s.put mid).expiredRuns drainedAt limit ↔ i ∈ s.expiredRuns drainedAt limit := by
  have hid : mid.id = i.id := congrArg WorkflowInstanceIdentity.instanceId hpaused.identity
  rw [mem_expiredRuns_put hi hid hpaused.leaseUntil]
  simp [hid]

theorem PausedFrom.recoversOthers_iff (hpaused : PausedFrom i mid) (hi : i ∈ s.instances) :
    (s.put mid).RecoversOthers drainedAt limit mid ↔ s.RecoversOthers drainedAt limit i := by
  have hid : mid.id = i.id := congrArg WorkflowInstanceIdentity.instanceId hpaused.identity
  unfold Store.RecoversOthers
  rw [hpaused.picked_iff hi, hid]
  refine imp_congr_right fun _ => and_congr_right fun _ => forall_congr' fun k => ?_
  rw [mem_expiredRuns_put hi hid hpaused.leaseUntil]
  constructor
  · intro hall hk hne
    exact hall (.inl ⟨hk, hne⟩) hne
  · rintro hall (⟨hk, _⟩ | ⟨rfl, _⟩) hne
    · exact hall hk hne
    · exact absurd hid hne

theorem PausedFrom.drains (hpaused : PausedFrom i mid) (hi : i ∈ s.instances)
    (hdrain : s.Drains drainedAt limit i) : (s.put mid).Drains drainedAt limit mid := by
  intro run hrun
  rw [hpaused.lifecycle] at hrun
  rcases pausing_cases i.lifecycle with hidle | ⟨old, hold, hasked⟩
  · rw [hidle] at hrun
    cases hrun
  · rw [hasked] at hrun
    cases hrun
    have hsteps : mid.anyStep StepState.isRunning = i.anyStep StepState.isRunning := by
      unfold Instance.anyStep
      rw [hpaused.steps]
    rw [hpaused.picked_iff hi, hsteps]
    exact hdrain old hold

theorem PausedFrom.requested (hpaused : PausedFrom i mid) : mid.lifecycle = .paused ∨
    exists run, mid.lifecycle = .running run ∧ run.pauseRequested = true := by
  rw [hpaused.lifecycle]
  rcases pausing_cases i.lifecycle with hidle | ⟨_, _, hasked⟩
  · exact .inl hidle
  · exact .inr ⟨_, hasked, rfl⟩

theorem safeTime_between {first mid last : Int} (hfirst : SafeTime first)
    (hlast : SafeTime last) (hle : first ≤ mid) (hle' : mid ≤ last) : SafeTime mid := by
  unfold SafeTime at *
  omega

theorem PausedFrom.holdsDrained {nowMs : Millis} (hpaused : PausedFrom i mid)
    (hholds : s.HoldsDrained nowMs mid) : s.HoldsDrained nowMs i := by
  rcases hholds with ⟨j, hfind, hfrom, hsound, hinbox⟩
  have hid : mid.id = i.id := congrArg WorkflowInstanceIdentity.instanceId hpaused.identity
  refine ⟨j, hid ▸ hfind, ⟨hfrom.paused, hfrom.identity.trans hpaused.identity, ?_⟩, hsound,
    hinbox⟩
  rw [← hpaused.steps]
  exact hfrom.steps

theorem pause_drains (hi : i ∈ s.instances) (hsound : forall k, k ∈ s.instances -> k.Sound)
    (hinbox : i.Inbox clock) (hlive : i.live = true) (hvalid : limits.Valid)
    (hpaused : clock ≤ pausedAt) (hdrained : pausedAt ≤ drainedAt)
    (hsafe : SafeTime pausedAt) (hsafe' : SafeTime drainedAt)
    (hdrain : s.Drains drainedAt limit i) :
    exists s', modifyWorkflow s i.identity .pause pausedAt limits = .ok s' ∧
      ((exists s'', drainWorkflow s' i.id drainedAt limits limit = .ok s'') ↔
        s.RecoversOthers drainedAt limit i) ∧
      forall s'', drainWorkflow s' i.id drainedAt limits limit = .ok s'' ->
        s''.HoldsDrained drainedAt i := by
  have hfind := find?_key hi
  rcases @pauseRun_commits pausedAt i (hsound i hi) hlive with ⟨mid, hpause, hmid⟩
  have hwrites : Writes (Action.recover pausedAt limits 1).permits pausedAt i mid :=
    pauseRun_writes trivial hpause
  have hid : mid.id = i.id := congrArg WorkflowInstanceIdentity.instanceId hmid.identity
  have hput : (s.put mid).instances.find? mid.id = some mid := by
    rw [hid]
    exact put_find? hfind hmid.identity
  have hsound' : forall k, k ∈ (s.put mid).instances -> k.Sound :=
    forall_replace hsound (hwrites.sound (hsound i hi))
  rcases drainWorkflow_iff hput hsound' (hwrites.inbox hinbox hpaused) hdrained hvalid hsafe'
    hmid.requested (hmid.drains hi hdrain) with ⟨hcommits, hleaves⟩
  rw [hid, hmid.recoversOthers_iff hi] at hcommits
  rw [hid] at hleaves
  exact ⟨s.put mid, (modifyWorkflow_eq_ok hfind hlive).mpr ⟨hvalid, hsafe, mid, hpause, rfl⟩,
    hcommits, fun s'' hs'' => hmid.holdsDrained (hleaves s'' hs'')⟩

theorem DrainedFrom.live {j : Instance} (hdrained : DrainedFrom i j) : j.live = true :=
  congrArg Lifecycle.live hdrained.paused

end RoundTrips

/-- In every state of every run whose times do not decrease. -/
theorem pause_round_trip {env : Environment} {owner : Uuid} {clock : Millis}
    {actions : List Action} {w : World} (hrun : OrderedHistory env owner clock actions w)
    {i : Instance} (hi : i ∈ w.store.instances) (hlive : i.live = true)
    {limits : WorkflowsConfig} {limit : Nat} {pausedAt drainedAt resumedAt : Millis}
    (hpaused : w.clock ≤ pausedAt) (hdrained : pausedAt ≤ drainedAt)
    (hresumed : drainedAt ≤ resumedAt) (hdrain : w.store.Drains drainedAt limit i) :
    (exists s' j,
      pauseAndResume w.store i.identity limits limit pausedAt drainedAt resumedAt = .ok s' ∧
      s'.instances.find? i.id = some j ∧ RoundTrip resumedAt i j) ↔
      RoundTripAllowed w.store limits limit pausedAt drainedAt resumedAt i := by
  have hsound := history_sound (hrun.weaken fun _ _ _ => trivial)
  have hinbox := history_inbox hrun i hi
  constructor
  · rintro ⟨s', _, hcommit, _, _⟩
    simp only [pauseAndResume, ok_iff] at hcommit
    rcases hcommit with ⟨s1, hpause, s2, hdrains, hresume⟩
    rcases (modifyWorkflow_eq_ok (find?_key hi) hlive).mp hpause with ⟨hvalid, hsafe, _⟩
    have hsafe' : SafeTime resumedAt := by
      simp only [modifyWorkflow, ok_iff] at hresume
      rcases hresume with ⟨_, deadline, hdeadline, _⟩
      exact durableDeadline_safe hdeadline
    rcases pause_drains hi hsound hinbox hlive hvalid hpaused hdrained hsafe
      (safeTime_between hsafe hsafe' hdrained hresumed) hdrain with
      ⟨_, hpause', hcommits, hleaves⟩
    cases Except.ok.inj (hpause.symm.trans hpause')
    rcases hleaves s2 hdrains with ⟨j, hfind, hfrom, hdrainedSound, hinbox'⟩
    have hid : j.id = i.id := congrArg WorkflowInstanceIdentity.instanceId hfrom.identity
    rw [← hid] at hfind
    rw [← hfrom.identity] at hresume
    rcases (modifyWorkflow_eq_ok hfind hfrom.live).mp hresume with ⟨_, _, k, hrun, _⟩
    exact ⟨hvalid, ⟨hsafe, hsafe'⟩, hcommits.mp ⟨s2, hdrains⟩, hfrom.resumable_iff.mp
      (resumable_of_resumeRun hdrainedSound hinbox' hresumed hfrom.paused hrun)⟩
  · rintro ⟨hvalid, ⟨hsafe, hsafe'⟩, hothers, hresumable⟩
    rcases pause_drains hi hsound hinbox hlive hvalid hpaused hdrained hsafe
      (safeTime_between hsafe hsafe' hdrained hresumed) hdrain with
      ⟨s1, hpause, hcommits, hleaves⟩
    rcases hcommits.mpr hothers with ⟨s2, hdrains⟩
    rcases hleaves s2 hdrains with ⟨j, hfind, hfrom, hdrainedSound, hinbox'⟩
    have hid : j.id = i.id := congrArg WorkflowInstanceIdentity.instanceId hfrom.identity
    rcases @resumeRun_commits drainedAt resumedAt j limits (s2.others j.id) hdrainedSound hinbox'
      hresumed hfrom.paused (hfrom.resumable_iff.mpr hresumable) with ⟨k, hrun, hfrom'⟩
    rw [← hid] at hfind
    have hresume : modifyWorkflow s2 i.identity .resume resumedAt limits = .ok (s2.put k) := by
      rw [← hfrom.identity]
      exact (modifyWorkflow_eq_ok hfind hfrom.live).mpr ⟨hvalid, hsafe', k, hrun, rfl⟩
    refine ⟨s2.put k, k, ?_, ?_, roundTrip_of hfrom hfrom'⟩
    · simp only [pauseAndResume, ok_iff]
      exact ⟨s1, hpause, s2, hdrains, hresume⟩
    · rw [← hid]
      exact put_find? hfind hfrom'.identity

namespace Sample

/-- A run that has registered a sleep and holds its lease. -/
def napping : List Action :=
  [create, claim 0 11, start [single 0 "nap" (.sleep 5000)] 1 11 [12]]

end Sample

open Sample in
theorem pause_round_trip_asleep : exists w i s' j,
    OrderedHistory environment 7 0 napping w ∧ i ∈ w.store.instances ∧ i.state = .running ∧
    pauseAndResume w.store i.identity limits 1 3 40000 50000 = .ok s' ∧
    s'.instances.find? i.id = some j ∧ RoundTrip 50000 i j := by
  have hexec : exists w, OrderedHistory environment 7 0 napping w ∧
      w.clock = 1 ∧ (w.store.expiredRuns 40000 1).length = 1 ∧
        forall i, i ∈ w.store.expiredRuns 40000 1 ->
          forall s, s ∈ i.steps.rows -> s.timesOutBy 50000 = false ∧ s.state.isCancelled = false :=
    exists_run_of_execute (by decide +kernel)
  rcases hexec with ⟨w, hrun, hclock, hlength, hsteps⟩
  rcases length_eq_one_iff.mp hlength with ⟨i, hone⟩
  have hpick : i ∈ w.store.expiredRuns 40000 1 := by
    rw [hone]
    exact mem_singleton_self i
  rcases expiredRuns_lease hpick with ⟨hi, run, hlifecycle, hlease⟩
  have hdrain : w.store.Drains 40000 1 i := by
    intro run' hrun'
    cases Lifecycle.running.inj (hlifecycle.symm.trans hrun')
    rw [if_pos hlease]
    exact hpick
  have hallowed : RoundTripAllowed w.store limits 1 3 40000 50000 i := by
    refine ⟨by decide, ⟨by decide, by decide⟩, recoversOthers_alone hone (by decide), ?_,
      Or.inl ?_⟩
    · intro s hs hover
      rw [(hsteps i hpick s hs).left] at hover
      cases hover
    · intro s hs
      exact (hsteps i hpick s hs).right
  rcases (pause_round_trip hrun hi (congrArg Lifecycle.live hlifecycle) (by rw [hclock]; decide)
    (by decide) (by decide) hdrain).mpr hallowed with ⟨s', j, hround⟩
  exact ⟨w, i, s', j, hrun, hi, state_of_running hlifecycle, hround⟩

open Sample in
theorem pause_round_trip_wedged : exists w i s' s'',
    OrderedHistory environment 7 0 rolledBack w ∧ i ∈ w.store.instances ∧ i.live = true ∧
    modifyWorkflow w.store i.identity .pause 3 limits = .ok s' ∧
    drainWorkflow s' i.id 40000 limits 1 = .ok s'' ∧
    forall s3, modifyWorkflow s'' i.identity .resume 50000 limits ≠ .ok s3 := by
  have hexec : exists w, OrderedHistory environment 7 0 rolledBack w ∧
      exists i, i ∈ w.store.instances ∧ i.live = true ∧
        exists s', modifyWorkflow w.store i.identity .pause 3 limits = .ok s' ∧
          exists s'', drainWorkflow s' i.id 40000 limits 1 = .ok s'' ∧
            ¬ exists s3, modifyWorkflow s'' i.identity .resume 50000 limits = .ok s3 :=
    exists_run_of_execute (by decide +kernel)
  rcases hexec with ⟨w, hrun, i, hi, hlive, s', hpause, s'', hdrain, hresume⟩
  exact ⟨w, i, s', s'', hrun, hi, hlive, hpause, hdrain, not_exists.mp hresume⟩

end Workflow
end OpenCompute
