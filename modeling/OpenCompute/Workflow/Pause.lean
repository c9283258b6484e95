import OpenCompute.Workflow.Expiry

/-!
# Pausing and resuming

A paused instance keeps its history, and a resumption settles what fell due in
the meantime.  It needs somewhere to go afterwards: an instance with cancelled
steps, all others settled, is neither ready to run nor waiting for anything.
-/

namespace OpenCompute
namespace Workflow

open Relational Table Transaction Transition List

/-! ## What falls due -/

namespace Step

def timesOutBy (s : Step) (nowMs : Millis) : Bool :=
  (s.state.isPending || s.state.isRunning) &&
    s.state.attempt.any fun attempt => attempt.deadlineAtMs ≤ nowMs

def lastAttempt (s : Step) : Bool :=
  match s.descriptor.config, s.state.attempt with
  | .doStep config, some attempt =>
    config.retries.delay.isSome && config.retries.limit < attempt.number
  | _, _ => false

/-- The step is settled for good by this time: a wait is over, or the last attempt. -/
def expiresBy (s : Step) (nowMs : Millis) : Bool :=
  (s.state.isWaiting && s.state.due.any fun due => due ≤ nowMs) ||
    (s.timesOutBy nowMs && s.lastAttempt)

/-- A timeout by this time leaves a retry at a safe time. -/
def RetriesSafe (s : Step) (nowMs : Millis) : Prop :=
  s.timesOutBy nowMs = true -> forall config attempt,
    s.descriptor.config = .doStep config -> s.state.attempt = some attempt ->
    RetrySafe nowMs config attempt

end Step

/-! ## One step -/

inductive Resumed (nowMs : Millis) (old new : Step) : Prop where
  | kept (hsame : new = old)
      (hdue : old.state.dueOnResume nowMs = false ∨ old.state.isDelayPending = true)
  | waited {due : Millis} (hstate : old.state = .waiting due) (hover : due ≤ nowMs)
      (hdescriptor : new.descriptor = old.descriptor) (hattempt : new.state.attempt = none)
      (hsettled : new.state.settled = true)
  | timedOut {config : WorkflowStepConfig} {attempt : Attempt} {verdict : WorkflowStepResult}
      (hstate : old.state = .pending (some attempt)) (hover : attempt.deadlineAtMs ≤ nowMs)
      (hconfig : old.descriptor.config = .doStep config)
      (hdescriptor : new.descriptor = old.descriptor)
      (hattempt : new.state.attempt = some attempt)
      (hout : TimesOut nowMs config attempt verdict new.state)

section Steps

variable {clock nowMs : Millis} {i j : Instance} {old new : Step} {limits : WorkflowsConfig}
  {others : Usage}

theorem pending_config {attempt : Option Attempt} (hstate : old.state = .pending attempt) :
    exists config, old.descriptor.config = .doStep config := by
  have hkind := old.checks
  rw [hstate] at hkind
  have hdo : old.descriptor.config.kind = .doStep := hkind
  cases hconfig : old.descriptor.config with
  | doStep config => exact ⟨config, rfl⟩
  | _ =>
    rw [hconfig] at hdo
    cases hdo

theorem resumeStep_eq (hfind : i.steps.find? old.ordinal = some old) :
    resumeStep limits others nowMs i old.ordinal = match old.state with
      | .waiting _ => Prod.snd <$> settle limits others i old nowMs
      | .delayPending _ _ => .ok i
      | _ => Prod.snd <$> timeout i old nowMs := by
  unfold resumeStep
  rw [hfind]
  show (match old.state with | .waiting _ => _ | .delayPending _ _ => _ | _ => _) = _
  cases old.state with
  | waiting due => cases settle limits others i old nowMs <;> rfl
  | delayPending attempt code => rfl
  | _ => cases timeout i old nowMs <;> rfl

theorem resumeStep_commits (hi : i.Sound) (hinbox : i.Inbox clock) (hlive : i.live = true)
    (hfind : i.steps.find? old.ordinal = some old)
    (hdue : old.state.dueOnResume nowMs = true) (hsafe : old.RetriesSafe nowMs) :
    exists j new, resumeStep limits others nowMs i old.ordinal = .ok j ∧
      Resumed nowMs old new ∧ j.lifecycle = i.lifecycle ∧ j.identity = i.identity ∧
      j.steps.find? = Function.update i.steps.find? old.ordinal (some new) := by
  have hmem : old ∈ i.steps := mem_of_find? hfind
  rw [resumeStep_eq hfind]
  cases hstate : old.state with
  | waiting due =>
    rw [hstate] at hdue
    have hover : due ≤ nowMs := of_decide_eq_true hdue
    rcases @settle_commits clock nowMs due i old limits others hi hlive hmem hstate hinbox
      hover with ⟨verdict, j, new, hsettle, _, hreplaces, hsettled⟩
    have hattempt := hreplaces.attempt
    rw [hstate] at hattempt
    exact ⟨j, new, map_eq_ok.mpr ⟨_, hsettle, rfl⟩,
      Resumed.waited hstate hover hreplaces.descriptor hattempt hsettled, hreplaces.lifecycle,
      hreplaces.identity, hreplaces.find?⟩
  | delayPending attempt code =>
    refine ⟨i, old, rfl, Resumed.kept rfl (.inr ?_), rfl, rfl, ?_⟩
    · rw [hstate]
      rfl
    · rw [← hfind, Function.update_eq_self]
  | pending held =>
    rw [hstate] at hdue
    rcases (Option.any_eq_true _ _).mp hdue with ⟨attempt, rfl, hpassed⟩
    have hover : attempt.deadlineAtMs ≤ nowMs := of_decide_eq_true hpassed
    rcases pending_config hstate with ⟨config, hconfig⟩
    have hretry : RetrySafe nowMs config attempt := by
      apply hsafe _ config attempt hconfig
      · rw [hstate]
        rfl
      · unfold Step.timesOutBy
        rw [hstate]
        exact decide_eq_true hover
    rcases timeout_commits hi hlive hmem hconfig hstate hover hretry with
      ⟨_, j, new, htimeout, hreplaces, hout⟩
    have hattempt := hreplaces.attempt
    rw [hstate] at hattempt
    exact ⟨j, new, map_eq_ok.mpr ⟨_, htimeout, rfl⟩,
      Resumed.timedOut hstate hover hconfig hreplaces.descriptor hattempt hout,
      hreplaces.lifecycle, hreplaces.identity, hreplaces.find?⟩
  | _ =>
    rw [hstate] at hdue
    cases hdue

theorem pending_of_timesOutBy (hrunning : old.state.isRunning = false)
    (hover : old.timesOutBy nowMs = true) :
    exists attempt, old.state = .pending (some attempt) ∧ old.state.dueOnResume nowMs = true := by
  unfold Step.timesOutBy at hover
  rw [hrunning, Bool.and_eq_true] at hover
  cases hstate : old.state with
  | pending held =>
    rw [hstate] at hover
    rcases (Option.any_eq_true _ _).mp hover.right with ⟨attempt, rfl, _⟩
    exact ⟨attempt, rfl, hover.right⟩
  | _ =>
    rw [hstate] at hover
    cases hover.left

/-! What a resumption leaves unfinished. -/

theorem cancelled_of_settled {state : StepState} (hsettled : state.settled = true) :
    state.isCancelled = false ∧ state.unfinished = false := by
  cases state with
  | complete attempt output consumed | failed attempt code => exact ⟨rfl, rfl⟩
  | _ => cases hsettled

theorem Resumed.cancelled (hresumed : Resumed nowMs old new) :
    new.state.isCancelled = old.state.isCancelled := by
  cases hresumed with
  | kept hsame _ => rw [hsame]
  | waited hstate _ _ _ hsettled =>
    rw [hstate]
    exact (cancelled_of_settled hsettled).left
  | timedOut hstate _ _ _ _ hout =>
    rw [hstate]
    generalize new.state = state at hout
    cases hout <;> rfl

theorem not_expired (hrunning : old.state.isRunning = false)
    (hdue : old.state.dueOnResume nowMs = false ∨ old.state.isDelayPending = true) :
    old.expiresBy nowMs = false := by
  unfold Step.expiresBy Step.timesOutBy
  cases hstate : old.state with
  | waiting due =>
    rw [hstate] at hdue
    have hnot := hdue.resolve_right (fun h => by cases h)
    show (true && decide (due ≤ nowMs) || _) = false
    rw [show decide (due ≤ nowMs) = false from hnot]
    rfl
  | pending held =>
    rw [hstate] at hdue
    have hnot := hdue.resolve_right (fun h => by cases h)
    show (false || (true && held.any fun attempt => attempt.deadlineAtMs ≤ nowMs) && _) = false
    rw [show (held.any fun attempt => attempt.deadlineAtMs ≤ nowMs) = false from hnot]
    rfl
  | running attempt token callback =>
    rw [hstate] at hrunning
    cases hrunning
  | _ => rfl

theorem Resumed.unfinished (hresumed : Resumed nowMs old new)
    (hrunning : old.state.isRunning = false) :
    new.state.unfinished = (old.state.unfinished && !old.expiresBy nowMs) := by
  cases hresumed with
  | kept hsame hdue => rw [hsame, not_expired hrunning hdue, Bool.not_false, Bool.and_true]
  | @waited due hstate hover _ _ hsettled =>
    have hexpired : old.expiresBy nowMs = true := by
      unfold Step.expiresBy
      rw [hstate, Bool.or_eq_true]
      exact .inl (decide_eq_true hover)
    rw [hexpired, Bool.not_true, Bool.and_false]
    exact (cancelled_of_settled hsettled).right
  | @timedOut config attempt verdict hstate hover hconfig _ _ hout =>
    have hexpired : old.expiresBy nowMs = (config.retries.delay.isSome &&
        decide (config.retries.limit < attempt.number)) := by
      unfold Step.expiresBy Step.timesOutBy Step.lastAttempt
      rw [hconfig, hstate]
      show (false || (true && decide (attempt.deadlineAtMs ≤ nowMs)) && _) = _
      rw [decide_eq_true hover]
      rfl
    rw [hexpired, hstate]
    generalize new.state = state at hout
    cases hout with
    | deferred hdynamic =>
      rw [hdynamic]
      rfl
    | retried hstatic hretries =>
      rw [decide_eq_false (Nat.not_lt.mpr hretries), Bool.and_false]
      rfl
    | failed hstatic hfinal =>
      rw [decide_eq_true hfinal, Option.isSome_iff_ne_none.mpr hstatic]
      rfl

end Steps

/-! ## The resumption -/

structure ResumedRows (nowMs : Millis) (i j : Instance) : Prop where
  sound : j.Sound
  lifecycle : j.lifecycle = i.lifecycle
  identity : j.identity = i.identity
  steps : Table.Corresponds (Resumed nowMs) i.steps j.steps

section Resumption

variable {clock nowMs : Millis} {i j : Instance} {limits : WorkflowsConfig} {others : Usage}

def Instance.dueOrdinals (i : Instance) (nowMs : Millis) : List Nat :=
  (i.steps.rows.filter fun s => s.state.dueOnResume nowMs).map Step.ordinal

theorem mem_dueOrdinals {k : Nat} : k ∈ i.dueOrdinals nowMs ↔
    exists s, s ∈ i.steps ∧ s.state.dueOnResume nowMs = true ∧ s.ordinal = k := by
  unfold Instance.dueOrdinals
  rw [mem_map]
  constructor
  · intro hmem
    rcases hmem with ⟨s, hs, hk⟩
    rw [List.mem_filter] at hs
    exact ⟨s, hs.left, hs.right, hk⟩
  · intro hmem
    rcases hmem with ⟨s, hs, hdue, hk⟩
    exact ⟨s, List.mem_filter.mpr ⟨hs, hdue⟩, hk⟩

theorem dueOrdinals_nodup (i : Instance) (nowMs : Millis) :
    ((i.dueOrdinals nowMs).map fun k => k).Nodup := by
  rw [map_id']
  exact i.steps.nodup.sublist (filter_sublist.map Step.ordinal)

theorem resumeLoop_commits (hi : i.Sound) (hinbox : i.Inbox clock) (hle : clock ≤ nowMs)
    (hlive : i.live = true) (hsafe : forall s, s ∈ i.steps -> s.RetriesSafe nowMs) :
    exists j, (i.dueOrdinals nowMs).foldlM (resumeStep limits others nowMs) i = .ok j ∧
      ResumedRows nowMs i j := by
  have hloop : exists j, (i.dueOrdinals nowMs).foldlM (resumeStep limits others nowMs) i = .ok j ∧
      (j.Sound ∧ j.Inbox nowMs ∧ j.lifecycle = i.lifecycle ∧ j.identity = i.identity) ∧
      Corresponds (Resumed nowMs) i.steps j.steps := by
    refine foldlM_corresponds
      (fun a => a.Sound ∧ a.Inbox nowMs ∧ a.lifecycle = i.lifecycle ∧ a.identity = i.identity)
      Instance.steps (Resumed nowMs) ?_ (dueOrdinals_nodup i nowMs)
      ⟨hi, hinbox.later hle, rfl, rfl⟩ ?_ ?_
    · rintro k a old hk ⟨hsound, hbox, hlifecycle, hidentity⟩ hold rfl hmem
      rcases mem_dueOrdinals.mp hk with ⟨s, hs, hdue, hkey⟩
      cases eq_of_key_eq hs hold hkey
      have halive : a.live = true := (congrArg Lifecycle.live hlifecycle).trans hlive
      rcases @resumeStep_commits nowMs nowMs a old limits others hsound hbox halive (find?_key hmem)
        hdue (hsafe old hold) with ⟨b, new, hb, hresumed, hkept, hsame, hfind⟩
      have hwrites : Writes settling nowMs a b := resumeStep_writes trivial hb
      exact ⟨b, new, hb, hresumed, ⟨hwrites.sound hsound, hwrites.inbox hbox (le_refl nowMs),
        hkept.trans hlifecycle, hsame.trans hidentity⟩, hfind⟩
    · intro k hk
      rcases mem_dueOrdinals.mp hk with ⟨s, hs, _, hkey⟩
      exact ⟨s, hs, hkey⟩
    · intro s hs hnot
      refine Resumed.kept rfl (.inl ?_)
      rw [← Bool.not_eq_true]
      intro hdue
      rw [map_id'] at hnot
      exact hnot (mem_dueOrdinals.mpr ⟨s, hs, hdue, rfl⟩)
  rcases hloop with ⟨j, hj, ⟨hsound, _, hlifecycle, hidentity⟩, hsteps⟩
  exact ⟨j, hj, hsound, hlifecycle, hidentity, hsteps⟩

theorem resumeLoop_safe (hidle : i.anyStep StepState.isRunning = false)
    (hloop : (i.dueOrdinals nowMs).foldlM (resumeStep limits others nowMs) i = .ok j) :
    forall s, s ∈ i.steps -> s.RetriesSafe nowMs := by
  have hrunning := anyStep_eq_false.mp hidle
  have hrows : forall k, k ∈ i.dueOrdinals nowMs -> forall s, i.steps.find? k = some s ->
      s.RetriesSafe nowMs := by
    refine (foldlM_pointwise (fun a : Instance => a.steps.find?) (fun _ => True)
      (fun k row _ => forall s, row = some s -> s.RetriesSafe nowMs) ?_
      (dueOrdinals_nodup i nowMs) trivial hloop).right.right
    intro k a b hk _ hview hb
    have hwrites : Writes ⟨fun o => o = k, False, False, False, fun _ => False, fun _ => True⟩
        nowMs a b := resumeStep_writes rfl hb
    refine ⟨trivial, b.steps.find? k, ?_, ?_⟩
    · funext o
      rw [Function.update_apply]
      split
      · rename_i heq
        rw [heq]
      · rename_i hne
        exact hwrites.frame hne (fun h => h)
    · intro s hs
      rcases find?_eq_some.mp hs with ⟨hmem, rfl⟩
      intro hover config attempt hconfig hattempt
      rcases pending_of_timesOutBy (hrunning s hmem) hover with ⟨_, hstate, _⟩
      rw [resumeStep_eq (hview.trans hs), hstate] at hb
      rw [hstate] at hattempt
      cases hattempt
      rcases map_eq_ok.mp hb with ⟨⟨_, _⟩, htimeout, _⟩
      intro delay hretries hdelay
      rw [timeout_eq hconfig hstate] at htimeout
      split at htimeout
      · rename_i hdynamic
        simp [WorkflowRetryPolicy.delayAfter, WorkflowRetryPolicy.delayAfterResolved,
          hdynamic] at hdelay
      · simp only [hdelay, ok_iff] at htimeout
        rcases htimeout with ⟨_, ⟨⟩, _, hdue, _⟩
        rcases durableDeadline_eq_ok hdue with ⟨hvalue, hsafe⟩
        exact hvalue ▸ hsafe
  intro s hs hover
  refine hrows s.ordinal ?_ s (find?_key hs) hover
  rcases pending_of_timesOutBy (hrunning s hs) hover with ⟨_, _, hdue⟩
  exact mem_dueOrdinals.mpr ⟨s, hs, hdue, rfl⟩

theorem paused_facts (hi : i.Sound) (hpaused : i.lifecycle = .paused) :
    i.live = true ∧ i.state = .paused ∧ i.anyStep StepState.isRunning = false := by
  refine ⟨congrArg Lifecycle.live hpaused, congrArg Lifecycle.state hpaused, hi.noCallbacks ?_⟩
  unfold Instance.runToken
  rw [hpaused]
  rfl

def Instance.resumed (i : Instance) (nowMs : Millis) : Instance :=
  { i with
    lifecycle := if i.resumable nowMs then .queued nowMs else .waiting
    updatedAtMs := nowMs }

theorem Instance.Stuck.resumable (hstuck : i.Stuck) (hi : i.Sound)
    (hidle : i.anyStep StepState.isRunning = false) : i.resumable nowMs = false := by
  have hopen := ((stuck_iff hi hidle).mp hstuck).left
  simp only [Instance.resumable, Bool.or_eq_false_iff, decide_eq_false_iff_not, anyStep_eq_false]
  refine ⟨hopen, fun s hs => ?_⟩
  have hfinished := hstuck.right s hs
  cases hstate : s.state with
  | complete attempt output consumed | failed attempt code | cancelled attempt =>
    exact ⟨⟨rfl, rfl⟩, rfl⟩
  | _ =>
    rw [hstate] at hfinished
    cases hfinished

theorem resumed_frontier (hi : i.Sound) (hidle : i.anyStep StepState.isRunning = false) :
    Instance.instanceFrontierGuard i (i.resumed nowMs) = true ↔ ¬ i.Stuck := by
  unfold Instance.instanceFrontierGuard
  rw [hidle]
  cases hready : i.resumable nowMs with
  | true =>
    have hfree : ¬ i.Stuck := by
      intro hstuck
      rw [hstuck.resumable hi hidle] at hready
      cases hready
    unfold Instance.resumed
    rw [hready]
    exact iff_of_true rfl hfree
  | false =>
    have hquiet : i.anyStep (fun s => s.isPending || s.isDelayPending) = false ∧
        i.accounts.registered ≠ i.accounts.settled := by
      simp only [Instance.resumable, Bool.or_eq_false_iff, decide_eq_false_iff_not,
        anyStep_eq_false] at hready ⊢
      exact ⟨fun s hs => (hready.right s hs).left, hready.left⟩
    rw [stuck_iff hi hidle, hquiet.left]
    unfold Instance.resumed
    rw [hready]
    simp [hquiet.right, Instance.state, Lifecycle.state, Instance.live, Lifecycle.live,
      WorkflowState.isTerminal]

theorem resumed_commits (hi : i.Sound) (hpaused : i.lifecycle = .paused)
    (hstuck : ¬ i.Stuck) : i.updateState (i.resumed nowMs) = .ok (i.resumed nowMs) := by
  rcases paused_facts hi hpaused with ⟨hlive, hstate, hidle⟩
  refine updateState_commits hi hlive ⟨rfl, rfl, rfl, rfl, rfl⟩ rfl ?_ ?_
    ((resumed_frontier hi hidle).mpr hstuck) ?_
  · unfold Instance.resumed
    cases i.resumable nowMs <;> rfl
  · unfold Instance.instanceRunGuard Instance.resumed
    rw [hpaused]
    cases i.resumable nowMs <;> rfl
  · unfold Instance.instanceTransitionGuard
    rw [hstate]
    unfold Instance.resumed
    cases i.resumable nowMs <;> rfl

theorem resumed_facts (hi : i.Sound) (hpaused : i.lifecycle = .paused)
    (hupdate : i.updateState (i.resumed nowMs) = .ok j) :
    ¬ i.Stuck ∧ j = i.resumed nowMs ∧
      (j.state = .queued ∨ (j.state = .waiting ∧ j.accounts.nextWakeAtMs ≠ none)) := by
  have hj := updateState_eq_ok hupdate
  rw [hj] at hupdate ⊢
  have hguard := (updateState_facts hupdate).left
  refine ⟨(resumed_frontier hi (paused_facts hi hpaused).right.right).mp hguard, rfl, ?_⟩
  have hstate : (i.resumed nowMs).state = .queued ∨ (i.resumed nowMs).state = .waiting := by
    unfold Instance.resumed
    cases i.resumable nowMs with
    | true => exact .inl rfl
    | false => exact .inr rfl
  exact hstate.imp_right fun hwaiting =>
    ⟨hwaiting, ((frontierGuard_facts hguard).right hwaiting).left⟩

theorem ResumedRows.stuck_iff (hrows : ResumedRows nowMs i j)
    (hidle : i.anyStep StepState.isRunning = false) :
    ¬ j.Stuck ↔ (forall s, s ∈ i.steps -> s.state.isCancelled = false) ∨
      exists s, s ∈ i.steps ∧ s.state.unfinished = true ∧ s.expiresBy nowMs = false := by
  have hrunning := anyStep_eq_false.mp hidle
  unfold Instance.Stuck
  rw [not_and_or]
  push Not
  simp only [Bool.not_eq_true, Bool.not_eq_false, ne_eq]
  refine or_congr (Iff.symm (hrows.steps.forall_iff ?_)) (Iff.symm (hrows.steps.exists_iff ?_))
  · intro old new _ hresumed
    rw [hresumed.cancelled]
  · intro old new hold hresumed
    rw [hresumed.unfinished (hrunning old hold), Bool.and_eq_true, Bool.not_eq_true']

/-- When a paused instance can be resumed. -/
@[mk_iff]
structure Instance.Resumable (i : Instance) (nowMs : Millis) : Prop where
  retries : forall s, s ∈ i.steps -> s.RetriesSafe nowMs
  frontier : (forall s, s ∈ i.steps -> s.state.isCancelled = false) ∨
    exists s, s ∈ i.steps ∧ s.state.unfinished = true ∧ s.expiresBy nowMs = false

structure ResumedFrom (nowMs : Millis) (i j : Instance) : Prop where
  state : j.state = .queued ∨ (j.state = .waiting ∧ j.accounts.nextWakeAtMs ≠ none)
  identity : j.identity = i.identity
  steps : Table.Corresponds (Resumed nowMs) i.steps j.steps

theorem resumeRun_eq : resumeRun limits others nowMs i = (do
    ensure (i.state = .paused) (error .workflowInstanceStateConflict)
    let settled ← (i.dueOrdinals nowMs).foldlM (resumeStep limits others nowMs) i
    settled.updateState (settled.resumed nowMs)) := rfl

theorem resumeRun_commits (hi : i.Sound) (hinbox : i.Inbox clock) (hle : clock ≤ nowMs)
    (hpaused : i.lifecycle = .paused) (hresumable : i.Resumable nowMs) :
    exists j, resumeRun limits others nowMs i = .ok j ∧ ResumedFrom nowMs i j := by
  rcases paused_facts hi hpaused with ⟨hlive, hstate, hidle⟩
  rcases @resumeLoop_commits clock nowMs i limits others hi hinbox hle hlive hresumable.retries
    with ⟨k, hloop, hrows⟩
  have hstuck : ¬ k.Stuck := (hrows.stuck_iff hidle).mpr hresumable.frontier
  have hupdate : k.updateState (k.resumed nowMs) = .ok (k.resumed nowMs) :=
    resumed_commits hrows.sound (hrows.lifecycle.trans hpaused) hstuck
  refine ⟨k.resumed nowMs, ?_, ?_, hrows.identity, hrows.steps⟩
  · rw [resumeRun_eq]
    simp only [ok_iff]
    exact ⟨hstate, k, hloop, hupdate⟩
  · exact (resumed_facts hrows.sound (hrows.lifecycle.trans hpaused) hupdate).right.right

theorem resumable_of_resumeRun (hi : i.Sound) (hinbox : i.Inbox clock) (hle : clock ≤ nowMs)
    (hpaused : i.lifecycle = .paused) (hresume : resumeRun limits others nowMs i = .ok j) :
    i.Resumable nowMs := by
  rcases paused_facts hi hpaused with ⟨hlive, _, hidle⟩
  rw [resumeRun_eq] at hresume
  simp only [ok_iff] at hresume
  rcases hresume with ⟨_, _, hloop, hupdate⟩
  have hsafe := resumeLoop_safe hidle hloop
  rcases @resumeLoop_commits clock nowMs i limits others hi hinbox hle hlive hsafe with
    ⟨_, hloop', hrows⟩
  cases Except.ok.inj (hloop.symm.trans hloop')
  refine ⟨hsafe, (hrows.stuck_iff hidle).mp ?_⟩
  exact (resumed_facts hrows.sound (hrows.lifecycle.trans hpaused) hupdate).left

end Resumption

/-! ## The pause and the drain -/

section Pausing

variable {nowMs queuedAtMs : Millis} {i j : Instance} {run : RunLease}

def Lifecycle.pausing : Lifecycle -> Lifecycle
  | .running run => .running { run with pauseRequested := true }
  | _ => .paused

theorem pausing_cases (lifecycle : Lifecycle) : lifecycle.pausing = .paused ∨
    exists run, lifecycle = .running run ∧
      lifecycle.pausing = .running { run with pauseRequested := true } := by
  cases lifecycle with
  | running run => exact .inr ⟨run, rfl, rfl⟩
  | _ => exact .inl rfl

/-- A paused instance, or one whose run was asked to pause. -/
structure PausedFrom (i j : Instance) : Prop where
  steps : j.steps = i.steps
  identity : j.identity = i.identity
  lifecycle : j.lifecycle = i.lifecycle.pausing

theorem pauseRun_commits (hi : i.Sound) (hlive : i.live = true) :
    exists j, pauseRun nowMs i = .ok j ∧ PausedFrom i j := by
  unfold pauseRun
  cases hlifecycle : i.lifecycle with
  | paused =>
    refine ⟨i, rfl, rfl, rfl, ?_⟩
    rw [hlifecycle]
    rfl
  | running run =>
    have hpausing : i.lifecycle.pausing = .running { run with pauseRequested := true } :=
      congrArg Lifecycle.pausing hlifecycle
    dsimp only
    split
    · rename_i hrequested
      refine ⟨i, rfl, rfl, rfl, ?_⟩
      rw [hpausing, hlifecycle, ← hrequested]
    · refine ⟨_, update_commits hi hlive ⟨rfl, rfl, rfl, rfl, rfl⟩ rfl rfl ?_, rfl, rfl,
        hpausing.symm⟩
      unfold Instance.instanceRunGuard
      rw [hlifecycle]
      simp [hi.activated (state_of_running hlifecycle)]
  | queued _ | waiting =>
    have hcallbacks : i.anyStep StepState.isRunning = false :=
      hi.noCallbacks (congrArg (fun l => l.run.map RunLease.token) hlifecycle)
    refine ⟨_, updateState_commits hi hlive ⟨rfl, rfl, rfl, rfl, rfl⟩ rfl rfl ?_ ?_ ?_,
      rfl, rfl, (congrArg Lifecycle.pausing hlifecycle).symm⟩
    · unfold Instance.instanceRunGuard
      rw [hlifecycle]
      rfl
    · unfold Instance.instanceFrontierGuard
      rw [hcallbacks]
      rfl
    · unfold Instance.instanceTransitionGuard Instance.state
      rw [hlifecycle]
      rfl
  | _ =>
    have hdead : i.live = _ := congrArg Lifecycle.live hlifecycle
    rw [hlive] at hdead
    cases hdead

structure DrainedFrom (i j : Instance) : Prop where
  paused : j.lifecycle = .paused
  identity : j.identity = i.identity
  steps : Table.Corresponds Reset i.steps j.steps

theorem corresponds_of_idle (hidle : i.anyStep StepState.isRunning = false)
    (hsteps : j.steps = i.steps) : Table.Corresponds Reset i.steps j.steps := by
  intro k
  rw [hsteps]
  cases hfind : i.steps.find? k with
  | none => exact Option.Rel.none
  | some s =>
    exact Option.Rel.some (Reset.kept rfl (anyStep_eq_false.mp hidle s (mem_of_find? hfind)))

theorem releaseTo_of_pause (hrun : i.lifecycle = .running run)
    (hpause : run.pauseRequested = true) :
    releaseTo i queuedAtMs = some .paused := by
  unfold releaseTo Instance.pauseRequested
  rw [hrun, show (Lifecycle.running run).run.any RunLease.pauseRequested = true from hpause]
  rfl

theorem yield_drains (hi : i.Sound) (hrun : i.lifecycle = .running run)
    (hpause : run.pauseRequested = true) (hidle : i.anyStep StepState.isRunning = false) :
    exists j, release i nowMs nowMs = .ok j ∧ DrainedFrom i j := by
  rcases @release_commits nowMs nowMs i run .paused hi hrun hidle
    (releaseTo_of_pause hrun hpause) (.inr (.inr hpause)) with
    ⟨j, hrelease, hpaused, hsteps, hidentity⟩
  exact ⟨j, hrelease, hpaused, hidentity, corresponds_of_idle hidle hsteps⟩

theorem recovery_drains (hi : i.Sound) (hrun : i.lifecycle = .running run)
    (hpause : run.pauseRequested = true) (hlease : run.leaseUntilMs ≤ nowMs) :
    exists j, recoverRun queuedAtMs nowMs i = .ok j ∧ DrainedFrom i j := by
  rcases recoverRun_eq hi hrun hlease queuedAtMs with ⟨k, heq, hback⟩
  have hrun' : k.lifecycle = .running run := hback.lifecycle.trans hrun
  rcases @release_commits queuedAtMs nowMs k run .paused hback.sound hrun' hback.idle
    (releaseTo_of_pause hrun' hpause) (.inl hlease) with
    ⟨j, hrelease, hpaused, hsteps, hidentity⟩
  exact ⟨j, heq.trans hrelease, hpaused, hidentity.trans hback.identity, hsteps ▸ hback.steps⟩

end Pausing

end Workflow
end OpenCompute
