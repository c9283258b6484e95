import OpenCompute.Workflow.Fencing

/-!
# Sound instances

What holds of every stored instance after every single write: the counters are
those of the accounting view, callbacks run under the token of the instance,
and a waiting instance has nothing to run.
-/

namespace OpenCompute
namespace Workflow

open Relational Table Transaction Transition List

structure Instance.Sound (i : Instance) : Prop where
  accounts : i.accounts = i.accounting
  activated : i.state = .running -> i.hasActivated = true
  held : forall s, s ∈ i.steps -> forall attempt run token,
    s.state = .running attempt run token -> i.runToken = some run
  quiet : i.state = .waiting -> forall s, s ∈ i.steps ->
    s.state.isPending = false ∧ s.state.isDelayPending = false
  generation : 1 ≤ i.generation
  events : 1 ≤ i.nextEventSeq
  ordinals : i.steps.rows.map Step.ordinal = List.range i.steps.rows.length

section Writes

variable {p : Permits} {nowMs : Millis} {i j : Instance}

structure HistoryWrite (i j : Instance) : Prop where
  lifecycle : j.lifecycle = i.lifecycle
  flags : j.rollbackRequested = i.rollbackRequested ∧ j.hasActivated = i.hasActivated
  accounts : j.accounts = j.accounting
  events : i.nextEventSeq ≤ j.nextEventSeq

structure RowWrite (i j : Instance) : Prop where
  same : SameHistory i j
  update : i.update j = .ok j
  kept : (j.state = i.state ∧ j.rollbackRequested = i.rollbackRequested) ∨ i.updateState j = .ok j

theorem Write.history_or_row (hwrite : Write p nowMs i j) : HistoryWrite i j ∨ RowWrite i j := by
  cases hwrite with
  | step _ _ | consume _ _ | register _ _ => exact .inl ⟨rfl, ⟨rfl, rfl⟩, rfl, le_refl _⟩
  | insertEvent _ _ _ _ =>
    exact .inl ⟨rfl, ⟨rfl, rfl⟩, rfl, Int.le_add_of_nonneg_right (by decide)⟩
  | row hsame hflags hstate _ _ hupdate =>
    exact .inr ⟨hsame, hupdate, .inl ⟨hstate, hflags.left⟩⟩
  | state _ hsame _ _ hupdate =>
    exact .inr ⟨hsame, (updateState_facts hupdate).right, .inr hupdate⟩

theorem Write.accounts (hwrite : Write p nowMs i j) : j.accounts = j.accounting := by
  cases hwrite.history_or_row with
  | inl hhistory => exact hhistory.accounts
  | inr hrow => exact (update_facts hrow.update).left

theorem Write.activated (hwrite : Write p nowMs i j)
    (hi : i.state = .running -> i.hasActivated = true) :
    j.state = .running -> j.hasActivated = true := by
  intro hstate
  cases hwrite.history_or_row with
  | inl hhistory =>
    rw [hhistory.flags.right]
    unfold Instance.state at hstate
    rw [hhistory.lifecycle] at hstate
    exact hi hstate
  | inr hrow =>
    have hguard := (update_facts hrow.update).right.left
    unfold Instance.instanceRunGuard at hguard
    rw [Bool.and_eq_true, Bool.or_eq_true, decide_eq_true_eq] at hguard
    exact hguard.left.resolve_left (fun hne => hne hstate)

end Writes

/-! ## Callbacks and runs -/

section Callbacks

variable {p : Permits} {nowMs : Millis} {i j : Instance} {old new : Step} {attempt : Attempt}
  {token : WorkflowToken}

theorem grantGuard_token (hguard : i.grantGuard old attempt token nowMs = true) :
    i.runToken = some token := by
  simp only [Instance.grantGuard, Bool.and_eq_true] at hguard
  rcases leased_eq_true.mp hguard.left.right with ⟨run, hrun, htoken, _⟩
  exact runToken_eq_some.mpr ⟨run, hrun, htoken⟩

theorem StepUpdate.runToken (hupdate : StepUpdate p nowMs i old new) {run : WorkflowToken}
    (hnew : new.state = .running attempt run token) : i.runToken = some run := by
  have hguard := hupdate.transition
  unfold Instance.stepTransitionGuard at hguard
  rw [hnew] at hguard
  cases hold : old.state with
  | pending held =>
    rw [hold] at hguard
    exact grantGuard_token hguard
  | retryWait held code delay due =>
    rw [hold, Bool.and_eq_true] at hguard
    exact grantGuard_token hguard.right
  | _ =>
    rw [hold] at hguard
    cases hguard

theorem StepUpdate.callback (hupdate : StepUpdate p nowMs i old new)
    (hnew : (new.state.isPending || new.state.isDelayPending) = true) :
    i.state = .running ∨ old.state.isPending = true := by
  have hguard := hupdate.transition
  unfold Instance.stepTransitionGuard at hguard
  cases hstate : new.state with
  | pending held =>
    rw [hstate] at hguard
    cases hold : old.state with
    | running attempt token step =>
      rw [hold] at hguard
      refine .inl ?_
      unfold Instance.leaseExpired at hguard
      cases hlifecycle : i.lifecycle with
      | running run => exact state_of_running hlifecycle
      | _ =>
        rw [hlifecycle] at hguard
        cases hguard
    | _ =>
      rw [hold] at hguard
      cases hguard
  | delayPending attempt code =>
    rw [hstate] at hguard
    cases hold : old.state with
    | running held token step =>
      rw [hold] at hguard
      simp only [Bool.and_eq_true, decide_eq_true_eq] at hguard
      rcases runToken_eq_some.mp hguard.right with ⟨_, hrun, _⟩
      exact .inl (state_of_running hrun)
    | pending held => exact .inr rfl
    | _ =>
      rw [hold] at hguard
      cases hguard
  | _ =>
    rw [hstate] at hnew
    cases hnew

theorem StepRegistration.running (hregistration : StepRegistration p i new) :
    i.state = .running ∧ new.state.isRunning = false ∧ new.ordinal = i.accounts.registered := by
  have hguard := hregistration.guard
  simp only [Instance.stepInsertGuard, Bool.and_eq_true, decide_eq_true_eq] at hguard
  rcases hguard with ⟨⟨⟨⟨⟨⟨⟨⟨⟨hrun, _⟩, _⟩, hordinal⟩, _⟩, hstate⟩, _⟩, _⟩, _⟩, _⟩
  refine ⟨?_, ?_, hordinal.symm⟩
  · cases hlifecycle : i.lifecycle with
    | running run => exact state_of_running hlifecycle
    | _ =>
      rw [hlifecycle] at hrun
      cases hrun
  · cases hnew : new.state with
    | running attempt token step =>
      rw [hnew] at hstate
      split at hstate <;> cases hstate
    | _ => rfl

theorem frontierGuard_facts (hguard : Instance.instanceFrontierGuard i j = true) :
    (j.state = .running ∨ forall s, s ∈ i.steps -> s.state.isRunning = false) ∧
    (j.state = .waiting -> j.accounts.nextWakeAtMs ≠ none ∧ forall s, s ∈ i.steps ->
      s.state.isPending = false ∧ s.state.isDelayPending = false) := by
  simp only [Instance.instanceFrontierGuard, Instance.anyStep, Bool.and_eq_true,
    Bool.or_eq_true, Bool.not_eq_true', decide_eq_true_eq, any_eq_false,
    Bool.not_eq_true, not_or] at hguard
  rcases hguard with ⟨⟨⟨hrunning, _⟩, _⟩, hwaiting⟩
  exact ⟨hrunning, fun hstate => hwaiting.resolve_left (fun hne => hne hstate)⟩

theorem Write.held (hwrite : Write p nowMs i j)
    (hi : forall s, s ∈ i.steps -> forall attempt run token,
      s.state = .running attempt run token -> i.runToken = some run) :
    forall s, s ∈ j.steps -> forall attempt run token,
      s.state = .running attempt run token -> j.runToken = some run := by
  intro s hs attempt run token hstate
  have hbefore : i.runToken = some run := by
    rcases hwrite.mem_cases hs with hold | ⟨_, hupdate⟩ | hregistration
    · exact hi s hold attempt run token hstate
    · exact hupdate.runToken hstate
    · have hnot := hregistration.running.right.left
      rw [hstate] at hnot
      cases hnot
  cases hwrite.history_or_row with
  | inl hhistory =>
    unfold Instance.runToken
    rw [hhistory.lifecycle]
    exact hbefore
  | inr hrow =>
    rcases runToken_eq_some.mp hbefore with ⟨_, hlease, htoken⟩
    have hgoes : j.state = .running := by
      cases hrow.kept with
      | inl hkept => exact hkept.left.trans (state_of_running hlease)
      | inr hstate' =>
        cases (frontierGuard_facts (updateState_facts hstate').left).left with
        | inl hrunning => exact hrunning
        | inr hnone =>
          rw [hrow.same.steps] at hs
          have hnot := hnone s hs
          rw [hstate] at hnot
          cases hnot
    rcases running_of_state hgoes with ⟨lease', hlease'⟩
    refine runToken_eq_some.mpr ⟨lease', hlease', ?_⟩
    rw [update_token hrow.update hlease hlease']
    exact htoken

theorem Write.quiet (hwrite : Write p nowMs i j)
    (hi : i.state = .waiting -> forall s, s ∈ i.steps ->
      s.state.isPending = false ∧ s.state.isDelayPending = false) :
    j.state = .waiting -> forall s, s ∈ j.steps ->
      s.state.isPending = false ∧ s.state.isDelayPending = false := by
  intro hwaiting s hs
  cases hwrite.history_or_row with
  | inl hhistory =>
    have hstate : i.state = .waiting := by
      unfold Instance.state at hwaiting ⊢
      rw [← hhistory.lifecycle]
      exact hwaiting
    rcases hwrite.mem_cases hs with hold | ⟨old, hupdate⟩ | hregistration
    · exact hi hstate s hold
    · rw [← Bool.or_eq_false_iff, Bool.eq_false_iff]
      intro hcallback
      cases hupdate.callback hcallback with
      | inl hrunning =>
        rw [hstate] at hrunning
        cases hrunning
      | inr hpending =>
        rw [(hi hstate old hupdate.mem).left] at hpending
        cases hpending
    · have hrunning := hregistration.running.left
      rw [hstate] at hrunning
      cases hrunning
  | inr hrow =>
    rw [hrow.same.steps] at hs
    cases hrow.kept with
    | inl hkept => exact hi (hkept.left.symm.trans hwaiting) s hs
    | inr hstate =>
      exact ((frontierGuard_facts (updateState_facts hstate).left).right hwaiting).right s hs

end Callbacks

/-! ## The frontier -/

section Frontier

variable {p : Permits} {nowMs : Millis} {i j : Instance}

theorem Write.ordinals (hwrite : Write p nowMs i j) (hi : i.Sound) :
    j.steps.rows.map Step.ordinal = range j.steps.rows.length := by
  cases hwrite with
  | @step old new _ _ | @consume old new seq _ _ =>
    show (i.steps.replace new).keys = range (i.steps.replace new).rows.length
    rw [keys_replace, Table.replace, length_map]
    exact hi.ordinals
  | @register new steps hregistration hinsert =>
    show steps.rows.map Step.ordinal = range steps.rows.length
    have hnew : new.ordinal = i.steps.rows.length := by
      rw [hregistration.running.right.right, hi.accounts]
      rfl
    rw [(insert?_eq_some.mp hinsert).right, map_append, hi.ordinals,
      length_append, length_singleton, range_succ, map_singleton, hnew]
  | insertEvent _ _ _ _ => exact hi.ordinals
  | row hsame _ _ _ _ _ | state _ hsame _ _ _ =>
    rw [hsame.steps]
    exact hi.ordinals

theorem Write.sound (hwrite : Write p nowMs i j) (hi : i.Sound) : j.Sound where
  accounts := hwrite.accounts
  activated := hwrite.activated hi.activated
  held := hwrite.held hi.held
  quiet := hwrite.quiet hi.quiet
  generation := by
    unfold Instance.generation
    rw [hwrite.identity]
    exact hi.generation
  events := by
    cases hwrite.history_or_row with
    | inl hhistory => exact le_trans hi.events hhistory.events
    | inr hrow => exact le_trans hi.events (le_of_eq hrow.same.nextEventSeq.symm)
  ordinals := hwrite.ordinals hi

theorem Writes.sound (hwrites : Writes p nowMs i j) (hi : i.Sound) : j.Sound :=
  hwrites.invariant (fun _ _ hwrite hk => hwrite.sound hk) hi

theorem Instance.Sound.length_le (hi : i.Sound) : i.steps.rows.length ≤ 1024 := by
  cases hlength : i.steps.rows.length with
  | zero => exact Nat.zero_le _
  | succ n =>
    have hmem : n ∈ i.steps.rows.map Step.ordinal := by
      rw [hi.ordinals, hlength]
      exact mem_range.mpr (Nat.lt_succ_self n)
    rcases mem_map.mp hmem with ⟨s, _, rfl⟩
    exact s.descriptor_valid.ordinal

end Frontier

/-! ## Every run -/

variable {versionDigest : WorkflowTarget -> Digest} {env : Environment}

theorem prepared_sound {c : WorkflowCreation} {q : PreparedCreation}
    (hprepare : prepareCreation versionDigest c = .ok q) : q.instance.Sound := by
  simp only [prepareCreation, ok_iff] at hprepare
  rcases hprepare with ⟨_, _, _, _, _, _, _, _, hgeneration, rfl⟩
  constructor
  · simp [PreparedCreation.instance, PreparedCreation.initialBytes, Instance.accounting,
      Instance.historyBytes, Table.empty, Lifecycle.bytes, Lifecycle.output,
      Lifecycle.errorCode]
  · intro hstate
    cases hstate
  · intro s hs
    cases hs
  · intro hstate
    cases hstate
  · show 1 ≤ c.identity.instanceGeneration
    rw [hgeneration.left]
  · exact le_refl 1
  · rfl

/-! A restart keeps the steps below a bound, so no ordinal is missing. -/

theorem filter_range_lt (n bound : Nat) :
    (range n).filter (fun k => k < bound) = range (min n bound) := by
  induction n with
  | zero => rw [Nat.zero_min, range_zero, filter_nil]
  | succ n ih =>
    rw [range_succ, filter_append, ih]
    by_cases hlt : n < bound
    · rw [Nat.min_eq_left (Nat.le_of_lt hlt), Nat.min_eq_left hlt, range_succ]
      simp [hlt]
    · rw [Nat.min_eq_right (Nat.not_lt.mp hlt),
        Nat.min_eq_right (Nat.le_succ_of_le (Nat.not_lt.mp hlt))]
      simp [hlt]

theorem restartRun_sound {operation : WorkflowOperation} {projection : RestartProjection}
    {nowMs : Millis} {i j : Instance}
    (hrun : restartRun versionDigest operation projection nowMs i = .ok j) (hi : i.Sound) :
    j.Sound := by
  have hqueued := restartRun_queued hrun
  have hstate : j.state = .queued := by
    unfold Instance.state
    rw [hqueued]
    rfl
  have hloop := restartRun_eq_ok hrun
  rcases hloop with ⟨hchecks, _, ⟨target, olds, hloop, holds⟩, _⟩
  constructor
  · exact hloop.accounts (restartedInstance_accounts i operation projection nowMs)
  · intro hrunning
    rw [hstate] at hrunning
    cases hrunning
  · intro s hs attempt run token hrunning
    rcases restartRun_steps hrun hs with ⟨old, _, _, hkept | hfresh⟩
    · rcases hkept with ⟨rfl, hcomplete⟩
      rw [hrunning] at hcomplete
      cases hcomplete
    · rw [hfresh.right.right] at hrunning
      cases hconfig : old.descriptor.config <;> rw [hconfig] at hrunning <;> cases hrunning
  · intro hwaiting
    rw [hstate] at hwaiting
    cases hwaiting
  · rw [(restartRun_generation hrun).right]
    exact Nat.le_add_left 1 _
  · rw [hloop.frame]
    exact hchecks.right.right.right.left
  · have hordinals : forall rows : List Step, (forall old, old ∈ rows ->
        exists new, Reinserted target projection.nextEventSeq nowMs old new) ->
        (rows.filterMap (restartStep target projection.nextEventSeq nowMs)).map Step.ordinal =
          rows.map Step.ordinal := by
      intro rows hrows
      induction rows with
      | nil => rfl
      | cons old rows ih =>
        rcases hrows old mem_cons_self with ⟨_, hnew, _⟩
        rw [filterMap_cons_some hnew, map_cons, map_cons, restartStep_ordinal hnew,
          ih (fun x hx => hrows x (mem_cons_of_mem old hx))]
    have hrows : j.steps.rows.map Step.ordinal = olds.map Step.ordinal := by
      rw [hloop.rows, ← hordinals olds hloop.steps]
      rfl
    have hlength : j.steps.rows.length = olds.length := by
      rw [← length_map, hrows, length_map]
    rw [hrows, hlength]
    cases holds with
    | inl hsome =>
      rw [hsome.right]
      have hmap : (i.before projection.retainStepCount).map Step.ordinal =
          range (min i.steps.rows.length projection.retainStepCount) := by
        rw [← filter_range_lt, ← hi.ordinals, filter_map]
        rfl
      have hlength := congrArg length hmap
      rw [length_map, length_range] at hlength
      rw [hmap, hlength]
    | inr hnone =>
      rw [hnone.right]
      rfl

theorem history_sound {owner : Uuid} {clock : Millis} {actions : List Action} {w : World}
    (hrun : History env owner clock actions w) : forall i, i ∈ w.store.instances -> i.Sound := by
  refine history_instances (fun happly hs => ?_) hrun
  refine (apply_effect happly).forall_instances hs ?_ ?_ ?_
  · intro c q hprepare
    exact prepared_sound hprepare
  · intro others i j hcall hi
    exact hcall.writes.sound hi
  · intro operation nowMs limits projection i j _ hrun hi
    exact restartRun_sound hrun hi

end Workflow
end OpenCompute
