import OpenCompute.Workflow.Inbox

/-!
# Calls that commit

The triggers let a write pass once its guards hold, so an operation on a sound
instance fails only for a reason of its own.  A wait whose deadline has passed
can always be settled, whatever the limits are, and a timeout fails only when
the time of the retry is out of range.
-/

namespace OpenCompute
namespace Workflow

open Relational Table Transaction Transition List

/-! ## Guarded writes -/

/-- One step has a new row, and of the rest only the inbox may have changed. -/
structure Replaces (nowMs : Millis) (old new : Step) (i j : Instance) : Prop where
  mem : old ∈ i.steps
  descriptor : new.descriptor = old.descriptor
  updatedAt : new.updatedAtMs = nowMs
  attempt : new.state.attempt = old.state.attempt
  steps : j.steps = i.steps.replace new
  lifecycle : j.lifecycle = i.lifecycle
  identity : j.identity = i.identity

def SettlesWait (nowMs : Millis) (step : Step) (i : Instance)
    (call : Result (WorkflowStepResult × Instance)) : Prop :=
  exists verdict j new, call = .ok (verdict, j) ∧ verdict ≠ .suspended ∧
    Replaces nowMs step new i j ∧ new.state.settled = true

section Guards

variable {nowMs : Millis} {i : Instance}

theorem anyStep_eq_false {p : StepState -> Bool} :
    i.anyStep p = false ↔ forall s, s ∈ i.steps -> p s.state = false := by
  simp only [Instance.anyStep, any_eq_false, Bool.not_eq_true, mem_rows]

theorem Replaces.find? {j : Instance} {old new : Step} (hreplaces : Replaces nowMs old new i j) :
    j.steps.find? = Function.update i.steps.find? old.ordinal (some new) := by
  have hordinal : old.ordinal = new.ordinal :=
    (congrArg WorkflowStepDescriptor.ordinal hreplaces.descriptor).symm
  funext k
  rw [hreplaces.steps, hordinal, Function.update_apply]
  exact find?_replace hreplaces.mem hordinal k

theorem refreshGuard_of_sound (hi : i.Sound) (hlive : i.live = true) : i.refreshGuard = true := by
  rw [Instance.refreshGuard, Bool.and_eq_true, Bool.or_eq_true, decide_eq_true_eq]
  refine ⟨hlive, ?_⟩
  by_cases hrunning : i.state = .running
  · exact .inr (hi.activated hrunning)
  · exact .inl hrunning

theorem updateStep_commits {old : Step} {state : StepState} (hi : i.Sound)
    (hlive : i.live = true) (hmem : old ∈ i.steps)
    (hchecks : state.Checks old.descriptor.kind nowMs)
    (hattempt : state.attempt = old.state.attempt)
    (hguards : forall new : Step, new.updatedAtMs = nowMs -> new.state = state ->
      i.stepTransitionGuard old new = true ∧ i.waitSettlementGuard old new = true) :
    exists new, new.state = state ∧ i.updateStep old state nowMs = .ok (i.putStep new).account ∧
      Replaces nowMs old new i (i.putStep new).account := by
  have hset : exists new, old.set? state nowMs = some new := by
    unfold Step.set?
    rw [dif_pos hchecks]
    exact ⟨_, rfl⟩
  rcases hset with ⟨new, hset⟩
  rcases set?_eq_some hset with ⟨hdescriptor, _, _, hupdated, hstate⟩
  rcases hguards new hupdated hstate with ⟨htransition, hwait⟩
  have hguard : stepAttemptGuard old new = true := by
    unfold stepAttemptGuard
    rw [hstate, hattempt, decide_eq_true rfl, Bool.true_or]
  refine ⟨new, hstate, ?_, hmem, hdescriptor, hupdated, ?_, rfl, rfl, rfl⟩
  · simp only [Instance.updateStep, ok_iff]
    exact ⟨new, hset, htransition, hguard, hwait, refreshGuard_of_sound hi hlive, rfl⟩
  · rw [hstate]
    exact hattempt

theorem bytes_of_live {lifecycle : Lifecycle} (hlive : lifecycle.live = true) :
    lifecycle.bytes = 0 := by
  cases lifecycle with
  | complete terminal output | errored terminal code => cases hlive
  | _ => rfl

theorem terminal_of_live {lifecycle : Lifecycle} (hlive : lifecycle.live = true) :
    lifecycle.terminal = none := by
  cases lifecycle with
  | complete terminal output | errored terminal code | terminated terminal => cases hlive
  | _ => rfl

variable {new : Instance}

theorem update_commits (hi : i.Sound) (hlive : i.live = true) (hsame : SameHistory i new)
    (haccounts : new.accounts = i.accounts) (hnew : new.live = true)
    (hguard : Instance.instanceRunGuard i new = true) : i.update new = .ok new := by
  have haccounting : new.accounting = i.accounting := by
    simp only [Instance.accounting, Instance.historyBytes, hsame.steps, hsame.events,
      hsame.identity, hsame.input, bytes_of_live hlive, bytes_of_live hnew]
  have hchecks : new.Checks := by
    refine ⟨?_, ?_, ?_, ?_, ?_⟩
    · unfold Instance.generation
      rw [hsame.identity]
      exact hi.generation
    · rw [hsame.nextEventSeq]
      exact hi.events
    · rw [haccounts, hi.accounts]
      exact hi.length_le
    · intro hnot
      rw [hnew] at hnot
      cases hnot
    · intro terminal hmem
      rw [terminal_of_live hnew] at hmem
      cases hmem
  simp only [Instance.update, ok_iff]
  refine ⟨?_, hguard, hlive, hchecks, trivial⟩
  rw [haccounts, haccounting]
  exact hi.accounts

theorem updateState_commits (hi : i.Sound) (hlive : i.live = true) (hsame : SameHistory i new)
    (haccounts : new.accounts = i.accounts) (hnew : new.live = true)
    (hguard : Instance.instanceRunGuard i new = true)
    (hfrontier : Instance.instanceFrontierGuard i new = true)
    (htransition : Instance.instanceTransitionGuard i new = true) :
    i.updateState new = .ok new := by
  simp only [Instance.updateState, ok_iff]
  exact ⟨hfrontier, htransition, update_commits hi hlive hsame haccounts hnew hguard⟩

end Guards

/-! ## Events -/

section Events

variable {clock : Millis} {i : Instance}

theorem timestamp_size_le {t : Millis} (hsafe : SafeTime t) : (toString t).utf8ByteSize ≤ 17 :=
  Encoding.utf8ByteSize_int_le (by decide) (lt_of_le_of_lt hsafe (by decide))

theorem envelope_size_le (e : Event) (hsafe : SafeTime e.acceptedAtMs) :
    (WorkflowEventEnvelope.mk e.eventType e.payload e.acceptedAtMs).size ≤ e.logicalBytes + 30 := by
  have htime := timestamp_size_le hsafe
  rw [WorkflowEventEnvelope.size_eq]
  dsimp only
  unfold Event.logicalBytes eventBytes
  omega

theorem canonicalWire_commits {e : Event} (hname : ValidName e.eventType)
    (hsafe : SafeTime e.acceptedAtMs) :
    WorkflowEventEnvelope.canonicalWire ⟨e.eventType, e.payload, e.acceptedAtMs⟩ =
      .ok ⟨e.eventType, e.payload, e.acceptedAtMs⟩ := by
  have hpayload : e.payload.size ≤ 1398112 := by
    rcases e.payload.durable with ⟨_, hdurable⟩
    rw [← e.payload.size_eq]
    exact hdurable.text_le
  have hsize : (WorkflowEventEnvelope.mk e.eventType e.payload e.acceptedAtMs).size ≤
      WorkflowEventEnvelope.eventEnvelopeMaxBytes := by
    have htype := hname.right.left
    have henvelope := envelope_size_le e hsafe
    unfold Event.logicalBytes eventBytes at henvelope
    unfold WorkflowEventEnvelope.eventEnvelopeMaxBytes valueMaxBytes
    omega
  simp only [WorkflowEventEnvelope.canonicalWire, validateWorkflowEventType, ok_iff]
  exact ⟨hname, hsafe, hsize, trivial⟩

theorem nextEvent_oldest {e : Event} {eventType : String} (hi : i.Inbox clock)
    (hnext : i.nextEvent eventType = some e) :
    e ∈ i.events ∧ e.eventType = eventType ∧
      forall e', e' ∈ i.events -> e'.eventType = eventType -> e.seq ≤ e'.seq := by
  have hsorted := hi.sorted
  rcases find?_eq_some_iff_append.mp hnext with ⟨htype, older, newer, hrows, holder⟩
  rw [decide_eq_true_eq] at htype
  rw [hrows] at hsorted
  have hmem : forall e', e' ∈ i.events -> e' ∈ older ++ e :: newer := by
    intro e' he'
    rw [← hrows]
    exact he'
  refine ⟨?_, htype, ?_⟩
  · rw [← mem_rows, hrows]
    exact mem_append_right older mem_cons_self
  · intro e' he' htype'
    cases mem_append.mp (hmem e' he') with
    | inl hold =>
      have hnot := holder e' hold
      rw [Bool.not_eq_true', decide_eq_false_iff_not] at hnot
      exact absurd htype' hnot
    | inr hrest =>
      cases mem_cons.mp hrest with
      | inl heq => rw [heq]
      | inr hnew =>
        have hpair := (pairwise_append.mp hsorted).right.left
        exact le_of_lt ((pairwise_cons.mp hpair).left e' hnew)

end Events

/-! ## Waits -/

section Waits

variable {clock nowMs due : Millis} {i : Instance} {step : Step} {limits : WorkflowsConfig}
  {others : Usage}

theorem waiting_kind (hstate : step.state = .waiting due) : step.descriptor.kind ≠ .doStep := by
  have hchecks := step.checks
  rw [hstate] at hchecks
  exact hchecks

variable {e : Event} {eventType : String} {timeoutMs : Nat}

theorem consumptionGuard_of_oldest (hinbox : i.Inbox clock) (hnext : i.nextEvent eventType = some e)
    (heligible : eligible due step.ceiling e = true) :
    i.consumptionGuard step due eventType
      (some (.event ⟨e.eventType, e.payload, e.acceptedAtMs⟩)) (some e.seq) = true := by
  rcases nextEvent_oldest hinbox hnext with ⟨he, htype, holdest⟩
  simp only [Instance.consumptionGuard, any_eq_true, all_eq_true,
    Bool.and_eq_true, Bool.or_eq_true, decide_eq_true_eq]
  refine ⟨e, he, ⟨⟨⟨⟨rfl, htype⟩, heligible⟩, ?_⟩, ?_⟩, rfl⟩
  · intro e' he'
    by_cases hsame : e'.eventType = e.eventType
    · exact .inr (holdest e' he' (hsame.trans htype))
    · exact .inl hsame
  · intro s hs hconsumed
    exact (hinbox.taken s hs e.seq hconsumed).right e he rfl

theorem capacityChange_envelope (e : Event) (hlive : i.live = true)
    (hsafe : SafeTime e.acceptedAtMs) :
    capacityChange limits others i
      (((WorkflowEventEnvelope.mk e.eventType e.payload e.acceptedAtMs).size : Int) -
        e.logicalBytes) (-1) = .ok () := by
  have hupper := envelope_size_le e hsafe
  have hlower : e.logicalBytes ≤
      (WorkflowEventEnvelope.mk e.eventType e.payload e.acceptedAtMs).size := by
    rw [WorkflowEventEnvelope.size_eq]
    dsimp only
    unfold Event.logicalBytes eventBytes
    omega
  have hheld : failureBytes ≤ i.usage.held := by
    have hone : 1 ≤ i.reservations := by
      unfold Instance.reservations
      rw [hlive]
      exact Nat.le_add_right 1 _
    calc failureBytes = 1 * failureBytes := (Nat.one_mul _).symm
      _ ≤ i.reservations * failureBytes := Nat.mul_le_mul_right _ hone
      _ ≤ i.usage.held := Nat.le_add_left _ _
  generalize (WorkflowEventEnvelope.mk e.eventType e.payload e.acceptedAtMs).size = size at *
  have hgrowth : forall current limit : Nat, i.usage.held ≤ current ->
      checkGrowth current ((size - e.logicalBytes : Int) + -1 * failureBytes) limit = .ok () := by
    intro current limit hcurrent
    rw [failureBytes_eq] at hheld ⊢
    simp only [checkGrowth, ok_iff]
    exact ⟨by omega, .inl (by omega)⟩
  simp only [capacityChange, ok_iff]
  exact ⟨hgrowth _ _ (le_refl _), hgrowth _ _ (Nat.le_add_left _ _)⟩

section Settlements

variable (hi : i.Sound) (hlive : i.live = true) (hmem : step ∈ i.steps)
  (hstate : step.state = .waiting due)

include hi hlive hmem hstate

theorem updateStep_settles {state : StepState} (hattempt : state.attempt = none)
    (hsettled : state.settled = true) (hchecks : state.Checks step.descriptor.kind nowMs)
    (hwait : forall new : Step, new.updatedAtMs = nowMs -> new.state = state ->
      i.waitSettlementGuard step new = true) :
    exists new, new.state = state ∧ i.updateStep step state nowMs = .ok (i.putStep new).account ∧
      Replaces nowMs step new i (i.putStep new).account := by
  refine updateStep_commits hi hlive hmem hchecks ?_ fun new hupdated hnew =>
    ⟨?_, hwait new hupdated hnew⟩
  · rw [hattempt, hstate]
    rfl
  · unfold Instance.stepTransitionGuard
    rw [hstate, hnew]
    cases state with
    | complete | failed => exact hlive
    | _ => cases hsettled

theorem settles_of_update {state : StepState} (verdict : WorkflowStepResult)
    {call : Result (WorkflowStepResult × Instance)}
    (hattempt : state.attempt = none) (hsettled : state.settled = true)
    (hchecks : state.Checks step.descriptor.kind nowMs)
    (hwait : forall new : Step, new.updatedAtMs = nowMs -> new.state = state ->
      i.waitSettlementGuard step new = true) (hverdict : verdict ≠ .suspended)
    (hcall : forall j, i.updateStep step state nowMs = .ok j -> call = .ok (verdict, j)) :
    SettlesWait nowMs step i call := by
  rcases updateStep_settles hi hlive hmem hstate hattempt hsettled hchecks hwait with
    ⟨new, hnew, hupdate, hreplaces⟩
  exact ⟨verdict, _, new, hcall _ hupdate, hverdict, hreplaces, hnew ▸ hsettled⟩

theorem consumeEvent_commits (hinbox : i.Inbox clock)
    (hconfig : step.descriptor.config = .waitEvent eventType timeoutMs)
    (hnext : i.nextEvent eventType = some e) (heligible : eligible due step.ceiling e = true) :
    SettlesWait nowMs step i (consumeEvent limits others i step e nowMs) := by
  rcases nextEvent_oldest hinbox hnext with ⟨he, _, _⟩
  rcases hinbox.valid e he with ⟨hname, hsafe⟩
  have hkind : step.descriptor.kind = .waitEvent := congrArg WorkflowDurableConfig.kind hconfig
  let envelope : WorkflowEventEnvelope := ⟨e.eventType, e.payload, e.acceptedAtMs⟩
  have hchecks : (StepState.complete none (some (.event envelope)) (some e.seq)).Checks
      step.descriptor.kind nowMs := by
    rw [hkind]
    refine ⟨⟨fun h => (by cases h), fun h => (by cases h)⟩, ⟨fun _ => .inr rfl, fun _ => rfl⟩,
      ⟨fun _ => rfl, fun _ => rfl⟩, ?_⟩
    exact decide_eq_true e.seq_pos
  have hwait : forall new : Step, new.updatedAtMs = nowMs ->
      new.state = .complete none (some (.event envelope)) (some e.seq) ->
      i.waitSettlementGuard step new = true := by
    intro new _ hnew
    unfold Instance.waitSettlementGuard
    rw [hstate, hnew, hconfig]
    exact consumptionGuard_of_oldest hinbox hnext heligible
  rcases updateStep_settles hi hlive hmem hstate rfl rfl hchecks hwait with
    ⟨new, hnew, hupdate, hreplaces⟩
  have hdelete : (i.putStep new).account.deleteEvent e.seq = .ok
      { (i.putStep new).account with events := i.events.erase e.seq }.account := by
    simp only [Instance.deleteEvent, ok_iff]
    have hrefresh : i.refreshGuard = true := refreshGuard_of_sound hi hlive
    refine ⟨?_, hrefresh, rfl⟩
    simp only [Instance.eventDeleteGuard, any_eq_true, Bool.and_eq_true, decide_eq_true_eq]
    refine ⟨new, ?_, ?_, ?_⟩
    · exact mem_replace.mpr (.inr ⟨rfl, step, hmem,
        (congrArg WorkflowStepDescriptor.ordinal hreplaces.descriptor).symm⟩)
    · rw [hreplaces.descriptor]
      exact hkind
    · rw [hnew]
      rfl
  refine ⟨.event envelope, { (i.putStep new).account with events := i.events.erase e.seq }.account,
    new, ?_, by simp,
    ⟨hmem, hreplaces.descriptor, hreplaces.updatedAt, hreplaces.attempt, rfl, rfl, rfl⟩, ?_⟩
  · simp only [consumeEvent, ok_iff]
    exact ⟨envelope, canonicalWire_commits hname hsafe, capacityChange_envelope e hlive hsafe,
      _, hupdate, _, hdelete, rfl⟩
  · rw [hnew]
    rfl

theorem expireWait_commits
    (hconfig : step.descriptor.config = .waitEvent eventType timeoutMs) (hdue : due ≤ nowMs)
    (hnone : forall e, e ∈ i.events -> e.eventType = eventType ->
      eligible due step.ceiling e = false) :
    SettlesWait nowMs step i (expireWait i step due nowMs) := by
  have hchecks : (StepState.failed none .workflowEventTimeout).Checks step.descriptor.kind nowMs :=
    ⟨fun h => (by cases h), fun h => absurd h (waiting_kind hstate)⟩
  refine settles_of_update hi hlive hmem hstate (.failed .workflowEventTimeout) rfl rfl hchecks
    ?_ nofun ?_
  · intro new hupdated hnew
    unfold Instance.waitSettlementGuard
    rw [hstate, hnew, hconfig]
    simp only [hupdated, all_eq_true, Bool.and_eq_true, decide_eq_true_eq,
      Bool.not_eq_true', Bool.and_eq_false_iff, decide_eq_false_iff_not]
    refine ⟨⟨hdue, trivial⟩, ?_⟩
    intro e he
    by_cases htype : e.eventType = eventType
    · exact .inr (hnone e he htype)
    · exact .inl htype
  · intro j hupdate
    rw [expireWait, if_pos hdue, hupdate]
    rfl

theorem settleSleep_commits (hkind : step.descriptor.kind ≠ .waitEvent) (hdue : due ≤ nowMs) :
    SettlesWait nowMs step i (settleSleep i step due nowMs) := by
  have hdo := waiting_kind hstate
  have hchecks : (StepState.complete none none none).Checks step.descriptor.kind nowMs := by
    refine ⟨⟨fun h => (by cases h), fun h => absurd h hdo⟩, ⟨fun h => (by cases h), ?_⟩,
      ⟨fun h => (by cases h), fun h => absurd h hkind⟩, rfl⟩
    intro h
    cases h with
    | inl h => exact absurd h hdo
    | inr h => exact absurd h hkind
  refine settles_of_update hi hlive hmem hstate (.complete none) rfl rfl hchecks ?_ nofun ?_
  · intro new hupdated hnew
    unfold Instance.waitSettlementGuard
    rw [hstate, hnew]
    cases hconfig : step.descriptor.config with
    | waitEvent eventType timeoutMs =>
      exact absurd (congrArg WorkflowDurableConfig.kind hconfig) hkind
    | _ =>
      rw [hupdated]
      exact decide_eq_true hdue
  · intro j hupdate
    rw [settleSleep, if_pos hdue, hupdate]
    rfl

theorem settle_commits (hinbox : i.Inbox clock) (hdue : due ≤ nowMs) :
    SettlesWait nowMs step i (settle limits others i step nowMs) := by
  unfold settle
  rw [hstate]
  cases hconfig : step.descriptor.config with
  | waitEvent eventType timeoutMs =>
    have hkind : step.descriptor.kind = .waitEvent := congrArg WorkflowDurableConfig.kind hconfig
    dsimp only
    unfold settleEventWait
    cases hnext : i.nextEvent eventType with
    | none =>
      refine expireWait_commits hi hlive hmem hstate hconfig hdue ?_
      intro e he htype
      have hnot := find?_eq_none.mp hnext e he
      rw [decide_eq_true_eq] at hnot
      exact absurd htype hnot
    | some e =>
      dsimp only
      cases heligible : eligible due step.ceiling e with
      | true =>
        exact consumeEvent_commits hi hlive hmem hstate hinbox hconfig hnext heligible
      | false =>
        refine expireWait_commits hi hlive hmem hstate hconfig hdue ?_
        rcases nextEvent_oldest hinbox hnext with ⟨he, _, holdest⟩
        rcases Option.isSome_iff_exists.mp (step.ceiling_check.left.mpr hkind) with ⟨seq, hseq⟩
        simp only [eligible, hseq, Option.any_some, Bool.or_eq_false_iff,
          decide_eq_false_iff_not, not_lt, not_le] at heligible ⊢
        intro e' he' htype'
        cases lt_or_eq_of_le (holdest e' he' htype') with
        | inl hlt =>
          have htimes := hinbox.monotone step hmem seq hseq e e' he he' heligible.right hlt
          exact ⟨le_trans heligible.left htimes, lt_trans heligible.right hlt⟩
        | inr heq =>
          rw [← eq_of_key_eq he he' heq]
          exact heligible
  | doStep config =>
    have hdo : step.descriptor.kind = .doStep := congrArg WorkflowDurableConfig.kind hconfig
    exact absurd hdo (waiting_kind hstate)
  | _ =>
    have hkind : step.descriptor.kind ≠ .waitEvent := by
      unfold WorkflowStepDescriptor.kind
      rw [hconfig]
      intro h
      cases h
    exact settleSleep_commits hi hlive hmem hstate hkind hdue

end Settlements

end Waits

/-! ## Timeouts -/

/-- What a timeout makes of an attempt, and the verdict that it returns. -/
inductive TimesOut (nowMs : Millis) (config : WorkflowStepConfig) (attempt : Attempt) :
    WorkflowStepResult -> StepState -> Prop where
  | deferred (hdynamic : config.retries.delay = none) :
      TimesOut nowMs config attempt
        (.resolveDelay attempt.number .workflowStepTimeout config)
        (.delayPending attempt .workflowStepTimeout)
  | retried {delay : Nat} (hstatic : config.retries.delay ≠ none)
      (hretries : attempt.number ≤ config.retries.limit) :
      TimesOut nowMs config attempt .suspended
        (.retryWait attempt .workflowStepTimeout delay (nowMs + delay))
  | failed (hstatic : config.retries.delay ≠ none)
      (hlast : config.retries.limit < attempt.number) :
      TimesOut nowMs config attempt (.failed .workflowStepTimeout)
        (.failed (some attempt) .workflowStepTimeout)

/-- The retry of a timed-out attempt has a time that crosses the protocol. -/
def RetrySafe (nowMs : Millis) (config : WorkflowStepConfig) (attempt : Attempt) : Prop :=
  forall delay, attempt.number ≤ config.retries.limit ->
    config.retries.delayAfter attempt.number = .ok delay -> SafeTime (nowMs + delay)

section Timeouts

variable {nowMs : Millis} {i : Instance} {step : Step} {config : WorkflowStepConfig}
  {attempt : Attempt}

theorem durableDeadline_commits {duration : Nat} (hduration : duration ≤ maxRetryDelayMs)
    (hsafe : SafeTime (nowMs + duration)) :
    durableDeadline nowMs duration = .ok (nowMs + duration) := by
  unfold SafeTime maxSafeInteger at hsafe
  unfold maxRetryDelayMs at hduration
  simp only [durableDeadline, deadline, ok_iff, checkedAdd_eq_some]
  refine ⟨nowMs + duration, ⟨?_, ?_, ?_, rfl⟩, hsafe, rfl⟩
  · unfold i64Max
    omega
  · unfold i64Min
    omega
  · unfold i64Max
    omega

theorem delayAfter_commits (hvalid : config.retries.Valid) (hstatic : config.retries.delay ≠ none) :
    exists delay, config.retries.delayAfter attempt.number = .ok delay ∧
      delay ≤ maxRetryDelayMs := by
  cases hdelay : config.retries.delay with
  | none => exact absurd hdelay hstatic
  | some delay =>
    simp only [WorkflowRetryPolicy.delayAfter, WorkflowRetryPolicy.delayAfterResolved, hdelay,
      ok_iff]
    exact ⟨_, ⟨hvalid, attempt.bounds, delay, rfl, hvalid.right delay hdelay, rfl⟩,
      min_le_right _ _⟩

theorem timeout_eq (hconfig : step.descriptor.config = .doStep config)
    (hstate : step.state = .pending (some attempt)) :
    timeout i step nowMs = if config.retries.delay = none then do
        let i ← i.updateStep step (.delayPending attempt .workflowStepTimeout) nowMs
        return (.resolveDelay attempt.number .workflowStepTimeout config, i)
      else if attempt.number ≤ config.retries.limit then do
        let delay ← config.retries.delayAfter attempt.number
        let due ← durableDeadline nowMs delay
        let i ← i.updateStep step (.retryWait attempt .workflowStepTimeout delay due) nowMs
        return (.suspended, i)
      else do
        let i ← i.updateStep step (.failed (some attempt) .workflowStepTimeout) nowMs
        return (.failed .workflowStepTimeout, i) := by
  rw [timeout, hconfig]
  dsimp only
  split
  · rename_i hdynamic
    simp only [deferDynamicFailure, hstate, hdynamic, ensure, true_and]
    rfl
  · have hretry : retries config attempt .workflowStepTimeout =
        decide (attempt.number ≤ config.retries.limit) := rfl
    simp only [fail, hconfig, hstate]
    change (if retries config attempt .workflowStepTimeout = true then _ else _) = _
    rw [hretry]
    simp only [decide_eq_true_eq]
    rfl

section Cases

variable (hi : i.Sound) (hlive : i.live = true) (hmem : step ∈ i.steps)
  (hconfig : step.descriptor.config = .doStep config)
  (hstate : step.state = .pending (some attempt)) (hdue : attempt.deadlineAtMs ≤ nowMs)

include hi hlive hmem hconfig hstate hdue

theorem updateStep_timesOut {verdict : WorkflowStepResult} {state : StepState}
    (hout : TimesOut nowMs config attempt verdict state) (hchecks : state.Checks .doStep nowMs) :
    exists new, new.state = state ∧ i.updateStep step state nowMs = .ok (i.putStep new).account ∧
      Replaces nowMs step new i (i.putStep new).account := by
  have hkind : step.descriptor.kind = .doStep := congrArg WorkflowDurableConfig.kind hconfig
  refine updateStep_commits hi hlive hmem (hkind ▸ hchecks) ?_ ?_
  · rw [hstate]
    cases hout <;> rfl
  · intro new hupdated hnew
    constructor
    · unfold Instance.stepTransitionGuard
      rw [hstate, hnew, hupdated]
      cases hout <;> simp [hdue, hlive]
    · unfold Instance.waitSettlementGuard
      rw [hstate]

theorem timeout_commits (hsafe : RetrySafe nowMs config attempt) :
    exists verdict j new, timeout i step nowMs = .ok (verdict, j) ∧
      Replaces nowMs step new i j ∧ TimesOut nowMs config attempt verdict new.state := by
  rw [timeout_eq hconfig hstate]
  by_cases hdynamic : config.retries.delay = none
  · have hout : TimesOut nowMs config attempt _ _ := TimesOut.deferred hdynamic
    rcases updateStep_timesOut hi hlive hmem hconfig hstate hdue hout rfl with
      ⟨new, hnew, hupdate, hreplaces⟩
    refine ⟨_, _, new, ?_, hreplaces, hnew ▸ hout⟩
    rw [if_pos hdynamic, hupdate]
    rfl
  rw [if_neg hdynamic]
  by_cases hretries : attempt.number ≤ config.retries.limit
  · have hvalid : config.Valid := by
      have hvalid := step.descriptor_valid.config
      rw [hconfig] at hvalid
      exact hvalid
    rcases @delayAfter_commits config attempt hvalid.left hdynamic with ⟨delay, hdelay, hle⟩
    have hout : TimesOut nowMs config attempt _ (.retryWait attempt _ delay (nowMs + delay)) :=
      TimesOut.retried hdynamic hretries
    rcases updateStep_timesOut hi hlive hmem hconfig hstate hdue hout ⟨rfl, hle, rfl⟩ with
      ⟨new, hnew, hupdate, hreplaces⟩
    refine ⟨_, _, new, ?_, hreplaces, hnew ▸ hout⟩
    simp only [if_pos hretries, ok_iff]
    exact ⟨delay, hdelay, _, durableDeadline_commits hle (hsafe delay hretries hdelay), _, hupdate,
      rfl⟩
  · have hout : TimesOut nowMs config attempt _ _ :=
      TimesOut.failed hdynamic (Nat.not_le.mp hretries)
    rcases updateStep_timesOut hi hlive hmem hconfig hstate hdue hout
      ⟨fun _ => rfl, fun _ => rfl⟩ with ⟨new, hnew, hupdate, hreplaces⟩
    refine ⟨_, _, new, ?_, hreplaces, hnew ▸ hout⟩
    rw [if_neg hretries, hupdate]
    rfl

end Cases

end Timeouts

theorem Instance.Sound.noCallbacks {i : Instance} (hi : i.Sound) (hrun : i.runToken = none) :
    i.anyStep StepState.isRunning = false := by
  rw [anyStep_eq_false]
  intro s hs
  cases hstate : s.state with
  | running attempt run token =>
    have htoken := hi.held s hs attempt run token hstate
    rw [hrun] at htoken
    cases htoken
  | _ => rfl

end Workflow
end OpenCompute
