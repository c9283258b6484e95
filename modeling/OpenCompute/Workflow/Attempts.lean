import OpenCompute.Workflow.Evolution

/-!
# Attempts

The attempt of a `do` step is a number with a start and a deadline.  Only a
grant that starts a fresh attempt changes it.  What the triggers say about one
update carries over to a whole call, and what a call does to the answers of a
group is followed through its loop.
-/

namespace OpenCompute
namespace Workflow

open Relational Table Transaction Transition List Function

def attemptOf (s : Option Step) : Option Attempt := s.bind fun s => s.state.attempt

/-- The state of a step, which is about to be registered where it is absent. -/
def stateOf (s : Option Step) : StepState := s.elim (.pending none) Step.state

theorem stateOf_attempt (s : Option Step) : (stateOf s).attempt = attemptOf s := by
  cases s <;> rfl

/-- A step waits for its first attempt, or for the next one, which is due. -/
def StepState.AwaitsAttempt (nowMs : Millis) : StepState -> Prop
  | pending none => True
  | retryWait _ _ _ due => due ≤ nowMs
  | _ => False

/-! ## Updates -/

section Updates

variable {p : Permits} {nowMs : Millis} {i j : Instance} {old new : Step}

/-- A fresh attempt after a state that awaits one, as the policy of the step has it. -/
structure FreshAttempt (nowMs : Millis) (config : WorkflowStepConfig)
    (before : StepState) (attempt : Attempt) : Prop where
  awaited : before.AwaitsAttempt nowMs
  number : attempt.number = before.attempt.elim 0 Attempt.number + 1
  limit : attempt.number ≤ config.retries.limit + 1
  started : attempt.startedAtMs = nowMs
  deadline : attempt.deadlineAtMs = nowMs + config.timeout

theorem StepUpdate.attempt_cases (hupdate : StepUpdate p nowMs i old new) :
    new.state.attempt = old.state.attempt ∨ (new.state.isRunning = true ∧ exists config attempt,
        new.descriptor.config = .doStep config ∧ new.state.attempt = some attempt ∧
        FreshAttempt nowMs config old.state attempt) := by
  have hguard := hupdate.attempt
  unfold stepAttemptGuard at hguard
  rw [Bool.or_eq_true, decide_eq_true_eq] at hguard
  cases hguard with
  | inl hsame => exact .inl hsame
  | inr hnext =>
    split at hnext
    · rename_i config attempt run token hconfig hstate
      simp only [Bool.and_eq_true, decide_eq_true_eq] at hnext
      rcases hnext with ⟨⟨⟨⟨hnumber, hawaited⟩, hstarted⟩, hdeadline⟩, hlimit⟩
      rw [hupdate.updatedAt] at hstarted hawaited
      rw [hstarted] at hdeadline
      have hawaits : old.state.AwaitsAttempt nowMs := by
        split at hawaited
        · rename_i hold
          rw [hold]
          trivial
        · rename_i hold
          rw [hold]
          exact (of_decide_eq_true hawaited : _ ≤ nowMs)
        · cases hawaited
      rw [hstate]
      refine .inr ⟨rfl, config, attempt, hconfig, rfl, hawaits, hnumber, ?_, hstarted, hdeadline⟩
      rw [Nat.add_comm]
      exact hlimit
    · cases hnext

/-- A `do` step is completed by the run that holds its attempt, before the deadline. -/
theorem StepUpdate.success (hupdate : StepUpdate p nowMs i old new)
    {config : WorkflowStepConfig} (hconfig : new.descriptor.config = .doStep config)
    (hcomplete : new.state.isComplete = true) :
    exists attempt, new.state.attempt = some attempt ∧ nowMs < attempt.deadlineAtMs := by
  have hattempt : new.state.attempt = old.state.attempt := by
    cases hupdate.attempt_cases with
    | inl hsame => exact hsame
    | inr hnext =>
      cases hstate : new.state with
      | complete attempt output consumed =>
        rw [hstate] at hnext
        cases hnext.left
      | _ =>
        rw [hstate] at hcomplete
        cases hcomplete
  have hkind : old.descriptor.kind = .doStep := by
    show old.descriptor.config.kind = _
    rw [← hupdate.descriptor, hconfig]
    rfl
  have hguard := hupdate.transition
  unfold Instance.stepTransitionGuard at hguard
  cases hnew : new.state with
  | complete attempt output consumed =>
    rw [hnew] at hguard hattempt
    cases hold : old.state with
    | running held token step =>
      rw [hold] at hguard hattempt
      simp only [Bool.and_eq_true, decide_eq_true_eq, hupdate.updatedAt] at hguard
      exact ⟨held, hattempt, hguard.left⟩
    | waiting due =>
      have hchecks := old.checks
      rw [hold] at hchecks
      exact absurd hkind hchecks
    | _ =>
      rw [hold] at hguard
      cases hguard
  | _ =>
    rw [hnew] at hcomplete
    cases hcomplete

theorem StepRegistration.initial (hregistration : StepRegistration p i new) :
    new.state.attempt = none ∧ new.state.isComplete = false ∧ new.state.isFailed = false := by
  have hguard := hregistration.guard
  simp only [Instance.stepInsertGuard, Bool.and_eq_true, decide_eq_true_eq] at hguard
  rcases hguard with ⟨⟨⟨⟨⟨⟨_, hattempt⟩, hstate⟩, _⟩, _⟩, _⟩, _⟩
  refine ⟨hattempt, ?_⟩
  cases hnew : new.state with
  | complete attempt output consumed | failed attempt code =>
    rw [hnew] at hstate
    split at hstate <;> cases hstate
  | _ => exact ⟨rfl, rfl⟩

/-! ## Sequences of writes -/

variable {k : Nat}

theorem Writes.frame (hwrites : Writes p nowMs i j) (htouches : ¬ p.touches k)
    (hregisters : ¬ p.registers) : j.steps.find? k = i.steps.find? k := by
  refine hwrites.row (P := fun row => row = i.steps.find? k) ?_ ?_ rfl
  · intro l old new hordinal hupdate _
    exact absurd (hordinal ▸ hupdate.touches) htouches
  · intro l new hregistration _
    exact absurd hregistration.registers hregisters

theorem Writes.kept (hwrites : Writes p nowMs i j) {s : Step} (hfind : i.steps.find? k = some s)
    (htouches : ¬ p.touches k) : j.steps.find? k = some s := by
  refine hwrites.row (P := fun row => row = some s) ?_ ?_ hfind
  · intro l old new hordinal hupdate _
    exact absurd (hordinal ▸ hupdate.touches) htouches
  · intro l new _ hnone
    cases hnone

theorem Writes.attempt (hwrites : Writes p nowMs i j) (hstarts : ¬ p.starts) (k : Nat) :
    attemptOf (j.steps.find? k) = attemptOf (i.steps.find? k) := by
  refine hwrites.row (P := fun row => attemptOf row = attemptOf (i.steps.find? k)) ?_ ?_ rfl
  · intro l old new _ hupdate hold
    rw [← hold]
    cases hupdate.attempt_cases with
    | inl hsame => exact hsame
    | inr hnext => exact absurd (hupdate.starts hnext.left) hstarts
  · intro l new hregistration hnone
    rw [← hnone]
    exact hregistration.initial.left

/-- A settled `do` step was settled before, or within its deadline and for a good reason. -/
structure SettledWell (reports : ErrorCode -> Prop) (nowMs : Millis) (before : Option Step)
    (t : Step) : Prop where
  success : forall config, t.descriptor.config = .doStep config ->
    t.state.isComplete = true -> before = some t ∨
      exists attempt, t.state.attempt = some attempt ∧ nowMs < attempt.deadlineAtMs
  failure : t.state.isFailed = true -> before = some t ∨
    FailsFor reports t.descriptor.config t.state

theorem Writes.settledWell (hwrites : Writes p nowMs i j) {t : Step}
    (hfind : j.steps.find? k = some t) : SettledWell p.reports nowMs (i.steps.find? k) t := by
  refine hwrites.row (P := fun row => forall t, row = some t ->
    SettledWell p.reports nowMs (i.steps.find? k) t) ?_ ?_ ?_ t hfind
  · intro l old new _ hupdate _ t ht
    cases ht
    exact ⟨fun config hconfig hcomplete => .inr (hupdate.success hconfig hcomplete),
      fun _ => .inr hupdate.fails⟩
  · intro l new hregistration _ t ht
    cases ht
    rcases hregistration.initial with ⟨_, hcomplete, hfailed⟩
    constructor
    · intro config _ h
      rw [hcomplete] at h
      cases h
    · intro h
      rw [hfailed] at h
      cases h
  · intro t ht
    exact ⟨fun _ _ _ => .inl ht, fun _ => .inl ht⟩

end Updates

/-! ## Answers of a group -/

structure FreshGrant (nowMs : Millis) (d : WorkflowStepDescriptor) (grant : WorkflowStepGrant)
    (before after : Option Step) (attempt : Attempt) : Prop where
  after : attemptOf after = some attempt
  granted : exists token duration config,
    grant = .run token attempt.number duration config ∧ d.config = .doStep config ∧
      FreshAttempt nowMs config (stateOf before) attempt

structure Answer (nowMs : Millis) (d : WorkflowStepDescriptor) (grant : WorkflowStepGrant)
    (before after : Option Step) : Prop where
  attempt : attemptOf after = attemptOf before ∨
    exists attempt, FreshGrant nowMs d grant before after attempt
  due : grant.isRun = true -> forall step due, before = some step ->
    step.state.due = some due -> due ≤ nowMs
  resumed : forall step token number duration config, before = some step ->
    grant = .run token number duration config -> step.state.isRunning = true ∨
      exists attempt, number = attempt.number ∧ attemptOf after = some attempt ∧
        step.state.ResumesAs nowMs attempt duration

section Answers

variable {c : GrantContext} {g g' : Granting} {step : Step} {grant : WorkflowStepGrant}
  {nowMs : Millis} {d : WorkflowStepDescriptor}

theorem Answer.of_same {before after : Option Step} (hsame : attemptOf after = attemptOf before)
    (hrun : grant.isRun = false) : Answer nowMs d grant before after := by
  refine ⟨.inl hsame, ?_, ?_⟩
  · intro h
    rw [hrun] at h
    cases h
  · rintro _ _ _ _ _ _ rfl
    cases hrun

theorem due_of_isRunning {state : StepState} (hrunning : state.isRunning = true) :
    state.due = none := by
  cases state <;> first | rfl | cases hrunning

theorem Granted.answers (hmem : step ∈ g.current.steps) (hgranted : Granted c g step g') :
    exists grant, g'.grants = g.grants ++ [grant] ∧
      Answer c.nowMs step.descriptor grant (some step)
        (g'.current.steps.find? step.ordinal) := by
  cases hgranted with
  | told hgrants hwrites hrunning =>
    refine ⟨_, hgrants, .inl ?_, ?_, ?_⟩
    · rw [← find?_key hmem]
      exact (hwrites (p := settling) ⟨hmem, trivial⟩).attempt (fun h => h) step.ordinal
    · intro hrun s due hs hsome
      cases hs
      rw [due_of_isRunning (hrunning hrun)] at hsome
      cases hsome
    · rintro s _ _ _ _ ⟨⟩ rfl
      exact .inl (hrunning rfl)
  | started hgrants hconfig hupdate hdue hrecovered =>
    rcases started_update (p := granting) trivial ⟨hmem, trivial⟩ hupdate with
      ⟨new, hstate, hrow, hcurrent⟩
    have hordinal : step.ordinal = new.ordinal :=
      (congrArg WorkflowStepDescriptor.ordinal hrow.descriptor).symm
    have hfind : (g.current.steps.replace new).find? step.ordinal = some new := by
      rw [find?_replace hmem hordinal, if_pos hordinal]
    rw [hcurrent]
    refine ⟨_, hgrants, ?_, ?_, ?_⟩
    · change attemptOf ((g.current.steps.replace new).find? _) = _ ∨ exists attempt,
        FreshGrant _ _ _ _ ((g.current.steps.replace new).find? _) attempt
      rw [hfind]
      rcases hrow.attempt_cases with hsame | ⟨_, _, _, hconfig', hattempt, hfresh⟩
      · exact .inl hsame
      · rw [hrow.descriptor, hconfig] at hconfig'
        rw [hstate] at hattempt
        cases hconfig'
        cases hattempt
        exact .inr ⟨_, congrArg StepState.attempt hstate, _, _, _, rfl, hconfig, hfresh⟩
    · intro _ s due hs hsome
      cases hs
      rw [hsome] at hdue
      exact not_lt.mp (of_decide_eq_false hdue)
    · rintro s _ _ _ _ ⟨⟩ ⟨⟩
      refine .inr ⟨_, rfl, ?_, hrecovered⟩
      change attemptOf ((g.current.steps.replace new).find? _) = _
      rw [hfind]
      exact congrArg StepState.attempt hstate

def grantingOne (ordinal : Nat) : Permits :=
  ⟨fun k => k = ordinal, False, True, False, fun _ => False, fun _ => False⟩

theorem grantStep_answers (hgrant : c.grantStep g d = .ok g') :
    exists grant v, g'.grants = g.grants ++ [grant] ∧
      g'.current.steps.find? = update g.current.steps.find? d.ordinal v ∧
      Answer c.nowMs d grant (g.current.steps.find? d.ordinal) v := by
  have hframe : g'.current.steps.find? = update g.current.steps.find? d.ordinal
      (g'.current.steps.find? d.ordinal) := by
    funext k
    by_cases hk : k = d.ordinal
    · rw [hk, update_self]
    · rw [update_of_ne hk]
      have hwrites : Writes (grantingOne d.ordinal) c.nowMs g.current g'.current :=
        grantStep_writes trivial rfl hgrant
      exact hwrites.frame hk (fun h => h)
  rcases grantStep_granted hgrant with ⟨_, hfind, rfl, hgranted⟩
  rcases hgranted.answers (mem_of_find? hfind) with ⟨grant, hgrants, hanswer⟩
  rw [hfind]
  exact ⟨grant, _, hgrants, hframe, hanswer⟩

end Answers

/-! ## A call for a group -/

variable {first : WorkflowStepDescriptor} {descriptors : List WorkflowStepDescriptor}

theorem validateGroupFrom_ordinals {size index : Nat} {u : Unit}
    (hvalid : validateGroupFrom first size index descriptors = .ok u) :
    descriptors.map WorkflowStepDescriptor.ordinal =
      range' (first.ordinal + index) descriptors.length := by
  induction descriptors generalizing index with
  | nil => rfl
  | cons d rest ih =>
    simp only [validateGroupFrom, ok_iff] at hvalid
    rcases hvalid with ⟨_, hshape, hrest⟩
    rw [map_cons, ih hrest, hshape.left, length_cons, range'_succ, Nat.add_assoc]

section Groups

variable {limits : WorkflowsConfig} {others : Usage} {fence : WorkflowFence}
  {descriptors : List WorkflowStepDescriptor} {first : WorkflowStepDescriptor}
  {remainingMs : Nat} {nowMs : Millis} {tokens : List WorkflowToken}
  {grants : List WorkflowStepGrant} {i j : Instance}

structure GroupAnswers (nowMs : Millis) (descriptors : List WorkflowStepDescriptor)
    (grants : List WorkflowStepGrant) (i j : Instance) : Prop where
  length : grants.length = descriptors.length
  others : forall k, ¬ k ∈ descriptors.map WorkflowStepDescriptor.ordinal ->
    attemptOf (j.steps.find? k) = attemptOf (i.steps.find? k)
  answers : forall d grant, (d, grant) ∈ descriptors.zip grants ->
    Answer nowMs d grant (i.steps.find? d.ordinal) (j.steps.find? d.ordinal)

theorem GroupAnswers.of_same {grant : WorkflowStepGrant} (hrun : grant.isRun = false) :
    GroupAnswers nowMs descriptors (descriptors.map fun _ => grant) i i := by
  refine ⟨length_map _, fun _ _ => rfl, ?_⟩
  intro d other hzip
  rcases mem_map.mp (of_mem_zip hzip).right with ⟨_, _, rfl⟩
  exact Answer.of_same rfl hrun

theorem grantGroup_answers (hnodup : (descriptors.map WorkflowStepDescriptor.ordinal).Nodup)
    (hgrant : grantGroup limits others fence first descriptors remainingMs nowMs tokens i =
      .ok (grants, j)) : GroupAnswers nowMs descriptors grants i j := by
  rcases grantGroup_eq_ok hgrant with ⟨registered, g, _, hregister, hfold, hyield, hbeat, rfl⟩
  have hregistered : Writes registering nowMs i registered := by
    cases hregister with
    | inl hnew => exact registerGroup_writes trivial hnew.right
    | inr hknown =>
      rw [hknown.right]
      exact Writes.refl i
  have hleased : Writes leasing nowMs g.current j := by
    refine Writes.trans ?_ (heartbeat_writes hbeat)
    cases hyield with
    | inl hrequest => exact requestYield_writes hrequest
    | inr hsame =>
      rw [hsame]
      exact Writes.refl g.current
  have hrows : forall k, j.steps.find? k = g.current.steps.find? k :=
    fun k => hleased.frame (fun h => h) (fun h => h)
  have hbefore : forall k, attemptOf (registered.steps.find? k) = attemptOf (i.steps.find? k) :=
    fun k => hregistered.attempt (fun h => h) k
  rcases foldlM_answers (fun g : Granting => g.current.steps.find?) Granting.grants
    (Answer nowMs) (fun d a b _ hd => grantStep_answers hd) hnodup rfl hfold with
    ⟨hlength, hothers, hanswers⟩
  refine ⟨hlength, ?_, ?_⟩
  · intro k hk
    rw [hrows, hothers k hk]
    exact hbefore k
  · intro d grant hzip
    have hanswer := hanswers d grant hzip
    rw [hrows]
    have hkept : forall step, i.steps.find? d.ordinal = some step ->
        registered.steps.find? d.ordinal = some step :=
      fun step hstep => hregistered.kept hstep (fun h => h)
    refine ⟨?_, ?_, ?_⟩
    · cases hanswer.attempt with
      | inl hsame => exact .inl (hsame.trans (hbefore d.ordinal))
      | inr hfresh =>
        rcases hfresh with ⟨attempt, hafter, token, duration, config, hrun, hconfig, hpolicy⟩
        refine .inr ⟨attempt, hafter, token, duration, config, hrun, hconfig, ?_, ?_,
          hpolicy.limit, hpolicy.started, hpolicy.deadline⟩
        · cases hstep : i.steps.find? d.ordinal with
          | none => trivial
          | some step =>
            rw [← hkept step hstep]
            exact hpolicy.awaited
        · rw [stateOf_attempt, ← hbefore d.ordinal, ← stateOf_attempt]
          exact hpolicy.number
    · intro hrun step due hstep hdue
      exact hanswer.due hrun step due (hkept step hstep) hdue
    · intro step token number duration config hstep hgrant
      exact hanswer.resumed step token number duration config (hkept step hstep) hgrant

theorem claimBatch_answers (hfirst : validateGroup limits descriptors remainingMs = .ok first)
    (hclaim : claimBatch limits others fence descriptors first remainingMs nowMs tokens i =
      .ok (grants, j)) : GroupAnswers nowMs descriptors grants i j := by
  simp only [claimBatch, ok_iff, ite_eq_iff] at hclaim
  rcases hclaim with ⟨_, ⟨⟩⟩ | ⟨_, _, ⟨_, ⟨⟩⟩ | ⟨_, hclaim⟩⟩
  · exact GroupAnswers.of_same rfl
  · exact GroupAnswers.of_same rfl
  · simp only [validateGroup, ok_iff] at hfirst
    rcases hfirst with ⟨_, _, _, hgroup, _⟩
    refine grantGroup_answers ?_ hclaim
    rw [validateGroupFrom_ordinals hgroup]
    exact nodup_range'

end Groups

/-! ## Every run -/

/-- The attempts of an instance keep to the policies of its steps. -/
def Instance.WithinPolicy (i : Instance) : Prop :=
  forall t, t ∈ i.steps -> forall config attempt, t.descriptor.config = .doStep config ->
    t.state.attempt = some attempt -> attempt.number ≤ config.retries.limit + 1 ∧
      attempt.deadlineAtMs = attempt.startedAtMs + config.timeout

theorem Write.withinPolicy {p : Permits} {nowMs : Millis} {i j : Instance}
    (hwrite : Write p nowMs i j) (hi : i.WithinPolicy) : j.WithinPolicy := by
  intro t ht config attempt hconfig hattempt
  cases hwrite.mem_cases ht with
  | inl hold => exact hi t hold config attempt hconfig hattempt
  | inr hchanged =>
    cases hchanged with
    | inl hupdated =>
      rcases hupdated with ⟨old, hupdate⟩
      cases hupdate.attempt_cases with
      | inl hsame =>
        rw [hsame] at hattempt
        rw [hupdate.descriptor] at hconfig
        exact hi old hupdate.mem config attempt hconfig hattempt
      | inr hnext =>
        rcases hnext with ⟨_, _, _, hconfig', hattempt', hfresh⟩
        rw [hconfig] at hconfig'
        rw [hattempt] at hattempt'
        cases hconfig'
        cases hattempt'
        refine ⟨hfresh.limit, ?_⟩
        rw [hfresh.deadline, hfresh.started]
    | inr hregistration =>
      rw [hregistration.initial.left] at hattempt
      cases hattempt

theorem freshState_initial (config : WorkflowDurableConfig) (nowMs : Millis) :
    (freshState config nowMs).attempt = none ∧ (freshState config nowMs).isComplete = false ∧
      (freshState config nowMs).isFailed = false := by
  cases config <;> exact ⟨rfl, rfl, rfl⟩

theorem apply_withinPolicy {env : Environment} {a : Action} {s s' : Store}
    (happly : a.apply env s = .ok s') (hs : forall i, i ∈ s.instances -> i.WithinPolicy) :
    forall i, i ∈ s'.instances -> i.WithinPolicy := by
  refine (apply_effect happly).forall_instances hs ?_ ?_ ?_
  · intro c p _ t ht
    cases ht
  · intro others i j hcall hi
    exact hcall.writes.invariant (fun _ _ hwrite hk => hwrite.withinPolicy hk) hi
  · intro operation nowMs limits projection i j _ hrun hi t ht config attempt hconfig hattempt
    rcases restartRun_steps hrun ht with ⟨_, hold, _, hkept | hfresh⟩
    · rcases hkept with ⟨rfl, _⟩
      exact hi t hold config attempt hconfig hattempt
    · rw [hfresh.right.right, (freshState_initial _ _).left] at hattempt
      cases hattempt

/-! ## One call -/

/-- A call that granted a fresh attempt of a step. -/
def GrantedBy (a : Action) (s s' : Store) (id : WorkflowInstanceId) (ordinal : Nat)
    (attempt : Attempt) : Prop :=
  exists fence descriptors remainingMs nowMs limits tokens grants d grant,
    a = .claimBatch fence descriptors remainingMs nowMs limits tokens ∧
    fence.instanceId = id ∧
    claimWorkflowBatch s fence descriptors remainingMs nowMs limits tokens = .ok (grants, s') ∧
    (d, grant) ∈ descriptors.zip grants ∧ d.ordinal = ordinal ∧
    FreshGrant nowMs d grant (s.step id ordinal) (s'.step id ordinal) attempt

/-- The step belongs to a generation that a restart or a purge ended. -/
structure Restarts (a : Action) (s s' : Store) (id : WorkflowInstanceId) (ordinal : Nat) :
    Prop where
  action : a.operatesOn id
  generation : s'.generation id ≠ s.generation id
  attempt : attemptOf (s'.step id ordinal) = none

/-- A `do` step that a call settled, or that was settled before. -/
structure SettledBy (a : Action) (before : Option Step) (t : Step) : Prop where
  success : forall config, t.descriptor.config = .doStep config ->
    t.state.isComplete = true -> before = some t ∨
      exists attempt nowMs, t.state.attempt = some attempt ∧ a.nowMs = some nowMs ∧
        nowMs < attempt.deadlineAtMs
  failure : t.state.isFailed = true -> before = some t ∨
    FailsFor a.permits.reports t.descriptor.config t.state

/-- What one call may do to the attempt of one step. -/
structure AttemptStep (a : Action) (s s' : Store) (id : WorkflowInstanceId)
    (ordinal : Nat) : Prop where
  attempt : attemptOf (s'.step id ordinal) = attemptOf (s.step id ordinal) ∨
    (exists attempt, GrantedBy a s s' id ordinal attempt) ∨
    Restarts a s s' id ordinal
  success : forall t config, s'.step id ordinal = some t ->
    t.descriptor.config = .doStep config -> t.state.isComplete = true ->
    s.step id ordinal = some t ∨
      exists attempt nowMs, t.state.attempt = some attempt ∧ a.nowMs = some nowMs ∧
        nowMs < attempt.deadlineAtMs
  failure : forall t config code attempt, s'.step id ordinal = some t ->
    t.descriptor.config = .doStep config -> t.state = .failed attempt code ->
    s.step id ordinal = some t ∨
      (exists last, attempt = some last ∧ last.number = config.retries.limit + 1) ∨
      (code ≠ .workflowExecutionFailed ∧ code ≠ .workflowStepTimeout ∧
        (code = .workflowStepRetriesExhausted -> a.permits.reports code))

section Calls

variable {env : Environment} {a : Action} {s s' : Store}

theorem Calls.settledBy {i j : Instance} (hcalls : Calls a i j) {k : Nat} {t : Step}
    (hfind : j.steps.find? k = some t) : SettledBy a (i.steps.find? k) t := by
  refine hcalls.invariant (P := fun l => forall t, l.steps.find? k = some t ->
    SettledBy a (i.steps.find? k) t) ?_ ?_ t hfind
  · intro others l m hcall hl t ht
    have hsettled := hcall.writes.settledWell ht
    constructor
    · intro config hconfig hcomplete
      cases hsettled.success config hconfig hcomplete with
      | inl hsame => exact (hl t hsame).success config hconfig hcomplete
      | inr hnew =>
        rcases hnew with ⟨attempt, hattempt, hlt⟩
        rcases hcall.writesAt_ge with ⟨nowMs, hnow, hle⟩
        exact .inr ⟨attempt, nowMs, hattempt, hnow, lt_of_le_of_lt hle hlt⟩
    · intro hfailed
      cases hsettled.failure hfailed with
      | inl hsame => exact (hl t hsame).failure hfailed
      | inr hnew => exact .inr hnew
  · intro t ht
    exact ⟨fun _ _ _ => .inl ht, fun _ => .inl ht⟩

theorem apply_settledBy (happly : a.apply env s = .ok s') {id : WorkflowInstanceId}
    {ordinal : Nat} {t : Step} (hstep : s'.step id ordinal = some t) :
    SettledBy a (s.step id ordinal) t := by
  rcases (apply_effect happly).step id ordinal with
    ⟨_, _, hcalls, hbefore, hafter⟩ | hsame | ⟨_, _, hfresh⟩
  · rw [hafter] at hstep
    rw [hbefore]
    exact hcalls.settledBy hstep
  · rw [← hsame, hstep]
    exact ⟨fun _ _ _ => .inl rfl, fun _ => .inl rfl⟩
  · rcases hfresh t hstep with ⟨config, nowMs, hstate⟩
    rcases freshState_initial config nowMs with ⟨_, hcomplete, hfailed⟩
    rw [← hstate] at hcomplete hfailed
    constructor
    · intro _ _ h
      rw [hcomplete] at h
      cases h
    · intro h
      rw [hfailed] at h
      cases h

end Calls

section Accounting

variable {env : Environment} {a : Action} {s s' : Store}

theorem claimWorkflowBatch_step {fence : WorkflowFence}
    {descriptors : List WorkflowStepDescriptor} {remainingMs : Nat} {nowMs : Millis}
    {limits : WorkflowsConfig} {tokens : List WorkflowToken} {grants : List WorkflowStepGrant}
    (hclaim : claimWorkflowBatch s fence descriptors remainingMs nowMs limits tokens =
      .ok (grants, s')) :
    (forall id ordinal, id ≠ fence.instanceId -> s'.step id ordinal = s.step id ordinal) ∧
    exists i j, GroupAnswers nowMs descriptors grants i j ∧ forall ordinal,
      s.step fence.instanceId ordinal = i.steps.find? ordinal ∧
      s'.step fence.instanceId ordinal = j.steps.find? ordinal := by
  simp only [claimWorkflowBatch, ok_iff, WorkflowsConfig.validate_eq_ok] at hclaim
  rcases hclaim with ⟨_, _, hfirst, i, hrunning, ⟨_, j⟩, hrun, heq⟩
  cases heq
  rcases running_eq_ok.mp hrunning with ⟨hfind, _, _⟩
  have hid : i.id = fence.instanceId := key_of_find? hfind
  have hwrites : Writes granting nowMs i j :=
    claimBatch_writes trivial trivial (fun _ => trivial) hrun
  have hput := find?_put hfind
    ((congrArg WorkflowInstanceIdentity.instanceId hwrites.identity).trans hid)
  constructor
  · intro id ordinal hne
    unfold Store.step
    rw [hput, if_neg hne]
  · refine ⟨i, j, claimBatch_answers hfirst hrun, ?_⟩
    intro ordinal
    refine ⟨step_of_find? hfind ordinal, step_of_find? ?_ ordinal⟩
    rw [hput, if_pos rfl]

theorem apply_attempt_cases (happly : a.apply env s = .ok s') (id : WorkflowInstanceId)
    (ordinal : Nat) :
    attemptOf (s'.step id ordinal) = attemptOf (s.step id ordinal) ∨
      (exists attempt, GrantedBy a s s' id ordinal attempt) ∨ Restarts a s s' id ordinal := by
  by_cases hstarts : a.permits.starts
  · cases a with
    | claimBatch fence descriptors remainingMs nowMs limits tokens =>
      rcases map_eq_ok.mp happly with ⟨⟨grants, t⟩, hclaim, rfl⟩
      rcases claimWorkflowBatch_step hclaim with ⟨hothers, i, j, hgroup, hrows⟩
      by_cases hid : id = fence.instanceId
      · subst hid
        by_cases hordinal : ordinal ∈ descriptors.map WorkflowStepDescriptor.ordinal
        · rcases mem_map.mp hordinal with ⟨d, hd, rfl⟩
          rw [← map_fst_zip (Nat.le_of_eq hgroup.length.symm)] at hd
          rcases mem_map.mp hd with ⟨⟨d, grant⟩, hzip, rfl⟩
          have hanswer := hgroup.answers d grant hzip
          rw [← (hrows d.ordinal).left, ← (hrows d.ordinal).right] at hanswer
          cases hanswer.attempt with
          | inl hsame => exact .inl hsame
          | inr hfresh =>
            rcases hfresh with ⟨attempt, hfresh⟩
            exact .inr (.inl ⟨attempt, fence, descriptors, remainingMs, nowMs, limits,
              tokens, grants, d, grant, rfl, rfl, hclaim, hzip, rfl, hfresh⟩)
        · rw [(hrows ordinal).left, (hrows ordinal).right]
          exact .inl (hgroup.others ordinal hordinal)
      · rw [hothers id ordinal hid]
        exact .inl rfl
    | _ => cases hstarts
  · rcases (apply_effect happly).step id ordinal with
      ⟨i, _, hcalls, hbefore, hafter⟩ | hsame | ⟨hoperates, hgeneration, hfresh⟩
    · rw [hbefore, hafter]
      refine .inl (hcalls.invariant (P := fun l => attemptOf (l.steps.find? ordinal) =
        attemptOf (i.steps.find? ordinal)) ?_ rfl)
      intro others l m hcall hl
      rw [hcall.writes.attempt hstarts ordinal, hl]
    · rw [hsame]
      exact .inl rfl
    · refine .inr (.inr ⟨hoperates, hgeneration, ?_⟩)
      cases hstep : s'.step id ordinal with
      | none => rfl
      | some t =>
        rcases hfresh t hstep with ⟨config, nowMs, hstate⟩
        show t.state.attempt = none
        rw [hstate]
        exact (freshState_initial config nowMs).left

theorem apply_attemptStep (happly : a.apply env s = .ok s')
    (hpolicy : forall i, i ∈ s'.instances -> i.WithinPolicy) (id : WorkflowInstanceId)
    (ordinal : Nat) : AttemptStep a s s' id ordinal := by
  refine ⟨apply_attempt_cases happly id ordinal, ?_, ?_⟩
  · intro t config hstep hconfig hcomplete
    exact (apply_settledBy happly hstep).success config hconfig hcomplete
  · intro t config code attempt hstep hconfig hstate
    have hfailed : t.state.isFailed = true := by
      rw [hstate]
      rfl
    cases (apply_settledBy happly hstep).failure hfailed with
    | inl hsame => exact .inl hsame
    | inr hfails =>
      have hkind : t.descriptor.kind = .doStep := by
        show t.descriptor.config.kind = _
        rw [hconfig]
        rfl
      have hchecks := t.checks
      rw [hstate] at hchecks
      rcases Option.isSome_iff_exists.mp (hchecks.mpr hkind) with ⟨last, rfl⟩
      rw [hconfig, hstate] at hfails
      cases hfails with
      | inl hlast =>
        refine .inr (.inl ⟨last, rfl, ?_⟩)
        rcases Option.bind_eq_some_iff.mp hstep with ⟨i, hi, ht⟩
        have hbound := (hpolicy i (mem_of_find? hi) t
          (mem_of_find? ht) config last hconfig (by rw [hstate]; rfl)).left
        exact Nat.le_antisymm hbound hlast
      | inr hcode => exact .inr (.inr hcode)

end Accounting

/--
In every run, whatever its calls were: attempts keep to the policy of their
step, a call changes an attempt only by granting the next one to a step that
awaits it, settles a step within its deadline and policy, grants no retry before
it is due and resumes a recovered attempt under its number and deadline.
-/
theorem attempt_accounting {env : Environment} {owner : Uuid} {clock : Millis}
    {actions : List Action} {w : World} (hrun : History env owner clock actions w) :
    (forall i, i ∈ w.store.instances -> i.WithinPolicy) ∧
    (forall a w', w.next env a = some w' -> forall id ordinal,
      AttemptStep a w.store w'.store id ordinal) ∧
    (forall fence descriptors remainingMs nowMs limits tokens grants s',
      claimWorkflowBatch w.store fence descriptors remainingMs nowMs limits tokens =
        .ok (grants, s') ->
      forall d grant, (d, grant) ∈ descriptors.zip grants ->
        Answer nowMs d grant (w.store.step fence.instanceId d.ordinal)
          (s'.step fence.instanceId d.ordinal)) := by
  have hpolicy : forall i, i ∈ w.store.instances -> i.WithinPolicy :=
    history_instances apply_withinPolicy hrun
  refine ⟨hpolicy, ?_, ?_⟩
  · intro a w' hnext id ordinal
    rcases next_eq_some.mp hnext with ⟨_, s, happly, rfl⟩
    exact apply_attemptStep happly (apply_withinPolicy happly hpolicy) id ordinal
  · intro fence descriptors remainingMs nowMs limits tokens grants s' hclaim d grant hzip
    rcases claimWorkflowBatch_step hclaim with ⟨_, i, j, hgroup, hrows⟩
    rw [(hrows d.ordinal).left, (hrows d.ordinal).right]
    exact hgroup.answers d grant hzip

namespace Sample

def retried : List Action :=
  [create, claim 0 11, start [single 0 "a" (.doStep config)] 1 11 [12],
    .settle (fence 11) ⟨0, 1, 12⟩ (.failure .workflowExecutionFailed) 2 limits,
    .yield (fence 11) 3, .maintain 1002 limits 10, claim 1002 13,
    start [single 0 "a" (.doStep config)] 1003 13 [14]]

end Sample

open Sample in
theorem attempt_accounting_retried : exists w, History environment 7 0 retried w ∧
    (attemptOf (w.store.step 5 0)).map Attempt.number = some 2 ∧
    (forall i, i ∈ w.store.instances -> i.WithinPolicy) ∧
    forall a w', w.next environment a = some w' -> forall id ordinal,
      AttemptStep a w.store w'.store id ordinal :=
  exists_run_with (fun _ hrun =>
    ⟨(attempt_accounting hrun).left, (attempt_accounting hrun).right.left⟩) (by decide +kernel)

end Workflow
end OpenCompute
