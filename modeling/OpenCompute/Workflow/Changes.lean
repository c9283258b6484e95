import OpenCompute.Workflow.System

/-!
# What an operation may write

Every operation on an instance is a sequence of guarded writes.  A write says
which row it touches and which triggers let it pass, so what the triggers
enforce is proved once for a write and holds for every operation.
-/

namespace OpenCompute
namespace Workflow

open Relational Table Transaction Relation

/-! ## Guarded writes -/

/-- What the writes of an operation may do beyond what the triggers say. -/
structure Permits where
  touches : Nat -> Prop
  registers : Prop
  starts : Prop
  moves : Prop
  claims : WorkflowToken -> Prop
  reports : ErrorCode -> Prop

def leasing : Permits := ⟨fun _ => False, False, False, False, fun _ => False, fun _ => False⟩

def registering : Permits := ⟨fun _ => False, True, False, False, fun _ => False, fun _ => False⟩

def settling : Permits := ⟨fun _ => True, False, False, False, fun _ => False, fun _ => True⟩

def granting : Permits := ⟨fun _ => True, True, True, False, fun _ => False, fun _ => False⟩

def moving : Permits := ⟨fun _ => True, False, False, True, fun _ => True, fun _ => False⟩

/--
A permanent failure comes after the last attempt, or from a code that no policy
retries.  The code of exhausted retries is stored in place of the code of a
failed attempt, unless a run reported it as its own.
-/
def FailsFor (reports : ErrorCode -> Prop) (config : WorkflowDurableConfig)
    (state : StepState) : Prop :=
  match config, state with
  | .doStep config, .failed (some attempt) code =>
    config.retries.limit < attempt.number ∨
      (code ≠ .workflowExecutionFailed ∧ code ≠ .workflowStepTimeout ∧
        (code = .workflowStepRetriesExhausted -> reports code))
  | _, _ => True

structure Permits.Holds (p : Permits) (i : Instance) (step : Step) : Prop where
  mem : step ∈ i.steps
  touches : p.touches step.ordinal

theorem holds_of_find? {p : Permits} {i : Instance} {step : Step} {ordinal : Nat}
    (htouches : p.touches ordinal) (hfind : i.steps.find? ordinal = some step) :
    p.Holds i step := by
  rcases find?_eq_some.mp hfind with ⟨hmem, rfl⟩
  exact ⟨hmem, htouches⟩

structure Permits.Free (p : Permits) : Prop where
  touches : forall ordinal, p.touches ordinal
  moves : p.moves

/-- The columns and tables that an update of the instance row leaves alone. -/
structure SameHistory (i j : Instance) : Prop where
  identity : j.identity = i.identity
  input : j.input = i.input
  nextEventSeq : j.nextEventSeq = i.nextEventSeq
  steps : j.steps = i.steps
  events : j.events = i.events

/-- An update of one step that the triggers let pass. -/
structure StepUpdate (p : Permits) (nowMs : Millis) (i : Instance) (old new : Step) : Prop where
  mem : old ∈ i.steps
  touches : p.touches old.ordinal
  set : old.set? new.state nowMs = some new
  transition : i.stepTransitionGuard old new = true
  attempt : stepAttemptGuard old new = true
  wait : i.waitSettlementGuard old new = true
  refresh : i.refreshGuard = true
  starts : new.state.isRunning = true -> p.starts
  fails : FailsFor p.reports new.descriptor.config new.state

/-- A registration of one step that the triggers let pass. -/
structure StepRegistration (p : Permits) (i : Instance) (new : Step) : Prop where
  registers : p.registers
  guard : i.stepInsertGuard new = true
  refresh : i.refreshGuard = true

/-- The row of an instance is written now, or was written later already; a claim writes now. -/
def WrittenAt (nowMs : Millis) (i new : Instance) : Prop :=
  new.updatedAtMs = nowMs ∨ (new.updatedAtMs = max i.updatedAtMs nowMs ∧
    (new.state = .running -> i.state = .running))

/--
One write.  An event leaves the inbox only with the wait that it completes, so
the two statements count as one.
-/
inductive Write (p : Permits) (nowMs : Millis) : Instance -> Instance -> Prop where
  | step {i : Instance} {old new : Step} (hupdate : StepUpdate p nowMs i old new)
      (hconsumed : new.state.consumed = none) : Write p nowMs i (i.putStep new).account
  | consume {i : Instance} {old new : Step} {seq : Int}
      (hupdate : StepUpdate p nowMs i old new) (hconsumed : new.state.consumed = some seq) :
      Write p nowMs i { (i.putStep new).account with events := i.events.erase seq }.account
  | register {i : Instance} {new : Step} {steps : Table Step.ordinal}
      (hregistration : StepRegistration p i new)
      (hinsert : i.steps.insert? new = some steps) :
      Write p nowMs i { i with steps := steps }.account
  | insertEvent {i : Instance} {e : Event} {events : Table Event.seq}
      (hguard : i.eventInsertGuard e = true) (hrefresh : i.refreshGuard = true)
      (hinsert : i.events.insert? e = some events)
      (haccepted : e.acceptedAtMs = nowMs ∧ SafeTime nowMs) :
      Write p nowMs i
        { i with events := events, nextEventSeq := i.nextEventSeq + 1 }.account
  | row {i new : Instance} (hsame : SameHistory i new)
      (hflags : new.rollbackRequested = i.rollbackRequested ∧ new.hasActivated = i.hasActivated)
      (hstate : new.state = i.state)
      (hlease : new.leaseUntil = i.leaseUntil ∨ exists token, i.leased token nowMs = true)
      (hupdated : WrittenAt nowMs i new)
      (hupdate : i.update new = .ok new) : Write p nowMs i new
  | state {i new : Instance} (hmoves : p.moves) (hsame : SameHistory i new)
      (hclaims : forall run, new.lifecycle = .running run -> p.claims run.token)
      (hupdated : WrittenAt nowMs i new)
      (hupdate : i.updateState new = .ok new) : Write p nowMs i new

def Writes (p : Permits) (nowMs : Millis) : Instance -> Instance -> Prop :=
  Relation.ReflTransGen (Write p nowMs)

variable {nowMs : Millis} {p : Permits}

theorem Writes.refl (i : Instance) : Writes p nowMs i i := ReflTransGen.refl

theorem Writes.trans {i j k : Instance} (hij : Writes p nowMs i j) (hjk : Writes p nowMs j k) :
    Writes p nowMs i k :=
  ReflTransGen.trans hij hjk

theorem Write.writes {i j : Instance} (hwrite : Write p nowMs i j) : Writes p nowMs i j :=
  ReflTransGen.single hwrite

/-! ## The statements behind the writes -/

theorem set?_eq_some {s new : Step} {state : StepState} (hset : s.set? state nowMs = some new) :
    new.descriptor = s.descriptor ∧ new.startedAtMs = s.startedAtMs ∧
      new.ceiling = s.ceiling ∧ new.updatedAtMs = nowMs ∧ new.state = state := by
  unfold Step.set? at hset
  split at hset <;> cases hset
  exact ⟨rfl, rfl, rfl, rfl, rfl⟩

section Statements

variable {p : Permits} {nowMs : Millis} {i j : Instance} {old : Step} {state : StepState}
  {new : Instance}

theorem updateStep_eq_ok (hupdate : i.updateStep old state nowMs = .ok j) :
    exists new, old.set? state nowMs = some new ∧ i.stepTransitionGuard old new = true ∧
      stepAttemptGuard old new = true ∧ i.waitSettlementGuard old new = true ∧
      i.refreshGuard = true ∧ j = (i.putStep new).account := by
  simp only [Instance.updateStep, ok_iff] at hupdate
  rcases hupdate with ⟨new, hset, htransition, hattempt, hwait, hrefresh, rfl⟩
  exact ⟨new, hset, htransition, hattempt, hwait, hrefresh, rfl⟩

theorem updateStep_update (hstep : p.Holds i old) (hstarts : state.isRunning = true -> p.starts)
    (hfails : FailsFor p.reports old.descriptor.config state)
    (hupdate : i.updateStep old state nowMs = .ok j) :
    exists new, new.state = state ∧ StepUpdate p nowMs i old new ∧ j = (i.putStep new).account := by
  rcases updateStep_eq_ok hupdate with ⟨new, hset, htransition, hattempt, hwait, hrefresh, rfl⟩
  rcases set?_eq_some hset with ⟨hdescriptor, _, _, _, rfl⟩
  rw [← hdescriptor] at hfails
  exact ⟨new, rfl, ⟨hstep.mem, hstep.touches, hset, htransition, hattempt, hwait, hrefresh, hstarts,
    hfails⟩, rfl⟩

theorem updateStep_write (hstep : p.Holds i old) (hconsumed : state.consumed = none)
    (hstarts : state.isRunning = true -> p.starts)
    (hfails : FailsFor p.reports old.descriptor.config state)
    (hupdate : i.updateStep old state nowMs = .ok j) : Writes p nowMs i j := by
  rcases updateStep_update hstep hstarts hfails hupdate with ⟨_, rfl, hrow, rfl⟩
  exact (Write.step hrow hconsumed).writes

theorem updateStep_quiet (hstep : p.Holds i old) (hconsumed : state.consumed = none)
    (hquiet : (state.isRunning || state.isFailed && state.attempt.isSome) = false)
    (hupdate : i.updateStep old state nowMs = .ok j) : Writes p nowMs i j := by
  rw [Bool.or_eq_false_iff] at hquiet
  refine updateStep_write hstep hconsumed (fun h => absurd h (by simp [hquiet.left])) ?_ hupdate
  unfold FailsFor
  split
  · cases hquiet.right
  · trivial

theorem update_eq_ok (hupdate : i.update new = .ok j) : j = new := by
  simp only [Instance.update, ok_iff] at hupdate
  exact hupdate.right.right.right.right.symm

theorem updateState_eq_ok (hupdate : i.updateState new = .ok j) : j = new := by
  simp only [Instance.updateState, ok_iff] at hupdate
  exact update_eq_ok hupdate.right.right

theorem update_write (hupdate : i.update new = .ok j) (hsame : SameHistory i new)
    (hflags : new.rollbackRequested = i.rollbackRequested ∧ new.hasActivated = i.hasActivated)
    (hstate : new.state = i.state)
    (hlease : new.leaseUntil = i.leaseUntil ∨ exists token, i.leased token nowMs = true)
    (hupdated : WrittenAt nowMs i new) : Write p nowMs i j := by
  cases update_eq_ok hupdate
  exact Write.row hsame hflags hstate hlease hupdated hupdate

def Moves (p : Permits) (nowMs : Millis) (i j : Instance) : Prop :=
  Writes p nowMs i j ∧ exists k : Instance, k.updateState j = .ok j

theorem Writes.moves {k : Instance} (hwrites : Writes p nowMs i k) (hmoves : Moves p nowMs k j) :
    Moves p nowMs i j :=
  ⟨hwrites.trans hmoves.left, hmoves.right⟩

theorem updateState_moves (hmoves : p.moves) (hupdate : i.updateState new = .ok j)
    (hsame : SameHistory i new)
    (hclaims : forall run, new.lifecycle = .running run -> p.claims run.token)
    (hupdated : WrittenAt nowMs i new) : Moves p nowMs i j := by
  cases updateState_eq_ok hupdate
  exact ⟨(Write.state hmoves hsame hclaims hupdated hupdate).writes, i, hupdate⟩

theorem moveTo_moves {lifecycle : Lifecycle} {rollbackRequested hasActivated : Bool}
    {accounts : Accounting} (hmoves : p.moves) (hrun : lifecycle.run = none)
    (hupdate : i.updateState { i with
      lifecycle, rollbackRequested, hasActivated, accounts, updatedAtMs := nowMs } = .ok j) :
    Moves p nowMs i j := by
  refine updateState_moves hmoves hupdate ⟨rfl, rfl, rfl, rfl, rfl⟩ ?_ (.inl rfl)
  intro run hlifecycle
  have hsome : lifecycle.run = some run := congrArg Lifecycle.run hlifecycle
  rw [hrun] at hsome
  cases hsome

end Statements

/-! ## The row of one step -/

section Rows

variable {p : Permits} {nowMs : Millis} {i j : Instance} {old new : Step}

theorem StepUpdate.descriptor (hupdate : StepUpdate p nowMs i old new) :
    new.descriptor = old.descriptor :=
  (set?_eq_some hupdate.set).left

theorem StepUpdate.updatedAt (hupdate : StepUpdate p nowMs i old new) : new.updatedAtMs = nowMs :=
  (set?_eq_some hupdate.set).right.right.right.left

inductive RowChange (p : Permits) (nowMs : Millis) (i : Instance) (k : Nat) :
    Option Step -> Option Step -> Prop where
  | same (row : Option Step) : RowChange p nowMs i k row row
  | update {old new : Step} (hordinal : old.ordinal = k) (hupdate : StepUpdate p nowMs i old new) :
    RowChange p nowMs i k (some old) (some new)
  | register {new : Step} (hregistration : StepRegistration p i new) :
    RowChange p nowMs i k none (some new)

theorem StepUpdate.change (hupdate : StepUpdate p nowMs i old new) (k : Nat) :
    RowChange p nowMs i k (i.steps.find? k) ((i.steps.replace new).find? k) := by
  have hordinal : old.ordinal = new.ordinal :=
    (congrArg WorkflowStepDescriptor.ordinal hupdate.descriptor).symm
  rw [find?_replace hupdate.mem hordinal k]
  split
  · rename_i hk
    rw [← hordinal] at hk
    rw [hk, find?_key hupdate.mem]
    exact RowChange.update rfl hupdate
  · exact RowChange.same _

theorem Write.change (hwrite : Write p nowMs i j) (k : Nat) :
    RowChange p nowMs i k (i.steps.find? k) (j.steps.find? k) := by
  cases hwrite with
  | step hupdate _ | consume hupdate _ => exact hupdate.change k
  | @register new steps hregistration hinsert =>
    show RowChange p nowMs i k (i.steps.find? k) (steps.find? k)
    rw [find?_of_insert? hinsert k]
    split
    · rename_i hk
      rw [hk, find?_eq_none.mpr (insert?_eq_some.mp hinsert).left]
      exact RowChange.register hregistration
    · exact RowChange.same _
  | insertEvent _ _ _ _ => exact RowChange.same _
  | row hsame _ _ _ _ _ | state _ hsame _ _ _ =>
    rw [hsame.steps]
    exact RowChange.same _

theorem Write.mem_cases (hwrite : Write p nowMs i j) {t : Step} (ht : t ∈ j.steps) :
    t ∈ i.steps ∨ (exists old, StepUpdate p nowMs i old t) ∨ StepRegistration p i t := by
  have hchange := hwrite.change t.ordinal
  rw [find?_key ht] at hchange
  generalize hrow : i.steps.find? t.ordinal = row at hchange
  cases hchange with
  | same => exact .inl (mem_of_find? hrow)
  | update _ hupdate => exact .inr (.inl ⟨_, hupdate⟩)
  | register hregistration => exact .inr (.inr hregistration)

end Rows

/-! ## The run fence -/

section Fence

variable {p : Permits} {nowMs : Millis} {i j : Instance} {fence : WorkflowFence}
  {verdict : WorkflowStepResult}

theorem updateRun_write {change : RunLease -> RunLease}
    (hupdate : i.updateRun fence nowMs change = .ok j) : Write p nowMs i j := by
  unfold Instance.updateRun at hupdate
  split at hupdate
  · rename_i hlifecycle
    split at hupdate
    · rename_i hfence
      have hrunning : i.state = .running := by
        unfold Instance.state
        rw [hlifecycle]
        rfl
      exact update_write hupdate ⟨rfl, rfl, rfl, rfl, rfl⟩ ⟨rfl, rfl⟩ hrunning.symm
        (.inr ⟨fence.runToken, hfence.right⟩) (.inr ⟨rfl, fun _ => hrunning⟩)
    · cases hupdate
  · cases hupdate

theorem requestYield_writes (hyield : requestYield i fence nowMs = .ok j) : Writes p nowMs i j :=
  (updateRun_write hyield).writes

theorem heartbeat_writes {limits : WorkflowsConfig}
    (hbeat : heartbeat limits i fence nowMs = .ok j) :
    Writes p nowMs i j := by
  simp only [heartbeat, ok_iff] at hbeat
  rcases hbeat with ⟨_, _, hupdate⟩
  exact (updateRun_write hupdate).writes

/-! ## Failures and reports -/

variable {config : WorkflowStepConfig} {code : ErrorCode} {step : Step}

theorem fail_writes {delay : Option Nat} (hstep : p.Holds i step)
    (hreports : code = .workflowStepRetriesExhausted -> p.reports code)
    (hfail : fail i step code delay nowMs = .ok (verdict, j)) : Writes p nowMs i j := by
  simp only [fail, ok_iff] at hfail
  rcases hfail with ⟨_, hfail⟩
  split at hfail
  · rename_i config hconfig
    simp only [ok_iff, ite_eq_iff, Prod.mk.injEq] at hfail
    rcases hfail with
      ⟨attempt, _, _, ⟨_, _, _, _, _, _, hupdate, _, rfl⟩ | ⟨hretries, _, hupdate, _, rfl⟩⟩
    · exact updateStep_quiet hstep rfl rfl hupdate
    · refine updateStep_write hstep rfl ?_ ?_ hupdate
      · intro hrunning
        cases hrunning
      · rw [hconfig]
        by_cases hlast : config.retries.limit < attempt.number
        · exact .inl hlast
        · have hcode : code ≠ .workflowExecutionFailed ∧ code ≠ .workflowStepTimeout := by
            simp only [retries, Bool.and_eq_true, Bool.or_eq_true, decide_eq_true_eq,
              Nat.not_lt.mp hlast, and_true, not_or] at hretries
            exact hretries
          have hfinal : finalCode code = code := if_neg hcode.left
          rw [hfinal]
          exact .inr ⟨hcode.left, hcode.right, hreports⟩
  · cases hfail

theorem timeout_writes (hstep : p.Holds i step)
    (htimeout : timeout i step nowMs = .ok (verdict, j)) : Writes p nowMs i j := by
  have hcode : ErrorCode.workflowStepTimeout = .workflowStepRetriesExhausted ->
      p.reports .workflowStepTimeout := by
    intro heq
    cases heq
  unfold timeout at htimeout
  split at htimeout
  · split at htimeout
    · simp only [deferDynamicFailure, ok_iff, Prod.mk.injEq] at htimeout
      rcases htimeout with ⟨_, _, _, _, hupdate, _, rfl⟩
      exact updateStep_quiet hstep rfl rfl hupdate
    · exact fail_writes hstep hcode htimeout
  · exact fail_writes hstep hcode htimeout

end Fence

/-! The codes of a value that is refused are none that a report may carry. -/

def NotExhausted (e : PlatformError) : Prop := e.code ≠ .workflowStepRetriesExhausted

theorem durableValueBase64_fails (input : String) :
    Fails NotExhausted (durableValueBase64 input .workflowResultTooLarge) := by
  have hbytes : Fails NotExhausted (durableValueBytes input .workflowResultTooLarge) := by
    simp [durableValueBytes, NotExhausted, validationError]
  intro e herror
  unfold durableValueBase64 at herror
  split at herror <;> cases herror
  rename_i he'
  exact hbytes e he'

section Reports

variable {p : Permits} {nowMs : Millis} {i j : Instance} {limits : WorkflowsConfig} {others : Usage}
  {step : Step} {verdict : WorkflowStepResult} {attempt : Attempt} {outcome : WorkflowStepOutcome}

def WorkflowStepOutcome.reports (outcome : WorkflowStepOutcome) (code : ErrorCode) : Prop :=
  match outcome with
  | .failure reported => code = reported
  | .failureWithDelay reported _ => code = reported
  | _ => False

variable {fence : WorkflowFence}

theorem finishReport_writes {verdict' : WorkflowStepResult} {k : Instance}
    (hfinish : finishReport limits fence nowMs (verdict, i) = .ok (verdict', k)) :
    Writes p nowMs i k := by
  simp only [finishReport, ok_iff, ite_eq_iff, Prod.mk.injEq] at hfinish
  rcases hfinish with ⟨_, _, hyield, _, hbeat, _, rfl⟩ | ⟨_, _, ⟨⟩, _, hbeat, _, rfl⟩
  · exact (requestYield_writes hyield).trans (heartbeat_writes hbeat)
  · exact heartbeat_writes hbeat

theorem settleReport_writes {report : WorkflowStepAttempt} (htouches : p.touches report.ordinal)
    (hreports : forall code, outcome.reports code -> p.reports code)
    (hsettle : settleReport limits others fence report outcome nowMs i = .ok (verdict, j)) :
    Writes p nowMs i j := by
  simp only [settleReport, ok_iff] at hsettle
  rcases hsettle with ⟨_, hfind, hsettle⟩
  have hstep := holds_of_find? htouches hfind
  split at hsettle
  · simp only [ok_iff] at hsettle
    rcases hsettle with ⟨_, ⟨_, _⟩, hattempt, hfinish⟩
    refine Writes.trans ?_ (finishReport_writes hfinish)
    unfold settleAttempt at hattempt
    split at hattempt
    · exact timeout_writes hstep hattempt
    · cases outcome with
      | timeout => cases hattempt
      | failure code | failureWithDelay code delayMs =>
        exact fail_writes hstep (fun _ => hreports code rfl) hattempt
      | success output =>
        simp only [commitSuccess] at hattempt
        split at hattempt
        · simp only [ok_iff, Prod.mk.injEq] at hattempt
          rcases hattempt with ⟨_, hupdate, _, rfl⟩
          exact updateStep_quiet hstep rfl rfl hupdate
        · rename_i e he
          refine fail_writes hstep (fun hcode => absurd hcode ?_) hattempt
          exact fails_bind.mpr ⟨durableValueBase64_fails output, fun value _ =>
            fails_bind.mpr ⟨by simp [capacityChange, checkGrowth, NotExhausted, error],
              fun _ _ => fails_pure⟩⟩ e he
  · cases hsettle

theorem resolveDelay_writes {ordinal attempt : Nat} {resolution : WorkflowDelayResolution}
    (htouches : p.touches ordinal)
    (hresolve : resolveDelay limits fence ordinal attempt resolution nowMs i =
      .ok (verdict, j)) : Writes p nowMs i j := by
  simp only [resolveDelay, ok_iff] at hresolve
  rcases hresolve with ⟨_, hfind, hresolve⟩
  have hstep := holds_of_find? htouches hfind
  split at hresolve
  · simp only [ok_iff, ite_eq_iff] at hresolve
    rcases hresolve with
      ⟨_, ⟨hcode, ⟨_, _⟩, hfail, hfinish⟩ | ⟨_, hcode, ⟨_, _⟩, hfail, hfinish⟩⟩
    all_goals
      refine (fail_writes hstep ?_ hfail).trans (finishReport_writes hfinish)
      intro heq
      rw [hcode] at heq
      cases heq
  · cases hresolve

end Reports

/-! ## Waits and events -/

section Waits

variable {p : Permits} {nowMs : Millis} {i j : Instance} {limits : WorkflowsConfig} {others : Usage}
  {step : Step} {verdict : WorkflowStepResult} {due : Millis} {payload : DurableValue}

/-- What the settlement of a wait does: one that goes on is not written to. -/
structure Settlement (nowMs : Millis) (i : Instance) (step : Step) (verdict : WorkflowStepResult)
    (j : Instance) : Prop where
  writes : forall {p : Permits}, p.Holds i step -> Writes p nowMs i j
  suspended : verdict = .suspended -> j = i

theorem expireWait_settlement (hexpire : expireWait i step due nowMs = .ok (verdict, j)) :
    Settlement nowMs i step verdict j := by
  simp only [expireWait, ok_iff, ite_eq_iff, Prod.mk.injEq] at hexpire
  rcases hexpire with ⟨_, _, hupdate, rfl, rfl⟩ | ⟨_, ⟨⟩⟩
  · exact ⟨fun hstep => updateStep_quiet hstep rfl rfl hupdate, fun h => by cases h⟩
  · exact ⟨fun _ => Writes.refl i, fun _ => rfl⟩

variable {eventType : String}

theorem settle_settlement (hsettle : settle limits others i step nowMs = .ok (verdict, j)) :
    Settlement nowMs i step verdict j := by
  unfold settle at hsettle
  split at hsettle
  · split at hsettle
    · unfold settleEventWait at hsettle
      split at hsettle
      · split at hsettle
        · simp only [consumeEvent, ok_iff, Prod.mk.injEq] at hsettle
          rcases hsettle with ⟨envelope, _, _, _, hupdate, _, hdelete, rfl, rfl⟩
          refine ⟨fun {p} hstep => ?_, fun h => by cases h⟩
          have hfails : forall seq, FailsFor p.reports step.descriptor.config
              (.complete none (some (.event envelope)) seq) := by
            intro seq
            unfold FailsFor
            split <;> trivial
          rcases updateStep_update hstep (fun h => by cases h) (hfails _) hupdate with
            ⟨_, hnew, hrow, rfl⟩
          simp only [Instance.deleteEvent, ok_iff] at hdelete
          rcases hdelete with ⟨_, _, rfl⟩
          refine (Write.consume hrow ?_).writes
          rw [hnew]
          rfl
        · exact expireWait_settlement hsettle
      · exact expireWait_settlement hsettle
    · simp only [settleSleep, ok_iff, ite_eq_iff, Prod.mk.injEq] at hsettle
      rcases hsettle with ⟨_, _, hupdate, rfl, rfl⟩ | ⟨_, ⟨⟩⟩
      · exact ⟨fun hstep => updateStep_quiet hstep rfl rfl hupdate, fun h => by cases h⟩
      · exact ⟨fun _ => Writes.refl i, fun _ => rfl⟩
  · simp only [ok_iff, Prod.mk.injEq] at hsettle
    rcases hsettle with ⟨_, _, _, rfl⟩
    exact ⟨fun _ => Writes.refl i, fun _ => rfl⟩

theorem wake_writes (hmoves : p.moves) (hwake : wake i nowMs = .ok j) : Writes p nowMs i j := by
  unfold wake at hwake
  split at hwake
  · exact (updateState_moves hmoves hwake ⟨rfl, rfl, rfl, rfl, rfl⟩ nofun
      (.inr ⟨rfl, nofun⟩)).left
  · cases hwake
    exact Writes.refl i

theorem wakeUnlessSuspended_writes (hmoves : p.moves)
    (hwake : wakeUnlessSuspended nowMs (verdict, i) = .ok j) : Writes p nowMs i j := by
  rcases ite_eq_iff.mp hwake with ⟨_, ⟨⟩⟩ | ⟨_, hwake⟩
  · exact Writes.refl i
  · exact wake_writes hmoves hwake

theorem offerEvent_writes (hfree : p.Free)
    (hoffer : offerEvent limits others eventType nowMs i = .ok j) : Writes p nowMs i j := by
  unfold offerEvent at hoffer
  split at hoffer
  · cases hoffer
    exact Writes.refl i
  · rename_i step hwaiter
    simp only [ok_iff] at hoffer
    rcases hoffer with ⟨⟨_⟩, hsettle, hwake⟩
    have hmem : step ∈ i.steps := List.mem_of_find?_eq_some hwaiter
    exact ((settle_settlement hsettle).writes ⟨hmem, hfree.touches step.ordinal⟩).trans
      (wakeUnlessSuspended_writes hfree.moves hwake)

theorem admitEvent_writes (hfree : p.Free)
    (haccept : admitEvent limits others eventType payload nowMs i = .ok j) :
    Writes p (max nowMs i.updatedAtMs) i j := by
  simp only [admitEvent, ok_iff] at haccept
  rcases haccept with ⟨_, _, _, _, hsafe, hdeliver⟩
  unfold deliverEvent at hdeliver
  split at hdeliver
  · simp only [ok_iff] at hdeliver
    rcases hdeliver with ⟨_, hinsert, _, hupdate, hoffer⟩
    simp only [Instance.insertEvent, ok_iff] at hinsert
    rcases hinsert with ⟨hguard, hrefresh, _, hevents, rfl⟩
    have hinserted : Writes p (max nowMs i.updatedAtMs) i _ :=
      (Write.insertEvent hguard hrefresh hevents ⟨rfl, durableDeadline_safe hsafe⟩).writes
    refine hinserted.trans (Writes.trans ?_ (offerEvent_writes hfree hoffer))
    exact (update_write hupdate ⟨rfl, rfl, rfl, rfl, rfl⟩ ⟨rfl, rfl⟩ rfl
      (.inl rfl) (.inl rfl)).writes
  · cases hdeliver

end Waits

end Workflow
end OpenCompute
