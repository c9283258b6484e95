import OpenCompute.Relational.Loop
import OpenCompute.Workflow.Changes
import OpenCompute.Workflow.Restart

/-!
# Calls

The remaining operations as sequences of guarded writes, and then one relation
for what a call of the store does to one instance.  Whatever an action does to a
store, each instance in it is left alone, created, purged, restarted, or changed
by such calls.
-/

namespace OpenCompute
namespace Workflow

open Relational Table Transaction Relation

/-! ## Registration and grants -/

section Grants

variable {p : Permits} {nowMs : Millis} {i j : Instance} {limits : WorkflowsConfig} {others : Usage}
  {d first : WorkflowStepDescriptor} {descriptors : List WorkflowStepDescriptor} {step : Step}

theorem registerGroup_writes (hregisters : p.registers)
    (hregister : registerGroup limits others first descriptors nowMs i = .ok j) :
    Writes p nowMs i j := by
  simp only [registerGroup, ok_iff] at hregister
  rcases hregister with ⟨_, _, _, _, _, hfold⟩
  refine foldlM_invariant (fun k => Writes p nowMs i k) ?_ (Writes.refl i) hfold
  intro d k l _ hk hd
  simp only [register, Instance.insertStep, ok_iff] at hd
  rcases hd with ⟨_, _, _, _, _, hguard, hrefresh, _, hinsert, _, rfl⟩
  exact hk.trans (Write.register ⟨hregisters, hguard, hrefresh⟩ hinsert).writes

variable {c : GrantContext} {g g' : Granting}

def WorkflowStepGrant.isRun : WorkflowStepGrant -> Bool
  | run _ _ _ _ => true
  | _ => false

/-- An attempt that was recovered is resumed as it is, for the time that it has left. -/
def StepState.ResumesAs (nowMs : Millis) (attempt : Attempt) (duration : Nat) : StepState -> Prop
  | pending (some recovered) => attempt = recovered ∧
      (duration : Int) = recovered.deadlineAtMs - nowMs
  | _ => True

/--
The answer for a registered step: it tells how the step is, which may settle the
step first, or it starts an attempt.
-/
inductive Granted (c : GrantContext) (g : Granting) (step : Step) (g' : Granting) : Prop where
  | told {grant : WorkflowStepGrant} (hgrants : g'.grants = g.grants ++ [grant])
      (hwrites : forall {p : Permits}, p.Holds g.current step ->
        Writes p c.nowMs g.current g'.current)
      (hrun : grant.isRun = true -> step.state.isRunning = true)
  | started {attempt : Attempt} {token : WorkflowToken} {duration : Nat}
      {config : WorkflowStepConfig}
      (hgrants : g'.grants = g.grants ++ [.run token attempt.number duration config])
      (hconfig : step.descriptor.config = .doStep config)
      (hupdate : g.current.updateStep step (.running attempt c.fence.runToken token) c.nowMs =
        .ok g'.current)
      (hdue : step.state.due.any (fun due => c.nowMs < due) = false)
      (hrecovered : step.state.ResumesAs c.nowMs attempt duration)

theorem Granted.tell {grant : WorkflowStepGrant} (hrun : grant.isRun = false) :
    Granted c g step (g.add g.current grant) :=
  Granted.told rfl (fun _ => Writes.refl _) (by simp [hrun])

theorem grantTimeout_granted (hgrant : c.grantTimeout g step = .ok g') : Granted c g step g' := by
  simp only [GrantContext.grantTimeout, ok_iff] at hgrant
  rcases hgrant with ⟨⟨verdict, _⟩, htimeout, rfl⟩
  refine Granted.told rfl (fun hstep => timeout_writes hstep htimeout) ?_
  cases verdict <;> exact fun h => by cases h

theorem completeGrant_isRun {grant : WorkflowStepGrant} (hgrant : completeGrant step = .ok grant) :
    grant.isRun = false := by
  unfold completeGrant at hgrant
  split at hgrant
  · split at hgrant <;> cases hgrant
    rfl
  · cases hgrant
    rfl

theorem grantSettled_granted (hgrant : c.grantSettled g step = .ok g') : Granted c g step g' := by
  simp only [GrantContext.grantSettled, ok_iff] at hgrant
  rcases hgrant with ⟨⟨verdict, _⟩, hsettle, hgrant⟩
  have hwrites := @(settle_settlement hsettle).writes
  cases verdict with
  | complete output | event envelope =>
    simp only [ok_iff] at hgrant
    rcases hgrant with ⟨_, hcomplete, rfl⟩
    exact Granted.told rfl hwrites (by simp [completeGrant_isRun hcomplete])
  | failed code | suspended =>
    cases hgrant
    exact Granted.told rfl hwrites fun h => by cases h
  | resolveDelay attempt code config => cases hgrant

variable {config : WorkflowStepConfig}

theorem startAttempt_granted {recovered : Option Attempt} {duration : Nat}
    (hconfig : step.descriptor.config = .doStep config)
    (hdue : step.state.due.any (fun due => c.nowMs < due) = false)
    (hrecovered : forall attempt, recovered.all (· = attempt) = true ->
      step.state.ResumesAs c.nowMs attempt duration)
    (hgrant : c.startAttempt g step recovered duration config = .ok g') : Granted c g step g' := by
  unfold GrantContext.startAttempt at hgrant
  split at hgrant
  · cases hgrant
    exact Granted.tell rfl
  · split at hgrant
    · cases hgrant
    · cases recovered with
      | some attempt =>
        simp only [ok_iff] at hgrant
        rcases hgrant with ⟨_, ⟨⟩, k, hupdate, rfl⟩
        exact Granted.started rfl hconfig hupdate hdue (hrecovered attempt (decide_eq_true rfl))
      | none =>
        simp only [ok_iff] at hgrant
        rcases hgrant with ⟨_, _, _, _, _, hupdate, rfl⟩
        exact Granted.started rfl hconfig hupdate hdue (hrecovered _ rfl)

theorem grantFresh_granted (hconfig : step.descriptor.config = .doStep config)
    (hfresh : forall attempt duration, step.state.ResumesAs c.nowMs attempt duration)
    (hgrant : c.grantFresh g step config = .ok g') : Granted c g step g' := by
  simp only [GrantContext.grantFresh, ok_iff, ite_eq_iff] at hgrant
  rcases hgrant with ⟨_, ⟨_, ⟨⟩⟩ | ⟨hdue, hgrant⟩⟩
  · exact Granted.tell rfl
  · exact startAttempt_granted hconfig (Bool.eq_false_iff.mpr hdue) (fun _ _ => hfresh _ _) hgrant

theorem grantByState_granted (hgrant : c.grantByState g step = .ok g') : Granted c g step g' := by
  unfold GrantContext.grantByState at hgrant
  split at hgrant
  · simp only [ok_iff] at hgrant
    rcases hgrant with ⟨_, hcomplete, rfl⟩
    exact Granted.tell (completeGrant_isRun hcomplete)
  · cases hgrant
    exact Granted.tell rfl
  · exact grantSettled_granted hgrant
  · rename_i attempt run token hstate
    simp only [GrantContext.grantRunning, ok_iff, ite_eq_iff] at hgrant
    rcases hgrant with ⟨_, ⟨_, hgrant⟩ | ⟨_, hgrant⟩⟩
    · exact grantTimeout_granted hgrant
    · split at hgrant <;> cases hgrant
      exact Granted.told rfl (fun _ => Writes.refl _) (fun _ => by rw [hstate]; rfl)
  · rename_i attempt config hstate hconfig
    split at hgrant
    · exact grantTimeout_granted hgrant
    · rename_i hlive
      refine startAttempt_granted hconfig (by rw [hstate]; rfl) ?_ hgrant
      intro resumed hsame
      rw [hstate]
      exact ⟨(of_decide_eq_true hsame).symm,
        Int.toNat_of_nonneg (Int.sub_nonneg_of_le (not_le.mp hlive).le)⟩
  · rename_i config hstate hconfig
    exact grantFresh_granted hconfig (fun _ _ => by rw [hstate]; trivial) hgrant
  · rename_i hstate hconfig
    exact grantFresh_granted hconfig (fun _ _ => by rw [hstate]; trivial) hgrant
  · cases hgrant
    exact Granted.tell rfl
  · cases hgrant
  · cases hgrant

theorem grantStep_granted (hgrant : c.grantStep g d = .ok g') :
    exists step, g.current.steps.find? d.ordinal = some step ∧ step.descriptor = d ∧
      Granted c g step g' := by
  simp only [GrantContext.grantStep, ok_iff, ite_eq_iff] at hgrant
  rcases hgrant with ⟨step, hfind, hsame, ⟨_, ⟨⟩⟩ | ⟨_, hgrant⟩⟩
  · exact ⟨step, hfind, hsame, Granted.tell rfl⟩
  · exact ⟨step, hfind, hsame, grantByState_granted hgrant⟩

theorem started_update {i j : Instance} {attempt : Attempt} {run token : WorkflowToken}
    (hstarts : p.starts) (hstep : p.Holds i step)
    (hupdate : i.updateStep step (.running attempt run token) nowMs = .ok j) :
    exists new, new.state = .running attempt run token ∧ StepUpdate p nowMs i step new ∧
      j = (i.putStep new).account := by
  refine updateStep_update hstep (fun _ => hstarts) ?_ hupdate
  unfold FailsFor
  split <;> trivial

theorem grantStep_writes (hstarts : p.starts) (htouches : p.touches d.ordinal)
    (hgrant : c.grantStep g d = .ok g') : Writes p c.nowMs g.current g'.current := by
  rcases grantStep_granted hgrant with ⟨step, hfind, _, hgranted⟩
  have hstep : p.Holds g.current step := holds_of_find? htouches hfind
  cases hgranted with
  | told _ hwrites _ => exact hwrites hstep
  | started _ _ hupdate _ _ =>
    rcases started_update hstarts hstep hupdate with ⟨_, hstate, hrow, hcurrent⟩
    rw [hcurrent]
    exact (Write.step hrow (by rw [hstate]; rfl)).writes

variable {fence : WorkflowFence} {remainingMs : Nat} {tokens : List WorkflowToken}
  {grants : List WorkflowStepGrant}

theorem grantGroup_eq_ok
    (hgrant : grantGroup limits others fence first descriptors remainingMs nowMs tokens i =
      .ok (grants, j)) :
    exists registered g yielded, ((first.ordinal = i.accounts.registered ∧
          registerGroup limits others first descriptors nowMs i = .ok registered) ∨
        (first.ordinal < i.accounts.registered ∧ registered = i)) ∧
      descriptors.foldlM (GrantContext.grantStep ⟨limits, others, fence, remainingMs,
        i.rollbackRequested, i.rollbackOrdinal, nowMs⟩) ⟨registered, [], 0, tokens⟩ = .ok g ∧
      (requestYield g.current fence nowMs = .ok yielded ∨ yielded = g.current) ∧
      heartbeat limits yielded fence nowMs = .ok j ∧ grants = g.grants := by
  simp only [grantGroup, ok_iff, ite_eq_iff, Prod.mk.injEq] at hgrant
  rcases hgrant with ⟨hnew, registered, hregister, g, hfold, hrest⟩ |
    ⟨hne, ⟨_, _, ⟨⟩, _⟩ | ⟨hle, _, ⟨⟩, g, hfold, hrest⟩⟩
  · rcases hrest with ⟨_, yielded, hyield, _, hbeat, rfl, rfl⟩ | ⟨_, _, ⟨⟩, _, hbeat, rfl, rfl⟩
    · exact ⟨registered, g, yielded, .inl ⟨hnew, hregister⟩, hfold, .inl hyield, hbeat, rfl⟩
    · exact ⟨registered, g, g.current, .inl ⟨hnew, hregister⟩, hfold, .inr rfl, hbeat, rfl⟩
  · have hknown : first.ordinal < i.accounts.registered :=
      Nat.lt_of_le_of_ne (Nat.not_lt.mp hle) hne
    rcases hrest with ⟨_, yielded, hyield, _, hbeat, rfl, rfl⟩ | ⟨_, _, ⟨⟩, _, hbeat, rfl, rfl⟩
    · exact ⟨i, g, yielded, .inr ⟨hknown, rfl⟩, hfold, .inl hyield, hbeat, rfl⟩
    · exact ⟨i, g, g.current, .inr ⟨hknown, rfl⟩, hfold, .inr rfl, hbeat, rfl⟩

theorem claimBatch_writes (hregisters : p.registers) (hstarts : p.starts)
    (htouches : forall ordinal, p.touches ordinal)
    (hclaim : claimBatch limits others fence descriptors first remainingMs nowMs tokens i =
      .ok (grants, j)) : Writes p nowMs i j := by
  simp only [claimBatch, ok_iff, ite_eq_iff] at hclaim
  rcases hclaim with ⟨_, ⟨⟩⟩ | ⟨_, _, ⟨_, ⟨⟩⟩ | ⟨_, hclaim⟩⟩
  · exact Writes.refl i
  · exact Writes.refl i
  · rcases grantGroup_eq_ok hclaim with
      ⟨registered, g, yielded, hregister, hfold, hyield, hbeat, _⟩
    have hregistered : Writes p nowMs i registered := by
      cases hregister with
      | inl hnew => exact registerGroup_writes hregisters hnew.right
      | inr hknown =>
        rw [hknown.right]
        exact Writes.refl i
    have hgranted : Writes p nowMs i g.current := by
      refine foldlM_invariant (fun g => Writes p nowMs i g.current) ?_ hregistered hfold
      intro d a b _ ha hb
      exact ha.trans (grantStep_writes hstarts (htouches d.ordinal) hb)
    have hyielded : Writes p nowMs i yielded := by
      cases hyield with
      | inl hrequest => exact hgranted.trans (requestYield_writes hrequest)
      | inr hsame =>
        rw [hsame]
        exact hgranted
    exact hyielded.trans (heartbeat_writes hbeat)

end Grants

/-! ## Runs -/

section Runs

variable {p : Permits} {nowMs : Millis} {i j : Instance} {limits : WorkflowsConfig}
  {others : Usage}

theorem keepState_writes {lifecycle : Lifecycle}
    (hupdate : i.update { i with lifecycle, updatedAtMs := nowMs } = .ok j)
    (hstate : lifecycle.state = i.lifecycle.state)
    (hlease : lifecycle.run.map RunLease.leaseUntilMs =
      i.lifecycle.run.map RunLease.leaseUntilMs) : Writes p nowMs i j :=
  (update_write hupdate ⟨rfl, rfl, rfl, rfl, rfl⟩ ⟨rfl, rfl⟩ hstate (.inl hlease)
    (.inl rfl)).writes

theorem deferRun_writes {nextRunAtMs : Millis} (hdefer : deferRun nowMs nextRunAtMs i = .ok j) :
    Writes p nowMs i j := by
  unfold deferRun at hdefer
  split at hdefer
  · rename_i hlifecycle
    split at hdefer
    · exact keepState_writes hdefer (by rw [hlifecycle]; rfl) (by rw [hlifecycle]; rfl)
    · cases hdefer
      exact Writes.refl i
  · cases hdefer
    exact Writes.refl i

variable {token : WorkflowToken} {lifecycle : Lifecycle}

theorem claimRun_moves (hmoves : p.moves) (hclaims : p.claims token)
    (hclaim : claimRun limits nowMs token i = .ok j) : Moves p nowMs i j := by
  simp only [claimRun, ok_iff] at hclaim
  rcases hclaim with ⟨_, _, hupdate⟩
  refine updateState_moves hmoves hupdate ⟨rfl, rfl, rfl, rfl, rfl⟩ ?_ (.inl rfl)
  intro run hrun
  cases hrun
  exact hclaims

variable {queuedAtMs : Millis}

theorem releaseTo_run (hrelease : releaseTo i queuedAtMs = some lifecycle) :
    lifecycle.run = none := by
  unfold releaseTo at hrelease
  split at hrelease
  · cases hrelease
    rfl
  · split at hrelease
    · cases hrelease
      rfl
    · split at hrelease <;> cases hrelease
      rfl

theorem release_moves (hmoves : p.moves) (hrelease : release i queuedAtMs nowMs = .ok j) :
    Moves p nowMs i j := by
  simp only [release, ok_iff] at hrelease
  rcases hrelease with ⟨_, _, hto, _, hupdate⟩
  exact moveTo_moves hmoves (releaseTo_run hto) hupdate

/-- Writes that leave the rows of the other steps alone. -/
def WritesStep (p : Permits) (nowMs : Millis) (step : Step) (i j : Instance) : Prop :=
  Writes p nowMs i j ∧ forall y, y.ordinal ≠ step.ordinal -> y ∈ i.steps -> y ∈ j.steps

theorem WritesStep.refl {step : Step} : WritesStep p nowMs step i i :=
  ⟨Writes.refl i, fun _ _ hy => hy⟩

theorem updateStep_alone {step : Step} {state : StepState} (hstep : p.Holds i step)
    (hconsumed : state.consumed = none)
    (hquiet : (state.isRunning || state.isFailed && state.attempt.isSome) = false)
    (hupdate : i.updateStep step state nowMs = .ok j) : WritesStep p nowMs step i j := by
  refine ⟨updateStep_quiet hstep hconsumed hquiet hupdate, fun y hne hy => ?_⟩
  rcases updateStep_eq_ok hupdate with ⟨new, hset, _, _, _, _, rfl⟩
  have hordinal : new.ordinal = step.ordinal :=
    congrArg WorkflowStepDescriptor.ordinal (set?_eq_some hset).left
  exact mem_replace.mpr (.inl ⟨hy, hordinal ▸ hne⟩)

theorem steps_writes {step : Instance -> Step -> Result Instance} (hfree : p.Free)
    (hstep : forall {x a b}, p.Holds a x -> step a x = .ok b -> WritesStep p nowMs x a b)
    (hfold : i.steps.rows.foldlM step i = .ok j) : Writes p nowMs i j := by
  refine foldlM_rows Instance.steps (fun a => Writes p nowMs i a) ?_ i.steps.nodup
    (fun _ hx => hx) (Writes.refl i) hfold
  intro x a b _ hx ha hb
  rcases hstep ⟨hx, hfree.touches x.ordinal⟩ hb with ⟨hwrites, hframe⟩
  exact ⟨ha.trans hwrites, hframe⟩

theorem resetStep_writes {step : Step} (hstep : p.Holds i step)
    (hreset : resetStep token nowMs i step = .ok j) : WritesStep p nowMs step i j := by
  unfold resetStep at hreset
  split at hreset
  · split at hreset
    · exact updateStep_alone hstep rfl rfl hreset
    · cases hreset
      exact WritesStep.refl
  · cases hreset
    exact WritesStep.refl

theorem recoverRun_moves (hfree : p.Free)
    (hrecover : recoverRun queuedAtMs nowMs i = .ok j) : Moves p nowMs i j := by
  simp only [recoverRun, ok_iff] at hrecover
  rcases hrecover with ⟨_, _, _, hfold, hrelease⟩
  exact (steps_writes hfree resetStep_writes hfold).moves (release_moves hfree.moves hrelease)

/-! ## Ends, rollbacks, pauses -/

theorem cancelStep_writes {step : Step} (hstep : p.Holds i step)
    (hcancel : cancelStep nowMs i step = .ok j) : WritesStep p nowMs step i j := by
  unfold cancelStep at hcancel
  split at hcancel
  · exact updateStep_alone hstep rfl rfl hcancel
  · cases hcancel
    exact WritesStep.refl

theorem cancelUnfinished_writes (hfree : p.Free) (hcancel : cancelUnfinished nowMs i = .ok j) :
    Writes p nowMs i j :=
  steps_writes hfree cancelStep_writes hcancel

theorem endTerminated_moves (hmoves : p.moves) (hend : endTerminated nowMs i = .ok j) :
    Moves p nowMs i j := by
  simp only [endTerminated, ok_iff] at hend
  rcases hend with ⟨_, _, hend⟩
  exact moveTo_moves hmoves rfl hend

theorem finishRun_moves {completion : WorkflowCompletion} (hfree : p.Free)
    (hfinish : finishRun limits others completion nowMs i = .ok j) : Moves p nowMs i j := by
  unfold finishRun at hfinish
  split at hfinish
  · exact release_moves hfree.moves hfinish
  · split at hfinish
    · simp only [ok_iff] at hfinish
      exact endTerminated_moves hfree.moves hfinish.right.right
    · simp only [ok_iff] at hfinish
      rcases hfinish with ⟨_, verdict, _, hend⟩
      cases verdict with
      | ok output =>
        simp only [endComplete, ok_iff] at hend
        exact moveTo_moves hfree.moves rfl hend.choose_spec.right
      | error code =>
        simp only [endErrored, ok_iff] at hend
        rcases hend with ⟨_, hcancel, _, _, hend⟩
        exact (cancelUnfinished_writes hfree hcancel).moves (moveTo_moves hfree.moves rfl hend)

theorem rollbackRun_moves (hfree : p.Free) (hrollback : rollbackRun nowMs i = .ok j) :
    Writes p nowMs i j ∧ (j = i ∨ exists k : Instance, k.updateState j = .ok j) := by
  simp only [rollbackRun, ok_iff, ite_eq_iff] at hrollback
  rcases hrollback with ⟨_, ⟨_, ⟨⟩⟩ | ⟨_, _, hcancel, hupdate⟩⟩
  · exact ⟨Writes.refl i, .inl rfl⟩
  · exact ((cancelUnfinished_writes hfree hcancel).moves
      (moveTo_moves hfree.moves rfl hupdate)).imp_right .inr

theorem pauseRun_writes (hmoves : p.moves) (hpause : pauseRun nowMs i = .ok j) :
    Writes p nowMs i j := by
  unfold pauseRun at hpause
  split at hpause
  · cases hpause
    exact Writes.refl i
  · rename_i hlifecycle
    split at hpause
    · cases hpause
      exact Writes.refl i
    · exact keepState_writes hpause (by rw [hlifecycle]; rfl) (by rw [hlifecycle]; rfl)
  · exact (moveTo_moves hmoves rfl hpause).left
  · exact (moveTo_moves hmoves rfl hpause).left
  · cases hpause

theorem resumeStep_writes {ordinal : Nat} (htouches : p.touches ordinal)
    (hresume : resumeStep limits others nowMs i ordinal = .ok j) : Writes p nowMs i j := by
  simp only [resumeStep, ok_iff] at hresume
  rcases hresume with ⟨_, hfind, hresume⟩
  have hstep := holds_of_find? htouches hfind
  split at hresume
  · simp only [ok_iff] at hresume
    rcases hresume with ⟨⟨_, k⟩, hsettle, rfl⟩
    exact (settle_settlement hsettle).writes hstep
  · cases hresume
    exact Writes.refl i
  · simp only [ok_iff] at hresume
    rcases hresume with ⟨⟨_, _⟩, htimeout, rfl⟩
    exact timeout_writes hstep htimeout

theorem resumeRun_moves (hfree : p.Free) (hresume : resumeRun limits others nowMs i = .ok j) :
    Moves p nowMs i j := by
  simp only [resumeRun, ok_iff] at hresume
  rcases hresume with ⟨_, settled, hfold, hupdate⟩
  have hsettled : Writes p nowMs i settled := by
    refine foldlM_invariant (fun k => Writes p nowMs i k) ?_ (Writes.refl i) hfold
    intro ordinal a b _ ha hb
    exact ha.trans (resumeStep_writes (hfree.touches ordinal) hb)
  refine hsettled.moves (moveTo_moves hfree.moves ?_ hupdate)
  split <;> rfl

theorem terminateRun_moves (hfree : p.Free) (hterminate : terminateRun nowMs i = .ok j) :
    Moves p nowMs i j := by
  simp only [terminateRun, ok_iff] at hterminate
  rcases hterminate with ⟨_, hcancel, hend⟩
  exact (cancelUnfinished_writes hfree hcancel).moves (endTerminated_moves hfree.moves hend)

theorem modifyRun_writes {action : WorkflowInstanceAction} (hfree : p.Free)
    (hmodify : modifyRun limits others nowMs i action = .ok j) : Writes p nowMs i j := by
  cases action with
  | pause => exact pauseRun_writes hfree.moves hmodify
  | resume => exact (resumeRun_moves hfree hmodify).left
  | terminate => exact (terminateRun_moves hfree hmodify).left

theorem maintainStep_writes {ordinal : Nat} (htouches : p.touches ordinal) (hmoves : p.moves)
    (hmaintain : maintainStep limits others nowMs ordinal i = .ok j) : Writes p nowMs i j := by
  simp only [maintainStep, ok_iff] at hmaintain
  rcases hmaintain with ⟨_, hfind, hmaintain⟩
  have hstep := holds_of_find? htouches hfind
  split at hmaintain
  · simp only [ok_iff] at hmaintain
    rcases hmaintain with ⟨⟨k⟩, hsettle, hwake⟩
    exact ((settle_settlement hsettle).writes hstep).trans
      (wakeUnlessSuspended_writes hmoves hwake)
  · simp only [ok_iff] at hmaintain
    rcases hmaintain with ⟨⟨_⟩, htimeout, hwake⟩
    exact (timeout_writes hstep htimeout).trans (wakeUnlessSuspended_writes hmoves hwake)
  · exact wake_writes hmoves hmaintain
  · exact wake_writes hmoves hmaintain
  · cases hmaintain

end Runs

/-! ## Calls on one instance -/

/-- What a call of an action does to one instance, next to what all others use. -/
inductive Call : Action -> Usage -> Instance -> Instance -> Prop where
  | defer {others : Usage} {i j : Instance} {nowMs nextRunAtMs : Millis}
      {limits : WorkflowsConfig} (hvalid : limits.Valid)
      (hnext : deadline nowMs limits.recoveryBackoffMs = .ok nextRunAtMs)
      (hrun : deferRun nowMs nextRunAtMs i = .ok j) :
      Call (.defer i.id nowMs limits) others i j
  | claim {others : Usage} {i j : Instance} {nowMs : Millis} {limits : WorkflowsConfig}
      {token : WorkflowToken} (hvalid : limits.Valid)
      (hdue : (i.lifecycle.nextRunAtMs.any fun at_ => at_ ≤ nowMs) = true)
    (hrun : claimRun limits nowMs token i = .ok j) :
    Call (.claim i.identity nowMs limits token) others i j
  | heartbeat {others : Usage} {i j : Instance} {nowMs : Millis} {limits : WorkflowsConfig}
      {fence : WorkflowFence} (hid : i.id = fence.instanceId) (hvalid : limits.Valid)
      (hrun : heartbeat limits i fence nowMs = .ok j) :
      Call (.heartbeat fence nowMs limits) others i j
  | claimBatch {others : Usage} {i j : Instance} {nowMs : Millis} {limits : WorkflowsConfig}
      {fence : WorkflowFence} {descriptors : List WorkflowStepDescriptor}
      {first : WorkflowStepDescriptor} {remainingMs : Nat} {tokens : List WorkflowToken}
      {grants : List WorkflowStepGrant} (hid : i.id = fence.instanceId)
      (hleased : i.leased fence.runToken nowMs = true) (hvalid : limits.Valid)
      (hfirst : validateGroup limits descriptors remainingMs = .ok first)
      (hrun : claimBatch limits others fence descriptors first remainingMs nowMs tokens i =
        .ok (grants, j)) :
      Call (.claimBatch fence descriptors remainingMs nowMs limits tokens) others i j
  | settle {others : Usage} {i j : Instance} {nowMs : Millis} {limits : WorkflowsConfig}
      {fence : WorkflowFence} {report : WorkflowStepAttempt} {outcome : WorkflowStepOutcome}
      {verdict : WorkflowStepResult} (hid : i.id = fence.instanceId)
      (hleased : i.leased fence.runToken nowMs = true) (hvalid : limits.Valid)
      (hrun : settleReport limits others fence report outcome nowMs i = .ok (verdict, j)) :
      Call (.settle fence report outcome nowMs limits) others i j
  | resolveDelay {others : Usage} {i j : Instance} {nowMs : Millis}
      {limits : WorkflowsConfig} {fence : WorkflowFence} {ordinal attempt : Nat}
      {resolution : WorkflowDelayResolution} {verdict : WorkflowStepResult}
      (hid : i.id = fence.instanceId) (hleased : i.leased fence.runToken nowMs = true)
      (hvalid : limits.Valid)
      (hrun : resolveDelay limits fence ordinal attempt resolution nowMs i = .ok (verdict, j)) :
      Call (.resolveDelay fence ordinal attempt resolution nowMs limits) others i j
  | yield {others : Usage} {i j : Instance} {nowMs : Millis} {fence : WorkflowFence}
      (hid : i.id = fence.instanceId) (hleased : i.leased fence.runToken nowMs = true)
      (hadmits : i.admits = false) (hrun : release i nowMs nowMs = .ok j) :
      Call (.yield fence nowMs) others i j
  | finish {others : Usage} {i j : Instance} {nowMs : Millis} {limits : WorkflowsConfig}
      {fence : WorkflowFence} {completion : WorkflowCompletion}
      (hid : i.id = fence.instanceId) (hleased : i.leased fence.runToken nowMs = true)
      (hvalid : limits.Valid)
      (hrun : finishRun limits others completion nowMs i = .ok j) :
      Call (.finish fence completion nowMs limits) others i j
  | sendEvent {others : Usage} {i j : Instance} {nowMs : Millis} {limits : WorkflowsConfig}
      {operationId : WorkflowOperationId} {eventType payload : String}
      {value : DurableValue} (hvalid : limits.Valid) (hname : ValidName eventType)
      (hvalue : value.text = payload)
      (hrun : admitEvent limits others eventType value nowMs i = .ok j) :
      Call (.sendEvent i.identity operationId eventType payload nowMs limits) others i j
  | rollback {others : Usage} {i j : Instance} {nowMs : Millis} {limits : WorkflowsConfig}
      (hvalid : limits.Valid) (hsafe : SafeTime nowMs)
      (hrun : rollbackRun nowMs i = .ok j) :
      Call (.rollback i.identity nowMs limits) others i j
  | modify {others : Usage} {i j : Instance} {nowMs : Millis} {limits : WorkflowsConfig}
      {action : WorkflowInstanceAction} (hvalid : limits.Valid) (hsafe : SafeTime nowMs)
      (hrun : modifyRun limits others nowMs i action = .ok j) :
      Call (.modify i.identity action nowMs limits) others i j
  | maintain {others : Usage} {i j : Instance} {nowMs : Millis} {limits : WorkflowsConfig}
      {limit ordinal : Nat} (hvalid : limits.Valid)
      (hrun : maintainStep limits others nowMs ordinal i = .ok j) :
      Call (.maintain nowMs limits limit) others i j
  | recover {others : Usage} {i j : Instance} {nowMs queuedAtMs : Millis}
      {limits : WorkflowsConfig} {limit : Nat} (hvalid : limits.Valid)
      (hnext : deadline nowMs limits.recoveryBackoffMs = .ok queuedAtMs)
      (hrun : recoverRun queuedAtMs nowMs i = .ok j) :
      Call (.recover nowMs limits limit) others i j

def Action.permits (a : Action) : Permits where
  touches _ := True
  registers := match a with
    | .claimBatch _ _ _ _ _ _ => True
    | _ => False
  starts := match a with
    | .claimBatch _ _ _ _ _ _ => True
    | _ => False
  moves := match a with
    | .claim _ _ _ _ => True
    | .yield _ _ => True
    | .finish _ _ _ _ => True
    | .sendEvent _ _ _ _ _ _ => True
    | .rollback _ _ _ => True
    | .modify _ _ _ _ => True
    | .maintain _ _ _ => True
    | .recover _ _ _ => True
    | _ => False
  claims token := match a with
    | .claim _ _ _ drawn => token = drawn
    | _ => False
  reports code := match a with
    | .settle _ _ outcome _ _ => outcome.reports code
    | _ => False

def Action.writesAt (a : Action) (i : Instance) : Millis :=
  match a with
  | .sendEvent _ _ _ _ nowMs _ => max nowMs i.updatedAtMs
  | a => a.nowMs.getD 0

variable {i j : Instance} {a : Action} {others : Usage} {p : Permits} {nowMs : Millis}

theorem Call.writes (hcall : Call a others i j) : Writes a.permits (a.writesAt i) i j := by
  cases hcall with
  | defer _ _ hrun => exact deferRun_writes hrun
  | claim _ _ hrun => exact (claimRun_moves trivial rfl hrun).left
  | heartbeat _ _ hrun => exact heartbeat_writes hrun
  | claimBatch _ _ _ _ hrun => exact claimBatch_writes trivial trivial (fun _ => trivial) hrun
  | settle _ _ _ hrun => exact settleReport_writes trivial (fun _ h => h) hrun
  | resolveDelay _ _ _ hrun => exact resolveDelay_writes trivial hrun
  | yield _ _ _ hrun => exact (release_moves trivial hrun).left
  | finish _ _ _ hrun => exact (finishRun_moves ⟨fun _ => trivial, trivial⟩ hrun).left
  | sendEvent _ _ _ hrun => exact admitEvent_writes ⟨fun _ => trivial, trivial⟩ hrun
  | rollback _ _ hrun => exact (rollbackRun_moves ⟨fun _ => trivial, trivial⟩ hrun).left
  | modify _ _ hrun => exact modifyRun_writes ⟨fun _ => trivial, trivial⟩ hrun
  | maintain _ hrun => exact maintainStep_writes trivial trivial hrun
  | recover _ _ hrun => exact (recoverRun_moves ⟨fun _ => trivial, trivial⟩ hrun).left

theorem Call.writesAt_ge (hcall : Call a others i j) :
    exists nowMs, a.nowMs = some nowMs ∧ nowMs ≤ a.writesAt i := by
  cases hcall with
  | sendEvent _ _ _ _ => exact ⟨_, rfl, le_max_left _ _⟩
  | _ => exact ⟨_, rfl, le_refl _⟩

/-! A sequence of writes keeps the identity, so a call does. -/

theorem Writes.invariant {P : Instance -> Prop}
    (hstep : forall k l, Write p nowMs k l -> P k -> P l) (hwrites : Writes p nowMs i j)
    (hi : P i) :
    P j := by
  induction hwrites with
  | refl => exact hi
  | tail _ hwrite ih => exact hstep _ _ hwrite ih

theorem Writes.row {P : Option Step -> Prop} {k : Nat} (hwrites : Writes p nowMs i j)
    (hupdate : forall l old new, old.ordinal = k -> StepUpdate p nowMs l old new ->
      P (some old) -> P (some new))
    (hregister : forall l new, StepRegistration p l new -> P none -> P (some new))
    (hi : P (i.steps.find? k)) : P (j.steps.find? k) := by
  refine hwrites.invariant (P := fun l => P (l.steps.find? k)) ?_ hi
  intro l m hwrite hl
  have hchange := hwrite.change k
  generalize l.steps.find? k = before at hchange hl
  generalize m.steps.find? k = after at hchange ⊢
  cases hchange with
  | same => exact hl
  | update hordinal hstep => exact hupdate l _ _ hordinal hstep hl
  | register hregistration => exact hregister l _ hregistration hl

theorem Write.identity (hwrite : Write p nowMs i j) : j.identity = i.identity := by
  cases hwrite with
  | step _ _ | consume _ _ | register _ _ | insertEvent _ _ _ _ => rfl
  | row hsame _ _ _ _ _ | state _ hsame _ _ _ => exact hsame.identity

theorem Writes.identity (hwrites : Writes p nowMs i j) : j.identity = i.identity :=
  hwrites.invariant (P := fun k => k.identity = i.identity)
    (fun _ _ hwrite hk => hwrite.identity.trans hk) rfl

theorem Call.identity (hcall : Call a others i j) : j.identity = i.identity := hcall.writes.identity

/-! ## Effects on the store -/

inductive CallStep (a : Action) : Store -> Store -> Prop where
  | mk {s : Store} {i j : Instance} (hfind : s.instances.find? i.id = some i)
      (hcall : Call a (s.others i.id) i j) : CallStep a s (s.put j)

theorem CallStep.of_find? {a : Action} {s : Store} {i j : Instance} {id : WorkflowInstanceId}
    (hfind : s.instances.find? id = some i) (hcall : Call a (s.others i.id) i j) :
    CallStep a s (s.put j) := by
  rw [← key_of_find? hfind] at hfind
  exact CallStep.mk hfind hcall

/-- What an action that committed did to the instances of a store. -/
inductive Effect (env : Environment) (a : Action) (s s' : Store) : Prop where
  | calls {t : Store} (hsteps : Relation.ReflTransGen (CallStep a) s t)
      (hinstances : s'.instances = t.instances)
  | created {workflows : List WorkflowCreation} {limits : WorkflowsConfig}
      {first : PreparedCreation} {prepared : List PreparedCreation}
      (haction : a = .insert workflows limits)
      (hprepared : workflows.mapM (prepareCreation env.versionDigest) = .ok prepared)
      (hcheck : checkCreation limits s first prepared = .ok ())
      (hinsert : prepared.foldlM insertInstance s = .ok s')
  | restarted {operation : WorkflowOperation} {nowMs : Millis} {limits : WorkflowsConfig}
      {projection : RestartProjection} {i j : Instance}
      (haction : a = .operate operation nowMs limits)
      (hkind : operation.kind = .restart)
      (hfind : s.instances.find? operation.identity.instanceId = some i)
      (hidentity : i.identity = operation.identity)
      (hverdict : restartVerdict limits s i operation = .ok projection)
      (hrun : restartRun env.versionDigest operation projection nowMs i = .ok j)
      (hinstances : s'.instances = (s.put j).instances)
  | purged {operation : WorkflowOperation} {nowMs : Millis} {limits : WorkflowsConfig}
      {i : Instance} (haction : a = .operate operation nowMs limits)
      (hkind : operation.kind = .purge)
      (hfind : s.instances.find? operation.identity.instanceId = some i)
      (hidentity : i.identity = operation.identity) (hterminal : i.live = false)
      (hinstances : s'.instances = s.instances.erase i.id)

section Effects

variable {env : Environment} {a : Action} {s s' : Store}

theorem Effect.unchanged (hinstances : s'.instances = s.instances) : Effect env a s s' :=
  Effect.calls ReflTransGen.refl hinstances

variable {id : WorkflowInstanceId}

theorem Effect.of_call {i j : Instance} (hfind : s.instances.find? id = some i)
    (hcall : Call a (s.others i.id) i j) (hinstances : s'.instances = (s.put j).instances) :
    Effect env a s s' :=
  Effect.calls (ReflTransGen.single (CallStep.of_find? hfind hcall)) hinstances

variable {fence : WorkflowFence} {nowMs : Millis} {limits : WorkflowsConfig}
  {identity : WorkflowInstanceIdentity}

theorem Effect.of_running {i j : Instance} (hrunning : s.running fence nowMs = .ok i)
    (hcall : i.id = fence.instanceId -> i.leased fence.runToken nowMs = true ->
      Call a (s.others i.id) i j) : Effect env a s (s.put j) := by
  rcases running_eq_ok.mp hrunning with ⟨hfind, _, hleased⟩
  exact Effect.of_call hfind (hcall (key_of_find? hfind) hleased) rfl

theorem deferWorkflow_effect (hdefer : deferWorkflow s id nowMs limits = .ok s') :
    Effect env (.defer id nowMs limits) s s' := by
  simp only [deferWorkflow, ok_iff, WorkflowsConfig.validate_eq_ok] at hdefer
  rcases hdefer with ⟨hvalid, _, hnext, hdefer⟩
  cases hfind : s.instances.find? id with
  | none =>
    rw [hfind] at hdefer
    cases hdefer
    exact Effect.unchanged rfl
  | some i =>
    rw [hfind] at hdefer
    simp only [ok_iff] at hdefer
    rcases hdefer with ⟨_, hrun, rfl⟩
    have hid : i.id = id := key_of_find? hfind
    subst hid
    exact Effect.of_call hfind (Call.defer hvalid hnext hrun) rfl

theorem sendWorkflowEvent_effect {sha256 : String -> Digest} {operationId : WorkflowOperationId}
    {eventType payload : String}
    (hsend : sendWorkflowEvent sha256 s identity operationId eventType payload nowMs limits =
      .ok s') :
    Effect env (.sendEvent identity operationId eventType payload nowMs limits) s s' := by
  simp only [sendWorkflowEvent, validateWorkflowEventType, ok_iff,
    WorkflowsConfig.validate_eq_ok] at hsend
  rcases hsend with ⟨hvalid, hname, _, hvalue, hsend⟩
  split at hsend
  · simp only [ok_iff] at hsend
    rw [← hsend.right]
    exact Effect.unchanged rfl
  · simp only [ok_iff] at hsend
    rcases hsend with ⟨_, hfind, hidentity, _, hrun, _, _, rfl⟩
    subst hidentity
    exact Effect.of_call hfind
      (Call.sendEvent hvalid hname (durableValueBase64_eq_ok.mp hvalue) hrun) rfl

theorem foldlM_calls {α : Type} {step : Store -> α -> Result Store}
    (hstep : forall t x u, step t x = .ok u -> CallStep a t u) {xs : List α} {t : Store}
    (hfold : xs.foldlM step s = .ok t) : ReflTransGen (CallStep a) s t := by
  refine foldlM_invariant (fun t => ReflTransGen (CallStep a) s t) ?_
    ReflTransGen.refl hfold
  intro x t u _ ht hu
  exact ht.tail (hstep t x u hu)

/-! Insertions and operations. -/

theorem insertWorkflows_effect {workflows : List WorkflowCreation}
    (hinsert : insertWorkflows env.versionDigest s workflows limits = .ok s') :
    Effect env (.insert workflows limits) s s' := by
  simp only [insertWorkflows, insertPrepared, ok_iff, ite_eq_iff] at hinsert
  rcases hinsert with ⟨_, _, _, hprepared, _, _, _,
    ⟨_, _, _, rfl⟩ | ⟨_, _, hcheck, hfold⟩⟩
  · exact Effect.unchanged rfl
  · exact Effect.created rfl hprepared hcheck hfold

theorem applyWorkflowOperation_effect {operation : WorkflowOperation}
    {result : WorkflowOperationResult}
    (happly : applyWorkflowOperation env.versionDigest s operation nowMs limits =
      .ok (result, s')) : Effect env (.operate operation nowMs limits) s s' := by
  cases applyWorkflowOperation_cases happly with
  | inl hreplay =>
    rw [hreplay.right]
    exact Effect.unchanged rfl
  | inr hfresh =>
    rcases hfresh with ⟨_, i, hfind, hidentity, hfresh⟩
    cases hkind : operation.kind with
    | restart =>
      rw [hkind] at hfresh
      cases applyRestart_cases hfresh with
      | inl hrejected =>
        rcases hrejected with ⟨_, _, honly⟩
        exact Effect.unchanged honly.instances
      | inr happlied =>
        rcases happlied with ⟨_, _, _, hverdict, hrun, honly⟩
        exact Effect.restarted rfl hkind hfind hidentity hverdict hrun honly.instances
    | purge =>
      have hpurge : applyPurge s operation nowMs i = .ok (result, s') := by
        rw [hkind] at hfresh
        exact hfresh
      unfold applyPurge at hpurge
      split at hpurge
      · exact Effect.unchanged (reject_only hpurge).right.instances
      · rename_i hlive
        simp only [ok_iff] at hpurge
        rcases hpurge with ⟨_, hpurge, hdecide⟩
        simp only [purgeInstance, ok_iff] at hpurge
        rcases hpurge with ⟨_, _, _, _, _, rfl⟩
        exact Effect.purged rfl hkind hfind hidentity (by simpa using hlive)
          (decideOperation_only hdecide).instances

theorem apply_effect (happly : a.apply env s = .ok s') : Effect env a s s' := by
  cases a <;> simp only [Action.apply, snd_eq_ok] at happly
  case insert => exact insertWorkflows_effect happly
  case defer => exact deferWorkflow_effect happly
  case claim =>
    simp only [claimWorkflow, ok_iff, WorkflowsConfig.validate_eq_ok] at happly
    rcases happly with ⟨_, hvalid, hclaim⟩
    split at hclaim
    · cases hclaim
      exact Effect.unchanged rfl
    · rename_i i hfilter
      rcases Option.filter_eq_some_iff.mp hfilter with ⟨hfind, hdue⟩
      simp only [ok_iff, Prod.mk.injEq] at hclaim
      rcases hclaim with ⟨rfl, j, hrun, _, rfl⟩
      exact Effect.of_call hfind (Call.claim hvalid hdue hrun) rfl
  case heartbeat =>
    simp only [heartbeatWorkflow, ok_iff, WorkflowsConfig.validate_eq_ok] at happly
    rcases happly with ⟨hvalid, i, hfind, j, hrun, rfl⟩
    exact Effect.of_call hfind (Call.heartbeat (key_of_find? hfind) hvalid hrun) rfl
  case claimBatch =>
    simp only [claimWorkflowBatch, ok_iff, WorkflowsConfig.validate_eq_ok] at happly
    rcases happly with ⟨_, hvalid, _, hfirst, i, hrunning, ⟨_, j⟩, hrun, ⟨⟩⟩
    exact Effect.of_running hrunning fun hid hleased =>
      Call.claimBatch hid hleased hvalid hfirst hrun
  case settle =>
    simp only [settleWorkflowStep, ok_iff, WorkflowsConfig.validate_eq_ok] at happly
    rcases happly with ⟨_, hvalid, i, hrunning, ⟨_, j⟩, hrun, ⟨⟩⟩
    exact Effect.of_running hrunning fun hid hleased => Call.settle hid hleased hvalid hrun
  case resolveDelay =>
    simp only [resolveWorkflowDelay, ok_iff, WorkflowsConfig.validate_eq_ok] at happly
    rcases happly with ⟨_, hvalid, i, hrunning, ⟨_, j⟩, hrun, ⟨⟩⟩
    exact Effect.of_running hrunning fun hid hleased => Call.resolveDelay hid hleased hvalid hrun
  case yield =>
    simp only [yieldWorkflow, ok_iff] at happly
    rcases happly with ⟨_, i, hrunning, hadmits, j, hrun, ⟨⟩⟩
    exact Effect.of_running hrunning fun hid hleased => Call.yield hid hleased hadmits hrun
  case finish =>
    simp only [finishWorkflow, ok_iff, WorkflowsConfig.validate_eq_ok] at happly
    rcases happly with ⟨_, hvalid, i, hrunning, j, hrun, ⟨⟩⟩
    exact Effect.of_running hrunning fun hid hleased => Call.finish hid hleased hvalid hrun
  case sendEvent => exact sendWorkflowEvent_effect happly
  case rollback =>
    simp only [requestWorkflowRollback, ok_iff, WorkflowsConfig.validate_eq_ok]
      at happly
    rcases happly with ⟨hvalid, _, hdeadline, i, hfind, rfl, j, hrun, rfl⟩
    exact Effect.of_call hfind (Call.rollback hvalid (durableDeadline_safe hdeadline) hrun) rfl
  case modify =>
    simp only [modifyWorkflow, ok_iff, WorkflowsConfig.validate_eq_ok] at happly
    rcases happly with ⟨hvalid, _, hdeadline, i, hfind, rfl, _, _, j, hrun, rfl⟩
    exact Effect.of_call hfind (Call.modify hvalid (durableDeadline_safe hdeadline) hrun) rfl
  case maintain =>
    simp only [maintainWorkflowDue, ok_iff, WorkflowsConfig.validate_eq_ok] at happly
    rcases happly with ⟨_, hvalid, _, t, hfold, ⟨⟩⟩
    refine Effect.calls (foldlM_calls ?_ hfold) rfl
    intro t due u hu
    simp only [maintainDue, ok_iff] at hu
    rcases hu with ⟨i, hfind, j, hrun, rfl⟩
    exact CallStep.of_find? hfind (Call.maintain hvalid hrun)
  case recover =>
    simp only [recoverWorkflows, ok_iff, WorkflowsConfig.validate_eq_ok] at happly
    rcases happly with ⟨_, hvalid, _, t, hfold, ⟨⟩⟩
    refine Effect.calls (foldlM_calls ?_ hfold) rfl
    intro t id u hu
    simp only [recoverOne, ok_iff] at hu
    rcases hu with ⟨_, hfind, _, hnext, _, hrun, rfl⟩
    exact CallStep.of_find? hfind (Call.recover hvalid hnext hrun)
  case operate => exact applyWorkflowOperation_effect happly.choose_spec
  case sweep =>
    simp only [sweepWorkflowGc, ok_iff] at happly
    rcases happly with ⟨current, _, hsweep⟩
    cases current with
    | none =>
      cases hsweep
      exact Effect.unchanged rfl
    | some current =>
      simp only [ok_iff] at hsweep
      rw [← hsweep.right]
      exact Effect.unchanged rfl

end Effects

end Workflow
end OpenCompute
