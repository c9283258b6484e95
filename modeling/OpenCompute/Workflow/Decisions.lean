import OpenCompute.Workflow.Restart

/-!
# Decisions on operations

A decision is recorded under the sequence number of its operation and read back
whenever the operation is applied again.  Only an operation with a greater
number takes its place.
-/

namespace OpenCompute
namespace Workflow

open Relational Table Transaction

variable {versionDigest : WorkflowTarget -> Digest} {s s' : Store}
  {operation other : WorkflowOperation} {result : WorkflowOperationResult} {nowMs : Millis}
  {limits : WorkflowsConfig}

/-! ## Reading a decision -/

theorem readDecision_eq_some : readDecision s operation = .ok (some result) ↔
    exists p, s.progress.find? operation.identity.instanceId = some p ∧
      p.sequence = operation.sequence ∧ p.matches operation = true ∧ s.verifyOne p = true ∧
      decisionResult s operation p = .ok result := by
  unfold readDecision
  cases s.progress.find? operation.identity.instanceId with
  | none => simp
  | some p =>
    by_cases hlt : p.sequence < operation.sequence
    · simp [hlt, hlt.ne]
    · simp [hlt]

/-- The other operation has the fields that a decision on the operation is stored with. -/
def SameDecision (operation other : WorkflowOperation) : Prop :=
  operation.id = other.id ∧ operation.identity.creationNonce = other.identity.creationNonce ∧
  operation.identity.instanceGeneration = other.identity.instanceGeneration ∧
  operation.targetGeneration = other.targetGeneration ∧ operation.kind = other.kind ∧
  operation.restartFrom = other.restartFrom

/-- Of the operations with one sequence number, those that the stored decision answers. -/
def Replays (operation other : WorkflowOperation) (result : WorkflowOperationResult) : Prop :=
  SameDecision operation other ∧
    (other.identity = operation.identity ∨ operation.kind = .purge ∧ result = .applied)

theorem holds_iff {id : WorkflowInstanceId} {p : Instance -> Bool} :
    s.holds id p = true ↔ exists i, s.instances.find? id = some i ∧ p i = true :=
  Option.any_eq_true _ _

theorem decisionResult_replays {p : Progress} (hresult : decisionResult s operation p = .ok result)
    (hid : other.identity.instanceId = operation.identity.instanceId)
    (hfields : SameDecision operation other) :
    (exists r, decisionResult s other p = .ok r) ↔
      other.identity = operation.identity ∨ operation.kind = .purge ∧ result = .applied := by
  rcases hfields with ⟨_, _, hgeneration, htarget, hkind, _⟩
  have hsame : other.targetIdentity = operation.targetIdentity ↔
      other.identity = operation.identity := by
    unfold WorkflowOperation.targetIdentity
    rw [← htarget]
    revert hgeneration
    cases other.identity
    cases operation.identity
    simp +contextual
  unfold decisionResult at hresult ⊢
  rw [hid, ← hkind]
  cases hrejection : p.rejection with
  | none =>
    simp only [hrejection, ok_iff] at hresult ⊢
    rcases hresult with ⟨hstored, rfl⟩
    cases hop : operation.kind with
    | purge => simp
    | restart =>
      rcases holds_iff.mp (hstored hop) with ⟨i, hfind, hi⟩
      simp only [Bool.and_eq_true, decide_eq_true_eq] at hi
      simpa [Store.holds, hfind, hi, ← hsame] using eq_comm
  | some code =>
    simp only [hrejection, ok_iff] at hresult ⊢
    rcases hresult with ⟨hcode, hstored, rfl⟩
    rcases holds_iff.mp hstored with ⟨_, hfind, hi⟩
    rw [decide_eq_true_eq] at hi
    simpa [Store.holds, hfind, hi, hcode] using eq_comm

theorem readDecision_replays (hread : readDecision s operation = .ok (some result))
    (hid : other.identity.instanceId = operation.identity.instanceId)
    (hsequence : other.sequence = operation.sequence) :
    (forall r, readDecision s other = .ok r -> Replays operation other result) ∧
      (Replays operation other result -> exists r, readDecision s other = .ok (some r)) := by
  rcases readDecision_eq_some.mp hread with ⟨p, hfind, hseq, hmatch, hverify, hresult⟩
  have hsame : p.sequence = other.sequence := hseq.trans hsequence.symm
  have hmatches : p.matches other = true ↔ SameDecision operation other := by
    simp only [Progress.matches, Bool.and_eq_true, decide_eq_true_eq, and_assoc] at hmatch ⊢
    rcases hmatch with ⟨h1, h2, h3, h4, h5, h6⟩
    rw [h1, h2, h3, h4, h5, h6]
    rfl
  constructor
  · intro r hr
    unfold readDecision at hr
    rw [hid, hfind] at hr
    simp only [hsame, lt_irrefl, if_false, ok_iff] at hr
    rcases hr with ⟨_, hother, _, r, hr, _⟩
    have hfields := hmatches.mp hother
    exact ⟨hfields, (decisionResult_replays hresult hid hfields).mp ⟨r, hr⟩⟩
  · rintro ⟨hfields, hidentity⟩
    rcases (decisionResult_replays hresult hid hfields).mpr hidentity with ⟨r, hr⟩
    exact ⟨r, readDecision_eq_some.mpr ⟨p, hid ▸ hfind, hsame, hmatches.mpr hfields, hverify, hr⟩⟩

/-! ## Applying operations -/

theorem decideOperation_read {target : Option Nat} {rejection : Option ErrorCode}
    (hdecide : decideOperation s operation target rejection = .ok (result, s')) :
    readDecision s' operation = .ok (some result) := by
  simp only [decideOperation, ok_iff, Prod.mk.injEq] at hdecide
  rcases hdecide with ⟨_, _, _, hread, _, rfl, rfl, rfl⟩
  exact hread

theorem reject_read {code : ErrorCode} (hreject : reject s operation code = .ok (result, s')) :
    readDecision s' operation = .ok (some result) := by
  simp only [reject, ok_iff] at hreject
  exact decideOperation_read hreject.right

theorem apply_decides
    (happly : applyWorkflowOperation versionDigest s operation nowMs limits = .ok (result, s')) :
    readDecision s' operation = .ok (some result) ∧
      (s' = s ∨ readDecision s operation = .ok none) := by
  rcases applyWorkflowOperation_cases happly with ⟨hread, rfl⟩ | ⟨hread, _, _, _, hnew⟩
  · exact ⟨hread, .inl rfl⟩
  · refine ⟨?_, .inr hread⟩
    cases hkind : operation.kind with
    | restart =>
      rw [hkind] at hnew
      unfold applyRestart at hnew
      dsimp only at hnew
      split at hnew
      · exact reject_read hnew
      · split at hnew
        · exact reject_read hnew
        · rcases bind_eq_ok.mp hnew with ⟨_, _, hdecide⟩
          exact decideOperation_read hdecide
    | purge =>
      rw [hkind] at hnew
      unfold applyPurge at hnew
      dsimp only at hnew
      split at hnew
      · exact reject_read hnew
      · rcases bind_eq_ok.mp hnew with ⟨_, _, hdecide⟩
        exact decideOperation_read hdecide

def Applies (versionDigest : WorkflowTarget -> Digest) (id : WorkflowInstanceId)
    (s s' : Store) : Prop :=
  exists operation nowMs limits result, operation.identity.instanceId = id ∧
    applyWorkflowOperation versionDigest s operation nowMs limits = .ok (result, s')

/-- The stored decision is that on the operation, or on a later one. -/
def Store.Decided (s : Store) (operation : WorkflowOperation)
    (result : WorkflowOperationResult) : Prop :=
  exists p, s.progress.find? operation.identity.instanceId = some p ∧
    (operation.sequence < p.sequence ∨
      p.sequence = operation.sequence ∧ readDecision s operation = .ok (some result))

theorem Store.Decided.step (hs : s.Decided operation result)
    (hstep : Applies versionDigest operation.identity.instanceId s s') :
    s'.Decided operation result := by
  rcases hstep with ⟨next, _, _, _, hid, happly⟩
  rcases apply_decides happly with ⟨hread, rfl | hnone⟩
  · exact hs
  · rcases hs with ⟨p, hfind, _⟩
    rcases readDecision_eq_some.mp hread with ⟨q, hq, _, _⟩
    have hlater : p.sequence < next.sequence := by
      unfold readDecision at hnone
      rw [hid, hfind] at hnone
      by_contra hge
      simp [hge] at hnone
    refine ⟨q, hid ▸ hq, .inl ?_⟩
    omega

theorem apply_of_read {atMs deadline : Millis} {config : WorkflowsConfig} (hconfig : config.Valid)
    (hdeadline : durableDeadline atMs 0 = .ok deadline) :
    (forall r, readDecision s operation = .ok (some r) ->
      applyWorkflowOperation versionDigest s operation atMs config = .ok (r, s)) ∧
    forall e, readDecision s operation = .error e ->
      applyWorkflowOperation versionDigest s operation atMs config = .error e := by
  have hvalid : config.validate = .ok () := WorkflowsConfig.validate_eq_ok.mpr hconfig
  unfold applyWorkflowOperation
  rw [hvalid, hdeadline]
  constructor
  · intro r hread
    rw [hread]
    rfl
  · intro e hread
    rw [hread]
    rfl

/-!
## Decisions are final

After any calls an operation that was decided last is answered as before, one
with a smaller number is stale, and the stored fields decide on any other.
-/

theorem operation_decisions {s₁ s₂ : Store}
    (happly : applyWorkflowOperation versionDigest s operation nowMs limits = .ok (result, s₁))
    (hcalls : Relation.ReflTransGen (Applies versionDigest operation.identity.instanceId) s₁ s₂) :
    exists p, s₂.progress.find? operation.identity.instanceId = some p ∧
      operation.sequence ≤ p.sequence ∧
      forall (atMs : Millis) (config : WorkflowsConfig), config.Valid ->
        (exists deadline, durableDeadline atMs 0 = .ok deadline) ->
        (p.sequence = operation.sequence ->
          applyWorkflowOperation versionDigest s₂ operation atMs config = .ok (result, s₂) ∧
          forall other : WorkflowOperation,
            other.identity.instanceId = operation.identity.instanceId ->
            other.sequence = operation.sequence ->
            ((exists e, applyWorkflowOperation versionDigest s₂ other atMs config = .error e) ↔
              ¬ Replays operation other result)) ∧
        forall other : WorkflowOperation,
          other.identity.instanceId = operation.identity.instanceId ->
          other.sequence < p.sequence ->
          applyWorkflowOperation versionDigest s₂ other atMs config =
            .error (error .workflowRunStale) := by
  have hdecided : s₂.Decided operation result := by
    induction hcalls with
    | refl =>
      have hread := (apply_decides happly).left
      rcases readDecision_eq_some.mp hread with ⟨p, hfind, hsequence, _⟩
      exact ⟨p, hfind, Or.inr ⟨hsequence, hread⟩⟩
    | tail _ hstep ih => exact ih.step hstep
  rcases hdecided with ⟨p, hfind, hp⟩
  refine ⟨p, hfind, by omega, ?_⟩
  rintro atMs config hconfig ⟨deadline, hdeadline⟩
  refine ⟨fun hlatest => ?_, ?_⟩
  · have hread := (hp.resolve_left (by omega)).right
    refine ⟨(apply_of_read hconfig hdeadline).left _ hread, fun other hid hsequence => ?_⟩
    rcases readDecision_replays hread hid hsequence with ⟨hanswered, hreplays⟩
    constructor
    · rintro ⟨e, he⟩ hsame
      rcases hreplays hsame with ⟨r, hr⟩
      rw [(apply_of_read hconfig hdeadline).left r hr] at he
      cases he
    · intro hdiffers
      cases hother : readDecision s₂ other with
      | error e => exact ⟨e, (apply_of_read hconfig hdeadline).right e hother⟩
      | ok r => exact absurd (hanswered r hother) hdiffers
  · intro other hid hlt
    refine (apply_of_read hconfig hdeadline).right _ ?_
    unfold readDecision
    rw [hid, hfind]
    simp only [if_neg (not_lt.mpr hlt.le), ensure, if_neg hlt.ne']
    rfl

namespace Sample

def changedRestart : WorkflowOperation :=
  { restartFromSecond with priorState := .retained, createdAtMs := 11 }

end Sample

open Sample in
theorem operation_decisions_restart : exists w s₁ s₂, History environment 7 0 twoSteps w ∧
    applyWorkflowOperation environment.versionDigest w.store restartFromSecond 10 Sample.limits =
      .ok (.applied, s₁) ∧
    applyWorkflowOperation environment.versionDigest s₁ restartAgain 20 Sample.limits =
      .ok (.applied, s₂) ∧
    applyWorkflowOperation environment.versionDigest s₂ restartFromSecond 30 Sample.limits =
      .error (error .workflowRunStale) := by
  rcases exists_restarted with ⟨w, s₁, s₂, hrun, _, happly, hagain, hsequence⟩
  have hcalls : Applies environment.versionDigest restartFromSecond.identity.instanceId s₁ s₂ :=
    ⟨restartAgain, 20, Sample.limits, .applied, rfl, hagain⟩
  rcases operation_decisions happly (.single hcalls) with ⟨p, hfind, _, hanswers⟩
  have hlater : restartFromSecond.sequence < p.sequence := by
    rw [hfind] at hsequence
    rw [Option.some.inj hsequence]
    decide
  exact ⟨w, s₁, s₂, hrun, happly, hagain,
    (hanswers 30 Sample.limits (by decide) ⟨30, rfl⟩).right _ rfl hlater⟩

open Sample in
theorem changed_operation_answered : exists w s₁, History environment 7 0 twoSteps w ∧
    applyWorkflowOperation environment.versionDigest w.store restartFromSecond 10 Sample.limits =
      .ok (.applied, s₁) ∧
    changedRestart.sequence = restartFromSecond.sequence ∧ changedRestart ≠ restartFromSecond ∧
    applyWorkflowOperation environment.versionDigest s₁ changedRestart 10 Sample.limits =
      .ok (.applied, s₁) := by
  rcases exists_restarted with ⟨w, s₁, _, hrun, _, happly, _⟩
  have hdeadline : durableDeadline 10 0 = .ok 10 := rfl
  exact ⟨w, s₁, hrun, happly, rfl, by decide,
    (apply_of_read (by decide) hdeadline).left _ (apply_decides happly).left⟩

end Workflow
end OpenCompute
