import OpenCompute.Workflow.System

/-!
# Restarting from a step

A restart that is applied keeps the completed steps before the selected one as
they are, registers the rest of its batch again, and drops everything after.  A
restart that is refused or fails leaves the instance alone.
-/

namespace OpenCompute
namespace Workflow

open Relational Table Transaction List Bool

/-- The store after an operation; a failed transaction leaves it as it was. -/
def storeAfter {α : Type} (s : Store) (outcome : Result (α × Store)) :
    Store :=
  match outcome with
  | .ok (_, s') => s'
  | .error _ => s

def Store.FenceValid (s : Store) (fence : WorkflowFence) (nowMs : Millis) : Prop :=
  exists i, s.running fence nowMs = .ok i

structure OnlyDecision (id : WorkflowInstanceId) (s s' : Store) : Prop where
  owner : s'.owner = s.owner
  instances : s'.instances = s.instances
  receipts : s'.receipts = s.receipts
  gcReceipts : s'.gcReceipts = s.gcReceipts
  progress : forall other, other ≠ id -> s'.progress.find? other = s.progress.find? other

theorem OnlyDecision.refl (id : WorkflowInstanceId) (s : Store) : OnlyDecision id s s :=
  ⟨rfl, rfl, rfl, rfl, fun _ _ => rfl⟩

/-! ## What is recorded -/

variable {s s' : Store} {operation : WorkflowOperation} {result : WorkflowOperationResult}
  {target : Nat} {nextEventSeq : Int} {nowMs : Millis} {i i' : Instance} {new : Step}
  {selector : WorkflowRestartSelector} {versionDigest : WorkflowTarget -> Digest}
  {p : RestartProjection}

theorem recordProgress_eq_ok {p : Progress} (hrecord : recordProgress s p = .ok s') :
    exists progress, s' = { s with progress } ∧ forall other, progress.find? other =
      if other = p.instanceId then some p else s.progress.find? other := by
  unfold recordProgress at hrecord
  simp only [ok_iff] at hrecord
  rcases hrecord with ⟨_, _, _, hrest⟩
  split at hrest
  · simp only [ok_iff] at hrest
    rcases hrest with ⟨progress, hinsert, rfl⟩
    exact ⟨progress, rfl, find?_of_insert? hinsert⟩
  · rename_i hold
    simp only [ok_iff] at hrest
    rcases hrest with ⟨_, rfl⟩
    rcases find?_eq_some.mp hold with ⟨hmem, hkey⟩
    exact ⟨_, rfl, find?_replace hmem hkey⟩

theorem decideOperation_only {target : Option Nat} {rejection : Option ErrorCode}
    (hdecide : decideOperation s operation target rejection = .ok (result, s')) :
    OnlyDecision operation.identity.instanceId s s' := by
  simp only [decideOperation, ok_iff, Prod.mk.injEq] at hdecide
  rcases hdecide with ⟨_, hrecord, _, _, _, _, rfl, rfl⟩
  rcases recordProgress_eq_ok hrecord with ⟨_, rfl, hfind⟩
  refine ⟨rfl, rfl, rfl, rfl, ?_⟩
  intro other hother
  rw [hfind]
  exact if_neg hother

/-! A recorded decision is read back as it was written. -/

theorem decisionResult_eq_ok {p : Progress} (hresult : decisionResult s operation p = .ok result) :
    result = p.rejection.elim .applied .rejected := by
  unfold decisionResult at hresult
  cases hrejection : p.rejection with
  | none =>
    simp only [hrejection, ok_iff] at hresult
    exact hresult.right.symm
  | some code =>
    simp only [hrejection, ok_iff] at hresult
    exact hresult.right.right.symm

theorem decideOperation_result {target : Option Nat} {rejection : Option ErrorCode}
    (hdecide : decideOperation s operation target rejection = .ok (result, s')) :
    result = rejection.elim .applied .rejected := by
  simp only [decideOperation, ok_iff, Prod.mk.injEq] at hdecide
  rcases hdecide with ⟨_, hrecord, _, hread, _, rfl, rfl, rfl⟩
  rcases recordProgress_eq_ok hrecord with ⟨_, rfl, hfind⟩
  unfold readDecision at hread
  rw [(hfind operation.identity.instanceId).trans (if_pos rfl)] at hread
  have hsequence : ¬ (operation.progress target rejection).sequence < operation.sequence :=
    lt_irrefl operation.sequence
  simp only [if_neg hsequence, ok_iff] at hread
  rcases hread with ⟨_, _, _, _, hresult, heq⟩
  cases heq
  exact decisionResult_eq_ok hresult

theorem reject_only {code : ErrorCode} (hreject : reject s operation code = .ok (result, s')) :
    result = .rejected code ∧ OnlyDecision operation.identity.instanceId s s' := by
  simp only [reject, ok_iff] at hreject
  exact ⟨decideOperation_result hreject.right, decideOperation_only hreject.right⟩

/-! ## The steps of the new generation -/

/-- A step of the new generation, from the step that it replaces. -/
def Reinserted (target : Nat) (nextEventSeq : Int) (nowMs : Millis) (old new : Step) :
    Prop :=
  restartStep target nextEventSeq nowMs old = some new ∧ restartInsertGuard target new = true

structure Reinsertion (target : Nat) (nextEventSeq : Int) (nowMs : Millis)
    (olds : List Step) (i j : Instance) : Prop where
  frame : j = { i with steps := j.steps, accounts := j.accounts }
  rows : j.steps.rows = i.steps.rows ++ olds.filterMap (restartStep target nextEventSeq nowMs)
  steps : forall old, old ∈ olds -> exists new, Reinserted target nextEventSeq nowMs old new
  accounts : i.accounts = i.accounting -> j.accounts = j.accounting

theorem foldlM_reinsertStep {olds : List Step} {j : Instance}
    (hfold : olds.foldlM (reinsertStep target nextEventSeq nowMs) i = .ok j) :
    Reinsertion target nextEventSeq nowMs olds i j := by
  induction olds generalizing i with
  | nil =>
    cases hfold
    exact ⟨rfl, (append_nil _).symm, forall_mem_nil _, fun h => h⟩
  | cons s olds ih =>
    rcases foldlM_cons_eq_ok.mp hfold with ⟨_, hu, hrest⟩
    simp only [reinsertStep, ok_iff] at hu
    rcases hu with ⟨new, hrow, hguard, steps, hinsert, rfl⟩
    have hnew : Reinserted target nextEventSeq nowMs s new := ⟨hrow, hguard⟩
    have hloop := ih hrest
    refine ⟨hloop.frame, ?_, ?_, fun _ => hloop.accounts rfl⟩
    · rw [hloop.rows, filterMap_cons_some hnew.left]
      show steps.rows ++ _ = _
      rw [(insert?_eq_some.mp hinsert).right, append_assoc]
      rfl
    · intro old hold
      cases mem_cons.mp hold with
      | inl heq => exact ⟨new, heq ▸ hnew⟩
      | inr hrest => exact hloop.steps old hrest

theorem Reinsertion.mem {olds : List Step} {j : Instance}
    (hloop : Reinsertion target nextEventSeq nowMs olds i j) (hempty : i.steps.rows = []) :
    new ∈ j.steps ↔ exists old, old ∈ olds ∧
      restartStep target nextEventSeq nowMs old = some new := by
  rw [← mem_rows, hloop.rows, hempty, nil_append, mem_filterMap]

theorem restartedInstance_accounts (i : Instance) (operation : WorkflowOperation)
    (p : RestartProjection) (nowMs : Millis) :
    (restartedInstance i operation p nowMs).accounts =
      (restartedInstance i operation p nowMs).accounting := by
  simp [restartedInstance, Instance.accounting, Instance.historyBytes, Table.empty,
    initialStateBytes, Lifecycle.bytes, Lifecycle.output, Lifecycle.errorCode]

/-! ## The new generation -/

def RegisteredAt (nowMs : Millis) (config : WorkflowDurableConfig) (state : StepState) :
    Prop :=
  match config with
  | .doStep _ => state = .pending none
  | .sleep durationMs => state = .waiting (nowMs + durationMs)
  | .sleepUntil timestampMs => state = .waiting timestampMs
  | .waitEvent _ timeoutMs => state = .waiting (nowMs + timeoutMs)

/-- An instance restarted at a step, from the instance before. -/
structure RestartedAt (selected : Step) (nowMs : Millis) (i i' : Instance) : Prop where
  retained : forall s, s ∈ i.steps -> s.ordinal < selected.ordinal ->
    s.state.isComplete = true ∧ s ∈ i'.steps
  registered : forall s, s ∈ i.steps -> selected.ordinal ≤ s.ordinal ->
    s.ordinal < selected.descriptor.batchEnd ->
    exists s', s' ∈ i'.steps ∧ s'.descriptor = s.descriptor ∧ s'.startedAtMs = nowMs ∧
      s'.updatedAtMs = nowMs ∧ RegisteredAt nowMs s.descriptor.config s'.state
  dropped : forall s', s' ∈ i'.steps -> s'.ordinal < selected.descriptor.batchEnd ∧
    exists s, s ∈ i.steps ∧ s.ordinal = s'.ordinal
  events : i'.events.rows = []
  accounts : i'.accounts = i'.accounting
  queued : i'.lifecycle = .queued nowMs ∧ i'.rollbackRequested = false
  input : i'.input = i.input ∧ i'.retention = i.retention

theorem restartStep_before (nextEventSeq : Int) (nowMs : Millis) {s : Step}
    (hbefore : s.ordinal < target) : restartStep target nextEventSeq nowMs s = some s := by
  unfold restartStep
  rw [if_pos hbefore]

theorem restartStep_after {s : Step} (hafter : target ≤ s.ordinal)
    (hnew : restartStep target nextEventSeq nowMs s = some new) :
    new.descriptor = s.descriptor ∧ (new.startedAtMs = nowMs ∧ new.updatedAtMs = nowMs) ∧
      new.ceiling = bufferCeiling s.descriptor.config nextEventSeq ∧
      new.state = freshState s.descriptor.config nowMs := by
  unfold restartStep Step.make? at hnew
  rw [if_neg (Nat.not_lt.mpr hafter)] at hnew
  split at hnew <;> cases hnew
  exact ⟨rfl, ⟨rfl, rfl⟩, rfl, rfl⟩

theorem restartStep_ordinal {s : Step} (hnew : restartStep target nextEventSeq nowMs s = some new) :
    new.ordinal = s.ordinal := by
  by_cases hbefore : s.ordinal < target
  · rw [restartStep_before nextEventSeq nowMs hbefore] at hnew
    cases hnew
    rfl
  · exact congrArg WorkflowStepDescriptor.ordinal
      (restartStep_after (Nat.not_lt.mp hbefore) hnew).left

theorem mem_before {ordinal : Nat} {s : Step} :
    s ∈ i.before ordinal ↔ s ∈ i.steps ∧ s.ordinal < ordinal := by
  unfold Instance.before
  rw [List.mem_filter, mem_rows, decide_eq_true_eq]

/-! ## An applied restart -/

theorem selectionGuard_unique {retain : Nat}
    (hguard : selectionGuard i selector target retain = true) :
    exists selected, selected ∈ i.steps ∧ selected.ordinal = target ∧
      selected.descriptor.batchEnd = retain ∧ selector.selects selected.descriptor = true ∧
      forall s, s ∈ i.steps -> selector.selects s.descriptor = true -> s = selected := by
  simp only [selectionGuard, and_eq_true, any_eq_true, decide_eq_true_eq] at hguard
  rcases hguard with ⟨⟨⟨⟨selected, hmem, ⟨hordinal, hselects⟩, hretain⟩, hcount⟩, _⟩, _⟩
  refine ⟨selected, hmem, hordinal, hretain.symm, hselects, ?_⟩
  intro s hs hother
  rw [countP_eq_length_filter, length_eq_one_iff] at hcount
  rcases hcount with ⟨_, honly⟩
  have hselected : selected ∈ i.steps.rows.filter fun s => selector.selects s.descriptor :=
    List.mem_filter.mpr ⟨hmem, hselects⟩
  have hs' : s ∈ i.steps.rows.filter fun s => selector.selects s.descriptor :=
    List.mem_filter.mpr ⟨hs, hother⟩
  rw [honly, List.mem_singleton] at hselected hs'
  rw [hselected, hs']

section

variable (hrun : restartRun versionDigest operation p nowMs i = .ok i')
include hrun

theorem restartRun_eq_ok :
    restartContextChecks operation p ∧ restartContextGuard i operation p nowMs = true ∧
    (exists target olds, Reinsertion target p.nextEventSeq nowMs olds
      (restartedInstance i operation p nowMs) i' ∧
      (p.targetOrdinal = some target ∧ olds = i.before p.retainStepCount ∨
        p.targetOrdinal = none ∧ olds = [])) ∧ verifyHistory versionDigest i' = .ok () := by
  simp only [restartRun, ok_iff] at hrun
  rcases hrun with ⟨hchecks, hguard, _, hloop, hverify, rfl⟩
  refine ⟨hchecks, hguard, ?_, hverify⟩
  unfold reinsertSteps at hloop
  cases htarget : p.targetOrdinal with
  | none =>
    rw [htarget] at hloop
    cases hloop
    exact ⟨0, [], ⟨rfl, (append_nil _).symm, forall_mem_nil _,
      fun h => h⟩, .inr ⟨rfl, rfl⟩⟩
  | some target =>
    rw [htarget] at hloop
    exact ⟨target, _, foldlM_reinsertStep hloop, .inl ⟨rfl, rfl⟩⟩

theorem restartRun_identity :
    i'.identity = { i.identity with instanceGeneration := operation.targetGeneration } := by
  rcases restartRun_eq_ok hrun with ⟨_, _, ⟨_, _, hloop, _⟩, _⟩
  rw [hloop.frame]
  rfl

theorem restartRun_queued : i'.lifecycle = .queued nowMs := by
  rcases restartRun_eq_ok hrun with ⟨_, _, ⟨_, _, hloop, _⟩, _⟩
  rw [hloop.frame]
  rfl

theorem restartRun_generation :
    operation.targetGeneration = i.generation + 1 ∧ i'.generation = i.generation + 1 := by
  rcases restartRun_eq_ok hrun with ⟨hchecks, hguard, _⟩
  have hidentity := restartRun_identity hrun
  simp only [restartContextGuard, and_eq_true, decide_eq_true_eq] at hguard
  rcases hguard with ⟨⟨⟨_, hgeneration⟩, _⟩, _⟩
  have htarget : operation.targetGeneration = i.generation + 1 := by
    rw [hgeneration]
    exact hchecks.right.left
  refine ⟨htarget, ?_⟩
  rw [← htarget]
  exact congrArg WorkflowInstanceIdentity.instanceGeneration hidentity

theorem restartRun_steps (hnew : new ∈ i'.steps) :
    exists old, old ∈ i.steps ∧ new.descriptor = old.descriptor ∧
      ((new = old ∧ old.state.isComplete = true) ∨
        ((new.startedAtMs = nowMs ∧ new.updatedAtMs = nowMs) ∧
          new.ceiling = bufferCeiling old.descriptor.config p.nextEventSeq ∧
          new.state = freshState old.descriptor.config nowMs)) := by
  rcases restartRun_eq_ok hrun with ⟨_, _, ⟨target, _, hloop, holds⟩, _⟩
  rcases (hloop.mem rfl).mp hnew with ⟨old, hold, hstep⟩
  have hmem : old ∈ i.steps := by
    cases holds with
    | inl hsome =>
      rw [hsome.right] at hold
      exact (mem_before.mp hold).left
    | inr hnone =>
      rw [hnone.right] at hold
      cases hold
  refine ⟨old, hmem, ?_⟩
  by_cases hbefore : old.ordinal < target
  · rw [restartStep_before p.nextEventSeq nowMs hbefore] at hstep
    cases hstep
    rcases hloop.steps new hold with ⟨_, hagain, hguard⟩
    rw [restartStep_before p.nextEventSeq nowMs hbefore] at hagain
    cases hagain
    simp only [restartInsertGuard, and_eq_true, or_eq_true, decide_eq_true_eq] at hguard
    exact ⟨rfl, .inl ⟨rfl, hguard.left.resolve_left (Nat.not_le.mpr hbefore)⟩⟩
  · rcases restartStep_after (Nat.not_lt.mp hbefore) hstep with ⟨hdescriptor, hfresh⟩
    exact ⟨hdescriptor, .inr hfresh⟩

end

theorem restartRun_restartedAt (hfrom : operation.restartFrom = some selector)
    (hrun : restartRun versionDigest operation p nowMs i = .ok i') :
    verifyHistory versionDigest i' = .ok () ∧
    i'.identity = { i.identity with instanceGeneration := operation.targetGeneration } ∧
    operation.targetGeneration = i.generation + 1 ∧
    exists selected, selected ∈ i.steps ∧ selector.selects selected.descriptor = true ∧
      (forall s, s ∈ i.steps -> selector.selects s.descriptor = true -> s = selected) ∧
      RestartedAt selected nowMs i i' := by
  rcases restartRun_eq_ok hrun with ⟨_, hguard, ⟨at_, olds, hre, holds⟩, hverify⟩
  simp only [restartContextGuard, hfrom, and_eq_true, decide_eq_true_eq] at hguard
  rcases hguard with ⟨⟨⟨_, _⟩, _⟩, _, hany⟩
  rcases (Option.any_eq_true _ _).mp hany with ⟨_, htarget, hselection⟩
  rcases selectionGuard_unique hselection with ⟨selected, hmem, rfl, hretain, hselects, hunique⟩
  have hwhole : at_ = selected.ordinal ∧ olds = i.before p.retainStepCount := by
    rw [htarget] at holds
    cases holds with
    | inl hsome => exact ⟨(Option.some.inj hsome.left).symm, hsome.right⟩
    | inr hnone => cases hnone.left
  rcases hwhole with ⟨rfl, rfl⟩
  have hrows : (restartedInstance i operation p nowMs).steps.rows = [] := rfl
  refine ⟨hverify, restartRun_identity hrun, (restartRun_generation hrun).left, selected,
    hmem, hselects, hunique, ?_⟩
  · constructor
    · intro s hs hbefore
      have hold : s ∈ i.before p.retainStepCount :=
        mem_before.mpr ⟨hs, hretain ▸ Nat.lt_trans hbefore
          selected.descriptor_valid.batch.right.left⟩
      have hkeep := restartStep_before p.nextEventSeq nowMs hbefore
      rcases hre.steps s hold with ⟨new, hnew, hinsert⟩
      rw [hkeep] at hnew
      cases hnew
      simp only [restartInsertGuard, and_eq_true, or_eq_true, decide_eq_true_eq]
        at hinsert
      refine ⟨?_, (hre.mem hrows).mpr ⟨s, hold, hkeep⟩⟩
      exact hinsert.left.resolve_left (Nat.not_le.mpr hbefore)
    · intro s hs hafter hbatch
      have hold : s ∈ i.before p.retainStepCount := mem_before.mpr ⟨hs, hretain ▸ hbatch⟩
      rcases hre.steps s hold with ⟨new, hnew, _⟩
      rcases restartStep_after hafter hnew with ⟨hdescriptor, ⟨hstarted, hupdated⟩, _, hstate⟩
      refine ⟨new, (hre.mem hrows).mpr ⟨s, hold, hnew⟩, hdescriptor, hstarted, hupdated, ?_⟩
      rw [hstate]
      cases s.descriptor.config <;> rfl
    · intro s' hs'
      rcases (hre.mem hrows).mp hs' with ⟨s, hold, hnew⟩
      rcases mem_before.mp hold with ⟨hs, hlt⟩
      rw [restartStep_ordinal hnew, hretain]
      exact ⟨hlt, s, hs, rfl⟩
    · rw [hre.frame]
      rfl
    · exact hre.accounts (restartedInstance_accounts i operation p nowMs)
    · rw [hre.frame]
      exact ⟨rfl, rfl⟩
    · rw [hre.frame]
      exact ⟨rfl, rfl⟩

/-! ## The operation as a whole -/

theorem applyRestart_cases {limits : WorkflowsConfig}
    (happly : applyRestart versionDigest limits s operation nowMs i = .ok (result, s')) :
    (exists code, result = .rejected code ∧ OnlyDecision operation.identity.instanceId s s') ∨
    (result = .applied ∧ exists p i', restartVerdict limits s i operation = .ok p ∧
      restartRun versionDigest operation p nowMs i = .ok i' ∧
      OnlyDecision operation.identity.instanceId (s.put i') s') := by
  unfold applyRestart at happly
  split at happly
  · exact .inl ⟨_, reject_only happly⟩
  · split at happly
    · exact .inl ⟨_, reject_only happly⟩
    · rename_i p hverdict
      simp only [ok_iff] at happly
      rcases happly with ⟨i', hrun, hdecide⟩
      exact .inr ⟨decideOperation_result hdecide, p, i', hverdict, hrun,
        decideOperation_only hdecide⟩

theorem applyWorkflowOperation_cases {limits : WorkflowsConfig}
    (happly : applyWorkflowOperation versionDigest s operation nowMs limits = .ok (result, s')) :
    (readDecision s operation = .ok (some result) ∧ s' = s) ∨
    (readDecision s operation = .ok none ∧ exists i,
      s.instances.find? operation.identity.instanceId = some i ∧
      i.identity = operation.identity ∧
      match operation.kind with
      | .restart => applyRestart versionDigest limits s operation nowMs i = .ok (result, s')
      | .purge => applyPurge s operation nowMs i = .ok (result, s')) := by
  simp only [applyWorkflowOperation, ok_iff] at happly
  rcases happly with ⟨_, _, _, decision, hread, hrest⟩
  cases decision with
  | some stored =>
    rcases hrest with ⟨rfl, rfl⟩
    exact .inl ⟨hread, rfl⟩
  | none =>
    simp only [ok_iff] at hrest
    rcases hrest with ⟨i, hfind, ⟨hidentity, _⟩, _, hkind⟩
    refine .inr ⟨hread, i, hfind, hidentity, ?_⟩
    cases hop : operation.kind with
    | restart | purge =>
      rw [hop] at hkind
      exact hkind

theorem find?_put {id : WorkflowInstanceId} (hfind : s.instances.find? id = some i)
    (hid : i'.id = id) (other : WorkflowInstanceId) :
    (s.put i').instances.find? other = if other = id then some i' else s.instances.find? other := by
  rcases find?_eq_some.mp hfind with ⟨hmem, hkey⟩
  rw [← hid]
  exact find?_replace hmem (hkey.trans hid.symm) other

theorem running_eq_ok {fence : WorkflowFence} :
    s.running fence nowMs = .ok i ↔ s.instances.find? fence.instanceId = some i ∧
      i.generation = fence.instanceGeneration ∧ i.leased fence.runToken nowMs = true := by
  unfold Store.running
  rw [okOr_eq_ok, Option.filter_eq_some_iff]
  simp only [and_eq_true, decide_eq_true_eq]

structure RestartApplied (versionDigest : WorkflowTarget -> Digest)
    (operation : WorkflowOperation) (selector : WorkflowRestartSelector) (nowMs : Millis)
    (s s' : Store) (i i' : Instance) : Prop where
  before : s.instances.find? operation.identity.instanceId = some i ∧
    i.identity = operation.identity
  after : s'.instances.find? operation.identity.instanceId = some i' ∧
    i'.identity = operation.targetIdentity
  restarted : exists selected, selected ∈ i.steps ∧ selector.selects selected.descriptor = true ∧
    (forall s, s ∈ i.steps -> selector.selects s.descriptor = true -> s = selected) ∧
    RestartedAt selected nowMs i i'
  verified : verifyWorkflowHistory versionDigest s' operation.identity.instanceId = .ok ()
  fenced : forall fence atMs, fence.instanceId = operation.identity.instanceId ->
    fence.instanceGeneration = operation.identity.instanceGeneration ->
    ¬ s'.FenceValid fence atMs
  others : forall other, other ≠ operation.identity.instanceId ->
    s'.instances.find? other = s.instances.find? other
  receipts : s'.receipts = s.receipts ∧ s'.gcReceipts = s.gcReceipts

theorem restartApplied_of_run (hfrom : operation.restartFrom = some selector)
    (hfind : s.instances.find? operation.identity.instanceId = some i)
    (hidentity : i.identity = operation.identity)
    (hrun : restartRun versionDigest operation p nowMs i = .ok i')
    (honly : OnlyDecision operation.identity.instanceId (s.put i') s') :
    RestartApplied versionDigest operation selector nowMs s s' i i' := by
  rcases restartRun_restartedAt hfrom hrun with ⟨hverify, hidentity', _, hrestarted⟩
  have htarget : i'.identity = operation.targetIdentity := by
    rw [hidentity', hidentity]
    rfl
  have hid : i'.id = operation.targetIdentity.instanceId :=
    congrArg WorkflowInstanceIdentity.instanceId htarget
  have hfind' : s'.instances.find? operation.identity.instanceId = some i' := by
    rw [honly.instances, find?_put hfind hid, if_pos rfl]
  refine ⟨⟨hfind, hidentity⟩, ⟨hfind', htarget⟩, hrestarted, ?_, ?_, ?_,
    honly.receipts, honly.gcReceipts⟩
  · simp only [verifyWorkflowHistory, ok_iff]
    exact ⟨i', hfind', hverify⟩
  · intro fence atMs hfence hold hvalid
    rcases hvalid with ⟨_, hj⟩
    rcases running_eq_ok.mp hj with ⟨hj, _, _⟩
    rw [hfence, hfind'] at hj
    cases hj
    have hnew : i'.generation = operation.targetGeneration :=
      congrArg WorkflowInstanceIdentity.instanceGeneration htarget
    have hstored : i.generation = operation.identity.instanceGeneration :=
      congrArg WorkflowInstanceIdentity.instanceGeneration hidentity
    omega
  · intro other hother
    rw [honly.instances, find?_put hfind hid, if_neg hother]

/--
A restart from a step that is applied starts the target generation as the
selector says; any other outcome changes at most the recorded decision.
-/
theorem restart_from_step (versionDigest : WorkflowTarget -> Digest) (s : Store)
    (operation : WorkflowOperation) (selector : WorkflowRestartSelector) (nowMs : Millis)
    (limits : WorkflowsConfig) (hkind : operation.kind = .restart)
    (hfrom : operation.restartFrom = some selector) :
    (forall s', readDecision s operation = .ok none ->
      applyWorkflowOperation versionDigest s operation nowMs limits = .ok (.applied, s') ->
      exists i i', RestartApplied versionDigest operation selector nowMs s s' i i') ∧
    ((forall s', readDecision s operation = .ok none ->
        applyWorkflowOperation versionDigest s operation nowMs limits ≠ .ok (.applied, s')) ->
      OnlyDecision operation.identity.instanceId s
        (storeAfter s (applyWorkflowOperation versionDigest s operation nowMs limits))) := by
  constructor
  · intro s' hread happly
    cases applyWorkflowOperation_cases happly with
    | inl hreplay =>
      rw [hreplay.left] at hread
      cases hread
    | inr hfresh =>
      rcases hfresh with ⟨_, i, hfind, hidentity, happly⟩
      rw [hkind] at happly
      cases applyRestart_cases happly with
      | inl hrejected =>
        rcases hrejected with ⟨_, hresult, _⟩
        cases hresult
      | inr happlied =>
        rcases happlied with ⟨_, p, i', _, hrun, honly⟩
        exact ⟨i, i', restartApplied_of_run hfrom hfind hidentity hrun honly⟩
  · intro hnot
    cases houtcome : applyWorkflowOperation versionDigest s operation nowMs limits with
    | error e => exact OnlyDecision.refl _ s
    | ok committed =>
      rcases committed with ⟨result, s'⟩
      cases applyWorkflowOperation_cases houtcome with
      | inl hreplay =>
        rw [hreplay.right]
        exact OnlyDecision.refl _ s
      | inr hfresh =>
        rcases hfresh with ⟨hread, i, _, _, happly⟩
        rw [hkind] at happly
        cases applyRestart_cases happly with
        | inl hrejected =>
          rcases hrejected with ⟨_, _, honly⟩
          exact honly
        | inr happlied =>
          rw [happlied.left] at houtcome
          exact absurd houtcome (hnot s' hread)

namespace Sample

def twoSteps : List Action :=
  [create, claim 0 11, start [single 0 "a" (.doStep config)] 1 11 [12],
    succeed 0 11 12 2, start [single 1 "b" (.doStep config)] 3 11 [13],
    succeed 1 11 13 4]

def restartFromSecond : WorkflowOperation :=
  ⟨20, identity 1, .restart, some ⟨"b", 1, none⟩, 2, .live, 10, 1⟩

def restartAgain : WorkflowOperation :=
  ⟨21, identity 2, .restart, some ⟨"a", 1, none⟩, 3, .live, 20, 2⟩

theorem exists_restarted : exists w s₁ s₂, History environment 7 0 twoSteps w ∧
    readDecision w.store restartFromSecond = .ok none ∧
    applyWorkflowOperation environment.versionDigest w.store restartFromSecond 10 limits =
      .ok (.applied, s₁) ∧
    applyWorkflowOperation environment.versionDigest s₁ restartAgain 20 limits =
      .ok (.applied, s₂) ∧
    (s₂.progress.find? restartFromSecond.identity.instanceId).map Progress.sequence = some 2 := by
  have hexec : exists w, History environment 7 0 twoSteps w ∧
      readDecision w.store restartFromSecond = .ok none ∧
      exists r₁, applyWorkflowOperation environment.versionDigest w.store restartFromSecond 10
          limits = .ok r₁ ∧ r₁.1 = .applied ∧
        exists r₂, applyWorkflowOperation environment.versionDigest r₁.2 restartAgain 20 limits =
            .ok r₂ ∧ r₂.1 = .applied ∧
          (r₂.2.progress.find? restartFromSecond.identity.instanceId).map Progress.sequence =
            some 2 :=
    Transition.exists_run_of_execute (by decide +kernel)
  rcases hexec with ⟨w, hrun, hread, ⟨_, s₁⟩, happly, rfl, ⟨_, s₂⟩, hagain, rfl, hsequence⟩
  exact ⟨w, s₁, s₂, hrun, hread, happly, hagain, hsequence⟩

end Sample

open Sample in
theorem restart_from_step_second : exists w s' i i',
    History environment 7 0 twoSteps w ∧ readDecision w.store restartFromSecond = .ok none ∧
    applyWorkflowOperation environment.versionDigest w.store restartFromSecond 10 limits =
      .ok (.applied, s') ∧
    RestartApplied environment.versionDigest restartFromSecond ⟨"b", 1, none⟩ 10
      w.store s' i i' := by
  rcases exists_restarted with ⟨w, s', _, hrun, hread, happly, _⟩
  rcases (restart_from_step environment.versionDigest w.store restartFromSecond
    ⟨"b", 1, none⟩ 10 limits rfl rfl).left s' hread happly with ⟨i, i', hdone⟩
  exact ⟨w, s', i, i', hrun, hread, happly, hdone⟩

end Workflow
end OpenCompute
