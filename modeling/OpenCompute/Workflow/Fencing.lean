import OpenCompute.Workflow.Evolution

/-!
# Run fencing

A run acts under a fence: the instance, its generation and the token drawn at
its claim.  A lease is renewed only while it lasts and a token is drawn only
once, so a fence that has lost its instance never gets it back.  Terminal
instances and settled steps are beyond the reach of any run.
-/

namespace OpenCompute
namespace Workflow

open Relational Table Transaction Transition List

def Action.fence : Action -> Option WorkflowFence
  | heartbeat fence _ _ => some fence
  | claimBatch fence _ _ _ _ _ => some fence
  | settle fence _ _ _ _ => some fence
  | resolveDelay fence _ _ _ _ _ => some fence
  | yield fence _ => some fence
  | finish fence _ _ _ => some fence
  | _ => none

/-! ## Calls of a run -/

variable {env : Environment}

theorem fenceValid_of_apply {a : Action} {s s' : Store} {fence : WorkflowFence} {nowMs : Millis}
    (hfence : a.fence = some fence) (hnow : a.nowMs = some nowMs)
    (happly : a.apply env s = .ok s') :
    s.FenceValid fence nowMs := by
  cases a <;> cases hfence <;> cases hnow <;> simp only [Action.apply, snd_eq_ok,
    heartbeatWorkflow, heartbeat, claimWorkflowBatch, settleWorkflowStep, resolveWorkflowDelay,
    yieldWorkflow, finishWorkflow, ok_iff] at happly
  case heartbeat =>
    rcases happly with ⟨_, i, hfind, _, ⟨_, _, hupdate⟩, _⟩
    refine ⟨i, running_eq_ok.mpr ⟨hfind, ?_⟩⟩
    unfold Instance.updateRun at hupdate
    split at hupdate
    · split at hupdate
      · rename_i hleased
        exact hleased
      · cases hupdate
    · cases hupdate
  case claimBatch =>
    rcases happly with ⟨_, _, _, _, i, hrunning, _⟩
    exact ⟨i, hrunning⟩
  case settle | resolveDelay | finish =>
    rcases happly with ⟨_, _, i, hrunning, _⟩
    exact ⟨i, hrunning⟩
  case yield =>
    rcases happly with ⟨_, i, hrunning, _⟩
    exact ⟨i, hrunning⟩

/-! ## Leases -/

section Leases

variable {p : Permits} {nowMs : Millis} {i j : Instance} {token : WorkflowToken}

theorem state_of_running {run : RunLease} (hrun : i.lifecycle = .running run) :
    i.state = .running := by
  unfold Instance.state
  rw [hrun]
  rfl

theorem running_of_state (hstate : i.state = .running) :
    exists run, i.lifecycle = .running run := by
  unfold Instance.state at hstate
  cases hlifecycle : i.lifecycle with
  | running run => exact ⟨run, rfl⟩
  | _ =>
    rw [hlifecycle] at hstate
    cases hstate

theorem runToken_eq_some : i.runToken = some token ↔
    exists run, i.lifecycle = .running run ∧ run.token = token := by
  unfold Instance.runToken
  cases hlifecycle : i.lifecycle <;> simp [Lifecycle.run]

theorem leased_eq_true : i.leased token nowMs = true ↔
    exists run, i.lifecycle = .running run ∧ run.token = token ∧ nowMs < run.leaseUntilMs := by
  unfold Instance.leased
  cases hlifecycle : i.lifecycle <;> simp [Lifecycle.run]

variable {at_ : Millis}

theorem leased_earlier (hleased : i.leased token at_ = true) (hle : nowMs ≤ at_) :
    i.leased token nowMs = true := by
  rcases leased_eq_true.mp hleased with ⟨run, hrun, htoken, hlt⟩
  exact leased_eq_true.mpr ⟨run, hrun, htoken, lt_of_le_of_lt hle hlt⟩

theorem update_facts (hupdate : i.update j = .ok j) :
    j.accounts = j.accounting ∧ Instance.instanceRunGuard i j = true ∧ i.live = true := by
  simp only [Instance.update, ok_iff] at hupdate
  rcases hupdate with ⟨haccounts, hguard, hlive, _⟩
  exact ⟨haccounts, hguard, hlive⟩

theorem updateState_facts (hupdate : i.updateState j = .ok j) :
    Instance.instanceFrontierGuard i j = true ∧ i.update j = .ok j := by
  simp only [Instance.updateState, ok_iff] at hupdate
  exact ⟨hupdate.left, hupdate.right.right⟩

theorem update_token {run run' : RunLease} (hupdate : i.update j = .ok j)
    (hi : i.lifecycle = .running run) (hj : j.lifecycle = .running run') :
    run'.token = run.token := by
  have hguard := (update_facts hupdate).right.left
  simp only [Instance.instanceRunGuard, hi, hj, Bool.and_eq_true, decide_eq_true_eq] at hguard
  exact hguard.right.left.left.left

theorem Write.leased (hwrite : Write p nowMs i j) (hleased : j.leased token at_ = true) :
    p.claims token ∨ i.leased token at_ = true ∨ i.leased token nowMs = true := by
  cases hwrite with
  | step _ _ | consume _ _ | register _ _ | insertEvent _ _ _ _ => exact .inr (.inl hleased)
  | row _ _ hstate hlease _ hupdate =>
    rcases leased_eq_true.mp hleased with ⟨run', hrun', htoken, hlt⟩
    rcases running_of_state (hstate.symm.trans (state_of_running hrun')) with ⟨run, hrun⟩
    have hsame := update_token hupdate hrun hrun'
    cases hlease with
    | inl huntil =>
      refine .inr (.inl (leased_eq_true.mpr ⟨run, hrun, hsame ▸ htoken, ?_⟩))
      have huntil' : some run'.leaseUntilMs = some run.leaseUntilMs := by
        unfold Instance.leaseUntil at huntil
        rw [hrun, hrun'] at huntil
        exact huntil
      rw [← Option.some.inj huntil']
      exact hlt
    | inr hheld =>
      rcases hheld with ⟨_, hother⟩
      rcases leased_eq_true.mp hother with ⟨_, hrun'', _, hlt'⟩
      rw [hrun] at hrun''
      cases hrun''
      exact .inr (.inr (leased_eq_true.mpr ⟨run, hrun, hsame ▸ htoken, hlt'⟩))
  | state _ _ hclaims _ _ =>
    rcases leased_eq_true.mp hleased with ⟨run, hrun, htoken, _⟩
    exact .inl (htoken ▸ hclaims run hrun)

theorem Write.runToken (hwrite : Write p nowMs i j) (htoken : j.runToken = some token) :
    p.claims token ∨ i.runToken = some token := by
  cases hwrite with
  | step _ _ | consume _ _ | register _ _ | insertEvent _ _ _ _ => exact .inr htoken
  | row _ _ hstate _ _ hupdate =>
    rcases runToken_eq_some.mp htoken with ⟨_, hrun', htoken'⟩
    rcases running_of_state (hstate.symm.trans (state_of_running hrun')) with ⟨run, hrun⟩
    refine .inr (runToken_eq_some.mpr ⟨run, hrun, ?_⟩)
    rw [← update_token hupdate hrun hrun']
    exact htoken'
  | state _ _ hclaims _ _ =>
    rcases runToken_eq_some.mp htoken with ⟨run, hrun, htoken'⟩
    exact .inl (htoken' ▸ hclaims run hrun)

theorem Writes.runToken (hwrites : Writes p nowMs i j) (htoken : j.runToken = some token) :
    p.claims token ∨ i.runToken = some token := by
  induction hwrites with
  | refl => exact .inr htoken
  | tail _ hwrite ih =>
    cases hwrite.runToken htoken with
    | inl hclaims => exact .inl hclaims
    | inr hbefore => exact ih hbefore

theorem Writes.leased {first : Millis} (hwrites : Writes p nowMs i j) (hnow : first ≤ nowMs)
    (hat : first ≤ at_) (hleased : j.leased token at_ = true) :
    p.claims token ∨ i.leased token first = true := by
  induction hwrites generalizing at_ with
  | refl => exact .inr (leased_earlier hleased hat)
  | tail _ hwrite ih =>
    rcases hwrite.leased hleased with hclaims | hbefore | hbefore
    · exact .inl hclaims
    · exact ih hat hbefore
    · exact ih hnow hbefore

theorem Call.leased {a : Action} {others : Usage} (hcall : Call a others i j)
    (hat : a.nowMs.getD at_ ≤ at_) (hleased : j.leased token at_ = true) :
    a.permits.claims token ∨ i.leased token (a.nowMs.getD at_) = true := by
  rcases hcall.writesAt_ge with ⟨_, hnow, hle⟩
  rw [hnow] at hat ⊢
  exact hcall.writes.leased hle hat hleased

theorem Calls.leased {a : Action} (hcalls : Calls a i j) (hat : a.nowMs.getD at_ ≤ at_)
    (hleased : j.leased token at_ = true) :
    a.permits.claims token ∨ i.leased token (a.nowMs.getD at_) = true := by
  induction hcalls generalizing at_ with
  | refl => exact .inr (leased_earlier hleased hat)
  | tail _ hcall ih =>
    rcases hcall with ⟨_, hcall⟩
    rcases hcall.writesAt_ge with ⟨nowMs, hnow, _⟩
    cases hcall.leased hat hleased with
    | inl hclaims => exact .inl hclaims
    | inr hbefore =>
      have hstart := @ih nowMs
      rw [hnow] at hstart hbefore ⊢
      exact hstart (le_refl nowMs) hbefore

end Leases

/-! ## Fences -/

section Fences

variable {env : Environment} {a : Action} {s s' : Store} {fence : WorkflowFence}

theorem apply_fenceValid {at_ : Millis} (happly : a.apply env s = .ok s')
    (hat : a.nowMs.getD at_ ≤ at_) (hvalid : s'.FenceValid fence at_) :
    a.permits.claims fence.runToken ∨ s.FenceValid fence (a.nowMs.getD at_) := by
  rcases hvalid with ⟨_, hrunning⟩
  rcases running_eq_ok.mp hrunning with ⟨hfind, hgeneration, hleased⟩
  have hevolution := (apply_effect happly).evolution fence.instanceId
  rw [hfind] at hevolution
  generalize hs : s.instances.find? fence.instanceId = before at hevolution
  cases hevolution with
  | @calls i _ hcalls =>
    cases hcalls.leased hat hleased with
    | inl hclaims => exact .inl hclaims
    | inr hbefore =>
      refine .inr ⟨i, running_eq_ok.mpr ⟨hs, ?_, hbefore⟩⟩
      rw [← hgeneration]
      exact (congrArg WorkflowInstanceIdentity.instanceGeneration hcalls.identity).symm
  | created _ _ =>
    cases hleased
  | restarted _ _ _ _ hrun =>
    rw [Instance.leased, restartRun_queued hrun] at hleased
    cases hleased

theorem stale_run {w w' : World} {later : List Action} (hdrawn : fence.runToken ∈ w.tokens)
    (hstale : ¬ w.store.FenceValid fence w.clock)
    (hrun : Run (World.next env) Ordered w later w') {nowMs : Millis}
    (hnow : w'.clock ≤ nowMs) : ¬ w'.store.FenceValid fence nowMs := by
  have hinvariant : fence.runToken ∈ w'.tokens ∧
      forall nowMs, w'.clock ≤ nowMs -> ¬ w'.store.FenceValid fence nowMs := by
    refine hrun.invariant (P := fun w => fence.runToken ∈ w.tokens ∧
      forall nowMs, w.clock ≤ nowMs -> ¬ w.store.FenceValid fence nowMs) ?_ ⟨hdrawn, ?_⟩
    · intro u a v hu hordered hnext
      rcases hu with ⟨htokens, hlost⟩
      rcases next_eq_some.mp hnext with ⟨hfresh, _, happly, rfl⟩
      refine ⟨mem_append_right a.tokens htokens, ?_⟩
      intro nowMs hle hvalid
      have hclock : u.clock ≤ a.nowMs.getD nowMs ∧ a.nowMs.getD nowMs ≤ nowMs := by
        unfold Ordered at hordered
        cases hnow : a.nowMs with
        | none =>
          rw [hnow] at hle
          exact ⟨hle, le_refl nowMs⟩
        | some at_ =>
          rw [hnow] at hle hordered
          exact ⟨hordered, hle⟩
      cases apply_fenceValid happly hclock.right hvalid with
      | inl hclaims =>
        cases a with
        | claim identity now limits token =>
          exact hfresh.right fence.runToken (mem_singleton.mpr hclaims) htokens
        | _ => exact hclaims
      | inr hbefore => exact hlost _ hclock.left hbefore
    · intro nowMs hle hvalid
      rcases hvalid with ⟨i, hrunning⟩
      rcases running_eq_ok.mp hrunning with ⟨hfind, hgeneration, hleased⟩
      exact hstale ⟨i, running_eq_ok.mpr ⟨hfind, hgeneration, leased_earlier hleased hle⟩⟩
  exact hinvariant.right nowMs hnow

end Fences

def TokensDrawn (w : World) : Prop :=
  forall i, i ∈ w.store.instances -> forall token, i.runToken = some token -> token ∈ w.tokens

theorem history_tokensDrawn {owner : Uuid} {clock : Millis} {actions : List Action} {w : World}
    (hrun : History env owner clock actions w) : TokensDrawn w := by
  refine hrun.invariant ?_ ?_
  · intro u a v hu _ hnext
    rcases next_eq_some.mp hnext with ⟨_, _, happly, rfl⟩
    refine (apply_effect happly).forall_instances (P := fun i => forall token,
      i.runToken = some token -> token ∈ a.tokens ++ u.tokens) ?_ ?_ ?_ ?_
    · intro i hi token htoken
      exact mem_append_right a.tokens (hu i hi token htoken)
    · intro c p _ token htoken
      cases htoken
    · intro others i j hcall hi token htoken
      cases hcall.writes.runToken htoken with
      | inl hclaims =>
        cases a with
        | claim identity now limits drawn =>
          exact mem_append_left _ (mem_singleton.mpr hclaims)
        | _ => cases hclaims
      | inr hbefore => exact hi token hbefore
    · intro operation nowMs limits projection i j _ hrestart _ token htoken
      rcases runToken_eq_some.mp htoken with ⟨_, hrunning, _⟩
      rw [restartRun_queued hrestart] at hrunning
      cases hrunning
  · intro i hi
    exact absurd hi (not_mem_empty i)

/-! ## Revocation -/

/-- A call that takes an instance away from its run. -/
def Action.revokes : Action -> WorkflowInstanceId -> Prop
  | rollback identity _ _, id => identity.instanceId = id
  | modify identity .terminate _ _, id => identity.instanceId = id
  | recover _ _ _, _ => True
  | operate operation _ _, id => operation.identity.instanceId = id
  | _, _ => False

section Revocation

variable {a : Action} {i j : Instance} {id : WorkflowInstanceId}

theorem Call.revoked {others : Usage} (hcall : Call a others i j) (hrevokes : a.revokes id) :
    j = i ∨ j.lifecycle.run = none := by
  cases hcall with
  | rollback _ _ hrun =>
    simp only [rollbackRun, ok_iff, ite_eq_iff] at hrun
    rcases hrun with ⟨_, ⟨_, ⟨⟩⟩ | ⟨_, cancelled, _, hupdate⟩⟩
    · exact .inl rfl
    · rw [updateState_eq_ok hupdate]
      exact .inr rfl
  | @modify _ _ _ nowMs limits action _ _ hrun =>
    cases action with
    | terminate =>
      simp only [modifyRun, terminateRun, endTerminated, endAs, ok_iff] at hrun
      rcases hrun with ⟨_, _, _, _, hupdate⟩
      rw [updateState_eq_ok hupdate]
      exact .inr rfl
    | _ => cases hrevokes
  | recover _ _ hrun =>
    simp only [recoverRun, release, ok_iff] at hrun
    rcases hrun with ⟨_, _, _, _, _, _, hto, _, hupdate⟩
    rw [updateState_eq_ok hupdate]
    exact .inr (releaseTo_run hto)
  | _ => cases hrevokes

theorem Calls.revoked (hcalls : Calls a i j) (hrevokes : a.revokes id) :
    j = i ∨ j.lifecycle.run = none := by
  refine hcalls.invariant (P := fun k => k = i ∨ k.lifecycle.run = none) ?_ (.inl rfl)
  intro others k l hcall hk
  cases hcall.revoked hrevokes with
  | inl hsame =>
    rw [hsame]
    exact hk
  | inr hnone => exact .inr hnone

end Revocation

/-! ## Terminal instances and settled steps -/

section Finality

variable {p : Permits} {nowMs : Millis} {i j : Instance}

theorem refreshGuard_live (hguard : i.refreshGuard = true) : i.live = true := by
  exact (Bool.and_eq_true _ _ ▸ hguard).left

theorem Write.live (hwrite : Write p nowMs i j) : i.live = true := by
  cases hwrite with
  | step hupdate _ | consume hupdate _ => exact refreshGuard_live hupdate.refresh
  | register hregistration _ => exact refreshGuard_live hregistration.refresh
  | insertEvent _ hrefresh _ _ => exact refreshGuard_live hrefresh
  | row _ _ _ _ _ hupdate => exact (update_facts hupdate).right.right
  | state _ _ _ _ hupdate => exact (update_facts (updateState_facts hupdate).right).right.right

theorem Writes.eq_of_terminal (hwrites : Writes p nowMs i j) (hterminal : i.live = false) :
    j = i := by
  refine hwrites.invariant (P := fun k => k = i) ?_ rfl
  intro k l hwrite hk
  have hlive := hwrite.live
  rw [hk, hterminal] at hlive
  cases hlive

theorem Calls.eq_of_terminal {a : Action} (hcalls : Calls a i j)
    (hterminal : i.live = false) : j = i := by
  refine hcalls.invariant (P := fun k => k = i) ?_ rfl
  intro others k l hcall hk
  rw [← hk] at hterminal ⊢
  exact hcall.writes.eq_of_terminal hterminal

theorem StepUpdate.unsettled {old new : Step} (hupdate : StepUpdate p nowMs i old new) :
    old.state.settled = false := by
  have hguard := hupdate.transition
  unfold Instance.stepTransitionGuard at hguard
  cases hold : old.state with
  | complete attempt output consumed | failed attempt code =>
    rw [hold] at hguard
    cases hnew : new.state <;> rw [hnew] at hguard <;> cases hguard
  | _ => rfl

theorem Writes.settled_kept (hwrites : Writes p nowMs i j) {k : Nat} {t : Step}
    (hfind : i.steps.find? k = some t) (hsettled : t.state.settled = true) :
    j.steps.find? k = some t := by
  refine hwrites.row (P := fun row => row = some t) ?_ ?_ hfind
  · intro l old new _ hupdate hold
    cases hold
    rw [hupdate.unsettled] at hsettled
    cases hsettled
  · intro l new _ hnone
    cases hnone

theorem Calls.settled_kept {a : Action} (hcalls : Calls a i j) {k : Nat} {t : Step}
    (hfind : i.steps.find? k = some t) (hsettled : t.state.settled = true) :
    j.steps.find? k = some t :=
  hcalls.invariant (P := fun l => l.steps.find? k = some t)
    (fun _ _ _ hcall hl => hcall.writes.settled_kept hl hsettled) hfind

end Finality

/-! ## Every interleaving -/

def KeepsGeneration (env : Environment) (id : WorkflowInstanceId) (w : World) (a : Action) :
    Prop :=
  forall w', w.next env a = some w' -> w'.store.generation id = w.store.generation id

def Settles (s s' : Store) (id : WorkflowInstanceId) (ordinal : Nat) : Prop :=
  (forall t, s.step id ordinal = some t -> t.state.settled = false) ∧
    exists t, s'.step id ordinal = some t ∧ t.state.settled = true

structure RunFencing (env : Environment) (w : World) : Prop where
  drawn : forall fence nowMs, w.store.FenceValid fence nowMs -> fence.runToken ∈ w.tokens
  rejects : forall a fence nowMs, a.fence = some fence -> a.nowMs = some nowMs ->
    ¬ w.store.FenceValid fence nowMs ->
    (exists e, a.apply env w.store = .error e) ∧ w.next env a = none
  expired : forall i run nowMs, w.store.instances.find? i.id = some i ->
    i.lifecycle = .running run -> run.leaseUntilMs ≤ nowMs ->
    forall fence : WorkflowFence, fence.instanceId = i.id -> ¬ w.store.FenceValid fence nowMs
  revoked : forall a w', w.next env a = some w' -> forall id, a.revokes id ->
    w'.store.instances.find? id ≠ w.store.instances.find? id ->
    forall (fence : WorkflowFence) nowMs, fence.instanceId = id -> ¬ w'.store.FenceValid fence nowMs
  stale : forall fence : WorkflowFence, fence.runToken ∈ w.tokens ->
    ¬ w.store.FenceValid fence w.clock ->
    forall later w', Run (World.next env) Ordered w later w' ->
    forall nowMs, w'.clock ≤ nowMs -> ¬ w'.store.FenceValid fence nowMs
  terminal : forall a w', w.next env a = some w' ->
    forall i, w.store.instances.find? i.id = some i -> i.live = false ->
    w'.store.instances.find? i.id = some i ∨
      exists operation nowMs limits, a = .operate operation nowMs limits ∧
        operation.identity.instanceId = i.id ∧
        ((operation.kind = .restart ∧ exists j, w'.store.instances.find? i.id = some j ∧
            j.generation = i.generation + 1) ∨
          (operation.kind = .purge ∧ w'.store.instances.find? i.id = none))
  settled : forall id ordinal t, w.store.step id ordinal = some t -> t.state.settled = true ->
    forall later w', Run (World.next env) (KeepsGeneration env id) w later w' ->
    w'.store.step id ordinal = some t ∧
      forall a w'', w'.next env a = some w'' -> ¬ Settles w'.store w''.store id ordinal

theorem settled_run {w w' : World} {later : List Action} {id : WorkflowInstanceId} {ordinal : Nat}
    {t : Step} (hrun : Run (World.next env) (KeepsGeneration env id) w later w')
    (hsettled : t.state.settled = true) (hstep : w.store.step id ordinal = some t) :
    w'.store.step id ordinal = some t := by
  refine hrun.invariant (P := fun w => w.store.step id ordinal = some t) ?_ hstep
  intro u a v hu hkeeps hnext
  have hgeneration := hkeeps v hnext
  rcases next_eq_some.mp hnext with ⟨_, _, happly, rfl⟩
  rcases (apply_effect happly).step id ordinal with
    ⟨_, _, hcalls, hbefore, hafter⟩ | hsame | ⟨_, hends, _⟩
  · exact hafter.trans (hcalls.settled_kept (hbefore.symm.trans hu) hsettled)
  · exact hsame.trans hu
  · exact absurd hgeneration hends

/--
In every interleaving, with any fences, a run without the current token of its
instance changes nothing, and what is final stays as it is.
-/
theorem run_fencing {env : Environment} {owner : Uuid} {clock : Millis}
    {actions : List Action} {w : World} (hrun : History env owner clock actions w) :
    RunFencing env w := by
  constructor
  · intro fence nowMs hvalid
    rcases hvalid with ⟨i, hvalid⟩
    rcases running_eq_ok.mp hvalid with ⟨hfind, _, hleased⟩
    rcases leased_eq_true.mp hleased with ⟨run, hlifecycle, htoken, _⟩
    exact history_tokensDrawn hrun i (mem_of_find? hfind) fence.runToken
      (runToken_eq_some.mpr ⟨run, hlifecycle, htoken⟩)
  · intro a fence nowMs hfence hnow hstale
    cases happly : a.apply env w.store with
    | error e =>
      refine ⟨⟨e, rfl⟩, ?_⟩
      unfold World.next
      rw [happly]
      split <;> rfl
    | ok s' => exact absurd (fenceValid_of_apply hfence hnow happly) hstale
  · intro i run nowMs hfind hrunning hexpired fence hid hvalid
    rcases hvalid with ⟨j, hvalid⟩
    rcases running_eq_ok.mp hvalid with ⟨hj, _, hleased⟩
    rw [hid, hfind] at hj
    cases hj
    rcases leased_eq_true.mp hleased with ⟨run', hrun', _, hlt⟩
    rw [hrunning] at hrun'
    cases hrun'
    exact absurd hlt (not_lt.mpr hexpired)
  · intro a w' hnext id hrevokes hchanged fence nowMs hid
    rcases next_eq_some.mp hnext with ⟨_, s, happly, rfl⟩
    rintro ⟨j, hrunning⟩
    rcases running_eq_ok.mp hrunning with ⟨hfind, _, hleased⟩
    rcases leased_eq_true.mp hleased with ⟨run, hrun, _⟩
    have hevolution := (apply_effect happly).evolution id
    rw [hid] at hfind
    rw [hfind] at hevolution hchanged
    generalize hbefore : w.store.instances.find? id = before at hevolution
    cases hevolution with
    | calls hcalls =>
      cases hcalls.revoked hrevokes with
      | inl hsame =>
        rw [hbefore, hsame] at hchanged
        exact hchanged rfl
      | inr hnone =>
        rw [hrun] at hnone
        cases hnone
    | created _ _ => cases hrun
    | restarted _ _ _ _ hrestart =>
      rw [restartRun_queued hrestart] at hrun
      cases hrun
  · intro fence hdrawn hstale later w' hlater nowMs hnow
    exact stale_run hdrawn hstale hlater hnow
  · intro a w' hnext i hfind hterminal
    rcases next_eq_some.mp hnext with ⟨_, s, happly, rfl⟩
    have hevolution := (apply_effect happly).evolution i.id
    rw [hfind] at hevolution
    generalize s.instances.find? i.id = after at hevolution ⊢
    cases hevolution with
    | calls hcalls =>
      rw [hcalls.eq_of_terminal hterminal]
      exact Or.inl rfl
    | restarted haction hkind hid _ hrun =>
      exact Or.inr ⟨_, _, _, haction, hid,
        Or.inl ⟨hkind, _, rfl, (restartRun_generation hrun).right⟩⟩
    | purged haction hkind hid _ => exact Or.inr ⟨_, _, _, haction, hid, Or.inr ⟨hkind, rfl⟩⟩
  · intro id ordinal t hstep hsettled later w' hlater
    have hkept := settled_run hlater hsettled hstep
    refine ⟨hkept, ?_⟩
    intro a w'' _ hagain
    rw [hagain.left t hkept] at hsettled
    cases hsettled

namespace Sample

def takenOver : List Action :=
  [create, claim 0 11, start [single 0 "a" (.doStep config)] 1 11 [12],
    .recover 40000 limits 10, claim 41000 13]

end Sample

open Sample in
theorem run_fencing_takenOver : exists w, History environment 7 0 takenOver w ∧
    w.store.FenceValid (fence 13) w.clock ∧ ¬ w.store.FenceValid (fence 11) w.clock ∧
    RunFencing environment w := by
  refine exists_run_imp (P := fun w => (exists i, w.store.running (fence 13) w.clock = .ok i) ∧
    ¬ exists i, w.store.running (fence 11) w.clock = .ok i) ?_ (by decide +kernel)
  rintro w hrun ⟨hcurrent, hold⟩
  exact ⟨hcurrent, hold, run_fencing hrun⟩

end Workflow
end OpenCompute
