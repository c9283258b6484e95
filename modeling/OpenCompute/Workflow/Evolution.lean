import OpenCompute.Workflow.Calls

/-!
# The life of one instance

What an action does to the instance under one identifier.  A property of every
instance of a store therefore follows from what creation, one call and a restart
make of it.
-/

namespace OpenCompute
namespace Workflow

open Relational Table Transaction Transition

def Store.step (s : Store) (id : WorkflowInstanceId) (ordinal : Nat) : Option Step :=
  (s.instances.find? id).bind fun i => i.steps.find? ordinal

def Store.generation (s : Store) (id : WorkflowInstanceId) : Option Nat :=
  (s.instances.find? id).map Instance.generation

section Rows

variable {s : Store} {id : WorkflowInstanceId} {i : Instance}

theorem step_of_find? (hfind : s.instances.find? id = some i) (ordinal : Nat) :
    s.step id ordinal = i.steps.find? ordinal := by
  unfold Store.step
  rw [hfind]
  rfl

theorem step_of_find?_none (hfind : s.instances.find? id = none) (ordinal : Nat) :
    s.step id ordinal = none := by
  unfold Store.step
  rw [hfind]
  rfl

end Rows

def Action.operatesOn (a : Action) (id : WorkflowInstanceId) : Prop :=
  exists operation nowMs limits, a = .operate operation nowMs limits ∧
    operation.identity.instanceId = id

def Calls (a : Action) : Instance -> Instance -> Prop :=
  Relation.ReflTransGen fun i j => exists others, Call a others i j

inductive Evolution (env : Environment) (a : Action) (id : WorkflowInstanceId) :
    Option Instance -> Option Instance -> Prop where
  | absent : Evolution env a id none none
  | calls {i j : Instance} (hcalls : Calls a i j) : Evolution env a id (some i) (some j)
  | created {workflows : List WorkflowCreation} {limits : WorkflowsConfig}
      {c : WorkflowCreation} {p : PreparedCreation}
      (haction : a = .insert workflows limits)
      (hprepare : prepareCreation env.versionDigest c = .ok p) :
      Evolution env a id none (some p.instance)
  | restarted {operation : WorkflowOperation} {nowMs : Millis} {limits : WorkflowsConfig}
      {projection : RestartProjection} {i j : Instance}
      (haction : a = .operate operation nowMs limits)
      (hkind : operation.kind = .restart) (hid : operation.identity.instanceId = id)
      (hidentity : i.identity = operation.identity)
      (hrun : restartRun env.versionDigest operation projection nowMs i = .ok j) :
      Evolution env a id (some i) (some j)
  | purged {operation : WorkflowOperation} {nowMs : Millis} {limits : WorkflowsConfig}
      {i : Instance} (haction : a = .operate operation nowMs limits)
      (hkind : operation.kind = .purge) (hid : operation.identity.instanceId = id)
      (hterminal : i.live = false) : Evolution env a id (some i) none

section Effects

variable {env : Environment} {a : Action} {s s' : Store}

theorem Evolution.refl (id : WorkflowInstanceId) (o : Option Instance) :
    Evolution env a id o o := by
  cases o with
  | none => exact Evolution.absent
  | some i => exact Evolution.calls Relation.ReflTransGen.refl

theorem callSteps_find? (hsteps : Relation.ReflTransGen (CallStep a) s s')
    (id : WorkflowInstanceId) :
    Evolution env a id (s.instances.find? id) (s'.instances.find? id) := by
  have hpoint : (s.instances.find? id = none ∧ s'.instances.find? id = none) ∨
      exists i j, s.instances.find? id = some i ∧ s'.instances.find? id = some j ∧ Calls a i j := by
    induction hsteps with
    | refl =>
      cases hfind : s.instances.find? id with
      | none => exact .inl ⟨rfl, rfl⟩
      | some i => exact .inr ⟨i, i, rfl, rfl, Relation.ReflTransGen.refl⟩
    | tail _ hstep ih =>
      cases hstep with
      | @mk i j hfind hcall =>
        have hid : j.id = i.id := congrArg WorkflowInstanceIdentity.instanceId hcall.identity
        rw [find?_put hfind hid]
        by_cases heq : id = i.id
        · rw [if_pos heq]
          rw [heq, hfind] at ih
          rcases ih with ⟨_, hnone⟩ | ⟨i₀, _, hi₀, hk, hcalls⟩
          · cases hnone
          · cases hk
            rw [heq]
            exact .inr ⟨i₀, j, hi₀, rfl, hcalls.tail ⟨_, hcall⟩⟩
        · rw [if_neg heq]
          exact ih
  rcases hpoint with ⟨hs, hs'⟩ | ⟨_, _, hs, hs', hcalls⟩
  · rw [hs, hs']
    exact Evolution.absent
  · rw [hs, hs']
    exact Evolution.calls hcalls

variable {p : PreparedCreation} {P : Instance -> Prop}

theorem created_find? {prepared : List PreparedCreation}
    (hinsert : prepared.foldlM insertInstance s = .ok s') (id : WorkflowInstanceId) :
    s'.instances.find? id = s.instances.find? id ∨ (s.instances.find? id = none ∧
        exists p, p ∈ prepared ∧ s'.instances.find? id = some p.instance) := by
  refine foldlM_invariant (fun t => t.instances.find? id = s.instances.find? id ∨
    (s.instances.find? id = none ∧
      exists p, p ∈ prepared ∧ t.instances.find? id = some p.instance)) ?_ (.inl rfl) hinsert
  intro p t u hp ht hu
  simp only [insertInstance, ok_iff] at hu
  rcases hu with ⟨_, _, instances, hrow, rfl⟩
  rw [show instances.find? id = _ from find?_of_insert? hrow id]
  by_cases hid : id = p.instance.id
  · rw [if_pos hid]
    have hfresh : t.instances.find? p.instance.id = none :=
      find?_eq_none.mpr (insert?_eq_some.mp hrow).left
    rw [← hid] at hfresh
    cases ht with
    | inl hsame =>
      rw [hfresh] at hsame
      exact .inr ⟨hsame.symm, p, hp, rfl⟩
    | inr hcreated => exact .inr ⟨hcreated.left, p, hp, rfl⟩
  · rw [if_neg hid]
    exact ht

theorem Effect.evolution (heffect : Effect env a s s') (id : WorkflowInstanceId) :
    Evolution env a id (s.instances.find? id) (s'.instances.find? id) := by
  cases heffect with
  | calls hsteps hinstances =>
    rw [hinstances]
    exact callSteps_find? hsteps id
  | created haction hprepared _ hinsert =>
    cases created_find? hinsert id with
    | inl hsame =>
      rw [hsame]
      exact Evolution.refl id _
    | inr hcreated =>
      rcases hcreated with ⟨hnone, _, hp, hfind⟩
      rcases mem_of_mapM hprepared hp with ⟨_, _, hprepare⟩
      rw [hnone, hfind]
      exact Evolution.created haction hprepare
  | @restarted operation nowMs limits projection i j haction hkind hfind hidentity _ hrun
      hinstances =>
    have hid : j.id = operation.identity.instanceId := by
      show j.identity.instanceId = _
      rw [restartRun_identity hrun, hidentity]
    rw [hinstances, find?_put hfind hid]
    by_cases heq : id = operation.identity.instanceId
    · rw [if_pos heq, heq, hfind]
      exact Evolution.restarted haction hkind rfl hidentity hrun
    · rw [if_neg heq]
      exact Evolution.refl id _
  | @purged operation nowMs limits i haction hkind hfind hidentity hterminal hinstances =>
    have hid : i.id = operation.identity.instanceId := (key_of_find? hfind)
    rw [hinstances, find?_erase]
    by_cases heq : id = i.id
    · rw [if_pos heq, heq, hid, hfind]
      exact Evolution.purged haction hkind rfl hterminal
    · rw [if_neg heq]
      exact Evolution.refl id _

theorem Effect.step (heffect : Effect env a s s') (id : WorkflowInstanceId) (ordinal : Nat) :
    (exists i j, Calls a i j ∧ s.step id ordinal = i.steps.find? ordinal ∧
      s'.step id ordinal = j.steps.find? ordinal) ∨ s'.step id ordinal = s.step id ordinal ∨
    (a.operatesOn id ∧ s'.generation id ≠ s.generation id ∧
      forall t, s'.step id ordinal = some t -> exists config nowMs,
        t.state = freshState config nowMs) := by
  have hevolution := heffect.evolution id
  generalize hs : s.instances.find? id = before at hevolution
  generalize hs' : s'.instances.find? id = after at hevolution
  cases hevolution with
  | absent =>
    rw [step_of_find?_none hs, step_of_find?_none hs']
    exact .inr (.inl rfl)
  | calls hcalls => exact .inl ⟨_, _, hcalls, step_of_find? hs ordinal, step_of_find? hs' ordinal⟩
  | created _ _ =>
    rw [step_of_find?_none hs, step_of_find? hs']
    exact .inr (.inl rfl)
  | restarted haction _ hid _ hrun =>
    right
    rw [step_of_find? hs, step_of_find? hs', or_iff_not_imp_left]
    refine fun hne => ⟨⟨_, _, _, haction, hid⟩, ?_, ?_⟩
    · simp [Store.generation, hs, hs', (restartRun_generation hrun).right]
    · intro t ht
      rcases find?_eq_some.mp ht with ⟨hmem, hordinal⟩
      rcases restartRun_steps hrun hmem with ⟨_, hold, _, hkept | hfresh⟩
      · rcases hkept with ⟨rfl, _⟩
        rw [ht, ← hordinal, find?_key hold] at hne
        exact absurd rfl hne
      · exact ⟨_, _, hfresh.right.right⟩
  | purged haction _ hid _ =>
    refine .inr (.inr ⟨⟨_, _, _, haction, hid⟩, ?_, ?_⟩)
    · simp [Store.generation, hs, hs']
    · intro t ht
      rw [step_of_find?_none hs'] at ht
      cases ht

/-! ## Properties of every instance -/

theorem Calls.invariant {i j : Instance} (hcalls : Calls a i j)
    (hcall : forall others k l, Call a others k l -> P k -> P l) (hi : P i) : P j := by
  induction hcalls with
  | refl => exact hi
  | tail _ hlast ih =>
    rcases hlast with ⟨others, hlast⟩
    exact hcall others _ _ hlast ih

theorem Calls.identity {i j : Instance} (hcalls : Calls a i j) : j.identity = i.identity :=
  hcalls.invariant (P := fun k => k.identity = i.identity)
    (fun _ _ _ hcall hk => hcall.identity.trans hk) rfl

theorem Effect.forall_instances (heffect : Effect env a s s')
    (hs : forall i, i ∈ s.instances -> P i)
    (hcreated : forall c p, prepareCreation env.versionDigest c = .ok p -> P p.instance)
    (hcall : forall others i j, Call a others i j -> P i -> P j)
    (hrestarted : forall operation nowMs limits projection i j,
      a = .operate operation nowMs limits ->
      restartRun env.versionDigest operation projection nowMs i = .ok j -> P i -> P j) :
    forall i, i ∈ s'.instances -> P i := by
  intro j hj
  have hevolution := heffect.evolution j.id
  rw [find?_key hj] at hevolution
  generalize hfind : s.instances.find? j.id = before at hevolution
  cases hevolution with
  | calls hcalls => exact hcalls.invariant hcall (hs _ (mem_of_find? hfind))
  | created _ hprepare => exact hcreated _ _ hprepare
  | restarted haction _ _ _ hrun =>
    exact hrestarted _ _ _ _ _ _ haction hrun (hs _ (mem_of_find? hfind))

end Effects

theorem history_instances {env : Environment} {owner : Uuid} {clock : Millis}
    {actions : List Action} {w : World} {P : Instance -> Prop}
    (hkept : forall {a : Action} {s s' : Store}, a.apply env s = .ok s' ->
      (forall i, i ∈ s.instances -> P i) -> forall i, i ∈ s'.instances -> P i)
    (hrun : History env owner clock actions w) : forall i, i ∈ w.store.instances -> P i := by
  refine hrun.invariant (P := fun w => forall i, i ∈ w.store.instances -> P i) ?_ ?_
  · intro u a v hu _ hnext
    rcases next_eq_some.mp hnext with ⟨_, _, happly, rfl⟩
    exact hkept happly hu
  · intro i hi
    exact absurd hi (not_mem_empty i)

end Workflow
end OpenCompute
