import OpenCompute.Containers.Leases

/-!
# Capacity and lifecycle of container leases

A transaction inserts one lease or changes the leases that are there.  A change
keeps the identity of a lease and its intent to stop, and leaves a stopped lease
as it is.  Whatever holds along every run follows from these changes.
-/

namespace OpenCompute
namespace Containers

open Relational Table Transaction Transition Option List

/-! ## Changes of one lease -/

/-- What a transaction may do to a lease.  It stops the lease only if it may release it. -/
structure Change (released : ContainerLease -> Prop) (l l' : ContainerLease) : Prop where
  identity : l'.identity = l.identity
  key : l'.opaqueEngineKey = l.opaqueEngineKey
  absorbing : l.state = .stopped -> l' = l
  stops : l'.state = .stopped -> l.state = .stopped ∨ released l
  intent : l.stopRequestedAtMs.isSome = true -> l'.stopRequestedAtMs = l.stopRequestedAtMs
  running : l'.state = .running -> l'.stopRequestedAtMs = none ∨ l' = l

theorem Change.refl (released : ContainerLease -> Prop) (l : ContainerLease) :
    Change released l l where
  identity := rfl
  key := rfl
  absorbing := fun _ => rfl
  stops := .inl
  intent := fun _ => rfl
  running := fun _ => .inr rfl

/-! ## Changes of all leases -/

structure Kept (released : ContainerLease -> Prop) (s t : Store) : Prop where
  onward : forall l, l ∈ s.leases -> exists l', l' ∈ t.leases ∧ Change released l l'
  back : forall l', l' ∈ t.leases -> exists l, l ∈ s.leases ∧ Change released l l'

namespace Kept

variable {released : ContainerLease -> Prop} {s t : Store}

theorem of_leases_eq (h : t.leases = s.leases) : Kept released s t where
  onward := fun l hl => ⟨l, h ▸ hl, Change.refl released l⟩
  back := fun l hl => ⟨l, h ▸ hl, Change.refl released l⟩

end Kept

def nothing (_ : ContainerLease) : Prop := False

section Leases

variable {l : ContainerLease} {s t : Store} {released : ContainerLease -> Prop}
  {instanceLimit : Nat} {a : Action} {m : ContainerLease}
  {around : Surroundings} {authority : ContainerObjectAuthority} {engineKey : Opaque}
  {execution : ContainerExecutionSpec} {nowMs : Millis} {application : ContainerApplication}
  {actions : List Action}

theorem Change.trans {k : ContainerLease} (h₁ : Change nothing l m) (h₂ : Change nothing m k) :
    Change nothing l k where
  identity := h₂.identity.trans h₁.identity
  key := h₂.key.trans h₁.key
  absorbing := by
    intro hstopped
    have hm := h₁.absorbing hstopped
    rw [hm] at h₂
    exact h₂.absorbing hstopped
  stops := by
    intro hstopped
    rcases h₂.stops hstopped with hm | hnever
    · exact h₁.stops hm
    · exact absurd hnever id
  intent := by
    intro hsome
    have hm := h₁.intent hsome
    rw [h₂.intent (hm ▸ hsome), hm]
  running := by
    intro hrunning
    rcases h₂.running hrunning with hnone | rfl
    · exact .inl hnone
    · exact h₁.running hrunning

theorem Kept.trans {u : Store} (h₁ : Kept nothing s t) (h₂ : Kept nothing t u) :
    Kept nothing s u where
  onward := by
    intro l hl
    rcases h₁.onward l hl with ⟨m, hm, hlm⟩
    rcases h₂.onward m hm with ⟨k, hk, hmk⟩
    exact ⟨k, hk, hlm.trans hmk⟩
  back := by
    intro k hk
    rcases h₂.back k hk with ⟨m, hm, hmk⟩
    rcases h₁.back m hm with ⟨l, hl, hlm⟩
    exact ⟨l, hl, hlm.trans hmk⟩

/-! ## What holds of every store -/

def AtMostOneLive (s : Store) : Prop :=
  forall l m, l ∈ s.leases -> m ∈ s.leases -> l.state ≠ .stopped -> m.state ≠ .stopped ->
    l.identity.namespaceResourceId = m.identity.namespaceResourceId ->
    l.identity.objectId = m.identity.objectId -> l = m

structure Valid (s : Store) : Prop where
  keys : forall l m, l ∈ s.leases -> m ∈ s.leases -> l.opaqueEngineKey = m.opaqueEngineKey -> l = m
  live : AtMostOneLive s
  running : forall l, l ∈ s.leases -> l.state = .running -> l.stopRequestedAtMs = none

theorem valid_empty : Valid (Store.empty : Store) where
  keys := fun l _ hl => absurd hl (not_mem_empty l)
  live := fun l _ hl => absurd hl (not_mem_empty l)
  running := forall_mem_empty

theorem Kept.valid (h : Kept released s t) (hs : Valid s) : Valid t where
  keys := by
    intro l' m' hl' hm' hkey
    rcases h.back l' hl' with ⟨l, hl, hlc⟩
    rcases h.back m' hm' with ⟨m, hm, hmc⟩
    have hsame : l = m := hs.keys l m hl hm (by rw [← hlc.key, hkey, hmc.key])
    exact eq_of_key_eq hl' hm' (by rw [hlc.identity, hsame, hmc.identity])
  live := by
    intro l' m' hl' hm' hlive hmlive hnamespace hobject
    rcases h.back l' hl' with ⟨l, hl, hlc⟩
    rcases h.back m' hm' with ⟨m, hm, hmc⟩
    have hsame : l = m := by
      apply hs.live l m hl hm
      · exact fun hstopped => hlive (hlc.absorbing hstopped ▸ hstopped)
      · exact fun hstopped => hmlive (hmc.absorbing hstopped ▸ hstopped)
      · rw [← hlc.identity, hnamespace, hmc.identity]
      · rw [← hlc.identity, hobject, hmc.identity]
    exact eq_of_key_eq hl' hm' (by rw [hlc.identity, hsame, hmc.identity])
  running := by
    intro l' hl' hrunning
    rcases h.back l' hl' with ⟨_, hl, hlc⟩
    rcases hlc.running hrunning with hnone | rfl
    · exact hnone
    · exact hs.running l' hl hrunning

/-! ## The update of many rows -/

section Updates

variable {released : ContainerLease -> Prop} {selected : ContainerLease -> Bool}

theorem updateLeases_kept {s t : Store} {set : ContainerLease -> LeaseColumns}
    (h : s.updateLeases selected set = .ok t)
    (hstops : forall l, l ∈ s.leases -> selected l = true -> (set l).state = .stopped -> released l)
    (hrunning : forall l, l ∈ s.leases -> selected l = true -> (set l).state = .running ->
      (set l).stopRequestedAtMs = none) : Kept released s t ∧ t.rollouts = s.rollouts := by
  simp only [Store.updateLeases, ok_iff] at h
  rcases h with ⟨hlawful, rfl⟩
  have hchange : forall l, l ∈ s.leases ->
      Change released l (if selected l then l.write (set l) else l) := by
    intro l hl
    by_cases hselected : selected l = true
    · have hlawful := hlawful l hl hselected
      rw [if_pos hselected, show l.write (set l) = ⟨set l, hlawful.right⟩ from dif_pos hlawful]
      rcases hlawful with ⟨⟨_, hidentity, _, _, hkey, _, _, hintent, hlive⟩, _⟩
      exact {
        identity := hidentity
        key := hkey
        absorbing := fun hstopped => absurd hstopped hlive
        stops := fun hstopped => .inr (hstops l hl hselected hstopped)
        intent := hintent
        running := fun hstate => .inl (hrunning l hl hselected hstate) }
    · rw [if_neg hselected]
      exact Change.refl released l
  have hmem : forall {l' : ContainerLease}, l' ∈ s.leases.update selected
      (fun l => l.write (set l)) (fun l => l.identity_write (set l)) ↔
      exists l, l ∈ s.leases ∧ l' = if selected l then l.write (set l) else l :=
    mem_update fun l => l.identity_write (set l)
  refine ⟨⟨?_, ?_⟩, rfl⟩
  · intro l hl
    exact ⟨_, hmem.mpr ⟨l, hl, rfl⟩, hchange l hl⟩
  · intro l' hl'
    rcases hmem.mp hl' with ⟨l, hl, rfl⟩
    exact ⟨l, hl, hchange l hl⟩

theorem kept_setStopping {s t : Store} {nowMs : Millis}
    (h : s.updateLeases selected (Store.setStopping nowMs) = .ok t) :
    Kept nothing s t ∧ t.rollouts = s.rollouts :=
  updateLeases_kept h (fun _ _ _ => nofun) (fun _ _ _ => nofun)

end Updates

theorem Valid.eq_of_hasKey (hs : Valid s) {identity : ContainerLeaseIdentity}
    {current : ContainerLease} {key : Opaque} (hread : s.readLease identity = .ok current)
    (hkey : current.opaqueEngineKey = key) (hl : l ∈ s.leases)
    (hselected : Store.hasKey key l = true) : l = current := by
  rw [Store.readLease, okOr_eq_ok, find?_eq_some] at hread
  exact hs.keys l current hl hread.left ((of_decide_eq_true hselected).trans hkey.symm)

/-! ## One lemma for each transaction -/

section Transactions

variable {s t : Store}
  {identity : ContainerLeaseIdentity} {key : Opaque} {nowMs : Millis}

theorem transition_kept (next : ContainerLeaseState) (hnext : next ≠ .running)
    (hstopped : next ≠ .stopped) (h : s.transition identity key next nowMs = .ok t) :
    Kept nothing s t ∧ t.rollouts = s.rollouts := by
  simp only [Store.transition, ok_iff, ite_eq_iff] at h
  rcases h with ⟨_, _, _, ⟨_, rfl⟩ | ⟨_, _, h⟩⟩
  · exact ⟨Kept.of_leases_eq rfl, rfl⟩
  · by_cases hstopping : next = .stopping
    · simp only [if_pos hstopping] at h
      exact kept_setStopping h
    · simp only [if_neg hstopping] at h
      exact updateLeases_kept h (fun _ _ _ hstate => absurd hstate hstopped)
        (fun _ _ _ hstate => absurd hstate hnext)

variable {application : ResourceId}

structure Evidence (identity : ContainerLeaseIdentity) (proof : ContainerTermination)
    (l : ContainerLease) : Prop where
  identity : l.identity = identity
  terminated : proof.terminated = true
  cleanupComplete : proof.cleanupComplete = true
  lateOperationsFenced : proof.lateOperationsFenced = true
  key : proof.opaqueEngineKey = l.opaqueEngineKey
  start : l.startIdentity.isSome = true -> proof.startIdentity = l.startIdentity

theorem finishStopped_kept {proof : ContainerTermination} (hs : Valid s)
    (h : s.finishStopped identity proof nowMs = .ok t) :
    Kept (Evidence identity proof) s t ∧ t.rollouts = s.rollouts := by
  simp only [Store.finishStopped, ok_iff, ite_eq_iff] at h
  rcases h with
    ⟨⟨hterminated, hcleanup, hfenced⟩, _, hread, ⟨hkey, hstart⟩, ⟨_, rfl⟩ | ⟨_, h⟩⟩
  · exact ⟨Kept.of_leases_eq rfl, rfl⟩
  · apply updateLeases_kept h
    · intro l hl hselected _
      have hsame := hs.eq_of_hasKey hread hkey hl hselected
      rw [Store.readLease, okOr_eq_ok, find?_eq_some] at hread
      subst hsame
      refine ⟨hread.right, hterminated, hcleanup, hfenced, hkey.symm, ?_⟩
      intro hsome
      rcases isSome_iff_exists.mp hsome with ⟨_, hvalue⟩
      rw [hvalue] at hstart ⊢
      exact (of_decide_eq_true hstart).symm
    · exact fun _ _ _ h => by cases h

theorem stopMembers_kept {rollout : ContainerRollout} {members : List ContainerLeaseIdentity}
    {stopping : List ContainerLease} {ready : Bool}
    (h : Store.stopMembers rollout nowMs s members = .ok (t, stopping, ready)) :
    Kept nothing s t := by
  induction members generalizing s stopping ready with
  | nil =>
    simp only [Store.stopMembers, pure_eq_ok, Prod.mk.injEq] at h
    exact Kept.of_leases_eq (h.left ▸ rfl)
  | cons identity members ih =>
    simp only [Store.stopMembers, ok_iff, ite_eq_iff, Prod.mk.injEq] at h
    rcases h with ⟨_, _, ⟨_, ⟨_, _, _⟩, hrest, rfl, _⟩ |
      ⟨_, _, hm, _, _, ⟨_, _, _⟩, hrest, rfl, _⟩⟩
    · exact ih hrest
    · exact (kept_setStopping hm).left.trans (ih hrest)

theorem rolloutStepLeases_kept {id : ResourceId} {leases : List ContainerLease}
    (h : s.rolloutStepLeases application id nowMs = .ok (t, leases)) : Kept nothing s t := by
  simp only [Store.rolloutStepLeases, ok_iff, ite_eq_iff, Prod.mk.injEq] at h
  rcases h with ⟨_, _, ⟨_, rfl, _⟩ | ⟨_, _, _, ⟨_, _, _⟩, hmembers, h⟩⟩
  · exact Kept.of_leases_eq rfl
  · have hkept := stopMembers_kept hmembers
    rcases h with ⟨_, rfl, _⟩ | ⟨_, rfl, _⟩
    · exact { hkept with }
    · exact hkept

end Transactions

/-! ## Admission -/

theorem le_foldl_max (generations : List Nat) (start generation : Nat)
    (h : generation ≤ start ∨ generation ∈ generations) :
    generation ≤ generations.foldl max start := by
  induction generations generalizing start with
  | nil =>
    rcases h with hle | hmem
    · exact hle
    · cases hmem
  | cons first rest ih =>
    apply ih
    rcases h with hle | hmem
    · exact .inl (hle.trans (Nat.le_max_left start first))
    · rcases mem_cons.mp hmem with rfl | hrest
      · exact .inl (Nat.le_max_right start generation)
      · exact .inr hrest

theorem le_maxGeneration (hl : l ∈ s.leases) : l.identity.leaseGeneration ≤
      s.maxGeneration l.identity.namespaceResourceId l.identity.objectId := by
  apply le_foldl_max
  refine .inr (List.mem_map.mpr ⟨l, List.mem_filter.mpr ⟨hl, ?_⟩, rfl⟩)
  rw [decide_eq_true rfl, decide_eq_true rfl]
  rfl

structure Admitted (s t : Store) (application : ContainerApplication) (instanceLimit : Nat)
    (l : ContainerLease) : Prop where
  inserted : s.leases.insert? l = some t.leases
  registered : s.applications.find? l.applicationId = some application
  admitting : l.state = .admitting
  intent : l.stopRequestedAtMs = none
  key : forall m, m ∈ s.leases -> m.opaqueEngineKey ≠ l.opaqueEngineKey
  live : forall m, m ∈ s.leases ->
    m.identity.namespaceResourceId = l.identity.namespaceResourceId ->
    m.identity.objectId = l.identity.objectId -> m.state = .stopped
  total : s.total < instanceLimit
  applicationTotal : s.applicationTotal l.applicationId < application.maxInstances
  generation : forall m, m ∈ s.leases ->
    m.identity.namespaceResourceId = l.identity.namespaceResourceId ->
    m.identity.objectId = l.identity.objectId ->
    m.identity.leaseGeneration < l.identity.leaseGeneration

theorem reserve_cases
    (h : s.reserve around authority engineKey execution instanceLimit nowMs =
      .ok (t, l)) : (t = s ∨ exists application, Admitted s t application instanceLimit l) ∧
    t.rollouts = s.rollouts := by
  simp only [Store.reserve, ok_iff] at h
  rcases h with ⟨_, _, _, live, _, h⟩
  cases live with
  | some lease =>
    simp only [ok_iff, Prod.mk.injEq] at h
    rcases h with ⟨_, rfl, _⟩
    exact ⟨.inl rfl, rfl⟩
  | none =>
    simp only [Store.insertLease, ok_iff, Prod.mk.injEq] at h
    rcases h with ⟨application, happlication, _, _, _, _, _, _, _,
      ⟨htotal, hown⟩, _, ⟨_, hkeys, hlive⟩, _, hinsert, rfl, rfl⟩
    refine ⟨.inr ⟨application, hinsert, happlication, rfl, rfl, ?_, ?_, htotal, hown, ?_⟩, rfl⟩
    · intro m hm hkey
      rw [List.any_eq_false] at hkeys
      exact hkeys m hm (decide_eq_true hkey)
    · intro m hm hnamespace hobject
      have hnone := find?_eq_none.mp (isNone_iff_eq_none.mp hlive) m hm
      by_contra hnot
      apply hnone
      rw [decide_eq_true hnamespace, decide_eq_true hobject, Store.isLive, decide_eq_true hnot]
      rfl
    · intro m hm hnamespace hobject
      have hle := le_maxGeneration hm
      rw [hnamespace, hobject] at hle
      exact Nat.lt_succ_of_le hle

theorem Admitted.valid (h : Admitted s t application instanceLimit l) (hs : Valid s) : Valid t where
  keys := by
    intro m k hm hk hkey
    rcases (mem_of_insert? h.inserted).mp hm with hm | rfl
    · rcases (mem_of_insert? h.inserted).mp hk with hk | rfl
      · exact hs.keys m k hm hk hkey
      · exact absurd hkey (h.key m hm)
    · rcases (mem_of_insert? h.inserted).mp hk with hk | rfl
      · exact absurd hkey.symm (h.key k hk)
      · rfl
  live := by
    intro m k hm hk hmlive hklive hnamespace hobject
    rcases (mem_of_insert? h.inserted).mp hm with hm | rfl
    · rcases (mem_of_insert? h.inserted).mp hk with hk | rfl
      · exact hs.live m k hm hk hmlive hklive hnamespace hobject
      · exact absurd (h.live m hm hnamespace hobject) hmlive
    · rcases (mem_of_insert? h.inserted).mp hk with hk | rfl
      · exact absurd (h.live k hk hnamespace.symm hobject.symm) hklive
      · rfl
  running := forall_insert? h.inserted hs.running fun _ => h.intent

/-! ## One step of the system -/

inductive Effect (s : Store) (a : Action) (t : Store) : Prop where
  | kept (h : Kept nothing s t)
  | finished {identity : ContainerLeaseIdentity} {proof : ContainerTermination} {nowMs : Millis}
      (ha : a = .finishStopped identity proof nowMs) (h : Kept (Evidence identity proof) s t)
  | admitted {around : Surroundings} {authority : ContainerObjectAuthority} {engineKey : Opaque}
      {execution : ContainerExecutionSpec} {instanceLimit : Nat} {nowMs : Millis}
      {application : ContainerApplication} {l : ContainerLease}
      (ha : a = .reserve around authority engineKey execution instanceLimit nowMs)
      (h : Admitted s t application instanceLimit l)

def Action.rollsOut : Action -> Bool
  | .createRollout .. | .rolloutStepLeases .. | .failRollout .. => true
  | _ => false

theorem effect_of_perform (hs : Valid s) (h : s.perform a = .ok t) :
    Effect s a t ∧ (a.rollsOut = false -> t.rollouts = s.rollouts) := by
  cases a with
  | reserve around authority engineKey execution instanceLimit nowMs =>
    simp only [Store.perform, map_eq_ok] at h
    rcases h with ⟨⟨u, l⟩, hreserve, rfl⟩
    rcases reserve_cases hreserve with ⟨rfl | ⟨application, hadmitted⟩, hrollouts⟩
    · exact ⟨Effect.kept (Kept.of_leases_eq rfl), fun _ => rfl⟩
    · exact ⟨Effect.admitted rfl hadmitted, fun _ => hrollouts⟩
  | markStarting identity key nowMs =>
    exact (transition_kept .starting (by decide) (by decide) h).imp Effect.kept fun h _ => h
  | markLost identity key nowMs =>
    exact (transition_kept .lost (by decide) (by decide) h).imp Effect.kept fun h _ => h
  | beginStop identity key nowMs =>
    exact (transition_kept .stopping (by decide) (by decide) h).imp Effect.kept fun h _ => h
  | beginAuthorizedStop around authority identity key nowMs =>
    simp only [Store.perform, Store.beginAuthorizedStop, ok_iff, ite_eq_iff] at h
    rcases h with ⟨_, _, _, lease, _, _, ⟨_, _, rfl⟩ | ⟨_, _, h⟩⟩
    · exact ⟨Effect.kept (Kept.of_leases_eq rfl), fun _ => rfl⟩
    · exact (kept_setStopping h).imp Effect.kept fun h _ => h
  | observeRunning around identity observation nowMs =>
    simp only [Store.perform, Store.observeRunning, ok_iff] at h
    rcases h with ⟨_, hread, _, _, ⟨hkey, hintent, _⟩, _, h⟩
    refine (updateLeases_kept h (fun _ _ _ h => by cases h) ?_).imp Effect.kept fun h _ => h
    intro l hl hselected _
    rw [hs.eq_of_hasKey hread hkey hl hselected]
    exact isNone_iff_eq_none.mp hintent
  | finishStopped identity proof nowMs =>
    exact (finishStopped_kept hs h).imp (Effect.finished rfl) fun h _ => h
  | loseAll nowMs =>
    rcases updateLeases_kept h (fun _ _ _ h => by cases h) (fun _ _ _ h => by cases h) with
      ⟨hkept, hrollouts⟩
    exact ⟨Effect.kept { hkept with }, fun _ => hrollouts⟩
  | createRollout around application id steps nowMs =>
    simp only [Store.perform, map_eq_ok, Store.createRollout, ok_iff] at h
    rcases h with ⟨_, ⟨_, _, _, _, _, _, _, _, _, rfl⟩, rfl⟩
    exact ⟨Effect.kept (Kept.of_leases_eq rfl), fun h => by cases h⟩
  | rolloutStepLeases application id nowMs =>
    simp only [Store.perform, map_eq_ok] at h
    rcases h with ⟨⟨_, _⟩, hstep, rfl⟩
    exact ⟨Effect.kept (rolloutStepLeases_kept hstep), fun h => by cases h⟩
  | failRollout application id nowMs =>
    simp only [Store.perform, Store.failRollout, ok_iff] at h
    rcases h with ⟨_, _, rfl⟩
    exact ⟨Effect.kept (Kept.of_leases_eq rfl), fun h => by cases h⟩
  | beginApplicationDelete application nowMs =>
    simp only [Store.perform, Store.beginApplicationDelete, ok_iff] at h
    rcases h with ⟨_, _, h⟩
    rcases kept_setStopping h with ⟨hkept, hrollouts⟩
    exact ⟨Effect.kept { hkept with }, fun _ => hrollouts⟩
  | finishApplicationDelete around application nowMs =>
    simp only [Store.perform, Store.finishApplicationDelete, ok_iff] at h
    rcases h with ⟨_, _, _, rfl⟩
    exact ⟨Effect.kept (Kept.of_leases_eq rfl), fun _ => rfl⟩
  | manage applications targets =>
    cases h
    exact ⟨Effect.kept (Kept.of_leases_eq rfl), fun _ => rfl⟩

theorem effect_of_next (hs : Valid s) (h : s.next a = some t) :
    Effect s a t := by
  unfold Store.next at h
  cases hperform : s.perform a with
  | ok u =>
    rw [hperform] at h
    cases h
    exact (effect_of_perform hs hperform).left
  | error e =>
    rw [hperform] at h
    cases h
    exact Effect.kept (Kept.of_leases_eq rfl)

theorem Effect.valid (h : Effect s a t) (hs : Valid s) : Valid t := by
  cases h with
  | kept h | finished _ h | admitted _ h => exact h.valid hs

/-! ## Whole runs -/

structure Since (s t : Store) : Prop where
  absorbing : forall l, l ∈ s.leases -> l.state = .stopped -> l ∈ t.leases
  intent : forall l, l ∈ s.leases -> l.stopRequestedAtMs.isSome = true ->
    exists l', l' ∈ t.leases ∧ l'.identity = l.identity ∧
      l'.stopRequestedAtMs = l.stopRequestedAtMs ∧ l'.state ≠ .running

theorem Kept.since (h : Kept released s t) (hs : Valid s) : Since s t where
  absorbing := by
    intro l hl hstopped
    rcases h.onward l hl with ⟨l', hl', hchange⟩
    exact hchange.absorbing hstopped ▸ hl'
  intent := by
    intro l hl hsome
    rcases h.onward l hl with ⟨l', hl', hchange⟩
    refine ⟨l', hl', hchange.identity, hchange.intent hsome, ?_⟩
    intro hrunning
    have hnone := (h.valid hs).running l' hl' hrunning
    rw [hchange.intent hsome] at hnone
    rw [hnone] at hsome
    cases hsome

theorem Effect.since (h : Effect s a t) (hs : Valid s) : Since s t := by
  cases h with
  | kept h | finished _ h => exact h.since hs
  | admitted _ h =>
    constructor
    · intro l hl _
      exact (mem_of_insert? h.inserted).mpr (.inl hl)
    · intro l hl hsome
      refine ⟨l, (mem_of_insert? h.inserted).mpr (.inl hl), rfl, rfl, ?_⟩
      intro hrunning
      rw [hs.running l hl hrunning] at hsome
      cases hsome

theorem Since.trans {u : Store} (h₁ : Since s t) (h₂ : Since t u) : Since s u where
  absorbing := by
    intro l hl hstopped
    exact h₂.absorbing l (h₁.absorbing l hl hstopped) hstopped
  intent := by
    intro l hl hsome
    rcases h₁.intent l hl hsome with ⟨m, hm, hidentity, hkept, _⟩
    rcases h₂.intent m hm (hkept ▸ hsome) with ⟨k, hk, hidentity', hkept', hrunning⟩
    exact ⟨k, hk, hidentity'.trans hidentity, hkept'.trans hkept, hrunning⟩

theorem valid_run (hrun : Run Store.next always s actions t) (hs : Valid s) : Valid t := by
  refine Run.invariant (P := Valid) ?_ hrun hs
  intro u a v hu _ hnext
  exact (effect_of_next hu hnext).valid hu

theorem since_run (hrun : Run Store.next always s actions t) (hs : Valid s) : Since s t := by
  induction hrun with
  | nil s =>
    have hkept : Kept nothing s s := Kept.of_leases_eq rfl
    exact hkept.since hs
  | cons _ hnext _ ih =>
    have heffect := effect_of_next hs hnext
    exact (heffect.since hs).trans (ih (heffect.valid hs))

structure LeaseStep (s : Store) (a : Action) (t : Store) : Prop where
  admission : forall l, l ∈ t.leases -> s.leases.find? l.identity = none ->
    exists around authority engineKey execution instanceLimit nowMs application,
      a = .reserve around authority engineKey execution instanceLimit nowMs ∧
      s.applications.find? l.applicationId = some application ∧
      t.total ≤ instanceLimit ∧
      t.applicationTotal l.applicationId ≤ application.maxInstances ∧
      forall m, m ∈ s.leases -> m.identity.namespaceResourceId = l.identity.namespaceResourceId ->
        m.identity.objectId = l.identity.objectId ->
        m.identity.leaseGeneration < l.identity.leaseGeneration
  /-- A lease that holds capacity holds it after the call, or the call had the evidence. -/
  release : forall l, l ∈ s.leases -> l.state ≠ .stopped ->
    (exists l', l' ∈ t.leases ∧ l'.identity = l.identity ∧ l'.state ≠ .stopped) ∨
      exists proof nowMs, a = .finishStopped l.identity proof nowMs ∧ Evidence l.identity proof l

theorem Kept.not_added (h : Kept released s t) (hl : l ∈ t.leases)
    (hnone : s.leases.find? l.identity = none) : False := by
  rcases h.back l hl with ⟨_, hm, hchange⟩
  rw [hchange.identity, find?_key hm] at hnone
  cases hnone

theorem Kept.leaseStep (h : Kept nothing s t) (a : Action) : LeaseStep s a t where
  admission := fun l hl hnone => (h.not_added hl hnone).elim
  release := by
    intro l hl hlive
    rcases h.onward l hl with ⟨l', hl', hchange⟩
    refine .inl ⟨l', hl', hchange.identity, ?_⟩
    intro hstopped
    rcases hchange.stops hstopped with hstopped | hnever
    · exact hlive hstopped
    · exact hnever

theorem Effect.leaseStep (h : Effect s a t) : LeaseStep s a t := by
  cases h with
  | kept h => exact h.leaseStep a
  | @finished identity proof nowMs ha h =>
    constructor
    · exact fun l hl hnone => (h.not_added hl hnone).elim
    · intro l hl hlive
      rcases h.onward l hl with ⟨l', hl', hchange⟩
      by_cases hstopped : l'.state = .stopped
      · rcases hchange.stops hstopped with hstopped | hevidence
        · exact absurd hstopped hlive
        · refine .inr ⟨proof, nowMs, ?_, ?_⟩
          · rw [hevidence.identity]
            exact ha
          · exact { hevidence with identity := rfl }
      · exact .inl ⟨l', hl', hchange.identity, hstopped⟩
  | @admitted around authority engineKey execution instanceLimit nowMs application l ha h =>
    constructor
    · intro m hm hnone
      rcases (mem_of_insert? h.inserted).mp hm with hm | rfl
      · rw [find?_key hm] at hnone
        cases hnone
      · have hlive : Store.isLive m = true := by
          rw [Store.isLive, h.admitting]
          rfl
        have htotal := countP_insert? h.inserted Store.isLive
        have hown := countP_insert? h.inserted fun l =>
          Store.isLive l && decide (l.applicationId = m.applicationId)
        rw [hlive] at htotal
        rw [hlive, decide_eq_true rfl] at hown
        exact ⟨around, authority, engineKey, execution, instanceLimit, nowMs, application,
          ha, h.registered, le_of_eq_of_le htotal h.total, le_of_eq_of_le hown h.applicationTotal,
          h.generation⟩
    · intro m hm hlive
      exact .inl ⟨m, (mem_of_insert? h.inserted).mpr (.inl hm), rfl, hlive⟩

theorem container_leases {before later : List Action} {s t : Store}
    (hs : Run Store.next always Store.empty before s)
    (ht : Run Store.next always s later t) :
    AtMostOneLive t ∧ Since s t ∧ forall a u, t.next a = some u -> LeaseStep t a u := by
  have hvalid := valid_run hs valid_empty
  have hvalid' := valid_run ht hvalid
  refine ⟨hvalid'.live, since_run ht hvalid, ?_⟩
  intro a u hnext
  exact (effect_of_next hvalid' hnext).leaseStep

end Leases

namespace Sample

def around : Surroundings := ⟨true, .ok (), true, .ok (), .ok (), true⟩

def resources (cpuNanos : Nat) : ContainerResources := ⟨cpuNanos, 1073741824, 8000000000, 64, 256⟩

def execution : ContainerExecutionSpec :=
  ⟨5, resources 1000, false,
    ⟨String.ofList ("registry/image@sha256:".toList ++ hexEncode 5), none, none, false, false⟩,
    [⟨none, "/data"⟩], [0]⟩

def target (generation cpuNanos : Nat) : ContainerTarget :=
  ⟨1, generation, ⟨some 5, 6, resources cpuNanos, false⟩⟩

def configured : Action :=
  .manage (Table.empty.put ⟨1, 2, 1, some 1, false, none, none⟩) (Table.empty.put (target 1 1000))

def reserve (engineKey : Opaque) (nowMs : Millis) : Action :=
  .reserve around ⟨1, 2, 3, 1⟩ engineKey execution 4 nowMs

def identity (leaseGeneration : Nat) : ContainerLeaseIdentity := ⟨2, 3, 1, leaseGeneration⟩

def stopping : List Action :=
  [configured, reserve 7 1, .markStarting (identity 1) 7 2,
    .observeRunning around (identity 1) ⟨7, 8, 5, 6⟩ 3, .beginStop (identity 1) 7 4]

def reserved : List Action :=
  [.observeRunning around (identity 1) ⟨7, 8, 5, 6⟩ 5,
    .finishStopped (identity 1) ⟨7, some 8, true, true, true⟩ 6, reserve 9 7]

def leases (s : Store) : List (Nat × ContainerLeaseState) :=
  s.leases.rows.map fun l => (l.identity.leaseGeneration, l.state)

end Sample

open Sample in
theorem container_leases_restarted : exists s t,
    Run Store.next always Store.empty stopping s ∧
      Run Store.next always s reserved t ∧
      leases s = [(1, .stopping)] ∧ leases t = [(1, .stopped), (2, .admitting)] ∧
      AtMostOneLive t ∧ Since s t ∧ forall a u, t.next a = some u -> LeaseStep t a u := by
  have hexec : exists s, Run Store.next always Store.empty stopping s ∧
      leases s = [(1, .stopping)] ∧
      exists t, t ∈ execute Store.next always s reserved ∧
        leases t = [(1, .stopped), (2, .admitting)] :=
    exists_run_of_execute (by decide +kernel)
  rcases hexec with ⟨s, hrun, hstopping, t, ht, hrestarted⟩
  have hlater := run_of_execute ht
  exact ⟨s, t, hrun, hlater, hstopping, hrestarted, container_leases hrun hlater⟩

end Containers
end OpenCompute
