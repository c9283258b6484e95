import OpenCompute.Containers.Capacity

/-!
# Rollouts

A rollout stops the executions that do not run the target of their application, a
growing part of them with each step, and waits until each has been replaced.  A
member is started again only while its object exists.
-/

namespace OpenCompute
namespace Containers

open Relational Table Transaction Transition List Option

/-! ## Objects -/

inductive DurableObjectState where
  | creating
  | ready
  | deleting
  | tombstoned
deriving DecidableEq

structure DurableObjectRecord where
  namespaceId : ResourceId
  objectId : DurableObjectId
  generation : Nat
  state : DurableObjectState
deriving DecidableEq

def DurableObjectRecord.key (o : DurableObjectRecord) : ResourceId × DurableObjectId × Nat :=
  (o.namespaceId, o.objectId, o.generation)

abbrev Objects := Table DurableObjectRecord.key

inductive ObjectCall where
  | registerObject (namespaceId : ResourceId) (objectId : DurableObjectId) (allowCreate : Bool)
  | finishObjectCreate (namespaceId : ResourceId) (objectId : DurableObjectId) (generation : Nat)
  | beginObjectDelete (namespaceId : ResourceId) (objectId : DurableObjectId)
  | finishObjectDelete (namespaceId : ResourceId) (objectId : DurableObjectId) (generation : Nat)

namespace Objects

def missing : PlatformError := ⟨.resourceNotFound, "Durable Object was not found"⟩

def readLiveObject (objects : Objects) (namespaceId : ResourceId) (objectId : DurableObjectId) :
    Option DurableObjectRecord :=
  objects.rows.find? fun o => decide (o.namespaceId = namespaceId) &&
    decide (o.objectId = objectId) && decide (o.state ≠ .tombstoned)

def isPresent (objects : Objects) (namespaceId : ResourceId) (objectId : DurableObjectId)
    (generation : Nat) : Bool :=
  (objects.find? (namespaceId, objectId, generation)).any fun o =>
    decide (o.state = .creating) || decide (o.state = .ready)

def advance (objects : Objects) (namespaceId : ResourceId) (objectId : DurableObjectId)
    (generation : Nat) (old new : DurableObjectState) : Result Objects := do
  let current ← okOr (objects.find? (namespaceId, objectId, generation)) missing
  if current.state = new then
    pure objects
  else
    ensure (current.state = old) invariant
    pure (objects.replace { current with state := new })

def perform (objects : Objects) : ObjectCall -> Result Objects
  | .registerObject namespaceId objectId allowCreate =>
    match readLiveObject objects namespaceId objectId with
    | some current => do
      ensure (current.state ≠ .deleting)
        ⟨.doObjectDeleting, "Durable Object deletion is in progress"⟩
      pure objects
    | none => do
      ensure (allowCreate = true)
        ⟨.doStorageLimit, "Durable Object storage stop-writes watermark is active"⟩
      let prior := ((objects.rows.filter fun o => decide (o.namespaceId = namespaceId) &&
        decide (o.objectId = objectId)).map fun o => o.generation).foldl max 0
      okOr (objects.insert? ⟨namespaceId, objectId, prior + 1, .creating⟩) invariant
  | .finishObjectCreate namespaceId objectId generation =>
    advance objects namespaceId objectId generation .creating .ready
  | .beginObjectDelete namespaceId objectId => do
    let current ← okOr (readLiveObject objects namespaceId objectId) missing
    if current.state = .deleting then
      pure objects
    else
      pure (objects.replace { current with state := .deleting })
  | .finishObjectDelete namespaceId objectId generation =>
    advance objects namespaceId objectId generation .deleting .tombstoned

end Objects

/-! ## Leases and objects -/

structure World where
  store : Store
  objects : Objects

def World.empty : World := ⟨Store.empty, Table.empty⟩

inductive WorldAction where
  | call (a : Action)
  | object (call : ObjectCall)

namespace World

def next (w : World) : WorldAction -> Option World
  | .call a => (w.store.next a).map fun store => { w with store }
  | .object call => some { w with objects := (w.objects.perform call).toOption.getD w.objects }

def sees (w : World) : WorldAction -> Bool
  | .call (.reserve around authority _ _ _ _) => !around.facetCurrent ||
    w.objects.isPresent authority.namespaceResourceId authority.objectId
      authority.objectGeneration
  | .call (.beginAuthorizedStop around authority _ _ _) => !around.facetCurrent ||
    w.objects.isPresent authority.namespaceResourceId authority.objectId
      authority.objectGeneration
  | _ => true

def allowed (w : World) (a : WorldAction) : Prop := w.sees a = true

instance (w : World) (a : WorldAction) : Decidable (w.allowed a) :=
  inferInstanceAs (Decidable (w.sees a = true))

/-- The object and the target of a member are still those of the rollout. -/
def startable (w : World) (rollout : ContainerRollout) (identity : ContainerLeaseIdentity) :
    Bool :=
  w.objects.isPresent identity.namespaceResourceId identity.objectId
      identity.objectGeneration &&
    (w.store.applications.find? rollout.applicationId).any fun a =>
      decide (a.namespaceResourceId = identity.namespaceResourceId) &&
        decide (a.targetGeneration = some rollout.targetGeneration) &&
        a.deletionRequestedAtMs.isNone && a.deletedAtMs.isNone

/-- The loop over the members of a step: those that are stopped and still to be started. -/
def pendingMembers (w : World) (rollout : ContainerRollout) :
    List ContainerLeaseIdentity -> Result (List ContainerLease)
  | [] => pure []
  | identity :: rest => do
    let lease ← w.store.readLease identity
    let pending ← pendingMembers w rollout rest
    if lease.state = .stopped ∧ w.startable rollout identity = true ∧
        w.store.replaced rollout identity = false then
      pure (lease :: pending)
    else
      pure pending

def rolloutReplacements (w : World) (application id : ResourceId) :
    Result (List ContainerLease) := do
  let rollout ← w.store.readRollout application id
  if rollout.state ≠ .running then
    pure []
  else
    let percentage ← okOr (rollout.steps[rollout.currentStep]?) invariant
    let limit := (rollout.members.length * percentage + 99) / 100
    let members := rollout.members.insertionSort fun a b => Store.identityBefore a b = true
    w.pendingMembers rollout (members.take limit)

end World

/-! ## What a step says about its rollout -/

/-- The members that the current step covers, the first `⌈n · p / 100⌉`. -/
def ContainerRollout.first (rollout : ContainerRollout) : List ContainerLeaseIdentity :=
  (rollout.members.insertionSort fun a b => Store.identityBefore a b = true).take
    ((rollout.members.length * (rollout.steps[rollout.currentStep]?).getD 0 + 99) / 100)

namespace Store

def stopped (s : Store) (identity : ContainerLeaseIdentity) : Bool :=
  (s.leases.find? identity).any fun l => decide (l.state = .stopped)

/-- An execution of a member is on its way to run or to end. -/
def underway (s : Store) (rollout : ContainerRollout) : Bool :=
  rollout.members.any fun identity => s.leases.rows.any fun l =>
    decide (l.identity.namespaceResourceId = identity.namespaceResourceId) &&
    decide (l.identity.objectId = identity.objectId) &&
    decide (l.identity.objectGeneration = identity.objectGeneration) &&
    (decide (l.state = .admitting) || decide (l.state = .starting) || decide (l.state = .stopping))

end Store

structure World.Deserted (w : World) (rollout : ContainerRollout) : Prop where
  stopped : forall identity, identity ∈ rollout.first -> w.store.stopped identity = true
  missing : exists identity, identity ∈ rollout.first ∧ w.store.replaced rollout identity = false
  gone : forall identity, identity ∈ rollout.first ->
    w.store.replaced rollout identity = false -> w.startable rollout identity = false
  idle : w.store.underway rollout = false

/-! ## The loop over the members -/

section Members

variable {s t : Store} {members : List ContainerLeaseIdentity} {l : ContainerLease}
  {identity : ContainerLeaseIdentity}

theorem Kept.found {released : ContainerLease -> Prop} (h : Kept released s t)
    (hsome : (s.leases.find? identity).isSome = true) :
    (t.leases.find? identity).isSome = true := by
  rcases isSome_iff_exists.mp hsome with ⟨l, hl⟩
  rcases find?_eq_some.mp hl with ⟨hmem, rfl⟩
  rcases h.onward l hmem with ⟨_, hl', hchange⟩
  rw [← hchange.identity, find?_key hl']
  rfl

theorem stopMember (nowMs : Millis) (hs : Valid s) (hfind : s.leases.find? identity = some l)
    (hlive : l.state ≠ .stopped) :
    exists u l', s.updateLeases (Store.hasKey l.opaqueEngineKey) (Store.setStopping nowMs) =
        .ok u ∧ u.leases.find? identity = some l' ∧ Kept nothing s u ∧
      forall other, other ≠ identity -> u.leases.find? other = s.leases.find? other := by
  rcases find?_eq_some.mp hfind with ⟨hl, hidentity⟩
  have honly : forall m, m ∈ s.leases -> Store.hasKey l.opaqueEngineKey m = true -> m = l :=
    fun m hm hkey => hs.keys m l hm hl (of_decide_eq_true hkey)
  have hlawful : forall m, m ∈ s.leases.rows -> Store.hasKey l.opaqueEngineKey m = true ->
      IdentityKept m.toLeaseColumns (Store.setStopping nowMs m) ∧
        (Store.setStopping nowMs m).Checks := by
    intro m hm hkey
    rw [honly m hm hkey]
    rcases l.checks with ⟨hgeneration, hstopped, _, _⟩
    refine ⟨⟨rfl, rfl, rfl, rfl, rfl, rfl, fun _ => rfl, ?_, hlive⟩, hgeneration, ?_, nofun,
      fun _ => rfl⟩
    · intro hsome
      rcases isSome_iff_exists.mp hsome with ⟨_, hat⟩
      simp only [Store.setStopping, hat, getD_some]
    · exact ⟨nofun, fun hsome => absurd (hstopped.mpr hsome) hlive⟩
  obtain ⟨leases, hleases⟩ : exists leases, leases = s.leases.update
    (Store.hasKey l.opaqueEngineKey) (fun m => m.write (Store.setStopping nowMs m))
    fun m => m.identity_write (Store.setStopping nowMs m) := ⟨_, rfl⟩
  have hupdate : s.updateLeases (Store.hasKey l.opaqueEngineKey) (Store.setStopping nowMs) =
      .ok { s with leases } := by
    simp only [Store.updateLeases, ok_iff, hleases]
    exact ⟨hlawful, trivial⟩
  have hkept := (kept_setStopping hupdate).left
  rcases isSome_iff_exists.mp (hkept.found (by rw [hfind]; rfl)) with ⟨l', hl'⟩
  refine ⟨_, l', hupdate, hl', hkept, ?_⟩
  intro other hne
  change leases.find? other = _
  rw [hleases]
  apply find?_update_of_not
  rintro m hm rfl
  rw [Bool.eq_false_iff]
  intro hkey
  rw [honly m hm hkey, hidentity] at hne
  exact hne rfl

theorem stopMembers_total (rollout : ContainerRollout) (nowMs : Millis) (hs : Valid s)
    (hfound : forall identity, identity ∈ members -> (s.leases.find? identity).isSome = true) :
    exists t stopping ready, Store.stopMembers rollout nowMs s members = .ok (t, stopping, ready) ∧
      t.rollouts = s.rollouts ∧
      (forall other, ¬ other ∈ members -> t.leases.find? other = s.leases.find? other) ∧
      (stopping = [] ↔ forall identity, identity ∈ members -> s.stopped identity = true) ∧
      (stopping = [] -> t = s ∧ (ready = true ↔ forall identity, identity ∈ members ->
          s.replaced rollout identity = true)) := by
  induction members generalizing s with
  | nil => exact ⟨s, [], true, rfl, rfl, fun _ _ => rfl, by simp, by simp⟩
  | cons identity members ih =>
    rcases isSome_iff_exists.mp (hfound identity mem_cons_self) with ⟨l, hl⟩
    have hread : s.readLease identity = .ok l := okOr_eq_ok.mpr hl
    have hrest := fun other hother => hfound other (mem_cons_of_mem identity hother)
    by_cases hstopped : l.state = .stopped
    · rcases ih hs hrest with ⟨t, stopping, ready, hloop, hrollouts, hframe, hnil, hsame⟩
      have hown : s.stopped identity = true := by
        rw [Store.stopped, hl]
        exact decide_eq_true hstopped
      refine ⟨t, stopping, s.replaced rollout identity && ready, ?_, hrollouts, ?_, ?_, ?_⟩
      · simp only [Store.stopMembers, ok_iff]
        refine ⟨l, hread, ?_⟩
        rw [if_pos hstopped]
        simp only [ok_iff]
        exact ⟨_, hloop, rfl⟩
      · exact fun other hother => hframe other fun h => hother (mem_cons_of_mem _ h)
      · rw [hnil, forall_mem_cons]
        exact ⟨fun h => ⟨hown, h⟩, And.right⟩
      · intro hstopping
        rcases hsame hstopping with ⟨hstore, hready⟩
        rw [Bool.and_eq_true, forall_mem_cons, hready]
        exact ⟨hstore, Iff.rfl⟩
    · rcases stopMember nowMs hs hl hstopped with ⟨u, l', hupdate, hl', hkept, hothers⟩
      rcases ih (hkept.valid hs) fun other hother => hkept.found (hrest other hother) with
        ⟨t, stopping, ready, hloop, hrollouts, hframe, _, _⟩
      refine ⟨t, l' :: stopping, ready, ?_, ?_, ?_, ?_, by simp⟩
      · simp only [Store.stopMembers, ok_iff]
        refine ⟨l, hread, ?_⟩
        rw [if_neg hstopped]
        simp only [ok_iff]
        exact ⟨u, hupdate, l', okOr_eq_ok.mpr hl', _, hloop, rfl⟩
      · rw [hrollouts]
        simp only [Store.updateLeases, ok_iff] at hupdate
        rcases hupdate with ⟨_, rfl⟩
        rfl
      · intro other hother
        rw [mem_cons, not_or] at hother
        rw [hframe other hother.right, hothers other hother.left]
      · refine ⟨by simp, fun h => ?_⟩
        have hown := h identity mem_cons_self
        rw [Store.stopped, hl] at hown
        exact absurd (of_decide_eq_true hown) hstopped

end Members

/-! ## One step of a rollout -/

structure Lawful (s : Store) (r : ContainerRollout) : Prop where
  steps : Store.validSteps r.steps = true
  step : r.currentStep ≤ r.steps.length
  running : r.state = .running -> r.currentStep < r.steps.length
  found : forall m, m ∈ r.members -> (s.leases.find? m).isSome = true

structure Steady (s : Store) : Prop where
  valid : Valid s
  rollouts : forall r, r ∈ s.rollouts -> Lawful s r

def ContainerRollout.advanced (r : ContainerRollout) (nowMs : Millis) : ContainerRollout :=
  { r with
    state := if r.currentStep + 1 = r.steps.length then .completed else .running
    currentStep := r.currentStep + 1
    updatedAtMs := nowMs }

section Steps

variable {s t : Store} {rollout : ContainerRollout} {application id : ResourceId}
  {nowMs : Millis}

theorem Lawful.percentage (hr : Lawful s rollout) (hrunning : rollout.state = .running) :
    exists percentage, rollout.steps[rollout.currentStep]? = some percentage :=
  ⟨_, getElem?_eq_getElem (hr.running hrunning)⟩

theorem mem_members_of_first {identity : ContainerLeaseIdentity}
    (h : identity ∈ rollout.first) : identity ∈ rollout.members :=
  (mem_insertionSort _).mp (mem_of_mem_take h)

theorem readRollout_eq (hr : Lawful s rollout) (hfind : s.rollouts.find? id = some rollout)
    (happlication : rollout.applicationId = application) :
    s.readRollout application id = .ok rollout := by
  simp only [Store.readRollout, ok_iff]
  refine ⟨rollout, ?_, ⟨hr.steps, hr.step, hr.running⟩, rfl⟩
  exact filter_eq_some_iff.mpr ⟨hfind, decide_eq_true happlication⟩

theorem rolloutStepLeases_total (hs : Steady s) (hfind : s.rollouts.find? id = some rollout)
    (happlication : rollout.applicationId = application) (hrunning : rollout.state = .running)
    (nowMs : Millis) :
    exists t leases, s.rolloutStepLeases application id nowMs = .ok (t, leases) ∧
      (forall other, ¬ other ∈ rollout.first -> t.leases.find? other = s.leases.find? other) ∧
      (leases = [] ↔ forall m, m ∈ rollout.first -> s.stopped m = true) ∧
      ((t.rollouts = s.rollouts ∧ ¬ (leases = [] ∧
          forall m, m ∈ rollout.first -> s.replaced rollout m = true)) ∨
        (leases = [] ∧ (forall m, m ∈ rollout.first -> s.replaced rollout m = true) ∧
          t = { s with rollouts := s.rollouts.replace (rollout.advanced nowMs) })) := by
  have hr := hs.rollouts rollout (mem_of_find? hfind)
  rcases hr.percentage hrunning with ⟨percentage, hpercentage⟩
  have hmembers : rollout.members.filter (fun m => (s.leases.find? m).isSome) =
      rollout.members := filter_eq_self.mpr hr.found
  rcases stopMembers_total rollout nowMs hs.valid
    (fun m hm => hr.found m (mem_members_of_first hm)) with
    ⟨u, stopping, ready, hloop, hrollouts, hframe, hnil, hsame⟩
  have hstep : forall t, (if stopping.isEmpty && ready then
      { u with rollouts := u.rollouts.replace (rollout.advanced nowMs) } else u) = t ->
      s.rolloutStepLeases application id nowMs = .ok (t, stopping) := by
    intro t ht
    rw [ContainerRollout.first, hpercentage] at hloop
    simp only [Store.rolloutStepLeases, ok_iff]
    refine ⟨rollout, readRollout_eq hr hfind happlication, ?_⟩
    rw [if_neg (not_not.mpr hrunning)]
    simp only [ok_iff, hmembers]
    refine ⟨percentage, hpercentage, _, hloop, ?_⟩
    rw [← ht]
    split <;> rfl
  by_cases hdone : stopping = [] ∧ forall m, m ∈ rollout.first -> s.replaced rollout m = true
  · rcases hsame hdone.left with ⟨rfl, hready⟩
    refine ⟨_, stopping, hstep _ rfl, ?_, hnil, .inr ⟨hdone.left, hdone.right, ?_⟩⟩
    · intro other _
      split <;> rfl
    · rw [hdone.left, hready.mpr hdone.right]
      rfl
  · refine ⟨u, stopping, hstep u (if_neg ?_), hframe, hnil, .inl ⟨hrollouts, hdone⟩⟩
    rw [Bool.and_eq_true, List.isEmpty_iff]
    exact fun h => hdone ⟨h.left, (hsame h.left).right.mp h.right⟩

end Steps

/-! ## Every state -/

section States

variable {s t : Store} {a : Action}
  {identity : ContainerLeaseIdentity} {nowMs : Millis}

theorem Lawful.advanced {rollout : ContainerRollout} (hr : Lawful s rollout)
    (hrunning : rollout.state = .running) (nowMs : Millis) :
    Lawful s (rollout.advanced nowMs) := by
  have hlt := hr.running hrunning
  refine ⟨hr.steps, hlt, ?_, hr.found⟩
  intro hstate
  refine Nat.lt_of_le_of_ne hlt fun hlast => ?_
  have hcompleted : (rollout.advanced nowMs).state = .completed := if_pos hlast
  rw [hcompleted] at hstate
  cases hstate

theorem Effect.found (h : Effect s a t) (hsome : (s.leases.find? identity).isSome = true) :
    (t.leases.find? identity).isSome = true := by
  cases h with
  | kept h | finished _ h => exact h.found hsome
  | admitted _ h =>
    rcases isSome_iff_exists.mp hsome with ⟨_, hl⟩
    rcases find?_eq_some.mp hl with ⟨hmem, rfl⟩
    rw [find?_key ((mem_of_insert? h.inserted).mpr (.inl hmem))]
    rfl

theorem lawful_of_perform (hs : Steady s) (h : s.perform a = .ok t) :
    forall r, r ∈ t.rollouts -> Lawful s r := by
  have hreplace : forall r', Lawful s r' -> t.rollouts = s.rollouts.replace r' ->
      forall r, r ∈ t.rollouts -> Lawful s r := by
    intro r' hr' hrollouts
    rw [hrollouts]
    exact forall_replace hs.rollouts hr'
  cases a with
  | createRollout around application id steps nowMs =>
    simp only [Store.perform, map_eq_ok, Store.createRollout, ok_iff] at h
    rcases h with ⟨_, ⟨hsteps, _, _, _, _, _, _, _, hinsert, rfl⟩, rfl⟩
    refine forall_insert? hinsert hs.rollouts ⟨hsteps, Nat.zero_le _, ?_, ?_⟩
    · intro _
      apply length_pos_of_ne_nil
      rintro rfl
      cases hsteps
    · intro m hm
      rcases mem_map.mp hm with ⟨_, hl, rfl⟩
      rw [find?_key (mem_of_mem_filter hl)]
      rfl
  | rolloutStepLeases application id nowMs =>
    rcases map_eq_ok.mp h with ⟨⟨_, _⟩, hstep, rfl⟩
    have hread := hstep
    simp only [Store.rolloutStepLeases, Store.readRollout, ok_iff,
      filter_eq_some_iff] at hread
    rcases hread with ⟨_, ⟨rollout, ⟨hfind, happlication⟩, _, rfl⟩, hread⟩
    by_cases hrunning : rollout.state = .running
    · rcases rolloutStepLeases_total hs hfind (of_decide_eq_true happlication) hrunning nowMs
        with ⟨_, _, hstep', _, _, hcases⟩
      cases hstep.symm.trans hstep'
      rcases hcases with ⟨hsame, _⟩ | ⟨_, _, rfl⟩
      · exact hsame ▸ hs.rollouts
      · have hr := hs.rollouts rollout (mem_of_find? hfind)
        exact hreplace _ (hr.advanced hrunning nowMs) rfl
    · rw [if_pos hrunning] at hread
      cases hread
      exact hs.rollouts
  | failRollout application id nowMs =>
    simp only [Store.perform, Store.failRollout, ok_iff, filter_eq_some_iff] at h
    rcases h with ⟨rollout, ⟨hfind, _⟩, rfl⟩
    have hr := hs.rollouts rollout (mem_of_find? hfind)
    have hfailed : Lawful s { rollout with state := .failed, updatedAtMs := nowMs } :=
      ⟨hr.steps, hr.step, by simp, hr.found⟩
    exact hreplace _ hfailed rfl
  | _ => exact (effect_of_perform hs.valid h).right rfl ▸ hs.rollouts

theorem steady_next (hs : Steady s) (h : s.next a = some t) : Steady t := by
  have heffect := effect_of_next hs.valid h
  refine ⟨heffect.valid hs.valid, ?_⟩
  intro r hr
  have hlawful : Lawful s r := by
    unfold Store.next at h
    cases hperform : s.perform a with
    | ok u =>
      rw [hperform] at h
      cases h
      exact lawful_of_perform hs hperform r hr
    | error e =>
      rw [hperform] at h
      cases h
      exact hs.rollouts r hr
  exact { hlawful with found := fun m hm => heffect.found (hlawful.found m hm) }

theorem steady_run {actions : List WorldAction} {w : World}
    (hrun : Run World.next World.allowed World.empty actions w) : Steady w.store := by
  refine Run.invariant (P := fun w => Steady w.store) ?_ hrun ⟨valid_empty, nofun⟩
  intro u a v hu _ hnext
  cases a with
  | call a =>
    rcases map_eq_some_iff.mp hnext with ⟨_, hstore, rfl⟩
    exact steady_next hu hstore
  | object call =>
    cases hnext
    exact hu

end States

/-! ## Progress -/

section Progress

variable {w : World} {rollout : ContainerRollout} {id : ResourceId}
  {members : List ContainerLeaseIdentity}

theorem pendingMembers_total
    (hfound : forall m, m ∈ members -> (w.store.leases.find? m).isSome = true) :
    exists pending, w.pendingMembers rollout members = .ok pending ∧
      (pending = [] ↔ forall m, m ∈ members -> w.store.stopped m = true ->
        w.store.replaced rollout m = false -> w.startable rollout m = false) := by
  induction members with
  | nil => exact ⟨[], rfl, by simp⟩
  | cons identity members ih =>
    rcases isSome_iff_exists.mp (hfound identity mem_cons_self) with ⟨l, hl⟩
    rcases ih fun m hm => hfound m (mem_cons_of_mem identity hm) with ⟨pending, hpending, hnil⟩
    have hstopped : w.store.stopped identity = decide (l.state = .stopped) := by
      rw [Store.stopped, hl]
      rfl
    simp only [World.pendingMembers, ok_iff, forall_mem_cons, ← hnil, hstopped]
    by_cases hmember : l.state = .stopped ∧ w.startable rollout identity = true ∧
        w.store.replaced rollout identity = false
    · refine ⟨l :: pending, ⟨l, okOr_eq_ok.mpr hl, pending, hpending, if_pos hmember⟩, by simp, ?_⟩
      intro h
      have hgone := h.left (decide_eq_true hmember.left) hmember.right.right
      rw [hmember.right.left] at hgone
      cases hgone
    · refine ⟨pending, ⟨l, okOr_eq_ok.mpr hl, pending, hpending, if_neg hmember⟩, ?_, And.right⟩
      intro h
      refine ⟨fun hstop hmissing => ?_, h⟩
      rw [Bool.eq_false_iff]
      exact fun hstart => hmember ⟨of_decide_eq_true hstop, hstart, hmissing⟩

theorem rolloutReplacements_total (hs : Steady w.store)
    (hfind : w.store.rollouts.find? id = some rollout) (hrunning : rollout.state = .running) :
    exists pending, w.rolloutReplacements rollout.applicationId id = .ok pending ∧
      (pending = [] ↔ forall m, m ∈ rollout.first -> w.store.stopped m = true ->
        w.store.replaced rollout m = false -> w.startable rollout m = false) := by
  have hr := hs.rollouts rollout (mem_of_find? hfind)
  rcases hr.percentage hrunning with ⟨percentage, hpercentage⟩
  rcases pendingMembers_total fun m hm => hr.found m (mem_members_of_first hm) with
    ⟨pending, hpending, hnil⟩
  refine ⟨pending, ?_, hnil⟩
  rw [ContainerRollout.first, hpercentage] at hpending
  simp only [World.rolloutReplacements, ok_iff]
  refine ⟨rollout, readRollout_eq hr hfind rfl, ?_⟩
  rw [if_neg (not_not.mpr hrunning)]
  simp only [ok_iff]
  exact ⟨percentage, hpercentage, hpending⟩

theorem Lawful.first_of_last {s : Store} (hr : Lawful s rollout)
    (hlast : rollout.currentStep + 1 = rollout.steps.length)
    {identity : ContainerLeaseIdentity} (hmem : identity ∈ rollout.members) :
    identity ∈ rollout.first := by
  have hsteps := hr.steps
  simp only [Store.validSteps, Bool.and_eq_true, decide_eq_true_eq] at hsteps
  have hall : rollout.steps[rollout.currentStep]? = some 100 := by
    rw [← hsteps.left.left.right, getLast?_eq_getElem?, ← hlast, Nat.add_sub_cancel]
  have hlength : (rollout.members.insertionSort fun a b =>
      Store.identityBefore a b = true).length ≤ (rollout.members.length * 100 + 99) / 100 := by
    rw [length_insertionSort]
    omega
  rw [ContainerRollout.first, hall, getD_some, take_of_length_le hlength]
  exact (mem_insertionSort _).mpr hmem

/-- A call for the current step stops a member, one is to be started, one is on its way, or the
step is done. -/
def World.Moves (w : World) (rollout : ContainerRollout) (nowMs : Millis) (t : Store)
    (leases replacements : List ContainerLease) : Prop :=
  leases ≠ [] ∨ replacements ≠ [] ∨ w.store.underway rollout = true ∨
    t.rollouts.find? rollout.id = some (rollout.advanced nowMs)

/-- What the two calls of a reconciliation make of a running rollout. -/
structure RolloutStep (w : World) (rollout : ContainerRollout) (nowMs : Millis)
    (t : Store) (leases replacements : List ContainerLease) : Prop where
  step : w.store.rolloutStepLeases rollout.applicationId rollout.id nowMs = .ok (t, leases)
  start : w.rolloutReplacements rollout.applicationId rollout.id = .ok replacements
  moves : w.Moves rollout nowMs t leases replacements ↔ ¬ w.Deserted rollout
  /-- A rollout is completed when all members were stopped and replaced. -/
  completed : forall r, t.rollouts.find? rollout.id = some r -> r.state = .completed ->
    forall identity, identity ∈ rollout.members ->
      t.stopped identity = true ∧ t.replaced rollout identity = true
  first : forall identity, ¬ identity ∈ rollout.first ->
    t.leases.find? identity = w.store.leases.find? identity

theorem rollout_progress {actions : List WorldAction}
    (hrun : Run World.next World.allowed World.empty actions w)
    (hmem : rollout ∈ w.store.rollouts) (hrunning : rollout.state = .running) (nowMs : Millis) :
    exists t leases replacements, RolloutStep w rollout nowMs t leases replacements := by
  have hs := steady_run hrun
  have hfind := find?_key hmem
  rcases rolloutStepLeases_total hs hfind rfl hrunning nowMs with
    ⟨t, leases, hstep, hframe, hstopped, hcases⟩
  rcases rolloutReplacements_total hs hfind hrunning with ⟨replacements, hreplacements, hgone⟩
  have hadvanced : (w.store.rollouts.replace (rollout.advanced nowMs)).find? rollout.id =
      some (rollout.advanced nowMs) := by
    rw [find?_replace (x := rollout.advanced nowMs) hmem rfl]
    exact if_pos rfl
  refine ⟨t, leases, replacements, hstep, hreplacements, ?_, ?_, hframe⟩
  · rcases hcases with ⟨hsame, hwaits⟩ | ⟨hnone, hreplaced, rfl⟩
    · have hstay : t.rollouts.find? rollout.id ≠ some (rollout.advanced nowMs) := by
        rw [hsame, hfind]
        intro h
        have hnext := congrArg ContainerRollout.currentStep (Option.some.inj h)
        exact absurd hnext.symm (Nat.succ_ne_self rollout.currentStep)
      constructor
      · rintro (hleases | hpending | hunder | hmoved) hdeserted
        · exact hleases (hstopped.mpr hdeserted.stopped)
        · exact hpending (hgone.mpr fun m hm _ => hdeserted.gone m hm)
        · rw [hdeserted.idle] at hunder
          cases hunder
        · exact hstay hmoved
      · intro hnot
        by_contra hstuck
        simp only [World.Moves, not_or, not_not, Bool.not_eq_true] at hstuck
        rcases hstuck with ⟨hnone, hpending, hidle, _⟩
        have hall := hstopped.mp hnone
        refine hnot ⟨hall, ?_, fun m hm => hgone.mp hpending m hm (hall m hm), hidle⟩
        by_contra hmissing
        refine hwaits ⟨hnone, fun m hm => ?_⟩
        rw [← Bool.not_eq_false]
        exact fun hfalse => hmissing ⟨m, hm, hfalse⟩
    · refine iff_of_true (Or.inr (Or.inr (Or.inr hadvanced))) ?_
      intro hdeserted
      rcases hdeserted.missing with ⟨m, hm, hmissing⟩
      rw [hreplaced m hm] at hmissing
      cases hmissing
  · intro r hr hcompleted
    rcases hcases with ⟨hsame, _⟩ | ⟨hnone, hreplaced, rfl⟩
    · rw [hsame, hfind] at hr
      cases hr
      rw [hrunning] at hcompleted
      cases hcompleted
    · cases hadvanced.symm.trans hr
      have hlast : rollout.currentStep + 1 = rollout.steps.length := by
        by_contra hnot
        have hstate : (rollout.advanced nowMs).state = .running := if_neg hnot
        rw [hstate] at hcompleted
        cases hcompleted
      intro identity hidentity
      have hfirst := (hs.rollouts rollout hmem).first_of_last hlast hidentity
      exact ⟨hstopped.mp hnone identity hfirst, hreplaced identity hfirst⟩

end Progress

namespace Sample

def outdated : List WorldAction :=
  [.object (.registerObject 2 3 true), .call configured, .call (reserve 7 1),
    .call (.markStarting (identity 1) 7 2),
    .call (.observeRunning around (identity 1) ⟨7, 8, 5, 6⟩ 3),
    .call (.manage (Table.empty.put ⟨1, 2, 1, some 2, false, none, none⟩)
      ((Table.empty.put (target 1 1000)).put (target 2 2000))),
    .call (.createRollout around 1 9 [100] 4)]

def replacing : List WorldAction :=
  [.call (.rolloutStepLeases 1 9 5),
    .call (.finishStopped (identity 1) ⟨7, some 8, true, true, true⟩ 6)]

def rollout : ContainerRollout := ⟨9, 1, 2, [100], 0, .running, [identity 1], 4⟩

def leaseOf (objectId : DurableObjectId) : ContainerLeaseIdentity := ⟨2, objectId, 1, 1⟩

/-- An object with a running container, under the engine key that follows its number. -/
def started (objectId : DurableObjectId) : List WorldAction :=
  [.object (.registerObject 2 objectId true),
    .call (.reserve around ⟨1, 2, objectId, 1⟩ (objectId + 1) execution 4 1),
    .call (.markStarting (leaseOf objectId) (objectId + 1) 2),
    .call (.observeRunning around (leaseOf objectId) ⟨objectId + 1, 8, 5, 6⟩ 3)]

def applications (generation : Nat) : Table ContainerApplication.id :=
  Table.empty.put ⟨1, 2, 2, some generation, false, none, none⟩

def halfway : List WorldAction :=
  .call (.manage (applications 1) (Table.empty.put (target 1 1000))) ::
    (started 3 ++ started 10 ++
      [.call (.manage (applications 2) ((Table.empty.put (target 1 1000)).put (target 2 2000))),
        .call (.createRollout around 1 9 [50, 100] 4), .call (.rolloutStepLeases 1 9 5),
        .call (.finishStopped (leaseOf 3) ⟨4, some 8, true, true, true⟩ 6)])

def stepwise : ContainerRollout :=
  ⟨9, 1, 2, [50, 100], 0, .running, [leaseOf 3, leaseOf 10], 4⟩

end Sample

open Sample in
theorem rollout_progress_replacing : exists w t leases replacements,
    Run World.next World.allowed World.empty halfway w ∧ stepwise ∈ w.store.rollouts ∧
      w.store.stopped (leaseOf 3) = true ∧ w.store.stopped (leaseOf 10) = false ∧
      RolloutStep w stepwise 7 t leases replacements := by
  have hexec : exists w, Run World.next World.allowed World.empty halfway w ∧
      stepwise ∈ w.store.rollouts ∧ w.store.stopped (leaseOf 3) = true ∧
      w.store.stopped (leaseOf 10) = false :=
    exists_run_of_execute (by decide +kernel)
  rcases hexec with ⟨w, hrun, hmem, hstopped, hlive⟩
  rcases rollout_progress hrun hmem rfl 7 with ⟨t, leases, replacements, hstep⟩
  exact ⟨w, t, leases, replacements, hrun, hmem, hstopped, hlive, hstep⟩

open Sample in
theorem rollout_deserted : exists w t, Run World.next World.allowed World.empty
      (outdated ++ .object (.beginObjectDelete 2 3) :: replacing) w ∧
      rollout ∈ w.store.rollouts ∧ w.store.rolloutStepLeases 1 9 7 = .ok (t, []) ∧
      w.rolloutReplacements 1 9 = .ok [] ∧ ¬ w.Moves rollout 7 t [] [] := by
  have hexec : exists w, Run World.next World.allowed World.empty
      (outdated ++ .object (.beginObjectDelete 2 3) :: replacing) w ∧
      rollout ∈ w.store.rollouts ∧ w.store.underway rollout = false ∧
      w.rolloutReplacements 1 9 = .ok [] ∧ exists r, w.store.rolloutStepLeases 1 9 7 = .ok r ∧
        r.2 = [] ∧ r.1.rollouts.find? 9 = some rollout :=
    exists_run_of_execute (by decide +kernel)
  rcases hexec with ⟨w, hrun, hmem, hidle, hreplacements, ⟨t, leases⟩, hstep, hnone, hsame⟩
  cases hnone
  refine ⟨w, t, hrun, hmem, hstep, hreplacements, ?_⟩
  rintro (hleases | hpending | hunder | hmoved)
  · exact hleases rfl
  · exact hpending rfl
  · rw [hidle] at hunder
    cases hunder
  · cases hsame.symm.trans hmoved

end Containers
end OpenCompute
