import OpenCompute.Cache.Fence

/-!
# Lookups against refreshed entries

A lookup deletes an expired row, and claims a lease for a stale one, by the id of
the row that it has read.  A put may write the row in between.  As long as no put
does, a lookup removes only what it has seen expired, and a lease is for the
generation that is stored.
-/

namespace OpenCompute
namespace Cache

open Relational Table Transaction Transition

/-- What a lookup relies on is still so if the row is stored. -/
def LookupPhase.Agrees : LookupPhase -> CacheEntry -> Prop
  | .claiming _ candidate, e =>
    e.id = candidate.id -> e.response.generation = candidate.response.generation
  | .expiring _ candidate, e => e.id = candidate.id -> e = candidate
  | _, _ => True

instance (phase : LookupPhase) (e : CacheEntry) : Decidable (phase.Agrees e) :=
  match phase with
  | .begun => inferInstanceAs (Decidable True)
  | .fenced _ => inferInstanceAs (Decidable True)
  | .claiming _ candidate => inferInstanceAs (Decidable (e.id = candidate.id ->
    e.response.generation = candidate.response.generation))
  | .expiring _ candidate => inferInstanceAs (Decidable (e.id = candidate.id -> e = candidate))

/-- A put under the current fence leaves alone what lookups have read and still act on. -/
def Undisturbed (host : Host) (w : World) : Action -> Prop
  | .put ticket identity requestHeaders response refreshToken nowMs =>
    w.tickets[ticket]? = some w.store.fence -> forall l, l ∈ w.lookups.rows ->
      l.phase.Agrees (w.store.written host
        ⟨identity, requestHeaders, response, w.store.fence, refreshToken, nowMs⟩ ticket)
  | _ => True

instance (host : Host) (w : World) (a : Action) : Decidable (Undisturbed host w a) := by
  cases a <;> unfold Undisturbed <;> infer_instance

/-! ## The invariant -/

structure Observed (w : World) : Prop where
  agrees : forall l, l ∈ w.lookups -> forall e, e ∈ w.store.entries -> l.phase.Agrees e
  expired : forall l, l ∈ w.lookups -> forall fence candidate,
    l.phase = .expiring fence candidate ->
    Store.decision l.identity l.nowMs candidate = .expire

namespace Observed

variable {host : Host} {config : ResponseCacheConfig} {w w' : World}

section

variable (h : Observed w)
include h

theorem fewer (hentries : forall e, e ∈ w'.store.entries -> e ∈ w.store.entries)
    (hlookups : forall l, l ∈ w'.lookups -> l ∈ w.lookups) : Observed w' where
  agrees := fun l hl e he => h.agrees l (hlookups l hl) e (hentries e he)
  expired := fun l hl => h.expired l (hlookups l hl)

theorem move {l : Lookup} {phase : LookupPhase}
    (hagrees : forall e, e ∈ w.store.entries -> phase.Agrees e)
    (hexpired : forall fence candidate, phase = .expiring fence candidate ->
      Store.decision l.identity l.nowMs candidate = .expire) : Observed (w.move l phase) where
  agrees := forall_replace h.agrees hagrees
  expired := forall_replace h.expired hexpired

theorem begin {l : Lookup} {lookups : Table Lookup.id}
    (hphase : l.phase = .begun) (hinsert : w.lookups.insert? l = some lookups)
    (hstore : w'.store = w.store) (hlookups : w'.lookups = lookups) : Observed w' := by
  subst hlookups
  constructor
  · intro other hother e he
    rw [hstore] at he
    rcases (mem_of_insert? hinsert).mp hother with hmem | rfl
    · exact h.agrees other hmem e he
    · rw [hphase]
      trivial
  · refine forall_insert? hinsert h.expired ?_
    intro fence candidate hexpiring
    rw [hphase] at hexpiring
    cases hexpiring

theorem put {request : CachePut} {ticket : Nat} {store : Store}
    (hagrees : forall l, l ∈ w.lookups -> l.phase.Agrees (w.store.written host request ticket))
    (hput : w.store.put host config request ticket = .ok store) :
    Observed { w with store } where
  agrees := by
    intro l hl e he
    rcases (put_eq_ok hput).entries e he with ⟨hmem, _⟩ | rfl
    · exact h.agrees l hl e hmem
    · exact hagrees l hl
  expired := h.expired

theorem step {a : Action} (hallowed : Undisturbed host w a)
    (hstep : Step host config w a w') : Observed w' := by
  have hgone {l other : Lookup} (hother : other ∈ w.lookups.erase l.id) : other ∈ w.lookups :=
    (mem_erase.mp hother).left
  have hsame {e candidate : CacheEntry} (hcandidate : candidate ∈ w.store.entries)
      (he : e ∈ w.store.entries) (hid : e.id = candidate.id) : e = candidate :=
    eq_of_key_eq he hcandidate hid
  cases hstep with
  | rejected a => exact h
  | aborted a l | missed hl | answered hl _ => exact h.fewer (fun _ he => he) fun _ => hgone
  | prepared identity => exact h.fewer (fun _ he => he) fun _ hl => hl
  | begun hinsert => exact h.begin rfl hinsert rfl rfl
  | fenced hl =>
    have hhand : Observed (w.hand w.store.fence) := h.fewer (fun _ he => he) fun _ hl => hl
    exact hhand.move (fun _ _ => trivial) fun _ _ hexpiring => by cases hexpiring
  | stale hl hcandidate =>
    refine h.move ?_ fun _ _ hexpiring => by cases hexpiring
    intro e he hid
    rw [hsame hcandidate he hid]
  | outdated hl hcandidate hdecision =>
    refine h.move (fun e he hid => hsame hcandidate he hid) ?_
    rintro fence candidate ⟨rfl, rfl⟩
    exact hdecision
  | claimed hl hphase hclaim =>
    rcases claimRefresh_eq_ok hclaim with ⟨_, hentries, _⟩
    exact h.fewer (fun e he => hentries ▸ he) fun _ => hgone
  | expired hl hphase => exact h.fewer (fun e he => (mem_deleteEntries.mp he).left) fun _ => hgone
  | put hticket hput =>
    have hfence := (put_eq_ok hput).fence
    subst hfence
    exact h.put (hallowed hticket) hput
  | deleted hdelete => exact h.fewer (delete_eq_ok hdelete).right fun _ hl => hl
  | purged hpurge =>
    exact h.fewer (fun e he => ((purge_eq_ok hpurge).right e he).left) fun _ hl => hl

end

end Observed

/-! ## Steps of lookups -/

def Action.isLookup : Action -> Bool
  | .beginLookup _ _ _ => true
  | .readFence _ => true
  | .load _ => true
  | .claim _ _ => true
  | .expire _ => true
  | _ => false

/-- The lookup that takes the step. -/
def Action.TakenBy (a : Action) (w : World) (l : Lookup) : Prop :=
  l ∈ w.lookups ∧ (a = .expire l.id ∨ exists token, a = .claim l.id token)

/-- A row that the step removes is what its lookup has read, and it was expired then. -/
def RemovesExpired (w : World) (a : Action) (w' : World) : Prop :=
  forall e, e ∈ w.store.entries -> ¬ e ∈ w'.store.entries ->
    exists l fence, a.TakenBy w l ∧ l.phase = .expiring fence e ∧
      ¬ l.nowMs < e.response.freshUntilMs ∧
      Store.decision l.identity l.nowMs e = .expire

/-- A lease that the step grants is for the row that its lookup has read, in the generation
that is stored. -/
def GrantsCurrent (w : World) (a : Action) (w' : World) : Prop :=
  forall lease, lease ∈ w'.store.leases -> ¬ lease ∈ w.store.leases ->
    exists l fence candidate e, a.TakenBy w l ∧ l.phase = .claiming fence candidate ∧
      lease.entryId = candidate.id ∧ e ∈ w'.store.entries ∧ e.id = lease.entryId ∧
      e.response.generation = lease.baseGeneration

/-- In every run without a put that disturbs a lookup, the next step of any lookup removes a
row only as the lookup has read it, expired, and grants a lease only for the generation that is
stored. -/
theorem lookup_spares_refreshed {host : Host} {config : ResponseCacheConfig}
    {actions : List Action} {w : World}
    (hrun : Run (World.next host config) (Undisturbed host) World.initial actions w) :
    forall a w', a.isLookup = true -> w.next host config a = some w' ->
      RemovesExpired w a w' ∧ GrantsCurrent w a w' := by
  intro a w' hlookup hnext
  have h : Observed w := hrun.invariant
    (fun _ _ _ h hallowed hnext => h.step hallowed (step_of_next hnext))
    ⟨forall_mem_empty, forall_mem_empty⟩
  cases step_of_next hnext with
  | rejected a | aborted a l | begun hinsert | fenced hl | missed hl | answered hl hcandidate
  | stale hl hcandidate | outdated hl hcandidate hdecision =>
    exact ⟨fun _ he hgone => absurd he hgone, fun _ hlease hnew => absurd hlease hnew⟩
  | @claimed _ token l _ store _ hl hphase hclaim =>
    rcases claimRefresh_eq_ok hclaim with ⟨_, hentries, hleases⟩
    refine ⟨fun e he hgone => absurd (hentries ▸ he) hgone, ?_⟩
    intro lease hlease hnew
    rcases hleases lease hlease with hold | ⟨hid, hgeneration, e, he, hentry⟩
    · exact absurd hold hnew
    · have hagrees := h.agrees l hl e he
      rw [hphase] at hagrees
      refine ⟨l, _, _, e, ⟨hl, .inr ⟨token, rfl⟩⟩, hphase, hid, ?_, hentry.trans hid.symm,
        (hagrees hentry).trans hgeneration.symm⟩
      change e ∈ store.entries
      rw [hentries]
      exact he
  | @expired fence l candidate hl hphase =>
    refine ⟨?_, fun lease hlease hnew => absurd (mem_filter.mp hlease).left hnew⟩
    intro e he hgone
    have hid : e.id = candidate.id := by
      by_contra hne
      exact hgone (mem_deleteEntries.mpr ⟨he, decide_eq_false hne⟩)
    have hagrees := h.agrees l hl e he
    rw [hphase] at hagrees
    cases hagrees hid
    have hdecision := h.expired l hl fence candidate hphase
    refine ⟨l, fence, ⟨hl, .inl rfl⟩, hphase, fun hfresh => ?_, hdecision⟩
    rw [Store.decision, if_pos hfresh] at hdecision
    cases hdecision
  | _ => cases hlookup

namespace Sample

def expiring : List Action :=
  [.preparePut page, .put 0 page [] (response 10 1) none 1, .beginLookup page [] 50,
    .readFence 0, .load 0]

def refreshed : List Action := expiring ++ [.put 0 page [] (response 100 2) none 50]

end Sample

open Sample in
theorem lookup_spares_refreshed_expiring : exists w w',
    Run (World.next host config) (Undisturbed host) World.initial expiring w ∧
      w.next host config (.expire 0) = some w' ∧
      w.store.entries.keys = [1] ∧ w'.store.entries.keys = [] ∧
      RemovesExpired w (.expire 0) w' ∧ GrantsCurrent w (.expire 0) w' := by
  have hexec : exists w, Run (World.next host config) (Undisturbed host) World.initial expiring w ∧
      w.store.entries.keys = [1] ∧
      exists w', w.next host config (.expire 0) = some w' ∧ w'.store.entries.keys = [] :=
    exists_run_of_execute (by decide +kernel)
  rcases hexec with ⟨w, hrun, hbefore, w', hnext, hafter⟩
  exact ⟨w, w', hrun, hnext, hbefore, hafter, lookup_spares_refreshed hrun (.expire 0) w' rfl hnext⟩

open Sample in
theorem lookup_removes_refreshed : exists w w',
    Run (World.next host config) always World.initial refreshed w ∧
      w.next host config (.expire 0) = some w' ∧
      w.store.entries.rows = [⟨1, 0, page, 0, response 100 2, 1, 50, 0⟩] ∧
      w'.store.entries.rows = [] ∧ ¬ RemovesExpired w (.expire 0) w' := by
  have hexec : exists w, Run (World.next host config) always World.initial refreshed w ∧
      w.store.entries.rows = [⟨1, 0, page, 0, response 100 2, 1, 50, 0⟩] ∧
      (forall l, l ∈ w.lookups.rows -> l.nowMs = 50) ∧
      exists w', w.next host config (.expire 0) = some w' ∧ w'.store.entries.rows = [] :=
    exists_run_of_execute (by decide +kernel)
  rcases hexec with ⟨w, hrun, hrows, hclock, w', hnext, hnone⟩
  refine ⟨w, w', hrun, hnext, hrows, hnone, ?_⟩
  intro hremoves
  have hstored : ⟨1, 0, page, 0, response 100 2, 1, 50, 0⟩ ∈ w.store.entries := by
    rw [← mem_rows, hrows]
    exact List.mem_singleton_self _
  have hgone : ¬ ⟨1, 0, page, 0, response 100 2, 1, 50, 0⟩ ∈ w'.store.entries := by
    rw [← mem_rows, hnone]
    exact List.not_mem_nil
  rcases hremoves _ hstored hgone with ⟨l, _, hl, _, hstale, _⟩
  rw [hclock l hl.left] at hstale
  exact hstale (by decide)

end Cache
end OpenCompute
