import OpenCompute.Vectorize.Admission

/-!
# The frontier over whole runs

The queue holds the accepted mutations after the frontier, each with the items
it was accepted with.  So the head can always be claimed and applied, and the
visible vectors are the fold of the mutations up to the frontier.
-/

namespace OpenCompute
namespace Vectorize

open Relational Table Transaction Transition Nat
open List hiding mem_filter

variable {β : Type} {json : Json β} {engine : VectorizeEngine} {w : World β}

/-! ## The queue -/

structure Waiting (json : Json β) (engine : VectorizeEngine) (w : World β)
    (m : VectorMutation β) : Prop where
  state : m.state.isPending = true
  after : w.store.processedSequence < m.sequence
  accepted : w.accepted[m.sequence - 1]? = some ⟨m.kind, m.items⟩
  payload : (m.items.map fun item => item.bytes json).sum ≤ engine.quotaBytes

structure Settled (w : World β) (m : VectorMutation β) : Prop where
  state : m.state = .applied
  before : m.sequence ≤ w.store.processedSequence

structure Queue (json : Json β) (engine : VectorizeEngine) (w : World β) : Prop where
  next : w.store.nextSequence = w.accepted.length + 1
  bound : ((w.accepted.length + 1 : Nat) : Int) ≤ i64Max
  processed : w.store.processedSequence ≤ w.accepted.length
  stored : forall m, m ∈ w.store.mutations -> Waiting json engine w m ∨ Settled w m
  queued : forall sequence, w.store.processedSequence < sequence ->
    sequence ≤ w.accepted.length -> sequence ∈ w.store.mutations.keys
  valid : forall a, a ∈ w.accepted -> ValidItems json engine a.kind a.items

/-- The first mutations, applied. -/
def World.visible (w : World β) (count : Nat) : Vectors β :=
  foldRows Table.empty (w.accepted.take count) 1

structure Admitted (json : Json β) (engine : VectorizeEngine) (w : World β) : Prop where
  queue : Queue json engine w
  vectors : w.store.vectors = w.visible w.store.processedSequence
  fits : forall count, Fits json engine (w.visible count)

namespace Queue

variable {m : VectorMutation β}

theorem waiting (h : Queue json engine w) (hm : m ∈ w.store.mutations)
    (hafter : w.store.processedSequence < m.sequence) : Waiting json engine w m := by
  rcases h.stored m hm with hwaiting | hsettled
  · exact hwaiting
  · exact absurd hafter (not_lt.mpr hsettled.before)

theorem waiting_of_pending (h : Queue json engine w) (hm : m ∈ w.store.mutations)
    (hpending : m.state.isPending = true) : Waiting json engine w m := by
  rcases h.stored m hm with hwaiting | hsettled
  · exact hwaiting
  · rw [hsettled.state] at hpending
    cases hpending

theorem pending (h : Queue json engine w) :
    w.store.pending.map (fun m => (Accepted.mk m.kind m.items, m.sequence)) =
      (w.accepted.drop w.store.processedSequence).zipIdx (w.store.processedSequence + 1) := by
  let earlier : Accepted β × Nat -> Accepted β × Nat -> Prop := fun a b => a.2 < b.2
  have hmem : forall m, m ∈ w.store.pending ↔ m ∈ w.store.mutations ∧ m.state.isPending = true := by
    intro m
    rw [Store.pending, mem_insertionSort, List.mem_filter]
    rfl
  have hsorted : w.store.pending.Pairwise fun a b => a.sequence < b.sequence := by
    have hle := pairwise_insertionSort (fun a b : VectorMutation β => a.sequence ≤ b.sequence)
      (w.store.mutations.rows.filter fun m => m.state.isPending)
    have hne : w.store.pending.Pairwise fun a b => a.sequence ≠ b.sequence := by
      rw [← pairwise_map]
      refine ((perm_insertionSort _ _).map _).nodup_iff.mpr ?_
      exact w.store.mutations.nodup.sublist (filter_sublist.map _)
    exact (hle.and hne).imp fun hboth => lt_of_le_of_ne hboth.left hboth.right
  apply List.Pairwise.eq_of_mem_iff (r := earlier)
  · exact pairwise_map.mpr hsorted
  · have hrange := pairwise_lt_range' (s := w.store.processedSequence + 1)
      (n := (w.accepted.drop w.store.processedSequence).length)
    rw [← zipIdx_map_snd, pairwise_map] at hrange
    exact hrange
  · rintro ⟨a, sequence⟩
    rw [mk_mem_zipIdx_iff_le_and_getElem?_sub, getElem?_drop, mem_map]
    constructor
    · rintro ⟨m, hm, heq⟩
      rcases (hmem m).mp hm with ⟨hstored, hpending⟩
      have hwaiting := h.waiting_of_pending hstored hpending
      have hafter := hwaiting.after
      cases heq
      refine ⟨hafter, ?_⟩
      rw [show w.store.processedSequence + (m.sequence - (w.store.processedSequence + 1)) =
        m.sequence - 1 by omega]
      exact hwaiting.accepted
    · rintro ⟨hafter, hget⟩
      rw [show w.store.processedSequence + (sequence - (w.store.processedSequence + 1)) =
        sequence - 1 by omega] at hget
      rcases List.getElem?_eq_some_iff.mp hget with ⟨_, _⟩
      rcases mem_keys.mp (h.queued sequence hafter (by omega)) with ⟨m, hm, rfl⟩
      have hwaiting := h.waiting hm hafter
      rw [hwaiting.accepted, Option.some.injEq] at hget
      exact ⟨m, (hmem m).mpr ⟨hm, hwaiting.state⟩, Prod.ext hget rfl⟩

end Queue

/-! ## Admission -/

variable {kind : VectorMutationKind} {items : List VectorMutationInput} {mutationId : Uuid}
  {t s : Store β} {m : VectorMutation β} {claimToken : Text} {nowMs leaseMs untilMs : Millis}

theorem Queue.enqueue (h : Queue json engine w)
    (henqueue : w.store.enqueue json engine kind items mutationId = .ok (t, m)) :
    Queue json engine ⟨t, w.accepted ++ [⟨m.kind, m.items⟩]⟩ ∧
      t.vectors = w.store.vectors ∧ t.processedSequence = w.store.processedSequence ∧
      t.validatePendingProjection json engine = .ok () := by
  simp only [Store.enqueue, ok_iff, Prod.mk.injEq] at henqueue
  rcases henqueue with ⟨encoded, hencoded, _, _, _, hinsert, hprojection,
    hnext, rfl, rfl⟩
  refine ⟨?_, rfl, rfl, hprojection⟩
  have hprocessed := h.processed
  have hpayload : (encoded.map fun item => item.bytes json).sum ≤ engine.quotaBytes := by
    simp only [Store.validatePendingProjection, ok_iff] at hprojection
    rcases hprojection with ⟨_, ⟨_, _, hsum⟩, _⟩
    refine le_trans (single_le_sum (fun _ _ => zero_le _) _ ?_) hsum
    refine mem_map.mpr ⟨⟨mutationId, w.store.nextSequence, kind, .queued, encoded.length, _,
      encoded⟩, ?_, rfl⟩
    rw [Store.pending, mem_insertionSort, List.mem_filter]
    exact ⟨(mem_of_insert? hinsert).mpr (.inr rfl), rfl⟩
  constructor
  · simp [h.next]
  · simpa [h.next] using hnext
  · simp only [length_append, length_singleton]
    exact le_succ_of_le hprocessed
  · intro m hm
    rcases (mem_of_insert? hinsert).mp hm with hold | rfl
    · rcases h.stored m hold with hwaiting | hsettled
      · refine .inl ⟨hwaiting.state, hwaiting.after, ?_, hwaiting.payload⟩
        have hlt := (List.getElem?_eq_some_iff.mp hwaiting.accepted).choose
        exact (List.getElem?_append_left hlt).trans hwaiting.accepted
      · exact .inr { hsettled with }
    · refine .inl ⟨rfl, ?_, ?_, hpayload⟩
      · rw [h.next]
        exact Nat.lt_succ_of_le hprocessed
      · rw [h.next, Nat.add_sub_cancel, getElem?_concat_length]
  · intro sequence hafter hle
    simp only [length_append, length_singleton] at hle
    refine (mem_keys_of_insert? hinsert).mpr ?_
    rcases lt_or_ge w.accepted.length sequence with hnew | hold
    · refine .inr ?_
      change sequence = w.store.nextSequence
      rw [h.next]
      omega
    · exact .inl (h.queued sequence hafter hold)
  · intro a ha
    rcases mem_append.mp ha with hold | hnew
    · exact h.valid a hold
    · rw [mem_singleton] at hnew
      subst hnew
      exact validateBatch_eq_ok hencoded

section

variable (h : Admitted json engine w)
include h

theorem Admitted.enqueue
    (henqueue : w.store.enqueue json engine kind items mutationId = .ok (t, m)) :
    Admitted json engine ⟨t, w.accepted ++ [⟨m.kind, m.items⟩]⟩ := by
  rcases h.queue.enqueue henqueue with ⟨hqueue, hvectors, hprocessed, hprojection⟩
  have hold (count : Nat) (hcount : count ≤ w.accepted.length) :
      World.visible ⟨t, w.accepted ++ [⟨m.kind, m.items⟩]⟩ count = w.visible count := by
    simp only [World.visible]
    rw [take_append_of_le_length hcount]
  have hvisible : t.vectors =
      World.visible ⟨t, w.accepted ++ [⟨m.kind, m.items⟩]⟩ t.processedSequence := by
    rw [hprocessed, hold _ h.queue.processed, hvectors, h.vectors]
  refine ⟨hqueue, hvisible, ?_⟩
  intro count
  rcases lt_or_ge w.accepted.length count with hnew | hle
  · simp only [Store.validatePendingProjection, ok_iff] at hprojection
    rcases hprojection with ⟨_, _, _, hcountFits, hbytesFits⟩
    have hall : t.pending.foldl (projectMutation json) (projectVectors json t.vectors) =
        projectVectors json (World.visible ⟨t, w.accepted ++ [⟨m.kind, m.items⟩]⟩ count) := by
      have hfold := projectVectors_foldRows hqueue.pending
        (fun a ha => hqueue.valid a (mem_of_mem_drop ha)) t.vectors
      rw [hfold, hvisible, World.visible, World.visible]
      have hsplit := foldRows_append (Table.empty : Vectors β)
        ((w.accepted ++ [Accepted.mk m.kind m.items]).take t.processedSequence)
        ((w.accepted ++ [Accepted.mk m.kind m.items]).drop t.processedSequence) 1
      rw [take_append_drop, length_take_of_le hqueue.processed, add_comm 1] at hsplit
      have htake : (w.accepted ++ [Accepted.mk m.kind m.items]).take count = _ :=
        take_of_length_le (by rwa [length_append])
      rw [htake, hsplit]
    rw [hall] at hcountFits hbytesFits
    constructor
    · rwa [projectVectors, Table.mapRows, length_map] at hcountFits
    · rw [projectVectors, Table.mapRows, map_map] at hbytesFits
      exact hbytesFits
  · rw [hold count hle]
    exact h.fits count

/-! ## Claims -/

theorem Admitted.claim
    (hfind : w.store.mutations.find? (w.store.processedSequence + 1) = some m) (token : Text)
    (untilMs : Millis) :
    Admitted json engine ⟨{ w.store with
        mutations := w.store.mutations.replace { m with state := .claimed token untilMs } },
      w.accepted⟩ := by
  rcases find?_eq_some.mp hfind with ⟨hm, _⟩
  have hwaiting := h.queue.waiting hm (by omega)
  refine ⟨⟨h.queue.next, h.queue.bound, h.queue.processed, ?_, ?_, h.queue.valid⟩, h.vectors,
    h.fits⟩
  · intro other hother
    rcases mem_replace.mp hother with ⟨hold, _⟩ | ⟨rfl, _⟩
    · rcases h.queue.stored other hold with hother | hother
      · exact .inl { hother with }
      · exact .inr { hother with }
    · exact .inl ⟨rfl, hwaiting.after, hwaiting.accepted, hwaiting.payload⟩
  · intro sequence hafter hle
    rw [keys_replace]
    exact h.queue.queued sequence hafter hle

theorem Admitted.reindex {indexes : Table MetadataIndex.propertyName} {terms : Table Term.key} :
    Admitted json engine ⟨{ w.store with indexes, terms }, w.accepted⟩ :=
  ⟨⟨h.queue.next, h.queue.bound, h.queue.processed,
    fun m hm => (h.queue.stored m hm).imp (fun x => ⟨x.1, x.2, x.3, x.4⟩) (fun x => ⟨x.1, x.2⟩),
    h.queue.queued, h.queue.valid⟩, h.vectors, h.fits⟩

/-! ## Application -/

theorem Admitted.settle
    (hfind : w.store.mutations.find? (w.store.processedSequence + 1) = some m) {applied : Store β}
    (hvectors : applied.vectors = w.visible (w.store.processedSequence + 1))
    (hnext : applied.nextSequence = w.store.nextSequence)
    (hmutations : applied.mutations = w.store.mutations) :
    Admitted json engine { w with store := applied.settle m } := by
  rcases find?_eq_some.mp hfind with ⟨hm, hsequence⟩
  have haccepted := (h.queue.waiting hm (by omega)).accepted
  rw [hsequence] at haccepted
  have hlt := (List.getElem?_eq_some_iff.mp haccepted).choose
  have hprocessed : (applied.settle m).processedSequence = w.store.processedSequence + 1 :=
    hsequence
  have hmem (other : VectorMutation β) (hne : other.sequence ≠ m.sequence)
      (hother : other ∈ w.store.mutations) (hpending : other.state.isPending = true) :
      other ∈ (applied.settle m).mutations := by
    refine mem_filter.mpr ⟨?_, ?_⟩
    · rw [hmutations]
      exact mem_replace.mpr (.inl ⟨hother, hne⟩)
    · cases hstate : other.state with
      | applied => rw [hstate] at hpending; cases hpending
      | _ => rfl
  refine ⟨⟨hnext.trans h.queue.next, h.queue.bound, ?_, ?_, ?_, h.queue.valid⟩, ?_, h.fits⟩
  · rw [hprocessed]
    exact hlt
  · intro other hother
    have hreplaced := (mem_filter.mp hother).left
    rw [hmutations] at hreplaced
    rcases mem_replace.mp hreplaced with ⟨hold, hne⟩ | ⟨rfl, _⟩
    · change other.sequence ≠ m.sequence at hne
      rcases h.queue.stored other hold with hwaiting | hsettled
      · have hafter := hwaiting.after
        refine .inl ⟨hwaiting.state, ?_, hwaiting.accepted, hwaiting.payload⟩
        change (applied.settle m).processedSequence < _
        omega
      · have hbefore := hsettled.before
        refine .inr ⟨hsettled.state, ?_⟩
        change _ ≤ (applied.settle m).processedSequence
        omega
    · exact .inr ⟨rfl, le_refl _⟩
  · intro sequence hafter hle
    change (applied.settle m).processedSequence < _ at hafter
    rcases mem_keys.mp (h.queue.queued sequence (by omega) hle) with ⟨other, hother, rfl⟩
    have hwaiting := h.queue.waiting hother (by omega)
    exact mem_keys.mpr ⟨other, hmem other (by omega) hother hwaiting.state, rfl⟩
  · change applied.vectors = w.visible (applied.settle m).processedSequence
    rw [hprocessed, hvectors]

end

theorem admitted_initial : Admitted json engine (World.initial β) where
  queue := by
    refine ⟨rfl, ?_, le_refl _, ?_, ?_, ?_⟩
    · change ((0 + 1 : Nat) : Int) ≤ i64Max
      decide
    · exact forall_mem_empty
    · intro sequence hafter hle
      exact absurd hafter (not_lt.mpr hle)
    · exact nofun
  vectors := rfl
  fits := by
    intro count
    rw [World.visible, World.initial, take_nil]
    exact ⟨zero_le _, zero_le _⟩

variable [DecidableEq β]

/-- A call whose token or lease is not the one of the head. -/
def Stale (s : Store β) (claimToken : Text) (nowMs : Millis) : Prop :=
  forall m untilMs, s.mutations.find? (s.processedSequence + 1) = some m ->
    m.state = .claimed claimToken untilMs -> untilMs ≤ nowMs

theorem applyClaimed_of_stale (hstale : Stale s claimToken nowMs) :
    (s.applyClaimed json engine claimToken nowMs).1 = s := by
  unfold Store.applyClaimed
  cases hfind : s.mutations.find? (s.processedSequence + 1) with
  | none => rfl
  | some m =>
    have herror : exists error, s.applyMutation json engine m nowMs claimToken = .error error := by
      unfold Store.applyMutation
      cases hstate : m.state with
      | claimed token untilMs =>
        have hcurrent : ¬ (token = claimToken ∧ nowMs < untilMs) := by
          rintro ⟨rfl, hlt⟩
          exact absurd (hstale m untilMs hfind hstate) (Int.not_le.mpr hlt)
        refine ⟨frontierBlocked, ?_⟩
        simp only [ensure, if_neg hcurrent]
        rfl
      | _ => exact ⟨frontierBlocked, rfl⟩
    rcases herror with ⟨_, herror⟩
    simp only [herror]

theorem Admitted.applyClaimed (h : Admitted json engine w)
    (hfind : w.store.mutations.find? (w.store.processedSequence + 1) = some m)
    (hstate : m.state = .claimed claimToken untilMs) (hlease : nowMs < untilMs) :
    exists terms, let applied : Store β := { w.store with
        vectors := w.visible (w.store.processedSequence + 1), terms }
      w.store.applyClaimed json engine claimToken nowMs =
        (applied.settle m, .ok (some { m with state := .applied })) := by
  rcases find?_eq_some.mp hfind with ⟨hm, hsequence⟩
  have hwaiting := h.queue.waiting hm (by omega)
  have haccepted := hwaiting.accepted
  rw [hsequence, Nat.add_sub_cancel] at haccepted
  have hvalid := h.queue.valid _ (List.mem_of_getElem? haccepted)
  have hlt := (List.getElem?_eq_some_iff.mp haccepted).choose
  have hvisible : m.items.foldl (writeRow m.kind m.sequence) w.store.vectors =
      w.visible (w.store.processedSequence + 1) := by
    rw [World.visible, take_add_one, haccepted, Option.toList_some, foldRows_append,
      length_take_of_le h.queue.processed, h.vectors, hsequence, add_comm 1]
    rfl
  have hquota := exceededQuota_eq_none hvalid
    (by rw [h.vectors]; exact (h.fits _).bytes) hwaiting.payload
    (by rw [hvisible]; exact h.fits _)
  have hbound := h.queue.bound
  rcases applyItems_total hvalid.items
    (by rw [hsequence]; constructor <;> omega) w.store with ⟨terms, hitems⟩
  rw [hvisible] at hitems
  refine ⟨terms, ?_⟩
  have happly : w.store.applyMutation json engine m nowMs claimToken =
      .ok (Store.settle { w.store with
          vectors := w.visible (w.store.processedSequence + 1), terms } m,
        .ok (some { m with state := .applied })) := by
    simp only [Store.applyMutation, hstate, hvalid.persisted, ok_iff]
    exact ⟨⟨trivial, hlease⟩, none, hquota, bind_eq_ok.mpr ⟨_, hitems, rfl⟩⟩
  unfold Store.applyClaimed
  simp only [hfind, happly]

/-! ## Runs -/

theorem Admitted.next (h : Admitted json engine w) {a : Action} {v : World β}
    (hnext : w.next json engine a = some v) : Admitted json engine v := by
  cases a with
  | enqueue kind items mutationId =>
    simp only [World.next] at hnext
    split at hnext
    next t m henqueue =>
      cases hnext
      exact h.enqueue henqueue
    next =>
      cases hnext
      exact h
  | claimNext claimToken nowMs leaseMs =>
    simp only [World.next] at hnext
    split at hnext
    next t claimed hclaim =>
      cases hnext
      simp only [Store.claimNext, ok_iff] at hclaim
      rcases hclaim with ⟨_, hclaim⟩
      cases hfind : w.store.mutations.find? (w.store.processedSequence + 1) with
      | none =>
        rw [hfind] at hclaim
        cases hclaim
        exact h
      | some m =>
        simp only [hfind] at hclaim
        cases hstate : m.state with
        | failed | applied => simp [hstate] at hclaim
        | queued =>
          simp only [hstate, ok_iff, Prod.mk.injEq] at hclaim
          rcases hclaim with ⟨untilMs, _, rfl, _⟩
          exact h.claim hfind claimToken untilMs
        | claimed token lease =>
          simp only [hstate] at hclaim
          split at hclaim
          · cases hclaim
            exact h
          · simp only [ok_iff, Prod.mk.injEq] at hclaim
            rcases hclaim with ⟨untilMs, _, rfl, _⟩
            exact h.claim hfind claimToken untilMs
    next =>
      cases hnext
      exact h
  | applyClaimed claimToken nowMs =>
    simp only [World.next, Option.some.injEq] at hnext
    subst hnext
    by_cases hstale : Stale w.store claimToken nowMs
    · rw [applyClaimed_of_stale hstale]
      exact h
    · simp only [Stale, not_forall, Int.not_le] at hstale
      rcases hstale with ⟨_, _, hfind, hstate, hlease⟩
      rcases h.applyClaimed hfind hstate hlease with ⟨_, happly⟩
      rw [happly]
      exact h.settle hfind rfl rfl rfl
  | createMetadataIndex index =>
    simp only [World.next] at hnext
    split at hnext
    next t hcreate =>
      cases hnext
      simp only [Store.createMetadataIndex, ok_iff] at hcreate
      rcases hcreate with ⟨_, _, _, _, _, _, rfl⟩
      exact h.reindex
    next =>
      cases hnext
      exact h
  | deleteMetadataIndex propertyName =>
    simp only [World.next] at hnext
    split at hnext
    next t hdelete =>
      cases hnext
      simp only [Store.deleteMetadataIndex, ok_iff] at hdelete
      rcases hdelete with ⟨_, _, rfl⟩
      exact h.reindex
    next =>
      cases hnext
      exact h

/-- What an accepted mutation can rely on. -/
structure Binding (json : Json β) (engine : VectorizeEngine) (w : World β) : Prop where
  visible : w.store.vectors.find? =
    Visible.fold (fun _ => none) (w.accepted.take w.store.processedSequence) 1
  unfailed : forall m code, m ∈ w.store.mutations -> m.state ≠ .failed code
  processed : w.store.processedSequence ≤ w.accepted.length
  queued : forall n a, w.store.processedSequence ≤ n -> w.accepted[n]? = some a ->
    exists m, w.store.mutations.find? (n + 1) = some m ∧ m.state.isPending = true ∧
      m.kind = a.kind ∧ m.items = a.items
  claimed : forall claimToken nowMs leaseMs untilMs m,
    claimToken.chars ≠ [] ∧ claimToken.len ≤ 128 ∧ 0 < leaseMs ->
    w.store.mutations.find? (w.store.processedSequence + 1) = some m ->
    (m.state = .queued ∨ exists token lease, m.state = .claimed token lease ∧ lease ≤ nowMs) ->
    checkedAdd nowMs leaseMs = some untilMs ->
    exists t, w.store.claimNext claimToken nowMs leaseMs =
        .ok (t, some { m with state := .claimed claimToken untilMs }) ∧
      t.mutations.find? (w.store.processedSequence + 1) =
        some { m with state := .claimed claimToken untilMs }
  applied : forall claimToken nowMs untilMs m,
    w.store.mutations.find? (w.store.processedSequence + 1) = some m ->
    m.state = .claimed claimToken untilMs -> nowMs < untilMs ->
    exists t, w.store.applyClaimed json engine claimToken nowMs =
        (t, .ok (some { m with state := .applied })) ∧
      t.processedSequence = w.store.processedSequence + 1
  stale : forall claimToken nowMs, Stale w.store claimToken nowMs ->
    (w.store.applyClaimed json engine claimToken nowMs).1 = w.store

theorem admission_binding {actions : List Action}
    (hrun : Run (World.next json engine) always (World.initial β) actions w) :
    Binding json engine w := by
  have h : Admitted json engine w :=
    hrun.invariant (fun _ _ _ hu _ hnext => hu.next hnext) admitted_initial
  refine ⟨?_, ?_, h.queue.processed, ?_, ?_, ?_, fun _ _ => applyClaimed_of_stale⟩
  · rw [h.vectors, World.visible, find?_foldRows]
    congr 1
  · intro m code hm hfailed
    rcases h.queue.stored m hm with hwaiting | hsettled
    · have hpending := hwaiting.state
      rw [hfailed] at hpending
      cases hpending
    · cases hsettled.state.symm.trans hfailed
  · intro n a hle hget
    have hlt := (List.getElem?_eq_some_iff.mp hget).choose
    have hkey := h.queue.queued (n + 1) (Nat.lt_succ_of_le hle) hlt
    rcases exists_find?_iff_keys.mpr hkey with ⟨m, hfind⟩
    rcases find?_eq_some.mp hfind with ⟨hm, hsequence⟩
    have hwaiting := h.queue.waiting hm (by omega)
    have haccepted := hwaiting.accepted
    rw [hsequence, Nat.add_sub_cancel, hget] at haccepted
    cases haccepted
    exact ⟨m, hfind, hwaiting.state, rfl, rfl⟩
  · intro claimToken nowMs leaseMs untilMs m htoken hfind hfree huntil
    rcases find?_eq_some.mp hfind with ⟨hm, hsequence⟩
    refine ⟨{ w.store with mutations :=
      w.store.mutations.replace { m with state := .claimed claimToken untilMs } }, ?_, ?_⟩
    · simp only [Store.claimNext, ok_iff]
      refine ⟨htoken, ?_⟩
      rcases hfree with hstate | ⟨token, lease, hstate, hle⟩
      · simp only [hfind, hstate, huntil]
        rfl
      · simp only [hfind, hstate, huntil]
        rw [if_neg (Int.not_lt.mpr hle)]
        rfl
    rw [← hsequence]
    exact (find?_replace (x := { m with state := .claimed claimToken untilMs }) hm rfl _).trans
      (if_pos rfl)
  · intro claimToken nowMs untilMs m hfind hstate hlease
    rcases h.applyClaimed hfind hstate hlease with ⟨terms, happly⟩
    exact ⟨_, happly, (find?_eq_some.mp hfind).right⟩

namespace Sample

/-- A text in quotes, with a backslash before each quote, backslash and control. -/
def quotedSize (t : Text) : Nat :=
  2 + t.bytes.length + t.chars.countP fun c => c.val = 34 || c.val = 92 || decide (c.val < 32)

mutual

/-- The length of the compact JSON text.  No number takes more than 24 characters. -/
def printedSize : Value -> Nat
  | .null => 4
  | .bool value => if value then 4 else 5
  | .number _ => 24
  | .string value => quotedSize value
  | .array values => 2 + valuesSize values
  | .object fields => 2 + fieldsSize fields

def valuesSize : List Value -> Nat
  | [] => 0
  | value :: rest => printedSize value + (if rest.isEmpty then 0 else 1) + valuesSize rest

def fieldsSize : List (Text × Value) -> Nat
  | [] => 0
  | (name, value) :: rest =>
    quotedSize name + 1 + printedSize value + (if rest.isEmpty then 0 else 1) + fieldsSize rest

end

def serde : Json Value := ⟨id, some, printedSize, fun _ => rfl⟩

def single : VectorizeEngine := ⟨1, 1, 1048576, by decide, by decide, by decide⟩

def text (s : String) : Text := ⟨s.toList⟩

def item (id : String) : VectorMutationInput :=
  ⟨text id, none, some [1#32], some (.object [(text "key", .string (text id))])⟩

def swapped : List Action :=
  [.enqueue .insert [item "a"] 1, .enqueue .delete [⟨text "a", none, none, none⟩] 2,
    .enqueue .upsert [item "b"] 3, .claimNext (text "t") 0 10, .applyClaimed (text "t") 5,
    .claimNext (text "u") 20 10, .applyClaimed (text "t") 25, .claimNext (text "v") 40 10]

end Sample

open Sample in
theorem admission_binding_swapped : exists w,
    Run (World.next serde single) always (World.initial Value) swapped w ∧
      (w.accepted.length = 3 ∧ w.store.processedSequence = 1) ∧ Binding serde single w :=
  exists_run_with (fun _ hrun => admission_binding hrun) (by decide +kernel)

end Vectorize
end OpenCompute
