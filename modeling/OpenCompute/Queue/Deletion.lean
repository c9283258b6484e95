import OpenCompute.Queue.Commits
import OpenCompute.Queue.InFlight

/-!
# Bounded deletion

Expired messages and the messages of a deleted Queue go page by page, each page
in one transaction.  The row of a Queue goes by two statements outside a
transaction: the first takes the finalized receipts, and the second may fail.
-/

namespace OpenCompute
namespace Queue

open Relational Table Transaction Transition Option

variable {env : Environment} {s t : Store} {queueId : QueueId}

/-! ## The row of a Queue -/

def QueueStateRow.Deletable (s : Store) (lifecycleGeneration : Nat) (q : QueueStateRow) : Prop :=
  (q.lifecycleGeneration = lifecycleGeneration ∧ q.state = .deleting ∧
    q.messageCount = 0 ∧ q.messageBytes = 0) ∧
  (s.deleteQueueOperations q.queueId).referenced q.queueId = false

theorem deleteQueueProjection_error {lifecycle : Nat} :
    (exists e, deleteQueueProjection s queueId lifecycle = (t, .error e)) ↔
      s.deleteQueueOperations queueId = t ∧
        exists q, s.queues.find? queueId = some q ∧ ¬ q.Deletable s lifecycle := by
  have hfound : (s.deleteQueueOperations queueId).queues.find? queueId =
      s.queues.find? queueId := rfl
  unfold deleteQueueProjection
  dsimp only
  rw [hfound]
  cases hfind : s.queues.find? queueId with
  | none => simp
  | some q =>
    have hid : q.queueId = queueId := key_of_find? hfind
    by_cases hfenced : q.lifecycleGeneration = lifecycle ∧ q.state = .deleting ∧
        q.messageCount = 0 ∧ q.messageBytes = 0
    · have hcommits : (exists u, mapErr Scheduler.mapSqlError
          ((s.deleteQueueOperations queueId).deleteQueue q) = .ok u) ↔ q.Deletable s lifecycle := by
        simp [QueueStateRow.Deletable, Store.deleteQueue, mapErr_eq_ok, hfenced, hid]
      simp only [if_pos hfenced, some.injEq, exists_eq_left', ← hcommits]
      cases mapErr Scheduler.mapSqlError ((s.deleteQueueOperations queueId).deleteQueue q) with
      | ok u | error e => simp
    · have hnot : ¬ q.Deletable s lifecycle := fun hdeletable => hfenced hdeletable.left
      simp [if_neg hfenced, hnot]

theorem deleteQueueOperations_eq_self : s.deleteQueueOperations queueId = s ↔
    forall o, o ∈ s.operations -> o.queueId = queueId -> o.finalizedAtMs = none := by
  constructor
  · intro hsame o ho hqueue
    rw [← hsame] at ho
    have hkept := (mem_filter.mp ho).right
    simpa [hqueue] using hkept
  · intro hnone
    have hrows : s.operations.filter (fun o => !(o.queueId = queueId && o.finalizedAtMs.isSome)) =
        s.operations := by
      refine Table.ext (List.filter_eq_self.mpr fun o ho => ?_)
      by_cases hqueue : o.queueId = queueId
      · simp [hnone o ho hqueue]
      · simp [hqueue]
    unfold Store.deleteQueueOperations
    rw [hrows]

/-- A failed deletion changes nothing, receipts included. -/
theorem failed_deletion_atomic_iff (s : Store) (queueId : QueueId) (lifecycleGeneration : Nat) :
    (forall t e, deleteQueueProjection s queueId lifecycleGeneration = (t, .error e) ->
      t = s ∧ forall request fingerprint,
        t.replayEnqueue request fingerprint = s.replayEnqueue request fingerprint) ↔
    (forall o, o ∈ s.operations -> o.queueId = queueId -> o.finalizedAtMs = none) ∨
      forall q, s.queues.find? queueId = some q -> q.Deletable s lifecycleGeneration := by
  rw [← deleteQueueOperations_eq_self]
  constructor
  · intro hatomic
    by_contra hnot
    simp only [not_or, not_forall] at hnot
    rcases hnot with ⟨hchanged, q, hq, hdeletable⟩
    rcases deleteQueueProjection_error.mpr ⟨rfl, q, hq, hdeletable⟩ with ⟨e, herror⟩
    exact hchanged (hatomic _ e herror).left
  · rintro hcondition t e herror
    rcases deleteQueueProjection_error.mp ⟨e, herror⟩ with ⟨rfl, q, hq, hnot⟩
    rcases hcondition with hsame | hdeletable
    · rw [hsame]
      exact ⟨rfl, fun _ _ => rfl⟩
    · exact absurd (hdeletable q hq) hnot

open Sample in
theorem failed_deletion_forgets : exists w, Reachable environment w ∧
    (deleteQueueProjection w.store 1 1).2 = .error queueInvariant ∧
    w.store.replayEnqueue (request 1 1 [1, 2]) 0 = .ok (some ⟨[10], ⟨1, 2, some 0⟩⟩) ∧
    (deleteQueueProjection w.store 1 1).1.replayEnqueue (request 1 1 [1, 2]) 0 = .ok none :=
  exists_reachable [createQueue 1 10 10, .enqueue (request 1 1 [1, 2]) [10] 0, .fenceDelete 1 1]
    (by decide +kernel)

/-! ## Pages -/

section Pages

variable {α κ : Type} {key : α -> κ} {may : α -> Prop} {limit : Nat} {old new : Table key}

/-- A page takes some of the rows that may go, and at least one when there is one. -/
def Page (may : α -> Prop) (limit : Nat) (old new : Table key) : Prop :=
  exists deleted : List α, old.rows.Perm (deleted ++ new.rows) ∧ (forall x, x ∈ deleted -> may x) ∧
    deleted.length ≤ limit ∧ forall x, x ∈ old -> may x -> deleted ≠ []

theorem Page.filter {keep : α -> Bool} (hmay : forall x, x ∈ old -> keep x = false -> may x)
    (hlimit : (old.rows.filter fun x => !keep x).length ≤ limit)
    (hsome : forall x, x ∈ old -> may x -> exists y, y ∈ old ∧ keep y = false) :
    Page may limit old (old.filter keep) := by
  refine ⟨old.rows.filter fun x => !keep x, ?_, ?_, hlimit, ?_⟩
  · exact (List.perm_append_comm.trans (List.filter_append_perm keep old.rows)).symm
  · intro x hx
    have hmem := List.mem_filter.mp hx
    exact hmay x hmem.left (by simpa using hmem.right)
  · intro x hx hgoes
    rcases hsome x hx hgoes with ⟨_, hy, hkeep⟩
    exact List.ne_nil_of_mem (List.mem_filter.mpr ⟨hy, by rw [hkeep]; rfl⟩)

theorem Page.length (hpage : Page may limit old new) : new.rows.length ≤ old.rows.length ∧
    forall x, x ∈ old -> may x -> new.rows.length < old.rows.length := by
  rcases hpage with ⟨_, hperm, _, _, hsome⟩
  have hlength := hperm.length_eq
  rw [List.length_append] at hlength
  refine ⟨by omega, fun x hx hgoes => ?_⟩
  have hpositive := List.length_pos_iff.mpr (hsome x hx hgoes)
  omega

end Pages

def selects (queueId : Option QueueId) (expiresBefore : Option Millis) (m : MessageRow) : Bool :=
  m.claim = none && queueId.all (fun id => m.queueId = id) &&
    expiresBefore.all (fun bound => m.expiresAtMs ≤ bound)

theorem deleteCandidates_total {candidates : List MessageRow} {stillMatches : MessageRow -> Bool}
    (hs : s.Ok env) (hsub : candidates.Subperm s.messages.rows)
    (hready : forall m, m ∈ candidates -> m.claim = none ∧ stillMatches m = true) :
    exists t, candidates.foldlM (deleteCandidate stillMatches) s = .ok t ∧ t.Ok env ∧
      t.operations = s.operations ∧ s.messages.rows.Perm (candidates ++ t.messages.rows) ∧
      forall id, (t.queues.find? id).map QueueStateRow.state =
        (s.queues.find? id).map QueueStateRow.state := by
  induction candidates generalizing s with
  | nil => exact ⟨s, rfl, hs, rfl, List.Perm.refl _, fun _ => rfl⟩
  | cons m rest ih =>
    rcases hready m List.mem_cons_self with ⟨hclaim, hmatches⟩
    have hm : m ∈ s.messages := hsub.subset List.mem_cons_self
    have hcleared := hs.deletePending m.id
    rcases hcleared.deleteMessage_commits hm with ⟨u, hu⟩
    have hstep : deleteCandidate stillMatches s m = .ok u := by
      have hfind : (s.deletePending m.id).messages.find? m.id = some m := find?_key hm
      simp only [deleteCandidate, hfind, hclaim, hmatches, hu]
      rfl
    have hok := hcleared.deleteMessage hm hu
    rcases Store.deleteMessage_eq_ok.mp hu with ⟨_, q, hq, _, rfl⟩
    have hperm := perm_cons_erase hm
    rcases ih hok ((List.subperm_cons m).mp (hsub.trans hperm.subperm))
      (fun n hn => hready n (List.mem_cons_of_mem m hn)) with ⟨t, ht, htok, hops, hrest, hstate⟩
    refine ⟨t, foldlM_cons_eq_ok.mpr ⟨_, hstep, ht⟩, htok, hops, hperm.trans (hrest.cons m), ?_⟩
    intro id
    have hmem : q ∈ s.queues := mem_of_find? hq
    rw [hstate]
    show Option.map _ ((s.queues.replace _).find? id) = _
    rw [find?_replace hmem]
    · split
      · rename_i hid
        rw [hid, find?_key hmem]
        rfl
      · rfl
    · rfl

theorem deleteExpiredOperations_page (s : Store) (nowMs : Millis) {maxRows : Nat}
    (hrows : maxRows ≠ 0) :
    Page (fun o : EnqueueOperationRow => o.expiresAtMs.any (fun expiry => expiry ≤ nowMs) = true)
      maxRows s.operations (s.deleteExpiredOperations nowMs maxRows).operations := by
  let ordered := (s.operations.rows.filter fun o =>
      o.expiresAtMs.any (fun expiry => expiry ≤ nowMs)).insertionSort fun o p =>
    KeyLe (o.expiresAtMs.getD 0, o.requestId) (p.expiresAtMs.getD 0, p.requestId)
  have hmem : forall o, o ∈ ordered ↔
      o ∈ s.operations ∧ o.expiresAtMs.any (fun expiry => expiry ≤ nowMs) = true := by
    intro o
    rw [List.mem_insertionSort, List.mem_filter, mem_rows]
  have hchosen : forall o, o ∈ s.operations ->
      (!(ordered.take maxRows).any (fun c => c.requestId = o.requestId)) = false ->
      o ∈ ordered.take maxRows := by
    intro o ho hany
    rw [Bool.not_eq_false', List.any_eq_true] at hany
    rcases hany with ⟨c, hc, hsame⟩
    rw [← eq_of_key_eq ((hmem c).mp (List.mem_of_mem_take hc)).left ho (of_decide_eq_true hsame)]
    exact hc
  refine Page.filter ?_ ?_ ?_
  · intro o ho hany
    exact ((hmem o).mp (List.mem_of_mem_take (hchosen o ho hany))).right
  · refine (List.Nodup.length_le_of_subset (s.operations.nodup_rows.filter _) ?_).trans
      (List.length_take_le maxRows ordered)
    intro o ho
    have hkept := List.mem_filter.mp ho
    exact hchosen o hkept.left (by simpa using hkept.right)
  · intro o ho hexpired
    rcases List.exists_cons_of_ne_nil (List.ne_nil_of_mem ((hmem o).mpr ⟨ho, hexpired⟩)) with
      ⟨first, _, hcons⟩
    have hfirst : first ∈ ordered := hcons ▸ List.mem_cons_self
    rcases Nat.exists_eq_succ_of_ne_zero hrows with ⟨count, rfl⟩
    refine ⟨first, ((hmem first).mp hfirst).left, ?_⟩
    show (!(ordered.take (count + 1)).any _) = false
    rw [hcons, List.take_succ_cons]
    simp

/-! ## Calls -/

/-- What may go and what a call is responsible for. -/
structure Scope where
  message : MessageRow -> Prop
  receipt : EnqueueOperationRow -> Prop
  leftMessage : MessageRow -> Prop
  leftReceipt : EnqueueOperationRow -> Prop

def Deletes (scope : Scope) (maxRows maxReceipts : Nat) (s : Store) (batch : QueueDeleteBatch)
    (t : Store) : Prop :=
  Page scope.message maxRows s.messages t.messages ∧
    Page scope.receipt maxReceipts s.operations t.operations ∧
    (batch.expiredRemaining = true ↔ (exists m, m ∈ t.messages ∧ scope.leftMessage m) ∨
      exists o, o ∈ t.operations ∧ scope.leftReceipt o)

/-- Calls one after the other leave nothing that may go. -/
def Scope.EmptiedBy (scope : Scope)
    (call : Store -> Result (QueueDeleteBatch × Store)) (s : Store) : Prop :=
  exists t, Relation.ReflTransGen (fun s t => exists batch, call s = .ok (batch, t)) s t ∧
    (forall m, m ∈ t.messages -> ¬ scope.message m) ∧
    forall o, o ∈ t.operations -> ¬ scope.receipt o

theorem bounded_calls {call : Store -> Result (QueueDeleteBatch × Store)}
    {scope : Scope} {maxRows : Nat} {maxReceipts : Store -> Nat} {P : Store -> Prop}
    (hcall : forall s, P s -> exists batch t, call s = .ok (batch, t) ∧
      Deletes scope maxRows (maxReceipts s) s batch t ∧ P t) (hs : P s) :
    (exists batch t, call s = .ok (batch, t) ∧
      Deletes scope maxRows (maxReceipts s) s batch t) ∧ scope.EmptiedBy call s := by
  induction hsize : s.messages.rows.length + s.operations.rows.length using Nat.strong_induction_on
    generalizing s with
  | _ size ih =>
    rcases hcall s hs with ⟨batch, u, hu, hdeletes, hP⟩
    refine ⟨⟨batch, u, hu, hdeletes⟩, ?_⟩
    by_cases hdone : (forall m, m ∈ s.messages -> ¬ scope.message m) ∧
        forall o, o ∈ s.operations -> ¬ scope.receipt o
    · exact ⟨s, .refl, hdone⟩
    · have hless : u.messages.rows.length + u.operations.rows.length < size := by
        rcases hdeletes.left.length with ⟨_, hmless⟩
        rcases hdeletes.right.left.length with ⟨_, holess⟩
        rw [not_and_or] at hdone
        simp only [not_forall, not_not] at hdone
        rcases hdone with ⟨m, hmem, hgoes⟩ | ⟨o, hmem, hgoes⟩
        · have := hmless m hmem hgoes
          omega
        · have := holess o hmem hgoes
          omega
      rcases (ih _ hless hP rfl).right with ⟨t, ht, hempty⟩
      exact ⟨t, ht.head ⟨batch, hu⟩, hempty⟩

def swept (nowMs : Millis) : Scope where
  message m := m.claim = none ∧ m.expiresAtMs ≤ nowMs
  receipt o := o.expiresAtMs.any (fun expiry => expiry ≤ nowMs) = true
  leftMessage m := m.claim = none ∧ m.expiresAtMs ≤ nowMs
  leftReceipt o := o.expiresAtMs.any (fun expiry => expiry ≤ nowMs) = true

def purged (queueId : QueueId) : Scope where
  message m := m.claim = none ∧ m.queueId = queueId
  receipt o := o.queueId = queueId ∧ o.finalizedAtMs.isSome = true
  leftMessage m := m.queueId = queueId
  leftReceipt o := o.queueId = queueId

variable {maxRows maxBytes : Nat}

theorem deletePage_total {expiresBefore : Option Millis} {only : Option QueueId}
    {stillMatches : MessageRow -> Bool} {may : MessageRow -> Prop} (hs : s.Ok env)
    (hrows : maxRows ≠ 0) (hmay : forall m, selects only expiresBefore m = true ↔ may m)
    (hmatches : forall m, may m -> m.claim = none ∧ stillMatches m = true) :
    exists u, (s.selectDeleteCandidates only expiresBefore maxRows maxBytes).foldlM
        (deleteCandidate stillMatches) s = .ok u ∧ u.Ok env ∧ u.operations = s.operations ∧
      Page may maxRows s.messages u.messages ∧
      forall id, (u.queues.find? id).map QueueStateRow.state =
        (s.queues.find? id).map QueueStateRow.state := by
  let ready := s.messages.rows.filter (selects only expiresBefore)
  let ordered := ready.insertionSort fun m n =>
    KeyLe (m.expiresAtMs, m.queueId) (n.expiresAtMs, n.queueId)
  have hperm : ordered.Perm ready := List.perm_insertionSort _ _
  rcases takeBytes_sublist maxBytes (ordered.take maxRows) [] 0 with ⟨taken, hsub, htaken⟩
  have hcandidates : s.selectDeleteCandidates only expiresBefore maxRows maxBytes = taken := htaken
  rw [hcandidates]
  have hready : taken.Subperm ready :=
    (hsub.trans (List.take_sublist _ _)).subperm.trans hperm.subperm
  have hgoes : forall m, m ∈ taken -> may m := fun m hm =>
    (hmay m).mp (List.mem_filter.mp (hready.subset hm)).right
  rcases deleteCandidates_total hs (hready.trans List.filter_sublist.subperm)
    (fun m hm => hmatches m (hgoes m hm)) with ⟨u, hu, hok, hoperations, hdeleted, hstate⟩
  refine ⟨u, hu, hok, hoperations, ⟨taken, hdeleted, hgoes,
    hsub.length_le.trans (List.length_take_le _ _), ?_⟩, hstate⟩
  intro m hm hmgoes
  have hmem : m ∈ ordered := hperm.mem_iff.mpr (List.mem_filter.mpr ⟨hm, (hmay m).mpr hmgoes⟩)
  rcases List.exists_cons_of_ne_nil (List.ne_nil_of_mem hmem) with ⟨first, rest, hcons⟩
  rcases Nat.exists_eq_succ_of_ne_zero hrows with ⟨count, rfl⟩
  rcases takeBytes_sublist maxBytes (rest.take count) [first] first.bodyBytes with ⟨_, _, hmore⟩
  rw [List.nil_append] at htaken
  rw [← htaken, hcons]
  simp [takeBytes, hmore]

theorem sweepQueueRetention_total (hs : s.Ok env) (hrows : maxRows ≠ 0) (hbytes : maxBytes ≠ 0)
    (nowMs : Millis) :
    exists batch t, sweepQueueRetention s nowMs maxRows maxBytes = .ok (batch, t) ∧
      Deletes (swept nowMs) maxRows maxRows s batch t ∧ t.Ok env := by
  rcases @deletePage_total env s maxRows maxBytes (some nowMs) none
    (fun row => row.expiresAtMs ≤ nowMs) (swept nowMs).message hs hrows (by simp [selects, swept])
    (by simp [swept]) with ⟨u, hu, hok, hoperations, hpage, _⟩
  have hreceipts := deleteExpiredOperations_page u nowMs hrows
  simp only [sweepQueueRetention, ok_iff]
  refine ⟨_, _, ⟨⟨hrows, hbytes⟩, u, hu, rfl⟩, ⟨hpage, hoperations ▸ hreceipts, ?_⟩, ?_⟩
  · simp [swept, mem_rows]
  · exact hok.setOperations fun o ho => hok.operation_queue o (mem_filter.mp ho).left

theorem purgeQueue_total (hs : s.Ok env) (hrows : maxRows ≠ 0) (hbytes : maxBytes ≠ 0)
    (hdeleting : (s.queues.find? queueId).map QueueStateRow.state = some .deleting) :
    exists batch t, purgeQueue s queueId maxRows maxBytes = .ok (batch, t) ∧
      Deletes (purged queueId) maxRows s.operations.rows.length s batch t ∧
      t.Ok env ∧ (t.queues.find? queueId).map QueueStateRow.state = some .deleting := by
  rcases @deletePage_total env s maxRows maxBytes none (some queueId)
    (fun row => row.queueId = queueId) (purged queueId).message hs hrows (by simp [selects, purged])
    (by simp [purged]) with ⟨u, hu, hok, hoperations, hpage, hstate⟩
  have hfenced : (s.queues.find? queueId).any (fun q => q.state = .deleting) = true := by
    rcases map_eq_some_iff.mp hdeleting with ⟨_, hq, hstate⟩
    simp [hq, hstate]
  simp only [purgeQueue, ok_iff]
  refine ⟨_, _, ⟨⟨hrows, hbytes⟩, hfenced, u, hu, rfl⟩, ⟨hpage, ?_, ?_⟩, ?_,
    (hstate queueId).trans hdeleting⟩
  · rw [← hoperations]
    refine Page.filter ?_ (List.length_filter_le _ _) ?_
    · intro o _ hkeep
      simpa [purged] using hkeep
    · intro o ho hgoes
      exact ⟨o, ho, by simpa [purged] using hgoes⟩
  · simp [purged, mem_rows]
  · exact hok.setOperations fun o ho => hok.operation_queue o (mem_filter.mp ho).left

/-- In every state, every call with positive limits makes progress and repeated calls finish. -/
theorem bounded_deletion (hs : s.Ok env) (hrows : maxRows ≠ 0) (hbytes : maxBytes ≠ 0) :
    (forall nowMs, (exists batch t, sweepQueueRetention s nowMs maxRows maxBytes = .ok (batch, t) ∧
        Deletes (swept nowMs) maxRows maxRows s batch t) ∧
      (swept nowMs).EmptiedBy (fun s => sweepQueueRetention s nowMs maxRows maxBytes) s) ∧
    forall queueId, (s.queues.find? queueId).map QueueStateRow.state = some .deleting ->
      (exists batch t, purgeQueue s queueId maxRows maxBytes = .ok (batch, t) ∧
        Deletes (purged queueId) maxRows s.operations.rows.length s batch t) ∧
      (purged queueId).EmptiedBy (fun s => purgeQueue s queueId maxRows maxBytes) s := by
  constructor
  · intro nowMs
    exact bounded_calls (P := Store.Ok env)
      (fun s hs => sweepQueueRetention_total hs hrows hbytes nowMs) hs
  · intro queueId hdeleting
    exact bounded_calls (P := fun s => s.Ok env ∧
        (s.queues.find? queueId).map QueueStateRow.state = some .deleting)
      (fun s hs => purgeQueue_total hs.left hrows hbytes hs.right) ⟨hs, hdeleting⟩

open Sample in
theorem bounded_deletion_expired : exists w, Reachable environment w ∧
    (exists m, m ∈ w.store.messages ∧ (swept 60000).message m) ∧
    exists batch t, sweepQueueRetention w.store 60000 1 1 = .ok (batch, t) ∧
      Deletes (swept 60000) 1 1 w.store batch t := by
  have hexec : exists w, Reachable environment w ∧
      exists m, m ∈ w.store.messages.rows ∧ m.claim = none ∧ m.expiresAtMs ≤ 60000 :=
    exists_reachable [createQueue 1 10 10, .enqueue (request 1 1 [1, 2]) [10] 0] (by decide +kernel)
  rcases hexec with ⟨w, hreachable, hmessage⟩
  rcases hreachable with ⟨actions, hrun⟩
  have hs := (run_worldOk hrun (World.initial_ok environment)).store
  exact ⟨w, ⟨actions, hrun⟩, hmessage,
    ((bounded_deletion hs (by decide) (by decide)).left 60000).left⟩

end Queue
end OpenCompute
