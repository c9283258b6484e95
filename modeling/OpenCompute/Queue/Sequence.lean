import OpenCompute.Queue.Invariants
import OpenCompute.Queue.Outcomes
import OpenCompute.Relational.Loop

/-!
# Operations as sequences of writes

Every operation of the store is a sequence of the writes listed in `Write`, to
the parts of the store that `Action.parts` gives.  Whatever each of these writes
preserves therefore holds in every world that can be reached.
-/

namespace OpenCompute
namespace Queue

open Relational Table Transaction Transition Relation Option

variable {claim : Claim} {rows : List MessageRow}

/-- Two rows record the same acceptance, whatever their lifetime. -/
def SameReceipt (o r : EnqueueOperationRow) : Prop :=
  o.requestId = r.requestId ∧ o.queueId = r.queueId ∧
    o.queueGeneration = r.queueGeneration ∧ o.fingerprint = r.fingerprint ∧
    o.response = r.response ∧ o.outputGate = r.outputGate

theorem SameReceipt.refl (o : EnqueueOperationRow) : SameReceipt o o :=
  ⟨rfl, rfl, rfl, rfl, rfl, rfl⟩

theorem SameReceipt.trans {o r q : EnqueueOperationRow} (hor : SameReceipt o r)
    (hrq : SameReceipt r q) : SameReceipt o q := by
  unfold SameReceipt at *
  simp only [hor, hrq, and_self]

inductive Part where
  | messages
  | discards
  | batches
  | queues
  | consumers
  | consumerState
  | operations
  | receipts

/--
One write of an operation, with what the operation checked before it.  A
message leaves the store only after its row of the dead-letter lane did, except
by the discards of restart recovery.
-/
inductive Write (env : Environment) (s : Store) : Part -> Store -> Prop where
  | insertMessage {t : Store} {m : MessageRow} :
      s.insertMessage m = .ok t -> Write env s .messages t
  | deleteMessage {t : Store} {m : MessageRow} :
      m ∈ s.messages -> ¬ m.id ∈ s.pending.keys ->
      s.deleteMessage m = .ok t -> Write env s .messages t
  | discardMessage {t : Store} {m : MessageRow} :
      m ∈ s.messages -> s.deleteMessage m = .ok t -> Write env s .discards t
  | claimMessage {t : Store} {m : MessageRow} {c : Claim} :
      m ∈ s.messages -> ¬ m.id ∈ s.pending.keys ->
      s.claimMessage m c = .ok t -> Write env s .messages t
  | releaseMessage {t : Store} {m : MessageRow} {attempts : Nat} {availableAtMs : Millis} :
      m ∈ s.messages -> s.releaseMessage m attempts availableAtMs = .ok t ->
      Write env s .messages t
  | insertBatch {t : Store} {b : DeliveryBatchRow} :
      s.insertBatch b = .ok t -> Write env s .batches t
  | deleteBatch {t : Store} {id : QueueBatchId} :
      s.deleteBatch id = .ok t -> Write env s .batches t
  | insertPending {t : Store} {p : DlqPendingRow} :
      s.insertPending p = .ok t -> Write env s .messages t
  | deletePending (id : QueueMessageId) : Write env s .messages (s.deletePending id)
  | postponePending {p : DlqPendingRow} (nextAttemptAtMs : Millis) :
      p ∈ s.pending ->
      Write env s .messages { s with
        pending := s.pending.replace { p with nextAttemptAtMs := nextAttemptAtMs } }
  | insertQueue {q : QueueStateRow} {queues : Table QueueStateRow.queueId} :
      s.queues.insert? q = some queues ->
      q.lifecycleGeneration = env.lifecycleGeneration q.queueId ->
      q.messageCount = 0 -> q.messageBytes = 0 ->
      Write env s .queues { s with queues := queues }
  | editQueue {q r : QueueStateRow} :
      q ∈ s.queues -> r.queueId = q.queueId ->
      r.lifecycleGeneration = q.lifecycleGeneration ->
      r.messageCount = q.messageCount -> r.messageBytes = q.messageBytes ->
      Write env s .queues { s with queues := s.queues.replace r }
  | deleteQueue {t : Store} {q : QueueStateRow} :
      s.deleteQueue q = .ok t -> Write env s .queues t
  | insertConsumer {t : Store} {c : ConsumerRow} :
      (forall target, c.deadLetterQueue = some target ->
        target.2 = env.lifecycleGeneration target.1) ->
      s.insertConsumer c = .ok t -> Write env s .consumers t
  | filterConsumers (p : ConsumerRow -> Bool) :
      Write env s .consumers { s with consumers := s.consumers.filter p }
  | editConsumer {c d : ConsumerRow} :
      c ∈ s.consumers -> d.queueId = c.queueId -> d.deadLetterQueue = c.deadLetterQueue ->
      Write env s .consumerState { s with consumers := s.consumers.replace d }
  | setOperations {operations : Table EnqueueOperationRow.requestId} :
      (forall o, o ∈ operations -> exists r, r ∈ s.operations ∧ SameReceipt o r) ->
      Write env s .operations { s with operations := operations }
  | insertOperation {o : EnqueueOperationRow}
      {operations : Table EnqueueOperationRow.requestId} :
      s.operations.insert? o = some operations -> o.queueId ∈ s.queues.keys ->
      Write env s .receipts { s with operations := operations }

abbrev Writes (env : Environment) (P : Part -> Prop) : Store -> Store -> Prop :=
  Relation.ReflTransGen fun s t => exists part, P part ∧ Write env s part t

variable {env : Environment} {P : Part -> Prop} {part : Part} {s t : Store} {w v : World}

theorem Write.ok (hwrite : Write env s part t) (hs : s.Ok env) : t.Ok env := by
  cases hwrite with
  | insertMessage hok => exact hs.insertMessage hok
  | deleteMessage hm _ hok | discardMessage hm hok => exact hs.deleteMessage hm hok
  | claimMessage hm hlane hok => exact hs.claimMessage hm hlane hok
  | releaseMessage hm hok => exact hs.releaseMessage hm hok
  | insertBatch hok => exact hs.insertBatch hok
  | deleteBatch hok => exact hs.deleteBatch hok
  | insertPending hok => exact hs.insertPending hok
  | deletePending id => exact hs.deletePending id
  | postponePending nextAttemptAtMs hp => exact hs.postponePending hp nextAttemptAtMs
  | insertQueue hinsert hgeneration hcount hbytes =>
    exact hs.insertQueue hinsert hgeneration hcount hbytes
  | editQueue hq hid hgeneration hcount hbytes =>
    exact hs.editQueue hq hid hgeneration hcount hbytes
  | deleteQueue hok => exact hs.deleteQueue hok
  | insertConsumer hdeclared hok => exact hs.insertConsumer hdeclared hok
  | filterConsumers p => exact hs.setConsumers fun c hc => hs.consumerRow (mem_filter.mp hc).left
  | editConsumer hc hqueue hdlq =>
    refine hs.setConsumers (forall_replace (fun x hx => hs.consumerRow hx) ?_)
    rw [hqueue, hdlq]
    exact hs.consumerRow hc
  | setOperations hrows =>
    apply hs.setOperations
    intro o ho
    rcases hrows o ho with ⟨r, hr, hsame⟩
    rw [hsame.right.left]
    exact hs.operation_queue r hr
  | insertOperation hinsert hqueue =>
    exact hs.setOperations (forall_insert? hinsert hs.operation_queue hqueue)

theorem Write.writes (hwrite : Write env s part t) (hpart : P part) : Writes env P s t :=
  ReflTransGen.single ⟨part, hpart, hwrite⟩

theorem Writes.ok (hwrites : Writes env P s t) (hs : s.Ok env) : t.Ok env := by
  induction hwrites with
  | refl => exact hs
  | tail _ hwrite ih =>
    rcases hwrite with ⟨_, _, hwrite⟩
    exact hwrite.ok ih

theorem Writes.foldlM {ε α σ : Type} (store : σ -> Store) {step : σ -> α -> Except ε σ}
    {xs : List α} {a b : σ}
    (hstep : forall x a b, x ∈ xs -> (store a).Ok env -> step a x = .ok b ->
      Writes env P (store a) (store b))
    (hs : (store a).Ok env) (hfold : xs.foldlM step a = .ok b) :
    Writes env P (store a) (store b) := by
  refine foldlM_invariant (fun c => Writes env P (store a) (store c)) ?_
    ReflTransGen.refl hfold
  intro x c d hx hc hd
  exact hc.trans (hstep x c d hx (hc.ok hs) hd)

/-! ## Projections and consumers -/

section Operations

variable {queueId : QueueId} {request : QueueEnqueueRequest}
  {fingerprint : Digest} {ids : List QueueMessageId} {nowMs : Millis} {result : QueueEnqueueResult}
  {m : MessageRow} {batch : ClaimedQueueBatch} {decisions : List QueueCompletionDecision}

theorem updateQueue_writes {matching : QueueStateRow -> Bool}
    {edit : QueueStateRow -> QueueStateRow} {e : PlatformError} (hpart : P .queues)
    (hok : s.updateQueue queueId matching edit e = .ok t)
    (hedit : forall q, (edit q).queueId = q.queueId ∧
      (edit q).lifecycleGeneration = q.lifecycleGeneration ∧
      (edit q).messageCount = q.messageCount ∧
      (edit q).messageBytes = q.messageBytes) : Writes env P s t := by
  simp only [Store.updateQueue, ok_iff] at hok
  rcases hok with ⟨q, hq, _, rfl⟩
  rcases hedit q with ⟨hid, hgeneration, hcount, hbytes⟩
  exact (Write.editQueue (mem_of_find? hq) hid hgeneration hcount hbytes).writes hpart

theorem deleteOperations_writes (hpart : P .operations) (p : EnqueueOperationRow -> Bool) :
    Writes env P s { s with operations := s.operations.filter p } := by
  refine Write.writes (Write.setOperations ?_) hpart
  intro o ho
  exact ⟨o, (mem_filter.mp ho).left, SameReceipt.refl o⟩

variable {lifecycle routeGeneration retryBackoffMs cronMaxRetries : Nat}
  {worker : WorkerId} {deliveryPaused : QueueId -> Bool} {expiresAtMs : Millis}
  {sha256 : List UInt8 -> Digest} {stillMatches : MessageRow -> Bool}
  {acc : List ClaimedQueueBatch × Store} {entry : ConsumerRow × QueueBatchId} {u : Store}
  {result : QueueEnqueueResult} {n : MessageRow}

theorem deleteQueueProjection_writes (hqueues : P .queues) (hoperations : P .operations) :
    Writes env P s (deleteQueueProjection s queueId lifecycle).1 := by
  have hreceipts : Writes env P s (s.deleteQueueOperations queueId) :=
    deleteOperations_writes hoperations _
  unfold deleteQueueProjection
  simp only
  split
  · exact hreceipts
  · split
    · split
      · rename_i hdelete
        exact hreceipts.tail ⟨_, hqueues, Write.deleteQueue (mapErr_eq_ok.mp hdelete)⟩
      · exact hreceipts
    · exact hreceipts

theorem attach_deadLetterQueue (worker : WorkerId) (routeGeneration : Nat)
    (deliveryPaused : QueueId -> Bool) (freshId : QueueConsumerId)
    (d : QueueConsumerDeclaration) :
    (s.attach worker routeGeneration deliveryPaused freshId d).deadLetterQueue =
      d.deadLetterQueue := by
  unfold Store.attach
  split <;> rfl

theorem replaceProducts_writes {declarations : List QueueConsumerDeclaration}
    (hpart : P .consumers) (hdeclared : forall d, d ∈ declarations -> Declared env d)
    (hs : s.Ok env)
    (hok : replaceProducts s worker routeGeneration deliveryPaused declarations =
      .ok t) : Writes env P s t := by
  simp only [replaceProducts, ok_iff] at hok
  rcases hok with ⟨_, hfold⟩
  have hfilter : Writes env P s { s with
      consumers := s.consumers.filter (fun c => c.workerId ≠ worker) } :=
    (Write.filterConsumers _).writes hpart
  refine hfilter.trans (Writes.foldlM id ?_ (hfilter.ok hs) hfold)
  intro c a b hc _ hb
  rcases List.mem_map.mp hc with ⟨d, hd, rfl⟩
  refine (Write.insertConsumer ?_ (mapErr_eq_ok.mp hb)).writes hpart
  rw [attach_deadLetterQueue]
  exact hdeclared d hd

theorem upsertAttachment_writes {freshId : QueueConsumerId} {d : QueueConsumerDeclaration}
    (hpart : P .consumers) (hdeclared : Declared env d)
    (hok : upsertAttachment s worker routeGeneration deliveryPaused freshId d =
      .ok t) : Writes env P s t := by
  refine ((Write.filterConsumers _).writes hpart).tail
    ⟨_, hpart, Write.insertConsumer ?_ (mapErr_eq_ok.mp hok)⟩
  rw [attach_deadLetterQueue]
  exact hdeclared

/-! ## Enqueue, retention and purge -/

theorem acceptEnqueue_inv (hok : acceptEnqueue s request fingerprint ids nowMs = .ok (result, t)) :
    exists q expiresAtMs u, s.queues.find? request.queueId = some q ∧
      (request.messages.zip ids).foldlM (enqueueMessage request q nowMs expiresAtMs) s = .ok u ∧
      result.messageIds = ids ∧
      u.insertOperation request fingerprint result q.config.val.retentionSeconds
        nowMs expiresAtMs = .ok t := by
  simp only [acceptEnqueue, ok_iff, mapErr_eq_ok] at hok
  rcases hok with ⟨q, hq, _, _, _, _, expiresAtMs, _, u, hfold,
    _, _, _, hoperation, hresult⟩
  cases hresult
  exact ⟨q, expiresAtMs, u, hq, hfold, rfl, hoperation⟩

theorem enqueueMessage_inv {q : QueueStateRow} {entry : QueueMessageInput × QueueMessageId}
    (hok : enqueueMessage request q nowMs expiresAtMs s entry = .ok t) :
    exists availableAtMs havailable hexpires,
      s.insertMessage (enqueuedRow request entry nowMs availableAtMs expiresAtMs
        havailable hexpires) = .ok t := by
  simp only [enqueueMessage, ok_iff] at hok
  rcases hok with ⟨availableAtMs, _, hok⟩
  split at hok
  · rename_i htimes
    exact ⟨availableAtMs, htimes.left, htimes.right, mapErr_eq_ok.mp hok⟩
  · cases hok

theorem enqueueMessages_writes {q : QueueStateRow}
    {entries : List (QueueMessageInput × QueueMessageId)} (hmessages : P .messages)
    (hs : s.Ok env)
    (hok : entries.foldlM (enqueueMessage request q nowMs expiresAtMs) s = .ok t) :
    Writes env P s t := by
  refine Writes.foldlM id ?_ hs hok
  intro entry a b _ _ hb
  rcases enqueueMessage_inv hb with ⟨_, _, _, hinsert⟩
  exact (Write.insertMessage hinsert).writes hmessages

theorem enqueueQueue_inv (hok : enqueueQueue sha256 s request ids nowMs = .ok (result, t)) :
    validateRequest request = .ok () ∧
    ((exists receipt, s.operations.find? request.requestId = some receipt ∧
        receipt.queueId = request.queueId ∧
        receipt.queueGeneration = request.lifecycleGeneration ∧
        receipt.fingerprint = enqueueFingerprint sha256 request ∧
        receipt.response = result ∧ t = s) ∨
      (s.operations.find? request.requestId = none ∧
        acceptEnqueue s request (enqueueFingerprint sha256 request) ids nowMs =
          .ok (result, t))) := by
  simp only [enqueueQueue, ok_iff] at hok
  rcases hok with ⟨hvalid, _, hreplay, hok⟩
  refine ⟨hvalid, ?_⟩
  unfold Store.replayEnqueue at hreplay
  split at hreplay
  · rename_i hnone
    cases hreplay
    exact .inr ⟨hnone, hok⟩
  · rename_i receipt hsome
    split at hreplay <;> cases hreplay
    rename_i hmatch
    cases hok
    exact .inl ⟨receipt, hsome, hmatch.left, hmatch.right.left, hmatch.right.right, rfl, rfl⟩

theorem enqueueQueue_writes (hmessages : P .messages) (hreceipts : P .receipts) (hs : s.Ok env)
    (hok : enqueueQueue sha256 s request ids nowMs = .ok (result, t)) : Writes env P s t := by
  rcases (enqueueQueue_inv hok).right with ⟨_, _, _, _, _, _, rfl⟩ | ⟨_, haccept⟩
  · exact ReflTransGen.refl
  · rcases acceptEnqueue_inv haccept with ⟨q, _, u, hq, hfold, _, hoperation⟩
    have hinserts : Writes env P s u := enqueueMessages_writes hmessages hs hfold
    have hkeys : u.queues.keys = s.queues.keys := by
      refine foldlM_invariant (fun a : Store => a.queues.keys = s.queues.keys) ?_ rfl hfold
      intro entry a b _ ha hb
      rcases enqueueMessage_inv hb with ⟨_, _, _, hinsert⟩
      rcases Store.insertMessage_eq_ok.mp hinsert with ⟨_, _, _, _, _, _, rfl⟩
      exact (keys_replace _ _).trans ha
    have hqueue : request.queueId ∈ u.queues.keys := by
      rw [hkeys]
      exact exists_find?_iff_keys.mp ⟨q, hq⟩
    simp only [Store.insertOperation, ok_iff] at hoperation
    rcases hoperation with ⟨_, hinsert, rfl⟩
    exact hinserts.trans ((Write.insertOperation hinsert hqueue).writes hreceipts)

theorem finalizeQueueEnqueue_writes {requestId : RequestId} (hpart : P .operations)
    (hok : finalizeQueueEnqueue s requestId queueId lifecycle nowMs = .ok t) :
    Writes env P s t := by
  unfold finalizeQueueEnqueue at hok
  split at hok
  · rw [pure_eq_ok] at hok
    exact hok ▸ ReflTransGen.refl
  · rename_i receipt hreceipt
    simp only [ok_iff] at hok
    rcases hok with ⟨_, hok⟩
    split at hok
    · rw [pure_eq_ok] at hok
      exact hok ▸ ReflTransGen.refl
    · simp only [ok_iff] at hok
      rcases hok with ⟨_, _, rfl⟩
      refine Write.writes (Write.setOperations ?_) hpart
      exact forall_replace (fun o ho => ⟨o, ho, SameReceipt.refl o⟩)
        ⟨receipt, mem_of_find? hreceipt, rfl, rfl, rfl, rfl, rfl, rfl⟩

theorem deleteCandidate_inv (hok : deleteCandidate stillMatches s m = .ok t) :
    exists row, s.messages.find? m.id = some row ∧ row.claim = none ∧
      stillMatches row = true ∧ (s.deletePending m.id).deleteMessage row = .ok t := by
  unfold deleteCandidate at hok
  simp only at hok
  split at hok
  · rename_i row hrow
    split at hok
    · rename_i hready
      exact ⟨row, hrow, hready.left, hready.right, mapErr_eq_ok.mp hok⟩
    · cases hok
  · cases hok

theorem deleteCandidates_writes {candidates : List MessageRow} (hmessages : P .messages)
    (hs : s.Ok env) (hok : candidates.foldlM (deleteCandidate stillMatches) s = .ok t) :
    Writes env P s t := by
  refine Writes.foldlM id ?_ hs hok
  intro m a b _ _ hb
  rcases deleteCandidate_inv hb with ⟨_, hrow, _, _, hdelete⟩
  have hfound := find?_eq_some.mp hrow
  refine ((Write.deletePending m.id).writes hmessages).tail
    ⟨_, hmessages, Write.deleteMessage ?_ ?_ hdelete⟩
  · exact hfound.left
  · rw [hfound.right]
    exact fun hkey => (mem_keys_erase.mp hkey).right rfl

/-! ## Claims -/

theorem isDue_iff :
    s.isDue nowMs m = true ↔ m.claim = none ∧ m.availableAtMs ≤ nowMs ∧ nowMs < m.expiresAtMs ∧
        ¬ m.id ∈ s.pending.keys := by
  simp [Store.isDue, ← find?_eq_none_iff_keys, and_assoc]

theorem claimRow_inv (hok : claimRow nowMs claim s m = .ok t) :
    exists row, s.messages.find? m.id = some row ∧ s.isDue nowMs row = true ∧
      s.claimMessage row claim = .ok t := by
  unfold claimRow at hok
  split at hok
  · rename_i row hrow
    split at hok
    · rename_i hdue
      exact ⟨row, hrow, hdue, mapErr_eq_ok.mp hok⟩
    · cases hok
  · cases hok

theorem claimRows_writes (hmessages : P .messages) (hs : s.Ok env)
    (hok : rows.foldlM (claimRow nowMs claim) s = .ok t) : Writes env P s t := by
  refine Writes.foldlM id (fun m a b _ _ hb => ?_) hs hok
  rcases claimRow_inv hb with ⟨_, hrow, hdue, hclaim⟩
  exact (Write.claimMessage (mem_of_find? hrow) (isDue_iff.mp hdue).right.right.right
    hclaim).writes hmessages

theorem claimConsumer_inv {result : List ClaimedQueueBatch × Store}
    (hok : claimConsumer nowMs acc entry = .ok result) :
    result = acc ∨ exists rows u, acc.2.dueMessages entry.1 nowMs = .ok rows ∧ rows ≠ [] ∧
        acc.2.insertBatch {
          id := entry.2
          queueId := entry.1.queueId
          consumerId := entry.1.consumerId
          consumerGeneration := entry.1.consumerGeneration
          versionId := entry.1.versionId
          executionGeneration := entry.1.executionGeneration
          entrypoint := entry.1.entrypoint
          messageCount := rows.length } = .ok u ∧
        rows.foldlM (claimRow nowMs
          ⟨entry.2, entry.1.consumerId, entry.1.consumerGeneration⟩) u = .ok result.2 ∧
        result.1 = acc.1 ++ [claimedBatch entry.1 entry.2 rows] := by
  simp only [claimConsumer, ok_iff, ite_eq_iff, mapErr_eq_ok] at hok
  rcases hok with ⟨rows, hdue, ⟨_, rfl⟩ | ⟨hrows, u, hbatch, _, hfold, rfl⟩⟩
  · exact .inl rfl
  · exact .inr ⟨rows, u, hdue, hrows, hbatch, hfold, rfl⟩

theorem claimConsumer_writes {result : List ClaimedQueueBatch × Store} (hmessages : P .messages)
    (hbatches : P .batches) (hs : acc.2.Ok env)
    (hok : claimConsumer nowMs acc entry = .ok result) : Writes env P acc.2 result.2 := by
  rcases claimConsumer_inv hok with rfl | ⟨_, u, _, _, hbatch, hfold, _⟩
  · exact ReflTransGen.refl
  · have hinsert : Writes env P acc.2 u := (Write.insertBatch hbatch).writes hbatches
    exact hinsert.trans (claimRows_writes hmessages (hinsert.ok hs) hfold)

/-! ## Completion and forwarding -/

theorem completeMessage_writes {acc result : QueueCompletionSummary × Store}
    (hmessages : P .messages) (hs : acc.2.Ok env)
    (hok : completeMessage batch decisions nowMs acc m = .ok result) :
    Writes env P acc.2 result.2 := by
  rcases completeMessage_inv hok with ⟨_, row, _, hrow, hclaim, hcompletion⟩
  have hfound : row ∈ acc.2.messages := mem_of_find? hrow
  have hlane : ¬ row.id ∈ acc.2.pending.keys := by
    apply hs.claimed_not_pending row hfound
    rw [hclaim]
    exact some_ne_none _
  cases hcompletion with
  | acknowledged _ hdelete | expired _ _ hdelete | discarded _ _ _ _ hdelete =>
    exact (Write.deleteMessage hfound hlane hdelete).writes hmessages
  | retried _ _ _ _ hrelease => exact (Write.releaseMessage hfound hrelease).writes hmessages
  | deadLettered _ _ _ _ _ hdelete hinsert =>
    rcases insertDlqMessage_eq_ok.mp hinsert with ⟨_, _, _, _, _, _, hrow⟩
    exact ((Write.deleteMessage hfound hlane hdelete).writes hmessages).tail
      ⟨_, hmessages, Write.insertMessage hrow⟩
  | deferred _ _ _ _ _ _ _ hrelease _ hpending =>
    exact ((Write.releaseMessage hfound hrelease).writes hmessages).tail
      ⟨_, hmessages, Write.insertPending hpending⟩

theorem completeMessages_writes {acc result : QueueCompletionSummary × Store}
    (hmessages : P .messages) (hs : acc.2.Ok env)
    (hok : rows.foldlM (completeMessage batch decisions nowMs) acc = .ok result) :
    Writes env P acc.2 result.2 :=
  Writes.foldlM (fun acc : QueueCompletionSummary × Store => acc.2)
    (fun _ _ _ _ ha hb => completeMessage_writes hmessages ha hb) hs hok

theorem completeQueueBatch_inv {result : QueueCompletionSummary × Store}
    (hok : completeQueueBatch s batch decisions nowMs = .ok result) :
    DecisionsMatch batch decisions ∧
    ((s.ownsClaim batch.claim = false ∧ result.2 = s) ∨
      (s.ownsClaim batch.claim = true ∧ exists rows acc,
        s.claimedMessages batch = .ok rows ∧ rows.length = decisions.length ∧
        rows.foldlM (completeMessage batch decisions nowMs) ({}, s) = .ok acc ∧
        acc.2.deleteBatch batch.id = .ok result.2)) := by
  simp only [completeQueueBatch, ok_iff, ite_eq_iff, mapErr_eq_ok] at hok
  rcases hok with ⟨hmatch, _, ⟨hstale, rfl⟩ |
    ⟨hlive, rows, hrows, hlength, acc, hfold, _, _, hdelete, rfl⟩⟩ <;> refine ⟨hmatch, ?_⟩
  · exact .inl ⟨hstale, rfl⟩
  · exact .inr ⟨Bool.eq_true_of_not_eq_false hlive, rows, acc, hrows, hlength, hfold, hdelete⟩

theorem duePending_nodup (s : Store) (nowMs : Millis) (limit : Nat) :
    ((s.duePending nowMs limit).map DlqPendingRow.messageId).Nodup := by
  unfold Store.duePending
  rw [List.map_take]
  refine List.Nodup.sublist (List.take_sublist _ _) ?_
  exact (((List.perm_insertionSort _ _).map DlqPendingRow.messageId).nodup_iff).mpr
    (s.pending.filter _).nodup

theorem forwardPending_writes {acc result : QueueDlqForwardSummary × Store} {id : QueueMessageId}
    (hmessages : P .messages) (hok : forwardPending nowMs retryBackoffMs acc id = .ok result) :
    Writes env P acc.2 result.2 := by
  rcases forwardPending_inv hok with ⟨_, m, hp, hm, _, hforwarding⟩
  have hfound : m ∈ acc.2.messages := mem_of_find? hm
  have hlane : ¬ m.id ∈ (acc.2.deletePending m.id).pending.keys :=
    fun hkey => (mem_keys_erase.mp hkey).right rfl
  have hfirst : Writes env P acc.2 (acc.2.deletePending m.id) :=
    (Write.deletePending m.id).writes hmessages
  generalize result.2 = t at hforwarding
  cases hforwarding with
  | expired _ hdelete =>
    exact hfirst.tail ⟨_, hmessages, Write.deleteMessage hfound hlane hdelete⟩
  | moved _ _ hdelete hinsert =>
    rcases insertDlqMessage_eq_ok.mp hinsert with ⟨_, _, _, _, _, _, hrow⟩
    rcases Store.deleteMessage_eq_ok.mp hdelete with ⟨howns, q, hq, hpositive, rfl⟩
    rcases Store.insertMessage_eq_ok.mp hrow with ⟨hready, r, hr, hadmits, rows, hrows, rfl⟩
    exact (hfirst.tail ⟨_, hmessages, Write.deleteMessage hfound hlane
      (Store.deleteMessage_eq_ok.mpr ⟨howns, q, hq, hpositive, rfl⟩)⟩).tail ⟨_, hmessages,
        Write.insertMessage
          (Store.insertMessage_eq_ok.mpr ⟨hready, r, hr, hadmits, rows, hrows, rfl⟩)⟩
  | postponed _ _ _ => exact (Write.postponePending _ (mem_of_find? hp)).writes hmessages

/-! ## Recovery -/

theorem messages_ids_nodup (messages : Table MessageRow.id)
    (p : MessageRow -> Bool) : ((messages.rows.filter p).map MessageRow.id).Nodup :=
  (messages.filter p).nodup

theorem resetMessage_frame (hok : resetMessage nowMs s m = .ok t) (hne : n.id ≠ m.id)
    (hn : n ∈ s.messages) : n ∈ t.messages := by
  rcases Store.releaseMessage_eq_ok.mp hok with ⟨_, _, _, _, rfl⟩
  exact mem_replace.mpr (.inl ⟨hn, hne⟩)

theorem resetMessages_writes (hmessages : P .messages) (hok : s.resetMessages nowMs = .ok t) :
    Writes env P s t := by
  refine foldlM_rows Store.messages (fun a => Writes env P s a) ?_
    (messages_ids_nodup _ _) ?_ ReflTransGen.refl hok
  · intro m a b _ hm ha hb
    refine ⟨ha.tail ⟨_, hmessages, Write.releaseMessage hm hb⟩, ?_⟩
    intro n hne hn
    exact resetMessage_frame hb hne hn
  · intro m hm
    exact (List.mem_filter.mp hm).left

theorem deleteBatches_writes (hbatches : P .batches) (hs : s.Ok env)
    (hok : s.deleteBatches = .ok t) : Writes env P s t :=
  Writes.foldlM id (fun _ _ _ _ _ hb => (Write.deleteBatch hb).writes hbatches) hs hok

theorem resetPendings_writes (hmessages : P .messages) (hs : s.Ok env)
    (hok : rows.foldlM (resetPending nowMs) s = .ok t) : Writes env P s t := by
  refine Writes.foldlM id ?_ hs hok
  intro m a b _ _ hb
  cases resetPending_inv hb with
  | skipped => exact ReflTransGen.refl
  | inserted _ _ _ _ hinsert => exact (Write.insertPending hinsert).writes hmessages

theorem resetDiscard_frame (hok : resetDiscard s m = .ok t) (hne : n.id ≠ m.id)
    (hn : n ∈ s.messages) : n ∈ t.messages := by
  rcases resetDiscard_inv hok with rfl | ⟨_, _, _, hdelete⟩
  · exact hn
  · rcases Store.deleteMessage_eq_ok.mp hdelete with ⟨_, _, _, _, rfl⟩
    exact mem_erase.mpr ⟨hn, hne⟩

theorem resetDiscards_writes (hdiscards : P .discards)
    (hok : s.messages.rows.foldlM resetDiscard s = .ok t) : Writes env P s t := by
  refine foldlM_rows Store.messages (fun a => Writes env P s a) ?_
    s.messages.nodup (fun m hm => hm) ReflTransGen.refl hok
  intro m a b _ hm ha hb
  refine ⟨?_, fun n hne hn => resetDiscard_frame hb hne hn⟩
  rcases resetDiscard_inv hb with rfl | ⟨_, _, _, hdelete⟩
  · exact ha
  · exact ha.tail ⟨_, hdiscards, Write.discardMessage hm hdelete⟩

theorem resetClaims_inv (hok : resetClaims s nowMs cronMaxRetries = .ok t) :
    exists u v x, s.resetMessages nowMs = .ok u ∧ u.deleteBatches = .ok v ∧
      v.messages.rows.foldlM (resetPending nowMs) v = .ok x ∧
      x.messages.rows.foldlM resetDiscard x = .ok t := by
  simp only [resetClaims, resetClaimsTx, ok_iff, mapErr_eq_ok] at hok
  rcases hok with ⟨_, u, hu, v, hv, x, hx, ht⟩
  exact ⟨u, v, x, hu, hv, hx, ht⟩

theorem resetRows_writes {v x : Store} (hmessages : P .messages) (hbatches : P .batches)
    (hs : s.Ok env) (hu : s.resetMessages nowMs = .ok u) (hv : u.deleteBatches = .ok v)
    (hx : v.messages.rows.foldlM (resetPending nowMs) v = .ok x) : Writes env P s x := by
  have hsu : Writes env P s u := resetMessages_writes hmessages hu
  have hsv : Writes env P s v := hsu.trans (deleteBatches_writes hbatches (hsu.ok hs) hv)
  exact hsv.trans (resetPendings_writes hmessages (hsv.ok hs) hx)

end Operations

/-! ## Steps and runs -/

theorem World.after_eq_some {result : Result Store} :
    w.after result = some v ↔ exists t, result = .ok t ∧ v = w.setStore t := by
  cases result with
  | error e => simp [World.after]
  | ok t => simp [World.after, eq_comm]

/-- The parts of the store that an action may write to. -/
def Action.parts : Action -> Part -> Prop
  | .deleteProjection _ _, part => part = .queues ∨ part = .operations
  | .enqueue _ _ _, part => part = .messages ∨ part = .receipts
  | .finalizeEnqueue _ _ _ _, part => part = .operations
  | .claim _ _ _ _, part | .complete _ _ _, part => part = .messages ∨ part = .batches
  | .forward _ _ _, part => part = .messages
  | .sweep _ _ _, part | .purge _ _ _, part => part = .messages ∨ part = .operations
  | .promote _ _ _ _, part | .upsertConsumer _ _ _ _ _, part | .deleteConsumer _, part =>
    part = .consumers
  | .setConsumerState _ _ _, part => part = .consumerState
  | .restart _ _, part => part = .messages ∨ part = .batches ∨ part = .discards
  | _, part => part = .queues

theorem next_writes {a : Action} (hs : w.store.Ok env) (hnext : w.next env a = some v) :
    Writes env a.parts w.store v.store := by
  cases a <;> simp only [World.next, World.projects, ite_none_right_eq_some,
    World.after_eq_some, snd_eq_ok, some.injEq] at hnext
  case create projection =>
    rcases hnext with ⟨hgeneration, t, hok, rfl⟩
    simp only [createQueueProjection, ok_iff] at hok
    rcases hok with ⟨config, _, _, queues, hinsert, rfl⟩
    exact (Write.insertQueue hinsert hgeneration rfl rfl).writes rfl
  case ensureProjection projection =>
    rcases hnext with ⟨hgeneration, t, hok, rfl⟩
    simp only [ensureQueueProjection, ok_iff] at hok
    rcases hok with ⟨config, _, _, rfl⟩
    split
    · split
      · rename_i hinsert
        exact (Write.insertQueue hinsert hgeneration rfl rfl).writes rfl
      · exact ReflTransGen.refl
    · exact ReflTransGen.refl
  case beginConfig | finishConfig =>
    rcases hnext with ⟨t, hok, rfl⟩
    exact updateQueue_writes rfl hok (fun _ => ⟨rfl, rfl, rfl, rfl⟩)
  case projectConfig projection =>
    rcases hnext with ⟨t, hok, rfl⟩
    simp only [projectQueueConfig, ok_iff] at hok
    rcases hok with ⟨config, _, _, hok⟩
    exact updateQueue_writes rfl hok (fun _ => ⟨rfl, rfl, rfl, rfl⟩)
  case reconcileConfig projection =>
    rcases hnext with ⟨t, hok, rfl⟩
    simp only [reconcileQueueConfig, ok_iff, ite_eq_iff] at hok
    rcases hok with ⟨_, _, _, _, hq, _, ⟨_, rfl⟩ | ⟨_, _, rfl⟩⟩
    · refine Write.writes ?_ rfl
      exact Write.editQueue (mem_of_find? hq) rfl rfl rfl rfl
    · exact ReflTransGen.refl
  case fenceDelete =>
    rcases hnext with ⟨t, ⟨_, hok⟩, rfl⟩
    simp only [fenceQueueDelete, ok_iff] at hok
    rcases hok with ⟨u, hupdate, _, _, hresult⟩
    cases hresult
    exact updateQueue_writes rfl hupdate (fun _ => ⟨rfl, rfl, rfl, rfl⟩)
  case deleteProjection =>
    subst hnext
    exact deleteQueueProjection_writes (.inl rfl) (.inr rfl)
  case enqueue request ids nowMs =>
    rcases hnext with ⟨_, hnext⟩
    split at hnext <;> cases hnext
    rename_i result t hok
    exact enqueueQueue_writes (.inl rfl) (.inr rfl) hs hok
  case finalizeEnqueue =>
    rcases hnext with ⟨t, hok, rfl⟩
    exact finalizeQueueEnqueue_writes rfl hok
  case claim nowMs maxBatches after ids =>
    rcases hnext with ⟨_, hnext⟩
    split at hnext <;> cases hnext
    rename_i t hok
    simp only [claimQueueBatches, ok_iff] at hok
    rcases hok with ⟨_, hfold⟩
    refine Writes.foldlM (fun acc : List ClaimedQueueBatch × Store => acc.2) ?_ hs hfold
    intro entry a b _ ha hb
    exact claimConsumer_writes (.inl rfl) (.inr rfl) ha hb
  case complete batch decisions nowMs =>
    rcases hnext with ⟨_, t, ⟨summary, hok⟩, rfl⟩
    rcases (completeQueueBatch_inv hok).right with
      ⟨_, rfl⟩ | ⟨_, _, acc, _, _, hfold, hdelete⟩
    · exact ReflTransGen.refl
    · exact (completeMessages_writes (.inl rfl) hs hfold).tail
        ⟨_, .inr rfl, Write.deleteBatch hdelete⟩
  case forward =>
    rcases hnext with ⟨t, ⟨_, hok⟩, rfl⟩
    simp only [forwardQueueDlqPending, ok_iff] at hok
    rcases hok with ⟨_, hfold⟩
    refine Writes.foldlM (fun acc : QueueDlqForwardSummary × Store => acc.2) ?_ hs hfold
    intro id a b _ _ hb
    exact forwardPending_writes rfl hb
  case sweep =>
    rcases hnext with ⟨t, ⟨result, hok⟩, rfl⟩
    simp only [sweepQueueRetention, ok_iff] at hok
    rcases hok with ⟨_, u, hfold, hresult⟩
    cases hresult
    exact (deleteCandidates_writes (.inl rfl) hs hfold).trans
      (deleteOperations_writes (.inr rfl) _)
  case purge =>
    rcases hnext with ⟨t, ⟨_, hok⟩, rfl⟩
    simp only [purgeQueue, ok_iff] at hok
    rcases hok with ⟨_, _, u, hfold, hresult⟩
    cases hresult
    exact (deleteCandidates_writes (.inl rfl) hs hfold).trans
      (deleteOperations_writes (.inr rfl) _)
  case promote =>
    rcases hnext with ⟨hdeclared, t, hok, rfl⟩
    exact replaceProducts_writes rfl hdeclared.right hs hok
  case upsertConsumer =>
    rcases hnext with ⟨hdeclared, t, hok, rfl⟩
    exact upsertAttachment_writes rfl hdeclared hok
  case deleteConsumer =>
    subst hnext
    exact (Write.filterConsumers _).writes rfl
  case setConsumerState =>
    subst hnext
    unfold setConsumerState
    split
    · rename_i hfind
      refine Write.writes ?_ rfl
      exact Write.editConsumer (List.mem_of_find?_eq_some hfind) rfl rfl
    · exact ReflTransGen.refl
  case restart =>
    rcases hnext with ⟨_, hok, rfl⟩
    rcases resetClaims_inv hok with ⟨_, _, _, hu, hx, hy, ht⟩
    exact (resetRows_writes (.inl rfl) (.inr (.inl rfl)) hs hu hx hy).trans
      (resetDiscards_writes (.inr (.inr rfl)) ht)

theorem next_ok {a : Action} (hs : w.store.Ok env) (hnext : w.next env a = some v) :
    v.store.Ok env :=
  (next_writes hs hnext).ok hs

end Queue
end OpenCompute
