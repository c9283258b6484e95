import OpenCompute.Queue.System

/-!
# Integrity of the Queue store

The references between the tables, the ownership of claimed messages and the
backlog counters, with one lemma for each write that says it keeps them.
-/

namespace OpenCompute
namespace Queue

open Relational Table Transaction Transition Option

/-! ## Backlog totals -/

def total (weight : MessageRow -> Nat) (queueId : QueueId)
    (rows : List MessageRow) : Nat :=
  ((rows.filter (fun m => m.queueId = queueId)).map weight).sum

theorem total_cons (weight : MessageRow -> Nat) (queueId : QueueId)
    (m : MessageRow) (rows : List MessageRow) :
    total weight queueId (m :: rows) =
      (if m.queueId = queueId then weight m else 0) + total weight queueId rows := by
  by_cases hqueue : m.queueId = queueId <;> simp [total, hqueue]

variable {weight : MessageRow -> Nat} {queueId : QueueId} {messages : Table MessageRow.id}

theorem total_perm {rows others : List MessageRow} (hperm : rows.Perm others) :
    total weight queueId rows = total weight queueId others :=
  ((hperm.filter _).map weight).sum_eq

variable {m : MessageRow}

theorem total_insert {u : Table MessageRow.id} (hinsert : messages.insert? m = some u) :
    total weight queueId u.rows = (if m.queueId = queueId then weight m else 0) +
        total weight queueId messages.rows := by
  rw [(insert?_eq_some.mp hinsert).right,
    total_perm (List.perm_append_singleton m messages.rows), total_cons]

theorem total_erase (hm : m ∈ messages) :
    total weight queueId messages.rows = (if m.queueId = queueId then weight m else 0) +
        total weight queueId (messages.erase m.id).rows := by
  rw [total_perm (perm_cons_erase hm), total_cons]

theorem total_replace {n : MessageRow} (hm : m ∈ messages) (hid : m.id = n.id)
    (hqueue : m.queueId = n.queueId) (hweight : weight m = weight n) :
    total weight queueId (messages.replace n).rows = total weight queueId messages.rows := by
  rw [total_perm (perm_replace hm hid), total_cons, total_erase hm, hid, hqueue, hweight]

/-! ## Claims and their batches -/

theorem holdsClaim_iff {s : Store} {c : Claim} : s.holdsClaim queueId c = true ↔
      exists b, b ∈ s.batches ∧ b.id = c.claimBatchId ∧ b.queueId = queueId ∧
        b.consumerId = c.consumerId ∧ b.consumerGeneration = c.consumerGeneration := by
  simp only [Store.holdsClaim, any_eq_true, decide_eq_true_eq, find?_eq_some, and_assoc]

theorem ownsClaim_iff {s : Store} {c : Claim} :
    s.ownsClaim c = true ↔ exists b, b ∈ s.batches ∧ b.id = c.claimBatchId ∧
        b.consumerId = c.consumerId ∧ b.consumerGeneration = c.consumerGeneration := by
  simp only [Store.ownsClaim, any_eq_true, decide_eq_true_eq, find?_eq_some, and_assoc]

/-! ## Integrity -/

/-- What the schema and the triggers keep true of every stored row. -/
structure Store.Ok (env : Environment) (s : Store) : Prop where
  message_queue : forall m, m ∈ s.messages -> m.queueId ∈ s.queues.keys
  operation_queue : forall o, o ∈ s.operations -> o.queueId ∈ s.queues.keys
  consumer_queue : forall c, c ∈ s.consumers -> c.queueId ∈ s.queues.keys
  consumer_dlq : forall c target, c ∈ s.consumers -> c.deadLetterQueue = some target ->
      target.1 ∈ s.queues.keys ∧ target.2 = env.lifecycleGeneration target.1
  batch_queue : forall b, b ∈ s.batches -> b.queueId ∈ s.queues.keys
  pending_source : forall p, p ∈ s.pending -> p.sourceQueueId ∈ s.queues.keys
  pending_target : forall p, p ∈ s.pending -> p.targetQueueId ∈ s.queues.keys ∧
      p.targetQueueGeneration = env.lifecycleGeneration p.targetQueueId
  generation : forall q, q ∈ s.queues -> q.lifecycleGeneration = env.lifecycleGeneration q.queueId
  claim_held : forall m c, m ∈ s.messages -> m.claim = some c -> s.holdsClaim m.queueId c = true
  claimed_not_pending : forall m, m ∈ s.messages -> m.claim ≠ none -> ¬ m.id ∈ s.pending.keys
  counters : forall q, q ∈ s.queues ->
    q.messageCount = total (fun _ => 1) q.queueId s.messages.rows ∧
    q.messageBytes = total MessageRow.bodyBytes q.queueId s.messages.rows

theorem Store.empty_ok (env : Environment) : Store.empty.Ok env := by
  constructor <;> intros <;> exact absurd (by assumption) (not_mem_empty _)

/-!
## Writes to messages

A write to `queue_messages` edits the counters of one Queue row, which keeps
its identity and its lifecycle generation.
-/

namespace Store.Ok

variable {env : Environment} {s t : Store} {q : QueueStateRow} {m : MessageRow} {r : QueueStateRow}
  {p : DlqPendingRow} {c : ConsumerRow}

section

variable (hs : s.Ok env)
include hs

theorem messageRow (hm : m ∈ s.messages) : m.queueId ∈ s.queues.keys ∧
    (forall c, m.claim = some c -> s.holdsClaim m.queueId c = true) ∧
    (m.claim ≠ none -> ¬ m.id ∈ s.pending.keys) :=
  ⟨hs.message_queue m hm, fun c => hs.claim_held m c hm, hs.claimed_not_pending m hm⟩

theorem setMessages {messages : Table MessageRow.id} (hq : q ∈ s.queues)
    (hid : r.queueId = q.queueId) (hgeneration : r.lifecycleGeneration = q.lifecycleGeneration)
    (hrows : forall m, m ∈ messages -> m.queueId ∈ s.queues.keys ∧
      (forall c, m.claim = some c -> s.holdsClaim m.queueId c = true) ∧
      (m.claim ≠ none -> ¬ m.id ∈ s.pending.keys))
    (hcounters : forall x, x ∈ s.queues.replace r ->
      x.messageCount = total (fun _ => 1) x.queueId messages.rows ∧
      x.messageBytes = total MessageRow.bodyBytes x.queueId messages.rows) :
    Store.Ok env { s with messages, queues := s.queues.replace r } := by
  constructor
  case generation =>
    refine forall_replace hs.generation ?_
    rw [hgeneration, hid]
    exact hs.generation q hq
  case counters => exact hcounters
  case claim_held => exact fun m c hm => (hrows m hm).right.left c
  case claimed_not_pending => exact fun m hm => (hrows m hm).right.right
  all_goals simp only [keys_replace]
  case message_queue => exact fun m hm => (hrows m hm).left
  case operation_queue => exact hs.operation_queue
  case consumer_queue => exact hs.consumer_queue
  case consumer_dlq => exact hs.consumer_dlq
  case batch_queue => exact hs.batch_queue
  case pending_source => exact hs.pending_source
  case pending_target => exact hs.pending_target

theorem insertMessage (hok : s.insertMessage m = .ok t) : t.Ok env := by
  rcases Store.insertMessage_eq_ok.mp hok with ⟨⟨hclaim, _⟩, q, hq, _, _, hinsert, rfl⟩
  have hqueue := find?_eq_some.mp hq
  refine hs.setMessages hqueue.left rfl rfl ?_ ?_
  · refine forall_insert? hinsert (fun x hx => hs.messageRow hx) ?_
    rw [← hqueue.right, hclaim]
    exact ⟨key_mem_keys hqueue.left, nofun, fun hne => absurd rfl hne⟩
  · intro r hr
    rw [total_insert hinsert, total_insert hinsert]
    rcases mem_replace.mp hr with ⟨hr, hne⟩ | ⟨rfl, _⟩
    · have hother : m.queueId ≠ r.queueId := by
        rw [← hqueue.right]
        exact fun heq => hne heq.symm
      have hcounters := hs.counters r hr
      simpa [hother] using hcounters
    · have hcounters := hs.counters q hqueue.left
      simp only [hqueue.right, if_true] at hcounters ⊢
      omega

theorem deleteMessage (hm : m ∈ s.messages) (hok : s.deleteMessage m = .ok t) : t.Ok env := by
  rcases Store.deleteMessage_eq_ok.mp hok with ⟨_, q, hq, _, rfl⟩
  have hqueue := find?_eq_some.mp hq
  refine hs.setMessages hqueue.left rfl rfl (fun x hx => hs.messageRow (mem_erase.mp hx).left) ?_
  intro r hr
  rcases mem_replace.mp hr with ⟨hr, hne⟩ | ⟨rfl, _⟩
  · have hother : m.queueId ≠ r.queueId := by
      rw [← hqueue.right]
      exact fun heq => hne heq.symm
    have hcounters := hs.counters r hr
    rw [total_erase hm, total_erase hm] at hcounters
    simpa [hother] using hcounters
  · have hcounters := hs.counters q hqueue.left
    rw [total_erase hm, total_erase hm] at hcounters
    simp only [hqueue.right, if_true] at hcounters ⊢
    omega

theorem replaceMessage {n : MessageRow} (hm : m ∈ s.messages) (hid : m.id = n.id)
    (hqueue : m.queueId = n.queueId) (hbody : m.body = n.body)
    (hheld : forall c, n.claim = some c -> s.holdsClaim n.queueId c = true)
    (hlane : n.claim ≠ none -> ¬ n.id ∈ s.pending.keys) :
    Store.Ok env { s with messages := s.messages.replace n } := by
  refine { hs with
    message_queue := ?_
    claim_held := ?_
    claimed_not_pending := ?_
    counters := ?_ }
  · exact forall_replace hs.message_queue (hqueue ▸ hs.message_queue m hm)
  · intro x c hx hclaim
    rcases mem_replace.mp hx with hx | ⟨rfl, _⟩
    · exact hs.claim_held x c hx.left hclaim
    · exact hheld c hclaim
  · exact forall_replace hs.claimed_not_pending hlane
  · intro q hq
    have hbytes : m.bodyBytes = n.bodyBytes := congrArg List.length hbody
    rw [total_replace hm hid hqueue rfl, total_replace hm hid hqueue hbytes]
    exact hs.counters q hq

theorem claimMessage {c : Claim} (hm : m ∈ s.messages)
    (hlane : ¬ m.id ∈ s.pending.keys) (hok : s.claimMessage m c = .ok t) : t.Ok env := by
  rcases Store.claimMessage_eq_ok.mp hok with ⟨_, hheld, rfl⟩
  refine hs.replaceMessage hm rfl rfl rfl ?_ (fun _ => hlane)
  intro d hd
  cases hd
  exact hheld

theorem releaseMessage {attempts : Nat} {availableAtMs : Millis}
    (hm : m ∈ s.messages) (hok : s.releaseMessage m attempts availableAtMs = .ok t) : t.Ok env := by
  rcases Store.releaseMessage_eq_ok.mp hok with ⟨_, _, _, _, rfl⟩
  refine hs.replaceMessage hm rfl rfl rfl ?_ (fun hclaim => absurd rfl hclaim)
  intro d hd
  cases hd

/-! ## Writes to batches and to the dead-letter lane -/

theorem insertBatch {b : DeliveryBatchRow} (hok : s.insertBatch b = .ok t) : t.Ok env := by
  rcases Store.insertBatch_eq_ok hok with ⟨_, hinsert, hqueue, rfl⟩
  refine { hs with
    batch_queue := ?_
    claim_held := ?_ }
  · exact forall_insert? hinsert hs.batch_queue (exists_find?_iff_keys.mp hqueue)
  · intro m c hm hclaim
    rcases holdsClaim_iff.mp (hs.claim_held m c hm hclaim) with ⟨x, hx, hrow⟩
    exact holdsClaim_iff.mpr ⟨x, (mem_of_insert? hinsert).mpr (Or.inl hx), hrow⟩

theorem deleteBatch {id : QueueBatchId} (hok : s.deleteBatch id = .ok t) : t.Ok env := by
  rcases Store.deleteBatch_eq_ok.mp hok with ⟨hguard, rfl⟩
  refine { hs with
    batch_queue := ?_
    claim_held := ?_ }
  · intro x hx
    exact hs.batch_queue x (mem_erase.mp hx).left
  · intro m c hm hclaim
    rcases holdsClaim_iff.mp (hs.claim_held m c hm hclaim) with ⟨x, hx, hid, hrow⟩
    have hne : x.id ≠ id := by
      rw [hid]
      exact hguard m c hm hclaim
    exact holdsClaim_iff.mpr ⟨x, mem_erase.mpr ⟨hx, hne⟩, hid, hrow⟩

theorem insertPending (hok : s.insertPending p = .ok t) : t.Ok env := by
  rcases Store.insertPending_eq_ok.mp hok with ⟨hauthority, hsource, _, hinsert, rfl⟩
  rcases Store.pendingAuthority_iff.mp hauthority with ⟨⟨m, hm, _, hready, _⟩, q, hq, hgeneration⟩
  have hmessage := find?_eq_some.mp hm
  have htarget := find?_eq_some.mp hq
  refine { hs with
    pending_source := ?_
    pending_target := ?_
    claimed_not_pending := ?_ }
  · exact forall_insert? hinsert hs.pending_source (exists_find?_iff_keys.mp hsource)
  · refine forall_insert? hinsert hs.pending_target ⟨exists_find?_iff_keys.mp ⟨q, hq⟩, ?_⟩
    rw [← hgeneration, ← htarget.right]
    exact hs.generation q htarget.left
  · intro x hx hclaim hkey
    rcases (mem_keys_of_insert? hinsert).mp hkey with hkey | hkey
    · exact hs.claimed_not_pending x hx hclaim hkey
    · have heq : x = m := eq_of_key_eq hx hmessage.left (hkey.trans hmessage.right.symm)
      exact hclaim (heq ▸ hready)

theorem deletePending (id : QueueMessageId) : (s.deletePending id).Ok env := by
  refine { hs with
    pending_source := ?_
    pending_target := ?_
    claimed_not_pending := ?_ }
  · intro p hp
    exact hs.pending_source p (mem_erase.mp hp).left
  · intro p hp
    exact hs.pending_target p (mem_erase.mp hp).left
  · intro m hm hclaim hkey
    exact hs.claimed_not_pending m hm hclaim (mem_keys_erase.mp hkey).left

theorem postponePending (hp : p ∈ s.pending) (nextAttemptAtMs : Millis) : Store.Ok env { s with
      pending := s.pending.replace { p with nextAttemptAtMs := nextAttemptAtMs } } := by
  refine { hs with
    pending_source := ?_
    pending_target := ?_
    claimed_not_pending := ?_ }
  · exact forall_replace hs.pending_source (hs.pending_source p hp)
  · exact forall_replace hs.pending_target (hs.pending_target p hp)
  · intro m hm hclaim
    rw [keys_replace]
    exact hs.claimed_not_pending m hm hclaim

/-! ## Writes to Queue rows -/

theorem editQueue (hq : q ∈ s.queues) (hid : r.queueId = q.queueId)
    (hgeneration : r.lifecycleGeneration = q.lifecycleGeneration)
    (hcount : r.messageCount = q.messageCount) (hbytes : r.messageBytes = q.messageBytes) :
    Store.Ok env { s with queues := s.queues.replace r } := by
  refine hs.setMessages hq hid hgeneration (fun _ hm => hs.messageRow hm)
    (forall_replace hs.counters ?_)
  rw [hcount, hbytes, hid]
  exact hs.counters q hq

theorem total_eq_zero {queueId : QueueId}
    (habsent : ¬ queueId ∈ s.queues.keys) (weight : MessageRow -> Nat) :
    total weight queueId s.messages.rows = 0 := by
  have hnone : s.messages.rows.filter (fun m => m.queueId = queueId) = [] := by
    rw [List.filter_eq_nil_iff]
    intro m hm hqueue
    have heq : m.queueId = queueId := by simpa using hqueue
    exact habsent (heq ▸ hs.message_queue m hm)
  simp [total, hnone]

theorem insertQueue {queues : Table QueueStateRow.queueId}
    (hinsert : s.queues.insert? q = some queues)
    (hgeneration : q.lifecycleGeneration = env.lifecycleGeneration q.queueId)
    (hcount : q.messageCount = 0) (hbytes : q.messageBytes = 0) :
    Store.Ok env { s with queues := queues } := by
  have hkeys : forall id, id ∈ s.queues.keys -> id ∈ queues.keys :=
    fun id hid => (mem_keys_of_insert? hinsert).mpr (Or.inl hid)
  constructor
  case message_queue => exact fun m hm => hkeys _ (hs.message_queue m hm)
  case operation_queue => exact fun o ho => hkeys _ (hs.operation_queue o ho)
  case consumer_queue => exact fun c hc => hkeys _ (hs.consumer_queue c hc)
  case consumer_dlq =>
    intro c target hc htarget
    have hdlq := hs.consumer_dlq c target hc htarget
    exact ⟨hkeys _ hdlq.left, hdlq.right⟩
  case batch_queue => exact fun b hb => hkeys _ (hs.batch_queue b hb)
  case pending_source => exact fun p hp => hkeys _ (hs.pending_source p hp)
  case pending_target =>
    intro p hp
    have htarget := hs.pending_target p hp
    exact ⟨hkeys _ htarget.left, htarget.right⟩
  case generation => exact forall_insert? hinsert hs.generation hgeneration
  case claim_held => exact hs.claim_held
  case claimed_not_pending => exact hs.claimed_not_pending
  case counters =>
    refine forall_insert? hinsert hs.counters ?_
    have habsent : ¬ q.queueId ∈ s.queues.keys := by
      intro hmem
      rcases mem_keys.mp hmem with ⟨y, hy, hkey⟩
      exact (insert?_eq_some.mp hinsert).left y hy hkey
    rw [hcount, hbytes, hs.total_eq_zero habsent, hs.total_eq_zero habsent]
    exact ⟨rfl, rfl⟩

theorem deleteQueue (hok : s.deleteQueue q = .ok t) : t.Ok env := by
  simp only [Store.deleteQueue, ok_iff] at hok
  rcases hok with ⟨_, hfree, rfl⟩
  simp only [Store.referenced, Bool.or_eq_false_iff, List.any_eq_false,
    decide_eq_true_eq, Bool.or_eq_true, not_or, any_eq_true, not_exists,
    not_and] at hfree
  rcases hfree with ⟨⟨⟨⟨hmessages, hoperations⟩, hconsumers⟩, hbatches⟩, hpending⟩
  constructor
  case message_queue =>
    intro m hm
    exact mem_keys_erase.mpr ⟨hs.message_queue m hm, hmessages m hm⟩
  case operation_queue =>
    intro o ho
    exact mem_keys_erase.mpr ⟨hs.operation_queue o ho, hoperations o ho⟩
  case consumer_queue =>
    intro c hc
    exact mem_keys_erase.mpr ⟨hs.consumer_queue c hc, (hconsumers c hc).left⟩
  case consumer_dlq =>
    intro c target hc htarget
    have hdlq := hs.consumer_dlq c target hc htarget
    exact ⟨mem_keys_erase.mpr ⟨hdlq.left, (hconsumers c hc).right target htarget⟩, hdlq.right⟩
  case batch_queue =>
    intro b hb
    exact mem_keys_erase.mpr ⟨hs.batch_queue b hb, hbatches b hb⟩
  case pending_source =>
    intro p hp
    exact mem_keys_erase.mpr ⟨hs.pending_source p hp, (hpending p hp).left⟩
  case pending_target =>
    intro p hp
    have htarget := hs.pending_target p hp
    exact ⟨mem_keys_erase.mpr ⟨htarget.left, (hpending p hp).right⟩, htarget.right⟩
  case generation => exact fun x hx => hs.generation x (mem_erase.mp hx).left
  case claim_held => exact hs.claim_held
  case claimed_not_pending => exact hs.claimed_not_pending
  case counters => exact fun x hx => hs.counters x (mem_erase.mp hx).left

/-! ## Writes to consumers and receipts -/

theorem setConsumers {consumers : Table ConsumerRow.queueId}
    (hrows : forall c, c ∈ consumers -> c.queueId ∈ s.queues.keys ∧
      forall target, c.deadLetterQueue = some target ->
        target.1 ∈ s.queues.keys ∧ target.2 = env.lifecycleGeneration target.1) :
    Store.Ok env { s with consumers := consumers } :=
  { hs with
    consumer_queue := fun c hc => (hrows c hc).left
    consumer_dlq := fun c target hc => (hrows c hc).right target }

theorem consumerRow (hc : c ∈ s.consumers) :
    c.queueId ∈ s.queues.keys ∧ forall target, c.deadLetterQueue = some target ->
        target.1 ∈ s.queues.keys ∧ target.2 = env.lifecycleGeneration target.1 :=
  ⟨hs.consumer_queue c hc, fun target => hs.consumer_dlq c target hc⟩

theorem insertConsumer (hdeclared : forall target, c.deadLetterQueue = some target ->
      target.2 = env.lifecycleGeneration target.1)
    (hok : s.insertConsumer c = .ok t) : t.Ok env := by
  simp only [Store.insertConsumer, ok_iff, ite_eq_iff, isSome_iff_exists,
    exists_find?_iff_keys, all_eq_true] at hok
  rcases hok with ⟨_, rfl⟩ | ⟨_, ⟨hqueue, hdlq⟩, _, hinsert, rfl⟩
  · exact hs
  · exact hs.setConsumers (forall_insert? hinsert (fun x hx => hs.consumerRow hx)
      ⟨hqueue, fun target htarget => ⟨hdlq target htarget, hdeclared target htarget⟩⟩)

theorem setOperations {operations : Table EnqueueOperationRow.requestId}
    (hrows : forall o, o ∈ operations -> o.queueId ∈ s.queues.keys) :
    Store.Ok env { s with operations := operations } :=
  { hs with operation_queue := hrows }

end

end Store.Ok

end Queue
end OpenCompute
