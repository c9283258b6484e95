import OpenCompute.Queue.Model

/-!
# Guarded writes

Each write to a table of the Queue store runs the triggers of that table: the
`BEFORE` guards that may abort the statement and the `AFTER` triggers that keep
the backlog counters of `queue_state`.  A violated `CHECK`, `UNIQUE` or foreign
key fails the statement as well.  The operations of the following modules touch
the tables through these writes only.
-/

namespace OpenCompute
namespace Queue
namespace Store

open Relational Transaction Option

/-! ## Messages -/

/-- The authority that `queue_messages_insert_guard` asks of the Queue. -/
def Admits (q : QueueStateRow) (m : MessageRow) : Prop :=
  q.state = .accepting ∧
  q.lifecycleGeneration = m.queueGeneration ∧
  m.bodyBytes ≤ q.config.val.maxMessageBytes ∧
  m.expiresAtMs = m.enqueuedAtMs + q.config.val.retentionSeconds * 1000 ∧
  q.messageBytes + m.bodyBytes ≤ q.config.val.maxBacklogBytes

instance (q : QueueStateRow) (m : MessageRow) : Decidable (Admits q m) := by
  unfold Admits
  infer_instance

def insertMessage (s : Store) (m : MessageRow) : Except SqlError Store := do
  ensure (m.claim = none ∧ m.attempts = 0)
    (.abort "queue producer may only insert ready messages")
  let q ← okOr (s.queues.find? m.queueId)
    (.abort "queue message authority invariant")
  ensure (Admits q m) (.abort "queue message authority invariant")
  let messages ← okOr (s.messages.insert? m) .constraint
  return { s with
    messages := messages
    queues := s.queues.replace { q with
      messageCount := q.messageCount + 1
      messageBytes := q.messageBytes + m.bodyBytes } }

def ownsClaim (s : Store) (c : Claim) : Bool :=
  (s.batches.find? c.claimBatchId).any fun b =>
    b.consumerId = c.consumerId ∧ b.consumerGeneration = c.consumerGeneration

def deleteMessage (s : Store) (m : MessageRow) : Except SqlError Store := do
  ensure (m.claim.all s.ownsClaim)
    (.abort "queue claimed message delete invariant")
  -- The foreign key gives the row its Queue; the counters may not turn negative.
  let q ← okOr (s.queues.find? m.queueId) .constraint
  ensure (1 ≤ q.messageCount ∧ m.bodyBytes ≤ q.messageBytes) .constraint
  return { s with
    messages := s.messages.erase m.id
    queues := s.queues.replace { q with
      messageCount := q.messageCount - 1
      messageBytes := q.messageBytes - m.bodyBytes } }

def holdsClaim (s : Store) (queueId : QueueId) (c : Claim) : Bool :=
  (s.batches.find? c.claimBatchId).any fun b =>
    b.queueId = queueId ∧ b.consumerId = c.consumerId ∧ b.consumerGeneration = c.consumerGeneration

def claimed (m : MessageRow) (c : Claim) : MessageRow :=
  { m with claim := some c }

/-- Moves a stored row from `ready` to `claimed`. -/
def claimMessage (s : Store) (m : MessageRow) (c : Claim) :
    Except SqlError Store := do
  ensure (m.claim = none ∧ s.holdsClaim m.queueId c)
    (.abort "queue message transition invariant")
  return { s with messages := s.messages.replace (claimed m c) }

def released (m : MessageRow) (attempts : Nat) (availableAtMs : Millis)
    (havailable : m.enqueuedAtMs ≤ availableAtMs) : MessageRow :=
  { m with
    attempts := attempts
    availableAtMs := availableAtMs
    claim := none
    available_ge := havailable }

/-- Moves a stored row from `claimed` to `ready`. -/
def releaseMessage (s : Store) (m : MessageRow) (attempts : Nat)
    (availableAtMs : Millis) : Except SqlError Store := do
  let c ← okOr m.claim (.abort "queue message transition invariant")
  ensure (m.attempts ≤ attempts ∧ attempts ≤ m.attempts + 1 ∧ s.holdsClaim m.queueId c)
    (.abort "queue message transition invariant")
  if havailable : m.enqueuedAtMs ≤ availableAtMs then
    return { s with
      messages := s.messages.replace (released m attempts availableAtMs havailable) }
  else
    throw .constraint

/-! ## Delivery batches -/

def insertBatch (s : Store) (b : DeliveryBatchRow) : Except SqlError Store := do
  ensure ((s.consumers.find? b.queueId).any fun c =>
      c.consumerId = b.consumerId ∧
      c.consumerGeneration = b.consumerGeneration ∧
      c.versionId = b.versionId ∧
      c.executionGeneration = b.executionGeneration ∧
      c.entrypoint = b.entrypoint ∧ c.state = .active ∧
      b.messageCount ≤ c.config.maxBatchSize)
    (.abort "queue delivery batch authority invariant")
  ensure (1 ≤ b.messageCount ∧ b.messageCount ≤ 100) .constraint
  ensure (s.queues.find? b.queueId).isSome .constraint
  let batches ← okOr (s.batches.insert? b) .constraint
  return { s with batches := batches }

def deleteBatch (s : Store) (id : QueueBatchId) : Except SqlError Store := do
  ensure (forall m, m ∈ s.messages.rows -> m.claim.all (fun c => c.claimBatchId ≠ id))
    (.abort "queue delivery batch still has claimed messages")
  return { s with batches := s.batches.erase id }

/-! ## The dead-letter lane -/

/-- `queue_dlq_pending_insert_guard`. -/
def PendingAuthority (s : Store) (p : DlqPendingRow) : Prop :=
  (s.messages.find? p.messageId).any (fun m =>
    m.queueId = p.sourceQueueId ∧ m.claim = none ∧ m.attempts = p.terminalAttempts) ∧
  (s.queues.find? p.targetQueueId).any (fun q => q.lifecycleGeneration = p.targetQueueGeneration)

instance (s : Store) (p : DlqPendingRow) : Decidable (s.PendingAuthority p) := by
  unfold PendingAuthority
  infer_instance

def insertPending (s : Store) (p : DlqPendingRow) : Except SqlError Store := do
  ensure (s.PendingAuthority p) (.abort "queue DLQ pending authority invariant")
  ensure (s.queues.find? p.sourceQueueId).isSome .constraint
  let pending ← okOr (s.pending.insert? p) .constraint
  return { s with pending := pending }

def deletePending (s : Store) (messageId : QueueMessageId) : Store :=
  { s with pending := s.pending.erase messageId }

/-! ## Queue rows and consumers -/

def referenced (s : Store) (queueId : QueueId) : Bool :=
  s.messages.rows.any (fun m => m.queueId = queueId) ||
  s.operations.rows.any (fun o => o.queueId = queueId) ||
  s.consumers.rows.any (fun c => c.queueId = queueId ||
    c.deadLetterQueue.any (fun target => target.1 = queueId)) ||
  s.batches.rows.any (fun b => b.queueId = queueId) ||
  s.pending.rows.any (fun p => p.sourceQueueId = queueId || p.targetQueueId = queueId)

/-- `queue_state_delete_guard` and the foreign keys onto `queue_state`. -/
def deleteQueue (s : Store) (q : QueueStateRow) : Except SqlError Store := do
  ensure (q.messageCount = 0 ∧ q.messageBytes = 0)
    (.abort "queue state has backlog")
  ensure (s.referenced q.queueId = false) .constraint
  return { s with queues := s.queues.erase q.queueId }

/-- `INSERT OR IGNORE`: a row whose Queue or identity is taken is skipped. -/
def insertConsumer (s : Store) (c : ConsumerRow) : Except SqlError Store := do
  if s.consumers.rows.any (fun d => d.consumerId = c.consumerId || d.queueId = c.queueId) then
    return s
  ensure ((s.queues.find? c.queueId).isSome ∧
      c.deadLetterQueue.all (fun target => (s.queues.find? target.1).isSome))
    .constraint
  let consumers ← okOr (s.consumers.insert? c) .constraint
  return { s with consumers := consumers }

/-!
## What a committed write did

One lemma for each write: when it commits, and the store it leaves.
-/

variable {s t : Store} {m : MessageRow}

theorem insertMessage_eq_ok : s.insertMessage m = .ok t ↔ (m.claim = none ∧ m.attempts = 0) ∧
      exists q, s.queues.find? m.queueId = some q ∧ Admits q m ∧
      exists messages, s.messages.insert? m = some messages ∧ { s with
          messages := messages
          queues := s.queues.replace { q with
            messageCount := q.messageCount + 1
            messageBytes := q.messageBytes + m.bodyBytes } } = t := by
  simp [insertMessage]

theorem deleteMessage_eq_ok :
    s.deleteMessage m = .ok t ↔ (forall c, m.claim = some c -> s.ownsClaim c = true) ∧
      exists q, s.queues.find? m.queueId = some q ∧
        (1 ≤ q.messageCount ∧ m.bodyBytes ≤ q.messageBytes) ∧
        { s with
          messages := s.messages.erase m.id
          queues := s.queues.replace { q with
            messageCount := q.messageCount - 1
            messageBytes := q.messageBytes - m.bodyBytes } } = t := by
  simp [deleteMessage, all_eq_true]

theorem claimMessage_eq_ok {c : Claim} :
    s.claimMessage m c = .ok t ↔ m.claim = none ∧ s.holdsClaim m.queueId c = true ∧
        { s with messages := s.messages.replace (claimed m c) } = t := by
  simp [claimMessage, and_assoc]

theorem releaseMessage_eq_ok {attempts : Nat} {availableAtMs : Millis} :
    s.releaseMessage m attempts availableAtMs = .ok t ↔ exists c, m.claim = some c ∧
        (m.attempts ≤ attempts ∧ attempts ≤ m.attempts + 1 ∧ s.holdsClaim m.queueId c = true) ∧
        exists havailable : m.enqueuedAtMs ≤ availableAtMs, { s with
            messages := s.messages.replace (released m attempts availableAtMs havailable) } =
            t := by
  unfold releaseMessage
  by_cases havailable : m.enqueuedAtMs ≤ availableAtMs
  · simp [havailable]
  · simp [havailable]

theorem insertBatch_eq_ok {b : DeliveryBatchRow} :
    s.insertBatch b = .ok t -> exists batches, s.batches.insert? b = some batches ∧
        (exists q, s.queues.find? b.queueId = some q) ∧ { s with batches := batches } = t := by
  intro hok
  simp only [insertBatch, ok_iff] at hok
  rcases hok with ⟨_, _, hqueue, batches, hinsert, rfl⟩
  exact ⟨batches, hinsert, isSome_iff_exists.mp hqueue, rfl⟩

theorem deleteBatch_eq_ok {id : QueueBatchId} : s.deleteBatch id = .ok t ↔
      (forall m c, m ∈ s.messages -> m.claim = some c -> c.claimBatchId ≠ id) ∧
        { s with batches := s.batches.erase id } = t := by
  simp only [deleteBatch, ok_iff]
  constructor
  · intro hok
    rcases hok with ⟨hguard, rfl⟩
    refine ⟨?_, rfl⟩
    intro m c hm hclaim
    have hall := hguard m hm
    simpa [hclaim] using hall
  · intro hok
    rcases hok with ⟨hguard, rfl⟩
    refine ⟨?_, rfl⟩
    intro m hm
    cases hclaim : m.claim with
    | none => rfl
    | some c => simpa using hguard m c hm hclaim

theorem pendingAuthority_iff {p : DlqPendingRow} :
    s.PendingAuthority p ↔ (exists m, s.messages.find? p.messageId = some m ∧
        m.queueId = p.sourceQueueId ∧ m.claim = none ∧
        m.attempts = p.terminalAttempts) ∧
      (exists q, s.queues.find? p.targetQueueId = some q ∧
        q.lifecycleGeneration = p.targetQueueGeneration) := by
  simp [PendingAuthority, any_eq_true]

theorem insertPending_eq_ok {p : DlqPendingRow} : s.insertPending p = .ok t ↔ s.PendingAuthority p ∧
      (exists q, s.queues.find? p.sourceQueueId = some q) ∧
      exists pending, s.pending.insert? p = some pending ∧ { s with pending := pending } = t := by
  simp [insertPending, isSome_iff_exists]

end Store
end Queue
end OpenCompute
