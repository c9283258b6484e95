import OpenCompute.Queue.Producer

/-!
# Delivery

`claim_queue_batches`, `complete_queue_batch` and `forward_queue_dlq_pending`.
A claimed batch that the store returns carries the retry limit and the
dead-letter target of its consumer as they were when it was claimed.
-/

namespace OpenCompute
namespace Queue

open Relational Transaction

/-! ## Errors -/

def dispositionInvalid : PlatformError :=
  ⟨.queueDispositionInvalid, "Queue disposition does not exactly match the claimed batch"⟩

def consumerInvariant : PlatformError :=
  ⟨.queueInvariantViolation, "Queue consumer scheduler invariant failed"⟩

def addMs (nowMs : Millis) (deltaMs : Nat) : Result Millis := do
  ensure ((deltaMs : Int) ≤ i64Max) consumerInvariant
  okOr (checkedAdd nowMs deltaMs) consumerInvariant

/-! ## Claims -/

structure ClaimedQueueMessage where
  id : QueueMessageId
  enqueuedAtMs : Millis
  deliveryAttempt : Nat
  contentType : QueueContentType
  body : List UInt8
deriving DecidableEq, Repr

structure ClaimedQueueBatch where
  id : QueueBatchId
  queueId : QueueId
  consumerId : QueueConsumerId
  consumerGeneration : Nat
  versionId : VersionId
  workerId : WorkerId
  executionGeneration : Nat
  entrypoint : Option String
  maxRetries : Nat
  deadLetterQueue : Option (QueueId × Nat)
  retryDelaySeconds : Nat
  messages : List ClaimedQueueMessage
deriving DecidableEq, Repr

def u16Max : Nat := 65535

/-- `u16::saturating_add(1)`. -/
def nextAttempt (attempts : Nat) : Nat := min (attempts + 1) u16Max

/-- A ready row that may be delivered now. -/
def Store.isDue (s : Store) (nowMs : Millis) (m : MessageRow) : Bool :=
  m.claim = none && m.availableAtMs ≤ nowMs && nowMs < m.expiresAtMs &&
    (s.pending.find? m.id).isNone

/-- The due rows of a Queue by `available_at_ms, seq`. -/
def Store.dueRows (s : Store) (queueId : QueueId) (nowMs : Millis) :
    List MessageRow :=
  (s.messages.rows.filter fun m => m.queueId = queueId && s.isDue nowMs m
    ).insertionSort fun m n => m.availableAtMs ≤ n.availableAtMs

/-- `map_message` reads the attempts of a row into a `u16`. -/
def mapMessages (rows : List MessageRow) : Result (List MessageRow) := do
  ensure (forall m, m ∈ rows -> m.attempts ≤ u16Max) consumerInvariant
  return rows

def Store.dueMessages (s : Store) (c : ConsumerRow) (nowMs : Millis) : Result (List MessageRow) :=
  mapMessages ((s.dueRows c.queueId nowMs).take c.config.maxBatchSize)

/-- The first due row has waited for the batch timeout, or a full batch is due. -/
def Store.eligible (s : Store) (nowMs : Millis) (c : ConsumerRow) : Bool :=
  c.state = .active && (s.queues.find? c.queueId).isSome &&
  (s.batches.rows.filter (fun b => b.queueId = c.queueId)).length < c.config.maxConcurrency &&
  ((s.dueRows c.queueId nowMs).head?.any
      (fun m => m.availableAtMs + c.config.maxBatchTimeoutMs ≤ nowMs) ||
    c.config.maxBatchSize ≤ ((s.dueRows c.queueId nowMs).take queueConsumerMaxBatchSize).length)

/-- Queues after the cursor come first, each part in the order of identifiers. -/
def cursorKey (afterQueueId : Option QueueId) (c : ConsumerRow) : Int × Uuid :=
  (if afterQueueId.all (fun after => after < c.queueId) then 0 else 1, c.queueId)

def Store.eligibleConsumers (s : Store) (nowMs : Millis) (limit : Nat)
    (afterQueueId : Option QueueId) : List ConsumerRow :=
  ((s.consumers.rows.filter (s.eligible nowMs)).insertionSort fun c d =>
    KeyLe (cursorKey afterQueueId c) (cursorKey afterQueueId d)).take limit

/-- The claim of one message: an `UPDATE` that must still match the row. -/
def claimRow (nowMs : Millis) (claim : Claim) (s : Store) (m : MessageRow) : Result Store :=
  match s.messages.find? m.id with
  | some row =>
    if s.isDue nowMs row then
      mapErr Scheduler.mapSqlError (s.claimMessage row claim)
    else
      .error consumerInvariant
  | none => .error consumerInvariant

def claimedBatch (c : ConsumerRow) (id : QueueBatchId) (rows : List MessageRow) :
    ClaimedQueueBatch :=
  { id := id
    queueId := c.queueId
    consumerId := c.consumerId
    consumerGeneration := c.consumerGeneration
    versionId := c.versionId
    workerId := c.workerId
    executionGeneration := c.executionGeneration
    entrypoint := c.entrypoint
    maxRetries := c.config.maxRetries
    deadLetterQueue := c.deadLetterQueue
    retryDelaySeconds := c.config.retryDelaySeconds
    messages := rows.map fun m =>
      ⟨m.id, m.enqueuedAtMs, nextAttempt m.attempts, m.contentType, m.body⟩ }

def claimConsumer (nowMs : Millis)
    (acc : List ClaimedQueueBatch × Store) (entry : ConsumerRow × QueueBatchId) :
    Result (List ClaimedQueueBatch × Store) := do
  let c := entry.1
  let rows ← acc.2.dueMessages c nowMs
  if rows = [] then
    return acc
  let s ← mapErr Scheduler.mapSqlError (acc.2.insertBatch {
    id := entry.2
    queueId := c.queueId
    consumerId := c.consumerId
    consumerGeneration := c.consumerGeneration
    versionId := c.versionId
    executionGeneration := c.executionGeneration
    entrypoint := c.entrypoint
    messageCount := rows.length })
  let s ← rows.foldlM
    (claimRow nowMs ⟨entry.2, c.consumerId, c.consumerGeneration⟩) s
  return (acc.1 ++ [claimedBatch c entry.2 rows], s)

def claimQueueBatches (s : Store) (nowMs : Millis) (maxBatches : Nat)
    (afterQueueId : Option QueueId) (ids : List QueueBatchId) :
    Result (List ClaimedQueueBatch × Store) := do
  ensure (maxBatches ≠ 0) consumerInvariant
  ((s.eligibleConsumers nowMs maxBatches afterQueueId).zip ids).foldlM
    (claimConsumer nowMs) ([], s)

/-! ## Moves to a dead-letter Queue -/

def Store.dlqAccepts (s : Store) (target : QueueId × Nat) (bodyLen : Nat) : Bool :=
  (s.queues.find? target.1).any fun q =>
    q.lifecycleGeneration = target.2 && q.state = .accepting &&
      q.messageBytes + bodyLen ≤ q.config.val.maxBacklogBytes

def dlqRow (m : MessageRow) (target : QueueId × Nat) (nowMs expiresAtMs : Millis)
    (hexpires : nowMs < expiresAtMs) : MessageRow :=
  { id := m.id
    queueId := target.1
    queueGeneration := target.2
    enqueuedAtMs := nowMs
    availableAtMs := nowMs
    expiresAtMs := expiresAtMs
    contentType := m.contentType
    body := m.body
    attempts := 0
    claim := none
    available_ge := le_refl nowMs
    expires_gt := hexpires }

@[simp]
theorem dlqRow_id (m : MessageRow) (target : QueueId × Nat)
    (nowMs expiresAtMs : Millis) (hexpires : nowMs < expiresAtMs) :
    (dlqRow m target nowMs expiresAtMs hexpires).id = m.id :=
  rfl

def Store.insertDlqMessage (s : Store) (m : MessageRow) (target : QueueId × Nat)
    (nowMs : Millis) : Result Store := do
  let q ← mapErr Scheduler.mapSqlError (okOr (s.queues.find? target.1) .noRows)
  ensure (q.lifecycleGeneration = target.2 ∧ q.state = .accepting)
    (Scheduler.mapSqlError .noRows)
  let expiresAtMs ← okOr (checkedAdd nowMs (q.config.val.retentionSeconds * 1000))
    consumerInvariant
  if hexpires : nowMs < expiresAtMs then
    mapErr Scheduler.mapSqlError
      (s.insertMessage (dlqRow m target nowMs expiresAtMs hexpires))
  else
    throw (Scheduler.mapSqlError .constraint)

/-! ## Completion -/

inductive QueueCompletionAction where
  | ack
  | retry (delaySeconds : Nat)
deriving DecidableEq, Repr

structure QueueCompletionDecision where
  messageId : QueueMessageId
  action : QueueCompletionAction
deriving DecidableEq, Repr

structure QueueCompletionSummary where
  acknowledged : Nat := 0
  retried : Nat := 0
  deadLettered : Nat := 0
  dlqPending : Nat := 0
  discarded : Nat := 0
  stale : Bool := false
deriving DecidableEq, Repr

def ClaimedQueueBatch.claim (batch : ClaimedQueueBatch) : Claim :=
  ⟨batch.id, batch.consumerId, batch.consumerGeneration⟩

def Store.claimedMessages (s : Store) (batch : ClaimedQueueBatch) : Result (List MessageRow) :=
  mapMessages (s.messages.rows.filter (fun m => m.claim = some batch.claim))

def Store.claimedRow (s : Store) (batch : ClaimedQueueBatch) (m : MessageRow) :
    Result MessageRow := do
  let row ← okOr (s.messages.find? m.id) consumerInvariant
  ensure (row.claim = some batch.claim) consumerInvariant
  return row

def Store.retryMessage (s : Store) (batch : ClaimedQueueBatch) (m : MessageRow)
    (attempts : Nat) (nowMs : Millis) (delaySeconds : Nat) : Result Store := do
  let availableAtMs ← okOr (checkedAdd nowMs (delaySeconds * 1000)) consumerInvariant
  let row ← s.claimedRow batch m
  mapErr Scheduler.mapSqlError (s.releaseMessage row attempts availableAtMs)

def Store.deleteClaimedMessage (s : Store) (batch : ClaimedQueueBatch)
    (m : MessageRow) : Result Store := do
  let row ← s.claimedRow batch m
  mapErr Scheduler.mapSqlError (s.deleteMessage row)

theorem nextAttempt_pos (attempts : Nat) : 0 < nextAttempt attempts := by
  unfold nextAttempt u16Max
  omega

def pendingRow (m : MessageRow) (source : QueueId) (target : QueueId × Nat)
    (terminalAttempts : Nat) (nextAttemptAtMs : Millis)
    (hterminal : 0 < terminalAttempts) (hsource : source ≠ target.1) :
    DlqPendingRow :=
  { messageId := m.id
    sourceQueueId := source
    targetQueueId := target.1
    targetQueueGeneration := target.2
    terminalAttempts := terminalAttempts
    nextAttemptAtMs := nextAttemptAtMs
    terminal_pos := hterminal
    source_ne := hsource }

@[simp]
theorem pendingRow_messageId (m : MessageRow) (source : QueueId)
    (target : QueueId × Nat) (terminalAttempts : Nat) (nextAttemptAtMs : Millis)
    (hterminal : 0 < terminalAttempts) (hsource : source ≠ target.1) :
    (pendingRow m source target terminalAttempts nextAttemptAtMs hterminal
      hsource).messageId = m.id :=
  rfl

/-- A terminal message that its target does not admit becomes ready and pending. -/
def Store.deferToPending (s : Store) (batch : ClaimedQueueBatch) (m : MessageRow)
    (target : QueueId × Nat) (nowMs : Millis) : Result Store := do
  let s ← s.retryMessage batch m (nextAttempt m.attempts) nowMs 0
  let nextAttemptAtMs ← addMs nowMs 1000
  if hsource : batch.queueId ≠ target.1 then
    mapErr Scheduler.mapSqlError (s.insertPending (pendingRow m batch.queueId target
      (nextAttempt m.attempts) nextAttemptAtMs (nextAttempt_pos m.attempts) hsource))
  else
    throw (Scheduler.mapSqlError .constraint)

/-- `decision_map.get`. -/
def decisionFor (decisions : List QueueCompletionDecision) (id : QueueMessageId) :
    Option QueueCompletionAction :=
  (decisions.find? (fun d => d.messageId = id)).map QueueCompletionDecision.action

/-- One message of `complete_queue_batch`. -/
def completeMessage (batch : ClaimedQueueBatch)
    (decisions : List QueueCompletionDecision) (nowMs : Millis)
    (acc : QueueCompletionSummary × Store) (m : MessageRow) :
    Result (QueueCompletionSummary × Store) := do
  let (summary, s) := acc
  match ← okOr (decisionFor decisions m.id) dispositionInvalid with
  | .ack =>
    let s ← s.deleteClaimedMessage batch m
    return ({ summary with acknowledged := summary.acknowledged + 1 }, s)
  | .retry delaySeconds =>
    let delivery := nextAttempt m.attempts
    if m.expiresAtMs ≤ nowMs then
      let s ← s.deleteClaimedMessage batch m
      return ({ summary with discarded := summary.discarded + 1 }, s)
    else if delivery ≤ batch.maxRetries then
      let s ← s.retryMessage batch m delivery nowMs delaySeconds
      return ({ summary with retried := summary.retried + 1 }, s)
    else
      match batch.deadLetterQueue with
      | some target =>
        if s.dlqAccepts target m.bodyBytes then
          let s ← s.deleteClaimedMessage batch m
          let s ← s.insertDlqMessage m target nowMs
          return ({ summary with deadLettered := summary.deadLettered + 1 }, s)
        else
          let s ← s.deferToPending batch m target nowMs
          return ({ summary with dlqPending := summary.dlqPending + 1 }, s)
      | none =>
        let s ← s.deleteClaimedMessage batch m
        return ({ summary with discarded := summary.discarded + 1 }, s)

def DecisionsMatch (batch : ClaimedQueueBatch)
    (decisions : List QueueCompletionDecision) : Prop :=
  decisions.length = batch.messages.length ∧
  (decisions.map QueueCompletionDecision.messageId).Nodup ∧
  (forall d, d ∈ decisions -> d.messageId ∈ batch.messages.map ClaimedQueueMessage.id) ∧
  (forall m, m ∈ batch.messages -> m.id ∈ decisions.map QueueCompletionDecision.messageId)

instance (batch : ClaimedQueueBatch) (decisions : List QueueCompletionDecision) :
    Decidable (DecisionsMatch batch decisions) := by
  unfold DecisionsMatch
  infer_instance

def QueueCompletionAction.delayOk : QueueCompletionAction -> Bool
  | .ack => true
  | .retry delaySeconds => delaySeconds ≤ 86400

def completeQueueBatch (s : Store) (batch : ClaimedQueueBatch)
    (decisions : List QueueCompletionDecision) (nowMs : Millis) :
    Result (QueueCompletionSummary × Store) := do
  ensure (DecisionsMatch batch decisions) dispositionInvalid
  ensure (decisions.all (fun d => d.action.delayOk))
    ⟨.queueRetryDelayInvalid, "Queue retry delay is outside 0..86400"⟩
  if s.ownsClaim batch.claim = false then
    return ({ stale := true }, s)
  let messages ← s.claimedMessages batch
  ensure (messages.length = decisions.length) consumerInvariant
  let (summary, s) ← messages.foldlM (completeMessage batch decisions nowMs) ({}, s)
  -- The row was found above under the same identity and generation.
  ensure (s.ownsClaim batch.claim) consumerInvariant
  let s ← mapErr Scheduler.mapSqlError (s.deleteBatch batch.id)
  return (summary, s)

/-! ## Dead-letter forwarding -/

structure QueueDlqForwardSummary where
  moved : Nat := 0
  expired : Nat := 0
  deferred : Nat := 0
deriving DecidableEq, Repr

/-- The due rows of the pending lane by `next_attempt_at_ms, message_id`. -/
def Store.duePending (s : Store) (nowMs : Millis) (limit : Nat) :
    List DlqPendingRow :=
  ((s.pending.rows.filter (fun p => p.nextAttemptAtMs ≤ nowMs)
    ).insertionSort fun p r =>
      KeyLe (p.nextAttemptAtMs, p.messageId) (r.nextAttemptAtMs, r.messageId)
    ).take limit

def Store.readyMessageById (s : Store) (id : QueueMessageId) : Result MessageRow := do
  let m ← mapErr Scheduler.mapSqlError (okOr (s.messages.find? id) .noRows)
  ensure (m.claim = none ∧ m.attempts ≤ u16Max) (Scheduler.mapSqlError .noRows)
  return m

/-- One row of `forward_queue_dlq_pending`. -/
def forwardPending (nowMs : Millis) (retryBackoffMs : Nat)
    (acc : QueueDlqForwardSummary × Store) (id : QueueMessageId) :
    Result (QueueDlqForwardSummary × Store) := do
  let (summary, s) := acc
  let p ← mapErr Scheduler.mapSqlError (okOr (s.pending.find? id) .noRows)
  let m ← s.readyMessageById id
  if m.expiresAtMs ≤ nowMs then
    let s ← mapErr Scheduler.mapSqlError ((s.deletePending id).deleteMessage m)
    return ({ summary with expired := summary.expired + 1 }, s)
  let target := (p.targetQueueId, p.targetQueueGeneration)
  if s.dlqAccepts target m.bodyBytes then
    let s ← mapErr Scheduler.mapSqlError (s.deleteMessage m)
    let s ← s.insertDlqMessage m target nowMs
    return ({ summary with moved := summary.moved + 1 }, s.deletePending id)
  else
    let nextAttemptAtMs ← addMs nowMs retryBackoffMs
    let s := { s with
      pending := s.pending.replace { p with nextAttemptAtMs := nextAttemptAtMs } }
    return ({ summary with deferred := summary.deferred + 1 }, s)

def forwardQueueDlqPending (s : Store) (nowMs : Millis) (retryBackoffMs : Nat)
    (limit : Nat) : Result (QueueDlqForwardSummary × Store) := do
  ensure (limit ≠ 0) consumerInvariant
  ((s.duePending nowMs limit).map DlqPendingRow.messageId).foldlM
    (forwardPending nowMs retryBackoffMs) ({}, s)

/-!
## Restart recovery

The statements of `reset_claims.sql` that touch the Queue tables, in their
order.  They run when the process starts, under the consumers stored by then.
-/

/-- The first `UPDATE`: a claimed message becomes ready after one more attempt. -/
def resetMessage (nowMs : Millis) (s : Store) (m : MessageRow) :
    Except SqlError Store :=
  s.releaseMessage m (m.attempts + 1) (max m.enqueuedAtMs (nowMs + 250))

def Store.resetMessages (s : Store) (nowMs : Millis) : Except SqlError Store :=
  (s.messages.rows.filter (fun m => m.claim ≠ none)).foldlM (resetMessage nowMs) s

def Store.deleteBatches (s : Store) : Except SqlError Store :=
  (s.batches.rows.map DeliveryBatchRow.id).foldlM deleteBatch s

/-- The consumer of the Queue of a ready message whose attempts exceed its limit. -/
def Store.exhaustedBy (s : Store) (m : MessageRow) : Option ConsumerRow :=
  if m.claim = none then
    (s.consumers.find? m.queueId).filter
      (fun c => c.config.maxRetries < m.attempts)
  else
    none

/--
`INSERT OR IGNORE INTO queue_dlq_pending`: a message that is pending already is
skipped, but the guard trigger runs before the conflict is noticed.
-/
def resetPending (nowMs : Millis) (s : Store) (m : MessageRow) :
    Except SqlError Store :=
  match s.exhaustedBy m with
  | none => .ok s
  | some c =>
    match c.deadLetterQueue with
    | none => .ok s
    | some target =>
      if hrow : 0 < m.attempts ∧ m.queueId ≠ target.1 then
        let p := pendingRow m m.queueId target m.attempts (nowMs + 250)
          hrow.left hrow.right
        if (s.pending.find? m.id).isSome then do
          ensure (s.PendingAuthority p)
            (.abort "queue DLQ pending authority invariant")
          return s
        else
          s.insertPending p
      else
        .ok s

/-- The row that `resetPending` leaves for a message. -/
def recoverLane (s : Store) (nowMs : Millis) (row : MessageRow)
    (lane : Option DlqPendingRow) : Option DlqPendingRow :=
  match (s.exhaustedBy row).bind ConsumerRow.deadLetterQueue with
  | none => lane
  | some target =>
    if hrow : 0 < row.attempts ∧ row.queueId ≠ target.1 then
      lane.or (some (pendingRow row row.queueId target row.attempts
        (nowMs + 250) hrow.left hrow.right))
    else
      lane

/-- The last `DELETE`: an exhausted message without a dead-letter Queue. -/
def resetDiscard (s : Store) (m : MessageRow) : Except SqlError Store :=
  match s.exhaustedBy m with
  | some c => if c.deadLetterQueue = none then s.deleteMessage m else .ok s
  | none => .ok s

def resetClaimsTx (s : Store) (nowMs : Millis) : Except SqlError Store := do
  let s ← s.resetMessages nowMs
  let s ← s.deleteBatches
  let s ← s.messages.rows.foldlM (resetPending nowMs) s
  s.messages.rows.foldlM resetDiscard s

def resetClaims (s : Store) (nowMs : Millis) (cronMaxRetries : Nat) : Result Store := do
  ensure (cronMaxRetries ≤ 3 ∧ (checkedAdd nowMs 250).isSome) Scheduler.invalid
  mapErr Scheduler.mapSqlError (resetClaimsTx s nowMs)

end Queue
end OpenCompute
