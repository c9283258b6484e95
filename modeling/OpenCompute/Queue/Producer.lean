import OpenCompute.Queue.Fingerprint
import OpenCompute.Queue.Writes

/-!
# Producer operations

`enqueue_queue` with its receipts, and the bounded deletions of retention and
purge.  The identifiers that a call generates are an argument of the call.
-/

namespace OpenCompute
namespace Queue

open Relational Transaction

/-! ## Errors -/

def queueLimit : PlatformError :=
  ⟨.queueBatchLimitExceeded, "Queue batch limit exceeded"⟩

def queueInvariant : PlatformError :=
  ⟨.queueInvariantViolation, "Queue scheduler invariant failed"⟩

def queueSqlError : SqlError -> PlatformError
  | .abort message =>
    if message = "queue message authority invariant" then
      ⟨.queueInvariantViolation, "Queue message authority rejected the write"⟩
    else
      ⟨.queueStorageUnavailable, "Queue storage operation failed"⟩
  | _ => ⟨.queueStorageUnavailable, "Queue storage operation failed"⟩

/-! ## Request validation -/

def validateDelay (delay : Option Nat) : Result Unit :=
  ensure (delay.all (fun value => value ≤ queueMaxDelaySeconds))
    ⟨.queueDelayInvalid, "Queue delay is outside 0..86400"⟩

/-- The loop of `validate_request`, with the bytes counted so far. -/
def validateMessages (total : Nat) :
    List QueueMessageInput -> Result Unit
  | [] => .ok ()
  | message :: rest => do
    validateDelay message.delaySeconds
    ensure (message.body.length ≤ queueMaxMessageBytes)
      ⟨.queueMessageTooLarge, "Queue message exceeds 128000 bytes"⟩
    ensure (total + message.body.length ≤ queueMaxBatchBytes) queueLimit
    validateMessages (total + message.body.length) rest

def validateRequest (request : QueueEnqueueRequest) : Result Unit := do
  ensure (request.lifecycleGeneration ≠ 0 ∧ request.configGeneration ≠ 0 ∧ request.messages ≠ [])
    ⟨.queueInvalidMessage, "Queue batch is empty or invalid"⟩
  ensure (request.messages.length ≤ queueMaxBatchMessages) queueLimit
  validateDelay request.batchDelaySeconds
  validateMessages 0 request.messages

def bodyTotal (messages : List QueueMessageInput) : Nat :=
  (messages.map (fun message => message.body.length)).sum

def validateDynamicLimits (request : QueueEnqueueRequest) (q : QueueStateRow) : Result Unit := do
  ensure (request.messages.length ≤ q.config.val.maxBatchMessages) queueLimit
  ensure (forall message, message ∈ request.messages ->
      message.body.length ≤ q.config.val.maxMessageBytes)
    ⟨.queueMessageTooLarge, "Queue message exceeds its configured limit"⟩
  ensure (bodyTotal request.messages ≤ q.config.val.maxBatchBytes) queueLimit

def checkedTimestamp (nowMs : Millis) (seconds : Nat) : Result Millis :=
  okOr (checkedAdd nowMs (seconds * 1000))
    ⟨.queueDelayInvalid, "Queue timestamp overflow"⟩

/-! ## Backlog metrics -/

def Store.metrics (s : Store) (queueId : QueueId) : Result QueueMetrics := do
  let q ← mapErr Scheduler.mapSqlError (okOr (s.queues.find? queueId) .noRows)
  let oldest := ((s.messages.rows.filter (fun m => m.queueId = queueId)).map
    MessageRow.enqueuedAtMs).min?
  ensure ((q.messageCount = 0) ↔ (oldest = none)) queueInvariant
  return ⟨q.messageCount, q.messageBytes, oldest⟩

/-! ## Enqueue -/

/-- `replay_enqueue`: the recorded result of a request that was accepted before. -/
def Store.replayEnqueue (s : Store) (request : QueueEnqueueRequest)
    (fingerprint : Digest) : Result (Option QueueEnqueueResult) :=
  match s.operations.find? request.requestId with
  | none => .ok none
  | some receipt =>
    if receipt.queueId = request.queueId ∧ receipt.queueGeneration = request.lifecycleGeneration ∧
        receipt.fingerprint = fingerprint then
      .ok (some receipt.response)
    else
      .error ⟨.idempotencyConflict,
        "Queue enqueue operation identity was reused with a different request"⟩

def enqueuedRow (request : QueueEnqueueRequest)
    (entry : QueueMessageInput × QueueMessageId)
    (nowMs availableAtMs expiresAtMs : Millis)
    (havailable : nowMs ≤ availableAtMs) (hexpires : nowMs < expiresAtMs) :
    MessageRow :=
  { id := entry.2
    queueId := request.queueId
    queueGeneration := request.lifecycleGeneration
    enqueuedAtMs := nowMs
    availableAtMs := availableAtMs
    expiresAtMs := expiresAtMs
    contentType := entry.1.contentType
    body := entry.1.body
    attempts := 0
    claim := none
    available_ge := havailable
    expires_gt := hexpires }

/-- The body of the insertion loop of `enqueue_queue`. -/
def enqueueMessage (request : QueueEnqueueRequest) (q : QueueStateRow)
    (nowMs expiresAtMs : Millis) (s : Store)
    (entry : QueueMessageInput × QueueMessageId) : Result Store := do
  let delay := (entry.1.delaySeconds.or request.batchDelaySeconds).getD
    q.config.val.deliveryDelaySeconds
  let availableAtMs ← checkedTimestamp nowMs delay
  if htimes : nowMs ≤ availableAtMs ∧ nowMs < expiresAtMs then
    mapErr queueSqlError (s.insertMessage (enqueuedRow request entry nowMs
      availableAtMs expiresAtMs htimes.left htimes.right))
  else
    throw (queueSqlError .constraint)

/-- `insert_enqueue_operation`: a gated operation has no lifetime until it is finalized. -/
def Store.insertOperation (s : Store) (request : QueueEnqueueRequest)
    (fingerprint : Digest) (response : QueueEnqueueResult)
    (retentionSeconds : Nat) (createdAtMs expiresAtMs : Millis) :
    Except SqlError Store := do
  let operations ← okOr (s.operations.insert? {
    requestId := request.requestId
    queueId := request.queueId
    queueGeneration := request.lifecycleGeneration
    fingerprint := fingerprint
    response := response
    outputGate := request.outputGate
    retentionSeconds := retentionSeconds
    createdAtMs := createdAtMs
    finalizedAtMs := if request.outputGate then none else some createdAtMs
    expiresAtMs := if request.outputGate then none else some expiresAtMs })
    .constraint
  return { s with operations := operations }

def ensureAccepting (q : QueueStateRow) : Result Unit :=
  match q.state with
  | .accepting => .ok ()
  | .configuring => .error ⟨.queueConfigPending, "Queue config projection is pending"⟩
  | .deleting => .error ⟨.queueNotReady, "Queue does not accept producer messages"⟩

/-- What `enqueue_queue` does once no receipt of the request is stored. -/
def acceptEnqueue (s : Store) (request : QueueEnqueueRequest)
    (fingerprint : Digest) (ids : List QueueMessageId) (nowMs : Millis) :
    Result (QueueEnqueueResult × Store) := do
  let q ← okOr (s.queues.find? request.queueId)
    ⟨.queueNotFound, "Queue projection was not found"⟩
  ensure (q.lifecycleGeneration = request.lifecycleGeneration ∧
    q.configGeneration = request.configGeneration) queueInvariant
  ensureAccepting q
  validateDynamicLimits request q
  ensure (q.messageBytes + bodyTotal request.messages ≤ q.config.val.maxBacklogBytes)
    ⟨.queueBacklogLimitExceeded, "Queue backlog byte limit would be exceeded"⟩
  let expiresAtMs ← checkedTimestamp nowMs q.config.val.retentionSeconds
  let s ← (request.messages.zip ids).foldlM
    (enqueueMessage request q nowMs expiresAtMs) s
  let metrics ← s.metrics request.queueId
  let response := ⟨ids, metrics⟩
  let s ← mapErr queueSqlError (s.insertOperation request fingerprint response
    q.config.val.retentionSeconds nowMs expiresAtMs)
  return (response, s)

def enqueueQueue (sha256 : List UInt8 -> Digest) (s : Store)
    (request : QueueEnqueueRequest) (ids : List QueueMessageId)
    (nowMs : Millis) : Result (QueueEnqueueResult × Store) := do
  validateRequest request
  let fingerprint := enqueueFingerprint sha256 request
  match ← s.replayEnqueue request fingerprint with
  | some replay => return (replay, s)
  | none => acceptEnqueue s request fingerprint ids nowMs

def finalizeQueueEnqueue (s : Store) (requestId : RequestId) (queueId : QueueId)
    (lifecycleGeneration : Nat) (nowMs : Millis) : Result Store := do
  match s.operations.find? requestId with
  | none => return s
  | some receipt =>
    ensure (receipt.queueId = queueId ∧ receipt.queueGeneration = lifecycleGeneration ∧
        receipt.outputGate = true)
      ⟨.idempotencyConflict, "Queue finalize operation identity does not match its enqueue"⟩
    match receipt.finalizedAtMs with
    | some _ => return s
    | none => do
      let expiresAtMs ← checkedTimestamp nowMs receipt.retentionSeconds
      return { s with operations := s.operations.replace { receipt with
        finalizedAtMs := some nowMs
        expiresAtMs := some expiresAtMs } }

/-! ## Bounded deletion -/

/-- `ORDER BY` over a timestamp and an identifier. -/
def KeyLe (a b : Millis × Uuid) : Prop :=
  a.1 < b.1 ∨ (a.1 = b.1 ∧ a.2 ≤ b.2)

instance : DecidableRel KeyLe := by
  intro a b
  unfold KeyLe
  infer_instance

/-- The candidate loop: rows are taken until the byte budget is spent. -/
def takeBytes (maxBytes : Nat) (output : List MessageRow) (bytes : Nat) :
    List MessageRow -> List MessageRow
  | [] => output
  | m :: rest =>
    if output ≠ [] ∧ bytes + m.bodyBytes > maxBytes then
      output
    else
      takeBytes maxBytes (output ++ [m]) (bytes + m.bodyBytes) rest

/-- `ORDER BY expires_at_ms, queue_id, seq` over the ready rows that match. -/
def Store.selectDeleteCandidates (s : Store) (queueId : Option QueueId)
    (expiresBefore : Option Millis) (maxRows maxBytes : Nat) :
    List MessageRow :=
  let ready := s.messages.rows.filter fun m => m.claim = none &&
    queueId.all (fun id => m.queueId = id) &&
    expiresBefore.all (fun bound => m.expiresAtMs ≤ bound)
  let ordered := ready.insertionSort fun m n =>
    KeyLe (m.expiresAtMs, m.queueId) (n.expiresAtMs, n.queueId)
  takeBytes maxBytes [] 0 (ordered.take maxRows)

structure QueueDeleteBatch where
  messages : Nat
  bytes : Nat
  nextExpiryAtMs : Option Millis
  expiredRemaining : Bool
deriving DecidableEq, Repr

def deleteCandidate (stillMatches : MessageRow -> Bool) (s : Store)
    (m : MessageRow) : Result Store :=
  let s := s.deletePending m.id
  match s.messages.find? m.id with
  | some row =>
    if row.claim = none ∧ stillMatches row then
      mapErr queueSqlError (s.deleteMessage row)
    else
      .error queueInvariant
  | none => .error queueInvariant

/-- `delete_expired_operations`: the oldest receipts that have expired. -/
def Store.deleteExpiredOperations (s : Store) (nowMs : Millis) (maxRows : Nat) :
    Store :=
  let expired := s.operations.rows.filter fun o =>
    o.expiresAtMs.any (fun expiry => expiry ≤ nowMs)
  let chosen := (expired.insertionSort fun o p =>
    KeyLe (o.expiresAtMs.getD 0, o.requestId)
      (p.expiresAtMs.getD 0, p.requestId)).take maxRows
  { s with operations := s.operations.filter fun o =>
      !chosen.any (fun c => c.requestId = o.requestId) }

/-- `delete_queue_operations`: a gated receipt waits for its finalization. -/
def Store.deleteQueueOperations (s : Store) (queueId : QueueId) : Store :=
  { s with operations := s.operations.filter fun o =>
      !(o.queueId = queueId && o.finalizedAtMs.isSome) }

def Store.nextExpiry (s : Store) : Option Millis :=
  ((s.messages.rows.filter (fun m => m.claim = none)).map
      MessageRow.expiresAtMs ++
    s.operations.rows.filterMap EnqueueOperationRow.expiresAtMs).min?

def sweepQueueRetention (s : Store) (nowMs : Millis) (maxRows maxBytes : Nat) :
    Result (QueueDeleteBatch × Store) := do
  ensure (maxRows ≠ 0 ∧ maxBytes ≠ 0)
    ⟨.limitInvalid, "Queue sweep budget is invalid"⟩
  let candidates := s.selectDeleteCandidates none (some nowMs) maxRows maxBytes
  let s ← candidates.foldlM
    (deleteCandidate (fun row => row.expiresAtMs ≤ nowMs)) s
  let s := s.deleteExpiredOperations nowMs maxRows
  return (⟨candidates.length, (candidates.map MessageRow.bodyBytes).sum, s.nextExpiry,
    s.messages.rows.any (fun m => m.claim = none && m.expiresAtMs ≤ nowMs) ||
    s.operations.rows.any (fun o => o.expiresAtMs.any (fun expiry => expiry ≤ nowMs))⟩, s)

def purgeQueue (s : Store) (queueId : QueueId) (maxRows maxBytes : Nat) :
    Result (QueueDeleteBatch × Store) := do
  ensure (maxRows ≠ 0 ∧ maxBytes ≠ 0)
    ⟨.limitInvalid, "Queue purge budget is invalid"⟩
  ensure ((s.queues.find? queueId).any (fun q => q.state = .deleting))
    queueInvariant
  let candidates := s.selectDeleteCandidates (some queueId) none maxRows maxBytes
  let s ← candidates.foldlM
    (deleteCandidate (fun row => row.queueId = queueId)) s
  let s := s.deleteQueueOperations queueId
  return (⟨candidates.length, (candidates.map MessageRow.bodyBytes).sum, s.nextExpiry,
    s.messages.rows.any (fun m => m.queueId = queueId) ||
    s.operations.rows.any (fun o => o.queueId = queueId)⟩, s)

end Queue
end OpenCompute
