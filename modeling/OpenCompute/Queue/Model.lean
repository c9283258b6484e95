import OpenCompute.Platform
import OpenCompute.Relational.Table

/-!
# Rows of the Queue store

The tables `queue_state`, `queue_messages`, `queue_enqueue_operations`,
`queue_consumer_state`, `queue_delivery_batches` and `queue_dlq_pending`, one
structure for the rows of each.  A `CHECK` over the columns of one row is a
proof field of its structure.  The order of the rows of `queue_messages` is
the order of their `seq`, and `body_bytes` is the length of the body.  A `u64`
of a request that is hashed carries its bound.
-/

namespace OpenCompute
namespace Queue

open Relational

abbrev QueueId := Uuid
abbrev QueueMessageId := Uuid
abbrev QueueBatchId := Uuid
abbrev QueueConsumerId := Uuid
abbrev WorkerId := Uuid
abbrev VersionId := Uuid
abbrev RequestId := Uuid

/-! ## Queue configuration -/

def queueMaxMessageBytes : Nat := 128000
def queueMaxBatchMessages : Nat := 100
def queueMaxBatchBytes : Nat := 256000
def queueMaxDelaySeconds : Nat := 86400
def queueMinRetentionSeconds : Nat := 60
def queueMaxRetentionSeconds : Nat := 1209600
def queueConsumerMaxBatchSize : Nat := 100

structure QueueConfig where
  deliveryDelaySeconds : Nat
  retentionSeconds : Nat
  maxMessageBytes : Nat
  maxBatchMessages : Nat
  maxBatchBytes : Nat
  maxBacklogBytes : Nat
deriving DecidableEq, Repr

namespace QueueConfig

def Valid (config : QueueConfig) : Prop :=
  config.deliveryDelaySeconds ≤ queueMaxDelaySeconds ∧
  queueMinRetentionSeconds ≤ config.retentionSeconds ∧
  config.retentionSeconds ≤ queueMaxRetentionSeconds ∧
  0 < config.maxMessageBytes ∧
  config.maxMessageBytes ≤ queueMaxMessageBytes ∧
  0 < config.maxBatchMessages ∧
  config.maxBatchMessages ≤ queueMaxBatchMessages ∧
  0 < config.maxBatchBytes ∧
  config.maxBatchBytes ≤ queueMaxBatchBytes ∧
  0 < config.maxBacklogBytes

instance (config : QueueConfig) : Decidable config.Valid := by
  unfold Valid
  infer_instance

def validate (config : QueueConfig) : Result { c : QueueConfig // c.Valid } :=
  if hvalid : config.Valid then
    .ok ⟨config, hvalid⟩
  else
    .error ⟨.limitInvalid, "Queue configuration is outside the supported bounds"⟩

end QueueConfig

/-- A configuration that passed `validate`; only these are ever stored. -/
abbrev ValidConfig := { config : QueueConfig // config.Valid }

inductive SchedulerQueueState where
  | accepting
  | configuring
  | deleting
deriving DecidableEq, Repr

structure QueueStateRow where
  queueId : QueueId
  lifecycleGeneration : Nat
  configGeneration : Nat
  state : SchedulerQueueState
  config : ValidConfig
  messageCount : Nat
  messageBytes : Nat
deriving DecidableEq, Repr

/-! ## Messages -/

inductive QueueContentType where
  | json
  | text
  | bytes
  | v8
deriving DecidableEq, Repr

structure Claim where
  claimBatchId : QueueBatchId
  consumerId : QueueConsumerId
  consumerGeneration : Nat
deriving DecidableEq, Repr

structure MessageRow where
  id : QueueMessageId
  queueId : QueueId
  queueGeneration : Nat
  enqueuedAtMs : Millis
  availableAtMs : Millis
  expiresAtMs : Millis
  contentType : QueueContentType
  body : List UInt8
  attempts : Nat
  /-- The state column is `ready` when this is `none`, else `claimed`. -/
  claim : Option Claim
  available_ge : enqueuedAtMs ≤ availableAtMs
  expires_gt : enqueuedAtMs < expiresAtMs
deriving DecidableEq, Repr

namespace MessageRow

def bodyBytes (m : MessageRow) : Nat := m.body.length

def Ready (m : MessageRow) : Prop := m.claim = none

instance (m : MessageRow) : Decidable m.Ready :=
  inferInstanceAs (Decidable (m.claim = none))

end MessageRow

/-! ## Consumers, batches and the dead-letter lane -/

inductive QueueConsumerState where
  | active
  | paused
deriving DecidableEq, Repr

/-- A delivery policy: the bounded columns of a consumer declaration. -/
structure QueueConsumerConfig where
  maxBatchSize : Nat
  maxBatchTimeoutMs : Nat
  maxRetries : Nat
  retryDelaySeconds : Nat
  maxConcurrency : Nat
  batch_pos : 1 ≤ maxBatchSize := by decide
  batch_le : maxBatchSize ≤ queueConsumerMaxBatchSize := by decide
  timeout_le : maxBatchTimeoutMs ≤ 60000 := by decide
  retries_le : maxRetries ≤ 100 := by decide
  delay_le : retryDelaySeconds ≤ queueMaxDelaySeconds := by decide
  concurrency_pos : 1 ≤ maxConcurrency := by decide
deriving DecidableEq, Repr

structure ConsumerRow where
  consumerId : QueueConsumerId
  queueId : QueueId
  consumerGeneration : Nat
  versionId : VersionId
  workerId : WorkerId
  executionGeneration : Nat
  entrypoint : Option String
  state : QueueConsumerState
  config : QueueConsumerConfig
  deadLetterQueue : Option (QueueId × Nat)
  dlq_ne : forall target, deadLetterQueue = some target -> target.1 ≠ queueId
deriving DecidableEq, Repr

structure QueueConsumerDeclaration where
  id : QueueConsumerId
  versionId : VersionId
  queueId : QueueId
  entrypoint : Option String
  config : QueueConsumerConfig
  deadLetterQueue : Option (QueueId × Nat)
  dlq_ne : forall target, deadLetterQueue = some target -> target.1 ≠ queueId
deriving DecidableEq, Repr

structure DeliveryBatchRow where
  id : QueueBatchId
  queueId : QueueId
  consumerId : QueueConsumerId
  consumerGeneration : Nat
  versionId : VersionId
  executionGeneration : Nat
  entrypoint : Option String
  messageCount : Nat
deriving DecidableEq, Repr

structure DlqPendingRow where
  messageId : QueueMessageId
  sourceQueueId : QueueId
  targetQueueId : QueueId
  targetQueueGeneration : Nat
  terminalAttempts : Nat
  nextAttemptAtMs : Millis
  terminal_pos : 0 < terminalAttempts
  source_ne : sourceQueueId ≠ targetQueueId
deriving DecidableEq, Repr

/-! ## Producer requests and their receipts -/

structure QueueMessageInput where
  contentType : QueueContentType
  body : List UInt8
  delaySeconds : Option Nat
deriving DecidableEq, Repr

structure QueueEnqueueRequest where
  queueId : QueueId
  requestId : RequestId
  outputGate : Bool
  lifecycleGeneration : Nat
  configGeneration : Nat
  batchDelaySeconds : Option Nat
  messages : List QueueMessageInput
  lifecycle_lt : lifecycleGeneration < 2 ^ 64 := by decide
  config_lt : configGeneration < 2 ^ 64 := by decide
deriving DecidableEq, Repr

structure QueueMetrics where
  backlogCount : Nat
  backlogBytes : Nat
  oldestMessageTimestampMs : Option Millis
deriving DecidableEq, Repr

structure QueueEnqueueResult where
  messageIds : List QueueMessageId
  metrics : QueueMetrics
deriving DecidableEq, Repr

abbrev Digest := BitVec 256

/-- `response_json` is kept as the result it encodes. -/
structure EnqueueOperationRow where
  requestId : RequestId
  queueId : QueueId
  queueGeneration : Nat
  fingerprint : Digest
  response : QueueEnqueueResult
  outputGate : Bool
  retentionSeconds : Nat
  createdAtMs : Millis
  finalizedAtMs : Option Millis
  expiresAtMs : Option Millis
deriving DecidableEq, Repr

/-! ## The store -/

structure Store where
  queues : Table QueueStateRow.queueId
  messages : Table MessageRow.id
  operations : Table EnqueueOperationRow.requestId
  consumers : Table ConsumerRow.queueId
  batches : Table DeliveryBatchRow.id
  pending : Table DlqPendingRow.messageId
deriving DecidableEq

namespace Store

def empty : Store :=
  ⟨Table.empty, Table.empty, Table.empty, Table.empty, Table.empty, Table.empty⟩

end Store
end Queue
end OpenCompute
