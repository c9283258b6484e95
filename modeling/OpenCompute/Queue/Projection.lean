import OpenCompute.Queue.Producer

/-!
# Queue projections and consumer attachments

The rows of `queue_state` follow the control plane: they are created, fenced
while a configuration changes, fenced for deletion and deleted.  The rows of
`queue_consumer_state` are replaced when a Worker version is promoted and
edited through the consumer API.
-/

namespace OpenCompute
namespace Queue

open Relational Transaction

structure QueueProjection where
  queueId : QueueId
  lifecycleGeneration : Nat
  configGeneration : Nat
  config : QueueConfig
deriving DecidableEq, Repr

/-! ## Creation -/

def projectedRow (projection : QueueProjection) (config : ValidConfig) :
    QueueStateRow :=
  { queueId := projection.queueId
    lifecycleGeneration := projection.lifecycleGeneration
    configGeneration := projection.configGeneration
    state := .accepting
    config := config
    messageCount := 0
    messageBytes := 0 }

def createQueueProjection (s : Store) (projection : QueueProjection) : Result Store := do
  let config ← projection.config.validate
  ensure (projection.lifecycleGeneration ≠ 0 ∧ projection.configGeneration ≠ 0)
    queueInvariant
  let queues ← okOr (s.queues.insert? (projectedRow projection config))
    queueInvariant
  return { s with queues := queues }

def verifyQueueProjection (s : Store) (projection : QueueProjection) : Result Unit :=
  ensure ((s.queues.find? projection.queueId).any fun q =>
      q.lifecycleGeneration = projection.lifecycleGeneration ∧
      q.configGeneration = projection.configGeneration ∧
      q.state = .accepting ∧ q.config.val = projection.config)
    queueInvariant

/-- `INSERT OR IGNORE`, which also skips a row that fails a `CHECK`; then the
projection must be there exactly. -/
def ensureQueueProjection (s : Store) (projection : QueueProjection) : Result Store := do
  let config ← projection.config.validate
  let s := if projection.lifecycleGeneration ≠ 0 ∧ projection.configGeneration ≠ 0 then
      match s.queues.insert? (projectedRow projection config) with
      | some queues => { s with queues := queues }
      | none => s
    else s
  verifyQueueProjection s projection
  return s

/-! ## Configuration changes -/

def queueConfigFence : PlatformError :=
  ⟨.queueConfigPending, "Queue config fence could not be installed"⟩

/-- An `UPDATE` of the row of one Queue that must match exactly one row. -/
def Store.updateQueue (s : Store) (queueId : QueueId)
    (matching : QueueStateRow -> Bool) (edit : QueueStateRow -> QueueStateRow)
    (e : PlatformError) : Result Store := do
  let q ← okOr (s.queues.find? queueId) e
  ensure (matching q = true) e
  return { s with queues := s.queues.replace (edit q) }

def beginQueueConfig (s : Store) (queueId : QueueId)
    (lifecycleGeneration configGeneration : Nat) : Result Store :=
  s.updateQueue queueId
    (fun q => q.lifecycleGeneration = lifecycleGeneration ∧
      q.configGeneration = configGeneration ∧ q.state ≠ .deleting)
    (fun q => { q with state := .configuring }) queueConfigFence

def projectQueueConfig (s : Store) (projection : QueueProjection) : Result Store := do
  let config ← projection.config.validate
  ensure (projection.configGeneration ≠ 0) queueInvariant
  s.updateQueue projection.queueId
    (fun q => q.lifecycleGeneration = projection.lifecycleGeneration ∧
      q.configGeneration = projection.configGeneration - 1 ∧
      q.state = .configuring)
    (fun q => { q with
      configGeneration := projection.configGeneration
      config := config })
    queueInvariant

def reconcileQueueConfig (s : Store) (projection : QueueProjection) : Result Store := do
  let config ← projection.config.validate
  ensure (projection.configGeneration ≠ 0) queueInvariant
  let q ← okOr (s.queues.find? projection.queueId) queueInvariant
  ensure (q.lifecycleGeneration = projection.lifecycleGeneration ∧
    q.state ≠ .deleting) queueInvariant
  if q.configGeneration = projection.configGeneration - 1 then
    return { s with queues := s.queues.replace { q with
      configGeneration := projection.configGeneration
      state := .configuring
      config := config } }
  ensure (q.configGeneration = projection.configGeneration ∧
    q.config.val = projection.config) queueInvariant
  return s

def finishQueueConfig (s : Store) (queueId : QueueId)
    (lifecycleGeneration configGeneration : Nat) : Result Store :=
  s.updateQueue queueId
    (fun q => q.lifecycleGeneration = lifecycleGeneration ∧
      q.configGeneration = configGeneration ∧ q.state ≠ .deleting)
    (fun q => { q with state := .accepting }) queueInvariant

/-! ## Deletion -/

def fenceQueueDelete (s : Store) (queueId : QueueId)
    (lifecycleGeneration : Nat) : Result (QueueMetrics × Store) := do
  let s ← s.updateQueue queueId
    (fun q => q.lifecycleGeneration = lifecycleGeneration)
    (fun q => { q with state := .deleting }) queueInvariant
  let metrics ← s.metrics queueId
  return (metrics, s)

/--
Two statements outside a transaction: the receipts of the Queue go even when
its row stays, so the store after a failure is returned as well.
-/
def deleteQueueProjection (s : Store) (queueId : QueueId)
    (lifecycleGeneration : Nat) : Store × Result Unit :=
  let s := s.deleteQueueOperations queueId
  match s.queues.find? queueId with
  | none => (s, .ok ())
  | some q =>
    if q.lifecycleGeneration = lifecycleGeneration ∧ q.state = .deleting ∧
        q.messageCount = 0 ∧ q.messageBytes = 0 then
      match mapErr Scheduler.mapSqlError (s.deleteQueue q) with
      | .ok t => (t, .ok ())
      | .error e => (s, .error e)
    else
      (s, .error queueInvariant)

/-! ## Consumer attachments

A row of `queue_consumer_state` is an attachment of `queue_consumers` joined
with the declaration it names, so the attachments are not kept apart from it.
-/

/-- The row that `insert_scheduler_targets_tx` projects for an attachment. -/
def schedulerTarget (worker : WorkerId) (routeGeneration : Nat)
    (consumerId : QueueConsumerId) (consumerGeneration : Nat)
    (state : QueueConsumerState) (d : QueueConsumerDeclaration) : ConsumerRow :=
  { consumerId := consumerId
    queueId := d.queueId
    consumerGeneration := consumerGeneration
    versionId := d.versionId
    workerId := worker
    executionGeneration := routeGeneration
    entrypoint := d.entrypoint
    state := state
    config := d.config
    deadLetterQueue := d.deadLetterQueue
    dlq_ne := d.dlq_ne }

/-- A retained attachment keeps its identity and pause state in the next generation. -/
def Store.attach (s : Store) (worker : WorkerId) (routeGeneration : Nat)
    (deliveryPaused : QueueId -> Bool) (freshId : QueueConsumerId)
    (d : QueueConsumerDeclaration) : ConsumerRow :=
  match s.consumers.find? d.queueId with
  | some c =>
    schedulerTarget worker routeGeneration c.consumerId
      (c.consumerGeneration + 1) c.state d
  | none =>
    schedulerTarget worker routeGeneration freshId 1
      (if deliveryPaused d.queueId then .paused else .active) d

def promotionFailed : PlatformError :=
  ⟨.versionInvariantViolation, "Queue/Cron deployment replacement failed"⟩

/-- `replace_products`: the consumers of a Worker become those its version declares. -/
def replaceProducts (s : Store) (worker : WorkerId) (routeGeneration : Nat)
    (deliveryPaused : QueueId -> Bool)
    (declarations : List QueueConsumerDeclaration) : Result Store := do
  ensure (declarations.all fun d => (s.consumers.find? d.queueId).all
      (fun c => c.workerId = worker))
    ⟨.queueConsumerConflict, "Queue already has a live consumer owned by another Worker"⟩
  let targets := declarations.map fun d => s.attach worker routeGeneration deliveryPaused d.id d
  let s := { s with
    consumers := s.consumers.filter (fun c => c.workerId ≠ worker) }
  targets.foldlM
    (fun s target => mapErr (fun _ => promotionFailed) (s.insertConsumer target)) s

def consumerControlInvariant : PlatformError :=
  ⟨.queueInvariantViolation, "Queue consumer control invariant failed"⟩

def upsertAttachment (s : Store) (worker : WorkerId) (routeGeneration : Nat)
    (deliveryPaused : QueueId -> Bool) (freshId : QueueConsumerId)
    (d : QueueConsumerDeclaration) : Result Store :=
  let target := s.attach worker routeGeneration deliveryPaused freshId d
  let s := { s with
    consumers := s.consumers.filter (fun c => c.consumerId ≠ target.consumerId) }
  mapErr (fun _ => consumerControlInvariant) (s.insertConsumer target)

def deleteConsumer (s : Store) (id : QueueConsumerId) : Store :=
  { s with consumers := s.consumers.filter (fun c => c.consumerId ≠ id) }

/-- `pause` and `resume` act on the exact generation of an attachment. -/
def setConsumerState (s : Store) (id : QueueConsumerId) (generation : Nat)
    (state : QueueConsumerState) : Store :=
  match s.consumers.rows.find? (fun c => c.consumerId = id &&
      c.consumerGeneration = generation) with
  | some c => { s with consumers := s.consumers.replace { c with state := state } }
  | none => s

end Queue
end OpenCompute
