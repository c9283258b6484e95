import OpenCompute.Queue.Projection
import OpenCompute.Queue.Consumer
import OpenCompute.Transition.Run

/-!
# The Queue store as a transition system

An action is one call of a store operation with all of its arguments, the
generated identifiers included.  An action that fails takes no step, because
its transaction rolls back.  Next to the store a world remembers what the
process was told: the identifiers it generated, the batches that claims
returned and the requests that were accepted.
-/

namespace OpenCompute
namespace Queue

open Relational Transaction Transition

/--
What the store is run with: the hash, and the lifecycle generations of the
control plane, which `queues_identity_update_guard` makes immutable.
-/
structure Environment where
  sha256 : List UInt8 -> Digest
  lifecycleGeneration : QueueId -> Nat

inductive Action where
  | create (projection : QueueProjection)
  | ensureProjection (projection : QueueProjection)
  | beginConfig (queueId : QueueId) (lifecycle config : Nat)
  | projectConfig (projection : QueueProjection)
  | reconcileConfig (projection : QueueProjection)
  | finishConfig (queueId : QueueId) (lifecycle config : Nat)
  | fenceDelete (queueId : QueueId) (lifecycle : Nat)
  | deleteProjection (queueId : QueueId) (lifecycle : Nat)
  | enqueue (request : QueueEnqueueRequest) (ids : List QueueMessageId)
      (nowMs : Millis)
  | finalizeEnqueue (requestId : RequestId) (queueId : QueueId)
      (lifecycle : Nat) (nowMs : Millis)
  | claim (nowMs : Millis) (maxBatches : Nat) (after : Option QueueId)
      (ids : List QueueBatchId)
  | complete (batch : ClaimedQueueBatch)
      (decisions : List QueueCompletionDecision) (nowMs : Millis)
  | forward (nowMs : Millis) (retryBackoffMs limit : Nat)
  | sweep (nowMs : Millis) (maxRows maxBytes : Nat)
  | purge (queueId : QueueId) (maxRows maxBytes : Nat)
  | promote (worker : WorkerId) (routeGeneration : Nat)
      (deliveryPaused : QueueId -> Bool)
      (declarations : List QueueConsumerDeclaration)
  | upsertConsumer (worker : WorkerId) (routeGeneration : Nat)
      (deliveryPaused : QueueId -> Bool) (freshId : QueueConsumerId)
      (declaration : QueueConsumerDeclaration)
  | deleteConsumer (id : QueueConsumerId)
  | setConsumerState (id : QueueConsumerId) (generation : Nat)
      (state : QueueConsumerState)
  | restart (nowMs : Millis) (cronMaxRetries : Nat)

structure World where
  store : Store
  messageIds : List QueueMessageId
  batchIds : List QueueBatchId
  returned : List ClaimedQueueBatch
  accepted : List (QueueEnqueueRequest × QueueEnqueueResult)

def World.initial : World := ⟨Store.empty, [], [], [], []⟩

/-! ## Steps -/

/-- The guard of `version_queue_consumers` on the dead-letter Queue it names. -/
def Declared (env : Environment) (d : QueueConsumerDeclaration) : Prop :=
  forall target, target ∈ d.deadLetterQueue -> target.2 = env.lifecycleGeneration target.1

instance (env : Environment) (d : QueueConsumerDeclaration) :
    Decidable (Declared env d) := by
  unfold Declared
  infer_instance

def World.setStore (w : World) (s : Store) : World := { w with store := s }

def World.after (w : World) (result : Result Store) : Option World :=
  match result with
  | .ok s => some (w.setStore s)
  | .error _ => none

def World.projects (env : Environment) (w : World) (projection : QueueProjection)
    (result : Result Store) : Option World :=
  if projection.lifecycleGeneration = env.lifecycleGeneration projection.queueId then
    w.after result
  else
    none

def World.next (env : Environment) (w : World) : Action -> Option World
  | .create projection => w.projects env projection (createQueueProjection w.store projection)
  | .ensureProjection projection =>
    w.projects env projection (ensureQueueProjection w.store projection)
  | .beginConfig queueId lifecycle config =>
    w.after (beginQueueConfig w.store queueId lifecycle config)
  | .projectConfig projection => w.after (projectQueueConfig w.store projection)
  | .reconcileConfig projection => w.after (reconcileQueueConfig w.store projection)
  | .finishConfig queueId lifecycle config =>
    w.after (finishQueueConfig w.store queueId lifecycle config)
  | .fenceDelete queueId lifecycle =>
    w.after (Prod.snd <$> fenceQueueDelete w.store queueId lifecycle)
  | .deleteProjection queueId lifecycle =>
    some (w.setStore (deleteQueueProjection w.store queueId lifecycle).1)
  | .enqueue request ids nowMs =>
    if Fresh ids w.messageIds ∧ ids.length = request.messages.length then
      match enqueueQueue env.sha256 w.store request ids nowMs with
      | .ok (result, s) =>
        some { w with
          store := s
          messageIds := ids ++ w.messageIds
          accepted := (request, result) :: w.accepted }
      | .error _ => none
    else
      none
  | .finalizeEnqueue requestId queueId lifecycle nowMs =>
    w.after (finalizeQueueEnqueue w.store requestId queueId lifecycle nowMs)
  | .claim nowMs maxBatches after ids =>
    if Fresh ids w.batchIds ∧ maxBatches ≤ ids.length then
      match claimQueueBatches w.store nowMs maxBatches after ids with
      | .ok (batches, s) =>
        some { w with
          store := s
          batchIds := ids ++ w.batchIds
          returned := batches ++ w.returned }
      | .error _ => none
    else
      none
  | .complete batch decisions nowMs =>
    if batch ∈ w.returned then
      w.after (Prod.snd <$> completeQueueBatch w.store batch decisions nowMs)
    else
      none
  | .forward nowMs retryBackoffMs limit =>
    w.after (Prod.snd <$>
      forwardQueueDlqPending w.store nowMs retryBackoffMs limit)
  | .sweep nowMs maxRows maxBytes =>
    w.after (Prod.snd <$> sweepQueueRetention w.store nowMs maxRows maxBytes)
  | .purge queueId maxRows maxBytes =>
    w.after (Prod.snd <$> purgeQueue w.store queueId maxRows maxBytes)
  | .promote worker routeGeneration deliveryPaused declarations =>
    -- A version declares each Queue once.
    if (declarations.map QueueConsumerDeclaration.queueId).Nodup ∧
        forall d, d ∈ declarations -> Declared env d then
      w.after (replaceProducts w.store worker routeGeneration deliveryPaused
        declarations)
    else
      none
  | .upsertConsumer worker routeGeneration deliveryPaused freshId declaration =>
    if Declared env declaration then
      w.after (upsertAttachment w.store worker routeGeneration deliveryPaused
        freshId declaration)
    else
      none
  | .deleteConsumer id => some (w.setStore (deleteConsumer w.store id))
  | .setConsumerState id generation state =>
    some (w.setStore (setConsumerState w.store id generation state))
  | .restart nowMs cronMaxRetries => w.after (resetClaims w.store nowMs cronMaxRetries)

def Reachable (env : Environment) (w : World) : Prop :=
  exists actions, Run (World.next env) always World.initial actions w

theorem exists_reachable {env : Environment} {P : World -> Prop} (actions : List Action)
    (hexec : exists w, w ∈ execute (World.next env) always World.initial actions ∧ P w) :
    exists w, Reachable env w ∧ P w := by
  rcases exists_run_of_execute hexec with ⟨w, hrun, hP⟩
  exact ⟨w, ⟨actions, hrun⟩, hP⟩

/-!
## A deployment in miniature

A few Queues with one Worker, for the concrete runs that show that a condition
can be met or cannot be dropped.
-/

namespace Sample

def environment : Environment := ⟨fun _ => 0, fun _ => 1⟩

def createQueue (id : QueueId) (maxMessageBytes maxBacklogBytes : Nat) : Action :=
  .create ⟨id, 1, 1, ⟨0, 60, maxMessageBytes, 100, 1000, maxBacklogBytes⟩⟩

def consumer (maxRetries : Nat) (deadLetterQueue : Option (QueueId × Nat))
    (hretries : maxRetries ≤ 100 := by decide)
    (hdlq : forall target, deadLetterQueue = some target -> target.1 ≠ 1 := by simp) :
    QueueConsumerDeclaration :=
  { id := 1
    versionId := 1
    queueId := 1
    entrypoint := none
    config := {
      maxBatchSize := 1
      maxBatchTimeoutMs := 0
      maxRetries := maxRetries
      retryDelaySeconds := 0
      maxConcurrency := 1
      retries_le := hretries }
    deadLetterQueue := deadLetterQueue
    dlq_ne := hdlq }

def promote (declaration : QueueConsumerDeclaration) : Action :=
  .promote 1 1 (fun _ => false) [declaration]

def request (queueId : QueueId) (requestId : RequestId) (body : List UInt8) :
    QueueEnqueueRequest :=
  { queueId := queueId
    requestId := requestId
    outputGate := false
    lifecycleGeneration := 1
    configGeneration := 1
    batchDelaySeconds := none
    messages := [⟨.bytes, body, none⟩] }

def batch (maxRetries : Nat) (deadLetterQueue : Option (QueueId × Nat))
    (id : QueueMessageId) (body : List UInt8) : ClaimedQueueBatch :=
  { id := 1
    queueId := 1
    consumerId := 1
    consumerGeneration := 1
    versionId := 1
    workerId := 1
    executionGeneration := 1
    entrypoint := none
    maxRetries := maxRetries
    deadLetterQueue := deadLetterQueue
    retryDelaySeconds := 0
    messages := [⟨id, 0, 1, .bytes, body⟩] }

/-- A message of two bytes fails its only delivery and its target is too small for it. -/
def pendingActions : List Action :=
  [createQueue 1 10 10, createQueue 2 10 1, promote (consumer 0 (some (2, 1))),
    .enqueue (request 1 1 [1, 2]) [10] 0, .claim 0 1 none [1],
    .complete (batch 0 (some (2, 1)) 10 [1, 2]) [⟨10, .retry 0⟩] 0]

def deliveredActions : List Action :=
  [createQueue 1 10 10, promote (consumer 1 none),
    .enqueue (request 1 1 [1, 2]) [10] 0, .claim 0 1 none [1]]

def retry : Action := .complete (batch 1 none 10 [1, 2]) [⟨10, .retry 0⟩] 0

def retriedActions : List Action := deliveredActions ++ [retry]

def lastMinute : List Action :=
  [.create ⟨1, 1, 1, ⟨30, 60, 10, 100, 1000, 10⟩⟩, promote { consumer 0 none with
      config := {
        maxBatchSize := 10
        maxBatchTimeoutMs := 60000
        maxRetries := 0
        retryDelaySeconds := 0
        maxConcurrency := 1 } },
    .enqueue (request 1 1 [1, 2]) [10] (i64Max - 60000)]

end Sample

end Queue
end OpenCompute
