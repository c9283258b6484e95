import OpenCompute.Queue.Completion

/-!
# Dispositions

What a handler reports about its batch, and the decisions that the completion
of the batch is given.
-/

namespace OpenCompute
namespace Queue

open Relational Table Transaction Transition List

/-! ## Dispatch results -/

structure QueueRetryBatchResult where
  retry : Bool
  delaySeconds : Option Int

structure QueueRetryMessageResult where
  msgId : String
  delaySeconds : Option Int

structure QueueDispatchResult where
  outcome : String
  ackAll : Bool
  retryBatch : QueueRetryBatchResult
  explicitAcks : List String
  retryMessages : List QueueRetryMessageResult

def queueProtocolError : PlatformError :=
  ⟨.queueDispositionInvalid, "native Queue disposition is invalid"⟩

def dispatchOutcomes : List String :=
  ["ok", "exception", "canceled", "killSwitch", "daemonDown", "exceededCpu", "exceededMemory",
    "loadShed", "responseStreamDisconnected", "scriptNotFound", "internalError",
    "exceededWallTime", "aborted", "unknown"]

def delayInRange (delaySeconds : Option Int) : Bool :=
  delaySeconds.all fun value => 0 ≤ value && value ≤ 86400

def validateQueueDispatchResult (result : QueueDispatchResult) (messageCount : Nat) :
    Result QueueDispatchResult := do
  ensure (0 < messageCount ∧ messageCount ≤ 100 ∧
    result.explicitAcks.length ≤ messageCount ∧ result.retryMessages.length ≤ messageCount)
    queueProtocolError
  ensure (result.outcome ∈ dispatchOutcomes) queueProtocolError
  ensure (delayInRange result.retryBatch.delaySeconds ∧
    (forall r, r ∈ result.retryMessages -> r.msgId ≠ "" ∧ delayInRange r.delaySeconds) ∧
    forall id, id ∈ result.explicitAcks -> id ≠ "" ∧ id.utf8ByteSize ≤ 128) queueProtocolError
  return result

/-! ## Resolution -/

abbrev ClaimedQueueBatch.expected (batch : ClaimedQueueBatch) : List QueueMessageId :=
  batch.messages.map ClaimedQueueMessage.id

/-- What holds of every batch that a claim returns. -/
def ClaimedQueueBatch.Valid (batch : ClaimedQueueBatch) : Prop :=
  batch.expected.Nodup ∧ batch.retryDelaySeconds ≤ 86400

abbrev Entry := String × Result QueueCompletionAction

/-- The delay that is asked for, read into a `u32`, or the delay of the consumer. -/
def retryDelay (batch : ClaimedQueueBatch) : Option Int -> Result Nat
  | none => .ok batch.retryDelaySeconds
  | some value =>
    if 0 ≤ value ∧ value ≤ 4294967295 then .ok value.toNat else .error dispositionInvalid

def QueueDispatchResult.entries (result : QueueDispatchResult) (batch : ClaimedQueueBatch) :
    List Entry :=
  result.explicitAcks.map (fun text => (text, .ok .ack)) ++
    result.retryMessages.map fun r => (r.msgId, .retry <$> retryDelay batch r.delaySeconds)

section Resolution

variable (fromStr : String -> Option QueueMessageId) (batch : ClaimedQueueBatch)

/-- One round of the loops that fill `explicit`. -/
def recordAction (explicit : QueueMessageId -> Option QueueCompletionAction) (entry : Entry) :
    Result (QueueMessageId -> Option QueueCompletionAction) := do
  let id ← okOr (fromStr entry.1) dispositionInvalid
  let action ← entry.2
  ensure (id ∈ batch.expected ∧ explicit id = none) dispositionInvalid
  return Function.update explicit id (some action)

def QueueDispatchResult.batchAction (result : QueueDispatchResult) (batchDelay : Nat)
    (success : Bool) : QueueCompletionAction :=
  if result.retryBatch.retry then .retry batchDelay
  else if result.ackAll || success then .ack
  else .retry batch.retryDelaySeconds

def resolveQueueDisposition (result : QueueDispatchResult) (success : Bool) :
    Result (List QueueCompletionDecision) := do
  ensure (¬ (result.ackAll ∧ result.retryBatch.retry)) dispositionInvalid
  let explicit ← (result.entries batch).foldlM (recordAction fromStr batch) fun _ => none
  let batchDelay ← retryDelay batch result.retryBatch.delaySeconds
  return batch.messages.map fun message =>
    ⟨message.id, (explicit message.id).getD (result.batchAction batch batchDelay success)⟩

structure Consistent (result : QueueDispatchResult) : Prop where
  whole : ¬ (result.ackAll ∧ result.retryBatch.retry)
  distinct : ((result.entries batch).map fun entry => fromStr entry.1).Nodup
  members : forall entry, entry ∈ result.entries batch ->
    exists id, id ∈ batch.expected ∧ fromStr entry.1 = some id

/-- What is said of the message decides, else what is said of the batch, else the outcome. -/
def Precedence (result : QueueDispatchResult) (success : Bool) (d : QueueCompletionDecision) :
    Prop :=
  match (result.entries batch).find? fun entry => fromStr entry.1 = some d.messageId with
  | some entry => entry.2 = .ok d.action
  | none =>
    (result.retryBatch.retry -> exists delay,
      retryDelay batch result.retryBatch.delaySeconds = .ok delay ∧ d.action = .retry delay) ∧
    (result.ackAll -> d.action = .ack) ∧
    (¬ result.retryBatch.retry -> ¬ result.ackAll ->
      d.action = if success then .ack else .retry batch.retryDelaySeconds)

variable {fromStr batch} {f g : QueueMessageId -> Option QueueCompletionAction}
  {entries : List Entry} {result : QueueDispatchResult} {success : Bool} {delay : Nat}

theorem recordActions_eq_ok
    (hactions : forall entry, entry ∈ entries -> exists a, entry.2 = .ok a ∧ a.delayOk) :
    entries.foldlM (recordAction fromStr batch) f = .ok g ↔
      (entries.map fun entry => fromStr entry.1).Nodup ∧
      (forall entry, entry ∈ entries -> exists id,
        id ∈ batch.expected ∧ fromStr entry.1 = some id ∧ f id = none) ∧
      forall id, g id = match entries.find? fun entry => fromStr entry.1 = some id with
        | some entry => entry.2.toOption
        | none => f id := by
  induction entries generalizing f with
  | nil =>
    rw [foldlM_nil, pure_eq_ok]
    simp [funext_iff, eq_comm]
  | cons entry entries ih =>
    rcases hactions entry mem_cons_self with ⟨action, haction, _⟩
    have hrest := fun e he => hactions e (mem_cons_of_mem entry he)
    simp only [foldlM_cons_eq_ok, recordAction, ok_iff, ih hrest]
    constructor
    · rintro ⟨_, ⟨id, hid, _, haction', hmember, rfl⟩, hnodup, hnamed, hg⟩
      grind [Function.update_apply, Except.toOption]
    · rintro ⟨hnodup, hnamed, hg⟩
      rcases hnamed entry mem_cons_self with ⟨id, hmember, hid, hnone⟩
      refine ⟨_, ⟨id, hid, action, haction, ⟨hmember, hnone⟩, rfl⟩, ?_⟩
      grind [Function.update_apply, Except.toOption]

theorem resolveQueueDisposition_ok (hdefault : batch.retryDelaySeconds ≤ 86400)
    (hdelay : retryDelay batch result.retryBatch.delaySeconds = .ok delay) (hle : delay ≤ 86400)
    (hactions : forall entry, entry ∈ result.entries batch ->
      exists a, entry.2 = .ok a ∧ a.delayOk) :
    ((exists decisions, resolveQueueDisposition fromStr batch result success = .ok decisions) ↔
      Consistent fromStr batch result) ∧
    forall decisions, resolveQueueDisposition fromStr batch result success = .ok decisions ->
      decisions.map QueueCompletionDecision.messageId = batch.expected ∧
      forall d, d ∈ decisions -> Precedence fromStr batch result success d ∧ d.action.delayOk := by
  simp only [resolveQueueDisposition, ok_iff, recordActions_eq_ok hactions, hdelay, and_true]
  constructor
  · constructor
    · rintro ⟨_, hwhole, _, ⟨hdistinct, hmembers, _⟩, _⟩
      exact ⟨hwhole, hdistinct, hmembers⟩
    · rintro ⟨hwhole, hdistinct, hmembers⟩
      exact ⟨_, hwhole, _, ⟨hdistinct, hmembers, fun _ => rfl⟩, delay, rfl, rfl⟩
  · rintro _ ⟨hwhole, explicit, ⟨_, _, hexplicit⟩, _, ⟨⟩, rfl⟩
    refine ⟨by rw [map_map]; rfl, fun d hd => ?_⟩
    rcases mem_map.mp hd with ⟨m, _, rfl⟩
    simp only [Precedence, hexplicit]
    cases hfind : (result.entries batch).find? fun entry => fromStr entry.1 = some m.id with
    | some entry =>
      rcases hactions entry (mem_of_find?_eq_some hfind) with ⟨_, haction, hok⟩
      dsimp only
      rw [haction]
      exact ⟨rfl, hok⟩
    | none =>
      rw [QueueDispatchResult.batchAction, hdelay]
      grind [QueueCompletionAction.delayOk]

end Resolution

/-! ## Claimed batches -/

section Claimed

variable {env : Environment} {w : World} {batch : ClaimedQueueBatch}

theorem returned_batch (hreach : Reachable env w) (hbatch : batch ∈ w.returned) : batch.Valid := by
  rcases hreach with ⟨_, hrun⟩
  refine hrun.invariant (P := fun w => forall b, b ∈ w.returned -> b.Valid) ?_
    (forall_mem_nil _) batch hbatch
  intro w a v hw _ hnext b hb
  cases a
  case claim nowMs maxBatches after ids =>
    simp only [World.next, Option.ite_none_right_eq_some] at hnext
    rcases hnext with ⟨_, hnext⟩
    split at hnext <;> cases hnext
    rename_i hok
    rcases mem_append.mp hb with hb | hb
    · rcases claimQueueBatches_batches hok hb with ⟨c, _, _, _, hnodup, rfl⟩
      refine ⟨?_, c.config.delay_le⟩
      rw [ClaimedQueueBatch.expected, claimedBatch, map_map]
      exact hnodup
    · exact hw b hb
  all_goals
    rw [((next_records hnext).left (by simp)).left] at hb
    exact hw b hb

/-! ## Completion -/

def NotRefused (e : PlatformError) : Prop :=
  e.code ≠ .queueDispositionInvalid ∧ e.code ≠ .queueRetryDelayInvalid

@[simp]
theorem fails_mapErr {α : Type} {x : Except SqlError α} :
    Fails NotRefused (mapErr Scheduler.mapSqlError x) := by
  cases x with
  | ok a => exact fails_pure
  | error e => exact fails_throw.mpr ⟨nofun, nofun⟩

theorem completeQueueBatch_fails (hw : w.Ok env) (hbatch : batch ∈ w.returned)
    {decisions : List QueueCompletionDecision} (hmatch : DecisionsMatch batch decisions)
    (hdelays : decisions.all (fun d => d.action.delayOk) = true) (nowMs : Millis) :
    Fails NotRefused (completeQueueBatch w.store batch decisions nowMs) := by
  have hinvariant : NotRefused consumerInvariant := ⟨by decide, by decide⟩
  have hdecided : forall r, r ∈ w.store.batches -> r.id = batch.id ->
      forall m, m ∈ w.store.claimedRows batch -> decisionFor decisions m.id ≠ none := by
    intro r hr hid m hm
    rcases mem_claimedRows.mp hm with ⟨hstored, hclaim⟩
    have hmember : m.id ∈ batch.expected :=
      ((hw.inFlight.delivers batch hbatch (mem_keys.mpr ⟨r, hr, hid⟩)).right m.id).mpr
        ⟨m, find?_key hstored, hclaim⟩
    rcases mem_map.mp hmember with ⟨x, hx, hxid⟩
    rcases decisionFor_of_mem hdelays (hxid ▸ hmatch.right.right.right x hx) with
      ⟨action, haction, _⟩
    rw [haction]
    exact Option.some_ne_none action
  simp only [completeQueueBatch, Store.claimedMessages, mapMessages, fails_bind, fails_ensure,
    fails_ite, fails_pure, fails_mapErr, hmatch, hdelays, hinvariant, ok_iff, not_true_eq_false,
    false_implies, implies_true, true_and, and_true]
  rintro _ _ _ _ howned _ ⟨_, rfl⟩ _ _
  rcases ownsClaim_iff.mp (Bool.eq_true_of_not_eq_false howned) with ⟨r, hr, hid, _⟩
  refine fails_foldlM (fun m hm acc => ?_) _
  have hsql : forall e, NotRefused (Scheduler.mapSqlError e) :=
    fun _ => ⟨by rintro ⟨⟩, by rintro ⟨⟩⟩
  have hdelete : forall s : Store, Fails NotRefused (s.deleteClaimedMessage batch m) := by
    simp [Store.deleteClaimedMessage, Store.claimedRow, hinvariant]
  have hretry : forall (s : Store) attempts delaySeconds,
      Fails NotRefused (s.retryMessage batch m attempts nowMs delaySeconds) := by
    simp [Store.retryMessage, Store.claimedRow, hinvariant]
  rw [completeMessage, fails_bind, fails_okOr]
  refine ⟨fun hnone => absurd hnone (hdecided r hr hid m hm), fun action _ => ?_⟩
  cases action with
  | ack => simp [hdelete]
  | retry delaySeconds =>
    cases batch.deadLetterQueue <;>
      simp [Store.insertDlqMessage, Store.deferToPending, addMs, hinvariant, hsql, hdelete, hretry]

/-! ## The pipeline -/

variable {result : QueueDispatchResult}

theorem retryDelay_valid (hdefault : batch.retryDelaySeconds ≤ 86400) {delaySeconds : Option Int}
    (hrange : delayInRange delaySeconds = true) :
    exists delay, retryDelay batch delaySeconds = .ok delay ∧ delay ≤ 86400 := by
  cases delaySeconds with
  | none => exact ⟨_, rfl, hdefault⟩
  | some value =>
    simp only [delayInRange, Option.all_some, Bool.and_eq_true, decide_eq_true_eq] at hrange
    refine ⟨value.toNat, if_pos ⟨hrange.left, ?_⟩, ?_⟩ <;> omega

/--
A validated result is resolved exactly when it is consistent, into one decision for each
message of the batch, and the completion refuses neither the decisions nor their delays.
-/
theorem disposition_resolves (fromStr : String -> Option QueueMessageId)
    (hreach : Reachable env w) (hbatch : batch ∈ w.returned) (answer : QueueDispatchResult)
    (hvalid : validateQueueDispatchResult answer batch.messages.length = .ok result)
    (success : Bool) :
    ((exists decisions, resolveQueueDisposition fromStr batch result success = .ok decisions) ↔
      Consistent fromStr batch result) ∧
    forall decisions, resolveQueueDisposition fromStr batch result success = .ok decisions ->
      decisions.map QueueCompletionDecision.messageId = batch.expected ∧
      batch.expected.Nodup ∧
      (forall d, d ∈ decisions -> Precedence fromStr batch result success d) ∧
      forall nowMs, Fails NotRefused (completeQueueBatch w.store batch decisions nowMs) := by
  rcases returned_batch hreach hbatch with ⟨hnodup, hdefault⟩
  simp only [validateQueueDispatchResult, ok_iff] at hvalid
  rcases hvalid with ⟨_, _, ⟨hrange, hretries, _⟩, rfl⟩
  rcases retryDelay_valid hdefault hrange with ⟨delay, hdelay, hle⟩
  have hentries : forall entry, entry ∈ answer.entries batch ->
      exists action, entry.2 = .ok action ∧ action.delayOk = true := by
    intro entry hentry
    rcases List.mem_append.mp hentry with hack | hretry
    · rcases List.mem_map.mp hack with ⟨text, _, rfl⟩
      exact ⟨.ack, rfl, rfl⟩
    · rcases List.mem_map.mp hretry with ⟨r, hr, rfl⟩
      rcases retryDelay_valid hdefault (hretries r hr).right with ⟨delay, hdelay, hle⟩
      refine ⟨.retry delay, ?_, decide_eq_true hle⟩
      rw [hdelay]
      rfl
  rcases resolveQueueDisposition_ok hdefault hdelay hle hentries with ⟨hiff, hdecisions⟩
  refine ⟨hiff, fun decisions hresolve => ?_⟩
  rcases hdecisions decisions hresolve with ⟨hids, heach⟩
  refine ⟨hids, hnodup, fun d hd => (heach d hd).left, ?_⟩
  rcases hreach with ⟨actions, hrun⟩
  refine completeQueueBatch_fails (run_worldOk hrun (World.initial_ok env)) hbatch ?_
    (List.all_eq_true.mpr fun d hd => (heach d hd).right)
  refine ⟨?_, hids ▸ hnodup, ?_, ?_⟩
  · rw [← List.length_map QueueCompletionDecision.messageId, hids, List.length_map]
  · intro d hd
    rw [← ClaimedQueueBatch.expected, ← hids]
    exact List.mem_map_of_mem hd
  · exact fun m hm => hids ▸ List.mem_map_of_mem hm

end Claimed

def Sample.fromStr (text : String) : Option QueueMessageId :=
  if text = "a" then some 10 else none

theorem Sample.batch_returned : exists w, Reachable Sample.environment w ∧
    Sample.batch 1 none 10 [1, 2] ∈ w.returned :=
  exists_reachable Sample.deliveredActions (by decide +kernel)

theorem disposition_resolves_retry : exists w, Reachable Sample.environment w ∧
      forall nowMs, Fails NotRefused (completeQueueBatch w.store (Sample.batch 1 none 10 [1, 2])
        [⟨10, .retry 5⟩] nowMs) := by
  rcases Sample.batch_returned with ⟨w, hreach, hreturned⟩
  have hresolves := disposition_resolves Sample.fromStr hreach hreturned
    ⟨"ok", true, ⟨false, none⟩, [], [⟨"a", some 5⟩]⟩ rfl true
  exact ⟨w, hreach, (hresolves.right _ rfl).right.right.right⟩

theorem disposition_contradicts : exists w, Reachable Sample.environment w ∧
      Sample.batch 1 none 10 [1, 2] ∈ w.returned ∧
      exists result, validateQueueDispatchResult result 1 = .ok result ∧
        resolveQueueDisposition Sample.fromStr (Sample.batch 1 none 10 [1, 2]) result true =
          .error dispositionInvalid := by
  rcases Sample.batch_returned with ⟨w, hreach, hreturned⟩
  exact ⟨w, hreach, hreturned, ⟨"ok", false, ⟨false, none⟩, ["a"], [⟨"a", none⟩]⟩, rfl, rfl⟩

end Queue
end OpenCompute
