import OpenCompute.Queue.Consumer

/-!
# What one message goes through

The bodies of the loops of completion, forwarding and recovery, inverted once:
each outcome that a message can have, with the checks that led to it and the
writes that were made.
-/

namespace OpenCompute
namespace Queue

open Relational Table Transaction

variable {s t : Store} {m : MessageRow} {nowMs : Millis} {batch : ClaimedQueueBatch}
  {target : QueueId × Nat} {id : QueueMessageId}

theorem insertDlqMessage_eq_ok :
    s.insertDlqMessage m target nowMs = .ok t ↔ exists q, s.queues.find? target.1 = some q ∧
        (q.lifecycleGeneration = target.2 ∧ q.state = .accepting) ∧
        exists expiresAtMs, checkedAdd nowMs (q.config.val.retentionSeconds * 1000) =
            some expiresAtMs ∧
          exists hexpires : nowMs < expiresAtMs,
            s.insertMessage (dlqRow m target nowMs expiresAtMs hexpires) = .ok t := by
  unfold Store.insertDlqMessage
  simp only [ok_iff, mapErr_eq_ok]
  constructor
  · intro hok
    rcases hok with ⟨q, hq, haccepts, expiresAtMs, hadd, hinsert⟩
    split at hinsert
    · rename_i hexpires
      exact ⟨q, hq, haccepts, expiresAtMs, hadd, hexpires, mapErr_eq_ok.mp hinsert⟩
    · cases hinsert
  · intro hok
    rcases hok with ⟨q, hq, haccepts, expiresAtMs, hadd, hexpires, hinsert⟩
    refine ⟨q, hq, haccepts, expiresAtMs, hadd, ?_⟩
    rw [dif_pos hexpires]
    exact mapErr_eq_ok.mpr hinsert

theorem claimedRow_eq_ok {row : MessageRow} : s.claimedRow batch m = .ok row ↔
      s.messages.find? m.id = some row ∧ row.claim = some batch.claim := by
  simp only [Store.claimedRow, ok_iff]
  constructor
  · intro hok
    rcases hok with ⟨_, hfind, hclaim, rfl⟩
    exact ⟨hfind, hclaim⟩
  · intro hok
    exact ⟨row, hok.left, hok.right, rfl⟩

/-! ## Completion -/

/-- The outcome of one message of a completed batch; `row` is its stored row. -/
inductive Completion (batch : ClaimedQueueBatch) (action : QueueCompletionAction)
    (nowMs : Millis) (s : Store) (m row : MessageRow) : Store -> Prop where
  | acknowledged {t : Store} :
      action = .ack -> s.deleteMessage row = .ok t ->
      Completion batch action nowMs s m row t
  | expired {t : Store} {delaySeconds : Nat} :
      action = .retry delaySeconds -> m.expiresAtMs ≤ nowMs ->
      s.deleteMessage row = .ok t ->
      Completion batch action nowMs s m row t
  | retried {t : Store} {delaySeconds : Nat} {availableAtMs : Millis} :
      action = .retry delaySeconds -> nowMs < m.expiresAtMs ->
      nextAttempt m.attempts ≤ batch.maxRetries ->
      checkedAdd nowMs (delaySeconds * 1000) = some availableAtMs ->
      s.releaseMessage row (nextAttempt m.attempts) availableAtMs = .ok t ->
      Completion batch action nowMs s m row t
  | deadLettered {t u : Store} {delaySeconds : Nat} {target : QueueId × Nat} :
      action = .retry delaySeconds -> nowMs < m.expiresAtMs ->
      batch.maxRetries < nextAttempt m.attempts ->
      batch.deadLetterQueue = some target ->
      s.dlqAccepts target m.bodyBytes = true ->
      s.deleteMessage row = .ok u -> u.insertDlqMessage m target nowMs = .ok t ->
      Completion batch action nowMs s m row t
  | deferred {t u : Store} {delaySeconds : Nat} {target : QueueId × Nat}
      {availableAtMs nextAttemptAtMs : Millis}
      (hsource : batch.queueId ≠ target.1) :
      action = .retry delaySeconds -> nowMs < m.expiresAtMs ->
      batch.maxRetries < nextAttempt m.attempts ->
      batch.deadLetterQueue = some target ->
      s.dlqAccepts target m.bodyBytes = false ->
      checkedAdd nowMs ((0 : Nat) * 1000) = some availableAtMs ->
      s.releaseMessage row (nextAttempt m.attempts) availableAtMs = .ok u ->
      addMs nowMs 1000 = .ok nextAttemptAtMs ->
      u.insertPending (pendingRow m batch.queueId target (nextAttempt m.attempts)
        nextAttemptAtMs (nextAttempt_pos m.attempts) hsource) = .ok t ->
      Completion batch action nowMs s m row t
  | discarded {t : Store} {delaySeconds : Nat} :
      action = .retry delaySeconds -> nowMs < m.expiresAtMs ->
      batch.maxRetries < nextAttempt m.attempts -> batch.deadLetterQueue = none ->
      s.deleteMessage row = .ok t ->
      Completion batch action nowMs s m row t

theorem deleteClaimedMessage_eq_ok :
    s.deleteClaimedMessage batch m = .ok t ↔ exists row, (s.messages.find? m.id = some row ∧
        row.claim = some batch.claim) ∧ s.deleteMessage row = .ok t := by
  simp only [Store.deleteClaimedMessage, ok_iff, claimedRow_eq_ok, mapErr_eq_ok]

theorem retryMessage_eq_ok {attempts : Nat} {delaySeconds : Nat} :
    s.retryMessage batch m attempts nowMs delaySeconds = .ok t ↔
      exists row, (s.messages.find? m.id = some row ∧ row.claim = some batch.claim) ∧
        exists availableAtMs, checkedAdd nowMs (delaySeconds * 1000) = some availableAtMs ∧
          s.releaseMessage row attempts availableAtMs = .ok t := by
  simp only [Store.retryMessage, ok_iff, claimedRow_eq_ok, mapErr_eq_ok]
  constructor
  · intro hok
    rcases hok with ⟨available, hadd, row, hrow, hrelease⟩
    exact ⟨row, hrow, available, hadd, hrelease⟩
  · intro hok
    rcases hok with ⟨row, hrow, available, hadd, hrelease⟩
    exact ⟨available, hadd, row, hrow, hrelease⟩

theorem deferToPending_eq_ok : s.deferToPending batch m target nowMs = .ok t ↔
      exists u, s.retryMessage batch m (nextAttempt m.attempts) nowMs 0 = .ok u ∧
        exists nextAttemptAtMs, addMs nowMs 1000 = .ok nextAttemptAtMs ∧
        exists hsource : batch.queueId ≠ target.1,
          u.insertPending (pendingRow m batch.queueId target
            (nextAttempt m.attempts) nextAttemptAtMs (nextAttempt_pos m.attempts)
            hsource) = .ok t := by
  simp only [Store.deferToPending, ok_iff]
  refine exists_congr fun u => and_congr_right fun _ =>
    exists_congr fun nextAttemptAtMs => and_congr_right fun _ => ?_
  split
  · rename_i hsource
    simp [hsource]
  · rename_i hsource
    simp [hsource]

theorem completeMessage_inv {decisions : List QueueCompletionDecision}
    {acc : QueueCompletionSummary × Store} {result : QueueCompletionSummary × Store}
    (hok : completeMessage batch decisions nowMs acc m = .ok result) :
    exists action row, decisionFor decisions m.id = some action ∧
      acc.2.messages.find? m.id = some row ∧ row.claim = some batch.claim ∧
      Completion batch action nowMs acc.2 m row result.2 := by
  unfold completeMessage at hok
  simp only [ok_iff] at hok
  rcases hok with ⟨action, haction, hok⟩
  cases action with
  | ack =>
    simp only [ok_iff, deleteClaimedMessage_eq_ok] at hok
    rcases hok with ⟨t, ⟨row, hrow, hdelete⟩, rfl⟩
    exact ⟨_, row, haction, hrow.left, hrow.right, .acknowledged rfl hdelete⟩
  | retry delaySeconds =>
    simp only [ok_iff, ite_eq_iff, deleteClaimedMessage_eq_ok, retryMessage_eq_ok, not_le] at hok
    rcases hok with ⟨hexpired, t, ⟨row, hrow, hdelete⟩, rfl⟩ |
      ⟨hlive, ⟨hretry, t, ⟨row, hrow, available, hadd, hrelease⟩, rfl⟩ | ⟨hterminal, hok⟩⟩
    · exact ⟨_, row, haction, hrow.left, hrow.right, .expired rfl hexpired hdelete⟩
    · exact ⟨_, row, haction, hrow.left, hrow.right, .retried rfl hlive hretry hadd hrelease⟩
    · split at hok
      · rename_i htarget
        simp only [ok_iff, ite_eq_iff, deleteClaimedMessage_eq_ok, deferToPending_eq_ok,
          retryMessage_eq_ok] at hok
        rcases hok with ⟨haccepts, u, ⟨row, hrow, hdelete⟩, t, hinsert, rfl⟩ |
          ⟨hfull, t, ⟨u, ⟨row, hrow, available, hadd, hrelease⟩, next, hnext, hsource,
            hpending⟩, rfl⟩
        · exact ⟨_, row, haction, hrow.left, hrow.right,
            .deadLettered rfl hlive hterminal htarget haccepts hdelete hinsert⟩
        · exact ⟨_, row, haction, hrow.left, hrow.right, .deferred hsource rfl hlive hterminal
            htarget (Bool.eq_false_iff.mpr hfull) hadd hrelease hnext hpending⟩
      · rename_i htarget
        simp only [ok_iff, deleteClaimedMessage_eq_ok] at hok
        rcases hok with ⟨_, ⟨row, hrow, hdelete⟩, rfl⟩
        exact ⟨_, row, haction, hrow.left, hrow.right,
          .discarded rfl hlive hterminal htarget hdelete⟩

/-! ## Forwarding -/

/-- The outcome of one row of the dead-letter lane; `m` is the message it holds. -/
inductive Forwarding (nowMs : Millis) (retryBackoffMs : Nat) (s : Store)
    (p : DlqPendingRow) (m : MessageRow) : Store -> Prop where
  | expired {t : Store} :
      m.expiresAtMs ≤ nowMs -> (s.deletePending m.id).deleteMessage m = .ok t ->
      Forwarding nowMs retryBackoffMs s p m t
  | moved {t u : Store} :
      nowMs < m.expiresAtMs ->
      s.dlqAccepts (p.targetQueueId, p.targetQueueGeneration) m.bodyBytes = true ->
      s.deleteMessage m = .ok u ->
      u.insertDlqMessage m (p.targetQueueId, p.targetQueueGeneration) nowMs = .ok t ->
      Forwarding nowMs retryBackoffMs s p m (t.deletePending m.id)
  | postponed {nextAttemptAtMs : Millis} :
      nowMs < m.expiresAtMs ->
      s.dlqAccepts (p.targetQueueId, p.targetQueueGeneration) m.bodyBytes = false ->
      addMs nowMs retryBackoffMs = .ok nextAttemptAtMs ->
      Forwarding nowMs retryBackoffMs s p m { s with
        pending := s.pending.replace { p with nextAttemptAtMs := nextAttemptAtMs } }

theorem readyMessageById_eq_ok : s.readyMessageById id = .ok m ↔
      s.messages.find? id = some m ∧ m.claim = none ∧ m.attempts ≤ u16Max := by
  simp only [Store.readyMessageById, ok_iff, mapErr_eq_ok]
  constructor
  · intro hok
    rcases hok with ⟨_, hfind, hready, rfl⟩
    exact ⟨hfind, hready⟩
  · intro hok
    exact ⟨m, hok.left, hok.right, rfl⟩

theorem forwardPending_inv {retryBackoffMs : Nat} {acc result : QueueDlqForwardSummary × Store}
    (hok : forwardPending nowMs retryBackoffMs acc id = .ok result) :
    exists p m, acc.2.pending.find? id = some p ∧
      acc.2.messages.find? id = some m ∧ m.claim = none ∧
      Forwarding nowMs retryBackoffMs acc.2 p m result.2 := by
  simp only [forwardPending, ok_iff, ite_eq_iff, mapErr_eq_ok, readyMessageById_eq_ok,
    not_le] at hok
  rcases hok with ⟨p, hp, m, ⟨hm, hready, _⟩, hok⟩
  have hid : m.id = id := key_of_find? hm
  refine ⟨p, m, hp, hm, hready, ?_⟩
  subst hid
  rcases hok with ⟨hexpired, t, hdelete, rfl⟩ |
    ⟨hlive, ⟨haccepts, u, hdelete, t, hinsert, rfl⟩ | ⟨hfull, next, hnext, rfl⟩⟩
  · exact .expired hexpired hdelete
  · exact .moved hlive haccepts hdelete hinsert
  · exact .postponed hlive (Bool.eq_false_iff.mpr hfull) hnext

/-! ## Recovery -/

theorem exhaustedBy_eq_some {c : ConsumerRow} :
    s.exhaustedBy m = some c ↔ m.claim = none ∧ s.consumers.find? m.queueId = some c ∧
        c.config.maxRetries < m.attempts := by
  unfold Store.exhaustedBy
  split
  · rename_i hready
    simp [hready, Option.filter_eq_some_iff]
  · rename_i hclaimed
    simp [hclaimed]

theorem exhaustedBy_terminal {c : ConsumerRow} {target : QueueId × Nat}
    (hexhausted : s.exhaustedBy m = some c) (hdlq : c.deadLetterQueue = some target) :
    0 < m.attempts ∧ m.queueId ≠ target.1 := by
  rcases exhaustedBy_eq_some.mp hexhausted with ⟨_, hconsumer, hattempts⟩
  have hqueue : c.queueId = m.queueId := key_of_find? hconsumer
  exact ⟨Nat.zero_lt_of_lt hattempts, hqueue ▸ (c.dlq_ne target hdlq).symm⟩

inductive ResetPending (nowMs : Millis) (s : Store) (m : MessageRow) :
    Store -> Prop where
  | skipped : ResetPending nowMs s m s
  | inserted {t : Store} {c : ConsumerRow} {target : QueueId × Nat}
      (hterminal : 0 < m.attempts) (hsource : m.queueId ≠ target.1) :
      s.exhaustedBy m = some c -> c.deadLetterQueue = some target ->
      s.insertPending (pendingRow m m.queueId target m.attempts (nowMs + 250)
        hterminal hsource) = .ok t ->
      ResetPending nowMs s m t

theorem resetPending_inv (hok : resetPending nowMs s m = .ok t) : ResetPending nowMs s m t := by
  unfold resetPending at hok
  split at hok
  · cases hok
    exact .skipped
  · rename_i hexhausted
    split at hok
    · cases hok
      exact .skipped
    · rename_i htarget
      split at hok
      · rename_i hrow
        split at hok
        · simp only [ok_iff] at hok
          rcases hok with ⟨_, rfl⟩
          exact .skipped
        · exact .inserted hrow.left hrow.right hexhausted htarget hok
      · cases hok
        exact .skipped

theorem resetDiscard_inv (hok : resetDiscard s m = .ok t) :
    t = s ∨ exists c, s.exhaustedBy m = some c ∧ c.deadLetterQueue = none ∧
      s.deleteMessage m = .ok t := by
  unfold resetDiscard at hok
  split at hok
  · rename_i c hexhausted
    split at hok
    · rename_i hdlq
      exact Or.inr ⟨c, hexhausted, hdlq, hok⟩
    · cases hok
      exact Or.inl rfl
  · cases hok
    exact Or.inl rfl

end Queue
end OpenCompute
