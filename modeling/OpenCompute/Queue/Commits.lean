import OpenCompute.Queue.Cells

/-!
# Writes that commit

The guards of a write hold whenever the store is intact and the write is asked
of a stored row.  Restart recovery consists of such writes only and therefore
never aborts.
-/

namespace OpenCompute
namespace Queue

open Relational Table Transaction Option

variable {env : Environment} {s t : Store}

/-! ## Single writes -/

namespace Store.Ok

theorem queue_of_key {queueId : QueueId} (hs : s.Ok env) (hkey : queueId ∈ s.queues.keys) :
    exists q, s.queues.find? queueId = some q ∧ q ∈ s.queues ∧ q.queueId = queueId ∧
      q.lifecycleGeneration = env.lifecycleGeneration queueId := by
  rcases exists_find?_iff_keys.mpr hkey with ⟨q, hq⟩
  have hfound := find?_eq_some.mp hq
  refine ⟨q, hq, hfound.left, hfound.right, ?_⟩
  rw [hs.generation q hfound.left, hfound.right]

variable {m : MessageRow} {p : DlqPendingRow}

theorem deleteMessage_commits (hs : s.Ok env) (hm : m ∈ s.messages) :
    exists t, s.deleteMessage m = .ok t := by
  rcases hs.queue_of_key (hs.message_queue m hm) with ⟨q, hq, hmem, hid, _⟩
  have hcounters := hs.counters q hmem
  rw [total_erase hm, total_erase hm, if_pos hid.symm, if_pos hid.symm] at hcounters
  have howned : forall c, m.claim = some c -> s.ownsClaim c = true := by
    intro c hclaim
    rcases holdsClaim_iff.mp (hs.claim_held m c hm hclaim) with ⟨b, hb, hbatch, _, hconsumer⟩
    exact ownsClaim_iff.mpr ⟨b, hb, hbatch, hconsumer⟩
  have hbounds : 1 ≤ q.messageCount ∧ m.bodyBytes ≤ q.messageBytes := by omega
  exact ⟨_, Store.deleteMessage_eq_ok.mpr ⟨howned, q, hq, hbounds, rfl⟩⟩

theorem releaseMessage_commits {c : Claim} {attempts : Nat} {availableAtMs : Millis} (hs : s.Ok env)
    (hm : m ∈ s.messages) (hclaim : m.claim = some c)
    (hattempts : m.attempts ≤ attempts ∧ attempts ≤ m.attempts + 1)
    (havailable : m.enqueuedAtMs ≤ availableAtMs) :
    exists t, s.releaseMessage m attempts availableAtMs = .ok t :=
  ⟨_, Store.releaseMessage_eq_ok.mpr ⟨c, hclaim,
    ⟨hattempts.left, hattempts.right, hs.claim_held m c hm hclaim⟩,
    havailable, rfl⟩⟩

theorem pendingAuthority (hs : s.Ok env) (hm : m ∈ s.messages) (hready : m.claim = none)
    (hrow : p.messageId = m.id ∧ m.queueId = p.sourceQueueId ∧ m.attempts = p.terminalAttempts)
    (htarget : p.targetQueueId ∈ s.queues.keys ∧
      p.targetQueueGeneration = env.lifecycleGeneration p.targetQueueId) :
    s.PendingAuthority p := by
  rcases hrow with ⟨hid, hsource, hattempts⟩
  rcases hs.queue_of_key htarget.left with ⟨q, hq, _, _, hgeneration⟩
  apply Store.pendingAuthority_iff.mpr
  constructor
  · rw [hid]
    exact ⟨m, find?_key hm, hsource, hready, hattempts⟩
  · exact ⟨q, hq, hgeneration.trans htarget.right.symm⟩

theorem insertPending_commits (hs : s.Ok env) (hm : m ∈ s.messages)
    (hauthority : s.PendingAuthority p) (hsource : m.queueId = p.sourceQueueId)
    (hfree : ¬ p.messageId ∈ s.pending.keys) : exists t, s.insertPending p = .ok t := by
  rcases hs.queue_of_key (hs.message_queue m hm) with ⟨q, hq, _⟩
  rw [hsource] at hq
  rcases exists_insert? hfree with ⟨pending, hinsert⟩
  exact ⟨_, Store.insertPending_eq_ok.mpr ⟨hauthority, ⟨q, hq⟩, pending, hinsert, rfl⟩⟩

end Store.Ok

/-! ## Restart recovery -/

theorem resetMessages_total (nowMs : Millis) (hs : s.Ok env) :
    exists t, s.resetMessages nowMs = .ok t := by
  have hloop : exists t, s.resetMessages nowMs = .ok t ∧ t.Ok env := by
    refine foldlM_rows_total Store.messages (fun a => a.Ok env) ?_ (messages_ids_nodup _ _)
      (fun m hm => (List.mem_filter.mp hm).left) hs
    intro m a hclaimed hm ha
    have hsome := of_decide_eq_true (List.mem_filter.mp hclaimed).right
    rcases ne_none_iff_exists'.mp hsome with ⟨_, hclaim⟩
    rcases ha.releaseMessage_commits hm hclaim ⟨Nat.le_succ m.attempts, le_refl _⟩
      (le_max_left m.enqueuedAtMs (nowMs + 250)) with ⟨b, hb⟩
    exact ⟨b, hb, ha.releaseMessage hm hb, fun n hne hn => resetMessage_frame hb hne hn⟩
  exact hloop.imp fun _ ht => ht.left

theorem deleteBatches_total (hready : forall m, m ∈ s.messages -> m.claim = none) :
    exists t, s.deleteBatches = .ok t := by
  have hbody : forall id (ids : List QueueBatchId) (a : Store),
      (forall m, m ∈ a.messages -> m.claim = none) ->
      exists b, a.deleteBatch id = .ok b ∧ forall m, m ∈ b.messages -> m.claim = none := by
    intro id _ a ha
    refine ⟨_, Store.deleteBatch_eq_ok.mpr ⟨?_, rfl⟩, ha⟩
    intro m c hm hclaim
    rw [ha m hm] at hclaim
    cases hclaim
  rcases foldlM_total (fun _ (a : Store) => forall m, m ∈ a.messages -> m.claim = none)
    hbody hready with ⟨t, ht, _⟩
  exact ⟨t, ht⟩

variable {m : MessageRow}

theorem resetPending_commits (nowMs : Millis) (hs : s.Ok env) (hm : m ∈ s.messages) :
    exists t, resetPending nowMs s m = .ok t := by
  unfold resetPending
  cases hexhausted : s.exhaustedBy m with
  | none => exact ⟨s, rfl⟩
  | some c =>
    cases hdlq : c.deadLetterQueue with
    | none => exact ⟨s, by simp only [hdlq]⟩
    | some target =>
      have hrow := exhaustedBy_terminal hexhausted hdlq
      rcases exhaustedBy_eq_some.mp hexhausted with ⟨hready, hconsumer, _⟩
      have htarget := hs.consumer_dlq c target (mem_of_find? hconsumer) hdlq
      have hauthority : s.PendingAuthority (pendingRow m m.queueId target
          m.attempts (nowMs + 250) hrow.left hrow.right) :=
        hs.pendingAuthority hm hready ⟨rfl, rfl, rfl⟩ htarget
      simp only [hdlq, dif_pos hrow]
      by_cases hpending : (s.pending.find? m.id).isSome = true
      · refine ⟨s, ?_⟩
        rw [if_pos hpending, bind_eq_ok]
        exact ⟨(), ensure_eq_ok.mpr hauthority, rfl⟩
      · rw [if_neg hpending]
        apply hs.insertPending_commits hm hauthority rfl
        exact find?_eq_none_iff_keys.mp (not_isSome_iff_eq_none.mp hpending)

theorem resetDiscard_commits (hs : s.Ok env) (hm : m ∈ s.messages) :
    exists t, resetDiscard s m = .ok t := by
  rw [resetDiscard_eq]
  split
  · exact hs.deleteMessage_commits hm
  · exact ⟨s, rfl⟩

theorem resetClaims_total {nowMs : Millis} {cronMaxRetries : Nat} (hs : s.Ok env)
    (hinput : cronMaxRetries ≤ 3 ∧ (checkedAdd nowMs 250).isSome) :
    exists t, resetClaims s nowMs cronMaxRetries = .ok t := by
  rcases resetMessages_total nowMs hs with ⟨u, hu⟩
  have huok : u.Ok env := (resetMessages_writes (P := fun _ => True) trivial hu).ok hs
  have hready : forall m, m ∈ u.messages -> m.claim = none := by
    intro m hm
    have hcell := congrArg Prod.fst ((resetMessages_cell hu).right m.id)
    rw [show (u.cell m.id).1 = some m from find?_key hm] at hcell
    rcases map_eq_some_iff.mp hcell.symm with ⟨n, _, rfl⟩
    exact recoverRow_ready nowMs n
  rcases deleteBatches_total hready with ⟨v, hv⟩
  have hvok : v.Ok env := (deleteBatches_writes (P := fun _ => True) trivial huok hv).ok huok
  have hpendings : exists x, v.messages.rows.foldlM (resetPending nowMs) v = .ok x ∧ x.Ok env := by
    refine foldlM_rows_total Store.messages (fun a => a.Ok env) ?_
      v.messages.nodup (fun m hm => hm) hvok
    intro m a _ hm ha
    rcases resetPending_commits nowMs ha hm with ⟨b, hb⟩
    refine ⟨b, hb, ?_⟩
    cases resetPending_inv hb with
    | skipped => exact ⟨ha, fun n _ hn => hn⟩
    | inserted _ _ _ _ hinsert =>
      refine ⟨ha.insertPending hinsert, fun n _ hn => ?_⟩
      rcases Store.insertPending_eq_ok.mp hinsert with ⟨_, _, _, _, rfl⟩
      exact hn
  rcases hpendings with ⟨x, hx, hxok⟩
  have hdiscards : exists t, x.messages.rows.foldlM resetDiscard x = .ok t ∧ t.Ok env := by
    refine foldlM_rows_total Store.messages (fun a => a.Ok env) ?_
      x.messages.nodup (fun m hm => hm) hxok
    intro m a _ hm ha
    rcases resetDiscard_commits ha hm with ⟨b, hb⟩
    refine ⟨b, hb, ?_, fun n hne hn => resetDiscard_frame hb hne hn⟩
    rcases resetDiscard_inv hb with rfl | ⟨_, _, _, hdelete⟩
    · exact ha
    · exact ha.deleteMessage hm hdelete
  rcases hdiscards with ⟨t, ht, _⟩
  refine ⟨t, ?_⟩
  simp only [resetClaims, resetClaimsTx, ok_iff, mapErr_eq_ok]
  exact ⟨hinput, u, hu, v, hv, x, hx, ht⟩

end Queue
end OpenCompute
