import OpenCompute.Queue.Admission

/-!
# When completion and forwarding commit

Both loops follow the ledger of backlogs.  In a reachable world nothing else
can abort them, so that the ledger decides whether they succeed.
-/

namespace OpenCompute
namespace Queue

open Relational Table Transaction Transition List

/-! ## The loop of a completion -/

def completionDemand (batch : ClaimedQueueBatch)
    (decisions : List QueueCompletionDecision) (nowMs : Millis) (m : MessageRow) :
    Demand :=
  match decisionFor decisions m.id with
  | none => .stays
  | some .ack => .leaves m.queueId m.bodyBytes
  | some (.retry _) =>
    if m.expiresAtMs ≤ nowMs then
      .leaves m.queueId m.bodyBytes
    else if nextAttempt m.attempts ≤ batch.maxRetries then
      .stays
    else
      match batch.deadLetterQueue with
      | some target => .moves m.queueId target m.bodyBytes
      | none => .leaves m.queueId m.bodyBytes

structure Completing (env : Environment) (batch : ClaimedQueueBatch)
    (decisions : List QueueCompletionDecision) (nowMs : Millis) (s : Store)
    (rest : List MessageRow) (acc : QueueCompletionSummary × Store) (b : Backlog) :
    Prop where
  ok : acc.2.Ok env
  ledger : Ledger s b acc.2
  batches : acc.2.batches = s.batches
  nodup : (rest.map MessageRow.id).Nodup
  claimed : forall m, m ∈ rest ↔ m ∈ acc.2.messages ∧ m.claim = some batch.claim
  rows : forall m, m ∈ rest -> m.queueId = batch.queueId ∧ m.attempts ≤ u16Max ∧
    m.enqueuedAtMs ≤ nowMs ∧
    exists action, decisionFor decisions m.id = some action ∧ action.delayOk = true

variable {batch : ClaimedQueueBatch} {decisions : List QueueCompletionDecision} {nowMs : Millis}
  {m : MessageRow} {action : QueueCompletionAction}

theorem Completion.completeMessage_eq {acc : QueueCompletionSummary × Store} {t : Store}
    {row : MessageRow} (haction : decisionFor decisions m.id = some action)
    (hrow : acc.2.messages.find? m.id = some row) (hclaim : row.claim = some batch.claim)
    (houtcome : Completion batch action nowMs acc.2 m row t) :
    exists summary, completeMessage batch decisions nowMs acc m = .ok (summary, t) := by
  have hdelete : forall u, acc.2.deleteMessage row = .ok u ->
      acc.2.deleteClaimedMessage batch m = .ok u :=
    fun u hu => deleteClaimedMessage_eq_ok.mpr ⟨row, ⟨hrow, hclaim⟩, hu⟩
  unfold completeMessage
  simp only [ok_iff, haction, Option.some.injEq, exists_eq_left']
  cases houtcome with
  | acknowledged hack hok =>
    subst hack
    simp only [ok_iff]
    exact ⟨_, _, hdelete t hok, rfl⟩
  | expired hretry hexpired hok =>
    subst hretry
    simp only [if_pos hexpired, ok_iff]
    exact ⟨_, _, hdelete t hok, rfl⟩
  | retried hretry hlive hattempt hadd hrelease =>
    subst hretry
    simp only [if_neg (not_le.mpr hlive), if_pos hattempt, ok_iff]
    exact ⟨_, _, retryMessage_eq_ok.mpr ⟨row, ⟨hrow, hclaim⟩, _, hadd, hrelease⟩, rfl⟩
  | deadLettered hretry hlive hterminal hdlq haccepts hok hinsert =>
    subst hretry
    simp only [if_neg (not_le.mpr hlive), if_neg (not_le.mpr hterminal), hdlq,
      if_pos haccepts, bind_eq_ok]
    exact ⟨_, _, hdelete _ hok, _, hinsert, rfl⟩
  | deferred hsource hretry hlive hterminal hdlq hfull hadd hrelease hnext hpending =>
    subst hretry
    simp only [if_neg (not_le.mpr hlive), if_neg (not_le.mpr hterminal), hdlq,
      hfull, Bool.false_eq_true, if_false, bind_eq_ok]
    refine ⟨_, _, deferToPending_eq_ok.mpr ⟨_, retryMessage_eq_ok.mpr
      ⟨row, ⟨hrow, hclaim⟩, _, hadd, hrelease⟩, _, hnext, hsource, hpending⟩, rfl⟩
  | discarded hretry hlive hterminal hdlq hok =>
    subst hretry
    simp only [if_neg (not_le.mpr hlive), if_neg (not_le.mpr hterminal), hdlq, ok_iff]
    exact ⟨_, _, hdelete t hok, rfl⟩

section Completing

variable {env : Environment} {batch : ClaimedQueueBatch}
  {decisions : List QueueCompletionDecision} {nowMs : Millis} {s : Store}
  {m : MessageRow} {rest : List MessageRow}
  {acc result : QueueCompletionSummary × Store} {b b' : Backlog}

theorem Completing.settles (hc : Completing env batch decisions nowMs s (m :: rest) acc b)
    (hnow : ClockInRange nowMs) {action : QueueCompletionAction} {t : Store}
    (haction : decisionFor decisions m.id = some action)
    (houtcome : Completion batch action nowMs acc.2 m m t) :
    exists c, settle s b (completionDemand batch decisions nowMs m) = some c ∧ Ledger s c t := by
  have hm := ((hc.claimed m).mp mem_cons_self).left
  unfold completionDemand
  rw [haction]
  cases houtcome with
  | acknowledged hack hdelete =>
    subst hack
    exact ⟨_, rfl, hc.ledger.deleteMessage hdelete⟩
  | expired hretry hexpired hdelete =>
    subst hretry
    simp only [if_pos hexpired]
    exact ⟨_, rfl, hc.ledger.deleteMessage hdelete⟩
  | retried hretry hlive hattempt _ hrelease =>
    subst hretry
    simp only [if_neg (not_le.mpr hlive), if_pos hattempt]
    refine ⟨b, rfl, hc.ledger.of_queues ?_⟩
    rcases Store.releaseMessage_eq_ok.mp hrelease with ⟨_, _, _, _, rfl⟩
    rfl
  | deadLettered hretry hlive hterminal hdlq haccepts hdelete hinsert =>
    subst hretry
    simp only [if_neg (not_le.mpr hlive), if_neg (not_le.mpr hterminal), hdlq]
    exact hc.ledger.settle_moved hc.ok hm hnow haccepts hdelete hinsert
  | deferred _ hretry hlive hterminal hdlq hfull _ hrelease _ hpending =>
    subst hretry
    simp only [if_neg (not_le.mpr hlive), if_neg (not_le.mpr hterminal), hdlq]
    rcases Store.releaseMessage_eq_ok.mp hrelease with ⟨_, _, _, _, rfl⟩
    rcases Store.insertPending_eq_ok.mp hpending with ⟨hauthority, _, _, _, rfl⟩
    rcases (Store.pendingAuthority_iff.mp hauthority).right with ⟨r, hr, _⟩
    exact ⟨b, hc.ledger.settle_full (exists_find?_iff_keys.mp ⟨r, hr⟩) hfull,
      hc.ledger.of_queues rfl⟩
  | discarded hretry hlive hterminal hdlq hdelete =>
    subst hretry
    simp only [if_neg (not_le.mpr hlive), if_neg (not_le.mpr hterminal), hdlq]
    exact ⟨_, rfl, hc.ledger.deleteMessage hdelete⟩

theorem Completing.step (hc : Completing env batch decisions nowMs s (m :: rest) acc b)
    (hnow : ClockInRange nowMs) (hok : completeMessage batch decisions nowMs acc m = .ok result) :
    exists c, settle s b (completionDemand batch decisions nowMs m) = some c ∧
      Completing env batch decisions nowMs s rest result c := by
  have hm := (hc.claimed m).mp mem_cons_self
  have hnodup := hc.nodup
  rw [map_cons, nodup_cons] at hnodup
  rcases completeMessage_inv hok with ⟨_, row, haction, hrow, _, houtcome⟩
  have hsame : row = m := Option.some.inj (hrow.symm.trans (find?_key hm.left))
  subst hsame
  rcases hc.settles hnow haction houtcome with ⟨c, hsettle, hledger⟩
  rcases houtcome.cell (u := s) haction hm.left hm.right with ⟨v, hcell, hreleased, _⟩
  have hstored : forall n : MessageRow, result.2.messages.find? n.id =
      if n.id = row.id then v.1 else acc.2.messages.find? n.id := by
    intro n
    have hfst := congrArg Prod.fst (congrFun hcell n.id)
    rw [Function.update_apply, apply_ite Prod.fst] at hfst
    exact hfst
  have hwrites := completeMessage_writes (P := (· = .messages)) rfl hc.ok hok
  refine ⟨c, hsettle, hwrites.ok hc.ok, hledger,
    (hwrites.frame.batches nofun).trans hc.batches, hnodup.right, ?_,
    fun n hn => hc.rows n (mem_cons_of_mem row hn)⟩
  intro n
  constructor
  · intro hn
    rcases (hc.claimed n).mp (mem_cons_of_mem row hn) with ⟨hmem, hclaim⟩
    have hne : n.id ≠ row.id := by
      intro hid
      exact hnodup.left (mem_map.mpr ⟨n, hn, hid⟩)
    have hfind : result.2.messages.find? n.id = some n := by
      rw [hstored n, if_neg hne]
      exact find?_key hmem
    exact ⟨mem_of_find? hfind, hclaim⟩
  · intro hn
    have hfind := find?_key hn.left
    rw [hstored n] at hfind
    by_cases hid : n.id = row.id
    · rw [if_pos hid] at hfind
      rw [hreleased n hfind] at hn
      cases hn.right
    · rw [if_neg hid] at hfind
      rcases mem_cons.mp ((hc.claimed n).mpr ⟨mem_of_find? hfind, hn.right⟩) with rfl | hrest
      · exact absurd rfl hid
      · exact hrest

theorem addMs_eq_ok {deltaMs : Nat} (hnow : ClockInRange nowMs)
    (hdelta : deltaMs ≤ queueMaxRetentionSeconds * 1000) :
    addMs nowMs deltaMs = .ok (nowMs + deltaMs) := by
  have hsmall : (deltaMs : Int) ≤ i64Max := by
    unfold queueMaxRetentionSeconds at hdelta
    unfold i64Max
    omega
  simp only [addMs, ok_iff]
  exact ⟨hsmall, hnow.checkedAdd hdelta⟩

section

variable (hc : Completing env batch decisions nowMs s (m :: rest) acc b)
include hc

theorem Completing.releases
    (hnow : ClockInRange nowMs) {delaySeconds : Nat} (hdelay : delaySeconds ≤ 86400) :
    exists t, checkedAdd nowMs (delaySeconds * 1000) = some (nowMs + (delaySeconds * 1000 : Nat)) ∧
      acc.2.releaseMessage m (nextAttempt m.attempts)
        (nowMs + (delaySeconds * 1000 : Nat)) = .ok t := by
  have hm := (hc.claimed m).mp mem_cons_self
  rcases hc.rows m mem_cons_self with ⟨_, _, henqueued, _⟩
  have hnext : m.attempts ≤ nextAttempt m.attempts ∧ nextAttempt m.attempts ≤ m.attempts + 1 := by
    unfold nextAttempt
    omega
  have havailable : m.enqueuedAtMs ≤ nowMs + (delaySeconds * 1000 : Nat) :=
    le_trans henqueued (Int.le_add_of_nonneg_right (Int.natCast_nonneg _))
  rcases hc.ok.releaseMessage_commits hm.left hm.right hnext havailable with ⟨t, ht⟩
  have hadd := hnow.checkedAdd (n := delaySeconds * 1000)
    (by unfold queueMaxRetentionSeconds; omega)
  exact ⟨t, hadd, ht⟩

theorem Completing.defers
    (hnow : ClockInRange nowMs) {target : QueueId × Nat} (hsource : batch.queueId ≠ target.1)
    (hgeneration : target.2 = env.lifecycleGeneration target.1)
    (hkey : target.1 ∈ acc.2.queues.keys) :
    exists u t, acc.2.releaseMessage m (nextAttempt m.attempts) (nowMs + (0 * 1000 : Nat)) = .ok u ∧
      u.insertPending (pendingRow m batch.queueId target (nextAttempt m.attempts)
        (nowMs + (1000 : Nat)) (nextAttempt_pos m.attempts) hsource) = .ok t := by
  have hm := (hc.claimed m).mp mem_cons_self
  rcases hc.releases hnow (Nat.zero_le 86400) with ⟨u, _, hrelease⟩
  have hu : u.Ok env := hc.ok.releaseMessage hm.left hrelease
  have hfree : ¬ m.id ∈ acc.2.pending.keys := by
    apply hc.ok.claimed_not_pending m hm.left
    rw [hm.right]
    exact Option.some_ne_none _
  rcases Store.releaseMessage_eq_ok.mp hrelease with ⟨_, _, _, havailable, rfl⟩
  have hrow : Store.released m (nextAttempt m.attempts) _ havailable ∈
      acc.2.messages.replace (Store.released m (nextAttempt m.attempts) _ havailable) :=
    mem_replace.mpr (Or.inr ⟨rfl, m, hm.left, rfl⟩)
  have hauthority := hu.pendingAuthority (p := pendingRow m batch.queueId target
    (nextAttempt m.attempts) (nowMs + (1000 : Nat)) (nextAttempt_pos m.attempts) hsource)
    hrow rfl ⟨rfl, (hc.rows m mem_cons_self).left, rfl⟩ ⟨hkey, hgeneration⟩
  rcases hu.insertPending_commits hrow hauthority
    (hc.rows m mem_cons_self).left hfree with ⟨t, hpending⟩
  exact ⟨_, t, hrelease, hpending⟩

theorem Completing.commits (hnow : ClockInRange nowMs)
    (hdlq : forall target, batch.deadLetterQueue = some target ->
      batch.queueId ≠ target.1 ∧ target.2 = env.lifecycleGeneration target.1)
    (hsettle : settle s b (completionDemand batch decisions nowMs m) = some b') :
    exists result, completeMessage batch decisions nowMs acc m = .ok result := by
  have hm := (hc.claimed m).mp mem_cons_self
  rcases hc.rows m mem_cons_self with ⟨_, _, _, action, haction, hdelay⟩
  have hcommits : forall t, Completion batch action nowMs acc.2 m m t ->
      exists result, completeMessage batch decisions nowMs acc m = .ok result := by
    intro t houtcome
    rcases houtcome.completeMessage_eq haction (find?_key hm.left) hm.right with
      ⟨_, hok⟩
    exact ⟨_, hok⟩
  rcases hc.ok.deleteMessage_commits hm.left with ⟨u, hdelete⟩
  cases haction' : action with
  | ack => exact hcommits u (.acknowledged haction' hdelete)
  | retry delaySeconds =>
    rw [haction'] at hdelay haction
    unfold completionDemand at hsettle
    rw [haction] at hsettle
    by_cases hexpired : m.expiresAtMs ≤ nowMs
    · exact hcommits u (.expired haction' hexpired hdelete)
    have hlive := not_le.mp hexpired
    by_cases hattempt : nextAttempt m.attempts ≤ batch.maxRetries
    · rcases hc.releases hnow (of_decide_eq_true hdelay) with ⟨t, hadd, ht⟩
      exact hcommits t (.retried haction' hlive hattempt hadd ht)
    have hterminal := not_le.mp hattempt
    cases htarget : batch.deadLetterQueue with
    | none => exact hcommits u (.discarded haction' hlive hterminal htarget hdelete)
    | some target =>
      rcases hdlq target htarget with ⟨hsource, hgeneration⟩
      simp only [if_neg hexpired, if_neg hattempt, htarget] at hsettle
      rcases hc.ledger.move_or_full hc.ok hm.left hnow hsettle with
        ⟨haccepts, v, t, hgone, hmoved⟩ | ⟨hfull, hkey⟩
      · exact hcommits t (.deadLettered haction' hlive hterminal htarget haccepts hgone hmoved)
      · rcases hc.defers hnow hsource hgeneration hkey with ⟨_, t, hrelease, hpending⟩
        have hadd := hnow.checkedAdd (Nat.zero_le (queueMaxRetentionSeconds * 1000))
        exact hcommits t (.deferred hsource haction' hlive hterminal htarget hfull hadd hrelease
          (addMs_eq_ok hnow (by unfold queueMaxRetentionSeconds; omega)) hpending)

end

end Completing

/-! ## Whole completions -/

def Store.claimedRows (s : Store) (batch : ClaimedQueueBatch) : List MessageRow :=
  s.messages.rows.filter (fun m => m.claim = some batch.claim)

def CompletionFits (s : Store) (batch : ClaimedQueueBatch)
    (decisions : List QueueCompletionDecision) (nowMs : Millis) : Prop :=
  ((s.claimedRows batch).foldlM (fun b m =>
    settle s b (completionDemand batch decisions nowMs m)) s.backlog).isSome

/-- A batch that was handed out, is still stored, and gets a decision for each message. -/
structure Completable (w : World) (batch : ClaimedQueueBatch)
    (decisions : List QueueCompletionDecision) (nowMs : Millis) : Prop where
  returned : batch ∈ w.returned
  stored : batch.id ∈ w.store.batches.keys
  decided : DecisionsMatch batch decisions
  delays : decisions.all (fun d => d.action.delayOk) = true
  clock : ClockInRange nowMs
  enqueued : forall m, m ∈ w.store.claimedRows batch -> m.enqueuedAtMs ≤ nowMs

section Completable

variable {env : Environment} {w : World} {batch : ClaimedQueueBatch}
  {decisions : List QueueCompletionDecision} {nowMs : Millis}

theorem mem_claimedRows {s : Store} {m : MessageRow} :
    m ∈ s.claimedRows batch ↔ m ∈ s.messages ∧ m.claim = some batch.claim := by
  rw [Store.claimedRows, List.mem_filter, mem_rows, decide_eq_true_eq]

theorem Completable.ownsClaim (hb : Completable w batch decisions nowMs)
    (hw : w.Ok env) : w.store.ownsClaim batch.claim = true := by
  rcases mem_keys.mp hb.stored with ⟨r, hr, hid⟩
  rcases hw.inFlight.row r hr with ⟨d, hd, hrd, _, hconsumer, hgeneration⟩
  have hsame : d = batch := hw.inFlight.unique d batch hd hb.returned (hrd.symm.trans hid)
  subst hsame
  exact ownsClaim_iff.mpr ⟨r, hr, hid, hconsumer, hgeneration⟩

theorem Completable.ids_perm (hb : Completable w batch decisions nowMs) (hw : w.Ok env) :
    ((w.store.claimedRows batch).map MessageRow.id).Perm
      (batch.messages.map ClaimedQueueMessage.id) := by
  rcases hw.inFlight.delivers batch hb.returned hb.stored with ⟨hnodup, hmessages⟩
  apply (perm_ext_iff_of_nodup (messages_ids_nodup _ _) hnodup).mpr
  intro k
  rw [hmessages k, mem_map]
  constructor
  · intro hk
    rcases hk with ⟨m, hm, rfl⟩
    rcases mem_claimedRows.mp hm with ⟨hstored, hclaim⟩
    exact ⟨m, find?_key hstored, hclaim⟩
  · intro hk
    rcases hk with ⟨m, hfind, hclaim⟩
    have hstored := find?_eq_some.mp hfind
    exact ⟨m, mem_claimedRows.mpr ⟨hstored.left, hclaim⟩, hstored.right⟩

theorem decisionFor_of_mem {id : QueueMessageId}
    (hdelays : decisions.all (fun d => d.action.delayOk) = true)
    (hid : id ∈ decisions.map QueueCompletionDecision.messageId) :
    exists action, decisionFor decisions id = some action ∧ action.delayOk = true := by
  rcases mem_map.mp hid with ⟨d, hd, hsame⟩
  cases hfind : decisions.find? (fun d => d.messageId = id) with
  | none =>
    have hnone := find?_eq_none.mp hfind d hd
    exact absurd (decide_eq_true hsame) hnone
  | some e =>
    refine ⟨e.action, ?_, all_eq_true.mp hdelays e (mem_of_find?_eq_some hfind)⟩
    rw [decisionFor, hfind]
    rfl

section

variable (hb : Completable w batch decisions nowMs)
include hb

theorem Completable.start (hw : w.Ok env) :
    Completing env batch decisions nowMs w.store (w.store.claimedRows batch)
      ({}, w.store) w.store.backlog := by
  constructor
  case ok => exact hw.store
  case ledger => exact Ledger.refl w.store
  case batches => rfl
  case nodup => exact messages_ids_nodup _ _
  case claimed => exact fun m => mem_claimedRows
  case rows =>
    intro m hm
    rcases mem_claimedRows.mp hm with ⟨hstored, hclaim⟩
    rcases hw.batch_of_claim hstored hclaim with ⟨d, hd, hdclaim, hqueue⟩
    have hid : d.id = batch.id := congrArg Claim.claimBatchId hdclaim
    have hsame := hw.inFlight.unique d batch hd hb.returned hid
    subst hsame
    refine ⟨hqueue.symm, ?_, hb.enqueued m hm, ?_⟩
    · apply hw.inFlight.attempts m hstored
      rw [hclaim]
      exact Option.some_ne_none _
    · apply decisionFor_of_mem hb.delays
      have hmem := (hb.ids_perm hw).mem_iff.mp (mem_map.mpr ⟨m, hm, rfl⟩)
      rcases mem_map.mp hmem with ⟨x, hx, hxid⟩
      rw [← hxid]
      exact hb.decided.right.right.right x hx

theorem Completable.loop (hw : w.Ok env) : (CompletionFits w.store batch decisions nowMs ->
      exists acc c, (w.store.claimedRows batch).foldlM
          (completeMessage batch decisions nowMs) ({}, w.store) = .ok acc ∧
        Completing env batch decisions nowMs w.store [] acc c) ∧
    forall acc, (w.store.claimedRows batch).foldlM
        (completeMessage batch decisions nowMs) ({}, w.store) = .ok acc ->
      CompletionFits w.store batch decisions nowMs := by
  have hdlq := fun target => hw.inFlight.dlq batch target hb.returned
  rcases foldlM_follows _ (fun _ _ _ _ _ hc => hc.commits hb.clock hdlq)
    (fun _ _ _ _ _ hc => hc.step hb.clock) (hb.start hw) with ⟨hsteps, hcommits⟩
  constructor
  · intro hfits
    rcases Option.isSome_iff_exists.mp hfits with ⟨c, hentry⟩
    rcases hcommits c hentry with ⟨acc, hok⟩
    rcases hsteps acc hok with ⟨c', _, hdone⟩
    exact ⟨acc, c', hok, hdone⟩
  · intro acc hok
    rcases hsteps acc hok with ⟨_, hentry, _⟩
    exact Option.isSome_of_eq_some hentry

theorem Completable.completeQueueBatch_iff (hw : w.Ok env) :
    (exists summary t, completeQueueBatch w.store batch decisions nowMs = .ok (summary, t) ∧
        ¬ batch.id ∈ t.batches.keys) ↔ CompletionFits w.store batch decisions nowMs := by
  have howns := hb.ownsClaim hw
  constructor
  · intro hok
    rcases hok with ⟨_, _, hok, _⟩
    rcases (completeQueueBatch_inv hok).right with ⟨hstale, _⟩ | ⟨_, _, acc, hrows, _, hfold, _⟩
    · rw [howns] at hstale
      cases hstale
    · rw [claimedMessages_eq_ok hrows] at hfold
      exact (hb.loop hw).right acc hfold
  · intro hfits
    rcases (hb.loop hw).left hfits with ⟨acc, _, hfold, hdone⟩
    have hrows : w.store.claimedMessages batch = .ok (w.store.claimedRows batch) := by
      simp only [Store.claimedMessages, mapMessages, ok_iff]
      exact ⟨fun m hm => ((hb.start hw).rows m hm).right.left, rfl⟩
    have hlength : (w.store.claimedRows batch).length = decisions.length := by
      have hsame := (hb.ids_perm hw).length_eq
      rw [length_map, length_map] at hsame
      rw [hsame, hb.decided.left]
    have howns' : acc.2.ownsClaim batch.claim = true := by
      rw [← howns]
      unfold Store.ownsClaim
      rw [hdone.batches]
    have hguard : forall m k, m ∈ acc.2.messages -> m.claim = some k ->
        k.claimBatchId ≠ batch.id := by
      intro m k hm hclaim hid
      rcases holdsClaim_iff.mp (hdone.ok.claim_held m k hm hclaim) with
        ⟨r, hr, hrid, _, hconsumer, hgeneration⟩
      rw [hdone.batches] at hr
      rcases hw.inFlight.row r hr with ⟨d, hd, hrd, _, hdconsumer, hdgeneration⟩
      have hsame : d = batch := hw.inFlight.unique d batch hd hb.returned
        (hrd.symm.trans (hrid.trans hid))
      subst hsame
      have hk : k = d.claim := by
        cases k
        simp only [ClaimedQueueBatch.claim, Claim.mk.injEq]
        exact ⟨hid, hconsumer.symm.trans hdconsumer, hgeneration.symm.trans hdgeneration⟩
      exact not_mem_nil ((hdone.claimed m).mpr ⟨hm, hk ▸ hclaim⟩)
    refine ⟨acc.1, { acc.2 with batches := acc.2.batches.erase batch.id }, ?_, ?_⟩
    · simp only [completeQueueBatch, ok_iff]
      refine ⟨hb.decided, hb.delays, ?_⟩
      rw [if_neg (Bool.not_eq_false _ ▸ howns)]
      simp only [ok_iff, mapErr_eq_ok]
      exact ⟨_, hrows, hlength, acc, hfold, howns', _,
        Store.deleteBatch_eq_ok.mpr ⟨hguard, rfl⟩, rfl⟩
    · intro hkey
      exact (mem_keys_erase.mp hkey).right rfl

end

end Completable

/-! ## The loop of a forward -/

def forwardDemand (s : Store) (nowMs : Millis) (id : QueueMessageId) : Option Demand := do
  let p ← s.pending.find? id
  let m ← s.messages.find? id
  if u16Max < m.attempts then
    none
  else if m.expiresAtMs ≤ nowMs then
    some (.leaves m.queueId m.bodyBytes)
  else
    some (.moves m.queueId (p.targetQueueId, p.targetQueueGeneration) m.bodyBytes)

def ForwardFits (s : Store) (nowMs : Millis) (limit : Nat) : Prop :=
  (((s.duePending nowMs limit).map DlqPendingRow.messageId).foldlM (fun b id =>
    (forwardDemand s nowMs id).bind (settle s b)) s.backlog).isSome

structure ForwardingRest (env : Environment) (s : Store) (rest : List QueueMessageId)
    (acc : QueueDlqForwardSummary × Store) (b : Backlog) : Prop where
  ok : acc.2.Ok env
  ledger : Ledger s b acc.2
  nodup : rest.Nodup
  cells : forall id, id ∈ rest -> acc.2.cell id = s.cell id

section ForwardingRest

variable {env : Environment} {s : Store} {nowMs : Millis} {retryBackoffMs : Nat}
  {id : QueueMessageId} {rest : List QueueMessageId} {acc result : QueueDlqForwardSummary × Store}
  {b b' : Backlog} {p : DlqPendingRow} {m : MessageRow}

theorem Forwarding.forwardPending_eq {t : Store} (hp : acc.2.pending.find? m.id = some p)
    (hm : acc.2.messages.find? m.id = some m) (hready : m.claim = none)
    (hattempts : m.attempts ≤ u16Max) (houtcome : Forwarding nowMs retryBackoffMs acc.2 p m t) :
    exists summary, forwardPending nowMs retryBackoffMs acc m.id = .ok (summary, t) := by
  have hmessage := readyMessageById_eq_ok.mpr ⟨hm, hready, hattempts⟩
  unfold forwardPending
  simp only [ok_iff, mapErr_eq_ok, hp, Option.some.injEq, exists_eq_left', hmessage,
    Except.ok.injEq]
  cases houtcome with
  | expired hexpired hdelete =>
    simp only [if_pos hexpired, ok_iff, mapErr_eq_ok]
    exact ⟨_, _, hdelete, rfl⟩
  | moved hlive haccepts hdelete hinsert =>
    simp only [if_neg (not_le.mpr hlive), if_pos haccepts, ok_iff, mapErr_eq_ok]
    exact ⟨_, _, hdelete, _, hinsert, rfl⟩
  | postponed hlive hfull hadd =>
    simp only [if_neg (not_le.mpr hlive), hfull, Bool.false_eq_true, if_false, ok_iff]
    exact ⟨_, _, hadd, rfl⟩

theorem forwardDemand_eq (hcell : s.cell id = (some m, some p)) (hattempts : m.attempts ≤ u16Max) :
    forwardDemand s nowMs id = some (if m.expiresAtMs ≤ nowMs then
      .leaves m.queueId m.bodyBytes
    else
      .moves m.queueId (p.targetQueueId, p.targetQueueGeneration) m.bodyBytes) := by
  have hm : s.messages.find? id = some m := congrArg Prod.fst hcell
  have hp : s.pending.find? id = some p := congrArg Prod.snd hcell
  simp only [forwardDemand, hp, hm, Option.bind_eq_bind, Option.bind_some,
    if_neg (not_lt.mpr hattempts)]
  split <;> rfl

section

variable (hr : ForwardingRest env s (id :: rest) acc b)
include hr

theorem ForwardingRest.settles
    (hnow : ClockInRange nowMs) {t : Store} (hp : p ∈ acc.2.pending) (hm : m ∈ acc.2.messages)
    (hcell : s.cell id = (some m, some p)) (hattempts : m.attempts ≤ u16Max)
    (houtcome : Forwarding nowMs retryBackoffMs acc.2 p m t) :
    exists c, (forwardDemand s nowMs id).bind (settle s b) = some c ∧ Ledger s c t := by
  rw [forwardDemand_eq hcell hattempts]
  cases houtcome with
  | expired hexpired hdelete =>
    rw [if_pos hexpired]
    have hlane : Ledger s b (acc.2.deletePending m.id) := hr.ledger.of_queues rfl
    exact ⟨_, rfl, hlane.deleteMessage hdelete⟩
  | moved hlive haccepts hdelete hinsert =>
    rw [if_neg (not_le.mpr hlive)]
    rcases hr.ledger.settle_moved hr.ok hm hnow haccepts hdelete hinsert with ⟨c, hentry, hmoved⟩
    exact ⟨c, hentry, hmoved.of_queues rfl⟩
  | postponed hlive hfull _ =>
    rw [if_neg (not_le.mpr hlive)]
    exact ⟨b, hr.ledger.settle_full (hr.ok.pending_target p hp).left hfull, hr.ledger.of_queues rfl⟩

theorem ForwardingRest.step
    (hnow : ClockInRange nowMs) (hok : forwardPending nowMs retryBackoffMs acc id = .ok result) :
    exists c, (forwardDemand s nowMs id).bind (settle s b) = some c ∧
      ForwardingRest env s rest result c := by
  rcases forwardPending_inv hok with ⟨p, m, hp, hm, _, houtcome⟩
  have hcell : s.cell id = (some m, some p) := by
    rw [← hr.cells id mem_cons_self]
    exact Prod.ext hm hp
  have hattempts : m.attempts ≤ u16Max := by
    simp only [forwardPending, ok_iff, readyMessageById_eq_ok] at hok
    rcases hok with ⟨_, _, _, ⟨hn, _, hattempts⟩, _⟩
    cases hm.symm.trans hn
    exact hattempts
  rcases hr.settles hnow (mem_of_find? hp) (mem_of_find? hm) hcell hattempts houtcome with
    ⟨c, hsettle, hledger⟩
  have hnodup := nodup_cons.mp hr.nodup
  have hwrites : Writes env (· = .messages) acc.2 result.2 := forwardPending_writes rfl hok
  refine ⟨c, hsettle, hwrites.ok hr.ok, hledger, hnodup.right, ?_⟩
  intro k hk
  have hchange : exists v, result.2.cell = Function.update acc.2.cell id v ∧
      Change s (.forward nowMs retryBackoffMs 0) (acc.2.cell id) v :=
    forwardPending_change hok
  rcases hchange with ⟨_, hupdate, _⟩
  have hne : k ≠ id := by
    intro heq
    exact hnodup.left (heq ▸ hk)
  rw [hupdate, Function.update_of_ne hne]
  exact hr.cells k (mem_cons_of_mem id hk)

theorem ForwardingRest.commits
    (hnow : ClockInRange nowMs)
    (hbackoff : exists nextAttemptAtMs, addMs nowMs retryBackoffMs = .ok nextAttemptAtMs)
    (hsettle : (forwardDemand s nowMs id).bind (settle s b) = some b') :
    exists result, forwardPending nowMs retryBackoffMs acc id = .ok result := by
  rcases Option.bind_eq_some_iff.mp hsettle with ⟨_, hdemand, hentry⟩
  have hsome : exists m p, s.cell id = (some m, some p) ∧ m.attempts ≤ u16Max := by
    simp only [forwardDemand, Option.bind_eq_bind, Option.bind_eq_some_iff] at hdemand
    rcases hdemand with ⟨p, hp, m, hm, hd⟩
    refine ⟨m, p, Prod.ext hm hp, ?_⟩
    by_contra hattempts
    rw [if_pos (not_le.mp hattempts)] at hd
    cases hd
  rcases hsome with ⟨m, p, hcell, hattempts⟩
  rw [forwardDemand_eq hcell hattempts, Option.some.injEq] at hdemand
  subst hdemand
  rw [← hr.cells id mem_cons_self] at hcell
  have hm : acc.2.messages.find? id = some m := congrArg Prod.fst hcell
  have hp : acc.2.pending.find? id = some p := congrArg Prod.snd hcell
  have hstored := find?_eq_some.mp hm
  have hid : m.id = id := hstored.right
  subst hid
  have hready : m.claim = none := by
    by_contra hclaimed
    exact hr.ok.claimed_not_pending m hstored.left hclaimed (exists_find?_iff_keys.mp ⟨p, hp⟩)
  have hcommits : forall t, Forwarding nowMs retryBackoffMs acc.2 p m t ->
      exists result, forwardPending nowMs retryBackoffMs acc m.id = .ok result := by
    intro t houtcome
    rcases houtcome.forwardPending_eq hp hm hready hattempts with ⟨_, hok⟩
    exact ⟨_, hok⟩
  by_cases hexpired : m.expiresAtMs ≤ nowMs
  · have hlane := hr.ok.deletePending m.id
    rcases hlane.deleteMessage_commits hstored.left with ⟨t, hdelete⟩
    exact hcommits t (.expired hexpired hdelete)
  · have hlive := not_le.mp hexpired
    rw [if_neg hexpired] at hentry
    rcases hr.ledger.move_or_full hr.ok hstored.left hnow hentry with
      ⟨haccepts, _, _, hdelete, hinsert⟩ | ⟨hfull, _⟩
    · exact hcommits _ (.moved hlive haccepts hdelete hinsert)
    · rcases hbackoff with ⟨_, hadd⟩
      exact hcommits _ (.postponed hlive hfull hadd)

end

end ForwardingRest

/-! ## In every reachable world -/

/--
In every reachable world, a batch in flight can be completed exactly when the ledger
has an entry for each of its messages, and the lane can be forwarded exactly when it
has one for each due row.
-/
theorem completion_total (env : Environment) {w : World} (hw : Reachable env w) :
    (forall batch decisions nowMs, Completable w batch decisions nowMs -> ((exists summary t,
          completeQueueBatch w.store batch decisions nowMs = .ok (summary, t) ∧
          ¬ batch.id ∈ t.batches.keys) ↔
        CompletionFits w.store batch decisions nowMs)) ∧
    forall nowMs retryBackoffMs limit, limit ≠ 0 -> ClockInRange nowMs ->
      (exists nextAttemptAtMs, addMs nowMs retryBackoffMs = .ok nextAttemptAtMs) ->
      ((exists result, forwardQueueDlqPending w.store nowMs retryBackoffMs limit = .ok result) ↔
        ForwardFits w.store nowMs limit) := by
  rcases hw with ⟨actions, hrun⟩
  have hworld := run_worldOk hrun (World.initial_ok env)
  constructor
  · intro batch decisions nowMs hb
    exact hb.completeQueueBatch_iff hworld
  · intro nowMs retryBackoffMs limit hlimit hnow hbackoff
    have hstart : ForwardingRest env w.store
        ((w.store.duePending nowMs limit).map DlqPendingRow.messageId) ({}, w.store)
        w.store.backlog :=
      ⟨hworld.store, Ledger.refl w.store, duePending_nodup w.store nowMs limit, fun _ _ => rfl⟩
    rcases foldlM_follows _ (fun _ _ _ _ _ hr => hr.commits hnow hbackoff)
      (fun _ _ _ _ _ hr => hr.step hnow) hstart with ⟨hsteps, hcommits⟩
    simp only [forwardQueueDlqPending, ok_iff]
    constructor
    · intro hok
      rcases hok with ⟨result, _, hfold⟩
      rcases hsteps result hfold with ⟨c, hentry, _⟩
      exact Option.isSome_of_eq_some hentry
    · intro hfits
      rcases Option.isSome_iff_exists.mp hfits with ⟨c, hentry⟩
      rcases hcommits c hentry with ⟨result, hfold⟩
      exact ⟨result, hlimit, hfold⟩

/-- The parts of `Completable` that a concrete run can be checked for. -/
def Completable.check (w : World) (batch : ClaimedQueueBatch)
    (decisions : List QueueCompletionDecision) (nowMs : Millis) : Bool :=
  decide (batch ∈ w.returned) && decide (batch.id ∈ w.store.batches.keys) &&
  decide (DecisionsMatch batch decisions) &&
  decisions.all (fun d => d.action.delayOk) &&
  decide (i64Min ≤ nowMs) &&
  decide (nowMs + queueMaxRetentionSeconds * 1000 ≤ i64Max) &&
  (w.store.claimedRows batch).all (fun m => m.enqueuedAtMs ≤ nowMs)

theorem Completable.of_check {w : World}
    (hcheck : Completable.check w batch decisions nowMs = true) :
    Completable w batch decisions nowMs := by
  simp only [Completable.check, Bool.and_eq_true, decide_eq_true_eq, all_eq_true] at hcheck
  rcases hcheck with ⟨⟨⟨⟨⟨⟨hreturned, hstored⟩, hdecided⟩, hdelays⟩, hlow⟩, hhigh⟩, hrows⟩
  exact ⟨hreturned, hstored, hdecided, all_eq_true.mpr hdelays, ⟨hlow, hhigh⟩, hrows⟩

theorem completion_total_deferred : exists w, Reachable Sample.environment w ∧
      Completable w (Sample.batch 0 (some (2, 1)) 10 [1, 2]) [⟨10, .retry 0⟩] 0 ∧
      exists summary t, completeQueueBatch w.store
        (Sample.batch 0 (some (2, 1)) 10 [1, 2]) [⟨10, .retry 0⟩] 0 =
          .ok (summary, t) ∧ ¬ 1 ∈ t.batches.keys := by
  have hexec : exists w, Reachable Sample.environment w ∧
      Completable.check w (Sample.batch 0 (some (2, 1)) 10 [1, 2]) [⟨10, .retry 0⟩] 0 ∧
      ((w.store.claimedRows (Sample.batch 0 (some (2, 1)) 10 [1, 2])).foldlM
        (fun b m => settle w.store b (completionDemand
          (Sample.batch 0 (some (2, 1)) 10 [1, 2]) [⟨10, .retry 0⟩] 0 m))
        w.store.backlog).isSome :=
    exists_reachable (Sample.pendingActions.take 5) (by decide +kernel)
  rcases hexec with ⟨w, hreach, hcheck, hfits⟩
  have hb := Completable.of_check hcheck
  exact ⟨w, hreach, hb, ((completion_total Sample.environment hreach).left _ _ _ hb).mpr hfits⟩

theorem completion_aborts_on_size : exists w, Reachable Sample.environment w ∧
      Completable w (Sample.batch 0 (some (2, 1)) 10 [1, 2]) [⟨10, .retry 0⟩] 0 ∧
      completeQueueBatch w.store (Sample.batch 0 (some (2, 1)) 10 [1, 2])
        [⟨10, .retry 0⟩] 0 = .error Scheduler.unavailable := by
  have hexec : exists w, Reachable Sample.environment w ∧
      Completable.check w (Sample.batch 0 (some (2, 1)) 10 [1, 2]) [⟨10, .retry 0⟩] 0 ∧
      completeQueueBatch w.store (Sample.batch 0 (some (2, 1)) 10 [1, 2])
        [⟨10, .retry 0⟩] 0 = .error Scheduler.unavailable :=
    exists_reachable [Sample.createQueue 1 10 10, Sample.createQueue 2 1 10,
      Sample.promote (Sample.consumer 0 (some (2, 1))),
      .enqueue (Sample.request 1 1 [1, 2]) [10] 0, .claim 0 1 none [1]] (by decide +kernel)
  rcases hexec with ⟨w, hreach, hcheck, hfails⟩
  exact ⟨w, hreach, Completable.of_check hcheck, hfails⟩

end Queue
end OpenCompute
