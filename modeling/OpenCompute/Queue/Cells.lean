import OpenCompute.Queue.Frames

/-!
# What a step does to one message

The cell of an identifier is its message row with its row in the dead-letter
lane.  Every loop of an operation visits an identifier once, so an operation is
described by the change it makes to each cell.
-/

namespace OpenCompute
namespace Queue

open Relational Table Transaction List Function

abbrev Cell := Option MessageRow × Option DlqPendingRow

def Store.cell (s : Store) (id : QueueMessageId) : Cell :=
  (s.messages.find? id, s.pending.find? id)

/-! ## Cells after a write -/

section Writes

variable {s t : Store}

theorem cell_of_tables (hmessages : t.messages = s.messages)
    (hpending : t.pending = s.pending) : t.cell = s.cell := by
  funext k
  simp only [Store.cell, hmessages, hpending]

variable {id : QueueMessageId} {m : MessageRow}

theorem setMessage_cell {x : Option MessageRow} (hpending : t.pending = s.pending)
    (hmessages : forall k, t.messages.find? k = if k = id then x else s.messages.find? k) :
    t.cell = update s.cell id (x, (s.cell id).2) := by
  funext k
  rw [update_apply]
  simp only [Store.cell, hmessages, hpending]
  split
  · rename_i hk
    rw [hk]
  · rfl

theorem setPending_cell {x : Option DlqPendingRow} (hmessages : t.messages = s.messages)
    (hpending : forall k, t.pending.find? k = if k = id then x else s.pending.find? k) :
    t.cell = update s.cell id ((s.cell id).1, x) := by
  funext k
  rw [update_apply]
  simp only [Store.cell, hmessages, hpending]
  split
  · rename_i hk
    rw [hk]
  · rfl

theorem insertMessage_cell (hok : s.insertMessage m = .ok t) :
    (s.cell m.id).1 = none ∧ t.cell = update s.cell m.id (some m, (s.cell m.id).2) := by
  rcases Store.insertMessage_eq_ok.mp hok with ⟨_, _, _, _, _, hinsert, rfl⟩
  exact ⟨find?_eq_none.mpr (insert?_eq_some.mp hinsert).left,
    setMessage_cell rfl (find?_of_insert? hinsert)⟩

theorem deleteMessage_cell (hok : s.deleteMessage m = .ok t) :
    t.cell = update s.cell m.id (none, (s.cell m.id).2) := by
  rcases Store.deleteMessage_eq_ok.mp hok with ⟨_, _, _, _, rfl⟩
  exact setMessage_cell rfl (find?_erase s.messages m.id)

theorem claimMessage_cell {c : Claim} (hm : m ∈ s.messages) (hok : s.claimMessage m c = .ok t) :
    t.cell = update s.cell m.id (some (Store.claimed m c), (s.cell m.id).2) := by
  rcases Store.claimMessage_eq_ok.mp hok with ⟨_, _, rfl⟩
  exact setMessage_cell rfl (find?_replace hm rfl)

theorem releaseMessage_cell {attempts : Nat} {availableAtMs : Millis} (hm : m ∈ s.messages)
    (hok : s.releaseMessage m attempts availableAtMs = .ok t) :
    exists havailable, t.cell = update s.cell m.id
      (some (Store.released m attempts availableAtMs havailable), (s.cell m.id).2) := by
  rcases Store.releaseMessage_eq_ok.mp hok with ⟨_, _, _, havailable, rfl⟩
  exact ⟨havailable, setMessage_cell rfl (find?_replace hm rfl)⟩

variable {p : DlqPendingRow}

theorem insertPending_cell (hok : s.insertPending p = .ok t) :
    (s.cell p.messageId).2 = none ∧ t.cell = update s.cell p.messageId
        ((s.cell p.messageId).1, some p) := by
  rcases Store.insertPending_eq_ok.mp hok with ⟨_, _, _, hinsert, rfl⟩
  exact ⟨find?_eq_none.mpr (insert?_eq_some.mp hinsert).left,
    setPending_cell rfl (find?_of_insert? hinsert)⟩

theorem deletePending_cell (s : Store) (id : QueueMessageId) :
    (s.deletePending id).cell = update s.cell id ((s.cell id).1, none) :=
  setPending_cell rfl (find?_erase s.pending id)

end Writes

/-! ## Recovery of one message -/

def recoverRow (nowMs : Millis) (m : MessageRow) : MessageRow :=
  if m.claim = none then
    m
  else
    Store.released m (m.attempts + 1) (max m.enqueuedAtMs (nowMs + 250))
      (le_max_left _ _)

def Store.discards (s : Store) (row : MessageRow) : Bool :=
  (s.exhaustedBy row).any (fun c => c.deadLetterQueue = none)

def recoverCell (s : Store) (nowMs : Millis) (cell : Cell) : Cell :=
  match cell with
  | (none, lane) => (none, lane)
  | (some m, lane) =>
    let row := recoverRow nowMs m
    (if s.discards row then none else some row, recoverLane s nowMs row lane)

theorem recoverRow_claimed {nowMs : Millis} {m : MessageRow} (hclaimed : m.claim ≠ none) :
    recoverRow nowMs m = Store.released m (m.attempts + 1)
      (max m.enqueuedAtMs (nowMs + 250)) (le_max_left _ _) :=
  if_neg hclaimed

theorem recoverRow_ready (nowMs : Millis) (m : MessageRow) : (recoverRow nowMs m).claim = none := by
  unfold recoverRow
  split
  · rename_i hready
    exact hready
  · rfl

variable {s : Store}

/-! ## Changes -/

/-- The delivery of a message by this batch was not acknowledged. -/
def FailedDelivery (batch : ClaimedQueueBatch)
    (decisions : List QueueCompletionDecision) (m : MessageRow) : Prop :=
  m.claim = some batch.claim ∧
    exists delaySeconds, decisionFor decisions m.id = some (.retry delaySeconds)

inductive Change (s : Store) : Action -> Cell -> Cell -> Prop where
  | same (a : Action) (cell : Cell) : Change s a cell cell
  | accepted {request : QueueEnqueueRequest} {ids : List QueueMessageId}
      {nowMs : Millis} {m : MessageRow} {lane : Option DlqPendingRow} :
      m.id ∈ ids -> m.queueId = request.queueId -> m.attempts = 0 ->
      m.claim = none ->
      Change s (.enqueue request ids nowMs) (none, lane) (some m, lane)
  | delivered {nowMs : Millis} {maxBatches : Nat} {after : Option QueueId}
      {ids : List QueueBatchId} {m : MessageRow} {c : ConsumerRow}
      {id : QueueBatchId} :
      id ∈ ids -> c ∈ s.consumers -> c.queueId = m.queueId ->
      m.attempts ≤ u16Max -> m.claim = none ->
      Change s (.claim nowMs maxBatches after ids) (some m, none)
        (some (Store.claimed m ⟨id, c.consumerId, c.consumerGeneration⟩), none)
  | acknowledged {batch : ClaimedQueueBatch}
      {decisions : List QueueCompletionDecision} {nowMs : Millis} {m : MessageRow}
      {lane : Option DlqPendingRow} :
      m.claim = some batch.claim -> decisionFor decisions m.id = some .ack ->
      Change s (.complete batch decisions nowMs) (some m, lane) (none, lane)
  | expired {batch : ClaimedQueueBatch}
      {decisions : List QueueCompletionDecision} {nowMs : Millis} {m : MessageRow}
      {lane : Option DlqPendingRow} :
      FailedDelivery batch decisions m -> m.expiresAtMs ≤ nowMs ->
      Change s (.complete batch decisions nowMs) (some m, lane) (none, lane)
  | retried {batch : ClaimedQueueBatch}
      {decisions : List QueueCompletionDecision} {nowMs availableAtMs : Millis}
      {m : MessageRow} {lane : Option DlqPendingRow}
      (havailable : m.enqueuedAtMs ≤ availableAtMs) :
      FailedDelivery batch decisions m -> nowMs < m.expiresAtMs ->
      nextAttempt m.attempts ≤ batch.maxRetries ->
      Change s (.complete batch decisions nowMs) (some m, lane)
        (some (Store.released m (nextAttempt m.attempts) availableAtMs havailable), lane)
  | deadLettered {batch : ClaimedQueueBatch}
      {decisions : List QueueCompletionDecision} {nowMs expiresAtMs : Millis}
      {m : MessageRow} {lane : Option DlqPendingRow} {target : QueueId × Nat}
      (hexpires : nowMs < expiresAtMs) :
      FailedDelivery batch decisions m -> nowMs < m.expiresAtMs ->
      batch.maxRetries < nextAttempt m.attempts ->
      batch.deadLetterQueue = some target ->
      Change s (.complete batch decisions nowMs) (some m, lane)
        (some (dlqRow m target nowMs expiresAtMs hexpires), lane)
  | deferred {batch : ClaimedQueueBatch}
      {decisions : List QueueCompletionDecision}
      {nowMs availableAtMs nextAttemptAtMs : Millis} {m : MessageRow}
      {target : QueueId × Nat} (havailable : m.enqueuedAtMs ≤ availableAtMs)
      (hsource : batch.queueId ≠ target.1) :
      FailedDelivery batch decisions m -> nowMs < m.expiresAtMs ->
      batch.maxRetries < nextAttempt m.attempts ->
      batch.deadLetterQueue = some target ->
      Change s (.complete batch decisions nowMs) (some m, none)
        (some (Store.released m (nextAttempt m.attempts) availableAtMs havailable),
          some (pendingRow m batch.queueId target (nextAttempt m.attempts)
            nextAttemptAtMs (nextAttempt_pos m.attempts) hsource))
  | discarded {batch : ClaimedQueueBatch}
      {decisions : List QueueCompletionDecision} {nowMs : Millis} {m : MessageRow}
      {lane : Option DlqPendingRow} :
      FailedDelivery batch decisions m -> nowMs < m.expiresAtMs ->
      batch.maxRetries < nextAttempt m.attempts -> batch.deadLetterQueue = none ->
      Change s (.complete batch decisions nowMs) (some m, lane) (none, lane)
  | laneExpired {nowMs : Millis} {retryBackoffMs limit : Nat} {m : MessageRow}
      {p : DlqPendingRow} :
      m.claim = none -> m.expiresAtMs ≤ nowMs ->
      Change s (.forward nowMs retryBackoffMs limit) (some m, some p) (none, none)
  | forwarded {nowMs expiresAtMs : Millis} {retryBackoffMs limit : Nat}
      {m : MessageRow} {p : DlqPendingRow} (hexpires : nowMs < expiresAtMs) :
      m.claim = none -> nowMs < m.expiresAtMs ->
      Change s (.forward nowMs retryBackoffMs limit) (some m, some p)
        (some (dlqRow m (p.targetQueueId, p.targetQueueGeneration) nowMs expiresAtMs
          hexpires), none)
  | postponed {nowMs : Millis} {retryBackoffMs limit : Nat} {m : MessageRow}
      {p : DlqPendingRow} (nextAttemptAtMs : Millis) :
      m.claim = none -> nowMs < m.expiresAtMs ->
      Change s (.forward nowMs retryBackoffMs limit) (some m, some p)
        (some m, some { p with nextAttemptAtMs := nextAttemptAtMs })
  | swept {nowMs : Millis} {maxRows maxBytes : Nat} {m : MessageRow}
      {lane : Option DlqPendingRow} :
      m.claim = none -> m.expiresAtMs ≤ nowMs ->
      Change s (.sweep nowMs maxRows maxBytes) (some m, lane) (none, none)
  | purged {queueId : QueueId} {maxRows maxBytes : Nat} {m : MessageRow}
      {lane : Option DlqPendingRow} :
      m.claim = none -> m.queueId = queueId ->
      Change s (.purge queueId maxRows maxBytes) (some m, lane) (none, none)
  | recovered {nowMs : Millis} {cronMaxRetries : Nat} (cell : Cell) :
      Change s (.restart nowMs cronMaxRetries) cell (recoverCell s nowMs cell)

/-! ## Enqueue, retention and purge -/

section Operations

variable {s t : Store} {nowMs : Millis} {m : MessageRow} {c : ConsumerRow} {rows : List MessageRow}
  {u : Store} {batch : ClaimedQueueBatch} {request : QueueEnqueueRequest}
  {ids : List QueueMessageId} {result : QueueEnqueueResult} {maxBytes limit retryBackoffMs : Nat}
  {queueId : QueueId} {after : Option QueueId} {b : DeliveryBatchRow}
  {decisions : List QueueCompletionDecision}

theorem acceptEnqueue_cell {fingerprint : Digest} (hids : ids.Nodup)
    (hlength : ids.length = request.messages.length)
    (hok : acceptEnqueue s request fingerprint ids nowMs = .ok (result, t)) :
    (forall k, ¬ k ∈ ids -> t.cell k = s.cell k) ∧ forall k, k ∈ ids ->
      (s.cell k).1 = none ∧ exists m, t.cell k = (some m, (s.cell k).2) ∧
        Change s (.enqueue request ids nowMs) (none, (s.cell k).2) (some m, (s.cell k).2) := by
  rcases acceptEnqueue_inv hok with ⟨_, _, _, _, hfold, _, hoperation⟩
  simp only [Store.insertOperation, ok_iff] at hoperation
  rcases hoperation with ⟨_, _, rfl⟩
  have hkeys : (request.messages.zip ids).map Prod.snd = ids := map_snd_zip (le_of_eq hlength)
  have hloop := foldlM_pointwise Store.cell (fun _ => True) (fun _ v v' => v.1 = none ∧
    exists m, v' = (some m, v.2) ∧
      Change s (.enqueue request ids nowMs) (none, v.2) (some m, v.2)) ?_
    (hkeys ▸ hids) trivial hfold
  · refine ⟨hkeys ▸ hloop.right.left, ?_⟩
    intro k hk
    rw [← hkeys] at hk
    rcases List.mem_map.mp hk with ⟨entry, hentry, rfl⟩
    exact hloop.right.right entry hentry
  · intro entry a b hentry _ hstart hb
    rcases enqueueMessage_inv hb with ⟨_, _, _, hinsert⟩
    rcases insertMessage_cell hinsert with ⟨hnone, hcell⟩
    have hid : entry.2 ∈ ids := hkeys ▸ mem_map_of_mem hentry
    rw [← hstart]
    exact ⟨trivial, _, hcell, hnone, _, rfl, Change.accepted hid rfl rfl rfl⟩

theorem takeBytes_sublist (maxBytes : Nat) (rows output : List MessageRow)
    (bytes : Nat) : exists taken, taken.Sublist rows ∧
      takeBytes maxBytes output bytes rows = output ++ taken := by
  induction rows generalizing output bytes with
  | nil => exact ⟨[], List.Sublist.refl [], (append_nil output).symm⟩
  | cons m rest ih =>
    unfold takeBytes
    split
    · exact ⟨[], nil_sublist _, (append_nil output).symm⟩
    · rcases ih (output ++ [m]) (bytes + m.bodyBytes) with ⟨taken, hsub, heq⟩
      refine ⟨m :: taken, hsub.cons_cons m, ?_⟩
      rw [heq, append_assoc, singleton_append]

theorem selectDeleteCandidates_nodup (s : Store) (queueId : Option QueueId)
    (expiresBefore : Option Millis) (maxRows maxBytes : Nat) :
    ((s.selectDeleteCandidates queueId expiresBefore maxRows maxBytes).map
      MessageRow.id).Nodup := by
  unfold Store.selectDeleteCandidates
  rcases takeBytes_sublist maxBytes _ [] 0 with ⟨_, hsub, heq⟩
  rw [heq]
  refine List.Nodup.sublist ((hsub.trans (take_sublist _ _)).map _) ?_
  exact (((perm_insertionSort _ _).map MessageRow.id).nodup_iff).mpr (messages_ids_nodup _ _)

theorem deleteCandidates_change {stillMatches : MessageRow -> Bool}
    {candidates : List MessageRow} {a : Action}
    (hdelete : forall m lane, m.claim = none -> stillMatches m = true ->
      Change s a (some m, lane) (none, none)) (hnodup : (candidates.map MessageRow.id).Nodup)
    (hok : candidates.foldlM (deleteCandidate stillMatches) s = .ok t)
    (k : QueueMessageId) : Change s a (s.cell k) (t.cell k) := by
  refine (foldlM_pointwise_refl Store.cell (fun _ => True) (Change s a)
    (Change.same a) ?_ hnodup trivial hok).right k
  intro m b c _ _ hstart hc
  rcases deleteCandidate_inv hc with ⟨row, hrow, hready, hmatches, hdeleted⟩
  have hid : row.id = m.id := key_of_find? hrow
  have hcell := deleteMessage_cell hdeleted
  rw [deletePending_cell, hid, update_idem, update_self] at hcell
  refine ⟨trivial, _, hcell, ?_⟩
  rw [← hstart, show b.cell m.id = (some row, (b.cell m.id).2) from
    Prod.ext hrow rfl]
  exact hdelete row _ hready hmatches

/-! ## Claims -/

theorem mem_dueRows : m ∈ s.dueRows queueId nowMs ↔
      m ∈ s.messages ∧ m.queueId = queueId ∧ s.isDue nowMs m = true := by
  unfold Store.dueRows
  rw [List.mem_insertionSort, List.mem_filter, Bool.and_eq_true, decide_eq_true_eq]
  rfl

theorem mem_eligibleConsumers (hc : c ∈ s.eligibleConsumers nowMs limit after) :
    c ∈ s.consumers ∧ s.eligible nowMs c = true := by
  have hsorted := mem_of_mem_take hc
  rw [List.mem_insertionSort] at hsorted
  exact List.mem_filter.mp hsorted

theorem insertBatch_messages (hok : s.insertBatch b = .ok t) : t.messages = s.messages := by
  rcases Store.insertBatch_eq_ok hok with ⟨_, _, _, rfl⟩
  rfl

theorem insertBatch_cell (hok : s.insertBatch b = .ok t) : t.cell = s.cell := by
  rcases Store.insertBatch_eq_ok hok with ⟨_, _, _, rfl⟩
  exact cell_of_tables rfl rfl

theorem claimRows_cell {claim : Claim} (hnodup : (rows.map MessageRow.id).Nodup)
    (hstored : forall m, m ∈ rows -> m ∈ s.messages)
    (hok : rows.foldlM (claimRow nowMs claim) s = .ok t) :
    (forall k, ¬ k ∈ rows.map MessageRow.id -> t.cell k = s.cell k) ∧
      forall m, m ∈ rows -> s.cell m.id = (some m, none) ∧ m.claim = none ∧
        t.cell m.id = (some (Store.claimed m claim), none) := by
  refine (foldlM_pointwise Store.cell (fun _ => True)
    (fun m v v' => v = (some m, none) ∧ m.claim = none ∧
      v' = (some (Store.claimed m claim), none)) ?_ hnodup trivial hok).right
  intro m a b hm _ hstart hb
  have hfind : (a.cell m.id).1 = some m := by
    rw [hstart]
    exact find?_key (hstored m hm)
  rcases claimRow_inv hb with ⟨_, hrow, hdue, hclaim⟩
  cases Option.some.inj (hrow.symm.trans hfind)
  rcases isDue_iff.mp hdue with ⟨hready, _, _, hlane⟩
  have hnone : (a.cell m.id).2 = none := find?_eq_none_iff_keys.mpr hlane
  have hcell := claimMessage_cell (mem_of_find? hrow) hclaim
  rw [hnone] at hcell
  exact ⟨trivial, _, hcell, hstart ▸ Prod.ext hfind hnone, hready, rfl⟩

theorem dueMessages_rows (hok : s.dueMessages c nowMs = .ok rows) :
    (rows.map MessageRow.id).Nodup ∧ forall m, m ∈ rows ->
      m ∈ s.messages ∧ m.queueId = c.queueId ∧ m.attempts ≤ u16Max := by
  simp only [Store.dueMessages, mapMessages, ok_iff] at hok
  rcases hok with ⟨hattempts, rfl⟩
  constructor
  · rw [map_take]
    refine List.Nodup.sublist (take_sublist _ _) ?_
    exact (((perm_insertionSort _ _).map MessageRow.id).nodup_iff).mpr (messages_ids_nodup _ _)
  · intro m hm
    rcases mem_dueRows.mp (mem_of_mem_take hm) with ⟨hstored, hqueue, _⟩
    exact ⟨hstored, hqueue, hattempts m hm⟩

theorem claimConsumer_cell {acc result : List ClaimedQueueBatch × Store}
    {entry : ConsumerRow × QueueBatchId} (hok : claimConsumer nowMs acc entry = .ok result)
    (k : QueueMessageId) :
    result.2.cell k = acc.2.cell k ∨
      exists m, acc.2.cell k = (some m, none) ∧ m.queueId = entry.1.queueId ∧
        m.attempts ≤ u16Max ∧ m.claim = none ∧
        result.2.cell k = (some (Store.claimed m
          ⟨entry.2, entry.1.consumerId, entry.1.consumerGeneration⟩), none) := by
  rcases claimConsumer_inv hok with rfl | ⟨rows, _, hdue, _, hbatch, hfold, _⟩
  · exact Or.inl rfl
  rcases dueMessages_rows hdue with ⟨hnodup, hrows⟩
  have hloop := claimRows_cell hnodup
    (fun m hm => insertBatch_messages hbatch ▸ (hrows m hm).left) hfold
  rw [insertBatch_cell hbatch] at hloop
  rcases hloop with ⟨hothers, hclaimed⟩
  by_cases hk : k ∈ rows.map MessageRow.id
  · rcases List.mem_map.mp hk with ⟨m, hm, rfl⟩
    rcases hclaimed m hm with ⟨hcell, hready, hafter⟩
    rcases hrows m hm with ⟨_, hqueue, hattempts⟩
    exact Or.inr ⟨m, hcell, hqueue, hattempts, hready, hafter⟩
  · exact Or.inl (hothers k hk)

theorem claimQueueBatches_change {maxBatches : Nat} {ids : List QueueBatchId}
    {result : List ClaimedQueueBatch × Store}
    (hok : claimQueueBatches s nowMs maxBatches after ids = .ok result) (k : QueueMessageId) :
    Change s (.claim nowMs maxBatches after ids) (s.cell k) (result.2.cell k) := by
  simp only [claimQueueBatches, ok_iff] at hok
  rcases hok with ⟨_, hfold⟩
  refine foldlM_invariant (fun acc : List ClaimedQueueBatch × Store =>
    Change s (.claim nowMs maxBatches after ids) (s.cell k) (acc.2.cell k)) ?_
    (Change.same _ _) hfold
  intro entry a b hentry ha hb
  rcases claimConsumer_cell hb k with hsame | ⟨_, hm, hqueue, hattempts, hready, hclaimed⟩
  · rw [hsame]
    exact ha
  · have hzip := of_mem_zip hentry
    have hconsumer := (mem_eligibleConsumers hzip.left).left
    rw [hm] at ha
    rw [hclaimed]
    generalize s.cell k = before at ha
    cases ha with
    | same => exact Change.delivered hzip.right hconsumer hqueue.symm hattempts hready
    | delivered => cases hready

/-! ## Completion and forwarding -/

theorem moveToDlq_cell {target : QueueId × Nat} (hdelete : s.deleteMessage m = .ok u)
    (hinsert : u.insertDlqMessage m target nowMs = .ok t) :
    exists expiresAtMs hexpires, t.cell = update s.cell m.id
      (some (dlqRow m target nowMs expiresAtMs hexpires), (s.cell m.id).2) := by
  rcases insertDlqMessage_eq_ok.mp hinsert with ⟨_, _, _, expiresAtMs, _, hexpires, hmessage⟩
  have hinserted := (insertMessage_cell hmessage).right
  rw [dlqRow_id, deleteMessage_cell hdelete, update_idem, update_self] at hinserted
  exact ⟨expiresAtMs, hexpires, hinserted⟩

theorem Completion.cell {action : QueueCompletionAction}
    (houtcome : Completion batch action nowMs s m m t)
    (haction : decisionFor decisions m.id = some action) (hm : m ∈ s.messages)
    (hclaim : m.claim = some batch.claim) :
    exists v, t.cell = update s.cell m.id v ∧
      (forall n, v.1 = some n -> n.claim = none) ∧
      Change u (.complete batch decisions nowMs) (s.cell m.id) v := by
  have hcell : s.cell m.id = (some m, (s.cell m.id).2) := Prod.ext (find?_key hm) rfl
  rw [hcell]
  cases houtcome with
  | acknowledged hack hdelete =>
    exact ⟨_, deleteMessage_cell hdelete, nofun, Change.acknowledged hclaim (hack ▸ haction)⟩
  | expired hretry hexpired hdelete =>
    exact ⟨_, deleteMessage_cell hdelete, nofun,
      Change.expired ⟨hclaim, _, hretry ▸ haction⟩ hexpired⟩
  | retried hretry hlive hattempt _ hrelease =>
    rcases releaseMessage_cell hm hrelease with ⟨havailable, hreleased⟩
    exact ⟨_, hreleased, fun n hn => Option.some.inj hn ▸ rfl,
      Change.retried havailable ⟨hclaim, _, hretry ▸ haction⟩ hlive hattempt⟩
  | deadLettered hretry hlive hattempt hdlq _ hdelete hinsert =>
    rcases moveToDlq_cell hdelete hinsert with ⟨_, hexpires, hmoved⟩
    exact ⟨_, hmoved, fun n hn => Option.some.inj hn ▸ rfl,
      Change.deadLettered hexpires ⟨hclaim, _, hretry ▸ haction⟩ hlive hattempt hdlq⟩
  | deferred hsource hretry hlive hattempt hdlq _ _ hrelease _ hpending =>
    rcases releaseMessage_cell hm hrelease with ⟨havailable, hreleased⟩
    rcases insertPending_cell hpending with ⟨hlane, hdeferred⟩
    rw [pendingRow_messageId, hreleased, update_self] at hlane
    rw [pendingRow_messageId, hreleased, update_idem, update_self] at hdeferred
    rw [show (s.cell m.id).2 = none from hlane]
    exact ⟨_, hdeferred, fun n hn => Option.some.inj hn ▸ rfl,
      Change.deferred havailable hsource ⟨hclaim, _, hretry ▸ haction⟩ hlive hattempt hdlq⟩
  | discarded hretry hlive hattempt hdlq hdelete =>
    exact ⟨_, deleteMessage_cell hdelete, nofun,
      Change.discarded ⟨hclaim, _, hretry ▸ haction⟩ hlive hattempt hdlq⟩

theorem claimedMessages_eq_ok (hok : s.claimedMessages batch = .ok rows) :
    rows = s.messages.rows.filter (fun m => m.claim = some batch.claim) := by
  simp only [Store.claimedMessages, mapMessages, ok_iff] at hok
  rcases hok with ⟨_, rfl⟩
  rfl

theorem completeQueueBatch_change {result : QueueCompletionSummary × Store}
    (hok : completeQueueBatch s batch decisions nowMs = .ok result) (k : QueueMessageId) :
    Change s (.complete batch decisions nowMs) (s.cell k) (result.2.cell k) := by
  rcases (completeQueueBatch_inv hok).right with
    ⟨_, hsame⟩ | ⟨_, rows, acc, hrows, _, hfold, hdelete⟩
  · rw [hsame]
    exact Change.same _ _
  rcases Store.deleteBatch_eq_ok.mp hdelete with ⟨_, hstore⟩
  have hbatch : result.2.cell = acc.2.cell := by
    rw [← hstore]
    exact cell_of_tables rfl rfl
  have hmem := claimedMessages_eq_ok hrows
  have hnodup : (rows.map MessageRow.id).Nodup := by
    rw [hmem]
    exact messages_ids_nodup _ _
  rw [hbatch]
  refine (foldlM_pointwise_refl
    (fun acc : QueueCompletionSummary × Store => acc.2.cell) (fun _ => True)
    (Change s (.complete batch decisions nowMs)) (Change.same _) ?_ hnodup trivial
    hfold).right k
  intro m a b hm _ hstart hb
  have hfind : (a.2.cell m.id).1 = some m := by
    rw [hstart]
    rw [hmem] at hm
    exact find?_key (List.mem_filter.mp hm).left
  rcases completeMessage_inv hb with ⟨_, _, haction, hrow, hclaim, houtcome⟩
  cases Option.some.inj (hrow.symm.trans hfind)
  rcases houtcome.cell haction (mem_of_find? hrow) hclaim with ⟨v, hcell, _, hchange⟩
  exact ⟨trivial, v, hcell, hstart ▸ hchange⟩

theorem forwardPending_change {acc result : QueueDlqForwardSummary × Store} {id : QueueMessageId}
    (hok : forwardPending nowMs retryBackoffMs acc id = .ok result) :
    exists v, result.2.cell = update acc.2.cell id v ∧
      Change u (.forward nowMs retryBackoffMs limit) (acc.2.cell id) v := by
  rcases forwardPending_inv hok with ⟨p, m, hp, hm, hready, houtcome⟩
  have hid : m.id = id := key_of_find? hm
  have hpending := find?_eq_some.mp hp
  have hcell : acc.2.cell id = (some m, some p) := Prod.ext hm hp
  generalize result.2 = t at houtcome
  subst hid
  cases houtcome with
  | expired hexpired hdelete =>
    have hdeleted := deleteMessage_cell hdelete
    rw [deletePending_cell, update_idem, update_self] at hdeleted
    refine ⟨_, hdeleted, ?_⟩
    rw [hcell]
    exact Change.laneExpired hready hexpired
  | @moved moved _ hlive _ hdelete hinsert =>
    rcases moveToDlq_cell hdelete hinsert with ⟨_, hexpires, hmoved⟩
    have hcells := deletePending_cell moved m.id
    rw [hmoved, update_idem, update_self] at hcells
    refine ⟨_, hcells, ?_⟩
    rw [hcell]
    exact Change.forwarded hexpires hready hlive
  | @postponed nextAttemptAtMs hlive _ _ =>
    rw [← hpending.right] at hcell ⊢
    refine ⟨_, setPending_cell rfl (find?_replace hpending.left rfl), ?_⟩
    rw [hcell]
    exact Change.postponed nextAttemptAtMs hready hlive

/-! ## Recovery -/

theorem resetMessages_cell (hok : s.resetMessages nowMs = .ok t) :
    t.consumers = s.consumers ∧ forall k,
      t.cell k = ((s.cell k).1.map (recoverRow nowMs), (s.cell k).2) := by
  have hloop := foldlM_pointwise Store.cell (fun a => a.consumers = s.consumers)
    (fun m v v' => v' = (some (recoverRow nowMs m), v.2)) ?_
    (messages_ids_nodup _ _) rfl hok
  · rcases hloop with ⟨hconsumers, hothers, hreset⟩
    refine ⟨hconsumers, ?_⟩
    intro k
    by_cases hk : k ∈ (s.messages.rows.filter (fun m => m.claim ≠ none)).map MessageRow.id
    · rcases List.mem_map.mp hk with ⟨m, hm, rfl⟩
      have hfind : (s.cell m.id).1 = some m := find?_key (List.mem_filter.mp hm).left
      rw [hreset m hm, hfind]
      rfl
    · rw [hothers k hk]
      refine Prod.ext ?_ rfl
      cases hfind : (s.cell k).1 with
      | none => rfl
      | some m =>
        have hm := find?_eq_some.mp hfind
        have hready : m.claim = none := by
          by_contra hclaimed
          exact hk (List.mem_map.mpr ⟨m, List.mem_filter.mpr
            ⟨hm.left, decide_eq_true hclaimed⟩, hm.right⟩)
        exact congrArg some (if_pos hready).symm
  · intro m a b hm ha hstart hb
    rcases List.mem_filter.mp hm with ⟨hstored, hclaimed⟩
    have hfind : a.messages.find? m.id = some m :=
      (congrArg Prod.fst hstart).trans (find?_key hstored)
    rcases releaseMessage_cell (mem_of_find? hfind) hb with ⟨_, hcell⟩
    rcases Store.releaseMessage_eq_ok.mp hb with ⟨_, _, _, _, rfl⟩
    rw [hstart] at hcell
    refine ⟨ha, _, hcell, ?_⟩
    rw [recoverRow_claimed (of_decide_eq_true hclaimed)]

theorem deleteBatches_cell (hok : s.deleteBatches = .ok t) :
    t.consumers = s.consumers ∧ t.cell = s.cell := by
  refine foldlM_invariant (fun a : Store =>
    a.consumers = s.consumers ∧ a.cell = s.cell) ?_ ⟨rfl, rfl⟩ hok
  intro id a b _ ha hb
  rcases Store.deleteBatch_eq_ok.mp hb with ⟨_, rfl⟩
  exact ⟨ha.left, (cell_of_tables rfl rfl).trans ha.right⟩

theorem exhaustedBy_of_consumers (hconsumers : u.consumers = s.consumers) (m : MessageRow) :
    u.exhaustedBy m = s.exhaustedBy m := by
  unfold Store.exhaustedBy
  rw [hconsumers]

theorem resetPending_cell (hok : resetPending nowMs s m = .ok t) :
    t.consumers = s.consumers ∧ t.cell = update s.cell m.id
      ((s.cell m.id).1, recoverLane s nowMs m (s.cell m.id).2) := by
  have hkeep : recoverLane s nowMs m (s.cell m.id).2 = (s.cell m.id).2 ->
      s.cell = update s.cell m.id
        ((s.cell m.id).1, recoverLane s nowMs m (s.cell m.id).2) := by
    intro hlane
    rw [hlane]
    exact (update_eq_self m.id s.cell).symm
  unfold resetPending at hok
  cases hexhausted : s.exhaustedBy m with
  | none =>
    rw [hexhausted] at hok
    cases hok
    refine ⟨rfl, hkeep ?_⟩
    simp only [recoverLane, hexhausted, Option.bind_none]
  | some c =>
    cases hdlq : c.deadLetterQueue with
    | none =>
      simp only [hexhausted, hdlq] at hok
      cases hok
      refine ⟨rfl, hkeep ?_⟩
      simp only [recoverLane, hexhausted, Option.bind_some, hdlq]
    | some target =>
      have hrow := exhaustedBy_terminal hexhausted hdlq
      simp only [hexhausted, hdlq, dif_pos hrow] at hok
      simp only [recoverLane, hexhausted, Option.bind_some, hdlq, dif_pos hrow] at hkeep ⊢
      split at hok
      · rename_i hpending
        simp only [ok_iff] at hok
        rcases hok with ⟨_, rfl⟩
        rcases Option.isSome_iff_exists.mp hpending with ⟨p, hp⟩
        have hlane : (s.cell m.id).2 = some p := hp
        exact ⟨rfl, hkeep (by rw [hlane, Option.some_or])⟩
      · rcases insertPending_cell hok with ⟨hlane, hcell⟩
        rw [pendingRow_messageId] at hlane hcell
        rcases Store.insertPending_eq_ok.mp hok with ⟨_, _, _, _, rfl⟩
        rw [hlane]
        exact ⟨rfl, hcell⟩

theorem resetDiscard_eq (s : Store) (m : MessageRow) :
    resetDiscard s m = if s.discards m then s.deleteMessage m else .ok s := by
  unfold resetDiscard Store.discards
  cases s.exhaustedBy m with
  | none => rfl
  | some c => simp only [Option.any_some, decide_eq_true_eq]

theorem resetDiscard_cell (hok : resetDiscard s m = .ok t) :
    t.consumers = s.consumers ∧ t.cell = update s.cell m.id
      (if s.discards m then none else (s.cell m.id).1, (s.cell m.id).2) := by
  rw [resetDiscard_eq] at hok
  split at hok
  · rename_i hdiscards
    rw [if_pos hdiscards]
    refine ⟨?_, deleteMessage_cell hok⟩
    rcases Store.deleteMessage_eq_ok.mp hok with ⟨_, _, _, _, rfl⟩
    rfl
  · rename_i hkept
    cases hok
    rw [if_neg hkept]
    exact ⟨rfl, (update_eq_self m.id s.cell).symm⟩

theorem foldlM_messages_cell {step : Store -> MessageRow -> Except SqlError Store}
    (f : MessageRow -> Cell -> Cell)
    (hstep : forall m a b, a.consumers = s.consumers -> step a m = .ok b ->
      b.consumers = s.consumers ∧ b.cell = update a.cell m.id (f m (a.cell m.id)))
    (hok : s.messages.rows.foldlM step s = .ok t) :
    t.consumers = s.consumers ∧ forall k, t.cell k = match (s.cell k).1 with
      | none => s.cell k
      | some m => f m (s.cell k) := by
  have hloop := foldlM_pointwise Store.cell
    (fun a => a.consumers = s.consumers) (fun m v v' => v' = f m v) ?_
    s.messages.nodup rfl hok
  · rcases hloop with ⟨hconsumers, hothers, hrows⟩
    refine ⟨hconsumers, ?_⟩
    intro k
    split
    · rename_i hnone
      exact hothers k (find?_eq_none_iff_keys.mp hnone)
    · rename_i m hsome
      have hm := find?_eq_some.mp hsome
      have hcell := hrows m hm.left
      rw [hm.right] at hcell
      exact hcell
  · intro m a b _ ha hstart hb
    rcases hstep m a b ha hb with ⟨hconsumers, hcell⟩
    rw [hstart] at hcell
    exact ⟨hconsumers, _, hcell, rfl⟩

theorem resetClaims_cell {cronMaxRetries : Nat} (hok : resetClaims s nowMs cronMaxRetries = .ok t)
    (k : QueueMessageId) : t.cell k = recoverCell s nowMs (s.cell k) := by
  rcases resetClaims_inv hok with ⟨_, v, _, hu, hv, hx, ht⟩
  rcases resetMessages_cell hu with ⟨hconsumers, hreset⟩
  rcases deleteBatches_cell hv with ⟨hsame, hbatches⟩
  have hvs : v.consumers = s.consumers := hsame.trans hconsumers
  have hpending := foldlM_messages_cell (fun m cell => (cell.1, recoverLane s nowMs m cell.2)) ?_ hx
  · have hdiscards := foldlM_messages_cell
      (fun m cell => (if s.discards m then none else cell.1, cell.2)) ?_ ht
    · rw [hdiscards.right k, hpending.right k, hbatches, hreset k]
      cases hcell : s.cell k with
      | mk row lane =>
        cases row with
        | none | some m => rfl
    · intro m a b ha hb
      rcases resetDiscard_cell hb with ⟨hb', hcell⟩
      have hax : a.consumers = s.consumers := ha.trans (hpending.left.trans hvs)
      refine ⟨hb'.trans ha, ?_⟩
      rw [hcell]
      unfold Store.discards
      rw [exhaustedBy_of_consumers hax]
  · intro m a b ha hb
    rcases resetPending_cell hb with ⟨hb', hcell⟩
    refine ⟨hb'.trans ha, ?_⟩
    rw [hcell]
    unfold recoverLane
    rw [exhaustedBy_of_consumers (ha.trans hvs)]

end Operations

/-! ## Steps -/

theorem next_change {env : Environment} {w v : World} {a : Action} (hs : w.store.Ok env)
    (hnext : w.next env a = some v) (k : QueueMessageId) :
    Change w.store a (w.store.cell k) (v.store.cell k) := by
  by_cases hmoves : a.parts .messages
  · cases a <;> simp only [World.next, Option.ite_none_right_eq_some,
      World.after_eq_some, snd_eq_ok] at hnext
    case enqueue request ids nowMs =>
      rcases hnext with ⟨hfresh, hnext⟩
      split at hnext <;> cases hnext
      rename_i result t hok
      rcases (enqueueQueue_inv hok).right with ⟨_, _, _, _, _, _, rfl⟩ | ⟨_, haccept⟩
      · exact Change.same _ _
      · rcases acceptEnqueue_cell hfresh.left.left hfresh.right haccept with
          ⟨hothers, hinserted⟩
        by_cases hk : k ∈ ids
        · rcases hinserted k hk with ⟨hnone, m, hafter, hchange⟩
          rw [hafter, show w.store.cell k = (none, (w.store.cell k).2) from Prod.ext hnone rfl]
          exact hchange
        · rw [hothers k hk]
          exact Change.same _ _
    case claim nowMs maxBatches after ids =>
      rcases hnext with ⟨_, hnext⟩
      split at hnext <;> cases hnext
      rename_i t hok
      exact claimQueueBatches_change hok k
    case complete =>
      rcases hnext with ⟨_, t, ⟨summary, hok⟩, rfl⟩
      exact completeQueueBatch_change hok k
    case forward nowMs retryBackoffMs limit =>
      rcases hnext with ⟨t, ⟨_, hok⟩, rfl⟩
      simp only [forwardQueueDlqPending, ok_iff] at hok
      rcases hok with ⟨_, hfold⟩
      have hnodup : (((w.store.duePending nowMs limit).map DlqPendingRow.messageId).map
          id).Nodup := by
        rw [map_id]
        exact duePending_nodup w.store nowMs limit
      refine (foldlM_pointwise_refl
        (fun acc : QueueDlqForwardSummary × Store => acc.2.cell) (fun _ => True)
        (Change w.store (.forward nowMs retryBackoffMs limit)) (Change.same _) ?_ hnodup
        trivial hfold).right k
      intro id a b _ _ hstart hb
      exact ⟨trivial, hstart ▸ forwardPending_change hb⟩
    case sweep =>
      rcases hnext with ⟨t, ⟨result, hok⟩, rfl⟩
      simp only [sweepQueueRetention, ok_iff] at hok
      rcases hok with ⟨_, u, hfold, hresult⟩
      cases hresult
      refine deleteCandidates_change ?_ (selectDeleteCandidates_nodup _ _ _ _ _) hfold k
      intro m lane hready hexpired
      exact Change.swept hready (of_decide_eq_true hexpired)
    case purge =>
      rcases hnext with ⟨t, ⟨_, hok⟩, rfl⟩
      simp only [purgeQueue, ok_iff] at hok
      rcases hok with ⟨_, _, _, hfold, hresult⟩
      cases hresult
      refine deleteCandidates_change ?_ (selectDeleteCandidates_nodup _ _ _ _ _) hfold k
      intro m lane hready hqueue
      exact Change.purged hready (of_decide_eq_true hqueue)
    case restart =>
      rcases hnext with ⟨t, hok, rfl⟩
      change Change w.store _ (w.store.cell k) (t.cell k)
      rw [resetClaims_cell hok k]
      exact Change.recovered _
    all_goals simp [Action.parts] at hmoves
  · have hspares : ¬ a.parts .discards := by
      cases a <;> simp_all [Action.parts]
    rcases (next_writes hs hnext).frame.messages hmoves hspares with ⟨hmessages, hpending⟩
    rw [cell_of_tables hmessages hpending]
    exact Change.same a _

end Queue
end OpenCompute
