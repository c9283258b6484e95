import OpenCompute.Queue.InFlight
import OpenCompute.Queue.Receipts

/-!
# Conservation of messages

A message that was accepted stays in the store, in one Queue and under at most
one batch, until one of four things ends it: its acknowledgement, its expiry,
a purge of its Queue, or a failed delivery beyond the retry limit of a consumer
without a dead-letter Queue.
-/

namespace OpenCompute
namespace Queue

open Relational Table Transaction Transition Option

/-! ## How a message moves and how it ends -/

/-- The deliveries of a message that did not succeed, one under way included. -/
def deliveries (m : MessageRow) : Nat :=
  if m.claim = none then m.attempts else m.attempts + 1

/--
The action between two worlds takes the message up: it settles the delivery under
way, delivers the message, or takes it out of the dead-letter lane.
-/
def Concerns (w v : World) : Action -> MessageRow -> Prop
  | .claim _ _ _ ids, m => exists b, b ∈ v.returned ∧ b.id ∈ ids ∧
      m.id ∈ b.messages.map ClaimedQueueMessage.id
  | .complete batch _ _, m => m.claim = some batch.claim
  | .restart _ _, m => m.claim ≠ none
  | .forward _ _ _, m => m.id ∈ w.store.pending.keys ∧ ¬ m.id ∈ v.store.pending.keys
  | _, _ => False

inductive Movement (w v : World) : Action -> MessageRow -> MessageRow -> Prop where
  | stays {a : Action} {m : MessageRow} : ¬ Concerns w v a m -> Movement w v a m m
  | delivered {nowMs : Millis} {maxBatches : Nat} {after : Option QueueId}
      {ids : List QueueBatchId} {m : MessageRow} {c : ConsumerRow} {id : QueueBatchId} :
      id ∈ ids -> c ∈ w.store.consumers -> c.queueId = m.queueId -> m.claim = none ->
      Movement w v (.claim nowMs maxBatches after ids) m
        (Store.claimed m ⟨id, c.consumerId, c.consumerGeneration⟩)
  | failed {batch : ClaimedQueueBatch} {decisions : List QueueCompletionDecision}
      {nowMs availableAtMs : Millis} {m : MessageRow}
      (havailable : m.enqueuedAtMs ≤ availableAtMs) :
      FailedDelivery batch decisions m ->
      Movement w v (.complete batch decisions nowMs) m
        (Store.released m (m.attempts + 1) availableAtMs havailable)
  | interrupted {nowMs availableAtMs : Millis} {cronMaxRetries : Nat}
      {m : MessageRow} (havailable : m.enqueuedAtMs ≤ availableAtMs) :
      m.claim ≠ none ->
      Movement w v (.restart nowMs cronMaxRetries) m
        (Store.released m (m.attempts + 1) availableAtMs havailable)
  | deadLettered {batch : ClaimedQueueBatch}
      {decisions : List QueueCompletionDecision} {nowMs expiresAtMs : Millis}
      {m : MessageRow} {target : QueueId × Nat} (hexpires : nowMs < expiresAtMs) :
      FailedDelivery batch decisions m -> batch.maxRetries < deliveries m ->
      batch.deadLetterQueue = some target ->
      Movement w v (.complete batch decisions nowMs) m
        (dlqRow m target nowMs expiresAtMs hexpires)
  | forwarded {nowMs expiresAtMs : Millis} {retryBackoffMs limit : Nat}
      {m : MessageRow} {p : DlqPendingRow} (hexpires : nowMs < expiresAtMs) :
      m.claim = none -> w.store.pending.find? m.id = some p ->
      Movement w v (.forward nowMs retryBackoffMs limit) m
        (dlqRow m (p.targetQueueId, p.targetQueueGeneration) nowMs expiresAtMs
          hexpires)

inductive Removal (s : Store) : Action -> MessageRow -> Prop where
  | acknowledged {batch : ClaimedQueueBatch}
      {decisions : List QueueCompletionDecision} {nowMs : Millis} {m : MessageRow} :
      m.claim = some batch.claim -> decisionFor decisions m.id = some .ack ->
      Removal s (.complete batch decisions nowMs) m
  | expiredInFlight {batch : ClaimedQueueBatch}
      {decisions : List QueueCompletionDecision} {nowMs : Millis} {m : MessageRow} :
      FailedDelivery batch decisions m -> m.expiresAtMs ≤ nowMs ->
      Removal s (.complete batch decisions nowMs) m
  | expiredInLane {nowMs : Millis} {retryBackoffMs limit : Nat} {m : MessageRow} :
      m.expiresAtMs ≤ nowMs -> Removal s (.forward nowMs retryBackoffMs limit) m
  | expiredInBacklog {nowMs : Millis} {maxRows maxBytes : Nat} {m : MessageRow} :
      m.expiresAtMs ≤ nowMs -> Removal s (.sweep nowMs maxRows maxBytes) m
  | purged {queueId : QueueId} {maxRows maxBytes : Nat} {m : MessageRow} :
      m.queueId = queueId -> Removal s (.purge queueId maxRows maxBytes) m
  | discarded {batch : ClaimedQueueBatch}
      {decisions : List QueueCompletionDecision} {nowMs : Millis} {m : MessageRow} :
      FailedDelivery batch decisions m -> batch.maxRetries < deliveries m ->
      batch.deadLetterQueue = none -> Removal s (.complete batch decisions nowMs) m
  | discardedByRestart {nowMs : Millis} {cronMaxRetries : Nat} {m : MessageRow}
      {c : ConsumerRow} :
      c ∈ s.consumers -> c.queueId = m.queueId ->
      c.config.maxRetries < deliveries m -> c.deadLetterQueue = none ->
      Removal s (.restart nowMs cronMaxRetries) m

/-- What one action does to the row under one identifier. -/
inductive Transfer (w v : World) (a : Action) :
    Option MessageRow -> Option MessageRow -> Prop where
  | absent : Transfer w v a none none
  | accepted {request : QueueEnqueueRequest} {ids : List QueueMessageId}
      {nowMs : Millis} {m : MessageRow} :
      a = .enqueue request ids nowMs -> m.id ∈ ids -> Fresh ids w.messageIds ->
      m.queueId = request.queueId -> m.attempts = 0 -> m.claim = none ->
      Transfer w v a none (some m)
  | moved {m n : MessageRow} : Movement w v a m n -> Transfer w v a (some m) (some n)
  | removed {m : MessageRow} : Removal w.store a m -> Transfer w v a (some m) none

/-!
## Attempts stay bounded

As long as the consumers stay, a message outside the lane has at most as many
attempts as any consumer may retry.  The counter therefore never saturates.
-/

def CellBounded (s : Store) (cell : Cell) : Prop :=
  forall m, cell.1 = some m -> (m.attempts ≤ 100 ∨ cell.2 ≠ none) ∧
      (m.claim ≠ none -> m.queueId ∈ s.consumers.keys)

def AttemptsBounded (s : Store) : Prop :=
  forall k, CellBounded s (s.cell k)

theorem cellBounded_none (s : Store) (lane : Option DlqPendingRow) :
    CellBounded s (none, lane) := by
  intro m hm
  cases hm

variable {s : Store} {m : MessageRow} {lane : Option DlqPendingRow} {nowMs : Millis}
  {env : Environment} {a : Action} {w : World}

theorem cellBounded_ready (hready : m.claim = none) (hattempts : m.attempts ≤ 100 ∨ lane ≠ none) :
    CellBounded s (some m, lane) := by
  intro n hn
  cases hn
  exact ⟨hattempts, fun hclaimed => absurd hready hclaimed⟩

variable {row : MessageRow} {v : World} {id : QueueMessageId} {actions : List Action}

theorem recoverCell_bounded {cell : Cell} (hcell : CellBounded s cell) :
    CellBounded s (recoverCell s nowMs cell) := by
  rcases cell with ⟨row, lane⟩
  cases row with
  | none => exact cellBounded_none s lane
  | some m =>
    rcases hcell m rfl with ⟨hattempts, hconsumer⟩
    simp only [recoverCell]
    by_cases hdiscards : s.discards (recoverRow nowMs m) = true
    · rw [if_pos hdiscards]
      exact cellBounded_none s _
    · rw [if_neg hdiscards]
      refine cellBounded_ready (recoverRow_ready nowMs m) ?_
      by_cases hready : m.claim = none
      · have hrow : recoverRow nowMs m = m := if_pos hready
        rw [hrow]
        refine hattempts.imp_right fun hlane => ?_
        unfold recoverLane
        split
        · exact hlane
        · split
          · rcases ne_none_iff_exists'.mp hlane with ⟨p, rfl⟩
            exact some_ne_none p
          · exact hlane
      · by_cases hlimit : m.attempts + 1 ≤ 100
        · rw [recoverRow_claimed hready]
          exact .inl hlimit
        · rcases exists_find?_iff_keys.mpr (hconsumer hready) with ⟨c, hc⟩
          have hexhausted : s.exhaustedBy (recoverRow nowMs m) = some c := by
            refine exhaustedBy_eq_some.mpr ⟨recoverRow_ready nowMs m, ?_⟩
            rw [recoverRow_claimed hready]
            exact ⟨hc, lt_of_le_of_lt c.config.retries_le (not_le.mp hlimit)⟩
          cases hdlq : c.deadLetterQueue with
          | none =>
            refine absurd ?_ hdiscards
            simp only [Store.discards, hexhausted, any_some, hdlq, decide_true]
          | some target =>
            right
            simp only [recoverLane, hexhausted, bind_some, hdlq,
              dif_pos (exhaustedBy_terminal hexhausted hdlq)]
            cases lane with
            | none => exact some_ne_none _
            | some p => exact some_ne_none p

theorem nextAttempt_of_le {attempts : Nat} (hattempts : attempts ≤ 100) :
    nextAttempt attempts = attempts + 1 := by
  unfold nextAttempt u16Max
  omega

def LaneFree (cell : Cell) : Prop :=
  forall m, cell.1 = some m -> m.claim ≠ none -> cell.2 = none

theorem CellBounded.attempts_le (hcell : CellBounded s (some m, lane))
    (hlane : LaneFree (some m, lane)) (hclaimed : m.claim ≠ none) : m.attempts ≤ 100 :=
  (hcell m rfl).left.resolve_right (fun hne => hne (hlane m rfl hclaimed))

theorem Change.bounded {x y : Cell} (hchange : Change s a x y) (hcell : CellBounded s x)
    (hretries : forall batch decisions nowMs, a = .complete batch decisions nowMs ->
      batch.maxRetries ≤ 100) : CellBounded s y := by
  cases hchange with
  | same => exact hcell
  | accepted _ _ hattempts hready =>
    refine cellBounded_ready hready (.inl ?_)
    rw [hattempts]
    exact Nat.zero_le 100
  | @delivered _ _ _ _ m c _ _ hc hqueue _ hready =>
    intro n hn
    cases hn
    refine ⟨(hcell m rfl).left, fun _ => ?_⟩
    exact mem_keys.mpr ⟨c, hc, hqueue⟩
  | @retried batch _ _ _ m _ _ _ _ hattempt =>
    refine cellBounded_ready rfl (.inl ?_)
    exact le_trans hattempt (hretries _ _ _ rfl)
  | deadLettered | forwarded => exact cellBounded_ready rfl (.inl (Nat.zero_le 100))
  | deferred => exact cellBounded_ready rfl (.inr (some_ne_none _))
  | @postponed _ _ _ m _ _ hready _ =>
    exact cellBounded_ready hready (.inr (some_ne_none _))
  | acknowledged | expired | discarded | laneExpired | swept | purged =>
    exact cellBounded_none s _
  | recovered => exact recoverCell_bounded hcell

def KeepsPolicies (w : World) (a : Action) : Prop :=
  a.EditsConsumers -> w.store.messages.rows = []

instance (w : World) (a : Action) : Decidable (KeepsPolicies w a) :=
  inferInstanceAs (Decidable (a.EditsConsumers -> w.store.messages.rows = []))

theorem next_attemptsBounded (hw : w.Ok env) (hbounded : AttemptsBounded w.store)
    (hkeeps : KeepsPolicies w a) (hnext : w.next env a = some v) : AttemptsBounded v.store := by
  intro k
  have hchange := next_change hw.store hnext k
  by_cases hedits : a.EditsConsumers
  · have hempty : (w.store.cell k).1 = none := by
      refine find?_eq_none.mpr ?_
      intro m hm
      rw [← mem_rows, hkeeps hedits] at hm
      cases hm
    have hsame : v.store.cell k = w.store.cell k := by
      cases a <;> first | exact absurd hedits not_false | skip
      all_goals
        generalize w.store.cell k = x at hchange
        cases hchange
        rfl
    intro m hm
    rw [hsame, hempty] at hm
    cases hm
  · have hkeys : v.store.consumers.keys = w.store.consumers.keys := by
      refine (next_writes hw.store hnext).frame.keys fun hpart => hedits ?_
      cases a <;> simp_all [Action.parts, Action.EditsConsumers]
    have hcell : CellBounded w.store (v.store.cell k) := by
      refine hchange.bounded (hbounded k) ?_
      intro batch decisions nowMs ha
      subst ha
      simp only [World.next, ite_none_right_eq_some] at hnext
      exact hw.inFlight.retries batch hnext.left
    intro m hm
    rcases hcell m hm with ⟨hattempts, hconsumer⟩
    exact ⟨hattempts, fun hclaimed => hkeys ▸ hconsumer hclaimed⟩

/-! ## Steps -/

theorem deliveries_claimed (hclaimed : m.claim ≠ none) : deliveries m = m.attempts + 1 :=
  if_neg hclaimed

theorem FailedDelivery.claimed {batch : ClaimedQueueBatch}
    {decisions : List QueueCompletionDecision} (hfailed : FailedDelivery batch decisions m) :
    m.claim ≠ none := by
  rw [hfailed.left]
  exact some_ne_none batch.claim

theorem recoverCell_transfer {cronMaxRetries : Nat} (cell : Cell) :
    Transfer w v (.restart nowMs cronMaxRetries) cell.1 (recoverCell w.store nowMs cell).1 := by
  rcases cell with ⟨row, _⟩
  cases row with
  | none => exact Transfer.absent
  | some m =>
    simp only [recoverCell]
    have hattempts : (recoverRow nowMs m).attempts = deliveries m := by
      unfold recoverRow deliveries
      split <;> rfl
    have hqueue : (recoverRow nowMs m).queueId = m.queueId := by
      unfold recoverRow
      split <;> rfl
    split
    · rename_i hdiscards
      refine Transfer.removed ?_
      rcases (any_eq_true _ _).mp hdiscards with ⟨_, hexhausted, hdlq⟩
      rcases exhaustedBy_eq_some.mp hexhausted with ⟨_, hconsumer, hlimit⟩
      have hc := find?_eq_some.mp hconsumer
      exact Removal.discardedByRestart hc.left (hc.right.trans hqueue)
        (hattempts ▸ hlimit) (of_decide_eq_true hdlq)
    · refine Transfer.moved ?_
      by_cases hready : m.claim = none
      · have hrow : recoverRow nowMs m = m := if_pos hready
        rw [hrow]
        exact Movement.stays fun hclaimed => hclaimed hready
      · rw [recoverRow_claimed hready]
        exact Movement.interrupted _ hready

theorem Change.transfer {x y : Cell} {k : QueueMessageId} (hchange : Change w.store a x y)
    (hx : x = w.store.cell k) (hy : y = v.store.cell k) (hcell : CellBounded w.store x)
    (hlane : LaneFree x)
    (hfresh : forall request ids nowMs, a = .enqueue request ids nowMs -> Fresh ids w.messageIds)
    (hstays : forall m, y = x -> x.1 = some m -> ¬ Concerns w v a m) :
    Transfer w v a x.1 y.1 := by
  cases hchange with
  | same =>
    cases hrow : x.1 with
    | none => exact Transfer.absent
    | some m => exact Transfer.moved (Movement.stays (hstays m rfl hrow))
  | accepted hid hqueue hattempts hready =>
    exact Transfer.accepted rfl hid (hfresh _ _ _ rfl) hqueue hattempts hready
  | delivered hid hc hqueue _ hready =>
    exact Transfer.moved (Movement.delivered hid hc hqueue hready)
  | acknowledged hclaim hack => exact Transfer.removed (Removal.acknowledged hclaim hack)
  | expired hfailed hexpired => exact Transfer.removed (Removal.expiredInFlight hfailed hexpired)
  | retried havailable hfailed _ _ =>
    rw [nextAttempt_of_le (hcell.attempts_le hlane hfailed.claimed)]
    exact Transfer.moved (Movement.failed havailable hfailed)
  | deadLettered hexpires hfailed _ hattempt hdlq =>
    rw [nextAttempt_of_le (hcell.attempts_le hlane hfailed.claimed),
      ← deliveries_claimed hfailed.claimed] at hattempt
    exact Transfer.moved (Movement.deadLettered hexpires hfailed hattempt hdlq)
  | deferred havailable _ hfailed _ _ _ =>
    dsimp only
    rw [nextAttempt_of_le (hcell.attempts_le hlane hfailed.claimed)]
    exact Transfer.moved (Movement.failed havailable hfailed)
  | discarded hfailed _ hattempt hdlq =>
    rw [nextAttempt_of_le (hcell.attempts_le hlane hfailed.claimed),
      ← deliveries_claimed hfailed.claimed] at hattempt
    exact Transfer.removed (Removal.discarded hfailed hattempt hdlq)
  | laneExpired _ hexpired => exact Transfer.removed (Removal.expiredInLane hexpired)
  | @forwarded _ _ _ _ m p hexpires hready _ =>
    have hm : w.store.messages.find? k = some m := (congrArg Prod.fst hx).symm
    have hp : w.store.pending.find? k = some p := (congrArg Prod.snd hx).symm
    rw [← (key_of_find? hm)] at hp
    exact Transfer.moved (Movement.forwarded hexpires hready hp)
  | @postponed _ _ _ m _ _ _ _ =>
    refine Transfer.moved (Movement.stays fun hconcerns => hconcerns.right ?_)
    have hm : w.store.messages.find? k = some m := (congrArg Prod.fst hx).symm
    rw [key_of_find? hm]
    exact exists_find?_iff_keys.mp ⟨_, (congrArg Prod.snd hy).symm⟩
  | swept _ hexpired => exact Transfer.removed (Removal.expiredInBacklog hexpired)
  | purged _ hqueue => exact Transfer.removed (Removal.purged hqueue)
  | recovered => exact recoverCell_transfer x

theorem next_unconcerned (hw : w.Ok env) (hnext : w.next env a = some v)
    (hsame : v.store.cell id = w.store.cell id) (hm : w.store.messages.find? id = some m) :
    ¬ Concerns w v a m := by
  have hv := next_worldOk hw hnext
  have hwm := find?_eq_some.mp hm
  have hvm : m ∈ v.store.messages := mem_of_find? ((congrArg Prod.fst hsame).trans hm)
  intro hconcerns
  cases a with
  | claim nowMs maxBatches after ids =>
    simp only [World.next, ite_none_right_eq_some] at hnext
    rcases hnext with ⟨⟨hfresh, _⟩, hnext⟩
    split at hnext <;> cases hnext
    rename_i batches t hok
    rcases hconcerns with ⟨b, hb, hid, hmem⟩
    rcases List.mem_append.mp hb with hb | hb
    · have hstored := claimQueueBatches_stored hw.store hok b hb
      rcases ((hv.inFlight.delivers b (List.mem_append_left _ hb) hstored).right m.id).mp hmem with
        ⟨n, hn, hclaim⟩
      rw [eq_of_key_eq hvm (mem_of_find? hn) (key_of_find? hn).symm] at hwm
      rcases hw.batch_of_claim hwm.left hclaim with ⟨d, hd, hsame, _⟩
      have hbatch : d.id = b.id := congrArg Claim.claimBatchId hsame
      exact hfresh.right b.id hid (hbatch ▸ hw.batchIds d hd)
    · exact hfresh.right b.id hid (hw.batchIds b hb)
  | complete batch decisions nowMs =>
    simp only [World.next, ite_none_right_eq_some, World.after_eq_some, snd_eq_ok] at hnext
    rcases hnext with ⟨_, t, ⟨summary, hok⟩, rfl⟩
    rcases completeQueueBatch_batches hw.store hok with ⟨hstale, _⟩ | hbatches
    · rcases holdsClaim_iff.mp (hw.store.claim_held m _ hwm.left hconcerns) with
        ⟨r, hr, hid, _, howner⟩
      rw [ownsClaim_iff.mpr ⟨r, hr, hid, howner⟩] at hstale
      cases hstale
    · rcases holdsClaim_iff.mp (hv.store.claim_held m _ hvm hconcerns) with ⟨r, hr, hid, _⟩
      exact (mem_erase.mp (hbatches ▸ hr : r ∈ w.store.batches.erase batch.id)).right hid
  | restart nowMs cronMaxRetries =>
    simp only [World.next, World.after_eq_some] at hnext
    rcases hnext with ⟨t, hok, rfl⟩
    rcases ne_none_iff_exists'.mp hconcerns with ⟨c, hclaim⟩
    rcases holdsClaim_iff.mp (hv.store.claim_held m c hvm hclaim) with ⟨r, hr, _⟩
    exact InFlight.resetClaims_batches hw.store hok r hr
  | forward nowMs retryBackoffMs limit =>
    have hpending : v.store.pending.find? id = w.store.pending.find? id :=
      congrArg Prod.snd hsame
    rcases hconcerns with ⟨hlane, hleft⟩
    rw [hwm.right] at hlane hleft
    rcases exists_find?_iff_keys.mpr hlane with ⟨p, hp⟩
    exact hleft (exists_find?_iff_keys.mp ⟨p, hpending.trans hp⟩)
  | _ => exact hconcerns

theorem next_transfer (hw : w.Ok env) (hbounded : AttemptsBounded w.store)
    (hnext : w.next env a = some v) (id : QueueMessageId) :
    Transfer w v a (w.store.messages.find? id) (v.store.messages.find? id) := by
  refine (next_change hw.store hnext id).transfer rfl rfl (hbounded id) ?_ ?_ fun m hsame hm =>
    next_unconcerned hw hnext hsame hm
  · intro m hm hclaimed
    have hfound := find?_eq_some.mp hm
    refine find?_eq_none_iff_keys.mpr ?_
    rw [← hfound.right]
    exact hw.store.claimed_not_pending m hfound.left hclaimed
  · intro request ids nowMs ha
    subst ha
    simp only [World.next, ite_none_right_eq_some] at hnext
    exact hnext.left.left

/-! ## Accepted messages -/

theorem next_accepted_stored (hw : w.Traced env) (hnext : w.next env a = some v) :
    forall x, x ∈ v.accepted -> (exists z, z ∈ w.accepted ∧ z.2 = x.2) ∨
      forall id, id ∈ x.2.messageIds -> exists m, v.store.messages.find? id = some m := by
  intro x hx
  by_cases henqueue : forall request ids nowMs, a ≠ .enqueue request ids nowMs
  · rw [((next_records hnext).right henqueue).left] at hx
    exact .inl ⟨x, hx, rfl⟩
  · push Not at henqueue
    rcases henqueue with ⟨_, _, _, rfl⟩
    simp only [World.next, ite_none_right_eq_some] at hnext
    rcases hnext with ⟨⟨hfresh, hlength⟩, hnext⟩
    split at hnext <;> cases hnext
    rename_i hok
    rcases List.mem_cons.mp hx with rfl | hx
    · rcases (enqueueQueue_inv hok).right with ⟨o, ho, _, _, _, hresponse, _⟩ | ⟨_, haccept⟩
      · rcases hw.receipt o (mem_of_find? ho) with ⟨z, hz, hreceipt⟩
        exact .inl ⟨z, hz, hreceipt.right.right.right.right.symm.trans hresponse⟩
      · right
        intro id hid
        rcases acceptEnqueue_inv haccept with ⟨_, _, _, _, _, hids, _⟩
        rw [hids] at hid
        rcases (acceptEnqueue_cell hfresh.left hlength haccept).right id hid with ⟨_, m, hafter, _⟩
        exact ⟨m, congrArg Prod.fst hafter⟩
    · exact .inl ⟨x, hx, rfl⟩

/-! ## Runs -/

def InOnePlace (s : Store) (id : QueueMessageId) : Prop :=
  exists m, m ∈ s.messages ∧ m.id = id ∧ (forall n, n ∈ s.messages -> n.id = id -> n = m) ∧
    m.queueId ∈ s.queues.keys ∧
    (m.claim = none ∨ exists c, m.claim = some c ∧
      exists b, b ∈ s.batches ∧ b.id = c.claimBatchId ∧ b.queueId = m.queueId ∧
        forall d, d ∈ s.batches -> d.id = c.claimBatchId -> d = b)

/-- A step of the run ended the message in one of the four ways. -/
def RemovedDuring (env : Environment) (actions : List Action)
    (id : QueueMessageId) : Prop :=
  exists before a rest u v m, actions = before ++ a :: rest ∧
    Run (World.next env) KeepsPolicies World.initial before u ∧
    u.next env a = some v ∧ u.store.messages.find? id = some m ∧
    v.store.messages.find? id = none ∧ Removal u.store a m

theorem Store.Ok.inOnePlace (hs : s.Ok env) (hfind : s.messages.find? id = some m) :
    InOnePlace s id := by
  rcases find?_eq_some.mp hfind with ⟨hm, hid⟩
  refine ⟨m, hm, hid, ?_, hs.message_queue m hm, ?_⟩
  · intro n hn hnid
    exact eq_of_key_eq hn hm (hnid.trans hid.symm)
  · cases hclaim : m.claim with
    | none => exact .inl rfl
    | some c =>
      right
      rcases holdsClaim_iff.mp (hs.claim_held m c hm hclaim) with ⟨b, hb, hbid, hqueue, _⟩
      refine ⟨c, rfl, b, hb, hbid, hqueue, ?_⟩
      intro d hd hdid
      exact eq_of_key_eq hd hb (hdid.trans hbid.symm)

theorem RemovedDuring.snoc (hremoved : RemovedDuring env actions id) (a : Action) :
    RemovedDuring env (actions ++ [a]) id := by
  rcases hremoved with ⟨before, b, rest, u, v, m, rfl, hfacts⟩
  refine ⟨before, b, rest ++ [a], u, v, m, ?_, hfacts⟩
  rw [List.append_assoc, List.cons_append]

/-- What holds of a world that a run without edits of busy consumers reached. -/
structure Conserved (env : Environment) (actions : List Action) (w : World) :
    Prop where
  ok : w.Ok env
  bounded : AttemptsBounded w.store
  kept : forall x id, x ∈ w.accepted -> id ∈ x.2.messageIds ->
    (exists m, w.store.messages.find? id = some m) ∨ RemovedDuring env actions id

theorem run_conserved (hrun : Run (World.next env) KeepsPolicies World.initial actions w) :
    Conserved env actions w := by
  refine hrun.history (P := Conserved env) ?_ ?_
  · intro bs u a v hbs hu hkeeps hnext
    refine ⟨next_worldOk hu.ok hnext, next_attemptsBounded hu.ok hu.bounded hkeeps hnext, ?_⟩
    have hold : forall z id, z ∈ u.accepted -> id ∈ z.2.messageIds ->
        (exists m, v.store.messages.find? id = some m) ∨ RemovedDuring env (bs ++ [a]) id := by
      intro z id hz hid
      rcases hu.kept z id hz hid with ⟨m, hm⟩ | hremoved
      · have htransfer := next_transfer hu.ok hu.bounded hnext id
        cases hafter : v.store.messages.find? id with
        | some n => exact .inl ⟨n, rfl⟩
        | none =>
          right
          rw [hm, hafter] at htransfer
          cases htransfer with
          | removed hremoval => exact ⟨bs, a, [], u, v, m, rfl, hbs, hnext, hm, hafter, hremoval⟩
      · exact .inr (hremoved.snoc a)
    intro x id hx hid
    rcases next_accepted_stored (run_traced hbs) hnext x hx with ⟨z, hz, hsame⟩ | hstored
    · exact hold z id hz (hsame ▸ hid)
    · exact .inl (hstored id hid)
  · refine ⟨World.initial_ok env, fun _ => cellBounded_none _ _, ?_⟩
    intro x id hx
    cases hx

/--
In every run that edits consumers only while no message is stored, each accepted
message is in one place unless a step ended it, and every step moves, keeps or
ends each message in the ways listed.
-/
theorem message_conservation (env : Environment) {actions : List Action} {w : World}
    (hrun : Run (World.next env) KeepsPolicies World.initial actions w) :
    (forall x id, x ∈ w.accepted -> id ∈ x.2.messageIds -> InOnePlace w.store id ∨
        (w.store.messages.find? id = none ∧ RemovedDuring env actions id)) ∧
    forall a v, KeepsPolicies w a -> w.next env a = some v -> forall id,
      Transfer w v a (w.store.messages.find? id) (v.store.messages.find? id) := by
  have hconserved := run_conserved hrun
  constructor
  · intro x id hx hid
    cases hfind : w.store.messages.find? id with
    | some m => exact Or.inl (hconserved.ok.store.inOnePlace hfind)
    | none =>
      rcases hconserved.kept x id hx hid with ⟨m, hm⟩ | hremoved
      · rw [hfind] at hm
        cases hm
      · exact Or.inr ⟨rfl, hremoved⟩
  · intro a v _ hnext id
    exact next_transfer hconserved.ok hconserved.bounded hnext id

open Sample in
theorem message_conservation_retry : exists w v, exists m n : MessageRow,
    Run (World.next environment) KeepsPolicies World.initial deliveredActions w ∧
    InOnePlace w.store 10 ∧ w.next environment retry = some v ∧
    w.store.messages.find? 10 = some m ∧ v.store.messages.find? 10 = some n ∧
    n.attempts = m.attempts + 1 := by
  have hexec : exists w, Run (World.next environment) KeepsPolicies World.initial
        deliveredActions w ∧ (exists x, x ∈ w.accepted ∧ 10 ∈ x.2.messageIds) ∧
      (exists m, m ∈ w.store.messages.find? 10 ∧ m.claim = some (batch 1 none 10 [1, 2]).claim) ∧
      exists v, v ∈ w.next environment retry ∧ exists n, n ∈ v.store.messages.find? 10 ∧ True :=
    exists_run_of_execute (by decide +kernel)
  rcases hexec with ⟨w, hrun, ⟨x, hx, hid⟩, ⟨m, hm, hclaim⟩, v, hv, n, hn, _⟩
  rcases message_conservation environment hrun with ⟨hplaces, htransfers⟩
  have hplace : InOnePlace w.store 10 := by
    refine (hplaces x 10 hx hid).resolve_right fun hremoved => ?_
    rw [hremoved.left] at hm
    cases hm
  have htransfer := htransfers retry v (fun hedits => False.elim hedits) hv 10
  rw [show w.store.messages.find? 10 = some m from hm,
    show v.store.messages.find? 10 = some n from hn] at htransfer
  refine ⟨w, v, m, n, hrun, hplace, hv, hm, hn, ?_⟩
  cases htransfer with
  | moved hmoved =>
    cases hmoved with
    | stays hunconcerned => exact absurd hclaim hunconcerned
    | failed => rfl
    | deadLettered _ _ _ htarget => cases htarget

end Queue
end OpenCompute
