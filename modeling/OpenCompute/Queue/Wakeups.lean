import OpenCompute.Queue.Commits
import OpenCompute.Queue.InFlight

/-!
# Wakeups

The workload summary is a query of its own: it counts the consumers that a claim
would serve and names the time until which nothing becomes due.  Here it is
compared with the claim.
-/

namespace OpenCompute
namespace Queue

open Relational Table Transaction Transition List

/-! ## The summary -/

structure WorkloadSummary where
  ready : Nat
  claimed : Nat
  expired : Nat
  oldestDueAtMs : Option Millis
  nextDueAtMs : Option Millis
deriving DecidableEq, Repr

def Store.inFlight (s : Store) (queueId : QueueId) : Nat :=
  (s.batches.rows.filter fun b => b.queueId = queueId).length

def Store.laterRows (s : Store) (queueId : QueueId) (nowMs : Millis) :
    List MessageRow :=
  (s.messages.rows.filter fun m => m.queueId = queueId && (m.claim = none &&
      nowMs < m.availableAtMs && nowMs < m.expiresAtMs && (s.pending.find? m.id).isNone)
    ).insertionSort fun m n => m.availableAtMs ≤ n.availableAtMs

/-- A row of the common table `due`. -/
structure DueRow where
  config : QueueConsumerConfig
  inFlight : Nat
  oldest : Option Millis
  nextAvailable : Option Millis
  dueCount : Nat

def Store.dueRow (s : Store) (nowMs : Millis) (c : ConsumerRow) : DueRow :=
  { config := c.config
    inFlight := s.inFlight c.queueId
    oldest := (s.dueRows c.queueId nowMs).head?.map MessageRow.availableAtMs
    nextAvailable := (s.laterRows c.queueId nowMs).head?.map MessageRow.availableAtMs
    dueCount := ((s.dueRows c.queueId nowMs).take queueConsumerMaxBatchSize).length }

def Store.dueTable (s : Store) (nowMs : Millis) : List DueRow :=
  (s.consumers.rows.filter fun c => c.state = .active).map (s.dueRow nowMs)

namespace DueRow

def hasSlot (row : DueRow) : Bool := row.inFlight < row.config.maxConcurrency

def timeoutAt (row : DueRow) : Option Millis :=
  row.oldest.map fun oldest => oldest + row.config.maxBatchTimeoutMs

def isReady (row : DueRow) (nowMs : Millis) : Bool :=
  row.hasSlot && (row.config.maxBatchSize ≤ row.dueCount ||
    row.timeoutAt.any fun timeout => timeout ≤ nowMs)

end DueRow

/-- The three parts of the `UNION ALL`, each with its own `MIN`. -/
def Store.nextDue (s : Store) (nowMs : Millis) : Option Millis :=
  let free := (s.dueTable nowMs).filter DueRow.hasSlot
  ([(free.filterMap DueRow.timeoutAt).min?, (free.filterMap DueRow.nextAvailable).min?,
    (s.pending.rows.map DlqPendingRow.nextAttemptAtMs).min?].filterMap id).min?

/--
A sum that does not fit an integer is a `REAL` in SQLite, and reading it into an
`i64` fails.
-/
def readInteger (value : Option Millis) : Result (Option Millis) := do
  ensure (value.all fun v => v ≤ i64Max) Scheduler.unavailable
  return value

def queueConsumerWorkloadSummary (s : Store) (nowMs : Millis) : Result WorkloadSummary := do
  let nextDueAtMs ← readInteger (s.nextDue nowMs)
  return {
    ready := (s.dueTable nowMs).countP fun row => row.isReady nowMs
    claimed := s.batches.rows.length
    expired := 0
    oldestDueAtMs := ((s.dueTable nowMs).filterMap DueRow.oldest).min?
    nextDueAtMs := nextDueAtMs }

def queueDlqPendingDue (s : Store) (nowMs : Millis) : Nat :=
  s.pending.rows.countP fun p => p.nextAttemptAtMs ≤ nowMs

/-! ## The summary counts what a claim serves -/

variable {env : Environment} {s t : Store} {c : ConsumerRow} {nowMs : Millis}
  {after : Option QueueId} {rows : List MessageRow} {ids : List QueueBatchId}

theorem eligible_eq_isReady (hs : s.Ok env) (hc : c ∈ s.consumers) (nowMs : Millis) :
    s.eligible nowMs c = (decide (c.state = .active) && (s.dueRow nowMs c).isReady nowMs) := by
  rcases hs.queue_of_key (hs.consumer_queue c hc) with ⟨_, hq, _⟩
  have hfirst : (s.dueRow nowMs c).timeoutAt.any (fun timeout => timeout ≤ nowMs) =
      (s.dueRows c.queueId nowMs).head?.any
        (fun m => m.availableAtMs + c.config.maxBatchTimeoutMs ≤ nowMs) := by
    unfold Store.dueRow
    cases (s.dueRows c.queueId nowMs).head? <;> rfl
  unfold Store.eligible DueRow.isReady
  rw [hfirst, hq, Option.isSome_some, Bool.and_true, Bool.and_assoc, Bool.or_comm]
  rfl

theorem ready_eq_length (hs : s.Ok env) (nowMs : Millis) :
    (s.dueTable nowMs).countP (fun row => row.isReady nowMs) =
      (s.consumers.rows.filter (s.eligible nowMs)).length := by
  unfold Store.dueTable
  rw [countP_map, countP_filter, countP_eq_length_filter]
  congr 1
  apply filter_congr
  intro c hc
  rw [eligible_eq_isReady hs hc, Bool.and_comm]
  rfl

variable {limit maxBatches : Nat} {claim : Claim} {m : MessageRow} {queueId : QueueId}
  {entries : List (ConsumerRow × QueueBatchId)} {acc : List ClaimedQueueBatch × Store}
  {value : Millis}

theorem eligibleConsumers_length (hlimit : s.consumers.rows.length ≤ limit) :
    (s.eligibleConsumers nowMs limit after).length =
      (s.consumers.rows.filter (s.eligible nowMs)).length := by
  unfold Store.eligibleConsumers
  rw [length_take, length_insertionSort]
  have hle := length_filter_le (s.eligible nowMs) s.consumers.rows
  omega

theorem active_of_eligible (h : s.eligible nowMs c = true) : c.state = .active := by
  unfold Store.eligible at h
  simp only [Bool.and_eq_true, decide_eq_true_eq] at h
  exact h.left.left.left

/-! ## A claim of every eligible consumer -/

def Store.batchRows (s : Store) (nowMs : Millis) (c : ConsumerRow) : List MessageRow :=
  (s.dueRows c.queueId nowMs).take c.config.maxBatchSize

/-- The attempts of the rows of a batch can be read. -/
def Store.Readable (s : Store) (nowMs : Millis) (c : ConsumerRow) : Prop :=
  forall m, m ∈ s.batchRows nowMs c -> m.attempts ≤ u16Max

theorem claimRow_frame {n : MessageRow} (hok : claimRow nowMs claim s m = .ok t)
    (hne : n.id ≠ m.id) (hn : n ∈ s.messages) : n ∈ t.messages := by
  rcases claimRow_inv hok with ⟨row, hrow, _, hclaim⟩
  rcases Store.claimMessage_eq_ok.mp hclaim with ⟨_, _, rfl⟩
  have hid : row.id = m.id := key_of_find? hrow
  exact mem_replace.mpr (.inl ⟨hn, fun hkey => hne (hkey.trans hid)⟩)

theorem claimRows_dueRows {other : QueueId} (hnodup : (rows.map MessageRow.id).Nodup)
    (hrows : forall m, m ∈ rows -> m ∈ s.messages ∧ m.queueId = queueId) (hne : queueId ≠ other)
    (hok : rows.foldlM (claimRow nowMs claim) s = .ok t) :
    t.dueRows other nowMs = s.dueRows other nowMs := by
  refine foldlM_rows Store.messages (fun a => a.dueRows other nowMs = s.dueRows other nowMs) ?_
    hnodup (fun m hm => (hrows m hm).left) rfl hok
  intro m a b hm hstored ha hb
  have hqueue : m.queueId ≠ other := (hrows m hm).right ▸ hne
  refine ⟨Eq.trans ?_ ha, fun n hne hn => claimRow_frame hb hne hn⟩
  rcases claimRow_inv hb with ⟨_, hrow, _, hclaim⟩
  rw [find?_key hstored] at hrow
  cases hrow
  rcases Store.claimMessage_eq_ok.mp hclaim with ⟨_, _, rfl⟩
  unfold Store.dueRows
  congr 1
  apply filter_replace
  · change (decide (m.queueId = other) && _) = false
    rw [decide_eq_false hqueue, Bool.false_and]
  · intro y hy hkey
    rw [eq_of_key_eq hy hstored hkey, decide_eq_false hqueue, Bool.false_and]

theorem claimRows_total (hnodup : (rows.map MessageRow.id).Nodup)
    (hrows : forall m, m ∈ rows -> m ∈ s.messages ∧ s.isDue nowMs m = true ∧
      s.holdsClaim m.queueId claim = true) :
    exists t, rows.foldlM (claimRow nowMs claim) s = .ok t := by
  have hloop : exists t, rows.foldlM (claimRow nowMs claim) s = .ok t ∧
      t.pending = s.pending ∧ t.batches = s.batches := by
    refine foldlM_rows_total Store.messages
      (fun a => a.pending = s.pending ∧ a.batches = s.batches) ?_ hnodup
      (fun m hm => (hrows m hm).left) ⟨rfl, rfl⟩
    rintro m a hm hstored ⟨hpending, hbatches⟩
    rcases hrows m hm with ⟨_, hdue, hholds⟩
    have hready := (isDue_iff.mp hdue).left
    have hdue' : a.isDue nowMs m = true := by
      rw [← hdue, Store.isDue, hpending]
      rfl
    have hholds' : a.holdsClaim m.queueId claim = true := by
      rw [← hholds, Store.holdsClaim, hbatches]
      rfl
    have hstep : claimRow nowMs claim a m = .ok
        { a with messages := a.messages.replace (Store.claimed m claim) } := by
      unfold claimRow
      rw [find?_key hstored]
      change (if a.isDue nowMs m = true then _ else _) = _
      rw [if_pos hdue']
      exact mapErr_eq_ok.mpr (Store.claimMessage_eq_ok.mpr ⟨hready, hholds', rfl⟩)
    exact ⟨_, hstep, ⟨hpending, hbatches⟩, fun n hne hn => claimRow_frame hstep hne hn⟩
  exact hloop.imp fun _ ht => ht.left

structure ClaimLoop (env : Environment) (s : Store) (nowMs : Millis)
    (entries : List (ConsumerRow × QueueBatchId)) (u : Store) : Prop where
  ok : u.Ok env
  consumers : u.consumers = s.consumers
  queues : (entries.map fun entry => entry.1.queueId).Nodup
  ids : (entries.map Prod.snd).Nodup
  consumer : forall entry, entry ∈ entries -> entry.1 ∈ s.consumers
  eligible : forall entry, entry ∈ entries -> s.eligible nowMs entry.1 = true
  fresh : forall entry, entry ∈ entries -> ¬ entry.2 ∈ u.batches.keys
  due : forall entry, entry ∈ entries ->
    u.dueRows entry.1.queueId nowMs = s.dueRows entry.1.queueId nowMs

namespace ClaimLoop

variable {nowMs : Millis} {entry : ConsumerRow × QueueBatchId}
  {entries : List (ConsumerRow × QueueBatchId)}
  {acc result : List ClaimedQueueBatch × Store}

section

variable (h : ClaimLoop env s nowMs (entry :: entries) acc.2)
include h

theorem batchRows_ne_nil : s.batchRows nowMs entry.1 ≠ [] := by
  have heligible := h.eligible entry mem_cons_self
  have hpos := entry.1.config.batch_pos
  intro hnil
  rcases take_eq_nil_iff.mp hnil with hzero | hnone
  · omega
  · unfold Store.eligible at heligible
    rw [hnone] at heligible
    simp only [head?_nil, Option.any_none, Bool.false_or, take_nil,
      length_nil, Bool.and_eq_true, decide_eq_true_eq] at heligible
    omega

theorem dueMessages {rows : List MessageRow} : acc.2.dueMessages entry.1 nowMs = .ok rows ↔
      s.Readable nowMs entry.1 ∧ s.batchRows nowMs entry.1 = rows := by
  unfold Store.dueMessages mapMessages
  rw [h.due entry mem_cons_self]
  simp only [ok_iff]
  rfl

theorem claims (hok : claimConsumer nowMs acc entry = .ok result) :
    s.Readable nowMs entry.1 ∧ result.1.length = acc.1.length + 1 ∧
      ClaimLoop env s nowMs entries result.2 := by
  have hwrites := claimConsumer_writes
    (P := fun part => part = .messages ∨ part = .batches) (.inl rfl) (.inr rfl) h.ok hok
  simp only [claimConsumer, ok_iff, h.dueMessages] at hok
  rcases hok with ⟨_, ⟨hread, rfl⟩, hok⟩
  rw [if_neg h.batchRows_ne_nil] at hok
  simp only [ok_iff, mapErr_eq_ok] at hok
  rcases hok with ⟨_, hbatch, _, hfold, rfl⟩
  refine ⟨hread, by simp, ?_⟩
  rcases dueMessages_rows (h.dueMessages.mpr ⟨hread, rfl⟩) with ⟨hnodup, hrows⟩
  rcases Store.insertBatch_eq_ok hbatch with ⟨_, hinsert, _, hu⟩
  have hqueues := h.queues
  have hids := h.ids
  rw [map_cons, nodup_cons] at hqueues hids
  refine ⟨hwrites.ok h.ok, (hwrites.frame.consumers (by simp) (by simp)).trans h.consumers,
    hqueues.right, hids.right, ?_, ?_, ?_, ?_⟩
  · intro other hother
    exact h.consumer other (mem_cons_of_mem entry hother)
  · intro other hother
    exact h.eligible other (mem_cons_of_mem entry hother)
  · intro other hother hkey
    rw [(claimRows_writes (P := (· = .messages)) rfl (h.ok.insertBatch hbatch)
      hfold).frame.batches (by simp), ← hu,
      mem_keys_of_insert? hinsert] at hkey
    cases hkey with
    | inl hold => exact h.fresh other (mem_cons_of_mem entry hother) hold
    | inr hsame => exact hids.left (List.mem_map.mpr ⟨other, hother, hsame⟩)
  · intro other hother
    have hne : entry.1.queueId ≠ other.1.queueId := by
      intro heq
      exact hqueues.left (List.mem_map.mpr ⟨other, hother, heq.symm⟩)
    rw [claimRows_dueRows hnodup (fun m hm => ⟨insertBatch_messages hbatch ▸ (hrows m hm).left,
        (hrows m hm).right.left⟩) hne hfold]
    rw [← h.due other (mem_cons_of_mem entry hother), ← hu]
    rfl

theorem commits (hread : s.Readable nowMs entry.1) :
    exists result, claimConsumer nowMs acc entry = .ok result := by
  have hactive := active_of_eligible (h.eligible entry mem_cons_self)
  have hdue := h.dueMessages.mpr ⟨hread, rfl⟩
  have hconsumer : entry.1 ∈ acc.2.consumers := h.consumers ▸ h.consumer entry mem_cons_self
  rcases h.ok.queue_of_key (h.ok.consumer_queue _ hconsumer) with ⟨_, hq, _⟩
  let row : DeliveryBatchRow := {
    id := entry.2
    queueId := entry.1.queueId
    consumerId := entry.1.consumerId
    consumerGeneration := entry.1.consumerGeneration
    versionId := entry.1.versionId
    executionGeneration := entry.1.executionGeneration
    entrypoint := entry.1.entrypoint
    messageCount := (s.batchRows nowMs entry.1).length }
  rcases exists_insert? (x := row) (h.fresh entry mem_cons_self) with ⟨batches, hinsert⟩
  have hlength : 1 ≤ row.messageCount ∧ row.messageCount ≤ entry.1.config.maxBatchSize := by
    constructor
    · exact length_pos_iff.mpr h.batchRows_ne_nil
    · exact length_take_le _ _
  have hbatch : acc.2.insertBatch row = .ok { acc.2 with batches := batches } := by
    have hmax := entry.1.config.batch_le
    unfold queueConsumerMaxBatchSize at hmax
    simp only [Store.insertBatch, ok_iff]
    refine ⟨?_, ⟨hlength.left, by omega⟩, ?_, batches, hinsert, rfl⟩
    · rw [find?_key hconsumer]
      simp [row, hactive, hlength.right]
    · rw [hq]
      rfl
  rcases dueMessages_rows hdue with ⟨hnodup, _⟩
  have hclaim : forall m, m ∈ s.batchRows nowMs entry.1 ->
      m ∈ acc.2.messages ∧ acc.2.isDue nowMs m = true ∧
        ({ acc.2 with batches := batches } : Store).holdsClaim m.queueId
          ⟨entry.2, entry.1.consumerId, entry.1.consumerGeneration⟩ = true := by
    intro m hm
    have hmem := mem_of_mem_take hm
    rw [← h.due entry mem_cons_self] at hmem
    rcases mem_dueRows.mp hmem with ⟨hstored, hqueue, hisDue⟩
    refine ⟨hstored, hisDue, holdsClaim_iff.mpr ⟨row, ?_, rfl, hqueue.symm, rfl, rfl⟩⟩
    exact (mem_of_insert? hinsert).mpr (.inr rfl)
  rcases claimRows_total (s := { acc.2 with batches := batches }) hnodup hclaim with ⟨t, ht⟩
  refine ⟨(acc.1 ++ [claimedBatch entry.1 entry.2 (s.batchRows nowMs entry.1)], t), ?_⟩
  simp only [claimConsumer, ok_iff]
  refine ⟨_, hdue, ?_⟩
  rw [if_neg h.batchRows_ne_nil]
  simp only [ok_iff, mapErr_eq_ok]
  exact ⟨_, hbatch, t, ht, rfl⟩

end

end ClaimLoop

theorem claimLoop_commits_iff (h : ClaimLoop env s nowMs entries acc.2) :
    (exists result, entries.foldlM (claimConsumer nowMs) acc = .ok result) ↔
      forall entry, entry ∈ entries -> s.Readable nowMs entry.1 := by
  induction entries generalizing acc with
  | nil => exact ⟨nofun, fun _ => ⟨acc, rfl⟩⟩
  | cons entry entries ih =>
    constructor
    · rintro ⟨result, hok⟩
      rcases foldlM_cons_eq_ok.mp hok with ⟨next, hnext, hrest⟩
      rcases h.claims hnext with ⟨hread, _, hloop⟩
      intro other hother
      cases mem_cons.mp hother with
      | inl hsame => exact hsame ▸ hread
      | inr hlater => exact (ih hloop).mp ⟨result, hrest⟩ other hlater
    · intro hread
      rcases h.commits (hread entry mem_cons_self) with ⟨next, hnext⟩
      rcases h.claims hnext with ⟨_, _, hloop⟩
      rcases (ih hloop).mpr fun other hother =>
        hread other (mem_cons_of_mem entry hother) with ⟨result, hrest⟩
      exact ⟨result, foldlM_cons_eq_ok.mpr ⟨next, hnext, hrest⟩⟩

theorem claimLoop_length {result : List ClaimedQueueBatch × Store}
    (h : ClaimLoop env s nowMs entries acc.2)
    (hok : entries.foldlM (claimConsumer nowMs) acc = .ok result) :
    result.1.length = acc.1.length + entries.length := by
  induction entries generalizing acc with
  | nil =>
    rw [foldlM_nil, pure_eq_ok] at hok
    rw [hok, length_nil, Nat.add_zero]
  | cons entry entries ih =>
    rcases foldlM_cons_eq_ok.mp hok with ⟨_, hnext, hrest⟩
    rcases h.claims hnext with ⟨_, _, hloop⟩
    rw [ih hloop hrest, length_cons]
    omega

theorem claimLoop_start (nowMs : Millis) (hs : s.Ok env) (hnodup : ids.Nodup)
    (hfresh : forall id, id ∈ ids -> ¬ id ∈ s.batches.keys)
    (hlength : (s.eligibleConsumers nowMs limit after).length ≤ ids.length) :
    ClaimLoop env s nowMs ((s.eligibleConsumers nowMs limit after).zip ids) s := by
  have hqueues : ((s.eligibleConsumers nowMs limit after).map ConsumerRow.queueId).Nodup := by
    unfold Store.eligibleConsumers
    rw [map_take]
    refine List.Nodup.sublist (take_sublist _ _) ?_
    rw [((perm_insertionSort _ _).map ConsumerRow.queueId).nodup_iff]
    exact s.consumers.nodup.sublist (filter_sublist.map _)
  refine ⟨hs, rfl, ?_, zip_snd_nodup _ hnodup, ?_, ?_, ?_, ?_⟩
  · have hfst : ((s.eligibleConsumers nowMs limit after).zip ids).map
        (fun entry => entry.1.queueId) =
          (((s.eligibleConsumers nowMs limit after).zip ids).map Prod.fst).map
            ConsumerRow.queueId := by
      rw [map_map]
      rfl
    rw [hfst, map_fst_zip hlength]
    exact hqueues
  · intro entry hentry
    exact (mem_eligibleConsumers (of_mem_zip hentry).left).left
  · intro entry hentry
    exact (mem_eligibleConsumers (of_mem_zip hentry).left).right
  · intro entry hentry
    exact hfresh entry.2 (of_mem_zip hentry).right
  · intro entry _
    rfl

/-! ## Nothing becomes due before the wakeup -/

/-- A time at which a consumer with a free slot, or the dead-letter lane, may be due. -/
inductive WakeTime (s : Store) (nowMs : Millis) : Millis -> Prop where
  | timeout {c : ConsumerRow} {m : MessageRow} (hc : c ∈ s.consumers)
      (hactive : c.state = .active)
      (hslot : s.inFlight c.queueId < c.config.maxConcurrency)
      (hm : (s.dueRows c.queueId nowMs).head? = some m) :
      WakeTime s nowMs (m.availableAtMs + c.config.maxBatchTimeoutMs)
  | available {c : ConsumerRow} {m : MessageRow} (hc : c ∈ s.consumers)
      (hactive : c.state = .active)
      (hslot : s.inFlight c.queueId < c.config.maxConcurrency)
      (hm : (s.laterRows c.queueId nowMs).head? = some m) :
      WakeTime s nowMs m.availableAtMs
  | deadLetter {p : DlqPendingRow} (hp : p ∈ s.pending) :
      WakeTime s nowMs p.nextAttemptAtMs

theorem mem_dueTable {row : DueRow} : row ∈ s.dueTable nowMs ↔
      exists c, c ∈ s.consumers ∧ c.state = .active ∧ s.dueRow nowMs c = row := by
  unfold Store.dueTable
  simp only [List.mem_map, List.mem_filter, decide_eq_true_eq, and_assoc]
  rfl

/-- The values that the outer `MIN` ranges over. -/
theorem wakeTime_iff :
    WakeTime s nowMs value ↔ (exists row, row ∈ s.dueTable nowMs ∧ row.hasSlot = true ∧
        (row.timeoutAt = some value ∨ row.nextAvailable = some value)) ∨
      exists p, p ∈ s.pending ∧ p.nextAttemptAtMs = value := by
  constructor
  · intro h
    cases h with
    | timeout hc hactive hslot hm =>
      refine .inl ⟨_, mem_dueTable.mpr ⟨_, hc, hactive, rfl⟩, decide_eq_true hslot, .inl ?_⟩
      unfold Store.dueRow
      rw [hm]
      rfl
    | available hc hactive hslot hm =>
      refine .inl ⟨_, mem_dueTable.mpr ⟨_, hc, hactive, rfl⟩, decide_eq_true hslot, .inr ?_⟩
      unfold Store.dueRow
      rw [hm]
      rfl
    | deadLetter hp => exact .inr ⟨_, hp, rfl⟩
  · rintro (⟨row, hrow, hslot, hvalue⟩ | ⟨p, hp, rfl⟩)
    · rcases mem_dueTable.mp hrow with ⟨_, hc, hactive, rfl⟩
      have hfree := of_decide_eq_true hslot
      cases hvalue with
      | inl htimeout =>
        rcases Option.map_eq_some_iff.mp htimeout with ⟨_, holdest, rfl⟩
        rcases Option.map_eq_some_iff.mp holdest with ⟨m, hm, rfl⟩
        exact .timeout hc hactive hfree hm
      | inr havailable =>
        rcases Option.map_eq_some_iff.mp havailable with ⟨_, hm, rfl⟩
        exact .available hc hactive hfree hm
    · exact .deadLetter hp

theorem exists_min?_le {l : List Int} {v : Int} (hv : v ∈ l) :
    exists u, l.min? = some u ∧ u ≤ v := by
  cases hmin : l.min? with
  | none =>
    rw [min?_eq_none_iff.mp hmin] at hv
    cases hv
  | some u => exact ⟨u, rfl, (min?_eq_some_iff.mp hmin).right v hv⟩

theorem wakeTime_of_nextDue (h : s.nextDue nowMs = some value) : WakeTime s nowMs value := by
  rcases mem_filterMap.mp (min?_eq_some_iff.mp h).left with ⟨_, hpart, hvalue⟩
  cases hvalue
  simp only [mem_cons, not_mem_nil, or_false] at hpart
  rw [wakeTime_iff]
  rcases hpart with htimeout | havailable | hlane
  · rcases mem_filterMap.mp (min?_eq_some_iff.mp htimeout.symm).left with ⟨row, hrow, hat⟩
    rcases List.mem_filter.mp hrow with ⟨hmem, hslot⟩
    exact .inl ⟨row, hmem, hslot, .inl hat⟩
  · rcases mem_filterMap.mp (min?_eq_some_iff.mp havailable.symm).left with
      ⟨row, hrow, hat⟩
    rcases List.mem_filter.mp hrow with ⟨hmem, hslot⟩
    exact .inl ⟨row, hmem, hslot, .inr hat⟩
  · rcases List.mem_map.mp (min?_eq_some_iff.mp hlane.symm).left with ⟨p, hp, hat⟩
    exact .inr ⟨p, hp, hat⟩

theorem nextDue_le_wakeTime (h : WakeTime s nowMs value) :
    exists next, s.nextDue nowMs = some next ∧ next ≤ value := by
  have houter : forall part : List Int, value ∈ part ->
      (forall least, part.min? = some least -> least ∈
        [(((s.dueTable nowMs).filter DueRow.hasSlot).filterMap DueRow.timeoutAt).min?,
          (((s.dueTable nowMs).filter DueRow.hasSlot).filterMap DueRow.nextAvailable).min?,
          (s.pending.rows.map DlqPendingRow.nextAttemptAtMs).min?].filterMap id) ->
      exists next, s.nextDue nowMs = some next ∧ next ≤ value := by
    intro part hvalue hpart
    rcases exists_min?_le hvalue with ⟨least, hleast, hle⟩
    rcases exists_min?_le (hpart least hleast) with ⟨next, hnext, hnextLe⟩
    exact ⟨next, hnext, hnextLe.trans hle⟩
  rcases wakeTime_iff.mp h with ⟨row, hrow, hslot, hat⟩ | ⟨p, hp, hat⟩
  · have hfree := List.mem_filter.mpr ⟨hrow, hslot⟩
    cases hat with
    | inl htimeout =>
      refine houter _ (mem_filterMap.mpr ⟨row, hfree, htimeout⟩) ?_
      intro least hleast
      exact mem_filterMap.mpr ⟨_, mem_cons_self, hleast⟩
    | inr havailable =>
      refine houter _ (mem_filterMap.mpr ⟨row, hfree, havailable⟩) ?_
      intro least hleast
      exact mem_filterMap.mpr ⟨_, mem_cons_of_mem _ mem_cons_self, hleast⟩
  · refine houter _ (List.mem_map.mpr ⟨p, hp, hat⟩) ?_
    intro least hleast
    exact mem_filterMap.mpr
      ⟨_, mem_cons_of_mem _ (mem_cons_of_mem _ mem_cons_self), hleast⟩

instance : Std.Total fun m n : MessageRow => m.availableAtMs ≤ n.availableAtMs :=
  ⟨fun m n => le_total m.availableAtMs n.availableAtMs⟩

instance : IsTrans MessageRow fun m n => m.availableAtMs ≤ n.availableAtMs :=
  ⟨fun _ _ _ => le_trans⟩

theorem head?_available_le {n : MessageRow}
    (hm : (rows.insertionSort fun m n => m.availableAtMs ≤ n.availableAtMs).head? = some m)
    (hn : n ∈ rows) : m.availableAtMs ≤ n.availableAtMs := by
  have hsorted := pairwise_insertionSort
    (fun m n : MessageRow => m.availableAtMs ≤ n.availableAtMs) rows
  have hmem := (List.mem_insertionSort
    (fun m n : MessageRow => m.availableAtMs ≤ n.availableAtMs)).mpr hn
  rcases head?_eq_some_iff.mp hm with ⟨_, hrest⟩
  rw [hrest] at hsorted hmem
  cases mem_cons.mp hmem with
  | inl hsame => exact le_of_eq (congrArg _ hsame.symm)
  | inr hlater => exact (pairwise_cons.mp hsorted).left n hlater

section Quiet

variable {nowMs later : Millis} {c : ConsumerRow}

theorem isDue_of_later (hle : nowMs ≤ later)
    (hwake : forall value, WakeTime s nowMs value -> later < value)
    (hc : c ∈ s.consumers) (hactive : c.state = .active)
    (hslot : s.inFlight c.queueId < c.config.maxConcurrency) {m : MessageRow}
    (hm : m ∈ s.messages) (hqueue : m.queueId = c.queueId)
    (hdue : s.isDue later m = true) : s.isDue nowMs m = true := by
  rcases isDue_iff.mp hdue with ⟨hready, havailable, hexpires, hlane⟩
  refine isDue_iff.mpr ⟨hready, ?_, lt_of_le_of_lt hle hexpires, hlane⟩
  by_contra hnot
  have hlater : m ∈ s.messages.rows.filter fun m => m.queueId = c.queueId &&
      (m.claim = none && nowMs < m.availableAtMs && nowMs < m.expiresAtMs &&
        (s.pending.find? m.id).isNone) := by
    rw [List.mem_filter]
    refine ⟨hm, ?_⟩
    simp only [Bool.and_eq_true, decide_eq_true_eq, Option.isNone_iff_eq_none]
    exact ⟨hqueue, ⟨⟨hready, not_le.mp hnot⟩, lt_of_le_of_lt hle hexpires⟩,
      find?_eq_none_iff_keys.mpr hlane⟩
  cases hfirst : (s.laterRows c.queueId nowMs).head? with
  | none =>
    have hnil : s.laterRows c.queueId nowMs = [] := head?_eq_none_iff.mp hfirst
    have hmem : m ∈ s.laterRows c.queueId nowMs := List.mem_insertionSort _ |>.mpr hlater
    rw [hnil] at hmem
    cases hmem
  | some first =>
    have hbefore := hwake _ (.available hc hactive hslot hfirst)
    have hfirstLe := head?_available_le hfirst hlater
    exact absurd (lt_of_lt_of_le hbefore (hfirstLe.trans havailable)) (lt_irrefl _)

theorem not_eligible_later (hs : s.Ok env) (hle : nowMs ≤ later)
    (hwake : forall value, WakeTime s nowMs value -> later < value)
    (hc : c ∈ s.consumers) (hnow : s.eligible nowMs c = false) : s.eligible later c = false := by
  by_contra hlater
  rw [Bool.not_eq_false] at hlater
  have hparts := hlater
  unfold Store.eligible at hparts
  simp only [Bool.and_eq_true, Bool.or_eq_true, decide_eq_true_eq] at hparts
  rcases hparts with ⟨⟨⟨hactive, _⟩, hslot⟩, hready⟩
  have hdue := fun m hm hqueue hdue =>
    isDue_of_later (m := m) hle hwake hc hactive hslot hm hqueue hdue
  rw [eligible_eq_isReady hs hc, decide_eq_true hactive, Bool.true_and] at hnow
  unfold DueRow.isReady at hnow
  rw [show (s.dueRow nowMs c).hasSlot = true from decide_eq_true hslot, Bool.true_and,
    Bool.or_eq_false_iff, decide_eq_false_iff_not] at hnow
  cases hready with
  | inl htimeout =>
    rcases (Option.any_eq_true _ _).mp htimeout with ⟨m, hm, hreached⟩
    have hmem : m ∈ s.dueRows c.queueId later := mem_of_mem_head? hm
    rcases mem_dueRows.mp hmem with ⟨hstored, hqueue, hmdue⟩
    have hnowMem : m ∈ s.dueRows c.queueId nowMs :=
      mem_dueRows.mpr ⟨hstored, hqueue, hdue m hstored hqueue hmdue⟩
    cases hfirst : (s.dueRows c.queueId nowMs).head? with
    | none =>
      rw [head?_eq_none_iff.mp hfirst] at hnowMem
      cases hnowMem
    | some first =>
      have hbefore := hwake _ (.timeout hc hactive hslot hfirst)
      have hfirstLe := head?_available_le hfirst ((List.mem_insertionSort _).mp hnowMem)
      have hend := of_decide_eq_true hreached
      exact absurd (lt_of_lt_of_le hbefore ((add_le_add_left hfirstLe _).trans hend)) (lt_irrefl _)
  | inr hfull =>
    have hcount : (s.dueRows c.queueId later).length ≤ (s.dueRows c.queueId nowMs).length := by
      unfold Store.dueRows
      rw [length_insertionSort, length_insertionSort,
        ← countP_eq_length_filter, ← countP_eq_length_filter]
      apply countP_mono_left
      intro m hm hboth
      simp only [Bool.and_eq_true, decide_eq_true_eq] at hboth ⊢
      exact ⟨hboth.left, hdue m hm hboth.left hboth.right⟩
    apply hnow.left
    rw [length_take] at hfull
    change _ ≤ (take _ _).length
    rw [length_take]
    exact hfull.trans (min_le_min_left _ hcount)

end Quiet

/-! ## Exactness -/

/--
What the summary promises about the claims of the same store: how many batches a
claim returns now, and that before the wakeup there is nothing to do.
-/
def WakeupsExact (s : Store) (nowMs : Millis) (maxBatches : Nat)
    (after : Option QueueId) (ids : List QueueBatchId) : Prop :=
  exists summary batches t, queueConsumerWorkloadSummary s nowMs = .ok summary ∧
    claimQueueBatches s nowMs maxBatches after ids = .ok (batches, t) ∧
    summary.ready = batches.length ∧
    (summary.ready = 0 -> queueDlqPendingDue s nowMs = 0 -> forall later, nowMs ≤ later ->
        (forall next, summary.nextDueAtMs = some next -> later < next) ->
        (forall maxBatches after ids, maxBatches ≠ 0 ->
          claimQueueBatches s later maxBatches after ids = .ok ([], s)) ∧
        queueDlqPendingDue s later = 0)

theorem readInteger_eq_ok {value result : Option Millis} :
    readInteger value = .ok result ↔ (forall v, value = some v -> v ≤ i64Max) ∧ value = result := by
  simp only [readInteger, ok_iff]
  cases value <;> simp

theorem nextDue_fits_iff : (forall v, s.nextDue nowMs = some v -> v ≤ i64Max) ↔
      forall v, WakeTime s nowMs v -> exists u, WakeTime s nowMs u ∧ u ≤ i64Max := by
  constructor
  · intro h v hv
    rcases nextDue_le_wakeTime hv with ⟨next, hnext, _⟩
    exact ⟨next, wakeTime_of_nextDue hnext, h next hnext⟩
  · intro h v hv
    rcases h v (wakeTime_of_nextDue hv) with ⟨_, hu, hle⟩
    rcases nextDue_le_wakeTime hu with ⟨_, hnext, hnextLe⟩
    rw [hv] at hnext
    cases hnext
    exact hnextLe.trans hle

theorem claim_all_iff {w : World} (hw : w.Ok env) (nowMs : Millis) (after : Option QueueId)
    (hids : Fresh ids w.batchIds) (hmax : maxBatches ≠ 0) (hlimit : maxBatches ≤ ids.length)
    (hall : w.store.consumers.rows.length ≤ maxBatches) :
    ((exists result, claimQueueBatches w.store nowMs maxBatches after ids = .ok result) ↔
      forall c, c ∈ w.store.consumers -> w.store.eligible nowMs c = true ->
        w.store.Readable nowMs c) ∧
    forall result, claimQueueBatches w.store nowMs maxBatches after ids = .ok result ->
      result.1.length = (w.store.consumers.rows.filter (w.store.eligible nowMs)).length := by
  have hfresh : forall id, id ∈ ids -> ¬ id ∈ w.store.batches.keys := by
    intro id hid hkey
    rcases mem_keys.mp hkey with ⟨r, hr, hrid⟩
    rcases hw.inFlight.row r hr with ⟨b, hb, hbid, _⟩
    exact hids.right id hid (hrid ▸ hbid ▸ hw.batchIds b hb)
  have hlength : (w.store.eligibleConsumers nowMs maxBatches after).length ≤ ids.length := by
    rw [eligibleConsumers_length hall]
    exact (length_filter_le _ _).trans (hall.trans hlimit)
  have hloop := claimLoop_start nowMs hw.store hids.left hfresh hlength
  have hcall : forall result, claimQueueBatches w.store nowMs maxBatches after ids =
      .ok result ↔ ((w.store.eligibleConsumers nowMs maxBatches after).zip ids).foldlM
        (claimConsumer nowMs) ([], w.store) = .ok result := by
    intro result
    simp only [claimQueueBatches, ok_iff]
    exact and_iff_right hmax
  constructor
  · simp only [hcall]
    rw [claimLoop_commits_iff hloop]
    constructor
    · intro h c hc heligible
      have hmem : c ∈ w.store.eligibleConsumers nowMs maxBatches after := by
        unfold Store.eligibleConsumers
        rw [List.take_of_length_le, List.mem_insertionSort, List.mem_filter]
        · exact ⟨hc, heligible⟩
        · rw [length_insertionSort]
          exact (length_filter_le _ _).trans hall
      rw [← map_fst_zip hlength] at hmem
      rcases List.mem_map.mp hmem with ⟨entry, hentry, rfl⟩
      exact h entry hentry
    · intro h entry hentry
      rcases mem_eligibleConsumers (of_mem_zip hentry).left with ⟨hc, heligible⟩
      exact h entry.1 hc heligible
  · intro result hresult
    rw [claimLoop_length hloop ((hcall result).mp hresult), length_nil, Nat.zero_add,
      length_zip, ← eligibleConsumers_length hall]
    exact min_eq_left hlength

/-!
The summary and the claim agree exactly when both can read their rows: the
attempts of the due messages into a `u16`, and the wakeup into an `i64`.
-/

theorem queueWakeups_exact_iff {w : World} (hw : Reachable env w) (nowMs : Millis)
    {maxBatches : Nat} (after : Option QueueId) {ids : List QueueBatchId}
    (hids : Fresh ids w.batchIds) (hmax : maxBatches ≠ 0) (hlimit : maxBatches ≤ ids.length)
    (hall : w.store.consumers.rows.length ≤ maxBatches) :
    WakeupsExact w.store nowMs maxBatches after ids ↔
      (forall c, c ∈ w.store.consumers -> w.store.eligible nowMs c = true ->
        w.store.Readable nowMs c) ∧
      forall v, WakeTime w.store nowMs v -> exists u, WakeTime w.store nowMs u ∧ u ≤ i64Max := by
  rcases hw with ⟨actions, hrun⟩
  have hok := run_worldOk hrun (World.initial_ok env)
  rcases claim_all_iff hok nowMs after hids hmax hlimit hall with ⟨hcommits, hcount⟩
  rw [← nextDue_fits_iff, ← hcommits]
  constructor
  · rintro ⟨summary, batches, t, hsummary, hclaim, _⟩
    simp only [queueConsumerWorkloadSummary, ok_iff, readInteger_eq_ok] at hsummary
    rcases hsummary with ⟨_, ⟨hfits, _⟩, _⟩
    exact ⟨⟨_, hclaim⟩, hfits⟩
  · rintro ⟨⟨⟨batches, t⟩, hclaim⟩, hfits⟩
    have hready := ready_eq_length hok.store nowMs
    have hread := readInteger_eq_ok.mpr ⟨hfits, rfl⟩
    unfold WakeupsExact queueConsumerWorkloadSummary
    rw [hread]
    refine ⟨_, batches, t, rfl, hclaim, hready.trans (hcount _ hclaim).symm, ?_⟩
    intro hzero _ later hle hnext
    have hwake : forall value, WakeTime w.store nowMs value -> later < value := by
      intro value hvalue
      rcases nextDue_le_wakeTime hvalue with ⟨next, hnextDue, hnextLe⟩
      exact lt_of_lt_of_le (hnext next hnextDue) hnextLe
    have hnone := List.filter_eq_nil_iff.mp (List.length_eq_zero_iff.mp (hready.symm.trans hzero))
    constructor
    · intro maxBatches after ids hmax
      have hnil : w.store.eligibleConsumers later maxBatches after = [] := by
        rw [List.eq_nil_iff_forall_not_mem]
        intro c hc
        rcases mem_eligibleConsumers hc with ⟨hmem, heligible⟩
        rw [not_eligible_later hok.store hle hwake hmem
          (Bool.eq_false_iff.mpr (hnone c hmem))] at heligible
        cases heligible
      unfold claimQueueBatches
      rw [hnil, bind_eq_ok]
      exact ⟨(), ensure_eq_ok.mpr hmax, rfl⟩
    · unfold queueDlqPendingDue
      rw [List.countP_eq_zero]
      intro p hp hdue
      exact absurd (of_decide_eq_true hdue) (not_le.mpr (hwake _ (.deadLetter hp)))

theorem queueWakeups_exact_iff_enqueued : exists w,
    Reachable Sample.environment w ∧ WakeupsExact w.store 0 5 none [1, 2, 3, 4, 5] := by
  have hexec : exists w, Reachable Sample.environment w ∧
      Fresh [1, 2, 3, 4, 5] w.batchIds ∧ w.store.consumers.rows.length ≤ 5 ∧
      (w.store.nextDue 0).all (fun v => v ≤ i64Max) ∧
      forall c, c ∈ w.store.consumers.rows -> forall m, m ∈ w.store.batchRows 0 c ->
        m.attempts ≤ u16Max :=
    exists_reachable (Sample.deliveredActions.take 3) (by decide +kernel)
  rcases hexec with ⟨w, hreach, hids, hall, hnext, hread⟩
  refine ⟨w, hreach, (queueWakeups_exact_iff hreach 0 none hids (by decide)
    (by decide) hall).mpr ⟨fun c hc _ => hread c hc, ?_⟩⟩
  rw [← nextDue_fits_iff]
  intro v hv
  rw [hv] at hnext
  exact of_decide_eq_true hnext

theorem lastMinute_summary_fails : exists w, Reachable Sample.environment w ∧
      ¬ exists maxBatches after ids,
        WakeupsExact w.store (i64Max - 30000) maxBatches after ids := by
  have hexec : exists w, Reachable Sample.environment w ∧
      w.store.nextDue (i64Max - 30000) = some (i64Max + 30000) :=
    exists_reachable Sample.lastMinute (by decide +kernel)
  rcases hexec with ⟨w, hreach, hw⟩
  refine ⟨w, hreach, ?_⟩
  rintro ⟨maxBatches, after, ids, summary, _, _, hsummary, _⟩
  simp only [queueConsumerWorkloadSummary, ok_iff, readInteger_eq_ok] at hsummary
  rcases hsummary with ⟨_, ⟨hfits, _⟩, _⟩
  exact absurd (hfits _ hw) (by decide)

end Queue
end OpenCompute
