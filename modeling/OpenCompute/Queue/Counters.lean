import OpenCompute.Queue.Frames

/-!
# The backlog counters

The triggers keep `message_count` and `message_bytes` of every Queue equal to
what its rows add up to.  An operator may repair counters that differ, which
never finds anything to repair.  A message enters the store only by an insert
that the backlog limit of its Queue allows, so no backlog grows beyond it.
-/

namespace OpenCompute
namespace Queue

open Relational Table Transaction Transition Relation List

/-! ## Repair -/

structure QueueCounterMismatch where
  queueId : QueueId
  storedCount : Nat
  actualCount : Nat
  storedBytes : Nat
  actualBytes : Nat

namespace Store

def messagesOf (s : Store) (queueId : QueueId) : List MessageRow :=
  s.messages.rows.filter fun m => m.queueId = queueId

/-- The Queue row that the compare-and-set of a repair matches. -/
def mismatched (s : Store) (mismatch : QueueCounterMismatch) (q : QueueStateRow) : Bool :=
  decide (q.messageCount = mismatch.storedCount ∧ q.messageBytes = mismatch.storedBytes ∧
    (s.messagesOf q.queueId).length = mismatch.actualCount ∧
    ((s.messagesOf q.queueId).map MessageRow.bodyBytes).sum = mismatch.actualBytes)

end Store

def repairQueueCounter (s : Store) (mismatch : QueueCounterMismatch) : Result (Bool × Store) := do
  ensure ((mismatch.actualCount : Int) ≤ i64Max ∧ (mismatch.actualBytes : Int) ≤ i64Max ∧
    (mismatch.storedCount : Int) ≤ i64Max ∧ (mismatch.storedBytes : Int) ≤ i64Max)
    queueInvariant
  match (s.queues.find? mismatch.queueId).filter (s.mismatched mismatch) with
  | none => return (false, s)
  | some q =>
    return (true, { s with queues := s.queues.replace { q with
      messageCount := mismatch.actualCount
      messageBytes := mismatch.actualBytes } })

/-- A call of the store, or an operator's repair. -/
inductive Operation where
  | call (action : Action)
  | repair (mismatch : QueueCounterMismatch)

def World.operate (env : Environment) (w : World) : Operation -> Option World
  | .call action => w.next env action
  | .repair mismatch => w.after (Prod.snd <$> repairQueueCounter w.store mismatch)

/-! ## Counters -/

def Store.Counted (s : Store) : Prop :=
  forall q, q ∈ s.queues -> q.messageCount = (s.messagesOf q.queueId).length ∧
    q.messageBytes = ((s.messagesOf q.queueId).map MessageRow.bodyBytes).sum

section Counters

variable {env : Environment} {s t : Store}

theorem Store.Ok.counted (hs : s.Ok env) : s.Counted := by
  intro q hq
  rcases hs.counters q hq with ⟨hcount, hbytes⟩
  refine ⟨hcount.trans ?_, hbytes⟩
  show ((s.messagesOf q.queueId).map fun _ => 1).sum = (s.messagesOf q.queueId).length
  rw [map_const', sum_replicate_nat, Nat.mul_one]

theorem repairQueueCounter_eq {mismatch : QueueCounterMismatch} {changed : Bool}
    (hs : s.Ok env) (hrepair : repairQueueCounter s mismatch = .ok (changed, t)) : t = s := by
  simp only [repairQueueCounter, ok_iff] at hrepair
  rcases hrepair with ⟨_, hrepair⟩
  split at hrepair
  · rw [pure_eq_ok] at hrepair
    exact (congrArg Prod.snd hrepair).symm
  · rename_i q hfind
    rcases Option.filter_eq_some_iff.mp hfind with ⟨hq, hmismatch⟩
    rcases of_decide_eq_true hmismatch with ⟨_, _, hactual, hactual'⟩
    have hmem := mem_of_find? hq
    rcases hs.counted q hmem with ⟨hcount, hbytes⟩
    have hsame : { q with
        messageCount := mismatch.actualCount
        messageBytes := mismatch.actualBytes } = q := by
      rw [← hactual, ← hactual', ← hcount, ← hbytes]
    rw [pure_eq_ok, hsame] at hrepair
    have hstore := congrArg Prod.snd hrepair
    have hqueues : s.queues.replace q = s.queues := by
      apply Table.ext
      show s.queues.rows.map (fun r => if r.queueId = q.queueId then q else r) = s.queues.rows
      rw [map_congr_left ?_, map_id]
      intro r hr
      split
      · rename_i hkey
        exact (eq_of_key_eq hr hmem hkey).symm
      · rfl
    dsimp only at hstore
    rw [← hstore, hqueues]

end Counters

/-! ## Inserts -/

/-- The part of a message that the backlog of its Queue counts. -/
def MessageRow.size (m : MessageRow) : QueueMessageId × QueueId × Nat :=
  (m.id, m.queueId, m.bodyBytes)

/--
A write that leaves the Queues and the sizes of the messages alone, a delete, or
an insert that leaves its Queue within the backlog limit in force.
-/
inductive Admitted (s t : Store) : Prop where
  | keeps (hrows : t.messages.rows.map MessageRow.size = s.messages.rows.map MessageRow.size)
      (hqueues : t.queues = s.queues)
  | deletes {m : MessageRow} (hm : m ∈ s.messages) (hdelete : s.deleteMessage m = .ok t)
  | inserts {m : MessageRow} {q r : QueueStateRow} (hinsert : s.insertMessage m = .ok t)
      (hq : s.queues.find? m.queueId = some q) (hr : t.queues.find? m.queueId = some r)
      (hconfig : r.config = q.config)
      (hbacklog : r.messageBytes ≤ q.config.val.maxBacklogBytes)

/-- The backlog of a Queue grew under one configuration, and within its limit. -/
def GrowsWithin (q r : QueueStateRow) : Prop :=
  q.messageBytes < r.messageBytes ->
    r.config = q.config ∧ r.messageBytes ≤ q.config.val.maxBacklogBytes

section Inserts

variable {env : Environment} {s t : Store}

theorem insertMessage_admitted {m : MessageRow} (hinsert : s.insertMessage m = .ok t) :
    Admitted s t := by
  rcases Store.insertMessage_eq_ok.mp hinsert with ⟨_, q, hq, hadmits, _, _, rfl⟩
  rcases find?_eq_some.mp hq with ⟨hmem, hkey⟩
  have hfind : (s.queues.replace { q with
      messageCount := q.messageCount + 1
      messageBytes := q.messageBytes + m.bodyBytes }).find? m.queueId = some { q with
      messageCount := q.messageCount + 1
      messageBytes := q.messageBytes + m.bodyBytes } := by
    rw [find?_replace hmem (x := { q with
      messageCount := q.messageCount + 1
      messageBytes := q.messageBytes + m.bodyBytes }) rfl]
    exact if_pos hkey.symm
  exact Admitted.inserts hinsert hq hfind rfl hadmits.right.right.right.right

theorem keeps_of_eq (hmessages : t.messages = s.messages) (hqueues : t.queues = s.queues) :
    Admitted s t :=
  Admitted.keeps (by rw [hmessages]) hqueues

theorem replace_admitted {m n : MessageRow} (hm : m ∈ s.messages) (hsize : n.size = m.size) :
    Admitted s { s with messages := s.messages.replace n } := by
  refine Admitted.keeps ?_ rfl
  show (s.messages.rows.map fun r => if r.id = n.id then n else r).map _ = _
  rw [List.map_map]
  refine map_congr_left fun r hr => ?_
  have hid : n.id = m.id := congrArg Prod.fst hsize
  by_cases hkey : r.id = n.id
  · rw [Function.comp_apply, if_pos hkey, hsize, eq_of_key_eq hr hm (hkey.trans hid)]
  · rw [Function.comp_apply, if_neg hkey]

theorem Write.admitted {part : Part} (hwrite : Write env s part t) (hpart : part ≠ .queues) :
    Admitted s t := by
  cases hwrite with
  | insertMessage hok => exact insertMessage_admitted hok
  | deleteMessage hm _ hok | discardMessage hm hok => exact Admitted.deletes hm hok
  | claimMessage hm _ hok =>
    rcases Store.claimMessage_eq_ok.mp hok with ⟨_, _, rfl⟩
    exact replace_admitted hm rfl
  | releaseMessage hm hok =>
    rcases Store.releaseMessage_eq_ok.mp hok with ⟨_, _, _, _, rfl⟩
    exact replace_admitted hm rfl
  | insertPending hok =>
    rcases Store.insertPending_eq_ok.mp hok with ⟨_, _, _, _, rfl⟩
    exact keeps_of_eq rfl rfl
  | insertBatch hok =>
    rcases Store.insertBatch_eq_ok hok with ⟨_, _, _, rfl⟩
    exact keeps_of_eq rfl rfl
  | deleteBatch hok =>
    rcases Store.deleteBatch_eq_ok.mp hok with ⟨_, rfl⟩
    exact keeps_of_eq rfl rfl
  | insertConsumer _ hok =>
    simp only [Store.insertConsumer, ok_iff, ite_eq_iff] at hok
    rcases hok with ⟨_, rfl⟩ | ⟨_, _, _, _, rfl⟩ <;> exact keeps_of_eq rfl rfl
  | insertQueue | editQueue | deleteQueue => exact absurd rfl hpart
  | _ => exact keeps_of_eq rfl rfl

theorem Writes.admitted {P : Part -> Prop} (hqueues : ¬ P .queues) (hwrites : Writes env P s t) :
    ReflTransGen Admitted s t := by
  induction hwrites with
  | refl => exact ReflTransGen.refl
  | tail _ hwrite ih =>
    rcases hwrite with ⟨_, hpart, hwrite⟩
    exact ih.tail (hwrite.admitted fun heq => hqueues (heq ▸ hpart))

theorem next_admitted {w v : World} {a : Action} (hs : w.store.Ok env)
    (hnext : w.next env a = some v) :
    ReflTransGen Admitted w.store v.store ∨ v.store.messages = w.store.messages := by
  by_cases hqueues : a.parts .queues
  · refine .inr ((next_writes hs hnext).frame.messages ?_ ?_).left
    all_goals
      intro hpart
      cases a <;> simp_all [Action.parts]
  · exact .inl ((next_writes hs hnext).admitted hqueues)

/-! ## Growth -/

/-- A Queue row since an earlier one: its backlog grew no further than the limit allows. -/
structure GrownFrom (q r : QueueStateRow) : Prop where
  config : r.config = q.config
  bytes : r.messageBytes ≤ q.messageBytes ∨ r.messageBytes ≤ q.config.val.maxBacklogBytes

theorem Admitted.grown (hadmitted : Admitted s t) {id : QueueId} {r : QueueStateRow}
    (hr : t.queues.find? id = some r) :
    exists q, s.queues.find? id = some q ∧ GrownFrom q r := by
  cases hadmitted with
  | keeps _ hqueues => exact ⟨r, hqueues ▸ hr, rfl, .inl le_rfl⟩
  | @deletes m _ hdelete =>
    rcases Store.deleteMessage_eq_ok.mp hdelete with ⟨_, q, hq, _, rfl⟩
    rw [find?_replace (mem_of_find? hq) (by rfl)] at hr
    split at hr
    · rename_i hid
      cases hr
      exact ⟨q, hid ▸ key_of_find? hq ▸ hq, rfl, .inl (Nat.sub_le _ _)⟩
    · exact ⟨r, hr, rfl, .inl le_rfl⟩
  | @inserts m q u hinsert hq hu hconfig hbacklog =>
    by_cases hid : id = m.queueId
    · rw [hid, hu] at hr
      cases hr
      exact ⟨q, hid ▸ hq, hconfig, .inr hbacklog⟩
    · rcases Store.insertMessage_eq_ok.mp hinsert with ⟨_, p, hp, _, _, _, rfl⟩
      have hne : id ≠ p.queueId := key_of_find? hp ▸ hid
      rw [find?_replace (mem_of_find? hp) (by rfl), if_neg hne] at hr
      exact ⟨r, hr, rfl, .inl le_rfl⟩

theorem grown_of_admitted (hadmitted : ReflTransGen Admitted s t) {id : QueueId}
    {r : QueueStateRow} (hr : t.queues.find? id = some r) :
    exists q, s.queues.find? id = some q ∧ GrownFrom q r := by
  induction hadmitted generalizing r with
  | refl => exact ⟨r, hr, rfl, .inl le_rfl⟩
  | tail _ hlast ih =>
    rcases hlast.grown hr with ⟨p, hp, hconfig, hbytes⟩
    rcases ih hp with ⟨q, hq, hgrown⟩
    refine ⟨q, hq, hconfig.trans hgrown.config, ?_⟩
    rcases hbytes with hbytes | hbytes
    · exact hgrown.bytes.imp hbytes.trans hbytes.trans
    · exact .inr (hgrown.config ▸ hbytes)

theorem growsWithin_of_admitted (hs : s.Counted) (ht : t.Counted)
    (hadmitted : ReflTransGen Admitted s t ∨ t.messages = s.messages) {id : QueueId}
    {q r : QueueStateRow} (hq : s.queues.find? id = some q) (hr : t.queues.find? id = some r) :
    GrowsWithin q r := by
  intro hlt
  rcases hadmitted with hadmitted | hmessages
  · rcases grown_of_admitted hadmitted hr with ⟨p, hp, hgrown⟩
    rw [hq] at hp
    cases hp
    exact ⟨hgrown.config, hgrown.bytes.resolve_left hlt.not_ge⟩
  · have hsame : r.messageBytes = q.messageBytes := by
      rw [(hs q (mem_of_find? hq)).right, (ht r (mem_of_find? hr)).right, key_of_find? hq,
        key_of_find? hr, Store.messagesOf, Store.messagesOf, hmessages]
    exact absurd hsame hlt.ne'

end Inserts

/-! ## Runs -/

theorem operate_ok {env : Environment} {w v : World} {operation : Operation} (hs : w.store.Ok env)
    (hoperate : w.operate env operation = some v) :
    v.store.Ok env ∧
      (ReflTransGen Admitted w.store v.store ∨ v.store.messages = w.store.messages) := by
  cases operation with
  | call action => exact ⟨next_ok hs hoperate, next_admitted hs hoperate⟩
  | repair mismatch =>
    rcases World.after_eq_some.mp hoperate with ⟨t, hrepair, rfl⟩
    rcases snd_eq_ok.mp hrepair with ⟨changed, hrepair⟩
    rw [repairQueueCounter_eq hs hrepair]
    exact ⟨hs, .inr rfl⟩

/--
In every state of every run the counters are right.  The next operation writes no
message, or each of its inserts stays within the backlog limit in force, so no
backlog grows beyond it.
-/
theorem queue_counters (env : Environment) {operations : List Operation} {w : World}
    (hrun : Run (World.operate env) always World.initial operations w) :
    w.store.Counted ∧ forall operation v, w.operate env operation = some v ->
      (ReflTransGen Admitted w.store v.store ∨ v.store.messages = w.store.messages) ∧
      forall id q r, w.store.queues.find? id = some q -> v.store.queues.find? id = some r ->
        GrowsWithin q r := by
  have hs : w.store.Ok env := by
    refine hrun.invariant (P := fun w => w.store.Ok env) ?_ (Store.empty_ok env)
    intro u operation v hu _ hoperate
    exact (operate_ok hu hoperate).left
  refine ⟨hs.counted, ?_⟩
  intro operation v hoperate
  rcases operate_ok hs hoperate with ⟨hv, hadmitted⟩
  exact ⟨hadmitted, fun _ _ _ hq hr =>
    growsWithin_of_admitted hs.counted hv.counted hadmitted hq hr⟩

open Sample in
theorem queue_counters_pending : exists w v, exists q r : QueueStateRow,
    Run (World.operate environment) always World.initial
      (pendingActions.map .call ++ [.repair ⟨1, 1, 1, 2, 2⟩]) w ∧ w.store.Counted ∧
    w.operate environment (.call (.enqueue (request 1 2 [3, 4]) [11] 0)) = some v ∧
    w.store.queues.find? 1 = some q ∧ v.store.queues.find? 1 = some r ∧
    q.messageBytes = 2 ∧ r.messageBytes = 4 ∧
    r.messageBytes ≤ q.config.val.maxBacklogBytes := by
  have hexec : exists w, Run (World.operate environment) always World.initial
        (pendingActions.map .call ++ [.repair ⟨1, 1, 1, 2, 2⟩]) w ∧
      exists q, q ∈ w.store.queues.find? 1 ∧ q.messageBytes = 2 ∧
      exists v, v ∈ w.operate environment (.call (.enqueue (request 1 2 [3, 4]) [11] 0)) ∧
      exists r, r ∈ v.store.queues.find? 1 ∧ r.messageBytes = 4 :=
    exists_run_of_execute (by decide +kernel)
  rcases hexec with ⟨w, hrun, q, hq, hbefore, v, hv, r, hr, hafter⟩
  rcases queue_counters environment hrun with ⟨hcounted, hsteps⟩
  have hlt : q.messageBytes < r.messageBytes := by
    rw [hbefore, hafter]
    decide
  exact ⟨w, v, q, r, hrun, hcounted, hv, hq, hr, hbefore, hafter,
    ((hsteps _ v hv).right 1 q r hq hr hlt).right⟩

end Queue
end OpenCompute
