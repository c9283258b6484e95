import OpenCompute.Queue.Commits
import OpenCompute.Queue.InFlight

/-!
# Admission to dead-letter Queues

Completion and forwarding move messages while they count the backlog of the
Queues.  The counts are kept here as an abstract ledger of bytes, which says
exactly when the loops commit: the admission test of the store looks at the
backlog of a target, the insert guard also at the size of the message.
-/

namespace OpenCompute
namespace Queue

open Relational Table Transaction Option Function

/-! ## A ledger of backlogs -/

abbrev Backlog := QueueId -> Nat

/-- What becomes of the bytes of one message. -/
inductive Demand where
  | stays
  | leaves (source : QueueId) (bytes : Nat)
  | moves (source : QueueId) (target : QueueId × Nat) (bytes : Nat)

namespace Backlog

def minus (b : Backlog) (queueId : QueueId) (n : Nat) : Backlog :=
  Function.update b queueId (b queueId - n)

def plus (b : Backlog) (queueId : QueueId) (n : Nat) : Backlog :=
  Function.update b queueId (b queueId + n)

end Backlog

/-- The target row takes a message of `n` bytes at a backlog of `bytes`. -/
def HasRoom (q : QueueStateRow) (generation bytes n : Nat) : Prop :=
  q.lifecycleGeneration = generation ∧ q.state = .accepting ∧
    bytes + n ≤ q.config.val.maxBacklogBytes

instance (q : QueueStateRow) (generation bytes n : Nat) :
    Decidable (HasRoom q generation bytes n) := by
  unfold HasRoom
  infer_instance

/--
The ledger after one message.  There is none if the target row is missing, or if
it has room for the message but does not allow messages of that size.
-/
def settle (s : Store) (b : Backlog) : Demand -> Option Backlog
  | .stays => some b
  | .leaves source n => some (b.minus source n)
  | .moves source target n =>
    (s.queues.find? target.1).bind fun q =>
      if HasRoom q target.2 (b target.1) n then
        if n ≤ q.config.val.maxMessageBytes then
          some ((b.minus source n).plus target.1 n)
        else
          none
      else
        some b

def Store.backlog (s : Store) : Backlog :=
  fun id => (s.queues.find? id).elim 0 QueueStateRow.messageBytes

/-- What of a Queue row the writes to messages leave alone. -/
def QueueStateRow.policy (q : QueueStateRow) :
    Nat × SchedulerQueueState × ValidConfig :=
  (q.lifecycleGeneration, q.state, q.config)

/-- The rows of `a` are those of `s` with the backlogs of the ledger. -/
structure Ledger (s : Store) (b : Backlog) (a : Store) : Prop where
  policies : forall id, (a.queues.find? id).map QueueStateRow.policy =
    (s.queues.find? id).map QueueStateRow.policy
  backlogs : a.backlog = b

namespace Ledger

variable {s a t : Store} {b : Backlog}

theorem refl (s : Store) : Ledger s s.backlog s := ⟨fun _ => rfl, rfl⟩

variable {r q : QueueStateRow} {m : MessageRow}

section

variable (hl : Ledger s b a)
include hl

theorem row {id : QueueId} (hr : a.queues.find? id = some r) :
    exists q, s.queues.find? id = some q ∧ r.policy = q.policy ∧ r.messageBytes = b id := by
  have hpolicy := hl.policies id
  rw [hr] at hpolicy
  rcases map_eq_some_iff.mp hpolicy.symm with ⟨q, hq, hsame⟩
  refine ⟨q, hq, hsame.symm, ?_⟩
  rw [← hl.backlogs]
  simp only [Store.backlog, hr, elim_some]

theorem row_of {id : QueueId} (hq : s.queues.find? id = some q) :
    exists r, a.queues.find? id = some r ∧ r.policy = q.policy ∧ r.messageBytes = b id := by
  have hpolicy := hl.policies id
  rw [hq] at hpolicy
  rcases map_eq_some_iff.mp hpolicy with ⟨r, hr, hsame⟩
  rcases hl.row hr with ⟨_, _, _, hbytes⟩
  exact ⟨r, hr, hsame, hbytes⟩

theorem of_queues (hqueues : t.queues = a.queues) : Ledger s b t := by
  constructor
  · intro id
    rw [hqueues]
    exact hl.policies id
  · rw [← hl.backlogs]
    unfold Store.backlog
    rw [hqueues]

theorem replace (hq : a.queues.find? r.queueId = some q)
    (hpolicy : r.policy = q.policy) (hqueues : t.queues = a.queues.replace r) :
    Ledger s (update b r.queueId r.messageBytes) t := by
  have hfound := find?_eq_some.mp hq
  have hfind : forall id, t.queues.find? id =
      if id = r.queueId then some r else a.queues.find? id := by
    intro id
    rw [hqueues]
    exact find?_replace hfound.left hfound.right id
  constructor
  · intro id
    rw [hfind id]
    by_cases hid : id = r.queueId
    · rw [if_pos hid, hid, ← hl.policies, hq, map_some, map_some, hpolicy]
    · rw [if_neg hid]
      exact hl.policies id
  · funext id
    unfold Store.backlog
    rw [hfind id]
    by_cases hid : id = r.queueId
    · rw [if_pos hid, hid, update_self]
      rfl
    · rw [if_neg hid, update_of_ne hid, ← hl.backlogs]
      rfl

theorem insertMessage (hok : a.insertMessage m = .ok t) :
    Ledger s (b.plus m.queueId m.bodyBytes) t := by
  rcases Store.insertMessage_eq_ok.mp hok with ⟨_, q, hq, _, _, _, rfl⟩
  rcases hl.row hq with ⟨_, _, _, hbytes⟩
  have hid : q.queueId = m.queueId := key_of_find? hq
  rw [Backlog.plus, ← hbytes, ← hid]
  rw [← hid] at hq
  exact hl.replace (r := { q with
    messageCount := q.messageCount + 1
    messageBytes := q.messageBytes + m.bodyBytes }) hq rfl rfl

theorem deleteMessage (hok : a.deleteMessage m = .ok t) :
    Ledger s (b.minus m.queueId m.bodyBytes) t := by
  rcases Store.deleteMessage_eq_ok.mp hok with ⟨_, q, hq, _, rfl⟩
  rcases hl.row hq with ⟨_, _, _, hbytes⟩
  have hid : q.queueId = m.queueId := key_of_find? hq
  rw [Backlog.minus, ← hbytes, ← hid]
  rw [← hid] at hq
  exact hl.replace (r := { q with
    messageCount := q.messageCount - 1
    messageBytes := q.messageBytes - m.bodyBytes }) hq rfl rfl

end

end Ledger

/-! ## One move -/

/-- The time is an `i64`, and so is every time the store derives from it. -/
def ClockInRange (nowMs : Millis) : Prop :=
  i64Min ≤ nowMs ∧ nowMs + queueMaxRetentionSeconds * 1000 ≤ i64Max

variable {nowMs : Millis} {b : Backlog} {q : QueueStateRow} {target : QueueId × Nat}
  {m : MessageRow}

theorem ClockInRange.checkedAdd (hnow : ClockInRange nowMs) {n : Nat}
    (hn : n ≤ queueMaxRetentionSeconds * 1000) : checkedAdd nowMs n = some (nowMs + n) := by
  have hbound : (n : Int) ≤ (queueMaxRetentionSeconds : Int) * 1000 := by
    exact_mod_cast hn
  have hhigh : nowMs + (n : Int) ≤ i64Max := le_trans (Int.add_le_add_left hbound nowMs) hnow.right
  have hlow : i64Min ≤ nowMs + (n : Int) :=
    le_trans hnow.left (Int.le_add_of_nonneg_right (Int.natCast_nonneg n))
  exact checkedAdd_eq_some.mpr ⟨hlow, hhigh, rfl⟩

section Move

variable {s a u : Store} {b : Backlog} {q : QueueStateRow}
  {target : QueueId × Nat} {m : MessageRow} {nowMs : Millis}

theorem Ledger.dlqAccepts_iff {n : Nat} (hl : Ledger s b a)
    (hq : s.queues.find? target.1 = some q) :
    a.dlqAccepts target n = true ↔ HasRoom q target.2 (b target.1) n := by
  rcases hl.row_of hq with ⟨_, hr, hpolicy, hbytes⟩
  simp only [QueueStateRow.policy, Prod.mk.injEq] at hpolicy
  rcases hpolicy with ⟨hgeneration, hstate, hconfig⟩
  simp only [Store.dlqAccepts, hr, any_some, HasRoom, Bool.and_eq_true,
    decide_eq_true_eq, hgeneration, hstate, hconfig, hbytes, and_assoc]

theorem Ledger.insertDlqMessage_iff (hl : Ledger s b u) (hq : s.queues.find? target.1 = some q)
    (hroom : HasRoom q target.2 (b target.1) m.bodyBytes)
    (hfresh : ¬ m.id ∈ u.messages.keys) (hnow : ClockInRange nowMs) :
    (exists t, u.insertDlqMessage m target nowMs = .ok t) ↔
      m.bodyBytes ≤ q.config.val.maxMessageBytes := by
  rcases hl.row_of hq with ⟨r, hr, hpolicy, hbytes⟩
  simp only [QueueStateRow.policy, Prod.mk.injEq] at hpolicy
  rcases hpolicy with ⟨hgeneration, hstate, hconfig⟩
  constructor
  · intro hok
    rcases hok with ⟨_, hok⟩
    rcases insertDlqMessage_eq_ok.mp hok with ⟨_, _, _, _, _, _, hinsert⟩
    rcases Store.insertMessage_eq_ok.mp hinsert with ⟨_, r'', hr'', hadmits, _⟩
    have hsame : r = r'' := some.inj (hr.symm.trans hr'')
    subst hsame
    rw [← hconfig]
    exact hadmits.right.right.left
  · intro hsize
    have hretention := r.config.property.right.right.left
    have hpositive := r.config.property.right.left
    have hadd := hnow.checkedAdd (Nat.mul_le_mul_right 1000 hretention)
    have hexpires : nowMs < nowMs + (r.config.val.retentionSeconds * 1000 : Nat) := by
      apply lt_add_of_pos_right
      apply Int.natCast_pos.mpr
      unfold queueMinRetentionSeconds at hpositive
      omega
    have hadmitted : r.lifecycleGeneration = target.2 ∧ r.state = .accepting := by
      rw [hgeneration, hstate]
      exact ⟨hroom.left, hroom.right.left⟩
    have hsizes : m.bodyBytes ≤ r.config.val.maxMessageBytes ∧
        r.messageBytes + m.bodyBytes ≤ r.config.val.maxBacklogBytes := by
      rw [hconfig, hbytes]
      exact ⟨hsize, hroom.right.right⟩
    have hadmits : Store.Admits r (dlqRow m target nowMs _ hexpires) :=
      ⟨hadmitted.right, hadmitted.left, hsizes.left, by
        simp only [dlqRow, Nat.cast_mul, Nat.cast_ofNat], hsizes.right⟩
    rcases exists_insert? (x := dlqRow m target nowMs _ hexpires) hfresh with
      ⟨messages, hinsert⟩
    exact ⟨_, insertDlqMessage_eq_ok.mpr ⟨r, hr, hadmitted, _, hadd, hexpires,
      Store.insertMessage_eq_ok.mpr ⟨⟨rfl, rfl⟩, r, hr, hadmits, messages, hinsert, rfl⟩⟩⟩

end Move

theorem HasRoom.minus {generation n k : Nat} {source queueId : QueueId}
    (hroom : HasRoom q generation (b queueId) n) :
    HasRoom q generation ((b.minus source k) queueId) n := by
  have hle : (b.minus source k) queueId ≤ b queueId := by
    unfold Backlog.minus
    by_cases hsame : queueId = source
    · subst hsame
      rw [update_self]
      exact Nat.sub_le _ _
    · rw [update_of_ne hsame]
  exact ⟨hroom.left, hroom.right.left, le_trans (Nat.add_le_add_right hle n) hroom.right.right⟩

theorem Ledger.move_iff {env : Environment} {s a : Store} (hl : Ledger s b a) (ha : a.Ok env)
    (hm : m ∈ a.messages) (hq : s.queues.find? target.1 = some q)
    (hroom : HasRoom q target.2 (b target.1) m.bodyBytes) (hnow : ClockInRange nowMs) :
    (exists u t, a.deleteMessage m = .ok u ∧ u.insertDlqMessage m target nowMs = .ok t) ↔
      m.bodyBytes ≤ q.config.val.maxMessageBytes := by
  have hinsert : forall u, a.deleteMessage m = .ok u ->
      ((exists t, u.insertDlqMessage m target nowMs = .ok t) ↔
        m.bodyBytes ≤ q.config.val.maxMessageBytes) := by
    intro u hdelete
    apply (hl.deleteMessage hdelete).insertDlqMessage_iff hq hroom.minus ?_ hnow
    rcases Store.deleteMessage_eq_ok.mp hdelete with ⟨_, _, _, _, rfl⟩
    intro hkey
    exact (mem_keys_erase.mp hkey).right rfl
  constructor
  · intro hok
    rcases hok with ⟨u, t, hdelete, hmoved⟩
    exact (hinsert u hdelete).mp ⟨t, hmoved⟩
  · intro hsize
    rcases ha.deleteMessage_commits hm with ⟨u, hdelete⟩
    rcases (hinsert u hdelete).mpr hsize with ⟨t, hmoved⟩
    exact ⟨u, t, hdelete, hmoved⟩

theorem Ledger.moved {s a u t : Store} (hl : Ledger s b a) (hdelete : a.deleteMessage m = .ok u)
    (hinsert : u.insertDlqMessage m target nowMs = .ok t) :
    Ledger s ((b.minus m.queueId m.bodyBytes).plus target.1 m.bodyBytes) t := by
  rcases insertDlqMessage_eq_ok.mp hinsert with ⟨_, _, _, _, _, _, hrow⟩
  exact (hl.deleteMessage hdelete).insertMessage hrow

section Entries

variable {env : Environment} {s a : Store}

theorem Ledger.settle_moved {u t : Store} (hl : Ledger s b a) (ha : a.Ok env)
    (hm : m ∈ a.messages) (hnow : ClockInRange nowMs)
    (haccepts : a.dlqAccepts target m.bodyBytes = true) (hdelete : a.deleteMessage m = .ok u)
    (hinsert : u.insertDlqMessage m target nowMs = .ok t) :
    exists c, settle s b (.moves m.queueId target m.bodyBytes) = some c ∧ Ledger s c t := by
  rcases (any_eq_true _ _).mp haccepts with ⟨_, hr, _⟩
  rcases hl.row hr with ⟨_, hq, _, _⟩
  have hroom := (hl.dlqAccepts_iff hq).mp haccepts
  have hsize := (hl.move_iff ha hm hq hroom hnow).mp ⟨u, t, hdelete, hinsert⟩
  refine ⟨_, ?_, hl.moved hdelete hinsert⟩
  simp only [settle, hq, bind_some, if_pos hroom, if_pos hsize]

theorem Ledger.settle_full {source : QueueId} {n : Nat} (hl : Ledger s b a)
    (hkey : target.1 ∈ a.queues.keys) (hfull : a.dlqAccepts target n = false) :
    settle s b (.moves source target n) = some b := by
  rcases exists_find?_iff_keys.mpr hkey with ⟨_, hr⟩
  rcases hl.row hr with ⟨q, hq, _, _⟩
  have hroom : ¬ HasRoom q target.2 (b target.1) n := by
    rw [← hl.dlqAccepts_iff hq, hfull]
    exact Bool.false_ne_true
  simp only [settle, hq, bind_some, if_neg hroom]

theorem Ledger.move_or_full {c : Backlog} (hl : Ledger s b a) (ha : a.Ok env)
    (hm : m ∈ a.messages) (hnow : ClockInRange nowMs)
    (hsettle : settle s b (.moves m.queueId target m.bodyBytes) = some c) :
    (a.dlqAccepts target m.bodyBytes = true ∧
      exists u t, a.deleteMessage m = .ok u ∧ u.insertDlqMessage m target nowMs = .ok t) ∨
    (a.dlqAccepts target m.bodyBytes = false ∧ target.1 ∈ a.queues.keys) := by
  rcases bind_eq_some_iff.mp hsettle with ⟨_, hq, hentry⟩
  cases haccepts : a.dlqAccepts target m.bodyBytes with
  | true =>
    have hroom := (hl.dlqAccepts_iff hq).mp haccepts
    rw [if_pos hroom, ite_none_right_eq_some] at hentry
    exact Or.inl ⟨rfl, (hl.move_iff ha hm hq hroom hnow).mpr hentry.left⟩
  | false =>
    rcases hl.row_of hq with ⟨r, hr, _⟩
    exact Or.inr ⟨rfl, exists_find?_iff_keys.mp ⟨r, hr⟩⟩

end Entries

end Queue
end OpenCompute
