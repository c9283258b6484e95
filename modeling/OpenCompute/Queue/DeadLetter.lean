import OpenCompute.Queue.Frames

/-!
# Integrity of the dead-letter lane

A row of `queue_dlq_pending` has no foreign key onto its message.  Every write
keeps the two together, except the discard of restart recovery, which looks at
the consumer stored by then and not at the lane.
-/

namespace OpenCompute
namespace Queue

open Relational Table Transaction Transition List

def DeadLetterIntact (s : Store) : Prop :=
  forall p, p ∈ s.pending -> exists m, m ∈ s.messages ∧ m.id = p.messageId ∧
    m.Ready ∧ m.queueId = p.sourceQueueId ∧ m.attempts = p.terminalAttempts

instance (s : Store) : Decidable (DeadLetterIntact s) :=
  inferInstanceAs (Decidable (forall p, p ∈ s.pending.rows ->
    exists m, m ∈ s.messages.rows ∧ m.id = p.messageId ∧
      m.Ready ∧ m.queueId = p.sourceQueueId ∧ m.attempts = p.terminalAttempts))

/-!
## Writes

A write keeps the lane intact when the message it removes or claims has no row
there.
-/

section Writes

variable {env : Environment} {s t : Store}

theorem DeadLetterIntact.of_messages (hs : DeadLetterIntact s)
    (hpending : forall p, p ∈ t.pending -> exists r, r ∈ s.pending ∧
      p.messageId = r.messageId ∧ p.sourceQueueId = r.sourceQueueId ∧
      p.terminalAttempts = r.terminalAttempts)
    (hmessages : forall m, m ∈ s.messages -> m.Ready ->
      m.id ∈ t.pending.keys -> m ∈ t.messages) : DeadLetterIntact t := by
  intro p hp
  rcases hpending p hp with ⟨r, hr, hid, hsource, hattempts⟩
  rcases hs r hr with ⟨m, hm, hmid, hready, hmsource, hmattempts⟩
  have hkey : m.id ∈ t.pending.keys := mem_keys.mpr ⟨p, hp, hid.trans hmid.symm⟩
  exact ⟨m, hmessages m hm hready hkey, hmid.trans hid.symm, hready,
    hmsource.trans hsource.symm, hmattempts.trans hattempts.symm⟩

theorem DeadLetterIntact.same_lane (hs : DeadLetterIntact s) (hpending : t.pending = s.pending)
    (hmessages : forall m, m ∈ s.messages -> m.Ready ->
      m.id ∈ s.pending.keys -> m ∈ t.messages) : DeadLetterIntact t := by
  refine hs.of_messages ?_ (hpending ▸ hmessages)
  intro p hp
  exact ⟨p, hpending ▸ hp, rfl, rfl, rfl⟩

variable {m : MessageRow}

theorem DeadLetterIntact.deleteMessage (hs : DeadLetterIntact s) (hlane : ¬ m.id ∈ s.pending.keys)
    (hok : s.deleteMessage m = .ok t) : DeadLetterIntact t := by
  rcases Store.deleteMessage_eq_ok.mp hok with ⟨_, _, _, _, rfl⟩
  refine hs.same_lane rfl ?_
  intro n hn _ hkey
  refine mem_erase.mpr ⟨hn, ?_⟩
  intro heq
  exact hlane (heq ▸ hkey)

theorem DeadLetterIntact.releaseMessage (hs : DeadLetterIntact s) {attempts : Nat}
    {availableAtMs : Millis} (hm : m ∈ s.messages)
    (hok : s.releaseMessage m attempts availableAtMs = .ok t) : DeadLetterIntact t := by
  rcases Store.releaseMessage_eq_ok.mp hok with ⟨_, hclaim, _, _, rfl⟩
  refine hs.same_lane rfl ?_
  intro n hn hready _
  refine mem_replace.mpr (.inl ⟨hn, ?_⟩)
  intro heq
  have hsame : n = m := eq_of_key_eq hn hm heq
  rw [hsame, MessageRow.Ready, hclaim] at hready
  cases hready

theorem DeadLetterIntact.insertPending (hs : DeadLetterIntact s) {p : DlqPendingRow}
    (hok : s.insertPending p = .ok t) : DeadLetterIntact t := by
  rcases Store.insertPending_eq_ok.mp hok with ⟨hauthority, _, _, hinsert, rfl⟩
  rcases Store.pendingAuthority_iff.mp hauthority with ⟨⟨m, hm, hsource, hready, hattempts⟩, _⟩
  have hfound := find?_eq_some.mp hm
  exact forall_insert? hinsert hs ⟨m, hfound.left, hfound.right, hready, hsource, hattempts⟩

theorem Write.deadLetterIntact {part : Part} (hwrite : Write env s part t)
    (hspares : part ≠ .discards) (hs : DeadLetterIntact s) : DeadLetterIntact t := by
  have hkeeps := (hwrite.frame (P := (part = ·)) rfl).messages
  cases hwrite with
  | insertMessage hok =>
    rcases Store.insertMessage_eq_ok.mp hok with ⟨_, _, _, _, _, hinsert, rfl⟩
    refine hs.same_lane rfl ?_
    intro n hn _ _
    exact (mem_of_insert? hinsert).mpr (.inl hn)
  | deleteMessage _ hlane hok => exact hs.deleteMessage hlane hok
  | discardMessage _ _ => exact absurd rfl hspares
  | claimMessage hm hlane hok =>
    rcases Store.claimMessage_eq_ok.mp hok with ⟨_, _, rfl⟩
    refine hs.same_lane rfl ?_
    intro n hn _ hkey
    refine mem_replace.mpr (.inl ⟨hn, ?_⟩)
    intro heq
    exact hlane (heq ▸ hkey)
  | releaseMessage hm hok => exact hs.releaseMessage hm hok
  | insertPending hok => exact hs.insertPending hok
  | deletePending id =>
    intro p hp
    exact hs p (mem_erase.mp hp).left
  | @postponePending p nextAttemptAtMs hp =>
    refine hs.of_messages ?_ (fun m hm _ _ => hm)
    exact forall_replace (fun r hr => ⟨r, hr, rfl, rfl, rfl⟩) ⟨p, hp, rfl, rfl, rfl⟩
  | _ =>
    rcases hkeeps nofun nofun with ⟨hmessages, hpending⟩
    exact hs.same_lane hpending fun m hm _ _ => hmessages ▸ hm

theorem Writes.deadLetterIntact {P : Part -> Prop} (hwrites : Writes env P s t)
    (hspares : ¬ P .discards) (hs : DeadLetterIntact s) : DeadLetterIntact t := by
  induction hwrites with
  | refl => exact hs
  | tail _ hwrite ih =>
    rcases hwrite with ⟨_, hpart, hwrite⟩
    exact hwrite.deadLetterIntact (fun heq => hspares (heq ▸ hpart)) ih

end Writes

/-!
## Recovery

The last statement of recovery deletes exhausted messages without a dead-letter
Queue.  It leaves the lane intact when none of them is pending.
-/

/-- No pending message is exhausted under a consumer without a dead-letter Queue. -/
def LaneSpared (s : Store) : Prop :=
  forall p, p ∈ s.pending -> forall m, m ∈ s.messages -> m.id = p.messageId ->
    forall c, c ∈ s.exhaustedBy m -> c.deadLetterQueue ≠ none

instance (s : Store) : Decidable (LaneSpared s) :=
  inferInstanceAs (Decidable (forall p, p ∈ s.pending.rows ->
    forall m, m ∈ s.messages.rows -> m.id = p.messageId ->
      forall c, c ∈ s.exhaustedBy m -> c.deadLetterQueue ≠ none))

section Recovery

variable {env : Environment} {s t : Store} {nowMs : Millis}

theorem LaneSpared.resetMessages (hok : s.Ok env) (hs : LaneSpared s)
    (hreset : s.resetMessages nowMs = .ok t) : LaneSpared t := by
  refine (foldlM_rows Store.messages (fun a => a.Ok env ∧ LaneSpared a) ?_
    (messages_ids_nodup _ _) ?_ ⟨hok, hs⟩ hreset).right
  · intro m a b _ hm ha hb
    refine ⟨⟨ha.left.releaseMessage hm hb, ?_⟩, fun n hne hn => resetMessage_frame hb hne hn⟩
    rcases Store.releaseMessage_eq_ok.mp hb with ⟨c, hclaim, _, _, rfl⟩
    intro p hp n hn hid d hexhausted
    rcases mem_replace.mp hn with hn | ⟨rfl, _⟩
    · exact ha.right p hp n hn.left hid d hexhausted
    · have hclaimed : m.claim ≠ none := by
        rw [hclaim]
        exact Option.some_ne_none c
      exact absurd (mem_keys.mpr ⟨p, hp, hid.symm⟩) (ha.left.claimed_not_pending m hm hclaimed)
  · intro m hm
    exact (List.mem_filter.mp hm).left

theorem LaneSpared.deleteBatches (hs : LaneSpared s)
    (hdelete : s.deleteBatches = .ok t) : LaneSpared t := by
  refine foldlM_invariant LaneSpared ?_ hs hdelete
  intro id a b _ ha hb
  rcases Store.deleteBatch_eq_ok.mp hb with ⟨_, rfl⟩
  exact ha

theorem LaneSpared.resetPending (hs : LaneSpared s)
    (hreset : s.messages.rows.foldlM (resetPending nowMs) s = .ok t) : LaneSpared t := by
  refine foldlM_rows Store.messages LaneSpared ?_ s.messages.nodup (fun m hm => hm) hs hreset
  intro m a b _ hm ha hb
  cases resetPending_inv hb with
  | skipped => exact ⟨ha, fun n _ hn => hn⟩
  | inserted hterminal hsource hexhausted htarget hinsert =>
    rcases Store.insertPending_eq_ok.mp hinsert with ⟨_, _, _, hins, rfl⟩
    refine ⟨?_, fun n _ hn => hn⟩
    intro p hp n hn hid d hd
    rcases (mem_of_insert? hins).mp hp with hp | rfl
    · exact ha p hp n hn hid d hd
    · have hsame : n = m := eq_of_key_eq hn hm hid
      have hconsumer : a.exhaustedBy m = some d := hsame ▸ hd
      rw [hexhausted] at hconsumer
      cases hconsumer
      rw [htarget]
      exact Option.some_ne_none _

theorem DeadLetterIntact.resetClaims {cronMaxRetries : Nat} (hok : s.Ok env)
    (hs : DeadLetterIntact s) (hspared : LaneSpared s)
    (hreset : resetClaims s nowMs cronMaxRetries = .ok t) : DeadLetterIntact t := by
  rcases resetClaims_inv hreset with ⟨_, _, x, hu, hv, hx, ht⟩
  have hintact : DeadLetterIntact x :=
    (resetRows_writes (P := fun part => part = .messages ∨ part = .batches) (.inl rfl)
      (.inr rfl) hok hu hv hx).deadLetterIntact (by simp) hs
  have hx' : LaneSpared x := ((hspared.resetMessages hok hu).deleteBatches hv).resetPending hx
  refine (foldlM_rows Store.messages (fun a => DeadLetterIntact a ∧ LaneSpared a) ?_
    x.messages.nodup (fun m hm => hm) ⟨hintact, hx'⟩ ht).left
  intro m a b _ hm ha hb
  refine ⟨?_, fun n hne hn => resetDiscard_frame hb hne hn⟩
  rcases resetDiscard_inv hb with rfl | ⟨c, hexhausted, hdlq, hdelete⟩
  · exact ha
  · have hlane : ¬ m.id ∈ a.pending.keys := by
      intro hkey
      rcases mem_keys.mp hkey with ⟨p, hp, hid⟩
      exact ha.right p hp m hm hid.symm c hexhausted hdlq
    refine ⟨ha.left.deleteMessage hlane hdelete, ?_⟩
    rcases Store.deleteMessage_eq_ok.mp hdelete with ⟨_, _, _, _, rfl⟩
    intro p hp n hn hid d hd
    exact ha.right p hp n (mem_erase.mp hn).left hid d hd

end Recovery

/-! ## Runs -/

/-- A restart may only happen while it spares the lane. -/
def SparesLane (w : World) : Action -> Prop
  | .restart _ _ => LaneSpared w.store
  | _ => True

instance (w : World) (a : Action) : Decidable (SparesLane w a) := by
  unfold SparesLane
  split <;> infer_instance

variable {env : Environment}

/-! ## Forwarding finds its messages -/

def ForwardFindsMessages (s : Store) (nowMs : Millis) (retryBackoffMs limit : Nat) :
    Prop :=
  forall done next rest acc,
    (s.duePending nowMs limit).map DlqPendingRow.messageId = done ++ next :: rest ->
    done.foldlM (forwardPending nowMs retryBackoffMs) ({}, s) = .ok acc ->
    exists m, acc.2.messages.find? next = some m ∧ m.claim = none

theorem DeadLetterIntact.forwardFindsMessages (env : Environment) {s : Store}
    (hs : DeadLetterIntact s) (nowMs : Millis) (retryBackoffMs limit : Nat) :
    ForwardFindsMessages s nowMs retryBackoffMs limit := by
  intro done next rest acc hdue hfold
  have hnodup := hdue ▸ duePending_nodup s nowMs limit
  have hnext : next ∈ s.pending.keys := by
    have hmem : next ∈ (s.duePending nowMs limit).map DlqPendingRow.messageId := by
      rw [hdue]
      exact mem_append_right done mem_cons_self
    rcases mem_map.mp hmem with ⟨p, hp, rfl⟩
    have hsorted := mem_of_mem_take hp
    rw [List.mem_insertionSort] at hsorted
    exact key_mem_keys (List.mem_filter.mp hsorted).left
  have hloop : DeadLetterIntact acc.2 ∧ next ∈ acc.2.pending.keys := by
    refine foldlM_invariant (fun acc : QueueDlqForwardSummary × Store =>
      DeadLetterIntact acc.2 ∧ next ∈ acc.2.pending.keys) ?_ ⟨hs, hnext⟩ hfold
    intro id a b hid ha hb
    have hne : next ≠ id := by
      intro heq
      exact (nodup_append.mp hnodup).right.right id hid next mem_cons_self heq.symm
    have hwrites : Writes env (· = .messages) a.2 b.2 := forwardPending_writes rfl hb
    refine ⟨hwrites.deadLetterIntact nofun ha.left, ?_⟩
    rcases forwardPending_inv hb with ⟨p, m, _, hm, _, hforwarding⟩
    have hmid : m.id = id := key_of_find? hm
    generalize b.2 = t at hforwarding
    cases hforwarding with
    | expired _ hdelete =>
      rcases Store.deleteMessage_eq_ok.mp hdelete with ⟨_, _, _, _, rfl⟩
      exact mem_keys_erase.mpr ⟨ha.right, hmid ▸ hne⟩
    | moved _ _ hdelete hinsert =>
      rcases insertDlqMessage_eq_ok.mp hinsert with ⟨_, _, _, _, _, _, hrow⟩
      rcases Store.deleteMessage_eq_ok.mp hdelete with ⟨_, _, _, _, rfl⟩
      rcases Store.insertMessage_eq_ok.mp hrow with ⟨_, _, _, _, _, _, rfl⟩
      exact mem_keys_erase.mpr ⟨ha.right, hmid ▸ hne⟩
    | postponed _ _ _ =>
      rw [keys_replace]
      exact ha.right
  rcases mem_keys.mp hloop.right with ⟨p, hp, rfl⟩
  rcases hloop.left p hp with ⟨m, hm, hid, hready, _⟩
  exact ⟨m, find?_eq_some.mpr ⟨hm, hid⟩, hready⟩

/--
In every run whose restarts spare the lane, each row of the lane names a ready
message of its source Queue with the terminal attempts, and forwarding never
misses a message.
-/
theorem deadLetter_integrity (env : Environment) {w : World} {actions : List Action}
    (hrun : Run (World.next env) SparesLane World.initial actions w) :
    DeadLetterIntact w.store ∧ forall nowMs retryBackoffMs limit,
        ForwardFindsMessages w.store nowMs retryBackoffMs limit := by
  have hboth : w.store.Ok env ∧ DeadLetterIntact w.store := by
    refine hrun.invariant (P := fun w => w.store.Ok env ∧ DeadLetterIntact w.store) ?_
      ⟨Store.empty_ok env, fun p hp => absurd hp (not_mem_empty p)⟩
    intro x a y hx hspares hnext
    refine ⟨next_ok hx.left hnext, ?_⟩
    by_cases hdiscards : a.parts .discards
    · cases a with
      | restart nowMs cronMaxRetries =>
        rcases World.after_eq_some.mp hnext with ⟨t, hok, rfl⟩
        exact hx.right.resetClaims hx.left hspares hok
      | _ => simp [Action.parts] at hdiscards
    · exact (next_writes hx.left hnext).deadLetterIntact hdiscards hx.right
  exact ⟨hboth.right, fun nowMs retryBackoffMs limit =>
    hboth.right.forwardFindsMessages env nowMs retryBackoffMs limit⟩

theorem deadLetter_integrity_restart :
    exists w, Run (World.next Sample.environment) SparesLane World.initial
        (Sample.pendingActions ++ [.restart 0 0]) w ∧
      w.store.pending.keys = [10] ∧ DeadLetterIntact w.store ∧
      ForwardFindsMessages w.store 1000 1 1 := by
  refine exists_run_with (fun w hrun => ?_) (by decide +kernel)
  have hintegrity := deadLetter_integrity Sample.environment hrun
  exact ⟨hintegrity.left, hintegrity.right 1000 1 1⟩

theorem restart_orphans_pending :
    exists w, Run (World.next Sample.environment) always World.initial
        (Sample.pendingActions ++ [Sample.promote (Sample.consumer 0 none), .restart 0 0]) w ∧
      ¬ DeadLetterIntact w.store ∧
      forwardQueueDlqPending w.store 1000 1 1 = .error Scheduler.unavailable :=
  exists_run_of_execute (by decide +kernel)

end Queue
end OpenCompute
