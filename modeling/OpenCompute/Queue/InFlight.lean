import OpenCompute.Queue.Cells

/-!
# Batches in flight

A claim hands out a batch and forgets it: the store keeps a row of the batch and
the claims of its messages, but neither the retry limit nor the dead-letter
Queue that the batch was claimed with.  Here the batches that were handed out
are related to the rows that are still stored for them.
-/

namespace OpenCompute
namespace Queue

open Relational Table Transaction Transition List

def ClaimedBy (cell : Cell) (c : Claim) : Prop :=
  exists m, cell.1 = some m ∧ m.claim = some c

def Delivers (s : Store) (b : ClaimedQueueBatch) : Prop :=
  (b.messages.map ClaimedQueueMessage.id).Nodup ∧
    forall k, k ∈ b.messages.map ClaimedQueueMessage.id ↔ ClaimedBy (s.cell k) b.claim

structure InFlight (env : Environment) (returned : List ClaimedQueueBatch)
    (s : Store) : Prop where
  unique : forall b d, b ∈ returned -> d ∈ returned -> b.id = d.id -> b = d
  retries : forall b, b ∈ returned -> b.maxRetries ≤ 100
  dlq : forall b target, b ∈ returned -> b.deadLetterQueue = some target ->
    b.queueId ≠ target.1 ∧ target.2 = env.lifecycleGeneration target.1
  row : forall r, r ∈ s.batches -> exists b, b ∈ returned ∧
    r.id = b.id ∧ r.queueId = b.queueId ∧ r.consumerId = b.consumerId ∧
      r.consumerGeneration = b.consumerGeneration
  delivers : forall b, b ∈ returned -> b.id ∈ s.batches.keys -> Delivers s b
  attempts : forall m, m ∈ s.messages -> m.claim ≠ none -> m.attempts ≤ u16Max

/-! ## Actions and claims -/

/-- The claims that an action may create or settle. -/
def Action.Touches : Action -> Claim -> Prop
  | .claim _ _ _ ids, c => c.claimBatchId ∈ ids
  | .complete batch _ _, c => c = batch.claim
  | .restart _ _, _ => True
  | _, _ => False

variable {m : MessageRow} {lane : Option DlqPendingRow} {c : Claim} {a : Action} {env : Environment}

theorem claimedBy_some : ClaimedBy (some m, lane) c ↔ m.claim = some c := by
  constructor
  · intro hclaimed
    rcases hclaimed with ⟨_, hn, hclaim⟩
    cases hn
    exact hclaim
  · intro hclaim
    exact ⟨m, rfl, hclaim⟩

theorem not_claimedBy_none (lane : Option DlqPendingRow) (c : Claim) :
    ¬ ClaimedBy (none, lane) c := by
  intro hclaimed
  rcases hclaimed with ⟨_, hm, _⟩
  cases hm

theorem not_claimedBy_of_ready (hready : m.claim = none) : ¬ ClaimedBy (some m, lane) c := by
  rw [claimedBy_some, hready]
  intro hclaim
  cases hclaim

theorem not_claimedBy_of_ne {d : Claim} (hclaim : m.claim = some d) (hne : ¬ c = d) :
    ¬ ClaimedBy (some m, lane) c := by
  rw [claimedBy_some, hclaim]
  intro hsame
  exact hne (Option.some.inj hsame).symm

theorem Change.claimedBy {s : Store} {x y : Cell} (hchange : Change s a x y)
    (htouches : ¬ a.Touches c) : ClaimedBy y c ↔ ClaimedBy x c := by
  cases hchange with
  | same => exact Iff.rfl
  | accepted _ _ _ hready =>
    exact iff_of_false (not_claimedBy_of_ready hready) (not_claimedBy_none _ _)
  | delivered hid _ _ _ hready =>
    refine iff_of_false ?_ (not_claimedBy_of_ready hready)
    refine not_claimedBy_of_ne rfl ?_
    intro hsame
    exact htouches (hsame ▸ hid)
  | acknowledged hclaim _ =>
    exact iff_of_false (not_claimedBy_none _ _) (not_claimedBy_of_ne hclaim htouches)
  | expired hfailed _ | discarded hfailed _ _ _ =>
    exact iff_of_false (not_claimedBy_none _ _) (not_claimedBy_of_ne hfailed.left htouches)
  | retried _ hfailed _ _ | deadLettered _ hfailed _ _ _ | deferred _ _ hfailed _ _ _ =>
    exact iff_of_false (not_claimedBy_of_ready rfl) (not_claimedBy_of_ne hfailed.left htouches)
  | laneExpired hready _ | swept hready _ | purged hready _ =>
    exact iff_of_false (not_claimedBy_none _ _) (not_claimedBy_of_ready hready)
  | forwarded _ hready _ =>
    exact iff_of_false (not_claimedBy_of_ready rfl) (not_claimedBy_of_ready hready)
  | postponed _ hready _ =>
    exact iff_of_false (not_claimedBy_of_ready hready) (not_claimedBy_of_ready hready)
  | recovered => exact absurd trivial htouches

theorem Change.claimed_attempts {s : Store} {x y : Cell} {n : MessageRow} (hchange : Change s a x y)
    (hn : y.1 = some n) (hclaimed : n.claim ≠ none) : x.1 = some n ∨ n.attempts ≤ u16Max := by
  cases hchange with
  | same | postponed => exact .inl hn
  | accepted _ _ _ hready =>
    cases hn
    exact absurd hready hclaimed
  | delivered _ _ _ hattempts _ =>
    cases hn
    exact .inr hattempts
  | retried | deadLettered | deferred | forwarded =>
    cases hn
    exact absurd rfl hclaimed
  | acknowledged | expired | discarded | laneExpired | swept | purged => cases hn
  | recovered =>
    refine absurd ?_ hclaimed
    rcases x with ⟨row, _⟩
    cases row with
    | none => cases hn
    | some m =>
      simp only [recoverCell] at hn
      split at hn <;> cases hn
      exact recoverRow_ready _ m

/-! ## Claimed batches -/

section Claimed

variable {nowMs : Millis} {result : List ClaimedQueueBatch × Store} {b : ClaimedQueueBatch}

theorem claimConsumer_batches {acc : List ClaimedQueueBatch × Store}
    {entry : ConsumerRow × QueueBatchId} (hok : claimConsumer nowMs acc entry = .ok result)
    (hb : b ∈ result.1) : b ∈ acc.1 ∨ exists rows, (rows.map MessageRow.id).Nodup ∧
      b = claimedBatch entry.1 entry.2 rows := by
  rcases claimConsumer_inv hok with rfl | ⟨rows, _, hdue, _, _, _, hresult⟩
  · exact .inl hb
  · rw [hresult, mem_append, mem_singleton] at hb
    exact hb.imp_right fun hb => ⟨rows, (dueMessages_rows hdue).left, hb⟩

theorem claimQueueBatches_batches {s : Store} {maxBatches : Nat} {after : Option QueueId}
    {ids : List QueueBatchId} (hok : claimQueueBatches s nowMs maxBatches after ids = .ok result)
    (hb : b ∈ result.1) : exists c id rows, id ∈ ids ∧ (rows.map MessageRow.id).Nodup ∧
      b = claimedBatch c id rows := by
  simp only [claimQueueBatches, ok_iff] at hok
  rcases hok with ⟨_, hfold⟩
  refine foldlM_invariant (fun acc => forall b, b ∈ acc.1 -> exists c id rows, id ∈ ids ∧
    (rows.map MessageRow.id).Nodup ∧ b = claimedBatch c id rows) ?_ (forall_mem_nil _)
    hfold b hb
  intro entry acc next hentry hacc hstep d hd
  rcases claimConsumer_batches hstep hd with hold | ⟨rows, hnew⟩
  · exact hacc d hold
  · exact ⟨entry.1, entry.2, rows, (of_mem_zip hentry).right, hnew⟩

end Claimed

/-! ## Rows of batches -/

section Rows

variable {nowMs : Millis} {s : Store}

theorem claimRows_batches {u t : Store} {r : DeliveryBatchRow} {rows : List MessageRow}
    {claim : Claim} (hstore : s.Ok env) (hbatch : s.insertBatch r = .ok u)
    (hfold : rows.foldlM (claimRow nowMs claim) u = .ok t) :
    s.batches.insert? r = some t.batches := by
  rcases Store.insertBatch_eq_ok hbatch with ⟨batches, hinsert, _, hu⟩
  have hloop := claimRows_writes (P := (· = .messages)) rfl (hstore.insertBatch hbatch) hfold
  rw [hinsert, hloop.frame.batches nofun, ← hu]

theorem claimQueueBatches_stored {maxBatches : Nat} {after : Option QueueId}
    {ids : List QueueBatchId} {result : List ClaimedQueueBatch × Store} (hstore : s.Ok env)
    (hok : claimQueueBatches s nowMs maxBatches after ids = .ok result) :
    forall b, b ∈ result.1 -> b.id ∈ result.2.batches.keys := by
  simp only [claimQueueBatches, ok_iff] at hok
  rcases hok with ⟨_, hfold⟩
  refine (foldlM_invariant (fun acc => acc.2.Ok env ∧ forall b, b ∈ acc.1 ->
    b.id ∈ acc.2.batches.keys) ?_ ⟨hstore, forall_mem_nil _⟩ hfold).right
  rintro entry acc next _ ⟨hacc, hstored⟩ hstep
  refine ⟨(claimConsumer_writes (P := fun _ => True) trivial trivial hacc hstep).ok hacc, ?_⟩
  rcases claimConsumer_inv hstep with rfl | ⟨rows, _, _, _, hbatch, hrows, hbatches⟩
  · exact hstored
  · intro b hb
    rw [hbatches, mem_append, mem_singleton] at hb
    rw [mem_keys_of_insert? (claimRows_batches hacc hbatch hrows)]
    rcases hb with hb | rfl
    · exact .inl (hstored b hb)
    · exact .inr rfl

theorem completeQueueBatch_batches {batch : ClaimedQueueBatch}
    {decisions : List QueueCompletionDecision} {result : QueueCompletionSummary × Store}
    (hstore : s.Ok env) (hok : completeQueueBatch s batch decisions nowMs = .ok result) :
    (s.ownsClaim batch.claim = false ∧ result.2 = s) ∨
      result.2.batches = s.batches.erase batch.id := by
  rcases (completeQueueBatch_inv hok).right with hstale | ⟨_, _, _, _, _, hfold, hdelete⟩
  · exact .inl hstale
  · rcases Store.deleteBatch_eq_ok.mp hdelete with ⟨_, hdeleted⟩
    have hloop := completeMessages_writes (P := (· = .messages)) rfl hstore hfold
    right
    rw [← hdeleted, ← hloop.frame.batches nofun]

end Rows

/-! ## Preservation -/

namespace InFlight

variable {env : Environment} {returned : List ClaimedQueueBatch} {s t : Store}

theorem empty (env : Environment) : InFlight env [] Store.empty := by
  constructor
  · intro b d hb
    cases hb
  · intro b hb
    cases hb
  · intro b target hb
    cases hb
  · intro r hr
    exact absurd hr (not_mem_empty r)
  · intro b hb
    cases hb
  · intro m hm
    exact absurd hm (not_mem_empty m)

variable {a : Action} {result : List ClaimedQueueBatch × Store} {cronMaxRetries : Nat}

theorem of_change (hs : InFlight env returned s)
    (hchange : forall k, Change s a (s.cell k) (t.cell k))
    (hbatches : forall r, r ∈ t.batches -> r ∈ s.batches)
    (htouches : forall b, b ∈ returned -> b.id ∈ t.batches.keys ->
      ¬ a.Touches b.claim) : InFlight env returned t := by
  refine ⟨hs.unique, hs.retries, hs.dlq, fun r hr => hs.row r (hbatches r hr), ?_, ?_⟩
  rotate_left
  · intro m hm hclaimed
    rcases (hchange m.id).claimed_attempts (find?_key hm) hclaimed with hstored | hattempts
    · exact hs.attempts m (mem_of_find? hstored) hclaimed
    · exact hattempts
  intro b hb hkey
  have hold : b.id ∈ s.batches.keys := by
    rcases mem_keys.mp hkey with ⟨r, hr, hid⟩
    exact mem_keys.mpr ⟨r, hbatches r hr, hid⟩
  rcases hs.delivers b hb hold with ⟨hnodup, hmessages⟩
  refine ⟨hnodup, ?_⟩
  intro k
  rw [hmessages k]
  exact ((hchange k).claimedBy (htouches b hb hkey)).symm

variable {nowMs : Millis}

theorem claimRows_claimedBy {claim : Claim} {rows : List MessageRow}
    (hnodup : (rows.map MessageRow.id).Nodup) (hstored : forall m, m ∈ rows -> m ∈ s.messages)
    (hok : rows.foldlM (claimRow nowMs claim) s = .ok t) (k : QueueMessageId) (c : Claim) :
    ClaimedBy (t.cell k) c ↔ ClaimedBy (s.cell k) c ∨ (c = claim ∧ k ∈ rows.map MessageRow.id) := by
  rcases claimRows_cell hnodup hstored hok with ⟨hothers, hclaimed⟩
  by_cases hk : k ∈ rows.map MessageRow.id
  · rcases mem_map.mp hk with ⟨m, hm, rfl⟩
    rcases hclaimed m hm with ⟨hbefore, hready, hafter⟩
    rw [hbefore, hafter, claimedBy_some]
    constructor
    · intro hclaim
      exact .inr ⟨(Option.some.inj hclaim).symm, hk⟩
    · intro hclaim
      rcases hclaim with hclaim | ⟨rfl, _⟩
      · exact absurd hclaim (not_claimedBy_of_ready hready)
      · rfl
  · rw [hothers k hk]
    constructor
    · exact .inl
    · intro hclaim
      exact hclaim.resolve_right (fun hnew => hk hnew.right)

theorem claimConsumer {acc : List ClaimedQueueBatch × Store} {entry : ConsumerRow × QueueBatchId}
    (hs : InFlight env (acc.1 ++ returned) acc.2) (hstore : acc.2.Ok env)
    (hconsumer : entry.1 ∈ acc.2.consumers)
    (hfresh : forall b, b ∈ acc.1 ++ returned -> b.id ≠ entry.2)
    (hok : claimConsumer nowMs acc entry = .ok result) :
    InFlight env (result.1 ++ returned) result.2 := by
  have hcells := claimConsumer_cell hok
  rcases claimConsumer_inv hok with rfl | ⟨rows, _, hdue, _, hbatch, hfold, hresult⟩
  · exact hs
  have hmem : forall b, b ∈ result.1 ++ returned ↔
      b ∈ acc.1 ++ returned ∨ b = claimedBatch entry.1 entry.2 rows := by
    intro b
    rw [hresult]
    simp only [mem_append, mem_singleton]
    exact or_right_comm
  rcases dueMessages_rows hdue with ⟨hnodup, hrows⟩
  have hclaimed := claimRows_claimedBy hnodup
    (fun m hm => insertBatch_messages hbatch ▸ (hrows m hm).left) hfold
  rw [insertBatch_cell hbatch] at hclaimed
  have hinsert := claimRows_batches hstore hbatch hfold
  have hnew : ¬ entry.2 ∈ acc.2.batches.keys := by
    intro hkey
    rcases mem_keys.mp hkey with ⟨r, hr, hid⟩
    exact (insert?_eq_some.mp hinsert).left r hr hid
  constructor
  case unique =>
    intro b d hb hd hid
    rcases (hmem b).mp hb with hb | rfl
    · rcases (hmem d).mp hd with hd | rfl
      · exact hs.unique b d hb hd hid
      · exact absurd hid (hfresh b hb)
    · rcases (hmem d).mp hd with hd | rfl
      · exact absurd hid.symm (hfresh d hd)
      · rfl
  case retries =>
    intro b hb
    rcases (hmem b).mp hb with hb | rfl
    · exact hs.retries b hb
    · exact entry.1.config.retries_le
  case dlq =>
    intro b target hb htarget
    rcases (hmem b).mp hb with hb | rfl
    · exact hs.dlq b target hb htarget
    · exact ⟨(entry.1.dlq_ne target htarget).symm,
        (hstore.consumer_dlq entry.1 target hconsumer htarget).right⟩
  case row =>
    intro r hr
    rcases (mem_of_insert? hinsert).mp hr with hr | rfl
    · rcases hs.row r hr with ⟨b, hb, hfields⟩
      exact ⟨b, (hmem b).mpr (.inl hb), hfields⟩
    · exact ⟨_, (hmem _).mpr (.inr rfl), rfl, rfl, rfl, rfl⟩
  case delivers =>
    intro b hb hkey
    rw [mem_keys_of_insert? hinsert] at hkey
    rcases (hmem b).mp hb with hb | rfl
    · have hne : b.id ≠ entry.2 := hfresh b hb
      rcases hs.delivers b hb (hkey.resolve_right hne) with ⟨hids, hmessages⟩
      refine ⟨hids, ?_⟩
      intro k
      rw [hmessages k, hclaimed k]
      constructor
      · exact .inl
      · intro hclaim
        refine hclaim.resolve_right ?_
        intro hsame
        exact hne (congrArg Claim.claimBatchId hsame.left)
    · have hids : (claimedBatch entry.1 entry.2 rows).messages.map
          ClaimedQueueMessage.id = rows.map MessageRow.id := by
        simp only [claimedBatch, map_map]
        rfl
      refine ⟨hids ▸ hnodup, ?_⟩
      intro k
      rw [hids, hclaimed k]
      constructor
      · intro hk
        exact .inr ⟨rfl, hk⟩
      · intro hclaim
        refine (hclaim.resolve_left ?_).right
        rintro ⟨m, hm, hheld⟩
        rcases holdsClaim_iff.mp (hstore.claim_held m _ (mem_of_find? hm) hheld) with
          ⟨r, hr, hid, _⟩
        exact hnew (mem_keys.mpr ⟨r, hr, hid⟩)
  case attempts =>
    intro m hm hclaim
    have hfind : (result.2.cell m.id).1 = some m := find?_key hm
    rcases hcells m.id with hsame | ⟨_, _, _, hattempts, _, hafter⟩
    · rw [hsame] at hfind
      exact hs.attempts m (mem_of_find? hfind) hclaim
    · rw [hafter] at hfind
      cases hfind
      exact hattempts

theorem claimQueueBatches {maxBatches : Nat} {after : Option QueueId} {ids : List QueueBatchId}
    (hs : InFlight env returned s) (hstore : s.Ok env) (hnodup : ids.Nodup)
    (hfresh : forall b, b ∈ returned -> ¬ b.id ∈ ids)
    (hok : claimQueueBatches s nowMs maxBatches after ids = .ok result) :
    InFlight env (result.1 ++ returned) result.2 := by
  simp only [Queue.claimQueueBatches, ok_iff] at hok
  rcases hok with ⟨_, hfold⟩
  have hloop := foldlM_rec (fun entries (acc : List ClaimedQueueBatch × Store) =>
      InFlight env (acc.1 ++ returned) acc.2 ∧ acc.2.Ok env ∧
      acc.2.consumers = s.consumers ∧ (entries.map Prod.snd).Nodup ∧
      forall entry, entry ∈ entries -> entry.1 ∈ s.consumers ∧
        forall b, b ∈ acc.1 ++ returned -> b.id ≠ entry.2) ?_ ?_ hfold
  · exact hloop.left
  · intro entry entries a b hmotive hb
    rcases hmotive with ⟨ha, haok, hconsumers, hkeys, hentries⟩
    rcases hentries entry mem_cons_self with ⟨hconsumer, hunused⟩
    rw [map_cons, nodup_cons] at hkeys
    have hwrites := claimConsumer_writes
      (P := fun part => part = .messages ∨ part = .batches) (.inl rfl) (.inr rfl) haok hb
    refine ⟨ha.claimConsumer haok (hconsumers ▸ hconsumer) hunused hb, hwrites.ok haok,
      (hwrites.frame.consumers (by simp) (by simp)).trans hconsumers, hkeys.right, ?_⟩
    intro later hlater
    rcases hentries later (mem_cons_of_mem entry hlater) with ⟨hmem, hother⟩
    refine ⟨hmem, ?_⟩
    intro d hd
    rcases mem_append.mp hd with hd | hd
    · rcases claimConsumer_batches hb hd with hd | ⟨_, _, rfl⟩
      · exact hother d (mem_append_left _ hd)
      · intro heq
        exact hkeys.left (mem_map.mpr ⟨later, hlater, heq.symm⟩)
    · exact hother d (mem_append_right _ hd)
  · refine ⟨hs, hstore, rfl, zip_snd_nodup _ hnodup, ?_⟩
    intro entry hentry
    have hzip := of_mem_zip hentry
    refine ⟨(mem_eligibleConsumers hzip.left).left, ?_⟩
    intro b hb heq
    exact hfresh b hb (heq ▸ hzip.right)

theorem completeQueueBatch {batch : ClaimedQueueBatch} {decisions : List QueueCompletionDecision}
    {result : QueueCompletionSummary × Store} (hs : InFlight env returned s)
    (hstore : s.Ok env) (hok : completeQueueBatch s batch decisions nowMs = .ok result) :
    InFlight env returned result.2 := by
  rcases completeQueueBatch_batches hstore hok with ⟨_, hsame⟩ | hbatches
  · rw [hsame]
    exact hs
  refine hs.of_change (completeQueueBatch_change hok) ?_ ?_
  · intro r hr
    rw [hbatches] at hr
    exact (mem_erase.mp hr).left
  · intro b _ hkey htouches
    rw [hbatches] at hkey
    exact (mem_keys_erase.mp hkey).right (congrArg Claim.claimBatchId htouches)

theorem resetClaims_batches (hstore : s.Ok env) (hok : resetClaims s nowMs cronMaxRetries = .ok t)
    (r : DeliveryBatchRow) : ¬ r ∈ t.batches := by
  rcases resetClaims_inv hok with ⟨_, v, _, hu, hv, hx, ht⟩
  have huok := (resetMessages_writes (P := fun _ => True) trivial hu).ok hstore
  have hvok := (deleteBatches_writes (P := fun _ => True) trivial huok hv).ok huok
  have hdeleted := foldlM_rec (fun ids (a : Store) => forall r, r ∈ a.batches -> r.id ∈ ids) ?_
    (fun _ hr => mem_map_of_mem hr) hv
  · have hrest : Writes env (fun part => part = .messages ∨ part = .discards) v t :=
      (resetPendings_writes (.inl rfl) hvok hx).trans (resetDiscards_writes (.inr rfl) ht)
    rw [hrest.frame.batches (by simp)]
    intro hr
    exact absurd (hdeleted r hr) not_mem_nil
  · intro id ids a b ha hb
    rcases Store.deleteBatch_eq_ok.mp hb with ⟨_, rfl⟩
    intro r hr
    rcases mem_erase.mp hr with ⟨hr, hne⟩
    exact (mem_cons.mp (ha r hr)).resolve_left hne

theorem resetClaims (hs : InFlight env returned s) (hstore : s.Ok env)
    (hok : resetClaims s nowMs cronMaxRetries = .ok t) : InFlight env returned t := by
  have hbatches := resetClaims_batches hstore hok
  refine hs.of_change (a := .restart nowMs cronMaxRetries) ?_ ?_ ?_
  · intro k
    rw [resetClaims_cell hok k]
    exact Change.recovered _
  · intro r hr
    exact absurd hr (hbatches r)
  · intro b _ hkey
    rcases mem_keys.mp hkey with ⟨r, hr, _⟩
    exact absurd hr (hbatches r)

end InFlight

/-! ## Worlds -/

structure World.Ok (env : Environment) (w : World) : Prop where
  store : w.store.Ok env
  inFlight : InFlight env w.returned w.store
  batchIds : forall b, b ∈ w.returned -> b.id ∈ w.batchIds

theorem World.initial_ok (env : Environment) : World.initial.Ok env :=
  ⟨Store.empty_ok env, InFlight.empty env, nofun⟩

variable {w v : World}

theorem next_inFlight {returned : List ClaimedQueueBatch} (hs : w.store.Ok env)
    (hflight : InFlight env returned w.store) (hids : forall b, b ∈ returned -> b.id ∈ w.batchIds)
    (hnext : w.next env a = some v) :
    exists batches ids, v.returned = batches ++ w.returned ∧ v.batchIds = ids ++ w.batchIds ∧
      InFlight env (batches ++ returned) v.store ∧
      forall b, b ∈ batches -> b.id ∈ ids ∧ ¬ b.id ∈ w.batchIds := by
  by_cases hparts : a.parts .batches
  · cases a <;> simp only [World.next, Option.ite_none_right_eq_some,
      World.after_eq_some, snd_eq_ok] at hnext
    case claim nowMs maxBatches after ids =>
      rcases hnext with ⟨hfresh, hnext⟩
      split at hnext <;> cases hnext
      rename_i batches _ hok
      refine ⟨batches, ids, rfl, rfl, hflight.claimQueueBatches hs hfresh.left.left ?_ hok, ?_⟩
      · intro b hb hid
        exact hfresh.left.right b.id hid (hids b hb)
      · intro b hb
        rcases claimQueueBatches_batches hok hb with ⟨_, _, _, hid, _, rfl⟩
        exact ⟨hid, hfresh.left.right _ hid⟩
    case complete =>
      rcases hnext with ⟨_, _, ⟨_, hok⟩, rfl⟩
      exact ⟨[], [], rfl, rfl, hflight.completeQueueBatch hs hok, forall_mem_nil _⟩
    case restart =>
      rcases hnext with ⟨_, hok, rfl⟩
      exact ⟨[], [], rfl, rfl, hflight.resetClaims hs hok, forall_mem_nil _⟩
    all_goals simp [Action.parts] at hparts
  · have htouches : forall c, ¬ a.Touches c := by
      intro c
      cases a <;> simp_all [Action.parts, Action.Touches]
    have hclaim : forall nowMs maxBatches after ids, a ≠ .claim nowMs maxBatches after ids := by
      intro nowMs maxBatches after ids heq
      exact hparts (heq ▸ .inr rfl)
    rcases (next_records hnext).left hclaim with ⟨hreturned, hbatchIds⟩
    have hbatches := (next_writes hs hnext).frame.batches hparts
    exact ⟨[], [], hreturned, hbatchIds, hflight.of_change (next_change hs hnext)
      (fun _ hr => hbatches ▸ hr) fun b _ _ => htouches b.claim, forall_mem_nil _⟩

theorem next_worldOk (hw : w.Ok env) (hnext : w.next env a = some v) : v.Ok env := by
  rcases next_inFlight hw.store hw.inFlight hw.batchIds hnext with
    ⟨_, _, hreturned, hids, hflight, hnew⟩
  refine ⟨next_ok hw.store hnext, hreturned ▸ hflight, fun b hb => ?_⟩
  rw [hreturned] at hb
  rw [hids]
  exact (mem_append.mp hb).elim (fun hb => mem_append_left _ (hnew b hb).left)
    fun hb => mem_append_right _ (hw.batchIds b hb)

theorem run_worldOk {allowed : World -> Action -> Prop} {actions : List Action}
    (hrun : Run (World.next env) allowed w actions v) (hw : w.Ok env) : v.Ok env := by
  refine hrun.invariant (P := World.Ok env) ?_ hw
  intro x a y hx _ hnext
  exact next_worldOk hx hnext

theorem World.Ok.batch_of_claim (hw : w.Ok env) (hm : m ∈ w.store.messages)
    (hclaim : m.claim = some c) :
    exists b, b ∈ w.returned ∧ b.claim = c ∧ b.queueId = m.queueId := by
  rcases holdsClaim_iff.mp (hw.store.claim_held m c hm hclaim) with
    ⟨r, hr, hid, hqueue, hconsumer, hgeneration⟩
  rcases hw.inFlight.row r hr with ⟨b, hb, hbid, hbqueue, hbconsumer, hbgeneration⟩
  refine ⟨b, hb, ?_, hbqueue.symm.trans hqueue⟩
  rw [ClaimedQueueBatch.claim, ← hbid, ← hbconsumer, ← hbgeneration, hid, hconsumer, hgeneration]

/-! ## Closed batches -/

/-- The identifier was drawn, and the open batches have others. -/
def World.Closed (env : Environment) (id : QueueBatchId) (w : World) : Prop :=
  w.store.Ok env ∧ id ∈ w.batchIds ∧ exists returned, InFlight env returned w.store ∧
    forall b, b ∈ returned -> b.id ∈ w.batchIds ∧ b.id ≠ id

variable {id : QueueBatchId}

theorem World.Ok.closed (hw : w.Ok env) (hid : id ∈ w.batchIds)
    (hclosed : ¬ id ∈ w.store.batches.keys) : w.Closed env id := by
  have hmem : forall b, b ∈ w.returned.filter (·.id ≠ id) -> b ∈ w.returned ∧ b.id ≠ id :=
    fun b hb => (mem_filter.mp hb).imp_right of_decide_eq_true
  refine ⟨hw.store, hid, _, ⟨?_, ?_, ?_, ?_, ?_, hw.inFlight.attempts⟩,
    fun b hb => (hmem b hb).imp_left (hw.batchIds b)⟩
  · exact fun b d hb hd => hw.inFlight.unique b d (hmem b hb).left (hmem d hd).left
  · exact fun b hb => hw.inFlight.retries b (hmem b hb).left
  · exact fun b target hb => hw.inFlight.dlq b target (hmem b hb).left
  · intro r hr
    rcases hw.inFlight.row r hr with ⟨b, hb, hrow⟩
    refine ⟨b, mem_filter.mpr ⟨hb, decide_eq_true fun heq => hclosed ?_⟩, hrow⟩
    exact mem_keys.mpr ⟨r, hr, hrow.left.trans heq⟩
  · exact fun b hb => hw.inFlight.delivers b (hmem b hb).left

theorem next_closed (hw : w.Closed env id) (hnext : w.next env a = some v) : v.Closed env id := by
  rcases hw with ⟨hs, hid, returned, hflight, hreturned⟩
  rcases next_inFlight hs hflight (fun b hb => (hreturned b hb).left) hnext with
    ⟨_, _, _, hids, hflight, hnew⟩
  rw [World.Closed, hids]
  refine ⟨next_ok hs hnext, mem_append_right _ hid, _, hflight, fun b hb => ?_⟩
  rcases mem_append.mp hb with hb | hb
  · exact ⟨mem_append_left _ (hnew b hb).left, fun heq => (hnew b hb).right (heq ▸ hid)⟩
  · exact (hreturned b hb).imp_left (mem_append_right _)

/-- A batch that was completed, or that a restart took back, is never completed again. -/
theorem closed_batch_final (hw : Reachable env w) {batch : ClaimedQueueBatch}
    (hreturned : batch ∈ w.returned) (hclosed : ¬ batch.id ∈ w.store.batches.keys)
    {actions : List Action} (hrun : Run (World.next env) always w actions v) :
    ¬ batch.id ∈ v.store.batches.keys ∧ forall decisions nowMs result,
      completeQueueBatch v.store batch decisions nowMs = .ok result -> result.2 = v.store := by
  rcases hw with ⟨_, hw⟩
  have hok := run_worldOk hw (World.initial_ok env)
  rcases hrun.invariant (P := World.Closed env batch.id)
    (fun _ _ _ hu _ hnext => next_closed hu hnext)
    (hok.closed (hok.batchIds batch hreturned) hclosed) with ⟨_, _, _, hflight, hothers⟩
  have hgone : ¬ batch.id ∈ v.store.batches.keys := by
    intro hkey
    rcases mem_keys.mp hkey with ⟨r, hr, hid⟩
    rcases hflight.row r hr with ⟨b, hb, hbid, _⟩
    exact (hothers b hb).right (hbid.symm.trans hid)
  refine ⟨hgone, fun decisions nowMs result hcomplete => ?_⟩
  rcases (completeQueueBatch_inv hcomplete).right with ⟨_, hsame⟩ | ⟨howns, _⟩
  · exact hsame
  · rcases ownsClaim_iff.mp howns with ⟨r, hr, hid, _⟩
    exact absurd (mem_keys.mpr ⟨r, hr, hid⟩) hgone

namespace Sample

def nextDelivery : List Action := [.enqueue (request 1 2 [3, 4]) [11] 0, .claim 0 1 none [2]]

end Sample

open Sample in
theorem closed_batch_final_deferred : exists w v, Reachable environment w ∧
    batch 0 (some (2, 1)) 10 [1, 2] ∈ w.returned ∧ ¬ 1 ∈ w.store.batches.keys ∧
    Run (World.next environment) always w nextDelivery v ∧ 2 ∈ v.store.batches.keys ∧
    ¬ 1 ∈ v.store.batches.keys ∧
    forall decisions nowMs result, completeQueueBatch v.store (batch 0 (some (2, 1)) 10 [1, 2])
      decisions nowMs = .ok result -> result.2 = v.store := by
  have hexec : exists w, Reachable environment w ∧ batch 0 (some (2, 1)) 10 [1, 2] ∈ w.returned ∧
      ¬ 1 ∈ w.store.batches.keys ∧ exists v, v ∈ execute (World.next environment) always w
        nextDelivery ∧ 2 ∈ v.store.batches.keys :=
    exists_reachable pendingActions (by decide +kernel)
  rcases hexec with ⟨w, hw, hin, hclosed, hexec⟩
  rcases exists_run_of_execute hexec with ⟨v, hrun, hopen⟩
  exact ⟨w, v, hw, hin, hclosed, hrun, hopen, closed_batch_final hw hin hclosed hrun⟩

end Queue
end OpenCompute
