import OpenCompute.Queue.Sequence

/-!
# What an operation leaves alone

A write to one part of the store leaves the others alone, and only an enqueue
adds a receipt.
-/

namespace OpenCompute
namespace Queue

open Relational Table Transaction

/-- What writes to the given parts leave alone. -/
structure Frame (P : Part -> Prop) (s t : Store) : Prop where
  messages : ¬ P .messages -> ¬ P .discards -> t.messages = s.messages ∧ t.pending = s.pending
  batches : ¬ P .batches -> t.batches = s.batches
  keys : ¬ P .consumers -> t.consumers.keys = s.consumers.keys
  consumers : ¬ P .consumers -> ¬ P .consumerState -> t.consumers = s.consumers
  operations : ¬ P .operations -> ¬ P .receipts -> t.operations = s.operations
  receipts : ¬ P .receipts -> forall o, o ∈ t.operations ->
    exists r, r ∈ s.operations ∧ SameReceipt o r

namespace Frame

variable {P : Part -> Prop} {s t u : Store}

theorem of_same (hmessages : t.messages = s.messages ∧ t.pending = s.pending)
    (hbatches : t.batches = s.batches) (hconsumers : t.consumers = s.consumers)
    (hoperations : t.operations = s.operations) : Frame P s t where
  messages _ _ := hmessages
  batches _ := hbatches
  keys _ := hconsumers ▸ rfl
  consumers _ _ := hconsumers
  operations _ _ := hoperations
  receipts _ o ho := ⟨o, hoperations ▸ ho, SameReceipt.refl o⟩

theorem refl (s : Store) : Frame P s s := of_same ⟨rfl, rfl⟩ rfl rfl rfl

theorem of_moves (hpart : P .messages ∨ P .discards) (hbatches : t.batches = s.batches)
    (hconsumers : t.consumers = s.consumers) (hoperations : t.operations = s.operations) :
    Frame P s t where
  messages hkept hspared := absurd hpart (not_or.mpr ⟨hkept, hspared⟩)
  batches _ := hbatches
  keys _ := hconsumers ▸ rfl
  consumers _ _ := hconsumers
  operations _ _ := hoperations
  receipts _ o ho := ⟨o, hoperations ▸ ho, SameReceipt.refl o⟩

theorem trans (hst : Frame P s t) (htu : Frame P t u) : Frame P s u where
  messages hm hd := ⟨(htu.messages hm hd).left.trans (hst.messages hm hd).left,
    (htu.messages hm hd).right.trans (hst.messages hm hd).right⟩
  batches hb := (htu.batches hb).trans (hst.batches hb)
  keys hc := (htu.keys hc).trans (hst.keys hc)
  consumers hc hs := (htu.consumers hc hs).trans (hst.consumers hc hs)
  operations ho hr := (htu.operations ho hr).trans (hst.operations ho hr)
  receipts hr o ho := by
    rcases htu.receipts hr o ho with ⟨p, hp, hop⟩
    rcases hst.receipts hr p hp with ⟨q, hq, hpq⟩
    exact ⟨q, hq, hop.trans hpq⟩

end Frame

variable {env : Environment} {P : Part -> Prop} {part : Part} {s t : Store} {w v : World}
  {a : Action}

theorem Write.frame (hwrite : Write env s part t) (hpart : P part) : Frame P s t := by
  cases hwrite with
  | insertMessage hok =>
    rcases Store.insertMessage_eq_ok.mp hok with ⟨_, _, _, _, _, _, rfl⟩
    exact Frame.of_moves (.inl hpart) rfl rfl rfl
  | deleteMessage _ _ hok =>
    rcases Store.deleteMessage_eq_ok.mp hok with ⟨_, _, _, _, rfl⟩
    exact Frame.of_moves (.inl hpart) rfl rfl rfl
  | discardMessage _ hok =>
    rcases Store.deleteMessage_eq_ok.mp hok with ⟨_, _, _, _, rfl⟩
    exact Frame.of_moves (.inr hpart) rfl rfl rfl
  | claimMessage _ _ hok =>
    rcases Store.claimMessage_eq_ok.mp hok with ⟨_, _, rfl⟩
    exact Frame.of_moves (.inl hpart) rfl rfl rfl
  | releaseMessage _ hok =>
    rcases Store.releaseMessage_eq_ok.mp hok with ⟨_, _, _, _, rfl⟩
    exact Frame.of_moves (.inl hpart) rfl rfl rfl
  | insertPending hok =>
    rcases Store.insertPending_eq_ok.mp hok with ⟨_, _, _, _, rfl⟩
    exact Frame.of_moves (.inl hpart) rfl rfl rfl
  | deletePending id | postponePending nextAttemptAtMs _ =>
    exact Frame.of_moves (.inl hpart) rfl rfl rfl
  | insertBatch hok =>
    rcases Store.insertBatch_eq_ok hok with ⟨_, _, _, rfl⟩
    exact { Frame.refl s with batches := fun hb => absurd hpart hb }
  | deleteBatch hok =>
    rcases Store.deleteBatch_eq_ok.mp hok with ⟨_, rfl⟩
    exact { Frame.refl s with batches := fun hb => absurd hpart hb }
  | insertQueue _ _ _ _ | editQueue _ _ _ _ _ => exact Frame.of_same ⟨rfl, rfl⟩ rfl rfl rfl
  | deleteQueue hok =>
    simp only [Store.deleteQueue, ok_iff] at hok
    rcases hok with ⟨_, _, rfl⟩
    exact Frame.of_same ⟨rfl, rfl⟩ rfl rfl rfl
  | insertConsumer _ hok =>
    simp only [Store.insertConsumer, ok_iff, ite_eq_iff] at hok
    rcases hok with ⟨_, rfl⟩ | ⟨_, _, _, _, rfl⟩
    · exact Frame.refl s
    · exact { Frame.refl s with
        keys := fun hc => absurd hpart hc
        consumers := fun hc _ => absurd hpart hc }
  | filterConsumers p =>
    exact { Frame.refl s with
      keys := fun hc => absurd hpart hc
      consumers := fun hc _ => absurd hpart hc }
  | editConsumer _ _ _ =>
    exact { Frame.refl s with
      keys := fun _ => keys_replace _ _
      consumers := fun _ hc => absurd hpart hc }
  | setOperations hrows =>
    exact { Frame.refl s with
      operations := fun ho _ => absurd hpart ho
      receipts := fun _ => hrows }
  | insertOperation _ _ =>
    exact { Frame.refl s with
      operations := fun _ hr => absurd hpart hr
      receipts := fun hr => absurd hpart hr }

theorem Writes.frame (hwrites : Writes env P s t) : Frame P s t := by
  induction hwrites with
  | refl => exact Frame.refl s
  | tail _ hwrite ih =>
    rcases hwrite with ⟨_, hpart, hwrite⟩
    exact ih.trans (hwrite.frame hpart)

/-! ## Steps -/

def Action.EditsConsumers : Action -> Prop
  | .promote _ _ _ _ | .upsertConsumer _ _ _ _ _ | .deleteConsumer _ => True
  | _ => False

instance (a : Action) : Decidable a.EditsConsumers := by
  unfold Action.EditsConsumers
  split <;> infer_instance

theorem next_records (hnext : w.next env a = some v) :
    ((forall nowMs maxBatches after ids, a ≠ .claim nowMs maxBatches after ids) ->
      v.returned = w.returned ∧ v.batchIds = w.batchIds) ∧
    ((forall request ids nowMs, a ≠ .enqueue request ids nowMs) ->
      v.accepted = w.accepted ∧ v.messageIds = w.messageIds) := by
  have hafter : forall result, w.after result = some v ->
      (v.returned = w.returned ∧ v.batchIds = w.batchIds) ∧
      v.accepted = w.accepted ∧ v.messageIds = w.messageIds := by
    intro result hresult
    rcases World.after_eq_some.mp hresult with ⟨_, _, rfl⟩
    exact ⟨⟨rfl, rfl⟩, rfl, rfl⟩
  cases a <;> simp only [World.next, World.projects, Option.ite_none_right_eq_some,
    Option.some.injEq] at hnext
  case enqueue =>
    rcases hnext with ⟨_, hnext⟩
    split at hnext <;> cases hnext
    exact ⟨fun _ => ⟨rfl, rfl⟩, fun h => absurd rfl (h _ _ _)⟩
  case claim =>
    rcases hnext with ⟨_, hnext⟩
    split at hnext <;> cases hnext
    exact ⟨fun h => absurd rfl (h _ _ _ _), fun _ => ⟨rfl, rfl⟩⟩
  case deleteProjection | deleteConsumer | setConsumerState =>
    rw [← hnext]
    exact ⟨fun _ => ⟨rfl, rfl⟩, fun _ => ⟨rfl, rfl⟩⟩
  case create | ensureProjection | complete | promote | upsertConsumer =>
    exact (hafter _ hnext.right).imp (fun h _ => h) fun h _ => h
  all_goals exact (hafter _ hnext).imp (fun h _ => h) fun h _ => h

end Queue
end OpenCompute
