import OpenCompute.Encoding.Readable
import OpenCompute.Queue.Receipts

/-!
# Re-sending a request

The bytes that are hashed determine a request up to its identifier.  A stored
receipt therefore answers the request it was made for and no other one, and the
generations of the Queue are part of that request.
-/

namespace OpenCompute
namespace Queue

open Encoding Relational Table Transaction Transition List

/-! ## Reading the fields -/

theorem hexDigit_injective {a b : Nat} (ha : a < 16) (hb : b < 16)
    (heq : hexDigit a = hexDigit b) : a = b := by
  have hsame := ofNat_injective_of_lt (by split <;> omega) (by split <;> omega) heq
  split at hsame <;> split at hsame <;> omega

theorem length_uuidText (id : Uuid) : (uuidText id).length = 36 := by
  simp [uuidText]

def textDigits (text : List UInt8) : List UInt8 :=
  text.take 8 ++ ((text.drop 9).take 4 ++ ((text.drop 14).take 4 ++
    ((text.drop 19).take 4 ++ text.drop 24)))

theorem textDigits_uuidText (id : Uuid) :
    textDigits (uuidText id) = (beDigits 16 32 id.toNat).map hexDigit := by
  have hlength : ((beDigits 16 32 id.toNat).map hexDigit).length = 32 := by simp
  unfold textDigits uuidText
  generalize (beDigits 16 32 id.toNat).map hexDigit = digits at hlength
  have hsplit : forall k, (digits.drop k).take 4 ++ digits.drop (k + 4) = digits.drop k := by
    intro k
    rw [← drop_drop, take_append_drop]
  have hparts : digits.take 8 ++ ((digits.drop 8).take 4 ++ ((digits.drop 12).take 4 ++
      ((digits.drop 16).take 4 ++ digits.drop 20))) = digits := by
    rw [hsplit 16, hsplit 12, hsplit 8, take_append_drop]
  simpa [drop_append, drop_take, hlength] using hparts

theorem uuidText_readable : Readable (fun _ => True) uuidText := by
  apply readable_of_length length_uuidText
  intro x y _ _ heq
  apply BitVec.eq_of_toNat_eq
  apply map_beDigits_injective (k := 32) (by decide) (fun _ _ ha hb => hexDigit_injective ha hb)
  · exact x.isLt
  · exact y.isLt
  · rw [← textDigits_uuidText, ← textDigits_uuidText, heq]

theorem beBytes_readable (k : Nat) : Readable (fun n => n < 256 ^ k) (beBytes k) :=
  readable_of_length (length_beBytes k) (fun _ _ hx hy => beBytes_injective hx hy)

theorem asStr_readable :
    Readable (fun _ => True) (fun c : QueueContentType => c.asStr ++ [255]) := by
  intro x y s t _ _ heq
  cases x <;> cases y <;> simp_all [QueueContentType.asStr]

theorem flagged_readable {flag : Bool -> List UInt8} {n m : Option Nat}
    {s t : List UInt8} (hflag : Readable (fun _ => True) flag)
    (hn : n.all (fun delay => delay < 256 ^ 4)) (hm : m.all (fun delay => delay < 256 ^ 4))
    (heq : flag n.isSome ++ n.elim [] (beBytes 4) ++ s =
      flag m.isSome ++ m.elim [] (beBytes 4) ++ t) : n = m ∧ s = t := by
  rw [append_assoc, append_assoc] at heq
  rcases hflag _ _ _ _ trivial trivial heq with ⟨hsome, hrest⟩
  cases n with
  | none =>
    cases m with
    | none => exact ⟨rfl, hrest⟩
    | some y => cases hsome
  | some x =>
    cases m with
    | none => cases hsome
    | some y =>
      rcases beBytes_readable 4 x y s t (of_decide_eq_true hn) (of_decide_eq_true hm)
        hrest with ⟨rfl, hs⟩
      exact ⟨rfl, hs⟩

def MessageFits (message : QueueMessageInput) : Prop :=
  message.body.length < 256 ^ 8 ∧ message.delaySeconds.all (fun delay => delay < 256 ^ 4) = true

theorem messagePreimage_readable : Readable MessageFits messagePreimage := by
  have hflag : Readable (fun _ => True) (fun b : Bool => if b then [(1 : UInt8)] else [0]) := by
    intro x y s t _ _ heq
    cases x <;> cases y <;> simp_all
  have hsplit : forall message, messagePreimage message =
      (message.contentType.asStr ++ [255]) ++ (beBytes 8 message.body.length ++
        (message.body ++ ((if message.delaySeconds.isSome then [(1 : UInt8)] else [0]) ++
          message.delaySeconds.elim [] (beBytes 4)))) := by
    intro message
    unfold messagePreimage
    cases message.delaySeconds <;> simp
  intro x y s t hx hy heq
  rw [hsplit, hsplit] at heq
  simp only [append_assoc] at heq
  rw [← append_assoc, ← append_assoc y.contentType.asStr] at heq
  rcases asStr_readable _ _ _ _ trivial trivial heq with ⟨htype, heq⟩
  rcases beBytes_readable 8 _ _ _ _ hx.left hy.left heq with ⟨hlength, heq⟩
  rcases append_inj heq hlength with ⟨hbody, heq⟩
  rw [← append_assoc, ← append_assoc] at heq
  rcases flagged_readable hflag hx.right hy.right heq with ⟨hdelay, hs⟩
  refine ⟨?_, hs⟩
  cases x
  cases y
  simp only [QueueMessageInput.mk.injEq]
  exact ⟨htype, hbody, hdelay⟩

/-- The fields of a request that are hashed. -/
def SameHashed (r q : QueueEnqueueRequest) : Prop :=
  r.queueId = q.queueId ∧ r.lifecycleGeneration = q.lifecycleGeneration ∧
    r.configGeneration = q.configGeneration ∧ r.outputGate = q.outputGate ∧
    r.batchDelaySeconds = q.batchDelaySeconds ∧ r.messages = q.messages

def RequestFits (request : QueueEnqueueRequest) : Prop :=
  request.messages.length < 256 ^ 8 ∧
    request.batchDelaySeconds.all (fun delay => delay < 256 ^ 4) = true ∧
    forall message, message ∈ request.messages -> MessageFits message

variable {r q : QueueEnqueueRequest}

theorem enqueuePreimage_eq_iff (hr : RequestFits r) (hq : RequestFits q) :
    enqueuePreimage r = enqueuePreimage q ↔ SameHashed r q := by
  have hgate : Readable (fun _ => True) (fun b : Bool => [if b then (1 : UInt8) else 0]) := by
    intro x y s t _ _ heq
    cases x <;> cases y <;> simp_all
  have hflag : Readable (fun _ => True)
      (fun b : Bool => if b then beBytes 4 1 else beBytes 4 0) := by
    intro x y s t _ _ heq
    cases x <;> cases y <;> simp_all [beBytes, beDigits]
  have hdelay : forall d, batchDelayPreimage d =
      (if d.isSome then beBytes 4 1 else beBytes 4 0) ++ d.elim [] (beBytes 4) := by
    intro d
    cases d <;> simp [batchDelayPreimage]
  constructor
  · intro heq
    simp only [enqueuePreimage, hdelay, append_assoc] at heq
    rcases uuidText_readable _ _ _ _ trivial trivial heq with ⟨hqueue, heq⟩
    rcases beBytes_readable 8 _ _ _ _ r.lifecycle_lt q.lifecycle_lt heq with ⟨hlifecycle, heq⟩
    rcases beBytes_readable 8 _ _ _ _ r.config_lt q.config_lt heq with ⟨hconfig, heq⟩
    rcases hgate _ _ _ _ trivial trivial heq with ⟨hgates, heq⟩
    rcases beBytes_readable 8 _ _ _ _ hr.left hq.left heq with ⟨hcount, heq⟩
    rw [← append_assoc, ← append_assoc] at heq
    rcases flagged_readable hflag hr.right.left hq.right.left heq with ⟨hbatch, heq⟩
    have hmessages := messagePreimage_readable.flatten (t := []) hcount
      hr.right.right hq.right.right (by rw [heq])
    exact ⟨hqueue, hlifecycle, hconfig, hgates, hbatch, hmessages.left⟩
  · intro hsame
    rcases hsame with ⟨hqueue, hlifecycle, hconfig, hgates, hbatch, hmessages⟩
    unfold enqueuePreimage
    rw [hqueue, hlifecycle, hconfig, hgates, hbatch, hmessages]

/-! ## Accepted requests fit -/

theorem validateDelay_eq_ok {delay : Option Nat} (hok : validateDelay delay = .ok ()) :
    delay.all (fun value => value < 256 ^ 4) = true := by
  rw [validateDelay, ensure_eq_ok] at hok
  cases delay with
  | none => rfl
  | some value =>
    have hbound : value ≤ 86400 := of_decide_eq_true hok
    exact decide_eq_true (by omega)

theorem validateMessages_fits {total : Nat} {messages : List QueueMessageInput}
    (hok : validateMessages total messages = .ok ()) :
    forall message, message ∈ messages -> MessageFits message := by
  induction messages generalizing total with
  | nil =>
    intro message hmem
    cases hmem
  | cons first rest ih =>
    simp only [validateMessages, ok_iff] at hok
    rcases hok with ⟨hdelay, hsize, _, hrest⟩
    intro message hmem
    cases hmem with
    | head =>
      unfold queueMaxMessageBytes at hsize
      exact ⟨by omega, validateDelay_eq_ok hdelay⟩
    | tail _ hmem => exact ih hrest message hmem

variable {request : QueueEnqueueRequest} {env : Environment}
  {x : QueueEnqueueRequest × QueueEnqueueResult} {o : EnqueueOperationRow}

theorem validateRequest_fits (hok : validateRequest request = .ok ()) : RequestFits request := by
  simp only [validateRequest, ok_iff] at hok
  rcases hok with ⟨_, hcount, hdelay, hmessages⟩
  unfold queueMaxBatchMessages at hcount
  exact ⟨by omega, validateDelay_eq_ok hdelay, validateMessages_fits hmessages⟩

/-! ## Re-sending -/

def SameContent (r q : QueueEnqueueRequest) : Prop :=
  r.messages = q.messages ∧ r.batchDelaySeconds = q.batchDelaySeconds

/-- The part of a request that is filled in from the Queue and the connection. -/
def SameOrigin (r q : QueueEnqueueRequest) : Prop :=
  r.queueId = q.queueId ∧ r.lifecycleGeneration = q.lifecycleGeneration ∧
    r.configGeneration = q.configGeneration ∧ r.outputGate = q.outputGate

theorem sameHashed_iff : SameHashed r q ↔ SameOrigin r q ∧ SameContent r q := by
  unfold SameHashed SameOrigin SameContent
  tauto

def ReceiptStored (s : Store) (x : QueueEnqueueRequest × QueueEnqueueResult) : Prop :=
  exists o, s.operations.find? x.1.requestId = some o ∧ o.response = x.2

theorem World.Traced.receiptOf {w : World} (hw : w.Traced env) (hx : x ∈ w.accepted)
    (ho : o ∈ w.store.operations) (hresponse : o.response = x.2) : ReceiptOf env x.1 x.2 o := by
  rcases hw.receipt o ho with ⟨y, hy, hreceipt⟩
  have hresult : y.2 = x.2 := hreceipt.right.right.right.right.symm.trans hresponse
  rcases exists_mem_of_ne_nil _ (hw.valid x hx).right with ⟨id, hid⟩
  rcases (hw.one y x id hy hx (hresult ▸ hid) hid).right with
    ⟨hrequest, hqueue, hgeneration, hfingerprint⟩
  exact ⟨hreceipt.left.trans hrequest, hreceipt.right.left.trans hqueue,
    hreceipt.right.right.left.trans hgeneration,
    hreceipt.right.right.right.left.trans hfingerprint, hresponse⟩

theorem acceptEnqueue_ne {s : Store} {fingerprint : Digest} {ids : List QueueMessageId}
    {nowMs : Millis} {result : QueueEnqueueResult}
    (hnone : s.operations.find? request.requestId = none) :
    acceptEnqueue s request fingerprint ids nowMs ≠ .ok (result, s) := by
  intro hok
  rcases acceptEnqueue_inv hok with ⟨_, _, _, _, _, _, hoperation⟩
  simp only [Store.insertOperation, ok_iff] at hoperation
  rcases hoperation with ⟨_, hinsert, hstore⟩
  have hkey : request.requestId ∈ s.operations.keys := by
    rw [← hstore]
    exact (mem_keys_of_insert? hinsert).mpr (Or.inr rfl)
  exact find?_eq_none_iff_keys.mp hnone hkey

/-- The two preimages do not make a collision. -/
def CollisionFree (env : Environment) (r q : QueueEnqueueRequest) : Prop :=
  enqueueFingerprint env.sha256 r = enqueueFingerprint env.sha256 q ->
    enqueuePreimage r = enqueuePreimage q

theorem sameHashed_of_replay {w : World} (hw : w.Traced env) (hx : x ∈ w.accepted)
    (hvalid : validateRequest r = .ok ()) (hfree : CollisionFree env r x.1)
    (ho : o ∈ w.store.operations) (hresponse : o.response = x.2)
    (hfingerprint : o.fingerprint = enqueueFingerprint env.sha256 r) : SameHashed r x.1 := by
  have hreceipt := hw.receiptOf hx ho hresponse
  have hpreimages := hfree (hfingerprint.symm.trans hreceipt.right.right.right.left)
  exact (enqueuePreimage_eq_iff (validateRequest_fits hvalid)
    (validateRequest_fits (hw.valid x hx).left)).mp hpreimages

theorem validateRequest_of_sameHashed (hsame : SameHashed r q)
    (hvalid : validateRequest q = .ok ()) :
    validateRequest r = .ok () := by
  rcases hsame with ⟨_, hlifecycle, hconfig, _, hbatch, hmessages⟩
  rw [← hvalid]
  unfold validateRequest
  rw [hlifecycle, hconfig, hbatch, hmessages]

/--
In every reachable world, a repeated request gets the recorded result and changes
nothing exactly when its receipt is stored and the Queue, its generations and the
gate are those of the first attempt.  While the receipt is stored, the identifier
cannot be used for another content.
-/
theorem enqueue_idempotency (env : Environment) {w : World} (hw : Reachable env w)
    {x : QueueEnqueueRequest × QueueEnqueueResult} (hx : x ∈ w.accepted)
    {r : QueueEnqueueRequest} (hid : r.requestId = x.1.requestId)
    (hfree : CollisionFree env r x.1) :
    (SameContent r x.1 -> ((forall ids nowMs,
          enqueueQueue env.sha256 w.store r ids nowMs = .ok (x.2, w.store)) ↔
        ReceiptStored w.store x ∧ SameOrigin r x.1)) ∧
    (¬ SameContent r x.1 -> ReceiptStored w.store x -> forall ids nowMs result,
      enqueueQueue env.sha256 w.store r ids nowMs ≠ .ok result) := by
  rcases hw with ⟨actions, hrun⟩
  have htraced := run_traced hrun
  constructor
  · intro hcontent
    constructor
    · intro hreplays
      rcases enqueueQueue_inv (hreplays [] 0) with ⟨hvalid, hcase⟩
      rcases hcase with ⟨o, ho, _, _, hfingerprint, hresponse, _⟩ | ⟨hnone, haccept⟩
      · have hfound := find?_eq_some.mp ho
        have hsame := sameHashed_of_replay htraced hx hvalid hfree hfound.left
          hresponse hfingerprint
        exact ⟨⟨o, hid ▸ ho, hresponse⟩, (sameHashed_iff.mp hsame).left⟩
      · exact absurd haccept (acceptEnqueue_ne hnone)
    · intro hcondition
      rcases hcondition with ⟨⟨o, ho, hresponse⟩, horigin⟩
      intro ids nowMs
      have hreceipt := htraced.receiptOf hx (mem_of_find? ho) hresponse
      have hsame := sameHashed_iff.mpr ⟨horigin, hcontent⟩
      have hvalid := validateRequest_of_sameHashed hsame (htraced.valid x hx).left
      have hpreimage := (enqueuePreimage_eq_iff (validateRequest_fits hvalid)
        (validateRequest_fits (htraced.valid x hx).left)).mpr hsame
      have hmatch : o.queueId = r.queueId ∧ o.queueGeneration = r.lifecycleGeneration ∧
          o.fingerprint = enqueueFingerprint env.sha256 r := by
        refine ⟨hreceipt.right.left.trans horigin.left.symm,
          hreceipt.right.right.left.trans horigin.right.left.symm, ?_⟩
        rw [hreceipt.right.right.right.left, enqueueFingerprint, enqueueFingerprint, hpreimage]
      have hreplay : w.store.replayEnqueue r (enqueueFingerprint env.sha256 r) =
          .ok (some o.response) := by
        unfold Store.replayEnqueue
        rw [hid, ho]
        exact if_pos hmatch
      simp only [enqueueQueue, ok_iff]
      refine ⟨hvalid, some o.response, hreplay, ?_⟩
      rw [hresponse]
      rfl
  · intro hcontent hstored ids nowMs result hok
    rcases hstored with ⟨o, ho, hresponse⟩
    rcases enqueueQueue_inv hok with ⟨hvalid, hcase⟩
    rw [hid, ho] at hcase
    rcases hcase with ⟨p, hp, _, _, hfingerprint, _⟩ | ⟨hnone, _⟩
    · cases hp
      have hsame := sameHashed_of_replay htraced hx hvalid hfree
        (mem_of_find? ho) hresponse hfingerprint
      exact hcontent (sameHashed_iff.mp hsame).right
    · cases hnone

/-! ## Two attempts -/

def Sample.hashing : Environment :=
  ⟨fun bytes => bytes.foldl (fun acc b => acc * 3 + BitVec.ofNat 256 b.toNat) 0, fun _ => 1⟩

def Sample.enqueued : List Action :=
  [Sample.createQueue 1 10 10, .enqueue (Sample.request 1 1 [1, 2]) [10] 0]

theorem enqueue_idempotency_resend : exists w x, Reachable Sample.hashing w ∧ x ∈ w.accepted ∧
      x.1 = Sample.request 1 1 [1, 2] ∧ x.2.messageIds = [10] ∧
      enqueueQueue Sample.hashing.sha256 w.store (Sample.request 1 1 [1, 2]) [11] 5 =
        .ok (x.2, w.store) := by
  have hexec : exists w, Reachable Sample.hashing w ∧ exists x, x ∈ w.accepted ∧
      x.1 = Sample.request 1 1 [1, 2] ∧ x.2.messageIds = [10] ∧
      exists o, o ∈ w.store.operations.find? x.1.requestId ∧ o.response = x.2 :=
    exists_reachable Sample.enqueued (by decide +kernel)
  rcases hexec with ⟨w, hreach, x, hx, hrequest, hids, hreceipt⟩
  have hfree : CollisionFree Sample.hashing (Sample.request 1 1 [1, 2]) x.1 := by
    intro _
    rw [hrequest]
  have hreplay := (enqueue_idempotency Sample.hashing hreach hx
    (by rw [hrequest]) hfree).left (by rw [hrequest]; exact ⟨rfl, rfl⟩)
  refine ⟨w, x, hreach, hx, hrequest, hids, ?_⟩
  refine hreplay.mpr ⟨hreceipt, ?_⟩ [11] 5
  rw [hrequest]
  exact ⟨rfl, rfl, rfl, rfl⟩

def Sample.rebuilt : QueueEnqueueRequest :=
  { Sample.request 1 1 [1, 2] with
    configGeneration := 2
    config_lt := by decide }

theorem config_change_breaks_retry : exists w x, Reachable Sample.hashing w ∧ x ∈ w.accepted ∧
      Sample.rebuilt.requestId = x.1.requestId ∧ SameContent Sample.rebuilt x.1 ∧
      ReceiptStored w.store x ∧ CollisionFree Sample.hashing Sample.rebuilt x.1 ∧
      enqueueQueue Sample.hashing.sha256 w.store Sample.rebuilt [11] 5 =
        .error ⟨.idempotencyConflict,
          "Queue enqueue operation identity was reused with a different request"⟩ := by
  have hexec : exists w, Reachable Sample.hashing w ∧ exists x, x ∈ w.accepted ∧
      Sample.rebuilt.requestId = x.1.requestId ∧
      (Sample.rebuilt.messages = x.1.messages ∧
        Sample.rebuilt.batchDelaySeconds = x.1.batchDelaySeconds) ∧
      (exists o, o ∈ w.store.operations.find? x.1.requestId ∧ o.response = x.2) ∧
      enqueueFingerprint Sample.hashing.sha256 Sample.rebuilt ≠
        enqueueFingerprint Sample.hashing.sha256 x.1 ∧
      enqueueQueue Sample.hashing.sha256 w.store Sample.rebuilt [11] 5 =
        .error ⟨.idempotencyConflict,
          "Queue enqueue operation identity was reused with a different request"⟩ :=
    exists_reachable (Sample.enqueued ++ [.beginConfig 1 1 1,
      .projectConfig ⟨1, 1, 2, ⟨0, 60, 10, 100, 1000, 10⟩⟩, .finishConfig 1 1 2])
      (by decide +kernel)
  rcases hexec with ⟨w, hreach, x, hx, hrequest, hcontent, hreceipt, hdistinct, hconflict⟩
  exact ⟨w, x, hreach, hx, hrequest, hcontent, hreceipt, fun hsame => absurd hsame hdistinct,
    hconflict⟩

end Queue
end OpenCompute
