import OpenCompute.Queue.Frames

/-!
# Receipts and what was accepted

Every stored receipt records a request that was accepted, and the message
identifiers of a result belong to one acceptance only.
-/

namespace OpenCompute
namespace Queue

open Relational Table Transaction Transition List

def ReceiptOf (env : Environment) (request : QueueEnqueueRequest)
    (result : QueueEnqueueResult) (o : EnqueueOperationRow) : Prop :=
  o.requestId = request.requestId ∧ o.queueId = request.queueId ∧
    o.queueGeneration = request.lifecycleGeneration ∧
    o.fingerprint = enqueueFingerprint env.sha256 request ∧ o.response = result

variable {env : Environment} {request : QueueEnqueueRequest} {result : QueueEnqueueResult}
  {w v : World} {ids : List QueueMessageId} {o : EnqueueOperationRow} {a : Action} {nowMs : Millis}

theorem ReceiptOf.of_same {r : EnqueueOperationRow} (hsame : SameReceipt o r)
    (hr : ReceiptOf env request result r) : ReceiptOf env request result o := by
  rcases hsame with ⟨hrequest, hqueue, hgeneration, hfingerprint, hresponse, _⟩
  rcases hr with ⟨hr1, hr2, hr3, hr4, hr5⟩
  exact ⟨hrequest.trans hr1, hqueue.trans hr2, hgeneration.trans hr3,
    hfingerprint.trans hr4, hresponse.trans hr5⟩

def SameRequest (env : Environment) (r q : QueueEnqueueRequest) : Prop :=
  r.requestId = q.requestId ∧ r.queueId = q.queueId ∧
    r.lifecycleGeneration = q.lifecycleGeneration ∧
    enqueueFingerprint env.sha256 r = enqueueFingerprint env.sha256 q

namespace SameRequest

variable {env : Environment} {r q p : QueueEnqueueRequest}

theorem refl (env : Environment) (r : QueueEnqueueRequest) : SameRequest env r r :=
  ⟨rfl, rfl, rfl, rfl⟩

theorem symm (hrq : SameRequest env r q) : SameRequest env q r :=
  ⟨hrq.left.symm, hrq.right.left.symm, hrq.right.right.left.symm, hrq.right.right.right.symm⟩

theorem trans (hrq : SameRequest env r q) (hqp : SameRequest env q p) : SameRequest env r p :=
  ⟨hrq.left.trans hqp.left, hrq.right.left.trans hqp.right.left,
    hrq.right.right.left.trans hqp.right.right.left,
    hrq.right.right.right.trans hqp.right.right.right⟩

end SameRequest

structure World.Traced (env : Environment) (w : World) : Prop where
  receipt : forall o, o ∈ w.store.operations -> exists x, x ∈ w.accepted ∧ ReceiptOf env x.1 x.2 o
  one : forall x y id, x ∈ w.accepted -> y ∈ w.accepted ->
    id ∈ x.2.messageIds -> id ∈ y.2.messageIds ->
    x.2 = y.2 ∧ SameRequest env x.1 y.1
  issued : forall x id, x ∈ w.accepted -> id ∈ x.2.messageIds -> id ∈ w.messageIds
  valid : forall x, x ∈ w.accepted -> validateRequest x.1 = .ok () ∧ x.2.messageIds ≠ []

theorem World.initial_traced (env : Environment) : World.initial.Traced env := by
  constructor
  · intro o ho
    exact absurd ho (not_mem_empty o)
  · intro x y id hx
    cases hx
  · intro x id hx
    cases hx
  · intro x hx
    cases hx

/-! ## Enqueue -/

theorem World.Traced.record (hw : w.Traced env)
    (haccepted : v.accepted = (request, result) :: w.accepted)
    (hmessageIds : v.messageIds = ids ++ w.messageIds) (hvalid : validateRequest request = .ok ())
    (hne : result.messageIds ≠ [])
    (hreceipts : forall o, o ∈ v.store.operations -> o ∈ w.store.operations ∨
      ReceiptOf env request result o)
    (hissued : forall id, id ∈ result.messageIds -> id ∈ ids ∨ id ∈ w.messageIds)
    (hone : forall x id, x ∈ w.accepted -> id ∈ x.2.messageIds -> id ∈ result.messageIds ->
      x.2 = result ∧ SameRequest env x.1 request) : v.Traced env := by
  constructor
  case receipt =>
    intro o ho
    rw [haccepted]
    rcases hreceipts o ho with ho | ho
    · rcases hw.receipt o ho with ⟨x, hx, hreceipt⟩
      exact ⟨x, mem_cons_of_mem _ hx, hreceipt⟩
    · exact ⟨(request, result), mem_cons_self, ho⟩
  case one =>
    intro x y id hx hy hxid hyid
    rw [haccepted, mem_cons] at hx hy
    rcases hx with rfl | hx
    · rcases hy with rfl | hy
      · exact ⟨rfl, SameRequest.refl env _⟩
      · rcases hone y id hy hyid hxid with ⟨heq, hsame⟩
        exact ⟨heq.symm, hsame.symm⟩
    · rcases hy with rfl | hy
      · exact hone x id hx hxid hyid
      · exact hw.one x y id hx hy hxid hyid
  case issued =>
    intro x id hx hid
    rw [haccepted, mem_cons] at hx
    rw [hmessageIds, mem_append]
    rcases hx with rfl | hx
    · exact hissued id hid
    · exact .inr (hw.issued x id hx hid)
  case valid =>
    intro x hx
    rw [haccepted, mem_cons] at hx
    rcases hx with rfl | hx
    · exact ⟨hvalid, hne⟩
    · exact hw.valid x hx

theorem enqueue_traced (hs : w.store.Ok env) (hw : w.Traced env)
    (hnext : w.next env (.enqueue request ids nowMs) = some v) : v.Traced env := by
  simp only [World.next, Option.ite_none_right_eq_some] at hnext
  rcases hnext with ⟨⟨hfresh, hlength⟩, hnext⟩
  split at hnext <;> cases hnext
  rename_i result t hok
  rcases enqueueQueue_inv hok with ⟨hvalid, hcase⟩
  rcases hcase with ⟨o, ho, hqueue, hgeneration, hfingerprint, hresponse, rfl⟩ | ⟨_, haccept⟩
  · have hfound := find?_eq_some.mp ho
    rcases hw.receipt o hfound.left with ⟨z, hz, hreceipt⟩
    have hresult : z.2 = result := hreceipt.right.right.right.right.symm.trans hresponse
    have hsame : SameRequest env z.1 request :=
      ⟨hreceipt.left.symm.trans hfound.right, hreceipt.right.left.symm.trans hqueue,
        hreceipt.right.right.left.symm.trans hgeneration,
        hreceipt.right.right.right.left.symm.trans hfingerprint⟩
    refine hw.record rfl rfl hvalid (hresult ▸ (hw.valid z hz).right) (fun _ => .inl)
      (fun id hid => .inr (hw.issued z id hz (hresult ▸ hid))) ?_
    intro x id hx hxid hid
    rcases hw.one x z id hx hz hxid (hresult ▸ hid) with ⟨heq, hrequest⟩
    exact ⟨heq.trans hresult, hrequest.trans hsame⟩
  · rcases acceptEnqueue_inv haccept with ⟨_, _, _, _, hfold, rfl, hoperation⟩
    have hne : result.messageIds ≠ [] := by
      intro hnil
      rw [hnil] at hlength
      simp only [validateRequest, ok_iff] at hvalid
      exact hvalid.left.right.right (length_eq_zero_iff.mp hlength.symm)
    refine hw.record rfl rfl hvalid hne ?_ (fun _ => .inl) ?_
    · have hinserts := enqueueMessages_writes (P := (· = .messages)) rfl hs hfold
      simp only [Store.insertOperation, ok_iff] at hoperation
      rcases hoperation with ⟨_, hinsert, rfl⟩
      intro o ho
      rcases (mem_of_insert? hinsert).mp ho with ho | rfl
      · rw [hinserts.frame.operations (by simp) (by simp)] at ho
        exact .inl ho
      · exact .inr ⟨rfl, rfl, rfl, rfl, rfl⟩
    · intro x id hx hxid hid
      exact absurd (hw.issued x id hx hxid) (hfresh.right id hid)

theorem next_traced (hs : w.store.Ok env) (hw : w.Traced env) (hnext : w.next env a = some v) :
    v.Traced env := by
  by_cases henqueue : forall request ids nowMs, a ≠ .enqueue request ids nowMs
  · rcases (next_records hnext).right henqueue with ⟨haccepted, hissued⟩
    have hreceipts := (next_writes hs hnext).frame.receipts (by
      cases a <;> simp_all [Action.parts])
    constructor
    case receipt =>
      intro o ho
      rcases hreceipts o ho with ⟨r, hr, hsame⟩
      rcases hw.receipt r hr with ⟨x, hx, hreceipt⟩
      exact ⟨x, haccepted ▸ hx, hreceipt.of_same hsame⟩
    case one =>
      rw [haccepted]
      exact hw.one
    case issued =>
      rw [haccepted, hissued]
      exact hw.issued
    case valid =>
      rw [haccepted]
      exact hw.valid
  · push Not at henqueue
    rcases henqueue with ⟨_, _, _, rfl⟩
    exact enqueue_traced hs hw hnext

theorem run_traced {allowed : World -> Action -> Prop} {actions : List Action}
    (hrun : Run (World.next env) allowed World.initial actions v) : v.Traced env := by
  refine (hrun.invariant (P := fun w => w.store.Ok env ∧ w.Traced env) ?_
    ⟨Store.empty_ok env, World.initial_traced env⟩).right
  intro x a y hx _ hnext
  exact ⟨next_ok hx.left hnext, next_traced hx.left hx.right hnext⟩

end Queue
end OpenCompute
