import OpenCompute.Workflow.Inbox

/-!
# Events are delivered once

A wait takes an event out of the inbox and keeps its sequence number.  The inbox
never holds that number again, so no other step takes it.
-/

namespace OpenCompute
namespace Workflow

open Relational Table Transition

/-- No two steps took the same event. -/
def Instance.TakenOnce (i : Instance) : Prop :=
  forall s t seq, s ∈ i.steps -> t ∈ i.steps -> s.state.consumed = some seq ->
    t.state.consumed = some seq -> s = t

variable {clock nowMs : Millis} {i j : Instance}

theorem Instance.TakenOnce.of_steps (honce : i.TakenOnce) (hi : i.Inbox clock) (ordinal : Nat)
    (hsteps : forall s, s ∈ j.steps -> s ∈ i.steps ∨ s.state.consumed = none ∨
      (s.ordinal = ordinal ∧ exists e, e ∈ i.events ∧ s.state.consumed = some e.seq)) :
    j.TakenOnce := by
  intro s t seq hs ht hsome hsome'
  have hold : forall u e, u ∈ i.steps -> u.state.consumed = some seq -> e ∈ i.events ->
      some e.seq ≠ some seq :=
    fun u e hu htaken he heq => (hi.taken u hu seq htaken).right e he (Option.some.inj heq)
  rcases hsteps s hs with hmem | hnone | ⟨hkey, e, he, htaken⟩
  · rcases hsteps t ht with hmem' | hnone | ⟨_, e, he, htaken⟩
    · exact honce s t seq hmem hmem' hsome hsome'
    · exact absurd (hnone.symm.trans hsome') nofun
    · exact absurd (htaken.symm.trans hsome') (hold s e hmem hsome he)
  · exact absurd (hnone.symm.trans hsome) nofun
  · rcases hsteps t ht with hmem' | hnone | ⟨hkey', _⟩
    · exact absurd (htaken.symm.trans hsome) (hold t e hmem' hsome' he)
    · exact absurd (hnone.symm.trans hsome') nofun
    · exact eq_of_key_eq hs ht (hkey.trans hkey'.symm)

theorem Write.takenOnce {p : Permits} (hwrite : Write p nowMs i j) (hi : i.Inbox clock)
    (honce : i.TakenOnce) : j.TakenOnce := by
  cases hwrite with
  | step hupdate hconsumed =>
    exact honce.of_steps hi 0 (forall_replace (fun _ => .inl) (.inr (.inl hconsumed)))
  | @consume old new seq hupdate hconsumed =>
    rcases hupdate.consumes hconsumed with ⟨e, he, rfl⟩
    exact honce.of_steps hi new.ordinal
      (forall_replace (fun _ => .inl) (.inr (.inr ⟨rfl, e, he, hconsumed⟩)))
  | register hregistration hinsert =>
    exact honce.of_steps hi 0
      (forall_insert? hinsert (fun _ => .inl) (.inr (.inl hregistration.consumed)))
  | insertEvent _ _ _ _ => exact honce
  | row hsame _ _ _ _ _ | state _ hsame _ _ _ =>
    rw [Instance.TakenOnce, hsame.steps]
    exact honce

variable {env : Environment} {owner : Uuid} {actions : List Action} {w : World}

theorem history_takenOnce (hrun : OrderedHistory env owner clock actions w) :
    forall i, i ∈ w.store.instances -> i.TakenOnce := by
  refine hrun.history (P := fun _ w => forall i, i ∈ w.store.instances -> i.TakenOnce) ?_ ?_
  · intro bs u a v hu honce hordered hnext
    rcases next_eq_some.mp hnext with ⟨_, _, happly, rfl⟩
    have hinbox : forall i, i ∈ u.store.instances ->
        i.Inbox (a.nowMs.getD u.clock) ∧ i.TakenOnce :=
      fun i hi => ⟨(history_inbox hu i hi).later hordered, honce i hi⟩
    intro i hi
    refine ((apply_effect happly).forall_instances hinbox ?_ ?_ ?_ i hi).right
    · intro c q _
      refine ⟨prepared_inbox q _, ?_⟩
      intro s t seq hs
      cases hs
    · intro others i j hcall hi
      rcases hcall.writesAt_ge with ⟨nowMs, hnow, hle⟩
      rw [hnow] at hi ⊢
      refine ⟨hcall.inbox hnow hi.left, ?_⟩
      exact (hcall.writes.invariant (P := fun k => k.Inbox (a.writesAt i) ∧ k.TakenOnce)
        (fun _ _ hwrite hk => ⟨hwrite.inbox hk.left (le_refl _), hwrite.takenOnce hk.left hk.right⟩)
        ⟨hi.left.later hle, hi.right⟩).right
    · intro operation nowMs limits projection i j haction hrun hi
      rw [haction] at hi ⊢
      refine ⟨restartRun_inbox hrun hi.left, hi.right.of_steps hi.left 0 fun s hs => ?_⟩
      rcases restartRun_steps hrun hs with ⟨old, hold, _, ⟨rfl, _⟩ | ⟨_, _, hstate⟩⟩
      · exact .inl hold
      · refine .inr (.inl ?_)
        rw [hstate]
        cases old.descriptor.config <;> rfl
  · intro i hi
    exact absurd hi (not_mem_empty i)

/-- An event is in the inbox or was taken by one step, and it never comes back. -/
theorem events_taken_once (hrun : OrderedHistory env owner clock actions w) :
    forall i, i ∈ w.store.instances -> i.TakenOnce ∧
      forall s, s ∈ i.steps -> forall seq, s.state.consumed = some seq ->
        seq < i.nextEventSeq ∧ forall e, e ∈ i.events -> e.seq ≠ seq := by
  intro i hi
  exact ⟨history_takenOnce hrun i hi, (history_inbox hrun i hi).taken⟩

namespace Sample

def paid : List Action :=
  [create, claim 0 11, start [single 0 "payment" (.waitEvent "paid" 5000)] 1 11 [12],
    .sendEvent (identity 1) 21 "paid" value 2 limits,
    .sendEvent (identity 1) 22 "paid" value 3 limits]

end Sample

open Sample in
theorem events_taken_once_paid : exists w, OrderedHistory environment 7 0 paid w ∧
    exists i, i ∈ w.store.instances ∧ i.events.rows.map Event.seq = [2] ∧ i.TakenOnce := by
  refine exists_run_imp (P := fun w => exists i, i ∈ w.store.instances ∧
    i.events.rows.map Event.seq = [2]) ?_ (by decide +kernel)
  rintro w hrun ⟨i, hi, hevents⟩
  exact ⟨i, hi, hevents, (events_taken_once hrun i hi).left⟩

end Workflow
end OpenCompute
