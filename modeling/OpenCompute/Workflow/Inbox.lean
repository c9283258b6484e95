import OpenCompute.Workflow.Wakeups

/-!
# The inbox

Events are buffered in the order of their sequence numbers, and one that a wait
consumed is gone.  What came after a wait was registered has times that do not
decrease, as long as the clock does not run back, so the oldest event of a type
decides for all of them.
-/

namespace OpenCompute
namespace Workflow

open Relational Table Transaction Transition List Bool

/-- The inbox of an instance, when no write came after `clock`. -/
structure Instance.Inbox (clock : Millis) (i : Instance) : Prop where
  sorted : i.events.rows.Pairwise fun e e' => e.seq < e'.seq
  below : forall e, e ∈ i.events -> e.seq < i.nextEventSeq
  valid : forall e, e ∈ i.events -> ValidName e.eventType ∧ SafeTime e.acceptedAtMs
  taken : forall s, s ∈ i.steps -> forall seq, s.state.consumed = some seq ->
    seq < i.nextEventSeq ∧ forall e, e ∈ i.events -> e.seq ≠ seq
  ceilings : forall s, s ∈ i.steps -> forall seq, s.ceiling = some seq -> seq < i.nextEventSeq
  updated : i.steps.rows ≠ [] ∨ i.state = .running -> i.updatedAtMs ≤ clock
  accepted : forall s, s ∈ i.steps -> forall seq, s.ceiling = some seq ->
    forall e, e ∈ i.events -> seq < e.seq -> e.acceptedAtMs ≤ clock
  monotone : forall s, s ∈ i.steps -> forall seq, s.ceiling = some seq ->
    forall e e', e ∈ i.events -> e' ∈ i.events -> seq < e.seq -> e.seq < e'.seq ->
      e.acceptedAtMs ≤ e'.acceptedAtMs

section Writes

variable {p : Permits} {clock nowMs : Millis} {i j : Instance}

theorem Instance.Inbox.later (hi : i.Inbox clock) (hle : clock ≤ nowMs) : i.Inbox nowMs where
  sorted := hi.sorted
  below := hi.below
  valid := hi.valid
  taken := hi.taken
  ceilings := hi.ceilings
  updated h := le_trans (hi.updated h) hle
  accepted s hs seq hseq e he hlt := le_trans (hi.accepted s hs seq hseq e he hlt) hle
  monotone := hi.monotone

def KeepsInbox (i j : Instance) (s : Step) : Prop :=
  (exists old, old ∈ i.steps ∧ s.ceiling = old.ceiling ∧
    (s.state.consumed = old.state.consumed ∨ s.state.consumed = none ∨
      exists e, e ∈ i.events ∧ s.state.consumed = some e.seq ∧ ¬ e ∈ j.events)) ∨
  (s.state.consumed = none ∧ s.ceiling.all (fun seq => seq = i.nextEventSeq - 1) = true)

theorem Instance.Inbox.of_sublist (hi : i.Inbox clock) (hle : clock ≤ nowMs)
    (hevents : j.events.rows.Sublist i.events.rows)
    (hseq : j.steps.rows ≠ [] ∨ j.events.rows ≠ [] -> j.nextEventSeq = i.nextEventSeq)
    (hsteps : forall s, s ∈ j.steps -> KeepsInbox i j s)
    (hupdated : j.steps.rows ≠ [] ∨ j.state = .running -> j.updatedAtMs ≤ nowMs) :
    j.Inbox nowMs := by
  have hold : forall e, e ∈ j.events -> e ∈ i.events := fun e he => hevents.subset he
  have hceiling : forall s, s ∈ j.steps -> forall seq, s.ceiling = some seq ->
      (exists old, old ∈ i.steps ∧ old.ceiling = some seq) ∨ seq = i.nextEventSeq - 1 := by
    intro s hs seq hsome
    cases hsteps s hs with
    | inl hkept =>
      rcases hkept with ⟨old, hmem, hsame, _⟩
      exact .inl ⟨old, hmem, hsame.symm.trans hsome⟩
    | inr hnew =>
      have hall := hnew.right
      rw [hsome, Option.all_some, decide_eq_true_eq] at hall
      exact .inr hall
  have hbelow : forall e, e ∈ j.events -> ¬ i.nextEventSeq - 1 < e.seq := by
    intro e he hlt
    have := hi.below e (hold e he)
    omega
  constructor
  · exact hi.sorted.sublist hevents
  · intro e he
    rw [hseq (.inr (ne_nil_of_mem he))]
    exact hi.below e (hold e he)
  · intro e he
    exact hi.valid e (hold e he)
  · intro s hs seq hconsumed
    rw [hseq (.inl (ne_nil_of_mem hs))]
    cases hsteps s hs with
    | inl hkept =>
      rcases hkept with ⟨old, hmem, _, hsame | hnone | ⟨e, he, htaken, hgone⟩⟩
      · have htaken := hi.taken old hmem seq (hsame.symm.trans hconsumed)
        exact ⟨htaken.left, fun e he => htaken.right e (hold e he)⟩
      · rw [hnone] at hconsumed
        cases hconsumed
      · have heq : e.seq = seq := Option.some.inj (htaken.symm.trans hconsumed)
        refine ⟨heq ▸ hi.below e he, ?_⟩
        intro e' he' hsame
        have hrow : e' = e := eq_of_key_eq (hold e' he') he (hsame.trans heq.symm)
        exact hgone (hrow ▸ he')
    | inr hnew =>
      rw [hnew.left] at hconsumed
      cases hconsumed
  · intro s hs seq hsome
    rw [hseq (.inl (ne_nil_of_mem hs))]
    cases hceiling s hs seq hsome with
    | inl hkept =>
      rcases hkept with ⟨old, hmem, holds⟩
      exact hi.ceilings old hmem seq holds
    | inr hnew =>
      rw [hnew]
      exact Int.sub_one_lt_of_le (le_refl _)
  · exact hupdated
  · intro s hs seq hsome e he hlt
    cases hceiling s hs seq hsome with
    | inl hkept =>
      rcases hkept with ⟨old, hmem, holds⟩
      exact le_trans (hi.accepted old hmem seq holds e (hold e he) hlt) hle
    | inr hnew =>
      rw [hnew] at hlt
      exact absurd hlt (hbelow e he)
  · intro s hs seq hsome e e' he he' hlt hlt'
    cases hceiling s hs seq hsome with
    | inl hkept =>
      rcases hkept with ⟨old, hmem, holds⟩
      exact hi.monotone old hmem seq holds e e' (hold e he) (hold e' he') hlt hlt'
    | inr hnew =>
      rw [hnew] at hlt
      exact absurd hlt (hbelow e he)

variable {old new : Step}

section

variable (hupdate : StepUpdate p nowMs i old new)
include hupdate

theorem StepUpdate.consumes {seq : Int}
    (hconsumed : new.state.consumed = some seq) : exists e, e ∈ i.events ∧ e.seq = seq := by
  have hkind := hupdate.descriptor
  have hchecks := new.checks
  cases hnew : new.state with
  | complete attempt output consumed =>
    rw [hnew] at hconsumed hchecks
    have hevent : new.descriptor.kind = .waitEvent := by
      apply hchecks.right.right.left.mp
      rw [show consumed = some seq from hconsumed]
      rfl
    rw [hkind] at hevent
    have hguard := hupdate.transition
    unfold Instance.stepTransitionGuard at hguard
    rw [hnew] at hguard
    cases hold : old.state with
    | running held token step =>
      have hdo := old.checks
      rw [hold] at hdo
      rw [show old.descriptor.kind = .doStep from hdo] at hevent
      cases hevent
    | waiting due =>
      have hwait := hupdate.wait
      unfold Instance.waitSettlementGuard at hwait
      rw [hold, hnew] at hwait
      cases hconfig : old.descriptor.config with
      | waitEvent eventType timeoutMs =>
        rw [hconfig] at hwait
        simp only [Instance.consumptionGuard, any_eq_true, and_eq_true,
          decide_eq_true_eq] at hwait
        rcases hwait with ⟨e, he, ⟨⟨⟨⟨htaken, _⟩, _⟩, _⟩, _⟩, _⟩
        exact ⟨e, he, Option.some.inj (htaken.symm.trans hconsumed)⟩
      | _ =>
        unfold WorkflowStepDescriptor.kind at hevent
        rw [hconfig] at hevent
        cases hevent
    | _ =>
      rw [hold] at hguard
      cases hguard
  | _ =>
    rw [hnew] at hconsumed
    cases hconsumed

theorem StepUpdate.ceiling : new.ceiling = old.ceiling :=
  (set?_eq_some hupdate.set).right.right.left

theorem StepUpdate.keepsInbox (hconsumed : new.state.consumed = none ∨
      exists e, e ∈ i.events ∧ new.state.consumed = some e.seq ∧ ¬ e ∈ j.events)
    (hsteps : j.steps = i.steps.replace new) : forall s, s ∈ j.steps -> KeepsInbox i j s := by
  intro s hs
  rw [hsteps] at hs
  cases mem_replace.mp hs with
  | inl hkept => exact .inl ⟨s, hkept.left, rfl, .inl rfl⟩
  | inr hnew =>
    rw [hnew.left]
    exact .inl ⟨old, hupdate.mem, hupdate.ceiling, .inr hconsumed⟩

end

theorem StepRegistration.consumed (hregistration : StepRegistration p i new) :
    new.state.consumed = none := by
  have hguard := hregistration.guard
  simp only [Instance.stepInsertGuard, and_eq_true] at hguard
  have hstate := hguard.left.left.left.left.right
  cases hnew : new.state with
  | complete attempt output consumed =>
    rw [hnew] at hstate
    split at hstate <;> cases hstate
  | _ => rfl

theorem StepRegistration.keepsInbox (hregistration : StepRegistration p i new) :
    KeepsInbox i j new := by
  have hguard := hregistration.guard
  simp only [Instance.stepInsertGuard, and_eq_true, or_eq_true,
    decide_eq_true_eq] at hguard
  rcases hguard with ⟨⟨_, hceiling⟩, _⟩
  refine .inr ⟨hregistration.consumed, ?_⟩
  cases hsome : new.ceiling with
  | none => rfl
  | some seq =>
    have hkind : new.descriptor.kind = .waitEvent := by
      apply new.ceiling_check.left.mp
      rw [hsome]
      rfl
    have hnext := hceiling.resolve_left (fun hne => hne hkind)
    rw [hsome] at hnext
    rw [Option.all_some, decide_eq_true_eq]
    exact Option.some.inj hnext

theorem WrittenAt.le (hwritten : WrittenAt nowMs i j) (hi : i.Inbox clock)
    (hle : clock ≤ nowMs) (hsteps : j.steps = i.steps)
    (hactive : j.steps.rows ≠ [] ∨ j.state = .running) : j.updatedAtMs ≤ nowMs := by
  cases hwritten with
  | inl hnow => exact le_of_eq hnow
  | inr hlater =>
    rw [hsteps] at hactive
    rw [hlater.left]
    apply max_le _ (le_refl nowMs)
    cases hactive with
    | inl hsome => exact le_trans (hi.updated (.inl hsome)) hle
    | inr hrunning => exact le_trans (hi.updated (.inr (hlater.right hrunning))) hle

theorem insertEvent_inbox {e : Event} {events : Table Event.seq} (hi : i.Inbox clock)
    (hle : clock ≤ nowMs) (hguard : i.eventInsertGuard e = true)
    (hinsert : i.events.insert? e = some events)
    (haccepted : e.acceptedAtMs = nowMs ∧ SafeTime nowMs) :
    { i with events := events, nextEventSeq := i.nextEventSeq + 1 }.account.Inbox nowMs := by
  simp only [Instance.eventInsertGuard, and_eq_true, decide_eq_true_eq] at hguard
  rcases hguard with ⟨⟨⟨hname, _⟩, hseq⟩, _⟩
  have hmem : forall x, x ∈ events -> x ∈ i.events ∨ x = e :=
    fun x hx => (mem_of_insert? hinsert).mp hx
  have hlt : i.nextEventSeq < i.nextEventSeq + 1 := Int.lt_succ _
  constructor
  · show events.rows.Pairwise _
    rw [(insert?_eq_some.mp hinsert).right, pairwise_append]
    refine ⟨hi.sorted, pairwise_singleton _ e, ?_⟩
    intro x hx y hy
    rw [mem_singleton.mp hy, ← hseq]
    exact hi.below x hx
  · intro x hx
    cases hmem x hx with
    | inl hold => exact lt_trans (hi.below x hold) hlt
    | inr hnew =>
      rw [hnew, ← hseq]
      exact hlt
  · intro x hx
    cases hmem x hx with
    | inl hold => exact hi.valid x hold
    | inr hnew =>
      rw [hnew, haccepted.left]
      exact ⟨hname, haccepted.right⟩
  · intro s hs seq hconsumed
    have htaken := hi.taken s hs seq hconsumed
    refine ⟨lt_trans htaken.left hlt, ?_⟩
    intro x hx
    cases hmem x hx with
    | inl hold => exact htaken.right x hold
    | inr hnew =>
      rw [hnew, ← hseq]
      exact ne_of_gt htaken.left
  · intro s hs seq hsome
    exact lt_trans (hi.ceilings s hs seq hsome) hlt
  · intro hactive
    exact le_trans (hi.updated hactive) hle
  · intro s hs seq hsome x hx habove
    cases hmem x hx with
    | inl hold => exact le_trans (hi.accepted s hs seq hsome x hold habove) hle
    | inr hnew =>
      rw [hnew]
      exact le_of_eq haccepted.left
  · intro s hs seq hsome x y hx hy habove hxy
    cases hmem x hx with
    | inl hold =>
      cases hmem y hy with
      | inl hold' => exact hi.monotone s hs seq hsome x y hold hold' habove hxy
      | inr hnew =>
        rw [hnew, haccepted.left]
        exact le_trans (hi.accepted s hs seq hsome x hold habove) hle
    | inr hnew =>
      rw [hnew, ← hseq] at hxy
      cases hmem y hy with
      | inl hold' => exact absurd (hi.below y hold') (lt_asymm hxy)
      | inr hnew' =>
        rw [hnew', ← hseq] at hxy
        exact absurd hxy (lt_irrefl _)

theorem Write.inbox (hwrite : Write p nowMs i j) (hi : i.Inbox clock)
    (hle : clock ≤ nowMs) : j.Inbox nowMs := by
  have hsome : forall old, old ∈ i.steps -> i.updatedAtMs ≤ nowMs := by
    intro old hold
    exact le_trans (hi.updated (.inl (ne_nil_of_mem hold))) hle
  cases hwrite with
  | step hupdate hconsumed =>
    exact hi.of_sublist hle (List.Sublist.refl _) (fun _ => rfl)
      (hupdate.keepsInbox (.inl hconsumed) rfl) (fun _ => hsome _ hupdate.mem)
  | @consume old new seq hupdate hconsumed =>
    rcases hupdate.consumes hconsumed with ⟨e, he, rfl⟩
    refine hi.of_sublist hle filter_sublist (fun _ => rfl) ?_ (fun _ => hsome _ hupdate.mem)
    refine hupdate.keepsInbox (.inr ⟨e, he, hconsumed, ?_⟩) rfl
    intro hin
    exact (mem_erase.mp hin).right rfl
  | @register new steps hregistration hinsert =>
    refine hi.of_sublist hle (List.Sublist.refl _) (fun _ => rfl) ?_ ?_
    · intro s hs
      cases (mem_of_insert? hinsert).mp hs with
      | inl hold => exact .inl ⟨s, hold, rfl, .inl rfl⟩
      | inr hnew =>
        rw [hnew]
        exact hregistration.keepsInbox
    · intro _
      exact le_trans (hi.updated (.inr hregistration.running.left)) hle
  | insertEvent hguard _ hinsert haccepted =>
    exact insertEvent_inbox hi hle hguard hinsert haccepted
  | row hsame _ _ _ hupdated _ | state _ hsame _ hupdated _ =>
    apply hi.of_sublist hle _ (fun _ => hsame.nextEventSeq) _ (hupdated.le hi hle hsame.steps)
    · rw [hsame.events]
    · intro s hs
      rw [hsame.steps] at hs
      exact .inl ⟨s, hs, rfl, .inl rfl⟩

theorem Writes.inbox (hwrites : Writes p nowMs i j) (hi : i.Inbox clock)
    (hle : clock ≤ nowMs) : j.Inbox nowMs :=
  hwrites.invariant (fun _ _ hwrite hk => hwrite.inbox hk (le_refl nowMs)) (hi.later hle)

end Writes

/-! ## Every run -/

section Runs

variable {clock nowMs : Millis} {i j : Instance}

def Instance.Idle (i : Instance) : Prop := i.steps.rows = [] ∧ i.state ≠ .running

theorem Instance.Inbox.of_idle (hi : i.Inbox clock) (hidle : i.Idle) (nowMs : Millis) :
    i.Inbox nowMs := by
  have hnone : forall s, ¬ s ∈ i.steps := by
    intro s hs
    rw [← mem_rows, hidle.left] at hs
    cases hs
  constructor
  · exact hi.sorted
  · exact hi.below
  · exact hi.valid
  · exact hi.taken
  · exact hi.ceilings
  · intro hactive
    cases hactive with
    | inl hsome => exact absurd hidle.left hsome
    | inr hrunning => exact absurd hrunning hidle.right
  · intro s hs
    exact absurd hs (hnone s)
  · intro s hs
    exact absurd hs (hnone s)

theorem Write.idle {p : Permits} (hwrite : Write p nowMs i j) (hregisters : ¬ p.registers)
    (hclaims : forall token, ¬ p.claims token) (hi : i.Idle) : j.Idle := by
  have hnone : forall s, ¬ s ∈ i.steps := by
    intro s hs
    rw [← mem_rows, hi.left] at hs
    cases hs
  cases hwrite with
  | step hupdate _ | consume hupdate _ => exact absurd hupdate.mem (hnone _)
  | register hregistration _ => exact absurd hregistration.registers hregisters
  | insertEvent _ _ _ _ => exact hi
  | row hsame _ hstate _ _ _ =>
    rw [Instance.Idle, hsame.steps, hstate]
    exact hi
  | state _ hsame hclaim _ _ =>
    rw [Instance.Idle, hsame.steps]
    refine ⟨hi.left, ?_⟩
    intro hrunning
    rcases running_of_state hrunning with ⟨run, hrun⟩
    exact hclaims run.token (hclaim run hrun)

variable {others : Usage}

theorem Call.inbox {a : Action} (hcall : Call a others i j) (hnow : a.nowMs = some nowMs)
    (hi : i.Inbox nowMs) : j.Inbox nowMs := by
  cases a with
  | sendEvent identity operationId eventType payload at_ limits =>
    cases hnow
    have hwrites := hcall.writes
    have hlater : j.Inbox (max nowMs i.updatedAtMs) :=
      Writes.inbox hwrites hi (le_max_left nowMs i.updatedAtMs)
    by_cases hidle : i.Idle
    · refine hlater.of_idle ?_ nowMs
      exact hwrites.invariant (fun _ _ hwrite hk =>
        hwrite.idle (fun h => h) (fun _ h => h) hk) hidle
    · have hactive : i.steps.rows ≠ [] ∨ i.state = .running := by
        by_contra hnot
        push Not at hnot
        exact hidle hnot
      rw [max_eq_left (hi.updated hactive)] at hlater
      exact hlater
  | insert workflows limits | sweep receipt => cases hnow
  | _ =>
    cases hnow
    exact hcall.writes.inbox hi (le_refl nowMs)

theorem prepared_inbox (q : PreparedCreation) (clock : Millis) : q.instance.Inbox clock := by
  constructor
  · exact List.Pairwise.nil
  · intro e he
    cases he
  · intro e he
    cases he
  · intro s hs
    cases hs
  · intro s hs
    cases hs
  · intro hactive
    cases hactive with
    | inl hsome => exact absurd rfl hsome
    | inr hrunning => cases hrunning
  · intro s hs
    cases hs
  · intro s hs
    cases hs

theorem restartRun_inbox {versionDigest : WorkflowTarget -> Digest}
    {operation : WorkflowOperation} {projection : RestartProjection}
    (hrun : restartRun versionDigest operation projection nowMs i = .ok j)
    (hi : i.Inbox nowMs) : j.Inbox nowMs := by
  rcases restartRun_eq_ok hrun with ⟨_, hguard, ⟨_, _, hloop, holds⟩, _⟩
  have hevents : j.events.rows = [] := by
    rw [hloop.frame]
    rfl
  have hnext : j.nextEventSeq = projection.nextEventSeq := by
    rw [hloop.frame]
    rfl
  have hseq : j.steps.rows ≠ [] ∨ j.events.rows ≠ [] -> j.nextEventSeq = i.nextEventSeq := by
    intro hsome
    rcases exists_mem_of_ne_nil _ (hsome.resolve_right fun h => h hevents) with ⟨s, hs⟩
    rw [hnext]
    simp only [restartContextGuard, and_eq_true] at hguard
    cases hfrom : operation.restartFrom with
    | none =>
      rw [hfrom] at hguard
      simp only [and_eq_true, decide_eq_true_eq] at hguard
      rcases (hloop.mem rfl).mp hs with ⟨old, hold, _⟩
      cases holds with
      | inl hsome =>
        rw [hguard.right.left.right] at hsome
        cases hsome.left
      | inr hnone =>
        rw [hnone.right] at hold
        cases hold
    | some selector =>
      rw [hfrom] at hguard
      simp only [and_eq_true, decide_eq_true_eq] at hguard
      exact hguard.right.left
  refine hi.of_sublist (le_refl nowMs) ?_ hseq ?_ ?_
  · rw [hevents]
    exact nil_sublist _
  · intro s hs
    rcases restartRun_steps hrun hs with ⟨old, hold, _, ⟨rfl, _⟩ | ⟨_, hceiling, hstate⟩⟩
    · exact .inl ⟨s, hold, rfl, .inl rfl⟩
    · rw [← hnext, hseq (.inl (ne_nil_of_mem hs))] at hceiling
      refine .inr ⟨?_, ?_⟩
      · rw [hstate]
        cases old.descriptor.config <;> rfl
      · rw [hceiling]
        cases old.descriptor.config with
        | waitEvent eventType timeoutMs => exact decide_eq_true rfl
        | _ => rfl
  · intro _
    rw [hloop.frame]
    exact le_refl nowMs

end Runs

variable {env : Environment}

theorem history_inbox {owner : Uuid} {clock : Millis} {actions : List Action} {w : World}
    (hrun : OrderedHistory env owner clock actions w) :
    forall i, i ∈ w.store.instances -> i.Inbox w.clock := by
  refine hrun.invariant (P := fun w => forall i, i ∈ w.store.instances -> i.Inbox w.clock) ?_ ?_
  · intro u a v hu hordered hnext
    rcases next_eq_some.mp hnext with ⟨_, _, happly, rfl⟩
    have hlater : forall i, i ∈ u.store.instances -> i.Inbox (a.nowMs.getD u.clock) :=
      fun i hi => (hu i hi).later hordered
    refine (apply_effect happly).forall_instances hlater ?_ ?_ ?_
    · intro c q _
      exact prepared_inbox q _
    · intro others i j hcall hi
      rcases hcall.writesAt_ge with ⟨nowMs, hnow, _⟩
      rw [hnow] at hi ⊢
      exact hcall.inbox hnow hi
    · intro operation nowMs limits projection i j haction hrun hi
      rw [haction] at hi ⊢
      exact restartRun_inbox hrun hi
  · intro i hi
    exact absurd hi (not_mem_empty i)

end Workflow
end OpenCompute
