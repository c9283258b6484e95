import Mathlib

/-!
# Runs of a transition system

A system is a partial function from a state and an action to the next state.
A run applies a list of actions one after the other, and a restriction on the
actions says in which states each of them may be taken.
-/

namespace Transition

variable {S A : Type}

inductive Run (next : S -> A -> Option S) (allowed : S -> A -> Prop) :
    S -> List A -> S -> Prop where
  | nil (s : S) : Run next allowed s [] s
  | cons {s u t : S} {a : A} {as : List A} :
      allowed s a -> next s a = some u -> Run next allowed u as t ->
      Run next allowed s (a :: as) t

/-- No restriction. -/
def always (_ : S) (_ : A) : Prop := True

instance (s : S) (a : A) : Decidable (always s a) := isTrue trivial

namespace Run

variable {next : S -> A -> Option S} {allowed : S -> A -> Prop} {s t : S} {as : List A}

theorem snoc {u : S} {a : A} (hrun : Run next allowed s as u) (hallowed : allowed u a)
    (hnext : next u a = some t) : Run next allowed s (as ++ [a]) t := by
  induction hrun with
  | nil s => exact Run.cons hallowed hnext (Run.nil t)
  | cons hstep hmid _ ih => exact Run.cons hstep hmid (ih hallowed hnext)

theorem append {u : S} {bs : List A} (hrun : Run next allowed s as u)
    (hrest : Run next allowed u bs t) : Run next allowed s (as ++ bs) t := by
  induction hrun with
  | nil s => exact hrest
  | cons hallowed hnext _ ih => exact Run.cons hallowed hnext (ih hrest)

theorem replicate (hrun : Run next allowed s as s) (n : Nat) :
    Run next allowed s (List.replicate n as).flatten s := by
  induction n with
  | zero => exact Run.nil s
  | succ n ih => exact hrun.append ih

/-!
A property that one step preserves holds at the end of every run that starts
with it.
-/

theorem invariant {P : S -> Prop}
    (hstep : forall u a v, P u -> allowed u a -> next u a = some v -> P v)
    (hrun : Run next allowed s as t) (hs : P s) : P t := by
  induction hrun with
  | nil _ => exact hs
  | cons hallowed hnext _ ih => exact ih (hstep _ _ _ hs hallowed hnext)

theorem history {P : List A -> S -> Prop}
    (hstep : forall bs u a v, Run next allowed s bs u -> P bs u -> allowed u a ->
      next u a = some v -> P (bs ++ [a]) v)
    (hrun : Run next allowed s as t) (hs : P [] s) : P as t := by
  have hgeneral : forall bs u, Run next allowed s bs u -> P bs u ->
      forall cs, Run next allowed u cs t -> P (bs ++ cs) t := by
    intro bs u hbs hu cs hcs
    induction hcs generalizing bs with
    | nil u =>
      rw [List.append_nil]
      exact hu
    | @cons u v t a cs hallowed hnext _ ih =>
      have hv := hstep bs u a v hbs hu hallowed hnext
      have hrest := ih hrun (bs ++ [a]) (hbs.snoc hallowed hnext) hv
      rw [List.append_assoc] at hrest
      exact hrest
  exact hgeneral [] s (Run.nil s) hs as hrun

theorem weaken {wider : S -> A -> Prop} (hwider : forall u a, allowed u a -> wider u a)
    (hrun : Run next allowed s as t) : Run next wider s as t := by
  induction hrun with
  | nil s => exact Run.nil s
  | cons hallowed hnext _ ih => exact Run.cons (hwider _ _ hallowed) hnext ih

end Run

/-! ## Executing a list of actions -/

section Execution

variable (next : S -> A -> Option S) (allowed : S -> A -> Prop)
  [forall s a, Decidable (allowed s a)]

def execute : S -> List A -> Option S
  | s, [] => some s
  | s, a :: as => if allowed s a then (next s a).bind fun u => execute u as else none

variable {next allowed}

instance decidableSomeAnd {o : Option S} {P : S -> Prop} [DecidablePred P] :
    Decidable (exists s, o = some s ∧ P s) :=
  inferInstanceAs (Decidable (exists s, s ∈ o ∧ P s))

theorem run_of_execute {s t : S} {as : List A}
    (hexec : execute next allowed s as = some t) : Run next allowed s as t := by
  induction as generalizing s with
  | nil =>
    cases hexec
    exact Run.nil _
  | cons a as ih =>
    simp only [execute, Option.ite_none_right_eq_some, Option.bind_eq_some_iff] at hexec
    rcases hexec with ⟨hallowed, _, hnext, hrest⟩
    exact Run.cons hallowed hnext (ih hrest)

theorem exists_run_of_execute {P : S -> Prop} {s : S} {as : List A}
    (hexec : exists t, t ∈ execute next allowed s as ∧ P t) :
    exists t, Run next allowed s as t ∧ P t := by
  rcases hexec with ⟨t, ht, hP⟩
  exact ⟨t, run_of_execute ht, hP⟩

theorem exists_run_imp {P Q : S -> Prop} {s : S} {as : List A}
    (himp : forall t, Run next allowed s as t -> P t -> Q t)
    (hexec : exists t, t ∈ execute next allowed s as ∧ P t) :
    exists t, Run next allowed s as t ∧ Q t := by
  rcases exists_run_of_execute hexec with ⟨t, hrun, hP⟩
  exact ⟨t, hrun, himp t hrun hP⟩

theorem exists_run_with {P Q : S -> Prop} {s : S} {as : List A}
    (hall : forall t, Run next allowed s as t -> Q t)
    (hexec : exists t, t ∈ execute next allowed s as ∧ P t) :
    exists t, Run next allowed s as t ∧ P t ∧ Q t :=
  exists_run_imp (fun t hrun hP => ⟨hP, hall t hrun⟩) hexec

end Execution

end Transition
