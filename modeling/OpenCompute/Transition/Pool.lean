import OpenCompute.Relational.Table

/-!
# Calls in progress

Each call has an identifier and the point it has reached.  A step starts a
call, moves one on or ends one.
-/

namespace Transition

open Relational Table

structure Call (φ : Type) where
  id : Nat
  phase : φ
deriving DecidableEq

abbrev Pool (φ : Type) := Table (Call.id : Call φ -> Nat)

namespace Pool

variable {φ : Type} {p q : Pool φ} {c : Call φ} {id : Nat} {phase : φ} {P : Call φ -> Prop}

def move (p : Pool φ) (id : Nat) (phase : φ) : Pool φ := p.replace ⟨id, phase⟩

theorem forall_move (hold : forall c, c ∈ p -> c.id ≠ id -> P c) (hnew : P ⟨id, phase⟩) :
    forall c, c ∈ p.move id phase -> P c := by
  intro c hc
  rcases mem_replace.mp hc with ⟨hmem, hne⟩ | ⟨rfl, _⟩
  · exact hold c hmem hne
  · exact hnew

theorem mem_move (hc : c ∈ p) : ⟨c.id, phase⟩ ∈ p.move c.id phase :=
  mem_replace.mpr (Or.inr ⟨rfl, c, hc, rfl⟩)

def Alone (p : Pool φ) : Prop := forall c d, c ∈ p -> d ∈ p -> c = d

theorem Alone.move (halone : p.Alone) (hc : c ∈ p) : (p.move c.id phase).Alone := by
  have hone : forall d, d ∈ p.move c.id phase -> d = ⟨c.id, phase⟩ :=
    forall_move (fun d hd hne => absurd (congrArg Call.id (halone d c hd hc)) hne) rfl
  intro d e hd he
  rw [hone d hd, hone e he]

theorem Alone.start (hnone : p.rows = []) (hstart : p.insert? ⟨id, phase⟩ = some q) : q.Alone := by
  have hone : forall d, d ∈ q -> d = ⟨id, phase⟩ := by
    refine forall_insert? hstart ?_ rfl
    intro d hd
    rw [← mem_rows, hnone] at hd
    cases hd
  intro d e hd he
  rw [hone d hd, hone e he]

theorem Alone.not_mem_end (halone : p.Alone) (hc : c ∈ p) (d : Call φ) : ¬ d ∈ p.erase c.id := by
  intro hd
  rcases mem_erase.mp hd with ⟨hmem, hne⟩
  exact hne (congrArg Call.id (halone d c hmem hc))

end Pool

end Transition
