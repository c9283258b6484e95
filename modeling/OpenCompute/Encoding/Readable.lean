import Mathlib

/-!
# Codes that can be read off the front of a list

A field is readable when its code and the rest of the input can be told apart.
Fields of a fixed length are readable, and so is a sequence of readable fields
whose number is known.
-/

namespace Encoding

open List

variable {α β : Type}

def Readable (P : α -> Prop) (code : α -> List β) : Prop :=
  forall x y s t, P x -> P y -> code x ++ s = code y ++ t -> x = y ∧ s = t

theorem readable_of_length {P : α -> Prop} {code : α -> List β} {k : Nat}
    (hlength : forall x, (code x).length = k)
    (hinj : forall x y, P x -> P y -> code x = code y -> x = y) : Readable P code := by
  intro x y s t hx hy heq
  have hparts := append_inj heq ((hlength x).trans (hlength y).symm)
  exact ⟨hinj x y hx hy hparts.left, hparts.right⟩

theorem Readable.flatten {P : α -> Prop} {code : α -> List β} (hcode : Readable P code)
    {xs ys : List α} {s t : List β} (hlength : xs.length = ys.length)
    (hxs : forall x, x ∈ xs -> P x) (hys : forall y, y ∈ ys -> P y)
    (heq : (xs.map code).flatten ++ s = (ys.map code).flatten ++ t) : xs = ys ∧ s = t := by
  induction xs generalizing ys with
  | nil =>
    rw [length_nil, eq_comm, length_eq_zero_iff] at hlength
    subst hlength
    exact ⟨rfl, heq⟩
  | cons x xs ih =>
    cases ys with
    | nil => cases hlength
    | cons y ys =>
      rw [map_cons, map_cons, flatten_cons, flatten_cons,
        append_assoc, append_assoc] at heq
      rcases hcode x y _ _ (hxs x mem_cons_self) (hys y mem_cons_self)
        heq with ⟨rfl, hrest⟩
      rcases ih (Nat.succ.inj hlength) (fun z hz => hxs z (mem_cons_of_mem x hz))
        (fun z hz => hys z (mem_cons_of_mem x hz)) hrest with ⟨rfl, hs⟩
      exact ⟨rfl, hs⟩

end Encoding
