import Mathlib

/-!
# Big-endian digits

A number below `base ^ k` is determined by its `k` digits, most significant
digit first, in any alphabet that writes the digits below `base` differently.
-/

namespace Encoding

open List

def beDigits (base : Nat) : Nat -> Nat -> List Nat
  | 0, _ => []
  | k + 1, n => beDigits base k (n / base) ++ [n % base]

@[simp]
theorem length_beDigits (base k n : Nat) : (beDigits base k n).length = k := by
  induction k generalizing n with
  | zero => rfl
  | succ k ih => simp [beDigits, ih]

theorem map_beDigits_injective {α : Type} {f : Nat -> α} {base k n m : Nat} (hbase : 0 < base)
    (hf : forall a b, a < base -> b < base -> f a = f b -> a = b)
    (hn : n < base ^ k) (hm : m < base ^ k)
    (heq : (beDigits base k n).map f = (beDigits base k m).map f) : n = m := by
  induction k generalizing n m with
  | zero =>
    rw [pow_zero] at hn hm
    omega
  | succ k ih =>
    rw [beDigits, beDigits, map_append, map_append] at heq
    have hparts := append_inj heq (by simp)
    have hmod : n % base = m % base := by
      apply hf _ _ (Nat.mod_lt n hbase) (Nat.mod_lt m hbase)
      simpa using hparts.right
    have hdiv : n / base = m / base := by
      apply ih _ _ hparts.left
      · exact Nat.div_lt_of_lt_mul (by rwa [pow_succ, mul_comm] at hn)
      · exact Nat.div_lt_of_lt_mul (by rwa [pow_succ, mul_comm] at hm)
    rw [← Nat.div_add_mod n base, ← Nat.div_add_mod m base, hdiv, hmod]

/-! ## Bytes -/

/-- The `k`-byte big-endian representation of a number. -/
def beBytes (k n : Nat) : List UInt8 := (beDigits 256 k n).map UInt8.ofNat

@[simp]
theorem length_beBytes (k n : Nat) : (beBytes k n).length = k := by
  simp [beBytes]

theorem ofNat_injective_of_lt {a b : Nat} (ha : a < 256) (hb : b < 256)
    (heq : UInt8.ofNat a = UInt8.ofNat b) : a = b := by
  have hnat := congrArg UInt8.toNat heq
  rwa [UInt8.toNat_ofNat', UInt8.toNat_ofNat', Nat.mod_eq_of_lt ha, Nat.mod_eq_of_lt hb] at hnat

theorem beBytes_injective {k n m : Nat} (hn : n < 256 ^ k) (hm : m < 256 ^ k)
    (heq : beBytes k n = beBytes k m) : n = m :=
  map_beDigits_injective (by decide) (fun _ _ ha hb => ofNat_injective_of_lt ha hb) hn hm heq

def beNat (bs : List UInt8) : Nat := bs.foldl (fun n b => n * 256 + b.toNat) 0

theorem beBytes_beNat {k : Nat} {bs : List UInt8} (hlength : bs.length = k) :
    beNat bs < 256 ^ k ∧ beBytes k (beNat bs) = bs := by
  subst hlength
  induction bs using reverseRecOn with
  | nil => exact ⟨Nat.one_pos, rfl⟩
  | append_singleton bs b ih =>
    have hb := b.toNat_lt
    have hsnoc : beNat (bs ++ [b]) = beNat bs * 256 + b.toNat := foldl_append
    rw [hsnoc, length_append, length_singleton]
    refine ⟨by omega, ?_⟩
    rw [beBytes, beDigits, show (beNat bs * 256 + b.toNat) / 256 = beNat bs by omega,
      show (beNat bs * 256 + b.toNat) % 256 = b.toNat by omega, map_append]
    change beBytes bs.length (beNat bs) ++ [UInt8.ofNat b.toNat] = _
    rw [ih.right, UInt8.ofNat_toNat]

theorem beNat_beBytes {k n : Nat} (hn : n < 256 ^ k) : beNat (beBytes k n) = n := by
  rcases beBytes_beNat (length_beBytes k n) with ⟨hlt, hbytes⟩
  exact beBytes_injective hlt hn hbytes

end Encoding
