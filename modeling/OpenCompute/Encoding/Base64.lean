import Mathlib

/-!
# Standard base64

Three bytes are written as four characters of the standard alphabet, and the
last group is padded with `=`.  The decoder takes exactly the padded groups
whose unused bits are zero.
-/

namespace Encoding

open List

/-!
## The size of ASCII texts

A text of ASCII characters takes one byte for each of them.  So do the decimal
digits of a number, and their number is known from its size.
-/

theorem utf8ByteSize_ofList (cs : List Char) :
    (String.ofList cs).utf8ByteSize = (cs.map Char.utf8Size).sum := by
  induction cs with
  | nil => rfl
  | cons c cs ih =>
    simp [ih]

theorem utf8ByteSize_of_ascii {cs : List Char} (hascii : forall c, c ∈ cs -> c.utf8Size = 1) :
    (String.ofList cs).utf8ByteSize = cs.length := by
  have hones : cs.map Char.utf8Size = replicate cs.length 1 := by
    rw [eq_replicate_iff, length_map]
    refine ⟨rfl, ?_⟩
    intro n hn
    rcases mem_map.mp hn with ⟨c, hc, rfl⟩
    exact hascii c hc
  rw [utf8ByteSize_ofList, hones, sum_replicate_nat, Nat.mul_one]

/-! ## Decimal digits -/

theorem utf8ByteSize_repr (n : Nat) : n.repr.utf8ByteSize = n.repr.length := by
  have hdigits : forall c, c ∈ Nat.toDigits 10 n -> c.utf8Size = 1 := by
    intro c hc
    have hdigit := Nat.isDigit_of_mem_toDigits (by decide) (by decide) hc
    rw [Char.isDigit, Bool.and_eq_true, decide_eq_true_eq, decide_eq_true_eq] at hdigit
    rw [Char.utf8Size_eq_one_iff]
    exact UInt32.le_trans hdigit.right (by decide)
  rw [Nat.repr, utf8ByteSize_of_ascii hdigits, String.length_ofList]

theorem utf8ByteSize_repr_le {n k : Nat} (hk : 0 < k) (hn : n < 10 ^ k) :
    n.repr.utf8ByteSize ≤ k := by
  rw [utf8ByteSize_repr]
  exact (Nat.length_repr_le_iff hk).mpr hn

theorem utf8ByteSize_int_le {n : Int} {k : Nat} (hk : 0 < k) (hn : n.natAbs < 10 ^ k) :
    (toString n).utf8ByteSize ≤ k + 1 := by
  rw [Int.toString_eq_repr, Int.repr_eq_if]
  split
  · have habs : n.toNat < 10 ^ k := by omega
    exact Nat.le_succ_of_le (utf8ByteSize_repr_le hk habs)
  · have habs : (-n).toNat < 10 ^ k := by omega
    have hsign : "-".utf8ByteSize = 1 := by decide
    exact Nat.succ_le_succ (utf8ByteSize_repr_le hk habs)

namespace Base64

def alphabet : List Char :=
  "ABCDEFGHIJKLMNOPQRSTUVWXYZabcdefghijklmnopqrstuvwxyz0123456789+/".toList

def symbol (n : Nat) : Char := alphabet.getD n 'A'

def value? (c : Char) : Option Nat :=
  let n := c.toNat
  if 65 ≤ n ∧ n ≤ 90 then some (n - 65)
  else if 97 ≤ n ∧ n ≤ 122 then some (n - 71)
  else if 48 ≤ n ∧ n ≤ 57 then some (n + 4)
  else if c = '+' then some 62
  else if c = '/' then some 63
  else none

def encodeChars : List UInt8 -> List Char
  | [] => []
  | [a] =>
    let p := a.toNat
    [symbol (p / 4), symbol (p % 4 * 16), '=', '=']
  | [a, b] =>
    let p := a.toNat
    let q := b.toNat
    [symbol (p / 4), symbol (p % 4 * 16 + q / 16), symbol (q % 16 * 4), '=']
  | a :: b :: c :: rest =>
    let p := a.toNat
    let q := b.toNat
    let r := c.toNat
    symbol (p / 4) :: symbol (p % 4 * 16 + q / 16) ::
      symbol (q % 16 * 4 + r / 64) :: symbol (r % 64) :: encodeChars rest

def decodeChars : List Char -> Option (List UInt8)
  | [] => some []
  | w :: x :: y :: z :: rest => do
    let p ← value? w
    let q ← value? x
    if y = '=' then
      if z = '=' ∧ rest = [] ∧ q % 16 = 0 then
        some [UInt8.ofNat (p * 4 + q / 16)]
      else none
    else
      let r ← value? y
      if z = '=' then
        if rest = [] ∧ r % 4 = 0 then
          some [UInt8.ofNat (p * 4 + q / 16), UInt8.ofNat (q % 16 * 16 + r / 4)]
        else none
      else
        let t ← value? z
        let bytes ← decodeChars rest
        some (UInt8.ofNat (p * 4 + q / 16) :: UInt8.ofNat (q % 16 * 16 + r / 4) ::
          UInt8.ofNat (r % 4 * 64 + t) :: bytes)
  | _ => none

/-! ## Texts -/

def encode (bytes : List UInt8) : String := String.ofList (encodeChars bytes)

def decode (text : String) : Option (List UInt8) := decodeChars text.toList

end Base64
end Encoding
