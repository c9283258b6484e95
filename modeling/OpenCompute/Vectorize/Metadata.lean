import OpenCompute.Relational.Transaction

/-!
# Metadata of vectors

Metadata is a JSON object of scalars and lists of strings, nested at most once.
Strings are UTF-8, and a number is the value of the finite `f64`.
-/

namespace OpenCompute
namespace Vectorize

open Transaction

/-! ## Strings -/

abbrev Byte := Fin 256

structure Text where
  chars : List Char
deriving DecidableEq

namespace Text

def bytes (t : Text) : List Byte :=
  t.chars.flatMap fun c => (String.utf8EncodeChar c).map UInt8.toFin

def len (t : Text) : Nat := t.bytes.length

def components (t : Text) : List Text := (t.chars.splitOn '.').map Text.mk

def startsWith (t : Text) (c : Char) : Bool := t.chars.head? = some c

end Text

/-! ## JSON -/

inductive Value where
  | null
  | bool (value : Bool)
  /-- The finite value that `as_f64` gives. -/
  | number (value : Rat)
  | string (value : Text)
  | array (values : List Value)
  | object (fields : List (Text × Value))

namespace Value

def asObject : Value -> Option (List (Text × Value))
  | .object fields => some fields
  | _ => none

def asStr : Value -> Option Text
  | .string value => some value
  | _ => none

def isString (value : Value) : Bool := value.asStr.isSome

def get (value : Value) (name : Text) : Option Value :=
  value.asObject.bind fun fields => (fields.find? fun field => field.1 = name).map Prod.snd

def resolve (value : Value) (path : List Text) : Option Value :=
  path.foldlM get value

end Value

mutual

def Value.beq : Value -> Value -> Bool
  | .null, .null => true
  | .bool a, .bool b => a = b
  | .number a, .number b => a = b
  | .string a, .string b => a = b
  | .array a, .array b => Value.beqAll a b
  | .object a, .object b => Value.beqFields a b
  | _, _ => false

def Value.beqAll : List Value -> List Value -> Bool
  | [], [] => true
  | a :: as, b :: bs => Value.beq a b && Value.beqAll as bs
  | _, _ => false

def Value.beqFields : List (Text × Value) -> List (Text × Value) -> Bool
  | [], [] => true
  | (m, a) :: as, (n, b) :: bs => decide (m = n) && Value.beq a b && Value.beqFields as bs
  | _, _ => false

end

mutual

theorem Value.beq_iff : (a b : Value) -> (Value.beq a b = true ↔ a = b)
  | .null, b => by cases b <;> simp [Value.beq]
  | .bool _, b => by cases b <;> simp [Value.beq]
  | .number _, b => by cases b <;> simp [Value.beq]
  | .string _, b => by cases b <;> simp [Value.beq]
  | .array as, b => by cases b <;> simp [Value.beq, Value.beqAll_iff as]
  | .object as, b => by cases b <;> simp [Value.beq, Value.beqFields_iff as]

theorem Value.beqAll_iff : (as bs : List Value) -> (Value.beqAll as bs = true ↔ as = bs)
  | [], bs => by cases bs <;> simp [Value.beqAll]
  | a :: as, bs => by cases bs <;> simp [Value.beqAll, Value.beq_iff a, Value.beqAll_iff as]

theorem Value.beqFields_iff :
    (as bs : List (Text × Value)) -> (Value.beqFields as bs = true ↔ as = bs)
  | [], bs => by cases bs <;> simp [Value.beqFields]
  | (m, a) :: as, bs => by
    cases bs <;> simp [Value.beqFields, Value.beq_iff a, Value.beqFields_iff as, Prod.ext_iff]

end

instance : DecidableEq Value := fun a b => decidable_of_iff _ (Value.beq_iff a b)

/-- The JSON printer and parser, on texts of any representation. -/
structure Json (β : Type) where
  print : Value -> β
  parse : β -> Option Value
  size : β -> Nat
  parse_print : forall value, parse (print value) = some value

def maxMetadataBytes : Nat := 10 * 1024

end Vectorize
end OpenCompute
