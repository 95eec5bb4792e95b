import Concordance.Date
import Concordance.Decimal.Notation
import Concordance.Token

/-!
# Field values

A `Value` is what a record holds in one field. Filters compare values, orderings sort by them,
and searchable fields are rendered to text and cut into tokens.

* `Value.compare` orders values of one type, and integers against floats by number; all other
  pairs, and a NaN, do not compare.
* `Value.matchesValue` is the equality of lookups: null with null, else equal in that order.
* `Value.order` decides every pair: as `compare` does, else by type, null first, and two floats
  by their bit patterns.

Field values are signed integers of 64 bits and primary keys are unsigned ones; an integer of any
size becomes one of them only if the 64 bits hold it. Floats are kept by their bits (`Double`): the
order of bit patterns tells NaNs apart that `Float` does not.
-/

namespace Concordance

/-! ## Numbers -/

/-- The integer as a signed one of 64 bits, if they hold it. -/
def signed64? (n : Int) : Option Int64 :=
  if Int64.minValue.toInt ≤ n ∧ n ≤ Int64.maxValue.toInt then some (Int64.ofInt n) else none

/-- The integer as an unsigned one of 64 bits, if they hold it. -/
def unsigned64? (n : Int) : Option UInt64 :=
  if 0 ≤ n ∧ n < UInt64.size then some (UInt64.ofNat n.toNat) else none

/-- A double precision number by its bits. A NaN keeps its sign and its payload. -/
structure Double where
  bits : UInt64
  deriving DecidableEq, Inhabited

namespace Double

/-- The number; all NaNs are one. -/
def toFloat (x : Double) : Float := .ofBits x.bits

/-- The number by its bits; a NaN has those of the positive quiet one. -/
def ofFloat (x : Float) : Double := ⟨x.toBits⟩

end Double

/-- The value of one field. -/
inductive Value where
  /-- No value. -/
  | null
  | bool (b : Bool)
  /-- A 64-bit signed integer. -/
  | int (i : Int64)
  /-- A double precision number. -/
  | float (x : Double)
  | text (s : String)
  | date (d : Date)
  deriving DecidableEq, Inhabited

/-! ## Floating point order -/

/-- The order of two floating point numbers; a NaN does not compare. -/
def compareFloats (a b : Float) : Option Ordering :=
  if a < b then some .lt else if a == b then some .eq else if b < a then some .gt else none

/-- The rank of a bit pattern of `width` bits: negative patterns below positive ones and the
larger magnitude further from zero. -/
def bitRank (width bits : Nat) : Nat :=
  let half := Nat.pow 2 (width - 1)
  if bits < half then bits + half else Nat.pow 2 width - 1 - bits

/-- The order of double precision numbers by their bit patterns, which decides every pair. A
positive NaN is above all numbers, and a negative one below them. -/
def orderFloats (a b : Double) : Ordering :=
  compare (bitRank 64 a.bits.toNat) (bitRank 64 b.bits.toNat)

namespace Value

/-! ## Reading a value -/

/-- The name of the value's type. -/
def typeName : Value → String
  | null => "Null"
  | bool _ => "Bool"
  | int _ => "Int"
  | float _ => "Float"
  | text _ => "String"
  | date _ => "Date"

/-- Whether there is no value. -/
def isNull : Value → Bool
  | null => true
  | _ => false

/-- The text, of a text value. -/
def asText : Value → Option String
  | text s => some s
  | _ => none

/-- The integer, of an integer value. -/
def asInt : Value → Option Int64
  | int i => some i
  | _ => none

/-- The value as text that can be searched; null has none. -/
def toText : Value → Option String
  | null => none
  | bool b => some (if b then "true" else "false")
  | int i => some (toString i.toInt)
  | float x => some (Decimal.Style.plain.text (.ofFloat x.toFloat))
  | text s => some s
  | date d => some d.text

/-- The tokens of the value's text. -/
def tokens (v : Value) : List String :=
  match v.toText with
  | some s => tokenize s
  | none => []

/-! ## Comparing values -/

/-- The order of two values that compare. -/
def compare : Value → Value → Option Ordering
  | bool a, bool b => some (Ord.compare a b)
  | int a, int b => some (Ord.compare a b)
  | float a, float b => compareFloats a.toFloat b.toFloat
  | int a, float b => compareFloats (Float.ofInt a.toInt) b.toFloat
  | float a, int b => compareFloats a.toFloat (Float.ofInt b.toInt)
  | text a, text b => some (Ord.compare a b)
  | date a, date b => some (a.compare b)
  | _, _ => none

/-- Equality as lookups understand it. -/
def matchesValue : Value → Value → Bool
  | null, null => true
  | a, b => a.compare b == some .eq

/-- The place of the value's type among the types. -/
def typeRank : Value → Nat
  | null => 0
  | bool _ => 1
  | int _ | float _ => 2
  | text _ => 3
  | date _ => 4

/-- The order of values that do not compare though their types have one rank. -/
def orderWithinRank : Value → Value → Ordering
  | float x, float y => orderFloats x y
  | _, _ => .eq

/-- The order that sorts results. -/
def order (a b : Value) : Ordering :=
  match a.compare b with
  | some o => o
  | none => (Ord.compare a.typeRank b.typeRank).then (orderWithinRank a b)

/-- Whether the values are the same in type and content; a NaN is not the same as itself. -/
def same : Value → Value → Bool
  | null, null => true
  | bool a, bool b => a == b
  | int a, int b => a == b
  | float a, float b => a.toFloat == b.toFloat
  | text a, text b => a == b
  | date a, date b => a == b
  | _, _ => false

/-- The integer that the low 32 bits of `n` hold as a signed word. -/
def ofSigned32 (n : Int) : Value := int (Int32.ofInt n).toInt64

/-- The integer that the low 32 bits of `n` hold as an unsigned word. -/
def ofUnsigned32 (n : Int) : Value := int (UInt32.ofInt n).toUInt64.toInt64

/-- A value that may be absent. -/
def ofOption (v : Option Value) : Value := v.getD null

end Value

end Concordance
