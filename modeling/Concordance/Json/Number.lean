import Concordance.Decimal.Reader
import Concordance.Json.Basic
import Concordance.Value

/-!
# Numbers in JSON text

A numeral without point and exponent is an integer if 64 bits hold it, signed or unsigned;
`-0` and all other numerals are floating point numbers. Of their digits only as many count as fit
in 64 bits, and the significand so found is multiplied or divided by one power of ten, in double
precision. A product that overflows makes the number unreadable.
-/

namespace Concordance.Json

/-- A numeral as written. -/
structure NumberText where
  negative : Bool
  /-- The digits before the point. -/
  whole : List Char
  /-- The digits after the point; none without a point. -/
  places : List Char
  /-- The exponent, if there is one. -/
  exponent : Option Int
  /-- Whether there is a point. -/
  hasPoint : Bool

/-- Appends digits to a number for as long as 64 bits hold it, and counts the digits taken. -/
def takeFitting (n taken : Nat) : List Char → Nat × Nat
  | [] => (n, taken)
  | c :: cs =>
    let next := 10 * n + (c.toNat - '0'.toNat)
    if next < UInt64.size then takeFitting next (taken + 1) cs else (n, taken)

/-- A power of ten, rounded. -/
def powerOfTen (n : Nat) : Float := Float.ofScientific 1 false n

/-- Scales by a power of ten; exponents below the range of the format are approached in steps. -/
def scaleByTen : Nat → Float → Int → Option Float
  | 0, x, _ => some x
  | fuel + 1, x, e =>
    if e.natAbs ≤ 308 then
      if 0 ≤ e then
        let y := x * powerOfTen e.natAbs
        if y.isInf then none else some y
      else some (x / powerOfTen e.natAbs)
    else if x == 0.0 then some x
    else if 0 ≤ e then none
    else scaleByTen fuel (x / powerOfTen 308) (e + 308)

/-- The value of a numeral. -/
def NumberText.value (t : NumberText) : Json :=
  let (n, taken) := takeFitting 0 0 t.whole
  let dropped := t.whole.length - taken
  let signed : Int := if t.negative then -n else n
  if !t.hasPoint && t.exponent.isNone && dropped == 0 &&
      (!t.negative || (0 < n && (signed64? signed).isSome)) then
    .int signed
  else
    let (n, taken) := takeFitting n 0 t.places
    -- four steps take every significand to zero
    match scaleByTen 4 n.toUInt64.toFloat (dropped - taken + t.exponent.getD 0) with
    | some x => .float (if t.negative then -x else x)
    | none => .unreadable

end Concordance.Json
