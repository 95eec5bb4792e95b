/-!
# Reading decimals

A decimal `± digits · 10 ^ exponent` becomes the nearest floating point number, ties to the even
mantissa. Exponents far outside the range of the format are settled before any power is formed:
such a number is infinite or zero.
-/

namespace Concordance.Decimal

/-- A decimal number as written. -/
structure Numeral where
  /-- Whether a minus sign stands before it. -/
  negative : Bool
  /-- All digits, without the point. -/
  digits : Nat
  /-- The power of ten that the digits count. -/
  exponent : Int
  deriving DecidableEq

/-- The exponent of ten just above `n`: `n < 10 ^ magnitude n`. -/
def magnitude (n : Nat) : Int := (Nat.toDigits 10 n).length

/-- The nearest double precision number. -/
def Numeral.toFloat (x : Numeral) : Float :=
  let size := magnitude x.digits + x.exponent
  let unsigned :=
    if x.digits = 0 ∨ size < -400 then 0.0
    else if 400 < size then 1.0 / 0.0
    else Float.ofScientific x.digits (x.exponent < 0) x.exponent.natAbs
  if x.negative then -unsigned else unsigned

/-- The nearest single precision number. -/
def Numeral.toFloat32 (x : Numeral) : Float32 :=
  let size := magnitude x.digits + x.exponent
  let unsigned :=
    if x.digits = 0 ∨ size < -60 then 0.0
    else if 60 < size then 1.0 / 0.0
    else Float32.ofScientific x.digits (x.exponent < 0) x.exponent.natAbs
  if x.negative then -unsigned else unsigned

/-- The number that decimal digits write, most significant first, continuing after `start`. -/
def ofDigits (start : Nat) (cs : List Char) : Nat :=
  cs.foldl (fun n c => 10 * n + (c.toNat - '0'.toNat)) start

/-- Splits off the leading decimal digits. -/
def takeDigits (cs : List Char) : List Char × List Char := cs.span Char.isDigit

/-- Splits off a sign: whether it is a minus, and what follows. -/
def takeSign : List Char → Bool × List Char
  | '-' :: cs => (true, cs)
  | '+' :: cs => (false, cs)
  | cs => (false, cs)

/-- The exponent mark `e` and its digits at the end of a numeral; no mark means `0`. -/
def exponent? : List Char → Option Int
  | [] => some 0
  | c :: cs =>
    if c = 'e' ∨ c = 'E' then
      let (negative, cs) := takeSign cs
      let (digits, rest) := takeDigits cs
      if digits.isEmpty ∨ !rest.isEmpty then none
      else
        let n : Int := ofDigits 0 digits
        some (if negative then -n else n)
    else none

/-- Reads `[sign] digits [. digits] [e [sign] digits]`, with a digit before or after the point. -/
def Numeral.read? (cs : List Char) : Option Numeral :=
  let (negative, cs) := takeSign cs
  let (whole, cs) := takeDigits cs
  let (places, cs) := match cs with
    | '.' :: cs => takeDigits cs
    | cs => ([], cs)
  if whole.isEmpty ∧ places.isEmpty then none
  else (exponent? cs).map fun e =>
    ⟨negative, ofDigits (ofDigits 0 whole) places, e - places.length⟩

/-- The values that have names instead of digits, in any case, after an optional sign. -/
def special? (cs : List Char) : Option (Option Bool) :=
  let (negative, cs) := takeSign cs
  match String.ofList (cs.map Char.toLower) with
  | "nan" => some none
  | "inf" | "infinity" => some (some negative)
  | _ => none

/-- Reads a double precision number. -/
def readFloat? (s : String) : Option Float :=
  match special? s.toList with
  | some none => some (0.0 / 0.0)
  | some (some negative) => some (if negative then -1.0 / 0.0 else 1.0 / 0.0)
  | none => (Numeral.read? s.toList).map Numeral.toFloat

/-- Reads a single precision number. -/
def readFloat32? (s : String) : Option Float32 :=
  match special? s.toList with
  | some none => some (0.0 / 0.0)
  | some (some negative) => some (if negative then -1.0 / 0.0 else 1.0 / 0.0)
  | none => (Numeral.read? s.toList).map Numeral.toFloat32

end Concordance.Decimal
