/-!
# The fewest digits that read back

A finite binary floating point number is `± mantissa · 2 ^ exponent`. Its neighbours are one unit
of the mantissa away, except that below a power of two the distance is half of that
(`nearBelow`); this is what decides which decimals read back as the number.

A decimal reads back as a floating point number when it lies in the interval of reals that round
to that number; the ends of the interval belong to it when the mantissa is even. `shortest` finds
the least number of significant digits for which some decimal lies there, and of the decimals
with so many digits the one nearest to the number. If a grid has a point in the interval, one of
the two grid points around the number lies there, so it is enough to test those two.
-/

namespace Concordance.Decimal

/-! ## Numbers taken apart -/

/-- A floating point number, taken apart. -/
inductive Binary where
  | nan
  | infinite (negative : Bool)
  | finite (negative : Bool) (mantissa : Nat) (exponent : Int) (nearBelow : Bool)

/-- Takes apart a bit pattern of one sign bit, `width` exponent bits and `places` bits of
fraction. -/
def Binary.ofBits (width places bits : Nat) : Binary :=
  let fraction := bits % Nat.pow 2 places
  let field := bits / Nat.pow 2 places % Nat.pow 2 width
  let negative := bits / Nat.pow 2 (places + width) % 2 == 1
  let bias : Int := Nat.pow 2 (width - 1) - 1 + places
  if field = Nat.pow 2 width - 1 then
    if fraction = 0 then .infinite negative else .nan
  else if field = 0 then .finite negative fraction (1 - bias) false
  else .finite negative (fraction + Nat.pow 2 places) (field - bias) (fraction == 0 && 1 < field)

/-- A double precision number, taken apart. -/
def Binary.ofFloat (x : Float) : Binary := .ofBits 11 52 x.toBits.toNat

/-- A single precision number, taken apart. -/
def Binary.ofFloat32 (x : Float32) : Binary := .ofBits 8 23 x.toBits.toNat

/-! ## Decimals that read back -/

/-- Which of two decimals equally near to a number is chosen. -/
inductive Tie where
  | up
  | even
  deriving DecidableEq

/-- The number of decimal digits of `n`; `0` has none. -/
def digitCount (n : Nat) : Nat :=
  if n = 0 then 0 else (Nat.toDigits 10 n).length

/-- The `p` with `10 ^ p ≤ num / den < 10 ^ (p + 1)`, for positive `num` and `den`. -/
def leadingExponent (num den : Nat) : Int :=
  if den ≤ num then (digitCount (num / den) : Int) - 1
  else -(digitCount ((den + num - 1) / num - 1) : Int)

/-- The decimal `c · 10 ^ t` of the grid of step `10 ^ t` that reads back as
`mantissa · 2 ^ exponent`, nearest first; none if the grid has no such point. -/
def readsBackAt (tie : Tie) (mantissa : Nat) (exponent : Int) (nearBelow : Bool) (t : Int) :
    Option Nat :=
  -- all quantities are quarters of a unit of the mantissa, scaled to natural numbers
  let grid := Nat.pow 10 t.toNat * Nat.pow 2 (2 - exponent).toNat
  let unit := Nat.pow 10 (-t).toNat * Nat.pow 2 (exponent - 2).toNat
  let value := 4 * mantissa * unit
  let low := (4 * mantissa - if nearBelow then 1 else 2) * unit
  let high := (4 * mantissa + 2) * unit
  let inside (c : Nat) : Bool :=
    if mantissa % 2 = 0 then low ≤ c * grid && c * grid ≤ high
    else low < c * grid && c * grid < high
  let down := value / grid
  let up := down + 1
  match inside down, inside up with
  | true, false => some down
  | false, true => some up
  | false, false => none
  | true, true =>
    let below := value - down * grid
    let above := up * grid - value
    if below < above then some down
    else if above < below then some up
    else match tie with
      | .up => some up
      | .even => some (if down % 2 = 0 then down else up)

/-- Drops the zeros at the end of `digits`, counting them into the exponent. -/
def trimZeros : Nat → Nat → Int → Nat × Int
  | 0, digits, t => (digits, t)
  | fuel + 1, digits, t =>
    if digits ≠ 0 ∧ digits % 10 = 0 then trimZeros fuel (digits / 10) (t + 1) else (digits, t)

/-- The digits `d` and the exponent `t` of the shortest decimal `d · 10 ^ t` that reads back as
`mantissa · 2 ^ exponent`; seventeen digits always do. -/
def shortest (tie : Tie) (mantissa : Nat) (exponent : Int) (nearBelow : Bool) : Nat × Int :=
  if mantissa = 0 then (0, 0)
  else
    let p := leadingExponent (mantissa * Nat.pow 2 exponent.toNat) (Nat.pow 2 (-exponent).toNat)
    let found := (List.range 17).findSome? fun (n : Nat) =>
      let t := p - n
      (readsBackAt tie mantissa exponent nearBelow t).map (·, t)
    match found with
    | some (digits, t) => trimZeros 20 digits t
    | none => (0, 0)

end Concordance.Decimal
