import Concordance.Decimal.Shortest

/-!
# Written forms of decimals

A `Style` says how the digits of a number are laid out: where positional notation gives way to an
exponent, whether a whole number keeps a point and a zero, and which way ties go. `Style.text`
writes any floating point number in a style.
-/

namespace Concordance.Decimal

/-- How a floating point number is written. -/
structure Style where
  /-- The choice between two equally near decimals. -/
  tie : Tie
  /-- Whether a whole number in positional notation ends in `.0`. -/
  keepsPoint : Bool
  /-- Whether positional notation is used when the point stands this many places after the first
  digit; `none` means always. -/
  positional : Option (Int × Int)

/-- Positional notation throughout and nothing after a whole number. -/
def Style.plain : Style := ⟨.up, false, none⟩

/-- Positional notation throughout, and a whole number keeps its point. -/
def Style.pointed : Style := ⟨.up, true, none⟩

/-- Positional notation from a ten-thousandth to below `10 ^ 16`. -/
def Style.diagnostic : Style := ⟨.up, true, some (-3, 16)⟩

/-- Positional notation from a hundred-thousandth to below `10 ^ 16`, ties to even. -/
def Style.exchange : Style := ⟨.even, true, some (-4, 16)⟩

/-- `n` zeros. -/
def zeros (n : Nat) : String := String.ofList (List.replicate n '0')

/-- The decimal `digits · 10 ^ t` in positional notation. -/
def writePositional (keepsPoint : Bool) (digits : Nat) (t : Int) : String :=
  let ds := toString digits
  if 0 ≤ t then
    ds ++ zeros t.toNat ++ (if keepsPoint then ".0" else "")
  else
    let places := (-t).toNat
    if places < ds.length then
      let cs := ds.toList
      String.ofList (cs.take (cs.length - places)) ++ "." ++
        String.ofList (cs.drop (cs.length - places))
    else "0." ++ zeros (places - ds.length) ++ ds

/-- The decimal `digits · 10 ^ t` with one digit before the point and an exponent. -/
def writeScientific (digits : Nat) (t : Int) : String :=
  let ds := toString digits
  let exponent := toString (t + ds.length - 1)
  match ds.toList with
  | c :: [] => String.ofList [c] ++ "e" ++ exponent
  | c :: cs => String.ofList [c] ++ "." ++ String.ofList cs ++ "e" ++ exponent
  | [] => ""

/-- A number taken apart, written in a style. -/
def Style.text (s : Style) : Binary → String
  | .nan => "NaN"
  | .infinite negative => if negative then "-inf" else "inf"
  | .finite negative mantissa exponent nearBelow =>
    let (digits, t) := shortest s.tie mantissa exponent nearBelow
    let point := t + (toString digits).length
    let isPositional := match s.positional with
      | none => true
      | some (least, most) => mantissa == 0 || (least ≤ point && point ≤ most)
    (if negative then "-" else "") ++
      if isPositional then writePositional s.keepsPoint digits t else writeScientific digits t

end Concordance.Decimal
