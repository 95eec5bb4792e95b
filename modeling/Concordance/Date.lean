import Concordance.Decimal.Reader
import Concordance.Text.Classes

/-!
# Calendar dates

A `Date` is a day of the proleptic Gregorian calendar, years `0` and below included, within a
span of about 262 thousand years to either side. The type holds only days that exist
(`Date.IsDay`). Dates are ordered by year, month and day, which is the order of time.

`Date.text` writes the form `YYYY-MM-DD`; `Date.read?` also reads shorter and spaced spellings of
it, and a signed year of any length.
-/

namespace Concordance

namespace Date

/-- The first year that a date may lie in. -/
def minYear : Int := -262143

/-- The last year that a date may lie in. -/
def maxYear : Int := 262142

/-- Whether the Gregorian calendar gives the year a 29th of February. -/
def isLeap (year : Int) : Bool :=
  year % 4 == 0 && (year % 100 != 0 || year % 400 == 0)

/-- The number of days of a month; `0` for a number that is no month. -/
def daysIn (year : Int) (month : Nat) : Nat :=
  match month with
  | 1 | 3 | 5 | 7 | 8 | 10 | 12 => 31
  | 4 | 6 | 9 | 11 => 30
  | 2 => if isLeap year then 29 else 28
  | _ => 0

/-- Whether the numbers name a day of the calendar. -/
def IsDay (year : Int) (month day : Nat) : Prop :=
  minYear ≤ year ∧ year ≤ maxYear ∧ 1 ≤ day ∧ day ≤ daysIn year month

instance (year : Int) (month day : Nat) : Decidable (IsDay year month day) :=
  inferInstanceAs (Decidable (_ ∧ _ ∧ _ ∧ _))

end Date

/-- A day of the calendar. -/
structure Date where
  /-- The year; `0` is the year before year 1. -/
  year : Int
  /-- The month, from 1 to 12. -/
  month : Nat
  /-- The day of the month, from 1. -/
  day : Nat
  /-- The day exists. -/
  isDay : Date.IsDay year month day := by decide
  deriving DecidableEq

namespace Date

/-- The day with these numbers, if there is one. -/
def of? (year : Int) (month day : Nat) : Option Date :=
  if h : IsDay year month day then some ⟨year, month, day, h⟩ else none

/-- Earlier, same or later. -/
def compare (a b : Date) : Ordering :=
  (Ord.compare a.year b.year).then ((Ord.compare a.month b.month).then (Ord.compare a.day b.day))

/-! ## Writing -/

/-- The digits of `n`, with zeros in front up to `width`. -/
def padded (width n : Nat) : String :=
  let ds := Nat.toDigits 10 n
  String.ofList (List.replicate (width - ds.length) '0' ++ ds)

/-- The year with at least four digits; a year outside `0` to `9999` has a sign. -/
def yearText (year : Int) : String :=
  if year < 0 then "-" ++ padded 4 year.natAbs
  else if year ≤ 9999 then padded 4 year.natAbs
  else "+" ++ padded 4 year.natAbs

/-- The date as year, month and day with hyphens between. -/
def text (d : Date) : String :=
  yearText d.year ++ "-" ++ padded 2 d.month ++ "-" ++ padded 2 d.day

/-! ## Reading -/

/-- Reads at least one and at most `width` digits, leaving the rest; white space may stand before
them. -/
def number? (width : Nat) (cs : List Char) : Option (Nat × List Char) :=
  let cs := cs.dropWhile Text.isBlank
  match (cs.take width).takeWhile Char.isDigit with
  | [] => none
  | ds => some (Decimal.ofDigits 0 ds, cs.drop ds.length)

/-- Reads a year: at most four digits, or a sign and any number of digits. -/
def year? (cs : List Char) : Option (Int × List Char) :=
  let signed (negative : Bool) (cs : List Char) : Option (Int × List Char) :=
    match cs.takeWhile Char.isDigit with
    | [] => none
    | ds =>
      let n : Int := Decimal.ofDigits 0 ds
      some (if negative then -n else n, cs.drop ds.length)
  match cs.dropWhile Text.isBlank with
  | '-' :: cs => signed true cs
  | '+' :: cs => signed false cs
  | cs => (number? 4 cs).map fun (n, cs) => ((n : Int), cs)

/-- Reads a hyphen; white space may stand before it. -/
def hyphen? (cs : List Char) : Option (List Char) :=
  match cs.dropWhile Text.isBlank with
  | '-' :: cs => some cs
  | _ => none

/-- Reads a date: year, month and day with hyphens between, white space around each ignored. -/
def read? (s : String) : Option Date := do
  let (year, cs) ← year? s.toList
  let (month, cs) ← number? 2 (← hyphen? cs)
  let (day, cs) ← number? 2 (← hyphen? cs)
  if cs.all Text.isBlank then of? year month day else none

end Date

end Concordance
