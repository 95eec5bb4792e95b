import Concordance.Date
import Concordance.Proofs.Decimal.Notation

/-!
# Dates read back from their text

`Date.read?` undoes `Date.text` over the whole span of dates. Month and day are padded to two digits
and read to that width. A year from `0` to `9999` has four digits and is read to that width; any
other has a sign, and then all digits before the hyphen count.

* **`number?_padded`**: a padded number is read to its width, whatever follows.
* **`year?_yearText`**: every year is read from its text, whatever follows that is no digit.
* **`read?_text`**: the text of a date reads as the date.
-/

namespace Concordance.Date

open Decimal

variable {width n : Nat} {ds : List Char} {rest : List Char}

/-! ## Padded numbers -/

theorem toList_padded : (padded width n).toList =
    List.replicate (width - (Nat.toDigits 10 n).length) '0' ++ Nat.toDigits 10 n := by
  unfold padded
  rw [String.toList_ofList]

theorem digits_padded (width n : Nat) : Digits (padded width n).toList := by
  rw [toList_padded]
  exact (digits_zeros _).append (digits_toDigits n)

theorem padded_ne_nil (width n : Nat) : (padded width n).toList ≠ [] := by
  rw [toList_padded]
  exact List.append_ne_nil_of_right_ne_nil _ Nat.toDigits_ne_nil

theorem ofDigits_padded (width n : Nat) : ofDigits 0 (padded width n).toList = n := by
  rw [toList_padded, ofDigits_append, ofDigits_zeros, Nat.mul_zero, ofDigits_toDigits]

/-- A number that fits is padded to the width. -/
theorem length_padded (hwidth : 0 < width) (h : n < 10 ^ width) :
    (padded width n).toList.length = width := by
  have hfits := (Nat.length_toDigits_le_iff (b := 10) (by decide) hwidth).mpr h
  rw [toList_padded, List.length_append, List.length_replicate]
  omega

/-! ## Parts of a date -/

/-- No visible ASCII character is white space. -/
theorem isBlank_of_visible {c : Char} (h : 0x20 < c.toNat ∧ c.toNat < 0x7F) :
    Text.isBlank c = false := by
  simp [Text.isBlank, Text.inRanges, Text.blankRanges]
  omega

theorem isBlank_of_isDigit {c : Char} (h : c.isDigit = true) : Text.isBlank c = false := by
  have hrange : 48 ≤ c.toNat ∧ c.toNat ≤ 57 := by
    simpa [Char.isDigit, UInt32.le_iff_toNat_le] using h
  exact isBlank_of_visible (by omega)

/-- No white space stands before a sign. -/
theorem dropWhile_sign {c : Char} (hc : c = '-' ∨ c = '+') (cs : List Char) :
    (c :: cs).dropWhile Text.isBlank = c :: cs := by
  have hvisible : 0x20 < c.toNat ∧ c.toNat < 0x7F := by
    obtain rfl | rfl := hc <;> decide
  exact List.dropWhile_cons_of_neg (by simp [isBlank_of_visible hvisible])

/-- Nor before digits. -/
theorem dropWhile_isBlank (hds : Digits ds) (hne : ds ≠ []) (rest : List Char) :
    (ds ++ rest).dropWhile Text.isBlank = ds ++ rest := by
  obtain ⟨d, ds, rfl⟩ := List.exists_cons_of_ne_nil hne
  have hd := isBlank_of_isDigit (hds d List.mem_cons_self)
  exact List.dropWhile_cons_of_neg (by simp [hd])

theorem takeWhile_isDigit (hds : Digits ds) (hrest : ∀ c ∈ rest.head?, c.isDigit = false) :
    (ds ++ rest).takeWhile Char.isDigit = ds := by
  have hspan := takeDigits_append hds hrest
  unfold takeDigits at hspan
  rw [List.span_eq_takeWhile_dropWhile] at hspan
  exact congrArg Prod.fst hspan

/-- **A padded number is read to its width, whatever follows.** -/
theorem number?_padded (hwidth : 0 < width) (h : n < 10 ^ width) (rest : List Char) :
    number? width ((padded width n).toList ++ rest) = some (n, rest) := by
  have hdigits := digits_padded width n
  have hne := padded_ne_nil width n
  have hlength := length_padded hwidth h
  have hvalue := ofDigits_padded width n
  unfold number?
  dsimp only
  rw [dropWhile_isBlank hdigits hne, List.take_append_of_le_length hlength.ge,
    List.take_of_length_le hlength.le, List.takeWhile_eq_self_iff.mpr hdigits]
  split
  · rename_i heq
    exact absurd heq hne
  · rw [hvalue, List.drop_left]

/-- Behind a sign all digits are read. -/
theorem year?_signed (negative : Bool) (hds : Digits ds) (hne : ds ≠ [])
    (hrest : ∀ c ∈ rest.head?, c.isDigit = false) :
    year? ((if negative then '-' else '+') :: (ds ++ rest)) =
      some (if negative then -(ofDigits 0 ds : Int) else ofDigits 0 ds, rest) := by
  obtain ⟨d, ds, rfl⟩ := List.exists_cons_of_ne_nil hne
  have hdigits := takeWhile_isDigit hds hrest
  have hdrop : (d :: ds ++ rest).drop (d :: ds).length = rest := List.drop_left
  unfold year?
  cases negative with
  | true => simp only [if_true, dropWhile_sign (.inl rfl), hdigits, hdrop]
  | false =>
    simp only [Bool.false_eq_true, if_false, dropWhile_sign (.inr rfl), hdigits, hdrop]

/-- Without a sign, a year is a number of four digits. -/
theorem year?_digits (hds : Digits ds) (hne : ds ≠ []) (rest : List Char) :
    year? (ds ++ rest) = (number? 4 (ds ++ rest)).map fun (n, cs) => ((n : Int), cs) := by
  unfold year?
  simp only [dropWhile_isBlank hds hne rest]
  split
  · rename_i heq
    exact absurd (isDigit_first hds hne heq) (by decide)
  · rename_i heq
    exact absurd (isDigit_first hds hne heq) (by decide)
  · rfl

/-- **A year is read from its text**, whatever follows that is no digit. -/
theorem year?_yearText (year : Int) (hrest : ∀ c ∈ rest.head?, c.isDigit = false) :
    year? ((yearText year).toList ++ rest) = some (year, rest) := by
  have hdigits := digits_padded 4 year.natAbs
  have hne := padded_ne_nil 4 year.natAbs
  have hvalue := ofDigits_padded 4 year.natAbs
  unfold yearText
  split
  · rename_i hneg
    have hread := year?_signed true hdigits hne hrest
    rw [hvalue, if_pos rfl, if_pos rfl, show -(year.natAbs : Int) = year by omega] at hread
    have hsign : "-".toList = ['-'] := rfl
    rw [String.toList_append, hsign, List.append_assoc, List.singleton_append]
    exact hread
  · rename_i hpos
    split
    · rename_i hfour
      -- four digits are all that is read of a year without a sign
      rw [year?_digits hdigits hne, number?_padded (by decide) (by omega), Option.map_some]
      dsimp only
      rw [show (year.natAbs : Int) = year by omega]
    · have hread := year?_signed false hdigits hne hrest
      rw [hvalue, if_neg (by decide), if_neg (by decide),
        show (year.natAbs : Int) = year by omega] at hread
      have hsign : "+".toList = ['+'] := rfl
      rw [String.toList_append, hsign, List.append_assoc, List.singleton_append]
      exact hread

/-! ## Dates -/

/-- Only twelve months have days, and none has more than 31. -/
theorem daysIn_bounds (year : Int) (month : Nat) :
    daysIn year month ≤ 31 ∧ (0 < daysIn year month → month ≤ 12) := by
  unfold daysIn
  split
  case h_12 => split <;> exact ⟨by decide, fun _ => by decide⟩
  case h_13 => exact ⟨by decide, fun h => absurd h (by decide)⟩
  all_goals exact ⟨by decide, fun _ => by decide⟩

/-- Month and day have two digits. -/
theorem two_digits (d : Date) : d.month < 10 ^ 2 ∧ d.day < 10 ^ 2 := by
  obtain ⟨-, -, hfirst, hlast⟩ := d.isDay
  obtain ⟨hdays, hmonth⟩ := daysIn_bounds d.year d.month
  have := hmonth (by omega)
  omega

/-- **The text of a date reads as the date.** -/
theorem read?_text (d : Date) : read? d.text = some d := by
  have htext : d.text.toList = (yearText d.year).toList ++ '-' ::
      ((padded 2 d.month).toList ++ '-' :: ((padded 2 d.day).toList ++ [])) := by
    unfold text
    simp
  have hhyphen : ∀ cs, hyphen? ('-' :: cs) = some cs := by
    intro cs
    unfold hyphen?
    rw [dropWhile_sign (.inl rfl)]
    rfl
  obtain ⟨hmonth, hday⟩ := d.two_digits
  have hday? : of? d.year d.month d.day = some d := dif_pos d.isDay
  unfold read?
  rw [htext, year?_yearText _ fun c hc => by cases hc; rfl]
  simp only [Option.bind_eq_bind, Option.bind_some, hhyphen, number?_padded Nat.two_pos hmonth,
    number?_padded Nat.two_pos hday]
  exact hday?

end Concordance.Date
