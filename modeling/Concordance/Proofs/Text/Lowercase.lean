import Concordance.Text.Classes
import Concordance.Text.Lowercase
import Mathlib

/-!
# What the lower case of a text consists of

The lower case of a text has no upper case left in it, so it is its own lower case
(`lowercase_lowercase`). This is read off the table of single mappings, row by row: no row maps what
a row maps to (`rows_apart`). Both small sigmas are lower case, and so are the two characters that
the dotted capital I becomes.

Letters and numbers become letters and numbers, with one exception: the second character that the
dotted capital I becomes is a combining dot, which is neither.

* **`lowercase_lowercase`**: a text in lower case stays as it is.
* **`forall_isAlphanumeric_lowercase_iff`**: the lower case of letters and numbers consists of
  letters and numbers exactly if there is no dotted capital I among them.
-/

namespace Concordance.Text

/-- The dot that is left over from a dotted capital I. -/
def combiningDot : Char := '\u0307'

/-! ## The table -/

/-- Whether a row of the table maps a character, given by its number. -/
def MapsNumber (row : Nat × Nat × Nat × Nat) (n : Nat) : Prop :=
  row.1 ≤ n ∧ n ≤ row.2.1 ∧ (n - row.1) % row.2.2.1 = 0

/-- The number that a row of the table maps a number to. -/
def mappedNumber (row : Nat × Nat × Nat × Nat) (n : Nat) : Nat := row.2.2.2 + (n - row.1)

/-- **No row maps what a row maps to.** The range of the one does not meet the targets of the other,
or only every second character of both is concerned, and these fall between each other. -/
theorem rows_apart : (lowercaseRows.all fun (first, last, step, target) =>
    lowercaseRows.all fun (first', last', step', _) =>
      Nat.blt (target + (last - first)) first' || Nat.blt last' target ||
        (Nat.beq step' 2 && (Nat.beq step 2 || Nat.beq first last) &&
          Nat.beq ((target + first') % 2) 1)) = true := by
  decide +kernel

/-- What a row maps to are letters and numbers. -/
theorem targets_isAlphanumeric : (lowercaseRows.all fun (first, last, _, target) =>
    alphanumericRanges.any fun (low, high) =>
      Nat.ble low target && Nat.ble (target + (last - first)) high) = true := by
  decide +kernel

/-- What a row maps to are characters, and none of them is the dotted capital I. -/
theorem targets_isChar : (lowercaseRows.all fun (first, last, _, target) =>
    (Nat.blt (target + (last - first)) 0xD800 ||
      (Nat.ble 0xE000 target && Nat.blt (target + (last - first)) 0x110000)) &&
    (Nat.blt (target + (last - first)) 0x130 || Nat.blt 0x130 target)) = true := by
  decide +kernel

section Rows

variable {row other : Nat × Nat × Nat × Nat} {n : Nat}

theorem not_mapsNumber_mappedNumber (hrow : row ∈ lowercaseRows) (hother : other ∈ lowercaseRows)
    (hn : MapsNumber row n) : ¬MapsNumber other (mappedNumber row n) := by
  have hapart := List.all_eq_true.mp (List.all_eq_true.mp rows_apart row hrow) other hother
  obtain ⟨first, last, step, target⟩ := row
  obtain ⟨first', last', step', target'⟩ := other
  simp only [Bool.or_eq_true, Bool.and_eq_true, Nat.blt_eq, Nat.beq_eq] at hapart
  obtain ⟨hfirst, hlast, hstep⟩ := hn
  rintro ⟨hfirst', hlast', hstep'⟩
  simp only [mappedNumber] at hfirst hlast hstep hfirst' hlast' hstep'
  obtain (hbelow | habove) | ⟨⟨rfl, rfl | rfl⟩, hparity⟩ := hapart
  · omega
  · omega
  · omega
  · omega

theorem isValidChar_mappedNumber (hrow : row ∈ lowercaseRows) (hn : MapsNumber row n) :
    (mappedNumber row n).isValidChar ∧ mappedNumber row n ≠ 'İ'.toNat := by
  have htarget := List.all_eq_true.mp targets_isChar row hrow
  obtain ⟨first, last, step, target⟩ := row
  simp only [Bool.or_eq_true, Bool.and_eq_true, Nat.blt_eq, Nat.ble_eq] at htarget
  obtain ⟨hfirst, hlast, -⟩ := hn
  simp only [mappedNumber, Nat.isValidChar, show 'İ'.toNat = 0x130 from rfl] at hfirst hlast ⊢
  omega

theorem isAlphanumeric_mappedNumber (hrow : row ∈ lowercaseRows) (hn : MapsNumber row n) {c : Char}
    (hc : c.toNat = mappedNumber row n) : isAlphanumeric c = true := by
  obtain ⟨range, hrange, hin⟩ :=
    List.any_eq_true.mp (List.all_eq_true.mp targets_isAlphanumeric row hrow)
  obtain ⟨first, last, step, target⟩ := row
  obtain ⟨low, high⟩ := range
  simp only [Bool.and_eq_true, Nat.ble_eq] at hin
  obtain ⟨hfirst, hlast, -⟩ := hn
  simp only [mappedNumber] at hfirst hlast hc
  refine List.any_eq_true.mpr ⟨(low, high), hrange, ?_⟩
  simp only [Bool.and_eq_true, decide_eq_true_eq]
  omega

end Rows

/-! ## Single characters -/

variable {c : Char} {cs : List Char}

/-- A character is mapped by a row of the table, or it stays as it is since none maps it. -/
theorem lowercaseChar_cases (c : Char) :
    (∃ row ∈ lowercaseRows, MapsNumber row c.toNat ∧
      (lowercaseChar c).toNat = mappedNumber row c.toNat) ∨
    ((∀ row ∈ lowercaseRows, ¬MapsNumber row c.toNat) ∧ lowercaseChar c = c) := by
  unfold lowercaseChar
  dsimp only
  split
  · rename_i first last step target hfind
    have hrow := List.mem_of_find?_eq_some hfind
    have hmaps : MapsNumber (first, last, step, target) c.toNat := by
      have hholds := List.find?_some hfind
      simp only [Bool.and_eq_true, decide_eq_true_eq, beq_iff_eq] at hholds
      exact ⟨hholds.1.1, hholds.1.2, hholds.2⟩
    refine Or.inl ⟨_, hrow, hmaps, ?_⟩
    exact (Char.toNat_ofNat _).trans (if_pos (isValidChar_mappedNumber hrow hmaps).1)
  · rename_i hfind
    refine Or.inr ⟨fun row hrow hmaps => ?_, rfl⟩
    refine List.find?_eq_none.mp hfind row hrow ?_
    obtain ⟨hfirst, hlast, hstep⟩ := hmaps
    simp [hfirst, hlast, hstep]

/-- A lower case character is its own lower case, and not one that is mapped apart from the
table. -/
structure IsLower (c : Char) : Prop where
  mapped : lowercaseChar c = c
  not_dotted : c ≠ 'İ'

theorem IsLower.ne_sigma (h : IsLower c) : c ≠ 'Σ' := by
  rintro rfl
  exact absurd h.mapped (by decide +kernel)

/-- **The lower case of a character is a lower case character.** -/
theorem isLower_lowercaseChar (hc : c ≠ 'İ') : IsLower (lowercaseChar c) := by
  obtain ⟨row, hrow, hmaps, hn⟩ | ⟨-, hsame⟩ := lowercaseChar_cases c
  · refine ⟨?_, fun hdotted => (isValidChar_mappedNumber hrow hmaps).2 (hn ▸ congrArg _ hdotted)⟩
    obtain ⟨other, hother, hmaps', -⟩ | ⟨-, hsame⟩ := lowercaseChar_cases (lowercaseChar c)
    · exact absurd (hn ▸ hmaps') (not_mapsNumber_mappedNumber hrow hother hmaps)
    · exact hsame
  · exact ⟨by rw [hsame, hsame], by rwa [hsame]⟩

/-- The lower case of a letter or number is one. -/
theorem isAlphanumeric_lowercaseChar (h : isAlphanumeric c = true) :
    isAlphanumeric (lowercaseChar c) = true := by
  obtain ⟨row, hrow, hmaps, hn⟩ | ⟨-, hsame⟩ := lowercaseChar_cases c
  · exact isAlphanumeric_mappedNumber hrow hmaps hn
  · rwa [hsame]

theorem isAlphanumeric_combiningDot : isAlphanumeric combiningDot = false := by decide +kernel

/-! ## Texts -/

/-- What a character is mapped to, after and before other ones. -/
def mapped (before : List Char) (c : Char) (after : List Char) : List Char :=
  if c = 'Σ' then [if endsWord before after then 'ς' else 'σ']
  else if c = 'İ' then ['i', combiningDot]
  else [lowercaseChar c]

theorem lowercaseAfter_cons (before : List Char) (c : Char) (rest : List Char) :
    lowercaseAfter before (c :: rest) = mapped before c rest ++ lowercaseAfter (c :: before) rest :=
  rfl

/-- A property of everything that single characters are mapped to holds of the lower case. -/
theorem forall_mem_lowercaseAfter {P : Char → Prop}
    (h : ∀ c ∈ cs, ∀ before after, ∀ d ∈ mapped before c after, P d) (before : List Char) :
    ∀ d ∈ lowercaseAfter before cs, P d := by
  induction cs generalizing before with
  | nil => exact fun d hd => nomatch hd
  | cons c rest ih =>
    obtain ⟨hc, hrest⟩ := List.forall_mem_cons.mp h
    rw [lowercaseAfter_cons, List.forall_mem_append]
    exact ⟨hc before rest, ih hrest (c :: before)⟩

theorem isLower_of_mem_mapped (before after : List Char) {d : Char}
    (hd : d ∈ mapped before c after) : IsLower d := by
  have hparts : IsLower 'ς' ∧ IsLower 'σ' ∧ IsLower 'i' ∧ IsLower combiningDot := by
    refine ⟨⟨?_, by decide⟩, ⟨?_, by decide⟩, ⟨?_, by decide⟩, ⟨?_, by decide⟩⟩ <;>
      decide +kernel
  obtain ⟨hfinal, hsigma, hi, hdot⟩ := hparts
  unfold mapped at hd
  split at hd
  · obtain rfl := List.mem_singleton.mp hd
    split <;> assumption
  split at hd
  · simp only [List.mem_cons, List.not_mem_nil, or_false] at hd
    obtain rfl | rfl := hd <;> assumption
  · rename_i hdotted
    rw [List.mem_singleton.mp hd]
    exact isLower_lowercaseChar hdotted

/-- Where all characters are lower case, nothing is mapped. -/
theorem lowercaseAfter_of_isLower (h : ∀ c ∈ cs, IsLower c) (before : List Char) :
    lowercaseAfter before cs = cs := by
  induction cs generalizing before with
  | nil => rfl
  | cons c rest ih =>
    obtain ⟨hc, hrest⟩ := List.forall_mem_cons.mp h
    rw [lowercaseAfter_cons, ih hrest, mapped, if_neg hc.ne_sigma, if_neg hc.not_dotted, hc.mapped,
      List.singleton_append]

/-- The lower case of a text consists of lower case characters. -/
theorem isLower_of_mem_lowercase : ∀ d ∈ lowercase cs, IsLower d :=
  forall_mem_lowercaseAfter (fun _ _ before after _ hd => isLower_of_mem_mapped before after hd) []

/-- **A text in lower case stays as it is.** -/
theorem lowercase_lowercase (cs : List Char) : lowercase (lowercase cs) = lowercase cs :=
  lowercaseAfter_of_isLower isLower_of_mem_lowercase []

/-- No text gets shorter. -/
theorem length_le_length_lowercase (cs : List Char) : cs.length ≤ (lowercase cs).length := by
  suffices ∀ before, cs.length ≤ (lowercaseAfter before cs).length from this []
  intro before
  induction cs generalizing before with
  | nil => exact Nat.le_refl 0
  | cons c rest ih =>
    have hmapped : 1 ≤ (mapped before c rest).length := by
      unfold mapped
      split
      · exact Nat.le_refl 1
      · split
        · exact Nat.le_succ 1
        · exact Nat.le_refl 1
    have := ih (c :: before)
    rw [lowercaseAfter_cons, List.length_append, List.length_cons]
    omega

/-! ## Letters and numbers -/

/-- A letter or number becomes letters and numbers, or an i and the combining dot. -/
theorem mapped_of_isAlphanumeric (h : isAlphanumeric c = true) (before after : List Char) {d : Char}
    (hd : d ∈ mapped before c after) :
    isAlphanumeric d = true ∨ (d = combiningDot ∧ c = 'İ') := by
  have hparts : isAlphanumeric 'ς' = true ∧ isAlphanumeric 'σ' = true ∧
      isAlphanumeric 'i' = true := by decide +kernel
  obtain ⟨hfinal, hsigma, hi⟩ := hparts
  unfold mapped at hd
  split at hd
  · obtain rfl := List.mem_singleton.mp hd
    exact Or.inl (by split <;> assumption)
  split at hd
  · rename_i hdotted
    simp only [List.mem_cons, List.not_mem_nil, or_false] at hd
    rcases hd with rfl | rfl
    · exact Or.inl hi
    · exact Or.inr ⟨rfl, hdotted⟩
  · rw [List.mem_singleton.mp hd]
    exact Or.inl (isAlphanumeric_lowercaseChar h)

/-- The lower case of letters and numbers holds, beside letters and numbers, combining dots at
most. -/
theorem isAlphanumeric_of_mem_lowercase (h : ∀ c ∈ cs, isAlphanumeric c = true) :
    ∀ d ∈ lowercase cs, isAlphanumeric d = true ↔ d ≠ combiningDot := by
  refine forall_mem_lowercaseAfter (fun c hc before after d hd => ?_) []
  constructor
  · rintro hd rfl
    rw [isAlphanumeric_combiningDot] at hd
    nomatch hd
  · intro hdot
    exact (mapped_of_isAlphanumeric (h c hc) before after hd).resolve_right fun h => hdot h.1

theorem combiningDot_mem_lowercaseAfter (h : 'İ' ∈ cs) (before : List Char) :
    combiningDot ∈ lowercaseAfter before cs := by
  induction cs generalizing before with
  | nil => nomatch h
  | cons c rest ih =>
    rw [lowercaseAfter_cons, List.mem_append]
    rcases List.mem_cons.mp h with rfl | h
    · exact Or.inl (by simp [mapped])
    · exact Or.inr (ih h _)

/-- Of letters and numbers, only the dotted capital I leaves a combining dot. -/
theorem combiningDot_mem_lowercase_iff (h : ∀ c ∈ cs, isAlphanumeric c = true) :
    combiningDot ∈ lowercase cs ↔ 'İ' ∈ cs := by
  refine ⟨fun hdot => ?_, fun hdotted => combiningDot_mem_lowercaseAfter hdotted []⟩
  by_contra hnone
  have hall : ∀ d ∈ lowercase cs, d ≠ combiningDot := by
    refine forall_mem_lowercaseAfter (fun c hc before after d hd hdot => ?_) []
    rcases mapped_of_isAlphanumeric (h c hc) before after hd with halnum | ⟨-, rfl⟩
    · rw [hdot, isAlphanumeric_combiningDot] at halnum
      nomatch halnum
    · exact hnone hc
  exact hall _ hdot rfl

/-- **Letters and numbers stay letters and numbers**, unless there is a dotted capital I. -/
theorem forall_isAlphanumeric_lowercase_iff (h : ∀ c ∈ cs, isAlphanumeric c = true) :
    (∀ d ∈ lowercase cs, isAlphanumeric d = true) ↔ 'İ' ∉ cs := by
  rw [← combiningDot_mem_lowercase_iff h]
  constructor
  · intro hall hdot
    exact (isAlphanumeric_of_mem_lowercase h _ hdot).mp (hall _ hdot) rfl
  · intro hdot d hd
    refine (isAlphanumeric_of_mem_lowercase h d hd).mpr fun heq => hdot (heq ▸ hd)

end Concordance.Text
