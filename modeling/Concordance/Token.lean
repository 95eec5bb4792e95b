import Concordance.Text.Classes
import Concordance.Text.Lowercase

/-!
# Tokens

A token is the lower case of a maximal run of letters and numbers that has at least two
characters; shorter runs and everything between the runs are dropped. Stored values and query
terms are cut by the same rule, so a value and a term spelt alike agree.

Tokens can also be taken from a text one after the other. A `Scanner` holds what is left of the
text. It looks for the next letter or number and from there for the next character that is neither;
what lies between the two places is a run, and a run that is too short is passed over. Places are
positions in the encoded text. They are only found, never computed, so each stands between two
characters.
-/

namespace Concordance

/-- The length of the shortest run that is a token. -/
def minTokenLength : Nat := 2

/-- The tokens of a list of characters, in order, repeats included. -/
def tokensOf (cs : List Char) : List String :=
  ((Text.runs Text.isAlphanumeric cs).filter fun run => minTokenLength ≤ run.length).map
    fun run => String.ofList (Text.lowercase run)

/-- The tokens of a text, in order, repeats included. -/
def tokenize (s : String) : List String := tokensOf s.toList

/-- The tokens that a query term must all match: those of its text, each at its first place. -/
def termTokens (term : String) : List String := (tokenize term).eraseDups

/-! ## Scanning -/

/-- A text that is scanned for its tokens. -/
structure Scanner where
  /-- What is left of the text. -/
  rest : String.Slice

namespace Scanner

/-- A scanner at the beginning of a text. -/
def ofText (s : String) : Scanner := ⟨s.toSlice⟩

/-- The characters that are left. -/
def left (sc : Scanner) : List Char := sc.rest.copy.toList

/-- The next run of letters and numbers, and what is behind it. -/
def nextRun? (sc : Scanner) : Option (String.Slice × Scanner) :=
  (sc.rest.find? Text.isAlphanumeric).map fun start =>
    let run := sc.rest.sliceFrom start
    let stop := run.find fun c => !Text.isAlphanumeric c
    (run.sliceTo stop, ⟨run.sliceFrom stop⟩)

/-- Where a predicate does not hold of the first characters and holds of the one behind them, the
position found cuts the text between these. -/
theorem exists_of_find? {p : Char → Bool} {s : String.Slice} {pos : s.Pos}
    (h : s.find? p = some pos) : ∃ before c behind,
      (s.sliceTo pos).copy.toList = before ∧ (s.sliceFrom pos).copy.toList = c :: behind ∧
      s.copy.toList = before ++ c :: behind ∧ (∀ d ∈ before, p d = false) ∧ p c = true := by
  obtain ⟨t, c, u, hsplits, hc, hbefore⟩ := String.Slice.find?_bool_eq_some_iff_splits.mp h
  refine ⟨t.toList, c, u.toList, ?_, ?_, ?_, hbefore, hc⟩
  · rw [hsplits.copy_sliceTo_eq]
  · rw [hsplits.copy_sliceFrom_eq]
    simp
  · rw [hsplits.eq_append]
    simp

/-- Up to the place where a predicate begins to hold, or to the end, it holds nowhere. -/
theorem cut_find (p : Char → Bool) (s : String.Slice) :
    s.copy.toList = (s.sliceTo (s.find p)).copy.toList ++ (s.sliceFrom (s.find p)).copy.toList ∧
      (∀ d ∈ (s.sliceTo (s.find p)).copy.toList, p d = false) ∧
      ∀ c ∈ (s.sliceFrom (s.find p)).copy.toList.head?, p c = true := by
  unfold String.Slice.find
  cases hfind : s.find? p with
  | none =>
    have hnone := (String.Slice.find?_eq_none_iff p).mp hfind
    rw [String.Slice.contains_bool_eq] at hnone
    simpa using hnone
  | some pos =>
    obtain ⟨before, c, behind, hto, hfrom, hs, hbefore, hc⟩ := exists_of_find? hfind
    simp only [Option.getD_some, hto, hfrom]
    exact ⟨hs, hbefore, by simpa using hc⟩

/-- **The next run is the first of the characters that are left.** A gap without letters and numbers
may lie before it, and neither stands behind it. -/
theorem nextRun?_eq_some {sc sc' : Scanner} {run : String.Slice}
    (h : sc.nextRun? = some (run, sc')) : ∃ gap, sc.left = gap ++ run.copy.toList ++ sc'.left ∧
      (∀ c ∈ gap, Text.isAlphanumeric c = false) ∧ run.copy.toList ≠ [] ∧
      (∀ c ∈ run.copy.toList, Text.isAlphanumeric c = true) ∧
      ∀ c ∈ sc'.left.head?, Text.isAlphanumeric c = false := by
  unfold nextRun? at h
  obtain ⟨start, hstart, hcut⟩ := Option.map_eq_some_iff.mp h
  obtain ⟨rfl, rfl⟩ := Prod.mk.inj hcut
  obtain ⟨gap, c, behind, -, hfrom, hleft, hgap, hc⟩ := exists_of_find? hstart
  obtain ⟨hrun, hall, hbehind⟩ :=
    cut_find (fun c => !Text.isAlphanumeric c) (sc.rest.sliceFrom start)
  refine ⟨gap, ?_, hgap, fun hnil => ?_, fun d hd => by simpa using hall d hd,
    fun d hd => by simpa using hbehind d hd⟩
  · rw [List.append_assoc, left, left, ← hrun, hfrom]
    exact hleft
  · -- the run begins where a letter or number was found
    rw [hnil, List.nil_append, hfrom] at hrun
    have hend := hbehind c (by rw [← hrun]; rfl)
    simp [hc] at hend

theorem nextRun?_eq_none {sc : Scanner} (h : sc.nextRun? = none) :
    ∀ c ∈ sc.left, Text.isAlphanumeric c = false := by
  have hnone := (String.Slice.find?_eq_none_iff Text.isAlphanumeric).mp (Option.map_eq_none_iff.mp h)
  simpa [left] using hnone

theorem length_left_of_nextRun? {sc sc' : Scanner} {run : String.Slice}
    (h : sc.nextRun? = some (run, sc')) : sc'.left.length < sc.left.length := by
  obtain ⟨gap, hleft, -, hrun, -⟩ := nextRun?_eq_some h
  have := List.length_pos_iff.mpr hrun
  rw [hleft]
  simp only [List.length_append]
  omega

/-- The next token and the scanner behind it. Runs that are too short are passed over. -/
def next? (sc : Scanner) : Option (String × Scanner) :=
  match _ : sc.nextRun? with
  | none => none
  | some (run, sc') =>
    if minTokenLength ≤ run.copy.length then
      some (String.ofList (Text.lowercase run.copy.toList), sc')
    else sc'.next?
termination_by sc.left.length
decreasing_by exact length_left_of_nextRun? (by assumption)

theorem length_left_of_next? {sc sc' : Scanner} {token : String}
    (h : sc.next? = some (token, sc')) : sc'.left.length < sc.left.length := by
  fun_induction next? sc with
  | case1 => nomatch h
  | case2 sc run behind hrun =>
    obtain ⟨-, rfl⟩ := Prod.mk.inj (Option.some.inj h)
    exact length_left_of_nextRun? hrun
  | case3 sc run behind hrun _ ih => exact Nat.lt_trans (ih h) (length_left_of_nextRun? hrun)

/-- All tokens that are left, taken one after the other. -/
def toList (sc : Scanner) : List String :=
  match _ : sc.next? with
  | none => []
  | some (token, sc') => token :: sc'.toList
termination_by sc.left.length
decreasing_by exact length_left_of_next? (by assumption)

/-- The next `n` tokens, or as many as there are. -/
def take : Nat → Scanner → List String
  | 0, _ => []
  | n + 1, sc =>
    match sc.next? with
    | none => []
    | some (token, sc') => token :: take n sc'

end Scanner

end Concordance
