import Concordance.Proofs.Text.Runs
import Concordance.Token

/-!
# Tokens, told in three ways

The tokens of a text can be told by the places of its maximal runs (`AreTokens`), by two laws, of
which one parts the text at any character that is neither a letter nor a number and the other is
about a text of those alone (`CutsIntoTokens`), and by the scan that finds one after the other. All
three say the same.

* **`areTokens_iff`**: the tokens are what stands in the text at its maximal runs that are not too
  short.
* **`CutsIntoTokens.eq_tokenize`**: the two laws leave no choice.
* **`Scanner.toList_eq`**: the scan gives all tokens of what is left.
-/

namespace Concordance

/-! ## The tokens of two texts put together -/

section Laws

variable {cs xs ys : List Char}

theorem tokensOf_append (hys : ∀ y ∈ ys.head?, Text.isAlphanumeric y = false) (xs : List Char) :
    tokensOf (xs ++ ys) = tokensOf xs ++ tokensOf ys := by
  simp only [tokensOf, Text.runs_append hys, List.filter_append, List.map_append]

theorem tokensOf_append_of_none (hxs : ∀ x ∈ xs, Text.isAlphanumeric x = false) (ys : List Char) :
    tokensOf (xs ++ ys) = tokensOf ys := by
  rw [tokensOf, Text.runs_append_of_none hxs, tokensOf]

theorem tokensOf_of_all (hcs : ∀ c ∈ cs, Text.isAlphanumeric c = true) :
    tokensOf cs =
      if minTokenLength ≤ cs.length then [String.ofList (Text.lowercase cs)] else [] := by
  by_cases hnil : cs = []
  · subst hnil
    simp [tokensOf, Text.runs, minTokenLength]
  · rw [tokensOf, Text.runs_of_all hnil hcs]
    by_cases hlong : minTokenLength ≤ cs.length <;> simp [hlong]

end Laws

/-! ## The places of the tokens -/

/-- The texts are, in order and in lower case, what stands in `s` at its maximal runs of letters and
numbers that have at least two characters. -/
def AreTokens (s : String) (tokens : List String) : Prop :=
  ∃ spans : List (Nat × Nat), spans.Pairwise (fun a b => a.2 < b.1) ∧
    (∀ i j, (i, j) ∈ spans ↔ Text.IsRun Text.isAlphanumeric s.toList i j ∧ i + 2 ≤ j) ∧
    tokens = spans.map fun span => String.ofList (Text.lowercase (Text.stretch s.toList span))

theorem areTokens_tokenize (s : String) : AreTokens s (tokenize s) := by
  obtain ⟨spans, hspans, hruns⟩ := Text.exists_areRuns Text.isAlphanumeric s.toList
  refine ⟨spans.filter fun span => span.1 + 2 ≤ span.2, hspans.ordered.filter _, fun i j => ?_, ?_⟩
  · rw [List.mem_filter, hspans.mem_iff, decide_eq_true_iff]
  · rw [tokenize, tokensOf, hruns, List.filter_map, List.map_map]
    congr 1
    refine List.filter_congr fun span hspan => ?_
    have hlength := hspans.le_length hspan
    simp only [Function.comp_apply, Text.length_stretch hlength.2, minTokenLength, decide_eq_decide]
    omega

/-- **The tokens are what stands at the places of the maximal runs.** -/
theorem areTokens_iff {s : String} {tokens : List String} :
    AreTokens s tokens ↔ tokens = tokenize s := by
  constructor
  · rintro ⟨spans, hordered, hmem, rfl⟩
    obtain ⟨spans', hordered', hmem', htokens⟩ := areTokens_tokenize s
    have hspans : spans = spans' :=
      Text.eq_of_ordered hordered hordered' (fun span => (hmem _ _).trans (hmem' _ _).symm)
        fun span hspan => ((hmem _ _).mp hspan).1.nonempty
    rw [htokens, hspans]
  · rintro rfl
    exact areTokens_tokenize s

/-! ## The laws of tokens -/

/-- A way to cut texts that parts them at every character that is neither a letter nor a number and
takes a text of letters and numbers as it is, in lower case, unless it is too short. -/
structure CutsIntoTokens (f : String → List String) : Prop where
  apart : ∀ a b c, Text.isAlphanumeric c = false →
    f (a ++ String.singleton c ++ b) = f a ++ f b
  word : ∀ w, (∀ c ∈ w.toList, Text.isAlphanumeric c = true) →
    f w = if 2 ≤ w.length then [String.ofList (Text.lowercase w.toList)] else []

theorem cutsIntoTokens_tokenize : CutsIntoTokens tokenize := by
  constructor
  · intro a b c hc
    have hbehind : ∀ y ∈ (c :: b.toList).head?, Text.isAlphanumeric y = false := by simpa using hc
    have hnone : ∀ d ∈ [c], Text.isAlphanumeric d = false := by simpa using hc
    have hskip : tokensOf (c :: b.toList) = tokensOf b.toList :=
      tokensOf_append_of_none hnone b.toList
    rw [tokenize, String.toList_append, String.toList_append, String.toList_singleton,
      List.append_assoc, List.singleton_append, tokensOf_append hbehind, hskip, tokenize, tokenize]
  · intro w hw
    rw [tokenize, tokensOf_of_all hw, String.length_toList, minTokenLength]

/-- Characters are counted, not what encodes them. -/
example : tokenize "é, Éowyn ÉO" = ["éowyn", "éo"] := by decide +kernel

/-- **The laws leave no choice.** -/
theorem CutsIntoTokens.eq_tokenize {f : String → List String} (hf : CutsIntoTokens f) (s : String) :
    f s = tokenize s := by
  induction hn : s.length using Nat.strong_induction_on generalizing s with
  | h n ih =>
    by_cases hs : ∀ c ∈ s.toList, Text.isAlphanumeric c = true
    · rw [hf.word s hs, cutsIntoTokens_tokenize.word s hs]
    · -- both sides part at a character that is neither a letter nor a number
      push Not at hs
      obtain ⟨c, hcs, hc⟩ := hs
      have hc := Bool.eq_false_of_not_eq_true hc
      obtain ⟨before, behind, hparts⟩ := List.append_of_mem hcs
      have hs : s = String.ofList before ++ String.singleton c ++ String.ofList behind := by
        rw [← String.toList_inj]
        simp [hparts]
      have hlength : before.length + (behind.length + 1) = n := by
        rw [← hn, ← String.length_toList, hparts, List.length_append, List.length_cons]
      rw [hs, hf.apart _ _ _ hc, cutsIntoTokens_tokenize.apart _ _ _ hc,
        ih before.length (by omega) _ String.length_ofList,
        ih behind.length (by omega) _ String.length_ofList]

/-! ## The scan -/

namespace Scanner

variable {sc sc' : Scanner} {run : String.Slice} {token : String}

theorem left_ofText (s : String) : (ofText s).left = s.toList := by simp [ofText, left]

/-- A run gives a token, or none if it is too short, and the other tokens are behind it. -/
theorem tokensOf_left_of_nextRun? (h : sc.nextRun? = some (run, sc')) :
    tokensOf sc.left = (if minTokenLength ≤ run.copy.length then
      [String.ofList (Text.lowercase run.copy.toList)] else []) ++ tokensOf sc'.left := by
  obtain ⟨gap, hleft, hgap, -, hrun, hbehind⟩ := nextRun?_eq_some h
  rw [hleft, List.append_assoc, tokensOf_append_of_none hgap, tokensOf_append hbehind,
    tokensOf_of_all hrun, String.length_toList]

theorem tokensOf_left_of_nextRun?_eq_none (h : sc.nextRun? = none) : tokensOf sc.left = [] := by
  rw [← List.append_nil sc.left, tokensOf_append_of_none (nextRun?_eq_none h)]
  simp [tokensOf, Text.runs]

/-- **The next token is the first of those left, and the others are behind it.** -/
theorem tokensOf_left (sc : Scanner) : tokensOf sc.left =
    match sc.next? with
    | none => []
    | some (token, sc') => token :: tokensOf sc'.left := by
  fun_induction next? sc with
  | case1 sc hrun => exact tokensOf_left_of_nextRun?_eq_none hrun
  | case2 sc run behind hrun hlong =>
    rw [tokensOf_left_of_nextRun? hrun, if_pos hlong, List.singleton_append]
  | case3 sc run behind hrun hshort ih =>
    rw [tokensOf_left_of_nextRun? hrun, if_neg hshort, List.nil_append]
    exact ih

/-- **The scan gives all tokens of what is left.** -/
theorem toList_eq (sc : Scanner) : sc.toList = tokensOf sc.left := by
  fun_induction toList sc with
  | case1 sc hnext => rw [tokensOf_left, hnext]
  | case2 sc token behind hnext ih => rw [tokensOf_left, hnext, ih]

/-- Taking tokens one after the other gives the first ones. -/
theorem take_eq (n : Nat) (sc : Scanner) : sc.take n = (tokensOf sc.left).take n := by
  induction n generalizing sc with
  | zero => rfl
  | succ n ih =>
    rw [take, tokensOf_left sc]
    cases hnext : sc.next? with
    | none => rfl
    | some next => simp only [ih, List.take_succ_cons]

end Scanner

/-! ## The tokens of a term -/

/-- Leaving out repeats keeps what has nothing equal before it. -/
theorem eraseDups_eq_firsts {α : Type} [DecidableEq α] (l : List α) :
    l.eraseDups = (l.zipIdx.filter fun x => x.1 ∉ l.take x.2).map Prod.fst := by
  induction l using List.reverseRecOn with
  | nil => rfl
  | append_singleton l a ih =>
    have hbefore : (l.zipIdx.filter fun x => x.1 ∉ (l ++ [a]).take x.2) =
        l.zipIdx.filter fun x => x.1 ∉ l.take x.2 := by
      refine List.filter_congr fun x hx => ?_
      rw [List.take_append_of_le_length (List.snd_lt_of_mem_zipIdx hx).le]
    rw [List.eraseDups_append, List.zipIdx_append, List.filter_append, hbefore, List.map_append, ih]
    congr 1
    by_cases ha : a ∈ l <;> simp [List.removeAll, List.eraseDups_cons, ha]

/-- **The tokens of a text.** They are told by the places of the maximal runs and by the laws alike,
the scan gives them in order and gets shorter at each run, the words of a text have them between
them, and a term keeps each at its first place. -/
theorem tokens_of_text :
    (∀ f : String → List String,
      List.TFAE [f = tokenize, ∀ s, AreTokens s (f s), CutsIntoTokens f]) ∧
    (∀ s, (Scanner.ofText s).toList = tokenize s) ∧
    (∀ s n, (Scanner.ofText s).take n = (tokenize s).take n) ∧
    (∀ sc run sc', Scanner.nextRun? sc = some (run, sc') → sc'.left.length < sc.left.length) ∧
    (∀ s, tokenize s = (Text.words s).flatMap tokenize ∧
      ∃ spans, Text.AreRuns (fun c => !Text.isBlank c) s.toList spans ∧
        Text.words s = spans.map fun span => String.ofList (Text.stretch s.toList span)) ∧
    ∀ s, termTokens s =
      ((tokenize s).zipIdx.filter fun x => x.1 ∉ (tokenize s).take x.2).map Prod.fst := by
  refine ⟨fun f => ?_, fun s => ?_, fun s n => ?_, fun _ _ _ => Scanner.length_left_of_nextRun?,
    fun s => ⟨tokenize_eq_flatMap_words s, ?_⟩, fun s => eraseDups_eq_firsts (tokenize s)⟩
  · tfae_have 1 ↔ 2 := ⟨fun h s => h ▸ areTokens_tokenize s,
      fun h => funext fun s => areTokens_iff.mp (h s)⟩
    tfae_have 1 ↔ 3 := ⟨fun h => h ▸ cutsIntoTokens_tokenize, fun h => funext h.eq_tokenize⟩
    tfae_finish
  · rw [Scanner.toList_eq, Scanner.left_ofText, tokenize]
  · rw [Scanner.take_eq, Scanner.left_ofText, tokenize]
  · obtain ⟨spans, hspans, hwords⟩ :=
      Text.exists_areRuns (fun c => !Text.isBlank c) s.toList
    exact ⟨spans, hspans, by rw [Text.words, hwords, List.map_map]; rfl⟩

end Concordance
