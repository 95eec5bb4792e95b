import Concordance.Token
import Mathlib

/-!
# Tokens and words

A stored text is cut into tokens as a whole, and a query text first into words at white space and
then each word into tokens. Both give the same tokens: no white space is a letter or a number, so no
run of those goes over the end of a word (`runs_eq_flatMap`).

* **`tokenize_eq_flatMap_words`**: the tokens of a text are those of its words, in order.
-/

namespace Concordance

namespace Text

theorem runs_cons_of_pos {p : Char → Bool} {c : Char} (hc : p c = true) (cs : List Char) :
    runs p (c :: cs) = (c :: cs.takeWhile p) :: runs p (cs.dropWhile p) := by
  rw [runs, if_pos hc]

theorem runs_cons_of_neg {p : Char → Bool} {c : Char} (hc : p c = false) (cs : List Char) :
    runs p (c :: cs) = runs p cs := by
  rw [runs, if_neg (by simp [hc])]

/-- Runs do not go over a character that is in none. -/
theorem runs_append {p : Char → Bool} {ys : List Char} (hys : ∀ y ∈ ys.head?, p y = false)
    (xs : List Char) : runs p (xs ++ ys) = runs p xs ++ runs p ys := by
  have htake : ys.takeWhile p = [] := by
    cases ys with
    | nil => rfl
    | cons y ys => exact List.takeWhile_cons_of_neg (by simpa using hys y rfl)
  have hdrop : ys.dropWhile p = ys := by
    cases ys with
    | nil => rfl
    | cons y ys => exact List.dropWhile_cons_of_neg (by simpa using hys y rfl)
  fun_induction runs p xs with
  | case1 => rfl
  | case2 c cs hc ih =>
    have htakes : (cs ++ ys).takeWhile p = cs.takeWhile p := by
      rw [List.takeWhile_append, htake]
      split
      · rename_i hall
        rw [List.append_nil, (List.takeWhile_prefix p).eq_of_length hall]
      · rfl
    have hdrops : (cs ++ ys).dropWhile p = cs.dropWhile p ++ ys := by
      rw [List.dropWhile_append, hdrop]
      split
      · rename_i hall
        rw [List.isEmpty_iff.mp hall, List.nil_append]
      · rfl
    rw [List.cons_append, runs_cons_of_pos hc, htakes, hdrops, ih, List.cons_append]
  | case3 c cs hc ih =>
    rw [List.cons_append, runs_cons_of_neg (Bool.eq_false_of_not_eq_true hc), ih]

theorem runs_append_of_none {p : Char → Bool} {xs : List Char} (hxs : ∀ x ∈ xs, p x = false)
    (ys : List Char) : runs p (xs ++ ys) = runs p ys := by
  induction xs with
  | nil => rfl
  | cons x xs ih =>
    rw [List.cons_append, runs_cons_of_neg (hxs x List.mem_cons_self)]
    exact ih fun y hy => hxs y (List.mem_cons_of_mem x hy)

theorem runs_of_all {p : Char → Bool} {xs : List Char} (hne : xs ≠ [])
    (hxs : ∀ x ∈ xs, p x = true) : runs p xs = [xs] := by
  obtain ⟨x, xs, rfl⟩ := List.exists_cons_of_ne_nil hne
  obtain ⟨hx, hxs⟩ := List.forall_mem_cons.mp hxs
  rw [runs_cons_of_pos hx, List.takeWhile_eq_self_iff.mpr hxs, List.dropWhile_eq_nil_iff.mpr hxs,
    runs]

/-- **Runs lie within the runs of a weaker property.** -/
theorem runs_eq_flatMap {p q : Char → Bool} (hpq : ∀ c, p c = true → q c = true)
    (cs : List Char) : runs p cs = (runs q cs).flatMap (runs p) := by
  fun_induction runs q cs with
  | case1 => rw [runs, List.flatMap_nil]
  | case2 c cs hc ih =>
    have hstop : ∀ y ∈ (cs.dropWhile q).head?, p y = false := by
      intro y hy
      have hq := List.head?_dropWhile_not q cs
      rw [Option.mem_def.mp hy] at hq
      refine Bool.eq_false_of_not_eq_true fun hp => ?_
      exact Bool.noConfusion ((hpq y hp).symm.trans hq)
    rw [List.flatMap_cons, ← ih, ← runs_append hstop, List.cons_append,
      List.takeWhile_append_dropWhile]
  | case3 c cs hc ih =>
    rw [← ih, runs_cons_of_neg]
    exact Bool.eq_false_of_not_eq_true fun h => hc (hpq c h)

theorem runs_eq_nil_iff {p : Char → Bool} {cs : List Char} :
    runs p cs = [] ↔ ∀ c ∈ cs, p c = false := by
  induction cs with
  | nil => simp [runs]
  | cons c cs ih =>
    cases hc : p c with
    | true => simp [runs_cons_of_pos hc, hc]
    | false => simp [runs_cons_of_neg hc, hc, ih]

/-- A text is without words exactly if it is blank. -/
theorem words_eq_nil_iff {s : String} : words s = [] ↔ blank s = true := by
  unfold words blank
  rw [List.map_eq_nil_iff, runs_eq_nil_iff, List.all_eq_true]
  simp only [Bool.not_eq_false']

theorem words_of_blank {s : String} (h : blank s = true) : words s = [] := words_eq_nil_iff.mpr h

/-- No letter or number is white space. -/
theorem isBlank_of_isAlphanumeric {c : Char} (h : isAlphanumeric c = true) : isBlank c = false := by
  have hapart : ∀ r ∈ alphanumericRanges, ∀ b ∈ blankRanges, r.2 < b.1 ∨ b.2 < r.1 := by
    decide +kernel
  refine Bool.eq_false_of_not_eq_true fun hblank => ?_
  obtain ⟨r, hr, hin⟩ := List.any_eq_true.mp h
  obtain ⟨b, hb, hinb⟩ := List.any_eq_true.mp hblank
  simp only [Bool.and_eq_true, decide_eq_true_eq] at hin hinb
  have := hapart r hr b hb
  omega

end Text

/-- **The tokens of a text are those of its words.** -/
theorem tokenize_eq_flatMap_words (s : String) :
    tokenize s = (Text.words s).flatMap tokenize := by
  have hruns : Text.runs Text.isAlphanumeric s.toList =
      (Text.runs (fun c => !Text.isBlank c) s.toList).flatMap (Text.runs Text.isAlphanumeric) :=
    Text.runs_eq_flatMap (fun c hc => by simp [Text.isBlank_of_isAlphanumeric hc]) s.toList
  unfold tokenize tokensOf Text.words
  rw [hruns, List.filter_flatMap, List.map_flatMap, List.flatMap_map]
  simp only [String.toList_ofList]

theorem tokenize_subset_of_mem_words {s word : String} (h : word ∈ Text.words s) :
    tokenize word ⊆ tokenize s := by
  intro token htoken
  rw [tokenize_eq_flatMap_words]
  exact List.mem_flatMap.mpr ⟨word, h, htoken⟩

/-- A text has a token only if a word of it has one. -/
theorem exists_word_of_tokenize_ne_nil {s : String} (h : tokenize s ≠ []) :
    ∃ word ∈ Text.words s, tokenize word ≠ [] := by
  rw [tokenize_eq_flatMap_words] at h
  obtain ⟨token, htoken⟩ := List.exists_mem_of_ne_nil _ h
  obtain ⟨word, hword, htoken⟩ := List.mem_flatMap.mp htoken
  exact ⟨word, hword, List.ne_nil_of_mem htoken⟩

end Concordance
