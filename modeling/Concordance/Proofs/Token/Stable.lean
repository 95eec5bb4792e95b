import Concordance.Proofs.Text.Lowercase
import Concordance.Proofs.Token.Scanner

/-!
# The tokens of a token

A text is cut before it is put in lower case. Where a token is cut once more, lower case has nothing
left to do (`Text.lowercase_lowercase`), but there may be something to cut: the lower case of a
dotted capital I has a combining dot, which parts the token there.

* **`tokenize_of_mem`**: the tokens of a token are its pieces between the dots, if they have two
  characters.
* `tokenize_eq_singleton_iff`: so a token is its own only token exactly if it has no such dot.
* `tokenize_of_mem_of_mem`: cutting twice is enough, the pieces are their own only tokens.
-/

namespace Concordance

namespace Text

variable {p q : Char → Bool} {cs run : List Char}

/-- The runs depend on the characters of the text only. -/
theorem runs_congr (h : ∀ c ∈ cs, p c = q c) : runs p cs = runs q cs := by
  have htake : ∀ {ds : List Char}, (∀ d ∈ ds, p d = q d) →
      ds.takeWhile p = ds.takeWhile q ∧ ds.dropWhile p = ds.dropWhile q := by
    intro ds hds
    induction ds with
    | nil => exact ⟨rfl, rfl⟩
    | cons d ds ih =>
      obtain ⟨hd, hds⟩ := List.forall_mem_cons.mp hds
      obtain ⟨htake, hdrop⟩ := ih hds
      rw [List.takeWhile_cons, List.takeWhile_cons, List.dropWhile_cons, List.dropWhile_cons, hd,
        htake, hdrop]
      exact ⟨rfl, rfl⟩
  fun_induction runs p cs with
  | case1 => rw [runs]
  | case2 c cs hc ih =>
    obtain ⟨hpq, hcs⟩ := List.forall_mem_cons.mp h
    obtain ⟨htakes, hdrops⟩ := htake hcs
    rw [runs_cons_of_pos (hpq ▸ hc), htakes,
      ih fun d hd => hcs d ((List.dropWhile_sublist p).subset hd), hdrops]
  | case3 c cs hc ih =>
    obtain ⟨hpq, hcs⟩ := List.forall_mem_cons.mp h
    rw [runs_cons_of_neg (Bool.eq_false_of_not_eq_true fun hq => hc (hpq.trans hq)), ih hcs]

/-- A run consists of characters of the text that have the property. -/
theorem mem_of_mem_runs (h : run ∈ runs p cs) : ∀ c ∈ run, c ∈ cs ∧ p c = true := by
  fun_induction runs p cs with
  | case1 => exact absurd h List.not_mem_nil
  | case2 c cs hc ih =>
    rcases List.mem_cons.mp h with rfl | h
    · refine List.forall_mem_cons.mpr ⟨⟨List.mem_cons_self, hc⟩, fun d hd => ?_⟩
      exact ⟨List.mem_cons_of_mem c ((List.takeWhile_sublist p).subset hd),
        List.mem_takeWhile_imp hd⟩
    · intro d hd
      obtain ⟨hmem, hp⟩ := ih h d hd
      exact ⟨List.mem_cons_of_mem c ((List.dropWhile_sublist p).subset hmem), hp⟩
  | case3 c cs hc ih =>
    intro d hd
    obtain ⟨hmem, hp⟩ := ih h d hd
    exact ⟨List.mem_cons_of_mem c hmem, hp⟩

end Text

variable {s t : String}

/-- The pieces of a text between combining dots that have at least two characters. -/
def dotlessPieces (t : String) : List String :=
  ((Text.runs (fun c => c != Text.combiningDot) t.toList).filter fun piece =>
    minTokenLength ≤ piece.length).map String.ofList

/-- A token is the lower case of a run that is long enough. -/
theorem mem_tokenize_iff : t ∈ tokenize s ↔
    ∃ run ∈ Text.runs Text.isAlphanumeric s.toList, minTokenLength ≤ run.length ∧
      t = String.ofList (Text.lowercase run) := by
  unfold tokenize tokensOf
  simp only [List.mem_map, List.mem_filter, decide_eq_true_iff, and_assoc, eq_comm (b := t)]

/-- The characters of a token: they are lower case, and all but the combining dots are letters or
numbers. -/
theorem chars_of_mem_tokenize (h : t ∈ tokenize s) : ∀ c ∈ t.toList,
    Text.IsLower c ∧ Text.isAlphanumeric c = (c != Text.combiningDot) := by
  obtain ⟨run, hrun, -, rfl⟩ := mem_tokenize_iff.mp h
  rw [String.toList_ofList]
  intro c hc
  refine ⟨Text.isLower_of_mem_lowercase c hc, ?_⟩
  rw [Bool.eq_iff_iff, bne_iff_ne]
  exact Text.isAlphanumeric_of_mem_lowercase
    (fun d hd => (Text.mem_of_mem_runs hrun d hd).2) c hc

theorem length_of_mem_tokenize (h : t ∈ tokenize s) : minTokenLength ≤ t.toList.length := by
  obtain ⟨run, -, hlong, rfl⟩ := mem_tokenize_iff.mp h
  rw [String.toList_ofList]
  exact Nat.le_trans hlong (Text.length_le_length_lowercase run)

/-- **The tokens of a token are its pieces between combining dots.** -/
theorem tokenize_of_mem (h : t ∈ tokenize s) : tokenize t = dotlessPieces t := by
  have hchars := chars_of_mem_tokenize h
  unfold tokenize tokensOf dotlessPieces
  rw [Text.runs_congr fun c hc => (hchars c hc).2]
  refine List.map_congr_left fun run hrun => ?_
  -- what is lower case already stays as it is
  have hlower : ∀ c ∈ run, Text.IsLower c := fun c hc =>
    (hchars c (Text.mem_of_mem_runs (List.mem_of_mem_filter hrun) c hc).1).1
  exact congrArg String.ofList (Text.lowercaseAfter_of_isLower hlower [])

/-- A piece between combining dots has none. -/
theorem combiningDot_notMem_of_mem_dotlessPieces (h : t ∈ dotlessPieces s) :
    Text.combiningDot ∉ t.toList := by
  obtain ⟨piece, hpiece, rfl⟩ := List.mem_map.mp h
  rw [String.toList_ofList]
  intro hdot
  have := (Text.mem_of_mem_runs (List.mem_of_mem_filter hpiece) _ hdot).2
  simp at this

/-- A text without combining dots is one piece, if it is long enough. -/
theorem dotlessPieces_of_notMem (hlong : minTokenLength ≤ t.toList.length)
    (h : Text.combiningDot ∉ t.toList) : dotlessPieces t = [t] := by
  have hne : t.toList ≠ [] := fun hnil => by simp [hnil, minTokenLength] at hlong
  have hall : ∀ c ∈ t.toList, (c != Text.combiningDot) = true := by
    intro c hc
    exact bne_iff_ne.mpr fun heq => h (heq ▸ hc)
  rw [dotlessPieces, Text.runs_of_all hne hall]
  simp [hlong]

/-- **A token is its own only token exactly if it has no combining dot.** -/
theorem tokenize_eq_singleton_iff (h : t ∈ tokenize s) :
    tokenize t = [t] ↔ Text.combiningDot ∉ t.toList := by
  rw [tokenize_of_mem h]
  constructor
  · intro hself
    exact combiningDot_notMem_of_mem_dotlessPieces (hself ▸ List.mem_singleton_self t)
  · exact dotlessPieces_of_notMem (length_of_mem_tokenize h)

/-- **The tokens of a token are their own only tokens.** -/
theorem tokenize_of_mem_of_mem (h : t ∈ tokenize s) {piece : String} (hpiece : piece ∈ tokenize t) :
    tokenize piece = [piece] := by
  refine (tokenize_eq_singleton_iff hpiece).mpr ?_
  rw [tokenize_of_mem h] at hpiece
  exact combiningDot_notMem_of_mem_dotlessPieces hpiece

/-- Leaving out repeats makes no difference to this. -/
theorem termTokens_eq_singleton_iff (h : t ∈ tokenize s) :
    termTokens t = [t] ↔ tokenize t = [t] := by
  unfold termTokens
  constructor
  · intro hself
    have hmem : t ∈ tokenize t := List.mem_eraseDups.mp (hself ▸ List.mem_singleton_self t)
    exact tokenize_of_mem_of_mem h hmem
  · intro hself
    rw [hself]
    simp [List.eraseDups_cons]

/-- A combining dot in a token comes from a dotted capital I in the text. -/
theorem combiningDot_mem_iff (h : t ∈ tokenize s) :
    ∃ run ∈ Text.runs Text.isAlphanumeric s.toList, t = String.ofList (Text.lowercase run) ∧
      (Text.combiningDot ∈ t.toList ↔ 'İ' ∈ run) := by
  obtain ⟨run, hrun, -, rfl⟩ := mem_tokenize_iff.mp h
  refine ⟨run, hrun, rfl, ?_⟩
  rw [String.toList_ofList]
  exact Text.combiningDot_mem_lowercase_iff fun c hc => (Text.mem_of_mem_runs hrun c hc).2

end Concordance
