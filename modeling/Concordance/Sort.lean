import Concordance.Error

/-!
# Sorting

The sort is stable and takes a comparison that orders the elements, up to elements that are level
(`Orders`). With any other comparison the standard library promises nothing. It sorts a short list
by insertion all the same, but a longer one may come out in any order, or the sort may panic. So
`sortBy` has a result for `Sortable` lists only.

* `stableSort` sorts by insertion: each element in turn moves left past the elements that it is less
  than, and no further, so elements that are level keep their order.
* `Orders` is decided by ranks (`ranksAgree_iff`): elements that are ordered compare as the numbers
  of elements below them do.
-/

namespace Concordance

variable {α : Type}

/-! ## Insertion -/

/-- Inserts `x` into a list whose last element comes first. -/
def insertLast (cmp : α → α → Ordering) (x : α) : List α → List α
  | [] => [x]
  | y :: ys => if cmp x y == .lt then y :: insertLast cmp x ys else x :: y :: ys

/-- The elements in ascending order, elements that are level in the order given. -/
def stableSort (cmp : α → α → Ordering) (xs : List α) : List α :=
  (xs.foldl (fun sorted x => insertLast cmp x sorted) []).reverse

/-! ## Comparisons that are orders -/

/-- The comparison orders the elements, up to elements that are level. -/
structure Orders (cmp : α → α → Ordering) (xs : List α) : Prop where
  swap : ∀ a ∈ xs, ∀ b ∈ xs, cmp b a = (cmp a b).swap
  trans : ∀ a ∈ xs, ∀ b ∈ xs, ∀ c ∈ xs, cmp a b ≠ .gt → cmp b c ≠ .gt → cmp a c ≠ .gt

/-- How many of the elements are below `x`. -/
def rank (cmp : α → α → Ordering) (xs : List α) (x : α) : Nat :=
  xs.countP fun y => cmp y x == .lt

/-- Whether the elements compare as their ranks do. -/
def ranksAgree (cmp : α → α → Ordering) (xs : List α) : Bool :=
  let ranked := xs.map fun x => (rank cmp xs x, x)
  ranked.all fun a => ranked.all fun b => cmp a.2 b.2 == compare a.1 b.1

section Orders

variable {cmp : α → α → Ordering} {xs : List α}

/-- What is below an element is below one that this is not above. -/
theorem Orders.lt_of_lt (h : Orders cmp xs) {a b c : α} (ha : a ∈ xs) (hb : b ∈ xs) (hc : c ∈ xs)
    (hab : cmp a b = .lt) (hbc : cmp b c ≠ .gt) : cmp a c = .lt := by
  have hac : cmp a c ≠ .gt := h.trans a ha b hb c hc (by rw [hab]; decide) hbc
  cases hcompare : cmp a c with
  | lt => rfl
  | gt => exact absurd hcompare hac
  | eq =>
    -- otherwise the first would be above itself, by way of the others
    have hca : cmp c a ≠ .gt := by
      rw [h.swap a ha c hc, hcompare]
      decide
    have hba := h.trans b hb c hc a ha hbc hca
    rw [h.swap a ha b hb, hab] at hba
    exact absurd rfl hba

/-- An element that is level with another has the same rank. -/
theorem Orders.rank_eq (h : Orders cmp xs) {a b : α} (ha : a ∈ xs) (hb : b ∈ xs)
    (hab : cmp a b = .eq) : rank cmp xs a = rank cmp xs b := by
  have hba : cmp b a = .eq := by
    rw [h.swap a ha b hb, hab]
    rfl
  refine List.countP_congr fun y hy => ?_
  rw [beq_iff_eq, beq_iff_eq]
  exact ⟨fun hlt => h.lt_of_lt hy ha hb hlt (by rw [hab]; decide),
    fun hlt => h.lt_of_lt hy hb ha hlt (by rw [hba]; decide)⟩

/-- An element that is below another has a smaller rank, since the other counts it. -/
theorem Orders.rank_lt (h : Orders cmp xs) {a b : α} (ha : a ∈ xs) (hb : b ∈ xs)
    (hab : cmp a b = .lt) : rank cmp xs a < rank cmp xs b := by
  have hmono : ∀ y ∈ xs, cmp y a == .lt → cmp y b == .lt := by
    intro y hy hlt
    rw [beq_iff_eq] at hlt ⊢
    exact h.lt_of_lt hy ha hb hlt (by rw [hab]; decide)
  have hself : ¬(cmp a a == .lt) := by
    intro hlt
    have hswap := h.swap a ha a ha
    rw [beq_iff_eq.mp hlt] at hswap
    nomatch hswap
  obtain ⟨before, behind, hxs⟩ := List.append_of_mem ha
  unfold rank
  rw [hxs] at hmono ⊢
  have hbefore := List.countP_mono_left (l := before) fun y hy =>
    hmono y (List.mem_append_left _ hy)
  have hbehind := List.countP_mono_left (l := behind) fun y hy =>
    hmono y (List.mem_append_right _ (List.mem_cons_of_mem _ hy))
  rw [List.countP_append, List.countP_append,
    List.countP_cons_of_neg (p := fun y => cmp y a == .lt) hself,
    List.countP_cons_of_pos (p := fun y => cmp y b == .lt) (beq_iff_eq.mpr hab)]
  omega

/-- Elements that are ordered compare as their ranks do. -/
theorem Orders.compare_rank (h : Orders cmp xs) {a b : α} (ha : a ∈ xs) (hb : b ∈ xs) :
    cmp a b = compare (rank cmp xs a) (rank cmp xs b) := by
  cases hab : cmp a b with
  | lt => exact (Nat.compare_eq_lt.mpr (h.rank_lt ha hb hab)).symm
  | eq => exact (Nat.compare_eq_eq.mpr (h.rank_eq ha hb hab)).symm
  | gt =>
    have hba : cmp b a = .lt := by
      rw [h.swap a ha b hb, hab]
      rfl
    exact (Nat.compare_eq_gt.mpr (h.rank_lt hb ha hba)).symm

/-- **Elements are ordered exactly if they compare as their ranks do.** -/
theorem ranksAgree_iff : ranksAgree cmp xs = true ↔ Orders cmp xs := by
  have hagree : ranksAgree cmp xs = true ↔
      ∀ a ∈ xs, ∀ b ∈ xs, cmp a b = compare (rank cmp xs a) (rank cmp xs b) := by
    simp only [ranksAgree, List.all_map, List.all_eq_true, Function.comp_apply, beq_iff_eq]
  rw [hagree]
  refine ⟨fun h => ⟨fun a ha b hb => ?_, fun a ha b hb c hc hab hbc => ?_⟩, fun h a ha b hb =>
    h.compare_rank ha hb⟩
  · rw [h a ha b hb, h b hb a ha, Nat.compare_swap]
  · rw [h a ha b hb, ne_eq, Nat.compare_eq_gt] at hab
    rw [h b hb c hc, ne_eq, Nat.compare_eq_gt] at hbc
    rw [h a ha c hc, ne_eq, Nat.compare_eq_gt]
    omega

instance : Decidable (Orders cmp xs) := decidable_of_iff _ ranksAgree_iff

end Orders

/-! ## The sort -/

/-- The length up to which lists are sorted by insertion, whatever the comparison. -/
def insertionLimit : Nat := 20

/-- The comparison orders the elements, or there are so few of them that it need not. -/
def Sortable (cmp : α → α → Ordering) (xs : List α) : Prop :=
  xs.length ≤ insertionLimit ∨ Orders cmp xs

instance (cmp : α → α → Ordering) (xs : List α) : Decidable (Sortable cmp xs) :=
  inferInstanceAs (Decidable (_ ∨ _))

/-- The elements in ascending order of `cmp`, elements that are level in the order given; no result
where there is none to rely on. -/
def sortBy (cmp : α → α → Ordering) (xs : List α) : Result (List α) :=
  if Sortable cmp xs then .ok (stableSort cmp xs) else .error .panic

end Concordance
