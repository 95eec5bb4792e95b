import Concordance.Sort
import Mathlib

/-!
# What sorting gives

`stableSort` rearranges (`perm_stableSort`), and where its order is transitive no element of the
result is above a later one (`pairwise_stableSort`).

`sortBy` gives that for sortable lists and panics for others (`sortBy_eq_ok_iff`,
`sortBy_eq_error_iff`). A comparison that is an order of everything makes every list sortable.
-/

namespace Concordance

variable {α : Type}

theorem perm_insertLast (cmp : α → α → Ordering) (x : α) (xs : List α) :
    (insertLast cmp x xs).Perm (x :: xs) := by
  induction xs with
  | nil => exact .refl _
  | cons y ys ih =>
    rw [insertLast]
    split
    · exact (ih.cons y).trans (.swap x y ys)
    · exact .refl _

/-- Sorting rearranges. -/
theorem perm_stableSort (cmp : α → α → Ordering) (xs : List α) :
    (stableSort cmp xs).Perm xs := by
  have hfold : ∀ sorted : List α,
      (xs.foldl (fun sorted x => insertLast cmp x sorted) sorted).Perm
        (sorted ++ xs) := by
    induction xs with
    | nil =>
      intro sorted
      rw [List.append_nil]
      exact .refl _
    | cons x xs ih =>
      intro sorted
      refine (ih _).trans (((perm_insertLast _ x sorted).append_right xs).trans ?_)
      exact List.perm_middle.symm
  exact (List.reverse_perm _).trans (hfold [])

/-! ## The order of the result -/

section Order

variable {cmp : α → α → Ordering} [Std.TransCmp cmp]

/-- While a list is being sorted its last element comes first. -/
theorem pairwise_insertLast (x : α) {xs : List α}
    (h : xs.Pairwise fun a b => (cmp b a).isLE) :
    (insertLast cmp x xs).Pairwise fun a b => (cmp b a).isLE := by
  induction xs with
  | nil => exact List.pairwise_singleton _ _
  | cons y ys ih =>
    obtain ⟨hy, hys⟩ := List.pairwise_cons.mp h
    rw [insertLast]
    split
    · rename_i hlt
      have hxy : (cmp x y).isLE := Ordering.isLE_of_eq_lt (beq_iff_eq.mp hlt)
      refine List.pairwise_cons.mpr ⟨fun z hz => ?_, ih hys⟩
      rcases List.mem_cons.mp ((perm_insertLast _ x ys).mem_iff.mp hz) with rfl | hz
      · exact hxy
      · exact hy z hz
    · rename_i hge
      have hyx : (cmp y x).isLE := by
        rw [← Std.OrientedCmp.isGE_eq_isLE, Ordering.isGE_iff_ne_lt]
        exact fun hlt => hge (beq_iff_eq.mpr hlt)
      refine List.pairwise_cons.mpr ⟨fun z hz => ?_, h⟩
      rcases List.mem_cons.mp hz with rfl | hz
      · exact hyx
      · exact Std.TransCmp.isLE_trans (hy z hz) hyx

/-- **No element of a sorted list is above a later one.** -/
theorem pairwise_stableSort (xs : List α) :
    (stableSort cmp xs).Pairwise fun a b => (cmp a b).isLE := by
  have hfold : ∀ sorted : List α, (sorted.Pairwise fun a b => (cmp b a).isLE) →
      (xs.foldl (fun sorted x => insertLast cmp x sorted) sorted).Pairwise
        fun a b => (cmp b a).isLE := by
    induction xs with
    | nil => exact fun _ h => h
    | cons x xs ih => exact fun sorted h => ih _ (pairwise_insertLast x h)
  exact List.pairwise_reverse.mpr (hfold [] List.Pairwise.nil)

end Order

/-! ## Sorting by what is read off the elements -/

theorem insertLast_map {β : Type} (f : α → β) (cmp : β → β → Ordering) (x : α) (xs : List α) :
    insertLast cmp (f x) (xs.map f) =
      (insertLast (fun a b => cmp (f a) (f b)) x xs).map f := by
  induction xs with
  | nil => rfl
  | cons y ys ih =>
    rw [List.map_cons, insertLast, insertLast, ih]
    split <;> rfl

/-- To sort what is read off some elements is to sort the elements by it. -/
theorem stableSort_map {β : Type} (f : α → β) (cmp : β → β → Ordering) (xs : List α) :
    stableSort cmp (xs.map f) = (stableSort (fun a b => cmp (f a) (f b)) xs).map f := by
  have hfold : ∀ sorted : List α,
      (xs.map f).foldl (fun sorted x => insertLast cmp x sorted)
          (sorted.map f) =
        (xs.foldl (fun sorted x => insertLast (fun a b => cmp (f a) (f b)) x sorted)
          sorted).map f := by
    induction xs with
    | nil => exact fun _ => rfl
    | cons x xs ih =>
      intro sorted
      rw [List.map_cons, List.foldl_cons, List.foldl_cons, insertLast_map]
      exact ih _
  unfold stableSort
  rw [List.map_reverse]
  exact congrArg List.reverse (hfold [])

/-- Sorting is sound where the order is transitive on the elements that there are. -/
theorem pairwise_stableSort_of_mem {cmp : α → α → Ordering} {P : α → Prop}
    [Std.TransCmp fun a b : {x // P x} => cmp a b] {xs : List α} (h : ∀ x ∈ xs, P x) :
    (stableSort cmp xs).Pairwise fun a b => (cmp a b).isLE := by
  rw [← List.attachWith_map_subtype_val h, stableSort_map]
  exact List.pairwise_map.mpr (pairwise_stableSort _)

/-! ## When there is a result -/

section Sortable

variable {cmp : α → α → Ordering} {xs ys : List α}

theorem sortBy_eq_ok_iff : sortBy cmp xs = .ok ys ↔ Sortable cmp xs ∧ stableSort cmp xs = ys := by
  unfold sortBy
  split <;> simp [*]

theorem sortBy_eq_error_iff {e : Error} :
    sortBy cmp xs = .error e ↔ ¬Sortable cmp xs ∧ e = .panic := by
  unfold sortBy
  split <;> simp [*, eq_comm]

/-- An order has no descents. -/
theorem ne_gt_trans (cmp : α → α → Ordering) [Std.TransCmp cmp] {a b c : α}
    (hab : cmp a b ≠ .gt) (hbc : cmp b c ≠ .gt) : cmp a c ≠ .gt :=
  Ordering.isLE_iff_ne_gt.mp <| Std.TransCmp.isLE_trans
    (Ordering.isLE_iff_ne_gt.mpr hab) (Ordering.isLE_iff_ne_gt.mpr hbc)

theorem sortable_of_transCmp [Std.TransCmp cmp] (xs : List α) : Sortable cmp xs :=
  Or.inr ⟨fun _ _ _ _ => Std.OrientedCmp.eq_swap, fun _ _ _ _ _ _ => ne_gt_trans cmp⟩

theorem sortBy_of_transCmp [Std.TransCmp cmp] (xs : List α) :
    sortBy cmp xs = .ok (stableSort cmp xs) :=
  sortBy_eq_ok_iff.mpr ⟨sortable_of_transCmp xs, rfl⟩

theorem sortable_map {β : Type} {f : α → β} {cmp : β → β → Ordering} :
    Sortable cmp (xs.map f) ↔ Sortable (fun a b => cmp (f a) (f b)) xs := by
  unfold Sortable
  rw [List.length_map]
  refine or_congr Iff.rfl ⟨fun h => ⟨?_, ?_⟩, fun h => ⟨?_, ?_⟩⟩
  · simpa only [List.forall_mem_map] using h.swap
  · simpa only [List.forall_mem_map] using h.trans
  · simpa only [List.forall_mem_map] using h.swap
  · simpa only [List.forall_mem_map] using h.trans

/-- To sort what is read off some elements is to sort the elements by it, if there is a result. -/
theorem sortBy_map {β : Type} (f : α → β) (cmp : β → β → Ordering) (xs : List α) :
    sortBy cmp (xs.map f) = List.map f <$> sortBy (fun a b => cmp (f a) (f b)) xs := by
  unfold sortBy
  simp only [sortable_map, stableSort_map]
  split <;> rfl

/-- A part of what can be sorted can be sorted. -/
theorem Sortable.of_subset (h : Sortable cmp xs) (hnodup : ys.Nodup) (hsub : ys ⊆ xs) :
    Sortable cmp ys :=
  h.imp (fun hfew => (List.subperm_of_subset hnodup hsub).length_le.trans hfew) fun horders =>
    ⟨fun a ha b hb => horders.swap a (hsub ha) b (hsub hb), fun a ha b hb c hc =>
      horders.trans a (hsub ha) b (hsub hb) c (hsub hc)⟩

end Sortable

end Concordance
