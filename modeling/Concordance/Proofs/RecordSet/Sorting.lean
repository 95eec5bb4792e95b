import Concordance.Proofs.RecordSet.Failures
import Concordance.Proofs.Value.Order

/-!
# What an ordering does

`Store.Precedes` says key by key when an ordering puts one record before another. The order of
values is not one where integers and floats meet. Where none of the sort values is misplaced
(`Store.NoneMisplaced`), which is so if none is a float, the order of records is transitive, and no
two records are level (`pk_eq_of_compareBy`).

* **`arranges_of_noneMisplaced`**: such records can be sorted, however many they are.
* **`evaluate_sorted`**: the result of a set with an ordering is the one rearrangement of what the
  set has without it in which each record precedes the next.
-/

namespace Concordance

/-- A record comes before another: by the first key of the ordering that tells them apart, or else
by its primary key. -/
def Store.Precedes (st : Store) (model : String) : List OrderKey → Record → Record → Prop
  | [], a, b => a.pk < b.pk
  | key :: rest, a, b =>
    let o := key.order (st.sortValue model key.field a) (st.sortValue model key.field b)
    o = .lt ∨ o = .eq ∧ st.Precedes model rest a b

variable {st : Store}

/-! ## The order of records -/

namespace Store

theorem precedes_iff {model : String} {ordering : List OrderKey} {a b : Record} :
    st.Precedes model ordering a b ↔ st.compareBy model ordering a b = .lt := by
  induction ordering with
  | nil => exact Std.compare_eq_lt.symm
  | cons key rest ih =>
    rw [Precedes, compareBy, Ordering.then_eq_lt, ih]

theorem compareBy_swap {model : String} {ordering : List OrderKey} {a b : Record} :
    st.compareBy model ordering b a = (st.compareBy model ordering a b).swap := by
  induction ordering with
  | nil => exact Std.OrientedOrd.eq_swap
  | cons key rest ih =>
    have hkey (v w : Value) : key.order w v = (key.order v w).swap := by
      unfold OrderKey.order
      rw [Value.order_swap v w]
      split <;> rfl
    rw [compareBy, compareBy, hkey, ih, Ordering.swap_then]

/-- Records that nothing tells apart have one key. -/
theorem pk_eq_of_compareBy {model : String} {ordering : List OrderKey} {a b : Record}
    (h : st.compareBy model ordering a b = .eq) : a.pk = b.pk := by
  induction ordering with
  | nil => exact Std.LawfulEqOrd.eq_of_compare h
  | cons key rest ih => exact ih (Ordering.then_eq_eq.mp h).2

/-- Values of which none is misplaced are ordered transitively. -/
theorem transCmp_order {α : Type} (value : α → Value)
    (h : ∀ a b c, ¬Value.Misplaced (value a) (value b) (value c)) (key : OrderKey) :
    Std.TransCmp fun a b => key.order (value a) (value b) := by
  have hascending : Std.TransCmp fun a b => (value a).order (value b) := {
    eq_swap := Value.order_swap _ _
    isLE_trans := by
      intro a b c hab hbc
      rw [Ordering.isLE_iff_ne_gt] at *
      exact fun hac => h a b c (Value.misplaced_of_descent hab hbc hac) }
  unfold OrderKey.order
  simp only [← Value.order_swap]
  split
  · exact Std.TransCmp.opposite
  · exact hascending

/-- No sort value of the records is misplaced among the others. -/
def NoneMisplaced (st : Store) (model : String) (ordering : List OrderKey)
    (P : Record → Prop) : Prop :=
  ∀ key ∈ ordering, ∀ a b c, P a → P b → P c →
    let value := st.sortValue model key.field
    ¬Value.Misplaced (value a) (value b) (value c)

theorem noneMisplaced_of_floatless {model : String} {P : Record → Prop} {ordering : List OrderKey}
    (h : ∀ r, P r → ∀ key ∈ ordering, ∀ x, st.sortValue model key.field r ≠ .float x) :
    st.NoneMisplaced model ordering P :=
  fun key hkey a b _ ha hb _ => Value.not_misplaced (h a ha key hkey) (h b hb key hkey)

/-- **Records of which no sort value is misplaced are ordered transitively.** -/
theorem transCmp_compareBy {model : String} {P : Record → Prop} {ordering : List OrderKey}
    (h : st.NoneMisplaced model ordering P) :
    Std.TransCmp fun a b : {r // P r} => st.compareBy model ordering a b := by
  induction ordering with
  | nil => exact inferInstanceAs (Std.TransCmp (compareOn fun r : {r // P r} => r.1.pk))
  | cons key rest ih =>
    have := ih fun key hkey => h key (List.mem_cons_of_mem _ hkey)
    have := transCmp_order (fun r : {r // P r} => st.sortValue model key.field r)
      (fun a b c => h key List.mem_cons_self a b c a.2 b.2 c.2) key
    exact inferInstanceAs (Std.TransCmp (compareLex
      (fun a b : {r // P r} =>
        key.order (st.sortValue model key.field a) (st.sortValue model key.field b))
      (fun a b => st.compareBy model rest a b)))

/-- **Records of which no sort value is misplaced can be sorted**, however many they are. -/
theorem arranges_of_noneMisplaced {model : String} {P : Record → Prop} {ordering : List OrderKey}
    (h : st.NoneMisplaced model ordering P) : st.Arranges model ordering P := by
  intro rs _ hrs
  have := transCmp_compareBy h
  rw [← List.attachWith_map_subtype_val hrs]
  exact sortable_map.mpr (sortable_of_transCmp _)

end Store

/-- No two records come before each other. -/
theorem Store.Precedes.asymm {model : String} {ordering : List OrderKey} {a b : Record}
    (h : st.Precedes model ordering a b) : ¬st.Precedes model ordering b a := by
  rw [precedes_iff] at *
  rw [compareBy_swap, h]
  decide

/-- **An ordering sorts.** Whatever writes have made a store, let a set be evaluated, and let no
record of the result have a float for a sort value. Then the same set without its ordering is
evaluated too, and the result is the one rearrangement of its records in which each precedes the
next: by the first key of the ordering whose sort values differ, in the direction of the key, and by
ascending primary key if there is none. -/
theorem evaluate_sorted (s : Schema) (ws : List StoreWrite) {set : RecordSet} {rs : List Record}
    (h : set.evaluate ((Store.empty s).after ws) = .ok rs)
    (hfloat : ∀ r ∈ rs, ∀ key ∈ set.ordering, ∀ x,
      ((Store.empty s).after ws).sortValue set.model key.field r ≠ .float x) :
    let st := (Store.empty s).after ws
    ∃ plain, { set with ordering := [] }.evaluate st = .ok plain ∧
      rs.Perm plain ∧ rs.Pairwise (st.Precedes set.model set.ordering) ∧
      ∀ others : List Record, others.Perm plain →
        others.Pairwise (st.Precedes set.model set.ordering) → others = rs := by
  intro st
  obtain ⟨plain, hplain, harrange⟩ := unordered_of_evaluate h
  obtain ⟨hperm, -⟩ := arrange_ok harrange
  have hpairwise : rs.Pairwise (st.Precedes set.model set.ordering) := by
    by_cases hsome : set.ordering = []
    · obtain ⟨-, -, hascending⟩ := base_of_evaluate (Store.filed_after_empty s ws) h
      rw [hsome]
      exact hascending hsome
    · have := Store.transCmp_compareBy (P := fun r => r ∈ rs)
        (Store.noneMisplaced_of_floatless hfloat)
      have hsorted : rs.Pairwise fun a b => (st.compareBy set.model set.ordering a b).isLE := by
        obtain ⟨-, hsort⟩ := sortBy_eq_ok_iff.mp (sortBy_of_arrange hsome harrange)
        rw [← hsort]
        exact pairwise_stableSort_of_mem (P := fun r => r ∈ rs) fun r hr => hperm.mem_iff.mpr hr
      obtain ⟨-, hnodup, -⟩ := base_of_evaluate (Store.filed_after_empty s ws) h
      -- records that are not told apart would have one key
      refine (hsorted.and (List.pairwise_map.mp hnodup)).imp fun {a b} hab => ?_
      rw [Store.precedes_iff]
      refine (Ordering.isLE_iff_eq_lt_or_eq_eq.mp hab.1).resolve_right fun heq => ?_
      exact hab.2 (Store.pk_eq_of_compareBy heq)
  refine ⟨plain, hplain, hperm, hpairwise, fun others hothers hsorted => ?_⟩
  exact (hothers.trans hperm.symm).eq_of_pairwise
    (fun a b _ _ hab hba => absurd hba hab.asymm) hsorted hpairwise

/-- One more book, by an author who is not stored and one who has a number for a name. -/
def numbering : List StoreWrite :=
  cataloguing ++ [.insert ⟨"Author", 6, SortedMap.ofList [("name", .int 7)], ∅⟩,
    .insert (written "Book" 6 [9, 6])]

/-- Books by the descending name of their first author, then by descending key. -/
def booksByAuthor : RecordSet := (RecordSet.of "Book").orderBy ["-authors.name", "-pk"]

def booksSorted : List Record :=
  [written "Anthology" 5 [2, 3], written "Book" 2 [2], written "Book" 1 [1, 9],
    written "Book" 6 [9, 6], written "Book" 4 [4], written "Book" 3 [9]]

/-- Two books share their first author, and the last two have none with a name. -/
theorem evaluate_sorted_numbering :
    let st := (Store.empty catalogueSchema).after numbering
    (booksByAuthor.evaluate st = .ok booksSorted ∧
      ∀ r ∈ booksSorted, ∀ key ∈ booksByAuthor.ordering, ∀ x,
        st.sortValue "Book" key.field r ≠ .float x) ∧
    ∃ plain, { booksByAuthor with ordering := [] }.evaluate st = .ok plain ∧
      booksSorted.Perm plain ∧
      booksSorted.Pairwise (st.Precedes "Book" booksByAuthor.ordering) ∧
      ∀ others : List Record, others.Perm plain →
        others.Pairwise (st.Precedes "Book" booksByAuthor.ordering) → others = booksSorted := by
  intro st
  have hsome : (booksByAuthor.evaluate st).toOption = some booksSorted := by decide +kernel
  have heval : booksByAuthor.evaluate st = .ok booksSorted := by
    cases hresult : booksByAuthor.evaluate st with
    | error e =>
      rw [hresult] at hsome
      nomatch hsome
    | ok rs =>
      rw [hresult] at hsome
      rw [Option.some.inj hsome]
  have hnames : ∀ r ∈ booksSorted, ∀ key ∈ booksByAuthor.ordering,
      (st.sortValue "Book" key.field r).typeName ≠ "Float" := by decide +kernel
  have hfloat : ∀ r ∈ booksSorted, ∀ key ∈ booksByAuthor.ordering, ∀ x,
      st.sortValue "Book" key.field r ≠ .float x :=
    fun r hr key hkey x hx => hnames r hr key hkey (hx ▸ rfl)
  exact ⟨⟨heval, hfloat⟩, evaluate_sorted catalogueSchema numbering heval hfloat⟩

end Concordance
