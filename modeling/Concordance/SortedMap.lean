/-!
# Maps sorted by key

A `SortedMap K V` is a list of `(key, value)` entries whose keys increase strictly. The order is
part of the type, so a map is its contents: two maps that answer every lookup alike are equal
(`ext_get?`), and what a traversal visits is ascending by key whatever was inserted first.

`insert` and `erase` change one key (`get?_insert`, `get?_erase`); `filter` and `map` keep the
order. Every table of the library that is read in key order is one of these.
-/

namespace Concordance

variable {K V W : Type}

/-- Entries strictly ascending by key. -/
structure SortedMap (K V : Type) [Ord K] where
  /-- The entries, smallest key first. -/
  toList : List (K × V)
  /-- Each key is below all later ones. -/
  sorted : toList.Pairwise fun a b => compare a.1 b.1 = .lt

namespace SortedMap

/-! ## Sorted entry lists -/

/-- Writes `v` at `k`: the one entry with that key is replaced, or a new one takes its place. -/
def insertEntry [Ord K] (k : K) (v : V) : List (K × V) → List (K × V)
  | [] => [(k, v)]
  | (k', v') :: rest =>
    match compare k k' with
    | .lt => (k, v) :: (k', v') :: rest
    | .eq => (k, v) :: rest
    | .gt => (k', v') :: insertEntry k v rest

/-- The value of the first entry at `k`. -/
def lookup [Ord K] (k : K) : List (K × V) → Option V
  | [] => none
  | (k', v) :: rest => if compare k k' = .eq then some v else lookup k rest

theorem mem_insertEntry [Ord K] {k : K} {v : V} {l : List (K × V)} {e : K × V}
    (h : e ∈ insertEntry k v l) : e = (k, v) ∨ e ∈ l := by
  induction l with
  | nil => exact Or.inl (List.mem_singleton.mp h)
  | cons x rest ih =>
    obtain ⟨k', v'⟩ := x
    rw [insertEntry] at h
    split at h
    · exact List.mem_cons.mp h
    · exact (List.mem_cons.mp h).imp_right (List.mem_cons_of_mem _)
    · rcases List.mem_cons.mp h with h | h
      · exact Or.inr (h ▸ List.mem_cons_self)
      · exact (ih h).imp_right (List.mem_cons_of_mem _)

variable [Ord K] [Std.TransOrd K] [Std.LawfulEqOrd K]

theorem sorted_insertEntry (k : K) (v : V) {l : List (K × V)}
    (h : l.Pairwise fun a b => compare a.1 b.1 = .lt) :
    (insertEntry k v l).Pairwise fun a b => compare a.1 b.1 = .lt := by
  induction l with
  | nil => exact List.pairwise_singleton _ _
  | cons x rest ih =>
    obtain ⟨k', v'⟩ := x
    obtain ⟨hlt, hrest⟩ := List.pairwise_cons.mp h
    rw [insertEntry]
    split
    · rename_i hk
      refine List.pairwise_cons.mpr ⟨fun e he => ?_, h⟩
      rcases List.mem_cons.mp he with rfl | he
      · exact hk
      · exact Std.TransCmp.lt_trans hk (hlt e he)
    · rename_i hk
      have : k = k' := Std.LawfulEqCmp.eq_of_compare hk
      exact List.pairwise_cons.mpr ⟨fun e he => this ▸ hlt e he, hrest⟩
    · rename_i hk
      refine List.pairwise_cons.mpr ⟨fun e he => ?_, ih hrest⟩
      rcases mem_insertEntry he with rfl | he
      · exact Std.OrientedCmp.gt_iff_lt.mp hk
      · exact hlt e he

/-! ## The map -/

/-- The map without entries. -/
protected def empty : SortedMap K V := ⟨[], List.Pairwise.nil⟩

instance : EmptyCollection (SortedMap K V) := ⟨SortedMap.empty⟩

instance : Inhabited (SortedMap K V) := ⟨SortedMap.empty⟩

/-- The value at `k`. -/
def get? (m : SortedMap K V) (k : K) : Option V := lookup k m.toList

/-- The value at `k`, or `d`. -/
def getD (m : SortedMap K V) (k : K) (d : V) : V := (m.get? k).getD d

/-- Whether `k` has a value. -/
def contains (m : SortedMap K V) (k : K) : Bool := (m.get? k).isSome

/-- Writes `v` at `k`. -/
def insert (m : SortedMap K V) (k : K) (v : V) : SortedMap K V :=
  ⟨insertEntry k v m.toList, sorted_insertEntry k v m.sorted⟩

/-- Keeps the entries that satisfy `p`. -/
def filter (p : K → V → Bool) (m : SortedMap K V) : SortedMap K V :=
  ⟨m.toList.filter fun e => p e.1 e.2, m.sorted.filter _⟩

/-- Removes the entry at `k`. -/
def erase (m : SortedMap K V) (k : K) : SortedMap K V :=
  m.filter fun k' _ => compare k k' != .eq

/-- Changes the value at `k` (absent included); `none` removes the entry. -/
def alter (m : SortedMap K V) (k : K) (f : Option V → Option V) : SortedMap K V :=
  match f (m.get? k) with
  | some v => m.insert k v
  | none => m.erase k

/-- Applies `f` to every value. -/
def map (f : V → W) (m : SortedMap K V) : SortedMap K W :=
  ⟨m.toList.map fun e => (e.1, f e.2), List.pairwise_map.mpr m.sorted⟩

omit [Std.TransOrd K] [Std.LawfulEqOrd K] in
theorem sorted_filterMap (f : K → V → Option W) {l : List (K × V)}
    (h : l.Pairwise fun a b => compare a.1 b.1 = .lt) :
    (l.filterMap fun e => (f e.1 e.2).map fun w => (e.1, w)).Pairwise
      fun a b => compare a.1 b.1 = .lt := by
  refine List.Pairwise.filterMap _ (fun a b hab x hx y hy => ?_) h
  obtain ⟨v, -, rfl⟩ := Option.map_eq_some_iff.mp hx
  obtain ⟨w, -, rfl⟩ := Option.map_eq_some_iff.mp hy
  exact hab

/-- Changes each value by its key, dropping the entries for which `f` gives none. -/
def filterMap (f : K → V → Option W) (m : SortedMap K V) : SortedMap K W :=
  ⟨m.toList.filterMap fun e => (f e.1 e.2).map fun w => (e.1, w), sorted_filterMap f m.sorted⟩

/-- The keys, ascending. -/
def keys (m : SortedMap K V) : List K := m.toList.map Prod.fst

/-- The values, by ascending key. -/
def values (m : SortedMap K V) : List V := m.toList.map Prod.snd

/-- The number of entries. -/
def size (m : SortedMap K V) : Nat := m.toList.length

/-- Whether there is no entry. -/
def isEmpty (m : SortedMap K V) : Bool := m.toList.isEmpty

/-- The map of `entries`; of two with one key the later wins. -/
def ofList (entries : List (K × V)) : SortedMap K V :=
  entries.foldl (fun m e => m.insert e.1 e.2) ∅

/-! ## Lookups after a change -/

omit [Std.TransOrd K] [Std.LawfulEqOrd K] in
@[ext] theorem ext {a b : SortedMap K V} (h : a.toList = b.toList) : a = b := by
  cases a; cases b; cases h; rfl

instance [DecidableEq K] [DecidableEq V] : DecidableEq (SortedMap K V) := fun a b =>
  decidable_of_iff (a.toList = b.toList) ⟨ext, fun h => h ▸ rfl⟩

omit [Std.TransOrd K] [Std.LawfulEqOrd K] in
@[simp] theorem get?_empty (k : K) : (∅ : SortedMap K V).get? k = none := rfl

omit [Std.TransOrd K] [Std.LawfulEqOrd K] in
theorem lookup_eq_none_of_lt {k : K} {l : List (K × V)} (h : ∀ e ∈ l, compare k e.1 = .lt) :
    lookup k l = none := by
  induction l with
  | nil => rfl
  | cons x rest ih =>
    rw [lookup, if_neg (by simp [h x List.mem_cons_self])]
    exact ih fun e he => h e (List.mem_cons_of_mem _ he)

omit [Std.TransOrd K] in
theorem lookup_insertEntry [DecidableEq K] (k q : K) (v : V) (l : List (K × V)) :
    lookup q (insertEntry k v l) = if q = k then some v else lookup q l := by
  induction l with
  | nil => simp [insertEntry, lookup]
  | cons x rest ih =>
    obtain ⟨k', v'⟩ := x
    rw [insertEntry]
    split
    · simp only [lookup, Std.compare_eq_iff_eq]
    · rename_i hk
      have : k = k' := Std.LawfulEqCmp.eq_of_compare hk
      subst this
      simp only [lookup, Std.compare_eq_iff_eq]
      split <;> rfl
    · rename_i hk
      simp only [lookup, Std.compare_eq_iff_eq, ih]
      by_cases hq : q = k'
      · subst hq
        have : q ≠ k := fun h => by subst h; simp at hk
        simp [this]
      · simp [hq]

/-- **Reading after a write.** -/
theorem get?_insert [DecidableEq K] (m : SortedMap K V) (k q : K) (v : V) :
    (m.insert k v).get? q = if q = k then some v else m.get? q :=
  lookup_insertEntry k q v m.toList

omit [Std.TransOrd K] in
theorem lookup_filter_ne [DecidableEq K] (k q : K) (l : List (K × V)) :
    lookup q (l.filter fun e => compare k e.1 != .eq) = if q = k then none else lookup q l := by
  induction l with
  | nil => simp [lookup]
  | cons x rest ih =>
    obtain ⟨k', v'⟩ := x
    by_cases hk : k = k'
    · subst hk
      rw [List.filter_cons_of_neg (by simp), ih]
      by_cases hq : q = k
      · simp [hq]
      · simp [lookup, hq]
    · rw [List.filter_cons_of_pos (by simpa using hk)]
      simp only [lookup, Std.compare_eq_iff_eq, ih]
      by_cases hq : q = k'
      · subst hq
        simp [Ne.symm hk]
      · simp [hq]

omit [Std.TransOrd K] in
/-- **Reading after a removal.** -/
theorem get?_erase [DecidableEq K] (m : SortedMap K V) (k q : K) :
    (m.erase k).get? q = if q = k then none else m.get? q :=
  lookup_filter_ne k q m.toList

theorem lookup_ext : ∀ {a b : List (K × V)},
    a.Pairwise (fun x y => compare x.1 y.1 = .lt) → b.Pairwise (fun x y => compare x.1 y.1 = .lt) →
    (∀ q, lookup q a = lookup q b) → a = b
  | [], [], _, _, _ => rfl
  | [], (k, v) :: _, _, _, h => by simpa [lookup] using h k
  | (k, v) :: _, [], _, _, h => by simpa [lookup] using h k
  | (k₁, v₁) :: r₁, (k₂, v₂) :: r₂, ha, hb, h => by
    obtain ⟨hl₁, hr₁⟩ := List.pairwise_cons.mp ha
    obtain ⟨hl₂, hr₂⟩ := List.pairwise_cons.mp hb
    cases hc : compare k₁ k₂ with
    | lt =>
      have := h k₁
      rw [lookup, if_pos (by simp), lookup, if_neg (by simp [hc]),
        lookup_eq_none_of_lt fun e he => Std.TransCmp.lt_trans hc (hl₂ e he)] at this
      exact absurd this (by simp)
    | gt =>
      have hc' := Std.OrientedCmp.gt_iff_lt.mp hc
      have := h k₂
      rw [lookup, if_neg (by simp [hc']), lookup, if_pos (by simp),
        lookup_eq_none_of_lt fun e he => Std.TransCmp.lt_trans hc' (hl₁ e he)] at this
      exact absurd this (by simp)
    | eq =>
      have hk : k₁ = k₂ := Std.LawfulEqCmp.eq_of_compare hc
      subst hk
      have hv := h k₁
      simp only [lookup, Std.compare_eq_iff_eq, if_true, Option.some.injEq] at hv
      subst hv
      have hr : ∀ q, lookup q r₁ = lookup q r₂ := fun q => by
        by_cases hq : q = k₁
        · subst hq
          rw [lookup_eq_none_of_lt hl₁, lookup_eq_none_of_lt hl₂]
        · simpa [lookup, hq] using h q
      rw [lookup_ext hr₁ hr₂ hr]

/-- **Maps are equal when every lookup agrees.** -/
theorem ext_get? {a b : SortedMap K V} (h : ∀ q, a.get? q = b.get? q) : a = b :=
  ext (lookup_ext a.sorted b.sorted h)

end SortedMap

end Concordance
