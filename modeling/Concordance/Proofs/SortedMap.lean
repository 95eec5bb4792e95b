import Concordance.SortedMap
import Mathlib

/-!
# Lookups and contents of sorted maps

What the operations of a `SortedMap` do to its lookups, and what a write or a removal does to the
list of all values, up to order: a new key adds one value (`perm_values_insert`), and a removed key
takes its value away (`perm_values_erase`). Sums and counts over a map follow from these two.
-/

namespace Concordance.SortedMap

variable {K V W : Type} [Ord K] [Std.LawfulEqOrd K]

/-! ## Lookups -/

theorem mem_of_lookup {k : K} {v : V} {l : List (K × V)} (h : lookup k l = some v) :
    (k, v) ∈ l := by
  induction l with
  | nil => exact absurd h (by simp [lookup])
  | cons e rest ih =>
    obtain ⟨k', v'⟩ := e
    rw [lookup] at h
    split at h
    · rename_i hk
      rw [Std.LawfulEqCmp.eq_of_compare hk, Option.some.inj h]
      exact List.mem_cons_self
    · exact List.mem_cons_of_mem _ (ih h)

theorem lookup_of_mem {k : K} {v : V} {l : List (K × V)}
    (hs : l.Pairwise fun a b => compare a.1 b.1 = .lt) (h : (k, v) ∈ l) :
    lookup k l = some v := by
  induction l with
  | nil => exact absurd h List.not_mem_nil
  | cons e rest ih =>
    obtain ⟨hlt, hrest⟩ := List.pairwise_cons.mp hs
    rcases List.mem_cons.mp h with rfl | h
    · rw [lookup, if_pos (by simp)]
    · have hne : compare k e.1 ≠ .eq := fun he => by
        have hk : compare e.1 k = .lt := hlt (k, v) h
        rw [Std.LawfulEqCmp.eq_of_compare he] at hk
        exact absurd hk (by simp)
      rw [lookup, if_neg hne]
      exact ih hrest h

/-- The lookups of a map are its entries. -/
theorem get?_eq_some_iff {m : SortedMap K V} {k : K} {v : V} :
    m.get? k = some v ↔ (k, v) ∈ m.toList :=
  ⟨mem_of_lookup, lookup_of_mem m.sorted⟩

omit [Std.LawfulEqOrd K] in
theorem contains_iff {m : SortedMap K V} {k : K} :
    m.contains k = true ↔ ∃ v, m.get? k = some v := by
  unfold contains
  rw [Option.isSome_iff_exists]

theorem mem_keys {m : SortedMap K V} {k : K} : k ∈ m.keys ↔ m.contains k = true := by
  unfold keys
  simp only [List.mem_map, contains_iff, get?_eq_some_iff]
  constructor
  · rintro ⟨⟨k', v⟩, h, rfl⟩
    exact ⟨v, h⟩
  · rintro ⟨v, h⟩
    exact ⟨(k, v), h, rfl⟩

omit [Std.LawfulEqOrd K] in
theorem length_values (m : SortedMap K V) : m.values.length = m.size := by
  unfold values size
  rw [List.length_map]

theorem get?_alter [Std.TransOrd K] [DecidableEq K] (m : SortedMap K V) (k q : K)
    (f : Option V → Option V) :
    (m.alter k f).get? q = if q = k then f (m.get? k) else m.get? q := by
  unfold alter
  cases hf : f (m.get? k) with
  | some v => exact get?_insert m k q v
  | none => exact get?_erase m k q

/-- Updates at the keys of a list are played on each cell alone. -/
theorem get?_foldl_alter [Std.TransOrd K] [DecidableEq K] {α : Type} (key : α → K)
    (f : α → Option V → Option V) (xs : List α) (m : SortedMap K V) (k : K) :
    (xs.foldl (fun m x => m.alter (key x) (f x)) m).get? k =
      (xs.filter fun x => key x == k).foldl (fun cell x => f x cell) (m.get? k) := by
  induction xs generalizing m with
  | nil => rfl
  | cons x xs ih =>
    rw [List.foldl_cons, ih, get?_alter]
    by_cases hk : key x = k
    · rw [List.filter_cons_of_pos (by simpa using hk), List.foldl_cons, if_pos hk.symm, hk]
    · rw [List.filter_cons_of_neg (by simpa using hk), if_neg (Ne.symm hk)]

/-- Entries with distinct keys all stand in their map. -/
theorem get?_ofList [Std.TransOrd K] [DecidableEq K] {entries : List (K × V)}
    (hn : (entries.map Prod.fst).Nodup) {e : K × V} (he : e ∈ entries) :
    (ofList entries).get? e.1 = some e.2 := by
  induction entries using List.reverseRecOn with
  | nil => exact absurd he List.not_mem_nil
  | append_singleton rest x ih =>
    rw [List.map_append, List.nodup_append] at hn
    unfold ofList at ih ⊢
    rw [List.foldl_append, List.foldl_cons, List.foldl_nil, get?_insert]
    rcases List.mem_append.mp he with he | he
    · have hne : e.1 ≠ x.1 :=
        hn.2.2 e.1 (List.mem_map_of_mem he) x.1 (List.mem_map_of_mem List.mem_cons_self)
      rw [if_neg hne]
      exact ih hn.1 he
    · rw [List.mem_singleton.mp he, if_pos rfl]

/-- A map of listed entries has a value at the listed keys and at no others. -/
theorem contains_ofList [Std.TransOrd K] [DecidableEq K] {entries : List (K × V)} {k : K} :
    (ofList entries).contains k = true ↔ k ∈ entries.map Prod.fst := by
  induction entries using List.reverseRecOn with
  | nil => exact iff_of_false (by simp [ofList, contains]) List.not_mem_nil
  | append_singleton rest x ih =>
    unfold ofList contains at ih ⊢
    rw [List.foldl_append, List.foldl_cons, List.foldl_nil, get?_insert, List.map_append,
      List.mem_append, ← ih]
    by_cases hk : k = x.1
    · simp [hk]
    · simp [hk]

/-- A map holds nothing but the listed entries. -/
theorem mem_of_mem_ofList [Std.TransOrd K] {entries : List (K × V)} {e : K × V}
    (h : e ∈ (ofList entries).toList) : e ∈ entries := by
  have hfold : ∀ (entries : List (K × V)) (m : SortedMap K V),
      e ∈ (entries.foldl (fun m e => m.insert e.1 e.2) m).toList → e ∈ entries ∨ e ∈ m.toList := by
    intro entries
    induction entries with
    | nil => exact fun m h => Or.inr h
    | cons x entries ih =>
      intro m h
      obtain hmem | hmem := ih _ h
      · exact Or.inl (List.mem_cons_of_mem _ hmem)
      · obtain rfl | hmem := mem_insertEntry hmem
        · exact Or.inl List.mem_cons_self
        · exact Or.inr hmem
  exact (hfold entries ∅ h).elim id fun h => (nomatch h)

/-- The entries at one key: its value, if it has one. -/
theorem filter_toList [DecidableEq K] (m : SortedMap K V) (k : K) :
    (m.toList.filter fun e => e.1 == k) = (m.get? k).toList.map fun v => (k, v) := by
  obtain ⟨l, hs⟩ := m
  unfold get?
  induction l with
  | nil => rfl
  | cons e rest ih =>
    obtain ⟨hlt, hrest⟩ := List.pairwise_cons.mp hs
    obtain ⟨k', v⟩ := e
    by_cases hk : k' = k
    · subst hk
      have hnone : (rest.filter fun e => e.1 == k') = [] :=
        List.filter_eq_nil_iff.mpr fun e he h => by
          have hk := hlt e he
          rw [beq_iff_eq.mp h] at hk
          exact absurd hk (by simp)
      rw [List.filter_cons_of_pos (by simp), hnone, lookup, if_pos (by simp)]
      rfl
    · rw [List.filter_cons_of_neg (by simpa using hk), lookup,
        if_neg (by simpa using Ne.symm hk)]
      exact ih hrest

theorem get?_filterMap (f : K → V → Option W) (m : SortedMap K V) (k : K) :
    (m.filterMap f).get? k = (m.get? k).bind (f k) := by
  ext w
  rw [get?_eq_some_iff, Option.bind_eq_some_iff]
  unfold filterMap
  simp only [List.mem_filterMap, Option.map_eq_some_iff, Prod.mk.injEq, get?_eq_some_iff]
  constructor
  · rintro ⟨⟨k', v⟩, h, w', hw, rfl, rfl⟩
    exact ⟨v, h, hw⟩
  · rintro ⟨v, h, hw⟩
    exact ⟨(k, v), h, w, hw, rfl, rfl⟩

/-- Keeping some of the entries keeps their values. -/
theorem get?_filter (p : K → V → Bool) (m : SortedMap K V) (k : K) :
    (m.filter p).get? k = (m.get? k).filter (p k) := by
  ext v
  rw [get?_eq_some_iff, Option.filter_eq_some_iff, get?_eq_some_iff]
  exact List.mem_filter

theorem get?_map (f : V → W) (m : SortedMap K V) (k : K) :
    (m.map f).get? k = (m.get? k).map f := by
  ext w
  rw [get?_eq_some_iff, Option.map_eq_some_iff]
  unfold map
  simp only [List.mem_map, Prod.mk.injEq, get?_eq_some_iff]
  constructor
  · rintro ⟨⟨k', v⟩, h, rfl, rfl⟩
    exact ⟨v, h, rfl⟩
  · rintro ⟨v, h, rfl⟩
    exact ⟨(k, v), h, rfl, rfl⟩

/-- The keys of a map are ascending, so which they are fixes their list. -/
theorem keys_congr [Std.TransOrd K] {a : SortedMap K V} {b : SortedMap K W}
    (h : ∀ k, k ∈ a.keys ↔ k ∈ b.keys) : a.keys = b.keys := by
  have hmap : ∀ {X : Type} (m : SortedMap K X), (m.map fun _ => ()).keys = m.keys := by
    intro X m
    unfold keys map
    rw [List.map_map]
    rfl
  rw [← hmap a, ← hmap b]
  congr 1
  refine ext_get? fun k => ?_
  rw [get?_map, get?_map]
  have hk := h k
  rw [mem_keys, mem_keys] at hk
  unfold contains at hk
  cases ha : a.get? k <;> cases hb : b.get? k <;> simp [ha, hb] at hk ⊢

/-- No key stands twice. -/
theorem nodup_keys (m : SortedMap K V) : m.keys.Nodup := by
  refine List.pairwise_map.mpr (m.sorted.imp fun {a b} hlt heq => ?_)
  rw [heq] at hlt
  exact absurd hlt (by simp)

/-- A map is the map of its entries. -/
theorem ofList_toList [Std.TransOrd K] [DecidableEq K] (m : SortedMap K V) :
    ofList m.toList = m := by
  refine ext_get? fun k => Option.ext fun v => ?_
  rw [get?_eq_some_iff, get?_eq_some_iff]
  exact ⟨mem_of_mem_ofList, fun h => get?_eq_some_iff.mp (get?_ofList (nodup_keys m) h)⟩

omit [Std.LawfulEqOrd K] in
/-- A map without entries answers no lookup. -/
theorem get?_of_isEmpty {m : SortedMap K V} (h : m.isEmpty = true) (k : K) : m.get? k = none := by
  unfold isEmpty at h
  unfold get?
  rw [List.isEmpty_iff.mp h, lookup]

/-! ## All values, up to order -/

omit [Std.LawfulEqOrd K] in
theorem perm_insertEntry {k : K} {v : V} {l : List (K × V)} (h : lookup k l = none) :
    (insertEntry k v l).Perm ((k, v) :: l) := by
  induction l with
  | nil => exact List.Perm.refl _
  | cons e rest ih =>
    obtain ⟨k', v'⟩ := e
    rw [lookup] at h
    split at h
    · exact absurd h (by simp)
    · rename_i hne
      rw [insertEntry]
      split
      · exact List.Perm.refl _
      · rename_i heq
        exact absurd heq hne
      · exact ((ih h).cons _).trans (List.Perm.swap _ _ _)

/-- A new key adds its value. -/
theorem perm_values_insert [Std.TransOrd K] {m : SortedMap K V} {k : K} (h : m.get? k = none)
    (v : V) :
    (m.insert k v).values.Perm (v :: m.values) :=
  (perm_insertEntry h).map Prod.snd

theorem perm_filter_ne {k : K} {v : V} {l : List (K × V)}
    (hs : l.Pairwise fun a b => compare a.1 b.1 = .lt) (h : lookup k l = some v) :
    l.Perm ((k, v) :: l.filter fun e => compare k e.1 != .eq) := by
  induction l with
  | nil => exact absurd h (by simp [lookup])
  | cons e rest ih =>
    obtain ⟨hlt, hrest⟩ := List.pairwise_cons.mp hs
    obtain ⟨k', v'⟩ := e
    rw [lookup] at h
    split at h
    · rename_i hk
      obtain rfl := Std.LawfulEqCmp.eq_of_compare hk
      obtain rfl := Option.some.inj h
      have hkeep : (rest.filter fun e => compare k e.1 != .eq) = rest :=
        List.filter_eq_self.mpr fun e he => by rw [hlt e he]; rfl
      rw [List.filter_cons_of_neg (by simp), hkeep]
    · rename_i hk
      rw [List.filter_cons_of_pos (by simpa using hk)]
      exact ((ih hrest h).cons _).trans (List.Perm.swap _ _ _)

/-- A removed key takes its value away. -/
theorem perm_values_erase {m : SortedMap K V} {k : K} {v : V} (h : m.get? k = some v) :
    m.values.Perm (v :: (m.erase k).values) :=
  (perm_filter_ne m.sorted h).map Prod.snd

end Concordance.SortedMap
