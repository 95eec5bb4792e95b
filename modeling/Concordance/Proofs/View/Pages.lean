import Concordance.Proofs.Search.Hits

/-!
# Pages of hits

A slice is cut out by arithmetic on its ends: the position behind an end may be one too far for 64
bits, and either end may lie outside the list or on the wrong side of the other. Read by positions
it is plain (`slice_eq_within`): a hit is shown if its position satisfies both bounds. At the limit
the arithmetic is right because no hit of a list stands at the last position that there is.

* **`slices_and_readings`**: slices are read by positions, pages between ascending cut points are the
  list, and the readings of a list agree with its slices.
-/

namespace Concordance

/-! ## Bounds -/

/-- Whether the bound, at the start of a range, leaves a position in it. -/
def Bound.isBelow (b : Bound) (position : Nat) : Bool :=
  match b with
  | .unbounded => true
  | .included p => p ≤ position
  | .excluded p => p < position

/-- Whether the bound, at the end of a range, leaves a position in it. -/
def Bound.isAbove (b : Bound) (position : Nat) : Bool :=
  match b with
  | .unbounded => true
  | .included p => position ≤ p
  | .excluded p => position < p

/-- Whether the position of a bound has 64 bits. -/
def Bound.Fits : Bound → Prop
  | .unbounded => True
  | .included p | .excluded p => p ≤ lastPosition

namespace Hits

theorem first_le {b : Bound} (h : b.Fits) : first b ≤ lastPosition := by
  cases b with
  | unbounded => exact Nat.zero_le _
  | included p => exact h
  | excluded p => exact Nat.min_le_right _ _

theorem stop_le {count : Nat} (hcount : count ≤ lastPosition) {b : Bound} (h : b.Fits) :
    stop count b ≤ lastPosition := by
  cases b with
  | unbounded => exact hcount
  | included p => exact Nat.min_le_right _ _
  | excluded p => exact h

section Positions

variable {count position : Nat} (hcount : count ≤ lastPosition) (h : position < count)
include hcount h

/-- What the start of a range leaves in it begins at its first position. -/
theorem first_le_iff (b : Bound) : first b ≤ position ↔ b.isBelow position = true := by
  cases b with
  | unbounded => simp [first, Bound.isBelow]
  | included p => simp [first, Bound.isBelow]
  | excluded p =>
    simp only [first, positionAfter, Bound.isBelow, decide_eq_true_eq]
    omega

/-- What the end of a range leaves in it goes up to the position behind it. -/
theorem lt_stop_iff (b : Bound) : position < stop count b ↔ b.isAbove position = true := by
  cases b with
  | unbounded => simp [stop, Bound.isAbove, h]
  | included p =>
    simp only [stop, positionAfter, Bound.isAbove, decide_eq_true_eq]
    omega
  | excluded p => simp [stop, Bound.isAbove]

end Positions

variable {hits : List Hit}

/-- **A slice shows the hits whose positions satisfy both bounds**, in order. -/
theorem slice_eq_within (hfits : hits.length ≤ lastPosition) (start finish : Bound) :
    slice start finish hits = (hits.zipIdx.filter fun x =>
      start.isBelow x.2 && finish.isAbove x.2).map Prod.fst := by
  rw [slice_eq_filter (start, finish)]
  congr 1
  refine List.filter_congr fun x hx => ?_
  have hlt : x.2 < hits.length := by
    have := List.mem_zipIdx (x := x.1) (i := x.2) hx
    omega
  rw [Bool.eq_iff_iff, shows, Bool.and_eq_true, Bool.and_eq_true, decide_eq_true_iff,
    decide_eq_true_iff, first_le_iff hfits hlt, lt_stop_iff hfits hlt]

/-! ## Pages -/

/-- A page from one position up to another, wherever they lie. -/
theorem slice_page (a b : Nat) (hits : List Hit) :
    slice (.included a) (.excluded b) hits = (hits.drop a).take (b - a) := by
  rw [slice_eq, first, stop]
  rcases Nat.le_total hits.length a with ha | ha
  · rw [Nat.min_eq_right ha, List.drop_length, List.drop_eq_nil_of_le ha, List.take_nil,
      List.take_nil]
  · rw [Nat.min_eq_left ha]
    rcases Nat.le_total hits.length b with hb | hb
    · rw [Nat.min_eq_right hb, List.take_of_length_le (by simp),
        List.take_of_length_le (by simp; omega)]
    · rw [Nat.min_eq_left hb]

/-- The pages between ascending cut points are what lies between the first of them and the last. -/
theorem flatMap_pages {a : Nat} {cuts : List Nat} (hcuts : (a :: cuts).IsChain (· ≤ ·))
    (hits : List Hit) :
    ((a :: cuts).zip cuts).flatMap (fun c => slice (.included c.1) (.excluded c.2) hits) =
      (hits.take ((a :: cuts).getLast (List.cons_ne_nil a cuts))).drop a := by
  induction cuts generalizing a with
  | nil => simp
  | cons b cuts ih =>
    obtain ⟨hab, hrest⟩ := List.isChain_cons_cons.mp hcuts
    set last := (b :: cuts).getLast (List.cons_ne_nil b cuts) with hlast
    have hbl : b ≤ last := by
      rcases List.mem_cons.mp (List.getLast_mem (List.cons_ne_nil b cuts)) with h | h
      · exact le_of_eq h.symm
      · exact List.rel_of_pairwise_cons (List.isChain_iff_pairwise.mp hrest) h
    have hpage : ((hits.take last).drop a).take (b - a) = (hits.drop a).take (b - a) := by
      rw [List.drop_take, List.take_take, Nat.min_eq_left (Nat.sub_le_sub_right hbl a)]
    have hrests : ((hits.take last).drop a).drop (b - a) = (hits.take last).drop b := by
      rw [List.drop_drop, Nat.add_sub_cancel' hab]
    rw [List.zip_cons_cons, List.flatMap_cons, ih hrest, slice_page, List.getLast_cons_cons, ← hlast,
      ← hpage, ← hrests, List.take_append_drop]

/-- **The pages between ascending cut points are the list**, if they start at its beginning and go
to its end. -/
theorem pages_eq {cuts : List Nat} (hcuts : (0 :: cuts).IsChain (· ≤ ·))
    (hlast : hits.length ≤ (0 :: cuts).getLast (List.cons_ne_nil 0 cuts)) :
    ((0 :: cuts).zip cuts).flatMap (fun c => slice (.included c.1) (.excluded c.2) hits) = hits := by
  rw [flatMap_pages hcuts, List.drop_zero, List.take_of_length_le hlast]

/-! ## Other readings -/

theorem slice_at (hfits : hits.length ≤ lastPosition) (position : Nat) :
    slice (.included position) (.included position) hits = hits[position]?.toList := by
  have hsame : (fun x : Hit × Nat =>
      (Bound.included position).isBelow x.2 && (Bound.included position).isAbove x.2) =
      fun x => decide (position ≤ x.2) && decide (x.2 < position + 1) := by
    funext x
    simp [Bound.isBelow, Bound.isAbove]
  rw [slice_eq_within hfits, hsame, filter_zipIdx]
  simp [List.take_one]

theorem records_eq (hits : List Hit) : records hits = hits.map Hit.record := by
  simp [records, slice_eq, first, stop]

theorem mem_keys {pk : Key} : pk ∈ keys hits ↔ ∃ h ∈ hits, h.record.pk = pk := by
  rw [keys, mem_keys_ofKeys, List.mem_map]

theorem pairwise_keys (hits : List Hit) : (keys hits).Pairwise (· < ·) :=
  List.pairwise_map.mpr ((KeySet.ofKeys _).sorted.imp Std.compare_eq_lt.mp)

/-- **Slices and readings of a list of hits**, whose positions have 64 bits. A slice shows the hits
whose positions satisfy both of its bounds, in order, and what it computes on the way has 64 bits
too. Pages between ascending cut points are the list. The record at a position is that of the slice
of this position only; records, their number and the set of their keys are those of the list. -/
theorem slices_and_readings (hits : List Hit) (hfits : hits.length ≤ lastPosition) :
    (∀ start finish, slice start finish hits = (hits.zipIdx.filter fun x =>
      start.isBelow x.2 && finish.isAbove x.2).map Prod.fst) ∧
    (∀ b : Bound, b.Fits → first b ≤ lastPosition ∧ stop hits.length b ≤ lastPosition) ∧
    (∀ cuts, (0 :: cuts).IsChain (· ≤ ·) →
      hits.length ≤ (0 :: cuts).getLast (List.cons_ne_nil 0 cuts) →
      ((0 :: cuts).zip cuts).flatMap (fun c => slice (.included c.1) (.excluded c.2) hits) = hits) ∧
    (∀ position,
      (slice (.included position) (.included position) hits).map Hit.record =
        (at? position hits).toList ∧
      ((at? position hits).isSome = true ↔ position < count hits)) ∧
    records hits = hits.map Hit.record ∧ count hits = hits.length ∧
    (keys hits).Pairwise (· < ·) ∧ ∀ pk, pk ∈ keys hits ↔ ∃ h ∈ hits, h.record.pk = pk := by
  refine ⟨slice_eq_within hfits, fun b hb => ⟨first_le hb, stop_le hfits hb⟩,
    fun cuts hcuts hlast => pages_eq hcuts hlast, fun position => ⟨?_, ?_⟩, records_eq hits, rfl,
    pairwise_keys hits, fun pk => mem_keys⟩
  · rw [slice_at hfits, at?]
    cases hits[position]? <;> rfl
  · simp [at?, count]

/-- Five hits with ascending keys. -/
def fiveHits : List Hit := [5, 6, 7, 8, 9].map fun pk => ⟨⟨"Book", pk, ∅, ∅⟩, 0.5⟩

/-- Nothing lies behind the last position and all up to it, a range that ends before it starts is
empty, and three pages, one of them empty and one longer than what is left, are the list. -/
theorem slices_and_readings_five :
    fiveHits.length ≤ lastPosition ∧
    slice (.excluded lastPosition) .unbounded fiveHits = [] ∧
    slice .unbounded (.included lastPosition) fiveHits = fiveHits ∧
    slice (.included 4) (.excluded 2) fiveHits = [] ∧
    slice (.included 0) (.excluded 2) fiveHits ++ slice (.included 2) (.excluded 2) fiveHits ++
      slice (.included 2) (.excluded 7) fiveHits = fiveHits ∧
    (slice (.included 3) (.included 3) fiveHits).map (fun h => h.record.pk) = [8] ∧
    at? 5 fiveHits = none ∧ count fiveHits = 5 ∧ 8 ∈ keys fiveHits := by
  have hfits : fiveHits.length ≤ lastPosition := by decide
  obtain ⟨hslice, -, hpages, hat, -, hcount, -, hkeys⟩ := slices_and_readings fiveHits hfits
  refine ⟨hfits, ?_, ?_, ?_, ?_, ?_, ?_, hcount, ?_⟩
  · rw [hslice]
    decide +kernel
  · rw [hslice]
    decide +kernel
  · rw [hslice]
    decide +kernel
  · simpa using hpages [2, 2, 7] (by decide) (by decide)
  · rw [hslice]
    decide +kernel
  · rw [← Option.not_isSome_iff_eq_none, (hat 5).2]
    decide
  · exact (hkeys 8).mpr (by decide +kernel)

end Hits

end Concordance
