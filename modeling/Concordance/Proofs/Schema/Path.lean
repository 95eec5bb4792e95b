import Concordance.Schema.Resolve
import Mathlib

/-!
# Segments of paths

`Path.covers` compares the bytes of two texts and looks for a dot behind the shorter one. UTF-8
makes a prefix of bytes a prefix of characters, and a dot behind a prefix is a cut between two
segments.

* `covers_iff`: a field covers a path iff its segments are the first ones of the path.
* `segments_inj`, `parts_below`: a path is known by its segments, and a name without a dot adds
  itself to those of the path that it stands below.
-/

namespace Concordance.Path

/-! ## Bytes and characters -/

theorem bytes_eq (s : String) : bytes s = (s.toList.flatMap String.utf8EncodeChar) := by
  unfold bytes
  rw [← String.utf8Encode_toList, List.utf8Encode]
  simp

theorem bytes_append_dot (field : String) :
    bytes field ++ [46] = (field.toList ++ ['.']).flatMap String.utf8EncodeChar := by
  rw [bytes_eq, List.flatMap_append]
  rfl

/-- A prefix of bytes is a prefix of characters. -/
theorem prefix_of_encoded_prefix {a b : List Char}
    (h : a.flatMap String.utf8EncodeChar <+: b.flatMap String.utf8EncodeChar) : a <+: b := by
  obtain ⟨rest, hrest⟩ := h
  refine List.isPrefix_of_utf8Encode_append_eq_utf8Encode rest.toByteArray ?_
  unfold List.utf8Encode
  rw [← hrest, List.toByteArray_append]

theorem prefix_append_singleton_iff {α : Type} {xs ys : List α} {a : α} :
    xs ++ [a] <+: ys ↔ xs <+: ys ∧ ys[xs.length]? = some a := by
  constructor
  · rintro ⟨t, rfl⟩
    refine ⟨⟨a :: t, by simp⟩, ?_⟩
    rw [List.append_assoc, List.getElem?_append_right (Nat.le_refl _), Nat.sub_self]
    rfl
  · rintro ⟨⟨t, rfl⟩, ha⟩
    rw [List.getElem?_append_right (Nat.le_refl _), Nat.sub_self] at ha
    cases t with
    | nil => exact absurd ha (by simp)
    | cons b t =>
      rw [List.getElem?_cons_zero, Option.some.injEq] at ha
      exact ⟨t, by rw [ha, List.append_assoc]; rfl⟩

/-- Covering, by characters: the path is the field, or continues it after a dot. -/
theorem covers_iff_toList (field path : String) :
    covers field path = true ↔
      field.toList = path.toList ∨ field.toList ++ ['.'] <+: path.toList := by
  unfold covers
  simp only [Bool.or_eq_true, Bool.and_eq_true, beq_iff_eq, List.isPrefixOf_iff_prefix,
    ← prefix_append_singleton_iff]
  refine or_congr ⟨fun h => by rw [h], fun h => (String.toList_inj.mp h).symm⟩ ?_
  rw [bytes_append_dot, bytes_eq path]
  constructor
  · exact prefix_of_encoded_prefix
  · rintro ⟨t, ht⟩
    exact ⟨t.flatMap String.utf8EncodeChar, by
      rw [← ht, List.flatMap_append, List.flatMap_append, List.flatMap_append]⟩

/-! ## Characters and segments -/

theorem exists_splitDots (cs : List Char) : ∃ seg segs, splitDots cs = seg :: segs := by
  cases cs with
  | nil => exact ⟨[], [], rfl⟩
  | cons c cs =>
    rw [splitDots]
    split
    · exact ⟨[], splitDots cs, rfl⟩
    · split
      · rename_i seg segs _
        exact ⟨c :: seg, segs, rfl⟩
      · exact ⟨[c], [], rfl⟩

theorem splitDots_dot (cs : List Char) : splitDots ('.' :: cs) = [] :: splitDots cs := by
  rw [splitDots, if_pos rfl]

theorem splitDots_cons {c : Char} (hc : c ≠ '.') {cs seg : List Char} {segs : List (List Char)}
    (h : splitDots cs = seg :: segs) : splitDots (c :: cs) = (c :: seg) :: segs := by
  rw [splitDots, if_neg hc, h]

/-- The segments of one text are the first ones of another iff the texts are equal or the other
goes on with a dot. -/
theorem splitDots_prefix_iff (fs ps : List Char) :
    splitDots fs <+: splitDots ps ↔ fs = ps ∨ fs ++ ['.'] <+: ps := by
  induction fs generalizing ps with
  | nil =>
    cases ps with
    | nil => simp
    | cons d ps =>
      by_cases hd : d = '.'
      · subst hd
        rw [splitDots_dot]
        simp [splitDots]
      · obtain ⟨seg, segs, hs⟩ := exists_splitDots ps
        rw [splitDots_cons hd hs]
        simp [splitDots, Ne.symm hd]
  | cons c fs ih =>
    obtain ⟨seg, segs, hs⟩ := exists_splitDots fs
    cases ps with
    | nil =>
      by_cases hc : c = '.'
      · subst hc
        rw [splitDots_dot, hs]
        simp [splitDots]
      · rw [splitDots_cons hc hs]
        simp [splitDots]
    | cons d ps =>
      obtain ⟨seg', segs', hs'⟩ := exists_splitDots ps
      by_cases hc : c = '.'
      · subst hc
        by_cases hd : d = '.'
        · subst hd
          rw [splitDots_dot, splitDots_dot, List.prefix_cons_inj, ih]
          simp
        · rw [splitDots_dot, splitDots_cons hd hs']
          simp [Ne.symm hd]
      · by_cases hd : d = '.'
        · subst hd
          rw [splitDots_dot, splitDots_cons hc hs]
          simp [hc]
        · have htail := ih ps
          rw [hs, hs'] at htail
          rw [splitDots_cons hc hs, splitDots_cons hd hs']
          simp only [List.cons_prefix_cons, List.cons.injEq, List.cons_append] at htail ⊢
          rw [and_assoc, htail, and_or_left]

/-- **A field covers a path iff its segments are the first ones of the path.** -/
theorem covers_iff (field path : String) :
    covers field path = true ↔ segments field <+: segments path := by
  unfold segments
  rw [covers_iff_toList, ← splitDots_prefix_iff]
  have hinj : Function.Injective String.ofList := fun _ _ h => String.ofList_inj.mp h
  exact (List.prefix_map_iff_of_injective hinj).symm

/-! ## Paths below others -/

theorem splitDots_of_dotless {cs : List Char} (h : '.' ∉ cs) : splitDots cs = [cs] := by
  induction cs with
  | nil => rfl
  | cons c cs ih =>
    rw [List.mem_cons, not_or] at h
    exact splitDots_cons (Ne.symm h.1) (ih h.2)

/-- A dot parts the segments before it from those behind it. -/
theorem splitDots_append_dot (xs ys : List Char) :
    splitDots (xs ++ '.' :: ys) = splitDots xs ++ splitDots ys := by
  induction xs with
  | nil => exact splitDots_dot ys
  | cons x xs ih =>
    rw [List.cons_append]
    by_cases hx : x = '.'
    · subst hx
      rw [splitDots_dot, splitDots_dot, ih, List.cons_append]
    · obtain ⟨seg, segs, hs⟩ := exists_splitDots xs
      rw [hs] at ih
      rw [splitDots_cons hx ih, splitDots_cons hx hs]
      rfl

theorem segments_of_dotless {name : String} (hdot : '.' ∉ name.toList) : segments name = [name] := by
  unfold segments
  rw [splitDots_of_dotless hdot, List.map_singleton, String.ofList_toList]

/-- The segments of a path that goes on behind a dot. -/
theorem segments_append_dot (base path : String) :
    segments (base ++ "." ++ path) = segments base ++ segments path := by
  unfold segments
  rw [String.toList_append, String.toList_append, List.append_assoc]
  show (splitDots (base.toList ++ '.' :: path.toList)).map String.ofList = _
  rw [splitDots_append_dot, List.map_append]

theorem segments_ne_nil (path : String) : segments path ≠ [] := by
  obtain ⟨seg, segs, hs⟩ := exists_splitDots path.toList
  unfold segments
  rw [hs]
  exact List.cons_ne_nil _ _

/-- Paths with the same segments are the same. -/
theorem segments_inj {p q : String} (h : segments p = segments q) : p = q := by
  have hpq := (covers_iff_toList p q).mp ((covers_iff p q).mpr (h ▸ List.prefix_refl _))
  have hqp := (covers_iff_toList q p).mp ((covers_iff q p).mpr (h ▸ List.prefix_refl _))
  rcases hpq with heq | hpq
  · exact String.toList_inj.mp heq
  rcases hqp with heq | hqp
  · exact (String.toList_inj.mp heq).symm
  · have hlt := hpq.length_le
    have hgt := hqp.length_le
    rw [List.length_append, List.length_singleton] at hlt hgt
    omega

/-- The segments of a path to records; at the top there are none. -/
def parts (base : String) : List String := if base.isEmpty then [] else segments base

theorem parts_of_ne {p : String} (hp : p ≠ "") : parts p = segments p :=
  if_neg fun h => hp (String.isEmpty_iff.mp h)

theorem parts_inj {p q : String} (h : parts p = parts q) : p = q := by
  unfold parts at h
  by_cases hp : p = "" <;> by_cases hq : q = ""
  · rw [hp, hq]
  · rw [if_pos (String.isEmpty_iff.mpr hp), if_neg fun h => hq (String.isEmpty_iff.mp h)] at h
    exact absurd h.symm (segments_ne_nil q)
  · rw [if_pos (String.isEmpty_iff.mpr hq), if_neg fun h => hp (String.isEmpty_iff.mp h)] at h
    exact absurd h (segments_ne_nil p)
  · rw [if_neg fun h => hp (String.isEmpty_iff.mp h),
      if_neg fun h => hq (String.isEmpty_iff.mp h)] at h
    exact segments_inj h

/-- A name without a dot is the last part of a path below another. -/
theorem parts_below {name : String} (hname : name ≠ "") (hdot : '.' ∉ name.toList)
    (base : String) : parts (below base name) = parts base ++ [name] := by
  unfold below
  split
  · rename_i hbase
    rw [parts_of_ne hname, segments_of_dotless hdot, parts, if_pos hbase, List.nil_append]
  · rename_i hbase
    have hlong : base ++ "." ++ name ≠ "" := by simp
    rw [parts_of_ne hlong, parts, if_neg hbase, segments_append_dot, segments_of_dotless hdot]

end Concordance.Path
