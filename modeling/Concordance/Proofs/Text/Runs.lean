import Concordance.Proofs.Token

/-!
# Maximal runs and where they are

A run of a property is a stretch of a text whose characters all have it, with no such character
right before it and none right behind it. This is said here of the positions alone (`IsRun`), apart
from the scan that finds the runs. Two texts put together have the runs of both, unless a run of the
one meets a run of the other (`isRun_append_iff`).

* **`exists_areRuns`**: the runs found are what the text has at the places of its maximal runs, in
  the order of these.
-/

namespace Concordance.Text

variable {p : Char → Bool} {cs xs ys : List Char} {i j k : Nat} {spans : List (Nat × Nat)}

/-- Whether there is a character at position `k`, and it satisfies `p`. -/
def holdsAt (p : Char → Bool) (cs : List Char) (k : Nat) : Bool := cs[k]?.any p

/-- The characters from `i` up to `j` are a maximal run. -/
structure IsRun (p : Char → Bool) (cs : List Char) (i j : Nat) : Prop where
  nonempty : i < j
  all : ∀ k, i ≤ k → k < j → holdsAt p cs k = true
  before : 0 < i → holdsAt p cs (i - 1) = false
  behind : holdsAt p cs j = false

/-- The places of all maximal runs, one after the other. -/
structure AreRuns (p : Char → Bool) (cs : List Char) (spans : List (Nat × Nat)) : Prop where
  ordered : spans.Pairwise fun a b => a.2 < b.1
  mem_iff : ∀ i j, (i, j) ∈ spans ↔ IsRun p cs i j

/-- The characters from the first position up to the second. -/
def stretch (cs : List Char) (span : Nat × Nat) : List Char := (cs.take span.2).drop span.1

/-- Places that lie one after the other are told by which places there are. -/
theorem eq_of_ordered {spans' : List (Nat × Nat)} (hspans : spans.Pairwise fun a b => a.2 < b.1)
    (hspans' : spans'.Pairwise fun a b => a.2 < b.1) (hmem : ∀ span, span ∈ spans ↔ span ∈ spans')
    (hnonempty : ∀ span ∈ spans, span.1 < span.2) : spans = spans' := by
  have hnodup {l : List (Nat × Nat)} (hl : l.Pairwise fun a b => a.2 < b.1)
      (hne : ∀ span ∈ l, span.1 < span.2) : l.Nodup := by
    refine hl.imp_of_mem fun ha _ hab heq => ?_
    have := hne _ ha
    rw [heq] at hab this
    omega
  refine List.Perm.eq_of_pairwise (fun a b ha hb hab hba => ?_) hspans hspans' ?_
  · have := hnonempty a ha
    have := hnonempty b ((hmem b).mpr hb)
    omega
  · exact (List.perm_ext_iff_of_nodup (hnodup hspans hnonempty)
      (hnodup hspans' fun span h => hnonempty span ((hmem span).mpr h))).mpr hmem

/-! ## Positions in two texts put together -/

theorem lt_length_of_holdsAt (h : holdsAt p cs k = true) : k < cs.length := by
  refine Nat.lt_of_not_le fun hle => ?_
  simp [holdsAt, List.getElem?_eq_none hle] at h

theorem holdsAt_append_left (hk : k < xs.length) (ys : List Char) :
    holdsAt p (xs ++ ys) k = holdsAt p xs k := by
  rw [holdsAt, holdsAt, List.getElem?_append_left hk]

theorem holdsAt_append_right (xs : List Char) (k : Nat) :
    holdsAt p (xs ++ ys) (xs.length + k) = holdsAt p ys k := by
  rw [holdsAt, holdsAt, List.getElem?_append_right (Nat.le_add_right _ _), Nat.add_sub_cancel_left]

theorem holdsAt_of_all (hcs : ∀ c ∈ cs, p c = true) (hk : k < cs.length) :
    holdsAt p cs k = true := by
  rw [holdsAt, List.getElem?_eq_getElem hk]
  exact hcs _ (List.getElem_mem hk)

theorem holdsAt_eq_false_of_none (hcs : ∀ c ∈ cs, p c = false) : holdsAt p cs k = false := by
  unfold holdsAt
  cases hc : cs[k]? with
  | none => rfl
  | some c => exact hcs c (List.mem_of_getElem? hc)

theorem IsRun.le_length (h : IsRun p cs i j) : j ≤ cs.length := by
  have hnonempty := h.nonempty
  have := lt_length_of_holdsAt (h.all (j - 1) (by omega) (by omega))
  omega

/-! ## The runs of two texts put together -/

theorem IsRun.append_left (hcut : holdsAt p xs (xs.length - 1) = false ∨ holdsAt p ys 0 = false)
    (h : IsRun p xs i j) : IsRun p (xs ++ ys) i j := by
  have hij := h.nonempty
  have hj := h.le_length
  refine ⟨hij, fun k hik hkj => ?_, fun hi => ?_, ?_⟩
  · rw [holdsAt_append_left (by omega)]
    exact h.all k hik hkj
  · rw [holdsAt_append_left (by omega)]
    exact h.before hi
  · by_cases hend : j < xs.length
    · rw [holdsAt_append_left hend]
      exact h.behind
    · -- the run is the last thing of the first text
      have hlast : holdsAt p xs (xs.length - 1) = true := h.all _ (by omega) (by omega)
      have hhead : holdsAt p ys 0 = false := hcut.resolve_left (by simp [hlast])
      rw [show j = xs.length + 0 by omega, holdsAt_append_right]
      exact hhead

theorem IsRun.append_right (hcut : holdsAt p xs (xs.length - 1) = false ∨ holdsAt p ys 0 = false)
    (h : IsRun p ys i j) : IsRun p (xs ++ ys) (xs.length + i) (xs.length + j) := by
  have hij := h.nonempty
  refine ⟨by omega, fun k hik hkj => ?_, fun hi => ?_, ?_⟩
  · obtain ⟨k, rfl⟩ := Nat.exists_eq_add_of_le (show xs.length ≤ k by omega)
    rw [holdsAt_append_right]
    exact h.all k (by omega) (by omega)
  · by_cases hstart : 0 < i
    · rw [show xs.length + i - 1 = xs.length + (i - 1) by omega, holdsAt_append_right]
      exact h.before hstart
    · -- the run is the first thing of the second text
      have hhead : holdsAt p ys 0 = true := h.all 0 (by omega) (by omega)
      rw [show xs.length + i - 1 = xs.length - 1 by omega, holdsAt_append_left (by omega)]
      exact hcut.resolve_right (by simp [hhead])
  · rw [holdsAt_append_right]
    exact h.behind

/-- **Where no run goes over the place between two texts, the runs are those of the two.** -/
theorem isRun_append_iff
    (hcut : holdsAt p xs (xs.length - 1) = false ∨ holdsAt p ys 0 = false) :
    IsRun p (xs ++ ys) i j ↔ IsRun p xs i j ∨
      ∃ i' j', xs.length + i' = i ∧ xs.length + j' = j ∧ IsRun p ys i' j' := by
  constructor
  · intro h
    have hij := h.nonempty
    rcases Nat.lt_or_ge xs.length j with hj | hj
    · rcases Nat.lt_or_ge i xs.length with hi | hi
      · -- it would go over the place
        have hlast := h.all (xs.length - 1) (by omega) (by omega)
        have hhead := h.all (xs.length + 0) (by omega) (by omega)
        rw [holdsAt_append_left (by omega)] at hlast
        rw [holdsAt_append_right] at hhead
        simp [hlast, hhead] at hcut
      · obtain ⟨i, rfl⟩ := Nat.exists_eq_add_of_le hi
        obtain ⟨j, rfl⟩ := Nat.exists_eq_add_of_le hj.le
        refine Or.inr ⟨i, j, rfl, rfl, by omega, fun k hik hkj => ?_, fun hstart => ?_, ?_⟩
        · rw [← holdsAt_append_right xs]
          exact h.all _ (by omega) (by omega)
        · rw [← holdsAt_append_right xs, ← Nat.add_sub_assoc hstart]
          exact h.before (by omega)
        · rw [← holdsAt_append_right xs]
          exact h.behind
    · refine Or.inl ⟨hij, fun k hik hkj => ?_, fun hstart => ?_, ?_⟩
      · rw [← holdsAt_append_left (by omega) ys]
        exact h.all k hik hkj
      · rw [← holdsAt_append_left (by omega) ys]
        exact h.before hstart
      · by_cases hend : j < xs.length
        · rw [← holdsAt_append_left hend ys]
          exact h.behind
        · exact Bool.eq_false_of_not_eq_true fun hbehind => hend (lt_length_of_holdsAt hbehind)
  · rintro (h | ⟨i, j, rfl, rfl, h⟩)
    · exact h.append_left hcut
    · exact h.append_right hcut

namespace AreRuns

theorem of_none (hcs : ∀ c ∈ cs, p c = false) : AreRuns p cs [] := by
  refine ⟨List.Pairwise.nil, fun i j => ⟨nofun, fun h => ?_⟩⟩
  have hfirst := h.all i (Nat.le_refl i) h.nonempty
  simp [holdsAt_eq_false_of_none hcs] at hfirst

theorem of_all (hne : cs ≠ []) (hcs : ∀ c ∈ cs, p c = true) : AreRuns p cs [(0, cs.length)] := by
  have hlength := List.length_pos_iff.mpr hne
  refine ⟨List.pairwise_singleton _ _, fun i j => ?_⟩
  rw [List.mem_singleton, Prod.mk.injEq]
  constructor
  · rintro ⟨rfl, rfl⟩
    refine ⟨hlength, fun k _ hk => holdsAt_of_all hcs hk, nofun, ?_⟩
    exact Bool.eq_false_of_not_eq_true fun h => Nat.lt_irrefl _ (lt_length_of_holdsAt h)
  · intro h
    have hij := h.nonempty
    have hj := h.le_length
    -- a character before the run, or one behind it, would have the property too
    have hstart : ¬ 0 < i := fun hi => by
      simpa [h.before hi] using holdsAt_of_all (p := p) hcs (show i - 1 < cs.length by omega)
    have hend : ¬ j < cs.length := fun hlt => by
      simpa [h.behind] using holdsAt_of_all (p := p) hcs hlt
    omega

theorem append {spans' : List (Nat × Nat)}
    (hcut : holdsAt p xs (xs.length - 1) = false ∨ holdsAt p ys 0 = false)
    (hxs : AreRuns p xs spans) (hys : AreRuns p ys spans') :
    AreRuns p (xs ++ ys)
      (spans ++ spans'.map fun span => (xs.length + span.1, xs.length + span.2)) := by
  constructor
  · rw [List.pairwise_append, List.pairwise_map]
    refine ⟨hxs.ordered, hys.ordered.imp fun h => by omega, fun a ha b hb => ?_⟩
    obtain ⟨b, hbmem, rfl⟩ := List.mem_map.mp hb
    have hleft := (hxs.mem_iff a.1 a.2).mp ha
    have hright := (hys.mem_iff b.1 b.2).mp hbmem
    have hinside := hleft.le_length
    have hnonempty := hleft.nonempty
    by_cases hmeet : a.2 = xs.length ∧ b.1 = 0
    · have hlast := hleft.all (xs.length - 1) (by omega) (by omega)
      have hhead := hright.all 0 (by omega) (by have := hright.nonempty; omega)
      simp [hlast, hhead] at hcut
    · show a.2 < xs.length + b.1
      omega
  · intro i j
    rw [isRun_append_iff hcut, List.mem_append, hxs.mem_iff, List.mem_map]
    refine or_congr_right ⟨?_, ?_⟩
    · rintro ⟨⟨i', j'⟩, hmem, hspan⟩
      obtain ⟨rfl, rfl⟩ := Prod.mk.inj hspan
      exact ⟨i', j', rfl, rfl, (hys.mem_iff i' j').mp hmem⟩
    · rintro ⟨i', j', rfl, rfl, h⟩
      exact ⟨(i', j'), (hys.mem_iff i' j').mpr h, rfl⟩

theorem le_length (h : AreRuns p cs spans) {span : Nat × Nat} (hspan : span ∈ spans) :
    span.1 < span.2 ∧ span.2 ≤ cs.length :=
  have hrun := (h.mem_iff span.1 span.2).mp hspan
  ⟨hrun.nonempty, hrun.le_length⟩

end AreRuns

/-! ## What stands at a place -/

theorem stretch_append_left {span : Nat × Nat} (h : span.2 ≤ xs.length) :
    stretch (xs ++ ys) span = stretch xs span := by
  rw [stretch, stretch, List.take_append_of_le_length h]

theorem stretch_append_right (span : Nat × Nat) :
    stretch (xs ++ ys) (xs.length + span.1, xs.length + span.2) = stretch ys span := by
  simp [stretch, List.take_append, List.drop_append]

theorem stretch_whole : stretch cs (0, cs.length) = cs := by simp [stretch]

theorem length_stretch {span : Nat × Nat} (h : span.2 ≤ cs.length) :
    (stretch cs span).length = span.2 - span.1 := by
  rw [stretch, List.length_drop, List.length_take, Nat.min_eq_left h]

theorem map_stretch_append (h : ∀ span ∈ spans, span.2 ≤ xs.length) (ys : List Char)
    (spans' : List (Nat × Nat)) :
    (spans ++ spans'.map fun span => (xs.length + span.1, xs.length + span.2)).map
        (stretch (xs ++ ys)) = spans.map (stretch xs) ++ spans'.map (stretch ys) := by
  rw [List.map_append, List.map_map]
  congr 1
  · exact List.map_congr_left fun span hspan => stretch_append_left (h span hspan)
  · exact List.map_congr_left fun span _ => stretch_append_right span

/-- **The runs found are what stands at the places of the maximal runs**, in the order of these. -/
theorem exists_areRuns (p : Char → Bool) (cs : List Char) :
    ∃ spans, AreRuns p cs spans ∧ runs p cs = spans.map (stretch cs) := by
  fun_induction runs p cs with
  | case1 => exact ⟨[], AreRuns.of_none (by simp), rfl⟩
  | case2 c cs hc ih =>
    obtain ⟨spans, hspans, hruns⟩ := ih
    have hall : ∀ d ∈ c :: cs.takeWhile p, p d = true := by
      simpa [hc] using fun d hd => List.mem_takeWhile_imp hd
    have hbehind : holdsAt p (cs.dropWhile p) 0 = false := by
      rw [holdsAt, ← List.head?_eq_getElem?]
      have hhead := List.head?_dropWhile_not p cs
      cases hdrop : (cs.dropWhile p).head? with
      | none => rfl
      | some d => simpa [hdrop] using hhead
    have hfirst := AreRuns.of_all (List.cons_ne_nil _ _) hall
    have hboth := hfirst.append (Or.inr hbehind) hspans
    have hmap := map_stretch_append (fun span hspan => (hfirst.le_length hspan).2)
      (cs.dropWhile p) spans
    rw [List.cons_append, List.takeWhile_append_dropWhile] at hboth hmap
    exact ⟨_, hboth, by rw [hmap, hruns, List.map_singleton, stretch_whole]; rfl⟩
  | case3 c cs hc ih =>
    obtain ⟨spans, hspans, hruns⟩ := ih
    have hnone : ∀ d ∈ [c], p d = false := by simpa using hc
    have hboth := (AreRuns.of_none hnone).append (Or.inl (holdsAt_eq_false_of_none hnone)) hspans
    have hinside : ∀ span ∈ ([] : List (Nat × Nat)), span.2 ≤ [c].length := by simp
    have hmap := map_stretch_append hinside cs spans
    exact ⟨_, hboth, hruns.trans hmap.symm⟩

end Concordance.Text
