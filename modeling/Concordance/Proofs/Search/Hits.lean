import Concordance.Proofs.Matching.Meaning
import Concordance.Proofs.RecordSet.Base
import Concordance.View

/-!
# The hits of a search

A search starts from the records that its set is evaluated to. Those that are indexed are the scope
of the matcher, and those with a score in its answer are the hits. `CompiledSearch.Finds` says this
of a list of hits, and in which order they stand:

* No two hits have one key, since no two records of the set have.
* Without ranking they keep the order of the set.
* With ranking the better score comes first and, of equal scores, the smaller key (`Hit.Outranks`).
  Scores are ordered by their bits, which decides every pair (`orderScores_eq_iff`), so the order is
  strict whatever the scores are.

`finds_of_hits`: a search whose set is evaluated gives hits of which all this holds.
`perm_flatMap_slice`: slices that share no position and leave none out show each hit once.
-/

namespace Concordance

/-! ## The order of ranked hits -/

theorem bitRank_inj {a b : Nat} (ha : a < 2 ^ 32) (hb : b < 2 ^ 32)
    (h : bitRank 32 a = bitRank 32 b) : a = b := by
  simp only [bitRank, Nat.reduceSub, Nat.pow_eq, Nat.reducePow] at h
  split at h <;> split at h <;> omega

/-- Only a score itself is neither above nor below it. -/
theorem orderScores_eq_iff {a b : Float32} : orderScores a b = .eq ↔ a = b := by
  unfold orderScores
  rw [Std.compare_eq_iff_eq]
  constructor
  · intro h
    exact Float32.toBits_inj.mp
      (UInt32.toNat_inj.mp (bitRank_inj (UInt32.toNat_lt _) (UInt32.toNat_lt _) h))
  · rintro rfl
    rfl

instance : Std.TransCmp orderScores :=
  inferInstanceAs (Std.TransCmp (compareOn fun x : Float32 => bitRank 32 x.toBits.toNat))

instance : Std.TransCmp compareHits :=
  have : Std.TransCmp fun a b : Hit => orderScores b.score a.score :=
    inferInstanceAs (Std.TransCmp fun a b : Hit =>
      compareOn (fun h : Hit => bitRank 32 h.score.toBits.toNat) b a)
  inferInstanceAs (Std.TransCmp (compareLex (fun a b : Hit => orderScores b.score a.score)
    (compareOn fun h : Hit => h.record.pk)))

/-- The hit has the better score or, with the same score, the smaller key. -/
def Hit.Outranks (a b : Hit) : Prop :=
  orderScores b.score a.score = .lt ∨ (a.score = b.score ∧ a.record.pk < b.record.pk)

/-- Of hits with different keys, one that does not come after another outranks it. -/
theorem Hit.outranks_of_isLE {a b : Hit} (h : (compareHits a b).isLE)
    (hpk : a.record.pk ≠ b.record.pk) : a.Outranks b := by
  unfold compareHits at h
  rw [Ordering.isLE_then_iff_or] at h
  rcases h with hlt | ⟨heq, hle⟩
  · exact Or.inl hlt
  · refine Or.inr ⟨(orderScores_eq_iff.mp heq).symm, ?_⟩
    rw [Std.isLE_compare] at hle
    exact UInt64.lt_of_le_of_ne hle hpk

/-! ## What a search has to find -/

theorem Schema.pk_project (s : Schema) (r : Record) (model : String) :
    (s.project r model).pk = r.pk := by
  unfold Schema.project
  split <;> rfl

theorem mem_keys_ofKeys {pks : List Key} {pk : Key} : pk ∈ (KeySet.ofKeys pks).keys ↔ pk ∈ pks := by
  unfold KeySet.ofKeys
  rw [SortedMap.mem_keys, SortedMap.contains_ofList, List.map_map]
  exact iff_of_eq (congrArg (pk ∈ ·) (List.map_id pks))

/-- Keys without repeats are as many as their set has. -/
theorem length_keys_ofKeys {pks : List Key} (h : pks.Nodup) :
    (KeySet.ofKeys pks).keys.length = pks.length :=
  ((List.perm_ext_iff_of_nodup (SortedMap.nodup_keys _) h).mpr fun _ => mem_keys_ofKeys).length_eq

namespace CompiledSearch

/-- What the search has to find among the records of its set: those that are indexed and in the
answer of a matcher for the indexed ones, seen as records of the searched model and with the
matcher's scores, each once and in the order of the search. -/
structure Finds (c : CompiledSearch) (s : Schema) (ix : InvertedIndex) (scorer : Scorer)
    (base : List Record) (hits : List Hit) : Prop where
  scope_iff : ∀ pk, pk ∈ (c.matcher ix scorer base).scope.keys ↔
    (∃ r ∈ base, r.pk = pk) ∧ ix.contains pk = true
  mem_iff : ∀ h, h ∈ hits ↔ ∃ r ∈ base, ix.contains r.pk = true ∧
    ∃ x, ((c.matcher ix scorer base).evaluate c.query).get? r.pk = some x ∧
      h = ⟨s.project r c.model, x⟩
  nodup : (hits.map fun h => h.record.pk).Nodup
  keeps_order : c.ranks = false → (hits.map fun h => h.record.pk).Sublist (base.map Record.pk)
  ranked : c.ranks = true → hits.Pairwise Hit.Outranks

variable {c : CompiledSearch} {s : Schema} {ix : InvertedIndex} {scorer : Scorer}
  {base : List Record}

theorem mem_scope_matcher {pk : Key} : pk ∈ (c.matcher ix scorer base).scope.keys ↔
    (∃ r ∈ base, r.pk = pk) ∧ ix.contains pk = true := by
  show pk ∈ (KeySet.ofKeys ((base.map Record.pk).filter ix.contains)).keys ↔ _
  rw [mem_keys_ofKeys, List.mem_filter, List.mem_map]

/-- The keys of the hits among base records are keys of these, in their order. -/
theorem sublist_hitsAmong (c : CompiledSearch) (s : Schema) (scores : ScoreMap)
    (base : List Record) :
    ((c.hitsAmong s scores base).map fun h => h.record.pk).Sublist (base.map Record.pk) := by
  unfold hitsAmong
  induction base with
  | nil => exact .slnil
  | cons r base ih =>
    cases hscore : scores.get? r.pk with
    | none =>
      rw [List.filterMap_cons_none (by rw [hscore]; rfl)]
      exact ih.cons _
    | some x =>
      rw [List.filterMap_cons_some (by rw [hscore]; rfl), List.map_cons, List.map_cons,
        Schema.pk_project]
      exact ih.cons_cons _

/-- A base record is among the hits if it has a score, and it has none unless it is indexed. -/
theorem mem_hitsAmong {h : Hit} :
    h ∈ c.hitsAmong s ((c.matcher ix scorer base).evaluate c.query) base ↔
      ∃ r ∈ base, ix.contains r.pk = true ∧
        ∃ x, ((c.matcher ix scorer base).evaluate c.query).get? r.pk = some x ∧
          h = ⟨s.project r c.model, x⟩ := by
  unfold hitsAmong
  simp only [List.mem_filterMap, Option.map_eq_some_iff, eq_comm (b := h)]
  refine exists_congr fun r => and_congr_right fun _ => ⟨?_, fun ⟨_, hx⟩ => hx⟩
  rintro ⟨x, hscore, hh⟩
  have hscope := SortedMap.mem_keys.mpr (Matcher.contains_of_evaluate hscore)
  exact ⟨(mem_scope_matcher.mp hscope).2, x, hscore, hh⟩

/-- The hits of a search whose set is evaluated; ranked hits can always be sorted. -/
theorem hits_of_ok {st : Store} (h : c.records.evaluate st = .ok base) (ix : InvertedIndex)
    (scorer : Scorer) :
    let found := c.hitsAmong st.schema ((c.matcher ix scorer base).evaluate c.query) base
    c.hits st ix scorer = .ok (if c.ranks then stableSort compareHits found else found) := by
  intro found
  unfold hits
  rw [h]
  show (if c.ranks then sortBy compareHits found else .ok found) = _
  rw [sortBy_of_transCmp]
  split <;> rfl

/-- A search whose set cannot be evaluated fails as the set does. -/
theorem hits_of_error {st : Store} {e : Error} (h : c.records.evaluate st = .error e)
    (ix : InvertedIndex) (scorer : Scorer) : c.hits st ix scorer = .error e := by
  unfold hits
  rw [h]
  rfl

/-- A search fails only if its set does. -/
theorem error_of_hits {st : Store} {e : Error} (h : c.hits st ix scorer = .error e) :
    c.records.evaluate st = .error e := by
  cases hbase : c.records.evaluate st with
  | error e' =>
    rw [hits_of_error hbase] at h
    rw [Except.error.inj h]
  | ok base =>
    rw [hits_of_ok hbase] at h
    nomatch h

/-- **A search finds what it has to find**, once its set is evaluated. -/
theorem finds_of_hits {st : Store} (hst : st.Filed) (hbase : c.records.evaluate st = .ok base)
    (ix : InvertedIndex) (scorer : Scorer) :
    ∃ hits, c.hits st ix scorer = .ok hits ∧ c.Finds st.schema ix scorer base hits := by
  obtain ⟨-, hdistinct, -⟩ := base_of_evaluate hst hbase
  let found := c.hitsAmong st.schema ((c.matcher ix scorer base).evaluate c.query) base
  have hsub : (found.map fun h => h.record.pk).Sublist (base.map Record.pk) :=
    c.sublist_hitsAmong st.schema _ base
  have hperm : (if c.ranks then stableSort compareHits found else found).Perm found := by
    split
    · exact perm_stableSort compareHits found
    · exact .refl _
  have hnodup : (found.map fun h => h.record.pk).Nodup := hdistinct.sublist hsub
  refine ⟨_, hits_of_ok hbase ix scorer, fun pk => mem_scope_matcher,
    fun h => hperm.mem_iff.trans mem_hitsAmong,
    (hperm.map _).nodup_iff.mpr hnodup, fun hplain => ?_, fun hranks => ?_⟩
  · rw [hplain]
    exact hsub
  · rw [hranks] at hperm ⊢
    have hkeys := List.pairwise_map.mp ((hperm.map fun h => h.record.pk).nodup_iff.mpr hnodup)
    exact (pairwise_stableSort found).imp₂ (fun _ _ hle hne => Hit.outranks_of_isLE hle hne) hkeys

theorem Finds.length_keys {hits : List Hit} (h : c.Finds s ix scorer base hits) :
    (Hits.keys hits).length = Hits.count hits := by
  unfold Hits.keys Hits.count
  rw [length_keys_ofKeys h.nodup, List.length_map]

/-- The keys of the hits are those with a score. -/
theorem Finds.mem_keys {hits : List Hit} (h : c.Finds s ix scorer base hits) {pk : Key} :
    pk ∈ Hits.keys hits ↔ pk ∈ ((c.matcher ix scorer base).evaluate c.query).keys := by
  unfold Hits.keys
  rw [mem_keys_ofKeys, List.mem_map, SortedMap.mem_keys]
  constructor
  · rintro ⟨hit, hhit, rfl⟩
    obtain ⟨r, -, -, x, hscore, rfl⟩ := (h.mem_iff hit).mp hhit
    rw [Schema.pk_project]
    exact Option.isSome_iff_exists.mpr ⟨x, hscore⟩
  · intro hscored
    obtain ⟨x, hscore⟩ := Option.isSome_iff_exists.mp hscored
    have hscope := SortedMap.mem_keys.mpr (Matcher.contains_of_evaluate hscore)
    obtain ⟨⟨r, hr, rfl⟩, hindexed⟩ := (h.scope_iff pk).mp hscope
    exact ⟨_, (h.mem_iff _).mpr ⟨r, hr, hindexed, x, hscore, rfl⟩, Schema.pk_project s r c.model⟩

/-- **The keys of the hits are those that the query means**, among the keys of the set that are
indexed. -/
theorem Finds.mem_keys_iff_meaning {hits : List Hit} (h : c.Finds s ix scorer base hits)
    (ht : ix.Tabulated) {pk : Key} :
    pk ∈ Hits.keys hits ↔ pk ∈ meaning ix.entries
      {pk | (∃ r ∈ base, r.pk = pk) ∧ ix.contains pk = true} c.fields c.query := by
  have hscope : {pk | pk ∈ (c.matcher ix scorer base).scope.keys} =
      {pk | (∃ r ∈ base, r.pk = pk) ∧ ix.contains pk = true} := Set.ext h.scope_iff
  rw [h.mem_keys, Matcher.mem_keys_evaluate_iff ht, hscope]
  rfl

end CompiledSearch

/-! ## Slices -/

namespace Hits

/-- Whether a slice of a list of `count` hits shows the hit at a position. -/
def shows (count : Nat) (bounds : Bound × Bound) (position : Nat) : Bool :=
  decide (first bounds.1 ≤ position) && decide (position < stop count bounds.2)

/-- What stands between two positions, told by the positions. -/
theorem filter_zipIdx {α : Type} (a b : Nat) (xs : List α) (n : Nat) :
    ((xs.zipIdx n).filter fun x => decide (a ≤ x.2) && decide (x.2 < b)).map Prod.fst =
      (xs.drop (a - n)).take (b - max a n) := by
  induction xs generalizing n with
  | nil => simp
  | cons x xs ih =>
    rw [List.zipIdx_cons]
    by_cases hbelow : n < a
    · obtain ⟨k, hk⟩ : ∃ k, a - n = k + 1 := ⟨a - n - 1, by omega⟩
      rw [List.filter_cons_of_neg (by simp; omega), ih, hk, List.drop_succ_cons]
      congr 2 <;> omega
    · by_cases hshown : n < b
      · obtain ⟨k, hk⟩ : ∃ k, b - max a n = k + 1 := ⟨b - max a n - 1, by omega⟩
        rw [List.filter_cons_of_pos (by simp; omega), List.map_cons, ih, hk,
          show a - n = 0 by omega, show a - (n + 1) = 0 by omega, List.drop_zero, List.drop_zero,
          List.take_succ_cons]
        congr 2
        omega
      · rw [List.filter_cons_of_neg (by simp; omega), ih, show b - max a n = 0 by omega,
          show b - max a (n + 1) = 0 by omega, List.take_zero, List.take_zero]

/-- Where no position lies between the ends, as many are taken as the ends are apart, which is
none. -/
theorem slice_eq (start finish : Bound) (hits : List Hit) :
    slice start finish hits = (hits.drop (min (first start) hits.length)).take
      (min (stop hits.length finish) hits.length - min (first start) hits.length) := by
  unfold slice between
  dsimp only
  split
  · rfl
  · rename_i h
    rw [Nat.sub_eq_zero_of_le (Nat.le_of_not_lt h), List.take_zero]

theorem slice_eq_filter (bounds : Bound × Bound) (hits : List Hit) :
    slice bounds.1 bounds.2 hits =
      (hits.zipIdx.filter fun x => shows hits.length bounds x.2).map Prod.fst := by
  have hsame : (hits.zipIdx.filter fun x => shows hits.length bounds x.2) =
      hits.zipIdx.filter fun x => decide (min (first bounds.1) hits.length ≤ x.2) &&
        decide (x.2 < min (stop hits.length bounds.2) hits.length) := by
    refine List.filter_congr fun x hx => ?_
    have hlt : x.2 < hits.length := by
      have := List.mem_zipIdx (x := x.1) (i := x.2) hx
      omega
    unfold shows
    rw [Bool.eq_iff_iff]
    simp only [Bool.and_eq_true, decide_eq_true_eq]
    omega
  rw [hsame, filter_zipIdx, Nat.sub_zero, Nat.max_eq_left (Nat.zero_le _), slice_eq]

/-- Selections that each member is in exactly one of have together each member as often as the
list. -/
theorem perm_flatMap_filter {α β : Type} {p : β → α → Bool} {selections : List β} {xs : List α}
    (h : ∀ x ∈ xs, selections.countP (fun g => p g x) = 1) :
    (selections.flatMap fun g => xs.filter (p g)).Perm xs := by
  classical
  have hcount : ∀ (selections : List β) (x : α),
      (selections.flatMap fun g => xs.filter (p g)).count x =
        selections.countP (fun g => p g x) * xs.count x := by
    intro selections x
    induction selections with
    | nil => simp
    | cons g selections ih =>
      rw [List.flatMap_cons, List.count_append, ih, List.countP_cons]
      by_cases hg : p g x = true
      · rw [List.count_filter hg, if_pos hg]
        ring
      · have hnone : (xs.filter (p g)).count x = 0 :=
          List.count_eq_zero.mpr fun hx => hg (List.mem_filter.mp hx).2
        rw [hnone, if_neg hg]
        ring
  refine List.perm_iff_count.mpr fun x => ?_
  rw [hcount]
  by_cases hx : x ∈ xs
  · rw [h x hx, Nat.one_mul]
  · rw [List.count_eq_zero.mpr hx, Nat.mul_zero]

/-- **Slices that share no position and leave none out show each hit once.** -/
theorem perm_flatMap_slice {slices : List (Bound × Bound)} {hits : List Hit}
    (h : ∀ position < hits.length,
      slices.countP (fun bounds => shows hits.length bounds position) = 1) :
    (slices.flatMap fun bounds => slice bounds.1 bounds.2 hits).Perm hits := by
  simp only [slice_eq_filter, ← List.map_flatMap]
  have hpositions : ∀ x ∈ hits.zipIdx,
      slices.countP (fun bounds => shows hits.length bounds x.2) = 1 := by
    intro x hx
    have := List.mem_zipIdx (x := x.1) (i := x.2) hx
    exact h x.2 (by omega)
  have hperm := (perm_flatMap_filter hpositions).map Prod.fst
  rwa [List.zipIdx_map_fst] at hperm

end Hits

end Concordance
