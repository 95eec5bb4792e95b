import Concordance.Proofs.Search.Hits

/-!
# Narrowing the set of a search

Whether a record is found, and with which score, does not depend on the other records of the set
(`Matcher.get?_evaluate_congr`), also under negations and empty conjunctions, whose answers are made
from the whole scope. Where hits stand in a list depends on their keys and scores only
(`Standing.Precedes`), and strictly so. Thus a list of hits is determined by the keys and scores in
it, and a set that loses records loses their hits and nothing else.

* `Finds.mem_standings`, `Finds.pairwise_standings`: which keys have which scores, and their order.
* **`Finds.narrowed`**: the hits of a smaller set are those hits of the larger one that it has
  records for, with the same scores and in the same order.
-/

namespace Concordance

/-- What decides where a hit stands: its key and its score. -/
def Hit.standing (h : Hit) : Key × Float32 := (h.record.pk, h.score)

namespace Standing

/-- Where the best come first the better score does, and the smaller key otherwise. -/
def Precedes (ranks : Bool) (a b : Key × Float32) : Prop :=
  (ranks = true ∧ orderScores b.2 a.2 = .lt) ∨ ((ranks = true → a.2 = b.2) ∧ a.1 < b.1)

instance (ranks : Bool) : Std.Irrefl (Precedes ranks) where
  irrefl a := by
    rintro (⟨-, hlt⟩ | ⟨-, hlt⟩)
    · rw [orderScores_eq_iff.mpr rfl] at hlt
      nomatch hlt
    · exact UInt64.lt_irrefl _ hlt

instance (ranks : Bool) : Std.Antisymm (Precedes ranks) where
  antisymm a b := by
    rintro (⟨hranks, hab⟩ | ⟨hsame, hab⟩) (⟨hranks', hba⟩ | ⟨hsame', hba⟩)
    · have hswap : orderScores b.2 a.2 = (orderScores a.2 b.2).swap := Std.OrientedCmp.eq_swap
      rw [hswap, hba] at hab
      nomatch hab
    · rw [orderScores_eq_iff.mpr (hsame' hranks)] at hab
      nomatch hab
    · rw [orderScores_eq_iff.mpr (hsame hranks')] at hba
      nomatch hba
    · exact absurd hba (UInt64.lt_asymm hab)

end Standing

namespace CompiledSearch

variable {c c' : CompiledSearch} {s s' : Schema} {ix : InvertedIndex} {scorer : Scorer}
  {base base' : List Record} {hits hits' : List Hit}

/-- A key stands among the hits with a score if the set has a record of it, it is indexed, and the
matcher gives it this score. -/
theorem Finds.mem_standings (h : c.Finds s ix scorer base hits) (x : Key × Float32) :
    x ∈ hits.map Hit.standing ↔ (∃ r ∈ base, r.pk = x.1) ∧ ix.contains x.1 = true ∧
      ((c.matcher ix scorer base).evaluate c.query).get? x.1 = some x.2 := by
  rw [List.mem_map]
  constructor
  · rintro ⟨hit, hhit, rfl⟩
    obtain ⟨r, hr, hindexed, score, hscore, rfl⟩ := (h.mem_iff hit).mp hhit
    show (∃ r' ∈ base, r'.pk = (s.project r c.model).pk) ∧
      ix.contains (s.project r c.model).pk = true ∧
      ((c.matcher ix scorer base).evaluate c.query).get? (s.project r c.model).pk = some score
    rw [Schema.pk_project]
    exact ⟨⟨r, hr, rfl⟩, hindexed, hscore⟩
  · rintro ⟨⟨r, hr, hpk⟩, hindexed, hscore⟩
    rw [← hpk] at hindexed hscore
    refine ⟨⟨s.project r c.model, x.2⟩, (h.mem_iff _).mpr ⟨r, hr, hindexed, _, hscore, rfl⟩, ?_⟩
    exact Prod.ext ((Schema.pk_project s r c.model).trans hpk) rfl

/-- **Hits stand in a strict order**, if those of a set without an ordering come by key. -/
theorem Finds.pairwise_standings (h : c.Finds s ix scorer base hits)
    (hbase : base.Pairwise fun a b => a.pk < b.pk) :
    (hits.map Hit.standing).Pairwise (Standing.Precedes c.ranks) := by
  rw [List.pairwise_map]
  cases hranks : c.ranks with
  | true =>
    refine (h.ranked hranks).imp ?_
    rintro a b (hbetter | ⟨hsame, hpk⟩)
    · exact Or.inl ⟨rfl, hbetter⟩
    · exact Or.inr ⟨fun _ => hsame, hpk⟩
  | false =>
    have hkeys := (List.pairwise_map.mpr hbase).sublist (h.keeps_order hranks)
    exact (List.pairwise_map.mp hkeys).imp fun hpk => Or.inr ⟨Bool.noConfusion, hpk⟩

/-- **Narrowing the set changes nothing of what remains.** Let two searches differ in their sets
only, let neither set have an ordering, and let the second one have no record that the first one
has not. Then the keys and scores found with the second set are those found with the first whose
records the second set has, in the same order. -/
theorem Finds.narrowed (h : c.Finds s ix scorer base hits) (h' : c'.Finds s' ix scorer base' hits')
    (hquery : c'.query = c.query) (hfields : c'.fields = c.fields) (hranks : c'.ranks = c.ranks)
    (hbase : base.Pairwise fun a b => a.pk < b.pk)
    (hbase' : base'.Pairwise fun a b => a.pk < b.pk) (hsub : ∀ r ∈ base', r ∈ base) :
    hits'.map Hit.standing =
      (hits.filter fun h => (base'.map Record.pk).contains h.record.pk).map Hit.standing := by
  have hscore : ∀ pk, (∃ r ∈ base', r.pk = pk) → ix.contains pk = true →
      ((c'.matcher ix scorer base').evaluate c'.query).get? pk =
        ((c.matcher ix scorer base).evaluate c.query).get? pk := by
    intro pk hr hindexed
    obtain ⟨r, hr', hpk⟩ := hr
    have hin : (c.matcher ix scorer base).scope.contains pk = true :=
      SortedMap.mem_keys.mp (mem_scope_matcher.mpr ⟨⟨r, hsub r hr', hpk⟩, hindexed⟩)
    have hin' : (c'.matcher ix scorer base').scope.contains pk = true :=
      SortedMap.mem_keys.mp (mem_scope_matcher.mpr ⟨⟨r, hr', hpk⟩, hindexed⟩)
    unfold matcher at hin hin' ⊢
    rw [hquery, hfields]
    exact Matcher.get?_evaluate_congr ix c.fields scorer (hin'.trans hin.symm) c.query
  have hfilter : (hits.filter fun h => (base'.map Record.pk).contains h.record.pk).map Hit.standing =
      (hits.map Hit.standing).filter fun x => (base'.map Record.pk).contains x.1 := by
    rw [List.filter_map]
    rfl
  rw [hfilter]
  have hstrict' := h'.pairwise_standings hbase'
  rw [hranks] at hstrict'
  refine hstrict'.eq_of_mem_iff ((h.pairwise_standings hbase).filter _) fun x => ?_
  rw [List.mem_filter, h.mem_standings, h'.mem_standings, List.contains_iff_mem, List.mem_map]
  constructor
  · rintro ⟨hr, hindexed, hx⟩
    obtain ⟨r, hr', hpk⟩ := hr
    refine ⟨⟨⟨r, hsub r hr', hpk⟩, hindexed, ?_⟩, r, hr', hpk⟩
    rw [← hscore x.1 ⟨r, hr', hpk⟩ hindexed, hx]
  · rintro ⟨⟨-, hindexed, hx⟩, hr⟩
    exact ⟨hr, hindexed, (hscore x.1 hr hindexed).trans hx⟩

end CompiledSearch

end Concordance
