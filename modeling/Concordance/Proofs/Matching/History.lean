import Concordance.Proofs.Index.Tables
import Concordance.Proofs.Matching.Pointwise

/-!
# Answers do not depend on the history of the index

Two histories that leave the same entries may leave different tables: a posting list is in the
order in which the records came. Single precision addition is not associative, so a sum over such a
list could tell the histories apart. It does not:

* `filter_postingsOf_congr`: the postings of one record are the same list in both, in field order,
  and a score sums over the postings of one record only (`Matcher.get?_token`).
* `inverseFrequency_congr`, `averageLength_congr`: all other numbers of a score are read off the
  entries.
* `Matcher.evaluate_after_congr`: hence every query has the same answer after both histories, bit
  by bit.
-/

namespace Concordance

/-! ## Indexes with the same entries -/

namespace InvertedIndex

variable {ix ix' : InvertedIndex}

theorem filter_postingsOf_congr (h : Tabulated ix) (h' : Tabulated ix')
    (he : ix.entries = ix'.entries) (term : String) (pk : Key) :
    ((ix.postingsOf term).filter fun p => p.pk == pk) =
      (ix'.postingsOf term).filter fun p => p.pk == pk := by
  have hentry : ix.entry? pk = ix'.entry? pk := by
    unfold entry?
    rw [he]
  rw [h.postings term pk, h'.postings term pk, hentry]

theorem inverseFrequency_congr (h : Tabulated ix) (h' : Tabulated ix')
    (he : ix.entries = ix'.entries) (term : String) :
    ix.inverseFrequency term = ix'.inverseFrequency term := by
  unfold inverseFrequency size
  rw [h.frequencies term, h'.frequencies term, he]

theorem averageLength_congr (h : Tabulated ix) (h' : Tabulated ix')
    (he : ix.entries = ix'.entries) (path : String) :
    ix.averageLength path = ix'.averageLength path := by
  unfold averageLength
  rw [h.lengths path, h'.lengths path, he]

end InvertedIndex

namespace Matcher

open InvertedIndex

section SameEntries

variable {ix ix' : InvertedIndex} (h : Tabulated ix) (h' : Tabulated ix')
  (he : ix.entries = ix'.entries) (scope : KeySet) (fields : Option (List String))
  (scorer : Scorer)

include h h' he

/-- Every summand of a score is the same in both indexes. -/
theorem summand?_congr (boost : Float32) (t : String) (p : Posting) :
    summand? ⟨ix, scope, fields, scorer⟩ boost t p =
      summand? ⟨ix', scope, fields, scorer⟩ boost t p := by
  have hfield : field? ⟨ix, scope, fields, scorer⟩ p = field? ⟨ix', scope, fields, scorer⟩ p := by
    unfold field? entry?
    rw [show Matcher.index ⟨ix, scope, fields, scorer⟩ = ix from rfl, he]
    rfl
  have hscore : ∀ f, postingScore ⟨ix, scope, fields, scorer⟩ boost (ix.inverseFrequency t) p f =
      postingScore ⟨ix', scope, fields, scorer⟩ boost (ix'.inverseFrequency t) p f := by
    intro f
    unfold postingScore
    rw [inverseFrequency_congr h h' he t,
      show averageLength (Matcher.index ⟨ix, scope, fields, scorer⟩) f.path = _ from
        averageLength_congr h h' he f.path]
  unfold summand?
  rw [hfield]
  exact congrArg (fun g => Option.map g _) (funext hscore)

theorem get?_token_congr (boost : Float32) (t : String) (pk : Key) :
    (token ⟨ix, scope, fields, scorer⟩ boost t).get? pk =
      (token ⟨ix', scope, fields, scorer⟩ boost t).get? pk := by
  rw [get?_token, get?_token]
  show List.foldl _ _ (List.filterMap _ (List.filter _ (ix.postingsOf t))) =
    List.foldl _ _ (List.filterMap _ (List.filter _ (ix'.postingsOf t)))
  rw [filter_postingsOf_congr h h' he t pk]
  congr 2
  exact funext fun p => summand?_congr h h' he scope fields scorer boost t p

end SameEntries

/-- **Histories that leave the same entries give every query the same answer**, with the same
single precision scores, over every scope and field restriction and with every scorer; and
whatever the history, the postings of one record stay in field order. -/
theorem evaluate_after_congr (past past' : List Change)
    (h : (after past).entries = (after past').entries) :
    (∀ scope fields scorer q,
      evaluate ⟨after past, scope, fields, scorer⟩ q =
        evaluate ⟨after past', scope, fields, scorer⟩ q) ∧
    ∀ term, ((after past).postingsOf term).Pairwise fun p q => p.pk = q.pk → p.field < q.field := by
  have ht := tabulated_after past
  have ht' := tabulated_after past'
  refine ⟨fun scope fields scorer q => ?_, ht.pairwise_postings⟩
  refine evaluate_congr ?_ (fun boost t pk => ?_) q
  · rfl
  · exact get?_token_congr ht ht' h scope fields scorer boost t pk

/-- An entry with two fields that hold a term. -/
def teaEntry (pk : Key) : IndexEntry :=
  ⟨pk, "M", [⟨"title", 3.0, ["tea"]⟩, ⟨"text", 1.0, ["hot", "tea"]⟩], ∅⟩

/-- Records 1 and 2 come in order. -/
def plainHistory : List Change := [.put (teaEntry 1), .put (teaEntry 2)]

/-- Everything is cleared once, and record 1 comes back behind record 2 after a removal. -/
def windingHistory : List Change :=
  [.put (teaEntry 3), .clear, .put (teaEntry 1), .put (teaEntry 2), .remove 1, .put (teaEntry 1)]

/-- The two histories order a posting list differently and give the same answer. -/
theorem evaluate_after_windingHistory :
    (after plainHistory).entries = (after windingHistory).entries ∧
    ((after plainHistory).postingsOf "tea").map Posting.pk = [1, 1, 2, 2] ∧
    ((after windingHistory).postingsOf "tea").map Posting.pk = [2, 2, 1, 1] ∧
    evaluate ⟨after plainHistory, KeySet.ofKeys [1, 2], none, .standard⟩ (.term "tea" 1.0) =
      evaluate ⟨after windingHistory, KeySet.ofKeys [1, 2], none, .standard⟩ (.term "tea" 1.0) := by
  have hentries : (after plainHistory).entries = (after windingHistory).entries := rfl
  exact ⟨hentries, rfl, rfl, (evaluate_after_congr plainHistory windingHistory hentries).1
    (KeySet.ofKeys [1, 2]) none .standard (.term "tea" 1.0)⟩

end Matcher

end Concordance
