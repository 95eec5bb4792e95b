import Concordance.Document
import Concordance.Matching
import Concordance.RecordSet.Evaluate

/-!
# Searches

A search asks for a query among the records of a set, under options. It is checked in this order:
the model must be declared; if nothing of its family is indexed, or the text is blank, there is
nothing to find and nothing more is checked; the operator must be known, the set valid, the fields
searchable, and every boost a number that is not negative.

`CompiledSearch.hits` evaluates a compiled search against a store and an index: the records of the
set that are indexed and match, seen as records of the searched model.
-/

namespace Concordance

/-- What is searched for. -/
inductive SearchQuery where
  /-- Words, combined by the operator of the options. -/
  | text (s : String)
  | query (q : Query)

/-- How a search is done. -/
structure SearchOptions where
  /-- The paths that terms may match in; none means all. -/
  fields : Option (List String) := none
  /-- The name of the operator that combines the words of a text. -/
  operator : String := Operator.default.text
  /-- Whether the best matches come first, if the set has no ordering. -/
  byRelevance : Bool := true

/-- A search that has been checked. -/
structure CompiledSearch where
  records : RecordSet
  query : NormalQuery
  fields : Option (List String)
  byRelevance : Bool

/-- A record found, with its score. -/
structure Hit where
  record : Record
  score : Float32
  deriving DecidableEq

namespace SearchQuery

/-- Whether the search is for a blank text. -/
def isBlank : SearchQuery → Bool
  | text s => Text.blank s
  | query _ => false

/-- The query, the words of a text combined by an operator. -/
def toQuery (operator : Operator) : SearchQuery → Query
  | text s => .words s operator
  | query q => q

end SearchQuery

namespace CompiledSearch

/-- The searched model. -/
def model (c : CompiledSearch) : String := c.records.model

/-- Whether the best matches come first. -/
def ranks (c : CompiledSearch) : Bool := c.byRelevance && !c.records.isOrdered

end CompiledSearch

/-- Checks a search; none if by its form it finds nothing. -/
def compileSearch (s : Schema) (query : SearchQuery) (records : RecordSet)
    (options : SearchOptions) : Result (Option CompiledSearch) := do
  let _ ← s.model records.model
  if !s.hasIndexedFamily records.model then return none
  if query.isBlank then return none
  let operator ← Operator.read options.operator
  records.validate s
  if let some fields := options.fields then
    let _ ← s.resolveAll records.model fields .search
  let normal := (query.toQuery operator).normalize
  normal.checkBoosts
  return some ⟨records, normal, options.fields, options.byRelevance⟩

/-! ## Evaluation -/

/-- The order of single precision numbers by their bit patterns. There is one NaN here, the positive
one, and it is above all numbers. A score that overflows into a NaN may have a negative one on the
machine, as `inf / inf` has on x86-64, and then its hit comes last and not first. -/
def orderScores (a b : Float32) : Ordering :=
  compare (bitRank 32 a.toBits.toNat) (bitRank 32 b.toBits.toNat)

/-- The order of ranked hits: the higher score first, then the smaller key. -/
def compareHits (a b : Hit) : Ordering :=
  (orderScores b.score a.score).then (compare a.record.pk b.record.pk)

namespace CompiledSearch

/-- The matcher of the search, over those of the base records that are indexed. -/
def matcher (c : CompiledSearch) (ix : InvertedIndex) (scorer : Scorer) (base : List Record) :
    Matcher where
  index := ix
  scope := KeySet.ofKeys ((base.map Record.pk).filter ix.contains)
  fields := c.fields
  scorer := scorer

/-- The hits among base records, in their order. -/
def hitsAmong (c : CompiledSearch) (s : Schema) (scores : ScoreMap) (base : List Record) :
    List Hit :=
  base.filterMap fun r => (scores.get? r.pk).map fun x => ⟨s.project r c.model, x⟩

/-- The hits in their final order. -/
def hits (c : CompiledSearch) (st : Store) (ix : InvertedIndex) (scorer : Scorer) :
    Result (List Hit) := do
  let base ← c.records.evaluate st
  let scores := (c.matcher ix scorer base).evaluate c.query
  let found := c.hitsAmong st.schema scores base
  if c.ranks then sortBy compareHits found else return found

end CompiledSearch

end Concordance
