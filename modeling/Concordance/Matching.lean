import Concordance.Index.Inverted
import Concordance.Query.Normalized
import Concordance.Schema.Resolve
import Concordance.Scorer

/-!
# Matching queries against an index

A `Matcher` looks for records of a *scope* of keys, perhaps in some field paths only. Its
answer to a query is the map of matching keys to scores:

* a term matches the records that hold each of its tokens in some allowed field, and its score
  sums `boost · field boost · score` over their postings;
* a conjunction intersects its children's answers and a disjunction unites them, adding scores
  from left to right; without children they are the scope and nothing;
* a negation is the rest of the scope, with score zero.
-/

namespace Concordance

/-- A set of primary keys. -/
abbrev KeySet := SortedMap Key Unit

/-- Matching keys with their scores. -/
abbrev ScoreMap := SortedMap Key Float32

/-- The set of the listed keys. -/
def KeySet.ofKeys (pks : List Key) : KeySet := SortedMap.ofList (pks.map fun pk => (pk, ()))

namespace ScoreMap

/-- The keys in both maps, with the sums of their scores. -/
def meet (a b : ScoreMap) : ScoreMap := a.filterMap fun pk x => (b.get? pk).map fun y => x + y

/-- Adds to the score of a key; a key without a score starts from zero. -/
def add (a : ScoreMap) (pk : Key) (x : Float32) : ScoreMap := a.insert pk (a.getD pk 0.0 + x)

/-- The keys in either map, with the sums of their scores. -/
def join (a b : ScoreMap) : ScoreMap := b.toList.foldl (fun m e => add m e.1 e.2) a

end ScoreMap

/-- What a query is matched against. -/
structure Matcher where
  index : InvertedIndex
  /-- The keys that may match. -/
  scope : KeySet
  /-- The paths that terms may match in, with all that lies below them; none means all. -/
  fields : Option (List String)
  scorer : Scorer

namespace Matcher

/-- The whole scope, with score zero. -/
def all (m : Matcher) : ScoreMap := m.scope.map fun _ => 0.0

/-- Whether terms may match in a field path. -/
def allows (m : Matcher) (path : String) : Bool :=
  match m.fields with
  | none => true
  | some fields => fields.any fun f => Path.covers f path

/-- The content of the field that a posting refers to, if its record is in the scope and the
field allowed. -/
def field? (m : Matcher) (p : Posting) : Option FieldContent :=
  if m.scope.contains p.pk then
    ((m.index.entry? p.pk).bind fun e => e.fields[p.field]?).filter fun f => m.allows f.path
  else none

/-- The score of one posting. -/
def postingScore (m : Matcher) (boost idf : Float32) (p : Posting) (f : FieldContent) : Float32 :=
  boost * f.boost *
    m.scorer.score ⟨p.frequency, p.length, m.index.averageLength f.path, idf⟩

/-- The records that hold a token, with their scores. -/
def token (m : Matcher) (boost : Float32) (token : String) : ScoreMap :=
  let idf := m.index.inverseFrequency token
  (m.index.postingsOf token).foldl (fun scores p =>
    match m.field? p with
    | some f => ScoreMap.add scores p.pk (m.postingScore boost idf p f)
    | none => scores) ∅

/-- The records that hold every token of a term, with their scores. -/
def term (m : Matcher) (term : String) (boost : Float32) : ScoreMap :=
  match termTokens term with
  | [] => ∅
  | t :: ts => ts.foldl (fun scores t => scores.meet (m.token boost t)) (m.token boost t)

/-- The scope without the keys of a map, with score zero. -/
def complement (m : Matcher) (excluded : ScoreMap) : ScoreMap :=
  m.scope.filterMap fun pk _ => if excluded.contains pk then none else some 0.0

mutual

/-- The answer to a query. -/
def evaluate (m : Matcher) : NormalQuery → ScoreMap
  | .matchAll => m.all
  | .matchNone => ∅
  | .term t boost => m.term t boost
  | .and [] => m.all
  | .and (q :: qs) => m.meetWith (m.evaluate q) qs
  | .or qs => m.joinWith ∅ qs
  | .not q => m.complement (m.evaluate q)

/-- Intersects a map with the answers to queries, from left to right; an empty map is not
intersected any further. -/
def meetWith (m : Matcher) (scores : ScoreMap) : List NormalQuery → ScoreMap
  | [] => scores
  | q :: qs =>
    if scores.isEmpty then scores else m.meetWith (scores.meet (m.evaluate q)) qs

/-- Unites a map with the answers to queries, from left to right. -/
def joinWith (m : Matcher) (scores : ScoreMap) : List NormalQuery → ScoreMap
  | [] => scores
  | q :: qs => m.joinWith (scores.join (m.evaluate q)) qs

end

end Matcher

end Concordance
