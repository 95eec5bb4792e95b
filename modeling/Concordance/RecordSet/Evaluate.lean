import Concordance.RecordSet.Validate
import Concordance.Sort
import Concordance.Store

/-!
# Evaluating record sets

Evaluation reads the matching records from a store. The predicate is first turned into a
`Condition`: its paths are resolved and its subqueries evaluated. The condition then decides each
stored record of the model, in key order, and an explicit ordering rearranges what is kept.

The values of a path on a record are read by following its relations through the store. Keys that
lead nowhere are skipped, and a path that ends in a relation has the keys as its values. Keys
compare as signed 64-bit integers, so a key beyond those makes the evaluation fail. So does an
ordering of more than a few records whose sort values are not ordered, as integers beside a NaN are
not.
-/

namespace Concordance

/-- A primary key as a value. -/
def keyValue (pk : Key) : Result Value :=
  match signed64? pk.toNat with
  | some i => .ok (.int i)
  | none => .error (.invalidValue (.keyRange pk))

/-- The records of a model at several keys, without the keys that have none. -/
def Store.getAll (st : Store) (model : String) (pks : List Key) : Result (List Record) :=
  (fun found => found.filterMap id) <$> pks.mapM (st.get model)

/-- What is read off a record for a path. -/
inductive Reading where
  /-- The primary key. -/
  | key
  /-- The values at the end of a path. -/
  | path (resolved : ResolvedPath)

/-- How a path of a model is read. -/
def Schema.reading (s : Schema) (model path : String) (purpose : Purpose) : Result Reading :=
  if path = keyField then .ok .key else Reading.path <$> s.resolve model path purpose

/-- The records reached from `rs` through relations. -/
def reached (st : Store) (hops : List Hop) (rs : List Record) : Result (List Record) :=
  match hops with
  | [] => .ok rs
  | hop :: hops => do
    let next ← rs.mapM fun r => st.getAll hop.target (r.related hop.field.name)
    reached st hops next.flatten

/-- The values that a path has on a record. -/
def Reading.values (st : Store) (r : Record) : Reading → Result (List Value)
  | .key => (fun v => [v]) <$> keyValue r.pk
  | .path resolved => do
    let ends ← reached st resolved.hops [r]
    if resolved.field.isRelation then
      (ends.flatMap fun e => e.related resolved.field.name).mapM keyValue
    else return ends.map resolved.field.valueOf

/-- A test of the values of a path. -/
inductive Test where
  | compare (c : Comparison) (v : Value)
  | oneOf (vs : List Value)
  | isNull (expected : Bool)
  | startsWith (start : String)

/-- Whether values pass the test. -/
def Test.holds (values : List Value) : Test → Bool
  | .compare c target => values.any fun v => !v.isNull && (v.compare target).any c.holds
  | .oneOf targets => values.any fun v => !v.isNull && targets.any v.matchesValue
  | .isNull expected => values.all Value.isNull == expected
  | .startsWith start =>
    values.any fun v => v.asText.any fun s => start.toList.isPrefixOf s.toList

/-- A predicate ready to decide records. -/
inductive Condition where
  | field (reading : Reading) (test : Test)
  | and (p q : Condition)
  | or (p q : Condition)
  | not (p : Condition)

/-- Whether a record satisfies the condition; the second part of a combination is looked at only
if the first does not decide. -/
def Condition.decides (st : Store) (r : Record) : Condition → Result Bool
  | .field reading test => (fun values => test.holds values) <$> reading.values st r
  | .and p q => do
    if ← p.decides st r then q.decides st r else return false
  | .or p q => do
    if ← p.decides st r then return true else q.decides st r
  | .not p => Bool.not <$> p.decides st r

/-- The value that an ordering key sorts a record by: the first that its path has. -/
def Reading.sortValue (st : Store) (r : Record) (reading : Reading) : Result Value :=
  (fun values => values.headD .null) <$> reading.values st r

/-- The order of two records by their sort values, then by primary key. -/
def compareSorted (ordering : List OrderKey) (a b : List Value × Record) : Ordering :=
  let byKeys := (a.1.zip b.1).zipWith (fun (x, y) key =>
    if key.descending then (x.order y).swap else x.order y) ordering
  byKeys.foldr Ordering.then (compare a.2.pk b.2.pk)

/-- Arranges records by an ordering; without one they stay as they are. Fails where the sort values
are not ordered and the sort depends on it. -/
def arrange (st : Store) (model : String) (ordering : List OrderKey) (rs : List Record) :
    Result (List Record) :=
  if ordering.isEmpty then .ok rs
  else do
    let readings ← ordering.mapM fun key => st.schema.reading model key.field .order
    let decorated ← rs.mapM fun r => do return (← readings.mapM (Reading.sortValue st r), r)
    List.map Prod.snd <$> sortBy (compareSorted ordering) decorated

mutual

/-- The records of the set, in its order; without an explicit one, by ascending key. -/
def RecordSet.evaluate (st : Store) : RecordSet → Result (List Record)
  | ⟨model, predicate, ordering, foreign⟩ => do
    RecordSet.validate st.schema ⟨model, predicate, ordering, foreign⟩
    let condition ← compileCondition st model predicate
    let all ← st.records model
    let kept ← all.filterM fun r =>
      match condition with
      | none => return true
      | some c => c.decides st r
    arrange st model ordering kept

/-- The condition of a set of records of a model. -/
def compileCondition (st : Store) (model : String) : Option Predicate → Result (Option Condition)
  | none => .ok none
  | some p => some <$> p.compile st model

/-- The condition that a predicate puts on records of a model. -/
def Predicate.compile (st : Store) (model : String) : Predicate → Result Condition
  | .field path lookup => do
    let reading ← st.schema.reading model path .filter
    return .field reading (← lookup.compile st)
  | .and p q => do return .and (← p.compile st model) (← q.compile st model)
  | .or p q => do return .or (← p.compile st model) (← q.compile st model)
  | .not p => do return .not (← p.compile st model)

/-- The test of a lookup; the values of a subquery are read now. -/
def Lookup.compile (st : Store) : Lookup → Result Test
  | .compare c v => .ok (.compare c v)
  | .oneOf vs => .ok (.oneOf vs)
  | .within set field => do
    let reading ← st.schema.reading set.model field .filter
    let rs ← set.evaluate st
    let values ← rs.mapM fun r => reading.values st r
    return .oneOf values.flatten
  | .isNull expected => .ok (.isNull expected)
  | .startsWith start => .ok (.startsWith start)

end

end Concordance
