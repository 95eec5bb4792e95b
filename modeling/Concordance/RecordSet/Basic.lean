import Concordance.Error

/-!
# Record sets

A `RecordSet` describes records of one model: a predicate over field paths, if any, and an
ordering. It reads nothing until it is evaluated. Sets combine by `and` and `or`; a set that was
combined with one of another model remembers the other model (`foreign`), so that its validation
can refuse the combination.
-/

namespace Concordance

/-- One key of an ordering. -/
structure OrderKey where
  /-- The field path. -/
  field : String
  descending : Bool
  deriving DecidableEq

/-- Reads `field` or, for descending order, `-field`. -/
def OrderKey.read (spec : String) : OrderKey :=
  match spec.toList with
  | '-' :: field => ⟨String.ofList field, true⟩
  | _ => ⟨spec, false⟩

/-- A comparison with a value. -/
inductive Comparison where
  | exact
  | lt
  | lte
  | gt
  | gte
  deriving DecidableEq

/-- Whether an order of a field's value to the compared value satisfies the comparison. -/
def Comparison.holds : Comparison → Ordering → Bool
  | exact, o => o == .eq
  | lt, o => o == .lt
  | lte, o => o != .gt
  | gt, o => o == .gt
  | gte, o => o != .lt

mutual

/-- A set of records of one model. -/
structure RecordSet where
  model : String
  /-- What the records satisfy; none if nothing is asked. -/
  predicate : Option Predicate
  /-- The explicit ordering; empty if there is none. -/
  ordering : List OrderKey
  /-- The first other model that the set was combined with. -/
  foreign : Option String

/-- A condition on the values of a field path. -/
inductive Lookup where
  /-- Some value compares so. -/
  | compare (c : Comparison) (v : Value)
  /-- Some value is among the listed ones. -/
  | oneOf (vs : List Value)
  /-- Some value is among those of a field over another set. -/
  | within (set : RecordSet) (field : String)
  /-- All values are null, or not all. -/
  | isNull (expected : Bool)
  /-- Some value is a text that starts so. -/
  | startsWith (start : String)

/-- A boolean combination of lookups. -/
inductive Predicate where
  | field (path : String) (lookup : Lookup)
  | and (p q : Predicate)
  | or (p q : Predicate)
  | not (p : Predicate)

end

/-- The name that stands for the primary key in paths. -/
def keyField : String := "pk"

namespace RecordSet

/-- Every record of a model. -/
def of (model : String) : RecordSet := ⟨model, none, [], none⟩

/-- Whether there is an explicit ordering. -/
def isOrdered (s : RecordSet) : Bool := !s.ordering.isEmpty

/-- The records that also satisfy `p`. -/
def restrict (s : RecordSet) (p : Predicate) : RecordSet :=
  { s with predicate := some (match s.predicate with
    | some existing => .and existing p
    | none => p) }

/-- The records whose `path` satisfies `lookup`. -/
def filter (s : RecordSet) (path : String) (lookup : Lookup) : RecordSet :=
  s.restrict (.field path lookup)

/-- The records whose `path` does not satisfy `lookup`. -/
def exclude (s : RecordSet) (path : String) (lookup : Lookup) : RecordSet :=
  s.restrict (.not (.field path lookup))

/-- The foreign model of a combination: the earlier one stays, and else it is the one that `t`
brings. -/
def foreignOf (s t : RecordSet) : Option String :=
  match s.foreign, t.foreign with
  | some other, _ => some other
  | none, some other => some other
  | none, none => if t.model = s.model then none else some t.model

/-- The records in both sets, in the order of the first. -/
def and (s t : RecordSet) : RecordSet :=
  let combined := { s with foreign := s.foreignOf t }
  match t.predicate with
  | some p => combined.restrict p
  | none => combined

/-- The records in either set, in the order of the first. -/
def or (s t : RecordSet) : RecordSet :=
  { s with
    foreign := s.foreignOf t
    predicate := match s.predicate, t.predicate with
      | some p, some q => some (.or p q)
      | _, _ => none }

/-- The same records in another order. -/
def orderBy (s : RecordSet) (specs : List String) : RecordSet :=
  { s with ordering := specs.map OrderKey.read }

end RecordSet

end Concordance
