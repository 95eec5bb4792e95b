import Concordance.RecordSet.Basic
import Concordance.Schema.Resolve

/-!
# Validating record sets

A set is valid over a schema when its model is declared, it was combined with sets of that model
only, every field of its predicate resolves for filtering, every subquery is valid and its field
resolves for filtering on its model, and every key of its ordering resolves for ordering. The
first fault in this order is reported. The name `pk` always resolves.
-/

namespace Concordance

/-- Checks that a path resolves; the primary key does for every purpose. -/
def Schema.checkPath (s : Schema) (model path : String) (purpose : Purpose) : Result Unit :=
  if path = keyField then .ok () else (fun _ => ()) <$> s.resolve model path purpose

mutual

/-- Checks a set against a schema. -/
def RecordSet.validate (s : Schema) : RecordSet → Result Unit
  | ⟨model, predicate, ordering, foreign⟩ => do
    if !s.contains model then throw (.unknownModel model)
    if let some other := foreign then throw (.invalidValue (.mixedModels model other))
    validateCondition s model predicate
    ordering.forM fun key => s.checkPath model key.field .order

/-- Checks the condition of a set of records of a model. -/
def validateCondition (s : Schema) (model : String) : Option Predicate → Result Unit
  | none => .ok ()
  | some p => p.validate s model

/-- Checks a predicate on records of a model, left to right. -/
def Predicate.validate (s : Schema) (model : String) : Predicate → Result Unit
  | .field path lookup => do
    s.checkPath model path .filter
    lookup.validate s
  | .and p q => do
    p.validate s model
    q.validate s model
  | .or p q => do
    p.validate s model
    q.validate s model
  | .not p => p.validate s model

/-- Checks the subquery of a lookup. -/
def Lookup.validate (s : Schema) : Lookup → Result Unit
  | .within set field => do
    set.validate s
    s.checkPath set.model field .filter
  | _ => .ok ()

end

end Concordance
