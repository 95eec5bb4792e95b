import Concordance.SortedMap
import Concordance.Value

/-!
# Records

A `Record` is what is stored, indexed and found: its type (the *model*), its primary key, the
values of its fields and, for each relation, the keys of the related records.
-/

namespace Concordance

/-- A primary key: 64 bits, unsigned. -/
abbrev Key := UInt64

/-- A record of some model. -/
structure Record where
  /-- The concrete type. -/
  model : String
  /-- The primary key, unique within the family of the type. -/
  pk : Key
  /-- The values of the fields that are set. -/
  values : SortedMap String Value
  /-- The keys that each relation refers to, in order. -/
  relations : SortedMap String (List Key)
  deriving DecidableEq, Inhabited

namespace Record

/-- The stored value of a field, if it is set. -/
def value? (r : Record) (field : String) : Option Value := r.values.get? field

/-- The keys that a relation refers to; none if it is not set. -/
def related (r : Record) (field : String) : List Key := r.relations.getD field []

/-- The record relabelled as `model`, with the values and relations of the fields that `visible`
accepts. -/
def restrict (r : Record) (model : String) (visible : String → Bool) : Record where
  model := model
  pk := r.pk
  values := r.values.filter fun field _ => visible field
  relations := r.relations.filter fun field _ => visible field

end Record

end Concordance
