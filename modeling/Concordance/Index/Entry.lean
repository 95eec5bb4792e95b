import Concordance.Record

/-!
# Index entries

An `IndexEntry` is the document that an index keeps of one record: for each field path the tokens
found there, and the values of the filterable fields at the time of indexing.
-/

namespace Concordance

/-- The tokens of one field path of a record. -/
structure FieldContent where
  path : String
  /-- The factor on the score of a match here. -/
  boost : Float32
  /-- The tokens in order, repeats included. -/
  tokens : List String
  deriving DecidableEq

/-- The document of one record. -/
structure IndexEntry where
  pk : Key
  /-- The concrete type of the record. -/
  model : String
  fields : List FieldContent
  /-- The values of the filterable fields. -/
  filterValues : SortedMap String Value
  deriving DecidableEq

namespace IndexEntry

/-- The number of tokens of all fields. -/
def tokenCount (e : IndexEntry) : Nat := (e.fields.flatMap FieldContent.tokens).length

/-- The kept value of a filterable field. -/
def filterValue? (e : IndexEntry) (field : String) : Option Value := e.filterValues.get? field

/-- The distinct tokens of all fields. -/
def terms (e : IndexEntry) : List String := (e.fields.flatMap FieldContent.tokens).eraseDups

end IndexEntry

end Concordance
