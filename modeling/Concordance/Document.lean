import Concordance.Index.Entry
import Concordance.Schema.Resolve
import Concordance.Store

/-!
# Deriving index entries

The entry of a record holds the tokens of each searchable field of its concrete type. A searchable
relation is followed through the store: the searchable fields of the related records, read as
instances of the relation's model, stand under paths below the relation, and the boosts along a
path multiply. Relations are followed at most `maxRelationDepth` deep.
-/

namespace Concordance

/-- The number of relations that a path of an entry may go through. -/
def maxRelationDepth : Nat := 2

/-- Adds tokens found under a path; a path that is there already gains them at its end. -/
def addContent (contents : List FieldContent) (c : FieldContent) : List FieldContent :=
  if c.tokens.isEmpty then contents
  else if contents.any fun d => d.path == c.path then
    contents.map fun d =>
      if d.path == c.path then { d with tokens := d.tokens ++ c.tokens } else d
  else contents ++ [c]

/-- The contents that a record has as an instance of `model`, in the order they are met. `depth`
relations may still be followed; `base` is the path to the record and `boost` the product along
it. -/
def contentsOf (st : Store) (depth : Nat) (model : String) (r : Record) (base : String)
    (boost : Float32) : Result (List FieldContent) := do
  let fields ← st.schema.searchableFields model
  let found ← fields.mapM fun f => do
    let path := Path.below base f.name
    let boost := boost * f.boost
    match f.related? with
    | none => return [⟨path, boost, (f.valueOf r).tokens⟩]
    | some target =>
      match depth with
      | 0 => return []
      | depth + 1 =>
        let below ← (r.related f.name).mapM fun pk => do
          match ← st.get target pk with
          | none => return []
          | some related => contentsOf st depth target related path boost
        return below.flatten
  return found.flatten

/-- The values of the filterable fields that are no relations. -/
def filterValuesOf (fields : List Field) (r : Record) : SortedMap String Value :=
  SortedMap.ofList
    ((fields.filter fun f => f.filterable && !f.isRelation).map fun f => (f.name, f.valueOf r))

/-- The entry of a record; none if its type has no searchable field. -/
def buildEntry (st : Store) (r : Record) : Result (Option IndexEntry) := do
  if (← st.schema.searchableFields r.model).isEmpty then return none
  let contents ← contentsOf st maxRelationDepth r.model r "" 1.0
  return some {
    pk := r.pk
    model := r.model
    fields := contents.foldl addContent []
    filterValues := filterValuesOf (← st.schema.fields r.model) r }

end Concordance
