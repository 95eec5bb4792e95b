import Concordance.Schema.Basic

/-!
# The record store

A `Store` keeps the records of every family apart: within a family, whatever the concrete types,
a primary key belongs to at most one record. What is read back for a model are the records of its
family whose type is the model or lies below it, by ascending key.

The version counts writes: each insertion, and each deletion that removed a record.
-/

namespace Concordance

/-- The stored records over a schema. -/
structure Store where
  schema : Schema
  /-- The records of each family, by the name of its root and by primary key. -/
  families : SortedMap String (SortedMap Key Record)
  /-- The number of writes so far. -/
  version : Nat

namespace Store

/-- The store without records. -/
def empty (schema : Schema) : Store := ⟨schema, ∅, 0⟩

/-- The records of the family with a root. -/
def family (st : Store) (root : String) : SortedMap Key Record := st.families.getD root ∅

/-- Inserts a record; it replaces the one of its family with its key. -/
def insert (st : Store) (r : Record) : Result Store := do
  let root ← st.schema.rootOf r.model
  return { st with
    families := st.families.insert root ((st.family root).insert r.pk r)
    version := st.version + 1 }

/-- Removes the record that the family of `model` has at a key, and returns it. -/
def delete (st : Store) (model : String) (pk : Key) : Result (Option Record × Store) := do
  let root ← st.schema.rootOf model
  match (st.family root).get? pk with
  | none => return (none, st)
  | some r =>
    return (some r, { st with
      families := st.families.insert root ((st.family root).erase pk)
      version := st.version + 1 })

/-- The records of a model and the types below it, by ascending key. -/
def records (st : Store) (model : String) : Result (List Record) := do
  let root ← st.schema.rootOf model
  return (st.family root).values.filter fun r => st.schema.isSubtype r.model model

/-- The record of a model or a type below it with a key. -/
def get (st : Store) (model : String) (pk : Key) : Result (Option Record) := do
  let root ← st.schema.rootOf model
  return ((st.family root).get? pk).filter fun r => st.schema.isSubtype r.model model

/-- The number of records. -/
def size (st : Store) : Nat := (st.families.values.flatMap SortedMap.values).length

end Store

end Concordance
