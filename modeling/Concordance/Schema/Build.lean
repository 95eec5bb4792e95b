import Concordance.Schema.Basic

/-!
# Building a schema from declarations

`Schema.ofModels` checks a list of declarations and derives the table. It refuses, in this order:
a name declared twice, a chain of parents that leaves the declarations or comes back to itself,
and a relation to a model that is not declared.

A chain of parents is followed through the models not yet on it, of which each step uses one up;
a parent that is declared but used up closes a cycle.
-/

namespace Concordance.Schema

/-- The first name that also occurs earlier, `seen` included. -/
def firstRepeated (seen : List String) : List String → Option String
  | [] => none
  | name :: names => if seen.contains name then some name else firstRepeated (name :: seen) names

/-- The declaration of a model. -/
def declared? (models : List Model) (name : String) : Option Model :=
  models.find? fun m => m.name == name

theorem length_eraseP_of_declared {models : List Model} {name : String} {m : Model}
    (h : declared? models name = some m) :
    (models.eraseP fun m => m.name == name).length < models.length := by
  have hm := List.mem_of_find?_eq_some h
  have hp := List.find?_some h
  rw [List.length_eraseP_of_mem hm hp]
  have := List.length_pos_of_mem hm
  omega

/-- The chain of ancestors that starts with `parent`, through the models of `unused` only; `name`
is the model whose chain it is. -/
def chain (models : List Model) (name : String) (unused : List Model) (parent : Option String) :
    Except SchemaFault (List String) :=
  match parent with
  | none => .ok []
  | some p =>
    match h : declared? unused p with
    | some m =>
      have := length_eraseP_of_declared h
      (p :: ·) <$> chain models name (unused.eraseP fun m => m.name == p) m.parent
    | none =>
      if (declared? models p).isSome then .error (.cycle name)
      else .error (.undeclaredParent name p)
termination_by unused.length

/-- The ancestors of a model, parent first. -/
def ancestorsOf (models : List Model) (m : Model) : Except SchemaFault (List String) :=
  chain models m.name (models.eraseP fun other => other.name == m.name) m.parent

/-- The first relation of a model that leads to no declared model. -/
def strayRelation? (models : List Model) (m : Model) : Option SchemaFault :=
  m.fields.findSome? fun f =>
    f.related?.bind fun related =>
      if (declared? models related).isSome then none
      else some (.undeclaredRelation m.name f.name related)

/-- Adds a declared field: it takes the place of a field of its name, or the last place. -/
def declareField (fields : List Field) (f : Field) : List Field :=
  if fields.any fun g => g.name == f.name then
    fields.map fun g => if g.name == f.name then f else g
  else fields ++ [f]

/-- The fields that the models of a lineage declare, topmost model first. -/
def effectiveFields (models : List Model) (lineage : List String) : List Field :=
  (lineage.flatMap fun name => ((declared? models name).map Model.fields).getD []).foldl
    declareField []

/-- The entry of a model, given the ancestors of every model. -/
def entryOf (models : List Model) (lineages : List (Model × List String)) (m : Model)
    (ancestors : List String) : Entry where
  model := m
  ancestors := ancestors
  subtypes := (lineages.filter fun l => l.2.contains m.name).map fun l => l.1.name
  fields := effectiveFields models (ancestors.reverse ++ [m.name])

/-- The models by name, which is the order in which their relations are checked. -/
def byName (models : List Model) : List Model :=
  (SortedMap.ofList (models.map fun m => (m.name, m))).values

/-- The schema of the declared models. -/
def ofModels (models : List Model) : Except SchemaFault Schema := do
  if let some name := firstRepeated [] (models.map Model.name) then
    throw (.declaredTwice name)
  let lineages ← models.mapM fun m => do return (m, ← ancestorsOf models m)
  if let some fault := (byName models).findSome? (strayRelation? models) then
    throw fault
  return ⟨lineages.map fun (m, ancestors) => entryOf models lineages m ancestors⟩

end Concordance.Schema
