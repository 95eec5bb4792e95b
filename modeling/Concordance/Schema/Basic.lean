import Concordance.Schema.Field

/-!
# Schemas

A `Schema` is the table of all declared models. Beside each declaration stand the chain of its
ancestors, its subtypes and its *effective* fields, inherited ones included. The *family* of a
model is the hierarchy that hangs from its topmost ancestor, the *root*.
-/

namespace Concordance

/-- A model with what follows from the declarations of its hierarchy. -/
structure Schema.Entry where
  model : Model
  /-- The ancestors, parent first and root last. -/
  ancestors : List String
  /-- The types below, at any distance, in order of declaration. -/
  subtypes : List String
  /-- The effective fields: inherited ones first, each redeclaration in the place of what it
  replaces. -/
  fields : List Field

/-- The table of models, in order of declaration. -/
structure Schema where
  entries : List Schema.Entry

namespace Schema

/-- The entry of a model. -/
def entry? (s : Schema) (model : String) : Option Entry :=
  s.entries.find? fun e => e.model.name == model

/-- The entry of a model that must be declared. -/
def entry (s : Schema) (model : String) : Result Entry :=
  match s.entry? model with
  | some e => .ok e
  | none => .error (.unknownModel model)

/-- Whether a model is declared. -/
def contains (s : Schema) (model : String) : Bool := (s.entry? model).isSome

/-- The names of all models, in order of declaration. -/
def models (s : Schema) : List String := s.entries.map fun e => e.model.name

/-- The declaration of a model. -/
def model (s : Schema) (model : String) : Result Model := Entry.model <$> s.entry model

/-- The effective fields of a model. -/
def fields (s : Schema) (model : String) : Result (List Field) := Entry.fields <$> s.entry model

/-- The effective field of a model with a name. -/
def field? (s : Schema) (model name : String) : Option Field :=
  (s.entry? model).bind fun e => e.fields.find? fun f => f.name == name

/-- The ancestors of a model, parent first. -/
def ancestors (s : Schema) (model : String) : Result (List String) :=
  Entry.ancestors <$> s.entry model

/-- The types below a model. -/
def subtypes (s : Schema) (model : String) : Result (List String) :=
  Entry.subtypes <$> s.entry model

/-- The topmost ancestor of a model; the model itself if it extends nothing. -/
def rootOf (s : Schema) (model : String) : Result String :=
  (fun e => e.ancestors.getLast?.getD model) <$> s.entry model

/-- Whether `model` is `ancestor` or lies below it. -/
def isSubtype (s : Schema) (model ancestor : String) : Bool :=
  model == ancestor || (s.entry? model).any fun e => e.ancestors.contains ancestor

/-- Whether a model has a searchable field, inherited ones included. -/
def isIndexed (s : Schema) (model : String) : Bool :=
  (s.entry? model).any fun e => e.fields.any Field.searchable

/-- Whether a model or a type below it has a searchable field. -/
def hasIndexedFamily (s : Schema) (model : String) : Bool :=
  s.isIndexed model || (s.entry? model).any fun e => e.subtypes.any s.isIndexed

/-- The searchable effective fields of a model. -/
def searchableFields (s : Schema) (model : String) : Result (List Field) :=
  (fun fs => fs.filter Field.searchable) <$> s.fields model

/-- The record seen as a `model`: relabelled, and without what the model has no field for. -/
def project (s : Schema) (r : Record) (model : String) : Record :=
  if r.model = model then r
  else r.restrict model fun name => (s.field? model name).isSome

end Schema

end Concordance
