import Concordance.Record

/-!
# Errors

Every operation that can fail fails with an `Error`: a kind, and within the kind the cause. The
wording is in one place, `Error.message`; a cause called `other` carries a wording of its own. A
panic is an outcome among these, since nothing that it interrupts goes on or has changed anything.
-/

namespace Concordance

/-- What a field is wanted for. -/
inductive Purpose where
  | search
  | filter
  | order
  deriving DecidableEq

/-- The purpose in words. -/
def Purpose.text : Purpose → String
  | search => "search"
  | filter => "filter"
  | order => "order by"

/-- Why a field does not serve a purpose. -/
inductive FieldFault where
  /-- The model has no field of this name. -/
  | unknown
  | notSearchable
  | notFilterable
  /-- The field is not filterable, or it is a relation. -/
  | notOrderable
  /-- A path goes on after a field that is not a relation. -/
  | notARelation
  deriving DecidableEq

/-- The fault in words. -/
def FieldFault.text : FieldFault → String
  | unknown => "no such field"
  | notSearchable => "field is not searchable"
  | notFilterable => "field is not filterable"
  | notOrderable => "field cannot be used for ordering"
  | notARelation => "field is not a relation"

/-- A field path that does not resolve. -/
structure FieldError where
  /-- The whole path as requested. -/
  field : String
  /-- The model that the path starts from. -/
  model : String
  purpose : Purpose
  fault : FieldFault
  deriving DecidableEq

/-- The error in words. -/
def FieldError.text (e : FieldError) : String :=
  "Cannot " ++ e.purpose.text ++ " on field '" ++ e.field ++ "' of model '" ++ e.model ++ "': " ++
    e.fault.text

/-- Why an argument is refused. -/
inductive ValueFault where
  /-- A word that names no operator. -/
  | operator (given : String)
  /-- A boost that is negative or not finite. -/
  | boost (term : String) (boost : Float32)
  /-- Two record sets of different models combined. -/
  | mixedModels (model other : String)
  /-- A primary key above the integers that keys compare with. -/
  | keyRange (pk : Key)
  /-- A record handed to the index of another family. -/
  | family (model index : String)
  | other (text : String)
  deriving DecidableEq

/-- The fault in words. -/
def ValueFault.text : ValueFault → String
  | operator given => "operator must be 'and' or 'or', got '" ++ given ++ "'"
  | boost term x =>
    "boost for term '" ++ term ++ "' must be a non-negative number, got " ++
      Decimal.Style.plain.text (.ofFloat32 x)
  | mixedModels model second =>
    "cannot combine record sets of '" ++ model ++ "' and '" ++ second ++ "'"
  | keyRange pk => "primary key " ++ toString pk.toNat ++ " is out of range for comparison"
  | family model index =>
    "record of type '" ++ model ++ "' does not belong in the '" ++ index ++ "' index"
  | other text => text

/-- Why declarations make no schema. -/
inductive SchemaFault where
  | declaredTwice (model : String)
  | undeclaredParent (model parent : String)
  /-- The chain of parents of the model comes back to a model on it. -/
  | cycle (model : String)
  | undeclaredRelation (model field related : String)
  | other (text : String)
  deriving DecidableEq

/-- The fault in words. -/
def SchemaFault.text : SchemaFault → String
  | declaredTwice model => "model '" ++ model ++ "' declared twice"
  | undeclaredParent model parent =>
    "model '" ++ model ++ "' extends undeclared model '" ++ parent ++ "'"
  | cycle model => "inheritance cycle through model '" ++ model ++ "'"
  | undeclaredRelation model field related =>
    "field '" ++ model ++ "." ++ field ++ "' relates to undeclared model '" ++ related ++ "'"
  | other text => text

/-- Why a configuration is refused. -/
inductive ConfigFault where
  /-- A rebuild asked for batches of no records. -/
  | emptyBatch
  /-- A configuration sets batches of no records. -/
  | chunkSize
  | blankName
  | blankPath (name : String)
  | repeatedName (name : String)
  /-- An option that is no number, with its written value. -/
  | notANumber (option value : String)
  | saturation (k1 : Float32)
  | lengthWeight (b : Float32)
  | notInstalled
  /-- Text that is no configuration. -/
  | malformed
  | malformedFile (path : String)
  | unreadableFile (path reason : String)
  /-- A configuration that the file format cannot hold. -/
  | unwritable
  | other (text : String)
  deriving DecidableEq

/-- The fault in words. -/
def ConfigFault.text : ConfigFault → String
  | emptyBatch => "chunk size must be greater than 0"
  | chunkSize => "reindex_chunk_size must be greater than 0"
  | blankName => "backend name must not be empty"
  | blankPath name => "backend '" ++ name ++ "' has no backend path"
  | repeatedName name => "backend '" ++ name ++ "' is configured more than once"
  | notANumber option value => "option '" ++ option ++ "' must be a number, got " ++ value
  | saturation x =>
    "k1 must be a non-negative number, got " ++ Decimal.Style.plain.text (.ofFloat32 x)
  | lengthWeight x => "b must be between 0 and 1, got " ++ Decimal.Style.plain.text (.ofFloat32 x)
  | notInstalled => "no search backends installed"
  | malformed => "Failed to parse config"
  | malformedFile path => "Failed to parse config file '" ++ path ++ "'"
  | unreadableFile path reason => "Failed to read config file '" ++ path ++ "': " ++ reason
  | unwritable => "Failed to serialize config"
  | other text => text

/-- Why a backend cannot be had. -/
inductive BackendFault where
  /-- The path is neither configured nor registered. -/
  | unresolved (path : String)
  | other (text : String)
  deriving DecidableEq

/-- The fault in words. -/
def BackendFault.text : BackendFault → String
  | unresolved path =>
    "'" ++ path ++ "' is not a configured backend, module path or class path"
  | other text => text

/-- The failure of an operation: an error that is reported, or a panic. -/
inductive Error where
  /-- A backend that was requested by a name or path. -/
  | invalidBackend (backend : String) (fault : BackendFault)
  | field (error : FieldError)
  | invalidValue (fault : ValueFault)
  | unknownModel (model : String)
  | notIndexed (model : String)
  | schema (fault : SchemaFault)
  | storage (text : String)
  | config (fault : ConfigFault)
  | io (text : String)
  /-- Nothing is reported. A sort was given a comparison that is no order of what it sorts; the
  standard library promises no result then, and may panic. -/
  | panic
  deriving DecidableEq

/-- What the system says of a path that leads nowhere. -/
def missingFileReason : String := "No such file or directory (os error 2)"

namespace Error

/-- The error in words. -/
def message : Error → String
  | invalidBackend backend fault => "Invalid search backend '" ++ backend ++ "': " ++ fault.text
  | field error => error.text
  | invalidValue fault => "Invalid value: " ++ fault.text
  | unknownModel model => "Unknown model: " ++ model
  | notIndexed model => "Model is not indexed: " ++ model
  | schema fault => "Schema error: " ++ fault.text
  | storage text => "Storage error: " ++ text
  | config fault => "Configuration error: " ++ fault.text
  | io text => "I/O error: " ++ text
  | panic => "user-provided comparison function does not correctly implement a total order"

/-- The field error, of an error that is one. -/
def fieldError? : Error → Option FieldError
  | field error => some error
  | _ => none

/-- Whether a field did not resolve. -/
def isField (e : Error) : Bool := e.fieldError?.isSome

/-- Whether an argument was refused. -/
def isInvalidValue : Error → Bool
  | invalidValue _ => true
  | _ => false

/-- Whether a backend could not be had. -/
def isInvalidBackend : Error → Bool
  | invalidBackend _ _ => true
  | _ => false

end Error

/-- The outcome of an operation that can fail. -/
abbrev Result (α : Type) := Except Error α

end Concordance
