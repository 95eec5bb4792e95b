import Concordance.Error
import Concordance.Text.Printable

/-!
# Fields and models

A `Model` is a declared type of record: its name, its parent type and the fields that it declares
itself. A `Field` says what a field may be used for, how much a match in it weighs and where its
value comes from: from the record, from a function of the record, or, for a relation, from the
related records.
-/

namespace Concordance

/-- Where the value of a field comes from. -/
inductive Field.Source where
  /-- The value is stored on the record. -/
  | stored
  /-- The field refers to records of a model. -/
  | relation (model : String)
  /-- The value is derived from the record. -/
  | computed (derive : Record → Option Value)

/-- A declared field. -/
structure Field where
  name : String
  /-- Text queries may match the field. -/
  searchable : Bool
  /-- Record sets may filter by the field. -/
  filterable : Bool
  /-- The factor on the score of a match in the field. -/
  boost : Float32
  source : Field.Source

namespace Field

/-- A field with no use yet and a boost of one. -/
def bare (name : String) (source : Source) : Field := ⟨name, false, false, 1.0, source⟩

/-- A stored field that can be searched. -/
def search (name : String) : Field := { bare name .stored with searchable := true }

/-- A stored field that can be filtered by. -/
def filter (name : String) : Field := { bare name .stored with filterable := true }

/-- A relation to records of `model`, whose searchable fields are searched through it. -/
def related (name model : String) : Field := { bare name (.relation model) with searchable := true }

/-- A searchable field whose value is derived from the record. -/
def computed (name : String) (derive : Record → Option Value) : Field :=
  { bare name (.computed derive) with searchable := true }

/-- The model that a relation refers to. -/
def related? (f : Field) : Option String :=
  match f.source with
  | .relation model => some model
  | _ => none

/-- Whether the field is a relation. -/
def isRelation (f : Field) : Bool := f.related?.isSome

/-- Whether the value is derived. -/
def isComputed (f : Field) : Bool :=
  match f.source with
  | .computed _ => true
  | _ => false

/-- The field's value on a record; null if there is none. -/
def valueOf (f : Field) (r : Record) : Value :=
  match f.source with
  | .computed derive => (derive r).getD .null
  | _ => (r.value? f.name).getD .null

/-- Why the field, at the end of a path, does not serve the purpose; none if it does. -/
def fault? (f : Field) : Purpose → Option FieldFault
  | .search => if f.searchable then none else some .notSearchable
  | .filter => if f.filterable then none else some .notFilterable
  | .order => if f.filterable && !f.isRelation then none else some .notOrderable

/-- A character as it stands between double quotes: quotes, backslashes and characters that do not
show are escaped. -/
def quotedChar (c : Char) : List Char :=
  match c with
  | '"' => ['\\', '"']
  | '\\' => ['\\', '\\']
  | '\n' => ['\\', 'n']
  | '\r' => ['\\', 'r']
  | '\t' => ['\\', 't']
  | '\x00' => ['\\', '0']
  | c =>
    if Text.isPrintable c then [c]
    else ['\\', 'u', '\x7b'] ++ Nat.toDigits 16 c.toNat ++ ['\x7d']

/-- A text between double quotes. -/
def quoted (s : String) : String := "\"" ++ String.ofList (s.toList.flatMap quotedChar) ++ "\""

/-- The field in words, for diagnosis. -/
def describe (f : Field) : String :=
  let flag (b : Bool) := if b then "true" else "false"
  let relation := match f.related? with
    | some model => "Some(" ++ quoted model ++ ")"
    | none => "None"
  "FieldSpec \x7b name: " ++ quoted f.name ++ ", searchable: " ++ flag f.searchable ++
    ", filterable: " ++ flag f.filterable ++
    ", boost: " ++ Decimal.Style.diagnostic.text (.ofFloat32 f.boost) ++
    ", related_model: " ++ relation ++ ", computed: " ++ flag f.isComputed ++ " \x7d"

end Field

/-- A declared type of record. -/
structure Model where
  name : String
  /-- The type that this one extends. -/
  parent : Option String
  /-- The fields declared on the type itself. -/
  fields : List Field

end Concordance
