import Concordance.Json.Printer
import Concordance.Json.Reader
import Concordance.Record

/-!
# Records as JSON

The exchange form of values and records. A value is an object of one member whose key is the name
of its type; null is the text `"Null"`. A record is an object with the members `model`, `pk`,
`values` and `relations`.

Reading also takes null in the form of the other values, a whole number for a floating point
value, a record as a list of its four parts, and ignores members of a record that it does not
know. A part that is missing or given twice makes the record unreadable.
-/

namespace Concordance

namespace Value

/-- The exchange form of a value. -/
def toJson : Value → Json
  | null => .text "Null"
  | bool b => .object [("Bool", .bool b)]
  | int i => .object [("Int", .int i.toInt)]
  | float x => .object [("Float", .float x.toFloat)]
  | text s => .object [("String", .text s)]
  | date d => .object [("Date", .text d.text)]

/-- Reads the content of a value of a named type. -/
def ofTagged? (tag : String) (content : Json) : Option Value :=
  match tag, content with
  | "Null", .null => some null
  | "Bool", .bool b => some (bool b)
  | "Int", .int n => (signed64? n).map int
  | "Float", j => j.asFloat.map fun x => float (.ofFloat x)
  | "String", .text s => some (text s)
  | "Date", .text s => (Date.read? s).map date
  | _, _ => none

/-- Reads the exchange form of a value. -/
def ofJson? : Json → Option Value
  | .text "Null" => some null
  | .object [(tag, content)] => ofTagged? tag content
  | _ => none

/-- The JSON text of a value. -/
def encode (v : Value) : String := v.toJson.render

/-- Reads a value from JSON text. -/
def decode? (s : String) : Option Value := (Json.read? s).bind ofJson?

end Value

/-- A key as JSON. -/
def Key.toJson (pk : Key) : Json := .int pk.toNat

/-- Reads a key. -/
def Key.ofJson? : Json → Option Key
  | .int n => unsigned64? n
  | _ => none

/-- Reads a list of keys. -/
def Key.listOfJson? : Json → Option (List Key)
  | .list items => items.mapM Key.ofJson?
  | _ => none

namespace Record

/-- The exchange form of a record. -/
def toJson (r : Record) : Json :=
  .object [
    ("model", .text r.model),
    ("pk", Key.toJson r.pk),
    ("values", .object (r.values.map Value.toJson).toList),
    ("relations", .object (r.relations.map fun pks => .list (pks.map Key.toJson)).toList)]

/-- Reads an object as a table of what its members hold. -/
def tableOfJson? {α : Type} (read : Json → Option α) : Json → Option (SortedMap String α)
  | .object members =>
    (members.mapM fun m => (read m.2).map fun x => (m.1, x)).map SortedMap.ofList
  | _ => none

/-- Reads the four parts of a record. -/
def ofParts? (model pk values relations : Json) : Option Record :=
  match model with
  | .text model => do
    return {
      model := model
      pk := ← Key.ofJson? pk
      values := ← tableOfJson? Value.ofJson? values
      relations := ← tableOfJson? Key.listOfJson? relations }
  | _ => none

/-- Reads the exchange form of a record. -/
def ofJson? : Json → Option Record
  | .object members =>
    match Json.membersAt "model" members, Json.membersAt "pk" members,
      Json.membersAt "values" members, Json.membersAt "relations" members with
    | [model], [pk], [values], [relations] => ofParts? model pk values relations
    | _, _, _, _ => none
  | .list [model, pk, values, relations] => ofParts? model pk values relations
  | _ => none

/-- The JSON text of a record. -/
def encode (r : Record) : String := r.toJson.render

/-- Reads a record from JSON text. -/
def decode? (s : String) : Option Record := (Json.read? s).bind ofJson?

end Record

end Concordance
