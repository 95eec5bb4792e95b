import Concordance.Json.Basic

/-!
# TOML values

What a TOML document denotes, and the JSON value with the same content. A date or time has no JSON
value of its own: it becomes an object of one member that holds its text.
-/

namespace Concordance

/-- A TOML value. -/
inductive Toml where
  | text (s : String)
  | int (i : Int64)
  | float (x : Float)
  | bool (b : Bool)
  /-- A date, a time or both, by its text. -/
  | moment (s : String)
  | list (items : List Toml)
  | table (members : List (String × Toml))
  deriving Inhabited

namespace Toml

/-- The key under which a JSON object holds the text of a date or time. -/
def momentKey : String := "$__toml_private_datetime"

mutual

/-- The JSON value with the same content; a number that is not finite becomes null. -/
def toJson : Toml → Json
  | text s => .text s
  | int i => .int i.toInt
  | float x => if x.isFinite then .float x else .null
  | bool b => .bool b
  | moment s => .object [(momentKey, .text s)]
  | list items => .list (itemsToJson items)
  | table members => .object (membersToJson members)

/-- The JSON values of the items of a list. -/
def itemsToJson : List Toml → List Json
  | [] => []
  | v :: vs => v.toJson :: itemsToJson vs

/-- The JSON members of a table. -/
def membersToJson : List (String × Toml) → List (String × Json)
  | [] => []
  | (k, v) :: ms => (k, v.toJson) :: membersToJson ms

end

end Toml

end Concordance
