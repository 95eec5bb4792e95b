import Concordance.Toml.Basic
import Concordance.Toml.Quoted
import Concordance.Value

/-!
# Writing TOML

`Toml.write` writes a table as a document. Plain values come first, one a line; tables and lists
of tables follow under headers of their own, a blank line before each. A table that holds only
further tables needs no header. Lists of several items have one item a line; tables inside of
other lists stand in line.
-/

namespace Concordance

mutual

/-- The TOML value with the same content; null and integers beyond 64 signed bits have none. -/
def Json.toToml? : Json → Option Toml
  | .null | .unreadable => none
  | .bool b => some (.bool b)
  | .int n => (signed64? n).map .int
  | .float x => some (.float x)
  | .text s => some (.text s)
  | .list items => (itemsToToml? items).map .list
  | .object members => (jsonMembersToToml? members).map .table

/-- The TOML values of the items of a list. -/
def itemsToToml? : List Json → Option (List Toml)
  | [] => some []
  | j :: js => do return (← j.toToml?) :: (← itemsToToml? js)

/-- The TOML members of an object. -/
def jsonMembersToToml? : List (String × Json) → Option (List (String × Toml))
  | [] => some []
  | (k, j) :: ms => do return (k, ← j.toToml?) :: (← jsonMembersToToml? ms)

end

namespace Toml

/-- Whether the value is a table. -/
def isTable : Toml → Bool
  | table _ => true
  | _ => false

/-- Whether the value stands under headers of its own, as a member of a table. -/
def hasHeader : Toml → Bool
  | table _ => true
  | list items => !items.isEmpty && items.all isTable
  | _ => false

/-- A floating point number. -/
def floatText (x : Float) : String :=
  if x.isNaN then "nan" else Decimal.Style.pointed.text (.ofFloat x)

/-- A list of written items. -/
def listText (items : List String) : String :=
  match items with
  | [] => "[]"
  | [item] => "[" ++ item ++ "]"
  | items => "[" ++ String.join (items.map fun item => "\n    " ++ item ++ ",") ++ "\n]"

/-- An inline table of written pairs. -/
def inlineText (pairs : List String) : String :=
  if pairs.isEmpty then "\x7b\x7d" else "\x7b " ++ ", ".intercalate pairs ++ " \x7d"

mutual

/-- A value behind an equals sign or in a list. -/
def writeValue : Toml → String
  | text s => writeText s
  | int i => toString i.toInt
  | float x => floatText x
  | bool b => if b then "true" else "false"
  | moment s => s
  | list items => listText (writeItems items)
  | table members => inlineText (writePairs members)

/-- The items of a list. -/
def writeItems : List Toml → List String
  | [] => []
  | v :: vs => v.writeValue :: writeItems vs

/-- The pairs of an inline table. -/
def writePairs : List (String × Toml) → List String
  | [] => []
  | (k, v) :: ms => (writeKey k ++ " = " ++ v.writeValue) :: writePairs ms

end

/-- The lines of the plain values of a table. -/
def bodyText (members : List (String × Toml)) : String :=
  String.join ((members.filter fun m => !m.2.hasHeader).map fun m =>
    writeKey m.1 ++ " = " ++ m.2.writeValue ++ "\n")

/-- A header with what stands under it. -/
def headerText (path : List String) (isElement : Bool) : String :=
  let name := ".".intercalate (path.map writeKey)
  if isElement then "[[" ++ name ++ "]]\n" else "[" ++ name ++ "]\n"

/-- The block of a table, if it needs a header: when it is empty, holds a plain value, or stands
in a list. -/
def blockOf (path : List String) (isElement : Bool) (members : List (String × Toml)) :
    List String :=
  if isElement || members.isEmpty || members.any fun m => !m.2.hasHeader then
    [headerText path isElement ++ bodyText members]
  else []

mutual

/-- The blocks that a member of the table at `path` contributes. -/
def blocks (path : List String) : Toml → List String
  | table members => blockOf path false members ++ memberBlocks path members
  | list items => elementBlocks path items
  | _ => []

/-- The blocks of the members of a table. -/
def memberBlocks (path : List String) : List (String × Toml) → List String
  | [] => []
  | (k, v) :: ms =>
    (if v.hasHeader then v.blocks (path ++ [k]) else []) ++ memberBlocks path ms

/-- The blocks of the tables of a list. -/
def elementBlocks (path : List String) : List Toml → List String
  | [] => []
  | table members :: vs =>
    blockOf path true members ++ memberBlocks path members ++ elementBlocks path vs
  | _ :: vs => elementBlocks path vs

end

/-- The document of a table. -/
def write (members : List (String × Toml)) : String :=
  let body := bodyText members
  let rest := memberBlocks [] members
  "\n".intercalate (if body.isEmpty then rest else body :: rest)

end Toml

end Concordance
