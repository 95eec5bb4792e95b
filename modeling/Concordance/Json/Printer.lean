import Concordance.Decimal.Notation
import Concordance.Json.Basic

/-!
# JSON text

The compact form: no white space, numbers in their shortest spelling, and in texts only quotes,
backslashes and control characters escaped. A number that is not finite is written `null`.
-/

namespace Concordance.Json

/-- A digit of a number in base sixteen. -/
def hexDigit (n : Nat) : Char := Nat.digitChar n

/-- A character as it stands in a JSON text. -/
def escaped (c : Char) : List Char :=
  match c with
  | '"' => ['\\', '"']
  | '\\' => ['\\', '\\']
  | '\x08' => ['\\', 'b']
  | '\x09' => ['\\', 't']
  | '\x0a' => ['\\', 'n']
  | '\x0c' => ['\\', 'f']
  | '\x0d' => ['\\', 'r']
  | c =>
    if c.toNat < 0x20 then
      ['\\', 'u', '0', '0', hexDigit (c.toNat / 16), hexDigit (c.toNat % 16)]
    else [c]

/-- A text between quotes. -/
def quoted (s : String) : String := "\"" ++ String.ofList (s.toList.flatMap escaped) ++ "\""

/-- A floating point number; `null` if it is not finite. -/
def floatText (x : Float) : String :=
  if x.isFinite then Decimal.Style.exchange.text (.ofFloat x) else "null"

mutual

/-- The compact text of a value. -/
def render : Json → String
  | null | unreadable => "null"
  | bool b => if b then "true" else "false"
  | int n => toString n
  | float x => floatText x
  | text s => quoted s
  | list items => "[" ++ ",".intercalate (renderItems items) ++ "]"
  | object members => "\x7b" ++ ",".intercalate (renderMembers members) ++ "\x7d"

/-- The texts of the items of a list. -/
def renderItems : List Json → List String
  | [] => []
  | j :: js => j.render :: renderItems js

/-- The texts of the members of an object, keys included. -/
def renderMembers : List (String × Json) → List String
  | [] => []
  | (k, j) :: ms => (quoted k ++ ":" ++ j.render) :: renderMembers ms

end

end Concordance.Json
