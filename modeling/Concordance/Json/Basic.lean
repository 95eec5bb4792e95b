import Concordance.SortedMap

/-!
# JSON values

Integers and floating point numbers are told apart: `2` and `2.0` are different values. Members of
an object keep the order of the text that they were read from; `Json.canonical` puts them in the
order of their keys.
-/

namespace Concordance

/-- A JSON value. -/
inductive Json where
  | null
  | bool (b : Bool)
  /-- A whole number that 64 bits hold, signed or unsigned. -/
  | int (n : Int)
  | float (x : Float)
  | text (s : String)
  | list (items : List Json)
  | object (members : List (String × Json))
  /-- What has the form of a value and is none: a number out of range, or a text with half of a
  surrogate pair. It may stand where a value is skipped. -/
  | unreadable
  deriving Inhabited

namespace Json

mutual

/-- The value with the members of every object by ascending key; of several with one key the last
is kept. -/
def canonical : Json → Json
  | list items => .list (canonicalItems items)
  | object members => .object (SortedMap.ofList (canonicalMembers members)).toList
  | j => j

/-- The items of a list, each made canonical. -/
def canonicalItems : List Json → List Json
  | [] => []
  | j :: js => j.canonical :: canonicalItems js

/-- The members of an object, each value made canonical. -/
def canonicalMembers : List (String × Json) → List (String × Json)
  | [] => []
  | (k, j) :: ms => (k, j.canonical) :: canonicalMembers ms

end

/-- The number as a double precision one. -/
def asFloat : Json → Option Float
  | int n => some (Float.ofInt n)
  | float x => some x
  | _ => none

/-- The members of an object under a key, in order. -/
def membersAt (key : String) (members : List (String × Json)) : List Json :=
  (members.filter fun m => m.1 == key).map Prod.snd

end Json

end Concordance
