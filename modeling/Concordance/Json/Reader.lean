import Concordance.Json.Number

/-!
# Reading JSON

`Json.read?` reads one value with white space around it. Every function here takes the characters
that are left and returns what it read with the characters after it; none means that the text is
no JSON. Recursion is bounded by the number of characters, each value being at least one.
-/

namespace Concordance.Json

/-- Drops the white space of JSON. -/
def skipSpace (cs : List Char) : List Char :=
  cs.dropWhile fun c => c == ' ' || c == '\n' || c == '\t' || c == '\r'

/-! ## Texts -/

/-- One element of a text: a character, or the UTF-16 unit of an escape. -/
inductive TextUnit where
  | char (c : Char)
  | unit (n : Nat)

/-- The value of a hexadecimal digit. -/
def hexValue? (c : Char) : Option Nat :=
  if '0' ≤ c ∧ c ≤ '9' then some (c.toNat - '0'.toNat)
  else if 'a' ≤ c ∧ c ≤ 'f' then some (c.toNat - 'a'.toNat + 10)
  else if 'A' ≤ c ∧ c ≤ 'F' then some (c.toNat - 'A'.toNat + 10)
  else none

/-- The number that hexadecimal digits write. -/
def ofHex? (cs : List Char) : Option Nat :=
  cs.foldlM (fun n c => (hexValue? c).map fun d => 16 * n + d) 0

/-- The character that a backslash and this character stand for. -/
def shortEscape? : Char → Option Char
  | '"' => some '"'
  | '\\' => some '\\'
  | '/' => some '/'
  | 'b' => some '\x08'
  | 'f' => some '\x0c'
  | 'n' => some '\n'
  | 'r' => some '\r'
  | 't' => some '\t'
  | _ => none

/-- Reads the elements of a text after its opening quote, up to and with the closing one. -/
def textUnits? : List Char → Option (List TextUnit × List Char)
  | [] => none
  | '"' :: cs => some ([], cs)
  | '\\' :: 'u' :: a :: b :: c :: d :: cs => do
    let n ← ofHex? [a, b, c, d]
    let (us, rest) ← textUnits? cs
    return (.unit n :: us, rest)
  | '\\' :: c :: cs => do
    let c ← shortEscape? c
    let (us, rest) ← textUnits? cs
    return (.char c :: us, rest)
  | c :: cs =>
    if c.toNat < 0x20 ∨ c = '\\' then none
    else do
      let (us, rest) ← textUnits? cs
      return (.char c :: us, rest)

/-- The characters of a text; none if half of a surrogate pair stands alone. -/
def joinUnits? : List TextUnit → Option (List Char)
  | [] => some []
  | .char c :: us => (c :: ·) <$> joinUnits? us
  | .unit n :: us =>
    if n < 0xD800 ∨ 0xE000 ≤ n then (Char.ofNat n :: ·) <$> joinUnits? us
    else match us with
      | .unit m :: us =>
        if n < 0xDC00 ∧ 0xDC00 ≤ m ∧ m < 0xE000 then
          (Char.ofNat (0x10000 + (n - 0xD800) * 0x400 + (m - 0xDC00)) :: ·) <$> joinUnits? us
        else none
      | _ => none

/-! ## Numbers -/

/-- Reads the point and the digits after it, if they follow. -/
def places? : List Char → Option (Bool × List Char × List Char)
  | '.' :: cs =>
    let (ds, rest) := Decimal.takeDigits cs
    if ds.isEmpty then none else some (true, ds, rest)
  | cs => some (false, [], cs)

/-- Reads the exponent, if it follows. -/
def exponentPart? : List Char → Option (Option Int × List Char)
  | [] => some (none, [])
  | c :: cs =>
    if c = 'e' ∨ c = 'E' then
      let (negative, cs) := Decimal.takeSign cs
      let (ds, rest) := Decimal.takeDigits cs
      if ds.isEmpty then none
      else
        let n : Int := Decimal.ofDigits 0 ds
        some (some (if negative then -n else n), rest)
    else some (none, c :: cs)

/-- Reads a numeral: no zero stands before another digit. -/
def number? (cs : List Char) : Option (Json × List Char) := do
  let (negative, cs) := match cs with
    | '-' :: cs => (true, cs)
    | cs => (false, cs)
  let (whole, cs) := Decimal.takeDigits cs
  if whole.isEmpty ∨ (whole.head? = some '0' ∧ 1 < whole.length) then none
  else
    let (hasPoint, places, cs) ← places? cs
    let (exponent, cs) ← exponentPart? cs
    return ((NumberText.mk negative whole places exponent hasPoint).value, cs)

/-! ## Values -/

/-- The value of a text that has been taken apart. -/
def ofUnits (us : List TextUnit) : Json :=
  match joinUnits? us with
  | some cs => .text (String.ofList cs)
  | none => .unreadable

/-- An object of members some of whose keys may be unreadable. -/
def ofMembers (members : List (Json × Json)) : Json :=
  match members.mapM fun (k, j) => match k with
    | .text s => some (s, j)
    | _ => none with
  | some ms => .object ms
  | none => .unreadable

mutual

/-- Reads a value; white space may stand before it. -/
def value? : Nat → List Char → Option (Json × List Char)
  | 0, _ => none
  | fuel + 1, cs =>
    match skipSpace cs with
    | 'n' :: 'u' :: 'l' :: 'l' :: cs => some (.null, cs)
    | 't' :: 'r' :: 'u' :: 'e' :: cs => some (.bool true, cs)
    | 'f' :: 'a' :: 'l' :: 's' :: 'e' :: cs => some (.bool false, cs)
    | '"' :: cs => (textUnits? cs).map fun (us, rest) => (ofUnits us, rest)
    | '[' :: cs =>
      match skipSpace cs with
      | ']' :: cs => some (.list [], cs)
      | cs => (items? fuel cs).map fun (items, rest) => (.list items, rest)
    | '\x7b' :: cs =>
      match skipSpace cs with
      | '\x7d' :: cs => some (.object [], cs)
      | cs => (members? fuel cs).map fun (members, rest) => (ofMembers members, rest)
    | cs => number? cs

/-- Reads the items of a list, up to and with its closing bracket. -/
def items? : Nat → List Char → Option (List Json × List Char)
  | 0, _ => none
  | fuel + 1, cs =>
    match value? fuel cs with
    | none => none
    | some (j, cs) =>
      match skipSpace cs with
      | ',' :: cs => (items? fuel cs).map fun (js, rest) => (j :: js, rest)
      | ']' :: cs => some ([j], cs)
      | _ => none

/-- Reads the members of an object, up to and with its closing brace. -/
def members? : Nat → List Char → Option (List (Json × Json) × List Char)
  | 0, _ => none
  | fuel + 1, cs =>
    match skipSpace cs with
    | '"' :: cs =>
      match textUnits? cs with
      | none => none
      | some (us, cs) =>
        match skipSpace cs with
        | ':' :: cs =>
          match value? fuel cs with
          | none => none
          | some (j, cs) =>
            match skipSpace cs with
            | ',' :: cs =>
              (members? fuel cs).map fun (ms, rest) => ((ofUnits us, j) :: ms, rest)
            | '\x7d' :: cs => some ([(ofUnits us, j)], cs)
            | _ => none
        | _ => none
    | _ => none

end

/-- Reads a text that holds one value and white space. -/
def read? (s : String) : Option Json :=
  let cs := s.toList
  -- each step of the recursion takes a character, and every list or object two steps
  match value? (2 * cs.length + 2) cs with
  | some (j, rest) => if (skipSpace rest).isEmpty then some j else none
  | none => none

end Concordance.Json
