import Concordance.Json.Printer

/-!
# Texts and keys in written TOML

A text is written in the first form that holds it as it is: between double quotes, between single
quotes, and for texts of several lines or with both kinds of quotes between three of either. If
none does, it is escaped between double quotes. A key is bare if its characters allow that.
-/

namespace Concordance.Toml

/-- The length of the longest run of a character. -/
def longestRun (q : Char) (cs : List Char) : Nat :=
  (cs.foldl (fun (best, run) c =>
    if c = q then (max best (run + 1), run + 1) else (best, 0)) (0, 0)).1

/-- Whether the character can stand in a text only escaped. -/
def mustEscape (c : Char) : Bool :=
  (c.toNat < 0x20 && c != '\t' && c != '\n') || c.toNat == 0x7F

/-- What decides the form of a text. -/
structure Traits where
  singles : Nat
  doubles : Nat
  hasControl : Bool
  hasBackslash : Bool
  hasNewline : Bool

/-- The traits of a text. -/
def Traits.of (cs : List Char) : Traits where
  singles := longestRun '\'' cs
  doubles := longestRun '"' cs
  hasControl := cs.any mustEscape
  hasBackslash := cs.any fun c => c == '\\'
  hasNewline := cs.any fun c => c == '\n'

/-- The escape of a character between double quotes; none if it may stand as it is. Line ends may
stand in a text of several lines. -/
def escape? (isLong : Bool) (c : Char) : Option (List Char) :=
  match c with
  | '\x08' => some ['\\', 'b']
  | '\x09' => some ['\\', 't']
  | '\x0a' => if isLong then none else some ['\\', 'n']
  | '\x0c' => some ['\\', 'f']
  | '\x0d' => some ['\\', 'r']
  | '\\' => some ['\\', '\\']
  | c =>
    if c.toNat < 0x20 || c.toNat == 0x7F then
      some ['\\', 'u', '0', '0', (Json.hexDigit (c.toNat / 16)).toUpper,
        (Json.hexDigit (c.toNat % 16)).toUpper]
    else none

/-- The characters of a text between double quotes. In a text of several lines two quotes in a row
stand as they are; `run` counts the quotes written so far. -/
def escaped (isLong : Bool) (run : Nat) : List Char → List Char
  | [] => []
  | '"' :: cs =>
    if (if isLong then 2 else 0) ≤ run then '\\' :: '"' :: escaped isLong 0 cs
    else '"' :: escaped isLong (run + 1) cs
  | c :: cs =>
    match escape? isLong c with
    | some xs => xs ++ escaped isLong 0 cs
    | none => c :: escaped isLong 0 cs

/-- A text of one line between double quotes. -/
def basicText (cs : List Char) : String := "\"" ++ String.ofList (escaped false 0 cs) ++ "\""

/-- A text between single quotes. -/
def literalText (cs : List Char) : String := "'" ++ String.ofList cs ++ "'"

/-- A line end behind the opening quotes of a text of several lines. -/
def opening (t : Traits) : String := if t.hasNewline then "\n" else ""

/-- A text between triple double quotes. -/
def longBasicText (t : Traits) (cs : List Char) : String :=
  "\"\"\"" ++ opening t ++ String.ofList (escaped true 0 cs) ++ "\"\"\""

/-- A text between triple single quotes. -/
def longLiteralText (t : Traits) (cs : List Char) : String :=
  "'''" ++ opening t ++ String.ofList cs ++ "'''"

/-- A text in the first form that suits it. -/
def writeText (s : String) : String :=
  let cs := s.toList
  let t := Traits.of cs
  if t.hasControl then
    if t.hasNewline then longBasicText t cs else basicText cs
  else if !t.hasBackslash && t.doubles == 0 && !t.hasNewline then basicText cs
  else if t.singles == 0 && !t.hasNewline then literalText cs
  else if !t.hasBackslash && t.doubles ≤ 2 then longBasicText t cs
  else if t.singles ≤ 2 then longLiteralText t cs
  else if t.hasNewline then longBasicText t cs
  else basicText cs

/-- Whether the character may stand in a key without quotes. -/
def isBareChar (c : Char) : Bool := c.isAlphanum || c == '_' || c == '-'

/-- A segment of a key in the first form that suits it. -/
def writeKey (s : String) : String :=
  let cs := s.toList
  let t := Traits.of cs
  let needsEscape := t.hasControl || t.hasNewline
  if !cs.isEmpty && cs.all isBareChar then s
  else if !needsEscape && !t.hasBackslash && t.doubles == 0 then basicText cs
  else if !needsEscape && t.singles == 0 then literalText cs
  else basicText cs

end Concordance.Toml
