import Concordance.Toml.Scalar
import Concordance.Toml.Table

/-!
# Reading TOML

`Toml.read?` reads a document into its table. Recursion is bounded by the number of characters,
and lists and inline tables nest less than `maxDepth` deep.
-/

namespace Concordance.Toml

/-- The nesting of values that is refused, and the length of a key that is. -/
def maxDepth : Nat := 80

/-! ## Keys -/

/-- Whether the character may stand in a key without quotes. -/
def isKeyChar (c : Char) : Bool := c.isAlphanum || c == '_' || c == '-'

/-- Reads one segment of a key. -/
def segment? (cs : List Char) : Option (String × List Char) :=
  match cs with
  | '"' :: cs => (basicText? cs).map fun (xs, rest) => (String.ofList xs, rest)
  | '\'' :: cs => (literalText? cs).map fun (xs, rest) => (String.ofList xs, rest)
  | cs =>
    let xs := cs.takeWhile isKeyChar
    if xs.isEmpty then none else some (String.ofList xs, cs.dropWhile isKeyChar)

/-- Reads the segments of a dotted key, blanks around each dropped. -/
def segments? : Nat → List Char → Option (List String × List Char)
  | 0, _ => none
  | fuel + 1, cs => do
    let (s, cs) ← segment? (skipSpace cs)
    match skipSpace cs with
    | '.' :: cs =>
      let (ss, rest) ← segments? fuel cs
      return (s :: ss, rest)
    | cs => return ([s], cs)

/-- Reads a dotted key, which has fewer than `maxDepth` segments. -/
def key? (cs : List Char) : Option (List String × List Char) := segments? (maxDepth - 1) cs

/-! ## Values -/

/-- Drops white space, ends of line and comments; none if a comment holds a control character or
the text ends in one. -/
def skipFiller (inComment : Bool) : List Char → Option (List Char)
  | [] => if inComment then none else some []
  | '\n' :: cs => skipFiller false cs
  | '\r' :: '\n' :: cs => skipFiller false cs
  | c :: cs =>
    if inComment then (if isTextChar c then skipFiller true cs else none)
    else if isSpace c then skipFiller false cs
    else if c = '#' then skipFiller true cs
    else some (c :: cs)

mutual

/-- Reads a value; `room` bounds the nesting. -/
def value? : Nat → Nat → List Char → Option (Toml × List Char)
  | 0, _, _ => none
  | fuel + 1, room, cs =>
    match cs with
    | 't' :: 'r' :: 'u' :: 'e' :: cs => some (.bool true, cs)
    | 'f' :: 'a' :: 'l' :: 's' :: 'e' :: cs => some (.bool false, cs)
    | '"' :: _ | '\'' :: _ =>
      (text? cs).map fun (xs, rest) => (.text (String.ofList xs), rest)
    | '[' :: cs =>
      match room with
      | 0 => none
      | room + 1 => (items? fuel room cs).map fun (items, rest) => (.list items, rest)
    | '\x7b' :: cs =>
      match room with
      | 0 => none
      | room + 1 =>
        match skipSpace cs with
        | '\x7d' :: rest => some (.table [], rest)
        | cs =>
          match pairs? fuel room cs with
          | none => none
          | some (pairs, rest) =>
            (fill pairs []).map fun ms => (.table (membersToToml ms), rest)
    | cs => numeric? cs

/-- Reads the items of a list, up to and with its closing bracket. -/
def items? : Nat → Nat → List Char → Option (List Toml × List Char)
  | 0, _, _ => none
  | fuel + 1, room, cs =>
    match skipFiller false cs with
    | none => none
    | some (']' :: rest) => some ([], rest)
    | some cs =>
      match value? fuel room cs with
      | none => none
      | some (v, cs) =>
        match skipFiller false cs with
        | some (',' :: cs) => (items? fuel room cs).map fun (vs, rest) => (v :: vs, rest)
        | some (']' :: rest) => some ([v], rest)
        | _ => none

/-- Reads the pairs of an inline table, up to and with its closing brace. -/
def pairs? : Nat → Nat → List Char → Option (List Pair × List Char)
  | 0, _, _ => none
  | fuel + 1, room, cs =>
    match key? cs with
    | some (key, '=' :: cs) =>
      match value? fuel room (skipSpace cs) with
      | none => none
      | some (v, cs) =>
        match skipSpace cs with
        | ',' :: cs => (pairs? fuel room cs).map fun (ps, rest) => (⟨key, v⟩ :: ps, rest)
        | '\x7d' :: rest => some ([⟨key, v⟩], rest)
        | _ => none
    | _ => none

end

/-! ## Documents -/

/-- Drops a comment up to the end of the line or of the text; the end stays. -/
def skipComment? (cs : List Char) : Option (List Char) :=
  match cs with
  | '#' :: cs => some (cs.dropWhile isTextChar)
  | cs => some cs

/-- Drops what may stand behind a pair or a header, with the end of the line. -/
def lineEnd? (cs : List Char) : Option (List Char) := do
  match ← skipComment? (skipSpace cs) with
  | [] => return []
  | cs => newline? cs

/-- Reads the pair at the head of the text, with the end of its line. -/
def pairLine? (cs : List Char) : Option (Pair × List Char) := do
  match ← key? cs with
  | (key, '=' :: cs) =>
    let (v, cs) ← value? (2 * cs.length + 2) (maxDepth - 1) (skipSpace cs)
    return (⟨key, v⟩, ← lineEnd? cs)
  | _ => none

/-- Reads the header behind its opening bracket, with the end of its line: its path, and whether
it extends a list. -/
def header? (cs : List Char) : Option (List String × Bool × List Char) := do
  match cs with
  | '[' :: cs =>
    match ← key? cs with
    | (path, ']' :: ']' :: cs) => return (path, true, ← lineEnd? cs)
    | _ => none
  | cs =>
    match ← key? cs with
    | (path, ']' :: cs) => return (path, false, ← lineEnd? cs)
    | _ => none

/-- Reads lines: the pairs before the next header, and the sections. -/
def lines? : Nat → List Char → Option (List Pair × List Section)
  | 0, _ => none
  | fuel + 1, cs =>
    match skipSpace cs with
    | [] => some ([], [])
    | '\n' :: cs => lines? fuel cs
    | '\r' :: '\n' :: cs => lines? fuel cs
    | '#' :: cs => do lines? fuel (← lineEnd? ('#' :: cs))
    | '[' :: cs => do
      let (path, isElement, cs) ← header? cs
      let (pairs, sections) ← lines? fuel cs
      return ([], ⟨path, isElement, pairs⟩ :: sections)
    | cs => do
      let (pair, cs) ← pairLine? cs
      let (pairs, sections) ← lines? fuel cs
      return (pair :: pairs, sections)

/-- Reads a document; a byte order mark may stand before it. -/
def read? (s : String) : Option (List (String × Toml)) := do
  let cs := match s.toList with
    | '\ufeff' :: cs => cs
    | cs => cs
  let (top, sections) ← lines? (cs.length + 1) cs
  return membersToToml (← assemble top sections)

end Concordance.Toml
