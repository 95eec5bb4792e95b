import Concordance.Date
import Concordance.Json.Reader
import Concordance.Toml.Basic

/-!
# Scalars in TOML text

Texts in their four forms, dates and times, integers and floating point numbers. Every function
takes the characters that are left and returns what it read with the characters after it.
-/

namespace Concordance.Toml

/-- Whether the character may stand in texts and comments as it is: a tab, or no control
character. -/
def isTextChar (c : Char) : Bool := c == '\t' || (0x20 ≤ c.toNat && c.toNat != 0x7F)

/-- Whether the character is a blank within a line. -/
def isSpace (c : Char) : Bool := c == ' ' || c == '\t'

/-- Drops blanks. -/
def skipSpace (cs : List Char) : List Char := cs.dropWhile isSpace

/-- The rest after an end of line, if there is one. -/
def newline? : List Char → Option (List Char)
  | '\n' :: cs => some cs
  | '\r' :: '\n' :: cs => some cs
  | _ => none

/-! ## Texts -/

/-- The character that a backslash and this character stand for. -/
def shortEscape? : Char → Option Char
  | '"' => some '"'
  | '\\' => some '\\'
  | 'b' => some '\x08'
  | 'f' => some '\x0c'
  | 'n' => some '\n'
  | 'r' => some '\r'
  | 't' => some '\t'
  | _ => none

/-- The character with a code point. -/
def scalar? (n : Nat) : Option Char := if n.isValidChar then some (Char.ofNat n) else none

/-- Reads a text between double quotes, from behind the opening one. -/
def basicText? : List Char → Option (List Char × List Char)
  | [] => none
  | '"' :: cs => some ([], cs)
  | '\\' :: 'u' :: a :: b :: c :: d :: cs => do
    let x ← scalar? (← Json.ofHex? [a, b, c, d])
    let (xs, rest) ← basicText? cs
    return (x :: xs, rest)
  | '\\' :: 'U' :: a :: b :: c :: d :: e :: f :: g :: h :: cs => do
    let x ← scalar? (← Json.ofHex? [a, b, c, d, e, f, g, h])
    let (xs, rest) ← basicText? cs
    return (x :: xs, rest)
  | '\\' :: c :: cs => do
    let x ← shortEscape? c
    let (xs, rest) ← basicText? cs
    return (x :: xs, rest)
  | c :: cs =>
    if isTextChar c && c != '\\' then
      (basicText? cs).map fun (xs, rest) => (c :: xs, rest)
    else none

/-- Reads a text between single quotes, from behind the opening one. -/
def literalText? : List Char → Option (List Char × List Char)
  | [] => none
  | '\'' :: cs => some ([], cs)
  | c :: cs =>
    if isTextChar c then (literalText? cs).map fun (xs, rest) => (c :: xs, rest) else none

/-- Whether only blanks stand before the end of the line. -/
def endsLine (cs : List Char) : Bool := (newline? (skipSpace cs)).isSome

/-- Reads a text of several lines between triple double quotes, from behind the opening ones. A
backslash at the end of a line drops white space and line ends up to the next character
(`trimming`). One or two quotes may stand before the closing ones. -/
def longBasicText? (trimming : Bool) : List Char → Option (List Char × List Char)
  | [] => none
  | '"' :: '"' :: '"' :: '"' :: '"' :: cs => some (['"', '"'], cs)
  | '"' :: '"' :: '"' :: '"' :: cs => some (['"'], cs)
  | '"' :: '"' :: '"' :: cs => some ([], cs)
  | '\r' :: '\n' :: cs =>
    if trimming then longBasicText? true cs
    else (longBasicText? false cs).map fun (xs, rest) => ('\n' :: xs, rest)
  | '\\' :: 'u' :: a :: b :: c :: d :: cs => do
    let x ← scalar? (← Json.ofHex? [a, b, c, d])
    let (xs, rest) ← longBasicText? false cs
    return (x :: xs, rest)
  | '\\' :: 'U' :: a :: b :: c :: d :: e :: f :: g :: h :: cs => do
    let x ← scalar? (← Json.ofHex? [a, b, c, d, e, f, g, h])
    let (xs, rest) ← longBasicText? false cs
    return (x :: xs, rest)
  | '\\' :: c :: cs =>
    if endsLine (c :: cs) then longBasicText? true (c :: cs)
    else do
      let x ← shortEscape? c
      let (xs, rest) ← longBasicText? false cs
      return (x :: xs, rest)
  | c :: cs =>
    if trimming && (isSpace c || c == '\n') then longBasicText? true cs
    else if (isTextChar c || c == '\n') && c != '\\' then
      (longBasicText? false cs).map fun (xs, rest) => (c :: xs, rest)
    else none

/-- Reads a text of several lines between triple single quotes, from behind the opening ones. -/
def longLiteralText? : List Char → Option (List Char × List Char)
  | [] => none
  | '\'' :: '\'' :: '\'' :: '\'' :: '\'' :: cs => some (['\'', '\''], cs)
  | '\'' :: '\'' :: '\'' :: '\'' :: cs => some (['\''], cs)
  | '\'' :: '\'' :: '\'' :: cs => some ([], cs)
  | '\r' :: '\n' :: cs => (longLiteralText? cs).map fun (xs, rest) => ('\n' :: xs, rest)
  | c :: cs =>
    if isTextChar c || c == '\n' then
      (longLiteralText? cs).map fun (xs, rest) => (c :: xs, rest)
    else none

/-- Drops the end of line right behind the quotes that open a text of several lines. -/
def skipFirstNewline (cs : List Char) : List Char := (newline? cs).getD cs

/-- Reads a text in any form. -/
def text? : List Char → Option (List Char × List Char)
  | '"' :: '"' :: '"' :: cs => longBasicText? false (skipFirstNewline cs)
  | '"' :: cs => basicText? cs
  | '\'' :: '\'' :: '\'' :: cs => longLiteralText? (skipFirstNewline cs)
  | '\'' :: cs => literalText? cs
  | _ => none

/-! ## Dates and times -/

/-- Reads exactly `n` digits. -/
def digits? (n : Nat) (cs : List Char) : Option (Nat × List Char) :=
  let ds := cs.take n
  if ds.length = n ∧ ds.all Char.isDigit then some (Decimal.ofDigits 0 ds, cs.drop n) else none

/-- Reads exactly `n` digits that write a number between bounds. -/
def digitsWithin? (n low high : Nat) (cs : List Char) : Option (Nat × List Char) := do
  let (x, rest) ← digits? n cs
  if low ≤ x ∧ x ≤ high then some (x, rest) else none

/-- Reads one given character. -/
def char? (c : Char) : List Char → Option (List Char)
  | d :: cs => if d = c then some cs else none
  | [] => none

/-- Reads a date; returns its text. -/
def date? (cs : List Char) : Option (String × List Char) := do
  let (year, cs) ← digits? 4 cs
  let (month, cs) ← digitsWithin? 2 1 12 (← char? '-' cs)
  let (day, cs) ← digitsWithin? 2 1 (Date.daysIn year month) (← char? '-' cs)
  return (Date.padded 4 year ++ "-" ++ Date.padded 2 month ++ "-" ++ Date.padded 2 day, cs)

/-- The fraction of a second in nanoseconds, as the digits after a point; further digits are cut
off and zeros at the end are not written. -/
def fractionText (ds : List Char) : String :=
  let kept := ((ds.take 9).reverse.dropWhile fun c => c == '0').reverse
  if kept.isEmpty then "" else "." ++ String.ofList kept

/-- Reads a time of day; returns its text. -/
def time? (cs : List Char) : Option (String × List Char) := do
  let (hour, cs) ← digitsWithin? 2 0 23 cs
  let (minute, cs) ← digitsWithin? 2 0 59 (← char? ':' cs)
  let (second, cs) ← digitsWithin? 2 0 60 (← char? ':' cs)
  let clock := Date.padded 2 hour ++ ":" ++ Date.padded 2 minute ++ ":" ++ Date.padded 2 second
  match cs with
  | '.' :: rest =>
    let (ds, after) := Decimal.takeDigits rest
    if ds.isEmpty then some (clock, cs) else some (clock ++ fractionText ds, after)
  | _ => some (clock, cs)

/-- Reads the offset from universal time; returns its text. -/
def offset? (cs : List Char) : Option (String × List Char) :=
  let numeric (sign : String) (cs : List Char) : Option (String × List Char) := do
    let (hour, cs) ← digitsWithin? 2 0 23 cs
    let (minute, cs) ← digitsWithin? 2 0 59 (← char? ':' cs)
    let sign := if hour = 0 ∧ minute = 0 then "+" else sign
    return (sign ++ Date.padded 2 hour ++ ":" ++ Date.padded 2 minute, cs)
  match cs with
  | 'Z' :: cs | 'z' :: cs => some ("Z", cs)
  | '+' :: cs => numeric "+" cs
  | '-' :: cs => numeric "-" cs
  | _ => none

/-- Reads the time that follows a date, with its offset, if it does follow. -/
def timeAfterDate? (date : String) (cs : List Char) : String × List Char :=
  match cs with
  | c :: rest =>
    if c = 'T' ∨ c = 't' ∨ c = ' ' then
      match time? rest with
      | some (time, rest) =>
        match offset? rest with
        | some (offset, rest) => (date ++ "T" ++ time ++ offset, rest)
        | none => (date ++ "T" ++ time, rest)
      | none => (date, cs)
    else (date, cs)
  | [] => (date, cs)

/-- Reads a date, a time, or both. -/
def moment? (cs : List Char) : Option (Toml × List Char) :=
  match date? cs with
  | some (date, rest) =>
    let (both, rest) := timeAfterDate? date rest
    some (.moment both, rest)
  | none => (time? cs).map fun (time, rest) => (.moment time, rest)

/-! ## Numbers -/

/-- Reads digits of a base, single underscores between them; returns the digits alone. -/
def spacedDigits (isDigit : Char → Bool) : List Char → List Char × List Char
  | [] => ([], [])
  | '_' :: d :: cs =>
    if isDigit d then
      let (ds, rest) := spacedDigits isDigit cs
      (d :: ds, rest)
    else ([], '_' :: d :: cs)
  | d :: cs =>
    if isDigit d then
      let (ds, rest) := spacedDigits isDigit cs
      (d :: ds, rest)
    else ([], d :: cs)

/-- Reads at least one digit of a base, single underscores between digits. -/
def spacedDigits? (isDigit : Char → Bool) : List Char → Option (List Char × List Char)
  | [] => none
  | d :: cs =>
    if isDigit d then
      let (ds, rest) := spacedDigits isDigit cs
      some (d :: ds, rest)
    else none

/-- Reads the digits of a whole number; one that starts with zero ends there. -/
def wholeDigits? : List Char → Option (List Char × List Char)
  | '0' :: cs => some (['0'], cs)
  | cs => spacedDigits? Char.isDigit cs

/-- The integer, if 64 bits hold it. -/
def int? (n : Int) : Option Toml := (signed64? n).map .int

/-- The number that digits of a base write. -/
def ofBase? (base : Nat) (ds : List Char) : Option Nat :=
  ds.foldlM (fun n c => (Json.hexValue? c).map fun d => base * n + d) 0

/-- Reads an integer in a base other than ten, from behind its mark. -/
def baseInt? (base : Nat) (cs : List Char) : Option (Toml × List Char) := do
  let (ds, rest) ← spacedDigits? (fun c => (Json.hexValue? c).any (· < base)) cs
  return (← int? (← ofBase? base ds), rest)

/-- Reads the exponent of a number. -/
def exponentPart? : List Char → Option (Int × List Char)
  | c :: cs =>
    if c = 'e' ∨ c = 'E' then do
      let (negative, cs) := Decimal.takeSign cs
      let (ds, rest) ← spacedDigits? Char.isDigit cs
      let n : Int := Decimal.ofDigits 0 ds
      return (if negative then -n else n, rest)
    else none
  | [] => none

/-- Reads the digits after a point. -/
def placesPart? : List Char → Option (List Char × List Char)
  | '.' :: cs => spacedDigits? Char.isDigit cs
  | _ => none

/-- The number of a decimal numeral; positive numbers out of range are refused. -/
def float? (x : Decimal.Numeral) : Option Toml :=
  let y := x.toFloat
  if y.isInf && !x.negative then none else some (.float y)

/-- Reads a number in decimal digits: a floating point number if a point or an exponent follows
the whole digits, and else an integer. -/
def decimal? (cs : List Char) : Option (Toml × List Char) := do
  let (negative, cs) := Decimal.takeSign cs
  let (whole, cs) ← wholeDigits? cs
  match exponentPart? cs with
  | some (e, rest) => return (← float? ⟨negative, Decimal.ofDigits 0 whole, e⟩, rest)
  | none =>
    match placesPart? cs with
    | some (places, cs) =>
      let (e, rest) := (exponentPart? cs).getD (0, cs)
      return (← float? ⟨negative, Decimal.ofDigits 0 (whole ++ places), e - places.length⟩, rest)
    | none =>
      let n : Int := Decimal.ofDigits 0 whole
      return (← int? (if negative then -n else n), cs)

/-- Reads one of the numbers that have names. -/
def named? (cs : List Char) : Option (Toml × List Char) :=
  let (negative, cs) := Decimal.takeSign cs
  match cs with
  | 'i' :: 'n' :: 'f' :: cs => some (.float (if negative then -1.0 / 0.0 else 1.0 / 0.0), cs)
  | 'n' :: 'a' :: 'n' :: cs => some (.float (0.0 / 0.0), cs)
  | _ => none

/-- Reads a date or time, or a number. -/
def numeric? (cs : List Char) : Option (Toml × List Char) :=
  match moment? cs with
  | some found => some found
  | none =>
    match named? cs with
    | some found => some found
    | none =>
      match cs with
      | '0' :: 'x' :: cs => baseInt? 16 cs
      | '0' :: 'o' :: cs => baseInt? 8 cs
      | '0' :: 'b' :: cs => baseInt? 2 cs
      | cs => decimal? cs

end Concordance.Toml
