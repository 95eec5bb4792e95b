import Concordance.Toml.Basic

/-!
# Assembling TOML tables

The keys and headers of a document say where values and tables stand. A table arises in one of
three ways: by its header, implicitly as part of the path of a header, or implicitly as part of a
dotted key. Only an implicit table of the second kind may still get its header; a dotted key may
go through implicit tables alone, and must end in one that dotted keys made; no value is set
twice.
-/

namespace Concordance.Toml

/-- What stands under a key while a document is read. -/
inductive Node where
  | value (v : Toml)
  /-- A table; `isImplicit` without a header of its own, `isDotted` made by a dotted key. -/
  | table (isImplicit isDotted : Bool) (members : List (String × Node))
  /-- The tables of a list that headers in double brackets extend. -/
  | tables (elements : List (List (String × Node)))

/-- The keys of a table with what stands under them. -/
abbrev Members := List (String × Node)

namespace Members

/-- What stands under a key. -/
def find? (key : String) (ms : Members) : Option Node :=
  (List.find? (fun m => m.1 == key) ms).map Prod.snd

/-- Writes under a key, in its place or at the end. -/
def set (key : String) (n : Node) (ms : Members) : Members :=
  if ms.any fun m => m.1 == key then ms.map fun m => if m.1 == key then (key, n) else m
  else ms ++ [(key, n)]

/-- Applies a change to the last table of a list. -/
def changeLast (change : Members → Option Members) (elements : List Members) :
    Option (List Members) :=
  match elements.reverse with
  | [] => none
  | last :: before => (change last).map fun last => (last :: before).reverse

/-- Sets the value of a dotted key. `atTop` tells the table that the key starts from, `isDotted`
whether dotted keys made the present table. -/
def setPath (atTop isDotted : Bool) : List String → Toml → Members → Option Members
  | [], _, _ => none
  | [key], v, ms =>
    if isDotted == atTop || (ms.find? key).isSome then none else some (ms.set key (.value v))
  | key :: rest, v, ms =>
    match ms.find? key with
    | none => (setPath false true rest v []).map fun sub => ms.set key (.table true true sub)
    | some (.value _) => none
    | some (.tables elements) =>
      (changeLast (setPath false false rest v) elements).map fun es => ms.set key (.tables es)
    | some (.table isImplicit dotted sub) =>
      if isImplicit then
        (setPath false dotted rest v sub).map fun sub => ms.set key (.table isImplicit dotted sub)
      else none

/-- Changes what stands at the path of a header; tables on the way are made if they are
missing. -/
def changeAt (change : Option Node → Option Node) : List String → Members → Option Members
  | [], _ => none
  | [key], ms => (change (ms.find? key)).map fun n => ms.set key n
  | key :: rest, ms =>
    match ms.find? key with
    | none => (changeAt change rest []).map fun sub => ms.set key (.table true false sub)
    | some (.value _) => none
    | some (.tables elements) =>
      (changeLast (changeAt change rest) elements).map fun es => ms.set key (.tables es)
    | some (.table isImplicit isDotted sub) =>
      (changeAt change rest sub).map fun sub => ms.set key (.table isImplicit isDotted sub)

end Members

/-- A dotted key with its value. -/
structure Pair where
  key : List String
  value : Toml

/-- Adds the pairs below a header to a table. -/
def fill (pairs : List Pair) (ms : Members) : Option Members :=
  pairs.foldlM (fun ms p => ms.setPath true false p.key p.value) ms

/-- The table of a header with its pairs: new, or one that was implicit. -/
def openTable (pairs : List Pair) : Option Node → Option Node
  | none => (fill pairs []).map (.table false false)
  | some (.table true false ms) => (fill pairs ms).map (.table false false)
  | some _ => none

/-- The list that a header in double brackets extends by a table of its pairs. -/
def openElement (pairs : List Pair) : Option Node → Option Node
  | none => (fill pairs []).map fun ms => .tables [ms]
  | some (.tables elements) => (fill pairs []).map fun ms => .tables (elements ++ [ms])
  | some _ => none

/-- A header with the pairs below it. -/
structure Section where
  path : List String
  /-- Whether the header extends a list. -/
  isElement : Bool
  pairs : List Pair

/-- The members that a document assembles, from the pairs before the first header and the
sections. -/
def assemble (top : List Pair) (sections : List Section) : Option Members := do
  let root ← fill top []
  sections.foldlM (fun ms s =>
    ms.changeAt (if s.isElement then openElement s.pairs else openTable s.pairs) s.path) root

mutual

/-- The value that a node stands for. -/
def Node.toToml : Node → Toml
  | .value v => v
  | .table _ _ ms => .table (membersToToml ms)
  | .tables elements => .list (elementsToToml elements)

/-- The members of a table. -/
def membersToToml : List (String × Node) → List (String × Toml)
  | [] => []
  | (k, n) :: ms => (k, n.toToml) :: membersToToml ms

/-- The tables of a list. -/
def elementsToToml : List (List (String × Node)) → List Toml
  | [] => []
  | ms :: es => .table (membersToToml ms) :: elementsToToml es

end

end Concordance.Toml
