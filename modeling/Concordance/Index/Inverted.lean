import Concordance.Index.Entry

/-!
# The inverted index

An `InvertedIndex` keeps the entries of one family by primary key and, beside them, three tables
that are maintained as entries come and go:

* the *postings* of a term: for each field of each entry that holds the term, how often it occurs
  there and how long the field is;
* the *document frequency* of a term: in how many entries it occurs;
* the *lengths* of a field path: the sum of its lengths and the number of fields that have it.

The version counts changes.
-/

namespace Concordance

/-- The occurrence of a term in one field of an entry. -/
structure Posting where
  pk : Key
  /-- The position of the field in the entry. -/
  field : Nat
  /-- How often the term occurs in the field. -/
  frequency : UInt32
  /-- The number of tokens of the field. -/
  length : UInt32
  deriving DecidableEq

/-- The total length of the fields of a path, and their number. -/
structure PathLengths where
  total : Nat
  count : Nat
  deriving DecidableEq

/-- The entries of an index and the tables over them. -/
structure InvertedIndex where
  entries : SortedMap Key IndexEntry
  postings : SortedMap String (List Posting)
  documentFrequencies : SortedMap String Nat
  lengths : SortedMap String PathLengths
  /-- The number of changes so far. -/
  version : Nat

namespace InvertedIndex

/-- The index without entries. -/
def empty : InvertedIndex := ⟨∅, ∅, ∅, ∅, 0⟩

instance : Inhabited InvertedIndex := ⟨empty⟩

/-! ## Reading -/

/-- The entry of a record. -/
def entry? (ix : InvertedIndex) (pk : Key) : Option IndexEntry := ix.entries.get? pk

/-- Whether a record has an entry. -/
def contains (ix : InvertedIndex) (pk : Key) : Bool := ix.entries.contains pk

/-- The number of entries. -/
def size (ix : InvertedIndex) : Nat := ix.entries.size

/-- The postings of a term. -/
def postingsOf (ix : InvertedIndex) (term : String) : List Posting := ix.postings.getD term []

/-- The number of entries that hold a term. -/
def documentFrequency (ix : InvertedIndex) (term : String) : Nat :=
  ix.documentFrequencies.getD term 0

/-- A count as a single precision number. -/
def ofCount (n : Nat) : Float32 := n.toUInt64.toFloat32

/-- The weight of a term by its rarity: `ln ((n - df + 0.5) / (df + 0.5) + 1)` for `df` of `n`
entries. -/
def inverseFrequency (ix : InvertedIndex) (term : String) : Float32 :=
  let n := ofCount ix.size
  let df := ofCount (ix.documentFrequency term)
  ((n - df + 0.5) / (df + 0.5) + 1.0).log

/-- The average length of the fields of a path; zero if there are none. -/
def averageLength (ix : InvertedIndex) (path : String) : Float32 :=
  match ix.lengths.get? path with
  | some l => if 0 < l.count then ofCount l.total / ofCount l.count else 0.0
  | none => 0.0

/-! ## Adding an entry -/

/-- The postings that a field of an entry contributes, by term. -/
def postingsIn (pk : Key) (position : Nat) (f : FieldContent) : List (String × Posting) :=
  f.tokens.eraseDups.map fun term =>
    (term, ⟨pk, position, (f.tokens.count term).toUInt32, f.tokens.length.toUInt32⟩)

/-- Adds a posting at the end of its term's list. -/
def addPosting (table : SortedMap String (List Posting)) (p : String × Posting) :
    SortedMap String (List Posting) :=
  table.insert p.1 (table.getD p.1 [] ++ [p.2])

/-- Counts one more entry for a term. -/
def addFrequency (table : SortedMap String Nat) (term : String) : SortedMap String Nat :=
  table.insert term (table.getD term 0 + 1)

/-- Counts one more field of a path. -/
def addLength (table : SortedMap String PathLengths) (f : FieldContent) :
    SortedMap String PathLengths :=
  let l := table.getD f.path ⟨0, 0⟩
  table.insert f.path ⟨l.total + f.tokens.length, l.count + 1⟩

/-- The postings that an entry contributes, field by field. -/
def postingsOfEntry (e : IndexEntry) : List (String × Posting) :=
  e.fields.zipIdx.flatMap fun (f, position) => postingsIn e.pk position f

/-- Adds an entry for a record that has none. -/
def add (ix : InvertedIndex) (e : IndexEntry) : InvertedIndex :=
  { ix with
    entries := ix.entries.insert e.pk e
    postings := (postingsOfEntry e).foldl addPosting ix.postings
    documentFrequencies := e.terms.foldl addFrequency ix.documentFrequencies
    lengths := e.fields.foldl addLength ix.lengths }

/-! ## Removing an entry -/

/-- Drops the postings of a record from a term's list. -/
def dropPostings (pk : Key) (table : SortedMap String (List Posting)) (term : String) :
    SortedMap String (List Posting) :=
  table.alter term fun list? => list?.bind fun list =>
    let kept := list.filter fun p => p.pk != pk
    if kept.isEmpty then none else some kept

/-- Counts one entry less for a term; a term without entries leaves the table. -/
def dropFrequency (table : SortedMap String Nat) (term : String) : SortedMap String Nat :=
  table.alter term fun n? => n?.bind fun n => if n - 1 = 0 then none else some (n - 1)

/-- Counts one field of a path less; a path without fields leaves the table. -/
def dropLength (table : SortedMap String PathLengths) (f : FieldContent) :
    SortedMap String PathLengths :=
  table.alter f.path fun l? => l?.bind fun l =>
    if l.count - 1 = 0 then none else some ⟨l.total - f.tokens.length, l.count - 1⟩

/-- Drops the entry of a record from all tables. -/
def drop (ix : InvertedIndex) (e : IndexEntry) : InvertedIndex :=
  { ix with
    entries := ix.entries.erase e.pk
    postings := e.terms.foldl (dropPostings e.pk) ix.postings
    documentFrequencies := e.terms.foldl dropFrequency ix.documentFrequencies
    lengths := e.fields.foldl dropLength ix.lengths }

/-! ## Changes -/

/-- The index without the entry that a record may have; the version stays. -/
def without (ix : InvertedIndex) (pk : Key) : InvertedIndex :=
  match ix.entry? pk with
  | some old => ix.drop old
  | none => ix

/-- Puts an entry in the place of the one that its record may have. -/
def put (ix : InvertedIndex) (e : IndexEntry) : InvertedIndex :=
  { (ix.without e.pk).add e with version := ix.version + 1 }

/-- Removes the entry of a record; without one nothing changes. -/
def remove (ix : InvertedIndex) (pk : Key) : InvertedIndex :=
  match ix.entry? pk with
  | some old => { ix.drop old with version := ix.version + 1 }
  | none => ix

/-- Removes every entry. -/
def clear (ix : InvertedIndex) : InvertedIndex := { empty with version := ix.version + 1 }

end InvertedIndex

end Concordance
