import Concordance.Config
import Concordance.View

/-!
# The search backend

A `Backend` keeps one index for each family and a scorer. Writes to the index of a family are
buffered by primary key, the last write for a key replacing earlier ones, until `refresh` applies
them in key order; `reset` drops entries and buffered writes alike.

The operations that take a model find the index of its family. A family in which no type has a
searchable field has no index, and writes to it do nothing.

Operations are `Update`s: each changes a state and can fail, and what it changed before it failed
stays changed.
-/

namespace Concordance

/-! ## Operations that change a state -/

/-- An operation on a state. -/
abbrev Update (σ α : Type) : Type := ExceptT Error (StateM σ) α

namespace Update

variable {σ τ α : Type}

/-- Runs the operation: its outcome, and the state after it. -/
def perform (x : Update σ α) (s : σ) : Result α × σ := x.run s

/-- An outcome that leaves the state alone. -/
def ofResult (r : Result α) : Update σ α := ExceptT.mk (pure r)

/-- Runs an operation on the part that `get` reads and `set` writes. -/
def within (get : σ → τ) (set : τ → σ → σ) (x : Update τ α) : Update σ α :=
  ExceptT.mk fun s =>
    let (r, t) := x.perform (get s)
    (r, set t s)

end Update

/-! ## The index of a family -/

/-- A buffered write. -/
inductive PendingWrite where
  | put (entry : IndexEntry)
  | delete

/-- The index of one family with its buffered writes. -/
structure FamilyIndex where
  /-- The root of the family. -/
  root : String
  index : InvertedIndex
  pending : SortedMap Key PendingWrite

namespace FamilyIndex

/-- The index without entries and buffered writes. -/
def empty (root : String) : FamilyIndex := ⟨root, .empty, ∅⟩

/-- The number of entries that searches see. -/
def size (f : FamilyIndex) : Nat := f.index.size

/-- Checks that a record belongs to the family. -/
def checkFamily (s : Schema) (root : String) (r : Record) : Result Unit :=
  if s.isSubtype r.model root then .ok () else .error (.invalidValue (.family r.model root))

/-- Buffers a write. -/
def buffer (f : FamilyIndex) (pk : Key) (w : PendingWrite) : FamilyIndex :=
  { f with pending := f.pending.insert pk w }

/-- Buffers the entry of a record; a record of a type without searchable fields is ignored. -/
def addItem (st : Store) (r : Record) (f : FamilyIndex) : Result FamilyIndex := do
  checkFamily st.schema f.root r
  match ← buildEntry st r with
  | some entry => return f.buffer r.pk (.put entry)
  | none => return f

/-- Buffers the removal of a record's entry. -/
def deleteItem (st : Store) (r : Record) (f : FamilyIndex) : Result FamilyIndex := do
  checkFamily st.schema f.root r
  return f.buffer r.pk .delete

/-- Applies one write to the entries. -/
def applyWrite (ix : InvertedIndex) (pk : Key) : PendingWrite → InvertedIndex
  | .put entry => ix.put entry
  | .delete => ix.remove pk

/-- Applies the buffered writes, by ascending key. -/
def refresh (f : FamilyIndex) : FamilyIndex :=
  { f with
    index := f.pending.toList.foldl (fun ix w => applyWrite ix w.1 w.2) f.index
    pending := ∅ }

/-- Drops entries and buffered writes. -/
def reset (f : FamilyIndex) : FamilyIndex := { f with index := f.index.clear, pending := ∅ }

/-- Changes the index, or fails and leaves it alone. -/
def change (step : FamilyIndex → Result FamilyIndex) : Update FamilyIndex Unit :=
  ExceptT.mk fun f =>
    match step f with
    | .ok f' => (.ok (), f')
    | .error e => (.error e, f)

/-- Buffers the entries of records up to the first that fails. -/
def addItems (st : Store) (rs : List Record) : Update FamilyIndex Unit :=
  rs.forM fun r => change (addItem st r)

end FamilyIndex

/-- A search backend: a scorer and the indexes of the families, by root. -/
structure Backend where
  scorer : Scorer
  indexes : SortedMap String FamilyIndex

/-- What is told of the index of a family. -/
structure IndexInfo where
  root : String
  size : Nat
  deriving DecidableEq

namespace Backend

/-- The path of the class of this backend. -/
def className : String := "sift_search::database::DatabaseSearchBackend"

/-- A backend without entries. -/
def ofScorer (scorer : Scorer) : Backend := ⟨scorer, ∅⟩

/-- A backend with the usual scorer. -/
def standard : Backend := ofScorer .standard

/-! ## Options -/

/-- Reads an option that is a number, as a single precision one. -/
def numberOption (options : Options) (name : String) : Result (Option Float32) :=
  match options.get? name with
  | none => .ok none
  | some j =>
    match j.asFloat with
    | some x => .ok (some x.toFloat32)
    | none => .error (.config (.notANumber name j.render))

/-- A backend with the saturation `k1` and the length weight `b` that options set. -/
def ofOptions (options : Options) : Result Backend := do
  let k1 := (← numberOption options "k1").getD Scorer.defaultSaturation
  let b := (← numberOption options "b").getD Scorer.defaultLengthWeight
  if !(k1.isFinite && 0.0 ≤ k1) then throw (.config (.saturation k1))
  if !(0.0 ≤ b && b ≤ 1.0) then throw (.config (.lengthWeight b))
  return ofScorer (.bm25 k1 b)

/-! ## Indexes -/

/-- The index of the family with a root. -/
def index (b : Backend) (root : String) : FamilyIndex := b.indexes.getD root (.empty root)

/-- Replaces the index of the family with a root. -/
def setIndex (b : Backend) (root : String) (f : FamilyIndex) : Backend :=
  { b with indexes := b.indexes.insert root f }

/-- Creates the index of the family with a root, unless it exists. -/
def openIndex (root : String) (b : Backend) : Backend := b.setIndex root (b.index root)

/-- Runs an operation on the index of the family with a root. -/
def onIndex {α : Type} (root : String) (x : Update FamilyIndex α) : Update Backend α :=
  .within (fun b => b.index root) (fun f b => b.setIndex root f) x

/-- The root of the family of a model, if something in the family is indexed. -/
def indexedRoot (s : Schema) (model : String) : Result (Option String) := do
  let root ← s.rootOf model
  return if s.hasIndexedFamily root then some root else none

/-- Runs an operation on the index responsible for a model, if there is one. -/
def onFamily {α : Type} (st : Store) (model : String) (x : Update FamilyIndex α) :
    Update Backend (Option α) := do
  match ← Update.ofResult (indexedRoot st.schema model) with
  | some root => some <$> onIndex root x
  | none => return none

/-- What is told of the index in its present state. -/
def info : Update FamilyIndex IndexInfo := do
  let f ← get
  return ⟨f.root, f.size⟩

/-- The root of the family of a model whose family must be indexed. -/
def addModel (st : Store) (model : String) : Result String := do
  match ← indexedRoot st.schema model with
  | some root => return root
  | none => throw (.notIndexed model)

/-! ## Writes -/

/-- Makes the buffered writes of one index visible to searches. -/
def publish : Update FamilyIndex Unit := modify FamilyIndex.refresh

/-- Indexes a record and refreshes. -/
def add (st : Store) (r : Record) : Update Backend Unit := do
  let _ ← onFamily st r.model do
    FamilyIndex.change (FamilyIndex.addItem st r)
    publish

/-- Indexes records through the index of a model and refreshes. -/
def addBulk (st : Store) (model : String) (rs : List Record) : Update Backend Unit := do
  let _ ← onFamily st model do
    FamilyIndex.addItems st rs
    publish

/-- Removes the entry of a record and refreshes. -/
def delete (st : Store) (r : Record) : Update Backend Unit := do
  let _ ← onFamily st r.model do
    FamilyIndex.change (FamilyIndex.deleteItem st r)
    publish

/-- Drops the entries and buffered writes of every family. -/
def resetAll (b : Backend) : Backend := { b with indexes := b.indexes.map FamilyIndex.reset }

/-- Makes the buffered writes of every family visible to searches. -/
def refreshAll (b : Backend) : Backend := { b with indexes := b.indexes.map FamilyIndex.refresh }

/-! ## Results -/

/-- What a compiled search shows as a source of hits; the watermark is a number of 64 bits. -/
def source (b : Backend) (st : Store) (root : String) (c : CompiledSearch) : Source where
  watermark := ((b.index root).index.version + st.version) % UInt64.size
  fetch _ := c.hits st (b.index root).index b.scorer

end Backend

end Concordance
