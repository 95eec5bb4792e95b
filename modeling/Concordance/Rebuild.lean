import Concordance.Backend

/-!
# Rebuilding indexes

A rebuild drops all entries of a backend and indexes every stored record of every indexed family
anew, family by family in the order of declaration. Records are handed over in batches of a given
size, and each family is refreshed once.
-/

namespace Concordance

/-- What a rebuild did. -/
structure RebuildStats where
  /-- The class of the backend. -/
  backend : String
  /-- The roots of the families that were indexed. -/
  models : List String
  /-- The number of records handed over. -/
  records : Nat
  /-- The number of batches. -/
  chunks : Nat
  deriving DecidableEq

/-- Cuts a list into pieces of `size + 1` elements, the last one perhaps shorter. -/
def chunksOf {α : Type} (size : Nat) (xs : List α) : List (List α) :=
  match xs with
  | [] => []
  | x :: xs => (x :: xs.take size) :: chunksOf size (xs.drop size)
termination_by xs.length
decreasing_by exact Nat.lt_succ_of_le (by simp)

namespace Backend

/-- The roots of the indexed families, in order of declaration. -/
def indexedRoots (s : Schema) : List String :=
  (s.entries.filter fun e => e.model.parent.isNone && s.hasIndexedFamily e.model.name).map
    fun e => e.model.name

/-- Indexes the stored records of one family; returns the batches. -/
def rebuildFamily (st : Store) (size : Nat) (root : String) :
    Update Backend (List (List Record)) := do
  let root ← Update.ofResult (addModel st root)
  let chunks := chunksOf size (← Update.ofResult (st.records root))
  onIndex root do
    chunks.forM fun chunk => FamilyIndex.addItems st chunk
    publish
  return chunks

/-- Indexes all stored records anew, `chunkSize` at a time. -/
def rebuild (st : Store) (chunkSize : Nat) : Update Backend RebuildStats := do
  match chunkSize with
  | 0 => throw (.config .emptyBatch)
  | size + 1 =>
    modify resetAll
    let roots := indexedRoots st.schema
    let chunks := (← roots.mapM (rebuildFamily st size)).flatten
    return {
      backend := className
      models := roots
      records := chunks.flatten.length
      chunks := chunks.length }

end Backend

end Concordance
