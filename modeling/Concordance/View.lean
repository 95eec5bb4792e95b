import Concordance.Search

/-!
# Result views

A `View` stands for the hits of a search and evaluates it only when they are asked for. It holds
the last evaluation with the watermark that its source showed then, and evaluates again when the
source shows another one. A failed evaluation leaves what is held as it was.

`count`, `at?`, `slice` and `keys` read a list of hits. The ends of a slice are cut to the list, so a
slice never reaches outside of it.
-/

namespace Concordance

/-- What a source of hits shows at some moment. -/
structure Source where
  /-- A number that changes whenever the hits may have changed. -/
  watermark : Nat
  /-- The hits, if the evaluation succeeds. -/
  fetch : Unit → Result (List Hit)

/-- A view over a source of hits, which `σ` tells apart. -/
inductive View (σ : Type) where
  /-- The view that never holds a hit. -/
  | empty
  /-- A view over a source, with the evaluation held and its watermark. -/
  | ofSource (source : σ) (held : Option (Nat × List Hit))

/-- What consuming a view gives. -/
structure View.Outcome (σ : Type) where
  answer : Result (List Hit)
  /-- The view afterwards. -/
  view : View σ
  /-- Whether the source was evaluated. -/
  fetched : Bool

namespace View

variable {σ : Type}

/-- Evaluates the source and holds the hits under its watermark. -/
def refetch (source : σ) (held : Option (Nat × List Hit)) (now : Source) : Outcome σ :=
  match now.fetch () with
  | .ok hits => ⟨.ok hits, .ofSource source (some (now.watermark, hits)), true⟩
  | .error e => ⟨.error e, .ofSource source held, true⟩

/-- The hits of the view, given what its source shows now. -/
def consume (now : σ → Source) : View σ → Outcome σ
  | empty => ⟨.ok [], .empty, false⟩
  | ofSource source held =>
    match held with
    | some (seen, hits) =>
      if seen = (now source).watermark then ⟨.ok hits, .ofSource source held, false⟩
      else refetch source held (now source)
    | none => refetch source held (now source)

/-- The same view without an evaluation. -/
def fresh : View σ → View σ
  | empty => .empty
  | ofSource source _ => .ofSource source none

/-- Whether an evaluation is held. -/
def isHeld : View σ → Bool
  | ofSource _ (some _) => true
  | _ => false

/-- Whether the view is the one that never holds a hit. -/
def isEmptyView : View σ → Bool
  | empty => true
  | _ => false

/-- The view in words, for diagnosis. -/
def describe (v : View σ) : String :=
  let flag (b : Bool) := if b then "true" else "false"
  "SearchResults \x7b empty: " ++ flag v.isEmptyView ++ ", cached: " ++ flag v.isHeld ++ " \x7d"

end View

/-! ## Reading hits -/

/-- The last position that there is: positions are unsigned integers of 64 bits. -/
def lastPosition : Nat := UInt64.size - 1

/-- The position behind another one; the last position, which has none behind it, stays. -/
def positionAfter (position : Nat) : Nat := min (position + 1) lastPosition

/-- One end of a range of positions. -/
inductive Bound where
  | unbounded
  | included (position : Nat)
  | excluded (position : Nat)

namespace Hits

/-- The first position of a range that starts at a bound. -/
def first : Bound → Nat
  | .unbounded => 0
  | .included p => p
  | .excluded p => positionAfter p

/-- The first position behind a range of a list of `count` hits that ends at a bound. -/
def stop (count : Nat) : Bound → Nat
  | .unbounded => count
  | .included p => positionAfter p
  | .excluded p => p

/-- The hits from a position up to another one, which lie in this order within the list. -/
def between (hits : List Hit) (a b : Nat) (_ : a ≤ b) (_ : b ≤ hits.length) : List Hit :=
  (hits.drop a).take (b - a)

/-- The hits at the positions between two bounds. -/
def slice (start finish : Bound) (hits : List Hit) : List Hit :=
  let count := hits.length
  let a := min (first start) count
  let b := min (stop count finish) count
  if h : a < b then between hits a b (Nat.le_of_lt h) (Nat.min_le_right _ _) else []

/-- The number of hits. -/
def count (hits : List Hit) : Nat := hits.length

/-- The record at a position. -/
def at? (position : Nat) (hits : List Hit) : Option Record := hits[position]?.map Hit.record

/-- The records, in order. -/
def records (hits : List Hit) : List Record :=
  (slice .unbounded .unbounded hits).map Hit.record

/-- The keys of the records, ascending and each once. -/
def keys (hits : List Hit) : List Key :=
  (KeySet.ofKeys (hits.map fun h => h.record.pk)).keys

end Hits

end Concordance
