/-!
# Scorers

A `Scorer` weighs one term in one field of a record. Boosts are not its business: they multiply
what it returns. All numbers are single precision and every formula is evaluated as written.
-/

namespace Concordance

/-- What a scorer knows of a term in a field. -/
structure TermStats where
  /-- How often the term occurs in the field. -/
  frequency : UInt32
  /-- The number of tokens of the field. -/
  length : UInt32
  /-- The average length of the fields of this path. -/
  averageLength : Float32
  /-- The weight of the term by its rarity. -/
  inverseFrequency : Float32

/-- A way to weigh terms. -/
structure Scorer where
  name : String
  score : TermStats → Float32

namespace Scorer

/-- The usual saturation parameter. -/
def defaultSaturation : Float32 := 1.2

/-- The usual weight of field length. -/
def defaultLengthWeight : Float32 := 0.75

/-- The larger of a number and one; one for a NaN. -/
def atLeastOne (x : Float32) : Float32 := if 1.0 < x then x else 1.0

/-- Okapi BM25: the frequency saturates with `k1`, and fields longer than the average count less
by the weight `b`. -/
def bm25 (k1 b : Float32) : Scorer where
  name := "bm25"
  score stats :=
    if stats.frequency = 0 then 0.0
    else
      let tf := stats.frequency.toFloat32
      let average := atLeastOne stats.averageLength
      let saturated := (tf * (k1 + 1.0)) /
        (tf + k1 * (1.0 - b + b * stats.length.toFloat32 / average))
      stats.inverseFrequency * saturated

/-- BM25 with the usual parameters. -/
def standard : Scorer := bm25 defaultSaturation defaultLengthWeight

end Scorer

end Concordance
