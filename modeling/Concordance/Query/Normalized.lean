import Concordance.Query.Basic

/-!
# Normalized queries

Normalization pushes every boost down to the terms and turns free text into the conjunction or
disjunction of its words. What is left, a `NormalQuery`, is what an index is searched for: terms
with one boost each, combined by conjunction, disjunction and negation.
-/

namespace Concordance

/-- A query without boost nodes and free text. -/
inductive NormalQuery where
  | matchAll
  | matchNone
  | term (term : String) (boost : Float32)
  | and (children : List NormalQuery)
  | or (children : List NormalQuery)
  | not (child : NormalQuery)

/-- The words of a text under an operator, each with a boost. -/
def NormalQuery.ofWords (operator : Operator) (words : List String) (boost : Float32) :
    NormalQuery :=
  match words, operator with
  | [], _ => .matchNone
  | ws, .and => .and (ws.map fun w => .term w boost)
  | ws, .or => .or (ws.map fun w => .term w boost)

mutual

/-- Normalizes a query below boosts whose product is `factor`. -/
def Query.normalizeBelow (factor : Float32) : Query → NormalQuery
  | .matchAll => .matchAll
  | .term t b => .term t (b * factor)
  | .plainText text operator b => .ofWords operator (Text.words text) (b * factor)
  | .and children => .and (normalizeAll factor children)
  | .or children => .or (normalizeAll factor children)
  | .not child => .not (child.normalizeBelow factor)
  | .boost child f => child.normalizeBelow (factor * f)

/-- Normalizes each query of a list. -/
def normalizeAll (factor : Float32) : List Query → List NormalQuery
  | [] => []
  | q :: qs => q.normalizeBelow factor :: normalizeAll factor qs

end

/-- Pushes all boosts to the terms and takes free text apart. -/
def Query.normalize (q : Query) : NormalQuery := q.normalizeBelow 1.0

mutual

/-- The terms of a query with their boosts, from left to right. -/
def NormalQuery.terms : NormalQuery → List (String × Float32)
  | .matchAll | .matchNone => []
  | .term t b => [(t, b)]
  | .and children | .or children => termsOfAll children
  | .not child => child.terms

/-- The terms of each query of a list. -/
def termsOfAll : List NormalQuery → List (String × Float32)
  | [] => []
  | q :: qs => q.terms ++ termsOfAll qs

end

/-- Whether a boost is a number that is not negative. -/
def isBoost (x : Float32) : Bool := x.isFinite && 0.0 ≤ x

/-- Checks every boost; the first that is negative or not finite is reported. -/
def NormalQuery.checkBoosts (q : NormalQuery) : Result Unit :=
  match q.terms.find? fun t => !isBoost t.2 with
  | some (t, b) => .error (.invalidValue (.boost t b))
  | none => .ok ()

end Concordance
