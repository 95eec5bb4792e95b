import Concordance.Error

/-!
# Queries

A `Query` is an expression over terms: conjunction, disjunction, negation, free text, and boosts
that multiply the weight of every term below them. `∩` and `∪` of queries are `Query.meet` and
`Query.join`, which flatten: a conjunction met with a query is one longer conjunction.
-/

namespace Concordance

/-- How the words of free text combine. -/
inductive Operator where
  | and
  | or
  deriving DecidableEq

namespace Operator

/-- The operator used when none is named. -/
def default : Operator := .or

/-- The operator's name. -/
def text : Operator → String
  | and => "and"
  | or => "or"

/-- Reads an operator's name, in any ASCII case. -/
def read (s : String) : Result Operator :=
  match s.toLower with
  | "and" => .ok .and
  | "or" => .ok .or
  | _ => .error (.invalidValue (.operator s))

end Operator

/-- A query expression. -/
inductive Query where
  /-- Matches every record. -/
  | matchAll
  /-- Matches one term, with a factor on its score. -/
  | term (term : String) (boost : Float32)
  /-- Matches words that white space separates, with a factor on the score of each. -/
  | plainText (text : String) (operator : Operator) (boost : Float32)
  /-- All children match; without children, every record does. -/
  | and (children : List Query)
  /-- Some child matches; without children, no record does. -/
  | or (children : List Query)
  /-- The child does not match. -/
  | not (child : Query)
  /-- Multiplies the boost of every term below. -/
  | boost (child : Query) (factor : Float32)

namespace Query

/-- Free text with the boost one. -/
def words (text : String) (operator : Operator) : Query := .plainText text operator 1.0

/-- The conjuncts of a query; one that is no conjunction is its own. -/
def conjuncts : Query → List Query
  | and children => children
  | q => [q]

/-- The disjuncts of a query; one that is no disjunction is its own. -/
def disjuncts : Query → List Query
  | or children => children
  | q => [q]

/-- Both match, as one flat conjunction. -/
def meet (p q : Query) : Query := .and (p.conjuncts ++ q.conjuncts)

/-- Either matches, as one flat disjunction. -/
def join (p q : Query) : Query := .or (p.disjuncts ++ q.disjuncts)

/-- Also requires `required`, without an effect on the score. -/
def including (q required : Query) : Query := .and [q, .boost required 0.0]

/-- Also rejects `rejected`, without an effect on the score. -/
def excluding (q rejected : Query) : Query := .and [q, .boost (.not rejected) 0.0]

/-- Requires `required` and rejects `rejected`, each if given. -/
def filter (q : Query) (required rejected : Option Query) : Query :=
  let q := match required with
    | some p => q.including p
    | none => q
  match rejected with
  | some p => q.excluding p
  | none => q

/-- The direct children. -/
def children : Query → List Query
  | and children | or children => children
  | not child | boost child _ => [child]
  | matchAll | term _ _ | plainText _ _ _ => []

end Query

end Concordance
