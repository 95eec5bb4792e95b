import Concordance.Matching
import Concordance.Proofs.SortedMap

/-!
# Queries are answered record by record

The answer to a query is a map from keys to scores, and the matcher computes with whole maps. Read
at one key, though, it is `scoreAt`: it depends only on whether the key is in the scope and on the
scores that the tokens give this key (`get?_evaluate`). What other keys are in the scope, and what
they score, does not matter; the early end of a conjunction is no exception, since a map without
entries has nothing to lose.

* `get?_token`: the score that a token gives a key sums over the postings of that key, in their
  order.
* `get?_evaluate_congr`: the score of a key is the same whatever else is in the scope.
-/

namespace Concordance

namespace ScoreMap

/-- The score of one key in an intersection. -/
def meetAt (x y : Option Float32) : Option Float32 := x.bind fun a => y.map fun b => a + b

/-- The score of one key with one more summand. -/
def addAt (x : Option Float32) (b : Float32) : Option Float32 := some (x.getD 0.0 + b)

/-- The score of one key in a union. -/
def joinAt (x : Option Float32) : Option Float32 → Option Float32
  | none => x
  | some b => addAt x b

theorem get?_meet (a b : ScoreMap) (pk : Key) :
    (a.meet b).get? pk = meetAt (a.get? pk) (b.get? pk) :=
  SortedMap.get?_filterMap _ a pk

theorem get?_foldl_meet (f : String → ScoreMap) (ts : List String) (a : ScoreMap) (pk : Key) :
    SortedMap.get? (ts.foldl (fun a t => meet a (f t)) a) pk =
      ts.foldl (fun x t => meetAt x ((f t).get? pk)) (a.get? pk) := by
  induction ts generalizing a with
  | nil => rfl
  | cons t ts ih => rw [List.foldl_cons, List.foldl_cons, ih, get?_meet]

/-- Summands given to keys one after the other are played on each key alone. -/
theorem get?_foldl_add (summands : List (Key × Float32)) (a : ScoreMap) (pk : Key) :
    (summands.foldl (fun m e => add m e.1 e.2) a).get? pk =
      ((summands.filter fun e => e.1 == pk).map Prod.snd).foldl addAt (a.get? pk) := by
  rw [List.foldl_map]
  exact SortedMap.get?_foldl_alter Prod.fst (fun e cell => addAt cell e.2) summands a pk

theorem get?_join (a b : ScoreMap) (pk : Key) :
    (a.join b).get? pk = joinAt (a.get? pk) (b.get? pk) := by
  unfold join
  rw [get?_foldl_add, SortedMap.filter_toList]
  cases b.get? pk <;> rfl

end ScoreMap

namespace Matcher

open ScoreMap

/-! ## Tokens -/

/-- The summand of a posting, if its record is in the scope and its field allowed. -/
def summand? (m : Matcher) (boost : Float32) (t : String) (p : Posting) : Option Float32 :=
  (m.field? p).map (m.postingScore boost (m.index.inverseFrequency t) p)

/-- **The score that a token gives a key sums over the postings of the key, in their order.** -/
theorem get?_token (m : Matcher) (boost : Float32) (t : String) (pk : Key) :
    (m.token boost t).get? pk =
      (((m.index.postingsOf t).filter fun p => p.pk == pk).filterMap
        (m.summand? boost t)).foldl addAt none := by
  have hsummands : m.token boost t =
      ((m.index.postingsOf t).filterMap fun p =>
        (m.summand? boost t p).map fun x => (p.pk, x)).foldl
          (fun scores e => ScoreMap.add scores e.1 e.2) ∅ := by
    rw [List.foldl_filterMap]
    refine List.foldl_ext _ _ _ fun scores p _ => ?_
    unfold summand?
    cases m.field? p <;> rfl
  rw [hsummands, get?_foldl_add]
  congr 1
  induction m.index.postingsOf t with
  | nil => rfl
  | cons p ps ih =>
    by_cases hp : p.pk = pk
    · rw [List.filter_cons_of_pos (by simpa using hp)]
      cases hs : m.summand? boost t p with
      | none =>
        rw [List.filterMap_cons_none (by simp [hs]), List.filterMap_cons_none hs, ih]
      | some x =>
        rw [List.filterMap_cons_some (b := (p.pk, x)) (by simp [hs]),
          List.filterMap_cons_some hs, List.filter_cons_of_pos (by simpa using hp),
          List.map_cons, ih]
    · rw [List.filter_cons_of_neg (by simpa using hp), ← ih]
      cases hs : m.summand? boost t p with
      | none => rw [List.filterMap_cons_none (by simp [hs])]
      | some x =>
        rw [List.filterMap_cons_some (b := (p.pk, x)) (by simp [hs]),
          List.filter_cons_of_neg (by simpa using hp)]

/-- A sum has a value iff there is a summand. -/
theorem isSome_foldl_addAt (xs : List Float32) (x : Option Float32) :
    (xs.foldl addAt x).isSome = (x.isSome || !xs.isEmpty) := by
  induction xs generalizing x with
  | nil => simp
  | cons b xs ih =>
    rw [List.foldl_cons, ih]
    simp [addAt]

/-- **A token leads to a key by each posting that counts.** Its boost has no say in it. -/
theorem isSome_get?_token (m : Matcher) (boost : Float32) (t : String) (pk : Key) :
    ((m.token boost t).get? pk).isSome = true ↔
      ∃ p ∈ m.index.postingsOf t, p.pk = pk ∧ ∃ f, m.field? p = some f := by
  rw [get?_token, isSome_foldl_addAt, Option.isSome_none, Bool.false_or, Bool.not_eq_true',
    List.isEmpty_eq_false_iff_exists_mem]
  simp only [List.mem_filterMap, List.mem_filter, beq_iff_eq, summand?, Option.map_eq_some_iff]
  constructor
  · rintro ⟨x, p, ⟨hp, hpk⟩, f, hf, -⟩
    exact ⟨p, hp, hpk, f, hf⟩
  · rintro ⟨p, hp, hpk, f, hf⟩
    exact ⟨_, p, ⟨hp, hpk⟩, f, hf, rfl⟩

/-! ## Queries, at one key -/

/-- The score of one key for a term, from those for its tokens. -/
def termAt (token : Float32 → String → Option Float32) (term : String) (boost : Float32) :
    Option Float32 :=
  match termTokens term with
  | [] => none
  | t :: ts => ts.foldl (fun x t => meetAt x (token boost t)) (token boost t)

/-- The score of one key in the complement of an answer. -/
def complementAt (inScope : Bool) (x : Option Float32) : Option Float32 :=
  if inScope && x.isNone then some 0.0 else none

mutual

/-- The score of one key for a query, from whether it is in the scope and its scores for
tokens. -/
def scoreAt (inScope : Bool) (token : Float32 → String → Option Float32) :
    NormalQuery → Option Float32
  | .matchAll => complementAt inScope none
  | .matchNone => none
  | .term t boost => termAt token t boost
  | .and [] => complementAt inScope none
  | .and (q :: qs) => meetAllAt inScope token (scoreAt inScope token q) qs
  | .or qs => joinAllAt inScope token none qs
  | .not q => complementAt inScope (scoreAt inScope token q)

/-- The score of one key in the intersection with the answers to queries. -/
def meetAllAt (inScope : Bool) (token : Float32 → String → Option Float32)
    (x : Option Float32) : List NormalQuery → Option Float32
  | [] => x
  | q :: qs => meetAllAt inScope token (meetAt x (scoreAt inScope token q)) qs

/-- The score of one key in the union with the answers to queries. -/
def joinAllAt (inScope : Bool) (token : Float32 → String → Option Float32)
    (x : Option Float32) : List NormalQuery → Option Float32
  | [] => x
  | q :: qs => joinAllAt inScope token (joinAt x (scoreAt inScope token q)) qs

end

/-- Nothing met with any answers stays nothing: this is why a conjunction may end early. -/
theorem meetAllAt_none (inScope : Bool) (token : Float32 → String → Option Float32)
    (qs : List NormalQuery) : meetAllAt inScope token none qs = none := by
  induction qs with
  | nil => rw [meetAllAt]
  | cons q qs ih =>
    rw [meetAllAt]
    exact ih

theorem get?_all (m : Matcher) (pk : Key) :
    m.all.get? pk = complementAt (m.scope.contains pk) none := by
  unfold all SortedMap.contains complementAt
  rw [SortedMap.get?_map]
  cases m.scope.get? pk <;> rfl

theorem get?_complement (m : Matcher) (excluded : ScoreMap) (pk : Key) :
    (m.complement excluded).get? pk =
      complementAt (m.scope.contains pk) (excluded.get? pk) := by
  unfold complement
  rw [SortedMap.get?_filterMap]
  unfold SortedMap.contains complementAt
  cases m.scope.get? pk <;> cases excluded.get? pk <;> rfl

theorem get?_term (m : Matcher) (term : String) (boost : Float32) (pk : Key) :
    (m.term term boost).get? pk = termAt (fun b t => (m.token b t).get? pk) term boost := by
  unfold Matcher.term termAt
  cases termTokens term with
  | nil => rfl
  | cons t ts =>
    exact get?_foldl_meet (m.token boost) ts (m.token boost t) pk

mutual

/-- **The answer to a query, read at one key**, is computed from that key alone. -/
theorem get?_evaluate (m : Matcher) (pk : Key) : ∀ q : NormalQuery,
    (m.evaluate q).get? pk =
      scoreAt (m.scope.contains pk) (fun b t => (m.token b t).get? pk) q
  | .matchAll => by
    rw [evaluate, scoreAt]
    exact get?_all m pk
  | .matchNone => by
    rw [evaluate, scoreAt]
    rfl
  | .term t boost => by
    rw [evaluate, scoreAt]
    exact get?_term m t boost pk
  | .and [] => by
    rw [evaluate, scoreAt]
    exact get?_all m pk
  | .and (q :: qs) => by
    rw [evaluate, scoreAt, get?_meetWith m pk _ qs, get?_evaluate m pk q]
  | .or qs => by
    rw [evaluate, scoreAt, get?_joinWith m pk _ qs]
    rfl
  | .not q => by
    rw [evaluate, scoreAt, get?_complement, get?_evaluate m pk q]

theorem get?_meetWith (m : Matcher) (pk : Key) (scores : ScoreMap) : ∀ qs : List NormalQuery,
    (m.meetWith scores qs).get? pk =
      meetAllAt (m.scope.contains pk) (fun b t => (m.token b t).get? pk) (scores.get? pk) qs
  | [] => by rw [meetWith, meetAllAt]
  | q :: qs => by
    rw [meetWith, meetAllAt]
    split
    · rename_i hempty
      rw [SortedMap.get?_of_isEmpty hempty]
      exact (meetAllAt_none _ _ qs).symm
    · rw [get?_meetWith m pk _ qs, get?_meet, get?_evaluate m pk q]

theorem get?_joinWith (m : Matcher) (pk : Key) (scores : ScoreMap) : ∀ qs : List NormalQuery,
    (m.joinWith scores qs).get? pk =
      joinAllAt (m.scope.contains pk) (fun b t => (m.token b t).get? pk) (scores.get? pk) qs
  | [] => by rw [joinWith, joinAllAt]
  | q :: qs => by
    rw [joinWith, joinAllAt, get?_joinWith m pk _ qs, get?_join, get?_evaluate m pk q]

end

/-- Matchers that give each key the same scores for tokens give the same answers. -/
theorem evaluate_congr {m m' : Matcher} (hscope : m.scope = m'.scope)
    (htoken : ∀ boost t pk, (m.token boost t).get? pk = (m'.token boost t).get? pk)
    (q : NormalQuery) : m.evaluate q = m'.evaluate q := by
  refine SortedMap.ext_get? fun pk => ?_
  have hscores : (fun b t => (m.token b t).get? pk) = fun b t => (m'.token b t).get? pk :=
    funext fun b => funext fun t => htoken b t pk
  rw [get?_evaluate m pk q, get?_evaluate m' pk q, hscope, hscores]

/-! ## Scopes -/

/-- A token gives no score outside the scope. -/
theorem get?_token_eq_none {m : Matcher} {pk : Key} (h : m.scope.contains pk = false)
    (boost : Float32) (t : String) : (m.token boost t).get? pk = none := by
  have hsummand : ∀ p ∈ (m.index.postingsOf t).filter fun p => p.pk == pk,
      m.summand? boost t p = none := by
    intro p hp
    have hpk := beq_iff_eq.mp (List.mem_filter.mp hp).2
    unfold summand? field?
    rw [hpk, h]
    rfl
  rw [get?_token, List.filterMap_eq_nil_iff.mpr hsummand]
  rfl

/-- **The score of a key is the same in all scopes that agree on the key.** -/
theorem get?_evaluate_congr (ix : InvertedIndex) (fields : Option (List String)) (scorer : Scorer)
    {scope scope' : KeySet} {pk : Key} (h : scope.contains pk = scope'.contains pk)
    (q : NormalQuery) :
    (evaluate ⟨ix, scope, fields, scorer⟩ q).get? pk =
      (evaluate ⟨ix, scope', fields, scorer⟩ q).get? pk := by
  have htoken : ∀ boost t, (token ⟨ix, scope, fields, scorer⟩ boost t).get? pk =
      (token ⟨ix, scope', fields, scorer⟩ boost t).get? pk := by
    intro boost t
    rw [get?_token, get?_token]
    refine congrArg (List.foldl addAt none) (List.filterMap_congr fun p hp => ?_)
    have hpk := beq_iff_eq.mp (List.mem_filter.mp hp).2
    unfold summand? field?
    rw [show Matcher.scope ⟨ix, scope, fields, scorer⟩ = scope from rfl,
      show Matcher.scope ⟨ix, scope', fields, scorer⟩ = scope' from rfl, hpk, h]
    rfl
  rw [get?_evaluate, get?_evaluate]
  exact congrArg₂ (fun inScope token => scoreAt inScope token q) h
    (funext fun boost => funext fun t => htoken boost t)

end Matcher

end Concordance
