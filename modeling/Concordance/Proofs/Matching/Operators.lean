import Concordance.Proofs.Query.Normalized

/-!
# Operators on queries are operators on sets of keys

A matcher reads every query as a set of keys within its scope (`Matcher.keysOf`). No more is used of
it here than that a key has a score or has none, so the laws hold over any index, with tables that a
history has made or not.

* `mem_keys_evaluate_and`, `mem_keys_evaluate_or`, `mem_keys_evaluate_not`: a conjunction meets its
  children's keys within the scope, also when there are none, and a disjunction unites them.
* `mem_keys_evaluate_unboosted`: no weight decides whether a key is an answer. This is why the parts
  of a filter, which weigh nothing, still select.
* **`operators_on_keys`**: `meet` and `join` are associative as trees and act on keys as `∩` and
  `∪`, negation is the rest of the scope, and a filter selects by both of its parts.
-/

namespace Concordance

/-! ## Flat conjunctions and disjunctions -/

theorem Query.meet_assoc (a b c : Query) : (a.meet b).meet c = a.meet (b.meet c) := by
  simp [meet, conjuncts]

theorem Query.join_assoc (a b c : Query) : (a.join b).join c = a.join (b.join c) := by
  simp [join, disjuncts]

namespace Matcher

open ScoreMap

/-! ## Keys that are answers -/

section Answers

variable {inScope : Bool} {token : Float32 → String → Option Float32}

theorem isSome_meetAllAt (x : Option Float32) (qs : List NormalQuery) :
    (meetAllAt inScope token x qs).isSome = true ↔
      x.isSome = true ∧ ∀ q ∈ qs, (scoreAt inScope token q).isSome = true := by
  induction qs generalizing x with
  | nil => simp [meetAllAt]
  | cons q qs ih => rw [meetAllAt, ih, isSome_meetAt, List.forall_mem_cons, and_assoc]

theorem isSome_joinAllAt (x : Option Float32) (qs : List NormalQuery) :
    (joinAllAt inScope token x qs).isSome = true ↔
      x.isSome = true ∨ ∃ q ∈ qs, (scoreAt inScope token q).isSome = true := by
  induction qs generalizing x with
  | nil => simp [joinAllAt]
  | cons q qs ih => rw [joinAllAt, ih, isSome_joinAt, List.exists_mem_cons_iff, or_assoc]

end Answers

variable (m : Matcher) {pk : Key}

theorem mem_keys_evaluate {q : NormalQuery} : pk ∈ (m.evaluate q).keys ↔
    (scoreAt (m.scope.contains pk) (fun b t => (m.token b t).get? pk) q).isSome = true := by
  rw [SortedMap.mem_keys, SortedMap.contains, get?_evaluate]

/-- An answer lies in the scope. -/
theorem mem_scope_of_mem_keys {q : NormalQuery} (h : pk ∈ (m.evaluate q).keys) :
    pk ∈ m.scope.keys := by
  rw [SortedMap.mem_keys] at h ⊢
  obtain ⟨x, hx⟩ := Option.isSome_iff_exists.mp h
  exact contains_of_evaluate hx

/-- **A conjunction is the common keys of its children within the scope**, which is all of the scope
if it has none. -/
theorem mem_keys_evaluate_and {qs : List NormalQuery} : pk ∈ (m.evaluate (.and qs)).keys ↔
    pk ∈ m.scope.keys ∧ ∀ q ∈ qs, pk ∈ (m.evaluate q).keys := by
  cases qs with
  | nil =>
    rw [mem_keys_evaluate, scoreAt, isSome_complementAt, SortedMap.mem_keys]
    simp
  | cons q qs =>
    -- where there is a child, the scope adds nothing to it
    have hscope : pk ∈ (m.evaluate q).keys → pk ∈ m.scope.keys := m.mem_scope_of_mem_keys
    simp only [mem_keys_evaluate, scoreAt, isSome_meetAllAt, List.forall_mem_cons] at hscope ⊢
    tauto

theorem mem_keys_evaluate_or {qs : List NormalQuery} : pk ∈ (m.evaluate (.or qs)).keys ↔
    ∃ q ∈ qs, pk ∈ (m.evaluate q).keys := by
  simp only [mem_keys_evaluate, scoreAt, isSome_joinAllAt, Option.isSome_none, Bool.false_eq_true,
    false_or]

theorem mem_keys_evaluate_not {q : NormalQuery} : pk ∈ (m.evaluate (.not q)).keys ↔
    pk ∈ m.scope.keys ∧ pk ∉ (m.evaluate q).keys := by
  rw [mem_keys_evaluate, mem_keys_evaluate, scoreAt, isSome_complementAt, SortedMap.mem_keys]

/-! ## Weights decide nothing -/

theorem mem_keys_evaluate_term {t : String} (boost boost' : Float32) :
    pk ∈ (m.evaluate (.term t boost)).keys ↔ pk ∈ (m.evaluate (.term t boost')).keys := by
  simp only [mem_keys_evaluate, scoreAt, termAt]
  cases termTokens t with
  | nil => rfl
  | cons t ts => simp only [isSome_foldl_meetAt, isSome_get?_token]

mutual

/-- **No weight decides whether a key is an answer.** -/
theorem mem_keys_evaluate_unboosted : ∀ q : NormalQuery,
    pk ∈ (m.evaluate q.unboosted).keys ↔ pk ∈ (m.evaluate q).keys
  | .matchAll => Iff.rfl
  | .matchNone => Iff.rfl
  | .term t boost => m.mem_keys_evaluate_term 1.0 boost
  | .and qs => by
    rw [NormalQuery.unboosted, mem_keys_evaluate_and, mem_keys_evaluate_and,
      forall_unboostedAll qs]
  | .or qs => by
    rw [NormalQuery.unboosted, mem_keys_evaluate_or, mem_keys_evaluate_or, exists_unboostedAll qs]
  | .not q => by
    rw [NormalQuery.unboosted, mem_keys_evaluate_not, mem_keys_evaluate_not,
      mem_keys_evaluate_unboosted q]

theorem forall_unboostedAll : ∀ qs : List NormalQuery,
    (∀ q ∈ unboostedAll qs, pk ∈ (m.evaluate q).keys) ↔ ∀ q ∈ qs, pk ∈ (m.evaluate q).keys
  | [] => by simp [unboostedAll]
  | q :: qs => by
    rw [unboostedAll, List.forall_mem_cons, List.forall_mem_cons, mem_keys_evaluate_unboosted q,
      forall_unboostedAll qs]

theorem exists_unboostedAll : ∀ qs : List NormalQuery,
    (∃ q ∈ unboostedAll qs, pk ∈ (m.evaluate q).keys) ↔ ∃ q ∈ qs, pk ∈ (m.evaluate q).keys
  | [] => by simp [unboostedAll]
  | q :: qs => by
    rw [unboostedAll, List.exists_mem_cons_iff, List.exists_mem_cons_iff,
      mem_keys_evaluate_unboosted q, exists_unboostedAll qs]

end

/-! ## Keys of queries -/

/-- The keys that a query is answered with. -/
def keysOf (q : Query) : Set Key := {pk | pk ∈ (m.evaluate q.normalize).keys}

/-- The keys that may be answers. -/
def scopeKeys : Set Key := {pk | pk ∈ m.scope.keys}

variable {m}

theorem keysOf_subset (q : Query) : m.keysOf q ⊆ m.scopeKeys :=
  fun _ h => m.mem_scope_of_mem_keys h

/-- The factor below which a query is normalized has no say in its keys. -/
theorem mem_keysOf_below (factor : Float32) {q : Query} :
    pk ∈ (m.evaluate (q.normalizeBelow factor)).keys ↔ pk ∈ m.keysOf q := by
  unfold keysOf Query.normalize
  rw [Set.mem_ofPred_eq, ← mem_keys_evaluate_unboosted, unboosted_normalizeBelow,
    ← unboosted_normalizeBelow 1.0, mem_keys_evaluate_unboosted]

theorem mem_keysOf_and {qs : List Query} :
    pk ∈ m.keysOf (.and qs) ↔ pk ∈ m.scopeKeys ∧ ∀ q ∈ qs, pk ∈ m.keysOf q := by
  unfold keysOf Query.normalize
  simp [Query.normalizeBelow, mem_keys_evaluate_and, normalizeAll_eq_map, scopeKeys]

theorem mem_keysOf_or {qs : List Query} :
    pk ∈ m.keysOf (.or qs) ↔ ∃ q ∈ qs, pk ∈ m.keysOf q := by
  unfold keysOf Query.normalize
  simp [Query.normalizeBelow, mem_keys_evaluate_or, normalizeAll_eq_map]

theorem mem_keysOf_not {q : Query} :
    pk ∈ m.keysOf (.not q) ↔ pk ∈ m.scopeKeys ∧ pk ∉ m.keysOf q :=
  m.mem_keys_evaluate_not

theorem keysOf_boost (q : Query) (f : Float32) : m.keysOf (.boost q f) = m.keysOf q :=
  Set.ext fun _ => mem_keysOf_below (1.0 * f)

theorem mem_keysOf_conjuncts (q : Query) :
    pk ∈ m.keysOf q ↔ pk ∈ m.scopeKeys ∧ ∀ p ∈ q.conjuncts, pk ∈ m.keysOf p := by
  have hscope := @keysOf_subset m q pk
  cases q with
  | and qs => exact mem_keysOf_and
  | _ => simp only [Query.conjuncts, List.forall_mem_singleton]; tauto

theorem mem_keysOf_disjuncts (q : Query) :
    pk ∈ m.keysOf q ↔ ∃ p ∈ q.disjuncts, pk ∈ m.keysOf p := by
  cases q with
  | or qs => exact mem_keysOf_or
  | _ => simp [Query.disjuncts]

theorem keysOf_meet (a b : Query) : m.keysOf (a.meet b) = m.keysOf a ∩ m.keysOf b := by
  ext pk
  rw [Query.meet, mem_keysOf_and, List.forall_mem_append, Set.mem_inter_iff,
    mem_keysOf_conjuncts a, mem_keysOf_conjuncts b]
  tauto

theorem keysOf_join (a b : Query) : m.keysOf (a.join b) = m.keysOf a ∪ m.keysOf b := by
  ext pk
  rw [Query.join, mem_keysOf_or, Set.mem_union, mem_keysOf_disjuncts a, mem_keysOf_disjuncts b]
  simp only [List.mem_append, or_and_right, exists_or]

theorem keysOf_not (q : Query) : m.keysOf (.not q) = m.scopeKeys \ m.keysOf q :=
  Set.ext fun _ => mem_keysOf_not

theorem keysOf_and_pair (p q : Query) : m.keysOf (.and [p, q]) = m.keysOf p ∩ m.keysOf q := by
  ext pk
  have hscope := @keysOf_subset m p pk
  rw [mem_keysOf_and, List.forall_mem_cons, List.forall_mem_singleton, Set.mem_inter_iff]
  tauto

theorem keysOf_including (q p : Query) : m.keysOf (q.including p) = m.keysOf q ∩ m.keysOf p := by
  rw [Query.including, keysOf_and_pair, keysOf_boost]

theorem keysOf_excluding (q p : Query) : m.keysOf (q.excluding p) = m.keysOf q \ m.keysOf p := by
  rw [Query.excluding, keysOf_and_pair, keysOf_boost, keysOf_not, ← Set.inter_sdiff_assoc,
    Set.inter_eq_left.mpr (keysOf_subset q)]

/-- **Operators on queries are operators on sets of keys**, for every matcher: over any index, scope
and restriction to fields, and with any scorer. Nested conjunctions and disjunctions are one flat
tree, whichever pair was combined first. -/
theorem operators_on_keys :
    (∀ a b c : Query, (a.meet b).meet c = a.meet (b.meet c) ∧
      (a.join b).join c = a.join (b.join c)) ∧
    ∀ (m : Matcher) (a b : Query),
      m.keysOf (a.meet b) = m.keysOf a ∩ m.keysOf b ∧
      m.keysOf (a.join b) = m.keysOf a ∪ m.keysOf b ∧
      m.keysOf (.not a) = m.scopeKeys \ m.keysOf a ∧
      ∀ required rejected : Option Query, m.keysOf (a.filter required rejected) =
        (m.keysOf a ∩ required.elim Set.univ m.keysOf) \ rejected.elim ∅ m.keysOf := by
  refine ⟨fun a b c => ⟨a.meet_assoc b c, a.join_assoc b c⟩, fun m a b => ?_⟩
  refine ⟨keysOf_meet a b, keysOf_join a b, keysOf_not a, fun required rejected => ?_⟩
  unfold Query.filter
  cases required <;> cases rejected <;> simp [keysOf_including, keysOf_excluding]

end Matcher

end Concordance
