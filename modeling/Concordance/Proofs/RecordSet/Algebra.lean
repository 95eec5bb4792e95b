import Concordance.Proofs.RecordSet.Failures

/-!
# The algebra of record sets

Sets combine by rewriting their predicates: an unfiltered side drops out of a conjunction and makes
a disjunction unfiltered, and a filter nests to the left of what was there. What a combination
selects follows from the meaning of predicates, and a valid set is evaluated to what it selects, so
the laws need no induction over the evaluation.

What can be sorted can be sorted in part. So an intersection, and a set that is restricted, can be
sorted if the sets that they are made of can. A union selects more than its sides do, and whether it
can be sorted is a question of its own.

* `Store.Combines`, `Store.Divides`: the laws, about what the sets are evaluated to.
* `selects_and`, `selects_or`, `selects_restrict`: what combinations select.
* `evaluable_restrict`, `evaluable_and`: what stays valid, and can still be sorted.
* **`combines_and_divides`**: the laws hold.
-/

namespace Concordance

/-! ## What the laws say -/

namespace Store

/-- The third set is evaluated to what is in both of the others. -/
def IsIntersection (st : Store) (a b both : RecordSet) : Prop :=
  ∃ ra rb rs, a.evaluate st = .ok ra ∧ b.evaluate st = .ok rb ∧ both.evaluate st = .ok rs ∧
    ∀ r, r ∈ rs ↔ r ∈ ra ∧ r ∈ rb

/-- The third set is evaluated to what is in either of the others. -/
def IsUnion (st : Store) (a b either : RecordSet) : Prop :=
  ∃ ra rb rs, a.evaluate st = .ok ra ∧ b.evaluate st = .ok rb ∧ either.evaluate st = .ok rs ∧
    ∀ r, r ∈ rs ↔ r ∈ ra ∨ r ∈ rb

/-- The third set is evaluated to what the others are, each record in one of them only. -/
def IsPartition (st : Store) (a b all : RecordSet) : Prop :=
  ∃ ra rb rs, a.evaluate st = .ok ra ∧ b.evaluate st = .ok rb ∧ all.evaluate st = .ok rs ∧
    (ra ++ rb).Perm rs

/-- The set is evaluated, in the order that the ordering of `a` brings records of ascending keys
into. -/
def KeepsOrder (st : Store) (a set : RecordSet) : Prop :=
  ∃ plain rs, (plain.Pairwise fun r r' => r.pk < r'.pk) ∧
    arrange st a.model a.ordering plain = .ok rs ∧ set.evaluate st = .ok rs

/-- How two sets combine. -/
structure Combines (st : Store) (a b : RecordSet) : Prop where
  intersection : st.IsIntersection a b (a.and b)
  union (h : (a.or b).Sorts st) : st.IsUnion a b (a.or b)
  and_keepsOrder : st.KeepsOrder a (a.and b)
  or_keepsOrder (h : (a.or b).Sorts st) : st.KeepsOrder a (a.or b)

/-- How the lookups on a path divide a set. -/
structure Divides (st : Store) (a : RecordSet) (path : String) : Prop where
  /-- Every record is either kept or left out. -/
  exclude (lookup : Lookup) (h : lookup.validate st.schema = .ok ()) (hsorts : lookup.Sorts st) :
    st.IsPartition (a.filter path lookup) (a.exclude path lookup) a
  isNull : st.IsPartition (a.filter path (.isNull true)) (a.filter path (.isNull false)) a
  lte (v : Value) : st.IsUnion (a.filter path (.compare .lt v))
    (a.filter path (.compare .exact v)) (a.filter path (.compare .lte v))
  gte (v : Value) : st.IsUnion (a.filter path (.compare .gt v))
    (a.filter path (.compare .exact v)) (a.filter path (.compare .gte v))
  oneOf (vs : List Value) : ∃ (found : Value → List Record) (rs : List Record),
    (∀ v, (a.filter path (.compare .exact v)).evaluate st = .ok (found v)) ∧
      (a.filter path (.oneOf vs)).evaluate st = .ok rs ∧ ∀ r, r ∈ rs ↔ ∃ v ∈ vs, r ∈ found v

end Store

variable {models : List Model} {st : Store}

@[simp]
theorem model_and {a b : RecordSet} : (a.and b).model = a.model := by
  unfold RecordSet.and
  cases b.predicate <;> rfl

theorem ordering_and {a b : RecordSet} : (a.and b).ordering = a.ordering := by
  unfold RecordSet.and
  cases b.predicate <;> rfl

/-! ## What combinations select -/

theorem selects_restrict (set : RecordSet) (p : Predicate) (r : Record) :
    (set.restrict p).Selects st r ↔ set.Selects st r ∧ p.Met st set.model r := by
  obtain ⟨model, predicate, ordering, foreign⟩ := set
  rw [selects_iff, selects_iff]
  unfold RecordSet.restrict
  cases predicate with
  | none => simp only [conditionMet, and_true, and_assoc]
  | some q => simp only [conditionMet, Predicate.Met, and_assoc]

theorem selects_and {a b : RecordSet} (h : b.model = a.model) (r : Record) :
    (a.and b).Selects st r ↔ a.Selects st r ∧ b.Selects st r := by
  obtain ⟨model, predicate, ordering, foreign⟩ := a
  obtain ⟨_, other, _, _⟩ := b
  cases h
  cases predicate <;> cases other <;>
    simp only [RecordSet.and, RecordSet.restrict, selects_iff, conditionMet, Predicate.Met] <;>
    tauto

theorem selects_or {a b : RecordSet} (h : b.model = a.model) (r : Record) :
    (a.or b).Selects st r ↔ a.Selects st r ∨ b.Selects st r := by
  obtain ⟨model, predicate, ordering, foreign⟩ := a
  obtain ⟨_, other, _, _⟩ := b
  cases h
  cases predicate <;> cases other <;>
    simp only [RecordSet.or, selects_iff, conditionMet, Predicate.Met] <;> tauto

theorem selects_filter (set : RecordSet) (path : String) (lookup : Lookup) (r : Record) :
    (set.filter path lookup).Selects st r ↔
      set.Selects st r ∧ lookup.Met st (st.Has set.model path r) := by
  unfold RecordSet.filter
  rw [selects_restrict, Predicate.Met]

theorem selects_exclude (set : RecordSet) (path : String) (lookup : Lookup) (r : Record) :
    (set.exclude path lookup).Selects st r ↔
      set.Selects st r ∧ ¬lookup.Met st (st.Has set.model path r) := by
  unfold RecordSet.exclude
  rw [selects_restrict, Predicate.Met, Predicate.Met]

/-! ## What lookups mean -/

section Lookups

variable (has : Value → Prop)

theorem met_lte_iff (w : Value) : (Lookup.compare .lte w).Met st has ↔
    (Lookup.compare .lt w).Met st has ∨ (Lookup.compare .exact w).Met st has := by
  simp only [Lookup.Met, Comparison.Allows, and_or_left, exists_or]

theorem met_gte_iff (w : Value) : (Lookup.compare .gte w).Met st has ↔
    (Lookup.compare .gt w).Met st has ∨ (Lookup.compare .exact w).Met st has := by
  simp only [Lookup.Met, Comparison.Allows, and_or_left, exists_or]

/-- A value that is not null matches what it is equal to. -/
theorem matchesValue_iff {v w : Value} (h : v ≠ .null) :
    v.matchesValue w = true ↔ v.compare w = some .eq := by
  cases v with
  | null => exact absurd rfl h
  | bool | int | float | text | date => exact beq_iff_eq

theorem met_oneOf_iff (ws : List Value) : (Lookup.oneOf ws).Met st has ↔
    ∃ w ∈ ws, (Lookup.compare .exact w).Met st has := by
  simp only [Lookup.Met, Comparison.Allows]
  constructor
  · rintro ⟨v, hv, hnull, w, hw, hmatch⟩
    exact ⟨w, hw, v, hv, hnull, .eq, (matchesValue_iff hnull).mp hmatch, rfl⟩
  · rintro ⟨w, hw, v, hv, hnull, _, hcompare, rfl⟩
    exact ⟨v, hv, hnull, w, hw, (matchesValue_iff hnull).mpr hcompare⟩

theorem met_isNull_iff : (Lookup.isNull false).Met st has ↔ ¬(Lookup.isNull true).Met st has := by
  simp only [Lookup.Met, Bool.false_eq_true, iff_false, iff_true]

end Lookups

/-! ## Validity -/

section Validity

variable {s : Schema} {a b : RecordSet}

theorem validate_restrict {p : Predicate} (ha : a.validate s = .ok ())
    (hp : p.validate s a.model = .ok ()) : (a.restrict p).validate s = .ok () := by
  obtain ⟨model, predicate, ordering, foreign⟩ := a
  obtain ⟨hmodel, hforeign, hpredicate, hordering⟩ := validate_iff.mp ha
  refine validate_iff.mpr ⟨hmodel, hforeign, ?_, hordering⟩
  cases predicate with
  | none =>
    rw [validateCondition]
    exact hp
  | some q =>
    rw [validateCondition] at hpredicate ⊢
    rw [Predicate.validate, hpredicate]
    exact hp

/-- A lookup without a subquery is valid. -/
theorem validate_lookup {lookup : Lookup} (h : ∀ set field, lookup ≠ .within set field) :
    lookup.validate s = .ok () := by
  cases lookup with
  | within set field => exact absurd rfl (h set field)
  | compare | oneOf | isNull | startsWith => rw [Lookup.validate]; exact h

/-- A lookup without a subquery selects nothing that is to be sorted. -/
theorem sorts_lookup {lookup : Lookup} (h : ∀ set field, lookup ≠ .within set field) :
    lookup.Sorts st := by
  cases lookup with
  | within set field => exact absurd rfl (h set field)
  | compare | oneOf | isNull | startsWith => rw [Lookup.Sorts]; trivial

/-- Valid sets of one model have met no other model. -/
theorem foreign_of_valid (ha : a.validate s = .ok ()) (hb : b.validate s = .ok ())
    (h : b.model = a.model) : { a with foreign := a.foreignOf b } = a := by
  obtain ⟨model, predicate, ordering, foreign⟩ := a
  obtain ⟨other, predicate', ordering', foreign'⟩ := b
  obtain ⟨-, rfl, -, -⟩ := validate_iff.mp ha
  obtain ⟨-, rfl, -, -⟩ := validate_iff.mp hb
  show RecordSet.mk model predicate ordering (if other = model then none else some other) = _
  rw [if_pos h]

theorem validate_or (ha : a.validate s = .ok ()) (hb : b.validate s = .ok ())
    (h : b.model = a.model) : (a.or b).validate s = .ok () := by
  have hmet := foreign_of_valid ha hb h
  obtain ⟨model, predicate, ordering, foreign⟩ := a
  obtain ⟨other, predicate', _, _⟩ := b
  obtain ⟨hmodel, rfl, hpredicate, hordering⟩ := validate_iff.mp ha
  obtain ⟨-, -, hpredicate', -⟩ := validate_iff.mp hb
  refine validate_iff.mpr ⟨hmodel, congrArg RecordSet.foreign hmet, ?_, hordering⟩
  cases predicate with
  | none => rw [validateCondition]
  | some p =>
    cases predicate' with
    | none => rw [validateCondition]
    | some q =>
      rw [validateCondition] at *
      rw [Predicate.validate, hpredicate]
      rw [show other = model from h] at hpredicate'
      exact hpredicate'

end Validity

/-! ## Evaluable sets -/

/-- The set is valid, and what it selects can be sorted. -/
structure Store.Evaluable (st : Store) (set : RecordSet) : Prop where
  valid : set.validate st.schema = .ok ()
  sorts : set.Sorts st

section Evaluable

variable {a b : RecordSet}

theorem evaluable_restrict {p : Predicate} (ha : st.Evaluable a)
    (hp : p.validate st.schema a.model = .ok ()) (hsorts : p.Sorts st) :
    st.Evaluable (a.restrict p) := by
  refine ⟨validate_restrict ha.valid hp, ?_⟩
  obtain ⟨hcondition, harranges⟩ := sorts_iff.mp ha.sorts
  refine sorts_iff.mpr ⟨?_, harranges.mono fun r hr => ((selects_restrict a p r).mp hr).1⟩
  unfold RecordSet.restrict
  cases hpredicate : a.predicate with
  | none =>
    rw [conditionSorts]
    exact hsorts
  | some q =>
    rw [hpredicate, conditionSorts] at hcondition
    rw [conditionSorts, Predicate.Sorts]
    exact ⟨hcondition, hsorts⟩

/-- An intersection is a restriction, by the condition of its second side. -/
theorem evaluable_and (ha : st.Evaluable a) (hb : st.Evaluable b) (h : b.model = a.model) :
    st.Evaluable (a.and b) := by
  unfold RecordSet.and
  rw [foreign_of_valid ha.valid hb.valid h]
  obtain ⟨other, predicate, ordering, foreign⟩ := b
  cases predicate with
  | none => exact ha
  | some p =>
    obtain ⟨-, -, hpredicate, -⟩ := validate_iff.mp hb.valid
    obtain ⟨hsorts, -⟩ := sorts_iff.mp hb.sorts
    rw [validateCondition, show other = a.model from h] at hpredicate
    rw [conditionSorts] at hsorts
    exact evaluable_restrict ha hpredicate hsorts

end Evaluable

/-! ## The laws -/

section Laws

variable (hs : Schema.Built models st.schema) (hst : st.Filed) (hkeys : st.KeysFit)

include hs hst hkeys

/-- A set that can be evaluated is so to what it selects, each record once. -/
theorem exists_evaluate_nodup {set : RecordSet} (h : st.Evaluable set) :
    ∃ rs, set.evaluate st = .ok rs ∧ (∀ r, r ∈ rs ↔ set.Selects st r) ∧ rs.Nodup := by
  obtain ⟨rs, hrs, hmem, -⟩ := exists_evaluate hs hst hkeys h.valid h.sorts
  obtain ⟨-, hnodup, -⟩ := base_of_evaluate hst hrs
  exact ⟨rs, hrs, hmem, hnodup.of_map _⟩

/-- What sets select decides how they are evaluated. -/
theorem isUnion_of_selects {a b c : RecordSet} (ha : st.Evaluable a) (hb : st.Evaluable b)
    (hc : st.Evaluable c) (h : ∀ r, c.Selects st r ↔ a.Selects st r ∨ b.Selects st r) :
    st.IsUnion a b c := by
  obtain ⟨ra, hra, hmemA, -⟩ := exists_evaluate_nodup hs hst hkeys ha
  obtain ⟨rb, hrb, hmemB, -⟩ := exists_evaluate_nodup hs hst hkeys hb
  obtain ⟨rc, hrc, hmemC, -⟩ := exists_evaluate_nodup hs hst hkeys hc
  exact ⟨ra, rb, rc, hra, hrb, hrc, fun r => by rw [hmemA, hmemB, hmemC, h]⟩

theorem isPartition_of_selects {a b c : RecordSet} (ha : st.Evaluable a) (hb : st.Evaluable b)
    (hc : st.Evaluable c) (h : ∀ r, c.Selects st r ↔ a.Selects st r ∨ b.Selects st r)
    (hdisjoint : ∀ r, a.Selects st r → ¬b.Selects st r) : st.IsPartition a b c := by
  obtain ⟨ra, hra, hmemA, hnodupA⟩ := exists_evaluate_nodup hs hst hkeys ha
  obtain ⟨rb, hrb, hmemB, hnodupB⟩ := exists_evaluate_nodup hs hst hkeys hb
  obtain ⟨rc, hrc, hmemC, hnodupC⟩ := exists_evaluate_nodup hs hst hkeys hc
  have hnodup : (ra ++ rb).Nodup := List.nodup_append.mpr ⟨hnodupA, hnodupB, by
    rintro r hr _ hr' rfl
    exact hdisjoint r ((hmemA r).mp hr) ((hmemB r).mp hr')⟩
  refine ⟨ra, rb, rc, hra, hrb, hrc, (List.perm_ext_iff_of_nodup hnodup hnodupC).mpr fun r => ?_⟩
  rw [List.mem_append, hmemA, hmemB, hmemC, h]

/-- A set with the model and the ordering of another keeps its order. -/
theorem keepsOrder_of_evaluable {a set : RecordSet} (h : st.Evaluable set)
    (hmodel : set.model = a.model) (hordering : set.ordering = a.ordering) :
    st.KeepsOrder a set := by
  obtain ⟨rs, hrs, -, -⟩ := exists_evaluate_nodup hs hst hkeys h
  obtain ⟨plain, hplain, harrange⟩ := unordered_of_evaluate hrs
  obtain ⟨-, -, hascending⟩ := base_of_evaluate hst hplain
  rw [hmodel, hordering] at harrange
  exact ⟨plain, rs, hascending rfl, harrange, hrs⟩

theorem combines {a b : RecordSet} (ha : st.Evaluable a) (hb : st.Evaluable b)
    (hmodel : b.model = a.model) : st.Combines a b := by
  have hand := evaluable_and ha hb hmodel
  have hor (h : (a.or b).Sorts st) : st.Evaluable (a.or b) :=
    ⟨validate_or ha.valid hb.valid hmodel, h⟩
  obtain ⟨ra, hra, hmemA, -⟩ := exists_evaluate_nodup hs hst hkeys ha
  obtain ⟨rb, hrb, hmemB, -⟩ := exists_evaluate_nodup hs hst hkeys hb
  obtain ⟨rs, hrs, hmem, -⟩ := exists_evaluate_nodup hs hst hkeys hand
  exact {
    intersection := ⟨ra, rb, rs, hra, hrb, hrs, fun r => by
      rw [hmem, hmemA, hmemB, selects_and hmodel]⟩
    union := fun h => isUnion_of_selects hs hst hkeys ha hb (hor h) (selects_or hmodel)
    and_keepsOrder := keepsOrder_of_evaluable hs hst hkeys hand model_and ordering_and
    or_keepsOrder := fun h => keepsOrder_of_evaluable hs hst hkeys (hor h) rfl rfl }

theorem divides {a : RecordSet} (ha : st.Evaluable a) {path : String}
    (hpath : st.schema.checkPath a.model path .filter = .ok ()) : st.Divides a path := by
  have hfilter (lookup : Lookup) (h : lookup.validate st.schema = .ok ())
      (hsorts : lookup.Sorts st) : st.Evaluable (a.filter path lookup) := by
    refine evaluable_restrict ha ?_ ?_
    · rw [Predicate.validate, hpath]
      exact h
    · rw [Predicate.Sorts]
      exact hsorts
  have hexclude (lookup : Lookup) (h : lookup.validate st.schema = .ok ())
      (hsorts : lookup.Sorts st) : st.Evaluable (a.exclude path lookup) := by
    refine evaluable_restrict ha ?_ ?_
    · rw [Predicate.validate, Predicate.validate, hpath]
      exact h
    · rw [Predicate.Sorts, Predicate.Sorts]
      exact hsorts
  have hplain (lookup : Lookup) (h : ∀ set field, lookup ≠ .within set field) :
      st.Evaluable (a.filter path lookup) :=
    hfilter lookup (validate_lookup h) (sorts_lookup h)
  have hcompare (c : Comparison) (v : Value) := hplain (.compare c v) nofun
  have hnull (expected : Bool) := hplain (.isNull expected) nofun
  constructor
  case exclude =>
    intro lookup h hsorts
    refine isPartition_of_selects hs hst hkeys (hfilter lookup h hsorts) (hexclude lookup h hsorts)
      ha (fun r => ?_) (fun r hr hr' => ?_)
    · rw [selects_filter, selects_exclude]
      tauto
    · rw [selects_filter] at hr
      rw [selects_exclude] at hr'
      exact hr'.2 hr.2
  case isNull =>
    refine isPartition_of_selects hs hst hkeys (hnull true) (hnull false) ha
      (fun r => ?_) (fun r hr hr' => ?_)
    · rw [selects_filter, selects_filter, met_isNull_iff]
      tauto
    · rw [selects_filter] at hr
      rw [selects_filter, met_isNull_iff] at hr'
      exact hr'.2 hr.2
  case lte =>
    intro v
    refine isUnion_of_selects hs hst hkeys (hcompare _ v) (hcompare _ v) (hcompare _ v) fun r => ?_
    rw [selects_filter, selects_filter, selects_filter, met_lte_iff, and_or_left]
  case gte =>
    intro v
    refine isUnion_of_selects hs hst hkeys (hcompare _ v) (hcompare _ v) (hcompare _ v) fun r => ?_
    rw [selects_filter, selects_filter, selects_filter, met_gte_iff, and_or_left]
  case oneOf =>
    intro vs
    obtain ⟨rs, hrs, hmem, -⟩ := exists_evaluate_nodup hs hst hkeys (hplain (.oneOf vs) nofun)
    choose found hfound hmemFound _ using fun v =>
      exists_evaluate_nodup hs hst hkeys (hcompare .exact v)
    refine ⟨found, rs, hfound, hrs, fun r => ?_⟩
    simp only [hmem, hmemFound, selects_filter, met_oneOf_iff]
    tauto

end Laws

/-- Books of which no author's name starts with a B, by the descending name of the first author. -/
def booksBesidesB : RecordSet :=
  ((RecordSet.of "Book").exclude "authors.name" (.startsWith "B")).orderBy ["-authors.name"]

end Concordance
