import Concordance.Proofs.RecordSet.Base
import Concordance.Proofs.RecordSet.Reading

/-!
# Evaluation selects what a set means

A predicate is compiled before any record is looked at, and subqueries are evaluated then; each
record is decided afterwards. What comes out, if anything does, is the meaning of the set. That is
shown along the syntax of sets, predicates and lookups together: each part of the evaluation that
succeeds agrees with what its part of the syntax means.

A subquery may have an ordering. It rearranges the records (`arrange_ok`), and the values of a
subquery do not depend on their order.

* **`selects_of_evaluate`**, `met_of_compile`, `met_of_test`: a set is evaluated to the records that
  it selects, a compiled predicate decides the records that meet it, and the test of a lookup is
  passed by the values that meet that.
-/

namespace Concordance

/-! ## Tests -/

theorem isNull_iff {v : Value} : v.isNull = true ↔ v = .null := by
  cases v <;> simp [Value.isNull]

theorem holds_iff_allows {c : Comparison} {o : Ordering} : c.holds o = true ↔ c.Allows o := by
  cases c <;> cases o <;> simp [Comparison.holds, Comparison.Allows]

section Tests

variable {values : List Value} {has : Value → Prop} (h : ∀ v, v ∈ values ↔ has v)

include h

theorem holds_compare_iff (st : Store) (c : Comparison) (w : Value) :
    Test.holds values (.compare c w) = true ↔ (Lookup.compare c w).Met st has := by
  rw [Test.holds, Lookup.Met, List.any_eq_true]
  refine exists_congr fun v => ?_
  rw [h, Bool.and_eq_true, Option.any_eq_true, Bool.not_eq_true', ← Bool.not_eq_true, isNull_iff]
  refine and_congr_right fun _ => and_congr_right fun _ => exists_congr fun o => ?_
  rw [holds_iff_allows]

theorem holds_oneOf_iff (ws : List Value) :
    Test.holds values (.oneOf ws) = true ↔
      ∃ v, has v ∧ v ≠ .null ∧ ∃ w ∈ ws, v.matchesValue w = true := by
  rw [Test.holds, List.any_eq_true]
  refine exists_congr fun v => ?_
  rw [h, Bool.and_eq_true, Bool.not_eq_true', ← Bool.not_eq_true, isNull_iff, List.any_eq_true]

theorem holds_isNull_iff (st : Store) (expected : Bool) :
    Test.holds values (.isNull expected) = true ↔ (Lookup.isNull expected).Met st has := by
  have hall : values.all Value.isNull = true ↔ ∀ v, has v → v = .null := by
    rw [List.all_eq_true]
    exact forall_congr' fun v => imp_congr (h v) isNull_iff
  rw [Test.holds, Lookup.Met, ← hall, beq_iff_eq, Bool.eq_iff_iff]

theorem holds_startsWith_iff (st : Store) (start : String) :
    Test.holds values (.startsWith start) = true ↔ (Lookup.startsWith start).Met st has := by
  rw [Test.holds, Lookup.Met, List.any_eq_true]
  constructor
  · rintro ⟨v, hv, htest⟩
    cases v with
    | text s => exact ⟨s, (h _).mp hv, List.isPrefixOf_iff_prefix.mp htest⟩
    | null | bool | int | float | date => nomatch htest
  · rintro ⟨s, hs, hprefix⟩
    exact ⟨.text s, (h _).mpr hs, List.isPrefixOf_iff_prefix.mpr hprefix⟩

end Tests

variable {models : List Model} {st : Store}

section Evaluate

variable (hs : Schema.Built models st.schema) (hst : st.Filed)

include hs hst

/-- A set whose condition decides records as it means is evaluated to what it selects. -/
theorem selects_of_condition {model : String} {predicate : Option Predicate}
    {ordering : List OrderKey} {foreign : Option String}
    (hnone : compileCondition st model predicate = .ok none →
      ∀ r, conditionMet st model predicate r)
    (hsome : ∀ c, compileCondition st model predicate = .ok (some c) → ∀ r, st.Holds r →
      ∀ b, c.decides st r = .ok b → (b = true ↔ conditionMet st model predicate r))
    {rs : List Record} (h : RecordSet.evaluate st ⟨model, predicate, ordering, foreign⟩ = .ok rs)
    (r : Record) : r ∈ rs ↔ RecordSet.Selects st ⟨model, predicate, ordering, foreign⟩ r := by
  rw [RecordSet.evaluate] at h
  obtain ⟨_, hvalid, h⟩ := ok_of_bind h
  obtain ⟨condition, hcondition, h⟩ := ok_of_bind h
  obtain ⟨all, hall, h⟩ := ok_of_bind h
  obtain ⟨kept, hkept, h⟩ := ok_of_bind h
  obtain ⟨all', hall', -, hmem⟩ := Store.exists_records hs hst (validate_iff.mp hvalid).1
  obtain rfl : all = all' := Except.ok.inj (hall.symm.trans hall')
  obtain ⟨p, hp, rfl⟩ := eq_filter_of_filterM hkept
  have hmet : ∀ x ∈ all, p x = true ↔ conditionMet st model predicate x := by
    intro x hx
    have hdecided := hp x hx
    cases condition with
    | none => exact iff_of_true (Except.ok.inj hdecided).symm (hnone hcondition x)
    | some c => exact hsome c hcondition x ((hmem x).mp hx).1 _ hdecided
  rw [(arrange_ok h).1.mem_iff, List.mem_filter, RecordSet.Selects, ← and_assoc, ← hmem]
  exact and_congr_right fun hr => hmet r hr

mutual

/-- **A set is evaluated to the records that it selects.** -/
theorem selects_of_evaluate : ∀ (set : RecordSet) (rs : List Record),
    set.evaluate st = .ok rs → ∀ r, r ∈ rs ↔ set.Selects st r
  | ⟨model, none, ordering, foreign⟩, rs, h => by
    refine selects_of_condition hs hst (fun _ r => ?_) (fun c hc => ?_) h
    · rw [conditionMet]
      trivial
    · rw [compileCondition] at hc
      nomatch hc
  | ⟨model, some p, ordering, foreign⟩, rs, h => by
    refine selects_of_condition hs hst (fun hnone => ?_) (fun c hc r hr => ?_) h
    · rw [compileCondition] at hnone
      obtain ⟨_, -, heq⟩ := ok_of_map hnone
      nomatch heq
    · rw [compileCondition] at hc
      obtain ⟨_, hc, heq⟩ := ok_of_map hc
      cases heq
      rw [conditionMet]
      exact met_of_compile model p c hc r hr

/-- **A predicate that is compiled decides each record as it means.** -/
theorem met_of_compile (model : String) : ∀ (p : Predicate) (c : Condition),
    p.compile st model = .ok c → ∀ r, st.Holds r →
      ∀ b, c.decides st r = .ok b → (b = true ↔ p.Met st model r)
  | .field path lookup, c, hc, r, hr, b, hb => by
    rw [Predicate.compile] at hc
    obtain ⟨reading, hreading, hc⟩ := ok_of_bind hc
    obtain ⟨test, htest, hc⟩ := ok_of_bind hc
    cases hc
    rw [Condition.decides] at hb
    obtain ⟨values, hvalues, rfl⟩ := ok_of_map hb
    rw [Predicate.Met]
    exact met_of_test lookup test htest values _ (mem_values_iff hs hst hreading hr hvalues)
  | .and p q, c, hc, r, hr, b, hb => by
    rw [Predicate.compile] at hc
    obtain ⟨cp, hp, hc⟩ := ok_of_bind hc
    obtain ⟨cq, hq, hc⟩ := ok_of_bind hc
    cases hc
    rw [Condition.decides] at hb
    obtain ⟨bp, hbp, hb⟩ := ok_of_bind hb
    rw [Predicate.Met, ← met_of_compile model p cp hp r hr bp hbp]
    cases bp with
    | false =>
      cases hb
      simp
    | true =>
      rw [← met_of_compile model q cq hq r hr b hb]
      simp
  | .or p q, c, hc, r, hr, b, hb => by
    rw [Predicate.compile] at hc
    obtain ⟨cp, hp, hc⟩ := ok_of_bind hc
    obtain ⟨cq, hq, hc⟩ := ok_of_bind hc
    cases hc
    rw [Condition.decides] at hb
    obtain ⟨bp, hbp, hb⟩ := ok_of_bind hb
    rw [Predicate.Met, ← met_of_compile model p cp hp r hr bp hbp]
    cases bp with
    | true =>
      cases hb
      simp
    | false =>
      rw [← met_of_compile model q cq hq r hr b hb]
      simp
  | .not p, c, hc, r, hr, b, hb => by
    rw [Predicate.compile] at hc
    obtain ⟨cp, hp, hc⟩ := ok_of_bind hc
    cases hc
    rw [Condition.decides] at hb
    obtain ⟨bp, hbp, rfl⟩ := ok_of_map hb
    rw [Predicate.Met, ← met_of_compile model p cp hp r hr bp hbp]
    simp

/-- **A lookup that is compiled tests values for what it means.** -/
theorem met_of_test : ∀ (lookup : Lookup) (test : Test), lookup.compile st = .ok test →
    ∀ (values : List Value) (has : Value → Prop), (∀ v, v ∈ values ↔ has v) →
      (test.holds values = true ↔ lookup.Met st has)
  | .compare c w, test, htest, values, has, h => by
    rw [Lookup.compile] at htest
    cases htest
    exact holds_compare_iff h st c w
  | .oneOf ws, test, htest, values, has, h => by
    rw [Lookup.compile] at htest
    cases htest
    rw [Lookup.Met]
    exact holds_oneOf_iff h ws
  | .within set field, test, htest, values, has, h => by
    rw [Lookup.compile] at htest
    obtain ⟨reading, hreading, htest⟩ := ok_of_bind htest
    obtain ⟨rs, hrs, htest⟩ := ok_of_bind htest
    obtain ⟨found, hfound, htest⟩ := ok_of_bind htest
    cases htest
    have hselects := selects_of_evaluate set rs hrs
    have hmem := exists_mem_of_mapM hfound fun r hr values hvalues =>
      mem_values_iff hs hst hreading ((hselects r).mp hr).holds hvalues
    simp only [← List.mem_flatten, hselects] at hmem
    refine (holds_oneOf_iff h found.flatten).trans ?_
    rw [Lookup.Met]
    refine exists_congr fun v => and_congr_right fun _ => and_congr_right fun _ => ?_
    simp only [hmem]
    constructor
    · rintro ⟨w, ⟨r, hr, hw⟩, hmatch⟩
      exact ⟨r, w, hr, hw, hmatch⟩
    · rintro ⟨r, w, hr, hw, hmatch⟩
      exact ⟨w, ⟨r, hr, hw⟩, hmatch⟩
  | .isNull expected, test, htest, values, has, h => by
    rw [Lookup.compile] at htest
    cases htest
    exact holds_isNull_iff h st expected
  | .startsWith start, test, htest, values, has, h => by
    rw [Lookup.compile] at htest
    cases htest
    exact holds_startsWith_iff h st start

end

end Evaluate

end Concordance
