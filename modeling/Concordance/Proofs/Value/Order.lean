import Concordance.Proofs.Double.Integer
import Concordance.Proofs.Sort

/-!
# Where the order of values is an order

`Value.order` decides every pair of values, and turning a pair round turns its order round. It is
put together from three orders, though: integers compare as integers, floats as they stand
(`Double.standing`), and an integer against a float as the nearest double does, or as equal to a
NaN. Among three values these may disagree. `Misplaced` are the triples where they do:

* an integer, a float, and a smaller integer, when the float is a NaN or is level with both;
* a float, an integer, and a float that stands below the first, when the first is a NaN or not above
  the integer and the other a NaN or not below it;
* a number, a positive NaN, and an integer below the number;
* an integer, a negative NaN, and a number below the integer.

Everywhere else the order is transitive (`misplaced_of_descent`), so it is a total preorder of any
values among which there is no float, or no integer. Sorting depends on that (`sortable_order_iff`).
-/

namespace Concordance

open Double

/-- Dates are ordered by their year, then month, then day. -/
instance : Std.TransCmp Date.compare :=
  inferInstanceAs (Std.TransCmp
    (compareLex (compareOn Date.year) (compareLex (compareOn Date.month) (compareOn Date.day))))

namespace Value

/-- The integers and floats on which the three orders disagree: the first is above the third, though
it is not above the second, nor the second above the third. -/
def Misplaced : Value → Value → Value → Prop
  | int i, float x, int j =>
    j < i ∧ (x.isNaN ∨ Float.ofInt i.toInt == x.toFloat ∧ Float.ofInt j.toInt == x.toFloat)
  | float x, int i, float y =>
    y.standing < x.standing ∧ (x.isNaN ∨ x.toFloat ≤ Float.ofInt i.toInt) ∧
      (y.isNaN ∨ Float.ofInt i.toInt ≤ y.toFloat)
  | float x, float y, int i => (y.isNaN ∧ 0 < y.standing) ∧ Float.ofInt i.toInt < x.toFloat
  | int i, float x, float y => (x.isNaN ∧ x.standing < 0) ∧ y.toFloat < Float.ofInt i.toInt
  | _, _, _ => False

theorem not_misplaced {a b c : Value} (ha : ∀ x, a ≠ float x) (hb : ∀ x, b ≠ float x) :
    ¬Misplaced a b c := by
  unfold Misplaced
  split
  · exact absurd rfl (hb _)
  · exact absurd rfl (ha _)
  · exact absurd rfl (ha _)
  · exact absurd rfl (hb _)
  · exact not_false

/-! ## Numbers -/

/-- The double nearest to an integer. -/
def nearest (i : Int64) : Double := .ofFloat (Float.ofInt i.toInt)

theorem toFloat_nearest (i : Int64) : (nearest i).toFloat = Float.ofInt i.toInt := toFloat_ofFloat _

/-- Where the nearest double of an integer stands. -/
def place (i : Int64) : Int := (nearest i).standing

theorem isNaN_nearest (i : Int64) : (nearest i).isNaN = false :=
  (standing_ofInt (by have := i.le_toInt; have := i.toInt_lt; omega)).1

theorem place_mono {i j : Int64} (h : i ≤ j) : place i ≤ place j :=
  standing_ofInt_mono (by have := i.le_toInt; have := i.toInt_lt; omega)
    (by have := j.le_toInt; have := j.toInt_lt; omega) (Int64.le_iff_toInt_le.mp h)

/-! How an integer compares with a float. -/

section Operators

variable (i : Int64) (x : Double)

theorem ofInt_beq_iff : (Float.ofInt i.toInt == x.toFloat) = true ↔
    x.isNaN = false ∧ place i = x.standing := by
  rw [← toFloat_nearest, beq_iff_standing]
  simp only [isNaN_nearest, true_and, place]

theorem ofInt_le_iff : Float.ofInt i.toInt ≤ x.toFloat ↔
    x.isNaN = false ∧ place i ≤ x.standing := by
  rw [← toFloat_nearest, le_iff_standing]
  simp only [isNaN_nearest, true_and, place]

theorem le_ofInt_iff : x.toFloat ≤ Float.ofInt i.toInt ↔
    x.isNaN = false ∧ x.standing ≤ place i := by
  rw [← toFloat_nearest, le_iff_standing]
  simp only [isNaN_nearest, and_true, place]

theorem ofInt_lt_iff : Float.ofInt i.toInt < x.toFloat ↔
    x.isNaN = false ∧ place i < x.standing := by
  rw [← toFloat_nearest, lt_iff_standing]
  simp only [isNaN_nearest, true_and, place]

theorem lt_ofInt_iff : x.toFloat < Float.ofInt i.toInt ↔
    x.isNaN = false ∧ x.standing < place i := by
  rw [← toFloat_nearest, lt_iff_standing]
  simp only [isNaN_nearest, and_true, place]

end Operators

/-- Where two values do not compare, their ranks are compared. -/
theorem order_eq (a b : Value) : a.order b =
    (a.compare b).getD ((Ord.compare a.typeRank b.typeRank).then (orderWithinRank a b)) := by
  unfold order
  cases a.compare b <;> rfl

theorem order_float_float (x y : Double) :
    (float x).order (float y) = Ord.compare x.standing y.standing := by
  rw [order_eq]
  show (compareFloats x.toFloat y.toFloat).getD (orderFloats x y) = _
  by_cases h : x.isNaN = true ∨ y.isNaN = true
  · rw [compareFloats_of_isNaN h]
    refine orderFloats_eq ?_
    rw [isNaN_iff, isNaN_iff] at h
    omega
  · obtain ⟨hx, hy⟩ := not_or.mp h
    rw [compareFloats_eq (Bool.eq_false_iff.mpr hx) (Bool.eq_false_iff.mpr hy), Option.getD_some]

theorem order_int_float (i : Int64) (x : Double) : (int i).order (float x) =
    if x.isNaN then .eq else Ord.compare (place i) x.standing := by
  rw [order_eq]
  show (compareFloats (Float.ofInt i.toInt) x.toFloat).getD .eq = _
  rw [← toFloat_nearest]
  by_cases h : x.isNaN = true
  · rw [compareFloats_of_isNaN (.inr h), if_pos h, Option.getD_none]
  · rw [compareFloats_eq (isNaN_nearest i) (Bool.eq_false_iff.mpr h), if_neg h]
    rfl

theorem order_float_int (x : Double) (i : Int64) : (float x).order (int i) =
    if x.isNaN then .eq else Ord.compare x.standing (place i) := by
  rw [order_eq]
  show (compareFloats x.toFloat (Float.ofInt i.toInt)).getD .eq = _
  rw [← toFloat_nearest]
  by_cases h : x.isNaN = true
  · rw [compareFloats_of_isNaN (.inl h), if_pos h, Option.getD_none]
  · rw [compareFloats_eq (Bool.eq_false_iff.mpr h) (isNaN_nearest i), if_neg h]
    rfl

/-! ## Turning a pair round -/

/-- **The order of a pair turned round** is the order turned round. -/
theorem order_swap (a b : Value) : b.order a = (a.order b).swap := by
  cases a <;> cases b
  case bool.bool | int.int | text.text => exact Std.OrientedOrd.eq_swap
  case date.date d e => exact (Std.OrientedCmp.eq_swap : Date.compare e d = _)
  case float.float x y =>
    rw [order_float_float, order_float_float]
    exact Std.OrientedOrd.eq_swap
  case int.float i x =>
    rw [order_int_float, order_float_int]
    split
    · rfl
    · exact Std.OrientedOrd.eq_swap
  case float.int x i =>
    rw [order_int_float, order_float_int]
    split
    · rfl
    · exact Std.OrientedOrd.eq_swap
  -- the types differ, and so do their ranks
  all_goals rfl

/-! ## Descents -/

theorem float_order_float_eq_gt {x y : Double} :
    (float x).order (float y) = .gt ↔ y.standing < x.standing := by
  rw [order_float_float, Int.compare_eq_gt]

theorem int_order_int_eq_gt {i j : Int64} : (int i).order (int j) = .gt ↔ j < i :=
  Std.compare_eq_gt

theorem int_order_float_eq_gt {i : Int64} {x : Double} :
    (int i).order (float x) = .gt ↔ x.isNaN = false ∧ x.standing < place i := by
  rw [order_int_float]
  split <;> simp_all [Int.compare_eq_gt]

theorem float_order_int_eq_gt {x : Double} {i : Int64} :
    (float x).order (int i) = .gt ↔ x.isNaN = false ∧ place i < x.standing := by
  rw [order_float_int]
  split <;> simp_all [Int.compare_eq_gt]

/-- A value that is not above another has no greater rank. -/
theorem typeRank_le {a b : Value} (h : a.order b ≠ .gt) : a.typeRank ≤ b.typeRank := by
  cases a <;> cases b <;> first | exact absurd rfl h | simp [typeRank]

/-- The values of a descent have one rank. -/
theorem typeRank_eq {a b c : Value} (hab : a.order b ≠ .gt) (hbc : b.order c ≠ .gt)
    (hac : a.order c = .gt) : a.typeRank = b.typeRank ∧ b.typeRank = c.typeRank := by
  have hca : c.order a ≠ .gt := by
    rw [order_swap a c, hac]
    decide
  have := typeRank_le hab
  have := typeRank_le hbc
  have := typeRank_le hca
  omega

/-- **A descent is a misplaced triple.** -/
theorem misplaced_of_descent {a b c : Value} (hab : a.order b ≠ .gt) (hbc : b.order c ≠ .gt)
    (hac : a.order c = .gt) : Misplaced a b c := by
  obtain ⟨hrank, hrank'⟩ := typeRank_eq hab hbc hac
  cases a <;> cases b <;> try (cases hrank; done)
  all_goals cases c <;> try (cases hrank'; done)
  case null.null.null => exact absurd hac (by decide)
  case bool.bool.bool | text.text.text | int.int.int =>
    exact absurd hac (ne_gt_trans Ord.compare hab hbc)
  case date.date.date => exact absurd hac (ne_gt_trans Date.compare hab hbc)
  -- only numbers are left, and each pair of them is ordered by place and standing
  all_goals simp only [ne_eq, int_order_int_eq_gt, int_order_float_eq_gt, float_order_int_eq_gt,
    float_order_float_eq_gt, not_and, Int.not_lt, ← Bool.not_eq_true, isNaN_iff_standing]
    at hab hbc hac
  case int.int.float i j x =>
    have := place_mono (Int64.not_lt.mp hab)
    omega
  case int.float.int i x j =>
    refine ⟨hac, ?_⟩
    have := place_mono (Int64.le_of_lt hac)
    simp only [ofInt_beq_iff, ← Bool.not_eq_true, isNaN_iff_standing]
    omega
  case float.int.int x i j =>
    have := place_mono (Int64.not_lt.mp hbc)
    omega
  case int.float.float i x y =>
    simp only [Misplaced, lt_ofInt_iff, ← Bool.not_eq_true, isNaN_iff_standing]
    omega
  case float.int.float x i y =>
    simp only [Misplaced, le_ofInt_iff, ofInt_le_iff, ← Bool.not_eq_true, isNaN_iff_standing]
    omega
  case float.float.int x y i =>
    simp only [Misplaced, ofInt_lt_iff, ← Bool.not_eq_true, isNaN_iff_standing]
    omega
  case float.float.float x y z => omega

/-- **A misplaced triple is a descent.** -/
theorem descent_of_misplaced {a b c : Value} (h : Misplaced a b c) :
    a.order b ≠ .gt ∧ b.order c ≠ .gt ∧ a.order c = .gt := by
  unfold Misplaced at h
  split at h
  case h_5 => exact h.elim
  -- each pair is ordered by place and standing again
  all_goals simp only [ofInt_beq_iff, ofInt_le_iff, le_ofInt_iff, ofInt_lt_iff, lt_ofInt_iff,
    ← Bool.not_eq_true, isNaN_iff_standing] at h
  all_goals simp only [ne_eq, int_order_int_eq_gt, int_order_float_eq_gt, float_order_int_eq_gt,
    float_order_float_eq_gt, not_and, Int.not_lt, ← Bool.not_eq_true, isNaN_iff_standing]
  case h_1 i x j => exact ⟨by omega, by omega, h.1⟩
  case h_2 x i y => omega
  case h_3 x y i => omega
  case h_4 i x y => omega

/-- **Values can be sorted**, more than a few of them, exactly if none is misplaced. -/
theorem sortable_order_iff {xs : List Value} : Sortable Value.order xs ↔
    xs.length ≤ insertionLimit ∨ ∀ a ∈ xs, ∀ b ∈ xs, ∀ c ∈ xs, ¬Misplaced a b c := by
  refine or_congr Iff.rfl ⟨fun h a ha b hb c hc hmisplaced => ?_, fun h => ⟨?_, ?_⟩⟩
  · obtain ⟨hab, hbc, hac⟩ := descent_of_misplaced hmisplaced
    exact h.trans a ha b hb c hc hab hbc hac
  · exact fun a _ b _ => order_swap a b
  · exact fun a ha b hb c hc hab hbc hac =>
      h a ha b hb c hc (misplaced_of_descent hab hbc hac)

-- the integers below 20 are in order, and so is a NaN with any one of them, but not with two
example : sortBy Value.order
    (float ⟨0x7FF8000000000000⟩ :: (List.range 20).map fun n => int (.ofNat n)) =
      .error .panic := by
  decide +kernel

/-- **The order of values**: turned round with its pair, and transitive but for the misplaced
triples. -/
theorem order_swap_and_descent_iff (a b c : Value) :
    b.order a = (a.order b).swap ∧
      ((a.order b ≠ .gt ∧ b.order c ≠ .gt ∧ a.order c = .gt) ↔ Misplaced a b c) :=
  ⟨order_swap a b, fun h => misplaced_of_descent h.1 h.2.1 h.2.2, descent_of_misplaced⟩

/-- An integer is level with a NaN, and a NaN with a smaller integer; `2 ^ 53 + 1` is level with the
double `2 ^ 53`, and that with the integer. -/
theorem order_descends_through_float :
    ((int 5).order (float ⟨0x7FF8000000000000⟩) ≠ .gt ∧
      (float ⟨0x7FF8000000000000⟩).order (int 3) ≠ .gt ∧ (int 5).order (int 3) = .gt) ∧
    ((int 9007199254740993).order (float (.ofFloat 9007199254740992)) ≠ .gt ∧
      (float (.ofFloat 9007199254740992)).order (int 9007199254740992) ≠ .gt ∧
      (int 9007199254740993).order (int 9007199254740992) = .gt) := by
  decide +kernel

-- a negative NaN is below a number, and an integer level with it need not be
example : (float (.ofFloat 1)).order (int 5) = .lt ∧
    (int 5).order (float ⟨0xFFF8000000000000⟩) = .eq ∧
    (float (.ofFloat 1)).order (float ⟨0xFFF8000000000000⟩) = .gt := by
  decide +kernel

end Value

end Concordance
