import Concordance.Proofs.Decimal.Binary
import Concordance.Value
import Mathlib

/-!
# The order of double precision numbers

The bits of a number without its sign grow with its magnitude, and a sign turns the order round.
`standing` is the integer that the bits and the sign make: the zeros stand at `0`, the infinities
further out than all finite numbers, and the NaNs further out still, on either side.

* **`compareFloats_eq`**: numbers compare as they stand; a NaN does not compare
  (`compareFloats_of_isNaN`).
* **`orderFloats_eq`**: the order of the bit patterns is that of the standings, except that it tells
  the zeros apart.
-/

namespace Concordance.Double

open Float.Model Float.Model.UnpackedFloat Decimal

/-- The bits of a number without its sign. -/
def magnitude (x : Double) : Nat := x.bits.toNat % 2 ^ 63

/-- Where a number stands among all numbers. -/
def standing (x : Double) : Int := if x.bits.toNat < 2 ^ 63 then magnitude x else -magnitude x

/-- The sign bit of a number. -/
def signOf (x : Double) : Sign := if x.bits.toNat < 2 ^ 63 then .positive else .negative

/-- Whether the bits are those of a NaN. -/
def isNaN (x : Double) : Bool := x.toFloat.isNaN

theorem toFloat_ofFloat (x : Float) : (ofFloat x).toFloat = x := Float.ofBits_toBits x

theorem standing_eq (x : Double) :
    standing x = match signOf x with
      | .positive => (magnitude x : Int)
      | .negative => -magnitude x := by
  unfold standing signOf
  split <;> rfl

/-! ## The parts of a number -/

/-- The fraction field of the bits. -/
theorem toNat_unpackMantissa (b : BitVec Format.binary64.numBits) :
    (unpackMantissa b).toNat = b.toNat % 2 ^ 52 := by
  unfold unpackMantissa
  rw [BitVec.toNat_cast, BitVec.extractLsb_toNat, Nat.shiftRight_zero]
  rfl

/-- The sign field of the bits. -/
theorem ofBitVec_unpackSign (b : BitVec Format.binary64.numBits) :
    Sign.ofBitVec (unpackSign b) = if b.toNat < 2 ^ 63 then .positive else .negative := by
  have hbits : b.toNat < 2 ^ 64 := b.isLt
  have hsign : (unpackSign b).toNat = b.toNat / 2 ^ 63 % 2 := by
    unfold unpackSign
    rw [BitVec.toNat_cast, BitVec.extractLsb_toNat, Nat.shiftRight_eq_div_pow]
    rfl
  have hzero : unpackSign b = 0#1 ↔ b.toNat < 2 ^ 63 := by
    rw [← BitVec.toNat_inj, hsign]
    show _ = 0 ↔ _
    omega
  unfold Sign.ofBitVec
  simp only [hzero]

/-- The fields of a number, from its magnitude. -/
theorem fields_eq (x : Double) :
    let b : BitVec Format.binary64.numBits := x.bits.toBitVec
    (unpackExponent b).toNat = magnitude x / 2 ^ 52 ∧
      (unpackMantissa b).toNat = magnitude x % 2 ^ 52 := by
  intro b
  have hbits : b.toNat = x.bits.toNat := rfl
  rw [toNat_unpackExponent, toNat_unpackMantissa, hbits]
  unfold magnitude
  omega

theorem field_eq_iff (x : Double) :
    let b : BitVec Format.binary64.numBits := x.bits.toBitVec
    (unpackExponent b = -1#_ ↔ magnitude x / 2 ^ 52 = 2047) ∧
      (unpackExponent b = 0#_ ↔ magnitude x / 2 ^ 52 = 0) ∧
      (unpackMantissa b = 0#_ ↔ magnitude x % 2 ^ 52 = 0) := by
  intro b
  obtain ⟨hexponent, hfraction⟩ := fields_eq x
  rw [← hexponent, ← hfraction]
  simp only [← BitVec.toNat_inj]
  exact ⟨Iff.rfl, Iff.rfl, Iff.rfl⟩

/-- A number is taken apart by its bits, also where another NaN stands for it. -/
theorem unpack_toFloat (x : Double) :
    x.toFloat.toModel.unpack = UnpackedFloat.unpack Format.binary64 x.bits.toBitVec := by
  show UnpackedFloat.unpack Format.binary64 (UnpackedFloat.pack Format.binary64
    (UnpackedFloat.unpack Format.binary64 x.bits.toBitVec)) = _
  by_cases hvalid : Format.binary64.Valid x.bits.toBitVec
  · rw [pack_unpack_of_valid hvalid]
  · obtain ⟨hfull, hsome⟩ : @unpackExponent Format.binary64 x.bits.toBitVec = -1#_ ∧
        @unpackMantissa Format.binary64 x.bits.toBitVec ≠ 0#_ := by
      by_contra hnone
      exact hvalid ⟨fun hfull hsome => absurd ⟨hfull, hsome⟩ hnone⟩
    have hunpack : UnpackedFloat.unpack Format.binary64 x.bits.toBitVec = .notANumber := by
      unfold UnpackedFloat.unpack
      simp only [if_pos hfull, if_neg hsome]
    rw [hunpack]
    exact unpack_packedNaN

/-- A number taken apart, by its magnitude: a NaN, an infinity, a zero, or a finite number. -/
theorem unpack_cases (x : Double) :
    2047 * 2 ^ 52 < magnitude x ∧ x.toFloat.toModel.unpack = .notANumber ∨
    magnitude x = 2047 * 2 ^ 52 ∧ x.toFloat.toModel.unpack = .infinity (signOf x) ∨
    magnitude x = 0 ∧ x.toFloat.toModel.unpack = .zero (signOf x) ∨
    (0 < magnitude x ∧ magnitude x < 2047 * 2 ^ 52) ∧ ∃ h, x.toFloat.toModel.unpack =
      .finite (signOf x) (mantissaOf (magnitude x)) (scaleOf (magnitude x) - 1074) h := by
  have hlt : magnitude x < 2 ^ 63 := Nat.mod_lt _ (by decide)
  obtain ⟨hexponent, hfraction⟩ := fields_eq x
  obtain ⟨hfull, hempty, hnone⟩ := field_eq_iff x
  have hsign : Sign.ofBitVec (@unpackSign Format.binary64 x.bits.toBitVec) = signOf x :=
    ofBitVec_unpackSign _
  rw [unpack_toFloat]
  unfold UnpackedFloat.unpack
  simp only [hfull, hempty, hnone, hsign, hexponent, hfraction]
  by_cases hinf : magnitude x / 2 ^ 52 = 2047
  · rw [if_pos hinf]
    by_cases hzero : magnitude x % 2 ^ 52 = 0
    · rw [if_pos hzero]
      exact Or.inr (Or.inl ⟨by omega, rfl⟩)
    · rw [if_neg hzero]
      exact Or.inl ⟨by omega, rfl⟩
  · rw [if_neg hinf]
    refine Or.inr (Or.inr ?_)
    unfold mantissaOf scaleOf
    by_cases hsub : magnitude x / 2 ^ 52 = 0
    · rw [if_pos hsub, if_pos hsub]
      by_cases hzero : magnitude x % 2 ^ 52 = 0
      · rw [dif_pos hzero]
        exact Or.inl ⟨by omega, rfl⟩
      · rw [dif_neg hzero]
        refine Or.inr ⟨by omega, by omega, ?_⟩
        rw [hsub]
        rfl
    · rw [if_neg hsub, if_neg hsub]
      refine Or.inr ⟨by omega, by omega, ?_⟩
      congr 1
      · rw [BitVec.toNat_append, ← Nat.shiftLeft_add_eq_or_of_lt (BitVec.isLt _), hfraction,
          Nat.add_comm]
        rfl
      · show ((magnitude x / 2 ^ 52 : Nat) : Int) - (1023 + 52) = _
        omega

/-! ## NaNs -/

theorem isNaN_iff (x : Double) : x.isNaN = true ↔ 2047 * 2 ^ 52 < magnitude x := by
  show x.toFloat.toModel.unpack.isNaN = true ↔ _
  obtain ⟨h, hx⟩ | ⟨h, hx⟩ | ⟨h, hx⟩ | ⟨h, _, hx⟩ := unpack_cases x <;> rw [hx]
  · exact iff_of_true rfl h
  all_goals exact iff_of_false Bool.false_ne_true (by omega)

theorem unpack_of_isNaN {x : Double} (h : x.isNaN = true) :
    x.toFloat.toModel.unpack = .notANumber := by
  rw [isNaN_iff] at h
  obtain ⟨-, hx⟩ | ⟨k, -⟩ | ⟨k, -⟩ | ⟨k, -⟩ := unpack_cases x
  · exact hx
  all_goals omega

/-- The NaNs stand further out than all numbers. -/
theorem isNaN_iff_standing (x : Double) : x.isNaN = true ↔ 2047 * 2 ^ 52 < (standing x).natAbs := by
  have habs : (standing x).natAbs = magnitude x := by
    unfold standing
    split <;> omega
  rw [isNaN_iff, habs]

/-! ## Comparing -/

/-- A greater magnitude has a greater exponent, or the same exponent and a greater mantissa. -/
theorem scaleOf_lt_or_mantissaOf_lt {n k : Nat} (h : n < k) :
    scaleOf n < scaleOf k ∨ scaleOf n = scaleOf k ∧ mantissaOf n < mantissaOf k := by
  unfold scaleOf mantissaOf
  split <;> split <;> omega

theorem compare_parts (n k : Nat) :
    (compare (scaleOf n - 1074 : Int) (scaleOf k - 1074)).then
      (compare (mantissaOf n) (mantissaOf k)) = compare n k := by
  rcases lt_trichotomy n k with h | rfl | h
  · have hparts := scaleOf_lt_or_mantissaOf_lt h
    rw [Nat.compare_eq_lt.mpr h, Ordering.then_eq_lt, Int.compare_eq_lt, Int.compare_eq_eq,
      Nat.compare_eq_lt]
    omega
  · simp
  · have hparts := scaleOf_lt_or_mantissaOf_lt h
    rw [Nat.compare_eq_gt.mpr h, Ordering.then_eq_gt, Int.compare_eq_gt, Int.compare_eq_eq,
      Nat.compare_eq_gt]
    omega

theorem compare_signs (s t : Sign) : compare s t = compare (s.apply 1) (t.apply 1) := by
  cases s <;> cases t <;> rfl

/-- Numbers taken apart compare as they stand. -/
theorem compare_unpack {x y : Double} (hx : x.isNaN = false) (hy : y.isNaN = false) :
    x.toFloat.toModel.unpack.compare y.toFloat.toModel.unpack =
      some (compare (standing x) (standing y)) := by
  rw [Bool.eq_false_iff, ne_eq, isNaN_iff] at hx hy
  rw [standing_eq, standing_eq]
  obtain ⟨h, -⟩ | ⟨h, hxu⟩ | ⟨h, hxu⟩ | ⟨h, _, hxu⟩ := unpack_cases x
  · exact absurd h hx
  all_goals obtain ⟨k, -⟩ | ⟨k, hyu⟩ | ⟨k, hyu⟩ | ⟨k, _, hyu⟩ := unpack_cases y
  all_goals first | exact absurd k hy | rw [hxu, hyu]
  -- the kinds of the numbers are known; what is left are the signs
  all_goals
    cases signOf x <;> cases signOf y <;>
      simp only [UnpackedFloat.compare, compare_signs, Sign.apply, compare_parts, Nat.compare_swap,
        Option.some.injEq] <;>
      simp only [Nat.compare_eq_ite_lt, Int.compare_eq_ite_lt] <;> grind

theorem compare_notANumber (u : UnpackedFloat) : u.compare .notANumber = none := by
  cases u <;> rfl

theorem lt_iff (x y : Float) :
    x < y ↔ x.toModel.unpack.compare y.toModel.unpack = some .lt := by
  show decide (x.toModel.lt y.toModel = true) = true ↔ _
  rw [decide_eq_true_iff]
  exact beq_iff_eq

theorem beq_iff (x y : Float) :
    (x == y) = true ↔ x.toModel.unpack.compare y.toModel.unpack = some .eq := by
  show (x.toModel.unpack.compare y.toModel.unpack == some .eq) = true ↔ _
  exact beq_iff_eq

theorem le_iff (x y : Float) :
    x ≤ y ↔ ∃ o, x.toModel.unpack.compare y.toModel.unpack = some o ∧ o ≠ .gt := by
  show decide ((x.toModel.unpack.compare y.toModel.unpack).any (·.isLE) = true) = true ↔ _
  rw [decide_eq_true_iff, Option.any_eq_true]
  simp only [Ordering.isLE_iff_ne_gt, ne_eq]

/-- A NaN does not compare. -/
theorem compareFloats_of_isNaN {x y : Double} (h : x.isNaN = true ∨ y.isNaN = true) :
    compareFloats x.toFloat y.toFloat = none := by
  have hnone : x.toFloat.toModel.unpack.compare y.toFloat.toModel.unpack = none ∧
      y.toFloat.toModel.unpack.compare x.toFloat.toModel.unpack = none := by
    rcases h with h | h
    · rw [unpack_of_isNaN h]
      exact ⟨rfl, compare_notANumber _⟩
    · rw [unpack_of_isNaN h]
      exact ⟨compare_notANumber _, rfl⟩
  unfold compareFloats
  simp only [lt_iff, beq_iff, hnone]
  rfl

/-- **Numbers compare as they stand.** -/
theorem compareFloats_eq {x y : Double} (hx : x.isNaN = false) (hy : y.isNaN = false) :
    compareFloats x.toFloat y.toFloat = some (compare (standing x) (standing y)) := by
  unfold compareFloats
  simp only [lt_iff, beq_iff, compare_unpack hx hy, compare_unpack hy hx, Option.some.injEq]
  rw [Int.compare_eq_ite_lt, Int.compare_eq_ite_lt]
  grind

/-! The operators, between two numbers that may be NaNs. -/

section Operators

variable (x y : Double)

theorem compare_unpack_eq : x.toFloat.toModel.unpack.compare y.toFloat.toModel.unpack =
    if x.isNaN = false ∧ y.isNaN = false then some (compare (standing x) (standing y))
    else none := by
  split
  · rename_i h
    exact compare_unpack h.1 h.2
  · rename_i h
    rw [Bool.eq_false_iff, Bool.eq_false_iff, ← not_or, not_not] at h
    rcases h with h | h
    · rw [unpack_of_isNaN h]
      rfl
    · rw [unpack_of_isNaN h, compare_notANumber]

theorem lt_iff_standing : x.toFloat < y.toFloat ↔
    (x.isNaN = false ∧ y.isNaN = false) ∧ standing x < standing y := by
  rw [lt_iff, compare_unpack_eq]
  split <;> simp [*, Int.compare_eq_lt]

theorem le_iff_standing : x.toFloat ≤ y.toFloat ↔
    (x.isNaN = false ∧ y.isNaN = false) ∧ standing x ≤ standing y := by
  rw [le_iff, compare_unpack_eq]
  split <;> simp [*, Int.compare_eq_gt]

theorem beq_iff_standing : (x.toFloat == y.toFloat) = true ↔
    (x.isNaN = false ∧ y.isNaN = false) ∧ standing x = standing y := by
  rw [beq_iff, compare_unpack_eq]
  split <;> simp [*]

end Operators

/-- **Bit patterns are ordered as the numbers stand**, two zeros apart. -/
theorem orderFloats_eq {x y : Double} (h : magnitude x ≠ 0 ∨ magnitude y ≠ 0) :
    orderFloats x y = compare (standing x) (standing y) := by
  have hx := x.bits.toNat_lt
  have hy := y.bits.toNat_lt
  unfold orderFloats bitRank standing magnitude at *
  simp only [Nat.compare_eq_ite_lt, Int.compare_eq_ite_lt, Nat.pow_eq]
  grind

end Concordance.Double
