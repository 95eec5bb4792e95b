import Concordance.Proofs.Decimal.Shortest

/-!
# A decimal reads back as one number

The bits of a double precision number without its sign are a number of 63 bits, and the numbers
stand in the order of their bits. Where the interval of one ends, the interval of the next begins
(`lowerEnd_succ`). Neighbours have mantissas of different parity, so their common end belongs to one
of them only, and no decimal reads back as two numbers (`eq_of_readsBack`).

* **`float_ext`**: finite double precision numbers with the same sign that one decimal reads back as
  are equal.
-/

namespace Concordance.Decimal

/-! ## Numbers by their bits -/

/-- The mantissa, from the bits without the sign. -/
def mantissaOf (n : Nat) : Nat := if n / 2 ^ 52 = 0 then n % 2 ^ 52 else n % 2 ^ 52 + 2 ^ 52

/-- The exponent above the least one. -/
def scaleOf (n : Nat) : Nat := n / 2 ^ 52 - 1

/-- Whether the neighbour below is nearer than the one above. -/
def nearOf (n : Nat) : Bool := n % 2 ^ 52 == 0 && 1 < n / 2 ^ 52

/-- Where the interval of a number begins, in quarters of the least unit. -/
def lowerEnd (n : Nat) : ℤ := (4 * mantissaOf n - if nearOf n then 1 else 2) * 2 ^ scaleOf n

/-- Where the interval of a number ends, in quarters of the least unit. -/
def upperEnd (n : Nat) : ℤ := (4 * mantissaOf n + 2) * 2 ^ scaleOf n

theorem mantissaOf_mod_two (n : Nat) : mantissaOf n % 2 = n % 2 := by
  unfold mantissaOf
  split <;> omega

theorem fits (n : Nat) : Fits (mantissaOf n) (nearOf n) where
  lt := by
    unfold mantissaOf
    split <;> omega
  eq_of_near h := by
    unfold nearOf at h
    unfold mantissaOf
    simp only [Bool.and_eq_true, beq_iff_eq, decide_eq_true_eq] at h
    rw [if_neg (by omega), h.1, Nat.zero_add]

/-- **Where the interval of a number ends, the next one begins.** -/
theorem lowerEnd_succ (n : Nat) : lowerEnd (n + 1) = upperEnd n := by
  unfold lowerEnd upperEnd
  by_cases hcarry : n % 2 ^ 52 + 1 < 2 ^ 52
  · -- the next mantissa
    have hscale : scaleOf (n + 1) = scaleOf n := by
      unfold scaleOf
      omega
    have hmantissa : mantissaOf (n + 1) = mantissaOf n + 1 := by
      unfold mantissaOf
      split <;> split <;> omega
    have hnear : nearOf (n + 1) = false := by
      unfold nearOf
      simp only [Bool.and_eq_false_iff, beq_eq_false_iff_ne]
      left
      omega
    rw [hscale, hmantissa, hnear, if_neg Bool.false_ne_true]
    push_cast
    ring
  · have hlast : n % 2 ^ 52 = 2 ^ 52 - 1 := by omega
    by_cases hleast : n / 2 ^ 52 = 0
    · -- the first number of full precision, with the same exponent
      have hn : n = 2 ^ 52 - 1 := by omega
      subst hn
      rfl
    · -- the next exponent
      have hscale : scaleOf (n + 1) = scaleOf n + 1 := by
        unfold scaleOf
        omega
      have hmantissa : mantissaOf n = 2 ^ 53 - 1 := by
        unfold mantissaOf
        rw [if_neg hleast]
        omega
      have hnext : mantissaOf (n + 1) = 2 ^ 52 := by
        unfold mantissaOf
        rw [if_neg (by omega)]
        omega
      have hnear : nearOf (n + 1) = true := by
        unfold nearOf
        simp only [Bool.and_eq_true, beq_iff_eq, decide_eq_true_eq]
        omega
      rw [hscale, hmantissa, hnext, hnear, if_pos rfl, pow_succ]
      push_cast
      ring

theorem lowerEnd_lt_upperEnd (n : Nat) : lowerEnd n < upperEnd n := by
  unfold lowerEnd upperEnd
  refine mul_lt_mul_of_pos_right ?_ (by positivity)
  split <;> omega

theorem upperEnd_strictMono : StrictMono upperEnd :=
  strictMono_nat_of_lt_succ fun n => lowerEnd_succ n ▸ lowerEnd_lt_upperEnd (n + 1)

/-- A decimal reads back as the number with the given bits. -/
def ReadsBackAs (n : Nat) (q : ℚ) : Prop :=
  ReadsBack (mantissaOf n) (scaleOf n - 1074) (nearOf n) q

/-- The interval, in quarters of the least unit. -/
theorem ReadsBackAs.between {n : Nat} {q : ℚ} (h : ReadsBackAs n q) :
    lowerEnd n ≤ q * 2 ^ 1076 ∧ q * 2 ^ 1076 ≤ upperEnd n ∧
      (n % 2 = 1 → lowerEnd n < q * 2 ^ 1076 ∧ q * 2 ^ 1076 < upperEnd n) := by
  have hunit : (2 : ℚ) ^ ((scaleOf n : Int) - 1074 - 2) * 2 ^ 1076 = 2 ^ scaleOf n := by
    rw [← zpow_natCast 2 1076, ← zpow_add₀ (by norm_num), ← zpow_natCast]
    congr 1
    push_cast
    ring
  have hpos : (0 : ℚ) < 2 ^ 1076 := by positivity
  have hlow : (lowerEnd n : ℚ) = (4 * mantissaOf n - if nearOf n then 1 else 2) *
      2 ^ ((scaleOf n : Int) - 1074 - 2) * 2 ^ 1076 := by
    rw [mul_assoc, hunit, lowerEnd]
    push_cast
    cases nearOf n <;> rfl
  have hhigh : (upperEnd n : ℚ) = (4 * mantissaOf n + 2) *
      2 ^ ((scaleOf n : Int) - 1074 - 2) * 2 ^ 1076 := by
    rw [mul_assoc, hunit, upperEnd]
    push_cast
    rfl
  rw [hlow, hhigh]
  refine ⟨mul_le_mul_of_nonneg_right h.low_le hpos.le, mul_le_mul_of_nonneg_right h.le_high hpos.le,
    fun hodd => ?_⟩
  obtain ⟨hbelow, habove⟩ := h.of_odd (by rw [mantissaOf_mod_two]; exact hodd)
  exact ⟨mul_lt_mul_of_pos_right hbelow hpos, mul_lt_mul_of_pos_right habove hpos⟩

/-- No decimal reads back as a number and as a greater one. -/
theorem not_lt_of_readsBack {n k : Nat} {q : ℚ} (hn : ReadsBackAs n q) (hk : ReadsBackAs k q) :
    ¬n < k := by
  intro hlt
  obtain ⟨next, rfl⟩ : ∃ next, k = next + 1 := ⟨k - 1, by omega⟩
  obtain ⟨-, hle, hodd⟩ := hn.between
  obtain ⟨hge, -, hodd'⟩ := hk.between
  rw [lowerEnd_succ] at hge hodd'
  have hends : upperEnd next ≤ upperEnd n := by exact_mod_cast hge.trans hle
  obtain rfl : next = n := by
    have hnot := upperEnd_strictMono.le_iff_le.mp hends
    omega
  -- the decimal is the common end, and one of the two mantissas is odd
  rcases Nat.mod_two_eq_zero_or_one next with heven | hone
  · exact absurd ((hodd' (by omega)).1.trans_le hle) (lt_irrefl _)
  · exact absurd (hge.trans_lt (hodd hone).2) (lt_irrefl _)

/-- **No decimal reads back as two numbers.** -/
theorem eq_of_readsBack {n k : Nat} {q : ℚ} (hn : ReadsBackAs n q) (hk : ReadsBackAs k q) :
    n = k :=
  Nat.le_antisymm (not_lt.mp (not_lt_of_readsBack hk hn)) (not_lt.mp (not_lt_of_readsBack hn hk))

/-! ## Double precision numbers -/

/-- A finite number, taken apart, from its bits. -/
theorem ofBits_double (bits : Nat) (h : bits / 2 ^ 52 % 2 ^ 11 ≠ 2047) :
    Binary.ofBits 11 52 bits = .finite (bits / 2 ^ 63 % 2 == 1) (mantissaOf (bits % 2 ^ 63))
      (scaleOf (bits % 2 ^ 63) - 1074) (nearOf (bits % 2 ^ 63)) := by
  have hfield : bits % 2 ^ 63 / 2 ^ 52 = bits / 2 ^ 52 % 2 ^ 11 := by omega
  have hfraction : bits % 2 ^ 63 % 2 ^ 52 = bits % 2 ^ 52 := by omega
  unfold Binary.ofBits mantissaOf scaleOf nearOf
  simp only [Nat.pow_eq]
  rw [hfield, hfraction, if_neg h]
  split
  · rename_i hzero
    rw [hzero]
    simp
  · rename_i hpos
    congr 1
    omega

open Float.Model in
/-- The exponent field of the bits. -/
theorem toNat_unpackExponent (b : BitVec Format.binary64.numBits) :
    (UnpackedFloat.unpackExponent b).toNat = b.toNat / 2 ^ 52 % 2 ^ 11 := by
  unfold UnpackedFloat.unpackExponent
  rw [BitVec.toNat_cast, BitVec.extractLsb_toNat, Nat.shiftRight_eq_div_pow]
  rfl

/-- The bits of the exponent of a finite number are not all set. -/
theorem exponent_of_isFinite {x : Float} (h : x.isFinite = true) :
    x.toBits.toNat / 2 ^ 52 % 2 ^ 11 ≠ 2047 := by
  intro hfield
  have hexponent := BitVec.eq_of_toNat_eq (y := -1#11)
    ((toNat_unpackExponent x.toModel.toBits.toBitVec).trans hfield)
  unfold Float.isFinite Float.Model.isFinite Float.Model.unpack
    Float.Model.UnpackedFloat.unpack at h
  dsimp only at h
  rw [if_pos hexponent] at h
  split at h <;> nomatch h

/-- A finite number, taken apart. -/
theorem exists_ofFloat {x : Float} (h : x.isFinite = true) :
    ∃ negative mantissa exponent near,
      Binary.ofFloat x = .finite negative mantissa exponent near ∧ Fits mantissa near :=
  ⟨_, _, _, _, ofBits_double _ (exponent_of_isFinite h), fits _⟩

/-- **Finite numbers are told apart by their signs and the decimals that read back as them.** -/
theorem float_ext {x y : Float} (hx : x.isFinite = true) (hy : y.isFinite = true)
    {negative : Bool} {m m' : Nat} {e e' : Int} {near near' : Bool} {q : ℚ}
    (hxb : Binary.ofFloat x = .finite negative m e near)
    (hyb : Binary.ofFloat y = .finite negative m' e' near')
    (hxq : ReadsBack m e near q) (hyq : ReadsBack m' e' near' q) : x = y := by
  unfold Binary.ofFloat at hxb hyb
  rw [ofBits_double _ (exponent_of_isFinite hx)] at hxb
  rw [ofBits_double _ (exponent_of_isFinite hy)] at hyb
  injection hxb with hxsign hxm hxe hxnear
  injection hyb with hysign hym hye hynear
  subst hxm hxe hxnear hym hye hynear
  have hmagnitude := eq_of_readsBack hxq hyq
  have hsign := Bool.eq_iff_iff.mp (hxsign.trans hysign.symm)
  rw [beq_iff_eq, beq_iff_eq] at hsign
  have hxlt := x.toBits.toNat_lt
  have hylt := y.toBits.toNat_lt
  have hbits : x.toBits.toNat = y.toBits.toNat := by omega
  exact Float.toBits_inj.mp (UInt64.toNat_inj.mp hbits)

end Concordance.Decimal
