import Concordance.Proofs.Double.Order

/-!
# Integers as double precision numbers

An integer is moved up to a mantissa of 53 bits, or shifted down to one and rounded to the nearest,
ties to the even mantissa. What is shifted out is remembered in two bits, and the mantissa with
them (`weight`) never falls behind that of a smaller number, so the rounding does not either. A
mantissa that is rounded up to 54 bits has the next exponent: in the bits that is a carry like any
other (`bitsOf`).

* **`standing_ofInt`**: an integer of at most 64 bits becomes a number, and stands where the nearest
  double does.
* **`standing_ofInt_mono`**: the conversion is monotone. It is not injective: above `2 ^ 53`
  neighbours stand together.
-/

namespace Concordance.Double

open Float.Model Float.Model.UnpackedFloat Decimal

/-! ## Rounding a mantissa -/

/-- What the two bits behind a mantissa tell of what was shifted out, from `0` for nothing. -/
def residue (em : ExtendedMantissa) : Nat := 2 * em.roundBit.toNat + em.stickyBit.toNat

/-- A mantissa with the bits behind it, as one number. -/
def weight (em : ExtendedMantissa) : Nat := 4 * em.mantissa + residue em

/-- A mantissa of which nothing has been shifted out. -/
abbrev exactly (m : Nat) : ExtendedMantissa := .ofMantissaAndAccuracy m .exact

theorem residue_lt (em : ExtendedMantissa) : residue em < 4 := by
  have hround := Bool.toNat_le em.roundBit
  have hsticky := Bool.toNat_le em.stickyBit
  unfold residue
  omega

theorem weight_shiftRightOne (em : ExtendedMantissa) :
    weight em.shiftRightOne = 2 * em.mantissa + min (residue em) 1 := by
  obtain ⟨m, round, sticky⟩ := em
  have hparity : (m % 2 != 0).toNat = m % 2 := by
    rcases Nat.mod_two_eq_zero_or_one m with h | h <;> rw [h] <;> rfl
  have hsticky : (round || sticky).toNat = min (2 * round.toNat + sticky.toNat) 1 := by
    cases round <;> cases sticky <;> rfl
  unfold weight residue ExtendedMantissa.shiftRightOne
  dsimp only
  rw [hparity, hsticky]
  omega

theorem shiftRight_succ (em : ExtendedMantissa) (n : Nat) :
    em >>> (n + 1) = (em >>> n).shiftRightOne := rfl

theorem weight_shiftRight_mono {em em' : ExtendedMantissa} (h : weight em ≤ weight em') (n : Nat) :
    weight (em >>> n) ≤ weight (em' >>> n) := by
  induction n with
  | zero => exact h
  | succ n ih =>
    have hlt := residue_lt (em >>> n)
    have hlt' := residue_lt (em' >>> n)
    rw [shiftRight_succ, shiftRight_succ, weight_shiftRightOne, weight_shiftRightOne]
    unfold weight at ih
    omega

theorem mantissa_shiftRight (em : ExtendedMantissa) (n : Nat) :
    (em >>> n).mantissa = em.mantissa / 2 ^ n := by
  induction n with
  | zero => exact (Nat.div_one _).symm
  | succ n ih =>
    rw [shiftRight_succ, ExtendedMantissa.shiftRightOne, ih, Nat.div_div_eq_div_mul, pow_succ]

/-- Shifting zeros out loses nothing. -/
theorem exactly_shiftRight (m n : Nat) : exactly (m * 2 ^ n) >>> n = exactly m := by
  induction n generalizing m with
  | zero =>
    rw [pow_zero, Nat.mul_one]
    rfl
  | succ n ih =>
    rw [shiftRight_succ, pow_succ', ← Nat.mul_assoc, ih]
    unfold ExtendedMantissa.shiftRightOne
    simp [ExtendedMantissa.ofMantissaAndAccuracy]

theorem roundedMantissa_eq (em : ExtendedMantissa) :
    em.roundedMantissa = em.mantissa + (residue em + 1 + em.mantissa % 2) / 4 := by
  obtain ⟨m, round, sticky⟩ := em
  unfold residue ExtendedMantissa.roundedMantissa ExtendedMantissa.accuracy
  cases round <;> cases sticky <;>
    simp only [Accuracy.roundToNearestEven, Bool.toNat_true, Bool.toNat_false] <;> omega

theorem roundedMantissa_bounds (em : ExtendedMantissa) :
    em.mantissa ≤ em.roundedMantissa ∧ em.roundedMantissa ≤ em.mantissa + 1 := by
  have hlt := residue_lt em
  rw [roundedMantissa_eq]
  omega

theorem roundedMantissa_mono {em em' : ExtendedMantissa} (h : weight em ≤ weight em') :
    em.roundedMantissa ≤ em'.roundedMantissa := by
  have hlt := residue_lt em
  have hlt' := residue_lt em'
  unfold weight at h
  rw [roundedMantissa_eq, roundedMantissa_eq]
  rcases Nat.lt_or_eq_of_le (show em.mantissa ≤ em'.mantissa by omega) with hm | hm
  · omega
  · rw [hm] at h ⊢
    omega

/-! ## Rounding a number -/

/-- A shift to the exponent that a mantissa of at least 53 bits should have. -/
theorem shiftToTargetExponent_eq {m : Nat} {e : Int} (hm : 2 ^ 52 ≤ m)
    (he : -1074 ≤ m.log2 + e - 52) :
    shiftToTargetExponent Format.binary64 m e .exact =
      (exactly m >>> (m.log2 - 52), m.log2 + e - 52) := by
  have hlog : 52 ≤ m.log2 := (Nat.le_log2 (by omega)).mpr hm
  have htarget : Format.binary64.targetExponent (totalExponent m e) = m.log2 + e - 52 := by
    unfold Format.targetExponent totalExponent
    show max ((m.log2 + 1 + e : Int) - 53) (-1074) = _
    omega
  have hshift : (m.log2 + e - 52 - e : Int).toNat = m.log2 - 52 := by omega
  unfold shiftToTargetExponent shiftToExponent
  dsimp only
  rw [htarget, hshift]
  congr 1
  omega

/-- The bits of a number with a mantissa of 53 bits. -/
def bitsOf (m : Nat) (e : Int) : Int := (e + 1074) * 2 ^ 52 + m

/-- The mantissa of 53 bits that a number of at least as many is rounded to, or `2 ^ 53`. -/
def rounded (m : Nat) : Nat := (exactly m >>> (m.log2 - 52)).roundedMantissa

theorem rounded_bounds {m : Nat} (hm : 2 ^ 52 ≤ m) : 2 ^ 52 ≤ rounded m ∧ rounded m ≤ 2 ^ 53 := by
  have hlog : 52 ≤ m.log2 := (Nat.le_log2 (by omega)).mpr hm
  have hself := (Nat.log2_eq_iff (by omega : m ≠ 0)).mp rfl
  have hpos : 0 < 2 ^ (m.log2 - 52) := by positivity
  have hlow : 2 ^ 52 ≤ m / 2 ^ (m.log2 - 52) := by
    rw [Nat.le_div_iff_mul_le hpos, ← pow_add, show 52 + (m.log2 - 52) = m.log2 by omega]
    exact hself.1
  have hhigh : m / 2 ^ (m.log2 - 52) < 2 ^ 53 := by
    rw [Nat.div_lt_iff_lt_mul hpos, ← pow_add, show 53 + (m.log2 - 52) = m.log2 + 1 by omega]
    exact hself.2
  have hround := roundedMantissa_bounds (exactly m >>> (m.log2 - 52))
  rw [mantissa_shiftRight] at hround
  change m / 2 ^ (m.log2 - 52) ≤ rounded m ∧ rounded m ≤ m / 2 ^ (m.log2 - 52) + 1 at hround
  omega

/-- **Rounding** gives a mantissa of 53 bits; one that was rounded up to more has the next exponent,
which the bits do not tell from a carry. -/
theorem exists_roundWithAccuracy (s : Sign) {m : Nat} {e : Int} (hm : 2 ^ 52 ≤ m)
    (he : -1074 ≤ m.log2 + e - 52) :
    ∃ m' e' h, roundWithAccuracy Format.binary64 s m e .exact = .finite s m' e' h ∧
      (2 ^ 52 ≤ m' ∧ m' < 2 ^ 53) ∧ (m.log2 + e - 52 ≤ e' ∧ e' ≤ m.log2 + e - 51) ∧
      bitsOf m' e' = bitsOf (rounded m) (m.log2 + e - 52) := by
  obtain ⟨hlow, hhigh⟩ := rounded_bounds hm
  have hround : roundWithAccuracy Format.binary64 s m e .exact =
      let final := shiftToTargetExponent Format.binary64 (rounded m) (m.log2 + e - 52) .exact
      if h : final.1.mantissa = 0 then .zero s
      else .finite s final.1.mantissa final.2 (Nat.pos_of_ne_zero h) := by
    unfold roundWithAccuracy
    rw [shiftToTargetExponent_eq hm he]
    rfl
  have hlog : 52 ≤ (rounded m).log2 := (Nat.le_log2 (by omega)).mpr hlow
  have hfinal := shiftToTargetExponent_eq (e := m.log2 + e - 52) hlow (by omega)
  have hmantissa : (exactly (rounded m) >>> ((rounded m).log2 - 52)).mantissa =
    rounded m / 2 ^ ((rounded m).log2 - 52) := mantissa_shiftRight _ _
  have hcases : rounded m / 2 ^ ((rounded m).log2 - 52) = rounded m ∧ (rounded m).log2 = 52 ∧
        rounded m < 2 ^ 53 ∨
      rounded m / 2 ^ ((rounded m).log2 - 52) = 2 ^ 52 ∧ (rounded m).log2 = 53 ∧
        rounded m = 2 ^ 53 := by
    rcases Nat.lt_or_eq_of_le hhigh with hlt | hcarry
    · have h52 : (rounded m).log2 = 52 := (Nat.log2_eq_iff (by omega)).mpr ⟨hlow, hlt⟩
      exact Or.inl ⟨by rw [h52]; exact Nat.div_one _, h52, hlt⟩
    · have h53 : (rounded m).log2 = 53 := by rw [hcarry]; exact Nat.log2_two_pow
      exact Or.inr ⟨by rw [h53, hcarry]; rfl, h53, hcarry⟩
  rw [hround]
  simp only [hfinal, hmantissa]
  rw [dif_neg (by omega)]
  refine ⟨rounded m / 2 ^ ((rounded m).log2 - 52), _, by omega, rfl, by omega, by omega, ?_⟩
  unfold bitsOf
  omega

/-! ## Packing -/

theorem toNat_packComponents (s : Sign) (E : BitVec 11) (M : BitVec 52) :
    (packComponents Format.binary64 s E M).toNat =
      s.toBitVec.toNat * 2 ^ 63 + E.toNat * 2 ^ 52 + M.toNat := by
  have hE : E.toNat < 2 ^ 11 := E.isLt
  have hM : M.toNat < 2 ^ 52 := M.isLt
  show (s.toBitVec ++ E ++ M).toNat = _
  rw [BitVec.toNat_append, BitVec.toNat_append, ← Nat.shiftLeft_add_eq_or_of_lt hM,
    ← Nat.shiftLeft_add_eq_or_of_lt hE, Nat.shiftLeft_eq, Nat.shiftLeft_eq]
  omega

/-- A finite number that is not too large for the format, with a mantissa of 53 bits, is packed
into the bits that it has. -/
theorem toNat_pack (s : Sign) {m : Nat} {e : Int} {h : 0 < m} (hm : 2 ^ 52 ≤ m ∧ m < 2 ^ 53)
    (he : -1074 ≤ e ∧ e ≤ 971) :
    ((UnpackedFloat.pack Format.binary64 (.finite s m e h)).toNat : Int) =
      s.toBitVec.toNat * 2 ^ 63 + bitsOf m e := by
  have hlog : m.log2 = 52 := (Nat.log2_eq_iff (by omega)).mpr hm
  have hpack : UnpackedFloat.pack Format.binary64 (.finite s m e h) =
      packComponents Format.binary64 s (BitVec.ofNat 11 (e + 1023 + 52).toNat)
        (BitVec.ofNat 52 m) := by
    unfold UnpackedFloat.pack
    rw [hlog]
    exact if_neg (by show ¬2 ^ 11 ≤ (e + 1023 + 52).toNat + 1; omega)
  rw [hpack, toNat_packComponents, BitVec.toNat_ofNat, BitVec.toNat_ofNat]
  unfold bitsOf
  omega

/-- What a number has that a finite number was packed into. -/
theorem parts_of_pack {x : Float} {s : Sign} {m : Nat} {e : Int} {h : 0 < m}
    (hx : x.toModel = .pack (.finite s m e h)) (hm : 2 ^ 52 ≤ m ∧ m < 2 ^ 53)
    (he : -1074 ≤ e ∧ e ≤ 971) :
    (magnitude (ofFloat x) : Int) = bitsOf m e ∧ signOf (ofFloat x) = s := by
  have hbits : ((ofFloat x).bits.toNat : Int) = s.toBitVec.toNat * 2 ^ 63 + bitsOf m e := by
    have hnat : (ofFloat x).bits.toNat =
        (UnpackedFloat.pack Format.binary64 (.finite s m e h)).toNat := by
      show x.toModel.toBits.toNat = _
      rw [hx]
      rfl
    rw [hnat, toNat_pack s hm he]
  unfold magnitude signOf bitsOf at *
  cases s with
  | positive =>
    have hpos : Sign.positive.toBitVec.toNat = 0 := rfl
    rw [hpos] at hbits
    exact ⟨by omega, if_pos (by omega)⟩
  | negative =>
    have hneg : Sign.negative.toBitVec.toNat = 1 := rfl
    rw [hneg] at hbits
    exact ⟨by omega, if_neg (by omega)⟩

/-- **A rounded number**: its sign, and its magnitude. -/
theorem parts_of_round {x : Float} {s : Sign} {m : Nat} {e : Int}
    (hx : x.toModel = .pack (roundWithAccuracy Format.binary64 s m e .exact)) (hm : 2 ^ 52 ≤ m)
    (he : -1074 ≤ m.log2 + e - 52 ∧ m.log2 + e - 52 < 971) :
    (magnitude (ofFloat x) : Int) = bitsOf (rounded m) (m.log2 + e - 52) ∧
      signOf (ofFloat x) = s := by
  obtain ⟨m', e', h, hround, hm', he', hbits⟩ := exists_roundWithAccuracy s hm he.1
  rw [hround] at hx
  rw [← hbits]
  exact parts_of_pack hx hm' (by omega)

theorem log2_mul_two_pow {n : Nat} (h : 0 < n) (k : Nat) : (n * 2 ^ k).log2 = n.log2 + k := by
  have hself := (Nat.log2_eq_iff h.ne').mp rfl
  refine (Nat.log2_eq_iff (Nat.mul_pos h (Nat.two_pow_pos k)).ne').mpr ⟨?_, ?_⟩
  · rw [pow_add]
    exact Nat.mul_le_mul_right _ hself.1
  · rw [Nat.add_right_comm, pow_add]
    exact Nat.mul_lt_mul_of_pos_right hself.2 (Nat.two_pow_pos k)

/-- A mantissa of 53 bits is not changed by rounding. -/
theorem rounded_mul_two_pow {m : Nat} (hm : 2 ^ 52 ≤ m ∧ m < 2 ^ 53) (k : Nat) :
    rounded (m * 2 ^ k) = m := by
  have hlog : m.log2 = 52 := (Nat.log2_eq_iff (by omega)).mpr hm
  have hexact : (exactly m).roundedMantissa = m := by
    rw [roundedMantissa_eq]
    show m + (0 + 1 + m % 2) / 4 = m
    omega
  unfold rounded
  rw [log2_mul_two_pow (by omega), hlog, Nat.add_sub_cancel_left, exactly_shiftRight, hexact]

/-- A number with a mantissa of 53 bits is its own rounding. -/
theorem parts_of_exact {x : Float} {s : Sign} {m : Nat} {e : Int} (k : Nat)
    (hx : x.toModel = .pack (roundWithAccuracy Format.binary64 s (m * 2 ^ k) (e - k) .exact))
    (hm : 2 ^ 52 ≤ m ∧ m < 2 ^ 53) (he : -1074 ≤ e ∧ e < 971) :
    (magnitude (ofFloat x) : Int) = bitsOf m e ∧ signOf (ofFloat x) = s := by
  have hlog : m.log2 = 52 := (Nat.log2_eq_iff (by omega)).mpr hm
  have hlow : 2 ^ 52 ≤ m * 2 ^ k := hm.1.trans (Nat.le_mul_of_pos_right m (Nat.two_pow_pos k))
  have hexponent : ((m * 2 ^ k).log2 + (e - k) - 52 : Int) = e := by
    rw [log2_mul_two_pow (by omega), hlog]
    omega
  have hparts := parts_of_round hx hlow (by omega)
  rwa [hexponent, rounded_mul_two_pow hm] at hparts

/-- A positive number with a mantissa of 53 bits, taken apart. -/
theorem unpack_of_magnitude {x : Double} {m : Nat} {e : Int}
    (hx : (magnitude x : Int) = bitsOf m e ∧ signOf x = .positive)
    (hm : 2 ^ 52 ≤ m ∧ m < 2 ^ 53) (he : -1074 ≤ e ∧ e < 971) :
    ∃ h, x.toFloat.toModel.unpack = .finite .positive m e h := by
  obtain ⟨hx, hsign⟩ := hx
  unfold bitsOf at hx
  have hmantissa : mantissaOf (magnitude x) = m := by
    unfold mantissaOf
    split <;> omega
  have hscale : (scaleOf (magnitude x) - 1074 : Int) = e := by
    unfold scaleOf
    omega
  obtain ⟨h, -⟩ | ⟨h, -⟩ | ⟨h, -⟩ | ⟨-, _, hunpack⟩ := unpack_cases x
  · omega
  · omega
  · omega
  · simp only [hmantissa, hscale, hsign] at hunpack
    exact ⟨_, hunpack⟩

/-! ## Integers -/

/-- A natural number of at most 53 bits, moved up to have 53. -/
theorem raised_bounds {n : Nat} (hpos : 0 < n) (h : n < 2 ^ 53) :
    2 ^ 52 ≤ n * 2 ^ (52 - n.log2) ∧ n * 2 ^ (52 - n.log2) < 2 ^ 53 := by
  have hlt : n.log2 < 53 := (Nat.log2_lt hpos.ne').mpr h
  refine (Nat.log2_eq_iff (Nat.mul_pos hpos (Nat.two_pow_pos _)).ne').mp ?_
  rw [log2_mul_two_pow hpos]
  omega

theorem toModel_ofNat_of_lt {n : Nat} (h : n < 2 ^ 53) : (Float.ofNat n).toModel = .pack
    (UnpackedFloat.mul Format.binary64 n.toUInt64.toFloat.toModel.unpack
      (Float.ofBits 0x3FF0000000000000).toModel.unpack) := by
  show (OfScientific.ofScientific n false 0 : Float).toModel = _
  unfold OfScientific.ofScientific instOfScientificFloat Float.ofScientific
  dsimp only
  rw [dif_pos ⟨h, by decide⟩]
  rfl

theorem toModel_ofNat_of_le {n : Nat} (h : 2 ^ 53 ≤ n) : (Float.ofNat n).toModel = .pack
    (roundWithAccuracy Format.binary64 .positive (n * 2 ^ 53) (-53) .exact) := by
  have hbits : Format.binary64.mantissaBits = 53 := rfl
  have hscale : n <<< 53 * 10 ^ (0 : Int).toNat = n * 2 ^ 53 := by
    rw [Nat.shiftLeft_eq]
    exact Nat.mul_one _
  have hmodel : (Float.ofNat n).toModel = Float.Model.ofScientific n 0 := by
    show (OfScientific.ofScientific n false 0 : Float).toModel = _
    unfold OfScientific.ofScientific instOfScientificFloat Float.ofScientific
    dsimp only
    rw [dif_neg (by omega)]
    rfl
  rw [hmodel]
  unfold Float.Model.ofScientific UnpackedFloat.ofScientific
  rw [dif_neg (by omega), if_neg (by decide),
    if_neg (by show ¬(0 : Int) < -(2 ^ 11 + (n.log2 : Int)); omega), if_pos (by decide)]
  simp only [UnpackedFloat.mul, hbits, hscale]
  rfl

theorem toModel_toFloat {n : Nat} (hpos : 0 < n) (h : n < 2 ^ 53) :
    n.toUInt64.toFloat.toModel = .pack (roundWithAccuracy Format.binary64 .positive
      (n * 2 ^ (52 - n.log2)) (n.log2 - 52) .exact) := by
  have hlog : n.log2 < 53 := (Nat.log2_lt hpos.ne').mpr h
  have hnat : n.toUInt64.toNat = n := Nat.mod_eq_of_lt (by show n < 2 ^ 64; omega)
  have hsign : compare (n : Int) 0 = .gt := Int.compare_eq_gt.mpr (by omega)
  have hround : n.toUInt64.toFloat.toModel =
      .pack (UnpackedFloat.round Format.binary64 .positive n 0) := by
    show Float.Model.pack (UnpackedFloat.normalize Format.binary64 (n.toUInt64.toNat : Int) 0 _) = _
    unfold UnpackedFloat.normalize
    rw [hnat, hsign]
    rfl
  have htarget : Format.binary64.targetExponent (totalExponent n 0) = n.log2 - 52 := by
    unfold Format.targetExponent totalExponent
    show max ((n.log2 + 1 + 0 : Int) - 53) (-1074) = _
    omega
  have hshift : (0 - (n.log2 - 52) : Int).toNat = 52 - n.log2 := by omega
  have hexponent : (0 - (52 - n.log2 : Nat) : Int) = n.log2 - 52 := by omega
  rw [hround]
  unfold UnpackedFloat.round decreaseExponent
  rw [htarget]
  simp only [hshift, hexponent, Nat.shiftLeft_eq]

/-- The magnitude of the double nearest to a positive integer. -/
def nearest (n : Nat) : Int := bitsOf (rounded (n * 2 ^ 53)) (n.log2 - 52)

/-- A positive number of at most 53 bits is converted without loss, and then multiplied by one. -/
theorem parts_ofNat_of_lt {n : Nat} (hpos : 0 < n) (h : n < 2 ^ 53) :
    (magnitude (ofFloat (Float.ofNat n)) : Int) = bitsOf (n * 2 ^ (52 - n.log2)) (n.log2 - 52) ∧
      signOf (ofFloat (Float.ofNat n)) = .positive := by
  have hm := raised_bounds hpos h
  have hlog : n.log2 < 53 := (Nat.log2_lt hpos.ne').mpr h
  have hconverted := toModel_toFloat hpos h
  have hmodel := toModel_ofNat_of_lt h
  generalize n * 2 ^ (52 - n.log2) = m at *
  obtain ⟨_, hfactor⟩ := unpack_of_magnitude
    (parts_of_exact 0 (x := n.toUInt64.toFloat) (by simpa using hconverted) hm (by omega)) hm
    (by omega)
  obtain ⟨_, hone⟩ : ∃ h, (Float.ofBits 0x3FF0000000000000).toModel.unpack =
      .finite .positive (2 ^ 52) (-52) h :=
    unpack_of_magnitude (x := ⟨0x3FF0000000000000⟩) ⟨by decide, rfl⟩ (by decide) (by decide)
  rw [toFloat_ofFloat] at hfactor
  rw [hfactor, hone] at hmodel
  refine parts_of_exact 52 ?_ hm (by omega)
  rw [hmodel]
  rfl

/-- **A positive number of at most 64 bits** is converted to the nearest double. -/
theorem parts_ofNat {n : Nat} (hpos : 0 < n) (h : n < 2 ^ 64) :
    (magnitude (ofFloat (Float.ofNat n)) : Int) = nearest n ∧
      signOf (ofFloat (Float.ofNat n)) = .positive := by
  have hlog : n.log2 < 64 := (Nat.log2_lt hpos.ne').mpr h
  unfold nearest
  rcases Nat.lt_or_ge n (2 ^ 53) with hlt | hge
  · have hlog53 : n.log2 < 53 := (Nat.log2_lt hpos.ne').mpr hlt
    have hkeep : rounded (n * 2 ^ 53) = n * 2 ^ (52 - n.log2) := by
      rw [← rounded_mul_two_pow (raised_bounds hpos hlt) (n.log2 + 1), Nat.mul_assoc, ← pow_add]
      congr 3
      omega
    rw [hkeep]
    exact parts_ofNat_of_lt hpos hlt
  · have hlog53 : (n * 2 ^ 53).log2 = n.log2 + 53 := log2_mul_two_pow hpos 53
    have hparts := parts_of_round (toModel_ofNat_of_le hge) (by omega) (by omega)
    rwa [hlog53, show ((n.log2 + 53 : Nat) + -53 - 52 : Int) = n.log2 - 52 by omega] at hparts

/-- The nearest magnitude grows with the integer. -/
theorem nearest_mono {n k : Nat} (hpos : 0 < n) (h : n ≤ k) : nearest n ≤ nearest k := by
  have hn := rounded_bounds (m := n * 2 ^ 53) (by omega)
  have hk := rounded_bounds (m := k * 2 ^ 53) (by omega)
  have hlog : n.log2 ≤ k.log2 :=
    (Nat.le_log2 (by omega)).mpr ((Nat.log2_self_le hpos.ne').trans h)
  unfold nearest bitsOf
  rcases Nat.lt_or_eq_of_le hlog with hlt | heq
  · omega
  · have hweight : weight (exactly (n * 2 ^ 53)) ≤ weight (exactly (k * 2 ^ 53)) := by
      show 4 * (n * 2 ^ 53) + 0 ≤ 4 * (k * 2 ^ 53) + 0
      omega
    have hround := roundedMantissa_mono (weight_shiftRight_mono hweight (n.log2 + 53 - 52))
    have hrounded : rounded (n * 2 ^ 53) ≤ rounded (k * 2 ^ 53) := by
      unfold rounded
      rw [log2_mul_two_pow hpos, log2_mul_two_pow (by omega), ← heq]
      exact hround
    omega

theorem nearest_bounds {n : Nat} (hpos : 0 < n) (h : n < 2 ^ 64) :
    2 ^ 52 ≤ nearest n ∧ nearest n < 2047 * 2 ^ 52 := by
  have hn := rounded_bounds (m := n * 2 ^ 53) (by omega)
  have hlog : n.log2 < 64 := (Nat.log2_lt hpos.ne').mpr h
  unfold nearest bitsOf
  omega

/-- A number with a mantissa of 53 bits changes its sign only. -/
theorem parts_neg {x : Double} (h : 2 ^ 52 ≤ magnitude x ∧ magnitude x < 2047 * 2 ^ 52) :
    magnitude (ofFloat x.toFloat.neg) = magnitude x ∧
      signOf (ofFloat x.toFloat.neg) = -signOf x := by
  have hm : 2 ^ 52 ≤ mantissaOf (magnitude x) ∧ mantissaOf (magnitude x) < 2 ^ 53 := by
    unfold mantissaOf
    split <;> omega
  have he : -1074 ≤ (scaleOf (magnitude x) - 1074 : Int) ∧
      (scaleOf (magnitude x) - 1074 : Int) ≤ 971 := by
    unfold scaleOf
    omega
  have hbits : bitsOf (mantissaOf (magnitude x)) (scaleOf (magnitude x) - 1074) = magnitude x := by
    unfold bitsOf mantissaOf scaleOf
    split <;> omega
  obtain ⟨k, -⟩ | ⟨k, -⟩ | ⟨k, -⟩ | ⟨-, hpos, hunpack⟩ := unpack_cases x
  · omega
  · omega
  · omega
  · have hneg : x.toFloat.neg.toModel = .pack (.finite (-signOf x) (mantissaOf (magnitude x))
        (scaleOf (magnitude x) - 1074) hpos) := by
      show Float.Model.pack x.toFloat.toModel.unpack.neg = _
      rw [hunpack]
      rfl
    have hparts := parts_of_pack hneg hm he
    rw [hbits] at hparts
    exact ⟨Int.ofNat_inj.mp hparts.1, hparts.2⟩

/-- **An integer of at most 64 bits** is converted to a number that stands where the nearest double
does. -/
theorem standing_ofInt {i : Int} (h : i.natAbs < 2 ^ 64) :
    (ofFloat (Float.ofInt i)).isNaN = false ∧
      standing (ofFloat (Float.ofInt i)) = i.sign * nearest i.natAbs := by
  obtain ⟨n, rfl⟩ | ⟨n, rfl⟩ : (∃ n : Nat, i = n) ∨ ∃ n, i = Int.negSucc n := by
    cases i <;> simp
  · rcases Nat.eq_zero_or_pos n with rfl | hpos
    · rw [Nat.cast_zero, Int.sign_zero, Int.zero_mul]
      decide +kernel
    · obtain ⟨hmagnitude, hsign⟩ := parts_ofNat hpos h
      have hbounds := nearest_bounds hpos h
      have hnumber : (ofFloat (Float.ofInt n)).isNaN = false := by
        rw [Bool.eq_false_iff, ne_eq, isNaN_iff]
        show ¬2047 * 2 ^ 52 < magnitude (ofFloat (Float.ofNat n))
        omega
      refine ⟨hnumber, ?_⟩
      rw [Int.sign_eq_one_of_pos (by omega), Int.one_mul]
      show standing (ofFloat (Float.ofNat n)) = nearest n
      rw [standing_eq, hsign, hmagnitude]
  · obtain ⟨hmagnitude, hsign⟩ := parts_ofNat n.succ_pos h
    have hbounds := nearest_bounds n.succ_pos h
    obtain ⟨hsame, hturned⟩ := parts_neg (x := ofFloat (Float.ofNat n.succ)) (by omega)
    rw [toFloat_ofFloat] at hsame hturned
    have hnumber : (ofFloat (Float.ofInt (Int.negSucc n))).isNaN = false := by
      rw [Bool.eq_false_iff, ne_eq, isNaN_iff]
      show ¬2047 * 2 ^ 52 < magnitude (ofFloat (Float.ofNat n.succ).neg)
      omega
    refine ⟨hnumber, ?_⟩
    rw [Int.sign_eq_neg_one_of_neg (Int.negSucc_lt_zero n), Int.neg_one_mul]
    show standing (ofFloat (Float.ofNat n.succ).neg) = -nearest n.succ
    rw [standing_eq, hturned, hsign, hsame]
    show -(magnitude (ofFloat (Float.ofNat n.succ)) : Int) = _
    rw [hmagnitude]

/-- **The conversion of integers is monotone.** -/
theorem standing_ofInt_mono {i j : Int} (hi : i.natAbs < 2 ^ 64) (hj : j.natAbs < 2 ^ 64)
    (h : i ≤ j) : standing (ofFloat (Float.ofInt i)) ≤ standing (ofFloat (Float.ofInt j)) := by
  rw [(standing_ofInt hi).2, (standing_ofInt hj).2]
  rcases lt_trichotomy i 0 with hneg | rfl | hpos
  · rw [Int.sign_eq_neg_one_of_neg hneg, Int.neg_one_mul]
    have hlow := nearest_bounds (n := i.natAbs) (by omega) hi
    rcases lt_trichotomy j 0 with hneg' | rfl | hpos'
    · rw [Int.sign_eq_neg_one_of_neg hneg', Int.neg_one_mul]
      have := nearest_mono (n := j.natAbs) (k := i.natAbs) (by omega) (by omega)
      omega
    · rw [Int.sign_zero]
      omega
    · rw [Int.sign_eq_one_of_pos hpos']
      have hhigh := nearest_bounds (n := j.natAbs) (by omega) hj
      omega
  · rcases Int.lt_or_eq_of_le h with hpos' | rfl
    · rw [Int.sign_eq_one_of_pos hpos', Int.sign_zero]
      have hhigh := nearest_bounds (n := j.natAbs) (by omega) hj
      omega
    · rfl
  · rw [Int.sign_eq_one_of_pos hpos, Int.sign_eq_one_of_pos (by omega), Int.one_mul, Int.one_mul]
    exact nearest_mono (by omega) (by omega)

end Concordance.Double
