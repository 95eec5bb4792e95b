import Concordance.Decimal.Shortest
import Mathlib

/-!
# Decimals that read back

The reals that round to a finite floating point number form an interval around it; its ends are
midway to the neighbours and belong to it when the mantissa is even (`ReadsBack`). The search for
the shortest decimal works on natural numbers, quarters of a unit of the mantissa scaled by powers
of two and ten; `inside_iff` says that it decides the interval.

Seventeen digits are always enough: the grid that they form is finer than the interval is wide, so
one of the two grid points around the number lies in it (`exists_readsBackAt`).

* **`readsBack_shortest`**: the shortest decimal reads back.
-/

namespace Concordance.Decimal

/-- The decimal `digits · 10 ^ t`. -/
def decimal (digits : Nat) (t : Int) : ℚ := digits * 10 ^ t

/-- A real rounds to `mantissa · 2 ^ exponent`. -/
structure ReadsBack (mantissa : Nat) (exponent : Int) (nearBelow : Bool) (q : ℚ) : Prop where
  low_le : (4 * mantissa - if nearBelow then 1 else 2) * 2 ^ (exponent - 2) ≤ q
  le_high : q ≤ (4 * mantissa + 2) * 2 ^ (exponent - 2)
  /-- The ends round to the neighbours if the mantissa is odd. -/
  of_odd : mantissa % 2 = 1 →
    (4 * mantissa - if nearBelow then 1 else 2) * 2 ^ (exponent - 2) < q ∧
      q < (4 * mantissa + 2) * 2 ^ (exponent - 2)

theorem readsBack_of_between {mantissa : Nat} {exponent : Int} {nearBelow : Bool} {q : ℚ}
    (hlow : (4 * mantissa - if nearBelow then 1 else 2) * 2 ^ (exponent - 2) < q)
    (hhigh : q < (4 * mantissa + 2) * 2 ^ (exponent - 2)) :
    ReadsBack mantissa exponent nearBelow q :=
  ⟨hlow.le, hhigh.le, fun _ => ⟨hlow, hhigh⟩⟩

/-! ## The grid, in natural numbers -/

/-- The step of the grid, scaled. -/
def gridStep (exponent t : Int) : Nat := Nat.pow 10 t.toNat * Nat.pow 2 (2 - exponent).toNat

/-- A quarter of a unit of the mantissa, scaled. -/
def quarter (exponent t : Int) : Nat := Nat.pow 10 (-t).toNat * Nat.pow 2 (exponent - 2).toNat

/-- The lower end of the interval, in quarters of a unit. -/
def lowEnd (mantissa : Nat) (nearBelow : Bool) : Nat := 4 * mantissa - if nearBelow then 1 else 2

/-- Whether a point of the grid rounds to the number. -/
def inside (mantissa : Nat) (exponent : Int) (nearBelow : Bool) (t : Int) (c : Nat) : Bool :=
  if mantissa % 2 = 0 then
    lowEnd mantissa nearBelow * quarter exponent t ≤ c * gridStep exponent t &&
      c * gridStep exponent t ≤ (4 * mantissa + 2) * quarter exponent t
  else
    lowEnd mantissa nearBelow * quarter exponent t < c * gridStep exponent t &&
      c * gridStep exponent t < (4 * mantissa + 2) * quarter exponent t

/-- The last point of the grid that is not above the number. -/
def gridBelow (mantissa : Nat) (exponent t : Int) : Nat :=
  4 * mantissa * quarter exponent t / gridStep exponent t

theorem readsBackAt_eq (tie : Tie) (mantissa : Nat) (exponent : Int) (nearBelow : Bool) (t : Int) :
    readsBackAt tie mantissa exponent nearBelow t =
      let down := gridBelow mantissa exponent t
      match inside mantissa exponent nearBelow t down,
        inside mantissa exponent nearBelow t (down + 1) with
      | true, false => some down
      | false, true => some (down + 1)
      | false, false => none
      | true, true =>
        let value := 4 * mantissa * quarter exponent t
        let below := value - down * gridStep exponent t
        let above := (down + 1) * gridStep exponent t - value
        if below < above then some down
        else if above < below then some (down + 1)
        else match tie with
          | .up => some (down + 1)
          | .even => some (if down % 2 = 0 then down else down + 1) := rfl

theorem quarter_pos (exponent t : Int) : 0 < quarter exponent t :=
  Nat.mul_pos (Nat.pow_pos (by decide)) (Nat.pow_pos (by decide))

theorem gridStep_pos (exponent t : Int) : 0 < gridStep exponent t :=
  Nat.mul_pos (Nat.pow_pos (by decide)) (Nat.pow_pos (by decide))

/-- A power with a whole exponent, as a quotient of powers of natural numbers. -/
theorem zpow_mul_pow_neg (b : ℚ) (hb : b ≠ 0) (n : Int) :
    b ^ n * b ^ (-n).toNat = b ^ n.toNat := by
  rw [← zpow_natCast b (-n).toNat, ← zpow_natCast b n.toNat, ← zpow_add₀ hb]
  congr 1
  omega

/-- The scale of the grid, in quarters of a unit. -/
theorem gridStep_eq (exponent t : Int) :
    (gridStep exponent t : ℚ) * 2 ^ (exponent - 2) = 10 ^ t * quarter exponent t := by
  have hten := zpow_mul_pow_neg 10 (by norm_num) t
  have htwo := zpow_mul_pow_neg 2 (by norm_num) (exponent - 2)
  have hneg : (-(exponent - 2)).toNat = (2 - exponent).toNat := by omega
  rw [hneg] at htwo
  unfold gridStep quarter
  simp only [Nat.pow_eq]
  push_cast
  rw [← hten, ← htwo]
  ring

section Scale

variable (exponent t : Int) (c a : Nat)

theorem scaled_eq : (c * gridStep exponent t : ℚ) * 2 ^ (exponent - 2) =
    decimal c t * quarter exponent t := by
  rw [mul_assoc, gridStep_eq, decimal, mul_assoc]

theorem quarters_le_iff :
    a * quarter exponent t ≤ c * gridStep exponent t ↔ a * 2 ^ (exponent - 2) ≤ decimal c t := by
  have hq : (0 : ℚ) < quarter exponent t := by exact_mod_cast quarter_pos exponent t
  have htwo : (0 : ℚ) < 2 ^ (exponent - 2) := by positivity
  rw [← Nat.cast_le (α := ℚ), ← mul_le_mul_iff_left₀ htwo]
  push_cast
  rw [scaled_eq, mul_right_comm]
  exact mul_le_mul_iff_left₀ hq

theorem le_quarters_iff :
    c * gridStep exponent t ≤ a * quarter exponent t ↔ decimal c t ≤ a * 2 ^ (exponent - 2) := by
  have hq : (0 : ℚ) < quarter exponent t := by exact_mod_cast quarter_pos exponent t
  have htwo : (0 : ℚ) < 2 ^ (exponent - 2) := by positivity
  rw [← Nat.cast_le (α := ℚ), ← mul_le_mul_iff_left₀ htwo]
  push_cast
  rw [scaled_eq, mul_right_comm]
  exact mul_le_mul_iff_left₀ hq

theorem quarters_lt_iff :
    a * quarter exponent t < c * gridStep exponent t ↔ a * 2 ^ (exponent - 2) < decimal c t := by
  rw [← not_le, ← not_le, le_quarters_iff]

theorem lt_quarters_iff :
    c * gridStep exponent t < a * quarter exponent t ↔ decimal c t < a * 2 ^ (exponent - 2) := by
  rw [← not_le, ← not_le, quarters_le_iff]

end Scale

section Inside

variable {mantissa : Nat} {exponent : Int} {nearBelow : Bool} {t : Int} {c : Nat}

theorem cast_lowEnd (hm : 0 < mantissa) (nearBelow : Bool) :
    (lowEnd mantissa nearBelow : ℚ) = 4 * mantissa - if nearBelow then 1 else 2 := by
  unfold lowEnd
  cases nearBelow with
  | true =>
    rw [if_pos rfl, if_pos rfl, Nat.cast_sub (by omega)]
    push_cast
    rfl
  | false =>
    rw [if_neg Bool.false_ne_true, if_neg Bool.false_ne_true, Nat.cast_sub (by omega)]
    push_cast
    rfl

/-- **The search decides the interval.** -/
theorem inside_iff (hm : 0 < mantissa) :
    inside mantissa exponent nearBelow t c = true ↔
      ReadsBack mantissa exponent nearBelow (decimal c t) := by
  have hhigh : ((4 * mantissa + 2 : Nat) : ℚ) = 4 * mantissa + 2 := by push_cast; rfl
  unfold inside
  split
  · rename_i heven
    rw [Bool.and_eq_true, decide_eq_true_eq, decide_eq_true_eq, quarters_le_iff, le_quarters_iff,
      cast_lowEnd hm, hhigh]
    exact ⟨fun h => ⟨h.1, h.2, fun hodd => absurd hodd (by omega)⟩, fun h => ⟨h.low_le, h.le_high⟩⟩
  · rename_i hodd
    rw [Bool.and_eq_true, decide_eq_true_eq, decide_eq_true_eq, quarters_lt_iff, lt_quarters_iff,
      cast_lowEnd hm, hhigh]
    exact ⟨fun h => ⟨h.1.le, h.2.le, fun _ => h⟩, fun h => h.of_odd (by omega)⟩

/-- What the search finds reads back. -/
theorem readsBack_of_readsBackAt {tie : Tie} (hm : 0 < mantissa)
    (h : readsBackAt tie mantissa exponent nearBelow t = some c) :
    ReadsBack mantissa exponent nearBelow (decimal c t) := by
  rw [← inside_iff hm]
  rw [readsBackAt_eq] at h
  dsimp only at h
  split at h
  · injection h with h
    exact h ▸ ‹inside _ _ _ _ (gridBelow _ _ _) = true›
  · injection h with h
    exact h ▸ ‹inside _ _ _ _ (gridBelow _ _ _ + 1) = true›
  · nomatch h
  · rename_i hdown hup
    split at h
    · injection h with h
      exact h ▸ hdown
    split at h
    · injection h with h
      exact h ▸ hup
    cases tie with
    | up =>
      injection h with h
      exact h ▸ hup
    | even =>
      injection h with h
      split at h
      · exact h ▸ hdown
      · exact h ▸ hup

/-- The search finds something if one of the two grid points around the number lies inside. -/
theorem exists_readsBackAt_of_inside (tie : Tie)
    (h : inside mantissa exponent nearBelow t (gridBelow mantissa exponent t) = true ∨
      inside mantissa exponent nearBelow t (gridBelow mantissa exponent t + 1) = true) :
    ∃ c, readsBackAt tie mantissa exponent nearBelow t = some c := by
  rw [readsBackAt_eq]
  dsimp only
  split
  · exact ⟨_, rfl⟩
  · exact ⟨_, rfl⟩
  · rename_i hdown hup
    rw [hdown, hup] at h
    exact absurd h (by decide)
  · split
    · exact ⟨_, rfl⟩
    split
    · exact ⟨_, rfl⟩
    cases tie <;> exact ⟨_, rfl⟩

/-- The number lies between the two grid points around it. -/
theorem gridBelow_spec (mantissa : Nat) (exponent t : Int) :
    decimal (gridBelow mantissa exponent t) t ≤ mantissa * 2 ^ exponent ∧
      (mantissa : ℚ) * 2 ^ exponent < decimal (gridBelow mantissa exponent t + 1) t := by
  have hunit : ((4 * mantissa : Nat) : ℚ) * 2 ^ (exponent - 2) = mantissa * 2 ^ exponent := by
    rw [zpow_sub₀ (by norm_num)]
    push_cast
    ring
  rw [← hunit]
  constructor
  · rw [← le_quarters_iff]
    exact Nat.div_mul_le_self _ _
  · rw [← quarters_lt_iff]
    exact (Nat.div_lt_iff_lt_mul (gridStep_pos exponent t)).mp (Nat.lt_succ_self _)

theorem decimal_succ (c : Nat) (t : Int) : decimal (c + 1) t = decimal c t + 10 ^ t := by
  unfold decimal
  push_cast
  ring

/-- **A grid that is finer than the interval has a point in it.** -/
theorem exists_readsBackAt (tie : Tie) (hm : 0 < mantissa)
    (hfine : (10 : ℚ) ^ t < 2 * 2 ^ (exponent - 2) ∨
      nearBelow = false ∧ (10 : ℚ) ^ t < 4 * 2 ^ (exponent - 2)) :
    ∃ c, readsBackAt tie mantissa exponent nearBelow t = some c := by
  refine exists_readsBackAt_of_inside tie ?_
  rw [inside_iff hm, inside_iff hm, decimal_succ]
  obtain ⟨hbelow, habove⟩ := gridBelow_spec mantissa exponent t
  rw [decimal_succ] at habove
  have hunit : (2 : ℚ) ^ exponent = 4 * 2 ^ (exponent - 2) := by
    rw [zpow_sub₀ (by norm_num)]
    ring
  rw [hunit] at hbelow habove
  generalize decimal (gridBelow mantissa exponent t) t = down at hbelow habove ⊢
  have hquarter : (0 : ℚ) < 2 ^ (exponent - 2) := by positivity
  obtain hfine | ⟨rfl, hfine⟩ := hfine
  · -- the point above is less than half a unit away
    refine Or.inr (readsBack_of_between ?_ ?_)
    · cases nearBelow with
      | true =>
        rw [if_pos rfl]
        linarith
      | false =>
        rw [if_neg Bool.false_ne_true]
        linarith
    · linarith
  · by_cases hnear : (mantissa : ℚ) * (4 * 2 ^ (exponent - 2)) - down < 2 * 2 ^ (exponent - 2)
    · refine Or.inl (readsBack_of_between ?_ ?_)
      · rw [if_neg Bool.false_ne_true]
        linarith
      · linarith
    · -- the point below is half a unit away or more, so the point above is less
      refine Or.inr (readsBack_of_between ?_ ?_)
      · rw [if_neg Bool.false_ne_true]
        linarith
      · linarith

end Inside

/-! ## Seventeen digits -/

theorem pow_digitCount_le {n : Nat} (hn : 0 < n) : 10 ^ (digitCount n - 1) ≤ n := by
  unfold digitCount
  rw [if_neg (by omega)]
  by_contra hlt
  have hlen := Nat.length_toDigits_pos (b := 10) (n := n)
  by_cases hone : (Nat.toDigits 10 n).length = 1
  · rw [hone] at hlt
    omega
  · have hle := (Nat.length_toDigits_le_iff (b := 10) (n := n) (by decide) (by omega)).mpr
      (not_le.mp hlt)
    omega

theorem lt_pow_digitCount (n : Nat) : n < 10 ^ digitCount n := by
  unfold digitCount
  split
  · omega
  · exact (Nat.length_toDigits_le_iff (by decide) Nat.length_toDigits_pos).mp le_rfl

/-- The leading power of ten is not above the number. -/
theorem pow_leadingExponent_le {num den : Nat} (hnum : 0 < num) (hden : 0 < den) :
    (10 : ℚ) ^ leadingExponent num den ≤ num / den := by
  have hden' : (0 : ℚ) < den := by exact_mod_cast hden
  unfold leadingExponent
  split
  · rename_i hle
    have hpos : 0 < num / den := Nat.div_pos hle hden
    have hcount : 1 ≤ digitCount (num / den) := by
      unfold digitCount
      rw [if_neg (by omega)]
      exact Nat.length_toDigits_pos
    have hpow := pow_digitCount_le hpos
    calc (10 : ℚ) ^ ((digitCount (num / den) : Int) - 1)
        = ((10 ^ (digitCount (num / den) - 1) : Nat) : ℚ) := by
          have hcast :
              (digitCount (num / den) : Int) - 1 = ((digitCount (num / den) - 1 : Nat) : Int) := by
            omega
          rw [hcast, zpow_natCast]
          push_cast
          rfl
      _ ≤ ((num / den : Nat) : ℚ) := by exact_mod_cast hpow
      _ ≤ num / den := Nat.cast_div_le
  · rename_i hlt
    -- the quotient upside down, rounded up, is at most the next power of ten
    generalize hc : (den + num - 1) / num - 1 = c
    have hceil : den ≤ num * ((den + num - 1) / num) := by
      rw [← Nat.ceilDiv_eq_add_pred_div]
      exact le_smul_ceilDiv hnum
    have hone : 0 < (den + num - 1) / num := Nat.div_pos (by omega) hnum
    have hc' : (den + num - 1) / num = c + 1 := by omega
    rw [hc'] at hceil
    have hle : den ≤ num * 10 ^ digitCount c :=
      hceil.trans (Nat.mul_le_mul_left num (lt_pow_digitCount c))
    have hnum' : (0 : ℚ) < num := by exact_mod_cast hnum
    rw [zpow_neg, zpow_natCast, inv_le_comm₀ (by positivity) (div_pos hnum' hden'), inv_div,
      div_le_iff₀' hnum']
    exact_mod_cast hle

/-- The number, as the quotient whose leading power of ten is looked for. -/
theorem quotient_eq (mantissa : Nat) (exponent : Int) :
    ((mantissa * Nat.pow 2 exponent.toNat : Nat) : ℚ) / (Nat.pow 2 (-exponent).toNat : Nat) =
      mantissa * 2 ^ exponent := by
  have htwo := zpow_mul_pow_neg 2 (by norm_num) exponent
  simp only [Nat.pow_eq]
  push_cast
  rw [← htwo, div_eq_iff (by positivity)]
  ring

theorem decimal_trimZeros (fuel digits : Nat) (t : Int) :
    decimal (trimZeros fuel digits t).1 (trimZeros fuel digits t).2 = decimal digits t := by
  induction fuel generalizing digits t with
  | zero => rfl
  | succ fuel ih =>
    unfold trimZeros
    split
    · rename_i htrim
      obtain ⟨-, hmod⟩ := htrim
      obtain ⟨k, rfl⟩ := Nat.dvd_of_mod_eq_zero hmod
      rw [ih, Nat.mul_div_cancel_left k (by decide), decimal, decimal, zpow_add₀ (by norm_num)]
      push_cast
      ring
    · rfl

/-- The mantissas of double precision, as far as the search depends on them. -/
structure Fits (mantissa : Nat) (nearBelow : Bool) : Prop where
  lt : mantissa < 2 ^ 53
  /-- The neighbour below is nearer only below a power of two. -/
  eq_of_near : nearBelow = true → mantissa = 2 ^ 52

/-- **Seventeen digits are always enough.** -/
theorem exists_seventeen (tie : Tie) {mantissa : Nat} {exponent : Int} {nearBelow : Bool}
    (hm : 0 < mantissa) (hfits : Fits mantissa nearBelow) {p : Int}
    (hp : (10 : ℚ) ^ p ≤ mantissa * 2 ^ exponent) :
    ∃ c, readsBackAt tie mantissa exponent nearBelow (p - 16) = some c := by
  refine exists_readsBackAt tie hm ?_
  have hquarter : (0 : ℚ) < 2 ^ (exponent - 2) := by positivity
  have hunit : (2 : ℚ) ^ exponent = 4 * 2 ^ (exponent - 2) := by
    rw [zpow_sub₀ (by norm_num)]
    ring
  have hstep : (10 : ℚ) ^ (p - 16) * 10 ^ 16 ≤ mantissa * (4 * 2 ^ (exponent - 2)) := by
    rw [← hunit, zpow_sub₀ (by norm_num)]
    norm_num
    exact hp
  cases nearBelow with
  | true =>
    have hmantissa : (mantissa : ℚ) = 2 ^ 52 := by exact_mod_cast hfits.eq_of_near rfl
    rw [hmantissa] at hstep
    left
    norm_num at hstep
    linarith
  | false =>
    have hmantissa : (mantissa : ℚ) ≤ 2 ^ 53 := by exact_mod_cast hfits.lt.le
    right
    refine ⟨rfl, ?_⟩
    have hbound := hstep.trans (mul_le_mul_of_nonneg_right hmantissa (by positivity))
    norm_num at hbound
    linarith

/-- **The shortest decimal reads back.** -/
theorem readsBack_shortest (tie : Tie) {mantissa : Nat} {exponent : Int} {nearBelow : Bool}
    (hfits : Fits mantissa nearBelow) :
    ReadsBack mantissa exponent nearBelow (decimal (shortest tie mantissa exponent nearBelow).1
      (shortest tie mantissa exponent nearBelow).2) := by
  unfold shortest
  split
  · rename_i hzero
    subst hzero
    have hplain : nearBelow = false :=
      Bool.eq_false_of_not_eq_true fun h => absurd (hfits.eq_of_near h) (by decide)
    subst hplain
    have hquarter : (0 : ℚ) < 2 ^ (exponent - 2) := by positivity
    refine readsBack_of_between ?_ ?_
    · simpa [decimal] using hquarter
    · simpa [decimal] using hquarter
  · rename_i hne
    have hm : 0 < mantissa := Nat.pos_of_ne_zero hne
    dsimp only
    generalize hp : leadingExponent (mantissa * Nat.pow 2 exponent.toNat)
      (Nat.pow 2 (-exponent).toNat) = p
    have hle : (10 : ℚ) ^ p ≤ mantissa * 2 ^ exponent := by
      rw [← hp, ← quotient_eq]
      exact pow_leadingExponent_le (Nat.mul_pos hm (Nat.pow_pos (by decide)))
        (Nat.pow_pos (by decide))
    obtain ⟨c, hc⟩ := exists_seventeen tie hm hfits hle
    cases hfound : (List.range 17).findSome? fun (n : Nat) =>
        (readsBackAt tie mantissa exponent nearBelow (p - n)).map (·, p - n) with
    | none =>
      have hlast := List.findSome?_eq_none_iff.mp hfound 16 (by decide)
      rw [show p - ((16 : Nat) : Int) = p - 16 from rfl, hc] at hlast
      nomatch hlast
    | some found =>
      obtain ⟨n, -, hn⟩ := List.exists_of_findSome?_eq_some hfound
      obtain ⟨digits, hdigits, rfl⟩ := Option.map_eq_some_iff.mp hn
      dsimp only
      rw [decimal_trimZeros]
      exact readsBack_of_readsBackAt hm hdigits

end Concordance.Decimal
