import Mathlib.Algebra.Order.Field.Basic
import Mathlib.Tactic.FieldSimp
import Mathlib.Tactic.Linarith
import Mathlib.Tactic.Ring
import Mathlib.Data.Rat.Cast.Order
import ResourcePool.Binary64

/-! Binary64 numbers as rational ones. A ratio is rounded to a finite number nearest to it, which is the one with an
even significand where two are as near. -/
namespace ResourcePool

/-! ### Rounding to whole numbers -/

section RoundDiv

variable {num den : Nat}

theorem roundDiv_mul_self (n : Nat) (hden : 0 < den) : roundDiv (n * den) den = n := by
  simp [roundDiv, hden]

theorem roundDiv_mul_right (num den : Nat) {c : Nat} (hc : 0 < c) :
    roundDiv (num * c) (den * c) = roundDiv num den := by
  have htwice : 2 * (num % den * c) = 2 * (num % den) * c := (Nat.mul_assoc _ _ _).symm
  simp only [roundDiv, Nat.mul_div_mul_right _ _ hc, Nat.mul_mod_mul_right, htwice, Nat.mul_lt_mul_right hc]

theorem div_le_roundDiv (num den : Nat) : num / den ≤ roundDiv num den := by
  unfold roundDiv
  dsimp only
  split_ifs <;> omega

theorem roundDiv_le (num den : Nat) : roundDiv num den ≤ num / den + 1 := by
  unfold roundDiv
  dsimp only
  split_ifs <;> omega

/-- The rounded quotient by the fraction that its floor leaves. -/
theorem roundDiv_cases (num : Nat) (hden : 0 < den) :
    ∃ f : ℚ, (num : ℚ) / den = (num / den : Nat) + f ∧
      ((0 ≤ f ∧ f < 1 / 2 ∧ roundDiv num den = num / den) ∨
        (1 / 2 < f ∧ f < 1 ∧ roundDiv num den = num / den + 1) ∨
        (f = 1 / 2 ∧ roundDiv num den = num / den + num / den % 2)) := by
  have hpos : (0 : ℚ) < den := by exact_mod_cast hden
  have hsplit : (num : ℚ) / den = (num / den : Nat) + (num % den : Nat) / den := by
    field_simp
    exact_mod_cast (Nat.div_add_mod num den).symm
  have hlt : ((num % den : Nat) : ℚ) < den := by exact_mod_cast Nat.mod_lt num hden
  refine ⟨_, hsplit, ?_⟩
  unfold roundDiv
  dsimp only
  split_ifs with hlow hhigh
  · have hq : (2 : ℚ) * (num % den : Nat) < den := by exact_mod_cast hlow
    refine .inl ⟨by positivity, ?_, rfl⟩
    rw [div_lt_iff₀ hpos]
    linarith
  · have hq : (den : ℚ) < 2 * (num % den : Nat) := by exact_mod_cast hhigh
    refine .inr (.inl ⟨?_, (div_lt_one hpos).mpr hlt, rfl⟩)
    rw [lt_div_iff₀ hpos]
    linarith
  · have hq : (2 : ℚ) * (num % den : Nat) = den := by
      exact_mod_cast show 2 * (num % den) = den by omega
    refine .inr (.inr ⟨?_, rfl⟩)
    rw [div_eq_iff hpos.ne']
    linarith

theorem abs_roundDiv_sub_le (num : Nat) (hden : 0 < den) : |(roundDiv num den : ℚ) - num / den| ≤ 1 / 2 := by
  obtain ⟨f, hf, ⟨hlow, hhigh, hr⟩ | ⟨hlow, hhigh, hr⟩ | ⟨hhalf, hr⟩⟩ := roundDiv_cases num hden
  · rw [hf, hr, abs_le]
    constructor <;> linarith
  · rw [hf, hr, abs_le]
    push_cast
    constructor <;> linarith
  · have hparity : ((num / den % 2 : Nat) : ℚ) ≤ 1 := by
      exact_mod_cast show num / den % 2 ≤ 1 by omega
    have hnonneg : (0 : ℚ) ≤ (num / den % 2 : Nat) := Nat.cast_nonneg _
    rw [hf, hr, abs_le, Nat.cast_add]
    constructor <;> linarith

/-- Only a tie is off by one half, and goes to the even number. -/
theorem even_roundDiv_of_half (hden : 0 < den) (h : 1 / 2 ≤ |(roundDiv num den : ℚ) - num / den|) :
    roundDiv num den % 2 = 0 := by
  obtain ⟨f, hf, ⟨hlow, hhigh, hr⟩ | ⟨hlow, hhigh, hr⟩ | ⟨hhalf, hr⟩⟩ := roundDiv_cases num hden
  · rw [hf, hr, le_abs] at h
    rcases h with h | h <;> linarith
  · rw [hf, hr, le_abs] at h
    push_cast at h
    rcases h with h | h <;> linarith
  · omega

theorem one_le_abs_sub {a b : Nat} (h : a ≠ b) : (1 : ℚ) ≤ |(a : ℚ) - b| := by
  have hint : (1 : ℤ) ≤ |(a : ℤ) - b| := by
    have := abs_pos.mpr (sub_ne_zero.mpr (Nat.cast_injective.ne h : (a : ℤ) ≠ b))
    omega
  exact_mod_cast hint

/-- No whole number is nearer to the quotient than the rounded one. -/
theorem roundDiv_nearest (num : Nat) (hden : 0 < den) (k : Nat) :
    |(roundDiv num den : ℚ) - num / den| ≤ |(k : ℚ) - num / den| := by
  by_cases hk : roundDiv num den = k
  · rw [hk]
  · have hapart := one_le_abs_sub hk
    have herror := abs_roundDiv_sub_le num hden
    have htriangle := abs_sub_le (roundDiv num den : ℚ) (num / den) k
    rw [abs_sub_comm ((num : ℚ) / den)] at htriangle
    linarith

/-- Where another whole number is as near, the rounded one is even. -/
theorem even_roundDiv_of_tie (num : Nat) (hden : 0 < den) (k : Nat) (hk : k ≠ roundDiv num den)
    (h : |(k : ℚ) - num / den| = |(roundDiv num den : ℚ) - num / den|) : roundDiv num den % 2 = 0 := by
  have hapart := one_le_abs_sub hk.symm
  have htriangle := abs_sub_le (roundDiv num den : ℚ) (num / den) k
  rw [abs_sub_comm ((num : ℚ) / den), h] at htriangle
  exact even_roundDiv_of_half hden (by linarith)

end RoundDiv


namespace Binary64

variable {x y : Binary64} {num den : Nat}

/-! ### Bits and values -/

theorem log2_one : one.log2 = 1074 := by
  unfold one
  -- the power is far too large to be evaluated
  generalize 1074 = k
  exact Nat.log2_two_pow

theorem one_eq : one = 2 ^ one.log2 := by
  unfold one
  generalize 1074 = k
  rw [Nat.pow_eq, Nat.log2_two_pow]

theorem one_pos : 0 < one := by
  rw [one_eq]
  exact Nat.two_pow_pos _

/-- The number that finite bits stand for. -/
def toRat (x : Binary64) : ℚ :=
  (if x.isNegative then -(x.units : ℚ) else x.units) / one

theorem toRat_of_not_isNegative (h : x.isNegative = false) : x.toRat = x.units / one := by
  unfold toRat
  rw [h]
  rfl

/-- The value of a number whose units are those of a fraction. -/
theorem toRat_of_units {a c : Nat} (hsign : x.isNegative = false) (hc : c ≠ 0) (h : x.units * c = a * one) :
    x.toRat = a / c := by
  have hone : (one : ℚ) ≠ 0 := Nat.cast_ne_zero.mpr (Nat.ne_of_gt one_pos)
  rw [toRat_of_not_isNegative hsign, div_eq_div_iff hone (Nat.cast_ne_zero.mpr hc)]
  exact_mod_cast h

theorem significand_lt (x : Binary64) : x.significand < 2 ^ 53 := by
  unfold significand
  have := Nat.mod_lt x.magnitudeBits (Nat.two_pow_pos 52)
  dsimp only [Nat.pow_eq] at *
  split_ifs <;> omega

/-- The fields of bits that stand `k` exponents above a significand up to `2 ^ 53`, which itself carries into the
exponent. -/
theorem fields_of_magnitudeBits {k r : Nat} (hx : x.magnitudeBits = k * 2 ^ 52 + r) (hr : r ≤ 2 ^ 53)
    (hk : k = 0 ∨ 2 ^ 52 ≤ r) :
    (x.significand = r ∧ x.scale = k) ∨ (r = 2 ^ 53 ∧ x.significand = 2 ^ 52 ∧ x.scale = k + 1) := by
  unfold significand scale
  dsimp only [Nat.pow_eq] at *
  split_ifs <;> omega

theorem units_of_magnitudeBits {k r : Nat} (hx : x.magnitudeBits = k * 2 ^ 52 + r) (hr : r ≤ 2 ^ 53)
    (hk : k = 0 ∨ 2 ^ 52 ≤ r) : x.units = r * 2 ^ k := by
  unfold units
  rcases fields_of_magnitudeBits hx hr hk with ⟨hsig, hscale⟩ | ⟨rfl, hsig, hscale⟩
  · rw [hsig, hscale, Nat.pow_eq]
  · rw [hsig, hscale, Nat.pow_eq]
    ring

theorem magnitudeBits_ofNat {n : Nat} (h : n < 2 ^ 63) : (⟨UInt64.ofNat n⟩ : Binary64).magnitudeBits = n := by
  unfold magnitudeBits signBit
  dsimp only [Nat.pow_eq]
  rw [UInt64.toNat_ofNat_of_lt' (h.trans (by decide)), Nat.mod_eq_of_lt h]

theorem isNegative_ofNat {n : Nat} (h : n < 2 ^ 63) : (⟨UInt64.ofNat n⟩ : Binary64).isNegative = false := by
  unfold isNegative signBit
  dsimp only [Nat.pow_eq]
  rw [UInt64.toNat_ofNat_of_lt' (h.trans (by decide)), decide_eq_false_iff_not]
  omega

/-! ### Rounding to the nearest number -/

/-- The power of two, counted in units, that a ratio of units is rounded at. -/
def gridOf (num den : Nat) : Nat :=
  (num / den).log2 - 52

theorem lt_two_pow_gridOf (num den : Nat) : num / den < 2 ^ (53 + gridOf num den) := by
  unfold gridOf
  refine Nat.lt_log2_self.trans_le (Nat.pow_le_pow_right (by decide) ?_)
  omega

theorem two_pow_gridOf_le (h : gridOf num den ≠ 0) : 2 ^ (52 + gridOf num den) ≤ num / den := by
  unfold gridOf at *
  have hne : num / den ≠ 0 := by
    intro hzero
    rw [hzero] at h
    exact h (by decide)
  refine le_trans (Nat.pow_le_pow_right (by decide) ?_) (Nat.log2_self_le hne)
  omega

theorem nearestBits_eq (num den : Nat) : nearestBits num den =
    min (gridOf num den * 2 ^ 52 + roundDiv num (den * 2 ^ gridOf num den)) infinityBits :=
  rfl

/-- At its grid a ratio has a significand that fits. -/
theorem roundDiv_gridOf_le (num den : Nat) : roundDiv num (den * 2 ^ gridOf num den) ≤ 2 ^ 53 := by
  have hlt : num / (den * 2 ^ gridOf num den) < 2 ^ 53 := by
    rw [← Nat.div_div_eq_div_mul, Nat.div_lt_iff_lt_mul (Nat.two_pow_pos _), ← Nat.pow_add]
    exact lt_two_pow_gridOf num den
  exact (roundDiv_le _ _).trans hlt

theorem le_roundDiv_gridOf (num den : Nat) :
    gridOf num den = 0 ∨ 2 ^ 52 ≤ roundDiv num (den * 2 ^ gridOf num den) := by
  by_cases hgrid : gridOf num den = 0
  · exact .inl hgrid
  · refine .inr (le_trans ?_ (div_le_roundDiv _ _))
    rw [← Nat.div_div_eq_div_mul, Nat.le_div_iff_mul_le (Nat.two_pow_pos _), ← Nat.pow_add]
    exact two_pow_gridOf_le hgrid

theorem nearestBits_lt (num den : Nat) : nearestBits num den < 2 ^ 63 :=
  lt_of_le_of_lt (Nat.min_le_right _ _) (by decide)

/-- Bits of a rounded ratio, as long as it is not beyond the largest finite number. -/
theorem magnitudeBits_ofRatio (h : (ofRatio num den).isFinite = true) : (ofRatio num den).magnitudeBits =
    gridOf (num * one) den * 2 ^ 52 + roundDiv (num * one) (den * 2 ^ gridOf (num * one) den) := by
  have hbits : (ofRatio num den).magnitudeBits = nearestBits (num * one) den :=
    magnitudeBits_ofNat (nearestBits_lt _ _)
  have hlt := of_decide_eq_true h
  rw [hbits, nearestBits_eq] at hlt
  rw [hbits, nearestBits_eq]
  omega

theorem units_ofRatio (h : (ofRatio num den).isFinite = true) : (ofRatio num den).units =
    roundDiv (num * one) (den * 2 ^ gridOf (num * one) den) * 2 ^ gridOf (num * one) den :=
  units_of_magnitudeBits (magnitudeBits_ofRatio h) (roundDiv_gridOf_le _ _) (le_roundDiv_gridOf _ _)

theorem even_significand_ofRatio (h : (ofRatio num den).isFinite = true)
    (heven : roundDiv (num * one) (den * 2 ^ gridOf (num * one) den) % 2 = 0) :
    (ofRatio num den).significand % 2 = 0 := by
  rcases fields_of_magnitudeBits (magnitudeBits_ofRatio h) (roundDiv_gridOf_le _ _)
    (le_roundDiv_gridOf _ _) with ⟨hsig, -⟩ | ⟨-, hsig, -⟩
  · rw [hsig, heven]
  · rw [hsig]
    decide

/-- Ratios below `2 ^ 64` are far from too large. -/
theorem isFinite_ofRatio (hden : 0 < den) (h : num < 2 ^ 64 * den) : (ofRatio num den).isFinite = true := by
  have hfloor : num * one / den < 2 ^ (64 + one.log2) := by
    rw [Nat.div_lt_iff_lt_mul hden, Nat.pow_add, ← one_eq, Nat.mul_right_comm]
    exact Nat.mul_lt_mul_of_pos_right h one_pos
  have hgrid : gridOf (num * one) den < 1086 + 1 := by
    by_contra hlarge
    have hle : 2 ^ (52 + gridOf (num * one) den) ≤ num * one / den := two_pow_gridOf_le (by omega)
    have hpow := (Nat.pow_lt_pow_iff_right Nat.one_lt_two).mp (hle.trans_lt hfloor)
    rw [log2_one] at hpow
    omega
  have hround := roundDiv_gridOf_le (num * one) den
  have hbits : (ofRatio num den).magnitudeBits = nearestBits (num * one) den :=
    magnitudeBits_ofNat (nearestBits_lt _ _)
  refine decide_eq_true ?_
  rw [hbits, nearestBits_eq]
  unfold infinityBits
  dsimp only [Nat.pow_eq]
  omega

/-- Numbers on a coarser grid than a ratio lie on its grid as well, and those on a finer grid below it. -/
theorem units_cases (y : Binary64) (num : Nat) (hden : 0 < den) :
    (∃ j : Nat, y.units = j * 2 ^ gridOf num den) ∨
      (y.units : ℚ) < 2 ^ 52 * 2 ^ gridOf num den ∧ (2 ^ 52 * 2 ^ gridOf num den : ℚ) ≤ num / den := by
  by_cases hscale : gridOf num den ≤ y.scale
  · refine .inl ⟨y.significand * 2 ^ (y.scale - gridOf num den), ?_⟩
    rw [Nat.mul_assoc, ← Nat.pow_add, Nat.sub_add_cancel hscale]
    rfl
  · have hfiner : y.units < 2 ^ 52 * 2 ^ gridOf num den := calc
      y.units < 2 ^ 53 * 2 ^ y.scale := Nat.mul_lt_mul_of_pos_right y.significand_lt (Nat.two_pow_pos _)
      _ = 2 ^ 52 * 2 ^ (y.scale + 1) := by ring
      _ ≤ 2 ^ 52 * 2 ^ gridOf num den :=
        Nat.mul_le_mul_left _ (Nat.pow_le_pow_right (by decide) (by omega))
    have hfloor : 2 ^ 52 * 2 ^ gridOf num den ≤ num / den := by
      rw [← Nat.pow_add]
      exact two_pow_gridOf_le (by omega)
    refine .inr ⟨by exact_mod_cast hfiner, ?_⟩
    rw [le_div_iff₀ (by exact_mod_cast hden)]
    exact_mod_cast (Nat.le_div_iff_mul_le hden).mp hfloor

theorem abs_mul_sub {p : ℚ} (hp : 0 < p) (a u : ℚ) : |a * p - u| = |a - u / p| * p := by
  rw [← abs_of_pos hp, ← abs_mul, abs_of_pos hp, sub_mul, div_mul_cancel₀ _ hp.ne']

theorem abs_sub_lt_of_below {a b u : ℚ} (hab : a < b) (hbu : b ≤ u) : |b - u| < |a - u| := by
  rw [abs_of_nonpos (by linarith), abs_of_nonpos (by linarith)]
  linarith

/-- A ratio is rounded at its grid. No number has fewer units between it and the ratio, and the significand is even
where another has as few. -/
theorem units_ofRatio_nearest (hden : 0 < den) (h : (ofRatio num den).isFinite = true) (y : Binary64) :
    |((ofRatio num den).units : ℚ) - (num * one : Nat) / den| ≤ |(y.units : ℚ) - (num * one : Nat) / den| ∧
      (y.units ≠ (ofRatio num den).units →
        |(y.units : ℚ) - (num * one : Nat) / den| = |((ofRatio num den).units : ℚ) - (num * one : Nat) / den| →
          roundDiv (num * one) (den * 2 ^ gridOf (num * one) den) % 2 = 0) := by
  rw [units_ofRatio h]
  generalize num * one = n
  have hcases := units_cases y n hden
  generalize gridOf n den = g at *
  have hp : (0 : ℚ) < 2 ^ g := by positivity
  have hgrid : 0 < den * 2 ^ g := Nat.mul_pos hden (Nat.two_pow_pos g)
  have hratio : (n : ℚ) / (den * 2 ^ g : Nat) = n / den / 2 ^ g := by
    push_cast
    rw [div_div]
  have hnearest := roundDiv_nearest n hgrid
  have heven := even_roundDiv_of_tie n hgrid
  rw [hratio] at hnearest heven
  push_cast
  rw [abs_mul_sub hp]
  obtain ⟨j, hj⟩ | ⟨hbelow, habove⟩ := hcases
  · rw [hj]
    push_cast
    rw [abs_mul_sub hp]
    refine ⟨mul_le_mul_of_nonneg_right (hnearest j) hp.le, fun hne htie => heven j ?_ ?_⟩
    · rintro rfl
      exact hne rfl
    · exact mul_right_cancel₀ hp.ne' htie
  · -- the lowest significand at the grid is between the number and the ratio, and so strictly nearer
    have hlt := calc
      |(roundDiv n (den * 2 ^ g) : ℚ) - n / den / 2 ^ g| * 2 ^ g
        ≤ |((2 ^ 52 : Nat) : ℚ) - n / den / 2 ^ g| * 2 ^ g :=
          mul_le_mul_of_nonneg_right (hnearest (2 ^ 52)) hp.le
      _ = |((2 ^ 52 : Nat) : ℚ) * 2 ^ g - n / den| := (abs_mul_sub hp _ _).symm
      _ < |(y.units : ℚ) - n / den| :=
          abs_sub_lt_of_below (by exact_mod_cast hbelow) (by exact_mod_cast habove)
    exact ⟨hlt.le, fun _ htie => absurd htie hlt.ne'⟩

/-- A finite number as near to a rational one as any other, with an even significand where another is as near. -/
structure IsNearest (x : Binary64) (q : ℚ) : Prop where
  finite : x.isFinite = true
  nearest : ∀ y : Binary64, y.isFinite = true → |x.toRat - q| ≤ |y.toRat - q|
  even : ∀ y : Binary64, y.isFinite = true → y.toRat ≠ x.toRat → |y.toRat - q| = |x.toRat - q| →
    x.significand % 2 = 0

theorem toRat_ofRatio (num den : Nat) : (ofRatio num den).toRat = (ofRatio num den).units / one :=
  toRat_of_not_isNegative (isNegative_ofNat (nearestBits_lt _ _))

theorem units_div_one_nonneg (y : Binary64) : (0 : ℚ) ≤ y.units / one :=
  div_nonneg (Nat.cast_nonneg _) (Nat.cast_nonneg _)

/-- A negative number is no nearer to a ratio than its magnitude. -/
theorem abs_units_sub_le (y : Binary64) {q : ℚ} (hq : 0 ≤ q) : |(y.units : ℚ) / one - q| ≤ |y.toRat - q| := by
  have hmag := y.units_div_one_nonneg
  unfold toRat
  split_ifs
  · rw [neg_div, abs_of_nonpos (by linarith : -((y.units : ℚ) / one) - q ≤ 0), abs_le]
    constructor <;> linarith
  · exact le_rfl

/-- Only numbers that are not negative are as near to a ratio as zero. -/
theorem toRat_of_abs_sub_le {q : ℚ} (hq : 0 ≤ q) (h : |y.toRat - q| ≤ |(0 : ℚ) - q|) :
    y.toRat = y.units / one := by
  have hmag := y.units_div_one_nonneg
  unfold toRat at *
  split_ifs at *
  · rw [neg_div] at *
    rw [abs_of_nonpos (by linarith), abs_of_nonpos (by linarith)] at h
    linarith
  · rfl

theorem abs_div_sub {c : ℚ} (hc : 0 < c) (a q : ℚ) : |a / c - q| = |a - q * c| / c := by
  rw [← abs_of_pos hc, ← abs_div, abs_of_pos hc, sub_div, mul_div_cancel_right₀ _ hc.ne']

/-- Ratios are rounded to the nearest finite number, ties to even. -/
theorem isNearest_ofRatio (hden : 0 < den) (h : (ofRatio num den).isFinite = true) :
    (ofRatio num den).IsNearest (num / den) := by
  have hq : (0 : ℚ) ≤ num / den := div_nonneg (Nat.cast_nonneg _) (Nat.cast_nonneg _)
  have hone : (0 : ℚ) < one := Nat.cast_pos.mpr one_pos
  have hscaled : ∀ y : Binary64,
      |(y.units : ℚ) / one - num / den| = |(y.units : ℚ) - (num * one : Nat) / den| / one := by
    intro y
    rw [abs_div_sub hone, Nat.cast_mul, div_mul_eq_mul_div]
  have hnearest : ∀ y : Binary64,
      |(ofRatio num den).toRat - num / den| ≤ |(y.units : ℚ) / one - num / den| := by
    intro y
    rw [toRat_ofRatio, hscaled, hscaled]
    exact div_le_div_of_nonneg_right (units_ofRatio_nearest hden h y).1 hone.le
  refine ⟨h, fun y _ => (hnearest y).trans (abs_units_sub_le y hq), fun y _ hne htie => ?_⟩
  -- at a tie the other number is as near as zero or nearer, so it is not negative and lies on its units
  have hzero := hnearest zero
  rw [show zero.units = 0 from rfl, Nat.cast_zero, zero_div, ← htie] at hzero
  have hpos := toRat_of_abs_sub_le hq hzero
  rw [hpos, toRat_ofRatio, hscaled, hscaled] at htie
  rw [hpos, toRat_ofRatio] at hne
  refine even_significand_ofRatio h ((units_ofRatio_nearest hden h y).2 ?_ ?_)
  · intro hunits
    exact hne (by rw [hunits])
  · exact (div_left_inj' hone.ne').mp htie

namespace IsNearest

variable {q : ℚ}

/-- Rounding does not go past a finite number. -/
theorem toRat_le (h : x.IsNearest q) (hy : y.isFinite = true) (hq : q ≤ y.toRat) : x.toRat ≤ y.toRat := by
  by_contra hlt
  have hle := h.nearest y hy
  rw [abs_of_nonneg (by linarith), abs_of_nonneg (by linarith)] at hle
  linarith

/-- A number past the middle between two is not rounded to the lower one, nor to any below. -/
theorem lt_toRat (h : x.IsNearest q) {z : Binary64} (hz : z.isFinite = true) (hyz : y.toRat < z.toRat)
    (hq : (y.toRat + z.toRat) / 2 < q) : y.toRat < x.toRat := by
  by_contra hle
  have hcloser : |z.toRat - q| < q - x.toRat := abs_lt.mpr ⟨by linarith, by linarith⟩
  have hnear := h.nearest z hz
  rw [abs_of_nonpos (by linarith : x.toRat - q ≤ 0)] at hnear
  linarith

end IsNearest

/-! ### Ratios between one half and one -/

theorem one_eq_mul_of_le {k : Nat} (h : k ≤ one.log2) : one = 2 ^ k * 2 ^ (one.log2 - k) := by
  rw [← Nat.pow_add, Nat.add_sub_cancel' h, ← one_eq]

theorem gridOf_of_half_le (hhalf : den ≤ 2 * num) (hlt : num < den) :
    gridOf (num * one) den = one.log2 - 53 := by
  have hden : 0 < den := by omega
  have hone : one = 2 ^ 1 * 2 ^ (one.log2 - 1) := one_eq_mul_of_le (by rw [log2_one]; decide)
  have hlow : 2 ^ (one.log2 - 1) ≤ num * one / den := by
    rw [Nat.le_div_iff_mul_le hden]
    calc
      2 ^ (one.log2 - 1) * den ≤ 2 ^ (one.log2 - 1) * (2 * num) := Nat.mul_le_mul_left _ hhalf
      _ = num * (2 ^ 1 * 2 ^ (one.log2 - 1)) := by ring
      _ = num * one := by rw [← hone]
  have hhigh : num * one / den < 2 ^ (one.log2 - 1 + 1) := by
    rw [Nat.div_lt_iff_lt_mul hden, Nat.add_comm, Nat.pow_add, ← hone, Nat.mul_comm one]
    exact Nat.mul_lt_mul_of_pos_right hlt one_pos
  have hlog := (Nat.log2_eq_iff ((Nat.two_pow_pos _).trans_le hlow).ne').mpr ⟨hlow, hhigh⟩
  unfold gridOf
  rw [hlog, Nat.sub_sub]

/-- Such ratios are rounded to `2 ^ 53` parts of one. -/
theorem toRat_ofRatio_of_half_le (hhalf : den ≤ 2 * num) (hlt : num < den) :
    (ofRatio num den).toRat = roundDiv (num * 2 ^ 53) den / (2 ^ 53 : Nat) := by
  have hfinite : (ofRatio num den).isFinite = true := isFinite_ofRatio (by omega) (by omega)
  have hone : one = 2 ^ 53 * 2 ^ (one.log2 - 53) := one_eq_mul_of_le (by rw [log2_one]; decide)
  have hscaled : num * one = num * 2 ^ 53 * 2 ^ (one.log2 - 53) := by
    rw [Nat.mul_assoc, ← hone]
  have hunits : (ofRatio num den).units = roundDiv (num * 2 ^ 53) den * 2 ^ (one.log2 - 53) := by
    rw [units_ofRatio hfinite, gridOf_of_half_le hhalf hlt, hscaled, roundDiv_mul_right _ _ (Nat.two_pow_pos _)]
  refine toRat_of_units (isNegative_ofNat (nearestBits_lt _ _)) (by decide) ?_
  rw [hunits, Nat.mul_assoc, Nat.mul_comm (2 ^ (one.log2 - 53)), ← hone]

/-! ### Whole numbers and their quotients -/

theorem nearestBits_mul_right (num den : Nat) {c : Nat} (hc : 0 < c) :
    nearestBits (num * c) (den * c) = nearestBits num den := by
  have hgrid : gridOf (num * c) (den * c) = gridOf num den := by
    unfold gridOf
    rw [Nat.mul_div_mul_right _ _ hc]
  rw [nearestBits_eq, nearestBits_eq, hgrid, Nat.mul_right_comm, roundDiv_mul_right _ _ hc]

theorem two_pow_dvd_one {k : Nat} (h : k ≤ 1074) : 2 ^ k ∣ one := by
  rw [← log2_one] at h
  have hdvd := Nat.pow_dvd_pow 2 h
  rwa [← one_eq] at hdvd

theorem gridOf_le {n : Nat} (h : n < 2 ^ 53) : gridOf (n * one) 1 ≤ 1074 := by
  by_contra hlarge
  have hlt : n * one / 1 < 2 ^ (53 + one.log2) := by
    rw [Nat.div_one, Nat.pow_add, ← one_eq]
    exact Nat.mul_lt_mul_of_pos_right h one_pos
  have hle : 2 ^ (52 + gridOf (n * one) 1) ≤ n * one / 1 := two_pow_gridOf_le (by omega)
  have hpow := (Nat.pow_lt_pow_iff_right Nat.one_lt_two).mp (hle.trans_lt hlt)
  rw [log2_one] at hpow
  omega

/-- Whole numbers below `2 ^ 53` are not rounded. -/
theorem units_ofNat {n : Nat} (h : n < 2 ^ 53) : (ofNat n).units = n * one := by
  have hfinite : (ofRatio n 1).isFinite = true := isFinite_ofRatio Nat.one_pos (by omega)
  have hdvd := (two_pow_dvd_one (gridOf_le h)).mul_left n
  unfold ofNat
  rw [units_ofRatio hfinite, Nat.one_mul]
  generalize gridOf (n * one) 1 = g at *
  obtain ⟨c, hc⟩ := hdvd
  rw [hc, Nat.mul_comm _ c, roundDiv_mul_self _ (Nat.two_pow_pos g)]

/-- Quotients of such numbers are rounded once. -/
theorem div_ofNat {a b : Nat} (ha : a < 2 ^ 53) (hb : b < 2 ^ 53) : (ofNat a).div (ofNat b) = ofRatio a b := by
  unfold div
  rw [units_ofNat ha, units_ofNat hb]
  unfold ofRatio
  rw [nearestBits_mul_right _ _ one_pos]

theorem exceeds_iff (hx : x.toRat = x.units / one) (hy : y.toRat = y.units / one) :
    x.exceeds y = true ↔ y.toRat < x.toRat := by
  have hone : (0 : ℚ) < one := Nat.cast_pos.mpr one_pos
  rw [hx, hy, div_lt_div_iff_of_pos_right hone, Nat.cast_lt]
  exact decide_eq_true_iff

end Binary64

end ResourcePool
