import Argentum.Core.Json
import Mathlib.Algebra.Order.Floor.Ring
import Mathlib.Tactic.Linarith
import Mathlib.Tactic.FieldSimp

/-! Rounding to the nearest integer and to the nearest double. Both keep the order of
what they round, so a bound on a number is a bound on its double; a double is off by at
most half a unit of its last place. -/
namespace Argentum

section
variable {x y : ℚ} {n : Int}

theorem floor_le_roundEven (x : ℚ) : ⌊x⌋ ≤ roundEven x := by
  unfold roundEven
  split
  · exact le_rfl
  split
  · omega
  split <;> omega

theorem roundEven_le_floor_add_one (x : ℚ) : roundEven x ≤ ⌊x⌋ + 1 := by
  unfold roundEven
  split
  · omega
  split
  · exact le_rfl
  split <;> omega

/-- The nearest integer is off by at most a half. -/
theorem roundEven_near (x : ℚ) : x - 1 / 2 ≤ roundEven x ∧ (roundEven x : ℚ) ≤ x + 1 / 2 := by
  have below := Int.floor_le x
  have above := Int.lt_floor_add_one x
  unfold roundEven
  split
  · constructor <;> linarith
  split
  · push_cast
    constructor <;> linarith
  split
  · constructor <;> linarith
  · push_cast
    constructor <;> linarith

theorem roundEven_mono (less : x ≤ y) : roundEven x ≤ roundEven y := by
  rcases (Int.floor_mono less).lt_or_eq with apart | same
  · have first := roundEven_le_floor_add_one x
    have second := floor_le_roundEven y
    omega
  · have fractions : x - ⌊x⌋ ≤ y - ⌊x⌋ := by linarith
    unfold roundEven
    rw [← same]
    rcases lt_trichotomy (x - ⌊x⌋) (1 / 2) with down | half | up
    · rw [if_pos down]
      exact same ▸ floor_le_roundEven y
    · rcases (half ▸ fractions).eq_or_lt with tie | up
      · rw [half, ← tie]
      · rw [half, if_neg (lt_irrefl _), if_neg (lt_irrefl _), if_neg up.not_gt, if_pos up]
        split <;> omega
    · rw [if_neg (by linarith), if_pos up, if_neg (by linarith), if_pos (by linarith)]

theorem roundEven_intCast (n : Int) : roundEven n = n := by
  rw [roundEven, Int.floor_intCast, sub_self, if_pos (by norm_num)]

theorem le_roundEven (less : (n : ℚ) ≤ x) : n ≤ roundEven x := by
  rw [← roundEven_intCast n]
  exact roundEven_mono less

theorem roundEven_le (less : x ≤ n) : roundEven x ≤ n := by
  rw [← roundEven_intCast n]
  exact roundEven_mono less

/-- The exponent of the last place of the doubles about `x`. -/
def doubleScale (x : ℚ) : Int := max (Int.log 2 x - 52) (-1074)

theorem nearestDouble_eq (x : ℚ) :
    nearestDouble x = roundEven (x / (2 : ℚ) ^ doubleScale x) * (2 : ℚ) ^ doubleScale x := rfl

theorem scale_pos (x : ℚ) : 0 < (2 : ℚ) ^ doubleScale x := zpow_pos (by norm_num) _

/-- A double is off by at most half a unit of its last place. -/
theorem nearestDouble_near (x : ℚ) : x - (2 : ℚ) ^ doubleScale x / 2 ≤ nearestDouble x ∧
    nearestDouble x ≤ x + (2 : ℚ) ^ doubleScale x / 2 := by
  have unit := scale_pos x
  obtain ⟨below, above⟩ := roundEven_near (x / (2 : ℚ) ^ doubleScale x)
  have whole : x / (2 : ℚ) ^ doubleScale x * (2 : ℚ) ^ doubleScale x = x := div_mul_cancel₀ x unit.ne'
  rw [nearestDouble_eq]
  constructor
  · nlinarith
  · nlinarith

/-- A multiple of the last place that is not above `x` is not above its double. -/
theorem le_nearestDouble (less : (n : ℚ) * (2 : ℚ) ^ doubleScale x ≤ x) :
    (n : ℚ) * (2 : ℚ) ^ doubleScale x ≤ nearestDouble x := by
  rw [nearestDouble_eq]
  refine mul_le_mul_of_nonneg_right (Int.cast_le.mpr (le_roundEven ?_)) (scale_pos x).le
  rwa [le_div_iff₀ (scale_pos x)]

theorem nearestDouble_le (less : x ≤ (n : ℚ) * (2 : ℚ) ^ doubleScale x) :
    nearestDouble x ≤ (n : ℚ) * (2 : ℚ) ^ doubleScale x := by
  rw [nearestDouble_eq]
  refine mul_le_mul_of_nonneg_right (Int.cast_le.mpr (roundEven_le ?_)) (scale_pos x).le
  rwa [div_le_iff₀ (scale_pos x)]

theorem nearestDouble_zero : nearestDouble 0 = 0 := by
  rw [nearestDouble_eq, zero_div]
  have zero : roundEven 0 = 0 := by simpa using roundEven_intCast 0
  rw [zero, Int.cast_zero, zero_mul]

theorem nearestDouble_nonneg (positive : 0 ≤ x) : 0 ≤ nearestDouble x := by
  have zero : ((0 : Int) : ℚ) * (2 : ℚ) ^ doubleScale x ≤ x := by simpa using positive
  simpa using le_nearestDouble zero

theorem power_eq {scale log : Int} (less : scale ≤ log) : (2 : ℚ) ^ log =
    ((2 ^ (log - scale).toNat : Int) : ℚ) * (2 : ℚ) ^ scale := by
  rw [Int.cast_pow, Int.cast_ofNat, ← zpow_natCast, ← zpow_add₀ (by norm_num)]
  congr 1
  omega

/-- Rounding to doubles keeps the order. -/
theorem nearestDouble_mono (positive : 0 ≤ x) (less : x ≤ y) : nearestDouble x ≤ nearestDouble y := by
  rcases positive.eq_or_lt with rfl | positive
  · rw [nearestDouble_zero]
    exact nearestDouble_nonneg less
  have scales : doubleScale x ≤ doubleScale y := max_le_max_right _ (by
    have logs := Int.log_mono_right (b := 2) positive less
    omega)
  rcases scales.eq_or_lt with same | apart
  · rw [nearestDouble_eq, nearestDouble_eq, same]
    refine mul_le_mul_of_nonneg_right (Int.cast_le.mpr (roundEven_mono ?_)) (scale_pos y).le
    exact div_le_div_of_nonneg_right less (scale_pos y).le
  · have positive_y := positive.trans_le less
    have log_less : Int.log 2 x + 1 ≤ Int.log 2 y := by
      unfold doubleScale at apart
      omega
    have place : doubleScale y = Int.log 2 y - 52 := by
      unfold doubleScale at apart ⊢
      omega
    -- a power of two stands between them: it is a multiple of the last place of each
    calc nearestDouble x ≤ (2 : ℚ) ^ Int.log 2 y := ?_
      _ ≤ nearestDouble y := ?_
    · rw [power_eq (show doubleScale x ≤ Int.log 2 y by omega)]
      refine nearestDouble_le ?_
      rw [← power_eq (show doubleScale x ≤ Int.log 2 y by omega)]
      calc x ≤ (2 : ℚ) ^ (Int.log 2 x + 1) := (Int.lt_zpow_succ_log_self (b := 2) (by norm_num) x).le
        _ ≤ (2 : ℚ) ^ Int.log 2 y := zpow_le_zpow_right₀ (by norm_num) log_less
    · rw [power_eq (show doubleScale y ≤ Int.log 2 y by omega)]
      refine le_nearestDouble ?_
      rw [← power_eq (show doubleScale y ≤ Int.log 2 y by omega)]
      exact Int.zpow_log_le_self (by norm_num) positive_y

theorem doubleScale_le {exponent : Int} (positive : 0 < x) (less : x < (2 : ℚ) ^ exponent)
    (normal : -1074 ≤ exponent - 53) : doubleScale x ≤ exponent - 53 := by
  have log := (Int.lt_zpow_iff_log_lt (b := 2) (by norm_num) positive).mp less
  unfold doubleScale
  omega

/-- A whole number is a double where the last place is not above one. -/
theorem nearestDouble_le_intCast (fine : doubleScale x ≤ 0) (less : x ≤ n) : nearestDouble x ≤ n := by
  have whole : (n : ℚ) = ((n * 2 ^ (-doubleScale x).toNat : Int) : ℚ) * (2 : ℚ) ^ doubleScale x := by
    have one := power_eq fine
    rw [zpow_zero, zero_sub] at one
    rw [Int.cast_mul, mul_assoc, ← one, mul_one]
  rw [whole] at less ⊢
  exact nearestDouble_le less

/-- A multiple of its own last place is a double. -/
theorem nearestDouble_of_multiple (whole : x = n * (2 : ℚ) ^ doubleScale x) : nearestDouble x = x := by
  refine le_antisymm ?_ ?_
  · conv_rhs => rw [whole]
    exact nearestDouble_le whole.le
  · conv_lhs => rw [whole]
    exact le_nearestDouble whole.ge

theorem lt_power_scale (x : ℚ) : x < (2 : ℚ) ^ (doubleScale x + 53) := by
  refine (Int.lt_zpow_succ_log_self (b := 2) (by norm_num) x).trans_le (zpow_le_zpow_right₀ (by norm_num) ?_)
  unfold doubleScale
  omega

/-- A double is its own double. -/
theorem nearestDouble_nearestDouble (nonneg : 0 ≤ x) : nearestDouble (nearestDouble x) = nearestDouble x := by
  rcases (nearestDouble_nonneg nonneg).eq_or_lt with zero | positive
  · rw [← zero, nearestDouble_zero]
  by_cases fine : doubleScale (nearestDouble x) ≤ doubleScale x
  · refine nearestDouble_of_multiple (n := roundEven (x / (2 : ℚ) ^ doubleScale x) *
      2 ^ (doubleScale x - doubleScale (nearestDouble x)).toNat) ?_
    rw [Int.cast_mul, mul_assoc, ← power_eq fine]
    exact nearestDouble_eq x
  · -- only a power of two has a coarser last place than what it is the double of
    have place : doubleScale (nearestDouble x) = Int.log 2 (nearestDouble x) - 52 := by
      unfold doubleScale at fine ⊢
      omega
    have above : (2 : ℚ) ^ (doubleScale (nearestDouble x) + 52) ≤ nearestDouble x := by
      rw [place, sub_add_cancel]
      exact Int.zpow_log_le_self (by norm_num) positive
    have whole : (2 : ℚ) ^ (doubleScale x + 53) = ((2 ^ 53 : Int) : ℚ) * (2 : ℚ) ^ doubleScale x := by
      rw [zpow_add₀ (by norm_num), mul_comm]
      norm_num
    have below : nearestDouble x ≤ (2 : ℚ) ^ (doubleScale (nearestDouble x) + 52) :=
      calc nearestDouble x ≤ ((2 ^ 53 : Int) : ℚ) * (2 : ℚ) ^ doubleScale x :=
            nearestDouble_le (whole ▸ (lt_power_scale x).le)
        _ = (2 : ℚ) ^ (doubleScale x + 53) := whole.symm
        _ ≤ (2 : ℚ) ^ (doubleScale (nearestDouble x) + 52) := zpow_le_zpow_right₀ (by norm_num) (by omega)
    refine nearestDouble_of_multiple (n := 2 ^ 52) ((le_antisymm below above).trans ?_)
    rw [zpow_add₀ (by norm_num), mul_comm]
    norm_num

/-- The double nearest to a rational in the range of doubles. -/
def doubleOf (x : ℚ) : ℚ := if x < 0 then -nearestDouble (-x) else nearestDouble x

/-- The sum of two numbers as doubles. -/
def doubleSum (x y : ℚ) : ℚ := doubleOf (doubleOf x + doubleOf y)

theorem doubleOf_of_nonneg (positive : 0 ≤ x) : doubleOf x = nearestDouble x := if_neg (not_lt.mpr positive)

theorem doubleOf_nonneg (positive : 0 ≤ x) : 0 ≤ doubleOf x := by
  rw [doubleOf_of_nonneg positive]
  exact nearestDouble_nonneg positive

theorem doubleOf_of_neg (negative : x < 0) : doubleOf x = -nearestDouble (-x) := if_pos negative

theorem doubleOf_mono (less : x ≤ y) : doubleOf x ≤ doubleOf y := by
  by_cases negative : x < 0
  · rw [doubleOf_of_neg negative]
    have below := nearestDouble_nonneg (neg_nonneg.mpr negative.le)
    by_cases also : y < 0
    · rw [doubleOf_of_neg also]
      exact neg_le_neg (nearestDouble_mono (by linarith) (by linarith))
    · have above := doubleOf_nonneg (not_lt.mp also)
      linarith
  · have positive := not_lt.mp negative
    rw [doubleOf_of_nonneg positive, doubleOf_of_nonneg (positive.trans less)]
    exact nearestDouble_mono positive less

/-- A double is its own double. -/
theorem doubleOf_doubleOf (x : ℚ) : doubleOf (doubleOf x) = doubleOf x := by
  by_cases negative : x < 0
  · have same := nearestDouble_nearestDouble (neg_nonneg.mpr negative.le)
    rw [doubleOf_of_neg negative]
    rcases (nearestDouble_nonneg (neg_nonneg.mpr negative.le)).eq_or_lt with zero | positive
    · rw [← zero, neg_zero, doubleOf_of_nonneg le_rfl, nearestDouble_zero]
    · rw [doubleOf_of_neg (neg_lt_zero.mpr positive), neg_neg, same]
  · have positive := not_lt.mp negative
    rw [doubleOf_of_nonneg positive, doubleOf_of_nonneg (nearestDouble_nonneg positive),
      nearestDouble_nearestDouble positive]

end

end Argentum
