import Argentum.Trail.Numbers

/-! The decimal that `repr` writes for a float, beside the one of ECMAScript. Both place the
same significant digits, and differ in where exponents begin, in how many digits an exponent
has, and in the `.0` of an integer. -/
namespace Argentum.Jcs
open Text FloatRepr

/-- `repr` of digits with the point after the first `n` of them: fixed notation from `1e-4`
up to `1e16`. -/
def reprDigits (digits : Str) (n : Int) : Str :=
  if -4 < n ∧ n ≤ 16 then
    if n ≤ 0 then 48 :: 46 :: List.replicate (-n).toNat 48 ++ digits
    else if digits.length ≤ n then digits ++ List.replicate (n - digits.length).toNat 48 ++ [46, 48]
    else digits.take n.toNat ++ 46 :: digits.drop n.toNat
  else
    (if digits.length = 1 then digits else digits.take 1 ++ 46 :: digits.drop 1) ++
      101 :: (if 1 ≤ n then 43 else 45) :: (if (n - 1).natAbs < 10 then [48] else []) ++ natText (n - 1).natAbs

/-- The text is the one `repr` writes for a double. -/
inductive IsRepr (r : FloatRepr) : Prop where
  | zero : r.text = ofString "0.0" → IsRepr r
  | placed (digits : List (Fin 10)) (n : Int) : Scientific r.decimal digits n → nearestDouble r.decimal ≠ 0 →
      r.text = reprDigits (digits.map digitChar) n → IsRepr r

/-- The magnitudes that `repr` writes as ECMAScript does: those from `1e-4` up to `1e16` that
are no integers, and those whose exponent both write, with two digits at least. -/
def WrittenAlike (x : ℚ) : Prop :=
  (1 / 10 ^ 4 ≤ x ∧ x < 10 ^ 16 ∧ x.den ≠ 1) ∨ (0 < x ∧ x < 1 / 10 ^ 9) ∨ 10 ^ 21 ≤ x

instance (x : ℚ) : Decidable (WrittenAlike x) := inferInstanceAs (Decidable (_ ∨ _))

section
variable {value : ℚ} {digits : List (Fin 10)} {n : Int}

theorem Scientific.pos (scientific : Scientific value digits n) : 0 < value := by
  have positive : 0 < natOf digits := lt_of_lt_of_le (Nat.pow_pos (by decide)) scientific.significant.pos
  rw [scientific.value]
  exact mul_pos (by exact_mod_cast positive) (zpow_pos (by norm_num) _)

/-- The position of the point is the magnitude. -/
theorem Scientific.bounds (scientific : Scientific value digits n) :
    (10 : ℚ) ^ (n - 1) ≤ value ∧ value < (10 : ℚ) ^ n := by
  have length := scientific.significant.length_pos
  have least : ((10 ^ (digits.length - 1) : Nat) : ℚ) ≤ natOf digits := by exact_mod_cast scientific.significant.pos
  have most : (natOf digits : ℚ) < ((10 ^ digits.length : Nat) : ℚ) := by exact_mod_cast natOf_lt digits
  have power : (0 : ℚ) < (10 : ℚ) ^ (n - digits.length) := zpow_pos (by norm_num) _
  rw [scientific.value]
  push_cast at least most
  constructor
  · calc (10 : ℚ) ^ (n - 1) = (10 : ℚ) ^ (digits.length - 1) * (10 : ℚ) ^ (n - digits.length) := by
          rw [← zpow_natCast, ← zpow_add₀ (by norm_num)]
          congr 1
          omega
      _ ≤ _ := mul_le_mul_of_nonneg_right least power.le
  · calc (natOf digits : ℚ) * (10 : ℚ) ^ (n - digits.length)
        < (10 : ℚ) ^ digits.length * (10 : ℚ) ^ (n - digits.length) := mul_lt_mul_of_pos_right most power
      _ = _ := by
          rw [← zpow_natCast, ← zpow_add₀ (by norm_num)]
          congr 1
          omega

/-- A value is at least a power of ten iff its point stands far enough. -/
theorem Scientific.le_iff (scientific : Scientific value digits n) (m : Int) : (10 : ℚ) ^ m ≤ value ↔ m < n := by
  obtain ⟨least, most⟩ := scientific.bounds
  constructor
  · intro reached
    exact (zpow_lt_zpow_iff_right₀ (by norm_num)).mp (lt_of_le_of_lt reached most)
  · intro less
    exact le_trans ((zpow_le_zpow_iff_right₀ (by norm_num)).mpr (by omega)) least

/-- A value is an integer iff no digit stands behind the point. -/
theorem Scientific.den_eq_one_iff (scientific : Scientific value digits n) : value.den = 1 ↔ digits.length ≤ n := by
  rw [scientific.value, Rat.den_eq_one_iff]
  constructor
  · intro whole
    by_contra short
    obtain ⟨behind, split⟩ := Int.le.dest (show n ≤ digits.length by omega)
    have scaled : (natOf digits : ℚ) =
        ((natOf digits : ℚ) * (10 : ℚ) ^ (n - digits.length)).num * (10 : ℚ) ^ behind := by
      rw [whole, mul_assoc, ← zpow_natCast, ← zpow_add₀ (by norm_num),
        show n - digits.length + (behind : Int) = 0 by omega,
        zpow_zero, mul_one]
    have counted : ((natOf digits : Nat) : Int) =
        ((natOf digits : ℚ) * (10 : ℚ) ^ (n - digits.length)).num * 10 ^ behind := by
      exact_mod_cast scaled
    refine scientific.significant.not_dvd ?_
    rw [← Int.natCast_dvd_natCast, counted]
    obtain ⟨less, rfl⟩ := Nat.exists_eq_add_one_of_ne_zero (show behind ≠ 0 by omega)
    rw [pow_succ, ← mul_assoc]
    exact Int.dvd_mul_left ..
  · intro enough
    obtain ⟨zeros, split⟩ := Int.le.dest enough
    rw [show n - (digits.length : Int) = (zeros : Int) by omega, zpow_natCast]
    have whole : ((natOf digits : ℚ) * (10 : ℚ) ^ zeros) = ((natOf digits * 10 ^ zeros : Nat) : ℚ) := by push_cast; rfl
    rw [whole, Rat.num_natCast]
    norm_cast

/-- The digits before an exponent, with a point after the first. -/
def mantissa (digits : Str) : Str := if digits.length = 1 then digits else digits.take 1 ++ 46 :: digits.drop 1

theorem mantissa_head (first : CodePoint) (rest : Str) : ∃ more, mantissa (first :: rest) = first :: more := by
  cases rest with
  | nil => exact ⟨[], rfl⟩
  | cons second rest => exact ⟨46 :: second :: rest, rfl⟩

theorem reprDigits_exponent (text : Str) (outside : n ≤ -4 ∨ 16 < n) :
    reprDigits text n = mantissa text ++ 101 :: (if 1 ≤ n then 43 else 45) ::
      (if (n - 1).natAbs < 10 then [48] else []) ++ natText (n - 1).natAbs := if_neg (by omega)

theorem placeDigits_exponent {text : Str} (full : 0 < text.length) (outside : n ≤ -6 ∨ 21 < n) :
    placeDigits text n = mantissa text ++ 101 :: (if 1 ≤ n then 43 else 45) :: natText (n - 1).natAbs := by
  rw [placeDigits, if_neg (by omega), if_neg (by omega), if_neg (by omega), List.append_assoc, List.cons_append,
    sign_exponent]
  rfl

/-- `repr` pads an exponent to two digits. -/
theorem exponents_eq_iff (front : Str) (sign : CodePoint) (exponent : Nat) :
    front ++ 101 :: sign :: (if exponent < 10 then [48] else []) ++ natText exponent =
      front ++ 101 :: sign :: natText exponent ↔ 10 ≤ exponent := by
  constructor
  · intro same
    by_contra short
    rw [if_pos (by omega)] at same
    have lengths := congrArg List.length same
    simp only [List.length_append, List.length_cons, List.length_nil] at lengths
    omega
  · intro long
    rw [if_neg (by omega), List.append_assoc]
    rfl

/-- The places of the point at which the two texts are one. -/
theorem reprDigits_eq_placeDigits_iff (significant : Significant digits) (n : Int) :
    reprDigits (digits.map digitChar) n = placeDigits (digits.map digitChar) n ↔
      (-4 < n ∧ n ≤ 16 ∧ n < digits.length) ∨ n ≤ -9 ∨ 21 < n := by
  have numeral := numeral_map digits
  have leading := significant.ends.1
  have full : 0 < (digits.map digitChar).length := by simpa using significant.length_pos
  have counted : (digits.map digitChar).length = digits.length := List.length_map digitChar
  rw [← counted]
  clear counted
  generalize digits.map digitChar = text at numeral leading full
  rcases le_or_gt n (-4) with tiny | above
  · rcases le_or_gt n (-6) with exponent | fixed
    · rw [reprDigits_exponent text (Or.inl tiny), placeDigits_exponent full (Or.inl exponent), exponents_eq_iff]
      omega
    · refine iff_of_false (fun same => ?_) (by omega)
      rw [placeDigits, if_neg (by omega), if_neg (by omega), if_pos (by omega),
        reprDigits_exponent text (Or.inl tiny)] at same
      obtain ⟨first, rest, rfl⟩ := List.exists_cons_of_length_pos full
      obtain ⟨more, shape⟩ := mantissa_head first rest
      rw [shape] at same
      exact leading (congrArg some (List.head_eq_of_cons_eq same))
  rcases le_or_gt n 16 with placed | large
  · rw [reprDigits, if_pos ⟨above, placed⟩, placeDigits]
    rcases le_or_gt n 0 with before | inside
    · rw [if_pos before, if_neg (by omega), if_neg (by omega), if_pos (by omega)]
      exact iff_of_true rfl (by omega)
    rw [if_neg (by omega)]
    rcases le_or_gt (text.length : Int) n with integer | behind
    · refine iff_of_false (fun same => ?_) (by omega)
      rw [if_pos integer, if_pos (by omega)] at same
      have pointed : (46 : CodePoint) ∈ text ++ List.replicate (n - text.length).toNat 48 := by
        rw [← same]
        simp
      exact (numeral.append (numeral_zeros _)).not_mem.1 pointed
    · rw [if_neg (by omega), if_neg (by omega), if_pos (by omega)]
      exact iff_of_true rfl (by omega)
  · rw [reprDigits_exponent text (Or.inr large)]
    rcases le_or_gt n 21 with fixed | huge
    · refine iff_of_false (fun same => ?_) (by omega)
      have marked : (101 : CodePoint) ∈ placeDigits text n := by
        rw [← same]
        simp
      rw [placeDigits] at marked
      split at marked
      · exact (numeral.append (numeral_zeros _)).not_mem.2 marked
      · rw [if_pos (by omega), List.mem_append, List.mem_cons] at marked
        rcases marked with marked | ⟨⟨⟩⟩ | marked
        · exact (numeral.sublist (List.take_sublist _ _)).not_mem.2 marked
        · exact (numeral.sublist (List.drop_sublist _ _)).not_mem.2 marked
    · rw [placeDigits_exponent full (Or.inr huge), exponents_eq_iff]
      omega

theorem Scientific.writtenAlike_iff (scientific : Scientific value digits n) :
    WrittenAlike value ↔ (-4 < n ∧ n ≤ 16 ∧ n < digits.length) ∨ n ≤ -9 ∨ 21 < n := by
  have least : 1 / 10 ^ 4 ≤ value ↔ -4 < n := by
    rw [← scientific.le_iff]
    norm_num [zpow_neg]
  have most : value < 10 ^ 16 ↔ ¬ 16 < n := by
    rw [← scientific.le_iff, not_le]
    norm_num
  have small : value < 1 / 10 ^ 9 ↔ ¬ -9 < n := by
    rw [← scientific.le_iff, not_le]
    norm_num [zpow_neg]
  have large : 10 ^ 21 ≤ value ↔ 21 < n := by
    rw [← scientific.le_iff]
    norm_num
  have positive := scientific.pos
  rw [WrittenAlike, least, most, small, large, Ne, scientific.den_eq_one_iff]
  simp only [positive, true_and]
  omega

end

/-- A float has one text in both notations iff its magnitude is written alike. -/
theorem ecmaNumberString_eq_iff {r : FloatRepr} (written : IsRepr r) (negative : Bool) :
    ecmaNumberString (.finite negative r) = .ok ((if negative then [45] else []) ++ r.text) ↔
      WrittenAlike r.decimal := by
  cases written with
  | zero text =>
      have zero : r.decimal = 0 := by
        rw [← textValue_text, text]
        decide +kernel
      rw [ecmaNumberString, zero, text, if_pos (by decide +kernel)]
      refine iff_of_false (fun same => ?_) (by norm_num [WrittenAlike])
      cases negative <;> cases same
  | placed digits n scientific nonzero text =>
      obtain ⟨read, shown⟩ := significand_text scientific.pos.ne'
      obtain ⟨same, position⟩ := read.unique scientific
      rw [ecmaNumberString, if_neg nonzero, shown, same, position, text, Except.ok.injEq, List.append_cancel_left_eq,
        scientific.writtenAlike_iff, ← reprDigits_eq_placeDigits_iff scientific.significant, eq_comm]

end Argentum.Jcs
