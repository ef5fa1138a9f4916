import Argentum.Trail.Loads
import Mathlib.Tactic.Ring
import Mathlib.Tactic.Positivity

/-! The texts of numbers, `_ecma_number_string`. A positive decimal is its significant
digits, without a zero at either end, and the position of the point relative to their
start; the two are determined by its value. The text that is written for them denotes the
same value in one of ECMAScript's four layouts. -/
namespace Argentum.Jcs
open Text FloatRepr

section
variable {digits others : List (Fin 10)} {d : Fin 10} {m n : Int}

theorem natOf_append (digits others : List (Fin 10)) :
    natOf (digits ++ others) = natOf digits * 10 ^ others.length + natOf others := by
  induction others using List.reverseRecOn with
  | nil => simp [natOf]
  | append_singleton others d ih =>
      simp only [natOf, ← List.append_assoc, List.foldl_append, List.foldl_cons, List.foldl_nil] at ih ⊢
      rw [ih, List.length_append, List.length_singleton, pow_succ]
      ring

theorem natOf_concat (digits : List (Fin 10)) (d : Fin 10) : natOf (digits ++ [d]) = 10 * natOf digits + d.val := by
  rw [natOf_append, List.length_singleton, pow_one, mul_comm]
  simp [natOf]

theorem natOf_replicate (n : Nat) : natOf (List.replicate n 0) = 0 := by
  induction n with
  | zero => rfl
  | succ n ih =>
      rw [List.replicate_succ', natOf_concat, ih]
      rfl

theorem natOf_zeros (digits : List (Fin 10)) (n : Nat) :
    natOf (digits ++ List.replicate n 0) = natOf digits * 10 ^ n := by
  rw [natOf_append, natOf_replicate, List.length_replicate, Nat.add_zero]

theorem natOf_cons (d : Fin 10) (digits : List (Fin 10)) :
    natOf (d :: digits) = d.val * 10 ^ digits.length + natOf digits := by
  rw [← List.singleton_append, natOf_append]
  simp [natOf]

theorem natOf_lt (digits : List (Fin 10)) : natOf digits < 10 ^ digits.length := by
  induction digits with
  | nil => simp [natOf]
  | cons d digits ih =>
      rw [natOf_cons, List.length_cons, pow_succ]
      have small : d.val * 10 ^ digits.length ≤ 9 * 10 ^ digits.length := Nat.mul_le_mul_right _ (by omega)
      omega

/-- Digits are read back from their value and their number. -/
theorem natOf_injective (length : digits.length = others.length) (same : natOf digits = natOf others) :
    digits = others := by
  induction digits using List.reverseRecOn generalizing others with
  | nil => exact (List.length_eq_zero_iff.mp length.symm).symm
  | append_singleton digits d ih =>
      cases others using List.reverseRecOn with
      | nil => simp at length
      | append_singleton others e =>
          rw [natOf_concat, natOf_concat] at same
          rw [ih (by simpa using length) (by omega), Fin.ext (show d.val = e.val by omega)]

theorem natOf_dropWhile (digits : List (Fin 10)) : natOf (digits.dropWhile (· = 0)) = natOf digits := by
  induction digits with
  | nil => rfl
  | cons d digits ih =>
      by_cases zero : d = 0
      · rw [List.dropWhile_cons_of_pos (by simpa using zero), ih, natOf_cons, zero]
        simp
      · rw [List.dropWhile_cons_of_neg (by simpa using zero)]

/-- No zero stands at either end. -/
structure Significant (digits : List (Fin 10)) : Prop where
  full : digits ≠ []
  first : digits.head? ≠ some 0
  last : digits.getLast? ≠ some 0

theorem Significant.pos (significant : Significant digits) : 10 ^ (digits.length - 1) ≤ natOf digits := by
  obtain ⟨full, first, _⟩ := significant
  cases digits with
  | nil => exact absurd rfl full
  | cons d digits =>
      have nonzero : d.val ≠ 0 := fun zero => first (congrArg some (Fin.ext zero))
      have positive : 0 < d.val := Nat.pos_of_ne_zero nonzero
      rw [natOf_cons, List.length_cons, Nat.add_sub_cancel]
      exact (Nat.le_mul_of_pos_left _ positive).trans (Nat.le_add_right _ _)

theorem Significant.length_pos (significant : Significant digits) : 0 < digits.length :=
  List.length_pos_iff_ne_nil.mpr significant.full

theorem Significant.not_dvd (significant : Significant digits) : ¬ 10 ∣ natOf digits := by
  obtain ⟨full, _, last⟩ := significant
  cases digits using List.reverseRecOn with
  | nil => exact absurd rfl full
  | append_singleton digits d =>
      rw [List.getLast?_concat] at last
      have nonzero : d.val ≠ 0 := fun zero => last (congrArg some (Fin.ext zero))
      rw [natOf_concat]
      omega

/-- The significant digits of a value, and the position `n` of its point: the value is
`0.<digits> * 10 ** n`. -/
structure Scientific (value : ℚ) (digits : List (Fin 10)) (n : Int) : Prop where
  significant : Significant digits
  value : value = natOf digits * (10 : ℚ) ^ (n - digits.length)

theorem natOf_eq_of_scaled (significant : Significant digits) (less : m ≤ n)
    (same : (natOf digits : ℚ) * (10 : ℚ) ^ m = natOf others * (10 : ℚ) ^ n) :
    m = n ∧ natOf digits = natOf others := by
  obtain ⟨shift, rfl⟩ := Int.le.dest less
  have scaled : (natOf digits : ℚ) = natOf others * (10 : ℚ) ^ shift := by
    rw [zpow_add₀ (by norm_num), zpow_natCast, mul_comm ((10 : ℚ) ^ m), ← mul_assoc] at same
    exact mul_right_cancel₀ (zpow_ne_zero _ (by norm_num)) same
  have counted : natOf digits = natOf others * 10 ^ shift := by exact_mod_cast scaled
  cases shift with
  | zero => exact ⟨by simp, by simpa using counted⟩
  | succ shift =>
      refine absurd ?_ significant.not_dvd
      rw [counted, pow_succ, ← mul_assoc]
      exact Nat.dvd_mul_left _ _

theorem Significant.length_eq (first : Significant digits) (second : Significant others)
    (same : natOf digits = natOf others) : digits.length = others.length := by
  have least := first.pos
  have least' := second.pos
  have most := natOf_lt digits
  have most' := natOf_lt others
  have below : digits.length - 1 < others.length :=
    (Nat.pow_lt_pow_iff_right (by norm_num : 1 < 10)).mp (by omega)
  have below' : others.length - 1 < digits.length :=
    (Nat.pow_lt_pow_iff_right (by norm_num : 1 < 10)).mp (by omega)
  have := first.length_pos
  have := second.length_pos
  omega

/-- A value has one such form. -/
theorem Scientific.unique {value : ℚ} (first : Scientific value digits m) (second : Scientific value others n) :
    digits = others ∧ m = n := by
  have same := first.value.symm.trans second.value
  have aligned : m - digits.length = n - others.length ∧ natOf digits = natOf others := by
    rcases le_total (m - digits.length) (n - others.length) with less | less
    · exact natOf_eq_of_scaled first.significant less same
    · obtain ⟨positions, values⟩ := natOf_eq_of_scaled second.significant less same.symm
      exact ⟨positions.symm, values.symm⟩
  have lengths := first.significant.length_eq second.significant aligned.2
  exact ⟨natOf_injective lengths aligned.2, by omega⟩

end

/-- The rational a text of digits denotes, with a point and an exponent if it has them. -/
def textValue (text : Str) : ℚ :=
  let (mantissa, exponent) := partition 101 text
  let (whole, fraction) := partition 46 mantissa
  digitsValue (whole ++ fraction) * (10 : ℚ) ^ (intOf exponent - fraction.length)

/-- A zero before the point stands alone, the digits after a point do not end in a zero,
and an exponent does not start with one. -/
structure NoSpareZeros (text : Str) : Prop where
  whole : ∀ rest, (partition 46 (partition 101 text).1).1 = 48 :: rest → rest = []
  fraction : 46 ∈ (partition 101 text).1 → (partition 46 (partition 101 text).1).2 ≠ [] ∧
    (partition 46 (partition 101 text).1).2.getLast? ≠ some 48
  exponent : (partition 101 text).2.tail.head? ≠ some 48

/-- The text of digits with the point after the first `n` of them, as ECMAScript lays it out. -/
inductive Layout (digits : Str) (n : Int) : Str → Prop where
  | integer : digits.length ≤ n → n ≤ 21 →
      Layout digits n (digits ++ List.replicate (n - digits.length).toNat 48)
  | inside : 0 < n → n < digits.length → n ≤ 21 →
      Layout digits n (digits.take n.toNat ++ 46 :: digits.drop n.toNat)
  | before : -6 < n → n ≤ 0 → Layout digits n (48 :: 46 :: List.replicate (-n).toNat 48 ++ digits)
  | exponent (first : CodePoint) (rest : Str) : n ≤ -6 ∨ 21 < n → digits = first :: rest →
      Layout digits n (first :: (if rest = [] then [] else 46 :: rest) ++
        101 :: (if 1 ≤ n then 43 else 45) :: natText (n - 1).natAbs)

section
variable {digits : List (Fin 10)} {text other : Str} {sep : CodePoint} {n : Int}

theorem partition_append (absent : sep ∉ text) : partition sep (text ++ sep :: other) = (text, other) := by
  have apart : ∀ c ∈ text, decide (c ≠ sep) = true := fun c member => by
    rw [decide_eq_true_eq]
    rintro rfl
    exact absent member
  rw [partition, List.takeWhile_append_of_pos apart, List.dropWhile_append_of_pos apart,
    List.takeWhile_cons_of_neg (by simp), List.dropWhile_cons_of_neg (by simp), List.append_nil, List.tail_cons]

theorem partition_absent (absent : sep ∉ text) : partition sep text = (text, []) := by
  have apart : ∀ c ∈ text, decide (c ≠ sep) = true := fun c member => by
    rw [decide_eq_true_eq]
    rintro rfl
    exact absent member
  rw [partition, List.takeWhile_eq_self_iff.mpr apart, List.dropWhile_eq_nil_iff.mpr apart, List.tail_nil]

/-- Text of digits. -/
def Numeral (text : Str) : Prop := ∀ c ∈ text, 48 ≤ c.val ∧ c.val ≤ 57

theorem Numeral.append (first : Numeral text) (second : Numeral other) : Numeral (text ++ other) :=
  List.forall_mem_append.mpr ⟨first, second⟩

theorem Numeral.sublist (numeral : Numeral text) (part : other.Sublist text) : Numeral other :=
  fun c member => numeral c (part.subset member)

theorem numeral_zeros (count : Nat) : Numeral (List.replicate count 48) := by
  intro c member
  rw [List.eq_of_mem_replicate member]
  decide

theorem numeral_map (digits : List (Fin 10)) : Numeral (digits.map digitChar) := by
  intro c member
  obtain ⟨d, _, rfl⟩ := List.mem_map.mp member
  simp only [digitChar, Fin.ofNat]
  omega

theorem Numeral.not_mem (numeral : Numeral text) : (46 : CodePoint) ∉ text ∧ (101 : CodePoint) ∉ text :=
  ⟨fun member => absurd (numeral 46 member).1 (by decide), fun member => absurd (numeral 101 member).2 (by decide)⟩

theorem digitsValue_map (digits : List (Fin 10)) : digitsValue (digits.map digitChar) = natOf digits := by
  have step : ∀ (digits : List (Fin 10)) (n : Nat), (digits.map digitChar).foldl (fun n c => 10 * n + (c.val - 48)) n =
      digits.foldl (fun n d => 10 * n + d.val) n := by
    intro digits
    induction digits with
    | nil => exact fun _ => rfl
    | cons d digits ih =>
        intro n
        have value : (digitChar d).val - 48 = d.val := by
          simp only [digitChar, Fin.ofNat]
          omega
        rw [List.map_cons, List.foldl_cons, ih, List.foldl_cons, value]
  exact step digits 0

theorem map_zeros (digits : List (Fin 10)) (count : Nat) :
    digits.map digitChar ++ List.replicate count 48 = (digits ++ List.replicate count 0).map digitChar := by
  rw [List.map_append, List.map_replicate]
  rfl

theorem digitChar_eq_zero {d : Fin 10} : digitChar d = 48 ↔ d = 0 := by
  revert d
  decide

/-- The zeros that `lstrip` and `rstrip` take away are those of the digits. -/
theorem stripped_map (digits : List (Fin 10)) :
    (digits.map digitChar).dropWhile (· = 48) = (digits.dropWhile (· = 0)).map digitChar ∧
      (digits.map digitChar).rdropWhile (· = 48) = (digits.rdropWhile (· = 0)).map digitChar := by
  have zero : ((fun c : CodePoint => decide (c = 48)) ∘ digitChar) = fun d : Fin 10 => decide (d = 0) := by
    funext d
    simp [digitChar_eq_zero]
  constructor
  · rw [List.dropWhile_map, zero]
  · rw [List.rdropWhile, ← List.map_reverse, List.dropWhile_map, zero, ← List.map_reverse, List.rdropWhile]

/-- What is left of a numeral between its leading and its trailing zeros. -/
def stripped (raw : List (Fin 10)) : List (Fin 10) := (raw.dropWhile (· = 0)).rdropWhile (· = 0)

theorem dropWhile_eq_stripped (raw : List (Fin 10)) :
    ∃ trailing, raw.dropWhile (· = 0) = stripped raw ++ List.replicate trailing 0 := by
  generalize kept : raw.dropWhile (· = 0) = body
  refine ⟨(body.rtakeWhile (· = 0)).length, ?_⟩
  have zeros : body.rtakeWhile (· = 0) = List.replicate (body.rtakeWhile (· = 0)).length 0 :=
    List.eq_replicate_of_mem fun d member => by simpa using List.mem_rtakeWhile_imp member
  rw [stripped, kept, ← zeros, List.rdropWhile_append_rtakeWhile]

theorem significant_stripped {raw : List (Fin 10)} (nonzero : natOf raw ≠ 0) : Significant (stripped raw) := by
  obtain ⟨trailing, body⟩ := dropWhile_eq_stripped raw
  have full : stripped raw ≠ [] := by
    intro none
    rw [← natOf_dropWhile, body, none, natOf_zeros] at nonzero
    exact nonzero (Nat.zero_mul _)
  refine ⟨full, fun leading => ?_, fun last => ?_⟩
  · have checked := List.head?_dropWhile_not (fun d : Fin 10 => decide (d = 0)) raw
    obtain ⟨rest, shape⟩ := List.head?_eq_some_iff.mp leading
    rw [body, shape] at checked
    simp at checked
  · have checked := List.rdropWhile_last_not (fun d : Fin 10 => decide (d = 0)) _ full
    rw [List.getLast?_eq_some_getLast full, Option.some.injEq] at last
    simp only [decide_eq_true_eq] at checked
    exact checked last

/-- The text of an exponent: nothing, or a sign and digits. -/
def exponentText : Option (Bool × List (Fin 10)) → Str
  | none => []
  | some (negative, digits) => (if negative then 45 else 43) :: digits.map digitChar

def exponentValue : Option (Bool × List (Fin 10)) → Int
  | none => 0
  | some (negative, digits) => if negative then -natOf digits else natOf digits

theorem intOf_exponentText (exponent : Option (Bool × List (Fin 10))) :
    (if exponentText exponent = [] then 0 else intOf (exponentText exponent)) = exponentValue exponent := by
  match exponent with
  | none => rfl
  | some (true, digits) => exact congrArg (fun n : Nat => -(n : Int)) (digitsValue_map digits)
  | some (false, digits) => exact congrArg (fun n : Nat => (n : Int)) (digitsValue_map digits)

theorem decimal_eq (r : FloatRepr) :
    r.decimal = natOf (r.whole ++ r.fraction) * (10 : ℚ) ^ (exponentValue r.exponent - r.fraction.length) := by
  obtain ⟨whole, fraction, exponent, _, _⟩ := r
  cases exponent <;> rfl

/-- The digits before the point, and those after it if there are any. -/
def mantissaOf (whole fraction : Str) : Str := whole ++ (if fraction = [] then [] else 46 :: fraction)

/-- What a text splits into at an `e` and at a point. -/
structure Splits (text whole fraction exponent : Str) : Prop where
  mantissa : partition 101 text = (mantissaOf whole fraction, exponent)
  point : partition 46 (mantissaOf whole fraction) = (whole, fraction)
  pointed : 46 ∈ mantissaOf whole fraction → fraction ≠ []

section
variable {whole fraction exponent : Str} (numeral : Numeral whole) (numeral' : Numeral fraction)
include numeral

theorem partition_mantissaOf : partition 46 (mantissaOf whole fraction) = (whole, fraction) := by
  unfold mantissaOf
  split
  · rename_i none
    rw [none, List.append_nil, partition_absent numeral.not_mem.1]
  · exact partition_append numeral.not_mem.1

theorem pointed_mantissaOf (point : 46 ∈ mantissaOf whole fraction) : fraction ≠ [] := by
  rintro rfl
  rw [mantissaOf, if_pos rfl, List.append_nil] at point
  exact numeral.not_mem.1 point

include numeral'

theorem not_mem_mantissaOf : 101 ∉ mantissaOf whole fraction := by
  rw [mantissaOf, List.mem_append, not_or]
  refine ⟨numeral.not_mem.2, ?_⟩
  split
  · exact List.not_mem_nil
  · rw [List.mem_cons, not_or]
    exact ⟨by decide, numeral'.not_mem.2⟩

theorem splits_mantissa : Splits (mantissaOf whole fraction) whole fraction [] where
  mantissa := partition_absent (not_mem_mantissaOf numeral numeral')
  point := partition_mantissaOf numeral
  pointed := pointed_mantissaOf numeral

theorem splits_exponent (exponent : Str) :
    Splits (mantissaOf whole fraction ++ 101 :: exponent) whole fraction exponent where
  mantissa := partition_append (not_mem_mantissaOf numeral numeral')
  point := partition_mantissaOf numeral
  pointed := pointed_mantissaOf numeral

end

/-- `repr` splits at the `e` and at the point. -/
theorem splits_text (r : FloatRepr) :
    Splits r.text (r.whole.map digitChar) (r.fraction.map digitChar) (exponentText r.exponent) := by
  obtain ⟨whole, fraction, exponent, _, _⟩ := r
  have mantissa : whole.map digitChar ++ (if fraction = [] then [] else 46 :: fraction.map digitChar) =
      mantissaOf (whole.map digitChar) (fraction.map digitChar) := by
    cases fraction <;> rfl
  rw [FloatRepr.text, mantissa]
  match exponent with
  | none =>
      rw [List.append_nil]
      exact splits_mantissa (numeral_map whole) (numeral_map fraction)
  | some (negative, digits) => exact splits_exponent (numeral_map whole) (numeral_map fraction) _

/-- The position of the point relative to the first digit that is not a zero. -/
def pointPosition (r : FloatRepr) : Int :=
  let raw := r.whole ++ r.fraction
  (r.whole.length : Int) - (raw.length - (raw.dropWhile (· = 0)).length : Nat) + exponentValue r.exponent

/-- What `_ecma_number_string` reads off the text of a float that is not zero. -/
theorem significand_text {r : FloatRepr} (positive : r.decimal ≠ 0) :
    Scientific r.decimal (stripped (r.whole ++ r.fraction)) (pointPosition r) ∧
      significand r.text = ((stripped (r.whole ++ r.fraction)).map digitChar, pointPosition r) := by
  rw [decimal_eq] at positive
  have nonzero : natOf (r.whole ++ r.fraction) ≠ 0 := by
    intro zero
    rw [zero, Nat.cast_zero, zero_mul] at positive
    exact positive rfl
  have significant := significant_stripped nonzero
  refine ⟨⟨significant, ?_⟩, ?_⟩
  · obtain ⟨trailing, body⟩ := dropWhile_eq_stripped (r.whole ++ r.fraction)
    have leading := (List.dropWhile_suffix (fun d : Fin 10 => decide (d = 0)) (l := r.whole ++ r.fraction)).length_le
    rw [decimal_eq, ← natOf_dropWhile, pointPosition]
    rw [body] at leading ⊢
    rw [natOf_zeros]
    push_cast
    rw [mul_assoc, ← zpow_natCast, ← zpow_add₀ (by norm_num)]
    congr 2
    rw [List.length_append, List.length_append, List.length_replicate] at leading ⊢
    omega
  · have chars := stripped_map (r.whole ++ r.fraction)
    have left : (stripped (r.whole ++ r.fraction)).map digitChar ≠ [] := by
      simpa using significant.full
    obtain ⟨mantissa, point, _⟩ := splits_text r
    simp only [significand, mantissa, point]
    rw [← List.map_append, chars.1, (stripped_map _).2, intOf_exponentText, ← stripped, if_neg left,
      List.length_map, List.length_map, List.length_map, pointPosition]

theorem sign_exponent (n : Int) : (if 0 ≤ n - 1 then [43] else []) ++ intText (n - 1) =
    (if 1 ≤ n then 43 else 45) :: natText (n - 1).natAbs := by
  unfold intText
  by_cases positive : 1 ≤ n
  · rw [if_pos (by omega), if_neg (by omega), if_pos positive]
    rfl
  · rw [if_neg (by omega), if_pos (by omega), if_neg positive]
    rfl

theorem placeDigits_layout (significant : Significant digits) (n : Int) :
    Layout (digits.map digitChar) n (placeDigits (digits.map digitChar) n) := by
  unfold placeDigits
  split
  · rename_i bounds
    exact .integer bounds.1 bounds.2
  rename_i notInteger
  split
  · rename_i bounds
    exact .inside bounds.1 (by omega) bounds.2
  split
  · rename_i bounds
    exact .before bounds.1 bounds.2
  rename_i notInside notBefore
  obtain ⟨d, rest, rfl⟩ := List.exists_cons_of_ne_nil significant.full
  have layout := Layout.exponent (n := n) (digitChar d) (rest.map digitChar) (by omega) (List.map_cons ..)
  have mantissa : (if ((d :: rest).map digitChar).length = 1 then (d :: rest).map digitChar
      else ((d :: rest).map digitChar).take 1 ++ 46 :: ((d :: rest).map digitChar).drop 1) =
      digitChar d :: (if rest.map digitChar = [] then [] else 46 :: rest.map digitChar) := by
    cases rest <;> rfl
  rw [mantissa, List.append_assoc, List.cons_append, List.cons_append, sign_exponent]
  exact layout

theorem intOf_signed (n : Int) : intOf ((if 1 ≤ n then 43 else 45) :: natText (n - 1).natAbs) = n - 1 := by
  split
  · change ((digitsValue (natText (n - 1).natAbs) : Nat) : Int) = _
    rw [digitsValue_natText]
    omega
  · change -((digitsValue (natText (n - 1).natAbs) : Nat) : Int) = _
    rw [digitsValue_natText]
    omega

theorem Splits.textValue {whole fraction exponent : Str} (splits : Splits text whole fraction exponent) :
    textValue text = digitsValue (whole ++ fraction) * (10 : ℚ) ^ (intOf exponent - fraction.length) := by
  simp only [Jcs.textValue, splits.mantissa, splits.point]

theorem Splits.noSpareZeros {whole fraction exponent : Str} (splits : Splits text whole fraction exponent)
    (single : ∀ rest, whole = 48 :: rest → rest = []) (last : fraction.getLast? ≠ some 48)
    (leading : exponent.tail.head? ≠ some 48) : NoSpareZeros text := by
  refine ⟨?_, ?_, ?_⟩
  · rwa [splits.mantissa, splits.point]
  · rw [splits.mantissa, splits.point]
    exact fun pointed => ⟨splits.pointed pointed, last⟩
  · rwa [splits.mantissa]

theorem Significant.ends (significant : Significant digits) :
    (digits.map digitChar).head? ≠ some 48 ∧ (digits.map digitChar).getLast? ≠ some 48 := by
  obtain ⟨_, first, last⟩ := significant
  constructor
  · intro zero
    rw [List.head?_map] at zero
    obtain ⟨d, found, same⟩ := Option.map_eq_some_iff.mp zero
    exact first (found.trans (congrArg some (digitChar_eq_zero.mp same)))
  · intro zero
    rw [List.getLast?_map] at zero
    obtain ⟨d, found, same⟩ := Option.map_eq_some_iff.mp zero
    exact last (found.trans (congrArg some (digitChar_eq_zero.mp same)))

/-- A text that does not start with a zero has no rest after one. -/
theorem tail_of_head {whole rest : Str} (apart : whole.head? ≠ some 48) (shape : whole = 48 :: rest) : rest = [] := by
  subst shape
  exact absurd rfl apart

theorem denotes_integer (significant : Significant digits) (short : (digits.length : Int) ≤ n) :
    let text := digits.map digitChar ++ List.replicate (n - digits.length).toNat 48
    textValue text = natOf digits * (10 : ℚ) ^ (n - digits.length) ∧ NoSpareZeros text := by
  intro text
  have none : Numeral [] := fun c member => by cases member
  have splits := splits_mantissa ((numeral_map digits).append (numeral_zeros (n - digits.length).toNat)) none
  rw [mantissaOf, if_pos rfl, List.append_nil] at splits
  refine ⟨?_, splits.noSpareZeros (fun rest => tail_of_head ?_) (by simp) (by simp)⟩
  · rw [splits.textValue, List.append_nil, map_zeros, digitsValue_map, natOf_zeros, Nat.cast_mul, Nat.cast_pow,
      mul_assoc, Nat.cast_ofNat, ← zpow_natCast, ← zpow_add₀ (by norm_num)]
    congr 2
    simp only [intOf, digitsValue, List.foldl_nil, List.length_nil]
    omega
  · rw [List.head?_append_of_ne_nil _ (by simpa using significant.full)]
    exact significant.ends.1

theorem denotes_inside (significant : Significant digits) (positive : 0 < n) (short : n < digits.length) :
    let text := (digits.map digitChar).take n.toNat ++ 46 :: (digits.map digitChar).drop n.toNat
    textValue text = natOf digits * (10 : ℚ) ^ (n - digits.length) ∧ NoSpareZeros text := by
  intro text
  have numeral := numeral_map digits
  have after : (digits.map digitChar).drop n.toNat ≠ [] := by
    rw [← List.length_pos_iff_ne_nil, List.length_drop, List.length_map]
    omega
  have splits := splits_mantissa (numeral.sublist (List.take_sublist n.toNat _))
    (numeral.sublist (List.drop_sublist n.toNat _))
  rw [mantissaOf, if_neg after] at splits
  refine ⟨?_, splits.noSpareZeros (fun rest => tail_of_head ?_) ?_ (by simp)⟩
  · rw [splits.textValue, List.take_append_drop, digitsValue_map]
    congr 2
    simp only [intOf, digitsValue, List.foldl_nil, List.length_drop, List.length_map]
    omega
  · rw [List.head?_take, if_neg (by omega)]
    exact significant.ends.1
  · rw [List.getLast?_drop, if_neg (by rw [List.length_map]; omega)]
    exact significant.ends.2

theorem denotes_before (significant : Significant digits) (negative : n ≤ 0) :
    let text := 48 :: 46 :: List.replicate (-n).toNat 48 ++ digits.map digitChar
    textValue text = natOf digits * (10 : ℚ) ^ (n - digits.length) ∧ NoSpareZeros text := by
  intro text
  have after : List.replicate (-n).toNat 48 ++ digits.map digitChar ≠ [] := by
    simpa using fun _ => significant.full
  have splits := splits_mantissa (numeral_zeros 1) ((numeral_zeros (-n).toNat).append (numeral_map digits))
  rw [mantissaOf, if_neg after] at splits
  refine ⟨?_, splits.noSpareZeros (fun rest shape => (List.tail_eq_of_cons_eq shape).symm) ?_ (by simp)⟩
  · have zeros : digitsValue (List.replicate 1 48 ++ (List.replicate (-n).toNat 48 ++ digits.map digitChar)) =
        natOf digits := by
      rw [← List.append_assoc, List.replicate_append_replicate, ← List.nil_append (List.replicate _ _),
        ← List.map_nil (f := digitChar), map_zeros, ← List.map_append, digitsValue_map, natOf_append,
        List.nil_append, natOf_replicate, Nat.zero_mul, Nat.zero_add]
    refine splits.textValue.trans ?_
    rw [zeros]
    congr 2
    simp only [intOf, digitsValue, List.foldl_nil, List.length_append, List.length_replicate, List.length_map]
    omega
  · rw [List.getLast?_append_of_ne_nil _ (by simpa using significant.full)]
    exact significant.ends.2

theorem denotes_exponent {d : Fin 10} {others : List (Fin 10)} (significant : Significant (d :: others))
    (outside : n ≤ -6 ∨ 21 < n) :
    let text := digitChar d :: (if others.map digitChar = [] then [] else 46 :: others.map digitChar) ++
      101 :: (if 1 ≤ n then 43 else 45) :: natText (n - 1).natAbs
    textValue text = natOf (d :: others) * (10 : ℚ) ^ (n - (d :: others).length) ∧ NoSpareZeros text := by
  intro text
  have splits := splits_exponent (numeral_map [d]) (numeral_map others)
    ((if 1 ≤ n then 43 else 45) :: natText (n - 1).natAbs)
  refine ⟨?_, splits.noSpareZeros (fun rest shape => (List.tail_eq_of_cons_eq shape).symm) ?_ ?_⟩
  · refine splits.textValue.trans ?_
    rw [← List.map_append, digitsValue_map, intOf_signed, List.singleton_append, List.length_map, List.length_cons]
    congr 2
    push_cast
    omega
  · intro zero
    apply significant.ends.2
    obtain ⟨front, shape⟩ := List.getLast?_eq_some_iff.mp zero
    rw [List.map_cons, shape, ← List.cons_append, List.getLast?_concat]
  · obtain ⟨c, more, digits, nonzero, _⟩ := Loads.natText_cons (n := (n - 1).natAbs) (by omega)
    rw [List.tail_cons, digits]
    simpa using nonzero

/-- A text in its layout denotes the value it was laid out from, without spare zeros. -/
theorem Layout.denotes {value : ℚ} (scientific : Scientific value digits n)
    (layout : Layout (digits.map digitChar) n text) : textValue text = value ∧ NoSpareZeros text := by
  obtain ⟨significant, same⟩ := scientific
  rw [same]
  cases layout with
  | integer short bound =>
      rw [List.length_map] at short ⊢
      exact denotes_integer significant short
  | inside positive short bound =>
      rw [List.length_map] at short
      exact denotes_inside significant positive short
  | before large negative => exact denotes_before significant negative
  | exponent first rest outside shape =>
      obtain ⟨d, others, rfl⟩ := List.exists_cons_of_ne_nil significant.full
      obtain ⟨rfl, rfl⟩ := List.cons.inj shape
      exact denotes_exponent significant outside

theorem textValue_text (r : FloatRepr) : textValue r.text = r.decimal := by
  have exponent := intOf_exponentText r.exponent
  rw [(splits_text r).textValue, decimal_eq, ← List.map_append, digitsValue_map, List.length_map, ← exponent]
  congr 2
  split
  · rename_i none
    rw [none]
    rfl
  · rfl

end

/-- The text of a decimal that is not zero denotes the same rational, without spare
zeros, and its layout is the one for the value's significant digits and point. -/
theorem numberText {r : FloatRepr} (positive : r.decimal ≠ 0) :
    let text := placeDigits (significand r.text).1 (significand r.text).2
    textValue text = textValue r.text ∧ NoSpareZeros text ∧ (∃ digits n, Scientific r.decimal digits n) ∧
      ∀ digits n, Scientific r.decimal digits n → Layout (digits.map digitChar) n text := by
  intro text
  obtain ⟨scientific, read⟩ := significand_text positive
  have placed := placeDigits_layout scientific.significant (pointPosition r)
  have shown : text = placeDigits ((stripped (r.whole ++ r.fraction)).map digitChar) (pointPosition r) := by
    simp only [text, read]
  rw [← shown] at placed
  obtain ⟨value, spare⟩ := placed.denotes scientific
  refine ⟨value.trans (textValue_text r).symm, spare, ⟨_, _, scientific⟩, fun digits n other => ?_⟩
  obtain ⟨rfl, rfl⟩ := scientific.unique other
  exact placed

/-- `1.0` -/
def one : FloatRepr where
  whole := [1]
  fraction := [0]
  exponent := none
  wholeDigits := List.cons_ne_nil _ _
  pointed _ := List.cons_ne_nil _ _

/-- `0.0000123`, which `repr` writes as `1.23e-05`. -/
def small : FloatRepr where
  whole := [1]
  fraction := [2, 3]
  exponent := some (true, [0, 5])
  wholeDigits := List.cons_ne_nil _ _
  pointed none := by cases none

theorem numberText_small :
    let text := placeDigits (significand small.text).1 (significand small.text).2
    textValue text = textValue small.text ∧ NoSpareZeros text ∧ (∃ digits n, Scientific small.decimal digits n) ∧
      ∀ digits n, Scientific small.decimal digits n → Layout (digits.map digitChar) n text :=
  numberText (by norm_num [FloatRepr.decimal, natOf, small])

example : placeDigits (significand small.text).1 (significand small.text).2 = ofString "0.0000123" := by decide

end Argentum.Jcs
