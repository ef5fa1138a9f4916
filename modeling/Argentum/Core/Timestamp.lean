import Argentum.Core.Text
import Argentum.Core.Calendar
import Mathlib.Data.Prod.Lex
import Mathlib.Data.Rat.Defs
import Mathlib.Tactic.Linarith
import Mathlib.Tactic.Positivity

/-! Timestamps of ISO 8601 in UTC, as they are written and as the instants they denote. The
fields before the fraction have a fixed width, so that up to the second their texts are ordered
as the instants are. A fraction has any number of digits, and is followed by a letter that comes
after them: of two fractions, the one that continues the other is written as the earlier. -/
namespace Argentum

section
variable {α : Type*} [LinearOrder α] {first second : List α}

/-- Texts of one length decide before what follows them. -/
theorem append_lt_append_iff (same : first.length = second.length) (rest others : List α) :
    first ++ rest < second ++ others ↔ first < second ∨ first = second ∧ rest < others := by
  induction first generalizing second with
  | nil =>
      obtain rfl := List.length_eq_zero_iff.mp same.symm
      simp
  | cons a first ih =>
      cases second with
      | nil => cases same
      | cons b second =>
          rw [List.cons_append, List.cons_append, List.cons_lt_cons_iff, List.cons_lt_cons_iff,
            ih (Nat.succ.inj same), List.cons.injEq]
          tauto

end

namespace Timestamp
open Text

def digit (d : Nat) : CodePoint := Fin.ofNat 0x110000 (48 + d % 10)

theorem val_digit (d : Nat) : (digit d).val = 48 + d % 10 := by
  have small := Nat.mod_lt d (show 0 < 10 by decide)
  exact Nat.mod_eq_of_lt (by omega)

theorem digit_lt_iff {d e : Nat} : digit d < digit e ↔ d % 10 < e % 10 := by
  rw [Fin.lt_def, val_digit, val_digit]
  omega

theorem digit_inj {d e : Nat} : digit d = digit e ↔ d % 10 = e % 10 := by
  rw [Fin.ext_iff, val_digit, val_digit]
  omega

/-- The last digits of a number, as many as the width. -/
def decimals : Nat → Nat → Str
  | 0, _ => []
  | width + 1, n => digit (n / 10 ^ width) :: decimals width n

@[simp] theorem length_decimals (width n : Nat) : (decimals width n).length = width := by
  induction width with
  | zero => rfl
  | succ width ih => rw [decimals, List.length_cons, ih]

/-- The higher place decides before the rest. -/
theorem place_lt_iff {p q q' r r' : Nat} (small : r < p) (small' : r' < p) :
    r + p * q < r' + p * q' ↔ q < q' ∨ q = q' ∧ r < r' := by
  rcases lt_trichotomy q q' with less | rfl | more
  · have next : p * (q + 1) ≤ p * q' := Nat.mul_le_mul_left p less
    rw [Nat.mul_succ] at next
    exact iff_of_true (by omega) (Or.inl less)
  · simp
  · have next : p * (q' + 1) ≤ p * q := Nat.mul_le_mul_left p more
    rw [Nat.mul_succ] at next
    exact iff_of_false (by omega) (by omega)

theorem decimals_lt_iff {width m n : Nat} :
    decimals width m < decimals width n ↔ m % 10 ^ width < n % 10 ^ width := by
  induction width with
  | zero => simp [decimals, Nat.mod_one]
  | succ width ih =>
      have full := Nat.pow_pos (n := width) (show 0 < 10 by decide)
      rw [decimals, decimals, List.cons_lt_cons_iff, digit_lt_iff, digit_inj, ih, Nat.mod_pow_succ, Nat.mod_pow_succ,
        place_lt_iff (Nat.mod_lt m full) (Nat.mod_lt n full)]

theorem decimals_inj {width m n : Nat} :
    decimals width m = decimals width n ↔ m % 10 ^ width = n % 10 ^ width := by
  rw [eq_iff_le_not_lt, eq_iff_le_not_lt, ← not_lt, ← not_lt, decimals_lt_iff, decimals_lt_iff]

/-- The digits of a fraction, whose value they are after the decimal sign. -/
def valueOf : List (Fin 10) → ℚ
  | [] => 0
  | d :: digits => (d.val + valueOf digits) / 10

def digitsText (digits : List (Fin 10)) : Str := digits.map fun d => digit d.val

theorem valueOf_nonneg (digits : List (Fin 10)) : 0 ≤ valueOf digits := by
  induction digits with
  | nil => exact le_refl 0
  | cons d digits ih =>
      rw [valueOf]
      positivity

theorem valueOf_lt_one (digits : List (Fin 10)) : valueOf digits < 1 := by
  induction digits with
  | nil => exact zero_lt_one
  | cons d digits ih =>
      have bound : (d.val : ℚ) ≤ 9 := by exact_mod_cast Nat.le_of_lt_succ d.isLt
      rw [valueOf]
      linarith

/-- The first digit decides before the rest. -/
theorem valueOf_cons_lt_iff {d e : Fin 10} {digits others : List (Fin 10)} :
    valueOf (d :: digits) < valueOf (e :: others) ↔ d < e ∨ d = e ∧ valueOf digits < valueOf others := by
  have low := valueOf_nonneg digits
  have low' := valueOf_nonneg others
  have high := valueOf_lt_one digits
  have high' := valueOf_lt_one others
  rw [valueOf, valueOf, div_lt_div_iff_of_pos_right (by norm_num)]
  rcases lt_trichotomy d e with less | rfl | more
  · have step : (d.val : ℚ) + 1 ≤ e.val := by exact_mod_cast Fin.lt_def.mp less
    exact iff_of_true (by linarith) (Or.inl less)
  · simp
  · have step : (e.val : ℚ) + 1 ≤ d.val := by exact_mod_cast Fin.lt_def.mp more
    refine iff_of_false (by linarith) ?_
    rintro (less | ⟨rfl, _⟩)
    · exact less.asymm more
    · exact lt_irrefl _ more

/-- The letter of the zone, which comes after the digits and the decimal signs. -/
def zulu : CodePoint := ofChar 'Z'

theorem digit_lt_zulu (d : Nat) : digit d < zulu := by
  rw [Fin.lt_def, val_digit]
  have small := Nat.mod_lt d (show 0 < 10 by decide)
  have letter : zulu.val = 90 := by decide
  omega

/-- Digits are written as the earlier where they continue the other's, whatever their value. -/
def Misplaced (digits others : List (Fin 10)) : Prop :=
  digits <+: others ∧ digits ≠ others ∨ others <+: digits ∧ valueOf others < valueOf digits

instance (digits others : List (Fin 10)) : Decidable (Misplaced digits others) :=
  inferInstanceAs (Decidable (_ ∨ _))

theorem misplaced_iff {digits others : List (Fin 10)} : Misplaced digits others ↔
    ¬ (digitsText others ++ [zulu] < digitsText digits ++ [zulu] ↔ valueOf others < valueOf digits) := by
  induction digits generalizing others with
  | nil =>
      cases others with
      | nil => simp [Misplaced]
      | cons e others =>
          have later : digitsText (e :: others) ++ [zulu] < digitsText [] ++ [zulu] :=
            List.cons_lt_cons_iff.mpr (Or.inl (digit_lt_zulu e.val))
          have least := valueOf_nonneg (e :: others)
          exact iff_of_true (Or.inl ⟨List.nil_prefix, List.cons_ne_nil e others |>.symm⟩)
            fun same => absurd (same.mp later) least.not_gt
  | cons d digits ih =>
      cases others with
      | nil =>
          have earlier : ¬ digitsText [] ++ [zulu] < digitsText (d :: digits) ++ [zulu] :=
            (List.cons_lt_cons_iff.mpr (Or.inl (digit_lt_zulu d.val)) :
              digitsText (d :: digits) ++ [zulu] < digitsText [] ++ [zulu]).asymm
          simp [Misplaced, earlier]
      | cons e others =>
          have small := d.isLt
          have small' := e.isLt
          have texts : digitsText (e :: others) ++ [zulu] < digitsText (d :: digits) ++ [zulu] ↔
              e < d ∨ e = d ∧ digitsText others ++ [zulu] < digitsText digits ++ [zulu] := by
            rw [digitsText, digitsText, List.map_cons, List.map_cons, List.cons_append, List.cons_append,
              List.cons_lt_cons_iff, digit_lt_iff, digit_inj, Nat.mod_eq_of_lt small, Nat.mod_eq_of_lt small',
              ← Fin.lt_def, ← Fin.ext_iff, ← digitsText, ← digitsText]
          rw [texts, valueOf_cons_lt_iff]
          by_cases same : d = e
          · subst same
            rw [Misplaced, valueOf_cons_lt_iff, List.cons_prefix_cons, List.cons_prefix_cons]
            have inner := @ih others
            rw [Misplaced] at inner
            simpa using inner
          · rw [Misplaced, List.cons_prefix_cons, List.cons_prefix_cons]
            simp [same, Ne.symm same]

/-- The decimal sign is a full stop or a comma, which comes before it. -/
structure Fraction where
  comma : Bool
  digits : List (Fin 10)
  full : digits ≠ []

def Fraction.sign (f : Fraction) : CodePoint := ofChar (if f.comma then ',' else '.')

/-- What is written after the second. -/
def tailText : Option Fraction → Str
  | none => [zulu]
  | some f => f.sign :: (digitsText f.digits ++ [zulu])

def fractionValue : Option Fraction → ℚ
  | none => 0
  | some f => valueOf f.digits

theorem fractionValue_nonneg (f : Option Fraction) : 0 ≤ fractionValue f := by
  cases f with
  | none => exact le_refl 0
  | some f => exact valueOf_nonneg f.digits

theorem fractionValue_lt_one (f : Option Fraction) : fractionValue f < 1 := by
  cases f with
  | none => exact zero_lt_one
  | some f => exact valueOf_lt_one f.digits

/-- The fractions are written in another order than that of their values. One that is missing is
written as the later, and a comma as the earlier. -/
def FractionsMisplaced : Option Fraction → Option Fraction → Prop
  | none, none => False
  | none, some _ => True
  | some f, none => 0 < valueOf f.digits
  | some f, some g =>
      if f.comma = g.comma then Misplaced f.digits g.digits
      else if f.comma then valueOf g.digits < valueOf f.digits
      else valueOf f.digits ≤ valueOf g.digits

theorem sign_lt_zulu (f : Fraction) : f.sign < zulu := by
  unfold Fraction.sign
  cases f.comma <;> decide

theorem fractionsMisplaced_iff {f g : Option Fraction} : FractionsMisplaced f g ↔
    ¬ (tailText g < tailText f ↔ fractionValue g < fractionValue f) := by
  cases f with
  | none =>
      cases g with
      | none => simp [FractionsMisplaced, fractionValue]
      | some g =>
          have later : tailText (some g) < tailText none := List.cons_lt_cons_iff.mpr (Or.inl (sign_lt_zulu g))
          exact iff_of_true trivial fun same => absurd (same.mp later) (fractionValue_nonneg (some g)).not_gt
  | some f =>
      cases g with
      | none =>
          have earlier : tailText (some f) < tailText none := List.cons_lt_cons_iff.mpr (Or.inl (sign_lt_zulu f))
          simp [FractionsMisplaced, fractionValue, earlier.asymm]
      | some g =>
          rw [FractionsMisplaced, tailText, tailText, List.cons_lt_cons_iff]
          by_cases same : f.comma = g.comma
          · have signs : g.sign = f.sign := by rw [Fraction.sign, Fraction.sign, same]
            rw [if_pos same, misplaced_iff, signs]
            simp [fractionValue]
          · rw [if_neg same]
            rcases f with ⟨_ | _, digits, _⟩
            · rcases g with ⟨_ | _, others, _⟩
              · exact absurd rfl same
              · have signs : (ofChar ',') < ofChar '.' := by decide
                simp [Fraction.sign, fractionValue, signs]
            · rcases g with ⟨_ | _, others, _⟩
              · have signs : (ofChar ',') < ofChar '.' := by decide
                simp [Fraction.sign, fractionValue, signs.asymm, signs.ne']
              · exact absurd rfl same

end Timestamp

/-- A leap second is the last of its day. -/
structure Timestamp where
  year : Nat
  month : Nat
  day : Nat
  hour : Nat
  minute : Nat
  second : Nat
  fraction : Option Timestamp.Fraction
  years : year < 10000
  months : 1 ≤ month ∧ month ≤ 12
  days : 1 ≤ day ∧ day ≤ Calendar.daysInMonth year month
  clock : hour < 24 ∧ minute < 60
  seconds : second < 60 ∨ hour = 23 ∧ minute = 59 ∧ second = 60

namespace Timestamp
open Text Calendar

/-- `YYYY-MM-DDThh:mm:ss` -/
def secondText (t : Timestamp) : Str :=
  decimals 4 t.year ++ ofChar '-' :: (decimals 2 t.month ++ ofChar '-' :: (decimals 2 t.day ++ ofChar 'T' ::
    (decimals 2 t.hour ++ ofChar ':' :: (decimals 2 t.minute ++ ofChar ':' :: decimals 2 t.second))))

def text (t : Timestamp) : Str := t.secondText ++ tailText t.fraction

def date (t : Timestamp) : Int := dayNumber t.year t.month t.day

def secondOfDay (t : Timestamp) : Nat := 3600 * t.hour + 60 * t.minute + t.second

/-- The day, and the seconds since it began. -/
def instant (t : Timestamp) : ℤ ×ₗ ℚ := toLex (t.date, t.secondOfDay + fractionValue t.fraction)

def SameSecond (t u : Timestamp) : Prop := t.date = u.date ∧ t.secondOfDay = u.secondOfDay

/-- The timestamps are written in another order than that of their instants. -/
def Misread (t u : Timestamp) : Prop := SameSecond t u ∧ FractionsMisplaced t.fraction u.fraction

variable {t u : Timestamp}

/-- The texts up to the second are ordered field by field. -/
theorem secondText_lt_iff : t.secondText < u.secondText ↔
    t.year < u.year ∨ t.year = u.year ∧ (t.month < u.month ∨ t.month = u.month ∧ (t.day < u.day ∨ t.day = u.day ∧
      (t.hour < u.hour ∨ t.hour = u.hour ∧ (t.minute < u.minute ∨ t.minute = u.minute ∧ t.second < u.second)))) := by
  have bound : ∀ t : Timestamp, t.month < 100 ∧ t.day < 100 ∧ t.hour < 100 ∧ t.minute < 100 ∧ t.second < 100 := by
    intro t
    have months := t.months
    have days := t.days
    have clock := t.clock
    have seconds := t.seconds
    have most := daysInMonth_le t.year t.month
    omega
  have small := bound t
  have small' := bound u
  have years := t.years
  have years' := u.years
  simp only [secondText, append_lt_append_iff, length_decimals, List.cons_lt_cons_iff, lt_irrefl, true_and, false_or,
    decimals_lt_iff, decimals_inj, Nat.reducePow]
  omega

/-- The dates are ordered field by field. -/
theorem date_lt_iff : t.date < u.date ↔
    t.year < u.year ∨ t.year = u.year ∧ (t.month < u.month ∨ t.month = u.month ∧ t.day < u.day) := by
  have before : ∀ t u : Timestamp, t.year < u.year ∨ t.year = u.year ∧ (t.month < u.month ∨ t.month = u.month ∧
      t.day < u.day) → t.date < u.date := by
    intro t u less
    unfold date
    rcases less with earlier | ⟨year, earlier | ⟨month, earlier⟩⟩
    · exact dayNumber_lt_of_month t.months u.months t.days u.days.1 (Or.inl earlier)
    · exact dayNumber_lt_of_month t.months u.months t.days u.days.1 (Or.inr ⟨year, earlier⟩)
    · rw [year, month]
      unfold dayNumber
      dsimp only
      omega
  refine ⟨fun less => ?_, before t u⟩
  by_contra later
  rcases (show u.year < t.year ∨ u.year = t.year ∧ (u.month < t.month ∨ u.month = t.month ∧ u.day < t.day) ∨
      t.year = u.year ∧ t.month = u.month ∧ t.day = u.day by omega) with earlier | earlier | ⟨year, month, day⟩
  · exact (before u t (Or.inl earlier)).asymm less
  · exact (before u t (Or.inr earlier)).asymm less
  · rw [date, date, year, month, day] at less
    exact lt_irrefl _ less

theorem secondOfDay_lt_iff : t.secondOfDay < u.secondOfDay ↔
    t.hour < u.hour ∨ t.hour = u.hour ∧ (t.minute < u.minute ∨ t.minute = u.minute ∧ t.second < u.second) := by
  have clock := t.clock
  have clock' := u.clock
  have seconds := t.seconds
  have seconds' := u.seconds
  unfold secondOfDay
  omega

theorem secondText_lt_iff_second : t.secondText < u.secondText ↔
    t.date < u.date ∨ t.date = u.date ∧ t.secondOfDay < u.secondOfDay := by
  have dates := @date_lt_iff t u
  have dates' := @date_lt_iff u t
  rw [secondText_lt_iff, secondOfDay_lt_iff]
  omega

theorem length_secondText (t : Timestamp) : t.secondText.length = 19 := by
  simp [secondText]

theorem secondText_inj : t.secondText = u.secondText ↔ SameSecond t u := by
  rw [eq_iff_le_not_lt, ← not_lt, secondText_lt_iff_second, secondText_lt_iff_second, SameSecond]
  omega

/-- Up to the second the texts are ordered as the instants, and then as what follows it. -/
theorem text_lt_iff : t.text < u.text ↔
    t.secondText < u.secondText ∨ SameSecond t u ∧ tailText t.fraction < tailText u.fraction := by
  rw [text, text, append_lt_append_iff (by rw [length_secondText, length_secondText]), secondText_inj]

theorem instant_lt_iff : t.instant < u.instant ↔
    t.secondText < u.secondText ∨ SameSecond t u ∧ fractionValue t.fraction < fractionValue u.fraction := by
  have low := fractionValue_nonneg t.fraction
  have low' := fractionValue_nonneg u.fraction
  have high := fractionValue_lt_one t.fraction
  have high' := fractionValue_lt_one u.fraction
  have seconds : (t.secondOfDay + fractionValue t.fraction < u.secondOfDay + fractionValue u.fraction) ↔
      t.secondOfDay < u.secondOfDay ∨ t.secondOfDay = u.secondOfDay ∧
        fractionValue t.fraction < fractionValue u.fraction := by
    rcases lt_trichotomy t.secondOfDay u.secondOfDay with less | same | more
    · have step : (t.secondOfDay : ℚ) + 1 ≤ u.secondOfDay := by exact_mod_cast less
      exact iff_of_true (by linarith) (Or.inl less)
    · simp [same]
    · have step : (u.secondOfDay : ℚ) + 1 ≤ t.secondOfDay := by exact_mod_cast more
      exact iff_of_false (by linarith) (by omega)
  rw [instant, instant, Prod.Lex.toLex_lt_toLex, seconds, secondText_lt_iff_second, SameSecond]
  tauto

/-- Two timestamps are written in another order than that of their instants exactly where they
share a second and their fractions are misplaced. -/
theorem misread_iff : Misread t u ↔ ¬ (u.text < t.text ↔ u.instant < t.instant) := by
  rw [Misread, fractionsMisplaced_iff, text_lt_iff, instant_lt_iff]
  by_cases same : SameSecond t u
  · have back : SameSecond u t := ⟨same.1.symm, same.2.symm⟩
    have notBefore : ¬ u.secondText < t.secondText := by
      rw [secondText_inj.mpr same]
      exact lt_irrefl _
    simp [same, back, notBefore]
  · have back : ¬ SameSecond u t := fun back => same ⟨back.1.symm, back.2.symm⟩
    simp [same, back]

theorem digitsText_inj {digits others : List (Fin 10)} (same : digitsText digits = digitsText others) :
    digits = others := by
  refine List.map_injective_iff.mpr ?_ same
  intro d e equal
  have digits := digit_inj.mp equal
  rwa [Nat.mod_eq_of_lt d.isLt, Nat.mod_eq_of_lt e.isLt, ← Fin.ext_iff] at digits

theorem fractionValue_of_tailText {f g : Option Fraction} (same : tailText f = tailText g) :
    fractionValue f = fractionValue g := by
  cases f with
  | none =>
      cases g with
      | none => rfl
      | some g => exact absurd (List.cons.inj same).1 (sign_lt_zulu g).ne'
  | some f =>
      cases g with
      | none => exact absurd (List.cons.inj same).1 (sign_lt_zulu f).ne
      | some g => exact congrArg valueOf (digitsText_inj (List.append_cancel_right (List.cons.inj same).2))

/-- A text denotes one instant. -/
theorem instant_of_text (same : t.text = u.text) : t.instant = u.instant := by
  obtain ⟨seconds, tails⟩ := List.append_inj same (by rw [length_secondText, length_secondText])
  obtain ⟨dates, clocks⟩ := secondText_inj.mp seconds
  rw [instant, instant, dates, clocks, fractionValue_of_tailText tails]

theorem tailText_ne_nil (f : Option Fraction) : tailText f ≠ [] := by
  cases f with
  | none => exact List.cons_ne_nil _ _
  | some f => exact List.cons_ne_nil _ _

theorem text_ne_nil (t : Timestamp) : t.text ≠ [] := by
  simp [text, tailText_ne_nil]

end Timestamp
end Argentum
