import Mathlib.AlgebraicGeometry.EllipticCurve.Affine.Point
import Mathlib.FieldTheory.Finite.Basic
import Mathlib.GroupTheory.Perm.Cycle.Type

/-! The curve `y ^ 2 = x ^ 3 + b` over a prime field, where no point is its own inverse. Every
abscissa has at most two points, told apart by the parity of their ordinates; a point of an
order above a third of their number generates the whole group. -/
namespace Argentum.Curve
open WeierstrassCurve.Affine

variable {p : Nat} [Fact p.Prime]

def curve (b : ZMod p) : WeierstrassCurve.Affine (ZMod p) := ⟨0, 0, 0, 0, b⟩

/-- The field is of odd characteristic, and no ordinate is zero. -/
structure Smooth (b : ZMod p) : Prop where
  odd : p ≠ 2
  rootless : ∀ x : ZMod p, x ^ 3 + b ≠ 0

/-- The affine coordinates of a point. -/
def At {b : ZMod p} (Q : (curve b).Point) (x y : ZMod p) : Prop := ∃ h, Q = .some x y h

variable {b x y x' y' : ZMod p} {Q Q' G : (curve b).Point} {n : Nat}

@[simp] theorem negY_curve : (curve b).negY x y = -y := by simp [negY, curve]

theorem equation_iff_curve : (curve b).Equation x y ↔ y ^ 2 = x ^ 3 + b := by simp [equation_iff, curve]

theorem Smooth.two_ne_zero (smooth : Smooth b) : (2 : ZMod p) ≠ 0 := by
  intro zero
  have divides := (ZMod.natCast_eq_zero_iff 2 p).mp (by exact_mod_cast zero)
  exact smooth.odd ((Nat.prime_dvd_prime_iff_eq Fact.out Nat.prime_two).mp divides)

theorem Smooth.ordinate_ne_zero (smooth : Smooth b) (on : y ^ 2 = x ^ 3 + b) : y ≠ 0 := by
  rintro rfl
  exact smooth.rootless x (by rw [← on, sq, mul_zero])

theorem Smooth.neg_ne (smooth : Smooth b) (on : y ^ 2 = x ^ 3 + b) : y ≠ -y := by
  intro same
  have doubled : 2 * y = 0 := by linear_combination same
  exact smooth.ordinate_ne_zero on ((mul_eq_zero.mp doubled).resolve_left smooth.two_ne_zero)

theorem nonsingular_iff_on (smooth : Smooth b) : (curve b).Nonsingular x y ↔ y ^ 2 = x ^ 3 + b := by
  rw [nonsingular_iff, ← equation_iff_curve]
  refine and_iff_left_of_imp fun on => Or.inr ?_
  simpa [curve] using smooth.neg_ne (equation_iff_curve.mp on)

theorem At.on (at' : At Q x y) : y ^ 2 = x ^ 3 + b := by
  obtain ⟨h, _⟩ := at'
  exact equation_iff_curve.mp h.1

theorem Smooth.exists_at (smooth : Smooth b) (on : y ^ 2 = x ^ 3 + b) : ∃ Q : (curve b).Point, At Q x y :=
  ⟨_, (nonsingular_iff_on smooth).mpr on, rfl⟩

theorem At.unique (first : At Q x y) (second : At Q x' y') : x = x' ∧ y = y' := by
  obtain ⟨_, rfl⟩ := first
  obtain ⟨_, same⟩ := second
  injection same with abscissa ordinate
  exact ⟨abscissa, ordinate⟩

theorem At.injective (first : At Q x y) (second : At Q' x y) : Q = Q' := by
  obtain ⟨_, rfl⟩ := first
  obtain ⟨_, rfl⟩ := second
  rfl

theorem At.ne_zero (at' : At Q x y) : Q ≠ 0 := by
  obtain ⟨_, rfl⟩ := at'
  exact Point.some_ne_zero _

theorem eq_zero_or_at (Q : (curve b).Point) : Q = 0 ∨ ∃ x y, At Q x y := by
  cases Q with
  | zero => exact .inl rfl
  | some x y h => exact .inr ⟨x, y, h, rfl⟩

theorem at_some {x₀ y₀ : ZMod p} (h : (curve b).Nonsingular x₀ y₀) (abscissa : x₀ = x) (ordinate : y₀ = y) :
    At (.some x₀ y₀ h) x y := by
  subst abscissa ordinate
  exact ⟨h, rfl⟩

theorem At.neg (at' : At Q x y) : At (-Q) x (-y) := by
  obtain ⟨h, rfl⟩ := at'
  exact at_some ((nonsingular_neg x y).mpr h) rfl negY_curve

/-- Points of one abscissa are one or opposite. -/
theorem At.same_abscissa (first : At Q x y) (second : At Q' x y') : y = y' ∨ y = -y' := by
  have product : (y - y') * (y + y') = 0 := by linear_combination first.on - second.on
  obtain difference | sum := mul_eq_zero.mp product
  · exact .inl (sub_eq_zero.mp difference)
  · exact .inr (eq_neg_of_add_eq_zero_left sum)

theorem At.add_opposite (first : At Q x y) (second : At Q' x y') (differ : y ≠ y') : Q + Q' = 0 := by
  have opposite := (first.same_abscissa second).resolve_left differ
  obtain ⟨_, rfl⟩ := first
  obtain ⟨_, rfl⟩ := second
  exact Point.add_of_Y_eq rfl (by rw [negY_curve, opposite])

/-- The tangent at a point meets the curve again in the opposite of its double. -/
theorem At.double (smooth : Smooth b) (at' : At Q x y) :
    At (Q + Q) ((3 * x ^ 2 / (2 * y)) ^ 2 - x - x)
      (3 * x ^ 2 / (2 * y) * (x - ((3 * x ^ 2 / (2 * y)) ^ 2 - x - x)) - y) := by
  have own : y ≠ (curve b).negY x y := by
    rw [negY_curve]
    exact smooth.neg_ne at'.on
  obtain ⟨h, rfl⟩ := at'
  have slope : (curve b).slope x x y y = 3 * x ^ 2 / (2 * y) := by
    rw [slope_of_Y_ne rfl own, negY_curve]
    simp [curve, two_mul]
  rw [Point.add_self_of_Y_ne own]
  refine at_some _ ?_ ?_ <;> rw [slope] <;> simp [addX, addY, negAddY, curve]
  ring

/-- The line through two points meets the curve again in the opposite of their sum. -/
theorem At.add (first : At Q x y) (second : At Q' x' y') (apart : x ≠ x') :
    At (Q + Q') (((y' - y) / (x' - x)) ^ 2 - x - x')
      ((y' - y) / (x' - x) * (x - (((y' - y) / (x' - x)) ^ 2 - x - x')) - y) := by
  obtain ⟨h, rfl⟩ := first
  obtain ⟨h', rfl⟩ := second
  have slope : (curve b).slope x x' y y' = (y' - y) / (x' - x) := by
    rw [slope_of_X_ne apart, ← neg_sub y', ← neg_sub x', neg_div_neg_eq]
  rw [Point.add_of_X_ne apart]
  refine at_some _ ?_ ?_ <;> rw [slope] <;> simp [addX, addY, negAddY, curve]
  ring

/-- The parity of an ordinate tells a point from its opposite. -/
theorem At.same_parity (smooth : Smooth b) (first : At Q x y) (second : At Q' x y')
    (parity : y.val % 2 = y'.val % 2) : y = y' := by
  refine (first.same_abscissa second).resolve_right fun opposite => ?_
  have nonzero := smooth.ordinate_ne_zero second.on
  have odd : p % 2 = 1 := Nat.odd_iff.mp (Nat.Prime.odd_of_ne_two Fact.out smooth.odd)
  have below := ZMod.val_lt y'
  rw [opposite, ZMod.neg_val, if_neg nonzero] at parity
  omega

/-- The abscissa and the parity of the ordinate. -/
noncomputable def compress (Q : (curve b).Point) : Option (ZMod p × Bool) :=
  match Q with
  | .zero => none
  | .some x y _ => some (x, y.val % 2 = 0)

theorem compress_injective (smooth : Smooth b) : Function.Injective (compress (b := b)) := by
  intro Q Q' same
  cases Q with
  | zero =>
      cases Q' with
      | zero => rfl
      | some x' y' h' => cases same
  | some x y h =>
      cases Q' with
      | zero => cases same
      | some x' y' h' =>
          simp only [compress, Option.some.injEq, Prod.mk.injEq, decide_eq_decide] at same
          obtain ⟨rfl, parity⟩ := same
          obtain rfl := At.same_parity smooth ⟨h, rfl⟩ ⟨h', rfl⟩ (by omega)
          rfl

theorem finite_point (smooth : Smooth b) : Finite (curve b).Point :=
  Finite.of_injective _ (compress_injective smooth)

theorem card_point_le (smooth : Smooth b) : Nat.card (curve b).Point ≤ 2 * p + 1 := by
  calc Nat.card (curve b).Point ≤ Nat.card (Option (ZMod p × Bool)) :=
        Nat.card_le_card_of_injective _ (compress_injective smooth)
    _ = 2 * p + 1 := by
        rw [Finite.card_option, Nat.card_prod, Nat.card_zmod, Nat.card_eq_fintype_card, Fintype.card_bool, mul_comm]

theorem add_self_ne_zero (smooth : Smooth b) (nonzero : Q ≠ 0) : Q + Q ≠ 0 := by
  obtain ⟨x, y, at'⟩ := (eq_zero_or_at Q).resolve_left nonzero
  exact (at'.double smooth).ne_zero

/-- A point of an order above a third of the bound generates the group: with twice as many points
one would be its own inverse. -/
theorem card_point (smooth : Smooth b) (order : addOrderOf G = n) (large : 2 * p + 1 < 3 * n) :
    Nat.card (curve b).Point = n := by
  have := finite_point smooth
  obtain ⟨k, count⟩ := order ▸ addOrderOf_dvd_natCard G
  have positive : Nat.card (curve b).Point ≠ 0 := Nat.card_pos.ne'
  have bound := card_point_le smooth
  rw [count] at positive bound
  have few : k < 3 := Nat.lt_of_mul_lt_mul_left (bound.trans_lt (by omega) : n * k < n * 3)
  have single : k ≠ 2 := by
    rintro rfl
    have two := Fact.mk Nat.prime_two
    obtain ⟨Q, halves⟩ := exists_prime_addOrderOf_dvd_card' (G := (curve b).Point) 2 ⟨n, by rw [count, mul_comm]⟩
    have nonzero : Q ≠ 0 := by
      rintro rfl
      rw [addOrderOf_zero] at halves
      exact absurd halves (by decide)
    refine add_self_ne_zero smooth nonzero ?_
    rw [← two_nsmul, ← halves, addOrderOf_nsmul_eq_zero]
  have : k ≠ 0 := by
    rintro rfl
    exact positive rfl
  rw [count, show k = 1 by omega, mul_one]

/-- Every point is a multiple of the generator. -/
theorem exists_nsmul (smooth : Smooth b) (order : addOrderOf G = n) (large : 2 * p + 1 < 3 * n)
    (Q : (curve b).Point) : ∃ d < n, d • G = Q := by
  classical
  have := finite_point smooth
  have whole : AddSubgroup.zmultiples G = ⊤ := AddSubgroup.eq_top_of_card_eq _ (by
    rw [Nat.card_zmultiples, order, card_point smooth order large])
  have inside : Q ∈ AddSubgroup.zmultiples G := whole ▸ AddSubgroup.mem_top Q
  obtain ⟨d, below, same⟩ := Finset.mem_image.mp (mem_zmultiples_iff_mem_range_addOrderOf.mp inside)
  exact ⟨d, order ▸ Finset.mem_range.mp below, same⟩

end Argentum.Curve
