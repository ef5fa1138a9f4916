import Mathlib.Tactic.NormNum.Prime
import Argentum.Conformance.Bip340

/-! The points of `bip340.py` in the group of the curve: addition and multiples are those of the
group, and the group is generated by `G`, of prime order `N`. -/
namespace Argentum.Bip340
open Primality Curve

theorem prime_P : P.Prime := by
  have inner : Nat.Prime 255515944373312847190720520512484175977 :=
    prime_of_certifies 2 [96557, 7240687, 107590001] (by decide +kernel) (by norm_num)
  have outer : Nat.Prime 205115282021455665897114700593932402728804164701536103180137503955397371 :=
    prime_of_certifies 2 [_] (by decide +kernel) (List.forall_mem_singleton.mpr inner)
  exact prime_of_certifies 2 [_] (by decide +kernel) (List.forall_mem_singleton.mpr outer)

theorem prime_N : N.Prime := by
  have small : Nat.Prime 297159362677 := prime_of_certifies 2 [1627771] (by decide +kernel) (by norm_num)
  have small' : Nat.Prime 545358713 := prime_of_certifies 2 [28181] (by decide +kernel) (by norm_num)
  have inner : Nat.Prime 29047611873442575647497758179 :=
    prime_of_certifies 2 [545358713, 297159362677] (by decide +kernel)
      (List.forall_mem_cons.mpr ⟨small', List.forall_mem_singleton.mpr small⟩)
  have outer : Nat.Prime 341948486974166000522343609283189 :=
    prime_of_certifies 2 [_] (by decide +kernel) (List.forall_mem_singleton.mpr inner)
  have outer' : Nat.Prime 174723607534414371449 :=
    prime_of_certifies 2 [120233, 44706919] (by decide +kernel) (by norm_num)
  exact prime_of_certifies 2 [341948486974166000522343609283189, 174723607534414371449] (by decide +kernel)
    (List.forall_mem_cons.mpr ⟨outer, List.forall_mem_singleton.mpr outer'⟩)

instance fact_prime_P : Fact P.Prime := ⟨prime_P⟩

theorem P_lt : P < 2 ^ 256 := by decide +kernel

theorem N_lt : N < 2 ^ 256 := by decide +kernel

theorem P_mod_four : P % 4 = 3 := by decide +kernel

/-- `y ^ 2 = x ^ 3 + 7`: the curve without points of order two, as `-7` is no cube. -/
theorem smooth : Smooth (7 : ZMod P) where
  odd := by decide +kernel
  rootless x root := by
    have cube : x ^ 3 = ((P - 7 : Nat) : ZMod P) := by
      rw [Nat.cast_sub (by decide +kernel), ZMod.natCast_self, zero_sub]
      exact eq_neg_of_add_eq_zero_left root
    have nonzero : x ≠ 0 := by
      rintro rfl
      rw [zero_pow (by decide), eq_comm, ZMod.natCast_eq_zero_iff] at cube
      exact absurd cube (by decide +kernel)
    have fermat := ZMod.pow_card_sub_one_eq_one nonzero
    have power : ((powMod (P - 7) ((P - 1) / 3) P : Nat) : ZMod P) = 1 := by
      rw [powMod_eq, ZMod.natCast_mod, Nat.cast_pow, ← cube, ← pow_mul, ← fermat]
      congr 1
      decide +kernel
    have one : powMod (P - 7) ((P - 1) / 3) P % P = 1 % P := by
      rwa [← ZMod.natCast_eq_natCast_iff', Nat.cast_one]
    exact absurd one (by decide +kernel)

abbrev Point := (curve (7 : ZMod P)).Point

/-- The coordinates computed are those of a point of the group. -/
inductive Represents : Option Coordinates → Point → Prop
  | infinity : Represents none 0
  | affine {pt : Coordinates} {Q : Point} (abscissa : 0 ≤ pt.1 ∧ pt.1 < P) (ordinate : 0 ≤ pt.2 ∧ pt.2 < P)
      (at' : At Q (pt.1 : ZMod P) (pt.2 : ZMod P)) : Represents (some pt) Q

variable {p1 p2 pt : Option Coordinates} {Q Q' : Point} {a c : Int}

theorem P_pos : (0 : Int) < P := Int.natCast_pos.mpr prime_P.pos

theorem cast_mod (z : Int) : ((z % P : Int) : ZMod P) = z := ZMod.intCast_mod z P

theorem mod_mem (z : Int) : 0 ≤ z % P ∧ z % P < P := ⟨Int.emod_nonneg _ P_pos.ne', Int.emod_lt_of_pos _ P_pos⟩

theorem cast_pow (base : Int) (exponent : Nat) :
    ((pow base exponent P : Int) : ZMod P) = (base : ZMod P) ^ exponent := by
  have reduced : (((base % P).toNat : Nat) : ZMod P) = base := by
    rw [← Int.cast_natCast, Int.toNat_of_nonneg (mod_mem base).1, cast_mod]
  rw [pow, powMod_eq, Int.cast_natCast, ZMod.natCast_mod, Nat.cast_pow, reduced]

/-- Fermat's inverse, of zero as well. -/
theorem cast_inverse (z : Int) : ((pow z (P - 2) P : Int) : ZMod P) = (z : ZMod P)⁻¹ := by
  rw [cast_pow]
  by_cases zero : (z : ZMod P) = 0
  · rw [zero, inv_zero, zero_pow (by decide +kernel)]
  · refine eq_inv_of_mul_eq_one_left ?_
    rw [← pow_succ, ← ZMod.pow_card_sub_one_eq_one zero]
    congr 1
    decide +kernel

theorem cast_injective (lower : 0 ≤ a ∧ a < P) (lower' : 0 ≤ c ∧ c < P) : (a : ZMod P) = c ↔ a = c := by
  rw [ZMod.intCast_eq_intCast_iff, Int.ModEq, Int.emod_eq_of_lt lower.1 lower.2, Int.emod_eq_of_lt lower'.1 lower'.2]

theorem Represents.eq_zero (represents : Represents none Q) : Q = 0 := by
  cases represents
  rfl

theorem Represents.ne_zero {pt : Coordinates} (represents : Represents (some pt) Q) : Q ≠ 0 := by
  cases represents with
  | affine _ _ at' => exact at'.ne_zero

theorem Represents.exists_some (represents : Represents pt Q) (nonzero : Q ≠ 0) :
    ∃ coordinates, pt = some coordinates := by
  cases represents with
  | infinity => exact absurd rfl nonzero
  | @affine pt _ _ _ _ => exact ⟨pt, rfl⟩

theorem Represents.unique (first : Represents pt Q) (second : Represents pt Q') : Q = Q' := by
  cases first with
  | infinity => exact second.eq_zero.symm
  | affine _ _ at' =>
      cases second with
      | affine _ _ at'' => exact at'.injective at''

theorem Represents.injective (first : Represents p1 Q) (second : Represents p2 Q) : p1 = p2 := by
  cases first with
  | infinity =>
      cases second with
      | infinity => rfl
      | affine _ _ at'' => exact absurd rfl at''.ne_zero
  | affine x y at' =>
      cases second with
      | infinity => exact absurd rfl at'.ne_zero
      | affine x' y' at'' =>
          obtain ⟨abscissa, ordinate⟩ := at'.unique at''
          exact congrArg some (Prod.ext ((cast_injective x x').mp abscissa) ((cast_injective y y').mp ordinate))

/-- `point_add` adds. -/
theorem represents_add (first : Represents p1 Q) (second : Represents p2 Q') :
    Represents (pointAdd p1 p2) (Q + Q') := by
  cases first with
  | infinity => rwa [pointAdd, zero_add]
  | @affine pt Q xs ys at' =>
      cases second with
      | infinity =>
          rw [pointAdd, add_zero]
          exact .affine xs ys at'
      | @affine pt' Q' xs' ys' at'' =>
          obtain ⟨x, y⟩ := pt
          obtain ⟨x', y'⟩ := pt'
          rw [pointAdd]
          by_cases opposite : x = x' ∧ y ≠ y'
          · rw [if_pos opposite]
            obtain ⟨rfl, differ⟩ := opposite
            rw [at'.add_opposite at'' fun same => differ ((cast_injective ys ys').mp same)]
            exact .infinity
          · rw [if_neg opposite]
            by_cases same : (x, y) = (x', y')
            · obtain ⟨rfl, rfl⟩ := Prod.mk.inj same
              obtain rfl := at'.injective at''
              have lam : ((3 * x * x * pow (2 * y) (P - 2) P % P : Int) : ZMod P) = 3 * (x : ZMod P) ^ 2 / (2 * y) := by
                rw [cast_mod, Int.cast_mul, cast_inverse]
                push_cast
                ring
              refine .affine (mod_mem _) (mod_mem _) ?_
              simp only [if_true, cast_mod, Int.cast_sub, Int.cast_mul, Int.cast_pow, lam, ← sq]
              exact at'.double smooth
            · have apart : x ≠ x' := fun one => opposite ⟨one, fun other => same (by rw [one, other])⟩
              have lam : (((y' - y) * pow (x' - x) (P - 2) P % P : Int) : ZMod P) =
                  ((y' : ZMod P) - y) / (x' - x) := by
                rw [cast_mod, Int.cast_mul, cast_inverse, Int.cast_sub, Int.cast_sub, div_eq_mul_inv]
              refine .affine (mod_mem _) (mod_mem _) ?_
              simp only [if_neg same, cast_mod, Int.cast_sub, Int.cast_mul, Int.cast_pow, lam, ← sq]
              exact at'.add at'' fun one => apart ((cast_injective xs xs').mp one)

/-- After `count` bits the accumulator holds the multiple by them, and the point is doubled as often. -/
theorem represents_mulStep (scalar : Nat) (start : Represents pt Q) (count : Nat) :
    Represents ((List.range count).foldl (mulStep scalar) (none, pt)).1 ((scalar % 2 ^ count) • Q) ∧
      Represents ((List.range count).foldl (mulStep scalar) (none, pt)).2 (2 ^ count • Q) := by
  induction count with
  | zero =>
      rw [pow_zero, Nat.mod_one, zero_nsmul, one_nsmul]
      exact ⟨.infinity, start⟩
  | succ count ih =>
      obtain ⟨multiple, doubled⟩ := ih
      rw [List.range_succ, List.foldl_append, List.foldl_cons, List.foldl_nil, mulStep]
      have bit : (scalar >>> count) &&& 1 = scalar / 2 ^ count % 2 := by
        rw [Nat.and_one_is_mod, Nat.shiftRight_eq_div_pow]
      refine ⟨?_, ?_⟩
      · rw [bit, Nat.mod_pow_succ, add_nsmul, mul_nsmul]
        obtain unset | set := Nat.mod_two_eq_zero_or_one (scalar / 2 ^ count)
        · rwa [unset, if_neg (by decide), zero_nsmul, add_zero]
        · rw [set, if_pos rfl, one_nsmul]
          exact represents_add multiple doubled
      · rw [pow_succ, mul_nsmul, two_nsmul]
        exact represents_add doubled doubled

/-- `point_mul` multiplies. -/
theorem represents_mul {scalar : Nat} (start : Represents pt Q) (fits : scalar < 2 ^ 256) :
    Represents (pointMul pt scalar) (scalar • Q) := by
  have multiple := (represents_mulStep scalar start 256).1
  rwa [Nat.mod_eq_of_lt fits] at multiple

/-- The coordinates of a point of the curve. -/
theorem exists_represents {pt : Coordinates} (x : 0 ≤ pt.1 ∧ pt.1 < P) (y : 0 ≤ pt.2 ∧ pt.2 < P)
    (on : (pt.2 : ZMod P) ^ 2 = (pt.1 : ZMod P) ^ 3 + 7) : ∃ Q, Represents (some pt) Q := by
  obtain ⟨Q, at'⟩ := smooth.exists_at on
  exact ⟨Q, .affine x y at'⟩

theorem exists_generator : ∃ Q, Represents (some G) Q := by
  have x : 0 ≤ G.1 ∧ G.1 < P := by decide +kernel
  have y : 0 ≤ G.2 ∧ G.2 < P := by decide +kernel
  have divides : ((G.2 ^ 2 - G.1 ^ 3 - 7 : Int) : ZMod P) = 0 := by
    rw [ZMod.intCast_zmod_eq_zero_iff_dvd]
    decide +kernel
  push_cast at divides
  exact exists_represents x y (by linear_combination divides)

/-- `G` in the group. -/
noncomputable def generator : Point := exists_generator.choose

theorem represents_generator : Represents (some G) generator := exists_generator.choose_spec

theorem generator_ne_zero : generator ≠ 0 := represents_generator.ne_zero

/-- The curve has as many points as `N` says. -/
theorem addOrderOf_generator : addOrderOf generator = N := by
  have fact := Fact.mk prime_N
  have returns : pointMul (some G) N = none := by decide +kernel
  have zero := represents_mul represents_generator N_lt
  rw [returns] at zero
  exact addOrderOf_eq_prime zero.eq_zero generator_ne_zero

theorem card_lt : 2 * P + 1 < 3 * N := by decide +kernel

theorem exists_multiple (Q : Point) : ∃ d < N, d • generator = Q :=
  exists_nsmul smooth addOrderOf_generator card_lt Q

theorem card_nsmul (Q : Point) : N • Q = 0 := by
  have order := card_point smooth addOrderOf_generator card_lt
  rw [← order, card_nsmul_eq_zero']

theorem nsmul_generator_injective {first second : Nat} (below : first < N) (below' : second < N)
    (same : first • generator = second • generator) : first = second := by
  have congruent := nsmul_eq_nsmul_iff_modEq.mp same
  rwa [addOrderOf_generator, Nat.ModEq, Nat.mod_eq_of_lt below, Nat.mod_eq_of_lt below'] at congruent

/-- `None`, or reduced coordinates that satisfy the equation. -/
def OnCurve (pt : Option Coordinates) : Prop :=
  ∀ c ∈ pt, (0 ≤ c.1 ∧ c.1 < P) ∧ (0 ≤ c.2 ∧ c.2 < P) ∧ (c.2 * c.2 - c.1 * c.1 * c.1 - 7) % P = 0

theorem onCurve_iff : OnCurve pt ↔ ∃ Q, Represents pt Q := by
  have equation : ∀ c : Coordinates, (c.2 * c.2 - c.1 * c.1 * c.1 - 7) % P = 0 ↔
      (c.2 : ZMod P) ^ 2 = (c.1 : ZMod P) ^ 3 + 7 := by
    intro c
    rw [← Int.dvd_iff_emod_eq_zero, ← ZMod.intCast_zmod_eq_zero_iff_dvd]
    push_cast
    rw [sub_sub, sub_eq_zero]
    ring_nf
  constructor
  · intro on
    cases pt with
    | none => exact ⟨0, .infinity⟩
    | some c =>
        obtain ⟨x, y, satisfied⟩ := on c rfl
        exact exists_represents x y ((equation c).mp satisfied)
  · rintro ⟨Q, represents⟩ c member
    obtain rfl := Option.mem_def.mp member
    cases represents with
    | affine x y at' => exact ⟨x, y, (equation c).mpr at'.on⟩

/-- The laws of a cyclic group of order `N`, of the functions on coordinates. -/
structure GroupLaws (p q r : Option Coordinates) : Prop where
  closed : OnCurve (pointAdd p q)
  comm : pointAdd p q = pointAdd q p
  assoc : pointAdd (pointAdd p q) r = pointAdd p (pointAdd q r)
  generated : ∃ d < N, pointMul (some G) d = p
  order : pointMul p N = none
  multiples : ∀ a < 2 ^ 256, ∀ c < 2 ^ 256, pointAdd (pointMul p a) (pointMul p c) = pointMul p ((a + c) % N)
  iterated : ∀ a < 2 ^ 256, ∀ c < 2 ^ 256, pointMul (pointMul p a) c = pointMul p (a * c % N)

theorem groupLaws {p q r : Option Coordinates} (on : OnCurve p) (on' : OnCurve q) (on'' : OnCurve r) :
    GroupLaws p q r := by
  obtain ⟨A, first⟩ := onCurve_iff.mp on
  obtain ⟨B, second⟩ := onCurve_iff.mp on'
  obtain ⟨C, third⟩ := onCurve_iff.mp on''
  have reduced : ∀ n : Nat, Represents (pointMul p (n % N)) (n • A) := by
    intro n
    have multiple := represents_mul first ((Nat.mod_lt n prime_N.pos).trans N_lt)
    have quotient : n • A = (n % N) • A := by
      conv_lhs => rw [← Nat.div_add_mod n N, add_nsmul, mul_nsmul, card_nsmul, nsmul_zero, zero_add]
    rwa [quotient]
  constructor
  · exact onCurve_iff.mpr ⟨_, represents_add first second⟩
  · exact (represents_add first second).injective (add_comm A B ▸ represents_add second first)
  · exact (represents_add (represents_add first second) third).injective
      (add_assoc A B C ▸ represents_add first (represents_add second third))
  · obtain ⟨d, below, rfl⟩ := exists_multiple A
    exact ⟨d, below, (represents_mul represents_generator (below.trans N_lt)).injective first⟩
  · exact (card_nsmul A ▸ represents_mul first N_lt).injective .infinity
  · intro a small c small'
    exact (add_nsmul A a c ▸ represents_add (represents_mul first small) (represents_mul first small')).injective
      (reduced (a + c))
  · intro a small c small'
    exact (mul_nsmul A a c ▸ represents_mul (represents_mul first small) small').injective (reduced (a * c))

theorem groupLaws_generator : GroupLaws (some G) (pointAdd (some G) (some G)) none :=
  groupLaws (onCurve_iff.mpr exists_generator) (onCurve_iff.mpr ⟨_, represents_add represents_generator
    represents_generator⟩) (onCurve_iff.mpr ⟨0, .infinity⟩)

end Argentum.Bip340
