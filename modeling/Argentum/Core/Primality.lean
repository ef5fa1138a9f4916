import Mathlib.FieldTheory.Finite.Basic
import Mathlib.Algebra.BigOperators.Associated

/-! Modular powers by squaring, and the primality test of Pocklington on them: a number is prime where
a base has order divisible by primes whose product is above its square root. -/
namespace Argentum.Primality

/-- The power by the low bits of the exponent. -/
def powBits (modulus : Nat) : Nat → Nat → Nat → Nat
  | 0, _, _ => 1 % modulus
  | bits + 1, base, exponent =>
      let rest := powBits modulus bits (base * base % modulus) (exponent / 2)
      if exponent % 2 = 1 then rest * base % modulus else rest

def powMod (base exponent modulus : Nat) : Nat := powBits modulus (exponent.log2 + 1) (base % modulus) exponent

/-- A prime factor of `n` is one more than a multiple of the factors given, and thus large. -/
def certifies (n base : Nat) (factors : List Nat) : Bool :=
  1 < n && n < factors.prod * factors.prod && decide factors.Nodup && powMod base (n - 1) n == 1 &&
    factors.all fun q => (n - 1) % q == 0 && Nat.gcd (powMod base ((n - 1) / q) n + (n - 1)) n == 1

variable {n base exponent modulus : Nat} {factors : List Nat}

theorem powBits_eq (bits : Nat) (fits : exponent < 2 ^ bits) :
    powBits modulus bits base exponent = base ^ exponent % modulus := by
  induction bits generalizing base exponent with
  | zero =>
      obtain rfl : exponent = 0 := by omega
      rfl
  | succ bits ih =>
      have halved : exponent / 2 < 2 ^ bits := by rw [pow_succ] at fits; omega
      have squared : base ^ exponent = (base * base) ^ (exponent / 2) * base ^ (exponent % 2) := by
        rw [← sq, ← pow_mul, ← pow_add, Nat.div_add_mod]
      rw [powBits, ih halved, ← Nat.pow_mod, squared]
      obtain even | odd := Nat.mod_two_eq_zero_or_one exponent
      · rw [even, if_neg (by decide), pow_zero, mul_one]
      · rw [odd, if_pos rfl, pow_one, Nat.mod_mul_mod]

theorem powMod_eq : powMod base exponent modulus = base ^ exponent % modulus := by
  rw [powMod, powBits_eq _ Nat.lt_log2_self, ← Nat.pow_mod]

/-- A prime that a divisor loses with the quotient divides it. -/
theorem dvd_of_not_dvd_div {d m q : Nat} (prime : q.Prime) (divides : q ∣ m) (whole : d ∣ m) (part : ¬ d ∣ m / q) :
    q ∣ d := by
  by_contra apart
  refine part (Nat.Coprime.dvd_of_dvd_mul_left ((Nat.Prime.coprime_iff_not_dvd prime).mpr apart).symm ?_)
  rwa [Nat.mul_div_cancel' divides]

/-- The order of the base in a prime factor. -/
theorem dvd_sub_one_of_power {q r : Nat} (prime : q.Prime) (prime' : r.Prime) (inside : r ∣ n) (big : 1 < n)
    (divides : q ∣ n - 1) (one : powMod base (n - 1) n = 1)
    (coprime : Nat.gcd (powMod base ((n - 1) / q) n + (n - 1)) n = 1) : q ∣ r - 1 := by
  have fact : Fact r.Prime := ⟨prime'⟩
  have cast : ∀ m : Nat, ((m % n : Nat) : ZMod r) = m := fun m => by
    rw [ZMod.natCast_eq_natCast_iff', Nat.mod_mod_of_dvd _ inside]
  have whole : (base : ZMod r) ^ (n - 1) = 1 := by
    rw [← Nat.cast_pow, ← cast, ← powMod_eq, one, Nat.cast_one]
  have part : (base : ZMod r) ^ ((n - 1) / q) ≠ 1 := by
    intro stays
    have zero : ((powMod base ((n - 1) / q) n + (n - 1) : Nat) : ZMod r) = 0 := by
      rw [Nat.cast_add, powMod_eq, cast, Nat.cast_pow, stays, Nat.cast_sub big.le,
        (ZMod.natCast_eq_zero_iff n r).mpr inside, Nat.cast_one, zero_sub, add_neg_cancel]
    have common := Nat.dvd_gcd ((ZMod.natCast_eq_zero_iff _ _).mp zero) inside
    rw [coprime] at common
    exact prime'.one_lt.ne' (Nat.dvd_one.mp common)
  have nonzero : (base : ZMod r) ≠ 0 := by
    rintro zero
    rw [zero, zero_pow (by omega)] at whole
    exact zero_ne_one whole
  calc q ∣ orderOf (base : ZMod r) := dvd_of_not_dvd_div prime divides (orderOf_dvd_of_pow_eq_one whole)
        fun lost => part (orderOf_dvd_iff_pow_eq_one.mp lost)
    _ ∣ r - 1 := orderOf_dvd_of_pow_eq_one (ZMod.pow_card_sub_one_eq_one nonzero)

theorem prime_of_certifies (base : Nat) (factors : List Nat) (certified : certifies n base factors = true)
    (primes : ∀ q ∈ factors, q.Prime) : n.Prime := by
  simp only [certifies, Bool.and_eq_true, decide_eq_true_iff, List.all_eq_true, beq_iff_eq] at certified
  obtain ⟨⟨⟨⟨big, large⟩, unique⟩, one⟩, each⟩ := certified
  have prime := Nat.minFac_prime big.ne'
  have product : factors.prod ∣ n.minFac - 1 := by
    rw [← List.map_id factors, ← List.prod_toFinset id unique]
    refine Finset.prod_primes_dvd _ (fun q member => (primes q (List.mem_toFinset.mp member)).prime) fun q member => ?_
    have listed := List.mem_toFinset.mp member
    obtain ⟨divides, coprime⟩ := each q listed
    exact dvd_sub_one_of_power (primes q listed) prime (Nat.minFac_dvd n) big (Nat.dvd_of_mod_eq_zero divides) one
      coprime
  have below : factors.prod < n.minFac :=
    (Nat.le_of_dvd (Nat.sub_pos_of_lt prime.one_lt) product).trans_lt (Nat.sub_lt prime.pos one_pos)
  by_contra composite
  have square := Nat.minFac_sq_le_self (by omega) composite
  rw [sq] at square
  exact absurd (large.trans_le (Nat.mul_le_mul below.le below.le)) square.not_gt

example : powMod 3 200 13 = 9 := by decide

end Argentum.Primality
