import Argentum.Core.Json
import Argentum.Conformance.Secp256k1

/-! Signatures over the group: the verifier accepts exactly what the signing equation gives for some
nonce, what is signed verifies, and one nonce for two challenges gives the secret away. -/
namespace Argentum.Bip340
open Text Sha256 Primality Curve

/-- A scalar whose point has an even ordinate, with the bytes of the abscissa. -/
def EvenMultiple (k : Nat) (abscissa : Bytes) : Prop := (1 ≤ k ∧ k < N) ∧
  ∃ pt, pointMul (some G) k = some pt ∧ pt.2 % 2 = 0 ∧ bytesFromInt pt.1 = .ok abscissa

/-- The signature of a message made with a secret and a nonce. -/
def Signs (msg pubkey sig : Bytes) (d k : Nat) : Prop := ∃ r s, EvenMultiple d pubkey ∧ EvenMultiple k r ∧
  bytesFromInt ((k + challenge r pubkey msg * d) % N : Nat) = .ok s ∧ sig = r ++ s

section
variable {msg pubkey sig b : Bytes} {d k x count : Nat} {pt : Coordinates} {Q : Point} {abscissa : Bytes}

@[simp] theorem length_bigEndian : (bigEndian count x).length = count := by
  induction count with
  | zero => rfl
  | succ count ih => rw [bigEndian, List.length_cons, ih]

theorem foldl_bytes (n : Nat) :
    b.foldl (fun n digit => 256 * n + digit.val) n = n * 256 ^ b.length + intFromBytes b := by
  rw [intFromBytes]
  induction b generalizing n with
  | nil => simp
  | cons digit rest ih =>
      rw [List.foldl_cons, ih, List.foldl_cons, ih (256 * 0 + digit.val), List.length_cons, pow_succ]
      ring

theorem intFromBytes_cons (digit : Byte) : intFromBytes (digit :: b) = digit.val * 256 ^ b.length + intFromBytes b := by
  rw [intFromBytes, List.foldl_cons, foldl_bytes]
  ring

theorem intFromBytes_lt : intFromBytes b < 256 ^ b.length := by
  induction b with
  | nil => exact one_pos
  | cons digit rest ih =>
      rw [intFromBytes_cons, List.length_cons, pow_succ]
      have high := digit.isLt
      nlinarith [Nat.mul_le_mul_right (256 ^ rest.length) (Nat.le_of_lt_succ high)]

theorem intFromBytes_bigEndian : intFromBytes (bigEndian count x) = x % 256 ^ count := by
  induction count with
  | zero => rw [pow_zero, Nat.mod_one]; rfl
  | succ count ih =>
      have digit : (byte (x / 256 ^ count)).val = x / 256 ^ count % 256 := rfl
      rw [bigEndian, intFromBytes_cons, length_bigEndian, ih, digit, Nat.mod_pow_succ]
      ring

theorem bigEndian_add (c : Nat) : bigEndian count (c * 256 ^ count + x) = bigEndian count x := by
  induction count generalizing c with
  | zero => rfl
  | succ count ih =>
      have shifted : c * 256 ^ (count + 1) + x = c * 256 * 256 ^ count + x := by ring
      have digit : byte ((c * 256 * 256 ^ count + x) / 256 ^ count) = byte (x / 256 ^ count) := by
        rw [mul_comm (c * 256), Nat.mul_add_div (by positivity)]
        exact Fin.ext (by simp [byte, Nat.add_mod])
      rw [bigEndian, bigEndian, shifted, digit, ih]

theorem bigEndian_intFromBytes : bigEndian b.length (intFromBytes b) = b := by
  induction b with
  | nil => rfl
  | cons digit rest ih =>
      have high : byte ((digit.val * 256 ^ rest.length + intFromBytes rest) / 256 ^ rest.length) = digit := by
        rw [mul_comm, Nat.mul_add_div (by positivity), Nat.div_eq_of_lt intFromBytes_lt, add_zero]
        exact Fin.ext (Nat.mod_eq_of_lt digit.isLt)
      rw [List.length_cons, bigEndian, intFromBytes_cons, high, bigEndian_add, ih]

/-- An integer in 32 bytes reads back. -/
theorem bytesFromInt_eq_ok_iff {n : Int} : bytesFromInt n = .ok b ↔ b.length = 32 ∧ n = intFromBytes b := by
  rw [bytesFromInt]
  constructor
  · intro written
    split at written
    · rename_i fits
      obtain rfl := Except.ok.inj written
      have below : n.toNat < 256 ^ 32 := by omega
      refine ⟨length_bigEndian, ?_⟩
      rw [intFromBytes_bigEndian, Nat.mod_eq_of_lt below, Int.toNat_of_nonneg fits.1]
    · cases written
  · rintro ⟨length, rfl⟩
    have below : intFromBytes b < 256 ^ 32 := length ▸ intFromBytes_lt
    rw [if_pos ⟨Int.natCast_nonneg _, by exact_mod_cast below⟩, Int.toNat_natCast, ← length, bigEndian_intFromBytes]

theorem bytesFromInt_natCast (below : x < 2 ^ 256) :
    ∃ b, bytesFromInt x = .ok b ∧ b.length = 32 ∧ intFromBytes b = x := by
  have value : intFromBytes (bigEndian 32 x) = x := by
    rw [intFromBytes_bigEndian, Nat.mod_eq_of_lt (below.trans_eq (by norm_num))]
  exact ⟨_, bytesFromInt_eq_ok_iff.mpr ⟨length_bigEndian, by rw [value]⟩, length_bigEndian, value⟩

/-- Squares have a root at the quarter power. -/
theorem quarter_power (y : ZMod P) : ((y ^ 2) ^ ((P + 1) / 4)) ^ 2 = y ^ 2 := by
  have exponent : (P + 1) / 4 * 2 * 2 = P + 1 := by have := P_mod_four; omega
  calc ((y ^ 2) ^ ((P + 1) / 4)) ^ 2 = y ^ ((P + 1) / 4 * 2 * 2) := by ring
    _ = y ^ 2 := by rw [exponent, pow_succ, ZMod.pow_card, sq]

theorem pow_mem (base : Int) (exponent : Nat) : 0 ≤ pow base exponent P ∧ pow base exponent P < P := by
  rw [pow, powMod_eq]
  exact ⟨Int.natCast_nonneg _, by exact_mod_cast Nat.mod_lt _ prime_P.pos⟩

theorem val_cast {z : Int} (bounds : 0 ≤ z ∧ z < P) : ((z : ZMod P).val : Int) = z := by
  rw [ZMod.val_intCast, Int.emod_eq_of_lt bounds.1 bounds.2]

/-- An abscissa has one point with an even ordinate. -/
theorem Represents.even_unique {pt' : Coordinates} {Q' : Point} (first : Represents (some pt) Q)
    (second : Represents (some pt') Q') (abscissa : pt.1 = pt'.1) (even : pt.2 % 2 = 0) (even' : pt'.2 % 2 = 0) :
    pt = pt' := by
  cases first with
  | affine x y at' =>
      cases second with
      | affine x' y' at'' =>
          rw [← abscissa] at at''
          have parity : (pt.2 : ZMod P).val % 2 = (pt'.2 : ZMod P).val % 2 := by
            have := val_cast y
            have := val_cast y'
            omega
          exact Prod.ext abscissa ((cast_injective y y').mp (at'.same_parity smooth at'' parity))

/-- `lift_x` gives the point of the abscissa that has an even ordinate. -/
theorem liftX_eq_some_iff : liftX x = some pt ↔ pt.1 = x ∧ pt.2 % 2 = 0 ∧ ∃ Q, Represents (some pt) Q := by
  have square : ((((pow x 3 P + 7) % P : Int)) : ZMod P) = (x : ZMod P) ^ 3 + 7 := by
    rw [cast_mod, Int.cast_add, cast_pow, Int.cast_natCast, Int.cast_ofNat]
  have root := pow_mem ((pow x 3 P + 7) % P) ((P + 1) / 4)
  -- what is lifted is on the curve
  have lifted : ∀ pt, liftX x = some pt → pt.1 = x ∧ pt.2 % 2 = 0 ∧ ∃ Q, Represents (some pt) Q := by
    intro pt lifted
    rw [liftX] at lifted
    split at lifted
    · cases lifted
    · rename_i below
      dsimp only at lifted
      split at lifted
      · cases lifted
      · rename_i squared
        obtain rfl := Option.some.inj lifted
        have on : ((pow ((pow x 3 P + 7) % P) ((P + 1) / 4) P : Int) : ZMod P) ^ 2 = ((x : Int) : ZMod P) ^ 3 + 7 := by
          rw [← cast_pow, not_not.mp squared, square, Int.cast_natCast]
        have abscissa : 0 ≤ (x : Int) ∧ (x : Int) < P := by omega
        have odd := P_mod_four
        split
        · rename_i even
          exact ⟨rfl, even, exists_represents abscissa root on⟩
        · rename_i even
          refine ⟨rfl, by dsimp only; omega, exists_represents abscissa (by dsimp only; omega) ?_⟩
          rw [Int.cast_sub, Int.cast_natCast, ZMod.natCast_self, zero_sub, neg_sq, on]
  refine ⟨lifted pt, ?_⟩
  rintro ⟨abscissa, even, Q, represents⟩
  cases represents with
  | affine xs ys at' =>
      have on := at'.on
      rw [abscissa, Int.cast_natCast, ← square] at on
      have squared : pow (pow ((pow x 3 P + 7) % P) ((P + 1) / 4) P) 2 P = (pow x 3 P + 7) % P := by
        rw [← cast_injective (pow_mem _ _) (mod_mem _), cast_pow, cast_pow, ← on, quarter_power]
      obtain ⟨pt', found⟩ : ∃ pt', liftX x = some pt' := by
        rw [liftX, if_neg (by omega), if_neg (not_not.mpr squared)]
        exact ⟨_, rfl⟩
      obtain ⟨abscissa', even', Q', represents'⟩ := lifted pt' found
      rw [found, represents'.even_unique (.affine xs ys at') (abscissa'.trans abscissa.symm) even' even]


theorem Represents.neg (represents : Represents (some pt) Q) : Represents (some (pt.1, P - pt.2)) (-Q) := by
  cases represents with
  | affine x y at' =>
      have nonzero : pt.2 ≠ 0 := by
        intro zero
        refine smooth.ordinate_ne_zero at'.on ?_
        rw [zero, Int.cast_zero]
      refine .affine x ⟨by dsimp only; omega, by dsimp only; omega⟩ ?_
      rw [Int.cast_sub, Int.cast_natCast, ZMod.natCast_self, zero_sub]
      exact at'.neg

theorem Represents.bounds (represents : Represents (some pt) Q) : (0 ≤ pt.1 ∧ pt.1 < P) ∧ 0 ≤ pt.2 ∧ pt.2 < P := by
  cases represents with
  | affine x y _ => exact ⟨x, y⟩

theorem represents_multiple (below : k < N) : Represents (pointMul (some G) k) (k • generator) :=
  represents_mul represents_generator (below.trans N_lt)

theorem pointMul_eq_some_iff (below : k < N) : pointMul (some G) k = some pt ↔ Represents (some pt) (k • generator) :=
  ⟨fun same => same ▸ represents_multiple below, fun represents => (represents_multiple below).injective represents⟩

theorem nsmul_ne_zero (positive : 1 ≤ k) (below : k < N) : k • generator ≠ 0 := by
  intro zero
  have none := nsmul_generator_injective below prime_N.pos (zero.trans (zero_nsmul generator).symm)
  omega

theorem Represents.bytes (represents : Represents (some pt) Q) :
    ∃ b, bytesFromInt pt.1 = .ok b ∧ b.length = 32 ∧ (intFromBytes b : Int) = pt.1 := by
  obtain ⟨⟨lower, upper⟩, _⟩ := represents.bounds
  have below : pt.1.toNat < 2 ^ 256 := by have := P_lt; omega
  obtain ⟨b, written, length, value⟩ := bytesFromInt_natCast below
  rw [Int.toNat_of_nonneg lower] at written
  exact ⟨b, written, length, by omega⟩

theorem EvenMultiple.represents (even : EvenMultiple k b) : ∃ pt, Represents (some pt) (k • generator) ∧
    pt.2 % 2 = 0 ∧ b.length = 32 ∧ pt.1 = intFromBytes b := by
  obtain ⟨⟨_, below⟩, pt, multiple, even, written⟩ := even
  obtain ⟨length, value⟩ := bytesFromInt_eq_ok_iff.mp written
  exact ⟨pt, (pointMul_eq_some_iff below).mp multiple, even, length, value⟩

theorem evenMultiple_of_represents (positive : 1 ≤ k) (below : k < N)
    (represents : Represents (some pt) (k • generator)) (even : pt.2 % 2 = 0) (length : b.length = 32)
    (value : pt.1 = intFromBytes b) : EvenMultiple k b :=
  ⟨⟨positive, below⟩, pt, (pointMul_eq_some_iff below).mpr represents, even, bytesFromInt_eq_ok_iff.mpr ⟨length, value⟩⟩

/-- The bytes of a key or a nonce have one scalar. -/
theorem EvenMultiple.unique {k' : Nat} (first : EvenMultiple k b) (second : EvenMultiple k' b) : k = k' := by
  obtain ⟨pt, represents, even, _, value⟩ := first.represents
  obtain ⟨pt', represents', even', _, value'⟩ := second.represents
  obtain rfl := represents.even_unique represents' (value.trans value'.symm) even even'
  exact nsmul_generator_injective first.1.2 second.1.2 (represents.unique represents')

/-- A scalar or its opposite has an even point, of the same abscissa. -/
theorem evenScalar_spec (positive : 1 ≤ k) (below : k < N) : ∃ even abscissa,
    evenScalar (pointMul (some G) k) k = .ok even ∧ bytesFromPoint (pointMul (some G) k) = .ok abscissa ∧
      EvenMultiple even abscissa := by
  have represents := represents_multiple below
  obtain ⟨pt, multiple⟩ := represents.exists_some (nsmul_ne_zero positive below)
  rw [multiple] at represents ⊢
  obtain ⟨b, written, length, value⟩ := represents.bytes
  by_cases even : pt.2 % 2 = 0
  · have chosen : evenScalar (some pt) k = .ok k := by
      rw [evenScalar, hasEvenY, decide_eq_true even]
      rfl
    exact ⟨k, b, chosen, written, evenMultiple_of_represents positive below represents even length value.symm⟩
  · have chosen : evenScalar (some pt) k = .ok (N - k) := by
      rw [evenScalar, hasEvenY, decide_eq_false even]
      rfl
    have opposite : (N - k) • generator = -(k • generator) := by
      rw [eq_neg_iff_add_eq_zero, ← add_nsmul, Nat.sub_add_cancel below.le, card_nsmul]
    have parity : (P - pt.2) % 2 = 0 := by
      have := P_mod_four
      omega
    have opposed := represents.neg
    rw [← opposite] at opposed
    exact ⟨N - k, b, chosen, written, evenMultiple_of_represents (by omega) (by omega) opposed parity length value.symm⟩

/-- The equation of the verifier in the group is that of the signer in the scalars. -/
theorem equation_iff {s e : Nat} (below : s < N) (below' : e < N) :
    s • generator + (N - e) • d • generator = k • generator ↔ (k + e * d) % N = s := by
  have inverse : (N - e) • d • generator + (e * d) • generator = 0 := by
    rw [mul_comm, mul_nsmul, ← add_nsmul, Nat.sub_add_cancel below'.le, card_nsmul]
  have scalars : s • generator = (k + e * d) • generator ↔ (k + e * d) % N = s := by
    rw [nsmul_eq_nsmul_iff_modEq, addOrderOf_generator, Nat.ModEq, Nat.mod_eq_of_lt below, eq_comm]
  rw [← scalars, add_nsmul, ← add_left_inj ((e * d) • generator), add_assoc, inverse, add_zero]

theorem challenge_lt {r : Bytes} : challenge r pubkey msg < N := Nat.mod_lt _ prime_N.pos

theorem schnorrVerify_eq_true_iff : schnorrVerify msg pubkey sig = true ↔ pubkey.length = 32 ∧ sig.length = 64 ∧
    ∃ pPt rPt, liftX (intFromBytes pubkey) = some pPt ∧ intFromBytes (sig.take 32) < P ∧
      intFromBytes (sig.drop 32) < N ∧
      pointAdd (pointMul (some G) (intFromBytes (sig.drop 32)))
        (pointMul (some pPt) (N - challenge (sig.take 32) pubkey msg)) = some rPt ∧
      rPt.2 % 2 = 0 ∧ rPt.1 = intFromBytes (sig.take 32) := by
  rw [schnorrVerify]
  split
  · rename_i lengths
    exact iff_of_false Bool.false_ne_true fun ⟨first, second, _⟩ => lengths.elim (· first) (· second)
  · rename_i lengths
    obtain ⟨first, second⟩ := not_or.mp lengths
    rw [and_iff_right (not_not.mp first), and_iff_right (not_not.mp second)]
    dsimp only
    constructor
    · intro accepted
      split at accepted
      · cases accepted
      · rename_i pPt lifted
        split at accepted
        · cases accepted
        · rename_i inside
          obtain ⟨below, below'⟩ := not_or.mp inside
          split at accepted
          · cases accepted
          · rename_i rPt summed
            rw [Bool.and_eq_true, decide_eq_true_iff, decide_eq_true_iff] at accepted
            exact ⟨pPt, rPt, lifted, Nat.not_le.mp below, Nat.not_le.mp below', summed, accepted⟩
    · rintro ⟨pPt, rPt, lifted, below, below', summed, even, abscissa⟩
      rw [lifted]
      dsimp only
      rw [if_neg (by omega), summed]
      simp [even, abscissa]

/-- What the signing equation gives is accepted. -/
theorem Signs.accepted (signs : Signs msg pubkey sig d k) : schnorrVerify msg pubkey sig = true := by
  obtain ⟨r, s, secret, nonce, written, rfl⟩ := signs
  obtain ⟨pPt, represents, even, length, value⟩ := secret.represents
  obtain ⟨rPt, represents', even', length', value'⟩ := nonce.represents
  obtain ⟨length'', scalar⟩ := bytesFromInt_eq_ok_iff.mp written
  have front : (r ++ s).take 32 = r := by rw [← length', List.take_left]
  have back : (r ++ s).drop 32 = s := by rw [← length', List.drop_left]
  have same : (k + challenge r pubkey msg * d) % N = intFromBytes s := by exact_mod_cast scalar
  have below : intFromBytes s < N := same ▸ Nat.mod_lt _ prime_N.pos
  have e : N - challenge r pubkey msg < 2 ^ 256 := by have := N_lt; omega
  have sum := represents_add (represents_multiple below) (represents_mul represents e)
  rw [(equation_iff below challenge_lt).mpr same] at sum
  rw [schnorrVerify_eq_true_iff, front, back]
  refine ⟨length, by rw [List.length_append, length', length''], pPt, rPt,
    liftX_eq_some_iff.mpr ⟨value, even, _, represents⟩, ?_, below, sum.injective represents', even', value'⟩
  have := represents'.bounds.1.2
  omega

/-- What is accepted is what the signing equation gives for a nonce. -/
theorem exists_signs (accepted : schnorrVerify msg pubkey sig = true) : ∃ d k, Signs msg pubkey sig d k := by
  obtain ⟨length, length', pPt, rPt, lifted, _, below, summed, even, value⟩ := schnorrVerify_eq_true_iff.mp accepted
  obtain ⟨abscissa, even', Q, represents⟩ := liftX_eq_some_iff.mp lifted
  obtain ⟨d, small, rfl⟩ := exists_multiple Q
  have e : N - challenge (sig.take 32) pubkey msg < 2 ^ 256 := by have := N_lt; omega
  have sum := represents_add (represents_multiple below) (represents_mul represents e)
  rw [summed] at sum
  obtain ⟨k, small', nonce⟩ := exists_multiple
    (intFromBytes (sig.drop 32) • generator + (N - challenge (sig.take 32) pubkey msg) • d • generator)
  rw [← nonce] at sum
  have positive : ∀ {n : Nat}, n • generator ≠ 0 → 1 ≤ n := fun nonzero => Nat.one_le_iff_ne_zero.mpr (by
    rintro rfl
    exact nonzero (zero_nsmul _))
  refine ⟨d, k, sig.take 32, sig.drop 32, ?_, ?_, ?_, (List.take_append_drop 32 sig).symm⟩
  · exact evenMultiple_of_represents (positive represents.ne_zero) small represents even' length abscissa
  · refine evenMultiple_of_represents (positive sum.ne_zero) small' sum even ?_ value
    rw [List.length_take, length']
    rfl
  · refine bytesFromInt_eq_ok_iff.mpr ⟨by rw [List.length_drop, length'], ?_⟩
    exact_mod_cast (equation_iff below challenge_lt).mp nonce.symm

/-- The verifier accepts exactly the signatures that the equation gives for a secret of the key and
some nonce. -/
theorem accepts_iff_signs : schnorrVerify msg pubkey sig = true ↔ ∃ d k, Signs msg pubkey sig d k :=
  ⟨exists_signs, fun ⟨_, _, signs⟩ => signs.accepted⟩

end

/-- What the signer does: it raises for a secret out of range, for randomness of another length and
for a zero nonce, and else returns a signature of 64 bytes that verifies with the public key. -/
def SignsSoundly (msg seckey auxRand : Bytes) : Prop :=
  match schnorrSign msg seckey auxRand with
  | .ok sig => sig.length = 64 ∧ ∃ pubkey, pubkeyGen seckey = .ok pubkey ∧ schnorrVerify msg pubkey sig = true
  | .error raised =>
      (raised = .secretKeyOutOfRange ∧ pubkeyGen seckey = .error .secretKeyOutOfRange) ∨
        (raised = .auxRandLength ∧ auxRand.length ≠ 32) ∨ raised = .negligible

section
variable {msg seckey auxRand pubkey : Bytes} {raised : Raised}

theorem signWith_signs {d k0 : Nat} (msg : Bytes) (secret : EvenMultiple d pubkey) (positive : 1 ≤ k0)
    (below : k0 < N) :
    ∃ sig k, signWith msg pubkey d k0 = .ok sig ∧ Signs msg pubkey sig d k := by
  obtain ⟨k, r, chosen, written, even⟩ := evenScalar_spec positive below
  have small : (k + challenge r pubkey msg * d) % N < 2 ^ 256 := (Nat.mod_lt _ prime_N.pos).trans N_lt
  obtain ⟨s, answered, _⟩ := bytesFromInt_natCast small
  have signs : Signs msg pubkey (r ++ s) d k := ⟨r, s, secret, even, answered, rfl⟩
  refine ⟨r ++ s, k, ?_, signs⟩
  rw [signWith, bind_ok_iff]
  refine ⟨k, chosen, bind_ok_iff.mpr ⟨r, written, bind_ok_iff.mpr ⟨s, answered, ?_⟩⟩⟩
  rw [if_pos signs.accepted]

theorem Signs.length {d k : Nat} {sig : Bytes} (signs : Signs msg pubkey sig d k) : sig.length = 64 := by
  obtain ⟨r, s, _, nonce, written, rfl⟩ := signs
  obtain ⟨_, _, _, length, _⟩ := nonce.represents
  rw [List.length_append, length, (bytesFromInt_eq_ok_iff.mp written).1]

/-- The check that the signer ends with never fails, and no conversion to bytes overflows. -/
theorem signsSoundly (msg seckey auxRand : Bytes) : SignsSoundly msg seckey auxRand := by
  have positive := prime_N.pos
  by_cases range : 1 ≤ intFromBytes seckey ∧ intFromBytes seckey ≤ N - 1
  · by_cases length : auxRand.length = 32
    · obtain ⟨d, pubkey, even, written, secret⟩ := evenScalar_spec range.1 (by omega : intFromBytes seckey < N)
      obtain ⟨padded, bytes, _⟩ := bytesFromInt_natCast (secret.1.2.trans N_lt)
      have key : pubkeyGen seckey = .ok pubkey := by rw [pubkeyGen, if_neg (not_not.mpr range), written]
      obtain ⟨k0, drawn, small⟩ : ∃ k0, nonce msg pubkey auxRand d = .ok k0 ∧ k0 < N :=
        ⟨_, bind_ok_iff.mpr ⟨padded, bytes, rfl⟩, Nat.mod_lt _ positive⟩
      have signed : schnorrSign msg seckey auxRand =
          if k0 = 0 then .error .negligible else signWith msg pubkey d k0 := by
        rw [schnorrSign, if_neg (not_not.mpr range), if_neg (not_not.mpr length)]
        dsimp only
        rw [even, ok_bind, written, ok_bind, drawn, ok_bind]
      rw [SignsSoundly, signed]
      by_cases zero : k0 = 0
      · rw [if_pos zero]
        exact .inr (.inr rfl)
      · obtain ⟨sig, k, answered, signs⟩ := signWith_signs msg secret (by omega) small
        rw [if_neg zero, answered]
        exact ⟨signs.length, pubkey, key, signs.accepted⟩
    · rw [SignsSoundly, schnorrSign, if_neg (not_not.mpr range), if_pos length]
      exact .inr (.inl ⟨rfl, length⟩)
  · rw [SignsSoundly, schnorrSign, if_pos range]
    exact .inl ⟨rfl, by rw [pubkeyGen, if_pos range]⟩

/-- The secret from two signatures with one nonce. -/
def recovered (pubkey msg msg' sig sig' : Bytes) : Nat :=
  let e := challenge (sig.take 32) pubkey msg
  let e' := challenge (sig'.take 32) pubkey msg'
  (intFromBytes (sig.drop 32) + (N - intFromBytes (sig'.drop 32))) * powMod (e + (N - e')) (N - 2) N % N

/-- Two signatures with one nonce are one where their challenges are, and else have the secret. -/
def OneNonce (pubkey msg msg' sig sig' : Bytes) : Prop :=
  if challenge (sig.take 32) pubkey msg = challenge (sig'.take 32) pubkey msg' then sig = sig'
  else pubkeyGen (bigEndian 32 (recovered pubkey msg msg' sig sig')) = .ok pubkey

theorem Signs.parts {d k : Nat} {sig : Bytes} (signs : Signs msg pubkey sig d k) : EvenMultiple k (sig.take 32) ∧
    intFromBytes (sig.drop 32) = (k + challenge (sig.take 32) pubkey msg * d) % N := by
  obtain ⟨r, s, _, nonce, written, rfl⟩ := signs
  obtain ⟨_, _, _, length, _⟩ := nonce.represents
  rw [← length, List.take_left, List.drop_left]
  exact ⟨nonce, by exact_mod_cast (bytesFromInt_eq_ok_iff.mp written).2.symm⟩

theorem pubkeyGen_of_even {d : Nat} (secret : EvenMultiple d pubkey) : pubkeyGen (bigEndian 32 d) = .ok pubkey := by
  obtain ⟨⟨positive, below⟩, pt, multiple, _, written⟩ := secret
  have value : intFromBytes (bigEndian 32 d) = d := by
    have := N_lt
    rw [intFromBytes_bigEndian, Nat.mod_eq_of_lt (by omega)]
  rw [pubkeyGen, value, if_neg (by omega), multiple]
  exact written

/-- The difference of two answers over that of their challenges is the secret. -/
theorem recovered_eq {msg' sig sig' : Bytes} {d k : Nat} (signs : Signs msg pubkey sig d k)
    (signs' : Signs msg' pubkey sig' d k)
    (differ : challenge (sig.take 32) pubkey msg ≠ challenge (sig'.take 32) pubkey msg') :
    recovered pubkey msg msg' sig sig' = d := by
  have fact := Fact.mk prime_N
  obtain ⟨_, answer⟩ := signs.parts
  obtain ⟨_, answer'⟩ := signs'.parts
  have below : intFromBytes (sig'.drop 32) < N := answer' ▸ Nat.mod_lt _ prime_N.pos
  have nonzero : (challenge (sig.take 32) pubkey msg : ZMod N) - challenge (sig'.take 32) pubkey msg' ≠ 0 := by
    intro zero
    have same := (ZMod.natCast_eq_natCast_iff' _ _ N).mp (sub_eq_zero.mp zero)
    rw [Nat.mod_eq_of_lt challenge_lt, Nat.mod_eq_of_lt challenge_lt] at same
    exact differ same
  have inverse := ZMod.pow_card_sub_one_eq_one nonzero
  have field : (recovered pubkey msg msg' sig sig' : ZMod N) = d := by
    rw [recovered, ZMod.natCast_mod, powMod_eq, Nat.cast_mul, ZMod.natCast_mod, Nat.cast_pow, Nat.cast_add,
      Nat.cast_add, Nat.cast_sub below.le, Nat.cast_sub challenge_lt.le, ZMod.natCast_self, zero_sub,
      zero_sub, ← sub_eq_add_neg, ← sub_eq_add_neg, answer, answer', ZMod.natCast_mod, ZMod.natCast_mod]
    have exponent : N - 1 = N - 2 + 1 := by have := prime_N.two_le; omega
    rw [exponent, pow_succ] at inverse
    push_cast
    linear_combination (d : ZMod N) * inverse
  have same := (ZMod.natCast_eq_natCast_iff' _ _ N).mp field
  obtain ⟨_, _, secret, _⟩ := signs
  rw [Nat.mod_eq_of_lt secret.1.2] at same
  rw [← same, recovered, Nat.mod_mod]

/-- Signatures accepted for one key with one nonce: for one challenge they are the same, and for two
anybody computes the secret key. -/
theorem oneNonce {msg' sig sig' : Bytes} (accepted : schnorrVerify msg pubkey sig = true)
    (accepted' : schnorrVerify msg' pubkey sig' = true) (nonce : sig.take 32 = sig'.take 32) :
    OneNonce pubkey msg msg' sig sig' := by
  obtain ⟨d, k, signs⟩ := exists_signs accepted
  obtain ⟨d', k', signs'⟩ := exists_signs accepted'
  obtain ⟨even, answer⟩ := signs.parts
  obtain ⟨even', answer'⟩ := signs'.parts
  obtain ⟨_, _, secret, _⟩ := id signs
  obtain ⟨_, _, secret', _⟩ := id signs'
  obtain rfl := secret.unique secret'
  obtain rfl := even.unique (nonce ▸ even')
  rw [OneNonce]
  split
  · rename_i one
    have back : sig.drop 32 = sig'.drop 32 := by
      rw [← bigEndian_intFromBytes (b := sig.drop 32), ← bigEndian_intFromBytes (b := sig'.drop 32), answer, answer',
        one, List.length_drop, List.length_drop, signs.length, signs'.length]
    rw [← List.take_append_drop 32 sig, nonce, back, List.take_append_drop]
  · rename_i differ
    rw [recovered_eq signs signs' differ]
    exact pubkeyGen_of_even secret

end

/-- The abscissa of `G`, the key of the secret one. -/
def gBytes : Bytes := bigEndian 32 G.1.toNat

/-- Made with the secret one and the nonce one. -/
def unitSignature (msg : Bytes) : Bytes := gBytes ++ bigEndian 32 ((1 + challenge gBytes gBytes msg * 1) % N)

theorem evenMultiple_one : EvenMultiple 1 gBytes := by
  have represents : Represents (some G) (1 • generator) := by
    rw [one_nsmul]
    exact represents_generator
  exact evenMultiple_of_represents le_rfl prime_N.one_lt represents (by decide +kernel) length_bigEndian
    (by decide +kernel)

theorem signs_unit (msg : Bytes) : Signs msg gBytes (unitSignature msg) 1 1 := by
  have small : (1 + challenge gBytes gBytes msg * 1) % N < 2 ^ 256 := (Nat.mod_lt _ prime_N.pos).trans N_lt
  refine ⟨gBytes, _, evenMultiple_one, evenMultiple_one, bytesFromInt_eq_ok_iff.mpr ⟨length_bigEndian, ?_⟩, rfl⟩
  rw [intFromBytes_bigEndian, Nat.mod_eq_of_lt (small.trans_eq (by norm_num))]

theorem take_unit (msg : Bytes) : (unitSignature msg).take 32 = gBytes := by
  have length : gBytes.length = 32 := length_bigEndian
  rw [unitSignature, ← length, List.take_left]

/-- Two messages signed with one nonce. -/
theorem oneNonce_unit :
    pubkeyGen (bigEndian 32 (recovered gBytes [] [0] (unitSignature []) (unitSignature [0]))) = .ok gBytes := by
  have differ : challenge gBytes gBytes [] ≠ challenge gBytes gBytes [0] := by decide +kernel
  have given := oneNonce (signs_unit []).accepted (signs_unit [0]).accepted
    ((take_unit []).trans (take_unit [0]).symm)
  rw [OneNonce, take_unit, take_unit, if_neg differ] at given
  exact given

end Argentum.Bip340
