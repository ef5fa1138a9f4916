import Argentum.Core.Primality
import Argentum.Core.Curve
import Argentum.Core.Sha256

/-! Schnorr signatures over secp256k1, `bip340.py`: affine points with a Fermat inverse, 256
doublings for a multiple, keys and nonces of even ordinate. The points computed are those of the
group of the curve, which is of prime order. -/
namespace Argentum.Bip340
open Text Sha256 Primality Curve

@[irreducible] def P : Nat := 2 ^ 256 - 2 ^ 32 - 977

@[irreducible] def N : Nat := 0xFFFFFFFFFFFFFFFFFFFFFFFFFFFFFFFEBAAEDCE6AF48A03BBFD25E8CD0364141

abbrev Coordinates := Int × Int

@[irreducible] def G : Coordinates := (0x79BE667EF9DCBBAC55A06295CE870B07029BFCDB2DCE28D959F2815B16F81798,
  0x483ADA7726A3C4655DA4FBFC0E1108A8FD17B448A68554199C47D08FFB10D4B8)

/-- `pow(base, exponent, modulus)` -/
def pow (base : Int) (exponent modulus : Nat) : Int := (powMod (base % modulus).toNat exponent modulus : Nat)

/-- Nothing is the point at infinity. -/
def pointAdd : Option Coordinates → Option Coordinates → Option Coordinates
  | none, p2 => p2
  | some p1, none => some p1
  | some p1, some p2 =>
      if p1.1 = p2.1 ∧ p1.2 ≠ p2.2 then none
      else
        let lam :=
          if p1 = p2 then (3 * p1.1 * p1.1 * pow (2 * p1.2) (P - 2) P) % P
          else ((p2.2 - p1.2) * pow (p2.1 - p1.1) (P - 2) P) % P
        let x3 := (lam * lam - p1.1 - p2.1) % P
        some (x3, (lam * (p1.1 - x3) - p1.2) % P)

/-- The loop of `point_mul` over the accumulator and the doubled point. -/
def mulStep (scalar : Nat) (s : Option Coordinates × Option Coordinates) (i : Nat) :
    Option Coordinates × Option Coordinates :=
  (if (scalar >>> i) &&& 1 = 1 then pointAdd s.1 s.2 else s.1, pointAdd s.2 s.2)

def pointMul (pt : Option Coordinates) (scalar : Nat) : Option Coordinates :=
  ((List.range 256).foldl (mulStep scalar) (none, pt)).1

/-- What is raised. -/
inductive Raised where
  | secretKeyOutOfRange
  | auxRandLength
  | negligible
  | doesNotVerify
  | overflowError
  | typeError
  deriving DecidableEq

/-- The big-endian bytes of a natural, the highest left off. -/
def bigEndian : Nat → Nat → Bytes
  | 0, _ => []
  | count + 1, x => byte (x / 256 ^ count) :: bigEndian count x

def bytesFromInt (x : Int) : Except Raised Bytes :=
  if 0 ≤ x ∧ x < 256 ^ 32 then .ok (bigEndian 32 x.toNat) else .error .overflowError

def bytesFromPoint : Option Coordinates → Except Raised Bytes
  | none => .error .typeError
  | some pt => bytesFromInt pt.1

def intFromBytes (b : Bytes) : Nat := b.foldl (fun n digit => 256 * n + digit.val) 0

def xorBytes (b0 b1 : Bytes) : Bytes := List.zipWith (fun a b => byte (a.val ^^^ b.val)) b0 b1

def hasEvenY : Option Coordinates → Except Raised Bool
  | none => .error .typeError
  | some pt => .ok (pt.2 % 2 = 0)

def liftX (x : Nat) : Option Coordinates :=
  if x ≥ P then none
  else
    let ySq := (pow x 3 P + 7) % P
    let y := pow ySq ((P + 1) / 4) P
    if pow y 2 P ≠ ySq then none
    else some (x, if y % 2 = 0 then y else P - y)

def taggedHash (tag : Str) (msg : Bytes) : Bytes :=
  let tagHash := sha256 ((utf8 tag).getD [])
  sha256 (tagHash ++ tagHash ++ msg)

/-- `e` of signer and verifier. -/
def challenge (r pubkey msg : Bytes) : Nat :=
  intFromBytes (taggedHash (ofString "BIP0340/challenge") (r ++ pubkey ++ msg)) % N

def pubkeyGen (seckey : Bytes) : Except Raised Bytes :=
  let d0 := intFromBytes seckey
  if ¬ (1 ≤ d0 ∧ d0 ≤ N - 1) then .error .secretKeyOutOfRange
  else bytesFromPoint (pointMul (some G) d0)

def schnorrVerify (msg pubkey sig : Bytes) : Bool :=
  if pubkey.length ≠ 32 ∨ sig.length ≠ 64 then false
  else
    let r := intFromBytes (sig.take 32)
    let s := intFromBytes (sig.drop 32)
    match liftX (intFromBytes pubkey) with
    | none => false
    | some pPt =>
        if r ≥ P ∨ s ≥ N then false
        else
          let e := challenge (sig.take 32) pubkey msg
          match pointAdd (pointMul (some G) s) (pointMul (some pPt) (N - e)) with
          | none => false
          | some rPt => rPt.2 % 2 = 0 && rPt.1 = r

/-- The secret scalar whose point has an even ordinate. -/
def evenScalar (pt : Option Coordinates) (k0 : Nat) : Except Raised Nat := do
  return if ← hasEvenY pt then k0 else N - k0

/-- `k0`, from the secret masked with the hash of the randomness. -/
def nonce (msg pubkey auxRand : Bytes) (d : Nat) : Except Raised Nat := do
  let t := xorBytes (← bytesFromInt d) (taggedHash (ofString "BIP0340/aux") auxRand)
  return intFromBytes (taggedHash (ofString "BIP0340/nonce") (t ++ pubkey ++ msg)) % N

/-- The signature with a nonce, which the signer verifies before it returns it. -/
def signWith (msg pubkey : Bytes) (d k0 : Nat) : Except Raised Bytes := do
  let rPt := pointMul (some G) k0
  let k ← evenScalar rPt k0
  let r ← bytesFromPoint rPt
  let s ← bytesFromInt ((k + challenge r pubkey msg * d) % N : Nat)
  if schnorrVerify msg pubkey (r ++ s) then .ok (r ++ s) else .error .doesNotVerify

def schnorrSign (msg seckey auxRand : Bytes) : Except Raised Bytes :=
  let d0 := intFromBytes seckey
  if ¬ (1 ≤ d0 ∧ d0 ≤ N - 1) then .error .secretKeyOutOfRange
  else if auxRand.length ≠ 32 then .error .auxRandLength
  else do
    let pPt := pointMul (some G) d0
    let d ← evenScalar pPt d0
    let pubkey ← bytesFromPoint pPt
    let k0 ← nonce msg pubkey auxRand d
    if k0 = 0 then .error .negligible else signWith msg pubkey d k0

end Argentum.Bip340
