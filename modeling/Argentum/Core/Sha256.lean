import Argentum.Core.Text
import Mathlib.Algebra.Group.Nat.Defs

/-! SHA-256 on bytes: 32-bit words are naturals below `2 ^ 32`, a block is sixteen
words, and the message schedule slides a window of sixteen words along. -/
namespace Argentum.Sha256
open Text

def add (x y : Nat) : Nat := (x + y) % 2 ^ 32

def rotr (n x : Nat) : Nat := (x >>> n ||| x <<< (32 - n)) % 2 ^ 32

def bigSigma0 (x : Nat) : Nat := rotr 2 x ^^^ rotr 13 x ^^^ rotr 22 x

def bigSigma1 (x : Nat) : Nat := rotr 6 x ^^^ rotr 11 x ^^^ rotr 25 x

def smallSigma0 (x : Nat) : Nat := rotr 7 x ^^^ rotr 18 x ^^^ x >>> 3

def smallSigma1 (x : Nat) : Nat := rotr 17 x ^^^ rotr 19 x ^^^ x >>> 10

def choose (x y z : Nat) : Nat := (x &&& y) ^^^ ((2 ^ 32 - 1 - x) &&& z)

def majority (x y z : Nat) : Nat := (x &&& y) ^^^ (x &&& z) ^^^ (y &&& z)

def constants : List Nat := [
  0x428a2f98, 0x71374491, 0xb5c0fbcf, 0xe9b5dba5, 0x3956c25b, 0x59f111f1, 0x923f82a4, 0xab1c5ed5,
  0xd807aa98, 0x12835b01, 0x243185be, 0x550c7dc3, 0x72be5d74, 0x80deb1fe, 0x9bdc06a7, 0xc19bf174,
  0xe49b69c1, 0xefbe4786, 0x0fc19dc6, 0x240ca1cc, 0x2de92c6f, 0x4a7484aa, 0x5cb0a9dc, 0x76f988da,
  0x983e5152, 0xa831c66d, 0xb00327c8, 0xbf597fc7, 0xc6e00bf3, 0xd5a79147, 0x06ca6351, 0x14292967,
  0x27b70a85, 0x2e1b2138, 0x4d2c6dfc, 0x53380d13, 0x650a7354, 0x766a0abb, 0x81c2c92e, 0x92722c85,
  0xa2bfe8a1, 0xa81a664b, 0xc24b8b70, 0xc76c51a3, 0xd192e819, 0xd6990624, 0xf40e3585, 0x106aa070,
  0x19a4c116, 0x1e376c08, 0x2748774c, 0x34b0bcb5, 0x391c0cb3, 0x4ed8aa4a, 0x5b9cca4f, 0x682e6ff3,
  0x748f82ee, 0x78a5636f, 0x84c87814, 0x8cc70208, 0x90befffa, 0xa4506ceb, 0xbef9a3f7, 0xc67178f2]

structure State where
  a : Nat
  b : Nat
  c : Nat
  d : Nat
  e : Nat
  f : Nat
  g : Nat
  h : Nat

def initial : State where
  a := 0x6a09e667
  b := 0xbb67ae85
  c := 0x3c6ef372
  d := 0xa54ff53a
  e := 0x510e527f
  f := 0x9b05688c
  g := 0x1f83d9ab
  h := 0x5be0cd19

/-- The first `n` scheduled words, from the sixteen next ones. -/
def schedule : Nat → List Nat → List Nat
  | n + 1, word :: rest =>
      let next := add (add (smallSigma1 (rest.getD 13 0)) (rest.getD 8 0))
        (add (smallSigma0 (rest.getD 0 0)) word)
      word :: schedule n (rest ++ [next])
  | _, _ => []

def round (s : State) (constant word : Nat) : State :=
  let first := add (add s.h (bigSigma1 s.e)) (add (choose s.e s.f s.g) (add constant word))
  let second := add (bigSigma0 s.a) (majority s.a s.b s.c)
  { a := add first second, b := s.a, c := s.b, d := s.c
    e := add s.d first, f := s.e, g := s.f, h := s.g }

def rounds : State → List Nat → List Nat → State
  | s, constant :: constants, word :: words => rounds (round s constant word) constants words
  | s, _, _ => s

def compress (s : State) (block : List Nat) : State :=
  let r := rounds s constants (schedule 64 block)
  { a := add s.a r.a, b := add s.b r.b, c := add s.c r.c, d := add s.d r.d
    e := add s.e r.e, f := add s.f r.f, g := add s.g r.g, h := add s.h r.h }

/-- Compress every full block of sixteen words. -/
def absorb : State → List Nat → List Nat → State
  | s, _, [] => s
  | s, block, word :: rest =>
      if block.length = 15 then absorb (compress s (block ++ [word])) [] rest
      else absorb s (block ++ [word]) rest

def wordsOf : Bytes → List Nat
  | a :: b :: c :: d :: rest =>
      (((a.val * 256 + b.val) * 256 + c.val) * 256 + d.val) :: wordsOf rest
  | _ => []

/-- The big-endian bytes of a 32-bit word. -/
def wordBytes (word : Nat) : Bytes :=
  [byte (word >>> 24), byte (word >>> 16), byte (word >>> 8), byte word]

/-- One bit, zeros up to the length field of the last block, and the length in bits. -/
def padding (length : Nat) : Bytes :=
  128 :: List.replicate ((119 - length % 64) % 64) 0 ++
    wordBytes (8 * length / 2 ^ 32) ++ wordBytes (8 * length)

@[irreducible] def sha256 (message : Bytes) : Bytes :=
  let s := absorb initial [] (wordsOf (message ++ padding message.length))
  [s.a, s.b, s.c, s.d, s.e, s.f, s.g, s.h].flatMap wordBytes

@[simp] theorem length_sha256 (message : Bytes) : (sha256 message).length = 32 := by
  simp [sha256, wordBytes]

example : sha256 [] = [
    0xe3, 0xb0, 0xc4, 0x42, 0x98, 0xfc, 0x1c, 0x14, 0x9a, 0xfb, 0xf4, 0xc8, 0x99, 0x6f, 0xb9, 0x24,
    0x27, 0xae, 0x41, 0xe4, 0x64, 0x9b, 0x93, 0x4c, 0xa4, 0x95, 0x99, 0x1b, 0x78, 0x52, 0xb8, 0x55] := by
  decide +kernel

end Argentum.Sha256
