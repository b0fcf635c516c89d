import Mathlib.Algebra.Group.Nat.Defs
import Mathlib.Algebra.Ring.Nat
import Mathlib.Data.List.Basic
import Mathlib.Tactic.Common

/-!
# SHA-256

The hash of FIPS 180-4 on byte lists. Words are natural numbers below `2^32`;
a rotation shifts a word laid out twice. The operations on them are called by name,
so that a proof by evaluation has no instance to unfold.
-/

namespace Sha256

def addWord (x y : Nat) : Nat := Nat.mod (Nat.add x y) 4294967296

/-- `x` rotated right by `n`, up to a multiple of `2^32`. -/
def rotr (n x : Nat) : Nat := Nat.shiftRight (Nat.mul x 4294967297) n

def bigSigma0 (x : Nat) : Nat := Nat.mod (Nat.xor (Nat.xor (rotr 2 x) (rotr 13 x)) (rotr 22 x)) 4294967296
def bigSigma1 (x : Nat) : Nat := Nat.mod (Nat.xor (Nat.xor (rotr 6 x) (rotr 11 x)) (rotr 25 x)) 4294967296
def smallSigma0 (x : Nat) : Nat := Nat.mod (Nat.xor (Nat.xor (rotr 7 x) (rotr 18 x)) (Nat.shiftRight x 3)) 4294967296
def smallSigma1 (x : Nat) : Nat := Nat.mod (Nat.xor (Nat.xor (rotr 17 x) (rotr 19 x)) (Nat.shiftRight x 10)) 4294967296

def ch (x y z : Nat) : Nat := Nat.xor z (Nat.land x (Nat.xor y z))
def maj (x y z : Nat) : Nat := Nat.lor (Nat.land x y) (Nat.land z (Nat.lor x y))

def K : List Nat := [
  0x428a2f98, 0x71374491, 0xb5c0fbcf, 0xe9b5dba5, 0x3956c25b, 0x59f111f1, 0x923f82a4, 0xab1c5ed5,
  0xd807aa98, 0x12835b01, 0x243185be, 0x550c7dc3, 0x72be5d74, 0x80deb1fe, 0x9bdc06a7, 0xc19bf174,
  0xe49b69c1, 0xefbe4786, 0x0fc19dc6, 0x240ca1cc, 0x2de92c6f, 0x4a7484aa, 0x5cb0a9dc, 0x76f988da,
  0x983e5152, 0xa831c66d, 0xb00327c8, 0xbf597fc7, 0xc6e00bf3, 0xd5a79147, 0x06ca6351, 0x14292967,
  0x27b70a85, 0x2e1b2138, 0x4d2c6dfc, 0x53380d13, 0x650a7354, 0x766a0abb, 0x81c2c92e, 0x92722c85,
  0xa2bfe8a1, 0xa81a664b, 0xc24b8b70, 0xc76c51a3, 0xd192e819, 0xd6990624, 0xf40e3585, 0x106aa070,
  0x19a4c116, 0x1e376c08, 0x2748774c, 0x34b0bcb5, 0x391c0cb3, 0x4ed8aa4a, 0x5b9cca4f, 0x682e6ff3,
  0x748f82ee, 0x78a5636f, 0x84c87814, 0x8cc70208, 0x90befffa, 0xa4506ceb, 0xbef9a3f7, 0xc67178f2]

structure State where
  (a b c d e f g h : Nat)

def iv : State :=
  ⟨0x6a09e667, 0xbb67ae85, 0x3c6ef372, 0xa54ff53a, 0x510e527f, 0x9b05688c, 0x1f83d9ab, 0x5be0cd19⟩

def round (s : State) (k w : Nat) : State :=
  let t₁ := Nat.add (Nat.add (Nat.add (Nat.add s.h (bigSigma1 s.e)) (ch s.e s.f s.g)) k) w
  let t₂ := Nat.add (bigSigma0 s.a) (maj s.a s.b s.c)
  ⟨addWord t₁ t₂, s.a, s.b, s.c, addWord s.d t₁, s.e, s.f, s.g⟩

/-- The word of the schedule that follows a window of sixteen. -/
def nextWord (w₀ w₁ w₉ w₁₄ : Nat) : Nat :=
  Nat.mod (Nat.add (Nat.add (Nat.add (smallSigma1 w₁₄) w₉) (smallSigma0 w₁)) w₀) 4294967296

/-- The rounds with the constants `ks`, from a window of the message schedule. -/
def rounds (ks : List Nat) (w₀ w₁ w₂ w₃ w₄ w₅ w₆ w₇ w₈ w₉ w₁₀ w₁₁ w₁₂ w₁₃ w₁₄ w₁₅ : Nat) (s : State) : State :=
  match ks with
  | [] => s
  | k :: ks => rounds ks w₁ w₂ w₃ w₄ w₅ w₆ w₇ w₈ w₉ w₁₀ w₁₁ w₁₂ w₁₃ w₁₄ w₁₅ (nextWord w₀ w₁ w₉ w₁₄) (round s k w₀)

def State.add (s r : State) : State :=
  ⟨addWord s.a r.a, addWord s.b r.b, addWord s.c r.c, addWord s.d r.d,
    addWord s.e r.e, addWord s.f r.f, addWord s.g r.g, addWord s.h r.h⟩

/-- Compress the first `n` blocks of sixteen words. -/
def absorb : Nat → List Nat → State → State
  | n + 1,
    w₀ :: w₁ :: w₂ :: w₃ :: w₄ :: w₅ :: w₆ :: w₇ :: w₈ :: w₉ :: w₁₀ :: w₁₁ :: w₁₂ :: w₁₃ :: w₁₄ :: w₁₅ :: ws, s =>
    absorb n ws (s.add (rounds K w₀ w₁ w₂ w₃ w₄ w₅ w₆ w₇ w₈ w₉ w₁₀ w₁₁ w₁₂ w₁₃ w₁₄ w₁₅ s))
  | _, _, s => s

def wordsOf : List UInt8 → List Nat
  | a :: b :: c :: d :: rest =>
    Nat.add (Nat.mul (Nat.add (Nat.mul (Nat.add (Nat.mul a.toNat 256) b.toNat) 256) c.toNat) 256) d.toNat ::
      wordsOf rest
  | _ => []

def beBytes : Nat → Nat → List UInt8
  | 0, _ => []
  | k + 1, n => UInt8.ofNat (n / 256 ^ k % 256) :: beBytes k n

/-- The message, a one bit, zeros up to 56 modulo 64, and the length in bits. -/
def pad (m : List UInt8) : List UInt8 :=
  m ++ 0x80 :: List.replicate ((119 - m.length % 64) % 64) 0 ++ beBytes 8 (8 * m.length)

def digest (m : List UInt8) : List UInt8 :=
  let p := pad m
  let s := absorb (p.length / 64) (wordsOf p) iv
  [s.a, s.b, s.c, s.d, s.e, s.f, s.g, s.h].flatMap (beBytes 4)

theorem beBytes_length : ∀ k n, (beBytes k n).length = k
  | 0, _ => rfl
  | k + 1, n => by simp [beBytes, beBytes_length k]

theorem digest_length (m : List UInt8) : (digest m).length = 32 := by
  simp [digest, beBytes_length]

set_option maxRecDepth 4000 in
-- the one-block vector of the standard, `abc`
example : (digest [0x61, 0x62, 0x63]).take 4 = [0xba, 0x78, 0x16, 0xbf] := by decide +kernel

end Sha256
