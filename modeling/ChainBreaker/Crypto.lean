import ChainBreaker.Py
import ChainBreaker.Lib.Fallible
import ChainBreaker.Lib.Lex
import ChainBreaker.Lib.Sha256

/-!
# Hashing, canonical JSON, Merkle trees and targets

`Primitives` holds what the code takes from outside: SHA-256, the Ed25519
check of the `cryptography` package on a raw 32-byte key, and the decimal form
of a finite float. Everything above them is the source's own.
-/

namespace ChainBreaker

open Fallible

structure Primitives where
  sha256 : Bytes → Bytes
  sha256_length : ∀ m, (sha256 m).length = 32
  /-- public key, signature, message -/
  ed25519Verify : Bytes → Bytes → Bytes → Bool
  floatRepr : UInt64 → Bytes

/-- SHA-256 itself, with Ed25519 known at the recorded (key, message, signature)
triples. -/
def recorded (signatures : List (Str × Str × Str)) : Primitives where
  sha256 := Sha256.digest
  sha256_length := Sha256.digest_length
  ed25519Verify := fun pk sig msg => signatures.any fun (k, m, s) =>
    fromHex k == some pk && fromHex m == some msg && fromHex s == some sig
  floatRepr := fun _ => []

/-! ## Canonical JSON -/

def hex4 (n : Nat) : Bytes :=
  [n / 4096 % 16, n / 256 % 16, n / 16 % 16, n % 16].map fun d => UInt8.ofNat (hexDigit d).val

def unicodeEscape (n : Nat) : Bytes := 92 :: 117 :: hex4 n

/-- One character of an `ensure_ascii` string: short escapes, then `\uXXXX`,
with a surrogate pair above the basic plane. -/
def escapeChar (c : CodePoint) : Bytes :=
  let n := c.val
  if n = 34 then [92, 34]
  else if n = 92 then [92, 92]
  else if n = 10 then [92, 110]
  else if n = 13 then [92, 114]
  else if n = 9 then [92, 116]
  else if n = 12 then [92, 102]
  else if n = 8 then [92, 98]
  else if 32 ≤ n ∧ n ≤ 126 then [UInt8.ofNat n]
  else if n < 0x10000 then unicodeEscape n
  else unicodeEscape (0xD800 + (n - 0x10000) / 1024) ++ unicodeEscape (0xDC00 + (n - 0x10000) % 1024)

def jsonStr (s : Str) : Bytes := 34 :: s.flatMap escapeChar ++ [34]

def natRepr (n : Nat) : Bytes := (Nat.toDigits 10 n).map fun c => UInt8.ofNat c.toNat

def intRepr (n : Int) : Bytes := if n < 0 then 45 :: natRepr n.natAbs else natRepr n.natAbs

/-- Not an infinity and not a NaN. -/
def floatFinite (bits : UInt64) : Bool := bits.toNat / 2 ^ 52 % 2048 != 2047

def joinComma : List Bytes → Bytes
  | [] => []
  | [b] => b
  | b :: bs => b ++ 44 :: joinComma bs

def charKey (c : CodePoint) : Nat := c.val

mutual
/-- `json.dumps` with sorted keys, no blanks, and `allow_nan=False`. -/
def dumps (fl : UInt64 → Bytes) : Json → Except PyErr Bytes
  | .null => .ok (ascii "null")
  | .bool b => .ok (ascii (if b then "true" else "false"))
  | .int n => .ok (intRepr n)
  | .float bits =>
    if floatFinite bits then .ok (fl bits)
    else raise .valueError "Out of range float values are not JSON compliant" []
  | .str s => .ok (jsonStr s)
  | .list xs => do
    let ps ← dumpsList fl xs
    .ok (91 :: joinComma ps ++ [93])
  | .dict fs => do
    -- every value that cannot be written raises the same error, so sorting last is no difference
    let ps ← dumpsFields fl fs
    .ok (123 :: joinComma ((Lex.sortOn charKey Prod.fst ps).map Prod.snd) ++ [125])
def dumpsList (fl : UInt64 → Bytes) : List Json → Except PyErr (List Bytes)
  | [] => .ok []
  | x :: xs => do
    let p ← dumps fl x
    let ps ← dumpsList fl xs
    .ok (p :: ps)
def dumpsFields (fl : UInt64 → Bytes) : List (Str × Json) → Except PyErr (List (Str × Bytes))
  | [] => .ok []
  | (k, v) :: fs => do
    let p ← dumps fl v
    let ps ← dumpsFields fl fs
    .ok ((k, jsonStr k ++ 58 :: p) :: ps)
end

section
variable (E : Primitives)

def canonicalJson (obj : Json) : Except PyErr Bytes := dumps E.floatRepr obj

/-! ## HashEngine -/

def doubleSha256 (data : Bytes) : Bytes := E.sha256 (E.sha256 data)

def hashSingleHex (data : Bytes) : Str := toHex (E.sha256 data)

def hashDoubleHex (data : Bytes) : Str := toHex (doubleSha256 E data)

def hashObject (obj : Json) : Except PyErr Bytes := do
  let data ← canonicalJson E obj
  .ok (E.sha256 data)

def hashObjectHex (obj : Json) : Except PyErr Str := do
  let digest ← hashObject E obj
  .ok (toHex digest)

/-! ## Merkle trees -/

/-- The level above: pairs hashed, a last leaf without a partner paired with itself. -/
def nextLevel : List Bytes → List Bytes
  | [] => []
  | [a] => [doubleSha256 E (a ++ a)]
  | a :: b :: rest => doubleSha256 E (a ++ b) :: nextLevel rest

/-- `MerkleTree._build`, with the number of leaves as fuel. -/
def buildLevels : Nat → List Bytes → List (List Bytes)
  | 0, current => [current]
  | n + 1, current =>
    if 1 < current.length then current :: buildLevels n (nextLevel E current) else [current]

def merkleLevels (leaves : List Bytes) : List (List Bytes) :=
  if leaves.isEmpty then [] else buildLevels E leaves.length leaves

/-- `MerkleTree(leaves).root`. -/
def merkleTreeRoot (leaves : List Bytes) : Option Bytes :=
  (merkleLevels E leaves).getLast?.bind List.head?

/-! ## Keys and signatures -/

def decodePublicKey (hexKey : Str) : Except PyErr Bytes := do
  let raw ← fromHexOrRaise hexKey
  if raw.length ≠ 32 then raise .valueError "Ed25519 public key must be 32 bytes" [] else .ok raw

def verify (pk : Bytes) (message : Bytes) (signatureHex : Str) : Bool :=
  match fromHex signatureHex with
  | none => false
  | some raw => if raw.length ≠ 64 then false else E.ed25519Verify pk raw message

end

/-! ## Targets and work -/

def MAX_TARGET : Int := 0x0000FFFF00000000000000000000000000000000000000000000000000000000
def MIN_TARGET : Int := 1

def targetToHex (target : Int) : Except PyErr Str := (toBytesBE 32 target).map toHex

def workForTargetV2 (target : Int) : Except PyErr Int :=
  if target ≤ 0 then raise .valueError "target must be positive" [] else .ok (MAX_TARGET / target)

/-! ## What always succeeds -/

mutual
/-- Every number in the value can be written as JSON. -/
def Json.finite : Json → Bool
  | .float bits => floatFinite bits
  | .list xs => finiteList xs
  | .dict fs => finiteFields fs
  | _ => true
def finiteList : List Json → Bool
  | [] => true
  | x :: xs => x.finite && finiteList xs
def finiteFields : List (Str × Json) → Bool
  | [] => true
  | (_, v) :: fs => v.finite && finiteFields fs
end

mutual
theorem dumps_ok_iff (fl : UInt64 → Bytes) : ∀ v, (∃ b, dumps fl v = .ok b) ↔ v.finite = true
  | .null => by simp [dumps, Json.finite]
  | .bool _ => by simp [dumps, Json.finite]
  | .int _ => by simp [dumps, Json.finite]
  | .str _ => by simp [dumps, Json.finite]
  | .float bits => by
    simp only [dumps, Json.finite, raise]
    split <;> simp_all
  | .list xs => by
    have ih := dumpsList_ok_iff fl xs
    simp only [dumps, Json.finite, bind_eq_ok]
    rw [← ih]
    exact ⟨fun ⟨_, ps, h, _⟩ => ⟨ps, h⟩, fun ⟨ps, h⟩ => ⟨_, ps, h, rfl⟩⟩
  | .dict fs => by
    have ih := dumpsFields_ok_iff fl fs
    simp only [dumps, Json.finite, bind_eq_ok]
    rw [← ih]
    exact ⟨fun ⟨_, ps, h, _⟩ => ⟨ps, h⟩, fun ⟨ps, h⟩ => ⟨_, ps, h, rfl⟩⟩
theorem dumpsList_ok_iff (fl : UInt64 → Bytes) :
    ∀ xs, (∃ ps, dumpsList fl xs = .ok ps) ↔ finiteList xs = true
  | [] => by simp [dumpsList, finiteList]
  | x :: xs => by
    simp only [dumpsList, finiteList, bind_eq_ok, Bool.and_eq_true]
    rw [← dumps_ok_iff fl x, ← dumpsList_ok_iff fl xs]
    exact ⟨fun ⟨_, p, hp, ps, hps, _⟩ => ⟨⟨p, hp⟩, ps, hps⟩,
      fun ⟨⟨p, hp⟩, ps, hps⟩ => ⟨_, p, hp, ps, hps, rfl⟩⟩
theorem dumpsFields_ok_iff (fl : UInt64 → Bytes) :
    ∀ fs, (∃ ps, dumpsFields fl fs = .ok ps) ↔ finiteFields fs = true
  | [] => by simp [dumpsFields, finiteFields]
  | (k, v) :: fs => by
    simp only [dumpsFields, finiteFields, bind_eq_ok, Bool.and_eq_true]
    rw [← dumps_ok_iff fl v, ← dumpsFields_ok_iff fl fs]
    exact ⟨fun ⟨_, p, hp, ps, hps, _⟩ => ⟨⟨p, hp⟩, ps, hps⟩,
      fun ⟨⟨p, hp⟩, ps, hps⟩ => ⟨_, p, hp, ps, hps, rfl⟩⟩
end

theorem finiteList_iff : ∀ {xs : List Json}, finiteList xs = true ↔ ∀ x ∈ xs, x.finite = true
  | [] => by simp [finiteList]
  | x :: xs => by simp [finiteList, @finiteList_iff xs]

theorem finiteFields_iff : ∀ {fs : List (Str × Json)}, finiteFields fs = true ↔ ∀ f ∈ fs, f.2.finite = true
  | [] => by simp [finiteFields]
  | (k, v) :: fs => by
    simp only [finiteFields, Bool.and_eq_true, @finiteFields_iff fs, List.forall_mem_cons]

theorem hashObject_ok_iff (E : Primitives) (v : Json) :
    (∃ b, hashObject E v = .ok b) ↔ v.finite = true := by
  rw [← dumps_ok_iff E.floatRepr v]
  simp only [hashObject, canonicalJson, bind_eq_ok]
  exact ⟨fun ⟨_, b, h, _⟩ => ⟨b, h⟩, fun ⟨b, h⟩ => ⟨_, b, h, rfl⟩⟩

end ChainBreaker
