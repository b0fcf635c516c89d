import Mathlib.Algebra.Group.Int.Defs
import Mathlib.Algebra.Group.Nat.Defs
import Mathlib.Algebra.Ring.Int.Defs
import Mathlib.Algebra.Ring.Nat
import Mathlib.Data.List.Basic
import Mathlib.Data.Fin.Basic
import Mathlib.Tactic.Common

/-!
# The Python values the code works on

Strings are lists of code points, lone surrogates included: `json` reads them
and `str.encode` refuses them. A JSON float is its binary64 pattern. A raised
exception carries its class and its text; `%` in the text marks where the
source formats the next of `args`.
-/

namespace ChainBreaker

abbrev Bytes := List UInt8

abbrev CodePoint := Fin 0x110000

instance (priority := high) codePoint_neZero : NeZero 0x110000 := ⟨by decide⟩

abbrev Str := List CodePoint

instance (priority := high) str_lawfulBEq : LawfulBEq Str := inferInstance

/-- The codes of ASCII text. -/
def asciiCodes : Bytes → Option (List Nat)
  | [] => some []
  | b :: bs => if b.toNat < 128 then (asciiCodes bs).map (b.toNat :: ·) else none

/-- The code points of the text. ASCII is read off its bytes, which proofs by evaluation do
much faster than `toList`. -/
def codePoints (s : String) : List Nat := (asciiCodes s.toByteArray.data.toList).getD (s.toList.map Char.toNat)

def str (s : String) : Str := (codePoints s).map fun n => Fin.ofNat _ n

def ascii (s : String) : Bytes := (codePoints s).map fun n => UInt8.ofNat n

theorem utf8EncodeChar_ascii {c : Char} (h : ∀ b ∈ String.utf8EncodeChar c, b.toNat < 128) :
    String.utf8EncodeChar c = [UInt8.ofNat c.toNat] ∧ c.toNat < 128 := by
  -- the first byte of a longer encoding is 192 or more
  have hlead : ∀ n : Nat, n < 64 → ¬ (UInt8.ofNat (n + 192)).toNat < 128 := by decide
  unfold String.utf8EncodeChar at h ⊢
  simp only at h ⊢
  split at h
  · rename_i hc
    exact ⟨if_pos hc, Nat.lt_succ_of_le hc⟩
  · split at h
    · exact absurd (h _ (.head _)) (hlead _ (by omega))
    · split at h
      · exact absurd (h _ (.head _)) (hlead (_ % 16 + 32) (by omega))
      · exact absurd (h _ (.head _)) (hlead (_ % 8 + 48) (by omega))

theorem asciiCodes_cons {b : UInt8} {bs : Bytes} {codes : List Nat} : asciiCodes (b :: bs) = some codes ↔
    b.toNat < 128 ∧ ∃ rest, asciiCodes bs = some rest ∧ b.toNat :: rest = codes := by
  rw [asciiCodes]
  by_cases hb : b.toNat < 128
  · rw [if_pos hb, Option.map_eq_some_iff, and_iff_right hb]
  · rw [if_neg hb]
    exact ⟨fun h => (by cases h), fun h => absurd h.1 hb⟩

theorem asciiCodes_below {bs : Bytes} : ∀ {codes}, asciiCodes bs = some codes → ∀ b ∈ bs, b.toNat < 128 := by
  induction bs with
  | nil => exact fun _ => List.forall_mem_nil _
  | cons b bs ih =>
    intro codes h
    obtain ⟨hb, rest, hrest, -⟩ := asciiCodes_cons.mp h
    exact List.forall_mem_cons.mpr ⟨hb, ih hrest⟩

theorem asciiCodes_utf8 {cs : List Char} :
    ∀ {codes}, asciiCodes (cs.flatMap String.utf8EncodeChar) = some codes → codes = cs.map Char.toNat := by
  induction cs with
  | nil =>
    intro codes h
    cases h
    rfl
  | cons c cs ih =>
    intro codes h
    rw [List.flatMap_cons] at h
    obtain ⟨hc, hlt⟩ := utf8EncodeChar_ascii fun b hb => asciiCodes_below h b (List.mem_append_left _ hb)
    rw [hc, List.singleton_append] at h
    obtain ⟨-, rest, hrest, rfl⟩ := asciiCodes_cons.mp h
    rw [ih hrest, List.map_cons, UInt8.toNat_ofNat_of_lt' (Nat.lt_trans hlt (by decide))]

theorem codePoints_eq (s : String) : codePoints s = s.toList.map Char.toNat := by
  have hbytes : s.toByteArray.data.toList = s.toList.flatMap String.utf8EncodeChar := by
    rw [← String.utf8Encode_toList, List.utf8Encode, List.toList_data_toByteArray]
  rw [codePoints, hbytes]
  cases h : asciiCodes (s.toList.flatMap String.utf8EncodeChar) with
  | none => rfl
  | some codes => exact asciiCodes_utf8 h

theorem str_eq (s : String) : str s = s.toList.map fun c => Fin.ofNat _ c.toNat := by
  rw [str, codePoints_eq, List.map_map]
  rfl

theorem ascii_eq (s : String) : ascii s = s.toList.map fun c => UInt8.ofNat c.toNat := by
  rw [ascii, codePoints_eq, List.map_map]
  rfl

inductive Json where
  | null
  | bool (b : Bool)
  | int (n : Int)
  | float (bits : UInt64)
  | str (s : Str)
  | list (xs : List Json)
  | dict (fields : List (Str × Json))

inductive ErrKind where
  | valueError | unicodeEncodeError | codecError | schemaError | governanceError | registryError
  | ledgerError | networkIdentityError | reorgError | unicodeDecodeError | jsonDecodeError | recoveryError
  | keyError | indexError | typeError | attributeError | overflowError | structError | storageIOError | fileNotFoundError
  | networkValidationError | payloadHashMismatchError | unknownMessageTypeError | oversizedPayloadError
  | syncInvalidDataError | syncStorageError
  | transportClosedError | transportLimitError | transportStateError | transportValidationError | queueEmpty
  | gossipError | gossipRateLimitError | cliError | peerTableFullError | zlibError
  deriving DecidableEq

/-- The classes derived from `ValueError`. -/
def ErrKind.isValueError : ErrKind → Bool
  | .keyError | .indexError | .typeError | .attributeError | .overflowError | .structError | .storageIOError
  | .fileNotFoundError | .networkValidationError | .payloadHashMismatchError | .unknownMessageTypeError
  | .oversizedPayloadError | .syncInvalidDataError | .syncStorageError | .transportClosedError | .transportLimitError
  | .transportStateError | .transportValidationError | .queueEmpty | .gossipError | .gossipRateLimitError
  | .cliError | .peerTableFullError | .zlibError => false
  | _ => true

structure PyErr where
  kind : ErrKind
  text : String
  args : List Json

def raise {α : Type} (k : ErrKind) (t : String) (args : List Json) : Except PyErr α := .error ⟨k, t, args⟩

def err (k : ErrKind) (t : String) : PyErr := ⟨k, t, []⟩

/-! ## Dictionaries -/

abbrev Fields := List (Str × Json)

/-- `d.get(k)`, with `none` for a missing key. -/
def Fields.get (d : Fields) (k : String) : Option Json := List.lookup (str k) d

/-- `d[k]`. -/
def Fields.item (d : Fields) (k : String) : Except PyErr Json :=
  match d.get k with
  | some v => .ok v
  | none => raise .keyError "%" [.str (str k)]

theorem item_eq_ok {d : Fields} {k : String} {v : Json} : d.item k = .ok v ↔ d.get k = some v := by
  unfold Fields.item raise
  cases d.get k <;> simp

/-- `{k: v for k, v in d.items() if k not in ks}`. -/
def Fields.without (d : Fields) (ks : List String) : Fields :=
  d.filter fun f => !(ks.map str).contains f.1

/-- `set(d.keys()) <= set(ks)`. -/
def Fields.keysWithin (d : Fields) (ks : List String) : Bool :=
  d.all fun f => (ks.map str).contains f.1

/-- `set(ks) <= set(d.keys())`. -/
def Fields.hasKeys (d : Fields) (ks : List String) : Bool := ks.all fun k => (d.get k).isSome

/-- `v == 1`: `True` and the float `1.0` are equal to the integer. -/
def Json.eqOne : Json → Bool
  | .int n => n == 1
  | .bool b => b
  | .float bits => bits == 0x3FF0000000000000
  | _ => false

def Json.eqStr (v : Json) (s : Str) : Bool :=
  match v with
  | .str t => t == s
  | _ => false

/-! ## Hexadecimal -/

def hexVal (c : CodePoint) : Option Nat :=
  let n := c.val
  if 48 ≤ n ∧ n ≤ 57 then some (n - 48)
  else if 97 ≤ n ∧ n ≤ 102 then some (n - 87)
  else if 65 ≤ n ∧ n ≤ 70 then some (n - 55)
  else none

/-- ASCII whitespace: tab to carriage return, and the space. -/
def isSpace (c : CodePoint) : Bool := (9 ≤ c.val && c.val ≤ 13) || c.val == 32

/-- `bytes.fromhex`: pairs of digits, with whitespace allowed between the pairs. -/
def fromHex : Str → Option Bytes
  | [] => some []
  | [c] => if isSpace c then some [] else none
  | c :: d :: rest =>
    if isSpace c then fromHex (d :: rest)
    else
      match hexVal c, hexVal d with
      | some a, some b => (fromHex rest).map (UInt8.ofNat (16 * a + b) :: ·)
      | _, _ => none

def hexDigit (n : Nat) : CodePoint := Fin.ofNat _ (if n < 10 then 48 + n else 87 + n)

/-- `bytes.hex`. -/
def toHex : Bytes → Str
  | [] => []
  | b :: bs => hexDigit (b.toNat / 16) :: hexDigit (b.toNat % 16) :: toHex bs

theorem hexVal_hexDigit : ∀ n < 16, hexVal (hexDigit n) = some n ∧ isSpace (hexDigit n) = false := by decide

/-- Reading back the digits of `bytes.hex`. -/
theorem fromHex_toHex : ∀ b : Bytes, fromHex (toHex b) = some b
  | [] => rfl
  | x :: bs => by
    have hx := x.toNat_lt
    have hi := hexVal_hexDigit (x.toNat / 16) (by omega)
    have lo := hexVal_hexDigit (x.toNat % 16) (by omega)
    have hback : UInt8.ofNat (16 * (x.toNat / 16) + x.toNat % 16) = x := by
      rw [Nat.div_add_mod, UInt8.ofNat_toNat]
    simp only [toHex, fromHex, hi.1, hi.2, lo.1, fromHex_toHex bs, Option.map_some, hback, Bool.false_eq_true,
      if_false]

theorem toHex_inj {a b : Bytes} (h : toHex a = toHex b) : a = b := by
  have := congrArg fromHex h
  rwa [fromHex_toHex, fromHex_toHex, Option.some.injEq] at this

/-- `int(s, 16)` for a string of hexadecimal digits. -/
def hexNat (s : Str) : Nat := s.foldl (fun acc c => 16 * acc + (hexVal c).getD 0) 0

def lowerChar (c : CodePoint) : CodePoint := if 65 ≤ c.val ∧ c.val ≤ 90 then Fin.ofNat _ (c.val + 32) else c

/-- `str.lower` for ASCII strings, which is where the source uses it. -/
def lower (s : Str) : Str := s.map lowerChar

theorem lowerChar_reads (c : CodePoint) : hexVal (lowerChar c) = hexVal c ∧ isSpace (lowerChar c) = isSpace c := by
  unfold lowerChar
  split
  · rename_i h
    have hval : (Fin.ofNat 0x110000 (c.val + 32)).val = c.val + 32 := by
      rw [Fin.val_ofNat]; omega
    constructor
    · unfold hexVal
      simp only [hval]
      split_ifs <;> first | omega | simp
    · rw [Bool.eq_iff_iff]
      simp only [isSpace, hval, Bool.or_eq_true, Bool.and_eq_true, decide_eq_true_eq, beq_iff_eq]
      omega
  · exact ⟨rfl, rfl⟩

/-- Lower case reads as the same bytes. -/
theorem fromHex_lower (s : Str) : fromHex (lower s) = fromHex s := by
  unfold lower
  induction s using fromHex.induct with
  | case1 => rfl
  | case2 c _ => simp only [List.map_cons, List.map_nil, fromHex, (lowerChar_reads c).2]
  | case3 c _ => simp only [List.map_cons, List.map_nil, fromHex, (lowerChar_reads c).2]
  | case4 c d rest h ih =>
    rw [List.map_cons] at ih
    simp only [List.map_cons, fromHex, (lowerChar_reads c).2, h, if_true]
    exact ih
  | case5 c d rest h a b ha hb ih =>
    simp only [List.map_cons, fromHex, (lowerChar_reads c).2, if_neg h, (lowerChar_reads c).1, (lowerChar_reads d).1, ih]
  | case6 c d rest h _ =>
    simp only [List.map_cons, fromHex, (lowerChar_reads c).2, if_neg h, (lowerChar_reads c).1, (lowerChar_reads d).1]

def fromHexOrRaise (s : Str) : Except PyErr Bytes :=
  match fromHex s with
  | some raw => .ok raw
  | none => raise .valueError "non-hexadecimal number found in fromhex() arg" []

/-! ## UTF-8 -/

def isSurrogate (c : CodePoint) : Bool := 0xD800 ≤ c.val && c.val ≤ 0xDFFF

def utf8Char (c : CodePoint) : Bytes :=
  let n := c.val
  if n < 0x80 then [UInt8.ofNat n]
  else if n < 0x800 then [UInt8.ofNat (0xC0 + n / 64), UInt8.ofNat (0x80 + n % 64)]
  else if n < 0x10000 then
    [UInt8.ofNat (0xE0 + n / 4096), UInt8.ofNat (0x80 + n / 64 % 64), UInt8.ofNat (0x80 + n % 64)]
  else
    [UInt8.ofNat (0xF0 + n / 262144), UInt8.ofNat (0x80 + n / 4096 % 64),
      UInt8.ofNat (0x80 + n / 64 % 64), UInt8.ofNat (0x80 + n % 64)]

def utf8 (s : Str) : Bytes := s.flatMap utf8Char

/-- `s.encode("utf-8")`. -/
def encodeUtf8 (s : Str) : Except PyErr Bytes :=
  if s.any isSurrogate then raise .unicodeEncodeError "surrogates not allowed" [.str s] else .ok (utf8 s)

theorem encodeUtf8_eq_ok {s : Str} {b : Bytes} :
    encodeUtf8 s = .ok b ↔ s.any isSurrogate = false ∧ b = utf8 s := by
  unfold encodeUtf8 raise
  cases h : s.any isSurrogate <;> simp [eq_comm]

/-! ## Integers as bytes -/

def leBytes : Nat → Nat → Bytes
  | 0, _ => []
  | k + 1, n => UInt8.ofNat (n % 256) :: leBytes k (n / 256)

theorem leBytes_length : ∀ k n, (leBytes k n).length = k
  | 0, _ => rfl
  | k + 1, n => by simp [leBytes, leBytes_length k]

/-- `n.to_bytes(len, "little")`. -/
def toBytesLE (len : Nat) (n : Int) : Except PyErr Bytes :=
  if n < 0 then raise .overflowError "can't convert negative int to unsigned" []
  else if 256 ^ len ≤ n then raise .overflowError "int too big to convert" []
  else .ok (leBytes len n.toNat)

/-- `n.to_bytes(len, "big")`. -/
def toBytesBE (len : Nat) (n : Int) : Except PyErr Bytes := (toBytesLE len n).map List.reverse

/-- `struct.pack` of one unsigned little-endian field of `len` bytes. -/
def structPack (len : Nat) (n : Int) : Except PyErr Bytes :=
  if 0 ≤ n ∧ n < 256 ^ len then .ok (leBytes len n.toNat)
  else raise .structError "argument out of range" []

theorem toBytesLE_eq_ok {len : Nat} {n : Int} {b : Bytes} :
    toBytesLE len n = .ok b ↔ 0 ≤ n ∧ n < 256 ^ len ∧ b = leBytes len n.toNat := by
  unfold toBytesLE raise
  split
  · rename_i h
    exact ⟨fun h' => (by cases h'), fun h' => by omega⟩
  · split
    · rename_i h
      exact ⟨fun h' => (by cases h'), fun h' => absurd h'.2.1 (Int.not_lt.mpr h)⟩
    · rename_i h₁ h₂
      rw [Except.ok.injEq]
      exact ⟨fun h => ⟨Int.not_lt.mp h₁, Int.not_le.mp h₂, h.symm⟩, fun h => h.2.2.symm⟩

theorem structPack_eq_ok {len : Nat} {n : Int} {b : Bytes} :
    structPack len n = .ok b ↔ 0 ≤ n ∧ n < 256 ^ len ∧ b = leBytes len n.toNat := by
  unfold structPack raise
  split
  · rename_i h
    rw [Except.ok.injEq]
    exact ⟨fun h' => ⟨h.1, h.2, h'.symm⟩, fun h' => h'.2.2.symm⟩
  · rename_i h
    exact ⟨fun h' => (by cases h'), fun h' => absurd ⟨h'.1, h'.2.1⟩ h⟩

end ChainBreaker
