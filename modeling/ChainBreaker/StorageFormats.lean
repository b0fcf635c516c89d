import ChainBreaker.Block
import ChainBreaker.Journal
import ChainBreaker.JsonText
import Mathlib.Tactic.Ring

/-!
# The files of the block store

The block record and the HEAD line, written and read. A record that was written
reads back as a block with the same header bytes (`decodeBlockRecord_encode`),
a HEAD line as the tip it names (`decodeHead_headLine`).
-/

namespace ChainBreaker

open Fallible

def BLOCK_MAGIC : Bytes := ascii "CBB2"
def BLOCK_VERSION : Nat := 2
def HEADER_LEN : Nat := 149
def RESERVED_BYTE : Bytes := [0]
def BLOCK_TRAILING : Bytes := [0, 0, 0, 0]
def MAX_TX_COUNT : Nat := 10000
def MAX_BODY_LEN : Nat := 64 * 1024 * 1024

/-! ## Block records -/

section
variable (M : Runtime)

def encodeBlockRecord (block : BlockV2) : Except PyErr Bytes := do
  let headerBytes ← block.header.bytes
  require (headerBytes.length = HEADER_LEN) (err .valueError "header length")
  let bodyBytes ← encodeUtf8 (dumpsText M.floatRepr (.list block.transactions))
  let txCount := block.transactions.length
  require (txCount ≤ MAX_TX_COUNT) ⟨.valueError, "tx_count % exceeds maximum", [.int txCount]⟩
  let bodyLen := bodyBytes.length
  require (bodyLen ≤ MAX_BODY_LEN) ⟨.valueError, "body_len % exceeds maximum", [.int bodyLen]⟩
  let bodyLenBytes ← structPack 8 bodyLen
  let txCountBytes ← structPack 4 txCount
  let version ← structPack 4 BLOCK_VERSION
  let headerLen ← structPack 4 HEADER_LEN
  let bodyPrefix := bodyLenBytes ++ txCountBytes
  let bodyChecksum := doubleSha256 M.toPrimitives (bodyPrefix ++ bodyBytes)
  .ok (BLOCK_MAGIC ++ (version ++ (headerLen ++ (headerBytes ++ (RESERVED_BYTE ++ (bodyPrefix ++ (bodyBytes ++
    (bodyChecksum ++ BLOCK_TRAILING))))))))

/-- The length of a record without a body. -/
def MIN_RECORD_LEN : Nat := 4 + 4 + 4 + HEADER_LEN + 1 + 8 + 4 + 32 + 4

def decodeBlockRecord (data : Bytes) : Except PyErr BlockV2 := do
  require (MIN_RECORD_LEN ≤ data.length) (err .valueError "block record too short")
  require (slice data 0 4 = BLOCK_MAGIC) (err .valueError "bad block magic")
  let version := fromLE (slice data 4 4)
  require (version = BLOCK_VERSION) ⟨.valueError, "unsupported block version %", [.int version]⟩
  let headerLen := fromLE (slice data 8 4)
  require (headerLen = HEADER_LEN) ⟨.valueError, "unexpected header_len %", [.int headerLen]⟩
  let headerBytes := slice data 12 HEADER_LEN
  require (slice data 161 1 = RESERVED_BYTE) (err .valueError "unexpected reserved byte")
  let bodyLen := fromLE (slice data 162 8)
  let txCount := fromLE (slice data 170 4)
  require (bodyLen ≤ MAX_BODY_LEN) ⟨.valueError, "body_len % exceeds maximum", [.int bodyLen]⟩
  require (txCount ≤ MAX_TX_COUNT) ⟨.valueError, "tx_count % exceeds maximum", [.int txCount]⟩
  require (data.length = MIN_RECORD_LEN + bodyLen)
    ⟨.valueError, "block record size mismatch: got %, expected %", [.int data.length, .int (MIN_RECORD_LEN + bodyLen : Nat)]⟩
  let bodyBytes := slice data 174 bodyLen
  let storedChecksum := slice data (174 + bodyLen) 32
  let computedChecksum := doubleSha256 M.toPrimitives (slice data 162 12 ++ bodyBytes)
  require (storedChecksum = computedChecksum) (err .valueError "block body checksum mismatch")
  require (slice data (206 + bodyLen) 4 = BLOCK_TRAILING) (err .valueError "unexpected trailing bytes")
  let headerDict ← decodeHeaderV2 headerBytes
  let body ← decodeUtf8 bodyBytes
  let transactions ← loads M.floatOf body
  let transactions ← orRaise transactions.asList? (err .valueError "transactions must be a JSON array")
  require (transactions.length = txCount)
    ⟨.valueError, "transaction count mismatch: header says %, JSON has %", [.int txCount, .int transactions.length]⟩
  let header ← BlockHeaderV2.fromDict headerDict
  .ok ⟨header, transactions⟩

end

/-! ## HEAD -/

structure Head where
  height : Int
  blockHash : Str
  networkId : Str
  genesisHash : Str
  formatVersion : Int
  deriving DecidableEq

/-- The line of HEAD. -/
def headLine (head : Head) : Except PyErr Bytes := do
  let height ← padInt 20 head.height
  let formatVersion ← padInt 0 head.formatVersion
  encodeUtf8 (height ++ (58 :: (head.blockHash ++ (58 :: (head.networkId ++ (58 :: (head.genesisHash ++
    (58 :: (formatVersion ++ [10])))))))))

def encodeHead (head : Head) : Except PyErr Bytes := do
  require (head.blockHash.length = 64) (err .valueError "block_hash must be 64 hex chars")
  require (head.genesisHash.length = 64) (err .valueError "genesis_hash must be 64 hex chars")
  headLine head

/-- 64 lowercase hexadecimal digits. -/
def isLowerHash (s : Str) : Bool := s.length == 64 && s.all isLowerHex

/-- `try: … except E: raise ValueError(t)`, for the errors of the class. -/
def orValueError {α : Type} (x : Except PyErr α) (t : String) : Except PyErr α :=
  match x with
  | .ok a => .ok a
  | .error _ => .error (err .valueError t)

def decodeHead (data : Bytes) : Except PyErr Head := do
  let text ← orValueError (decodeUtf8 data) "HEAD is not valid UTF-8"
  match (strip text).splitOn 58 with
  | [height, blockHash, networkId, genesisHash, formatVersion] => do
    let height ← orValueError (parseInt height) "HEAD height is not an integer"
    let formatVersion ← orValueError (parseInt formatVersion) "HEAD format_version is not an integer"
    require (isLowerHash blockHash = true) (err .valueError "HEAD block_hash is not 64 lowercase hex chars")
    require (isLowerHash genesisHash = true) (err .valueError "HEAD genesis_hash is not 64 lowercase hex chars")
    .ok ⟨height, blockHash, networkId, genesisHash, formatVersion⟩
  | parts => .error ⟨.valueError, "HEAD has % fields, expected 5", [.int parts.length]⟩

/-! ## Reading back -/

theorem fromBE_append (a b : Bytes) : fromBE (a ++ b) = fromBE a * 256 ^ b.length + fromBE b := by
  have hfold : ∀ (b : Bytes) (n : Nat), b.foldl (fun acc x => 256 * acc + x.toNat) n =
      n * 256 ^ b.length + b.foldl (fun acc x => 256 * acc + x.toNat) 0 := by
    intro b
    induction b with
    | nil => intro n; simp
    | cons x b ih =>
      intro n
      rw [List.foldl_cons, List.foldl_cons, ih, ih (256 * 0 + x.toNat), List.length_cons, Nat.pow_succ]
      ring
  rw [fromBE, List.foldl_append, hfold]
  rfl

theorem fromBE_reverse : ∀ b : Bytes, fromBE b.reverse = fromLE b
  | [] => rfl
  | x :: b => by
    rw [List.reverse_cons, fromBE_append, fromBE_reverse b, fromLE]
    simp only [List.length_singleton, Nat.pow_one, fromBE, List.foldl_cons, List.foldl_nil]
    ring

theorem encodeHash_canonical {s : Str} {b : Bytes} (h : encodeHash s = .ok b) : encodeHash (canonicalHash s) = .ok b := by
  rw [encodeHash_eq_ok] at h ⊢
  rw [canonicalHash, h.1, Option.getD_some, fromHex_toHex]
  exact ⟨rfl, h.2⟩

/-- A header spelled canonically has the same bytes. -/
theorem encodeHeaderV2_canonical {d : HeaderDictV2} {b : Bytes} (h : encodeHeaderV2 d = .ok b) :
    encodeHeaderV2 d.canonical = .ok b := by
  simp only [encodeHeaderV2, asCodecError_eq_ok, bind_eq_ok] at h ⊢
  obtain ⟨v, hv, p, hp, m, hm, r, hr, ts, hts, t, ht, n, hn, h⟩ := h
  exact ⟨v, hv, p, encodeHash_canonical hp, m, encodeHash_canonical hm, r, encodeHash_canonical hr, ts, hts, t,
    encodeHash_canonical ht, n, hn, h⟩

theorem encodeHeaderV2_length {d : HeaderDictV2} {b : Bytes} (h : encodeHeaderV2 d = .ok b) : b.length = HEADER_LEN := by
  simp only [encodeHeaderV2, asCodecError_eq_ok, bind_eq_ok, structPack_eq_ok, encodeHash_eq_ok] at h
  obtain ⟨v, ⟨-, -, rfl⟩, p, ⟨-, hp⟩, m, ⟨-, hm⟩, r, ⟨-, hr⟩, ts, ⟨-, -, rfl⟩, t, ⟨-, ht⟩, n, ⟨-, -, rfl⟩, h⟩ := h
  cases h
  simp only [List.length_cons, List.length_append, leBytes_length, hp, hm, hr, ht, HASH_LEN, HEADER_LEN]

theorem targetToHex_back {target : Int} {s : Str} (h : targetToHex target = .ok s) :
    canonicalHash s = s ∧ hexToTarget s = .ok target := by
  unfold targetToHex toBytesBE at h
  cases hb : toBytesLE 32 target with
  | error e => rw [hb] at h; cases h
  | ok b =>
    rw [hb] at h
    obtain ⟨h₀, h₁, rfl⟩ := toBytesLE_eq_ok.mp hb
    cases h
    refine ⟨canonicalHash_toHex _, ?_⟩
    have hlt : target.toNat < 256 ^ 32 := by
      have : ((256 ^ 32 : Nat) : Int) = 256 ^ 32 := by simp
      omega
    rw [hexToTarget, fromHexOrRaise_eq_ok.mpr (fromHex_toHex _), ok_bind, fromBE_reverse, fromLE_leBytes _ _ hlt,
      Int.toNat_of_nonneg h₀]

/-- The header with its hashes in lowercase. -/
def BlockHeaderV2.canonical (h : BlockHeaderV2) : BlockHeaderV2 :=
  { h with prevHash := canonicalHash h.prevHash, merkleRoot := canonicalHash h.merkleRoot,
           registryRoot := canonicalHash h.registryRoot }

/-- The bytes of an encoded header are those of the header decoded from them. -/
theorem decode_headerBytes {h : BlockHeaderV2} {hb : Bytes} (hh : h.bytes = .ok hb) :
    hb.length = HEADER_LEN ∧ (decodeHeaderV2 hb >>= BlockHeaderV2.fromDict) = .ok h.canonical ∧
      h.canonical.bytes = .ok hb := by
  obtain ⟨d, hd, henc⟩ := bind_eq_ok.mp hh
  refine ⟨encodeHeaderV2_length henc, ?_⟩
  obtain ⟨target, htarget, hdict⟩ := bind_eq_ok.mp hd
  cases hdict
  obtain ⟨hcanon, hback⟩ := targetToHex_back htarget
  constructor
  · rw [decodeHeaderV2_encode henc, ok_bind]
    simp only [HeaderDictV2.canonical, BlockHeaderV2.fromDict, hcanon, hback, ok_bind, BlockHeaderV2.canonical]
  · have hcanonical := encodeHeaderV2_canonical henc
    simp only [HeaderDictV2.canonical, hcanon] at hcanonical
    rw [BlockHeaderV2.bytes, BlockHeaderV2.toDict, BlockHeaderV2.canonical, htarget, ok_bind, ok_bind]
    exact hcanonical

/-! ## What is read is well formed -/

theorem takeBytes_ok {n : Nat} {data a b : Bytes} (h : takeBytes n data = .ok (a, b)) : data = a ++ b ∧ a.length = n := by
  simp only [takeBytes, bind_eq_ok, require_eq_ok] at h
  obtain ⟨_, hn, h⟩ := h
  cases h
  exact ⟨(List.take_append_drop n data).symm, List.length_take_of_le hn⟩

theorem fromLE_lt : ∀ b : Bytes, fromLE b < 256 ^ b.length
  | [] => by decide
  | x :: b => by
    have hx := x.toNat_lt
    have := fromLE_lt b
    rw [fromLE, List.length_cons, Nat.pow_succ]
    omega

theorem leBytes_fromLE : ∀ b : Bytes, leBytes b.length (fromLE b) = b
  | [] => rfl
  | x :: b => by
    have hx := x.toNat_lt
    have hmod : (x.toNat + 256 * fromLE b) % 256 = x.toNat := by omega
    have hdiv : (x.toNat + 256 * fromLE b) / 256 = fromLE b := by omega
    rw [List.length_cons, leBytes, fromLE, hmod, hdiv, leBytes_fromLE b, UInt8.ofNat_toNat]

theorem structPack_fromLE {b : Bytes} {n : Nat} (h : b.length = n) : structPack n (fromLE b : Nat) = .ok b := by
  subst h
  rw [structPack_nat]
  exact ⟨fromLE_lt b, (leBytes_fromLE b).symm⟩

theorem encodeHash_toHex {b : Bytes} (h : b.length = HASH_LEN) : encodeHash (toHex b) = .ok b :=
  encodeHash_eq_ok.mpr ⟨fromHex_toHex b, h⟩

theorem toHex_lower : ∀ b : Bytes, (toHex b).length = 2 * b.length ∧ ∀ c ∈ toHex b, isLowerHex c = true
  | [] => ⟨rfl, fun c hc => by cases hc⟩
  | x :: b => by
    obtain ⟨hlen, hlower⟩ := toHex_lower b
    have hx := x.toNat_lt
    have hdigit : ∀ n < 16, isLowerHex (hexDigit n) = true := by decide
    refine ⟨by simp only [toHex, List.length_cons, hlen]; omega, fun c hc => ?_⟩
    rcases List.mem_cons.mp hc with rfl | hc
    · exact hdigit _ (by omega)
    · rcases List.mem_cons.mp hc with rfl | hc
      · exact hdigit _ (by omega)
      · exact hlower c hc

theorem isLowerHash_toHex {b : Bytes} (h : b.length = HASH_LEN) : isLowerHash (toHex b) = true := by
  rw [isLowerHash, Bool.and_eq_true, beq_iff_eq, List.all_eq_true]
  exact ⟨by rw [(toHex_lower b).1, h]; rfl, (toHex_lower b).2⟩

theorem toBytesLE_fromLE {b : Bytes} {n : Nat} (h : b.length = n) : toBytesLE n (fromLE b : Nat) = .ok b := by
  have hpack := structPack_fromLE h
  rw [structPack_eq_ok] at hpack
  exact toBytesLE_eq_ok.mpr hpack

theorem targetToHex_fromBE {b : Bytes} (h : b.length = 32) : targetToHex (fromBE b : Nat) = .ok (toHex b) := by
  have hrev : fromBE b = fromLE b.reverse := by rw [← fromBE_reverse, List.reverse_reverse]
  have hlen : b.reverse.length = 32 := by rw [List.length_reverse, h]
  rw [targetToHex, toBytesBE, hrev, toBytesLE_fromLE hlen, Except.map, Except.map, List.reverse_reverse]

/-- A header that was decoded encodes to the bytes it was decoded from. -/
theorem decodeHeader_bytes {data : Bytes} {h : BlockHeaderV2}
    (hd : (decodeHeaderV2 data >>= BlockHeaderV2.fromDict) = .ok h) (hlen : data.length = HEADER_LEN) :
    h.bytes = .ok data ∧ isLowerHash h.prevHash = true := by
  obtain ⟨d, hd, hfrom⟩ := bind_eq_ok.mp hd
  simp only [decodeHeaderV2, bind_eq_ok, require_eq_ok, Prod.exists] at hd
  obtain ⟨tag, d₁, h₁, _, htag, v, d₂, h₂, p, d₃, h₃, m, d₄, h₄, r, d₅, h₅, ts, d₆, h₆, t, d₇, h₇, n, d₈, h₈, hd⟩ := hd
  cases hd
  obtain ⟨rfl, -⟩ := takeBytes_ok h₁
  obtain ⟨rfl, hv⟩ := takeBytes_ok h₂
  obtain ⟨rfl, hp⟩ := takeBytes_ok h₃
  obtain ⟨rfl, hm⟩ := takeBytes_ok h₄
  obtain ⟨rfl, hr⟩ := takeBytes_ok h₅
  obtain ⟨rfl, hts⟩ := takeBytes_ok h₆
  obtain ⟨rfl, ht⟩ := takeBytes_ok h₇
  obtain ⟨rfl, hn⟩ := takeBytes_ok h₈
  subst htag
  -- a header has the bytes of its fields and no more
  obtain rfl : d₈ = [] := by
    simp only [List.length_append, List.length_singleton, hv, hp, hm, hr, hts, ht, hn, HASH_LEN, HEADER_LEN] at hlen
    exact List.eq_nil_of_length_eq_zero (by omega)
  rw [List.append_nil]
  simp only [BlockHeaderV2.fromDict, hexToTarget, fromHexOrRaise_eq_ok.mpr (fromHex_toHex _), ok_bind] at hfrom
  cases hfrom
  refine ⟨?_, isLowerHash_toHex hp⟩
  rw [BlockHeaderV2.bytes, BlockHeaderV2.toDict, targetToHex_fromBE ht, ok_bind, ok_bind, encodeHeaderV2,
    asCodecError_eq_ok]
  simp only [bind_eq_ok]
  exact ⟨v, structPack_fromLE hv, p, encodeHash_toHex hp, m, encodeHash_toHex hm, r, encodeHash_toHex hr,
    ts, structPack_fromLE hts, t, encodeHash_toHex ht, n, structPack_fromLE hn, rfl⟩

theorem slice_length {data : Bytes} {i n : Nat} (h : i + n ≤ data.length) : (slice data i n).length = n := by
  rw [slice, List.length_take, List.length_drop]
  omega

theorem slice_drop (data : Bytes) (i n : Nat) : slice data i n ++ data.drop (i + n) = data.drop i := by
  rw [slice, ← List.drop_drop, List.take_append_drop]

/-- The header of a block that was read has the bytes of its record. -/
theorem decodeBlockRecord_ok {M : Runtime} {data : Bytes} {b : BlockV2} (h : decodeBlockRecord M data = .ok b) :
    b.header.bytes = .ok (slice data 12 HEADER_LEN) ∧ isLowerHash b.header.prevHash = true := by
  simp only [decodeBlockRecord, bind_eq_ok, require_eq_ok] at h
  obtain ⟨_, hlen, _, -, _, -, _, -, _, -, _, -, _, -, _, -, _, -, _, -, d, hd, _, -, _, -, _, -, _, -, header, hheader, h⟩ := h
  cases h
  apply decodeHeader_bytes (bind_eq_ok.mpr ⟨d, hd, hheader⟩)
  apply slice_length
  exact Nat.le_trans (by decide) hlen

/-! ## How reading fails -/

/-- Every error is a `ValueError`. -/
abbrev ValueErrors {α : Type} (x : Except PyErr α) : Prop := FailsOnly (fun e => e.kind.isValueError = true) x

theorem fails_require {c : Prop} [Decidable c] {e : PyErr} (h : e.kind.isValueError = true) : ValueErrors (require c e) :=
  failsOnly_require h

theorem fails_takeBytes (n : Nat) (data : Bytes) : ValueErrors (takeBytes n data) :=
  (fails_require rfl).bind fun _ _ => failsOnly_of_ok ⟨_, rfl⟩

theorem fails_fromHex (s : Str) : ValueErrors (fromHexOrRaise s) := by
  unfold fromHexOrRaise
  split
  · exact failsOnly_of_ok ⟨_, rfl⟩
  · exact failsOnly_error rfl

theorem fails_decodeUtf8 (data : Bytes) : ValueErrors (decodeUtf8 data) := by
  unfold decodeUtf8
  split
  · exact failsOnly_of_ok ⟨_, rfl⟩
  · exact failsOnly_error rfl

theorem fails_loads (floatOf : Str → UInt64) (s : Str) : ValueErrors (loads floatOf s) := by
  unfold loads
  split
  · split
    · exact failsOnly_of_ok ⟨_, rfl⟩
    · exact failsOnly_error rfl
  · exact failsOnly_error rfl

theorem fails_orRaise {α : Type} (o : Option α) {e : PyErr} (h : e.kind.isValueError = true) : ValueErrors (orRaise o e) := by
  cases o with
  | some a => exact failsOnly_of_ok ⟨a, rfl⟩
  | none => exact failsOnly_error h

theorem fails_decodeHeaderV2 (data : Bytes) : ValueErrors (decodeHeaderV2 data) :=
  (fails_takeBytes _ _).bind fun (_, _) _ => (fails_require rfl).bind fun _ _ =>
    (fails_takeBytes _ _).bind fun (_, _) _ => (fails_takeBytes _ _).bind fun (_, _) _ =>
      (fails_takeBytes _ _).bind fun (_, _) _ => (fails_takeBytes _ _).bind fun (_, _) _ =>
        (fails_takeBytes _ _).bind fun (_, _) _ => (fails_takeBytes _ _).bind fun (_, _) _ =>
          (fails_takeBytes _ _).bind fun (_, _) _ => failsOnly_of_ok ⟨_, rfl⟩

theorem fails_headerFromDict (d : HeaderDictV2) : ValueErrors (BlockHeaderV2.fromDict d) :=
  ((fails_fromHex _).bind fun _ _ => failsOnly_of_ok ⟨_, rfl⟩).bind fun _ _ => failsOnly_of_ok ⟨_, rfl⟩

theorem fails_decodeBlockRecord (M : Runtime) (data : Bytes) : ValueErrors (decodeBlockRecord M data) := by
  unfold decodeBlockRecord
  dsimp only
  repeat refine (fails_require rfl).bind fun _ _ => ?_
  refine (fails_decodeHeaderV2 _).bind fun _ _ => (fails_decodeUtf8 _).bind fun _ _ => (fails_loads _ _).bind fun _ _ => ?_
  refine (fails_orRaise _ rfl).bind fun _ _ => (fails_require rfl).bind fun _ _ => ?_
  exact (fails_headerFromDict _).bind fun _ _ => failsOnly_of_ok ⟨_, rfl⟩

theorem orValueError_ok {α : Type} {x : Except PyErr α} {t : String} {a : α} : orValueError x t = .ok a ↔ x = .ok a := by
  unfold orValueError
  split <;> simp

theorem fails_orValueError {α : Type} (x : Except PyErr α) (t : String) : ValueErrors (orValueError x t) := by
  unfold orValueError
  split
  · exact failsOnly_of_ok ⟨_, rfl⟩
  · exact failsOnly_error rfl

theorem fails_decodeHead (data : Bytes) : ValueErrors (decodeHead data) := by
  refine (fails_orValueError _ _).bind fun _ _ => ?_
  split
  · exact (fails_orValueError _ _).bind fun _ _ => (fails_orValueError _ _).bind fun _ _ => (fails_require rfl).bind
      fun _ _ => (fails_require rfl).bind fun _ _ => failsOnly_of_ok ⟨_, rfl⟩
  · exact failsOnly_error rfl

/-- The hashes of a HEAD that was read are hashes. -/
theorem decodeHead_hashes {data : Bytes} {head : Head} (h : decodeHead data = .ok head) :
    isLowerHash head.blockHash = true ∧ isLowerHash head.genesisHash = true := by
  obtain ⟨text, -, h⟩ := bind_eq_ok.mp h
  split at h
  · simp only [bind_eq_ok, require_eq_ok] at h
    obtain ⟨_, -, _, -, _, hblock, _, hgenesis, h⟩ := h
    cases h
    exact ⟨hblock, hgenesis⟩
  · cases h

theorem colon_not_mem {s : Str} (h : ∀ c ∈ s, isDigit c = true ∨ c = 45) : (58 : CodePoint) ∉ s := by
  intro hc
  rcases h _ hc with hd | hd
  · exact absurd hd (by decide)
  · exact absurd hd (by decide)

theorem lowerHash_chars {s : Str} (h : isLowerHash s = true) : s.length = 64 ∧ ∀ c ∈ s, isLowerHex c = true := by
  rw [isLowerHash, Bool.and_eq_true, beq_iff_eq, List.all_eq_true] at h
  exact h

theorem colon_not_mem_hash {s : Str} (h : isLowerHash s = true) : (58 : CodePoint) ∉ s := by
  intro hc
  exact absurd ((lowerHash_chars h).2 _ hc) (by decide)

theorem padInt_chars {width : Nat} {n : Int} {s : Str} (hw : width ≤ MAX_STR_DIGITS) (h : padInt width n = .ok s) :
    s ≠ [] ∧ ∀ c ∈ s, isDigit c = true ∨ c = 45 := by
  obtain ⟨ds, hds, rfl⟩ := padInt_ok hw h
  split
  · exact ⟨by simp, fun c hc => (List.mem_cons.mp hc).elim .inr fun hc => .inl (hds.digits c hc)⟩
  · exact ⟨hds.ne_nil, fun c hc => .inl (hds.digits c hc)⟩

theorem not_space {c : CodePoint} (h : isDigit c = true ∨ c = 45) : isUniSpace c = false := by
  have hval : c.val = 45 ∨ 48 ≤ c.val ∧ c.val ≤ 57 := h.elim (fun h => .inr (isDigit_iff.mp h)) fun h => .inl (h ▸ rfl)
  simp only [isUniSpace, Bool.or_eq_false_iff, Bool.and_eq_false_iff, decide_eq_false_iff_not, beq_eq_false_iff_ne]
  omega

/-- The fields of a HEAD line as they are read: a colon in one of them splits it. -/
theorem headLine_parts {head : Head} {data : Bytes} (h : headLine head = .ok data) :
    ∃ text height version, decodeUtf8 data = .ok text ∧ padInt 20 head.height = .ok height ∧
      padInt 0 head.formatVersion = .ok version ∧ (strip text).splitOn 58 = [height] ++ (head.blockHash.splitOn 58 ++
        (head.networkId.splitOn 58 ++ (head.genesisHash.splitOn 58 ++ [version]))) := by
  simp only [headLine, bind_eq_ok, encodeUtf8_eq_ok] at h
  obtain ⟨height, hheight, version, hversion, hsurr, rfl⟩ := h
  obtain ⟨hhne, hhchars⟩ := padInt_chars (by decide) hheight
  obtain ⟨hvne, hvchars⟩ := padInt_chars (by decide) hversion
  generalize hline : height ++ (58 :: (head.blockHash ++ (58 :: (head.networkId ++ (58 :: (head.genesisHash ++
    (58 :: version))))))) = line
  have hdata : height ++ (58 :: (head.blockHash ++ (58 :: (head.networkId ++ (58 :: (head.genesisHash ++
      (58 :: (version ++ [10])))))))) = line ++ [10] := by
    rw [← hline]
    simp only [List.append_assoc, List.cons_append]
  -- the line starts and ends with a digit or a sign, so only the line feed is stripped
  have hstrip : strip (line ++ [10]) = line := by
    apply stripOf_eq
    · intro c hc
      obtain ⟨x, t, rfl⟩ := List.exists_cons_of_ne_nil hhne
      rw [← hline] at hc
      cases hc
      exact not_space (hhchars _ (.head _))
    · intro c hc
      apply not_space
      apply hvchars
      have hlast : line = (height ++ (58 :: (head.blockHash ++ (58 :: (head.networkId ++ (58 :: (head.genesisHash ++
          [58]))))))) ++ version := by
        rw [← hline]
        simp only [List.append_assoc, List.cons_append, List.nil_append]
      rw [hlast, List.getLast?_append_of_ne_nil _ hvne] at hc
      exact List.mem_of_getLast? hc
    · rw [← hline]
      exact fun h => hhne (List.append_eq_nil_iff.mp h).1
    · intro c hc
      rw [List.mem_singleton.mp hc]
      decide
  rw [hdata] at hsurr ⊢
  refine ⟨line ++ [10], height, version, decodeUtf8_utf8 hsurr, hheight, hversion, ?_⟩
  rw [hstrip, ← hline]
  simp only [List.splitOn_append_cons_self, List.splitOn_eq_singleton (colon_not_mem hhchars),
    List.splitOn_eq_singleton (colon_not_mem hvchars)]

/-- A HEAD line reads back, for a network id without a colon. -/
theorem decodeHead_headLine {head : Head} {data : Bytes} (hb : isLowerHash head.blockHash = true)
    (hg : isLowerHash head.genesisHash = true) (hn : (58 : CodePoint) ∉ head.networkId) (h : headLine head = .ok data) :
    decodeHead data = .ok head := by
  obtain ⟨text, height, version, htext, hheight, hversion, hparts⟩ := headLine_parts h
  rw [List.splitOn_eq_singleton (colon_not_mem_hash hb), List.splitOn_eq_singleton hn,
    List.splitOn_eq_singleton (colon_not_mem_hash hg)] at hparts
  rw [decodeHead, orValueError_ok.mpr htext, ok_bind, hparts]
  simp only [List.singleton_append, orValueError_ok.mpr (parseInt_padInt (by decide) hheight),
    orValueError_ok.mpr (parseInt_padInt (by decide) hversion), ok_bind, hb, hg, require]
  rfl

/-- A HEAD line with a colon in the network id does not. -/
theorem decodeHead_colon {head : Head} {data : Bytes} (hn : (58 : CodePoint) ∈ head.networkId)
    (h : headLine head = .ok data) : ∃ e, decodeHead data = .error e := by
  obtain ⟨text, height, version, htext, -, -, hparts⟩ := headLine_parts h
  obtain ⟨before, after, hsplit⟩ := List.append_of_mem hn
  have hlen : 5 < ((strip text).splitOn 58).length := by
    have hpos : ∀ s : Str, 0 < (s.splitOn 58).length := fun s => List.length_pos_iff.mpr (List.splitOn_ne_nil _ _)
    have h₁ := hpos head.blockHash
    have h₂ := hpos before
    have h₃ := hpos after
    have h₄ := hpos head.genesisHash
    rw [hparts, hsplit, List.splitOn_append_cons_self]
    simp only [List.length_append, List.length_singleton]
    omega
  rw [decodeHead, orValueError_ok.mpr htext, ok_bind]
  split
  · rename_i hfive
    rw [hfive] at hlen
    exact absurd hlen (by simp)
  · exact ⟨_, rfl⟩

/-- The genesis hash of a HEAD line that is read is one, if the field before it has no colon. -/
theorem decodeHead_genesis {head head' : Head} {data : Bytes} (hb : isLowerHash head.blockHash = true)
    (hn : (58 : CodePoint) ∉ head.networkId) (h : headLine head = .ok data) (hd : decodeHead data = .ok head') :
    isLowerHash head.genesisHash = true := by
  obtain ⟨text, height, version, htext, -, -, hparts⟩ := headLine_parts h
  rw [List.splitOn_eq_singleton (colon_not_mem_hash hb), List.splitOn_eq_singleton hn] at hparts
  rw [decodeHead, orValueError_ok.mpr htext, ok_bind, hparts] at hd
  have hback : [(58 : CodePoint)].intercalate (head.genesisHash.splitOn 58) = head.genesisHash := List.intercalate_splitOn 58
  generalize head.genesisHash.splitOn 58 = parts at hd hback
  split at hd
  · rename_i genesis _ hfive
    obtain ⟨rfl, -⟩ : parts = [genesis] ∧ _ := List.append_inj' (List.cons.inj (List.cons.inj (List.cons.inj hfive).2).2).2 rfl
    simp only [bind_eq_ok, require_eq_ok] at hd
    obtain ⟨_, -, _, -, _, -, _, hgenesis, -⟩ := hd
    rw [← hback]
    simpa [List.intercalate] using hgenesis
  · cases hd

section
variable {M : Runtime}

/-- The parts of a record, with a header of the right length. -/
theorem encodeBlockRecord_ok {b : BlockV2} {data : Bytes} (h : encodeBlockRecord M b = .ok data) :
    ∃ hb body, b.header.bytes = .ok hb ∧ hb.length = HEADER_LEN ∧
      encodeUtf8 (dumpsText M.floatRepr (.list b.transactions)) = .ok body ∧ b.transactions.length ≤ MAX_TX_COUNT ∧
      body.length ≤ MAX_BODY_LEN ∧
      data = BLOCK_MAGIC ++ (leBytes 4 BLOCK_VERSION ++ (leBytes 4 HEADER_LEN ++ (hb ++ (RESERVED_BYTE ++
        ((leBytes 8 body.length ++ leBytes 4 b.transactions.length) ++ (body ++
          (doubleSha256 M.toPrimitives ((leBytes 8 body.length ++ leBytes 4 b.transactions.length) ++ body) ++
            BLOCK_TRAILING))))))) := by
  simp only [encodeBlockRecord, bind_eq_ok, require_eq_ok, structPack_nat] at h
  obtain ⟨hb, hhb, _, hlen, body, hbody, _, htx, _, hmax, _, ⟨-, rfl⟩, _, ⟨-, rfl⟩, _, ⟨-, rfl⟩, _, ⟨-, rfl⟩, h⟩ := h
  exact ⟨hb, body, hhb, hlen, hbody, htx, hmax, (Except.ok.inj h).symm⟩

/-- A block record that was written reads back as a block with the header and
what `json.loads` makes of the text of the transactions. -/
theorem decodeBlockRecord_written (hfl : FloatText M.floatRepr) {b : BlockV2} {data : Bytes}
    (h : encodeBlockRecord M b = .ok data) :
    ∃ ws, loads M.floatOf (dumpsText M.floatRepr (.list b.transactions)) = .ok (.list ws) ∧
      decodeBlockRecord M data = .ok ⟨b.header.canonical, ws⟩ := by
  obtain ⟨hb, body, hbytes, hlen, hbody, htx, hmax, hdata⟩ := encodeBlockRecord_ok h
  obtain ⟨-, hheader, -⟩ := decode_headerBytes hbytes
  obtain ⟨hsurr, hutf8⟩ := encodeUtf8_eq_ok.mp hbody
  obtain ⟨ws, hws, hcount⟩ := @loads_dumpsText M.floatOf _ hfl b.transactions
  have hmagic : BLOCK_MAGIC.length = 4 := rfl
  have hreserved : RESERVED_BYTE.length = 1 := rfl
  have htrailing : BLOCK_TRAILING.length = 4 := rfl
  generalize hpre : leBytes 8 body.length ++ leBytes 4 b.transactions.length = pre at *
  have hprelen : pre.length = 12 := by rw [← hpre]; simp [leBytes_length]
  generalize hsum : doubleSha256 M.toPrimitives (pre ++ body) = sum at *
  have hsumlen : sum.length = 32 := by rw [← hsum]; exact doubleSha256_length _
  have htotal : data.length = MIN_RECORD_LEN + body.length := by
    rw [hdata]
    simp only [List.length_append, hmagic, leBytes_length, hlen, hreserved, hprelen, hsumlen, htrailing, MIN_RECORD_LEN]
    omega
  -- the bytes as the fields that are read from them
  have hmagicAt : slice data 0 4 = BLOCK_MAGIC := by
    rw [hdata]
    exact @slice_mid [] _ _ _ _ rfl hmagic
  have hversionAt : slice data 4 4 = leBytes 4 BLOCK_VERSION := by
    rw [hdata]
    exact slice_mid hmagic (leBytes_length _ _)
  have hheaderLenAt : slice data 8 4 = leBytes 4 HEADER_LEN := by
    rw [hdata, ← List.append_assoc]
    exact slice_mid (by simp [hmagic, leBytes_length]) (leBytes_length _ _)
  have hheaderAt : slice data 12 HEADER_LEN = hb := by
    rw [hdata, ← List.append_assoc, ← List.append_assoc]
    exact slice_mid (by simp [hmagic, leBytes_length]) hlen
  have hreservedAt : slice data 161 1 = RESERVED_BYTE := by
    rw [hdata, ← List.append_assoc, ← List.append_assoc, ← List.append_assoc]
    exact slice_mid (by simp [hmagic, leBytes_length, hlen, HEADER_LEN]) hreserved
  have hfront : ∃ front : Bytes, front.length = 162 ∧
      data = front ++ (pre ++ (body ++ (sum ++ BLOCK_TRAILING))) := by
    refine ⟨BLOCK_MAGIC ++ (leBytes 4 BLOCK_VERSION ++ (leBytes 4 HEADER_LEN ++ (hb ++ RESERVED_BYTE))), ?_, ?_⟩
    · simp [hmagic, leBytes_length, hlen, hreserved, HEADER_LEN]
    · rw [hdata]
      simp only [List.append_assoc]
  obtain ⟨front, hfrontlen, hsplit⟩ := hfront
  have hbodyLenAt : slice data 162 8 = leBytes 8 body.length := by
    rw [hsplit, ← hpre, List.append_assoc]
    exact slice_mid hfrontlen (leBytes_length _ _)
  have htxCountAt : slice data 170 4 = leBytes 4 b.transactions.length := by
    rw [hsplit, ← hpre, List.append_assoc, ← List.append_assoc front]
    exact slice_mid (by simp [hfrontlen, leBytes_length]) (leBytes_length _ _)
  have hpreAt : slice data 162 12 = pre := by
    rw [hsplit]
    exact slice_mid hfrontlen hprelen
  have hbodyAt : slice data 174 body.length = body := by
    rw [hsplit, ← List.append_assoc front]
    exact slice_mid (by simp [hfrontlen, hprelen]) rfl
  have hsumAt : slice data (174 + body.length) 32 = sum := by
    rw [hsplit, ← List.append_assoc front, ← List.append_assoc (front ++ pre)]
    exact slice_mid (by simp only [List.length_append, hfrontlen, hprelen]) hsumlen
  have htrailingAt : slice data (206 + body.length) 4 = BLOCK_TRAILING := by
    rw [hsplit, ← List.append_assoc front, ← List.append_assoc (front ++ pre), ← List.append_assoc (front ++ pre ++ body),
      ← List.append_nil BLOCK_TRAILING]
    exact slice_mid (by simp only [List.length_append, hfrontlen, hprelen, hsumlen]; omega) htrailing
  have hback : fromLE (leBytes 8 body.length) = body.length :=
    fromLE_leBytes _ _ (lt_of_le_of_lt hmax (by decide))
  have htxback : fromLE (leBytes 4 b.transactions.length) = b.transactions.length :=
    fromLE_leBytes _ _ (lt_of_le_of_lt htx (by decide))
  obtain ⟨dict, hdict, hfromDict⟩ := bind_eq_ok.mp hheader
  refine ⟨ws, hws, ?_⟩
  unfold decodeBlockRecord
  simp only [hmagicAt, hversionAt, hheaderLenAt, hheaderAt, hreservedAt, hbodyLenAt, htxCountAt, hpreAt, hback, htxback,
    hbodyAt, hsumAt, htrailingAt, hsum, hdict, fromLE_leBytes 4 BLOCK_VERSION (by decide),
    fromLE_leBytes 4 HEADER_LEN (by decide)]
  rw [require_of _ (by omega), ok_bind, require_of _ trivial, ok_bind, require_of _ trivial, ok_bind, require_of _ trivial,
    ok_bind, require_of _ trivial, ok_bind, require_of _ hmax, ok_bind, require_of _ htx, ok_bind, require_of _ htotal,
    ok_bind, require_of _ trivial, ok_bind, require_of _ trivial, ok_bind, ok_bind, hutf8, decodeUtf8_utf8 hsurr, ok_bind,
    hws, ok_bind]
  simp only [Json.asList?, orRaise, ok_bind, hcount, require, hfromDict]
  rfl

/-- **Reading back.** A block record that was written reads back as a block with
the same header bytes. -/
theorem decodeBlockRecord_encode (hfl : FloatText M.floatRepr) {b : BlockV2} {data : Bytes}
    (h : encodeBlockRecord M b = .ok data) :
    ∃ b', decodeBlockRecord M data = .ok b' ∧ b'.header.bytes = b.header.bytes ∧
      b'.header.prevHash = canonicalHash b.header.prevHash := by
  obtain ⟨hb, -, hbytes, -⟩ := encodeBlockRecord_ok h
  obtain ⟨-, -, hcanonical⟩ := decode_headerBytes hbytes
  obtain ⟨ws, -, hdecode⟩ := decodeBlockRecord_written hfl h
  exact ⟨_, hdecode, by rw [hcanonical, hbytes], rfl⟩

end

end ChainBreaker
