import ChainBreaker.RustGenesis

/-!
# The 149 bytes of a header

The strings that the strict decoder takes, the header dictionaries within their
ranges, the header objects and the headers of the Rust verifier are in
one-to-one correspondence, and every encoder and decoder of either language
goes along it (`header_codec`). The verifier's type is the one that cannot hold
a header without bytes, so the others are read off it.
-/

namespace ChainBreaker

open Fallible

/-! ## The strict decoders -/

/-- `decode_header_v2(data, offset, strict=True)`: the header, and the offset behind it. -/
def decodeHeaderV2Strict (data : Bytes) (offset : Int) : Except PyErr (HeaderDictV2 × Nat) := do
  require (offset = 0) (codecError "strict mode requires offset=0")
  require (data.length = 149) ⟨.codecError, "v2 header must be exactly 149 bytes, got %", [.int data.length]⟩
  let header ← decodeHeaderV2 data
  let consumed := 1 + 4 + HASH_LEN + HASH_LEN + HASH_LEN + 8 + HASH_LEN + 8
  require (consumed = data.length)
    ⟨.codecError, "strict mode consumed % bytes but data length is %", [.int consumed, .int data.length]⟩
  .ok (header, consumed)

/-- `copy_hash`, with the offset behind the hash. -/
def copyHash (data : Bytes) (offset : Nat) : Except VerifyError (Hash32 × Nat) :=
  if h : offset + HASH_LEN ≤ data.length then .ok (⟨slice data offset HASH_LEN, slice_length h⟩, offset + HASH_LEN)
  else .error (.protocol "truncated hash" [])

def RustHeaderV2.decodeStrict (data : Bytes) : Except VerifyError RustHeaderV2 := do
  require (data.length = HEADER_LEN) (.length HEADER_LEN data.length)
  require (data.head? = some TYPE_HEADER)
    (.protocol "expected header type 0x02, got 0x%" [.int (data.headD 0).toNat])
  let offset := 1
  let version := UInt32.ofNat (fromLE (slice data offset 4))
  let offset := offset + 4
  let (prevHash, offset) ← copyHash data offset
  let (merkleRoot, offset) ← copyHash data offset
  let (registryRoot, offset) ← copyHash data offset
  let timestamp := UInt64.ofNat (fromLE (slice data offset 8))
  let offset := offset + 8
  let (target, offset) ← copyHash data offset
  let nonce := UInt64.ofNat (fromLE (slice data offset 8))
  .ok ⟨version, prevHash, merkleRoot, registryRoot, timestamp, target, nonce⟩

/-! ## Headers within their ranges -/

structure HeaderDictV2.InRange (d : HeaderDictV2) : Prop where
  version : 0 ≤ d.version ∧ d.version < 2 ^ 32
  prevHash : isLowerHash d.prevHash = true
  merkleRoot : isLowerHash d.merkleRoot = true
  registryRoot : isLowerHash d.registryRoot = true
  timestamp : 0 ≤ d.timestamp ∧ d.timestamp < 2 ^ 64
  target : isLowerHash d.target = true
  nonce : 0 ≤ d.nonce ∧ d.nonce < 2 ^ 64

structure BlockHeaderV2.InRange (h : BlockHeaderV2) : Prop where
  version : 0 ≤ h.version ∧ h.version < 2 ^ 32
  prevHash : isLowerHash h.prevHash = true
  merkleRoot : isLowerHash h.merkleRoot = true
  registryRoot : isLowerHash h.registryRoot = true
  timestamp : 0 ≤ h.timestamp ∧ h.timestamp < 2 ^ 64
  target : 0 ≤ h.target ∧ h.target < 2 ^ 256
  nonce : 0 ≤ h.nonce ∧ h.nonce < 2 ^ 64

/-- The dictionary of a header of the verifier. -/
def RustHeaderV2.toDict (h : RustHeaderV2) : HeaderDictV2 where
  version := h.version.toNat
  prevHash := toHex h.prevHash.val
  merkleRoot := toHex h.merkleRoot.val
  registryRoot := toHex h.registryRoot.val
  timestamp := h.timestamp.toNat
  target := toHex h.target.val
  nonce := h.nonce.toNat

/-- Lowercase digits are the digits of their bytes. -/
theorem lowerHex_raw : ∀ {n : Nat} {s : Str}, s.length = 2 * n → (∀ x ∈ s, isLowerHex x = true) →
    ∃ raw : Bytes, raw.length = n ∧ toHex raw = s
  | 0, [], _, _ => ⟨[], rfl, rfl⟩
  | n + 1, x :: y :: rest, hlen, hall => by
    simp only [List.forall_mem_cons] at hall
    obtain ⟨hx, hy, hrest⟩ := hall
    obtain ⟨-, a, -, ha, hxa⟩ := lowerDigit_back hx
    obtain ⟨-, b, -, hb, hyb⟩ := lowerDigit_back hy
    obtain ⟨raw, hraw, rfl⟩ := lowerHex_raw (n := n) (s := rest) (by simp only [List.length_cons] at hlen; omega) hrest
    refine ⟨UInt8.ofNat (16 * a + b) :: raw, by rw [List.length_cons, hraw], ?_⟩
    have hbyte : (UInt8.ofNat (16 * a + b)).toNat = 16 * a + b := by
      rw [UInt8.toNat_ofNat']
      omega
    have hhigh : (16 * a + b) / 16 = a := by omega
    have hlow : (16 * a + b) % 16 = b := by omega
    rw [toHex, hbyte, hhigh, hlow, hxa, hyb]

theorem lowerHash_raw {s : Str} (h : isLowerHash s = true) : ∃ raw : Hash32, toHex raw.val = s := by
  obtain ⟨hlen, hall⟩ := lowerHash_chars h
  obtain ⟨raw, hraw, hhex⟩ := lowerHex_raw (n := HASH_LEN) hlen hall
  exact ⟨⟨raw, hraw⟩, hhex⟩

theorem RustHeaderV2.toDict_inRange (h : RustHeaderV2) : h.toDict.InRange where
  version := ⟨Int.natCast_nonneg _, Int.ofNat_lt.mpr h.version.toNat_lt⟩
  prevHash := isLowerHash_toHex h.prevHash.property
  merkleRoot := isLowerHash_toHex h.merkleRoot.property
  registryRoot := isLowerHash_toHex h.registryRoot.property
  timestamp := ⟨Int.natCast_nonneg _, Int.ofNat_lt.mpr h.timestamp.toNat_lt⟩
  target := isLowerHash_toHex h.target.property
  nonce := ⟨Int.natCast_nonneg _, Int.ofNat_lt.mpr h.nonce.toNat_lt⟩

theorem nat_of_uint32 {n : Int} (h : 0 ≤ n ∧ n < 2 ^ 32) : ∃ x : UInt32, (x.toNat : Int) = n := by
  refine ⟨UInt32.ofNat n.toNat, ?_⟩
  rw [UInt32.toNat_ofNat']
  omega

theorem nat_of_uint64 {n : Int} (h : 0 ≤ n ∧ n < 2 ^ 64) : ∃ x : UInt64, (x.toNat : Int) = n := by
  refine ⟨UInt64.ofNat n.toNat, ?_⟩
  rw [UInt64.toNat_ofNat']
  omega

/-- A dictionary within its ranges is that of a header of the verifier. -/
theorem HeaderDictV2.InRange.rust {d : HeaderDictV2} (h : d.InRange) : ∃ r : RustHeaderV2, r.toDict = d := by
  obtain ⟨version, hversion⟩ := nat_of_uint32 h.version
  obtain ⟨prevHash, hprev⟩ := lowerHash_raw h.prevHash
  obtain ⟨merkleRoot, hmerkle⟩ := lowerHash_raw h.merkleRoot
  obtain ⟨registryRoot, hroot⟩ := lowerHash_raw h.registryRoot
  obtain ⟨timestamp, htime⟩ := nat_of_uint64 h.timestamp
  obtain ⟨target, htarget⟩ := lowerHash_raw h.target
  obtain ⟨nonce, hnonce⟩ := nat_of_uint64 h.nonce
  refine ⟨⟨version, prevHash, merkleRoot, registryRoot, timestamp, target, nonce⟩, ?_⟩
  rw [RustHeaderV2.toDict, hversion, hprev, hmerkle, hroot, htime, htarget, hnonce]

/-- The object of a dictionary, and back. -/
theorem toPython_toDict (r : RustHeaderV2) : r.toPython.toDict = .ok r.toDict ∧
    BlockHeaderV2.fromDict r.toDict = .ok r.toPython := by
  constructor
  · rw [BlockHeaderV2.toDict, RustHeaderV2.toPython, targetToHex_fromBE r.target.property, ok_bind]
    rfl
  · rw [BlockHeaderV2.fromDict, RustHeaderV2.toDict, hexToTarget, fromHexOrRaise_eq_ok.mpr (fromHex_toHex _), ok_bind,
      ok_bind]
    rfl

theorem BlockHeaderV2.InRange.toDict {h : BlockHeaderV2} (hr : h.InRange) : ∃ d, h.toDict = .ok d ∧ d.InRange := by
  have hpow : (2 : Int) ^ 256 = 256 ^ 32 := by norm_num
  obtain ⟨raw, hraw⟩ : ∃ raw, toBytesLE 32 h.target = .ok raw :=
    ⟨_, toBytesLE_eq_ok.mpr ⟨hr.target.1, hpow ▸ hr.target.2, rfl⟩⟩
  have hlen : raw.reverse.length = HASH_LEN := by
    obtain ⟨-, -, rfl⟩ := toBytesLE_eq_ok.mp hraw
    rw [List.length_reverse, leBytes_length]
    rfl
  have htarget : targetToHex h.target = .ok (toHex raw.reverse) := by
    rw [targetToHex, toBytesBE, hraw]
    rfl
  rw [BlockHeaderV2.toDict, htarget, ok_bind]
  exact ⟨_, rfl, hr.version, hr.prevHash, hr.merkleRoot, hr.registryRoot, hr.timestamp, isLowerHash_toHex hlen, hr.nonce⟩

theorem fromDict_toDict {h : BlockHeaderV2} {d : HeaderDictV2} (hd : h.toDict = .ok d) :
    BlockHeaderV2.fromDict d = .ok h := by
  obtain ⟨target, htarget, hd⟩ := bind_eq_ok.mp hd
  obtain rfl := Except.ok.inj hd
  rw [BlockHeaderV2.fromDict, (targetToHex_back htarget).2, ok_bind]

/-- An object within its ranges is that of a header of the verifier. -/
theorem BlockHeaderV2.InRange.rust {h : BlockHeaderV2} (hr : h.InRange) : ∃ r : RustHeaderV2, r.toPython = h := by
  obtain ⟨d, hd, hrange⟩ := hr.toDict
  have hback := fromDict_toDict hd
  obtain ⟨r, rfl⟩ := hrange.rust
  exact ⟨r, Except.ok.inj ((toPython_toDict r).2.symm.trans hback)⟩

/-! ## The bytes of a header -/

theorem encode_shape (r : RustHeaderV2) : r.encode.length = HEADER_LEN ∧ r.encode.head? = some TYPE_HEADER := by
  refine ⟨?_, rfl⟩
  simp only [RustHeaderV2.encode, List.length_cons, List.length_append, leBytes_length, r.prevHash.property,
    r.merkleRoot.property, r.registryRoot.property, r.target.property, HASH_LEN, HEADER_LEN]

/-- One dictionary has the bytes of the header. -/
theorem toDict_encode (r : RustHeaderV2) : encodeHeaderV2 r.toDict = .ok r.encode ∧ r.toDict.canonical = r.toDict := by
  constructor
  · have hbytes := toPython_bytes r
    rw [BlockHeaderV2.bytes, (toPython_toDict r).1, ok_bind] at hbytes
    exact hbytes
  · simp only [HeaderDictV2.canonical, RustHeaderV2.toDict, canonicalHash_toHex]

theorem decodeHeaderV2Strict_encode (r : RustHeaderV2) :
    decodeHeaderV2Strict r.encode 0 = .ok (r.toDict, HEADER_LEN) := by
  obtain ⟨hencode, hcanonical⟩ := toDict_encode r
  have hlen : r.encode.length = 149 := (encode_shape r).1
  have hdecode : decodeHeaderV2 r.encode = .ok r.toDict := by rw [decodeHeaderV2_encode hencode, hcanonical]
  rw [decodeHeaderV2Strict, hlen, hdecode]
  rfl

theorem slice_leBytes {data : Bytes} {i n : Nat} (h : i + n ≤ data.length) :
    leBytes n (fromLE (slice data i n)) = slice data i n ∧ fromLE (slice data i n) < 256 ^ n := by
  have hlen := slice_length h
  have hback := leBytes_fromLE (slice data i n)
  have hlt := fromLE_lt (slice data i n)
  rw [hlen] at hback hlt
  exact ⟨hback, hlt⟩

theorem copyHash_of {data : Bytes} {offset : Nat} (h : offset + HASH_LEN ≤ data.length) :
    copyHash data offset = .ok (⟨slice data offset HASH_LEN, slice_length h⟩, offset + HASH_LEN) := dif_pos h

/-- The verifier reads every string of the length and marker, and writes it back. -/
theorem decodeStrict_total {b : Bytes} (hlen : b.length = HEADER_LEN) (hhead : b.head? = some TYPE_HEADER) :
    ∃ r, RustHeaderV2.decodeStrict b = .ok r ∧ r.encode = b := by
  have hfits : ∀ {i n : Nat}, i + n ≤ 149 → i + n ≤ b.length := fun h => hlen ▸ h
  obtain ⟨hversion, hvlt⟩ := slice_leBytes (@hfits 1 4 (by decide))
  obtain ⟨htime, htlt⟩ := slice_leBytes (@hfits 101 8 (by decide))
  obtain ⟨hnonce, hnlt⟩ := slice_leBytes (@hfits 141 8 (by decide))
  have hprev := copyHash_of (@hfits 5 HASH_LEN (by decide))
  have hmerkle := copyHash_of (@hfits 37 HASH_LEN (by decide))
  have hroot := copyHash_of (@hfits 69 HASH_LEN (by decide))
  have htarget := copyHash_of (@hfits 109 HASH_LEN (by decide))
  refine ⟨⟨UInt32.ofNat (fromLE (slice b 1 4)), ⟨slice b 5 HASH_LEN, slice_length (@hfits 5 HASH_LEN (by decide))⟩,
    ⟨slice b 37 HASH_LEN, slice_length (@hfits 37 HASH_LEN (by decide))⟩,
    ⟨slice b 69 HASH_LEN, slice_length (@hfits 69 HASH_LEN (by decide))⟩, UInt64.ofNat (fromLE (slice b 101 8)),
    ⟨slice b 109 HASH_LEN, slice_length (@hfits 109 HASH_LEN (by decide))⟩, UInt64.ofNat (fromLE (slice b 141 8))⟩, ?_, ?_⟩
  · rw [RustHeaderV2.decodeStrict, require, if_pos hlen, ok_bind, require, if_pos hhead, ok_bind]
    change (copyHash b 5 >>= _) = _
    rw [hprev, ok_bind]
    change (copyHash b 37 >>= _) = _
    rw [hmerkle, ok_bind]
    change (copyHash b 69 >>= _) = _
    rw [hroot, ok_bind]
    change (copyHash b 109 >>= _) = _
    rw [htarget, ok_bind]
    rfl
  · have hnat : ∀ {n : Nat}, n < 2 ^ 64 → (UInt64.ofNat n).toNat = n := fun h => by
      rw [UInt64.toNat_ofNat']
      exact Nat.mod_eq_of_lt h
    have hnat32 : ∀ {n : Nat}, n < 2 ^ 32 → (UInt32.ofNat n).toNat = n := fun h => by
      rw [UInt32.toNat_ofNat']
      exact Nat.mod_eq_of_lt h
    have hlast : b.drop 141 = slice b 141 8 := by
      rw [slice, List.take_of_length_le]
      rw [List.length_drop, hlen]
      decide
    have hfirst : b = TYPE_HEADER :: b.drop 1 := by
      cases b with
      | nil => cases hhead
      | cons x rest =>
        cases hhead
        rfl
    rw [RustHeaderV2.encode, hnat32 hvlt, hnat htlt, hnat hnlt, hversion, htime, hnonce, ← hlast]
    have hcut : ∀ i n k, i + n = k → slice b i n ++ b.drop k = b.drop i := by
      rintro i n k rfl
      exact slice_drop b i n
    rw [hcut 109 HASH_LEN 141 rfl, hcut 101 8 109 rfl, hcut 69 HASH_LEN 101 rfl, hcut 37 HASH_LEN 69 rfl,
      hcut 5 HASH_LEN 37 rfl, hcut 1 4 5 rfl, ← hfirst]

theorem encode_inj {r r' : RustHeaderV2} (h : r.encode = r'.encode) : r = r' := by
  have hdict : r.toDict = r'.toDict := by
    have hread := decodeHeaderV2Strict_encode r
    rw [h, decodeHeaderV2Strict_encode r'] at hread
    exact (Prod.mk.inj (Except.ok.inj hread)).1.symm
  have hhash : ∀ {a b : Hash32}, toHex a.val = toHex b.val → a = b := fun h => Subtype.ext (toHex_inj h)
  obtain ⟨version, prevHash, merkleRoot, registryRoot, timestamp, target, nonce⟩ := r
  obtain ⟨version', prevHash', merkleRoot', registryRoot', timestamp', target', nonce'⟩ := r'
  simp only [RustHeaderV2.toDict, HeaderDictV2.mk.injEq, Int.ofNat_inj] at hdict
  obtain ⟨h₁, h₂, h₃, h₄, h₅, h₆, h₇⟩ := hdict
  rw [UInt32.toNat_inj.mp h₁, hhash h₂, hhash h₃, hhash h₄, UInt64.toNat_inj.mp h₅, hhash h₆, UInt64.toNat_inj.mp h₇]

theorem decodeStrict_iff {b : Bytes} {r : RustHeaderV2} : RustHeaderV2.decodeStrict b = .ok r ↔ b = r.encode := by
  constructor
  · intro h
    obtain ⟨hlen, hhead⟩ : b.length = HEADER_LEN ∧ b.head? = some TYPE_HEADER := by
      simp only [RustHeaderV2.decodeStrict, bind_eq_ok, require_eq_ok] at h
      obtain ⟨_, hlen, _, hhead, -⟩ := h
      exact ⟨hlen, hhead⟩
    obtain ⟨r', hr', hencode⟩ := decodeStrict_total hlen hhead
    obtain rfl : r = r' := Except.ok.inj (h.symm.trans hr')
    exact hencode.symm
  · rintro rfl
    obtain ⟨r', hr', hencode⟩ := decodeStrict_total (encode_shape r).1 (encode_shape r).2
    rwa [encode_inj hencode] at hr'

/-- The strict decoder of Python reads the bytes of a header of the verifier, and nothing else. -/
theorem decodeHeaderV2Strict_iff {b : Bytes} {answer : HeaderDictV2 × Nat} :
    decodeHeaderV2Strict b 0 = .ok answer ↔ ∃ r : RustHeaderV2, b = r.encode ∧ answer = (r.toDict, HEADER_LEN) := by
  constructor
  · intro h
    have hshape : b.length = HEADER_LEN ∧ b.head? = some TYPE_HEADER := by
      simp only [decodeHeaderV2Strict, decodeHeaderV2, bind_eq_ok, require_eq_ok, Prod.exists] at h
      obtain ⟨_, -, _, hlen, d, ⟨tag, rest, htake, _, htag, -⟩, -⟩ := h
      obtain ⟨rfl, -⟩ := takeBytes_ok htake
      exact ⟨hlen, by rw [htag]; rfl⟩
    obtain ⟨r, -, rfl⟩ := decodeStrict_total hshape.1 hshape.2
    rw [decodeHeaderV2Strict_encode] at h
    exact ⟨r, rfl, (Except.ok.inj h).symm⟩
  · rintro ⟨r, rfl, rfl⟩
    exact decodeHeaderV2Strict_encode r

/-- **The header codec is a bijection**, in either language the same. -/
theorem header_codec :
    (∀ b : Bytes, ((∃ answer, decodeHeaderV2Strict b 0 = .ok answer) ↔ b.length = HEADER_LEN ∧ b.head? = some TYPE_HEADER) ∧
      ((∃ r, RustHeaderV2.decodeStrict b = .ok r) ↔ b.length = HEADER_LEN ∧ b.head? = some TYPE_HEADER)) ∧
    (∀ b d n, decodeHeaderV2Strict b 0 = .ok (d, n) → n = HEADER_LEN ∧ encodeHeaderV2 d = .ok b ∧
      ∃ h r, BlockHeaderV2.fromDict d = .ok h ∧ h.toDict = .ok d ∧ RustHeaderV2.decodeStrict b = .ok r ∧ r.toPython = h ∧
        r.encode = b) ∧
    (∀ d : HeaderDictV2, d.InRange → ∃ b, encodeHeaderV2 d = .ok b ∧ decodeHeaderV2Strict b 0 = .ok (d, HEADER_LEN)) ∧
    (∀ h : BlockHeaderV2, h.InRange → ∃ d b, h.toDict = .ok d ∧ encodeHeaderV2 d = .ok b ∧
      decodeHeaderV2Strict b 0 = .ok (d, HEADER_LEN) ∧ BlockHeaderV2.fromDict d = .ok h) ∧
    ∀ r : RustHeaderV2, RustHeaderV2.decodeStrict r.encode = .ok r := by
  have hshape : ∀ {b : Bytes}, (∃ r : RustHeaderV2, b = r.encode) ↔ b.length = HEADER_LEN ∧ b.head? = some TYPE_HEADER := by
    intro b
    constructor
    · rintro ⟨r, rfl⟩
      exact encode_shape r
    · rintro ⟨hlen, hhead⟩
      obtain ⟨r, -, hencode⟩ := decodeStrict_total hlen hhead
      exact ⟨r, hencode.symm⟩
  refine ⟨fun b => ⟨?_, ?_⟩, ?_, ?_, ?_, fun r => decodeStrict_iff.mpr rfl⟩
  · rw [← hshape]
    constructor
    · rintro ⟨answer, h⟩
      obtain ⟨r, hr, -⟩ := decodeHeaderV2Strict_iff.mp h
      exact ⟨r, hr⟩
    · rintro ⟨r, rfl⟩
      exact ⟨_, decodeHeaderV2Strict_encode r⟩
  · rw [← hshape]
    exact exists_congr fun r => decodeStrict_iff
  · intro b d n h
    obtain ⟨r, rfl, hanswer⟩ := decodeHeaderV2Strict_iff.mp h
    cases hanswer
    exact ⟨rfl, (toDict_encode r).1, r.toPython, r, (toPython_toDict r).2, (toPython_toDict r).1, decodeStrict_iff.mpr rfl,
      rfl, rfl⟩
  · intro d hd
    obtain ⟨r, rfl⟩ := hd.rust
    exact ⟨_, (toDict_encode r).1, decodeHeaderV2Strict_encode r⟩
  · intro h hh
    obtain ⟨r, rfl⟩ := hh.rust
    exact ⟨_, _, (toPython_toDict r).1, (toDict_encode r).1, decodeHeaderV2Strict_encode r, (toPython_toDict r).2⟩

end ChainBreaker
