import ChainBreaker.StorageFormats

/-!
# Network envelopes

A message on the wire is a header of 70 bytes (magic, protocol version, network
id, type, flags, payload length, payload hash) and its payload. What
`serialize_envelope` writes for an envelope it accepts is `frame`, and
`parse_envelope` reads it back (`parseEnvelope_frame`).
-/

namespace ChainBreaker

open Fallible

def CBN1_MAGIC : Bytes := [0x43, 0x42, 0x4E, 0x31]
def NET_PROTOCOL_VERSION : Nat := 1
/-- `NETWORK_ID.encode("utf-8")`. -/
def NETWORK_ID_BYTES : Bytes :=
  [99, 104, 97, 105, 110, 98, 114, 101, 97, 107, 101, 114, 45,
    115, 99, 114, 105, 112, 116, 117, 114, 101, 45, 118, 50]
def MAGIC_SIZE : Nat := 4
def PROTOCOL_VERSION_SIZE : Nat := 2
def NETWORK_ID_LENGTH_SIZE : Nat := 1
def MESSAGE_TYPE_SIZE : Nat := 1
def FLAGS_SIZE : Nat := 1
def PAYLOAD_LENGTH_SIZE : Nat := 4
def PAYLOAD_HASH_SIZE : Nat := 32
def MIN_ENVELOPE_SIZE : Nat :=
  MAGIC_SIZE + PROTOCOL_VERSION_SIZE + NETWORK_ID_LENGTH_SIZE + NETWORK_ID_BYTES.length + MESSAGE_TYPE_SIZE
    + FLAGS_SIZE + PAYLOAD_LENGTH_SIZE + PAYLOAD_HASH_SIZE
def MAX_PAYLOAD_BYTES : Nat := 2000000
def MAX_MESSAGE_SIZE : Nat := MIN_ENVELOPE_SIZE + MAX_PAYLOAD_BYTES
def MAX_NETWORK_ID_LENGTH : Nat := 64
def KNOWN_MESSAGE_TYPES : List Int := [1, 2, 3, 4, 5, 6, 7, 8, 9, 10, 11, 12, 13]
def FLAG_RESERVED_MASK : Nat := 0xFC

structure NetworkEnvelope where
  messageType : Int
  flags : Int
  payload : Bytes
  deriving DecidableEq

set_option maxRecDepth 4000 in
example : NETWORK_ID_BYTES = utf8 NETWORK_ID := by decide

/-- `flags & FLAG_RESERVED_MASK`, of the low eight bits of the integer. -/
def reservedFlags (flags : Int) : Nat := (flags % 256).toNat &&& FLAG_RESERVED_MASK

def byteAt (data : Bytes) (i : Nat) : Nat := (data.getD i 0).toNat

variable (E : Primitives)

def parseEnvelope (data : Bytes) : Except PyErr NetworkEnvelope := do
  require (MIN_ENVELOPE_SIZE ≤ data.length)
    ⟨.networkValidationError, "message too short: % < %", [.int data.length, .int MIN_ENVELOPE_SIZE]⟩
  require (data.length ≤ MAX_MESSAGE_SIZE)
    ⟨.networkValidationError, "message too large: % > %", [.int data.length, .int MAX_MESSAGE_SIZE]⟩
  let magic := slice data 0 MAGIC_SIZE
  require (magic = CBN1_MAGIC) ⟨.networkValidationError, "bad magic: %", [.str (toHex magic)]⟩
  let protocolVersion := fromBE (slice data 4 PROTOCOL_VERSION_SIZE)
  require (protocolVersion = NET_PROTOCOL_VERSION)
    ⟨.networkValidationError, "unsupported protocol version: %", [.int protocolVersion]⟩
  let networkIdLen := byteAt data 6
  require (networkIdLen ≠ 0 ∧ networkIdLen ≤ MAX_NETWORK_ID_LENGTH)
    ⟨.networkValidationError, "invalid network_id length: %", [.int networkIdLen]⟩
  let expectedHeaderOverhead := MAGIC_SIZE + PROTOCOL_VERSION_SIZE + 1 + networkIdLen + MESSAGE_TYPE_SIZE
    + FLAGS_SIZE + PAYLOAD_LENGTH_SIZE + PAYLOAD_HASH_SIZE
  require (expectedHeaderOverhead ≤ data.length)
    ⟨.networkValidationError, "message too short for declared network_id length %", [.int networkIdLen]⟩
  -- the text of the wrong id, with its replacement characters, is left out
  require (slice data 7 networkIdLen = NETWORK_ID_BYTES) ⟨.networkValidationError, "wrong network_id: %", []⟩
  let offset := 7 + networkIdLen
  let messageType : Int := byteAt data offset
  require (messageType ∈ KNOWN_MESSAGE_TYPES) ⟨.unknownMessageTypeError, "unknown message type: %", [.int messageType]⟩
  let flags : Int := byteAt data (offset + 1)
  require (reservedFlags flags = 0) ⟨.networkValidationError, "reserved flags set: %", [.int flags]⟩
  let payloadLength := fromBE (slice data (offset + 2) PAYLOAD_LENGTH_SIZE)
  require (payloadLength ≤ MAX_PAYLOAD_BYTES)
    ⟨.oversizedPayloadError, "payload length % exceeds %", [.int payloadLength, .int MAX_PAYLOAD_BYTES]⟩
  let expectedTotal := expectedHeaderOverhead + payloadLength
  require (data.length = expectedTotal)
    ⟨.networkValidationError, "message size mismatch: got %, expected %", [.int data.length, .int expectedTotal]⟩
  let payloadHash := slice data (offset + 6) PAYLOAD_HASH_SIZE
  let payload := slice data (offset + 38) payloadLength
  let computedHash := E.sha256 payload
  require (payloadHash = computedHash)
    ⟨.payloadHashMismatchError, "payload hash mismatch: expected %, got %",
      [.str (toHex payloadHash), .str (toHex computedHash)]⟩
  .ok ⟨messageType, flags, payload⟩

/-- `struct.pack` of one unsigned big-endian field. -/
def structPackBE (len : Nat) (n : Int) : Except PyErr Bytes := (structPack len n).map List.reverse

def serializeEnvelope (messageType flags : Int) (payload : Bytes) : Except PyErr Bytes := do
  require (messageType ∈ KNOWN_MESSAGE_TYPES) ⟨.unknownMessageTypeError, "unknown message type: %", [.int messageType]⟩
  require (reservedFlags flags = 0) ⟨.networkValidationError, "reserved flags set: %", [.int flags]⟩
  require (payload.length ≤ MAX_PAYLOAD_BYTES)
    ⟨.oversizedPayloadError, "payload length % exceeds %", [.int payload.length, .int MAX_PAYLOAD_BYTES]⟩
  let payloadHash := E.sha256 payload
  let version ← structPackBE 2 NET_PROTOCOL_VERSION
  let networkIdLen ← structPackBE 1 NETWORK_ID_BYTES.length
  let messageType ← structPackBE 1 messageType
  let flags ← structPackBE 1 flags
  let length ← structPackBE 4 payload.length
  .ok (CBN1_MAGIC ++ version ++ networkIdLen ++ NETWORK_ID_BYTES ++ messageType ++ flags ++ length ++ payloadHash
    ++ payload)

/-! ## The frame of an envelope -/

/-- What `serialize_envelope` accepts. -/
structure NetworkEnvelope.Valid (e : NetworkEnvelope) : Prop where
  known : e.messageType ∈ KNOWN_MESSAGE_TYPES
  flags : 0 ≤ e.flags ∧ e.flags < 4
  size : e.payload.length ≤ MAX_PAYLOAD_BYTES

/-- The header without the payload's hash. -/
def prelude (e : NetworkEnvelope) : Bytes :=
  CBN1_MAGIC ++ ([0, 1, 25] ++ NETWORK_ID_BYTES
    ++ ([UInt8.ofNat e.messageType.toNat, UInt8.ofNat e.flags.toNat] ++ (leBytes 4 e.payload.length).reverse))

def frame (e : NetworkEnvelope) : Bytes := prelude e ++ (E.sha256 e.payload ++ e.payload)

theorem structPackBE_eq_ok {len : Nat} {n : Int} {b : Bytes} :
    structPackBE len n = .ok b ↔ 0 ≤ n ∧ n < 256 ^ len ∧ b = (leBytes len n.toNat).reverse := by
  unfold structPackBE
  cases h : structPack len n with
  | error e =>
    refine iff_of_false nofun fun hb => ?_
    rw [structPack_eq_ok.mpr ⟨hb.1, hb.2.1, rfl⟩] at h
    cases h
  | ok v =>
    obtain ⟨h₀, h₁, rfl⟩ := structPack_eq_ok.mp h
    change Except.ok _ = Except.ok b ↔ _
    rw [Except.ok.injEq]
    exact ⟨fun h => ⟨h₀, h₁, h.symm⟩, fun h => h.2.2.symm⟩

set_option maxRecDepth 4000 in
theorem reserved_mask : ∀ n < 256, n &&& FLAG_RESERVED_MASK = 0 ↔ n < 4 := by decide

theorem reservedFlags_eq_zero {flags : Int} (h₀ : 0 ≤ flags) (h₁ : flags < 256) : reservedFlags flags = 0 ↔ flags < 4 := by
  rw [reservedFlags, Int.emod_eq_of_lt h₀ h₁, reserved_mask _ (by omega)]
  omega

theorem known_bounds {t : Int} (h : t ∈ KNOWN_MESSAGE_TYPES) : 0 ≤ t ∧ t < 256 := by
  simp only [KNOWN_MESSAGE_TYPES, List.mem_cons, List.not_mem_nil, or_false] at h
  omega

theorem serializeEnvelope_eq_ok {e : NetworkEnvelope} {raw : Bytes} :
    serializeEnvelope E e.messageType e.flags e.payload = .ok raw ↔ e.Valid ∧ raw = frame E e := by
  have hbytes : ∀ n : Int, (leBytes 1 n.toNat).reverse = [UInt8.ofNat n.toNat] := fun n => by
    simp only [leBytes, List.reverse_singleton, List.cons.injEq, and_true]
    apply UInt8.toNat_inj.mp
    simp
  have hversion : (leBytes 2 NET_PROTOCOL_VERSION).reverse = [0, 1] := by decide
  have hid : (leBytes 1 NETWORK_ID_BYTES.length).reverse = [25] := by decide
  simp only [serializeEnvelope, bind_eq_ok, require_eq_ok, structPackBE_eq_ok, hbytes, Int.toNat_natCast,
    hversion, hid, Except.ok.injEq]
  constructor
  · rintro ⟨-, hknown, -, hflags, -, hsize, _, ⟨-, -, rfl⟩, _, ⟨-, -, rfl⟩, _, ⟨-, -, rfl⟩, _, ⟨hf₀, hf₁, rfl⟩, _,
      ⟨-, -, rfl⟩, rfl⟩
    refine ⟨⟨hknown, ⟨hf₀, (reservedFlags_eq_zero hf₀ (by simpa using hf₁)).mp hflags⟩, hsize⟩, ?_⟩
    simp only [frame, prelude, List.append_assoc, List.cons_append, List.nil_append]
  · rintro ⟨⟨hknown, ⟨hf₀, hf₁⟩, hsize⟩, rfl⟩
    have hk := known_bounds hknown
    have hsize' : e.payload.length ≤ 2000000 := hsize
    refine ⟨(), hknown, (), (reservedFlags_eq_zero hf₀ (by omega)).mpr hf₁, (), hsize, _, ⟨by omega, by decide, rfl⟩, _,
      ⟨by omega, by decide, rfl⟩, _, ⟨hk.1, by omega, rfl⟩, _, ⟨hf₀, by omega, rfl⟩, _, ⟨by omega, by omega, rfl⟩, ?_⟩
    simp only [frame, prelude, List.append_assoc, List.cons_append, List.nil_append]

theorem prelude_length (e : NetworkEnvelope) : (prelude e).length = 38 := by
  simp [prelude, CBN1_MAGIC, NETWORK_ID_BYTES, leBytes_length]

theorem frame_length (e : NetworkEnvelope) : (frame E e).length = 70 + e.payload.length := by
  rw [frame, List.length_append, List.length_append, prelude_length, E.sha256_length]
  omega

/-- The fields of a frame, whatever follows it. -/
structure FrameFields (e : NetworkEnvelope) (data : Bytes) : Prop where
  magic : slice data 0 4 = CBN1_MAGIC
  version : slice data 4 2 = [0, 1]
  networkIdLen : byteAt data 6 = 25
  networkId : slice data 7 25 = NETWORK_ID_BYTES
  messageType : byteAt data 32 = (UInt8.ofNat e.messageType.toNat).toNat
  flags : byteAt data 33 = (UInt8.ofNat e.flags.toNat).toNat
  length : slice data 34 4 = (leBytes 4 e.payload.length).reverse

theorem frame_fields (e : NetworkEnvelope) (rest : Bytes) : FrameFields e (frame E e ++ rest) :=
  ⟨rfl, rfl, rfl, rfl, rfl, rfl, rfl⟩

theorem fromBE_length {n : Nat} (h : n ≤ MAX_PAYLOAD_BYTES) : fromBE (leBytes 4 n).reverse = n := by
  rw [fromBE_reverse]
  apply fromLE_leBytes
  have : MAX_PAYLOAD_BYTES < 256 ^ 4 := by decide
  omega

theorem byte_back {n : Int} (h₀ : 0 ≤ n) (h₁ : n < 256) : ((UInt8.ofNat n.toNat).toNat : Int) = n := by
  rw [UInt8.toNat_ofNat_of_lt' (by rw [UInt8.size]; omega), Int.toNat_of_nonneg h₀]

theorem parseEnvelope_frame {e : NetworkEnvelope} (h : e.Valid) : parseEnvelope E (frame E e) = .ok e := by
  have hlen := frame_length E e
  have hsize := h.size
  have hknown := known_bounds h.known
  have hflags := h.flags
  have hfields := frame_fields E e []
  rw [List.append_nil] at hfields
  have hmin : MIN_ENVELOPE_SIZE = 70 := rfl
  have hmax : MAX_MESSAGE_SIZE = 70 + MAX_PAYLOAD_BYTES := rfl
  have htype : ((byteAt (frame E e) 32 : Nat) : Int) = e.messageType := by
    rw [hfields.messageType, byte_back hknown.1 hknown.2]
  have hflag : ((byteAt (frame E e) 33 : Nat) : Int) = e.flags := by
    rw [hfields.flags, byte_back hflags.1 (by omega)]
  have hpayloadLength : fromBE (slice (frame E e) 34 4) = e.payload.length := by
    rw [hfields.length, fromBE_length hsize]
  have hhash : slice (frame E e) 38 32 = E.sha256 e.payload :=
    slice_mid (prelude_length e) (E.sha256_length _)
  have hpayload : slice (frame E e) 70 e.payload.length = e.payload := by
    have hsplit : frame E e = (prelude e ++ E.sha256 e.payload) ++ (e.payload ++ []) := by
      rw [frame, List.append_nil, List.append_assoc]
    rw [hsplit]
    apply slice_mid _ rfl
    rw [List.length_append, prelude_length, E.sha256_length]
  have hprotocol : fromBE [0, 1] = NET_PROTOCOL_VERSION := rfl
  have hreserved : reservedFlags e.flags = 0 := (reservedFlags_eq_zero hflags.1 (by omega)).mpr hflags.2
  simp only [parseEnvelope, MAGIC_SIZE, PROTOCOL_VERSION_SIZE, MESSAGE_TYPE_SIZE, FLAGS_SIZE, PAYLOAD_LENGTH_SIZE,
    PAYLOAD_HASH_SIZE, hfields.magic, hfields.version, hprotocol, hfields.networkIdLen, hfields.networkId, Nat.reduceAdd,
    htype, hflag, hpayloadLength, hhash, hpayload]
  rw [require_of _ (by omega), ok_bind, require_of _ (by omega), ok_bind, require_of _ trivial, ok_bind, require_of _ trivial,
    ok_bind, require_of _ (by decide), ok_bind, require_of _ (by omega), ok_bind, require_of _ trivial, ok_bind,
    require_of _ h.known, ok_bind, require_of _ hreserved, ok_bind, require_of _ hsize, ok_bind, require_of _ hlen,
    ok_bind, require_of _ trivial, ok_bind]

/-! ## What is parsed is a frame -/

/-- A number is written as the bytes it was read from. -/
theorem beBytes_fromBE {b : Bytes} {n : Nat} (h : b.length = n) : (leBytes n (fromBE b)).reverse = b := by
  have hrev : fromBE b = fromLE b.reverse := by rw [← fromBE_reverse, List.reverse_reverse]
  rw [hrev, ← h, ← List.length_reverse, leBytes_fromLE, List.reverse_reverse]

theorem slice_one {data : Bytes} {i : Nat} (h : i < data.length) : slice data i 1 = [UInt8.ofNat (byteAt data i)] := by
  have hget : data.getD i 0 = data[i] := by rw [List.getD_eq_getElem?_getD, List.getElem?_eq_getElem h, Option.getD_some]
  rw [slice, byteAt, UInt8.ofNat_toNat, hget, List.drop_eq_getElem_cons h, List.take_succ_cons, List.take_zero]

/-- What was parsed is the frame of its envelope. -/
theorem parseEnvelope_ok {data : Bytes} {e : NetworkEnvelope} (h : parseEnvelope E data = .ok e) :
    e.Valid ∧ data = frame E e := by
  simp only [parseEnvelope, bind_eq_ok, require_eq_ok, Except.ok.injEq] at h
  obtain ⟨_, hmin, _, -, _, hmagic, _, hversion, _, -, _, hover, _, hid, _, hknown, _, hflags, _, hsize, _, htotal, _,
    hhash, rfl⟩ := h
  simp only [MAGIC_SIZE, PROTOCOL_VERSION_SIZE, MESSAGE_TYPE_SIZE, FLAGS_SIZE, PAYLOAD_LENGTH_SIZE, PAYLOAD_HASH_SIZE]
    at hmagic hversion hover hid hknown hflags hsize htotal hhash ⊢
  have hlen : byteAt data 6 = 25 := by
    have hlength := congrArg List.length hid
    rw [slice_length (by omega)] at hlength
    exact hlength
  simp only [hlen, Nat.reduceAdd] at hid hknown hflags hsize htotal hhash ⊢
  have hmin : 70 ≤ data.length := hmin
  have hpayload : slice data 70 (fromBE (slice data 34 4)) = data.drop 70 := List.take_of_length_le (by
    rw [List.length_drop]
    omega)
  have hpayloadLen : (data.drop 70).length = fromBE (slice data 34 4) := by
    rw [List.length_drop]
    omega
  have hflag : ((byteAt data 33 : Nat) : Int) < 4 := by
    have hlt : byteAt data 33 < 256 := (data.getD 33 0).toNat_lt
    exact (reservedFlags_eq_zero (by omega) (by omega)).mp hflags
  have hversionBytes : slice data 4 2 = [0, 1] := by
    rw [← beBytes_fromBE (@slice_length data 4 2 (by omega)), hversion]
    decide
  have hlengthBytes : slice data 34 4 = (leBytes 4 (data.drop 70).length).reverse := by
    rw [hpayloadLen, beBytes_fromBE (slice_length (by omega))]
  have hsplit : data = slice data 0 4 ++ (slice data 4 2 ++ (slice data 6 1 ++ (slice data 7 25 ++ (slice data 32 1 ++
      (slice data 33 1 ++ (slice data 34 4 ++ (slice data 38 32 ++ data.drop 70))))))) := by
    rw [slice_drop data 38, slice_drop data 34, slice_drop data 33, slice_drop data 32, slice_drop data 7,
      slice_drop data 6, slice_drop data 4, slice_drop data 0, List.drop_zero]
  refine ⟨⟨hknown, ⟨Int.natCast_nonneg _, hflag⟩, ?_⟩, ?_⟩
  · change (slice data 70 _).length ≤ _
    rw [hpayload, hpayloadLen]
    exact hsize
  · have hhash : slice data 38 32 = E.sha256 (data.drop 70) := hpayload ▸ hhash
    rw [hpayload, frame, prelude, ← hhash, ← hlengthBytes, Int.toNat_natCast, Int.toNat_natCast]
    conv_lhs => rw [hsplit, hmagic, hversionBytes, hid, slice_one (i := 6) (by omega), slice_one (i := 32) (by omega),
      slice_one (i := 33) (by omega), hlen]
    simp
end ChainBreaker
