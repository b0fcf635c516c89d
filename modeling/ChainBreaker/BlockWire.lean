import ChainBreaker.Acceptance
import ChainBreaker.EscapedJson
import ChainBreaker.RegistryRead

/-!
# The wire format of blocks

A header, a count, and the transactions one after the other. Of a transaction
the codec carries the version, the type, the body and the witnesses and nothing
else, where the ledger accepts any envelope with a type and a body: an accepted
block comes back exactly if all its transactions are canonical envelopes
(`block_round_trip_iff`).
-/

namespace ChainBreaker

open Fallible OffsetReader

/-- `int(s)` of a string. Nothing below depends on the number it gives. -/
structure Codec extends Runtime where
  intOfStr : Str → Option Int

namespace BinaryCodec

def TYPE_TX : UInt8 := 0x01
def MAX_VARINT : Nat := 0xFFFFFFFFFFFFFFFF
def MAX_TX_TYPE_LEN : Nat := 64
def MAX_BODY_LEN : Nat := 1024 * 1024
def MAX_WITNESSES_LEN : Nat := 1024 * 1024

/-- `_need`. -/
def need (data : Bytes) (offset length : Nat) : Except PyErr Unit :=
  require (offset + length ≤ data.length)
    ⟨.codecError, "need % bytes at offset %, have %", [.int length, .int offset, .int data.length]⟩

/-! ## Varints and strings -/

def encodeVarint (n : Int) : Except PyErr Bytes :=
  if n < 0 then .error (codecError "varint cannot be negative")
  else if n < 0xFD then structPack 1 n
  else if n ≤ 0xFFFF then (structPack 2 n).map (0xFD :: ·)
  else if n ≤ 0xFFFFFFFF then (structPack 4 n).map (0xFE :: ·)
  else if n ≤ MAX_VARINT then (structPack 8 n).map (0xFF :: ·)
  else .error (codecError "varint too large")

/-- `_canonical_length`. -/
def canonicalLength (n : Nat) : Nat :=
  if n < 0xFD then 1
  else if n ≤ 0xFFFF then 3
  else if n ≤ 0xFFFFFFFF then 5
  else 9

/-- A number of `width` bytes behind its prefix. -/
def wideVarint (width : Nat) (data : Bytes) (offset : Nat) : Except PyErr (Nat × Nat) := do
  need data (offset + 1) width
  let n := fromLE (slice data (offset + 1) width)
  require (canonicalLength n = width + 1) (codecError "noncanonical varint encoding")
  .ok (n, offset + (width + 1))

def decodeVarint (data : Bytes) (offset : Nat) : Except PyErr (Nat × Nat) := do
  need data offset 1
  let lead := data.getD offset 0
  if lead < 0xFD then .ok (lead.toNat, offset + 1)
  else if lead = 0xFD then wideVarint 2 data offset
  else if lead = 0xFE then wideVarint 4 data offset
  else wideVarint 8 data offset

def encodeBytes (blob : Bytes) : Except PyErr Bytes := do
  let n ← encodeVarint blob.length
  .ok (n ++ blob)

def decodeBytes (data : Bytes) (offset : Nat) : Except PyErr (Bytes × Nat) := do
  let (length, offset) ← decodeVarint data offset
  need data offset length
  .ok (slice data offset length, offset + length)

def decodeString (data : Bytes) (offset : Nat) : Except PyErr (Str × Nat) := do
  let (raw, offset) ← decodeBytes data offset
  match decodeUtf8 raw with
  | .ok s => .ok (s, offset)
  | .error e => .error ⟨.codecError, "invalid utf-8: " ++ e.text, e.args⟩

/-! ## Transactions -/

/-- The binary64 number cut off behind its point. -/
def truncate (bits : UInt64) : Int :=
  let exponent := bits.toNat / 2 ^ 52 % 2048
  let fraction := bits.toNat % 2 ^ 52
  let significand := if exponent = 0 then fraction else 2 ^ 52 + fraction
  let magnitude : Nat := significand * 2 ^ (exponent - 1075) / 2 ^ (1075 - exponent)
  if bits.toNat < 2 ^ 63 then magnitude else -magnitude

section
variable (M : Codec)

/-- `int(v)`. -/
def intOf : Json → Except PyErr Int
  | .int n => .ok n
  | .bool b => .ok (if b then 1 else 0)
  | .float bits =>
    if floatFinite bits then .ok (truncate bits)
    else if bits.toNat % 2 ^ 52 = 0 then raise .overflowError "cannot convert float infinity to integer" []
    else raise .valueError "cannot convert float NaN to integer" []
  | .str s =>
    match M.intOfStr s with
    | some n => .ok n
    | none => raise .valueError "invalid literal for int() with base 10: %" [.str s]
  | v => raise .typeError "int() argument must be a string, a bytes-like object or a real number, not %" [v]

/-- `encode_transaction` of a dictionary. -/
def encodeFields (tx : Fields) : Except PyErr Bytes := do
  let txType ← orRaise ((tx.get "type").getD (.str [])).asStr? (codecError "invalid transaction type")
  let typeBytes ← encodeUtf8 txType
  require (typeBytes.length ≤ MAX_TX_TYPE_LEN) (codecError "invalid transaction type")
  let body ← canonicalJson M.toPrimitives ((tx.get "body").getD (.dict []))
  require (body.length ≤ MAX_BODY_LEN) (codecError "transaction body too large")
  let witnesses ← canonicalJson M.toPrimitives ((tx.get "witnesses").getD (.list []))
  require (witnesses.length ≤ MAX_WITNESSES_LEN) (codecError "witnesses too large")
  let version ← tx.item "version" >>= intOf M >>= encodeVarint
  let typeText ← encodeBytes typeBytes
  let bodyText ← encodeBytes body
  let witnessesText ← encodeBytes witnesses
  .ok (TYPE_TX :: (version ++ (typeText ++ (bodyText ++ witnessesText))))

def encodeTransaction : Json → Except PyErr Bytes
  | .dict tx => encodeFields M tx
  | _ => raise .attributeError "object has no attribute 'get'" []

/-- `json.loads(raw.decode("utf-8"))`, with its errors as `decode_transaction` passes them on. -/
def loadPayload (raw : Bytes) : Except PyErr Json :=
  match decodeUtf8 raw >>= loads M.floatOf with
  | .ok v => .ok v
  | .error e => .error ⟨.codecError, "invalid transaction payload: " ++ e.text, e.args⟩

def decodeTransaction (data : Bytes) (offset : Nat) : Except PyErr (Json × Nat) := do
  need data offset 1
  require (data.getD offset 0 = TYPE_TX) (codecError "expected tx type 0x01")
  let (version, offset) ← decodeVarint data (offset + 1)
  let (txType, offset) ← decodeString data offset
  let (body, offset) ← decodeBytes data offset
  let (witnesses, offset) ← decodeBytes data offset
  let bodyObj ← loadPayload M body
  let witnessesObj ← loadPayload M witnesses
  .ok (.dict [(str "version", .int version), (str "type", .str txType), (str "body", bodyObj),
    (str "witnesses", witnessesObj)], offset)

end

/-- `decode_header`, which lets bytes trail. -/
def decodeHeader (data : Bytes) : Except PyErr HeaderDict := do
  let (tag, data) ← takeBytes 1 data
  require (tag = [TYPE_HEADER]) (codecError "expected header type 0x02")
  let (version, data) ← takeBytes 4 data
  let (prevHash, data) ← takeBytes HASH_LEN data
  let (merkleRoot, data) ← takeBytes HASH_LEN data
  let (timestamp, data) ← takeBytes 8 data
  let (target, data) ← takeBytes HASH_LEN data
  let (nonce, _) ← takeBytes 8 data
  .ok ⟨fromLE version, toHex prevHash, toHex merkleRoot, fromLE timestamp, toHex target, fromLE nonce⟩

end BinaryCodec

open BinaryCodec

def BlockHeader.fromDict (d : HeaderDict) : Except PyErr BlockHeader := do
  let target ← hexToTarget d.target
  .ok ⟨d.version, d.prevHash, d.merkleRoot, d.timestamp, target, d.nonce⟩

section
variable (M : Codec)

/-- `block_encode`. -/
def blockEncode (block : AnyBlock) : Except PyErr Bytes := do
  let header ← match block with
    | .v2 b => b.header.bytes
    | .v1 b => b.header.toDict >>= encodeHeader
  let count ← BinaryCodec.encodeVarint block.transactions.length
  let transactions ← collect (encodeTransaction M) block.transactions
  .ok (header ++ (count ++ transactions.flatten))

/-- The count and the transactions of a block. -/
def decodeTransactions (data : Bytes) (offset : Nat) : Except PyErr (List Json × Nat) := do
  let (count, offset) ← BinaryCodec.decodeVarint data offset
  times (decodeTransaction M) count data offset

/-- `block_decode`. -/
def blockDecode (data : Bytes) : Except PyErr (AnyBlock × Nat) :=
  if 149 ≤ data.length ∧ data.getD 0 0 = TYPE_HEADER ∧ fromLE (slice data 1 4) = 2 then do
    let d ← decodeHeaderV2 data
    let (transactions, offset) ← decodeTransactions M data 149
    let header ← BlockHeaderV2.fromDict d
    .ok (.v2 ⟨header, transactions⟩, offset)
  else do
    let d ← BinaryCodec.decodeHeader data
    let (transactions, offset) ← decodeTransactions M data 117
    let header ← BlockHeader.fromDict d
    .ok (.v1 ⟨header, transactions⟩, offset)

end

/-! ## What is encoded is read -/

namespace BinaryCodec

theorem need_of {pre x post : Bytes} {k n : Nat} (h : k + n ≤ x.length + post.length) :
    need (pre ++ (x ++ post)) (pre.length + k) n = .ok () := by
  rw [need, require_of]
  simp only [List.length_append]
  omega

theorem need_head (pre post rest : Bytes) (lead : UInt8) :
    need (pre ++ ((lead :: rest) ++ post)) pre.length 1 = .ok () :=
  @need_of pre (lead :: rest) post 0 1 (by rw [List.length_cons]; omega)

theorem wideVarint_reads {width n : Nat} {lead : UInt8} (hn : n < 256 ^ width) (hcanon : canonicalLength n = width + 1)
    (pre post : Bytes) :
    wideVarint width (pre ++ ((lead :: leBytes width n) ++ post)) pre.length = .ok (n, pre.length + (width + 1)) := by
  have hslice : slice (pre ++ ((lead :: leBytes width n) ++ post)) (pre.length + 1) width = leBytes width n :=
    @slice_after pre [lead] _ post 1 width rfl (leBytes_length _ _)
  rw [wideVarint, need_of (by rw [List.length_cons, leBytes_length]; omega), ok_bind]
  dsimp only
  rw [hslice, fromLE_leBytes _ _ hn, require_of _ hcanon]
  rfl

theorem varint_reads {n : Nat} {b : Bytes} (h : encodeVarint n = .ok b) : Reads decodeVarint b n := by
  intro pre post
  have hpack : ∀ {width : Nat} {out : Bytes} {lead : UInt8}, (structPack width (n : Int)).map (lead :: ·) = .ok out →
      n < 256 ^ width ∧ out = lead :: leBytes width n := by
    intro width out lead hout
    cases hp : structPack width (n : Int) with
    | error e => rw [hp] at hout; cases hout
    | ok raw =>
      rw [hp] at hout
      cases hout
      obtain ⟨hlt, rfl⟩ := structPack_nat.mp hp
      exact ⟨hlt, rfl⟩
  have hlead : ∀ (lead : UInt8) (rest : Bytes), (pre ++ ((lead :: rest) ++ post)).getD pre.length 0 = lead := by
    intro lead rest
    simp
  unfold encodeVarint at h
  rw [decodeVarint]
  split_ifs at h with h₀ h₁ h₂ h₃ h₄
  · obtain ⟨-, rfl⟩ := structPack_nat.mp h
    have hbyte : (UInt8.ofNat (n % 256)).toNat = n := by
      rw [UInt8.toNat_ofNat']
      omega
    have hlt : UInt8.ofNat (n % 256) < 0xFD := by
      rw [UInt8.lt_iff_toNat_lt, hbyte]
      change n < 253
      omega
    rw [leBytes, need_head, ok_bind]
    dsimp only
    rw [hlead, if_pos hlt, hbyte]
    rfl
  all_goals
    obtain ⟨hlt, rfl⟩ := hpack h
    rw [need_head, ok_bind]
    dsimp only
    rw [hlead, if_neg (by decide)]
  · rw [if_pos rfl, wideVarint_reads hlt (by rw [canonicalLength, if_neg (by omega), if_pos (by omega)]), List.length_cons,
      leBytes_length]
  · rw [if_neg (by decide), if_pos rfl, wideVarint_reads hlt
      (by rw [canonicalLength, if_neg (by omega), if_neg (by omega), if_pos (by omega)]), List.length_cons, leBytes_length]
  · rw [if_neg (by decide), if_neg (by decide), wideVarint_reads hlt
      (by rw [canonicalLength, if_neg (by omega), if_neg (by omega), if_neg (by omega)]), List.length_cons, leBytes_length]

theorem bytes_reads {blob b : Bytes} (h : encodeBytes blob = .ok b) : Reads decodeBytes b blob := by
  obtain ⟨n, hn, h⟩ := bind_eq_ok.mp h
  cases h
  intro pre post
  have hvar := (varint_reads hn).run (show pre.length = pre.length from rfl)
    (show pre ++ ((n ++ blob) ++ post) = pre ++ (n ++ (blob ++ post)) by simp)
  have hneed := @need_of pre (n ++ blob) post n.length blob.length (by rw [List.length_append]; omega)
  rw [decodeBytes, hvar, ok_bind]
  dsimp only
  rw [hneed, ok_bind, List.append_assoc, slice_after rfl rfl, List.length_append, Nat.add_assoc]

theorem string_reads {s : Str} {b : Bytes} (hs : s.any isSurrogate = false) (h : encodeBytes (utf8 s) = .ok b) :
    Reads decodeString b s := by
  intro pre post
  rw [decodeString, bytes_reads h pre post, ok_bind]
  dsimp only
  rw [decodeUtf8_utf8 hs]

section
variable {M : Codec}

/-- The fields of a transaction as it comes back. -/
def rebuilt (version : Int) (txType : Str) (body witnesses : Json) : Fields :=
  [(str "version", .int version), (str "type", .str txType), (str "body", body.norm.parsed),
    (str "witnesses", witnesses.norm.parsed)]

theorem loadPayload_canonical (hM : FloatsRead M.toRuntime) {v : Json} {b : Bytes}
    (h : canonicalJson M.toPrimitives v = .ok b) : loadPayload M b = .ok v.norm.parsed := by
  rw [loadPayload, loads_canonical hM h]

/-- What `encode_transaction` wants. -/
structure Encoded (M : Codec) (tx : Fields) (version : Nat) (txType : Str) (body witnesses : Json) : Prop where
  txType : (tx.get "type").getD (.str []) = .str txType ∧ txType.any isSurrogate = false ∧
    (utf8 txType).length ≤ MAX_TX_TYPE_LEN
  body : (tx.get "body").getD (.dict []) = body ∧ ∃ b, canonicalJson M.toPrimitives body = .ok b ∧ b.length ≤ MAX_BODY_LEN
  witnesses : (tx.get "witnesses").getD (.list []) = witnesses ∧
    ∃ b, canonicalJson M.toPrimitives witnesses = .ok b ∧ b.length ≤ MAX_WITNESSES_LEN
  version : (∃ v, tx.get "version" = some v ∧ intOf M v = .ok version) ∧ version ≤ MAX_VARINT

theorem encodeVarint_range {n : Int} {b : Bytes} (h : encodeVarint n = .ok b) : 0 ≤ n ∧ n ≤ MAX_VARINT := by
  have hmax : (MAX_VARINT : Int) = 0xFFFFFFFFFFFFFFFF := rfl
  unfold encodeVarint at h
  split_ifs at h <;> omega

theorem encodeVarint_ok {n : Nat} (h : n ≤ MAX_VARINT) : ∃ b, encodeVarint n = .ok b := by
  have hmax : MAX_VARINT = 0xFFFFFFFFFFFFFFFF := rfl
  have hpack : ∀ {width : Nat} {lead : UInt8}, n < 256 ^ width → ∃ b, (structPack width (n : Int)).map (lead :: ·) = .ok b :=
    fun hlt => ⟨_, by rw [structPack_nat.mpr ⟨hlt, rfl⟩]; rfl⟩
  unfold encodeVarint
  rw [if_neg (by omega)]
  split_ifs with h₁ h₂ h₃ h₄
  · exact ⟨_, structPack_nat.mpr ⟨by omega, rfl⟩⟩
  · exact hpack (by omega)
  · exact hpack (by omega)
  · exact hpack (by omega)
  · omega

theorem encodeBytes_ok {blob : Bytes} (h : blob.length ≤ MAX_VARINT) : ∃ b, encodeBytes blob = .ok b := by
  obtain ⟨n, hn⟩ := encodeVarint_ok h
  exact ⟨n ++ blob, by rw [encodeBytes, hn, ok_bind]⟩

theorem encodeFields_of {tx : Fields} {version : Nat} {txType : Str} {body witnesses : Json}
    (h : Encoded M tx version txType body witnesses) : ∃ b, encodeFields M tx = .ok b := by
  obtain ⟨⟨htype, hsurr, htypeLen⟩, ⟨hbody, body', hbody', hbodyLen⟩, ⟨hwit, wit', hwit', hwitLen⟩, ⟨v, hget, hint⟩, hmax⟩ := h
  have hlimit : ∀ {n limit : Nat}, n ≤ limit → limit ≤ 1024 * 1024 → n ≤ MAX_VARINT := fun h₁ h₂ => by
    have hvarint : MAX_VARINT = 0xFFFFFFFFFFFFFFFF := rfl
    omega
  obtain ⟨vb, hvb⟩ := encodeVarint_ok hmax
  obtain ⟨tb, htb⟩ := encodeBytes_ok (hlimit htypeLen (by decide))
  obtain ⟨bb, hbb⟩ := encodeBytes_ok (hlimit hbodyLen (Nat.le_refl _))
  obtain ⟨wb, hwb⟩ := encodeBytes_ok (hlimit hwitLen (Nat.le_refl _))
  have hutf8 : encodeUtf8 txType = .ok (utf8 txType) := encodeUtf8_eq_ok.mpr ⟨hsurr, rfl⟩
  refine ⟨TYPE_TX :: (vb ++ (tb ++ (bb ++ wb))), ?_⟩
  rw [encodeFields, htype, Json.asStr?, orRaise, ok_bind, hutf8, ok_bind, require_of _ htypeLen, ok_bind, hbody, hbody', ok_bind, require_of _ hbodyLen, ok_bind, hwit,
    hwit', ok_bind, require_of _ hwitLen, ok_bind, Fields.item, hget]
  dsimp only
  rw [ok_bind, hint, ok_bind, hvb, ok_bind, htb, ok_bind, hbb, ok_bind, hwb, ok_bind]

/-- What is encoded is read back as `rebuilt`. -/
theorem transaction_reads (hM : FloatsRead M.toRuntime) {tx : Fields} {b : Bytes} (h : encodeFields M tx = .ok b) :
    ∃ version txType body witnesses, Encoded M tx version txType body witnesses ∧
      Reads (decodeTransaction M) b (.dict (rebuilt version txType body witnesses)) := by
  simp only [encodeFields, bind_eq_ok, require_eq_ok, orRaise_eq_ok, encodeUtf8_eq_ok, Fields.item] at h
  obtain ⟨txType, htype, _, ⟨hsurr, rfl⟩, _, htypeLen, body, hbody, _, hbodyLen, wit, hwit, _, hwitLen, vb,
    ⟨n, ⟨v, hget, hint⟩, hvb⟩, tb, htb, bb, hbb, wb, hwb, h⟩ := h
  cases h
  have htype' : (tx.get "type").getD (.str []) = .str txType := by
    cases hv : (tx.get "type").getD (.str []) with
    | str s =>
      rw [hv] at htype
      cases htype
      rfl
    | _ => rw [hv] at htype; cases htype
  have hget' : tx.get "version" = some v := by
    split at hget
    · rename_i w heq
      cases hget
      exact heq
    · cases hget
  obtain ⟨h₀, hmax⟩ := encodeVarint_range hvb
  obtain ⟨version, rfl⟩ := Int.eq_ofNat_of_zero_le h₀
  refine ⟨version, txType, _, _, ⟨⟨htype', hsurr, htypeLen⟩, ⟨rfl, body, hbody, hbodyLen⟩, ⟨rfl, wit, hwit, hwitLen⟩,
    ⟨⟨v, hget', hint⟩, Int.ofNat_le.mp hmax⟩⟩, fun pre post => ?_⟩
  generalize hdata : pre ++ ((TYPE_TX :: (vb ++ (tb ++ (bb ++ wb)))) ++ post) = data
  have hneed : need data pre.length 1 = .ok () := hdata ▸ need_head pre post _ TYPE_TX
  have hlead : data.getD pre.length 0 = TYPE_TX := by rw [← hdata]; simp
  have hversion := (varint_reads hvb).run (show (pre ++ [TYPE_TX]).length = pre.length + 1 by simp)
    (show data = (pre ++ [TYPE_TX]) ++ (vb ++ (tb ++ (bb ++ (wb ++ post)))) by rw [← hdata]; simp)
  have hstring := (string_reads hsurr htb).run
    (show (pre ++ TYPE_TX :: vb).length = pre.length + 1 + vb.length by simp; omega)
    (show data = (pre ++ TYPE_TX :: vb) ++ (tb ++ (bb ++ (wb ++ post))) by rw [← hdata]; simp)
  have hbodyRead := (bytes_reads hbb).run
    (show (pre ++ TYPE_TX :: (vb ++ tb)).length = pre.length + 1 + vb.length + tb.length by simp; omega)
    (show data = (pre ++ TYPE_TX :: (vb ++ tb)) ++ (bb ++ (wb ++ post)) by rw [← hdata]; simp)
  have hwitRead := (bytes_reads hwb).run
    (show (pre ++ TYPE_TX :: (vb ++ (tb ++ bb))).length = pre.length + 1 + vb.length + tb.length + bb.length by simp; omega)
    (show data = (pre ++ TYPE_TX :: (vb ++ (tb ++ bb))) ++ (wb ++ post) by rw [← hdata]; simp)
  rw [decodeTransaction, hneed, ok_bind, hlead, require_of _ rfl, ok_bind, hversion, ok_bind]
  dsimp only
  rw [hstring, ok_bind]
  dsimp only
  rw [hbodyRead, ok_bind]
  dsimp only
  rw [hwitRead, ok_bind]
  dsimp only
  rw [loadPayload_canonical hM hbody, ok_bind, loadPayload_canonical hM hwit, ok_bind]
  simp only [rebuilt, List.length_cons, List.length_append, Except.ok.injEq, Prod.mk.injEq, true_and]
  omega

end

end BinaryCodec

/-! ## Canonical envelopes -/

section
variable (M : Codec)

/-- As a JSON decoder makes it, and within the limit. -/
def Sized (limit : Nat) (v : Json) : Prop :=
  v.decoded = true ∧ ∀ b, canonicalJson M.toPrimitives v = .ok b → b.length ≤ limit

/-- `{version, type, body, witnesses}` with an integer for a version. -/
structure CanonicalEnvelope (tx : Fields) : Prop where
  keys : tx.keysWithin ["version", "type", "body", "witnesses"] = true
  version : ∃ n : Nat, tx.get "version" = some (.int n) ∧ n ≤ MAX_VARINT
  body : ∃ v, tx.get "body" = some v ∧ Sized M BinaryCodec.MAX_BODY_LEN v
  witnesses : ∃ v, tx.get "witnesses" = some v ∧ Sized M BinaryCodec.MAX_WITNESSES_LEN v

def IsEnvelope (tx : Json) : Prop := ∃ d, tx = .dict d ∧ CanonicalEnvelope M d

end

section
variable {M : Codec} {tx : Fields} {version : Nat} {txType : Str} {body witnesses : Json}

/-- The type of an accepted transaction. -/
theorem schemaOk_type (h : schemaOk (.dict tx) = true) :
    ∃ s, tx.get "type" = some (.str s) ∧ (["genesis", "governance", "scripture"].map str).contains s = true := by
  unfold schemaOk at h
  split at h
  · rename_i u hv
    simp only [validateV2Transaction, Json.asDict?, orRaise, ok_bind, bind_eq_ok, require_eq_ok] at hv
    obtain ⟨known, hknown, _, rfl, -⟩ := hv
    rw [Fields.getOrNull] at hknown
    cases hget : tx.get "type" with
    | none => rw [hget] at hknown; cases hknown
    | some v =>
      rw [hget, Option.getD_some] at hknown
      cases v with
      | str s => exact ⟨s, rfl, Except.ok.inj hknown⟩
      | list xs => cases hknown
      | dict fs => cases hknown
      | _ => cases hknown
  · cases h

theorem knownType_short {s : Str} (h : (["genesis", "governance", "scripture"].map str).contains s = true) :
    s.any isSurrogate = false ∧ (utf8 s).length ≤ MAX_TX_TYPE_LEN := by
  have hall : ∀ t ∈ ["genesis", "governance", "scripture"].map str,
      t.any isSurrogate = false ∧ (utf8 t).length ≤ MAX_TX_TYPE_LEN := by decide +kernel
  exact hall s (List.contains_iff_mem.mp h)

theorem lookup_field (k k' : Str) (v : Json) (fs : Fields) :
    List.lookup k ((k', v) :: fs) = if k = k' then some v else fs.lookup k := by
  rw [List.lookup_cons]
  by_cases h : k = k'
  · rw [if_pos h, beq_iff_eq.mpr h]
  · rw [if_neg h, beq_eq_false_iff_ne.mpr h]

theorem rebuilt_lookup (k : Str) : (rebuilt version txType body witnesses).lookup k =
    if k = str "version" then some (.int version)
    else if k = str "type" then some (.str txType)
    else if k = str "body" then some body.norm.parsed
    else if k = str "witnesses" then some witnesses.norm.parsed
    else none := by
  simp only [rebuilt, lookup_field, List.lookup_nil]

theorem envelopeKeys_apart : str "type" ≠ str "version" ∧ str "body" ≠ str "version" ∧ str "body" ≠ str "type" ∧
    str "witnesses" ≠ str "version" ∧ str "witnesses" ≠ str "type" ∧ str "witnesses" ≠ str "body" := by decide +kernel

theorem rebuilt_keys : ((rebuilt version txType body witnesses).map Prod.fst).Nodup := by
  obtain ⟨h₁, h₂, h₃, h₄, h₅, h₆⟩ := envelopeKeys_apart
  simp only [rebuilt, List.map_cons, List.map_nil, List.nodup_cons, List.mem_cons, List.not_mem_nil, or_false, not_or,
    not_false_eq_true, List.nodup_nil, and_true]
  exact ⟨⟨h₁.symm, h₂.symm, h₄.symm⟩, ⟨h₃.symm, h₅.symm⟩, h₆.symm⟩

theorem keysWithin_iff (h : (tx.map Prod.fst).Nodup) {ks : List String} :
    tx.keysWithin ks = true ↔ ∀ k v, tx.lookup k = some v → k ∈ ks.map str := by
  rw [Fields.keysWithin, List.all_eq_true]
  simp only [List.contains_iff_mem]
  exact ⟨fun hall k v hk => hall (k, v) ((lookup_iff_mem h).mp hk),
    fun hall f hf => hall f.1 f.2 ((lookup_iff_mem h).mpr hf)⟩

theorem norm_eq_int {v : Json} {n : Int} (h : v.norm = .int n) : v = .int n := by
  cases v <;> simp_all [Json.norm]

theorem norm_eq_str {v : Json} {s : Str} (h : v.norm = .str s) : v = .str s := by
  cases v <;> simp_all [Json.norm]

/-- A transaction comes back as it was exactly if it is a canonical envelope. -/
theorem rebuilt_norm_iff {s : Str} (hs : tx.get "type" = some (.str s)) (hd : (Json.dict tx).distinct = true)
    (henc : Encoded M tx version txType body witnesses) :
    (Json.dict (rebuilt version txType body witnesses)).norm = (Json.dict tx).norm ↔ CanonicalEnvelope M tx := by
  obtain ⟨hnodup, hvalues⟩ := distinct_dict.mp hd
  obtain ⟨h₁, h₂, h₃, h₄, h₅, h₆⟩ := envelopeKeys_apart
  obtain ⟨⟨htype, -⟩, ⟨hbody, bodyText, hbodyText, hbodyLen⟩, ⟨hwit, witText, hwitText, hwitLen⟩, ⟨v, hget, hint⟩, hmax⟩ := henc
  rw [hs, Option.getD_some, Json.str.injEq] at htype
  subst htype
  rw [norm_dict_iff rebuilt_keys hnodup]
  have hdistinct : ∀ {k : Str} {x : Json}, tx.lookup k = some x → x.distinct = true := fun hx =>
    hvalues _ ((lookup_iff_mem hnodup).mp hx)
  -- a value that came back is the one that is there if nothing in it was joined
  have hpayload : ∀ {k : Str} {x fallback : Json}, (tx.lookup k).getD fallback = x →
      some x.norm.parsed.norm = (tx.lookup k).map Json.norm → tx.lookup k = some x ∧ x.decoded = true := by
    intro k x fallback hx h
    obtain ⟨y, hy, hnorm⟩ := Option.map_eq_some_iff.mp h.symm
    rw [hy, Option.getD_some] at hx
    subst hx
    exact ⟨hy, (parsed_norm_iff (hdistinct hy)).mp hnorm.symm⟩
  constructor
  · intro h
    have hversion := h (str "version")
    have hbody' := h (str "body")
    have hwit' := h (str "witnesses")
    rw [rebuilt_lookup, if_pos rfl, Option.map_some] at hversion
    rw [rebuilt_lookup, if_neg h₂, if_neg h₃, if_pos rfl, Option.map_some] at hbody'
    rw [rebuilt_lookup, if_neg h₄, if_neg h₅, if_neg h₆, if_pos rfl, Option.map_some] at hwit'
    obtain ⟨x, hx, hxnorm⟩ := Option.map_eq_some_iff.mp hversion.symm
    obtain ⟨hbodyGet, hbodyDecoded⟩ := hpayload hbody hbody'
    obtain ⟨hwitGet, hwitDecoded⟩ := hpayload hwit hwit'
    refine ⟨(keysWithin_iff hnodup).mpr fun k y hk => ?_, ⟨version, ?_, hmax⟩, ⟨body, hbodyGet, hbodyDecoded, ?_⟩,
      ⟨witnesses, hwitGet, hwitDecoded, ?_⟩⟩
    · have hkey := h k
      rw [hk, rebuilt_lookup] at hkey
      simp only [List.map_cons, List.map_nil, List.mem_cons, List.not_mem_nil, or_false]
      split_ifs at hkey with e₁ e₂ e₃ e₄
      · exact .inl e₁
      · exact .inr (.inl e₂)
      · exact .inr (.inr (.inl e₃))
      · exact .inr (.inr (.inr e₄))
      · cases hkey
    · rw [Fields.get, hx, norm_eq_int hxnorm]
    · intro b hb
      rw [hbodyText] at hb
      exact Except.ok.inj hb ▸ hbodyLen
    · intro b hb
      rw [hwitText] at hb
      exact Except.ok.inj hb ▸ hwitLen
  · rintro ⟨hkeys, ⟨n, hn, -⟩, ⟨b, hb, hbdecoded, -⟩, ⟨w, hw, hwdecoded, -⟩⟩ k
    rw [hb, Option.getD_some] at hbody
    rw [hw, Option.getD_some] at hwit
    rw [hn] at hget
    subst hbody hwit
    cases hget
    rw [intOf, Except.ok.injEq] at hint
    rw [rebuilt_lookup]
    split_ifs with e₁ e₂ e₃ e₄
    · rw [e₁, show tx.lookup (str "version") = some (.int n) from hn, hint]
    · rw [e₂, show tx.lookup (str "type") = some (.str s) from hs]
    · rw [e₃, show tx.lookup (str "body") = some b from hb, Option.map_some, Option.map_some,
        (parsed_norm_iff (hdistinct hb)).mpr hbdecoded]
    · rw [e₄, show tx.lookup (str "witnesses") = some w from hw, Option.map_some, Option.map_some,
        (parsed_norm_iff (hdistinct hw)).mpr hwdecoded]
    · cases hk : tx.lookup k with
      | none => rfl
      | some y =>
        have hmem := (keysWithin_iff hnodup).mp hkeys k y hk
        simp only [List.map_cons, List.map_nil, List.mem_cons, List.not_mem_nil, or_false] at hmem
        rcases hmem with e | e | e | e
        · exact absurd e e₁
        · exact absurd e e₂
        · exact absurd e e₃
        · exact absurd e e₄

/-- A canonical envelope is encoded. -/
theorem encoded_of_envelope (hschema : schemaOk (.dict tx) = true) (hfinite : (Json.dict tx).finite = true)
    (h : CanonicalEnvelope M tx) : ∃ version txType body witnesses, Encoded M tx version txType body witnesses := by
  obtain ⟨-, ⟨n, hn, hmax⟩, ⟨b, hb, -, hbsize⟩, ⟨w, hw, -, hwsize⟩⟩ := h
  obtain ⟨s, hs, hknown⟩ := schemaOk_type hschema
  obtain ⟨hsurr, hlen⟩ := knownType_short hknown
  rw [Json.finite, finiteFields_iff] at hfinite
  have htext : ∀ {k : String} {x : Json}, tx.get k = some x → ∃ t, canonicalJson M.toPrimitives x = .ok t := fun hx => by
    obtain ⟨front, back, hsplit, -⟩ := List.lookup_eq_some_iff.mp hx
    exact (dumps_ok_iff _ _).mpr (hfinite _ (hsplit ▸ List.mem_append_right _ (.head _)))
  obtain ⟨bodyText, hbodyText⟩ := htext hb
  obtain ⟨witText, hwitText⟩ := htext hw
  exact ⟨n, s, b, w, ⟨by rw [hs, Option.getD_some], hsurr, hlen⟩,
    ⟨by rw [hb, Option.getD_some], bodyText, hbodyText, hbsize _ hbodyText⟩,
    ⟨by rw [hw, Option.getD_some], witText, hwitText, hwsize _ hwitText⟩, ⟨_, hn, rfl⟩, hmax⟩

end

/-! ## Blocks -/

section
variable {M : Codec} {b : BlockV2}

theorem header_reads {h : BlockHeaderV2} {hb : Bytes} (hh : h.bytes = .ok hb) (hprev : canonicalHash h.prevHash = h.prevHash)
    (hmerkle : canonicalHash h.merkleRoot = h.merkleRoot) (hroot : canonicalHash h.registryRoot = h.registryRoot)
    (rest : Bytes) : ∃ d, decodeHeaderV2 (hb ++ rest) = .ok d ∧ BlockHeaderV2.fromDict d = .ok h := by
  obtain ⟨d, hd, henc⟩ := bind_eq_ok.mp hh
  obtain ⟨target, htarget, hdict⟩ := bind_eq_ok.mp hd
  cases hdict
  obtain ⟨hcanon, hback⟩ := targetToHex_back htarget
  refine ⟨_, decodeHeaderV2_append henc rest, ?_⟩
  simp only [HeaderDictV2.canonical, BlockHeaderV2.fromDict, hcanon, hback, hprev, hmerkle, hroot, ok_bind]

/-- The bytes of a header of version two are told from those of version one. -/
theorem header_lead {h : BlockHeaderV2} {hb : Bytes} (hh : h.bytes = .ok hb) (hversion : h.version = PROTOCOL_VERSION)
    (rest : Bytes) : hb.length = 149 ∧ (hb ++ rest).getD 0 0 = TYPE_HEADER ∧ fromLE (slice (hb ++ rest) 1 4) = 2 := by
  obtain ⟨d, hd, henc⟩ := bind_eq_ok.mp hh
  obtain ⟨target, -, hdict⟩ := bind_eq_ok.mp hd
  cases hdict
  have hlen := encodeHeaderV2_length henc
  simp only [encodeHeaderV2, asCodecError_eq_ok, bind_eq_ok, structPack_eq_ok] at henc
  obtain ⟨v, ⟨-, -, rfl⟩, _, -, _, -, _, -, _, -, _, -, _, -, henc⟩ := henc
  cases henc
  refine ⟨hlen, rfl, ?_⟩
  rw [slice, List.cons_append, List.drop_succ_cons, List.drop_zero, List.append_assoc,
    List.take_left' (leBytes_length 4 _), hversion]
  rfl

/-- The transaction was encoded, and `w` is what is decoded. -/
def Returns (M : Codec) (tx w : Json) : Prop :=
  ∃ d version txType body witnesses, tx = .dict d ∧ Encoded M d version txType body witnesses ∧
    w = .dict (rebuilt version txType body witnesses)

theorem transactions_read (hM : FloatsRead M.toRuntime) : ∀ {ts : List Json} {bs : List Bytes},
    collect (encodeTransaction M) ts = .ok bs →
    ∃ ws, List.Forall₂ (Returns M) ts ws ∧ List.Forall₂ (Reads (decodeTransaction M)) bs ws
  | [], bs, h => by
    cases h
    exact ⟨[], .nil, .nil⟩
  | t :: ts, bs, h => by
    simp only [collect, bind_eq_ok] at h
    obtain ⟨x, hx, xs, hxs, h⟩ := h
    cases h
    obtain ⟨ws, hws, hreads⟩ := transactions_read hM hxs
    cases t with
    | dict d =>
      obtain ⟨version, txType, body, witnesses, henc, hread⟩ := transaction_reads hM hx
      exact ⟨_, .cons ⟨d, version, txType, body, witnesses, rfl, henc, rfl⟩ hws, .cons hread hreads⟩
    | _ => cases hx

theorem blockDecode_encoded (hM : FloatsRead M.toRuntime) {data : Bytes} (hversion : b.header.version = PROTOCOL_VERSION)
    (hprev : canonicalHash b.header.prevHash = b.header.prevHash)
    (hmerkle : canonicalHash b.header.merkleRoot = b.header.merkleRoot)
    (hroot : canonicalHash b.header.registryRoot = b.header.registryRoot) (h : blockEncode M (.v2 b) = .ok data) :
    ∃ ws, List.Forall₂ (Returns M) b.transactions ws ∧ blockDecode M data = .ok (.v2 ⟨b.header, ws⟩, data.length) := by
  simp only [blockEncode, bind_eq_ok, AnyBlock.transactions] at h
  obtain ⟨hb, hhb, cb, hcb, bs, hbs, h⟩ := h
  cases h
  obtain ⟨ws, hws, hreads⟩ := transactions_read hM hbs
  obtain ⟨d, hd, hheader⟩ := header_reads hhb hprev hmerkle hroot (cb ++ bs.flatten)
  obtain ⟨hlen, hlead, htwo⟩ := header_lead hhb hversion (cb ++ bs.flatten)
  refine ⟨ws, hws, ?_⟩
  have hcount := (varint_reads hcb).run hlen (rfl : hb ++ (cb ++ bs.flatten) = _)
  have htimes := (times_reads hreads).run (show (hb ++ cb).length = 149 + cb.length by rw [List.length_append, hlen])
    (show hb ++ (cb ++ bs.flatten) = (hb ++ cb) ++ (bs.flatten ++ []) by simp)
  rw [← hws.length_eq] at htimes
  rw [blockDecode, if_pos ⟨by rw [List.length_append]; omega, hlead, htwo⟩, hd, ok_bind, decodeTransactions, hcount, ok_bind]
  dsimp only
  rw [htimes, ok_bind]
  dsimp only
  rw [hheader, ok_bind, List.length_append, List.length_append, hlen]
  simp only [Except.ok.injEq, Prod.mk.injEq, true_and]
  omega

/-- An accepted block has lowercase hashes in its header, and transactions of the schema without odd floats. -/
structure BlockV2.Regular (E : Primitives) (b : BlockV2) : Prop where
  version : b.header.version = PROTOCOL_VERSION
  prevHash : canonicalHash b.header.prevHash = b.header.prevHash
  merkleRoot : canonicalHash b.header.merkleRoot = b.header.merkleRoot
  registryRoot : canonicalHash b.header.registryRoot = b.header.registryRoot
  bytes : ∃ hb, b.header.bytes = .ok hb
  merkle : merkleRootOf E b.transactions = .ok b.header.merkleRoot
  schema : ∀ tx ∈ b.transactions, schemaOk tx = true
  finite : ∀ tx ∈ b.transactions, tx.finite = true

theorem merkleRootOf_digits {E : Primitives} {ts : List Json} {root : Str} (h : merkleRootOf E ts = .ok root) :
    canonicalHash root = root ∧ ∀ tx ∈ ts, tx.finite = true := by
  unfold merkleRootOf at h
  split at h
  · rename_i hempty
    cases h
    rw [List.isEmpty_iff] at hempty
    exact ⟨by rw [zeroHash_eq, canonicalHash_toHex], by rw [hempty]; nofun⟩
  · obtain ⟨hashes, hhashes, h⟩ := bind_eq_ok.mp h
    refine ⟨?_, fun tx htx => ?_⟩
    · split at h
      · cases h
        exact canonicalHash_toHex _
      · cases h
        rw [zeroHash_eq, canonicalHash_toHex]
    · exact (hashObject_ok_iff E tx).mp (collect_mem hhashes tx htx)

theorem follows_regular {E : Primitives} {l : Ledger} {c : List AnyBlock} {s s' : RegistryState} (h : l.Follows E c b s s') :
    b.Regular E := by
  obtain ⟨last, -, hlast⟩ := h.linked
  obtain ⟨data, -, hroot⟩ := bind_eq_ok.mp h.root
  obtain ⟨hash, hhash, -⟩ := h.intact.work
  obtain ⟨hb, hhb, -⟩ := bind_eq_ok.mp hhash
  obtain ⟨hmerkle, hfinite⟩ := merkleRootOf_digits h.intact.merkle
  refine ⟨h.intact.version, ?_, hmerkle, ?_, ⟨hb, hhb⟩, h.intact.merkle, transactionsOk_schema h.intact.transactions, hfinite⟩
  · obtain ⟨digest, hdigest⟩ : ∃ digest, b.header.prevHash = toHex digest := by
      cases last with
      | v1 b' =>
        obtain ⟨d, -, hd⟩ := bind_eq_ok.mp hlast
        exact ⟨_, (Except.ok.inj hd).symm⟩
      | v2 b' =>
        obtain ⟨d, -, hd⟩ := bind_eq_ok.mp hlast
        exact ⟨_, (Except.ok.inj hd).symm⟩
    rw [hdigest, canonicalHash_toHex]
  · rw [← Except.ok.inj hroot, hashSingleHex, canonicalHash_toHex]

theorem accepted_regular {E : Primitives} {l l' : Ledger} {b : BlockV2} {now : Int} (h : l.addBlockV2 E b now = .ok (true, l')) :
    b.Regular E := by
  obtain ⟨-, s, s', hfollows, -⟩ := (addBlockV2_true_iff (chain_ne_of_added h)).mp h
  exact follows_regular hfollows

/-- The bytes of a block come back as a block with its header and its transactions,
these up to the order of their keys, and so with its hash and its Merkle root. -/
def RoundTrips (M : Codec) (b : BlockV2) : Prop :=
  ∃ data b', blockEncode M (.v2 b) = .ok data ∧ blockDecode M data = .ok (.v2 b', data.length) ∧
    b'.header = b.header ∧ b'.transactions.map Json.norm = b.transactions.map Json.norm ∧
    b'.hash M.toPrimitives = b.hash M.toPrimitives ∧
    merkleRootOf M.toPrimitives b'.transactions = .ok b'.header.merkleRoot

theorem merkleRootOf_norm {E : Primitives} {ts ts' : List Json} {root : Str} (h : ts'.map Json.norm = ts.map Json.norm)
    (hroot : merkleRootOf E ts = .ok root) : merkleRootOf E ts' = .ok root := by
  have hhash : ∀ {ts ts' : List Json} {hs : List Bytes}, ts'.map Json.norm = ts.map Json.norm →
      collect (hashObject E) ts = .ok hs → collect (hashObject E) ts' = .ok hs := by
    intro ts
    induction ts with
    | nil =>
      intro ts' hs h hhs
      rw [List.map_nil, List.map_eq_nil_iff] at h
      rw [h]
      exact hhs
    | cons t ts ih =>
      intro ts' hs h hhs
      obtain ⟨t', rest, rfl, ht, hrest⟩ := List.map_eq_cons_iff.mp h
      simp only [collect, bind_eq_ok, hashObject_eq_ok] at hhs ⊢
      obtain ⟨d, ⟨m, hm, hd⟩, ds, hds, hhs⟩ := hhs
      exact ⟨d, ⟨m, canonicalJson_norm ht.symm hm, hd⟩, ds, ih hrest hds, hhs⟩
  have hempty : ts'.isEmpty = ts.isEmpty := by
    have hlen := congrArg List.length h
    rw [List.length_map, List.length_map] at hlen
    rw [Bool.eq_iff_iff, List.isEmpty_iff_length_eq_zero, List.isEmpty_iff_length_eq_zero, hlen]
  unfold merkleRootOf at hroot ⊢
  rw [hempty]
  split at hroot
  · rename_i he
    rw [if_pos he]
    exact hroot
  · rename_i he
    obtain ⟨hs, hhs, hroot⟩ := bind_eq_ok.mp hroot
    rw [if_neg he, hhash h hhs]
    exact hroot

/-- What comes back is what was encoded, if every transaction is a canonical envelope. -/
theorem returns_norm : ∀ {ts ws : List Json}, List.Forall₂ (Returns M) ts ws → (∀ tx ∈ ts, schemaOk tx = true) →
    (∀ tx ∈ ts, tx.distinct = true) → (ws.map Json.norm = ts.map Json.norm ↔ ∀ tx ∈ ts, IsEnvelope M tx)
  | [], [], .nil, _, _ => iff_of_true rfl nofun
  | t :: ts, w :: ws, .cons hw hws, hschema, hdistinct => by
    rw [List.forall_mem_cons] at hschema hdistinct ⊢
    obtain ⟨d, version, txType, body, witnesses, rfl, henc, rfl⟩ := hw
    obtain ⟨s, hs, -⟩ := schemaOk_type hschema.1
    have hfirst := rebuilt_norm_iff hs hdistinct.1 henc
    have hrest := returns_norm hws hschema.2 hdistinct.2
    have henvelope : IsEnvelope M (.dict d) ↔ CanonicalEnvelope M d :=
      ⟨fun ⟨e, he, h⟩ => Json.dict.inj he ▸ h, fun h => ⟨d, rfl, h⟩⟩
    rw [List.map_cons, List.map_cons, List.cons.injEq, hfirst, hrest, henvelope]

theorem blockEncode_ok (hreg : b.Regular M.toPrimitives) (hcount : b.transactions.length ≤ BinaryCodec.MAX_VARINT)
    (h : ∀ tx ∈ b.transactions, IsEnvelope M tx) : ∃ data, blockEncode M (.v2 b) = .ok data := by
  obtain ⟨hb, hhb⟩ := hreg.bytes
  obtain ⟨cb, hcb⟩ := encodeVarint_ok hcount
  obtain ⟨bs, hbs⟩ : ∃ bs, collect (encodeTransaction M) b.transactions = .ok bs := by
    refine collect_of_forall fun tx htx => ?_
    obtain ⟨d, rfl, hd⟩ := h tx htx
    obtain ⟨version, txType, body, witnesses, henc⟩ :=
      encoded_of_envelope (hreg.schema _ htx) (hreg.finite _ htx) hd
    obtain ⟨x, hx⟩ := encodeFields_of henc
    exact ⟨x, by rw [encodeTransaction, hx]⟩
  refine ⟨hb ++ (cb ++ bs.flatten), ?_⟩
  simp only [blockEncode, AnyBlock.transactions, hhb, hcb, hbs, ok_bind]

end

/-! ## An accepted block that has no bytes -/

theorem encodeFields_unversioned {M : Codec} {tx : Fields} (h : tx.get "version" = none) (data : Bytes) :
    BinaryCodec.encodeFields M tx ≠ .ok data := by
  intro hdata
  simp only [BinaryCodec.encodeFields, bind_eq_ok, Fields.item, h] at hdata
  obtain ⟨_, -, _, -, _, -, _, -, _, -, _, -, _, -, _, ⟨_, ⟨_, hitem, -⟩, -⟩, -⟩ := hdata
  cases hitem

theorem blockEncode_unversioned {M : Codec} {b : BlockV2} {d : Fields} (hd : .dict d ∈ b.transactions)
    (h : d.get "version" = none) : ¬ RoundTrips M b := by
  rintro ⟨data, -, hdata, -⟩
  obtain ⟨_, -, _, -, bs, hbs, -⟩ := by simpa only [blockEncode, bind_eq_ok, AnyBlock.transactions] using hdata
  obtain ⟨x, hx⟩ := collect_mem hbs _ hd
  exact encodeFields_unversioned h x hx

/-- A float written as the number of its bits. -/
def bitsCodec (E : Primitives) : Codec where
  toPrimitives := { E with floatRepr := fun x => natRepr x.toNat ++ [46, 48] }
  floatOf := fun t => UInt64.ofNat (digitsNat (t.takeWhile isDigit))
  intOfStr := fun s => if s ≠ [] ∧ s.all isDigit then some (digitsNat s) else none

theorem asciiText_bits (E : Primitives) (x : UInt64) :
    asciiText ((bitsCodec E).floatRepr x) = natText x.toNat ++ [46, 48] := by
  have htext := asciiText_natRepr x.toNat
  unfold asciiText at htext ⊢
  rw [← htext]
  exact List.map_append

theorem bitsCodec_read (E : Primitives) : FloatsRead (bitsCodec E).toRuntime := by
  have hlead : ∀ n, natText n = [48] ∨ ∃ d ds, natText n = d :: ds ∧ d.val ≠ 48 ∧ AllDigits (natText n) := fun n =>
    (natText_lead n).imp id fun ⟨d, ds, h, hd⟩ => ⟨d, ds, h, hd, fun c hc => natText_digit hc⟩
  have hzero : AllDigits [48] := by simp [AllDigits, isDigit]
  constructor
  · intro x _
    exact ⟨[], natText x.toNat, [46, 48], [], asciiText_bits E x, .inl rfl, hlead _, .inr ⟨[48], by simp, hzero, rfl⟩, .inl rfl⟩
  · intro x _
    have hstop : PrefixCode.Stops isDigit ([46, 48] : Str) := by
      intro c hc
      cases hc
      rfl
    have hint := readInteger_integer hstop (.inl rfl) (hlead x.toNat)
    rw [List.nil_append, List.nil_append] at hint
    have hdigits : (natText x.toNat ++ [46, 48]).takeWhile isDigit = natText x.toNat :=
      (digits_split (fun c hc => natText_digit hc) hstop).1
    have hfloat : (bitsCodec E).floatOf (natText x.toNat ++ [46, 48] ++ []) = x := by
      change UInt64.ofNat (digitsNat (List.takeWhile isDigit _)) = x
      rw [List.append_nil, hdigits, natText_value, UInt64.ofNat_toNat]
    rw [asciiText_bits, readNumber, hint]
    change some (Json.float ((bitsCodec E).floatOf (natText x.toNat ++ [46, 48] ++ [])), []) = _
    rw [hfloat]

/-- A message of a lone surrogate, on the alpha network. -/
def surrogateTx : Json := .dict
  [(str "type", .str (str "genesis")),
    (str "body", .dict
      [(str "network_id", .str []), (str "message", .str [0xD800]), (str "timestamp", .int 0)])]

def messageBlock : BlockV2 where
  header := { genesisHeader GENESIS_REGISTRY_ROOT 1704067800 with
    prevHash := GENESIS_HASH
    merkleRoot := str "db746e0935a93ef097b515fe33ca3f69ee3baea9561eead28f77775dcbeb4e8a"
    nonce := 75723 }
  transactions := [surrogateTx]

def alphaCodec : Codec := bitsCodec (recorded [])

set_option maxRecDepth 100000 in
theorem messageBlock_accepted : ∃ l₀, Ledger.init alphaCodec.toPrimitives {} = .ok l₀ ∧
    okAnd (fun answer => answer.1 && messageBlock.transactions.all Json.distinct)
      (l₀.addBlockV2 alphaCodec.toPrimitives messageBlock 1704067800) = true :=
  of_okAnd (by decide +kernel)

theorem messageBlock_added : ∃ l l', Ledger.init alphaCodec.toPrimitives {} = .ok l ∧
    l.addBlockV2 alphaCodec.toPrimitives messageBlock 1704067800 = .ok (true, l') ∧
    ∀ tx ∈ messageBlock.transactions, tx.distinct = true := by
  obtain ⟨l, hl, hadd⟩ := messageBlock_accepted
  obtain ⟨⟨added, l'⟩, hl', hadded⟩ := of_okAnd hadd
  rw [Bool.and_eq_true] at hadded
  obtain ⟨rfl, hdistinct⟩ := hadded
  exact ⟨l, l', hl, hl', List.all_eq_true.mp hdistinct⟩

/-! ## Accepted blocks on the wire -/

/-- A block that was appended survives the wire exactly if all its transactions are canonical envelopes. -/
theorem block_round_trip_iff (M : Codec) (hM : FloatsRead M.toRuntime) {l l' : Ledger} {b : BlockV2} {now : Int}
    (hdistinct : ∀ tx ∈ b.transactions, tx.distinct = true)
    (h : l.addBlockV2 M.toPrimitives b now = .ok (true, l')) :
    RoundTrips M b ↔
      b.transactions.length ≤ BinaryCodec.MAX_VARINT ∧ ∀ tx ∈ b.transactions, IsEnvelope M tx := by
  have hreg := accepted_regular h
  constructor
  · rintro ⟨data, b', hdata, hdecode, -, hnorm, -⟩
    obtain ⟨ws, hws, hread⟩ := blockDecode_encoded hM hreg.version hreg.prevHash hreg.merkleRoot hreg.registryRoot hdata
    rw [hread] at hdecode
    cases hdecode
    obtain ⟨_, -, cb, hcb, -⟩ := by simpa only [blockEncode, bind_eq_ok, AnyBlock.transactions] using hdata
    exact ⟨Int.ofNat_le.mp (encodeVarint_range hcb).2, (returns_norm hws hreg.schema hdistinct).mp hnorm⟩
  · rintro ⟨hcount, henvelopes⟩
    obtain ⟨data, hdata⟩ := blockEncode_ok hreg hcount henvelopes
    obtain ⟨ws, hws, hread⟩ := blockDecode_encoded hM hreg.version hreg.prevHash hreg.merkleRoot hreg.registryRoot hdata
    have hnorm := (returns_norm hws hreg.schema hdistinct).mpr henvelopes
    exact ⟨data, ⟨b.header, ws⟩, hdata, hread, rfl, hnorm, rfl, merkleRootOf_norm hnorm hreg.merkle⟩

/-- A child of the genesis block of the alpha network with a message. -/
theorem block_round_trip_message : ∃ l l', Ledger.init alphaCodec.toPrimitives {} = .ok l ∧
    l.addBlockV2 alphaCodec.toPrimitives messageBlock 1704067800 = .ok (true, l') ∧
    (RoundTrips alphaCodec messageBlock ↔ messageBlock.transactions.length ≤ BinaryCodec.MAX_VARINT ∧
      ∀ tx ∈ messageBlock.transactions, IsEnvelope alphaCodec tx) := by
  obtain ⟨l, l', hl, hl', hdistinct⟩ := messageBlock_added
  exact ⟨l, l', hl, hl', block_round_trip_iff _ (bitsCodec_read _) hdistinct hl'⟩

/-- A `{type, body}` transaction is appended, and cannot be encoded. -/
theorem block_lost : ¬ ∀ (M : Codec) (args : LedgerArgs) (l l' : Ledger) (b : BlockV2) (now : Int), FloatsRead M.toRuntime →
    (∀ tx ∈ b.transactions, tx.distinct = true) → Ledger.init M.toPrimitives args = .ok l →
      l.addBlockV2 M.toPrimitives b now = .ok (true, l') → RoundTrips M b := by
  intro h
  obtain ⟨l, l', hl, hl', hdistinct⟩ := messageBlock_added
  exact blockEncode_unversioned (.head _) rfl (h _ _ l l' messageBlock _ (bitsCodec_read _) hdistinct hl hl')

end ChainBreaker
