import ChainBreaker.BlockWire

/-!
# The bytes of a transaction

Lengths have one spelling each (`varint_canonical`). The payloads of a transaction
are JSON that the decoder reads in any spelling and of any size, so the
bytes it consumes are those of the encoder only if they are canonical JSON within
the limits (`transaction_canonical_iff`).
-/

namespace ChainBreaker

open Fallible OffsetReader

namespace BinaryCodec

/-- Errors that are not `CodecError`. -/
def Unexpected (e : PyErr) : Prop := e.kind ≠ .codecError

/-! ## Any offset -/

/-- A reader that `_need` keeps from negative offsets. -/
def atOffset {α : Type} (f : Bytes → Nat → Except PyErr (α × Nat)) (data : Bytes) (offset : Int) :
    Except PyErr (α × Nat) :=
  if offset < 0 then .error ⟨.codecError, "need % bytes at offset %, have %", [.int 1, .int offset, .int data.length]⟩
  else f data offset.toNat

/-- `decode_varint(data, offset)`. -/
def decodeVarintAt : Bytes → Int → Except PyErr (Nat × Nat) := atOffset decodeVarint

/-- `decode_transaction(data, offset)`. -/
def decodeTransactionAt (M : Codec) : Bytes → Int → Except PyErr (Json × Nat) := atOffset (decodeTransaction M)

/-- A reader whose errors are all expected. -/
theorem never_wrong {α : Type} {f : Bytes → Nat → Except PyErr (α × Nat)}
    (h : ∀ data o, FailsOnly (fun e : PyErr => e.kind = .codecError) (f data o)) {data : Bytes} {o : Nat} :
    (∃ e, f data o = .error e ∧ Unexpected e) ↔ o ≤ data.length ∧ False :=
  ⟨fun ⟨e, he, hbad⟩ => absurd (h _ _ e he) hbad, fun h => h.2.elim⟩

/-! ## Varints -/

theorem need_ok {data : Bytes} {offset n : Nat} {u : Unit} (h : need data offset n = .ok u) : offset + n ≤ data.length := by
  rwa [need, require_eq_ok] at h

theorem drop_first {data : Bytes} {offset : Nat} (h : offset + 1 ≤ data.length) :
    data.drop offset = data.getD offset 0 :: data.drop (offset + 1) := by
  rw [List.getD_eq_getElem?_getD, List.getElem?_eq_getElem h, Option.getD_some]
  exact List.drop_eq_getElem_cons h

/-- The decoder of numbers of a width, against the encoder. -/
theorem wideVarint_ok {width : Nat} {data : Bytes} {offset n next : Nat} {lead : UInt8}
    (hlead : data.getD offset 0 = lead) (h : wideVarint width data offset = .ok (n, next)) :
    canonicalLength n = width + 1 ∧ n < 256 ^ width ∧ next = offset + (width + 1) ∧ next ≤ data.length ∧
      data.drop offset = (lead :: leBytes width n) ++ data.drop next := by
  simp only [wideVarint, bind_eq_ok, require_eq_ok] at h
  obtain ⟨_, hneed, _, hcanon, h⟩ := h
  cases h
  have hle := need_ok hneed
  have hlen : (slice data (offset + 1) width).length = width := slice_length hle
  have hback := leBytes_fromLE (slice data (offset + 1) width)
  have hlt := fromLE_lt (slice data (offset + 1) width)
  rw [hlen] at hback hlt
  refine ⟨hcanon, hlt, rfl, by omega, ?_⟩
  rw [hback, drop_first (by omega), hlead, List.cons_append, ← Nat.add_assoc, Nat.add_right_comm, slice_drop]

theorem fails_need (data : Bytes) (offset n : Nat) : FailsOnly (fun e : PyErr => e.kind = .codecError) (need data offset n) :=
  failsOnly_require rfl

theorem fails_wideVarint (width : Nat) (data : Bytes) (offset : Nat) :
    FailsOnly (fun e : PyErr => e.kind = .codecError) (wideVarint width data offset) :=
  (fails_need _ _ _).bind fun _ _ => FailsOnly.bind (failsOnly_require rfl) fun _ _ => failsOnly_of_ok ⟨_, rfl⟩

/-- The range of a width. -/
theorem canonicalLength_range {n : Nat} : (canonicalLength n = 3 → 0xFD ≤ n ∧ n ≤ 0xFFFF) ∧
    (canonicalLength n = 5 → 0xFFFF < n ∧ n ≤ 0xFFFFFFFF) ∧ (canonicalLength n = 9 → 0xFFFFFFFF < n) := by
  unfold canonicalLength
  split_ifs <;> omega

theorem fails_varint (data : Bytes) (offset : Nat) :
    FailsOnly (fun e : PyErr => e.kind = .codecError) (decodeVarint data offset) := by
  refine (fails_need _ _ _).bind fun _ _ => ?_
  dsimp only
  split_ifs
  · exact failsOnly_of_ok ⟨_, rfl⟩
  · exact fails_wideVarint _ _ _
  · exact fails_wideVarint _ _ _
  · exact fails_wideVarint _ _ _

/-- **A number is read from its own encoding.** -/
theorem decodeVarint_ok {data : Bytes} {offset n next : Nat} (h : decodeVarint data offset = .ok (n, next)) :
    ∃ b, encodeVarint n = .ok b ∧ next = offset + b.length ∧ next ≤ data.length ∧ data.drop offset = b ++ data.drop next := by
  simp only [decodeVarint, bind_eq_ok] at h
  obtain ⟨_, hneed, h⟩ := h
  have hle := need_ok hneed
  have hmax : MAX_VARINT = 0xFFFFFFFFFFFFFFFF := rfl
  generalize hlead : data.getD offset 0 = lead at h
  have hwide : ∀ {width : Nat}, wideVarint width data offset = .ok (n, next) → encodeVarint n = .ok (lead :: leBytes width n) →
      ∃ b, encodeVarint n = .ok b ∧ next = offset + b.length ∧ next ≤ data.length ∧ data.drop offset = b ++ data.drop next := by
    intro width h henc
    obtain ⟨-, -, hnext, hbound, hdrop⟩ := wideVarint_ok hlead h
    refine ⟨_, henc, ?_, hbound, hdrop⟩
    rw [List.length_cons, leBytes_length, hnext]
  split_ifs at h with h₁ h₂ h₃
  · cases h
    have hsmall : lead.toNat < 253 := UInt8.lt_iff_toNat_lt.mp h₁
    refine ⟨[lead], ?_, rfl, hle, ?_⟩
    · rw [encodeVarint, if_neg (by omega), if_pos (by omega), structPack_nat]
      refine ⟨by omega, ?_⟩
      rw [leBytes, leBytes, Nat.mod_eq_of_lt (by omega), UInt8.ofNat_toNat]
    · rw [drop_first hle, hlead, List.singleton_append]
  all_goals
    obtain ⟨hcanon, hlt, -⟩ := wideVarint_ok hlead h
    apply hwide h
  · obtain ⟨hlo, hhi⟩ := canonicalLength_range.1 hcanon
    rw [encodeVarint, if_neg (by omega), if_neg (by omega), if_pos (by omega), structPack_nat.mpr ⟨hlt, rfl⟩, h₂]
    rfl
  · obtain ⟨hlo, hhi⟩ := canonicalLength_range.2.1 hcanon
    rw [encodeVarint, if_neg (by omega), if_neg (by omega), if_neg (by omega), if_pos (by omega),
      structPack_nat.mpr ⟨hlt, rfl⟩, h₃]
    rfl
  · have hlo := canonicalLength_range.2.2 hcanon
    have hlast : lead = 0xFF := by
      apply UInt8.toNat_inj.mp
      have hrange := lead.toNat_lt
      have h₁' : ¬ lead.toNat < 253 := fun h => h₁ (UInt8.lt_iff_toNat_lt.mpr h)
      have h₂' : lead.toNat ≠ 253 := fun h => h₂ (UInt8.toNat_inj.mp h)
      have h₃' : lead.toNat ≠ 254 := fun h => h₃ (UInt8.toNat_inj.mp h)
      change lead.toNat = 255
      omega
    rw [encodeVarint, if_neg (by omega), if_neg (by omega), if_neg (by omega), if_neg (by omega), if_pos (by omega),
      structPack_nat.mpr ⟨hlt, rfl⟩, hlast]
    rfl

/-- Numbers are read in their encodings, and nothing else is. -/
theorem varint_parses : Parses Unexpected decodeVarint (fun x n => encodeVarint n = .ok x) (fun _ => False) where
  reads h := varint_reads h
  ahead h := by
    obtain ⟨b, -, hnext, -⟩ := decodeVarint_ok h
    omega
  text h _ := by
    obtain ⟨b, hb, -, -, hd⟩ := decodeVarint_ok h
    exact ⟨b, hb, hd⟩
  wrong := never_wrong fails_varint

/-- **Varints are canonical**: the decoder reads what the encoder writes, wherever
it stands, and takes no other form. -/
theorem varint_canonical :
    (∀ n < 2 ^ 64, ∀ front back : Bytes, ∃ b, encodeVarint (n : Nat) = .ok b ∧
      decodeVarintAt (front ++ (b ++ back)) front.length = .ok (n, front.length + b.length)) ∧
    ∀ (data : Bytes) (offset : Int), (∃ e, decodeVarintAt data offset = .error e ∧ e.kind = .codecError) ∨
      ∃ n next b, decodeVarintAt data offset = .ok (n, next) ∧ encodeVarint (n : Nat) = .ok b ∧
        (next : Int) = offset + b.length ∧ next ≤ data.length ∧ slice data offset.toNat b.length = b := by
  constructor
  · intro n hn front back
    obtain ⟨b, hb⟩ := encodeVarint_ok (Nat.le_of_lt_succ hn)
    refine ⟨b, hb, ?_⟩
    rw [decodeVarintAt, atOffset, if_neg (by omega), Int.toNat_natCast]
    exact varint_reads hb front back
  · intro data offset
    rw [decodeVarintAt, atOffset]
    split_ifs with hneg
    · exact .inl ⟨_, rfl, rfl⟩
    · cases h : decodeVarint data offset.toNat with
      | error e => exact .inl ⟨e, rfl, fails_varint _ _ e h⟩
      | ok answer =>
        obtain ⟨n, next⟩ := answer
        obtain ⟨b, hb, hnext, hbound, hdrop⟩ := decodeVarint_ok h
        refine .inr ⟨n, next, b, rfl, hb, by omega, hbound, ?_⟩
        rw [slice, hdrop, List.take_left]

/-! ## The parts of a transaction -/

theorem fails_bytes (data : Bytes) (offset : Nat) : FailsOnly (fun e : PyErr => e.kind = .codecError) (decodeBytes data offset) :=
  (fails_varint _ _).bind fun _ _ => (fails_need _ _ _).bind fun _ _ => failsOnly_of_ok ⟨_, rfl⟩

theorem fails_string (data : Bytes) (offset : Nat) :
    FailsOnly (fun e : PyErr => e.kind = .codecError) (decodeString data offset) := by
  refine (fails_bytes _ _).bind fun p _ => ?_
  dsimp only
  split
  · exact failsOnly_of_ok ⟨_, rfl⟩
  · exact failsOnly_error rfl

theorem bytes_parses : Parses Unexpected decodeBytes (fun x d => encodeBytes d = .ok x) (fun _ => False) where
  reads h := bytes_reads h
  ahead := by
    intro data o d o' h
    obtain ⟨⟨n, o₁⟩, h₁, h⟩ := bind_eq_ok.mp h
    obtain ⟨_, -, h⟩ := bind_eq_ok.mp h
    cases h
    exact Nat.le_trans (varint_parses.ahead h₁) (Nat.le_add_right _ _)
  text := by
    intro data o d o' h _
    obtain ⟨⟨n, o₁⟩, h₁, h⟩ := bind_eq_ok.mp h
    obtain ⟨_, hneed, h⟩ := bind_eq_ok.mp h
    cases h
    obtain ⟨b, hb, -, -, hd⟩ := decodeVarint_ok h₁
    refine ⟨b ++ slice data o₁ n, ?_, ?_⟩
    · rw [encodeBytes, slice_length (need_ok hneed), hb, ok_bind]
    · rw [hd, List.append_assoc, slice_drop]
  wrong := never_wrong fails_bytes

theorem string_parses : Parses Unexpected decodeString
    (fun x s => s.any isSurrogate = false ∧ encodeBytes (utf8 s) = .ok x) (fun _ => False) := by
  have hbytes : ∀ {data o s o'}, decodeString data o = .ok (s, o') →
      s.any isSurrogate = false ∧ decodeBytes data o = .ok (utf8 s, o') := by
    intro data o s o' h
    obtain ⟨⟨d, o₁⟩, h₁, h⟩ := bind_eq_ok.mp h
    dsimp only at h
    split at h
    · rename_i t ht
      cases h
      obtain ⟨hs, rfl⟩ := decodeUtf8_eq_ok.mp ht
      exact ⟨hs, h₁⟩
    · cases h
  refine ⟨fun h => string_reads h.1 h.2, fun h => bytes_parses.ahead (hbytes h).2, fun h ho => ?_, never_wrong fails_string⟩
  obtain ⟨hs, h⟩ := hbytes h
  obtain ⟨x, hx, hd⟩ := bytes_parses.text h ho
  exact ⟨x, ⟨hs, hx⟩, hd⟩

/-- What the bytes of a transaction hold, its payloads not yet read. -/
structure Frame where
  version : Nat
  txType : Str
  body : Bytes
  witnesses : Bytes

/-- The bytes `x` are the frame `f`, whatever its payloads are. -/
def Frame.Text (f : Frame) (x : Bytes) : Prop :=
  ∃ v t b w, x = TYPE_TX :: (v ++ (t ++ (b ++ w))) ∧ encodeVarint f.version = .ok v ∧ f.txType.any isSurrogate = false ∧
    encodeBytes (utf8 f.txType) = .ok t ∧ encodeBytes f.body = .ok b ∧ encodeBytes f.witnesses = .ok w

/-- The transaction of a frame whose payloads have been read. -/
def Frame.transaction (f : Frame) (body witnesses : Json) : Json :=
  .dict [(str "version", .int f.version), (str "type", .str f.txType), (str "body", body), (str "witnesses", witnesses)]

/-- The type marker. -/
def marker (data : Bytes) (offset : Nat) : Except PyErr (Unit × Nat) := do
  need data offset 1
  require (data.getD offset 0 = TYPE_TX) (codecError "expected tx type 0x01")
  .ok ((), offset + 1)

theorem marker_parses : Parses Unexpected marker (fun x _ => x = [TYPE_TX]) (fun _ => False) where
  reads := by
    rintro x _ rfl pre post
    have hlead : (pre ++ ([TYPE_TX] ++ post)).getD pre.length 0 = TYPE_TX := by simp
    rw [marker, need_head, ok_bind, hlead, require_of _ rfl]
    rfl
  ahead := by
    intro data o _ o' h
    obtain ⟨_, -, h⟩ := bind_eq_ok.mp h
    obtain ⟨_, -, h⟩ := bind_eq_ok.mp h
    cases h
    exact Nat.le_succ o
  text := by
    intro data o _ o' h _
    obtain ⟨_, hneed, h⟩ := bind_eq_ok.mp h
    obtain ⟨_, htag, h⟩ := bind_eq_ok.mp h
    cases h
    exact ⟨[TYPE_TX], rfl, by rw [drop_first (need_ok hneed), require_eq_ok.mp htag, List.singleton_append]⟩
  wrong := never_wrong fun _ _ =>
    (fails_need _ _ _).bind fun _ _ => FailsOnly.bind (failsOnly_require rfl) fun _ _ => failsOnly_of_ok ⟨_, rfl⟩

section
variable (M : Codec)

/-- Both payloads are JSON. -/
def Frame.Loads (f : Frame) (body witnesses : Json) : Prop :=
  loadPayload M f.body = .ok body ∧ loadPayload M f.witnesses = .ok witnesses

/-- What is made of the parts, without any text. -/
def payloads (f : Frame) (_ : Bytes) (offset : Nat) : Except PyErr (Json × Nat) := do
  let body ← loadPayload M f.body
  let witnesses ← loadPayload M f.witnesses
  .ok (f.transaction body witnesses, offset)

theorem decodeTransaction_eq : decodeTransaction M = andThen marker fun _ => andThen decodeVarint fun version =>
    andThen decodeString fun txType => andThen decodeBytes fun body => andThen decodeBytes fun witnesses =>
      payloads M ⟨version, txType, body, witnesses⟩ := by
  funext data offset
  simp only [decodeTransaction, andThen, marker, bind_assoc, ok_bind]
  rfl

variable {M}

theorem fails_payload (raw : Bytes) : FailsOnly (fun e : PyErr => e.kind = .codecError) (loadPayload M raw) := by
  unfold loadPayload
  split
  · exact failsOnly_of_ok ⟨_, rfl⟩
  · exact failsOnly_error rfl

theorem fails_payloads (f : Frame) (data : Bytes) (offset : Nat) :
    FailsOnly (fun e : PyErr => e.kind = .codecError) (payloads M f data offset) :=
  (fails_payload _).bind fun _ _ => (fails_payload _).bind fun _ _ => failsOnly_of_ok ⟨_, rfl⟩

theorem payloads_parses (f : Frame) : Parses Unexpected (payloads M f)
    (fun x tx => x = [] ∧ ∃ body witnesses, f.Loads M body witnesses ∧ tx = f.transaction body witnesses) (fun _ => False) where
  reads := by
    rintro x tx ⟨rfl, body, witnesses, ⟨hbody, hwit⟩, rfl⟩ pre post
    rw [payloads, hbody, ok_bind, hwit]
    rfl
  ahead := by
    intro data o tx o' h
    obtain ⟨_, -, h⟩ := bind_eq_ok.mp h
    obtain ⟨_, -, h⟩ := bind_eq_ok.mp h
    cases h
    exact Nat.le_refl o
  text := by
    intro data o tx o' h _
    obtain ⟨body, hbody, h⟩ := bind_eq_ok.mp h
    obtain ⟨witnesses, hwit, h⟩ := bind_eq_ok.mp h
    cases h
    exact ⟨[], ⟨rfl, body, witnesses, ⟨hbody, hwit⟩, rfl⟩, rfl⟩
  wrong := never_wrong (fails_payloads f)

/-- A transaction is read where there is a frame with JSON in it, and nowhere else. -/
theorem transaction_parses : Parses Unexpected (decodeTransaction M)
    (fun x tx => ∃ f body witnesses, Frame.Text f x ∧ f.Loads M body witnesses ∧ tx = f.transaction body witnesses)
    (fun _ => False) := by
  rw [decodeTransaction_eq]
  refine (marker_parses.andThen fun _ => varint_parses.andThen fun version => string_parses.andThen fun txType =>
    bytes_parses.andThen fun body => bytes_parses.andThen fun witnesses =>
      payloads_parses ⟨version, txType, body, witnesses⟩).congr (fun x tx => ?_) fun x => ?_
  · constructor
    · rintro ⟨_, _, _, rfl, rfl, v, version, _, rfl, hv, t, txType, _, rfl, ⟨hs, ht⟩, b, body, _, rfl, hb, w, witnesses, _, rfl,
        hw, rfl, bodyObj, witnessesObj, hloads, rfl⟩
      exact ⟨⟨version, txType, body, witnesses⟩, bodyObj, witnessesObj,
        ⟨v, t, b, w, by simp, hv, hs, ht, hb, hw⟩, hloads, rfl⟩
    · rintro ⟨f, bodyObj, witnessesObj, ⟨v, t, b, w, rfl, hv, hs, ht, hb, hw⟩, hloads, rfl⟩
      exact ⟨[TYPE_TX], (), _, rfl, rfl, v, f.version, _, rfl, hv, t, f.txType, _, rfl, ⟨hs, ht⟩, b, f.body, _, rfl, hb, w,
        f.witnesses, [], (List.append_nil w).symm, hw, rfl, bodyObj, witnessesObj, hloads, rfl⟩
  · simp

/-! ## Canonical payloads -/

section
variable (M : Codec)

/-- The canonical JSON of a value a JSON decoder can make. -/
def CanonicalPayload (raw : Bytes) : Prop :=
  ∃ v : Json, v.decoded = true ∧ v.distinct = true ∧ canonicalJson M.toPrimitives v = .ok raw

/-- Within the encoder's limits, the payloads canonical JSON. -/
structure Frame.Canonical (f : Frame) : Prop where
  txType : (utf8 f.txType).length ≤ MAX_TX_TYPE_LEN
  body : f.body.length ≤ MAX_BODY_LEN ∧ CanonicalPayload M f.body
  witnesses : f.witnesses.length ≤ MAX_WITNESSES_LEN ∧ CanonicalPayload M f.witnesses

end

/-- The value read from a payload has that payload for its canonical JSON exactly if
the payload is canonical JSON. -/
theorem canonicalPayload_iff (hM : FloatsRead M.toRuntime) {raw : Bytes} {v : Json} (h : loadPayload M raw = .ok v) :
    canonicalJson M.toPrimitives v = .ok raw ↔ CanonicalPayload M raw := by
  constructor
  · intro hraw
    rw [loadPayload_canonical hM hraw, Except.ok.injEq] at h
    exact ⟨v, h ▸ parsed_decoded _, h ▸ parsed_distinct _, hraw⟩
  · rintro ⟨w, hdecoded, hdistinct, hraw⟩
    rw [loadPayload_canonical hM hraw, parsed_eq (norm_decoded.trans hdecoded) (norm_distinct hdistinct),
      Except.ok.injEq] at h
    exact h ▸ canonicalJson_norm (norm_norm w).symm hraw

/-- Length-prefixed blobs are told apart by their first bytes. -/
theorem encodeBytes_inj {d d' x x' rest rest' : Bytes} (h : encodeBytes d = .ok x) (h' : encodeBytes d' = .ok x')
    (heq : x ++ rest = x' ++ rest') : d = d' ∧ rest = rest' := by
  have hread := bytes_reads h [] rest
  rw [List.nil_append, heq] at hread
  have hread' := bytes_reads h' [] rest'
  rw [List.nil_append, hread, Except.ok.injEq, Prod.mk.injEq] at hread'
  obtain ⟨rfl, hlen⟩ := hread'
  rw [h, Except.ok.injEq] at h'
  subst h'
  exact ⟨rfl, List.append_cancel_left heq⟩

theorem envelope_get (version : Int) (txType : Str) (body witnesses : Json) :
    let tx : Fields :=
      [(str "version", .int version), (str "type", .str txType), (str "body", body), (str "witnesses", witnesses)]
    tx.get "version" = some (.int version) ∧ tx.get "type" = some (.str txType) ∧ tx.get "body" = some body ∧
      tx.get "witnesses" = some witnesses := by
  obtain ⟨h₁, h₂, h₃, h₄, h₅, h₆⟩ := envelopeKeys_apart
  simp only [Fields.get, lookup_field, if_true, if_neg h₁, if_neg h₂, if_neg h₃, if_neg h₄, if_neg h₅, if_neg h₆, and_self]

/-- A transaction read from a frame is encoded as the frame exactly if the frame is canonical. -/
theorem encode_frame_iff (hM : FloatsRead M.toRuntime) {f : Frame} {x : Bytes} {body witnesses : Json} (hx : f.Text x)
    (hloads : f.Loads M body witnesses) : encodeTransaction M (f.transaction body witnesses) = .ok x ↔ f.Canonical M := by
  obtain ⟨v, t, b, w, rfl, hv, hs, ht, hb, hw⟩ := hx
  obtain ⟨hversion, htype, hbody, hwit⟩ := envelope_get f.version f.txType body witnesses
  rw [Frame.transaction, encodeTransaction, encodeFields, htype, hbody, hwit, Fields.item, hversion]
  simp only [Option.getD_some, Json.asStr?, orRaise, ok_bind, intOf, hv, encodeUtf8_eq_ok.mpr ⟨hs, rfl⟩, ht]
  simp only [bind_eq_ok, require_eq_ok]
  constructor
  · rintro ⟨_, htypeLen, body', hbody', _, hbodyLen, wit', hwit', _, hwitLen, b', hb', w', hw', heq⟩
    rw [Except.ok.injEq, List.cons.injEq, List.append_cancel_left_eq, List.append_cancel_left_eq] at heq
    obtain ⟨rfl, hrest⟩ := encodeBytes_inj hb' hb heq.2
    obtain ⟨rfl, -⟩ := encodeBytes_inj hw' hw (congrArg (· ++ []) hrest)
    exact ⟨htypeLen, ⟨hbodyLen, (canonicalPayload_iff hM hloads.1).mp hbody'⟩,
      hwitLen, (canonicalPayload_iff hM hloads.2).mp hwit'⟩
  · rintro ⟨htypeLen, ⟨hbodyLen, hbody'⟩, hwitLen, hwit'⟩
    exact ⟨(), htypeLen, f.body, (canonicalPayload_iff hM hloads.1).mpr hbody', (), hbodyLen, f.witnesses,
      (canonicalPayload_iff hM hloads.2).mpr hwit', (), hwitLen, b, hb, w, hw, rfl⟩

theorem decodeTransaction_within {data : Bytes} {o next : Nat} {tx : Json} (h : decodeTransaction M data o = .ok (tx, next)) :
    next ≤ data.length := by
  simp only [decodeTransaction, bind_eq_ok] at h
  obtain ⟨_, -, _, -, _, -, _, -, _, -, ⟨wit, o'⟩, hwit, _, -, _, -, h⟩ := h
  cases h
  simp only [decodeBytes, bind_eq_ok] at hwit
  obtain ⟨_, -, _, hneed, hwit⟩ := hwit
  cases hwit
  exact need_ok hneed

/-! ## Transactions -/

/-- `decode_transaction` refuses with `CodecError`, or `encode_transaction` gives the bytes consumed back. -/
def DecodesCanonical (M : Codec) (data : Bytes) (offset : Int) : Prop :=
  (∃ e, decodeTransactionAt M data offset = .error e ∧ e.kind = .codecError) ∨
    ∃ tx next b, decodeTransactionAt M data offset = .ok (tx, next) ∧ encodeTransaction M tx = .ok b ∧
      (next : Int) = offset + b.length ∧ next ≤ data.length ∧ slice data offset.toNat b.length = b

/-- If the bytes at the offset are a frame with JSON payloads, it is a canonical one. -/
def FramesCanonical (M : Codec) (data : Bytes) (offset : Int) : Prop :=
  ∀ (f : Frame) (x rest : Bytes) (body witnesses : Json), 0 ≤ offset → data.drop offset.toNat = x ++ rest → f.Text x →
    f.Loads M body witnesses → f.Canonical M

/-- Decoding gives the transaction back, its keys in any order, and consumes everything. -/
def ReturnsWhole (M : Codec) (tx : Fields) (b : Bytes) : Prop :=
  ∃ w : Json, decodeTransactionAt M b 0 = .ok (w, b.length) ∧ w.norm = (Json.dict tx).norm

/-- All four fields of the envelope are there. -/
def HasEnvelope (tx : Fields) : Prop := ∀ k ∈ ["version", "type", "body", "witnesses"], ∃ v, tx.get k = some v

theorem decodesCanonical_iff (hM : FloatsRead M.toRuntime) (data : Bytes) (offset : Int) :
    DecodesCanonical M data offset ↔ FramesCanonical M data offset := by
  rw [DecodesCanonical, decodeTransactionAt, atOffset]
  split_ifs with hneg
  · exact iff_of_true (.inl ⟨_, rfl, rfl⟩) fun _ _ _ _ _ h₀ => absurd h₀ (by omega)
  constructor
  · intro h f x rest body witnesses h₀ hd hx hloads
    have hle : offset.toNat ≤ data.length := by
      obtain ⟨v, t, b, w, rfl, -⟩ := hx
      have hlen := congrArg List.length hd
      rw [List.length_drop, List.length_append, List.length_cons] at hlen
      omega
    obtain ⟨hread, -⟩ := transaction_parses.take ⟨f, body, witnesses, hx, hloads, rfl⟩ hle hd
    rw [hread] at h
    rcases h with ⟨_, he, -⟩ | ⟨tx, next, b, hok, hb, hnext, -, hslice⟩
    · cases he
    · cases hok
      have hlen : b.length = x.length := by omega
      rw [slice, hlen, hd, List.take_left] at hslice
      exact (encode_frame_iff hM hx hloads).mp (hslice ▸ hb)
  · intro hframes
    cases h : decodeTransaction M data offset.toNat with
    | error e => exact .inl ⟨e, rfl, Classical.not_not.mp fun hbad => (transaction_parses.wrong.mp ⟨e, h, hbad⟩).2⟩
    | ok answer =>
      obtain ⟨tx, next⟩ := answer
      have hle := decodeTransaction_within h
      obtain ⟨x, ⟨f, body, witnesses, hx, hloads, rfl⟩, hnext, hd⟩ := transaction_parses.consumed h hle
      have hcanonical := hframes f x _ body witnesses (by omega) hd hx hloads
      exact .inr ⟨_, next, x, rfl, (encode_frame_iff hM hx hloads).mpr hcanonical, by omega, hle,
        by rw [slice, hd, List.take_left]⟩

theorem returnsWhole_iff (hM : FloatsRead M.toRuntime) {tx : Fields} {b : Bytes} (henvelope : HasEnvelope tx)
    (hdistinct : (Json.dict tx).distinct = true) (h : encodeTransaction M (.dict tx) = .ok b) :
    ReturnsWhole M tx b ↔ CanonicalEnvelope M tx := by
  obtain ⟨version, txType, body, witnesses, henc, hread⟩ := transaction_reads hM h
  have hdecode := hread [] []
  rw [List.nil_append, List.append_nil, List.length_nil, Nat.zero_add] at hdecode
  have htype : tx.get "type" = some (.str txType) := by
    obtain ⟨v, hv⟩ := henvelope "type" (by simp)
    have := henc.txType.1
    rw [hv, Option.getD_some] at this
    rw [hv, this]
  rw [← rebuilt_norm_iff htype hdistinct henc, ReturnsWhole]
  have hat : decodeTransactionAt M b 0 = .ok (.dict (rebuilt version txType body witnesses), b.length) := hdecode
  simp only [hat, Except.ok.injEq, Prod.mk.injEq, and_true, exists_eq_left']

/-- **The transaction encoding, where it is canonical.** Bytes are what the encoder makes
of the transaction read from them exactly if their payloads are canonical JSON within the limits; an
encoded transaction comes back exactly if it is a canonical envelope. -/
theorem transaction_canonical_iff (M : Codec) (hM : FloatsRead M.toRuntime) :
    (∀ (data : Bytes) (offset : Int), DecodesCanonical M data offset ↔ FramesCanonical M data offset) ∧
    ∀ (tx : Fields) (b : Bytes), HasEnvelope tx → (Json.dict tx).distinct = true →
      encodeTransaction M (.dict tx) = .ok b → (ReturnsWhole M tx b ↔ CanonicalEnvelope M tx) :=
  ⟨decodesCanonical_iff hM, fun _ _ => returnsWhole_iff hM⟩

end

/-- A transaction with empty payloads, and its encoding. -/
def emptyTx : Fields :=
  [(str "version", .int 1), (str "type", .str (str "x")), (str "body", .dict []), (str "witnesses", .list [])]

def emptyTxBytes : Bytes := [0x01, 0x01, 0x01, 0x78, 0x02, 0x7b, 0x7d, 0x02, 0x5b, 0x5d]

/-- The same, with a blank before the body. -/
def blankTxBytes : Bytes := [0x01, 0x01, 0x01, 0x78, 0x03, 0x20, 0x7b, 0x7d, 0x02, 0x5b, 0x5d]

theorem emptyTx_encoded : encodeTransaction alphaCodec (.dict emptyTx) = .ok emptyTxBytes := of_okEq (by decide +kernel)

theorem blankTx_decoded : ∃ tx, decodeTransactionAt alphaCodec blankTxBytes 0 = .ok (tx, 11) ∧
    encodeTransaction alphaCodec tx = .ok emptyTxBytes := by
  have hrun : okAnd (fun p : Json × Nat => okEq (encodeTransaction alphaCodec p.1) emptyTxBytes && p.2 == 11)
      (decodeTransactionAt alphaCodec blankTxBytes 0) = true := by decide +kernel
  obtain ⟨⟨tx, next⟩, hok, hp⟩ := of_okAnd hrun
  rw [Bool.and_eq_true, beq_iff_eq] at hp
  exact ⟨tx, hp.2 ▸ hok, of_okEq hp.1⟩

theorem emptyTx_hasEnvelope : HasEnvelope emptyTx := by
  obtain ⟨h₁, h₂, h₃, h₄⟩ := envelope_get 1 (str "x") (.dict []) (.list [])
  intro k hk
  simp only [List.mem_cons, List.not_mem_nil, or_false] at hk
  rcases hk with rfl | rfl | rfl | rfl
  · exact ⟨_, h₁⟩
  · exact ⟨_, h₂⟩
  · exact ⟨_, h₃⟩
  · exact ⟨_, h₄⟩

theorem transaction_canonical_empty :
    (DecodesCanonical alphaCodec blankTxBytes 0 ↔ FramesCanonical alphaCodec blankTxBytes 0) ∧
      (ReturnsWhole alphaCodec emptyTx emptyTxBytes ↔ CanonicalEnvelope alphaCodec emptyTx) := by
  obtain ⟨hdecode, hencode⟩ := transaction_canonical_iff alphaCodec (bitsCodec_read _)
  exact ⟨hdecode _ _, hencode _ _ emptyTx_hasEnvelope (by decide +kernel) emptyTx_encoded⟩

/-- A blank in a payload is read over, and is not written back. -/
theorem blank_accepted : ¬ ∀ M : Codec, FloatsRead M.toRuntime →
    (∀ (data : Bytes) (offset : Int), DecodesCanonical M data offset) ∧
    ∀ (tx : Fields) (b : Bytes), HasEnvelope tx → (Json.dict tx).distinct = true →
      encodeTransaction M (.dict tx) = .ok b → ReturnsWhole M tx b := by
  intro h
  obtain ⟨hdecode, -⟩ := h alphaCodec (bitsCodec_read _)
  obtain ⟨tx, hread, hencoded⟩ := blankTx_decoded
  rcases hdecode blankTxBytes 0 with ⟨e, he, -⟩ | ⟨_, next, b, hok, hb, hnext, -⟩
  · rw [hread] at he
    cases he
  · rw [hread] at hok
    cases hok
    rw [hencoded] at hb
    cases hb
    cases hnext

end BinaryCodec

end ChainBreaker
