import ChainBreaker.Envelope
import ChainBreaker.JsonBack

/-!
# Message payloads

Payloads are JSON objects. `from_payload` takes whatever the bytes decode to, so
the operations on it (`in`, `[]`, `get`, iteration, `int`, `str`) are those of
Python on any JSON value, with the errors they raise.
-/

namespace ChainBreaker

open Fallible

/-- The runtime, `str` of a value that is no string, and `str` of an exception. -/
structure Builtins extends Runtime where
  strOf : Json → Str
  errText : PyErr → Str

/-- SHA-256 itself, without floats and without the texts of other values. -/
def builtins : Builtins where
  toPrimitives := recorded []
  floatOf := fun _ => 0
  strOf := fun _ => []
  errText := fun e => str e.text

/-! ## JSON values as Python objects -/

/-- `key in obj`. -/
def Json.contains (key : String) : Json → Except PyErr Bool
  | .dict d => .ok (Fields.get d key).isSome
  | .list xs => .ok (xs.any fun x => x.eqStr (ChainBreaker.str key))
  | .str s => .ok ((List.range (s.length + 1)).any fun i => (ChainBreaker.str key).isPrefixOf (s.drop i))
  | _ => raise .typeError "argument is not iterable" []

/-- `obj[key]`. -/
def Json.item (key : String) : Json → Except PyErr Json
  | .dict d => Fields.item d key
  | _ => raise .typeError "indices must be integers, or object is not subscriptable" []

/-- `obj.get(key, default)`. -/
def Json.getOr (obj : Json) (key : String) (default : Json) : Except PyErr Json :=
  match obj with
  | .dict d => .ok ((Fields.get d key).getD default)
  | _ => raise .attributeError "object has no attribute 'get'" []

/-- `iter(obj)`. -/
def Json.iter : Json → Except PyErr (List Json)
  | .list xs => .ok xs
  | .str s => .ok (s.map fun c => .str [c])
  | .dict d => .ok (d.map fun f => .str f.1)
  | _ => raise .typeError "object is not iterable" []

/-- `obj.items()`. -/
def Json.items : Json → Except PyErr Fields
  | .dict d => .ok d
  | _ => raise .attributeError "object has no attribute 'items'" []

/-- `len(obj)`. -/
def Json.len : Json → Except PyErr Nat
  | .list xs => .ok xs.length
  | .str s => .ok s.length
  | .dict d => .ok d.length
  | _ => raise .typeError "object has no len()" []

def Json.truthy : Json → Bool
  | .null => false
  | .bool b => b
  | .int n => n != 0
  | .float bits => bits.toNat % 2 ^ 63 != 0
  | .str s => !s.isEmpty
  | .list xs => !xs.isEmpty
  | .dict d => !d.isEmpty

/-- `int` of a float, towards zero. -/
def truncFloat (bits : UInt64) : Except PyErr Int :=
  let exponent := bits.toNat / 2 ^ 52 % 2048
  let fraction := bits.toNat % 2 ^ 52
  if exponent = 2047 then
    if fraction ≠ 0 then raise .valueError "cannot convert float NaN to integer" []
    else raise .overflowError "cannot convert float infinity to integer" []
  else
    let n : Nat := (2 ^ 52 + fraction) * 2 ^ (exponent - 1075) / 2 ^ (1075 - exponent)
    .ok (if bits.toNat < 2 ^ 63 then n else -n)

/-- `int(v)`. -/
def pyInt : Json → Except PyErr Int
  | .int n => .ok n
  | .bool b => .ok (if b then 1 else 0)
  | .float bits => truncFloat bits
  | .str s => parseInt s
  | _ => raise .typeError "int() argument must be a string or a real number" []

/-- `str(v)`. -/
def pyStr (B : Builtins) : Json → Str
  | .str s => s
  | v => B.strOf v

/-! ## The payload codec -/

def encodePayload (E : Primitives) (obj : Json) : Except PyErr Bytes := canonicalJson E obj

def decodePayload (M : Runtime) (payload : Bytes) : Except PyErr Json := do
  let text ← decodeUtf8 payload
  loads M.floatOf text

def validateHexHash (value : Json) : Except PyErr Unit :=
  match value with
  | .str s => require (isLowerHash s = true) ⟨.networkValidationError, "invalid hex hash: %", [value]⟩
  | _ => .error ⟨.networkValidationError, "invalid hex hash: %", [value]⟩

def validateNonnegativeInt (value : Json) : Except PyErr Unit :=
  match value with
  | .int n => require (0 ≤ n) ⟨.networkValidationError, "expected non-negative int, got %", [value]⟩
  | _ => .error ⟨.networkValidationError, "expected non-negative int, got %", [value]⟩

/-! ## HELLO -/

structure HelloMessage where
  protocolVersion : Int
  networkId : Str
  genesisHash : Str
  bestHeight : Int
  bestChainWork : Str
  featureBits : List Str
  nodeLimits : List (Str × Int)

def sortStrs (l : List Str) : List Str := Lex.sortOn charKey id l

/-- `encode_payload` sorts the keys of every object, the node limits among them. -/
def HelloMessage.toPayload (E : Primitives) (m : HelloMessage) : Except PyErr Bytes :=
  encodePayload E (.dict [
    (str "protocol_version", .int m.protocolVersion), (str "network_id", .str m.networkId),
    (str "genesis_hash", .str m.genesisHash), (str "best_height", .int m.bestHeight),
    (str "best_chain_work", .str m.bestChainWork), (str "feature_bits", .list ((sortStrs m.featureBits).map .str)),
    (str "node_limits", .dict (m.nodeLimits.map fun f => (f.1, .int f.2)))])

def requireKeys (obj : Json) : List String → Except PyErr Unit
  | [] => .ok ()
  | key :: keys => do
    let present ← obj.contains key
    require (present = true) ⟨.networkValidationError, "missing field: %", [.str (str key)]⟩
    requireKeys obj keys

def HelloMessage.fromPayload (B : Builtins) (payload : Bytes) : Except PyErr HelloMessage := do
  let obj ← decodePayload B.toRuntime payload
  requireKeys obj ["protocol_version", "network_id", "genesis_hash", "best_height", "best_chain_work"]
  let genesisHash ← obj.item "genesis_hash"
  validateHexHash genesisHash
  let bestChainWork ← obj.item "best_chain_work"
  validateHexHash bestChainWork
  let bestHeight ← obj.item "best_height"
  validateNonnegativeInt bestHeight
  let version ← obj.item "protocol_version"
  let protocolVersion ← pyInt version
  let networkId ← obj.item "network_id"
  let bestHeight ← pyInt bestHeight
  let features ← obj.getOr "feature_bits" (.list [])
  let featureBits ← features.iter
  let limits ← obj.getOr "node_limits" (.dict [])
  let limits ← limits.items
  let nodeLimits ← collect (fun f => (pyInt f.2).map fun n => (f.1, n)) limits
  .ok ⟨protocolVersion, pyStr B networkId, pyStr B genesisHash, bestHeight, pyStr B bestChainWork,
    featureBits.map (pyStr B), nodeLimits⟩

/-! ## HEADERS, BLOCK, GET_BLOCK and INVENTORY -/

def MAX_LOCATOR_SIZE : Nat := 32
def MAX_HEADERS_RESPONSE : Nat := 2000
def MAX_BLOCKS_RESPONSE : Nat := 32
def MAX_INVENTORY_ENTRIES : Nat := 5000

/-- A list of at most so many entries; the text of the error takes the length of what is there instead. -/
def boundedList (value : Json) (bound : Nat) (text : String) : Except PyErr (List Json) :=
  match value with
  | .list xs => do
    require (xs.length ≤ bound) ⟨.networkValidationError, text, [.int xs.length]⟩
    .ok xs
  | _ => do
    let n ← value.len
    raise .networkValidationError text [.int n]

def validateHexHashes : List Json → Except PyErr Unit
  | [] => .ok ()
  | h :: hs => do
    validateHexHash h
    validateHexHashes hs

structure GetHeadersMessage where
  startHashes : List Str
  stopHash : Option Str
  maxCount : Int

def GetHeadersMessage.toPayload (E : Primitives) (m : GetHeadersMessage) : Except PyErr Bytes :=
  encodePayload E (.dict [(str "start_hashes", .list (m.startHashes.map .str)),
    (str "stop_hash", match m.stopHash with
      | some h => .str h
      | none => .null),
    (str "max_count", .int m.maxCount)])

structure HeaderEntry where
  height : Int
  hash : Str
  headerBytes : Str

structure HeadersMessage where
  headers : List HeaderEntry

def HeaderEntry.toJson (h : HeaderEntry) : Json :=
  .dict [(str "height", .int h.height), (str "hash", .str h.hash), (str "header_bytes", .str h.headerBytes)]

def HeadersMessage.toPayload (E : Primitives) (m : HeadersMessage) : Except PyErr Bytes :=
  encodePayload E (.dict [(str "headers", .list (m.headers.map HeaderEntry.toJson))])

/-- One turn of the loop of `HeadersMessage.from_payload`. -/
def HeaderEntry.read (B : Builtins) (entry : Json) : Except PyErr HeaderEntry := do
  let hash ← entry.item "hash"
  validateHexHash hash
  let height ← entry.item "height"
  validateNonnegativeInt height
  match ← entry.getOr "header_bytes" .null with
  | .str headerBytes => do
    let height ← pyInt height
    .ok ⟨height, pyStr B hash, headerBytes⟩
  | _ => raise .networkValidationError "header_bytes must be a hex string" []

def HeadersMessage.fromPayload (B : Builtins) (payload : Bytes) : Except PyErr HeadersMessage := do
  let obj ← decodePayload B.toRuntime payload
  let headers ← obj.getOr "headers" (.list [])
  let headers ← boundedList headers MAX_HEADERS_RESPONSE "invalid headers length: %"
  let entries ← collect (HeaderEntry.read B) headers
  .ok ⟨entries⟩

structure BlockEntry where
  hash : Str
  blockBytes : Str

structure BlockMessage where
  blocks : List BlockEntry

def BlockEntry.toJson (b : BlockEntry) : Json :=
  .dict [(str "hash", .str b.hash), (str "block_bytes", .str b.blockBytes)]

def BlockMessage.toPayload (E : Primitives) (m : BlockMessage) : Except PyErr Bytes :=
  encodePayload E (.dict [(str "blocks", .list (m.blocks.map BlockEntry.toJson))])

/-- One turn of the first loop of `BlockMessage.from_payload`. -/
def BlockEntry.check (b : Json) : Except PyErr Unit := do
  let hasHash ← b.contains "hash"
  let hasBytes ← if hasHash then b.contains "block_bytes" else .ok false
  require (hasBytes = true) (err .networkValidationError "block entry missing hash or block_bytes")
  let hash ← b.item "hash"
  validateHexHash hash

def BlockEntry.read (B : Builtins) (b : Json) : Except PyErr BlockEntry := do
  let hash ← b.item "hash"
  let blockBytes ← b.item "block_bytes"
  .ok ⟨pyStr B hash, pyStr B blockBytes⟩

def BlockMessage.fromPayload (B : Builtins) (payload : Bytes) : Except PyErr BlockMessage := do
  let obj ← decodePayload B.toRuntime payload
  let blocks ← obj.getOr "blocks" (.list [])
  let blocks ← boundedList blocks MAX_BLOCKS_RESPONSE "invalid blocks length: %"
  let _ ← collect BlockEntry.check blocks
  let entries ← collect (BlockEntry.read B) blocks
  .ok ⟨entries⟩

structure GetBlockMessage where
  hashes : List Str
  maxTotalBytes : Int

def GetBlockMessage.fromPayload (B : Builtins) (payload : Bytes) : Except PyErr GetBlockMessage := do
  let obj ← decodePayload B.toRuntime payload
  let hashes ← obj.getOr "hashes" (.list [])
  let hashes ← boundedList hashes MAX_BLOCKS_RESPONSE "invalid hashes length: %"
  validateHexHashes hashes
  let maxTotalBytes ← obj.getOr "max_total_bytes" (.int 0)
  let maxTotalBytes ← pyInt maxTotalBytes
  require (0 < maxTotalBytes) ⟨.networkValidationError, "invalid max_total_bytes: %", [.int maxTotalBytes]⟩
  .ok ⟨hashes.map (pyStr B), maxTotalBytes⟩

structure InventoryMessage where
  invType : Str
  hashes : List Str

def InventoryMessage.fromPayload (B : Builtins) (payload : Bytes) : Except PyErr InventoryMessage := do
  let obj ← decodePayload B.toRuntime payload
  let invType ← obj.getOr "type" (.str [])
  require (pyStr B invType ∈ ["headers", "blocks", "archive", "transactions"].map str)
    ⟨.networkValidationError, "invalid inventory type: %", [.str (pyStr B invType)]⟩
  let hashes ← obj.getOr "hashes" (.list [])
  let hashes ← boundedList hashes MAX_INVENTORY_ENTRIES "invalid hashes length: %"
  validateHexHashes hashes
  .ok ⟨pyStr B invType, hashes.map (pyStr B)⟩

/-! ## Messages read back -/

section
variable {B : Builtins}

theorem isLowerHash_ascii {s : Str} (h : isLowerHash s = true) : asciiStr s = true := by
  rw [asciiStr, List.all_eq_true]
  intro c hc
  have hlower := (lowerHash_chars h).2 c hc
  simp only [isLowerHex, Bool.or_eq_true, Bool.and_eq_true, decide_eq_true_eq] at hlower
  exact decide_eq_true (by omega)

theorem hexVal_ascii {c : CodePoint} {n : Nat} (h : hexVal c = some n) : c.val < 127 := by
  simp only [hexVal] at h
  split at h
  · omega
  · split at h
    · omega
    · split at h
      · omega
      · cases h

theorem isSpace_ascii {c : CodePoint} (h : isSpace c = true) : c.val < 127 := by
  simp only [isSpace, Bool.or_eq_true, Bool.and_eq_true, decide_eq_true_eq, beq_iff_eq] at h
  omega

/-- Text that reads as hex is ASCII. -/
theorem fromHex_ascii {t : Str} : ∀ {raw : Bytes}, fromHex t = some raw → asciiStr t = true := by
  fun_induction fromHex t with
  | case1 => exact fun _ => rfl
  | case2 c hc => exact fun _ => by simpa [asciiStr] using isSpace_ascii hc
  | case3 c hc => rintro _ ⟨⟩
  | case4 c d rest hc ih =>
    intro raw h
    rw [asciiStr, List.all_cons, decide_eq_true (isSpace_ascii hc), ← asciiStr, ih h, Bool.true_and]
  | case5 c d rest hc m n hm hn ih =>
    intro raw h
    obtain ⟨b, hb, -⟩ := Option.map_eq_some_iff.mp h
    rw [asciiStr, List.all_cons, List.all_cons, decide_eq_true (hexVal_ascii hm), decide_eq_true (hexVal_ascii hn),
      ← asciiStr, ih hb, Bool.true_and, Bool.true_and]
  | case6 c d rest hc hnone => rintro _ ⟨⟩

theorem decodePayload_encode {obj : Json} {payload : Bytes} (h : encodePayload B.toPrimitives obj = .ok payload)
    (hwire : obj.wire = true) : decodePayload B.toRuntime payload = .ok obj.norm := loads_canonicalJson h hwire

/-- An entry that `from_payload` lets through as it is. -/
structure HeaderEntry.Sound (e : HeaderEntry) : Prop where
  height : 0 ≤ e.height
  hash : isLowerHash e.hash = true
  headerBytes : asciiStr e.headerBytes = true

theorem HeaderEntry.Sound.wire {e : HeaderEntry} (h : e.Sound) : e.toJson.wire = true := by
  have hkeys : ([str "height", str "hash", str "header_bytes"] : List Str).Nodup ∧ asciiStr (str "height") = true ∧
      asciiStr (str "hash") = true ∧ asciiStr (str "header_bytes") = true := by decide
  rw [HeaderEntry.toJson, wire_dict]
  refine ⟨hkeys.1, fun f hf => ?_⟩
  simp only [List.mem_cons, List.not_mem_nil, or_false] at hf
  rcases hf with rfl | rfl | rfl
  · exact ⟨hkeys.2.1, rfl⟩
  · exact ⟨hkeys.2.2.1, isLowerHash_ascii h.hash⟩
  · exact ⟨hkeys.2.2.2, h.headerBytes⟩

theorem HeaderEntry.read_norm {e : HeaderEntry} (h₀ : 0 ≤ e.height) (h₁ : isLowerHash e.hash = true) :
    HeaderEntry.read B e.toJson.norm = .ok e := by
  have hhash : e.toJson.norm.item "hash" = .ok (.str e.hash) := rfl
  have hheight : e.toJson.norm.item "height" = .ok (.int e.height) := rfl
  have hbytes : e.toJson.norm.getOr "header_bytes" .null = .ok (.str e.headerBytes) := rfl
  rw [HeaderEntry.read, hhash, ok_bind, validateHexHash, require_of _ h₁, ok_bind, hheight, ok_bind,
    validateNonnegativeInt, require_of _ h₀, ok_bind, hbytes]
  rfl

theorem HeaderEntry.Sound.read {e : HeaderEntry} (h : e.Sound) : HeaderEntry.read B e.toJson.norm = .ok e :=
  HeaderEntry.read_norm h.height h.hash

/-- An object of one field, with a list under it, is read back with the list under it. -/
theorem decodePayload_listOf {α : Type} {toJson : α → Json} {key : String} {xs : List α} {payload : Bytes}
    (h : encodePayload B.toPrimitives (.dict [(str key, .list (xs.map toJson))]) = .ok payload)
    (hkey : asciiStr (str key) = true) (hwire : ∀ x ∈ xs, (toJson x).wire = true) :
    (decodePayload B.toRuntime payload >>= fun obj => obj.getOr key (.list [])) =
      .ok (.list (xs.map fun x => (toJson x).norm)) := by
  have hdecode := decodePayload_encode h (by
    rw [wire_dict]
    refine ⟨List.nodup_singleton _, List.forall_mem_singleton.mpr ⟨hkey, ?_⟩⟩
    rw [Json.wire, wireList_iff]
    exact List.forall_mem_map.mpr hwire)
  have hnorm : (Json.dict [(str key, .list (xs.map toJson))]).norm = .dict [(str key, .list (normList (xs.map toJson)))] := rfl
  rw [hdecode, hnorm, ok_bind, normList_eq, List.map_map, Json.getOr, Fields.get, List.lookup_cons_self, Option.getD_some]
  rfl

/-- A HEADERS message is read as it was sent. -/
theorem HeadersMessage.fromPayload_toPayload {m : HeadersMessage} {payload : Bytes}
    (hlen : m.headers.length ≤ MAX_HEADERS_RESPONSE) (hsound : ∀ e ∈ m.headers, e.Sound)
    (h : m.toPayload B.toPrimitives = .ok payload) : HeadersMessage.fromPayload B payload = .ok m := by
  obtain ⟨obj, hobj, hget⟩ := bind_eq_ok.mp (decodePayload_listOf h (by decide) fun e he => (hsound e he).wire)
  have hread : collect (HeaderEntry.read B) (m.headers.map fun e => e.toJson.norm) = .ok m.headers :=
    collect_eq_ok.mpr (List.forall₂_map_left_iff.mpr (List.forall₂_same.mpr fun e he => (hsound e he).read))
  rw [HeadersMessage.fromPayload, hobj, ok_bind, hget, ok_bind, boundedList, require_of _ (by rwa [List.length_map]),
    ok_bind, ok_bind, hread]
  rfl

structure BlockEntry.Sound (b : BlockEntry) : Prop where
  hash : isLowerHash b.hash = true
  blockBytes : asciiStr b.blockBytes = true

theorem BlockEntry.Sound.wire {b : BlockEntry} (h : b.Sound) : b.toJson.wire = true := by
  have hkeys : ([str "hash", str "block_bytes"] : List Str).Nodup ∧ asciiStr (str "hash") = true ∧
      asciiStr (str "block_bytes") = true := by decide
  rw [BlockEntry.toJson, wire_dict]
  refine ⟨hkeys.1, fun f hf => ?_⟩
  simp only [List.mem_cons, List.not_mem_nil, or_false] at hf
  rcases hf with rfl | rfl
  · exact ⟨hkeys.2.1, isLowerHash_ascii h.hash⟩
  · exact ⟨hkeys.2.2, h.blockBytes⟩

theorem BlockEntry.check_norm {b : BlockEntry} (h : isLowerHash b.hash = true) : BlockEntry.check b.toJson.norm = .ok () := by
  have hhash : b.toJson.norm.item "hash" = .ok (.str b.hash) := rfl
  have hhas : b.toJson.norm.contains "hash" = .ok true := rfl
  have hbytes : b.toJson.norm.contains "block_bytes" = .ok true := rfl
  rw [BlockEntry.check, hhas, ok_bind]
  simp only [if_true, hbytes, ok_bind]
  rw [require_of _ trivial, ok_bind, hhash, ok_bind, validateHexHash, require_of _ h]

/-- A BLOCK message is read as it was sent. -/
theorem BlockMessage.fromPayload_toPayload {m : BlockMessage} {payload : Bytes}
    (hlen : m.blocks.length ≤ MAX_BLOCKS_RESPONSE) (hsound : ∀ b ∈ m.blocks, b.Sound)
    (h : m.toPayload B.toPrimitives = .ok payload) : BlockMessage.fromPayload B payload = .ok m := by
  obtain ⟨obj, hobj, hget⟩ := bind_eq_ok.mp (decodePayload_listOf h (by decide) fun b hb => (hsound b hb).wire)
  have hcheck : collect BlockEntry.check (m.blocks.map fun b => b.toJson.norm) = .ok (m.blocks.map fun _ => ()) :=
    collect_eq_ok.mpr (List.forall₂_map_left_iff.mpr (List.forall₂_map_right_iff.mpr
      (List.forall₂_same.mpr fun b hb => BlockEntry.check_norm (hsound b hb).hash)))
  have hread : collect (BlockEntry.read B) (m.blocks.map fun b => b.toJson.norm) = .ok m.blocks :=
    collect_eq_ok.mpr (List.forall₂_map_left_iff.mpr (List.forall₂_same.mpr fun _ _ => rfl))
  rw [BlockMessage.fromPayload, hobj, ok_bind, hget, ok_bind, boundedList, require_of _ (by rwa [List.length_map]),
    ok_bind, ok_bind, hcheck, ok_bind, hread]
  rfl

end

end ChainBreaker
