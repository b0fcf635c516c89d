import ChainBreaker.LoadedJson
import ChainBreaker.Messages

/-!
# Typed messages

The classes of `MESSAGE_PAYLOAD_CLASSES`, and what `Survives` says of one: a message
that was read is written and read back. What such a message writes is `Bare`, strings
as a decoder yields them and no float, and is read back as it is.
-/

namespace ChainBreaker

open Fallible

/-! ## The other message classes -/

/-- The dictionary of a HELLO. -/
def HelloMessage.fields (m : HelloMessage) : List (String × Json) :=
  [("protocol_version", .int m.protocolVersion), ("network_id", .str m.networkId), ("genesis_hash", .str m.genesisHash),
    ("best_height", .int m.bestHeight), ("best_chain_work", .str m.bestChainWork),
    ("feature_bits", .list ((sortStrs m.featureBits).map .str)),
    ("node_limits", .dict (m.nodeLimits.map fun f => (f.1, .int f.2)))]

/-- A dictionary under literal keys. -/
def object (l : List (String × Json)) : Json := .dict (l.map fun f => (str f.1, f.2))

structure HelloAckMessage extends HelloMessage where
  handshakeComplete : Bool := true

def HelloAckMessage.toPayload (E : Primitives) (m : HelloAckMessage) : Except PyErr Bytes :=
  encodePayload E (object (m.toHelloMessage.fields ++ [("handshake_complete", .bool m.handshakeComplete)]))

/-- The fields of HELLO are read as they are there, from the same object. -/
def HelloAckMessage.fromPayload (B : Builtins) (payload : Bytes) : Except PyErr HelloAckMessage := do
  let hello ← HelloMessage.fromPayload B payload
  let obj ← decodePayload B.toRuntime payload
  let handshakeComplete ← obj.getOr "handshake_complete" (.bool false)
  .ok ⟨hello, handshakeComplete.truthy⟩

/-- `{"nonce": n}`. -/
def noncePayload (E : Primitives) (nonce : Int) : Except PyErr Bytes := encodePayload E (object [("nonce", .int nonce)])

def readNonce (B : Builtins) (payload : Bytes) : Except PyErr Int := do
  let obj ← decodePayload B.toRuntime payload
  requireKeys obj ["nonce"]
  let nonce ← obj.item "nonce"
  validateNonnegativeInt nonce
  pyInt nonce

structure PingMessage where
  nonce : Int

def PingMessage.toPayload (E : Primitives) (m : PingMessage) : Except PyErr Bytes := noncePayload E m.nonce

def PingMessage.fromPayload (B : Builtins) (payload : Bytes) : Except PyErr PingMessage :=
  (readNonce B payload).map PingMessage.mk

structure PongMessage where
  nonce : Int

def PongMessage.toPayload (E : Primitives) (m : PongMessage) : Except PyErr Bytes := noncePayload E m.nonce

def PongMessage.fromPayload (B : Builtins) (payload : Bytes) : Except PyErr PongMessage :=
  (readNonce B payload).map PongMessage.mk

/-- A hash that may be `None`. -/
def readStopHash (B : Builtins) : Json → Except PyErr (Option Str)
  | .null => .ok none
  | v => do
    validateHexHash v
    .ok (some (pyStr B v))

def GetHeadersMessage.fromPayload (B : Builtins) (payload : Bytes) : Except PyErr GetHeadersMessage := do
  let obj ← decodePayload B.toRuntime payload
  let startHashes ← obj.getOr "start_hashes" (.list [])
  let startHashes ← boundedList startHashes MAX_LOCATOR_SIZE "invalid start_hashes length: %"
  validateHexHashes startHashes
  let stopHash ← obj.getOr "stop_hash" .null
  let stopHash ← readStopHash B stopHash
  let maxCount ← obj.getOr "max_count" (.int 0)
  let maxCount ← pyInt maxCount
  require (0 < maxCount ∧ maxCount ≤ MAX_HEADERS_RESPONSE)
    ⟨.networkValidationError, "invalid max_count: %", [.int maxCount]⟩
  .ok ⟨startHashes.map (pyStr B), stopHash, maxCount⟩

def GetBlockMessage.toPayload (E : Primitives) (m : GetBlockMessage) : Except PyErr Bytes :=
  encodePayload E (object [("hashes", .list (m.hashes.map .str)), ("max_total_bytes", .int m.maxTotalBytes)])

/-- `{"content_hash": h}`. -/
def contentHashPayload (E : Primitives) (contentHash : Str) : Except PyErr Bytes :=
  encodePayload E (object [("content_hash", .str contentHash)])

def readContentHash (B : Builtins) (payload : Bytes) : Except PyErr Str := do
  let obj ← decodePayload B.toRuntime payload
  requireKeys obj ["content_hash"]
  let contentHash ← obj.item "content_hash"
  validateHexHash contentHash
  .ok (pyStr B contentHash)

structure GetArchiveMessage where
  contentHash : Str

def GetArchiveMessage.toPayload (E : Primitives) (m : GetArchiveMessage) : Except PyErr Bytes :=
  contentHashPayload E m.contentHash

def GetArchiveMessage.fromPayload (B : Builtins) (payload : Bytes) : Except PyErr GetArchiveMessage :=
  (readContentHash B payload).map GetArchiveMessage.mk

structure ArchiveMessage where
  contentHash : Str

def ArchiveMessage.toPayload (E : Primitives) (m : ArchiveMessage) : Except PyErr Bytes :=
  contentHashPayload E m.contentHash

def ArchiveMessage.fromPayload (B : Builtins) (payload : Bytes) : Except PyErr ArchiveMessage :=
  (readContentHash B payload).map ArchiveMessage.mk

/-- `{"type": t, "hashes": hs}`. -/
def typedHashesPayload (E : Primitives) (type : Str) (hashes : List Str) : Except PyErr Bytes :=
  encodePayload E (object [("type", .str type), ("hashes", .list (hashes.map .str))])

def InventoryMessage.toPayload (E : Primitives) (m : InventoryMessage) : Except PyErr Bytes :=
  typedHashesPayload E m.invType m.hashes

structure GetDataMessage where
  dataType : Str
  hashes : List Str

def GetDataMessage.toPayload (E : Primitives) (m : GetDataMessage) : Except PyErr Bytes :=
  typedHashesPayload E m.dataType m.hashes

def GetDataMessage.fromPayload (B : Builtins) (payload : Bytes) : Except PyErr GetDataMessage := do
  let obj ← decodePayload B.toRuntime payload
  let dataType ← obj.getOr "type" (.str [])
  require (pyStr B dataType ∈ ["headers", "blocks", "archive", "transactions"].map str)
    ⟨.networkValidationError, "invalid data type: %", [.str (pyStr B dataType)]⟩
  let hashes ← obj.getOr "hashes" (.list [])
  let hashes ← boundedList hashes MAX_INVENTORY_ENTRIES "invalid hashes length: %"
  validateHexHashes hashes
  .ok ⟨pyStr B dataType, hashes.map (pyStr B)⟩

structure RejectMessage where
  code : Str
  reason : Str
  offendingMessageType : Option Int

def RejectMessage.toPayload (E : Primitives) (m : RejectMessage) : Except PyErr Bytes :=
  encodePayload E (object ([("code", .str m.code), ("reason", .str m.reason)] ++
    match m.offendingMessageType with
    | some t => [("offending_message_type", .int t)]
    | none => []))

/-- `int(v) if v is not None else None`. -/
def optionalInt : Json → Except PyErr (Option Int)
  | .null => .ok none
  | v => (pyInt v).map some

def RejectMessage.fromPayload (B : Builtins) (payload : Bytes) : Except PyErr RejectMessage := do
  let obj ← decodePayload B.toRuntime payload
  requireKeys obj ["code", "reason"]
  let offending ← obj.getOr "offending_message_type" .null
  let code ← obj.item "code"
  let reason ← obj.item "reason"
  let offending ← optionalInt offending
  .ok ⟨pyStr B code, pyStr B reason, offending⟩

/-! ## All classes -/

/-- An entry of `MESSAGE_PAYLOAD_CLASSES`, and which messages of the class count as equal. -/
structure PayloadClass (B : Builtins) where
  Message : Type
  toPayload : Message → Except PyErr Bytes
  fromPayload : Bytes → Except PyErr Message
  same : Message → Message → Prop

/-- The dataclasses are equal, up to the sorting of the feature bits. -/
def HelloMessage.Same (m' m : HelloMessage) : Prop :=
  m' = { m with featureBits := sortStrs m.featureBits, nodeLimits := m'.nodeLimits } ∧ m'.nodeLimits.Perm m.nodeLimits

def HelloAckMessage.Same (m' m : HelloAckMessage) : Prop :=
  m'.toHelloMessage.Same m.toHelloMessage ∧ m'.handshakeComplete = m.handshakeComplete

section
variable (B : Builtins)

def MESSAGE_PAYLOAD_CLASSES : List (Int × PayloadClass B) :=
  [(0x01, ⟨HelloMessage, HelloMessage.toPayload B.toPrimitives, HelloMessage.fromPayload B, HelloMessage.Same⟩),
    (0x02, ⟨HelloAckMessage, HelloAckMessage.toPayload B.toPrimitives, HelloAckMessage.fromPayload B, HelloAckMessage.Same⟩),
    (0x03, ⟨PingMessage, PingMessage.toPayload B.toPrimitives, PingMessage.fromPayload B, Eq⟩),
    (0x04, ⟨PongMessage, PongMessage.toPayload B.toPrimitives, PongMessage.fromPayload B, Eq⟩),
    (0x05, ⟨GetHeadersMessage, GetHeadersMessage.toPayload B.toPrimitives, GetHeadersMessage.fromPayload B, Eq⟩),
    (0x06, ⟨HeadersMessage, HeadersMessage.toPayload B.toPrimitives, HeadersMessage.fromPayload B, Eq⟩),
    (0x07, ⟨GetBlockMessage, GetBlockMessage.toPayload B.toPrimitives, GetBlockMessage.fromPayload B, Eq⟩),
    (0x08, ⟨BlockMessage, BlockMessage.toPayload B.toPrimitives, BlockMessage.fromPayload B, Eq⟩),
    (0x09, ⟨GetArchiveMessage, GetArchiveMessage.toPayload B.toPrimitives, GetArchiveMessage.fromPayload B, Eq⟩),
    (0x0A, ⟨ArchiveMessage, ArchiveMessage.toPayload B.toPrimitives, ArchiveMessage.fromPayload B, Eq⟩),
    (0x0B, ⟨InventoryMessage, InventoryMessage.toPayload B.toPrimitives, InventoryMessage.fromPayload B, Eq⟩),
    (0x0C, ⟨GetDataMessage, GetDataMessage.toPayload B.toPrimitives, GetDataMessage.fromPayload B, Eq⟩),
    (0x0D, ⟨RejectMessage, RejectMessage.toPayload B.toPrimitives, RejectMessage.fromPayload B, Eq⟩)]

example : (MESSAGE_PAYLOAD_CLASSES B).map Prod.fst = KNOWN_MESSAGE_TYPES := rfl

variable {B}

/-- What was read from a payload is written, and read from what was written. -/
def PayloadClass.Survives (C : PayloadClass B) : Prop :=
  ∀ payload m, C.fromPayload payload = .ok m → ∃ b m', C.toPayload m = .ok b ∧ C.fromPayload b = .ok m' ∧ C.same m' m ∧
    C.toPayload m' = .ok b

/-- `str` of a value that is no string has no surrogates: `repr` escapes those of the strings in it. -/
def Builtins.PlainText (B : Builtins) : Prop := ∀ v, Scalars (B.strOf v)

end

/-! ## Values without floats -/

/-- As a decoder yields it, and no float in it. -/
def Json.Bare (v : Json) : Prop := v.Loaded ∧ v.Floats fun _ => False

theorem bare_str {s : Str} : (Json.str s).Bare ↔ decodedStr s = true :=
  ⟨fun h => h.1.1, fun h => ⟨⟨h, rfl⟩, trivial⟩⟩

theorem bare_int (n : Int) : (Json.int n).Bare := ⟨⟨rfl, rfl⟩, trivial⟩

theorem bare_null : Json.null.Bare := ⟨⟨rfl, rfl⟩, trivial⟩

theorem bare_bool (b : Bool) : (Json.bool b).Bare := ⟨⟨rfl, rfl⟩, trivial⟩

theorem bare_list {xs : List Json} : (Json.list xs).Bare ↔ ∀ x ∈ xs, x.Bare := by
  rw [Json.Bare, loaded_list, Json.Floats, floatsList_iff]
  exact ⟨fun h x hx => ⟨h.1 x hx, h.2 x hx⟩, fun h => ⟨fun x hx => (h x hx).1, fun x hx => (h x hx).2⟩⟩

theorem bare_dict {fs : Fields} : (Json.dict fs).Bare ↔
    (fs.map Prod.fst).Nodup ∧ ∀ f ∈ fs, decodedStr f.1 = true ∧ f.2.Bare := by
  rw [Json.Bare, loaded_dict, Json.Floats, floatsFields_iff]
  exact ⟨fun h => ⟨h.1.1, fun f hf => ⟨(h.1.2 f hf).1, (h.1.2 f hf).2, h.2 f hf⟩⟩,
    fun h => ⟨⟨h.1, fun f hf => ⟨(h.2 f hf).1, (h.2 f hf).2.1⟩⟩, fun f hf => (h.2 f hf).2.2⟩⟩

theorem bare_strs {hs : List Str} : (Json.list (hs.map .str)).Bare ↔ ∀ h ∈ hs, decodedStr h = true := by
  rw [bare_list, List.forall_mem_map]
  exact ⟨fun h s hs => bare_str.mp (h s hs), fun h s hs => bare_str.mpr (h s hs)⟩

theorem norm_strs (hs : List Str) : (Json.list (hs.map .str)).norm = .list (hs.map .str) := by
  rw [Json.norm, normList_eq, List.map_map]
  rfl

/-- Different keys, none of them with surrogates. -/
def plainKeys (keys : List String) : Bool := decide (keys.map str).Nodup && keys.all fun k => decodedStr (str k)

section
variable {l : List (String × Json)}

theorem object_bare (hkeys : plainKeys (l.map Prod.fst) = true) (h : ∀ f ∈ l, f.2.Bare) : (object l).Bare := by
  rw [plainKeys, Bool.and_eq_true, decide_eq_true_eq, List.all_eq_true, List.map_map] at hkeys
  rw [object, bare_dict, List.map_map, List.forall_mem_map]
  exact ⟨hkeys.1, fun f hf => ⟨hkeys.2 _ (List.mem_map_of_mem hf), h f hf⟩⟩

theorem object_get (hkeys : plainKeys (l.map Prod.fst) = true) : ∃ d : Fields, (object l).norm = .dict d ∧
    (∀ {key v}, (key, v) ∈ l → d.get key = some v.norm) ∧ ∀ {key}, str key ∉ l.map (fun f => str f.1) → d.get key = none := by
  rw [plainKeys, Bool.and_eq_true, decide_eq_true_eq, List.map_map] at hkeys
  have hsorted : ((Lex.sortOn charKey Prod.fst (normFields (l.map fun f => (str f.1, f.2)))).map Prod.fst).Perm
      (l.map fun f => str f.1) := by
    refine ((Lex.sortOn_perm _ _ _).map Prod.fst).trans (List.Perm.of_eq ?_)
    rw [normFields_keys, List.map_map]
    rfl
  refine ⟨_, rfl, fun hmem => ?_, fun {key} hkey => ?_⟩
  · refine (lookup_iff_mem (hsorted.nodup_iff.mpr hkeys.1)).mpr (Lex.mem_sortOn.mpr ?_)
    rw [normFields_eq, List.map_map]
    exact List.mem_map.mpr ⟨_, hmem, rfl⟩
  · refine List.lookup_eq_none_iff.mpr fun f hf => ?_
    simp only [bne_iff_ne, ne_eq]
    intro heq
    exact hkey (hsorted.mem_iff.mp (heq ▸ List.mem_map_of_mem hf))

theorem object_item (hkeys : plainKeys (l.map Prod.fst) = true) {key : String} {v : Json} (h : (key, v) ∈ l) :
    (object l).norm.item key = .ok v.norm := by
  obtain ⟨d, hd, hget, -⟩ := object_get hkeys
  rw [hd, Json.item, Fields.item, hget h]

theorem object_getOr (hkeys : plainKeys (l.map Prod.fst) = true) {key : String} {v : Json} (h : (key, v) ∈ l)
    (default : Json) : (object l).norm.getOr key default = .ok v.norm := by
  obtain ⟨d, hd, hget, -⟩ := object_get hkeys
  rw [hd, Json.getOr, hget h, Option.getD_some]

theorem object_default (hkeys : plainKeys (l.map Prod.fst) = true) {key : String}
    (h : str key ∉ l.map fun f => str f.1) (default : Json) : (object l).norm.getOr key default = .ok default := by
  obtain ⟨d, hd, -, hnone⟩ := object_get hkeys
  rw [hd, Json.getOr, hnone h, Option.getD_none]

theorem object_required (hkeys : plainKeys (l.map Prod.fst) = true) : ∀ {keys : List String},
    (∀ k ∈ keys, k ∈ l.map Prod.fst) → requireKeys (object l).norm keys = .ok ()
  | [], _ => rfl
  | k :: keys, h => by
    obtain ⟨d, hd, hget, -⟩ := object_get hkeys
    obtain ⟨⟨key, v⟩, hmem, rfl⟩ := List.mem_map.mp (h k (.head _))
    have hcontains : (object l).norm.contains key = .ok true := by
      rw [hd, Json.contains, hget hmem, Option.isSome_some]
    rw [requireKeys, hcontains, ok_bind, require_of _ rfl, ok_bind, object_required hkeys fun k' hk' => h k' (.tail _ hk')]

end

section
variable {B : Builtins} {v : Json}

theorem floats_finite (h : v.Floats fun _ => False) : v.finite = true := by
  induction v using Json.induct with
  | null => rfl
  | bool b => rfl
  | int n => rfl
  | float x => exact h.elim
  | str s => rfl
  | list xs ih =>
    rw [Json.Floats, floatsList_iff] at h
    rw [Json.finite, finiteList_iff]
    exact fun x hx => ih x hx (h x hx)
  | dict fs ih =>
    rw [Json.Floats, floatsFields_iff] at h
    rw [Json.finite, finiteFields_iff]
    exact fun f hf => ih f hf (h f hf)

/-- A bare value is written, and read back as it is. -/
theorem Json.Bare.back (h : v.Bare) : ∃ b, encodePayload B.toPrimitives v = .ok b ∧
    decodePayload B.toRuntime b = .ok v.norm := by
  obtain ⟨b, hb⟩ := (dumps_ok_iff B.floatRepr v).mpr (floats_finite h.2)
  refine ⟨b, hb, ?_⟩
  have hread := loads_floats (M := B.toRuntime) floatsBack_none h.2 hb
  rwa [parsed_eq (by rw [norm_decoded]; exact h.1.1) (norm_distinct h.1.2)] at hread

end

/-! ## Values as they were checked -/

section
variable {B : Builtins}

theorem asciiStr_decoded {s : Str} (h : asciiStr s = true) : decodedStr s = true :=
  Scalars.decoded fun c hc => by
    have := of_decide_eq_true (List.all_eq_true.mp h c hc)
    simp only [isSurrogate, Bool.and_eq_false_iff, decide_eq_false_iff_not]
    omega

theorem isLowerHash_decoded {s : Str} (h : isLowerHash s = true) : decodedStr s = true := asciiStr_decoded (isLowerHash_ascii h)

theorem validateHexHash_ok {v : Json} {u : Unit} : validateHexHash v = .ok u ↔ ∃ s, v = .str s ∧ isLowerHash s = true := by
  unfold validateHexHash
  split
  · rename_i s
    rw [require_eq_ok]
    exact ⟨fun h => ⟨s, rfl, h⟩, fun ⟨_, hs, h⟩ => by cases hs; exact h⟩
  · rename_i hv
    exact iff_of_false nofun fun ⟨s, hs, _⟩ => hv s hs

theorem validateNonnegativeInt_ok {v : Json} {u : Unit} : validateNonnegativeInt v = .ok u ↔ ∃ n, v = .int n ∧ 0 ≤ n := by
  unfold validateNonnegativeInt
  split
  · rename_i n
    rw [require_eq_ok]
    exact ⟨fun h => ⟨n, rfl, h⟩, fun ⟨_, hn, h⟩ => by cases hn; exact h⟩
  · rename_i hv
    exact iff_of_false nofun fun ⟨n, hn, _⟩ => hv n hn

theorem validateHexHashes_ok : ∀ {xs : List Json} {u : Unit}, validateHexHashes xs = .ok u ↔
    ∃ hs : List Str, xs = hs.map .str ∧ ∀ h ∈ hs, isLowerHash h = true
  | [], _ => iff_of_true rfl ⟨[], rfl, nofun⟩
  | x :: xs, _ => by
    simp only [validateHexHashes, bind_eq_ok, validateHexHash_ok, @validateHexHashes_ok xs]
    constructor
    · rintro ⟨-, ⟨s, rfl, hs⟩, hs', rfl, h⟩
      exact ⟨s :: hs', rfl, List.forall_mem_cons.mpr ⟨hs, h⟩⟩
    · rintro ⟨hs, hxs, h⟩
      cases hs with
      | nil => cases hxs
      | cons s hs' =>
        obtain ⟨rfl, rfl⟩ := List.cons.inj hxs
        obtain ⟨hs, h⟩ := List.forall_mem_cons.mp h
        exact ⟨(), ⟨s, rfl, hs⟩, hs', rfl, h⟩

theorem boundedList_ok {v : Json} {bound : Nat} {text : String} {xs : List Json} :
    boundedList v bound text = .ok xs ↔ v = .list xs ∧ xs.length ≤ bound := by
  unfold boundedList
  split
  · rename_i ys
    simp only [bind_eq_ok, require_eq_ok, Except.ok.injEq, Json.list.injEq]
    exact ⟨fun ⟨_, h, hys⟩ => hys ▸ ⟨rfl, h⟩, fun ⟨hys, h⟩ => ⟨(), hys ▸ h, hys⟩⟩
  · rename_i hv
    refine iff_of_false (fun h => ?_) fun h => hv xs h.1
    obtain ⟨n, -, h⟩ := bind_eq_ok.mp h
    cases h

/-- `str` of strings. -/
theorem pyStr_strs (hs : List Str) : (hs.map Json.str).map (pyStr B) = hs := by
  rw [List.map_map]
  exact List.map_id hs

theorem pyStr_decoded (hB : B.PlainText) {v : Json} (h : v.Loaded) : decodedStr (pyStr B v) = true := by
  unfold pyStr
  split
  · exact h.1
  · exact (hB _).decoded

/-- What is under a key of a loaded object. -/
theorem Json.Loaded.item {obj v : Json} {key : String} (h : obj.Loaded) (hv : obj.item key = .ok v) : v.Loaded := by
  unfold Json.item Fields.item at hv
  split at hv
  · rename_i d
    split at hv
    · rename_i w hw
      cases hv
      exact ((loaded_dict.mp h).2 _ ((lookup_iff_mem (loaded_dict.mp h).1).mp hw)).2
    · cases hv
  · cases hv

theorem Json.Loaded.getOr {obj default v : Json} {key : String} (h : obj.Loaded) (hdefault : default.Loaded)
    (hv : obj.getOr key default = .ok v) : v.Loaded := by
  unfold Json.getOr at hv
  split at hv
  · rename_i d
    cases hv
    cases hw : Fields.get d key with
    | none => exact hdefault
    | some w => exact ((loaded_dict.mp h).2 _ ((lookup_iff_mem (loaded_dict.mp h).1).mp hw)).2
  · cases hv

end

end ChainBreaker
