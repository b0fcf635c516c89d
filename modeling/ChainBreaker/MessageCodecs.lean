import ChainBreaker.TypedMessages

/-!
# Typed messages survive the wire

Every class of message reads its own payload back (`messages_survive`). A message
that was read has strings as a JSON decoder yields them, and numbers and hashes that have been
checked; what it writes is read back field by field. The envelope around it is
a frame in both directions.
-/

namespace ChainBreaker

open Fallible

/-! ## Codecs -/

section
variable {B : Builtins}

/-- How a class of messages goes to a payload and back: `reread` is what is read for a message that
was read before. -/
structure PayloadClass.Codec (C : PayloadClass B) where
  toJson : C.Message → Json
  Sound : C.Message → Prop
  reread : C.Message → C.Message
  writes : ∀ m, C.toPayload m = encodePayload B.toPrimitives (toJson m)
  sound : ∀ {payload m}, C.fromPayload payload = .ok m → Sound m
  bare : ∀ {m}, Sound m → (toJson m).Bare
  back : ∀ {m b}, Sound m → decodePayload B.toRuntime b = .ok (toJson m).norm → C.fromPayload b = .ok (reread m)
  same : ∀ {m}, Sound m → C.same (reread m) m
  again : ∀ {m}, Sound m → (toJson (reread m)).norm = (toJson m).norm

theorem PayloadClass.Codec.survives {C : PayloadClass B} (K : C.Codec) : C.Survives := by
  intro payload m h
  have hsound := K.sound h
  obtain ⟨b, hb, hread⟩ := (K.bare hsound).back (B := B)
  refine ⟨b, K.reread m, by rw [K.writes, hb], K.back hsound hread, K.same hsound, ?_⟩
  rw [K.writes]
  exact canonicalJson_norm (K.again hsound).symm hb

theorem decodePayload_loaded {payload : Bytes} {obj : Json} (h : decodePayload B.toRuntime payload = .ok obj) :
    obj.Loaded := loads_sound h

/-! ## PING and PONG -/

theorem nonce_keys : plainKeys (([("nonce", .null)] : List (String × Json)).map Prod.fst) = true := by decide

theorem readNonce_ok {payload : Bytes} {n : Int} (h : readNonce B payload = .ok n) : 0 ≤ n := by
  simp only [readNonce, bind_eq_ok, validateNonnegativeInt_ok] at h
  obtain ⟨_, -, _, -, _, -, _, ⟨k, rfl, hk⟩, h⟩ := h
  cases h
  exact hk

theorem readNonce_back {b : Bytes} {n : Int} (hn : 0 ≤ n)
    (h : decodePayload B.toRuntime b = .ok (object [("nonce", .int n)]).norm) : readNonce B b = .ok n := by
  have hkeys : plainKeys ([("nonce", Json.int n)].map Prod.fst) = true := nonce_keys
  have hitem : (object [("nonce", .int n)]).norm.item "nonce" = .ok (.int n) := object_item hkeys (.head _)
  rw [readNonce, h, ok_bind, object_required hkeys (List.forall_mem_singleton.mpr (.head _)), ok_bind, hitem, ok_bind,
    validateNonnegativeInt, require_of _ hn, ok_bind]
  rfl

theorem nonce_bare (n : Int) : (object [("nonce", .int n)]).Bare :=
  object_bare nonce_keys (List.forall_mem_singleton.mpr (bare_int n))

def pingCodec : (⟨PingMessage, PingMessage.toPayload B.toPrimitives, PingMessage.fromPayload B, Eq⟩ : PayloadClass B).Codec where
  toJson m := object [("nonce", .int m.nonce)]
  Sound m := 0 ≤ m.nonce
  reread m := m
  writes _ := rfl
  sound h := by
    obtain ⟨n, hn, rfl⟩ := map_eq_ok.mp h
    exact readNonce_ok hn
  bare _ := nonce_bare _
  back hm h := map_eq_ok.mpr ⟨_, readNonce_back hm h, rfl⟩
  same _ := rfl
  again _ := rfl

def pongCodec : (⟨PongMessage, PongMessage.toPayload B.toPrimitives, PongMessage.fromPayload B, Eq⟩ : PayloadClass B).Codec where
  toJson m := object [("nonce", .int m.nonce)]
  Sound m := 0 ≤ m.nonce
  reread m := m
  writes _ := rfl
  sound h := by
    obtain ⟨n, hn, rfl⟩ := map_eq_ok.mp h
    exact readNonce_ok hn
  bare _ := nonce_bare _
  back hm h := map_eq_ok.mpr ⟨_, readNonce_back hm h, rfl⟩
  same _ := rfl
  again _ := rfl

/-! ## GET_ARCHIVE and ARCHIVE -/

theorem contentHash_keys : plainKeys (([("content_hash", .null)] : List (String × Json)).map Prod.fst) = true := by decide

theorem readContentHash_ok {payload : Bytes} {hash : Str} (h : readContentHash B payload = .ok hash) :
    isLowerHash hash = true := by
  simp only [readContentHash, bind_eq_ok, validateHexHash_ok] at h
  obtain ⟨_, -, _, -, _, -, _, ⟨s, rfl, hs⟩, h⟩ := h
  cases h
  exact hs

theorem readContentHash_back {b : Bytes} {hash : Str} (hhash : isLowerHash hash = true)
    (h : decodePayload B.toRuntime b = .ok (object [("content_hash", .str hash)]).norm) : readContentHash B b = .ok hash := by
  have hkeys : plainKeys ([("content_hash", Json.str hash)].map Prod.fst) = true := contentHash_keys
  have hitem : (object [("content_hash", .str hash)]).norm.item "content_hash" = .ok (.str hash) :=
    object_item hkeys (.head _)
  rw [readContentHash, h, ok_bind, object_required hkeys (List.forall_mem_singleton.mpr (.head _)), ok_bind, hitem, ok_bind,
    validateHexHash, require_of _ hhash, ok_bind]
  rfl

theorem contentHash_bare {hash : Str} (h : isLowerHash hash = true) : (object [("content_hash", .str hash)]).Bare :=
  object_bare contentHash_keys (List.forall_mem_singleton.mpr (bare_str.mpr (isLowerHash_decoded h)))

def getArchiveCodec : (⟨GetArchiveMessage, GetArchiveMessage.toPayload B.toPrimitives, GetArchiveMessage.fromPayload B, Eq⟩ :
    PayloadClass B).Codec where
  toJson m := object [("content_hash", .str m.contentHash)]
  Sound m := isLowerHash m.contentHash = true
  reread m := m
  writes _ := rfl
  sound h := by
    obtain ⟨hash, hhash, rfl⟩ := map_eq_ok.mp h
    exact readContentHash_ok hhash
  bare hm := contentHash_bare hm
  back hm h := map_eq_ok.mpr ⟨_, readContentHash_back hm h, rfl⟩
  same _ := rfl
  again _ := rfl

def archiveCodec : (⟨ArchiveMessage, ArchiveMessage.toPayload B.toPrimitives, ArchiveMessage.fromPayload B, Eq⟩ :
    PayloadClass B).Codec where
  toJson m := object [("content_hash", .str m.contentHash)]
  Sound m := isLowerHash m.contentHash = true
  reread m := m
  writes _ := rfl
  sound h := by
    obtain ⟨hash, hhash, rfl⟩ := map_eq_ok.mp h
    exact readContentHash_ok hhash
  bare hm := contentHash_bare hm
  back hm h := map_eq_ok.mpr ⟨_, readContentHash_back hm h, rfl⟩
  same _ := rfl
  again _ := rfl

end

/-! ## Lists of hashes -/

section
variable {B : Builtins}

/-- A list of hashes that was read. -/
def HashesUpTo (bound : Nat) (hashes : List Str) : Prop := hashes.length ≤ bound ∧ ∀ h ∈ hashes, isLowerHash h = true

section
variable {bound : Nat} {text : String}

theorem hashes_ok {v : Json} {xs : List Json} {u : Unit} (h : boundedList v bound text = .ok xs)
    (hxs : validateHexHashes xs = .ok u) : HashesUpTo bound (xs.map (pyStr B)) := by
  obtain ⟨-, hlen⟩ := boundedList_ok.mp h
  obtain ⟨hs, rfl, hlower⟩ := validateHexHashes_ok.mp hxs
  rw [List.length_map] at hlen
  rw [pyStr_strs]
  exact ⟨hlen, hlower⟩

variable {hashes : List Str}

theorem HashesUpTo.bare (h : HashesUpTo bound hashes) : (Json.list (hashes.map .str)).Bare :=
  bare_strs.mpr fun x hx => isLowerHash_decoded (h.2 x hx)

theorem HashesUpTo.bounded (h : HashesUpTo bound hashes) :
    boundedList (.list (hashes.map .str)) bound text = .ok (hashes.map .str) :=
  boundedList_ok.mpr ⟨rfl, by rw [List.length_map]; exact h.1⟩

theorem HashesUpTo.valid (h : HashesUpTo bound hashes) : validateHexHashes (hashes.map .str) = .ok () :=
  validateHexHashes_ok.mpr ⟨hashes, rfl, h.2⟩

end

/-! ## INVENTORY and GET_DATA -/

def typedHashes (type : Str) (hashes : List Str) : Json := object [("type", .str type), ("hashes", .list (hashes.map .str))]

theorem typed_keys : plainKeys (([("type", .null), ("hashes", .null)] : List (String × Json)).map Prod.fst) = true := by decide

theorem typedHashes_type (type : Str) (hashes : List Str) (default : Json) :
    (typedHashes type hashes).norm.getOr "type" default = .ok (.str type) :=
  object_getOr (l := [("type", .str type), ("hashes", .list (hashes.map .str))]) typed_keys (.head _) default

theorem typedHashes_hashes (type : Str) (hashes : List Str) (default : Json) :
    (typedHashes type hashes).norm.getOr "hashes" default = .ok (.list (hashes.map .str)) := by
  have hget := object_getOr (l := [("type", .str type), ("hashes", .list (hashes.map .str))]) typed_keys
    (.tail _ (.head _)) default
  rwa [norm_strs] at hget

theorem typedHashes_bare {type : Str} {hashes : List Str} (htype : decodedStr type = true)
    (h : HashesUpTo MAX_INVENTORY_ENTRIES hashes) : (typedHashes type hashes).Bare :=
  object_bare typed_keys (List.forall_mem_cons.mpr ⟨bare_str.mpr htype, List.forall_mem_singleton.mpr h.bare⟩)

/-- The types of an inventory are written as they are. -/
theorem type_decoded : ∀ t ∈ ["headers", "blocks", "archive", "transactions"].map str, decodedStr t = true := by decide

structure InventoryMessage.Sound (m : InventoryMessage) : Prop where
  invType : m.invType ∈ ["headers", "blocks", "archive", "transactions"].map str
  hashes : HashesUpTo MAX_INVENTORY_ENTRIES m.hashes

theorem InventoryMessage.Sound.back {m : InventoryMessage} {b : Bytes} (hm : m.Sound)
    (h : decodePayload B.toRuntime b = .ok (typedHashes m.invType m.hashes).norm) :
    InventoryMessage.fromPayload B b = .ok m := by
  have htype : pyStr B (.str m.invType) ∈ ["headers", "blocks", "archive", "transactions"].map str := hm.invType
  rw [InventoryMessage.fromPayload, h, ok_bind, typedHashes_type, ok_bind, require_of _ htype, ok_bind, typedHashes_hashes,
    ok_bind, hm.hashes.bounded, ok_bind, hm.hashes.valid, ok_bind, pyStr_strs]
  rfl

def inventoryCodec : (⟨InventoryMessage, InventoryMessage.toPayload B.toPrimitives, InventoryMessage.fromPayload B, Eq⟩ :
    PayloadClass B).Codec where
  toJson m := typedHashes m.invType m.hashes
  Sound := InventoryMessage.Sound
  reread m := m
  writes _ := rfl
  sound h := by
    simp only [InventoryMessage.fromPayload, bind_eq_ok, require_eq_ok] at h
    obtain ⟨_, -, _, -, _, htype, _, -, _, hbounded, _, hvalid, h⟩ := h
    cases h
    exact ⟨htype, hashes_ok hbounded hvalid⟩
  bare hm := typedHashes_bare (type_decoded _ hm.1) hm.2
  back := InventoryMessage.Sound.back
  same _ := rfl
  again _ := rfl

structure GetDataMessage.Sound (m : GetDataMessage) : Prop where
  dataType : m.dataType ∈ ["headers", "blocks", "archive", "transactions"].map str
  hashes : HashesUpTo MAX_INVENTORY_ENTRIES m.hashes

theorem GetDataMessage.Sound.back {m : GetDataMessage} {b : Bytes} (hm : m.Sound)
    (h : decodePayload B.toRuntime b = .ok (typedHashes m.dataType m.hashes).norm) :
    GetDataMessage.fromPayload B b = .ok m := by
  have htype : pyStr B (.str m.dataType) ∈ ["headers", "blocks", "archive", "transactions"].map str := hm.dataType
  rw [GetDataMessage.fromPayload, h, ok_bind, typedHashes_type, ok_bind, require_of _ htype, ok_bind, typedHashes_hashes,
    ok_bind, hm.hashes.bounded, ok_bind, hm.hashes.valid, ok_bind, pyStr_strs]
  rfl

def getDataCodec : (⟨GetDataMessage, GetDataMessage.toPayload B.toPrimitives, GetDataMessage.fromPayload B, Eq⟩ :
    PayloadClass B).Codec where
  toJson m := typedHashes m.dataType m.hashes
  Sound := GetDataMessage.Sound
  reread m := m
  writes _ := rfl
  sound h := by
    simp only [GetDataMessage.fromPayload, bind_eq_ok, require_eq_ok] at h
    obtain ⟨_, -, _, -, _, htype, _, -, _, hbounded, _, hvalid, h⟩ := h
    cases h
    exact ⟨htype, hashes_ok hbounded hvalid⟩
  bare hm := typedHashes_bare (type_decoded _ hm.1) hm.2
  back := GetDataMessage.Sound.back
  same _ := rfl
  again _ := rfl

/-! ## GET_HEADERS and GET_BLOCK -/

def GetHeadersMessage.stopJson (m : GetHeadersMessage) : Json :=
  match m.stopHash with
  | some h => .str h
  | none => .null

def GetHeadersMessage.fields (m : GetHeadersMessage) : List (String × Json) :=
  [("start_hashes", .list (m.startHashes.map .str)), ("stop_hash", m.stopJson), ("max_count", .int m.maxCount)]

structure GetHeadersMessage.Sound (m : GetHeadersMessage) : Prop where
  startHashes : HashesUpTo MAX_LOCATOR_SIZE m.startHashes
  stopHash : ∀ h, m.stopHash = some h → isLowerHash h = true
  maxCount : 0 < m.maxCount ∧ m.maxCount ≤ MAX_HEADERS_RESPONSE

theorem readStopHash_ok {v : Json} {stop : Option Str} (h : readStopHash B v = .ok stop) :
    ∀ s, stop = some s → isLowerHash s = true := by
  unfold readStopHash at h
  split at h
  · cases h
    exact nofun
  · simp only [bind_eq_ok, validateHexHash_ok] at h
    obtain ⟨_, ⟨s, rfl, hs⟩, h⟩ := h
    cases h
    intro s' hs'
    cases hs'
    exact hs

theorem getHeaders_keys (m : GetHeadersMessage) : plainKeys (m.fields.map Prod.fst) = true := by
  change plainKeys ["start_hashes", "stop_hash", "max_count"] = true
  decide

theorem stopJson_norm (m : GetHeadersMessage) : m.stopJson.norm = m.stopJson := by
  unfold GetHeadersMessage.stopJson
  split <;> rfl

theorem GetHeadersMessage.Sound.stop {m : GetHeadersMessage} (h : m.Sound) : readStopHash B m.stopJson = .ok m.stopHash := by
  unfold GetHeadersMessage.stopJson
  split
  · rename_i hash hstop
    rw [readStopHash, validateHexHash, require_of _ (h.stopHash hash hstop), ok_bind, hstop]
    · rfl
    · rintro ⟨⟩
  · rename_i hstop
    rw [hstop]
    rfl

theorem GetHeadersMessage.Sound.bare {m : GetHeadersMessage} (h : m.Sound) : (object m.fields).Bare := by
  refine object_bare (getHeaders_keys m) ?_
  have hstop : m.stopJson.Bare := by
    unfold GetHeadersMessage.stopJson
    split
    · rename_i hash hstop
      exact bare_str.mpr (isLowerHash_decoded (h.stopHash hash hstop))
    · exact bare_null
  exact List.forall_mem_cons.mpr ⟨h.startHashes.bare, List.forall_mem_cons.mpr ⟨hstop,
    List.forall_mem_singleton.mpr (bare_int _)⟩⟩

theorem GetHeadersMessage.Sound.back {m : GetHeadersMessage} {b : Bytes} (h : m.Sound)
    (hb : decodePayload B.toRuntime b = .ok (object m.fields).norm) : GetHeadersMessage.fromPayload B b = .ok m := by
  have hstart := object_getOr (getHeaders_keys m) (.head _) (.list [])
  have hstop := object_getOr (getHeaders_keys m) (.tail _ (.head _)) .null
  have hcount : (object m.fields).norm.getOr "max_count" (.int 0) = .ok (.int m.maxCount) :=
    object_getOr (getHeaders_keys m) (.tail _ (.tail _ (.head _))) _
  rw [norm_strs] at hstart
  rw [stopJson_norm] at hstop
  rw [GetHeadersMessage.fromPayload, hb, ok_bind, hstart, ok_bind, h.startHashes.bounded, ok_bind, h.startHashes.valid, ok_bind,
    hstop, ok_bind, h.stop, ok_bind, hcount, ok_bind, pyInt, ok_bind, require_of _ h.maxCount, ok_bind, pyStr_strs]

def getHeadersCodec : (⟨GetHeadersMessage, GetHeadersMessage.toPayload B.toPrimitives, GetHeadersMessage.fromPayload B, Eq⟩ :
    PayloadClass B).Codec where
  toJson m := object m.fields
  Sound := GetHeadersMessage.Sound
  reread m := m
  writes _ := rfl
  sound h := by
    simp only [GetHeadersMessage.fromPayload, bind_eq_ok, require_eq_ok] at h
    obtain ⟨_, -, _, -, _, hbounded, _, hvalid, _, -, _, hstop, _, -, _, -, _, hcount, h⟩ := h
    cases h
    exact ⟨hashes_ok hbounded hvalid, readStopHash_ok hstop, hcount⟩
  bare := GetHeadersMessage.Sound.bare
  back := GetHeadersMessage.Sound.back
  same _ := rfl
  again _ := rfl

structure GetBlockMessage.Sound (m : GetBlockMessage) : Prop where
  hashes : HashesUpTo MAX_BLOCKS_RESPONSE m.hashes
  maxTotalBytes : 0 < m.maxTotalBytes

def GetBlockMessage.fields (m : GetBlockMessage) : List (String × Json) :=
  [("hashes", .list (m.hashes.map .str)), ("max_total_bytes", .int m.maxTotalBytes)]

theorem getBlock_keys (m : GetBlockMessage) : plainKeys (m.fields.map Prod.fst) = true := by
  change plainKeys ["hashes", "max_total_bytes"] = true
  decide

theorem GetBlockMessage.Sound.back {m : GetBlockMessage} {b : Bytes} (hm : m.Sound)
    (h : decodePayload B.toRuntime b = .ok (object m.fields).norm) : GetBlockMessage.fromPayload B b = .ok m := by
  have hhashes := object_getOr (getBlock_keys m) (.head _) (.list [])
  have hbytes : (object m.fields).norm.getOr "max_total_bytes" (.int 0) = .ok (.int m.maxTotalBytes) :=
    object_getOr (getBlock_keys m) (.tail _ (.head _)) _
  rw [norm_strs] at hhashes
  rw [GetBlockMessage.fromPayload, h, ok_bind, hhashes, ok_bind, hm.hashes.bounded, ok_bind, hm.hashes.valid, ok_bind, hbytes,
    ok_bind, pyInt, ok_bind, require_of _ hm.maxTotalBytes, ok_bind, pyStr_strs]

def getBlockCodec : (⟨GetBlockMessage, GetBlockMessage.toPayload B.toPrimitives, GetBlockMessage.fromPayload B, Eq⟩ :
    PayloadClass B).Codec where
  toJson m := object m.fields
  Sound := GetBlockMessage.Sound
  reread m := m
  writes _ := rfl
  sound h := by
    simp only [GetBlockMessage.fromPayload, bind_eq_ok, require_eq_ok] at h
    obtain ⟨_, -, _, -, _, hbounded, _, hvalid, _, -, _, -, _, hbytes, h⟩ := h
    cases h
    exact ⟨hashes_ok hbounded hvalid, hbytes⟩
  bare hm := object_bare (getBlock_keys _) (List.forall_mem_cons.mpr ⟨hm.hashes.bare, List.forall_mem_singleton.mpr (bare_int _)⟩)
  back := GetBlockMessage.Sound.back
  same _ := rfl
  again _ := rfl

end

/-! ## HEADERS and BLOCK -/

section
variable {B : Builtins}

/-- An object with a list of objects under one key. -/
def listed {α : Type} (key : String) (toJson : α → Json) (xs : List α) : Json := object [(key, .list (xs.map toJson))]

section
variable {α : Type} {key : String} {toJson : α → Json} {xs : List α}

theorem listed_bare (hkey : plainKeys [key] = true) (h : ∀ x ∈ xs, (toJson x).Bare) : (listed key toJson xs).Bare :=
  object_bare hkey (List.forall_mem_singleton.mpr (bare_list.mpr (List.forall_mem_map.mpr h)))

theorem listed_getOr (hkey : plainKeys [key] = true) :
    (listed key toJson xs).norm.getOr key (.list []) = .ok (.list (xs.map fun x => (toJson x).norm)) := by
  have hget := object_getOr (l := [(key, .list (xs.map toJson))]) hkey (.head _) (.list [])
  rw [Json.norm, normList_eq, List.map_map] at hget
  exact hget

end

/-- An entry of HEADERS that was read. -/
structure HeaderEntry.Checked (e : HeaderEntry) : Prop where
  height : 0 ≤ e.height
  hash : isLowerHash e.hash = true
  headerBytes : decodedStr e.headerBytes = true

theorem HeaderEntry.read_ok {v : Json} {e : HeaderEntry} (hv : v.Loaded) (h : HeaderEntry.read B v = .ok e) : e.Checked := by
  simp only [HeaderEntry.read, bind_eq_ok, validateHexHash_ok, validateNonnegativeInt_ok] at h
  obtain ⟨_, -, _, ⟨hash, rfl, hhash⟩, _, -, _, ⟨height, rfl, hheight⟩, bytes, hbytes, h⟩ := h
  have hloaded : bytes.Loaded := hv.getOr ⟨rfl, rfl⟩ hbytes
  cases bytes with
  | str headerBytes =>
    cases h
    exact ⟨hheight, hhash, hloaded.1⟩
  | _ => cases h

def HeaderEntry.fields (e : HeaderEntry) : List (String × Json) :=
  [("height", .int e.height), ("hash", .str e.hash), ("header_bytes", .str e.headerBytes)]

theorem headerEntry_keys : plainKeys ["height", "hash", "header_bytes"] = true := by decide

theorem HeaderEntry.Checked.bare {e : HeaderEntry} (h : e.Checked) : e.toJson.Bare := by
  have hbare : (object e.fields).Bare := object_bare headerEntry_keys (List.forall_mem_cons.mpr ⟨bare_int _,
    List.forall_mem_cons.mpr ⟨bare_str.mpr (isLowerHash_decoded h.hash),
      List.forall_mem_singleton.mpr (bare_str.mpr h.headerBytes)⟩⟩)
  exact hbare

/-- HEADERS as it is read: so many entries, each of them checked. -/
structure HeadersMessage.Sound (m : HeadersMessage) : Prop where
  length : m.headers.length ≤ MAX_HEADERS_RESPONSE
  headers : ∀ e ∈ m.headers, e.Checked

theorem collect_length_eq {α β : Type} {f : α → Except PyErr β} {xs : List α} {ys : List β} (h : collect f xs = .ok ys) :
    xs.length = ys.length := (collect_eq_ok.mp h).length_eq

theorem HeadersMessage.fromPayload_sound {payload : Bytes} {m : HeadersMessage}
    (h : HeadersMessage.fromPayload B payload = .ok m) : m.Sound := by
  simp only [HeadersMessage.fromPayload, bind_eq_ok, boundedList_ok] at h
  obtain ⟨obj, hobj, _, hget, xs, ⟨rfl, hlen⟩, entries, hentries, h⟩ := h
  cases h
  have hxs := loaded_list.mp ((decodePayload_loaded hobj).getOr ⟨rfl, rfl⟩ hget)
  constructor
  · rwa [← collect_length_eq hentries]
  · intro e he
    obtain ⟨x, hx, hxe⟩ := collect_results hentries e he
    exact HeaderEntry.read_ok (hxs x hx) hxe

theorem HeadersMessage.Sound.back {m : HeadersMessage} {b : Bytes} (hm : m.Sound)
    (h : decodePayload B.toRuntime b = .ok (listed "headers" HeaderEntry.toJson m.headers).norm) :
    HeadersMessage.fromPayload B b = .ok m := by
  have hread : collect (HeaderEntry.read B) (m.headers.map fun e => e.toJson.norm) = .ok m.headers :=
    collect_eq_ok.mpr (List.forall₂_map_left_iff.mpr (List.forall₂_same.mpr fun e he =>
      HeaderEntry.read_norm (hm.headers e he).height (hm.headers e he).hash))
  rw [HeadersMessage.fromPayload, h, ok_bind, listed_getOr (by decide), ok_bind,
    boundedList_ok.mpr ⟨rfl, by rw [List.length_map]; exact hm.length⟩, ok_bind, hread, ok_bind]

def headersCodec : (⟨HeadersMessage, HeadersMessage.toPayload B.toPrimitives, HeadersMessage.fromPayload B, Eq⟩ :
    PayloadClass B).Codec where
  toJson m := listed "headers" HeaderEntry.toJson m.headers
  Sound := HeadersMessage.Sound
  reread m := m
  writes _ := rfl
  sound := HeadersMessage.fromPayload_sound
  bare hm := listed_bare (by decide) fun e he => (hm.headers e he).bare
  back := HeadersMessage.Sound.back
  same _ := rfl
  again _ := rfl

/-- An entry of BLOCK that was read. -/
structure BlockEntry.Checked (b : BlockEntry) : Prop where
  hash : isLowerHash b.hash = true
  blockBytes : decodedStr b.blockBytes = true

theorem BlockEntry.check_ok {v : Json} {u : Unit} (h : BlockEntry.check v = .ok u) :
    ∃ s, v.item "hash" = .ok (.str s) ∧ isLowerHash s = true := by
  rw [BlockEntry.check] at h
  obtain ⟨hasHash, -, h⟩ := bind_eq_ok.mp h
  split at h
  all_goals
    simp only [bind_eq_ok, validateHexHash_ok] at h
    obtain ⟨_, -, _, -, _, hitem, s, rfl, hs⟩ := h
    exact ⟨s, hitem, hs⟩

theorem BlockEntry.read_ok (hB : B.PlainText) {v : Json} {b : BlockEntry} {u : Unit} (hv : v.Loaded)
    (hcheck : BlockEntry.check v = .ok u) (h : BlockEntry.read B v = .ok b) : b.Checked := by
  obtain ⟨s, hitem, hs⟩ := BlockEntry.check_ok hcheck
  simp only [BlockEntry.read, bind_eq_ok, hitem, Except.ok.injEq, exists_eq_left'] at h
  obtain ⟨bytes, hbytes, rfl⟩ := h
  exact ⟨hs, pyStr_decoded hB (hv.item hbytes)⟩

def BlockEntry.fields (b : BlockEntry) : List (String × Json) := [("hash", .str b.hash), ("block_bytes", .str b.blockBytes)]

theorem blockEntry_keys : plainKeys ["hash", "block_bytes"] = true := by decide

theorem BlockEntry.Checked.bare {b : BlockEntry} (h : b.Checked) : b.toJson.Bare := by
  have hbare : (object b.fields).Bare := object_bare blockEntry_keys (List.forall_mem_cons.mpr
    ⟨bare_str.mpr (isLowerHash_decoded h.hash), List.forall_mem_singleton.mpr (bare_str.mpr h.blockBytes)⟩)
  exact hbare

structure BlockMessage.Sound (m : BlockMessage) : Prop where
  length : m.blocks.length ≤ MAX_BLOCKS_RESPONSE
  blocks : ∀ b ∈ m.blocks, b.Checked

theorem BlockMessage.fromPayload_sound (hB : B.PlainText) {payload : Bytes} {m : BlockMessage}
    (h : BlockMessage.fromPayload B payload = .ok m) : m.Sound := by
  simp only [BlockMessage.fromPayload, bind_eq_ok, boundedList_ok] at h
  obtain ⟨obj, hobj, _, hget, xs, ⟨rfl, hlen⟩, _, hchecks, entries, hentries, h⟩ := h
  cases h
  have hxs := loaded_list.mp ((decodePayload_loaded hobj).getOr ⟨rfl, rfl⟩ hget)
  constructor
  · rwa [← collect_length_eq hentries]
  · intro b hb
    obtain ⟨x, hx, hxb⟩ := collect_results hentries b hb
    obtain ⟨u, hu⟩ := collect_mem hchecks x hx
    exact BlockEntry.read_ok hB (hxs x hx) hu hxb

theorem BlockMessage.Sound.back {m : BlockMessage} {b : Bytes} (hm : m.Sound)
    (h : decodePayload B.toRuntime b = .ok (listed "blocks" BlockEntry.toJson m.blocks).norm) :
    BlockMessage.fromPayload B b = .ok m := by
  have hcheck : collect BlockEntry.check (m.blocks.map fun b => b.toJson.norm) = .ok (m.blocks.map fun _ => ()) :=
    collect_eq_ok.mpr (List.forall₂_map_left_iff.mpr (List.forall₂_map_right_iff.mpr
      (List.forall₂_same.mpr fun b hb => BlockEntry.check_norm (hm.blocks b hb).hash)))
  have hread : collect (BlockEntry.read B) (m.blocks.map fun b => b.toJson.norm) = .ok m.blocks :=
    collect_eq_ok.mpr (List.forall₂_map_left_iff.mpr (List.forall₂_same.mpr fun _ _ => rfl))
  rw [BlockMessage.fromPayload, h, ok_bind, listed_getOr (by decide), ok_bind,
    boundedList_ok.mpr ⟨rfl, by rw [List.length_map]; exact hm.length⟩, ok_bind, hcheck, ok_bind, hread, ok_bind]

def blockCodec (hB : B.PlainText) :
    (⟨BlockMessage, BlockMessage.toPayload B.toPrimitives, BlockMessage.fromPayload B, Eq⟩ : PayloadClass B).Codec where
  toJson m := listed "blocks" BlockEntry.toJson m.blocks
  Sound := BlockMessage.Sound
  reread m := m
  writes _ := rfl
  sound := BlockMessage.fromPayload_sound hB
  bare hm := listed_bare (by decide) fun b hb => (hm.blocks b hb).bare
  back := BlockMessage.Sound.back
  same _ := rfl
  again _ := rfl

/-! ## REJECT -/

def RejectMessage.fields (m : RejectMessage) : List (String × Json) :=
  [("code", .str m.code), ("reason", .str m.reason)] ++
    match m.offendingMessageType with
    | some t => [("offending_message_type", .int t)]
    | none => []

structure RejectMessage.Sound (m : RejectMessage) : Prop where
  code : decodedStr m.code = true
  reason : decodedStr m.reason = true

theorem reject_keys (m : RejectMessage) : plainKeys (m.fields.map Prod.fst) = true := by
  unfold RejectMessage.fields
  split
  · change plainKeys ["code", "reason", "offending_message_type"] = true
    decide
  · change plainKeys ["code", "reason"] = true
    decide

theorem RejectMessage.Sound.bare {m : RejectMessage} (h : m.Sound) : (object m.fields).Bare := by
  refine object_bare (reject_keys m) fun f hf => ?_
  rcases List.mem_append.mp hf with hf | hf
  · simp only [List.mem_cons, List.not_mem_nil, or_false] at hf
    rcases hf with rfl | rfl
    · exact bare_str.mpr h.code
    · exact bare_str.mpr h.reason
  · split at hf
    · obtain rfl := List.mem_singleton.mp hf
      exact bare_int _
    · cases hf

theorem RejectMessage.offending (m : RejectMessage) : ∃ v, (object m.fields).norm.getOr "offending_message_type" .null = .ok v ∧
    optionalInt v = .ok m.offendingMessageType := by
  cases hm : m.offendingMessageType with
  | some t =>
    have hfields : m.fields = [("code", .str m.code), ("reason", .str m.reason), ("offending_message_type", .int t)] := by
      rw [RejectMessage.fields, hm]
      rfl
    refine ⟨(Json.int t).norm, object_getOr (reject_keys m) ?_ _, rfl⟩
    rw [hfields]
    exact .tail _ (.tail _ (.head _))
  | none =>
    have hfields : m.fields = [("code", .str m.code), ("reason", .str m.reason)] := by
      rw [RejectMessage.fields, hm]
      rfl
    refine ⟨.null, object_default (reject_keys m) ?_ _, rfl⟩
    rw [hfields]
    change str "offending_message_type" ∉ ["code", "reason"].map str
    decide

theorem RejectMessage.Sound.back {m : RejectMessage} {b : Bytes}
    (h : decodePayload B.toRuntime b = .ok (object m.fields).norm) : RejectMessage.fromPayload B b = .ok m := by
  have hcode : ("code", Json.str m.code) ∈ m.fields := .head _
  have hreason : ("reason", Json.str m.reason) ∈ m.fields := .tail _ (.head _)
  have hkeys : ∀ k ∈ ["code", "reason"], k ∈ m.fields.map Prod.fst :=
    List.forall_mem_cons.mpr ⟨List.mem_map_of_mem hcode, List.forall_mem_singleton.mpr (List.mem_map_of_mem hreason)⟩
  obtain ⟨v, hv, hoffending⟩ := m.offending
  rw [RejectMessage.fromPayload, h, ok_bind, object_required (reject_keys m) hkeys, ok_bind, hv, ok_bind,
    object_item (reject_keys m) hcode, ok_bind, object_item (reject_keys m) hreason, ok_bind, hoffending, ok_bind]
  rfl

def rejectCodec (hB : B.PlainText) :
    (⟨RejectMessage, RejectMessage.toPayload B.toPrimitives, RejectMessage.fromPayload B, Eq⟩ : PayloadClass B).Codec where
  toJson m := object m.fields
  Sound := RejectMessage.Sound
  reread m := m
  writes _ := rfl
  sound h := by
    simp only [RejectMessage.fromPayload, bind_eq_ok] at h
    obtain ⟨obj, hobj, _, -, _, -, code, hcode, reason, hreason, _, -, h⟩ := h
    cases h
    have hloaded := decodePayload_loaded hobj
    exact ⟨pyStr_decoded hB (hloaded.item hcode), pyStr_decoded hB (hloaded.item hreason)⟩
  bare := RejectMessage.Sound.bare
  back _ := RejectMessage.Sound.back
  same _ := rfl
  again _ := rfl

end

/-! ## HELLO and HELLO_ACK -/

section
variable {B : Builtins}

structure HelloMessage.Sound (m : HelloMessage) : Prop where
  networkId : decodedStr m.networkId = true
  genesisHash : isLowerHash m.genesisHash = true
  bestHeight : 0 ≤ m.bestHeight
  bestChainWork : isLowerHash m.bestChainWork = true
  featureBits : ∀ b ∈ m.featureBits, decodedStr b = true
  limitNames : (m.nodeLimits.map Prod.fst).Nodup
  nodeLimits : ∀ f ∈ m.nodeLimits, decodedStr f.1 = true

/-- What is read for a HELLO: features and limits are sorted. -/
def HelloMessage.reread (m : HelloMessage) : HelloMessage :=
  { m with featureBits := sortStrs m.featureBits, nodeLimits := Lex.sortOn charKey Prod.fst m.nodeLimits }

theorem Json.Loaded.iter {v : Json} {xs : List Json} (h : v.Loaded) (hv : v.iter = .ok xs) : ∀ x ∈ xs, x.Loaded := by
  unfold Json.iter at hv
  split at hv
  · cases hv
    exact loaded_list.mp h
  · cases hv
    exact List.forall_mem_map.mpr fun _ _ => ⟨rfl, rfl⟩
  · cases hv
    exact List.forall_mem_map.mpr fun f hf => ⟨((loaded_dict.mp h).2 f hf).1, rfl⟩
  · cases hv

theorem Json.items_ok {v : Json} {fs : Fields} (h : v.items = .ok fs) : v = .dict fs := by
  unfold Json.items at h
  split at h
  · cases h
    rfl
  · cases h

theorem limits_keys {limits : Fields} {nodeLimits : List (Str × Int)}
    (h : collect (fun f => (pyInt f.2).map fun n => (f.1, n)) limits = .ok nodeLimits) :
    nodeLimits.map Prod.fst = limits.map Prod.fst := by
  have hread := collect_eq_ok.mp h
  refine (List.forall₂_eq_eq_eq ▸ List.forall₂_map_left_iff.mpr (List.forall₂_map_right_iff.mpr (hread.flip.imp ?_)) :)
  intro g f hf
  obtain ⟨n, -, rfl⟩ := map_eq_ok.mp hf
  rfl

theorem HelloMessage.fromPayload_sound (hB : B.PlainText) {payload : Bytes} {m : HelloMessage}
    (h : HelloMessage.fromPayload B payload = .ok m) : m.Sound := by
  simp only [HelloMessage.fromPayload, bind_eq_ok, validateHexHash_ok, validateNonnegativeInt_ok] at h
  obtain ⟨obj, hobj, _, -, _, -, _, ⟨genesis, rfl, hgenesis⟩, _, -, _, ⟨work, rfl, hwork⟩, _, -, _, ⟨height, rfl, hheight⟩,
    _, -, version, -, networkId, hnetworkId, _, hbest, features, hfeatures, bits, hbits, limits, hlimits, fs, hfs,
    nodeLimits, hnodeLimits, h⟩ := h
  cases h
  cases hbest
  obtain rfl := Json.items_ok hfs
  have hloaded := decodePayload_loaded hobj
  have hlimits := loaded_dict.mp (hloaded.getOr ⟨rfl, rfl⟩ hlimits)
  have hkeys := limits_keys hnodeLimits
  constructor
  · exact pyStr_decoded hB (hloaded.item hnetworkId)
  · exact hgenesis
  · exact hheight
  · exact hwork
  · exact List.forall_mem_map.mpr fun x hx =>
      pyStr_decoded hB ((hloaded.getOr ⟨rfl, rfl⟩ hfeatures).iter hbits x hx)
  · rw [hkeys]
    exact hlimits.1
  · intro f hf
    obtain ⟨g, hg, hgf⟩ := List.mem_map.mp (hkeys ▸ List.mem_map_of_mem hf)
    rw [← hgf]
    exact (hlimits.2 g hg).1

theorem hello_keys (m : HelloMessage) : plainKeys (m.fields.map Prod.fst) = true := by
  change plainKeys ["protocol_version", "network_id", "genesis_hash", "best_height", "best_chain_work", "feature_bits",
    "node_limits"] = true
  decide

theorem ack_keys (m : HelloMessage) (done : Bool) :
    plainKeys ((m.fields ++ [("handshake_complete", Json.bool done)]).map Prod.fst) = true := by
  change plainKeys ["protocol_version", "network_id", "genesis_hash", "best_height", "best_chain_work", "feature_bits",
    "node_limits", "handshake_complete"] = true
  decide

theorem HelloMessage.Sound.fields_bare {m : HelloMessage} (h : m.Sound) : ∀ f ∈ m.fields, f.2.Bare := by
  have hlimits : (Json.dict (m.nodeLimits.map fun f => (f.1, .int f.2))).Bare := by
    rw [bare_dict, List.map_map, List.forall_mem_map]
    exact ⟨h.limitNames, fun f hf => ⟨h.nodeLimits f hf, bare_int _⟩⟩
  have hfeatures : (Json.list ((sortStrs m.featureBits).map .str)).Bare :=
    bare_strs.mpr fun b hb => h.featureBits b (Lex.mem_sortOn.mp hb)
  intro f hf
  simp only [HelloMessage.fields, List.mem_cons, List.not_mem_nil, or_false] at hf
  rcases hf with rfl | rfl | rfl | rfl | rfl | rfl | rfl
  · exact bare_int _
  · exact bare_str.mpr h.networkId
  · exact bare_str.mpr (isLowerHash_decoded h.genesisHash)
  · exact bare_int _
  · exact bare_str.mpr (isLowerHash_decoded h.bestChainWork)
  · exact hfeatures
  · exact hlimits

theorem norm_limits (limits : List (Str × Int)) : (Json.dict (limits.map fun f => (f.1, .int f.2))).norm =
    .dict ((Lex.sortOn charKey Prod.fst limits).map fun f => (f.1, .int f.2)) := by
  rw [Json.norm, normFields_eq, List.map_map]
  exact congrArg Json.dict (Lex.map_sortOn charKey Prod.fst (fun f : Str × Int => (f.1, Json.int f.2)) limits).symm

/-- HELLO is read from any object that has its fields. -/
theorem HelloMessage.Sound.back {m : HelloMessage} {l : List (String × Json)} {b : Bytes} (hm : m.Sound)
    (hkeys : plainKeys (l.map Prod.fst) = true) (hl : ∀ f ∈ m.fields, f ∈ l)
    (h : decodePayload B.toRuntime b = .ok (object l).norm) : HelloMessage.fromPayload B b = .ok m.reread := by
  obtain ⟨hversion, hnetworkId, hgenesis, hheight, hwork, hfeatures, hlimits⟩ :
      ("protocol_version", .int m.protocolVersion) ∈ l ∧ ("network_id", .str m.networkId) ∈ l ∧
        ("genesis_hash", .str m.genesisHash) ∈ l ∧ ("best_height", .int m.bestHeight) ∈ l ∧
        ("best_chain_work", .str m.bestChainWork) ∈ l ∧ ("feature_bits", .list ((sortStrs m.featureBits).map .str)) ∈ l ∧
        ("node_limits", .dict (m.nodeLimits.map fun f => (f.1, .int f.2))) ∈ l := by
    simpa only [HelloMessage.fields, List.forall_mem_cons, List.not_mem_nil, false_imp_iff, implies_true, and_true] using hl
  have hrequired : requireKeys (object l).norm
      ["protocol_version", "network_id", "genesis_hash", "best_height", "best_chain_work"] = .ok () := by
    refine object_required hkeys ?_
    simp only [List.forall_mem_cons, List.not_mem_nil, false_imp_iff, implies_true, and_true]
    exact ⟨List.mem_map_of_mem hversion, List.mem_map_of_mem hnetworkId, List.mem_map_of_mem hgenesis,
      List.mem_map_of_mem hheight, List.mem_map_of_mem hwork⟩
  have hgenesisItem : (object l).norm.item "genesis_hash" = .ok (.str m.genesisHash) := object_item hkeys hgenesis
  have hworkItem : (object l).norm.item "best_chain_work" = .ok (.str m.bestChainWork) := object_item hkeys hwork
  have hheightItem : (object l).norm.item "best_height" = .ok (.int m.bestHeight) := object_item hkeys hheight
  have hversionItem : (object l).norm.item "protocol_version" = .ok (.int m.protocolVersion) := object_item hkeys hversion
  have hnetworkIdItem : (object l).norm.item "network_id" = .ok (.str m.networkId) := object_item hkeys hnetworkId
  have hfeaturesGet := object_getOr hkeys hfeatures (.list [])
  have hlimitsGet := object_getOr hkeys hlimits (.dict [])
  rw [norm_strs] at hfeaturesGet
  rw [norm_limits] at hlimitsGet
  have hcollect : collect (fun f => (pyInt f.2).map fun n => (f.1, n))
      ((Lex.sortOn charKey Prod.fst m.nodeLimits).map fun f => (f.1, .int f.2)) =
        .ok (Lex.sortOn charKey Prod.fst m.nodeLimits) :=
    collect_eq_ok.mpr (List.forall₂_map_left_iff.mpr (List.forall₂_same.mpr fun _ _ => rfl))
  rw [HelloMessage.fromPayload, h, ok_bind, hrequired, ok_bind, hgenesisItem, ok_bind, validateHexHash,
    require_of _ hm.genesisHash, ok_bind, hworkItem, ok_bind, validateHexHash, require_of _ hm.bestChainWork, ok_bind,
    hheightItem, ok_bind, validateNonnegativeInt, require_of _ hm.bestHeight, ok_bind, hversionItem, ok_bind, pyInt, ok_bind,
    hnetworkIdItem, ok_bind, pyInt, ok_bind, hfeaturesGet, ok_bind, Json.iter, ok_bind, hlimitsGet, ok_bind, Json.items, ok_bind,
    hcollect, ok_bind, pyStr_strs]
  rfl

theorem HelloMessage.reread_same (m : HelloMessage) : m.reread.Same m :=
  ⟨rfl, Lex.sortOn_perm _ _ _⟩

theorem HelloMessage.reread_fields (m : HelloMessage) (rest : List (String × Json)) :
    (object (m.reread.fields ++ rest)).norm = (object (m.fields ++ rest)).norm := by
  have hfeatures : sortStrs (sortStrs m.featureBits) = sortStrs m.featureBits := Lex.sortOn_sortOn _ _ _
  have hlimits : (Json.dict (m.reread.nodeLimits.map fun f => (f.1, .int f.2))).norm =
      (Json.dict (m.nodeLimits.map fun f => (f.1, .int f.2))).norm := by
    rw [norm_limits, norm_limits, HelloMessage.reread, Lex.sortOn_sortOn]
  have hfields : normFields ((m.reread.fields ++ rest).map fun f => (str f.1, f.2)) =
      normFields ((m.fields ++ rest).map fun f => (str f.1, f.2)) := by
    rw [normFields_eq, normFields_eq, List.map_append, List.map_append, List.map_append, List.map_append]
    congr 1
    simp only [HelloMessage.fields, List.map_cons, List.map_nil, hlimits]
    simp only [HelloMessage.reread, hfeatures]
  rw [object, object, Json.norm, Json.norm, hfields]

def helloCodec (hB : B.PlainText) :
    (⟨HelloMessage, HelloMessage.toPayload B.toPrimitives, HelloMessage.fromPayload B, HelloMessage.Same⟩ : PayloadClass B).Codec where
  toJson m := object m.fields
  Sound := HelloMessage.Sound
  reread := HelloMessage.reread
  writes _ := rfl
  sound := HelloMessage.fromPayload_sound hB
  bare hm := object_bare (hello_keys _) hm.fields_bare
  back hm h := hm.back (hello_keys _) (fun _ => id) h
  same _ := HelloMessage.reread_same _
  again {m} _ := by
    have hsame := m.reread_fields []
    rwa [List.append_nil, List.append_nil] at hsame

def HelloAckMessage.fields (m : HelloAckMessage) : List (String × Json) :=
  m.toHelloMessage.fields ++ [("handshake_complete", .bool m.handshakeComplete)]

def HelloAckMessage.reread (m : HelloAckMessage) : HelloAckMessage := ⟨m.toHelloMessage.reread, m.handshakeComplete⟩

theorem HelloAckMessage.back {m : HelloAckMessage} {b : Bytes} (hm : m.toHelloMessage.Sound)
    (h : decodePayload B.toRuntime b = .ok (object m.fields).norm) : HelloAckMessage.fromPayload B b = .ok m.reread := by
  have hkeys : plainKeys (m.fields.map Prod.fst) = true := ack_keys m.toHelloMessage m.handshakeComplete
  have hdone : (object m.fields).norm.getOr "handshake_complete" (.bool false) = .ok (.bool m.handshakeComplete) :=
    object_getOr (v := .bool m.handshakeComplete) hkeys (List.mem_append_right _ (List.mem_singleton_self _)) _
  rw [HelloAckMessage.fromPayload, hm.back hkeys (fun f hf => List.mem_append_left _ hf) h, ok_bind, h, ok_bind, hdone, ok_bind]
  rfl

theorem HelloAckMessage.bare {m : HelloAckMessage} (hm : m.toHelloMessage.Sound) : (object m.fields).Bare := by
  refine object_bare (ack_keys m.toHelloMessage m.handshakeComplete) fun f hf => ?_
  rcases List.mem_append.mp hf with hf | hf
  · exact hm.fields_bare f hf
  · rw [List.mem_singleton.mp hf]
    exact bare_bool _

def helloAckCodec (hB : B.PlainText) : (⟨HelloAckMessage, HelloAckMessage.toPayload B.toPrimitives,
    HelloAckMessage.fromPayload B, HelloAckMessage.Same⟩ : PayloadClass B).Codec where
  toJson m := object m.fields
  Sound m := m.toHelloMessage.Sound
  reread := HelloAckMessage.reread
  writes _ := rfl
  sound h := by
    simp only [HelloAckMessage.fromPayload, bind_eq_ok] at h
    obtain ⟨hello, hhello, _, -, _, -, h⟩ := h
    cases h
    exact HelloMessage.fromPayload_sound hB hhello
  bare := HelloAckMessage.bare
  back := HelloAckMessage.back
  same _ := ⟨HelloMessage.reread_same _, rfl⟩
  again {m} _ := m.toHelloMessage.reread_fields [("handshake_complete", .bool m.handshakeComplete)]

/-! ## Every message survives -/

/-- Every class reads its messages back. -/
theorem classes_survive (hB : B.PlainText) {t : Int} {C : PayloadClass B} (h : (t, C) ∈ MESSAGE_PAYLOAD_CLASSES B) :
    C.Survives := by
  simp only [MESSAGE_PAYLOAD_CLASSES, List.mem_cons, Prod.mk.injEq, List.not_mem_nil, or_false] at h
  rcases h with ⟨-, rfl⟩ | ⟨-, rfl⟩ | ⟨-, rfl⟩ | ⟨-, rfl⟩ | ⟨-, rfl⟩ | ⟨-, rfl⟩ | ⟨-, rfl⟩ | ⟨-, rfl⟩ | ⟨-, rfl⟩ |
    ⟨-, rfl⟩ | ⟨-, rfl⟩ | ⟨-, rfl⟩ | ⟨-, rfl⟩
  · exact (helloCodec hB).survives
  · exact (helloAckCodec hB).survives
  · exact pingCodec.survives
  · exact pongCodec.survives
  · exact getHeadersCodec.survives
  · exact headersCodec.survives
  · exact getBlockCodec.survives
  · exact (blockCodec hB).survives
  · exact getArchiveCodec.survives
  · exact archiveCodec.survives
  · exact inventoryCodec.survives
  · exact getDataCodec.survives
  · exact (rejectCodec hB).survives

/-- **Survival.** A message that was read is written and read back, and written again alike; what
`parse_envelope` accepts is what `serialize_envelope` writes for it, and the other way round. -/
theorem messages_survive (hB : B.PlainText) :
    (∀ t C, (t, C) ∈ MESSAGE_PAYLOAD_CLASSES B → C.Survives) ∧
      (∀ data e, parseEnvelope B.toPrimitives data = .ok e →
        serializeEnvelope B.toPrimitives e.messageType e.flags e.payload = .ok data) ∧
      (∀ t flags payload data, serializeEnvelope B.toPrimitives t flags payload = .ok data →
        parseEnvelope B.toPrimitives data = .ok ⟨t, flags, payload⟩) ∧
      ∀ t flags payload, t ∈ KNOWN_MESSAGE_TYPES → 0 ≤ flags ∧ flags < 4 → payload.length ≤ MAX_PAYLOAD_BYTES →
        ∃ data, serializeEnvelope B.toPrimitives t flags payload = .ok data := by
  refine ⟨fun t C h => classes_survive hB h, fun data e h => ?_, fun t flags payload data h => ?_,
    fun t flags payload ht hflags hsize => ?_⟩
  · exact (serializeEnvelope_eq_ok B.toPrimitives).mpr (parseEnvelope_ok B.toPrimitives h)
  · obtain ⟨hvalid, rfl⟩ := (serializeEnvelope_eq_ok B.toPrimitives (e := ⟨t, flags, payload⟩)).mp h
    exact parseEnvelope_frame B.toPrimitives hvalid
  · exact ⟨_, (serializeEnvelope_eq_ok B.toPrimitives (e := ⟨t, flags, payload⟩)).mpr ⟨⟨ht, hflags, hsize⟩, rfl⟩⟩

/-- A ping as a peer may send it, with a blank and a field that nobody reads. -/
def looseNonce : Bytes := ascii "\x7b\"nonce\": 7, \"extra\": 1.5\x7d"

set_option maxRecDepth 100000 in
theorem messages_survive_ping : readNonce builtins looseNonce = .ok 7 ∧
    (∃ b m', PingMessage.toPayload builtins.toPrimitives ⟨7⟩ = .ok b ∧ PingMessage.fromPayload builtins b = .ok m' ∧
      m' = ⟨7⟩ ∧ PingMessage.toPayload builtins.toPrimitives m' = .ok b) ∧
    ∃ data, serializeEnvelope builtins.toPrimitives 3 1 looseNonce = .ok data ∧
      parseEnvelope builtins.toPrimitives data = .ok ⟨3, 1, looseNonce⟩ := by
  have hread : readNonce builtins looseNonce = .ok 7 := of_okEq (by decide +kernel)
  have hfrom : PingMessage.fromPayload builtins looseNonce = .ok ⟨7⟩ := by
    rw [PingMessage.fromPayload, hread]
    rfl
  have hsmall : looseNonce.length ≤ MAX_PAYLOAD_BYTES := by decide +kernel
  have hall := messages_survive (B := builtins) fun _ => nofun
  obtain ⟨data, hdata⟩ := hall.2.2.2 3 1 looseNonce (by decide) (by decide) hsmall
  have hping : ∀ payload m, PingMessage.fromPayload builtins payload = .ok m →
      ∃ b m', PingMessage.toPayload builtins.toPrimitives m = .ok b ∧ PingMessage.fromPayload builtins b = .ok m' ∧
        m' = m ∧ PingMessage.toPayload builtins.toPrimitives m' = .ok b :=
    hall.1 3 _ (.tail _ (.tail _ (.head _)))
  exact ⟨hread, hping looseNonce ⟨7⟩ hfrom, data, hdata, hall.2.2.1 3 1 looseNonce data hdata⟩

end

end ChainBreaker
