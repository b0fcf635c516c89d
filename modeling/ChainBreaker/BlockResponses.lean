import ChainBreaker.AlphaBlocks
import ChainBreaker.MessageCodecs
import ChainBreaker.RecoveredTip
import ChainBreaker.Relay

/-!
# Answers to block requests

`handle_get_block` answers with every block it finds, and looks neither at the
`max_total_bytes` of the request nor at the size of the answer. The answer fits the
budget and an envelope exactly when the blocks are small enough for both
(`response_fits_iff`).
-/

namespace ChainBreaker

open Fallible FileSteps

inductive GetBlockReply where
  | rateLimited
  | unknown
  /-- the payload, whose text is ASCII -/
  | sent (payload : Bytes)

namespace RelayEngine

section
variable {τ : Type} (B : Builtins) (L : RelayLimitPolicy τ)

/-- `except (KeyError, ValueError, StorageIOError)`. -/
def unservable (k : ErrKind) : Bool := k.isValueError || k = .keyError || k = .storageIOError

/-- The inner loop of `handle_get_block`: the first block with the hash. -/
def findBlock (files : StoreFiles) (blockHash : Str) : List Nat → Except PyErr (Option (BlockV2 × Str))
  | [] => .ok none
  | h :: heights =>
    match readBlock B.toRuntime files h with
    | .error e => if unservable e.kind then findBlock files blockHash heights else .error e
    | .ok candidate => do
      let hash ← candidate.hash B.toPrimitives
      if hash = blockHash then .ok (some (candidate, hash)) else findBlock files blockHash heights

/-- The outer loop. -/
def serveBlocks (files : StoreFiles) (heights : List Nat) (blocks : List BlockEntry) : List Str → Except PyErr (List BlockEntry)
  | [] => .ok blocks
  | blockHash :: hashes => do
    match ← findBlock B files blockHash heights with
    | none => serveBlocks files heights blocks hashes
    | some (block, hash) =>
      let blockBytes ← encodeBlock B.toRuntime block
      let blocks := blocks ++ [⟨hash, blockBytes⟩]
      if L.maxBlocksResponse ≤ blocks.length then .ok blocks else serveBlocks files heights blocks hashes

def handleGetBlock (ledger : Ledger) (files : StoreFiles) (payload : Bytes) : Except PyErr GetBlockReply := do
  let msg ← GetBlockMessage.fromPayload B payload
  if L.maxBlocksResponse < msg.hashes.length then .ok .rateLimited
  else
    let blocks ← serveBlocks B L files (List.range ledger.chain.length) [] msg.hashes
    if blocks.isEmpty then .ok .unknown
    else
      let response ← (BlockMessage.mk blocks).toPayload B.toPrimitives
      .ok (.sent response)

end

/-! ## What is served -/

section
variable {τ : Type} {B : Builtins} {L : RelayLimitPolicy τ} {files : StoreFiles} {heights : List Nat} {blockHash : Str}
  {found : Option (BlockV2 × Str)}

/-- A found block has the hash that was asked for. -/
theorem findBlock_hash : ∀ {heights : List Nat}, findBlock B files blockHash heights = .ok found →
    ∀ f ∈ found, f.1.hash B.toPrimitives = .ok f.2 ∧ f.2 = blockHash
  | [], h, f, hf => by
    cases h
    cases hf
  | height :: heights, h, f, hf => by
    rw [findBlock] at h
    split at h
    · split at h
      · exact findBlock_hash h f hf
      · cases h
    · obtain ⟨hash, hhash, h⟩ := bind_eq_ok.mp h
      split at h
      · rename_i heq
        cases h
        cases hf
        exact ⟨hhash, heq⟩
      · exact findBlock_hash h f hf

/-- The blocks of the request that the store has. -/
def requested (B : Builtins) (files : StoreFiles) (heights : List Nat) (hashes : List Str) :
    Except PyErr (List (BlockV2 × Str)) :=
  (collect (fun blockHash => findBlock B files blockHash heights) hashes).map List.reduceOption

/-- The bytes of the block, which `_encode_block` writes in hex. -/
def encoded (M : Runtime) (b : BlockV2) : Bytes := (((encodeBlock M b).toOption.bind fromHex).getD [])

theorem encodeBlock_encoded {b : BlockV2} {hash : Str} (h : b.hash B.toPrimitives = .ok hash) :
    encodeBlock B.toRuntime b = .ok (toHex (encoded B.toRuntime b)) := by
  obtain ⟨data, hdata, -⟩ := hash_eq_ok.mp h
  obtain ⟨d, hd⟩ : ∃ d, b.header.toDict = .ok d := by
    rw [BlockHeaderV2.bytes] at hdata
    obtain ⟨d, hd, -⟩ := bind_eq_ok.mp hdata
    exact ⟨d, hd⟩
  simp only [encoded, encodeBlock, BlockV2.toJson, hd, h, ok_bind, Except.toOption, Option.bind_some, fromHex_toHex,
    Option.getD_some]

theorem requested_nil : requested B files heights [] = .ok [] := rfl

theorem requested_cons {hashes : List Str} {out : List (BlockV2 × Str)} :
    requested B files heights (blockHash :: hashes) = .ok out ↔ ∃ found rest, findBlock B files blockHash heights = .ok found ∧
      requested B files heights hashes = .ok rest ∧ out = found.toList ++ rest := by
  simp only [requested, map_eq_ok, collect, bind_eq_ok, Except.ok.injEq]
  constructor
  · rintro ⟨_, ⟨found, hfound, rest, hrest, rfl⟩, rfl⟩
    refine ⟨found, _, hfound, ⟨rest, hrest, rfl⟩, ?_⟩
    cases found <;> rfl
  · rintro ⟨found, _, hfound, ⟨rest, hrest, rfl⟩, rfl⟩
    refine ⟨_, ⟨found, hfound, rest, hrest, rfl⟩, ?_⟩
    cases found <;> rfl

/-- What is found has its hash. -/
theorem requested_hash {hashes : List Str} {out : List (BlockV2 × Str)} (h : requested B files heights hashes = .ok out) :
    out.length ≤ hashes.length ∧ ∀ f ∈ out, f.1.hash B.toPrimitives = .ok f.2 := by
  induction hashes generalizing out with
  | nil =>
    cases h
    exact ⟨Nat.le_refl _, nofun⟩
  | cons blockHash hashes ih =>
    obtain ⟨found, rest, hfound, hrest, rfl⟩ := requested_cons.mp h
    obtain ⟨hlength, hhash⟩ := ih hrest
    constructor
    · have hone : found.toList.length ≤ 1 := by cases found <;> simp
      rw [List.length_append, List.length_cons]
      omega
    · intro f hf
      rcases List.mem_append.mp hf with hf | hf
      · exact (findBlock_hash hfound f (Option.mem_toList.mp hf)).1
      · exact hhash f hf

/-- The entry of a found block. -/
def served (B : Builtins) (f : BlockV2 × Str) : BlockEntry := ⟨f.2, toHex (encoded B.toRuntime f.1)⟩

/-- All that is found is served: a request that is not refused has no more hashes
than an answer may have blocks. -/
theorem serveBlocks_ok {hashes : List Str} : ∀ {blocks out : List BlockEntry},
    (blocks.length + hashes.length : Int) ≤ L.maxBlocksResponse →
    (serveBlocks B L files heights blocks hashes = .ok out ↔
      ∃ found, requested B files heights hashes = .ok found ∧ out = blocks ++ found.map (served B)) := by
  induction hashes with
  | nil =>
    intro blocks out _
    rw [serveBlocks, requested_nil, Except.ok.injEq]
    constructor
    · rintro rfl
      exact ⟨[], rfl, (List.append_nil _).symm⟩
    · rintro ⟨_, ⟨⟩, rfl⟩
      exact (List.append_nil _).symm
  | cons blockHash hashes ih =>
    intro blocks out hroom
    rw [List.length_cons, Nat.cast_add, Nat.cast_one] at hroom
    simp only [serveBlocks, requested_cons, bind_eq_ok]
    constructor
    · rintro ⟨found, hfound, h⟩
      cases found with
      | none =>
        obtain ⟨rest, hrest, rfl⟩ := (ih (by omega)).mp h
        exact ⟨_, ⟨none, rest, hfound, hrest, rfl⟩, rfl⟩
      | some f =>
        obtain ⟨block, hash⟩ := f
        have hhash := (findBlock_hash hfound _ rfl).1
        simp only [encodeBlock_encoded hhash, ok_bind] at h
        split at h
        · -- no hash is left
          rename_i hfull
          rw [List.length_append, List.length_singleton, Nat.cast_add, Nat.cast_one] at hfull
          obtain rfl : hashes = [] := List.eq_nil_of_length_eq_zero (by omega)
          exact ⟨_, ⟨_, [], hfound, requested_nil, rfl⟩, (Except.ok.inj h).symm⟩
        · obtain ⟨rest, hrest, rfl⟩ := (ih (by rw [List.length_append, List.length_singleton]; push_cast; omega)).mp h
          exact ⟨_, ⟨_, rest, hfound, hrest, rfl⟩, by simp [served]⟩
    · rintro ⟨_, ⟨found, rest, hfound, hrest, rfl⟩, rfl⟩
      refine ⟨found, hfound, ?_⟩
      cases found with
      | none => exact (ih (by omega)).mpr ⟨rest, hrest, rfl⟩
      | some f =>
        obtain ⟨block, hash⟩ := f
        have hhash := (findBlock_hash hfound _ rfl).1
        simp only [encodeBlock_encoded hhash, ok_bind]
        split
        · rename_i hfull
          rw [List.length_append, List.length_singleton, Nat.cast_add, Nat.cast_one] at hfull
          obtain rfl : hashes = [] := List.eq_nil_of_length_eq_zero (by omega)
          cases hrest
          rfl
        · refine (ih (by rw [List.length_append, List.length_singleton]; push_cast; omega)).mpr ⟨rest, hrest, ?_⟩
          simp [served]

/-! ## The size of an answer -/

theorem length_jsonStr_lower {s : Str} (h : ∀ c ∈ s, isLowerHex c = true) : (jsonStr s).length = s.length + 2 := by
  have hflat : (s.flatMap escapeChar).length = s.length := by
    induction s with
    | nil => rfl
    | cons c s ih =>
      have hone : (escapeChar c).length = 1 := by
        have hc := h c List.mem_cons_self
        simp only [isLowerHex, Bool.or_eq_true, Bool.and_eq_true, decide_eq_true_eq] at hc
        rw [escapeChar, if_neg (by omega), if_neg (by omega), if_neg (by omega), if_neg (by omega), if_neg (by omega), if_neg (by omega),
          if_neg (by omega), if_pos (by omega), List.length_singleton]
      rw [List.flatMap_cons, List.length_append, hone, ih fun x hx => h x (List.mem_cons_of_mem c hx), List.length_cons]
      omega
  rw [jsonStr, List.length_append, List.length_cons, hflat, List.length_singleton]

theorem length_joinComma : ∀ {ps : List Bytes}, ps ≠ [] → (joinComma ps).length + 1 = (ps.map fun p => p.length + 1).sum
  | [p], _ => by simp [joinComma]
  | p :: q :: ps, _ => by
    have ih := @length_joinComma (q :: ps) (List.cons_ne_nil q ps)
    have hjoin : joinComma (p :: q :: ps) = p ++ 44 :: joinComma (q :: ps) := rfl
    rw [hjoin, List.length_append, List.length_cons, List.map_cons, List.sum_cons, ← ih]
    omega

theorem length_entry {e : BlockEntry} (hhash : isLowerHash e.hash = true) (hbytes : ∀ c ∈ e.blockBytes, isLowerHex c = true)
    (fl : UInt64 → Bytes) : (text fl e.toJson.norm).length = 92 + e.blockBytes.length := by
  have hnorm : e.toJson.norm = .dict [(str "block_bytes", .str e.blockBytes), (str "hash", .str e.hash)] := rfl
  have hkeys : (jsonStr (str "block_bytes")).length = 13 ∧ (jsonStr (str "hash")).length = 6 := by decide
  obtain ⟨hlength, hlower⟩ := lowerHash_chars hhash
  simp only [hnorm, text, fieldTexts, joinComma, List.length_append, List.length_cons, List.length_nil,
    length_jsonStr_lower hlower, length_jsonStr_lower hbytes, hkeys.1, hkeys.2, hlength]
  omega

/-- The length of a payload of blocks. -/
theorem length_payload {entries : List BlockEntry} {p : Bytes} (hne : entries ≠ [])
    (hsound : ∀ e ∈ entries, isLowerHash e.hash = true ∧ ∀ c ∈ e.blockBytes, isLowerHex c = true)
    (h : (BlockMessage.mk entries).toPayload B.toPrimitives = .ok p) :
    p.length = 12 + (entries.map fun e => 93 + e.blockBytes.length).sum := by
  have hnorm : (Json.dict [(str "blocks", .list (entries.map BlockEntry.toJson))]).norm =
      .dict [(str "blocks", .list (normList (entries.map BlockEntry.toJson)))] := rfl
  have hkey : (jsonStr (str "blocks")).length = 8 := by decide
  have htexts : texts B.floatRepr (normList (entries.map BlockEntry.toJson)) =
      entries.map fun e => text B.floatRepr e.toJson.norm := by
    rw [texts_eq, normList_eq, List.map_map, List.map_map]
    rfl
  have hjoined : (joinComma (entries.map fun e => text B.floatRepr e.toJson.norm)).length + 1 =
      (entries.map fun e => 93 + e.blockBytes.length).sum := by
    rw [length_joinComma (by simpa using hne), List.map_map]
    refine congrArg List.sum (List.map_congr_left fun e he => ?_)
    rw [Function.comp_apply, length_entry (hsound e he).1 (hsound e he).2]
    omega
  have htext := dumps_eq h
  rw [hnorm] at htext
  rw [htext]
  simp only [text, fieldTexts, joinComma, htexts, List.length_append, List.length_cons, List.length_nil, hkey]
  omega

/-! ## What fits -/

/-- The bytes of the blocks in the message. -/
def carried (m : BlockMessage) : Nat := (m.blocks.map fun e => ((fromHex e.blockBytes).getD []).length).sum

/-- An answer that is sent fits into an envelope, and its blocks into the budget of
the request. -/
def ResponseFits (B : Builtins) (L : RelayLimitPolicy τ) (ledger : Ledger) (files : StoreFiles) (payload : Bytes) : Prop :=
  ∀ p, handleGetBlock B L ledger files payload = .ok (.sent p) → p.length ≤ MAX_PAYLOAD_BYTES ∧
    ∀ msg m, GetBlockMessage.fromPayload B payload = .ok msg → BlockMessage.fromPayload B p = .ok m →
      (carried m : Int) ≤ msg.maxTotalBytes

/-- The requested blocks that the store has are within the budget, and with the text
around them within an envelope. -/
def SmallEnough (B : Builtins) (L : RelayLimitPolicy τ) (ledger : Ledger) (files : StoreFiles) (payload : Bytes) : Prop :=
  ∀ msg found, GetBlockMessage.fromPayload B payload = .ok msg → (msg.hashes.length : Int) ≤ L.maxBlocksResponse →
    requested B files (List.range ledger.chain.length) msg.hashes = .ok found → found ≠ [] →
    let total := (found.map fun f => (encoded B.toRuntime f.1).length).sum
    (total : Int) ≤ msg.maxTotalBytes ∧ 12 + 93 * found.length + 2 * total ≤ MAX_PAYLOAD_BYTES

/-- What `handle_get_block` sends. -/
theorem handleGetBlock_sent {ledger : Ledger} {payload p : Bytes} :
    handleGetBlock B L ledger files payload = .ok (.sent p) ↔
      ∃ msg found, GetBlockMessage.fromPayload B payload = .ok msg ∧ (msg.hashes.length : Int) ≤ L.maxBlocksResponse ∧
        requested B files (List.range ledger.chain.length) msg.hashes = .ok found ∧ found ≠ [] ∧
        (BlockMessage.mk (found.map (served B))).toPayload B.toPrimitives = .ok p := by
  rw [handleGetBlock, bind_eq_ok]
  constructor
  · rintro ⟨msg, hmsg, h⟩
    split at h
    · cases h
    · rename_i hfew
      obtain ⟨blocks, hblocks, h⟩ := bind_eq_ok.mp h
      obtain ⟨found, hfound, rfl⟩ := (serveBlocks_ok (by rw [List.length_nil]; push_cast; omega)).mp hblocks
      rw [List.nil_append] at h
      split at h
      · cases h
      · rename_i hsome
        obtain ⟨response, hresponse, h⟩ := bind_eq_ok.mp h
        cases h
        refine ⟨msg, found, hmsg, by omega, hfound, ?_, hresponse⟩
        rintro rfl
        exact hsome rfl
  · rintro ⟨msg, found, hmsg, hfew, hfound, hne, hresponse⟩
    refine ⟨msg, hmsg, ?_⟩
    have hblocks : serveBlocks B L files (List.range ledger.chain.length) [] msg.hashes = .ok (found.map (served B)) :=
      (serveBlocks_ok (by rw [List.length_nil]; push_cast; omega)).mpr ⟨found, hfound, rfl⟩
    rw [if_neg (by omega), hblocks, ok_bind, if_neg (by simpa using hne), hresponse, ok_bind]

section
variable {found : List (BlockV2 × Str)}

theorem served_sound (h : ∀ f ∈ found, f.1.hash B.toPrimitives = .ok f.2) : ∀ e ∈ found.map (served B), e.Sound := by
  intro e he
  obtain ⟨f, hf, rfl⟩ := List.mem_map.mp he
  obtain ⟨data, -, hhash⟩ := hash_eq_ok.mp (h f hf)
  exact ⟨by rw [served, hhash]; exact isLowerHash_toHex (doubleSha256_length _), asciiStr_toHex _⟩

theorem served_bare (h : ∀ f ∈ found, f.1.hash B.toPrimitives = .ok f.2) :
    (listed "blocks" BlockEntry.toJson (found.map (served B))).Bare := by
  refine listed_bare (by decide) fun e he => BlockEntry.Checked.bare ⟨(served_sound h e he).hash, ?_⟩
  exact asciiStr_decoded (served_sound h e he).blockBytes

theorem length_served {p : Bytes} (hne : found ≠ []) (h : ∀ f ∈ found, f.1.hash B.toPrimitives = .ok f.2)
    (hp : (BlockMessage.mk (found.map (served B))).toPayload B.toPrimitives = .ok p) :
    p.length = 12 + 93 * found.length + 2 * (found.map fun f => (encoded B.toRuntime f.1).length).sum := by
  have hlength := length_payload (by simpa using hne) (fun e he => ⟨(served_sound h e he).hash, ?_⟩) hp
  · have hsum : ∀ fs : List (BlockV2 × Str), ((fs.map (served B)).map fun e => 93 + e.blockBytes.length).sum =
        93 * fs.length + 2 * (fs.map fun f => (encoded B.toRuntime f.1).length).sum := by
      intro fs
      induction fs with
      | nil => rfl
      | cons f fs ih =>
        simp only [List.map_cons, List.sum_cons, List.length_cons, ih, served, (toHex_lower _).1]
        omega
    rw [hlength, hsum, Nat.add_assoc]
  · obtain ⟨f, -, rfl⟩ := List.mem_map.mp he
    exact (toHex_lower _).2

theorem carried_served : carried ⟨found.map (served B)⟩ = (found.map fun f => (encoded B.toRuntime f.1).length).sum := by
  simp only [carried, List.map_map]
  refine congrArg List.sum (List.map_congr_left fun f _ => ?_)
  simp only [Function.comp_apply, served, fromHex_toHex, Option.getD_some]

end

/-- **Answers that fit.** -/
theorem response_fits_iff (B : Builtins) (L : RelayLimitPolicy τ) (ledger : Ledger) (files : StoreFiles) (payload : Bytes) :
    ResponseFits B L ledger files payload ↔ SmallEnough B L ledger files payload := by
  have hread : ∀ {msg : GetBlockMessage} {found : List (BlockV2 × Str)} {p : Bytes},
      GetBlockMessage.fromPayload B payload = .ok msg →
      requested B files (List.range ledger.chain.length) msg.hashes = .ok found →
      (BlockMessage.mk (found.map (served B))).toPayload B.toPrimitives = .ok p →
      BlockMessage.fromPayload B p = .ok ⟨found.map (served B)⟩ := by
    intro msg found p hmsg hfound hp
    obtain ⟨hlength, hhash⟩ := requested_hash hfound
    have hfew : msg.hashes.length ≤ MAX_BLOCKS_RESPONSE := (getBlockCodec.sound hmsg).hashes.1
    exact BlockMessage.fromPayload_toPayload (by rw [List.length_map]; omega) (served_sound hhash) hp
  constructor
  · intro hfits msg found hmsg hfew hfound hne
    have hhash := (requested_hash hfound).2
    obtain ⟨p, hp, -⟩ := (served_bare hhash).back (B := B)
    obtain ⟨hsize, hbudget⟩ := hfits p (handleGetBlock_sent.mpr ⟨msg, found, hmsg, hfew, hfound, hne, hp⟩)
    rw [length_served hne hhash hp] at hsize
    have hcarried := hbudget msg _ hmsg (hread hmsg hfound hp)
    rw [carried_served] at hcarried
    exact ⟨hcarried, hsize⟩
  · intro hsmall p h
    obtain ⟨msg, found, hmsg, hfew, hfound, hne, hp⟩ := handleGetBlock_sent.mp h
    obtain ⟨hbudget, hsize⟩ := hsmall msg found hmsg hfew hfound hne
    refine ⟨by rw [length_served hne (requested_hash hfound).2 hp]; exact hsize, fun msg' m hmsg' hm => ?_⟩
    cases hmsg.symm.trans hmsg'
    cases (hread hmsg hfound hp).symm.trans hm
    rw [carried_served]
    exact hbudget

end

/-! ## A budget of one byte -/

def plainBuiltins : Builtins := { builtins with toRuntime := plainRuntime }

def defaultLimits : RelayLimitPolicy Nat := { expired := fun now timestamp => decide (7200 < now - timestamp) }

set_option maxRecDepth 100000 in
theorem alphaGenesis_record : okAnd (fun _ => true) (encodeBlockRecord plainRuntime alphaGenesis) = true := by decide +kernel

/-- A store with the genesis block finds it by its hash. -/
theorem genesis_found : ∃ files block, findBlock plainBuiltins files GENESIS_HASH [0] = .ok (some (block, GENESIS_HASH)) := by
  obtain ⟨record, hrecord, -⟩ := of_okAnd alphaGenesis_record
  obtain ⟨block, hdecode, hbytes, -⟩ := decodeBlockRecord_encode plainRuntime_floatText hrecord
  have hhash : block.hash plainRuntime.toPrimitives = .ok GENESIS_HASH := by
    obtain ⟨data, hdata, hhash⟩ := hash_eq_ok.mp alphaGenesis_hash
    exact hash_eq_ok.mpr ⟨data, hbytes.trans hdata, hhash⟩
  refine ⟨put ∅ (.block 0) record, block, ?_⟩
  have hread : readBlock plainRuntime (put ∅ (.block 0) record) 0 = .ok block := by
    rw [readBlock, lookup_put, if_pos rfl]
    exact hdecode
  rw [findBlock]
  simp only [show plainBuiltins.toRuntime = plainRuntime from rfl, hread, hhash, ok_bind, if_true]

/-- The text of an object has its two braces. -/
theorem two_le_encoded {B : Builtins} {b : BlockV2} {hash : Str} (h : b.hash B.toPrimitives = .ok hash) : 2 ≤ (encoded B.toRuntime b).length := by
  obtain ⟨v, hv, htext⟩ := bind_eq_ok.mp (encodeBlock_encoded h)
  obtain ⟨d, -, hv⟩ := bind_eq_ok.mp hv
  obtain ⟨_, -, hv⟩ := bind_eq_ok.mp hv
  cases hv
  have hbytes := fromHex_toHex (encoded B.toRuntime b)
  rw [← Except.ok.inj htext, fromHex_toHex, Option.some.injEq] at hbytes
  rw [← hbytes]
  simp only [Json.norm, text, List.length_append, List.length_cons, List.length_nil]
  omega

/-- The genesis block is sent to a peer that asks for it with room for one byte. -/
theorem response_overflows : ¬ ∀ (B : Builtins) (L : RelayLimitPolicy Nat) (ledger : Ledger) (files : StoreFiles) (payload : Bytes),
    ResponseFits B L ledger files payload := by
  intro hall
  obtain ⟨l, hl, -⟩ := alphaLedger_grown
  obtain ⟨files, block, hfound⟩ := genesis_found
  let msg : GetBlockMessage := ⟨[GENESIS_HASH], 1⟩
  have hmsg : msg.Sound := ⟨⟨by decide, List.forall_mem_singleton.mpr (by decide +kernel)⟩, by decide⟩
  obtain ⟨payload, -, hdecode⟩ := (getBlockCodec.bare hmsg).back (B := plainBuiltins)
  have hread := getBlockCodec.back hmsg hdecode
  have hrequested : requested plainBuiltins files (List.range l.chain.length) msg.hashes = .ok [(block, GENESIS_HASH)] := by
    rw [alpha_chain hl]
    exact requested_cons.mpr ⟨_, [], hfound, requested_nil, rfl⟩
  obtain ⟨hbudget, -⟩ := (response_fits_iff plainBuiltins defaultLimits l files payload).mp (hall _ _ _ _ _) msg _ hread
    (by decide) hrequested (by simp)
  have htwo : 2 ≤ (encoded plainBuiltins.toRuntime block).length := two_le_encoded (findBlock_hash hfound _ rfl).1
  simp only [List.map_cons, List.map_nil, List.sum_cons, List.sum_nil, msg] at hbudget
  omega

end RelayEngine

end ChainBreaker
