import ChainBreaker.Messages
import ChainBreaker.LedgerRules

/-!
# Header and block messages of a sync

What `parse_headers_message` and `parse_block_message` let through, against the
local ledger, and the hash under which a block is asked for. Headers that extend
the chain are let through up to the first retarget height beyond the next block
(`parse_headers_iff`).
-/

namespace ChainBreaker

open Fallible

/-! ## Work of a chain of both versions -/

/-- `a / b` of two integers as the nearest 53-bit float, `b` positive. -/
def roundHalfEven (a b : Nat) : Nat :=
  let q := a / b
  let r := a % b
  if 2 * r < b ∨ (2 * r = b ∧ q % 2 = 0) then q else q + 1

/-- `int(a / b)`. -/
def intOfQuotient (a b : Nat) : Nat :=
  if a < b then roundHalfEven (a * 2 ^ 53) b / 2 ^ 53
  else
    let log := Nat.log2 (a / b)
    roundHalfEven (a * 2 ^ (52 - log)) (b * 2 ^ (log - 52)) * 2 ^ (log - 52) / 2 ^ (52 - log)

/-- `int(work_for_target(target))`. -/
def intWorkForTarget (target : Int) : Except PyErr Int :=
  if target ≤ 0 then raise .valueError "target must be positive" []
  else
    let quotient : Int := intOfQuotient (2 ^ 256 - target).natAbs (target + 1).natAbs
    .ok (if target ≤ 2 ^ 256 then quotient else -quotient)

def AnyBlock.work : AnyBlock → Except PyErr Int
  | .v1 b => intWorkForTarget b.header.target
  | .v2 b => workForTargetV2 b.header.target

/-- `Ledger.chain_work`. -/
def Ledger.chainWork (l : Ledger) : Except PyErr Int := run (fun total b => (b.work).map (total + ·)) 0 l.chain

/-! ## Headers -/

/-- `try: … except Exception as exc: raise SyncInvalidDataError(f"…: {exc}")`. -/
def orInvalidData {α : Type} (B : Builtins) (text : String) (args : List Json) (x : Except PyErr α) : Except PyErr α :=
  match x with
  | .ok a => .ok a
  | .error exc => .error ⟨.syncInvalidDataError, text, args ++ [.str (B.errText exc)]⟩

/-- `_decode_header`; bytes may trail. -/
def decodeHeader (headerBytesHex : Str) : Except PyErr BlockHeaderV2 := do
  let raw ← fromHexOrRaise headerBytesHex
  let data ← decodeHeaderV2 raw
  BlockHeaderV2.fromDict data

section
variable (B : Builtins)

/-- The loop of `parse_headers_message`, from the header number `idx` on. -/
def parseHeaders (l : Ledger) : Nat → Str → Nat → List HeaderEntry → Except PyErr (List BlockHeaderV2)
  | _, _, _, [] => .ok []
  | idx, prevHash, expectedHeight, entry :: entries => do
    let header ← orInvalidData B "header %: decode failed: %" [.int idx] (decodeHeader entry.headerBytes)
    require (header.prevHash = prevHash) ⟨.syncInvalidDataError, "header %: prev_hash mismatch", [.int idx]⟩
    let expectedTarget ← expectedTargetAt l.chain expectedHeight
    require (header.target = expectedTarget) ⟨.syncInvalidDataError, "header %: unexpected target", [.int idx]⟩
    let hash ← header.hash B.toPrimitives
    require (satisfiesPow hash header.target = true) ⟨.syncInvalidDataError, "header %: PoW check failed", [.int idx]⟩
    require (header.version = PROTOCOL_VERSION) ⟨.syncInvalidDataError, "header %: version mismatch", [.int idx]⟩
    let headers ← parseHeaders l (idx + 1) hash (expectedHeight + 1) entries
    .ok (header :: headers)

def parseHeadersMessage (l : Ledger) (message : HeadersMessage) : Except PyErr (List BlockHeaderV2) := do
  let last ← l.lastBlock
  let prevHash ← last.hash B.toPrimitives
  parseHeaders B l 0 prevHash l.chain.length message.headers

def computeChainWork (headers : List BlockHeaderV2) : Except PyErr Int :=
  run (fun total h => (workForTargetV2 h.target).map (total + ·)) 0 headers

/-- `f"{target:064x}"`. -/
def hex64 (target : Int) : Str :=
  let digits : Str := (Nat.toDigits 16 target.natAbs).map fun c => Fin.ofNat _ c.toNat
  if 0 ≤ target then List.replicate (64 - digits.length) 48 ++ digits
  else 45 :: (List.replicate (63 - digits.length) 48 ++ digits)

/-- The object that `header_hash` hashes. -/
def headerObject (header : BlockHeaderV2) : Json :=
  .dict [(str "version", .int header.version), (str "prev_hash", .str header.prevHash),
    (str "merkle_root", .str header.merkleRoot), (str "registry_root", .str header.registryRoot),
    (str "timestamp", .int header.timestamp), (str "target", .str (hex64 header.target)),
    (str "nonce", .int header.nonce)]

def headerHash (E : Primitives) (header : BlockHeaderV2) : Except PyErr Str := do
  let raw ← canonicalJson E (headerObject header)
  .ok (hashSingleHex E raw)

/-! ## The locator -/

/-- The loop of `build_locator`, which `n` turns are enough for. -/
def locatorFrom (E : Primitives) (chain : List AnyBlock) : Nat → Nat → Nat → List Str → Except PyErr (List Str)
  | 0, _, _, locator => .ok locator
  | n + 1, height, step, locator =>
    if 0 < height ∧ locator.length < MAX_LOCATOR_SIZE - 1 then do
      let block ← blockAt chain height
      let hash ← block.hash E
      let locator := locator ++ [hash]
      locatorFrom E chain n (height - step) (if 10 < locator.length then step * 2 else step) locator
    else .ok locator

def buildLocator (E : Primitives) (l : Ledger) : Except PyErr (List Str) := do
  let locator ← locatorFrom E l.chain MAX_LOCATOR_SIZE (l.chain.length - 1) 1 []
  let genesis ← blockAt l.chain 0
  let genesisHash ← genesis.hash E
  .ok (locator ++ [genesisHash])

def createGetHeaders (E : Primitives) (l : Ledger) : Except PyErr GetHeadersMessage := do
  let startHashes ← buildLocator E l
  .ok ⟨startHashes, none, MAX_HEADERS_RESPONSE⟩

/-! ## Blocks -/

/-- `BlockHeaderV2.from_dict`, of any JSON value. -/
def BlockHeaderV2.ofJson (data : Json) : Except PyErr BlockHeaderV2 := do
  let version ← data.item "version" >>= pyInt
  let prevHash ← data.item "prev_hash"
  let merkleRoot ← data.item "merkle_root"
  let registryRoot ← data.item "registry_root"
  let timestamp ← data.item "timestamp" >>= pyInt
  let target ← data.item "target"
  let target ← hexToTarget (pyStr B target)
  let nonce ← data.item "nonce" >>= pyInt
  .ok ⟨version, pyStr B prevHash, pyStr B merkleRoot, pyStr B registryRoot, timestamp, target, nonce⟩

/-- `BlockV2.from_dict`. -/
def BlockV2.ofJson (data : Json) : Except PyErr BlockV2 := do
  let header ← data.item "header" >>= BlockHeaderV2.ofJson B
  let transactions ← data.getOr "transactions" (.list []) >>= Json.iter
  .ok ⟨header, transactions⟩

/-- `BlockHeaderV2.to_dict`, as JSON. -/
def HeaderDictV2.toJson (d : HeaderDictV2) : Json :=
  .dict [(str "version", .int d.version), (str "prev_hash", .str d.prevHash), (str "merkle_root", .str d.merkleRoot),
    (str "registry_root", .str d.registryRoot), (str "timestamp", .int d.timestamp), (str "target", .str d.target),
    (str "nonce", .int d.nonce)]

/-- `BlockV2.to_dict`. -/
def BlockV2.toJson (E : Primitives) (b : BlockV2) : Except PyErr Json := do
  let d ← b.header.toDict
  let hash ← b.hash E
  .ok (.dict [(str "header", d.toJson), (str "transactions", .list b.transactions), (str "hash", .str hash)])

/-- A float with `allow_nan`. -/
def nanText (fl : UInt64 → Bytes) (bits : UInt64) : Bytes :=
  if floatFinite bits then fl bits
  else if bits.toNat % 2 ^ 52 ≠ 0 then ascii "NaN"
  else if bits.toNat < 2 ^ 63 then ascii "Infinity"
  else ascii "-Infinity"

/-- `encode_block`, of the sync and of the relay. -/
def encodeBlock (M : Runtime) (b : BlockV2) : Except PyErr Str := do
  let obj ← b.toJson M.toPrimitives
  .ok (toHex (text (nanText M.floatRepr) obj.norm))

/-- `_decode_block`. -/
def decodeBlock (blockBytesHex : Str) : Except PyErr BlockV2 := do
  let raw ← fromHexOrRaise blockBytesHex
  let data ← decodePayload B.toRuntime raw
  BlockV2.ofJson B data

def parseBlockMessage (l : Ledger) (message : BlockMessage) (expectedHeight : Nat) (expectedPrevHash : Str) :
    Except PyErr BlockV2 :=
  match message.blocks with
  | [entry] => do
    let block ← orInvalidData B "block decode failed: %" [] (decodeBlock B entry.blockBytes)
    require (block.header.prevHash = expectedPrevHash) (err .syncInvalidDataError "block prev_hash mismatch")
    let expectedTarget ← expectedTargetAt l.chain expectedHeight
    require (block.header.target = expectedTarget) (err .syncInvalidDataError "block target mismatch")
    .ok block
  | _ => raise .syncInvalidDataError "expected exactly one block in response" []

end

/-! ## Blocks read back -/

/-- A block whose hashes and transactions are plain text on the wire. -/
structure BlockV2.Plain (b : BlockV2) : Prop where
  prevHash : asciiStr b.header.prevHash = true
  merkleRoot : asciiStr b.header.merkleRoot = true
  registryRoot : asciiStr b.header.registryRoot = true
  transactions : ∀ t ∈ b.transactions, t.wire = true

section
variable {B : Builtins} {b : BlockV2}

theorem asciiStr_toHex (raw : Bytes) : asciiStr (toHex raw) = true := by
  rw [asciiStr, List.all_eq_true]
  intro c hc
  have hlower := (toHex_lower raw).2 c hc
  simp only [isLowerHex, Bool.or_eq_true, Bool.and_eq_true, decide_eq_true_eq] at hlower
  exact decide_eq_true (by omega)

theorem targetToHex_ascii {target : Int} {s : Str} (h : targetToHex target = .ok s) : asciiStr s = true := by
  unfold targetToHex at h
  cases hraw : toBytesBE 32 target with
  | error e => rw [hraw] at h; cases h
  | ok raw =>
    rw [hraw] at h
    cases h
    exact asciiStr_toHex raw

theorem HeaderDictV2.toJson_wire {d : HeaderDictV2} (hprev : asciiStr d.prevHash = true)
    (hmerkle : asciiStr d.merkleRoot = true) (hregistry : asciiStr d.registryRoot = true)
    (htarget : asciiStr d.target = true) : d.toJson.wire = true := by
  have hkeys : (["version", "prev_hash", "merkle_root", "registry_root", "timestamp", "target", "nonce"].map str).Nodup ∧
      ∀ k ∈ ["version", "prev_hash", "merkle_root", "registry_root", "timestamp", "target", "nonce"], asciiStr (str k) = true := by
    decide
  rw [HeaderDictV2.toJson, wire_dict]
  refine ⟨hkeys.1, fun f hf => ?_⟩
  simp only [List.mem_cons, List.not_mem_nil, or_false] at hf
  rcases hf with rfl | rfl | rfl | rfl | rfl | rfl | rfl
  · exact ⟨hkeys.2 _ (by decide), rfl⟩
  · exact ⟨hkeys.2 _ (by decide), hprev⟩
  · exact ⟨hkeys.2 _ (by decide), hmerkle⟩
  · exact ⟨hkeys.2 _ (by decide), hregistry⟩
  · exact ⟨hkeys.2 _ (by decide), rfl⟩
  · exact ⟨hkeys.2 _ (by decide), htarget⟩
  · exact ⟨hkeys.2 _ (by decide), rfl⟩

/-- A header is read back from its object. -/
theorem BlockHeaderV2.ofJson_toJson {h : BlockHeaderV2} {d : HeaderDictV2} (hd : h.toDict = .ok d) :
    BlockHeaderV2.ofJson B d.toJson.norm = .ok h := by
  obtain ⟨target, htarget, heq⟩ := bind_eq_ok.mp hd
  cases heq
  generalize hjson : (HeaderDictV2.toJson _).norm = obj
  have hversion : obj.item "version" = .ok (.int h.version) := by rw [← hjson]; rfl
  have hprev : obj.item "prev_hash" = .ok (.str h.prevHash) := by rw [← hjson]; rfl
  have hmerkle : obj.item "merkle_root" = .ok (.str h.merkleRoot) := by rw [← hjson]; rfl
  have hregistry : obj.item "registry_root" = .ok (.str h.registryRoot) := by rw [← hjson]; rfl
  have htimestamp : obj.item "timestamp" = .ok (.int h.timestamp) := by rw [← hjson]; rfl
  have htargetText : obj.item "target" = .ok (.str target) := by rw [← hjson]; rfl
  have hnonce : obj.item "nonce" = .ok (.int h.nonce) := by rw [← hjson]; rfl
  rw [BlockHeaderV2.ofJson, hversion, hprev, hmerkle, hregistry, htimestamp, htargetText, hnonce]
  simp only [ok_bind, pyInt, pyStr, (targetToHex_back htarget).2]

/-- A block sent is received as it was, with the keys of its transactions sorted. -/
theorem decodeBlock_encodeBlock {blockBytes : Str} (hb : b.Plain) (h : encodeBlock B.toRuntime b = .ok blockBytes) :
    asciiStr blockBytes = true ∧ decodeBlock B blockBytes = .ok { b with transactions := b.transactions.map Json.norm } := by
  obtain ⟨obj, hobj, heq⟩ := bind_eq_ok.mp h
  cases heq
  simp only [BlockV2.toJson, bind_eq_ok] at hobj
  obtain ⟨d, hd, hash, hhash, heq⟩ := hobj
  cases heq
  obtain ⟨target, htarget, heq⟩ := bind_eq_ok.mp hd
  have htargetText : asciiStr d.target = true := by
    rw [← Except.ok.inj heq]
    exact targetToHex_ascii htarget
  have hhashText : asciiStr hash = true := by
    obtain ⟨raw, -, h⟩ := bind_eq_ok.mp hhash
    rw [← Except.ok.inj h]
    exact asciiStr_toHex _
  have hheader : d.toJson.wire = true := by
    cases heq
    exact HeaderDictV2.toJson_wire hb.prevHash hb.merkleRoot hb.registryRoot htargetText
  have hkeys : (["header", "transactions", "hash"].map str).Nodup ∧
      ∀ k ∈ ["header", "transactions", "hash"], asciiStr (str k) = true := by decide
  have hwire : (Json.dict [(str "header", d.toJson), (str "transactions", .list b.transactions), (str "hash", .str hash)]).wire =
      true := by
    rw [wire_dict]
    refine ⟨hkeys.1, fun f hf => ?_⟩
    simp only [List.mem_cons, List.not_mem_nil, or_false] at hf
    rcases hf with rfl | rfl | rfl
    · exact ⟨hkeys.2 _ (by decide), hheader⟩
    · refine ⟨hkeys.2 _ (by decide), ?_⟩
      rw [Json.wire, wireList_iff]
      exact hb.transactions
    · exact ⟨hkeys.2 _ (by decide), hhashText⟩
  refine ⟨asciiStr_toHex _, ?_⟩
  generalize hjson : (Json.dict _).norm = obj at hwire ⊢
  have hheaderItem : obj.item "header" = .ok d.toJson.norm := by rw [← hjson]; rfl
  have htransactions : obj.getOr "transactions" (.list []) = .ok (.list (normList b.transactions)) := by rw [← hjson]; rfl
  have hraw : decodePayload B.toRuntime (text (nanText B.floatRepr) obj) = .ok obj := by
    rw [← hjson]
    exact loads_text hwire
  rw [decodeBlock, fromHexOrRaise_eq_ok.mpr (fromHex_toHex _), ok_bind, hraw, ok_bind, BlockV2.ofJson, hheaderItem, ok_bind,
    BlockHeaderV2.ofJson_toJson hd, ok_bind, htransactions, ok_bind, Json.iter, ok_bind, normList_eq]

end

/-! ## Headers that extend the chain -/

/-- A block with the header; hash and target are the header's. -/
def AnyBlock.ofHeader (h : BlockHeaderV2) : AnyBlock := .v2 ⟨h, []⟩

/-- The headers continue the chain: links, targets on the chain as it grows, proof of work, version. -/
def ExtendsChain (E : Primitives) : List AnyBlock → List BlockHeaderV2 → Prop
  | _, [] => True
  | chain, h :: hs => (∃ last, chain.getLast? = some last ∧ last.hash E = .ok h.prevHash) ∧
      expectedTargetAt chain chain.length = .ok h.target ∧
      (∃ hash, h.hash E = .ok hash ∧ satisfiesPow hash h.target = true) ∧ h.version = PROTOCOL_VERSION ∧
      ExtendsChain E (chain ++ [.ofHeader h]) hs

/-- The message carries the headers. -/
def HeadersMessage.Carries (message : HeadersMessage) (headers : List BlockHeaderV2) : Prop :=
  List.Forall₂ (fun entry h => decodeHeader entry.headerBytes = .ok h) message.headers headers

theorem blockAt_prefix {chain ext : List AnyBlock} (hpre : chain <+: ext) {i : Nat} (hi : i < chain.length) :
    blockAt ext i = blockAt chain i := by
  obtain ⟨rest, rfl⟩ := hpre
  rw [blockAt, blockAt, List.getElem?_append_left hi]

theorem blockAt_past {chain : List AnyBlock} {i : Nat} (hi : chain.length ≤ i) : ∃ e, blockAt chain i = .error e :=
  ⟨_, by rw [blockAt, List.getElem?_eq_none hi]; rfl⟩

/-- From the first retarget height on, no target is known past the next block. -/
theorem expectedTargetAt_missing {chain : List AnyBlock} {height : Nat} (hpast : chain.length < height)
    (hbig : ¬ height < DIFFICULTY_RETARGET_INTERVAL) : ∃ e, expectedTargetAt chain height = .error e := by
  obtain ⟨e, he⟩ := @blockAt_past chain (height - 1) (by omega)
  rw [expectedTargetAt, if_neg (by omega), if_neg hbig]
  split
  · exact ⟨e, by rw [he, error_bind]⟩
  · -- the last block of the window is missing, if not the first already
    rw [retargetAt, if_neg hbig, he]
    cases blockAt chain (height - DIFFICULTY_RETARGET_INTERVAL) with
    | error e' => exact ⟨e', rfl⟩
    | ok first => exact ⟨e, rfl⟩

/-- Past the next block the shorter chain knows the targets below the first retarget height only. -/
theorem expectedTargetAt_short {chain ext : List AnyBlock} (hpre : chain <+: ext) (hne : chain ≠ []) :
    if ext.length = chain.length ∨ ext.length < DIFFICULTY_RETARGET_INTERVAL then
      expectedTargetAt chain ext.length = expectedTargetAt ext ext.length
    else ∃ e, expectedTargetAt chain ext.length = .error e := by
  have hlen := hpre.length_le
  have hpos := List.length_pos_of_ne_nil hne
  split
  · rename_i h
    rcases h with h | h
    · rw [hpre.eq_of_length h.symm]
    · have hzero : ¬ ext.length = 0 := by omega
      rw [expectedTargetAt, expectedTargetAt, if_neg hzero, if_neg hzero, if_pos h, if_pos h, blockAt_prefix hpre hpos]
  · rename_i h
    obtain ⟨hlonger, hbig⟩ := not_or.mp h
    exact expectedTargetAt_missing (by omega) hbig

variable {B : Builtins} {l : Ledger}

/-- The loop lets the headers through exactly if the target at each height can be read off the local chain. -/
theorem parseHeaders_iff (hne : l.chain ≠ []) : ∀ {headers : List BlockHeaderV2} {entries : List HeaderEntry} {idx : Nat}
    {ext : List AnyBlock} {tip : AnyBlock} {prevHash : Str}, l.chain <+: ext → ext.getLast? = some tip →
    tip.hash B.toPrimitives = .ok prevHash → ExtendsChain B.toPrimitives ext headers →
    List.Forall₂ (fun entry h => decodeHeader entry.headerBytes = .ok h) entries headers →
    (parseHeaders B l idx prevHash ext.length entries = .ok headers ↔
      ∀ i < headers.length, ext.length + i = l.chain.length ∨ ext.length + i < DIFFICULTY_RETARGET_INTERVAL) := by
  intro headers
  induction headers with
  | nil =>
    intro entries idx ext tip prevHash _ _ _ _ hcarries
    cases hcarries
    exact ⟨fun _ i hi => absurd hi (Nat.not_lt_zero i), fun _ => rfl⟩
  | cons h headers ih =>
    intro entries idx ext tip prevHash hpre htip hprev hext hcarries
    cases hcarries with
    | cons hentry hcarries =>
      rename_i entry entries
      obtain ⟨⟨last, hlast, hlink⟩, htarget, ⟨hash, hhash, hpow⟩, hversion, hext⟩ := hext
      have heq : h.prevHash = prevHash := by
        rw [htip] at hlast
        cases hlast
        exact Except.ok.inj (hlink.symm.trans hprev)
      have hshort := expectedTargetAt_short hpre hne
      have hdecode : orInvalidData B "header %: decode failed: %" [.int idx] (decodeHeader entry.headerBytes) = .ok h := by
        rw [hentry]
        rfl
      have hgrown : (ext ++ [AnyBlock.ofHeader h]).length = ext.length + 1 := List.length_append
      by_cases hk : ext.length = l.chain.length ∨ ext.length < DIFFICULTY_RETARGET_INTERVAL
      · rw [if_pos hk, htarget] at hshort
        have hrest := @ih _ (idx + 1) _ _ _ (hpre.trans (List.prefix_append ext [AnyBlock.ofHeader h]))
          List.getLast?_concat hhash hext hcarries
        rw [hgrown] at hrest
        rw [parseHeaders, hdecode, ok_bind, require_of _ heq, ok_bind, hshort, ok_bind, require_of _ rfl, ok_bind, hhash,
          ok_bind, require_of _ hpow, ok_bind, require_of _ hversion, ok_bind, bind_eq_ok]
        constructor
        · rintro ⟨rest, hparse, hcons⟩ i hi
          cases hcons
          cases i with
          | zero => exact hk
          | succ i =>
            have := hrest.mp hparse i (Nat.lt_of_succ_lt_succ hi)
            omega
        · intro hall
          refine ⟨headers, hrest.mpr fun i hi => ?_, rfl⟩
          have := hall (i + 1) (Nat.succ_lt_succ hi)
          omega
      · rw [if_neg hk] at hshort
        obtain ⟨e, he⟩ := hshort
        rw [parseHeaders, hdecode, ok_bind, require_of _ heq, ok_bind, he, error_bind]
        exact ⟨nofun, fun hall => absurd (hall 0 (Nat.zero_lt_succ _)) hk⟩

/-- Headers that extend the chain are let through one at a time, or below the first retarget height. -/
theorem parseHeadersMessage_iff {message : HeadersMessage} {headers : List BlockHeaderV2} (hne : headers ≠ [])
    (hext : ExtendsChain B.toPrimitives l.chain headers) (hcarries : message.Carries headers) :
    parseHeadersMessage B l message = .ok headers ↔
      headers.length = 1 ∨ l.chain.length + headers.length ≤ DIFFICULTY_RETARGET_INTERVAL := by
  obtain ⟨h, rest, rfl⟩ := List.exists_cons_of_ne_nil hne
  obtain ⟨⟨last, hlast, hlink⟩, -⟩ := id hext
  have hchain : l.chain ≠ [] := fun hnil => by rw [hnil] at hlast; cases hlast
  have hlast' : l.lastBlock = .ok last := by rw [Ledger.lastBlock, hlast, orRaise]
  rw [parseHeadersMessage, hlast', ok_bind, hlink, ok_bind, parseHeaders_iff hchain List.prefix_rfl hlast hlink hext hcarries]
  constructor
  · intro hall
    have := hall rest.length (Nat.lt_succ_self _)
    rw [List.length_cons]
    omega
  · intro h i hi
    rw [List.length_cons] at h hi
    omega

end ChainBreaker
