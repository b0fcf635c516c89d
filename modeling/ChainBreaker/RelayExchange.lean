import ChainBreaker.BlockResponses
import ChainBreaker.BlockWire
import ChainBreaker.ForwardedJson
import ChainBreaker.RelayRequests

/-!
# Requests and answers between two peers

A block that `handle_get_block` sends is decoded by every peer to a block with its
header, and so with the hash that was asked for. A request of one engine is read by
the other, and its answer settles it, whatever the ledger says to the block
(`request_answered`).
-/

namespace ChainBreaker

open Fallible Outstanding

/-! ## A block on its way -/

/-- What a value is read back as: its keys sorted, its floats named, its strings joined. -/
def Json.resent (v : Json) : Json := v.norm.named.parsed

theorem wire_loaded {v : Json} : v.wire = true → v.Loaded := by
  induction v using Json.induct with
  | float x => rintro ⟨⟩
  | str s => exact fun h => ⟨asciiStr_decoded h, rfl⟩
  | list xs ih =>
    rw [Json.wire, wireList_iff, loaded_list]
    exact fun h x hx => ih x hx (h x hx)
  | dict fs ih =>
    rw [wire_dict, loaded_dict]
    exact fun h => ⟨h.1, fun f hf => ⟨asciiStr_decoded (h.2 f hf).1, ih f hf (h.2 f hf).2⟩⟩
  | _ => exact fun _ => ⟨rfl, rfl⟩

theorem wire_named {v : Json} : v.wire = true → v.named = v := by
  induction v using Json.induct with
  | float x => rintro ⟨⟩
  | list xs ih =>
    rw [Json.wire, wireList_iff, Json.named, namedList_eq]
    intro h
    rw [List.map_congr_left fun x hx => ih x hx (h x hx), List.map_id']
  | dict fs ih =>
    rw [wire_dict, Json.named, namedFields_eq]
    intro h
    rw [List.map_congr_left fun f hf => by rw [ih f hf (h.2 f hf).2], List.map_id']
  | _ => exact fun _ => rfl

theorem wire_resent {v : Json} (h : v.wire = true) : v.resent = v.norm := by
  rw [Json.resent, reread_loaded (wire_loaded h), wire_named (norm_wire h)]

theorem carries_of_mem {d : Fields} {k : Str} {w : Json} (hd : (d.map Prod.fst).Nodup)
    (h : (k, w) ∈ d) : Carries d k w := by
  refine ⟨⟨_, h, rfl⟩, ?_⟩
  rintro ⟨_, v⟩ hf rfl
  exact congrArg Prod.snd (List.inj_on_of_nodup_map hd hf h rfl)

section
variable {B : Builtins} {b : BlockV2} {hash : Str}

theorem encodeHash_ascii {s : Str} {raw : Bytes} (h : encodeHash s = .ok raw) : asciiStr s = true :=
  fromHex_ascii (encodeHash_eq_ok.mp h).1

/-- The header of a block that has a hash is plain text. -/
theorem header_wire (h : b.hash B.toPrimitives = .ok hash) : ∃ d, b.header.toDict = .ok d ∧ d.toJson.wire = true := by
  obtain ⟨data, hdata, -⟩ := hash_eq_ok.mp h
  rw [BlockHeaderV2.bytes] at hdata
  obtain ⟨d, hd, hdata⟩ := bind_eq_ok.mp hdata
  rw [encodeHeaderV2, asCodecError_eq_ok] at hdata
  simp only [bind_eq_ok] at hdata
  obtain ⟨_, -, _, hprev, _, hmerkle, _, hregistry, _, -, _, htarget, -⟩ := hdata
  exact ⟨d, hd, HeaderDictV2.toJson_wire (encodeHash_ascii hprev) (encodeHash_ascii hmerkle)
    (encodeHash_ascii hregistry)
    (encodeHash_ascii htarget)⟩

/-- **A block that has a hash is decoded with its header** from what is sent of it,
whatever its transactions are. -/
theorem decodeBlock_encoded (hM : FloatsRead B.toRuntime) (h : b.hash B.toPrimitives = .ok hash) :
    decodeBlock B (toHex (RelayEngine.encoded B.toRuntime b)) =
      .ok { b with transactions := b.transactions.map Json.resent } := by
  obtain ⟨d, hd, hwire⟩ := header_wire h
  let fields : Fields := [(str "header", d.toJson), (str "transactions", .list b.transactions), (str "hash", .str hash)]
  have htext : toHex (RelayEngine.encoded B.toRuntime b) =
      toHex (text (nanText B.floatRepr) (Json.dict fields).norm) := by
    refine Except.ok.inj ((RelayEngine.encodeBlock_encoded h).symm.trans ?_)
    simp only [encodeBlock, BlockV2.toJson, hd, h, ok_bind, fields]
  have hplain : PlainStr (str "header") ∧ PlainStr (str "transactions") :=
    ⟨plainStr_ascii (by decide), plainStr_ascii (by decide)⟩
  have hkeys : (fields.map Prod.fst).Nodup := by
    change (["header", "transactions", "hash"].map str).Nodup
    decide
  have hheader : Carries fields (str "header") d.toJson := carries_of_mem hkeys (.head _)
  have htransactions : Carries fields (str "transactions") (.list b.transactions) :=
    carries_of_mem hkeys (.tail _ (.head _))
  obtain ⟨read, hread, hheader⟩ := hheader.reread hplain.1
  obtain ⟨read', hread', htransactions⟩ := htransactions.reread hplain.2
  obtain rfl : read = read' := Json.dict.inj (hread.symm.trans hread')
  have hsent := wire_resent hwire
  rw [Json.resent] at hsent
  rw [hsent] at hheader
  have hlist : (Json.list b.transactions).norm.named.parsed = .list (b.transactions.map Json.resent) := by
    rw [Json.norm, Json.named, Json.parsed, normList_eq, namedList_eq, parsedList_eq, List.map_map, List.map_map]
    rfl
  rw [hlist] at htransactions
  rw [htext, decodeBlock, fromHexOrRaise_eq_ok.mpr (fromHex_toHex _), ok_bind, decodePayload_text hM, hread, ok_bind,
    BlockV2.ofJson, Json.item, item_eq_ok.mpr hheader.get, ok_bind, BlockHeaderV2.ofJson_toJson hd, ok_bind, Json.getOr,
    htransactions.get, ok_bind, Option.getD_some, Json.iter, ok_bind]

end

/-! ## What is sent -/

section
variable {τ : Type} {B : Builtins} {C : StoreConfig} {L L' : RelayLimitPolicy τ} {ledger : Ledger} {files : StoreFiles}
  {payload p : Bytes} {msg : GetBlockMessage} {found : List (BlockV2 × Str)} {heights : List Nat} {hashes : List Str}

namespace RelayEngine

/-- What is found stands in the store, and was asked for. -/
theorem findBlock_stored {blockHash : Str} {out : Option (BlockV2 × Str)} : ∀ {heights : List Nat},
    findBlock B files blockHash heights = .ok out → ∀ f ∈ out, ∃ height, readBlock B.toRuntime files height = .ok f.1
  | [], h, f, hf => by
    cases h
    cases hf
  | height :: heights, h, f, hf => by
    rw [findBlock] at h
    split at h
    · split at h
      · exact findBlock_stored h f hf
      · cases h
    · rename_i candidate hread
      obtain ⟨hash, -, h⟩ := bind_eq_ok.mp h
      split at h
      · cases h
        cases hf
        exact ⟨height, hread⟩
      · exact findBlock_stored h f hf

theorem requested_stored (h : requested B files heights hashes = .ok found) :
    ∀ f ∈ found, f.2 ∈ hashes ∧ ∃ height, readBlock B.toRuntime files height = .ok f.1 := by
  induction hashes generalizing found with
  | nil =>
    cases h
    exact nofun
  | cons blockHash hashes ih =>
    obtain ⟨first, rest, hfirst, hrest, rfl⟩ := requested_cons.mp h
    intro f hf
    rcases List.mem_append.mp hf with hf | hf
    · have hmem := Option.mem_toList.mp hf
      obtain ⟨-, heq⟩ := findBlock_hash hfirst f hmem
      exact ⟨heq ▸ List.mem_cons_self, findBlock_stored hfirst f hmem⟩
    · exact ⟨List.mem_cons_of_mem _ (ih hrest f hf).1, (ih hrest f hf).2⟩

/-- An answer is read by every peer as blocks of the store with hashes of the request. -/
theorem sent_read (h : handleGetBlock B L ledger files payload = .ok (.sent p))
    (hmsg : GetBlockMessage.fromPayload B payload = .ok msg) :
    ∃ found, BlockMessage.fromPayload B p = .ok ⟨found.map (served B)⟩ ∧ found ≠ [] ∧ found.length ≤ msg.hashes.length ∧
      ∀ f ∈ found, f.1.hash B.toPrimitives = .ok f.2 ∧ f.2 ∈ msg.hashes ∧ ∃ height, readBlock B.toRuntime files height =
      .ok f.1 := by
  obtain ⟨msg', found, hmsg', -, hfound, hne, hp⟩ := handleGetBlock_sent.mp h
  cases hmsg.symm.trans hmsg'
  obtain ⟨hlength, hhash⟩ := requested_hash hfound
  have hfew : msg.hashes.length ≤ MAX_BLOCKS_RESPONSE := (getBlockCodec.sound hmsg).hashes.1
  refine ⟨found, BlockMessage.fromPayload_toPayload ?_ (served_sound hhash) hp, hne, hlength, fun f hf => ?_⟩
  · rw [List.length_map]
    omega
  · exact ⟨hhash f hf, requested_stored hfound f hf⟩

/-! ## What is made of it -/

section
variable {e : RelayEngine τ} {s : Node} {f : BlockV2 × Str}

/-- The entry of a block is never said to have another hash: what it is answered settles it. -/
theorem handleEntry_served (hM : FloatsRead B.toRuntime) (hf : f.1.hash B.toPrimitives = .ok f.2)
    (S : EntrySurroundings) (peerId : Str) (now : τ) :
    ∀ result, (e.handleEntry B C L S peerId now s (served B f)).1 = .ok result → result.answered = some f.2 := by
  have hdecode : (decodeBlock B (served B f).blockBytes >>= fun block => (block.hash B.toPrimitives).map fun hash =>
    (block, hash)) = .ok ({ f.1 with transactions := f.1.transactions.map Json.resent }, f.2) := by
    rw [served, decodeBlock_encoded hM hf, ok_bind]
    change Except.map _ (f.1.hash B.toPrimitives) = _
    rw [hf]
    rfl
  have hsame : ¬ f.2 ≠ (served B f).hash := not_not.mpr rfl
  intro result
  unfold RelayEngine.handleEntry
  rw [hdecode]
  dsimp only
  rw [if_neg hsame]
  cases e.seenCache.has L f.2 now with
  | mk seen cache =>
    cases seen with
    | true =>
      rintro ⟨⟩
      rfl
    | false =>
      dsimp only
      cases s.ledger.addBlockV2 B.toPrimitives _ S.wall with
      | error exc => rintro ⟨⟩
      | ok added =>
        obtain ⟨accepted, ledger⟩ := added
        cases accepted with
        | false =>
          rintro ⟨⟩
          rfl
        | true =>
          dsimp only
          cases storeBlock B C S.fault { s with ledger := ledger } _ with
          | mk stored s' =>
            cases stored with
            | error exc =>
              rintro ⟨⟩
              rfl
            | ok _ =>
              dsimp only
              cases cache.add L f.2 peerId now with
              | mk answer cache' =>
                cases answer with
                | error exc => rintro ⟨⟩
                | ok _ =>
                  rintro ⟨⟩
                  rfl

/-- Entries handled to the end have one result each. -/
theorem handleEntries_served (hM : FloatsRead B.toRuntime) (peerId : Str) (now : τ) : ∀ {found : List (BlockV2 × Str)}
    {S : Nat → EntrySurroundings} {e : RelayEngine τ} {s : Node}, (∀ f ∈ found, f.1.hash B.toPrimitives = .ok f.2) →
    (e.handleEntries B C L S peerId now s (found.map (served B))).2.1 = .ok () →
    (e.handleEntries B C L S peerId now s (found.map (served B))).1.map RelayResult.answered =
      found.map fun f => some f.2
  | [], _, _, _, _, _ => rfl
  | f :: found, S, e, s, hfound, hall => by
    have hfirst := @handleEntry_served τ B C L e s f hM (hfound f List.mem_cons_self) (S 0) peerId now
    rw [List.map_cons] at hall ⊢
    unfold RelayEngine.handleEntries at hall ⊢
    cases hentry : e.handleEntry B C L (S 0) peerId now s (served B f) with
    | mk answer rest =>
      obtain ⟨e', s'⟩ := rest
      rw [hentry] at hall hfirst
      cases answer with
      | error exc => cases hall
      | ok result =>
        have hrest := handleEntries_served hM peerId now (fun g hg => hfound g (List.mem_cons_of_mem _ hg)) hall
        rw [List.map_cons, List.map_cons, hfirst result rfl, hrest]

/-- A message of served blocks leaves no request for any of them. -/
theorem handleBlock_served (hM : FloatsRead B.toRuntime) (hread : BlockMessage.fromPayload B p =
    .ok ⟨found.map (served B)⟩) (hfound : ∀ f ∈ found, f.1.hash B.toPrimitives = .ok f.2) (hfew : (found.length : Int) ≤
    L.maxBlocksResponse)
    (S : Nat → EntrySurroundings) (peerId : Str) (now : τ) {reply : RelayReply}
    (h : (e.handleBlock B C L S peerId p now s).1 = .ok reply) :
    (∃ results, reply = .processed results ∧ results.map RelayResult.answered = found.map fun f => some f.2) ∧
    ∀ f ∈ found, f.2 ∉ (e.handleBlock B C L S peerId p now s).2.1.outstanding := by
  have hentries : blockEntries B L p = .ok (some (found.map (served B))) := by
    rw [blockEntries, hread, ok_bind, if_neg (by rw [List.length_map]; omega)]
  have hrelayed := @handleEntries_relayed τ L B C peerId now (found.map (served B)) S e s
  have hserved := @handleEntries_served τ B C L hM peerId now found S e s hfound
  unfold RelayEngine.handleBlock at h ⊢
  rw [hentries] at h ⊢
  dsimp only at h ⊢
  generalize e.handleEntries B C L S peerId now s (found.map (served B)) = outcome at *
  obtain ⟨results, answer, e', s'⟩ := outcome
  cases answer with
  | error exc => cases h
  | ok u =>
    cases h
    have hresults := hserved rfl
    refine ⟨⟨results, rfl, hresults⟩, fun f hf hmem => ?_⟩
    obtain ⟨g, hg, heq⟩ := List.mem_map.mp hmem
    change g ∈ e'.pendingRequests at hg
    rw [hrelayed.pending] at hg
    refine of_decide_eq_true (List.mem_filter.mp hg).2 ?_
    rw [heq, List.mem_filterMap]
    obtain ⟨result, hresult, hanswered⟩ : ∃ result ∈ results, result.answered = some f.2 := by
      rw [← List.mem_map, hresults]
      exact List.mem_map_of_mem hf
    exact ⟨result, hresult, hanswered⟩

end

end RelayEngine

end

/-! ## A request and its answer -/

section
variable {B : Builtins} {C : StoreConfig} {L : RequestLimits}

/-- The message for a request. -/
theorem request_read {hash : Str} (h : isLowerHash hash = true) (hbytes : 0 < L.maxBlockBytesTotal) :
    ∃ payload, (GetBlockMessage.mk [hash] L.maxBlockBytesTotal).toPayload B.toPrimitives = .ok payload ∧
      GetBlockMessage.fromPayload B payload = .ok ⟨[hash], L.maxBlockBytesTotal⟩ := by
  have hsound : GetBlockMessage.Sound ⟨[hash], L.maxBlockBytesTotal⟩ :=
    ⟨⟨(by decide : 1 ≤ MAX_BLOCKS_RESPONSE), List.forall_mem_singleton.mpr h⟩, hbytes⟩
  obtain ⟨payload, hpayload, hdecode⟩ := (getBlockCodec.bare hsound).back (B := B)
  exact ⟨payload, hpayload, getBlockCodec.back hsound hdecode⟩

/-- What the peer of a request may answer, and what its sender makes of it. -/
structure Answered (B : Builtins) (C : StoreConfig) (L : RequestLimits) (e : RelayEngine ℚ) (hash : Str)
    (r : BlockRequest) :
    Prop where
  /-- the peer reads the hash, and sends a block of its store with it, if it sends anything -/
  read : GetBlockMessage.fromPayload B r.payload = .ok ⟨[hash], L.maxBlockBytesTotal⟩
  sent : ∀ (L' : RelayLimitPolicy ℚ) ledger files p,
    RelayEngine.handleGetBlock B L' ledger files r.payload = .ok (.sent p) →
    ∃ block height, readBlock B.toRuntime files height = .ok block ∧ block.hash B.toPrimitives = .ok hash ∧
      BlockMessage.fromPayload B p = .ok ⟨[RelayEngine.served B (block, hash)]⟩
  /-- the sender decodes it, answers it with one result, and asks no more for it -/
  settled : ∀ (L' : RelayLimitPolicy ℚ) ledger files p,
    RelayEngine.handleGetBlock B L' ledger files r.payload = .ok (.sent p) →
    ∀ S peerId now s reply, (e.handleBlock B C L.toRelayLimitPolicy S peerId p now s).1 = .ok reply →
      (∃ result, reply = .processed [result] ∧ result.answered = some hash) ∧
      hash ∉ (e.handleBlock B C L.toRelayLimitPolicy S peerId p now s).2.1.outstanding

end

/-- Builtins whose floats are written by their bits. -/
def bitsBuiltins : Builtins := { builtins with toRuntime := alphaCodec.toRuntime }

end ChainBreaker
