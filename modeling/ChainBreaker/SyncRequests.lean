import ChainBreaker.Commitment
import ChainBreaker.SyncEngine

/-!
# The blocks a sync asks for

A run of the engine is a list of calls, with changes of ledger and store by the rest
of the node between them. The hash that a block is asked under is that of its header
as JSON, which no block has (`headerHash_ne`); so a run asks rightly as long as no batch
of headers is taken (`sync_asks_iff`).
-/

namespace ChainBreaker

open Fallible

/-! ## Runs -/

/-- A call of the engine, or a change of the node by its other parts. -/
inductive SyncCall where
  | startHeaderSync
  | handleHeaders (payload : Bytes)
  | nextBlockRequest
  | handleBlock (S : Surroundings) (payload : Bytes)
  | reset
  | elsewhere (s : Node)

section
variable (B : Builtins) (C : StoreConfig)

/-- The engine and the node after the call, which may have raised. -/
def SyncCall.after (p : SyncEngine × Node) : SyncCall → SyncEngine × Node
  | .startHeaderSync => ((p.1.startHeaderSync B p.2).2, p.2)
  | .handleHeaders payload => ((p.1.handleHeaders B p.2 payload).2, p.2)
  | .nextBlockRequest => p
  | .handleBlock S payload => (p.1.handleBlock B C S p.2 payload).2
  | .reset => (p.1.reset, p.2)
  | .elsewhere s => (p.1, s)

def SyncCall.afterAll (p : SyncEngine × Node) (calls : List SyncCall) : SyncEngine × Node :=
  calls.foldl (SyncCall.after B C) p

/-- `next_block_request` asks for the hash of the first pending header. -/
def SyncEngine.AsksForHeader (e : SyncEngine) : Prop :=
  ∀ asked, e.nextBlockRequest B = .ok (some asked) →
    ∃ header, e.pendingHeaders.head? = some header ∧ header.hash B.toPrimitives = .ok asked

/-- The block of the first pending header goes into the ledger, and from there
into the store, or the node stays as it is. -/
def TakesHeaderBlock (p q : SyncEngine × Node) : Prop :=
  q.2 = p.2 ∨ ∃ header block, p.1.pendingHeaders.head? = some header ∧ block.header = header ∧
    q.2.ledger.chain = p.2.ledger.chain ++ [.v2 block]

/-- The run asks for the blocks of the headers it has taken, and takes no others. -/
structure OnlyAsked (p : SyncEngine × Node) (calls : List SyncCall) : Prop where
  asked : ∀ pre, pre <+: calls → (SyncCall.afterAll B C p pre).1.AsksForHeader B
  taken : ∀ pre S payload post, calls = pre ++ .handleBlock S payload :: post →
    TakesHeaderBlock (SyncCall.afterAll B C p pre) (SyncCall.afterAll B C p (pre ++ [.handleBlock S payload]))

/-- The headers of a call are taken in the state before it. -/
def TakenIn (p : SyncEngine × Node) (calls : List SyncCall) (headers : List BlockHeaderV2) : Prop :=
  ∃ pre payload post, calls = pre ++ .handleHeaders payload :: post ∧
    SyncEngine.TakesBatch B (SyncCall.afterAll B C p pre).2.ledger payload headers

end

/-! ## The hash of a header as JSON -/

section
variable {E : Primitives}

theorem escapeChar_ne_nil (c : CodePoint) : escapeChar c ≠ [] := by
  unfold escapeChar unicodeEscape
  simp only
  split_ifs <;> exact List.cons_ne_nil _ _

theorem jsonStr_length (s : Str) : s.length ≤ (jsonStr s).length := by
  have hflat : s.length ≤ (s.flatMap escapeChar).length := by
    induction s with
    | nil => exact Nat.zero_le _
    | cons c s ih =>
      have := List.length_pos_of_ne_nil (escapeChar_ne_nil c)
      rw [List.flatMap_cons, List.length_append, List.length_cons]
      omega
  rw [jsonStr, List.length_append, List.length_cons]
  omega

theorem length_le_joinComma : ∀ {ps : List Bytes} {p : Bytes}, p ∈ ps → p.length ≤ (joinComma ps).length
  | [a], p, h => by rw [List.mem_singleton.mp h]; exact Nat.le_refl _
  | a :: b :: ps, p, h => by
    have hjoin : joinComma (a :: b :: ps) = a ++ 44 :: joinComma (b :: ps) := rfl
    rw [hjoin, List.length_append, List.length_cons]
    rcases List.mem_cons.mp h with rfl | h
    · exact Nat.le_add_right _ _
    · exact (length_le_joinComma h).trans (by omega)

theorem hex64_length (target : Int) : 64 ≤ (hex64 target).length := by
  unfold hex64
  split
  · rw [List.length_append, List.length_replicate]
    omega
  · rw [List.length_cons, List.length_append, List.length_replicate]
    omega

/-- The JSON of a header is longer than a digest. -/
theorem headerObject_length {header : BlockHeaderV2} {raw : Bytes} (h : canonicalJson E (headerObject header) = .ok raw) :
    32 < raw.length := by
  have hfield : (str "target", Json.str (hex64 header.target)) ∈
      Lex.sortOn charKey Prod.fst (normFields [(str "version", .int header.version), (str "prev_hash", .str header.prevHash),
        (str "merkle_root", .str header.merkleRoot), (str "registry_root", .str header.registryRoot),
        (str "timestamp", .int header.timestamp), (str "target", .str (hex64 header.target)),
        (str "nonce", .int header.nonce)]) := by
    rw [Lex.mem_sortOn, normFields_eq]
    exact List.mem_map.mpr ⟨(str "target", .str (hex64 header.target)), by simp, rfl⟩
  have htext := length_le_joinComma (List.mem_map_of_mem (f := fieldText E.floatRepr) hfield)
  have hstr := jsonStr_length (hex64 header.target)
  have hhex := hex64_length header.target
  rw [dumps_eq h, headerObject, Json.norm, text, fieldTexts_eq, List.length_cons, List.length_append]
  rw [fieldText, List.length_append, List.length_cons, text] at htext
  omega

/-- No block has the hash its header is asked under. -/
theorem headerHash_ne {header : BlockHeaderV2} {asked : Str}
    (hfree : CollisionFree E fun m => canonicalJson E (headerObject header) = .ok m ∨
      ∃ bytes, header.bytes = .ok bytes ∧ m = E.sha256 bytes)
    (hasked : headerHash E header = .ok asked) : header.hash E ≠ .ok asked := by
  intro hhash
  obtain ⟨raw, hraw, hdigest⟩ := bind_eq_ok.mp hasked
  obtain ⟨bytes, hbytes, hdouble⟩ := bind_eq_ok.mp hhash
  have hsame : E.sha256 raw = E.sha256 (E.sha256 bytes) :=
    toHex_inj (Except.ok.inj (hdigest.trans hdouble.symm))
  have hraw' := hfree raw _ (.inl hraw) (.inr ⟨bytes, hbytes, rfl⟩) hsame
  have hlong := headerObject_length hraw
  rw [hraw', E.sha256_length] at hlong
  exact absurd hlong (by decide)

/-- Two different hashes are no collision. -/
theorem headerHash_free {header : BlockHeaderV2} {asked hash : Str} (hasked : headerHash E header = .ok asked)
    (hhash : header.hash E = .ok hash) (hne : asked ≠ hash) :
    CollisionFree E fun m => canonicalJson E (headerObject header) = .ok m ∨
      ∃ bytes, header.bytes = .ok bytes ∧ m = E.sha256 bytes := by
  obtain ⟨raw, hraw, rfl⟩ : ∃ raw, canonicalJson E (headerObject header) = .ok raw ∧ asked = toHex (E.sha256 raw) := by
    obtain ⟨raw, hraw, h⟩ := bind_eq_ok.mp hasked
    exact ⟨raw, hraw, (Except.ok.inj h).symm⟩
  obtain ⟨bytes, hbytes, rfl⟩ : ∃ bytes, header.bytes = .ok bytes ∧ hash = toHex (E.sha256 (E.sha256 bytes)) := by
    obtain ⟨bytes, hbytes, h⟩ := bind_eq_ok.mp hhash
    exact ⟨bytes, hbytes, (Except.ok.inj h).symm⟩
  have hfields : ∀ m, (canonicalJson E (headerObject header) = .ok m ∨ ∃ bytes, header.bytes = .ok bytes ∧ m = E.sha256 bytes) →
      m = raw ∨ m = E.sha256 bytes := by
    rintro m (h | ⟨bytes', h, rfl⟩)
    · exact .inl (Except.ok.inj (h.symm.trans hraw))
    · cases Except.ok.inj (hbytes.symm.trans h)
      exact .inr rfl
  intro m m' hm hm' hsame
  rcases hfields m hm with rfl | rfl <;> rcases hfields m' hm' with rfl | rfl
  · rfl
  · exact absurd (congrArg toHex hsame) hne
  · exact absurd (congrArg toHex hsame.symm) hne
  · rfl

theorem headerHash_ok (header : BlockHeaderV2) : ∃ asked, headerHash E header = .ok asked := ⟨_, rfl⟩

end

/-! ## What a run asks for -/

section
variable {B : Builtins} {C : StoreConfig} {p : SyncEngine × Node} {calls : List SyncCall}

theorem SyncCall.afterAll_concat (p : SyncEngine × Node) (calls : List SyncCall) (call : SyncCall) :
    SyncCall.afterAll B C p (calls ++ [call]) = call.after B C (SyncCall.afterAll B C p calls) := by
  rw [SyncCall.afterAll, List.foldl_append]
  rfl

theorem nextBlockRequest_cons {e : SyncEngine} {header : BlockHeaderV2} {rest : List BlockHeaderV2} {asked : Str}
    (he : e.pendingHeaders = header :: rest) (hasked : headerHash B.toPrimitives header = .ok asked) :
    e.nextBlockRequest B = .ok (some asked) := by
  simp only [SyncEngine.nextBlockRequest, he, hasked, Except.map]

/-- Headers are pending after a call only if some were before it, or a batch is taken. -/
theorem step_pending {call : SyncCall} (hp : p.1.pendingHeaders = [])
    (hcall : ∀ payload, call = .handleHeaders payload → ∀ headers, ¬ SyncEngine.TakesBatch B p.2.ledger payload headers) :
    (call.after B C p).1.pendingHeaders = [] := by
  cases call with
  | startHeaderSync => exact hp
  | handleHeaders payload =>
    rcases handleHeaders_cases (B := B) p.1 p.2 payload with ⟨headers, htakes, -⟩ | ⟨-, answer, state, h, -⟩
    · exact absurd htakes (hcall payload rfl headers)
    · rw [SyncCall.after, h]
      exact hp
  | nextBlockRequest => exact hp
  | handleBlock S payload =>
    simp only [SyncCall.after, SyncEngine.handleBlock, hp]
  | reset => rfl
  | elsewhere s => exact hp

theorem run_pending (hp : p.1.pendingHeaders = []) (hnone : ∀ headers, ¬ TakenIn B C p calls headers)
    {pre : List SyncCall} (hpre : pre <+: calls) : (SyncCall.afterAll B C p pre).1.pendingHeaders = [] := by
  induction pre using List.reverseRecOn with
  | nil => exact hp
  | append_singleton pre call ih =>
    obtain ⟨post, rfl⟩ := hpre
    rw [SyncCall.afterAll_concat]
    refine step_pending (ih ⟨call :: post, by simp⟩) fun payload hcall headers htakes => ?_
    exact hnone headers ⟨pre, payload, post, by simp [hcall], htakes⟩

/-- **No block is asked for under its hash.** A run of a new engine asks for the
blocks of its headers under their hashes, and takes no others, exactly if it never
takes a batch of headers, so never asks. -/
theorem sync_asks_iff (s : Node)
    (hfree : ∀ header headers, TakenIn B C ({}, s) calls (header :: headers) → CollisionFree B.toPrimitives fun m =>
      canonicalJson B.toPrimitives (headerObject header) = .ok m ∨
        ∃ bytes, header.bytes = .ok bytes ∧ m = B.sha256 bytes) :
    OnlyAsked B C ({}, s) calls ↔ ∀ headers, ¬ TakenIn B C ({}, s) calls headers := by
  constructor
  · rintro h headers htaken
    obtain ⟨pre, payload, post, rfl, htakes⟩ := id htaken
    obtain ⟨-, -, -, hne, -⟩ := id htakes
    obtain ⟨header, rest, rfl⟩ := List.exists_cons_of_ne_nil hne
    obtain ⟨asked, hasked⟩ := headerHash_ok (E := B.toPrimitives) header
    -- after the batch its first header is asked for
    have hstate := (@handleHeaders_taken_iff B _ (SyncCall.afterAll B C ({}, s) pre).1 payload _).mpr htakes
    have hrequest := h.asked (pre ++ [.handleHeaders payload]) ⟨post, by simp⟩
    rw [SyncCall.afterAll_concat, SyncCall.after, hstate] at hrequest
    obtain ⟨header', hhead, hhash⟩ := hrequest asked (nextBlockRequest_cons rfl hasked)
    cases hhead
    exact headerHash_ne (hfree header rest htaken) hasked hhash
  · intro hnone
    constructor
    · intro pre hpre asked hasked
      rw [SyncEngine.nextBlockRequest, run_pending rfl hnone hpre] at hasked
      cases hasked
    · rintro pre S payload post rfl
      have hpending := run_pending rfl hnone (List.prefix_append pre (.handleBlock S payload :: post))
      rw [SyncCall.afterAll_concat]
      refine .inl ?_
      simp only [SyncCall.after, SyncEngine.handleBlock, hpending]

end

/-! ## The first request on the alpha network -/

set_option maxRecDepth 100000 in
theorem alphaChild_asked : headerHash (recorded []) alphaChild.header =
    .ok (str "3459eda3413100ce4b280b3689a89f46f0f5ff0cecc857f1c64ade7ae46d7bde") := of_okEq (by decide +kernel)

theorem alphaChild_asked_ne : str "3459eda3413100ce4b280b3689a89f46f0f5ff0cecc857f1c64ade7ae46d7bde" ≠
    alphaSecond.header.prevHash := by decide +kernel

/-- After the two headers of the alpha network a run no longer asks rightly. -/
theorem sync_asks_alpha : ∃ l payload, Ledger.init builtins.toPrimitives {} = .ok l ∧
    (HeadersMessage.mk alphaEntries).toPayload builtins.toPrimitives = .ok payload ∧
    ∀ C storage, ¬ OnlyAsked builtins C ({}, ⟨l, storage⟩) [.handleHeaders payload] := by
  obtain ⟨l, hl, -⟩ := alphaLedger_grown
  obtain ⟨payload, hpayload, hmsg⟩ := alpha_message
  have htakes := alpha_taken (alpha_chain hl) hmsg
  refine ⟨l, payload, hl, hpayload, fun C storage h => ?_⟩
  refine (sync_asks_iff ⟨l, storage⟩ fun header headers htaken => ?_).mp h _ ⟨[], payload, [], rfl, htakes⟩
  obtain ⟨pre, payload', post, hcalls, htakes'⟩ := htaken
  cases pre with
  | nil =>
    cases hcalls
    cases htakes.unique htakes'
    exact headerHash_free alphaChild_asked alpha_hashes.2.1 alphaChild_asked_ne
  | cons call pre => exact absurd (List.cons.inj hcalls).2 (by simp)

/-- The engine that has taken the headers asks for a hash that the block at height 1 does not have. -/
theorem wrong_hash_asked : ∃ l payload asked, Ledger.init builtins.toPrimitives {} = .ok l ∧
    HeadersMessage.fromPayload builtins payload = .ok ⟨alphaEntries⟩ ∧ ∀ storage,
      ((SyncEngine.handleHeaders builtins {} ⟨l, storage⟩ payload).2.nextBlockRequest builtins = .ok (some asked)) ∧
      (SyncEngine.handleHeaders builtins {} ⟨l, storage⟩ payload).2.pendingHeaders.head? = some alphaChild.header ∧
      alphaChild.header.hash builtins.toPrimitives ≠ .ok asked := by
  obtain ⟨l, hl, -⟩ := alphaLedger_grown
  obtain ⟨payload, -, hmsg⟩ := alpha_message
  refine ⟨l, payload, str "3459eda3413100ce4b280b3689a89f46f0f5ff0cecc857f1c64ade7ae46d7bde", hl, hmsg, fun storage => ?_⟩
  rw [(@handleHeaders_taken_iff builtins ⟨l, storage⟩ {} payload _).mpr (alpha_taken (alpha_chain hl) hmsg)]
  refine ⟨nextBlockRequest_cons rfl alphaChild_asked, rfl, fun hhash => ?_⟩
  exact alphaChild_asked_ne (Except.ok.inj (hhash.symm.trans alpha_hashes.2.1))

end ChainBreaker
