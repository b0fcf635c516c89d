import ChainBreaker.AppendBlock
import ChainBreaker.CacheCoherence
import ChainBreaker.HeaderSync

/-!
# The sync engine

Headers are taken in batches, the blocks of a batch one by one: each goes into the
ledger when it comes, and all of them into the store after the last. A call may raise
after it has changed the engine, so each returns its result with what it leaves.
-/

namespace ChainBreaker

open Fallible FileSteps

inductive SyncState where
  | idle | discoveringTip | requestingHeaders | validatingHeaders | requestingBlocks | validatingBlocks
  | committing | synced | peerInvalid | syncTimeout | invalidData | storageFailure | retryBackoff
  deriving DecidableEq

/-- What a handler answers. -/
inductive SyncReply where
  | invalid (reason : Str)
  | synced
  | noBetterChain
  | requestBlocks (count : Nat)
  | unexpectedBlock
  | nextBlock
  | committed (newHeight : Int)

/-- What the engine shares with the rest of the node. -/
structure Node where
  ledger : Ledger
  storage : StoreFiles

structure SyncEngine where
  state : SyncState := .idle
  pendingHeaders : List BlockHeaderV2 := []
  pendingBlocks : List BlockV2 := []

/-- The surroundings of one call: the clock, and for each append of a commit the
number of steps after which the operating system raises, if it does. -/
structure Surroundings where
  now : Int
  faults : Nat → Option Nat := fun _ => none

section
variable (B : Builtins) (C : StoreConfig)

/-- `registry_state_at(self._ledger.height() - 1)`. -/
def Ledger.stateBelowTip (l : Ledger) : Except PyErr RegistryState :=
  if l.chain.length < 2 then raise .ledgerError "registry state not available at height %" [.int (l.height - 1)]
  else l.registryStateAt (l.chain.length - 2)

/-- The arguments of the calls of `append_block` in `_commit`. -/
def commitCalls (l : Ledger) (blocks : List BlockV2) : Except PyErr (List (BlockV2 × RegistryState)) :=
  collect (fun block => (l.stateBelowTip).map fun state => (block, state)) blocks

/-- Calls of `append_block` one after the other, up to the first that raises. -/
def appendAll (faults : Nat → Option Nat) (files : StoreFiles) : List (BlockV2 × RegistryState) → Except PyErr Unit × StoreFiles
  | [] => (.ok (), files)
  | (block, state) :: calls =>
    match appendBlock B.toRuntime C (faults 0) files block state with
    | (.error e, files) => (.error e, files)
    | (.ok _, files) => appendAll (fun i => faults (i + 1)) files calls

/-- The `try` of `_commit`: the ledger stays as it is, and so do the states looked up. -/
def commitBlocks (S : Surroundings) (s : Node) (blocks : List BlockV2) : Except PyErr Unit × StoreFiles :=
  match commitCalls s.ledger blocks with
  | .error e => (.error e, s.storage)
  | .ok calls => appendAll B C S.faults s.storage calls

namespace SyncEngine

def startHeaderSync (e : SyncEngine) (s : Node) : Except PyErr Bytes × SyncEngine :=
  ((createGetHeaders B.toPrimitives s.ledger).bind fun msg => msg.toPayload B.toPrimitives,
    { e with state := .requestingHeaders })

/-- The headers of the message, and whether they have more work than the local chain. -/
def handleHeaders (e : SyncEngine) (s : Node) (payload : Bytes) : Except PyErr SyncReply × SyncEngine :=
  let e := { e with state := .validatingHeaders }
  match HeadersMessage.fromPayload B payload >>= parseHeadersMessage B s.ledger with
  | .error exc =>
    if exc.kind = .syncInvalidDataError then (.ok (.invalid (B.errText exc)), { e with state := .invalidData })
    else (.error exc, e)
  | .ok [] => (.ok .synced, { e with state := .synced })
  | .ok headers =>
    match computeChainWork headers, s.ledger.chainWork with
    | .error exc, _ => (.error exc, e)
    | _, .error exc => (.error exc, e)
    | .ok newWork, .ok localWork =>
      if newWork ≤ localWork then (.ok .noBetterChain, { e with state := .synced })
      else (.ok (.requestBlocks headers.length), { e with pendingHeaders := headers, state := .requestingBlocks })

def nextBlockRequest (e : SyncEngine) : Except PyErr (Option Str) :=
  match e.pendingHeaders with
  | [] => .ok none
  | header :: _ => (headerHash B.toPrimitives header).map some

def commit (S : Surroundings) (e : SyncEngine) (s : Node) : Except PyErr SyncReply × SyncEngine × Node :=
  match commitBlocks B C S s e.pendingBlocks with
  | (.error exc, files) =>
    (.error ⟨.syncStorageError, "storage commit failed: %", [.str (B.errText exc)]⟩,
      { e with state := .storageFailure, pendingBlocks := [] }, { s with storage := files })
  | (.ok (), files) =>
    (.ok (.committed s.ledger.height), { e with state := .synced, pendingBlocks := [] }, { s with storage := files })

/-- The hash of the last pending block, or of the ledger's tip. -/
def expectedPrevHash (e : SyncEngine) (s : Node) : Except PyErr Str :=
  match e.pendingBlocks.getLast? with
  | some block => block.hash B.toPrimitives
  | none => do
    let last ← s.ledger.lastBlock
    last.hash B.toPrimitives

def handleBlock (S : Surroundings) (e : SyncEngine) (s : Node) (payload : Bytes) :
    Except PyErr SyncReply × SyncEngine × Node :=
  match e.pendingHeaders with
  | [] => (.ok .unexpectedBlock, e, s)
  | _ :: laterHeaders =>
    let e := { e with state := .validatingBlocks }
    -- the ledger has grown by the pending blocks already, which are counted once more
    let expectedHeight := s.ledger.chain.length + e.pendingBlocks.length
    match e.expectedPrevHash B s with
    | .error exc => (.error exc, e, s)
    | .ok prevHash =>
      match BlockMessage.fromPayload B payload >>= fun msg => parseBlockMessage B s.ledger msg expectedHeight prevHash with
      | .error exc =>
        if exc.kind = .syncInvalidDataError then (.ok (.invalid (B.errText exc)), { e with state := .invalidData }, s)
        else (.error exc, e, s)
      | .ok block =>
        match s.ledger.addBlockV2 B.toPrimitives block S.now with
        | .error exc => (.error exc, e, s)
        | .ok (false, ledger) =>
          (.ok (.invalid (str "ledger rejected block")), { e with state := .invalidData }, { s with ledger := ledger })
        | .ok (true, ledger) =>
          let e := { e with pendingBlocks := e.pendingBlocks ++ [block], pendingHeaders := laterHeaders }
          if laterHeaders.isEmpty then commit B C S { e with state := .committing } { s with ledger := ledger }
          else (.ok .nextBlock, { e with state := .requestingBlocks }, { s with ledger := ledger })

def reset (_ : SyncEngine) : SyncEngine := {}

end SyncEngine

end

/-! ## Batches of headers that are taken -/

section
variable {B : Builtins} {l : Ledger} {s : Node} {e : SyncEngine} {payload : Bytes} {headers : List BlockHeaderV2}

/-- The batch has more work by itself than the whole local chain. -/
def Ledger.OutworkedBy (l : Ledger) (headers : List BlockHeaderV2) : Prop :=
  ∃ new total, computeChainWork headers = .ok new ∧ l.chainWork = .ok total ∧ total < new

/-- The engine sets out to ask for the blocks of the headers. -/
def SyncEngine.TakesBatch (B : Builtins) (l : Ledger) (payload : Bytes) (headers : List BlockHeaderV2) : Prop :=
  ∃ message, HeadersMessage.fromPayload B payload = .ok message ∧ parseHeadersMessage B l message = .ok headers ∧
    headers ≠ [] ∧ l.OutworkedBy headers

theorem SyncEngine.TakesBatch.unique {headers' : List BlockHeaderV2} (h : SyncEngine.TakesBatch B l payload headers)
    (h' : SyncEngine.TakesBatch B l payload headers') : headers = headers' := by
  obtain ⟨message, hmsg, hparse, -⟩ := h
  obtain ⟨message', hmsg', hparse', -⟩ := h'
  cases Except.ok.inj (hmsg.symm.trans hmsg')
  exact Except.ok.inj (hparse.symm.trans hparse')

/-- What `handle_headers` can do: a batch is taken, or the engine changes its state only. -/
theorem handleHeaders_cases (e : SyncEngine) (s : Node) (payload : Bytes) :
    (∃ headers, SyncEngine.TakesBatch B s.ledger payload headers ∧ e.handleHeaders B s payload =
      (.ok (.requestBlocks headers.length), { e with pendingHeaders := headers, state := .requestingBlocks })) ∨
    ((∀ headers, ¬ SyncEngine.TakesBatch B s.ledger payload headers) ∧ ∃ answer state,
      e.handleHeaders B s payload = (answer, { e with state := state }) ∧ ∀ n, answer ≠ .ok (.requestBlocks n)) := by
  unfold SyncEngine.handleHeaders
  cases hparse : HeadersMessage.fromPayload B payload >>= parseHeadersMessage B s.ledger with
  | error exc =>
    refine .inr ⟨?_, ?_⟩
    · rintro headers ⟨message, hmsg, hheaders, -⟩
      rw [hmsg, ok_bind, hheaders] at hparse
      cases hparse
    · by_cases hkind : exc.kind = .syncInvalidDataError
      · exact ⟨_, _, if_pos hkind, nofun⟩
      · exact ⟨_, _, if_neg hkind, nofun⟩
  | ok headers =>
    obtain ⟨message, hmsg, hheaders⟩ := bind_eq_ok.mp hparse
    have hunique : ∀ {headers'}, SyncEngine.TakesBatch B s.ledger payload headers' →
        headers' = headers ∧ headers ≠ [] ∧ s.ledger.OutworkedBy headers := by
      rintro headers' ⟨message', hmsg', hheaders', hne, hwork⟩
      rw [hmsg] at hmsg'
      cases hmsg'
      rw [hheaders] at hheaders'
      cases hheaders'
      exact ⟨rfl, hne, hwork⟩
    cases headers with
    | nil => exact .inr ⟨fun headers' htakes => (hunique htakes).2.1 rfl, _, _, rfl, nofun⟩
    | cons header headers =>
      dsimp only
      cases hnew : computeChainWork (header :: headers) with
      | error exc =>
        refine .inr ⟨fun headers' htakes => ?_, _, _, rfl, fun _ => nofun⟩
        obtain ⟨-, -, new, total, hnew', -⟩ := hunique htakes
        rw [hnew] at hnew'
        cases hnew'
      | ok new =>
        cases htotal : s.ledger.chainWork with
        | error exc =>
          refine .inr ⟨fun headers' htakes => ?_, _, _, rfl, fun _ => nofun⟩
          obtain ⟨-, -, new', total, -, htotal', -⟩ := hunique htakes
          rw [htotal] at htotal'
          cases htotal'
        | ok total =>
          by_cases hle : new ≤ total
          · refine .inr ⟨fun headers' htakes => ?_, _, _, if_pos hle, fun _ => nofun⟩
            obtain ⟨-, -, new', total', hnew', htotal', hlt⟩ := hunique htakes
            rw [hnew] at hnew'
            rw [htotal] at htotal'
            cases hnew'
            cases htotal'
            exact absurd hle (Int.not_le.mpr hlt)
          · exact .inl ⟨header :: headers, ⟨message, hmsg, hheaders, List.cons_ne_nil _ _, new, total, hnew, htotal,
              Int.not_le.mp hle⟩, if_neg hle⟩

theorem handleHeaders_taken_iff : e.handleHeaders B s payload =
      (.ok (.requestBlocks headers.length), { e with pendingHeaders := headers, state := .requestingBlocks }) ↔
    SyncEngine.TakesBatch B s.ledger payload headers := by
  rcases handleHeaders_cases (B := B) e s payload with ⟨headers', htakes, h⟩ | ⟨hnone, answer, state, h, hanswer⟩
  · rw [h]
    constructor
    · intro heq
      obtain ⟨-, hengine⟩ := Prod.mk.inj heq
      obtain rfl : headers' = headers := congrArg SyncEngine.pendingHeaders hengine
      exact htakes
    · intro htakes'
      rw [htakes.unique htakes']
  · rw [h]
    exact ⟨fun heq => absurd (Prod.mk.inj heq).1 (hanswer _), fun htakes => absurd htakes (hnone headers)⟩

/-- **Header sync takes valid headers at the start of a chain only.** Headers that
extend the local chain are all returned and the engine goes on to their blocks
exactly if they are one, or end below the first retarget height, and have more work
by themselves than the chain they extend. -/
theorem header_sync_iff {message : HeadersMessage} (hmsg : HeadersMessage.fromPayload B payload = .ok message)
    (hcarries : message.Carries headers) (hext : ExtendsChain B.toPrimitives s.ledger.chain headers) :
    (parseHeadersMessage B s.ledger message = .ok headers ∧ e.handleHeaders B s payload =
      (.ok (.requestBlocks headers.length), { e with pendingHeaders := headers, state := .requestingBlocks })) ↔
    headers ≠ [] ∧ (headers.length = 1 ∨ s.ledger.chain.length + headers.length ≤ DIFFICULTY_RETARGET_INTERVAL) ∧
      s.ledger.OutworkedBy headers := by
  rw [handleHeaders_taken_iff]
  constructor
  · rintro ⟨hparse, message', -, -, hne, hwork⟩
    exact ⟨hne, (parseHeadersMessage_iff hne hext hcarries).mp hparse, hwork⟩
  · rintro ⟨hne, hshort, hwork⟩
    have hparse := (parseHeadersMessage_iff hne hext hcarries).mpr hshort
    exact ⟨hparse, message, hmsg, hparse, hne, hwork⟩

end

/-! ## The first two blocks of the alpha network -/

/-- The empty block after `alphaChild`. -/
def alphaSecond : BlockV2 :=
  alphaBlock (str "0000e91ffe8f11e6454e4d27524689678fbfa7aea4e05d268ce7d3d4801fdb17") 1704068400 33997

/-- `encode_header`, of a header that can be encoded. -/
def headerHex (h : BlockHeaderV2) : Str :=
  match h.bytes with
  | .ok raw => toHex raw
  | .error _ => []

def alphaEntries : List HeaderEntry :=
  [⟨1, str "0000e91ffe8f11e6454e4d27524689678fbfa7aea4e05d268ce7d3d4801fdb17", headerHex alphaChild.header⟩,
    ⟨2, str "000018a99f915deba91769acb7cf1450f3df0fc852dfbc5ea32427fbb5c07b46", headerHex alphaSecond.header⟩]

section
variable {l : Ledger}

theorem alpha_chain (h : Ledger.init (recorded []) {} = .ok l) : l.chain = [.v2 alphaGenesis] := by
  obtain ⟨identity, g, hidentity, hg, hinit⟩ := init_genesis h rfl
  cases Except.ok.inj hidentity
  cases Except.ok.inj (alphaGenesis_eq.symm.trans hg)
  exact (initOn_fields hinit).1

set_option maxRecDepth 100000 in
theorem alpha_hashes : alphaGenesis.hash (recorded []) = .ok GENESIS_HASH ∧
    alphaChild.hash (recorded []) = .ok alphaSecond.header.prevHash ∧
    alphaSecond.hash (recorded []) = .ok (str "000018a99f915deba91769acb7cf1450f3df0fc852dfbc5ea32427fbb5c07b46") :=
  ⟨of_okEq (by decide +kernel), of_okEq (by decide +kernel), of_okEq (by decide +kernel)⟩

example : alphaEntries.map HeaderEntry.height = [1, 2] := by decide +kernel

set_option maxRecDepth 100000 in
theorem alphaEntries_sound : ∀ entry ∈ alphaEntries, entry.Sound := by
  have h : ∀ entry ∈ alphaEntries, 0 ≤ entry.height ∧ isLowerHash entry.hash = true ∧
      asciiStr entry.headerBytes = true := by decide +kernel
  exact fun entry hentry => ⟨(h entry hentry).1, (h entry hentry).2.1, (h entry hentry).2.2⟩

set_option maxRecDepth 100000 in
theorem alphaEntries_carry : (HeadersMessage.mk alphaEntries).Carries [alphaChild.header, alphaSecond.header] :=
  .cons (of_okEq (by decide +kernel)) (.cons (of_okEq (by decide +kernel)) .nil)

theorem alpha_extended : ExtendsChain (recorded []) [.v2 alphaGenesis] [alphaChild.header, alphaSecond.header] := by
  obtain ⟨hgenesis, hchild, hsecond⟩ := alpha_hashes
  have hpow : satisfiesPow alphaSecond.header.prevHash MAX_TARGET = true ∧
      satisfiesPow (str "000018a99f915deba91769acb7cf1450f3df0fc852dfbc5ea32427fbb5c07b46") MAX_TARGET = true := by
    decide +kernel
  exact ⟨⟨_, rfl, hgenesis⟩, rfl, ⟨_, hchild, hpow.1⟩, rfl, ⟨_, rfl, hchild⟩, rfl, ⟨_, hsecond, hpow.2⟩, rfl, trivial⟩

theorem alpha_works : computeChainWork [alphaChild.header] = .ok 1 ∧
    computeChainWork [alphaChild.header, alphaSecond.header] = .ok 2 ∧
    ∀ l : Ledger, l.chain = [.v2 alphaGenesis] → l.chainWork = .ok 1 := by
  refine ⟨of_okEq (by decide +kernel), of_okEq (by decide +kernel), fun l hl => ?_⟩
  have hwork : run (fun total b => (b.work).map (total + ·)) 0 [AnyBlock.v2 alphaGenesis] = .ok 1 :=
    of_okEq (by decide +kernel)
  rw [Ledger.chainWork, hl, hwork]

/-- The message of the two headers. -/
theorem alpha_message : ∃ payload, (HeadersMessage.mk alphaEntries).toPayload builtins.toPrimitives = .ok payload ∧
    HeadersMessage.fromPayload builtins payload = .ok ⟨alphaEntries⟩ := by
  obtain ⟨payload, hpayload⟩ : ∃ payload, (HeadersMessage.mk alphaEntries).toPayload builtins.toPrimitives = .ok payload :=
    ⟨_, rfl⟩
  exact ⟨payload, hpayload, HeadersMessage.fromPayload_toPayload (B := builtins) (m := ⟨alphaEntries⟩) (by decide)
    alphaEntries_sound hpayload⟩

theorem alpha_taken {payload : Bytes} (hchain : l.chain = [.v2 alphaGenesis])
    (hmsg : HeadersMessage.fromPayload builtins payload = .ok ⟨alphaEntries⟩) :
    SyncEngine.TakesBatch builtins l payload [alphaChild.header, alphaSecond.header] := by
  have hparse := (parseHeadersMessage_iff (B := builtins) (l := l) (List.cons_ne_nil _ _) (by rw [hchain]; exact alpha_extended)
    alphaEntries_carry).mpr (.inr (by rw [hchain]; decide))
  exact ⟨_, hmsg, hparse, List.cons_ne_nil _ _, 2, 1, alpha_works.2.1, alpha_works.2.2 l hchain, by decide⟩

end

/-- Two headers on the genesis block of the alpha network are taken. -/
theorem header_sync_alpha : ∃ l payload, Ledger.init builtins.toPrimitives {} = .ok l ∧
    (HeadersMessage.mk alphaEntries).toPayload builtins.toPrimitives = .ok payload ∧
    ∀ e storage, (SyncEngine.handleHeaders builtins e ⟨l, storage⟩ payload).1 = .ok (.requestBlocks 2) := by
  obtain ⟨l, hl, -⟩ := alphaLedger_grown
  obtain ⟨payload, hpayload, hmsg⟩ := alpha_message
  have hchain := alpha_chain hl
  refine ⟨l, payload, hl, hpayload, fun e storage => ?_⟩
  have htaken := (header_sync_iff (e := e) (s := ⟨l, storage⟩) hmsg alphaEntries_carry
    (by rw [hchain]; exact alpha_extended)).mpr ⟨List.cons_ne_nil _ _, .inr (by rw [hchain]; decide), 2, 1,
      alpha_works.2.1, alpha_works.2.2 l hchain, by decide⟩
  rw [htaken.2]
  rfl

/-- One header on the genesis block is no better chain: the genesis block has as much work. -/
theorem single_header_refused : ∃ l payload message, Ledger.init builtins.toPrimitives {} = .ok l ∧
    HeadersMessage.fromPayload builtins payload = .ok message ∧ message.Carries [alphaChild.header] ∧
    ExtendsChain builtins.toPrimitives l.chain [alphaChild.header] ∧
    ∀ e storage, SyncEngine.handleHeaders builtins e ⟨l, storage⟩ payload ≠
      (.ok (.requestBlocks 1), { e with pendingHeaders := [alphaChild.header], state := .requestingBlocks }) := by
  obtain ⟨l, hl, -⟩ := alphaLedger_grown
  obtain ⟨payload, hpayload⟩ : ∃ payload,
      (HeadersMessage.mk (alphaEntries.take 1)).toPayload builtins.toPrimitives = .ok payload := ⟨_, rfl⟩
  have hchain := alpha_chain hl
  have hmsg := HeadersMessage.fromPayload_toPayload (B := builtins) (m := ⟨alphaEntries.take 1⟩) (by decide)
    (fun entry hentry => alphaEntries_sound entry (List.mem_of_mem_take hentry)) hpayload
  obtain ⟨hlink, htarget, hpow, hversion, -⟩ := alpha_extended
  refine ⟨l, payload, _, hl, hmsg, List.forall₂_take 1 alphaEntries_carry, ?_, fun e storage htaken => ?_⟩
  · rw [hchain]
    exact ⟨hlink, htarget, hpow, hversion, trivial⟩
  · obtain ⟨-, -, -, -, new, total, hnew, htotal, hlt⟩ :=
      (@handleHeaders_taken_iff builtins ⟨l, storage⟩ e payload [alphaChild.header]).mp htaken
    rw [alpha_works.1] at hnew
    rw [alpha_works.2.2 l hchain] at htotal
    cases hnew
    cases htotal
    exact absurd hlt (by decide)

end ChainBreaker
