import ChainBreaker.Messages
import ChainBreaker.Ledger
import ChainBreaker.Store

/-!
# Appending a block to the store

`append_block` derives the registry state after the block, stages header, record
and snapshot, publishes them, and moves HEAD, one file at a time. What a completed
call has stored is `appendBlock_ok`; it leaves every other block as it is.
-/

namespace ChainBreaker

open Fallible FileSteps

/-! ## The registry state after the block -/

/-- The transaction under the `type` of a body, for the default network. -/
def parseByType (body : Json) (txType : Json) : Except PyErr (Option GovernanceTx) :=
  if txType.eqStr (str "register") then do
    let tx ← CuratorRegisterTx.fromDict body NETWORK_ID
    .ok (some (.register tx))
  else if txType.eqStr (str "rotate") then do
    let tx ← CuratorRotateTx.fromDict body NETWORK_ID
    .ok (some (.rotate tx))
  else if txType.eqStr (str "revoke") then do
    let tx ← CuratorRevokeTx.fromDict body NETWORK_ID
    .ok (some (.revoke tx))
  else .ok none

/-- One turn of the loop over the transactions. -/
def deriveStep (E : Primitives) (ctx : GovernanceContext) (height : Nat) (state : RegistryState) (tx : Json) :
    Except PyErr RegistryState := do
  let body ← tx.getOr "body" tx
  let txType ← body.getOr "type" .null
  match ← parseByType body txType with
  | none => .ok state
  | some parsed => do
    let txid ← hashObjectHex E body
    applyRegistryTransaction E state parsed height txid ctx

def deriveState (E : Primitives) (height : Nat) (previousState : RegistryState) (transactions : List Json) :
    Except PyErr RegistryState := do
  let ctx ← GovernanceContext.init previousState.governanceKeys previousState.threshold NETWORK_ID
  run (deriveStep E ctx height) previousState transactions

/-! ## The files -/

/-- `_read_index_json`. -/
def readIndexJson (M : Runtime) (files : StoreFiles) (path : StorePath) : Except PyErr Json :=
  match files.lookup path with
  | none => .ok (.dict [])
  | some data => do
    let text ← decodeUtf8 data
    loads M.floatOf text

/-- `d[key] = value`, for an index. -/
def putItem (d : Json) (key : Str) (value : Json) : Except PyErr Fields :=
  match d with
  | .dict fields => .ok (Fields.put fields key value)
  | _ => raise .typeError "object does not support item assignment" []

/-- What a call writes. -/
structure Staged where
  height : Nat
  blockHash : Str
  headerBytes : Bytes
  state : RegistryState

section
variable (M : Runtime)

/-- `_update_indexes`: both indexes are read, and changed, before the first is written. -/
def updateIndexSteps (height : Nat) (blockHash : Str) : List StoreStep :=
  [⟨.heightToHash, fun files => do
      let heightToHash ← readIndexJson M files .heightToHash
      let hashToHeight ← readIndexJson M files .hashToHeight
      let heightToHash ← putItem heightToHash (natText height) (.str blockHash)
      let _ ← putItem hashToHeight blockHash (.int height)
      .ok (some (dumpsIndented M.floatRepr heightToHash))⟩,
    ⟨.hashToHeight, fun files => do
      let hashToHeight ← readIndexJson M files .hashToHeight
      let hashToHeight ← putItem hashToHeight blockHash (.int height)
      .ok (some (dumpsIndented M.floatRepr hashToHeight))⟩]

def stageSteps (block : BlockV2) (s : Staged) : List StoreStep :=
  let journalled (type : Nat) (payload : Except PyErr Bytes) : StoreStep :=
    ⟨.journal, fun files => do
      let payload ← payload
      (journalWrite M type s.height payload).content files⟩
  [journalWrite M JOURNAL_BEGIN s.height [],
    .write (.tmpHeader s.height) (.ok s.headerBytes),
    journalWrite M JOURNAL_HEADER_STAGED s.height s.headerBytes,
    .write (.tmpBlock s.height) (encodeBlockRecord M block),
    journalled JOURNAL_BLOCK_STAGED (encodeBlockRecord M block),
    .write (.tmpState s.height) (serializeRegistryState s.state),
    journalled JOURNAL_REGISTRY_STAGED (serializeRegistryState s.state)]

/-- A snapshot is written at every hundredth height, or over one that is there. -/
def publishSteps (s : Staged) : List StoreStep :=
  [⟨.header s.height, fun files => (readBytes files (.tmpHeader s.height)).map some⟩,
    ⟨.block s.height, fun files => (readBytes files (.tmpBlock s.height)).map some⟩,
    ⟨.state s.height, fun files =>
      if (files.lookup (.state s.height)).isSome ∨ s.height % SNAPSHOT_INTERVAL = 0 then
        (serializeRegistryState s.state).map some
      else .ok (files.lookup (.state s.height))⟩] ++
    updateIndexSteps M s.height s.blockHash ++ [journalWrite M JOURNAL_INDEX_STAGED s.height []]

def commitSteps (C : StoreConfig) (s : Staged) : List StoreStep :=
  [journalWrite M JOURNAL_COMMIT s.height [],
    .write .head (encodeHead ⟨s.height, s.blockHash, C.networkId, C.genesisHash, STORAGE_FORMAT_VERSION⟩),
    .unlink (.tmpHeader s.height), .unlink (.tmpBlock s.height), .unlink (.tmpState s.height)]

/-- All steps. That the staged header has the hash of the block needs no check
here: both are computed from the one header. -/
def appendSteps (C : StoreConfig) (block : BlockV2) (s : Staged) : List StoreStep :=
  stageSteps M block s ++ (publishSteps M s ++ commitSteps M C s)

/-- What is computed before the first file is touched. -/
def prepareAppend (C : StoreConfig) (files : StoreFiles) (block : BlockV2) (previousState : RegistryState) :
    Except PyErr Staged := do
  let tip ← getTip C files
  let height := tip.height + 1
  require (0 < height) (err .storageIOError "cannot overwrite genesis via append_block")
  let state ← deriveState M.toPrimitives height.toNat previousState block.transactions
  let headerBytes ← block.header.bytes
  .ok ⟨height.toNat, hashDoubleHex M.toPrimitives headerBytes, headerBytes, state⟩

/-- What a call returns, and the files it leaves. With `fault := some n` the
operating system raises after `n` steps. -/
def appendBlock (C : StoreConfig) (fault : Option Nat) (files : StoreFiles) (block : BlockV2)
    (previousState : RegistryState) : Except PyErr RegistryState × StoreFiles :=
  match prepareAppend M C files block previousState with
  | .error e => (.error e, files)
  | .ok s =>
    let steps := appendSteps M C block s
    match fault with
    | none => ((exec files steps).map fun _ => s.state, interrupt steps.length steps files)
    | some n => ((exec files (steps.take n)).bind fun _ => .error (err .storageIOError "Input/output error"),
        interrupt n steps files)

end

/-! ## What a completed call has stored -/

variable {M : Runtime} {C : StoreConfig} {block : BlockV2}

/-- The files after a completed call, as far as the chain is read from them. -/
structure Published (M : Runtime) (C : StoreConfig) (block : BlockV2) (s : Staged) (files files' : StoreFiles) : Prop where
  head : ∃ data, encodeHead ⟨s.height, s.blockHash, C.networkId, C.genesisHash, STORAGE_FORMAT_VERSION⟩ = .ok data ∧
    files'.lookup .head = some data
  block : ∃ record, encodeBlockRecord M block = .ok record ∧ files'.lookup (.block s.height) = some record
  other : ∀ k, k ≠ s.height → files'.lookup (.block k) = files.lookup (.block k)

theorem staged_block {s : Staged} {files staged : StoreFiles} (h : exec files (stageSteps M block s) = .ok staged) :
    ∃ record, encodeBlockRecord M block = .ok record ∧ staged.lookup (.tmpBlock s.height) = some record := by
  have hrun : exec files ((stageSteps M block s).take 3 ++ .write (.tmpBlock s.height) (encodeBlockRecord M block) ::
      (stageSteps M block s).drop 4) = .ok staged := h
  obtain ⟨u, o, -, ho, hlookup⟩ := exec_last hrun (by simp [stageSteps, journalWrite, Step.write])
  obtain ⟨record, hrecord, rfl⟩ := Step.write_content.mp ho
  exact ⟨record, hrecord, hlookup⟩

theorem published_block {s : Staged} {record : Bytes} {staged published : StoreFiles}
    (hstaged : staged.lookup (.tmpBlock s.height) = some record) (h : exec staged (publishSteps M s) = .ok published) :
    published.lookup (.block s.height) = some record := by
  have hrun : exec staged ((publishSteps M s).take 1 ++
      ⟨.block s.height, fun files => (readBytes files (.tmpBlock s.height)).map some⟩ :: (publishSteps M s).drop 2) =
      .ok published := h
  obtain ⟨u, o, hu, ho, hlookup⟩ := exec_last hrun (by simp [publishSteps, updateIndexSteps, journalWrite])
  have hkept : u.lookup (.tmpBlock s.height) = some record := by
    rw [← hstaged]
    exact exec_frame (by simp [publishSteps]) hu
  rw [hlookup]
  simp only [readBytes, hkept, orRaise, Except.map] at ho
  exact (Except.ok.inj ho).symm

theorem exec_appendSteps {s : Staged} {files files' : StoreFiles} (h : exec files (appendSteps M C block s) = .ok files') :
    Published M C block s files files' := by
  obtain ⟨staged, hstage, hrest⟩ := exec_append_ok.mp h
  obtain ⟨published, hpublish, hcommit⟩ := exec_append_ok.mp hrest
  obtain ⟨record, hrecord, htmp⟩ := staged_block hstage
  refine ⟨?_, ⟨record, hrecord, ?_⟩, fun k hk => ?_⟩
  · have hrun : exec published ((commitSteps M C s).take 1 ++
        .write .head (encodeHead ⟨s.height, s.blockHash, C.networkId, C.genesisHash, STORAGE_FORMAT_VERSION⟩) ::
          (commitSteps M C s).drop 2) = .ok files' := hcommit
    obtain ⟨u, o, -, ho, hlookup⟩ := exec_last hrun (by simp [commitSteps, Step.write, Step.unlink])
    obtain ⟨data, hdata, rfl⟩ := Step.write_content.mp ho
    exact ⟨data, hdata, hlookup⟩
  · rw [exec_frame (by simp [commitSteps, journalWrite, Step.write, Step.unlink]) hcommit]
    exact published_block htmp hpublish
  · apply exec_frame _ h
    simp [appendSteps, stageSteps, publishSteps, commitSteps, updateIndexSteps, journalWrite, Step.write, Step.unlink,
      Ne.symm hk]

theorem appendBlock_ok {files files' : StoreFiles} {fault : Option Nat} {previousState state : RegistryState}
    (h : appendBlock M C fault files block previousState = (.ok state, files')) :
    ∃ s, prepareAppend M C files block previousState = .ok s ∧ state = s.state ∧ Published M C block s files files' := by
  unfold appendBlock at h
  split at h
  · cases h
  · rename_i s hs
    split at h
    · obtain ⟨hexec, rfl⟩ := Prod.mk.inj h
      cases hrun : exec files (appendSteps M C block s) with
      | error e => rw [hrun] at hexec; cases hexec
      | ok files'' =>
        rw [hrun] at hexec
        cases hexec
        rw [interrupt_exec hrun (Nat.le_refl _)]
        exact ⟨s, hs, rfl, exec_appendSteps hrun⟩
    · rename_i n
      obtain ⟨hexec, -⟩ := Prod.mk.inj h
      cases hrun : exec files ((appendSteps M C block s).take n) with
      | error e => rw [hrun] at hexec; cases hexec
      | ok files'' => rw [hrun] at hexec; cases hexec

theorem prepareAppend_ok {files : StoreFiles} {previousState : RegistryState} {s : Staged}
    (h : prepareAppend M C files block previousState = .ok s) :
    ∃ tip, getTip C files = .ok tip ∧ (s.height : Int) = tip.height + 1 ∧
      deriveState M.toPrimitives s.height previousState block.transactions = .ok s.state ∧
      block.header.bytes = .ok s.headerBytes ∧ s.blockHash = hashDoubleHex M.toPrimitives s.headerBytes := by
  simp only [prepareAppend, bind_eq_ok, require_eq_ok] at h
  obtain ⟨tip, htip, _, hpos, state, hstate, headerBytes, hbytes, h⟩ := h
  cases h
  exact ⟨tip, htip, Int.toNat_of_nonneg (Int.le_of_lt hpos), hstate, hbytes, rfl⟩

/-- The store reads back the HEAD files it writes. -/
structure StoreConfig.Readable (C : StoreConfig) : Prop where
  networkId : (58 : CodePoint) ∉ C.networkId
  genesisHash : isLowerHash C.genesisHash = true

/-- The tip moves up to the block, if HEAD can be read back. -/
theorem appendBlock_tip {files files' : StoreFiles} {fault : Option Nat} {previousState state : RegistryState}
    (h : appendBlock M C fault files block previousState = (.ok state, files')) :
    ∃ tip hash, getTip C files = .ok tip ∧ block.hash M.toPrimitives = .ok hash ∧ ∀ head, getTip C files' = .ok head ↔
      C.Readable ∧ head = ⟨tip.height + 1, hash, C.networkId, C.genesisHash, STORAGE_FORMAT_VERSION⟩ := by
  obtain ⟨s, hs, -, hpublished⟩ := appendBlock_ok h
  obtain ⟨tip, htip, hheight, -, hbytes, hhash⟩ := prepareAppend_ok hs
  obtain ⟨data, hdata, hhead⟩ := hpublished.head
  have hline : headLine ⟨s.height, s.blockHash, C.networkId, C.genesisHash, STORAGE_FORMAT_VERSION⟩ = .ok data := by
    simp only [encodeHead, bind_eq_ok] at hdata
    obtain ⟨_, -, _, -, hdata⟩ := hdata
    exact hdata
  have hblock : block.hash M.toPrimitives = .ok s.blockHash := by
    rw [BlockV2.hash, BlockHeaderV2.hash, hbytes, ok_bind, hhash]
  have hlower : isLowerHash s.blockHash = true := by
    rw [hhash]
    exact isLowerHash_toHex (doubleSha256_length _)
  refine ⟨tip, s.blockHash, htip, hblock, fun head => ?_⟩
  have hread : getTip C files' = decodeHead data := by rw [getTip, hhead]
  rw [hread, ← hheight]
  constructor
  · intro hdecode
    by_cases hcolon : (58 : CodePoint) ∈ C.networkId
    · obtain ⟨e, he⟩ := decodeHead_colon hcolon hline
      rw [he] at hdecode
      cases hdecode
    · by_cases hgenesis : isLowerHash C.genesisHash = true
      · rw [decodeHead_headLine hlower hgenesis hcolon hline] at hdecode
        exact ⟨⟨hcolon, hgenesis⟩, (Except.ok.inj hdecode).symm⟩
      · exact absurd (decodeHead_genesis hlower hcolon hline hdecode) hgenesis
  · rintro ⟨⟨hcolon, hgenesis⟩, rfl⟩
    exact decodeHead_headLine hlower hgenesis hcolon hline

end ChainBreaker
