import ChainBreaker.AppendBlock
import ChainBreaker.Recovery
import ChainBreaker.Identity
import ChainBreaker.RegistryRead

/-!
# Tips, snapshots, and what is read from the store

`atomic_tip_switch` sets HEAD to a stored block and rebuilds the indexes,
`write_snapshot` keeps the registry state at a height with a description of it,
and the read operations give back headers, blocks, chains and snapshots.
-/

namespace ChainBreaker

open Fallible FileSteps

section
variable (M : Runtime) (C : StoreConfig)

/-! ## Tips -/

structure RebuiltIndexes where
  tipHeight : Int
  indexedHeights : List Nat

/-- `rebuild_indexes`: what it returns, and the files it leaves. -/
def rebuildIndexes (files : StoreFiles) : Except PyErr RebuiltIndexes × StoreFiles :=
  let steps := rebuildSteps M C
  (do
    let tip ← getTip C files
    let entries ← indexEntries M unreadable files tip.height
    let _ ← exec files steps
    .ok ⟨tip.height, (entries.map Prod.fst).insertionSort (· ≤ ·)⟩, interrupt steps.length steps files)

structure SwitchedTip where
  newTipHeight : Int
  newTipHash : Str
  rebuiltIndexes : RebuiltIndexes

/-- The COMMIT goes to the journal before HEAD is rewritten. -/
def tipSteps (newTipHeight : Nat) (newTipHash : Str) : List StoreStep :=
  [journalWrite M JOURNAL_COMMIT newTipHeight [], headWrite C newTipHeight newTipHash]

def switchSteps (newTipHeight : Nat) (newTipHash : Str) : List StoreStep :=
  tipSteps M C newTipHeight newTipHash ++ rebuildSteps M C

/-- `atomic_tip_switch`: what it returns, and the files it leaves. With
`fault := some n` the operating system raises after `n` steps. -/
def atomicTipSwitch (fault : Option Nat) (files : StoreFiles) (newTipHeight : Int) (newTipHash : Str) :
    Except PyErr SwitchedTip × StoreFiles :=
  if newTipHeight < 0 then (.error (err .storageIOError "tip height must be non-negative"), files)
  else
    let steps := switchSteps M C newTipHeight.toNat newTipHash
    match fault with
    | none =>
      (do
        let headed ← exec files (tipSteps M C newTipHeight.toNat newTipHash)
        let indexInfo ← (rebuildIndexes M C headed).1
        .ok ⟨newTipHeight, newTipHash, indexInfo⟩, interrupt steps.length steps files)
    | some n => ((exec files (steps.take n)).bind fun _ => .error (err .storageIOError "Input/output error"),
        interrupt n steps files)

/-! ## Snapshots -/

/-- The description of a snapshot. -/
def snapshotMeta (height : Nat) (state : RegistryState) (data : Bytes) : Except PyErr Fields := do
  let root ← registryRoot M.toPrimitives state
  .ok [(str "height", .int height), (str "network_id", .str C.networkId), (str "genesis_hash", .str C.genesisHash),
    (str "registry_root", .str root), (str "state_hash", .str (hashSingleHex M.toPrimitives data)),
    (str "format_version", .int STORAGE_FORMAT_VERSION)]

/-- `write_snapshot`. -/
def snapshotSteps (height : Nat) (state : RegistryState) : List StoreStep :=
  [.write (.state height) (serializeRegistryState state),
    .write (.stateMeta height) do
      let data ← serializeRegistryState state
      let fields ← snapshotMeta M C height state data
      .ok (dumpsIndented M.floatRepr fields)]

/-- A snapshot above HEAD is one of another branch. -/
def readSnapshot (files : StoreFiles) (height : Nat) : Except PyErr (Option RegistryState) := do
  let tip ← getTip C files
  if tip.height < height then .ok none
  else
    match files.lookup (.state height) with
    | none => .ok none
    | some data => do
      match files.lookup (.stateMeta height) with
      | none => .ok ()
      | some metaData => do
        let text ← decodeUtf8 metaData
        let fields ← loads M.floatOf text
        let stateHash ← fields.getOr "state_hash" .null
        require (stateHash.eqStr (hashSingleHex M.toPrimitives data) = true)
          ⟨.storageIOError, "snapshot at height % hash mismatch", [.int height]⟩
      let state ← deserializeRegistryState data
      .ok (some state)

/-! ## Headers and chains -/

def readHeader (files : StoreFiles) (height : Nat) : Except PyErr Bytes := do
  let data ← orRaise (files.lookup (.header height)) ⟨.storageIOError, "header not found at height %", [.int height]⟩
  require (data.length = HEADER_LEN) ⟨.storageIOError, "header at height % has wrong length: %",
    [.int height, .int data.length]⟩
  .ok data

/-- One turn of the loop of `read_chain_up_to`. -/
def readCanonical (B : Builtins) (files : StoreFiles) (height : Nat) : Except PyErr BlockV2 :=
  if height = 0 then createGenesisBlock
  else
    match readBlock M files height with
    | .ok block => .ok block
    | .error exc => .error ⟨.storageIOError, "cannot read canonical block at height %: %",
      [.int height, .str (B.errText exc)]⟩

def readChainUpTo (B : Builtins) (files : StoreFiles) (height : Int) : Except PyErr (List BlockV2) :=
  collect (readCanonical M B files) (List.range (height + 1).toNat)

end

end ChainBreaker
