import ChainBreaker.Identity

/-!
# The ledger

A ledger holds a chain of blocks of both versions, the identity and governance
of its network, and the registry state after each block. Appending a block and
validating the whole chain recompute everything they need from the chain. The
clock is an argument.
-/

namespace ChainBreaker

open Fallible

def TARGET_BLOCK_TIME : Int := 600
def DIFFICULTY_RETARGET_INTERVAL : Nat := 10
def MAX_RETARGET_FACTOR : Int := 4

inductive AnyBlock where
  | v1 (b : Block)
  | v2 (b : BlockV2)

namespace AnyBlock

def timestamp : AnyBlock → Int
  | v1 b => b.header.timestamp
  | v2 b => b.header.timestamp

def target : AnyBlock → Int
  | v1 b => b.header.target
  | v2 b => b.header.target

def prevHash : AnyBlock → Str
  | v1 b => b.header.prevHash
  | v2 b => b.header.prevHash

def transactions : AnyBlock → List Json
  | v1 b => b.transactions
  | v2 b => b.transactions

def asV2 : AnyBlock → Option BlockV2
  | v1 _ => none
  | v2 b => some b

def hash (E : Primitives) : AnyBlock → Except PyErr Str
  | v1 b => b.hash E
  | v2 b => b.hash E

def verify (E : Primitives) (b : AnyBlock) (clock : Int) (allowGenesis : Bool)
    (medianPast expectedTarget : Option Int) (validator : Option (Json → Bool)) : Except PyErr Bool :=
  match b with
  | v1 b => b.verify E clock none allowGenesis medianPast expectedTarget validator
  | v2 b => b.verify E none allowGenesis medianPast expectedTarget validator

end AnyBlock

/-! ## Governance transactions in blocks -/

/-- The parser of the ledger and of the reorganization engine: they differ in
the body they take for a missing one and in the network they expect. -/
def parseGovernanceWith (missingBody : Json) (networkId : Str) (tx : Json) :
    Except PyErr (Option GovernanceTx) :=
  match tx with
  | .dict d =>
    if (Fields.getOrNull d "type").eqStr (str "governance") then
      let body := (Fields.get d "body").getD missingBody
      match body with
      | .dict b =>
        let action := Fields.getOrNull b "action"
        if action.eqStr (str "curator_register") then do
          let tx ← CuratorRegisterTx.fromDict body networkId
          .ok (some (.register tx))
        else if action.eqStr (str "curator_rotate") then do
          let tx ← CuratorRotateTx.fromDict body networkId
          .ok (some (.rotate tx))
        else if action.eqStr (str "curator_revoke") then do
          let tx ← CuratorRevokeTx.fromDict body networkId
          .ok (some (.revoke tx))
        else .ok none
      | _ => raise .attributeError "object has no attribute 'get'" []
    else .ok none
  | _ => .ok none

/-- `Ledger._parse_governance_transaction`. -/
def parseGovernanceTransaction (networkId : Str) (tx : Json) : Except PyErr (Option GovernanceTx) :=
  parseGovernanceWith (.dict []) networkId tx

def keyIndexOf (sig : Json) : Nat :=
  match (sig.asDict?.bind fun d => d.get "key_index").bind Json.asInt? with
  | some n => n.toNat
  | none => 0

def sortSignatures : Json → Json
  | .list sigs => .list (Lex.sortOn id (fun s => [keyIndexOf s]) sigs)
  | v => v

section
variable (E : Primitives)

/-- `_canonical_txid`: the signatures are hashed in the order of their keys. -/
def canonicalTxid (body : Fields) : Except PyErr Str :=
  hashObjectHex E (.dict (body.map fun f =>
    if f.1 = str "governance_signatures" then (f.1, sortSignatures f.2) else f))

/-- One turn of the loop of `_apply_transactions`. -/
def applyTransactionWith (parse : Json → Except PyErr (Option GovernanceTx)) (ctx : GovernanceContext)
    (height : Nat) (s : RegistryState) (tx : Json) : Except PyErr RegistryState := do
  let parsed ← parse tx
  match parsed with
  | none => .ok s
  | some tx => do
    let txid ← canonicalTxid E tx.toDict
    applyRegistryTransaction E s tx height txid ctx

def applyTransactionsWith (parse : Json → Except PyErr (Option GovernanceTx)) (ctx : GovernanceContext)
    (s : RegistryState) (transactions : List Json) (height : Nat) : Except PyErr RegistryState :=
  run (applyTransactionWith E parse ctx height) s transactions

end

/-! ## Times and targets of a chain -/

/-- `chain[i]`. -/
def blockAt (chain : List AnyBlock) (i : Nat) : Except PyErr AnyBlock :=
  orRaise chain[i]? (err .indexError "list index out of range")

/-- Median timestamp of the previous `count` blocks ending at `stop`. -/
def medianPastTime (chain : List AnyBlock) (stop : Nat) (count : Nat) : Int :=
  let stop := min stop chain.length
  let start := stop - count
  if start ≥ stop then 0
  else
    let timestamps := (((chain.take stop).drop start).map AnyBlock.timestamp).insertionSort (· ≤ ·)
    timestamps.getD ((timestamps.length - 1) / 2) 0

/-- Target at a retarget boundary, from the window of blocks before it. -/
def retargetAt (chain : List AnyBlock) (height : Nat) : Except PyErr Int :=
  if height < DIFFICULTY_RETARGET_INTERVAL then .ok GENESIS_TARGET
  else do
    let firstBlock ← blockAt chain (height - DIFFICULTY_RETARGET_INTERVAL)
    let lastBlock ← blockAt chain (height - 1)
    let prevTarget := lastBlock.target
    let elapsed := lastBlock.timestamp - firstBlock.timestamp
    let actualTime := if elapsed ≤ 0 then 1 else elapsed
    let expectedTime := TARGET_BLOCK_TIME * DIFFICULTY_RETARGET_INTERVAL
    let bounded := max MIN_TARGET (min MAX_TARGET (prevTarget * actualTime / expectedTime))
    .ok (max (prevTarget / MAX_RETARGET_FACTOR) (min (prevTarget * MAX_RETARGET_FACTOR) bounded))

def expectedTargetAt (chain : List AnyBlock) (height : Nat) : Except PyErr Int :=
  if height = 0 then .ok GENESIS_TARGET
  else if height < DIFFICULTY_RETARGET_INTERVAL then do
    let genesis ← blockAt chain 0
    .ok genesis.target
  else if height % DIFFICULTY_RETARGET_INTERVAL ≠ 0 then do
    let previous ← blockAt chain (height - 1)
    .ok previous.target
  else retargetAt chain height

/-- The blocks above the genesis block, with their heights. -/
def numbered (chain : List AnyBlock) : List (AnyBlock × Nat) := chain.tail.zipIdx 1

/-! ## Ledgers -/

abbrev StateCache := Nat → Option RegistryState

def StateCache.set (cache : StateCache) (height : Nat) (s : RegistryState) : StateCache :=
  fun h => if h = height then some s else cache h

structure Ledger where
  chain : List AnyBlock
  networkIdentity : NetworkIdentity
  transactionValidator : Option (Json → Bool)
  governanceKeys : List Str
  governanceThreshold : Nat
  governanceContext : GovernanceContext
  registryStates : StateCache

/-- The arguments of the constructor that it uses, with their defaults. -/
structure LedgerArgs where
  chain : Option (List AnyBlock) := none
  transactionValidator : Option (Json → Bool) := none
  governanceKeys : Option (List Str) := none
  governanceThreshold : Option Nat := none
  networkIdentity : Option NetworkIdentity := none
  strictIdentity : Bool := true

namespace Ledger

def networkId (l : Ledger) : Str := l.networkIdentity.networkId

def height (l : Ledger) : Int := l.chain.length - 1

def lastBlock (l : Ledger) : Except PyErr AnyBlock :=
  orRaise l.chain.getLast? (err .indexError "list index out of range")

/-- The state before any block: the registry codec knows the default network's
id, every other one is put in. -/
def genesisState (l : Ledger) : Except PyErr RegistryState := do
  let state ← RegistryState.genesis l.governanceKeys l.governanceThreshold
  .ok (if l.networkId ≠ NETWORK_ID then state.withNetworkId l.networkId else state)

section
variable (E : Primitives)

def applyTransactions (l : Ledger) (s : RegistryState) (transactions : List Json) (height : Nat) :
    Except PyErr RegistryState :=
  applyTransactionsWith E (parseGovernanceTransaction l.networkId) l.governanceContext s transactions height

def replayStep (l : Ledger) (s : RegistryState) (b : AnyBlock × Nat) : Except PyErr RegistryState :=
  l.applyTransactions E s b.1.transactions b.2

/-- `_replay_registry_states`. -/
def replayRegistryStates (l : Ledger) : Except PyErr Ledger := do
  let state ← l.genesisState
  let states ← scan (l.replayStep E) state (numbered l.chain)
  .ok { l with registryStates := fun h => states[h]? }

def stateAt (l : Ledger) (height : Nat) : Except PyErr RegistryState :=
  if l.chain.length ≤ height then raise .ledgerError "invalid height % for state lookup" [.int height]
  else do
    let state ← l.genesisState
    run (l.replayStep E) state ((numbered l.chain).take height)

def validateGenesisIdentity (l : Ledger) : Except PyErr Unit := do
  let genesis ← orRaise l.chain.head? (identityError "ledger chain is empty")
  let identity := l.networkIdentity
  let matched ← identityMatchesGenesis E identity genesis.asV2
  require (matched = true)
    ⟨.networkIdentityError, "genesis block does not match network identity %", [.str identity.networkId]⟩
  let genesisState ← l.genesisState
  let actualRoot ← registryRoot E genesisState
  require (actualRoot = identity.genesisRegistryRoot)
    ⟨.networkIdentityError, "genesis registry root mismatch for %: computed % != expected %",
      [.str l.networkId, .str actualRoot, .str identity.genesisRegistryRoot]⟩
  require (identity.isAlpha ∨ sortedKeys l.governanceKeys ≠ sortedKeys GENESIS_GOVERNANCE_KEYS)
    (identityError "only the alpha identity may use the placeholder governance keys")

/-- The identity of a ledger that was given none. -/
def inferIdentity (governanceKeys : Option (List Str)) (governanceThreshold : Option Nat) :
    Except PyErr NetworkIdentity :=
  match governanceKeys with
  | none => .ok alphaNetworkIdentity
  | some keys =>
    if sortedKeys keys = sortedKeys GENESIS_GOVERNANCE_KEYS then .ok alphaNetworkIdentity
    else deriveTestNetworkIdentity E keys (governanceThreshold.getD GENESIS_THRESHOLD) 1704067200 10000000

/-- `governance_keys or identity.governance_keys`. -/
def orKeys (keys : Option (List Str)) (default : List Str) : List Str :=
  match keys with
  | none => default
  | some [] => default
  | some ks => ks

/-- `Ledger(...)`. -/
def init (args : LedgerArgs) : Except PyErr Ledger := do
  let identity ← match args.networkIdentity with
    | some i => .ok i
    | none => inferIdentity E args.governanceKeys args.governanceThreshold
  let chain ← match args.chain with
    | some c => .ok c
    | none => do
      let g ← genesisBlockFor identity
      .ok [.v2 g]
  let keys := orKeys args.governanceKeys identity.governanceKeys
  let threshold := args.governanceThreshold.getD identity.governanceThreshold
  let ctx ← GovernanceContext.init keys threshold identity.networkId
  let l : Ledger := ⟨chain, identity, args.transactionValidator, keys, threshold, ctx, fun _ => none⟩
  if args.strictIdentity then l.validateGenesisIdentity E else .ok ()
  let _ ← blockAt chain 0
  l.replayRegistryStates E

/-! ## Appending blocks -/

/-- The errors `add_block_v2` and `validate_chain` answer with `False`. -/
def rejects (e : PyErr) : Bool := e.kind = .registryError ∨ e.kind = .governanceError

def addBlockV1 (l : Ledger) (block : Block) (now : Int) : Except PyErr (Bool × Ledger) := do
  let expectedTarget ← expectedTargetAt l.chain l.chain.length
  let last ← l.lastBlock
  let expectedPrevHash ← last.hash E
  if block.header.prevHash ≠ expectedPrevHash then .ok (false, l)
  else if block.header.target ≠ expectedTarget then .ok (false, l)
  else do
    let median := medianPastTime l.chain l.chain.length 11
    let ok ← block.verify E now (some now) false (some median) (some expectedTarget) l.transactionValidator
    if ok then .ok (true, { l with chain := l.chain ++ [.v1 block] }) else .ok (false, l)

def addBlockV2 (l : Ledger) (block : BlockV2) (now : Int) : Except PyErr (Bool × Ledger) := do
  let expectedHeight := l.chain.length
  let expectedTarget ← expectedTargetAt l.chain expectedHeight
  let last ← l.lastBlock
  let expectedPrevHash ← last.hash E
  if block.header.prevHash ≠ expectedPrevHash then .ok (false, l)
  else if block.header.target ≠ expectedTarget then .ok (false, l)
  else if block.header.version ≠ PROTOCOL_VERSION then .ok (false, l)
  else do
    let previousState ← l.stateAt E (expectedHeight - 1)
    let expectedRegistryRoot ← registryRoot E previousState
    if block.header.registryRoot ≠ expectedRegistryRoot then .ok (false, l)
    else do
      let median := medianPastTime l.chain expectedHeight 11
      let ok ← block.verify E (some now) false (some median) (some expectedTarget) l.transactionValidator
      if ok = false then .ok (false, l)
      else
        match l.applyTransactions E previousState block.transactions expectedHeight with
        | .ok newState =>
          .ok (true, { l with chain := l.chain ++ [.v2 block],
                              registryStates := l.registryStates.set expectedHeight newState })
        | .error e => if rejects e then .ok (false, l) else .error e

def addBlock (l : Ledger) (block : AnyBlock) (now : Int) : Except PyErr (Bool × Ledger) :=
  match block with
  | .v1 b => l.addBlockV1 E b now
  | .v2 b => l.addBlockV2 E b now

/-! ## Validating the chain -/

/-- The part of a turn of `validate_chain` that only V2 blocks take. -/
def validateRegistry (l : Ledger) (i : Nat) (block : BlockV2) (cache : StateCache) :
    Except PyErr (Option StateCache) := do
  let previousState ← l.stateAt E (i - 1)
  let expectedRoot ← registryRoot E previousState
  if block.header.registryRoot ≠ expectedRoot then .ok none
  else
    match l.applyTransactions E previousState block.transactions i with
    | .ok recomputed =>
      -- a cached state must be the recomputed one
      if (cache i).any (· ≠ recomputed) then .ok none else .ok (some (cache.set i recomputed))
    | .error e => if rejects e then .ok none else .error e

/-- One turn of the loop of `validate_chain`; none is `return False`. -/
def validateBlockAt (l : Ledger) (clock : Int) (i : Nat) (cache : StateCache) :
    Except PyErr (Option StateCache) := do
  let current ← blockAt l.chain i
  let previous ← blockAt l.chain (i - 1)
  let previousHash ← previous.hash E
  if current.prevHash ≠ previousHash then .ok none
  else do
    let expectedTarget ← expectedTargetAt l.chain i
    if current.target ≠ expectedTarget then .ok none
    else
      let median := medianPastTime l.chain i 11
      if current.timestamp ≤ median then .ok none
      else do
        let ok ← current.verify E clock false (some median) (some expectedTarget) l.transactionValidator
        if ok = false then .ok none
        else
          match current with
          | .v1 _ => .ok (some cache)
          | .v2 block => l.validateRegistry E i block cache

def validateFrom (l : Ledger) (clock : Int) : List Nat → StateCache → Except PyErr (Bool × StateCache)
  | [], cache => .ok (true, cache)
  | i :: rest, cache => do
    let next ← l.validateBlockAt E clock i cache
    match next with
    | none => .ok (false, cache)
    | some cache => validateFrom l clock rest cache

def validateChain (l : Ledger) (clock : Int) : Except PyErr (Bool × Ledger) :=
  match l.chain with
  | [] => .ok (false, l)
  | genesis :: rest => do
    let matched ← identityMatchesGenesis E l.networkIdentity genesis.asV2
    if matched = false then .ok (false, l)
    else do
      let ok ← genesis.verify E clock true none none none
      if ok = false then .ok (false, l)
      else do
        let (valid, cache) ← l.validateFrom E clock (List.range' 1 rest.length) l.registryStates
        .ok (valid, { l with registryStates := cache })

end

end Ledger

/-- `Ledger.chain_work` on V2 blocks. -/
def chainWork : List BlockV2 → Except PyErr Int
  | [] => .ok 0
  | b :: rest => do
    let w ← workForTargetV2 b.header.target
    let total ← chainWork rest
    .ok (w + total)

end ChainBreaker
