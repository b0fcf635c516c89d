import ChainBreaker.Ledger

/-!
# The reorganization engine

Branch work, the common ancestor of two chains, the engine's own validation of
a candidate's suffix, and the decision to switch. The engine checks less than
the ledger does and keeps its own replay of the registry.
-/

namespace ChainBreaker

open Fallible

def reorgError (t : String) : PyErr := err .reorgError t

/-! ## Work -/

def computeWork (target : Int) : Except PyErr Int :=
  if target ≤ 0 then raise .reorgError "target must be positive" [] else .ok (2 ^ 256 / (target + 1))

def branchWork : List BlockV2 → Except PyErr Int
  | [] => .ok 0
  | b :: rest => do
    let w ← computeWork b.header.target
    let total ← branchWork rest
    .ok (w + total)

inductive Decision where
  | candidateWins | currentWins | tie
  deriving DecidableEq

def compareWork (currentWork candidateWork : Int) : Decision :=
  if candidateWork > currentWork then .candidateWins
  else if candidateWork < currentWork then .currentWins
  else .tie

section
variable (E : Primitives)

/-! ## Common ancestor -/

/-- `chain[i].hash`. -/
def hashAt (chain : List BlockV2) (i : Nat) : Except PyErr Str := do
  let b ← orRaise chain[i]? (err .indexError "list index out of range")
  b.hash E

/-- The walk down from height `h`; at height zero the genesis blocks agree. -/
def searchAncestor (current candidate : List BlockV2) : Nat → Except PyErr Nat
  | 0 => .ok 0
  | h + 1 => do
    let a ← hashAt E current (h + 1)
    let b ← hashAt E candidate (h + 1)
    if a = b then .ok (h + 1) else searchAncestor current candidate h

def findCommonAncestor (current candidate : List BlockV2) : Except PyErr Nat := do
  require (current ≠ [] ∧ candidate ≠ []) (reorgError "empty chain")
  let a ← hashAt E current 0
  let b ← hashAt E candidate 0
  require (a = b) (reorgError "genesis mismatch: cannot reorg across different networks")
  searchAncestor E current candidate (min current.length candidate.length - 1)

/-! ## The candidate's suffix -/

/-- `reorg._parse_governance_transaction`: a missing body is the transaction
itself, and the network is always the default one. -/
def reorgParseGovernanceTransaction (tx : Json) : Except PyErr (Option GovernanceTx) :=
  parseGovernanceWith tx NETWORK_ID tx

def reorgApplyTransactions (s : RegistryState) (transactions : List Json) (height : Nat)
    (ctx : GovernanceContext) : Except PyErr RegistryState :=
  applyTransactionsWith E reorgParseGovernanceTransaction ctx s transactions height

/-- What the loop over the suffix carries: the registry state, the hash of the
block before, and the index. -/
structure SuffixState where
  state : RegistryState
  prevHash : Option Str
  idx : Nat

def blockError (t : String) (absoluteHeight : Nat) : PyErr := ⟨.reorgError, t, [.int absoluteHeight]⟩

def checkTarget (expectedTargets : Option (List Int)) (idx absoluteHeight : Nat) (target : Int) :
    Except PyErr Unit :=
  match expectedTargets with
  | none => .ok ()
  | some targets => do
    let expected ← orRaise targets[idx]? (err .indexError "list index out of range")
    require (target = expected) ⟨.reorgError, "candidate block %: target mismatch (% != %)",
      [.int absoluteHeight, .int target, .int expected]⟩

def suffixStep (ctx : GovernanceContext) (absoluteStartHeight : Nat) (expectedTargets : Option (List Int))
    (u : SuffixState) (block : BlockV2) : Except PyErr SuffixState := do
  let absoluteHeight := absoluteStartHeight + 1 + u.idx
  -- the first block has no block before it here, and its link is not looked at
  require (u.prevHash.all (block.header.prevHash = ·))
    (blockError "candidate block at height %: prev_hash mismatch" absoluteHeight)
  let hash ← block.hash E
  require (block.header.version = 2) (blockError "candidate block %: version must be 2" absoluteHeight)
  require (satisfiesPow hash block.header.target) (blockError "candidate block %: PoW failure" absoluteHeight)
  checkTarget expectedTargets u.idx absoluteHeight block.header.target
  let merkleRoot ← merkleRootOf E block.transactions
  require (block.header.merkleRoot = merkleRoot)
    (blockError "candidate block %: merkle root mismatch" absoluteHeight)
  let expectedRoot ← registryRoot E u.state
  require (block.header.registryRoot = expectedRoot)
    ⟨.reorgError, "candidate block %: registry_root mismatch (% != %)",
      [.int absoluteHeight, .str block.header.registryRoot, .str expectedRoot]⟩
  let state ← match reorgApplyTransactions E u.state block.transactions absoluteHeight ctx with
    | .ok s => .ok s
    | .error e =>
      if e.kind = .governanceError then
        .error ⟨.reorgError, "candidate block %: governance error " ++ e.text, .int absoluteHeight :: e.args⟩
      else .error e
  .ok ⟨state, some hash, u.idx + 1⟩

def validateCandidateSuffix (commonState : RegistryState) (candidateBlocks : List BlockV2)
    (governanceKeys : List Str) (governanceThreshold : Nat) (absoluteStartHeight : Nat)
    (expectedTargets : Option (List Int)) : Except PyErr (List RegistryState) := do
  let ctx ← GovernanceContext.init governanceKeys governanceThreshold NETWORK_ID
  let states ← scan (suffixStep E ctx absoluteStartHeight expectedTargets) ⟨commonState, none, 0⟩
    candidateBlocks
  .ok (states.tail.map SuffixState.state)

/-! ## The engine -/

structure ReorgEngine where
  currentChain : List BlockV2
  governanceKeys : List Str
  governanceThreshold : Nat
  maxReorgDepth : Option Int
  networkIdentity : NetworkIdentity

structure Reason where
  text : String
  args : List Json

structure ReorgResult where
  switched : Bool
  oldTipHeight : Int
  oldTipHash : Str
  newTipHeight : Int
  newTipHash : Str
  commonAncestorHeight : Nat
  disconnectHeights : List Nat
  connectHeights : List Nat
  reason : Reason

namespace ReorgEngine

def inferNetworkIdentity (currentChain : List BlockV2) (keys : List Str) (threshold : Nat) :
    Except PyErr NetworkIdentity :=
  match currentChain with
  | [] => .ok alphaNetworkIdentity
  | genesis :: _ => do
    let alpha ← identityMatchesGenesis E alphaNetworkIdentity (some genesis)
    if alpha then .ok alphaNetworkIdentity
    else deriveTestNetworkIdentity E keys threshold 1704067200 10000000

/-- `ReorgEngine(...)`. -/
def init (currentChain : List BlockV2) (governanceKeys : Option (List Str)) (governanceThreshold : Option Nat)
    (maxReorgDepth : Option Int) (networkIdentity : Option NetworkIdentity) : Except PyErr ReorgEngine := do
  let keys := Ledger.orKeys governanceKeys GENESIS_GOVERNANCE_KEYS
  let threshold := governanceThreshold.getD GENESIS_THRESHOLD
  let identity ← match networkIdentity with
    | some i => .ok i
    | none => inferNetworkIdentity E currentChain keys threshold
  .ok ⟨currentChain, keys, threshold, maxReorgDepth, identity⟩

def currentTipHeight (eng : ReorgEngine) : Int := eng.currentChain.length - 1

def currentTipHash (eng : ReorgEngine) : Except PyErr Str := do
  let b ← orRaise eng.currentChain.getLast? (err .indexError "list index out of range")
  b.hash E

def replayStep (ctx : GovernanceContext) (s : RegistryState) (b : AnyBlock × Nat) :
    Except PyErr RegistryState :=
  reorgApplyTransactions E s b.1.transactions b.2 ctx

/-- `_state_at`: the bootstrap state keeps the default network's id. -/
def stateAt (eng : ReorgEngine) (height : Nat) : Except PyErr RegistryState :=
  if eng.currentChain.length ≤ height then raise .reorgError "invalid height %" [.int height]
  else do
    let state ← RegistryState.genesis eng.governanceKeys eng.governanceThreshold
    let ctx ← GovernanceContext.init eng.governanceKeys eng.governanceThreshold NETWORK_ID
    run (replayStep E ctx) state ((numbered (eng.currentChain.map .v2)).take height)

/-- `_expected_target_at`: read off the current chain, and above its tip the
tip's own target. -/
def expectedTargetAt (eng : ReorgEngine) (height : Nat) : Except PyErr Int :=
  if height = 0 then .ok GENESIS_TARGET
  else if height < eng.currentChain.length then do
    let ledger ← Ledger.init E
      { chain := some ((eng.currentChain.take height).map .v2), governanceKeys := some eng.governanceKeys,
        governanceThreshold := some eng.governanceThreshold, networkIdentity := some eng.networkIdentity,
        strictIdentity := false }
    ChainBreaker.expectedTargetAt ledger.chain height
  else do
    let tip ← orRaise eng.currentChain.getLast? (err .indexError "list index out of range")
    .ok tip.header.target

/-- The outcome that keeps the current chain. -/
def stay (eng : ReorgEngine) (commonHeight : Nat) (reason : Reason) : Except PyErr ReorgResult := do
  let tip ← eng.currentTipHash E
  .ok { switched := false, oldTipHeight := eng.currentTipHeight, oldTipHash := tip,
        newTipHeight := eng.currentTipHeight, newTipHash := tip, commonAncestorHeight := commonHeight,
        disconnectHeights := [], connectHeights := [], reason := reason }

/-- The comparison of work and its outcome, for a validated candidate. -/
def switchOnWork (eng : ReorgEngine) (candidate : List BlockV2) (commonHeight : Nat) : Except PyErr ReorgResult := do
  let candidateWork ← branchWork (candidate.drop (commonHeight + 1))
  let currentWork ← branchWork (eng.currentChain.drop (commonHeight + 1))
  if compareWork currentWork candidateWork ≠ .candidateWins then
    eng.stay E commonHeight ⟨"candidate work not greater: candidate=%, current=%",
      [.int candidateWork, .int currentWork]⟩
  else do
    let newTip ← orRaise candidate.getLast? (err .indexError "list index out of range")
    let oldTipHash ← eng.currentTipHash E
    let newTipHash ← newTip.hash E
    .ok { switched := true, oldTipHeight := eng.currentTipHeight, oldTipHash := oldTipHash,
          newTipHeight := candidate.length - 1, newTipHash := newTipHash, commonAncestorHeight := commonHeight,
          disconnectHeights := List.range' (commonHeight + 1) (eng.currentChain.length - (commonHeight + 1)),
          connectHeights := List.range' (commonHeight + 1) (candidate.length - (commonHeight + 1)),
          reason := ⟨"higher valid work branch accepted", []⟩ }

def evaluateCandidate (eng : ReorgEngine) (candidate : List BlockV2) : Except PyErr ReorgResult :=
  if candidate.isEmpty then eng.stay E 0 ⟨"empty candidate chain", []⟩
  else do
    let a ← hashAt E candidate 0
    let b ← hashAt E eng.currentChain 0
    if a ≠ b then eng.stay E 0 ⟨"genesis mismatch", []⟩
    else do
      let commonHeight ← findCommonAncestor E eng.currentChain candidate
      let candidateSuffix := candidate.drop (commonHeight + 1)
      let depth : Int := eng.currentChain.length - 1 - commonHeight
      if eng.maxReorgDepth.any (· < depth) then
        eng.stay E commonHeight
          ⟨"reorg depth % exceeds policy %", [.int depth, .int (eng.maxReorgDepth.getD 0)]⟩
      else do
        let commonState ← eng.stateAt E commonHeight
        let expectedTargets ← collect (eng.expectedTargetAt E)
          (List.range' (commonHeight + 1) candidateSuffix.length)
        match validateCandidateSuffix E commonState candidateSuffix eng.governanceKeys eng.governanceThreshold
          commonHeight (some expectedTargets) with
        | .ok _ => eng.switchOnWork E candidate commonHeight
        | .error e =>
          if e.kind = .reorgError then
            eng.stay E commonHeight ⟨"candidate validation failed: " ++ e.text, e.args⟩
          else .error e

end ReorgEngine

end

end ChainBreaker
