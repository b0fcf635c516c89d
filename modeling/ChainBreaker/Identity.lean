import ChainBreaker.Block
import ChainBreaker.Registry

/-!
# Network identities

A network is its id, its bootstrap governance set, and the genesis header that
commits to both. The alpha identity is frozen; every other one is derived from
a key ceremony and mines its own genesis header.
-/

namespace ChainBreaker

open Fallible

/-- The kinds the source knows, and whatever a stored identity may carry. -/
inductive NetworkKind where
  | alpha | dev | test | production
  | other (name : Str)
  deriving DecidableEq

structure NetworkIdentity where
  networkId : Str
  kind : NetworkKind
  genesisHash : Str
  genesisRegistryRoot : Str
  governanceKeys : List Str
  governanceThreshold : Nat
  genesisHeaderBytes : Bytes
  genesisTimestamp : Int
  deriving DecidableEq

def NetworkIdentity.isAlpha (i : NetworkIdentity) : Bool := i.kind = .alpha

def alphaNetworkIdentity : NetworkIdentity where
  networkId := NETWORK_ID
  kind := .alpha
  genesisHash := GENESIS_HASH
  genesisRegistryRoot := GENESIS_REGISTRY_ROOT
  governanceKeys := GENESIS_GOVERNANCE_KEYS
  governanceThreshold := 2
  genesisHeaderBytes := GENESIS_HEADER_BYTES
  genesisTimestamp := 1704067200

def identityError (t : String) : PyErr := err .networkIdentityError t

def sortedKeys (keys : List Str) : List Str := Lex.sortOn charKey id keys

/-! ## Derivation -/

/-- Digits of base 16 with single underscores between them. -/
def hexDigits : Str → Bool
  | [] => false
  | [c] => (hexVal c).isSome
  | c :: d :: rest => (hexVal c).isSome && if d = 95 then hexDigits rest else hexDigits (d :: rest)

/-- Whether `int(s, 16)` reads the string: blanks around, a sign, a prefix `0x`.
The digits of other scripts, which `int` reads too, are no matter here: such a
key is refused by `fromhex` a step later. -/
def readsAsHexInt (s : Str) : Bool :=
  let s := ((s.dropWhile isSpace).reverse.dropWhile isSpace).reverse
  let s := match s with
    | c :: rest => if c = 43 ∨ c = 45 then rest else s
    | [] => []
  match s with
  | 48 :: x :: rest =>
    if x = 120 ∨ x = 88 then hexDigits (if rest.head? = some 95 then rest.tail else rest) else hexDigits s
  | _ => hexDigits s

def checkIdentityKeys : List Str → Except PyErr Unit
  | [] => .ok ()
  | key :: rest => do
    require (key.length = 64)
      ⟨.networkIdentityError, "governance key must be a 64-character lowercase hex string: %", [.str key]⟩
    require (readsAsHexInt key)
      ⟨.networkIdentityError, "governance key is not valid hex: %", [.str key]⟩
    require (key = lower key)
      ⟨.networkIdentityError, "governance key must be lowercase hex: %", [.str key]⟩
    checkIdentityKeys rest

section
variable (E : Primitives)

/-- `_validate_governance_keys_for_identity`; the root it also returns is not used by its callers. -/
def validateGovernanceKeysForIdentity (keys : List Str) (threshold : Nat) (allowPlaceholderKeys : Bool) :
    Except PyErr (List Str) := do
  require (keys ≠ []) (identityError "governance_keys must be a non-empty list")
  require (1 ≤ threshold ∧ threshold ≤ keys.length)
    ⟨.networkIdentityError, "governance_threshold must satisfy 1 <= threshold <= %", [.int keys.length]⟩
  checkIdentityKeys keys
  require (allowPlaceholderKeys ∨ sortedKeys keys ≠ sortedKeys GENESIS_GOVERNANCE_KEYS)
    (identityError "production identity cannot use the placeholder alpha governance key set")
  let state ← RegistryState.genesis (sortedKeys keys) threshold
  let _ ← registryRoot E state
  .ok (sortedKeys keys)

def NetworkKind.valid : NetworkKind → Bool
  | .other _ => false
  | _ => true

def NetworkKind.isAlphaKind (k : NetworkKind) : Bool := k = .alpha ∨ k = .dev ∨ k = .test

/-- The genesis header before its nonce is searched. -/
def genesisHeader (registryRootHex : Str) (timestamp : Int) : BlockHeaderV2 where
  version := PROTOCOL_VERSION
  prevHash := zeroHash
  merkleRoot := zeroHash
  registryRoot := registryRootHex
  timestamp := timestamp
  target := MAX_TARGET
  nonce := 0

def deriveNetworkIdentity (networkId : Str) (keys : List Str) (threshold : Nat) (kind : NetworkKind)
    (genesisTimestamp : Int) (maxMiningIterations : Nat) : Except PyErr NetworkIdentity := do
  require (kind.valid) (identityError "unsupported network kind")
  let sorted ← validateGovernanceKeysForIdentity E keys threshold kind.isAlphaKind
  let genesisState : RegistryState :=
    { records := [], governanceVersion := 1, networkId := networkId, governanceKeys := sorted,
      threshold := threshold }
  let root ← registryRoot E genesisState
  let mined ← mineHeaderV2 E (genesisHeader root genesisTimestamp) maxMiningIterations
  let header ← orRaise mined
    ⟨.networkIdentityError, "failed to mine genesis header for network % within iteration limit",
      [.str networkId]⟩
  let genesisHash ← header.hash E
  let bytes ← header.bytes
  .ok { networkId := networkId, kind := kind, genesisHash := genesisHash, genesisRegistryRoot := root,
        governanceKeys := sorted, governanceThreshold := threshold, genesisHeaderBytes := bytes,
        genesisTimestamp := genesisTimestamp }

def deriveTestNetworkIdentity (keys : List Str) (threshold : Nat) (genesisTimestamp : Int)
    (maxMiningIterations : Nat) : Except PyErr NetworkIdentity := do
  let sorted ← validateGovernanceKeysForIdentity E keys threshold false
  let tempState : RegistryState :=
    { records := [], governanceVersion := 1, networkId := str "__temp__", governanceKeys := sorted,
      threshold := threshold }
  let root ← registryRoot E tempState
  deriveNetworkIdentity E (str "chainbreaker-scripture-v2-test-" ++ root.take 16) keys threshold .test
    genesisTimestamp maxMiningIterations

/-! ## The genesis block of an identity -/

def genesisBlockFor (identity : NetworkIdentity) : Except PyErr BlockV2 :=
  decodeBlockV2 identity.genesisHeaderBytes

def identityMatchesGenesis (identity : NetworkIdentity) (block : Option BlockV2) : Except PyErr Bool :=
  match block with
  | none => .ok false
  | some b =>
    if b.header.prevHash ≠ zeroHash then .ok false
    else if b.header.version ≠ PROTOCOL_VERSION then .ok false
    else do
      let hash ← b.hash E
      if hash ≠ identity.genesisHash then .ok false
      else
        match b.header.bytes with
        | .ok actual => .ok (actual = identity.genesisHeaderBytes)
        | .error _ => .ok false

end

end ChainBreaker
