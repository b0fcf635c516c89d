import ChainBreaker.Codec

/-!
# Blocks

Headers and blocks of both versions, their hashes and Merkle roots, the checks
a block must pass by itself, the frozen genesis block, and the proof-of-work
search. Hashing a header may raise, when a field does not fit its bytes.
-/

namespace ChainBreaker

open Fallible

def GENESIS_TIMESTAMP : Int := 1704067200
def GENESIS_TARGET : Int := MAX_TARGET
def GENESIS_GOVERNANCE_KEYS : List Str :=
  [str "0000000000000000000000000000000000000000000000000000000000000000",
    str "1111111111111111111111111111111111111111111111111111111111111111",
    str "2222222222222222222222222222222222222222222222222222222222222222"]
def GENESIS_THRESHOLD : Nat := 2
def GENESIS_NONCE : Int := 42129
def GENESIS_HASH : Str := str "0000a6fd1e57aafd19da552440faa94803dbf1a1773bcd9af8ce3e0ae9fd13db"
def GENESIS_REGISTRY_ROOT : Str := str "5814321ad489e630fef0350b1bff591d5cee8a821c00fa40a2cb2c99bd5b3186"

/-- `"0" * 64`. -/
def zeroHash : Str := List.replicate 64 48

/-- The 149 bytes of the frozen genesis header, spelled by their fields. -/
def GENESIS_HEADER_BYTES : Bytes :=
  (fromHex (str "0202000000" ++ zeroHash ++ zeroHash ++ GENESIS_REGISTRY_ROOT ++ str "8000926500000000" ++
    str "0000ffff00000000000000000000000000000000000000000000000000000000" ++ str "91a4000000000000")).getD []

/-- `satisfies_pow`: the hash, read as a number, meets the target. -/
def satisfiesPow (blockHash : Str) (target : Int) : Bool := decide ((hexNat blockHash : Int) ≤ target)

/-! ## Headers -/

structure BlockHeader where
  version : Int
  prevHash : Str
  merkleRoot : Str
  timestamp : Int
  target : Int
  nonce : Int
  deriving DecidableEq

structure BlockHeaderV2 where
  version : Int
  prevHash : Str
  merkleRoot : Str
  registryRoot : Str
  timestamp : Int
  target : Int
  nonce : Int
  deriving DecidableEq

def fromBE (b : Bytes) : Nat := b.foldl (fun acc x => 256 * acc + x.toNat) 0

def hexToTarget (hexTarget : Str) : Except PyErr Int := do
  let raw ← fromHexOrRaise hexTarget
  .ok (fromBE raw : Nat)

def BlockHeader.toDict (h : BlockHeader) : Except PyErr HeaderDict := do
  let target ← targetToHex h.target
  .ok ⟨h.version, h.prevHash, h.merkleRoot, h.timestamp, target, h.nonce⟩

def BlockHeaderV2.toDict (h : BlockHeaderV2) : Except PyErr HeaderDictV2 := do
  let target ← targetToHex h.target
  .ok ⟨h.version, h.prevHash, h.merkleRoot, h.registryRoot, h.timestamp, target, h.nonce⟩

def BlockHeaderV2.fromDict (d : HeaderDictV2) : Except PyErr BlockHeaderV2 := do
  let target ← hexToTarget d.target
  .ok ⟨d.version, d.prevHash, d.merkleRoot, d.registryRoot, d.timestamp, target, d.nonce⟩

/-- `header_bytes_for`. -/
def BlockHeaderV2.bytes (h : BlockHeaderV2) : Except PyErr Bytes := h.toDict >>= encodeHeaderV2

structure Block where
  header : BlockHeader
  transactions : List Json

structure BlockV2 where
  header : BlockHeaderV2
  transactions : List Json

section
variable (E : Primitives)

def BlockHeader.hash (h : BlockHeader) : Except PyErr Str := do
  let data ← h.toDict >>= encodeHeader
  .ok (hashDoubleHex E data)

def BlockHeaderV2.hash (h : BlockHeaderV2) : Except PyErr Str := do
  let data ← h.bytes
  .ok (hashDoubleHex E data)

def Block.hash (b : Block) : Except PyErr Str := b.header.hash E
def BlockV2.hash (b : BlockV2) : Except PyErr Str := b.header.hash E

/-! ## Merkle roots -/

/-- `merkle_root` of the transactions of a block of either version. -/
def merkleRootOf (transactions : List Json) : Except PyErr Str :=
  if transactions.isEmpty then .ok zeroHash
  else do
    let hashes ← collect (hashObject E) transactions
    .ok (match merkleTreeRoot E hashes with
      | some root => toHex root
      | none => zeroHash)

/-! ## Genesis -/

def decodeBlockV2 (data : Bytes) : Except PyErr BlockV2 := do
  let d ← decodeHeaderV2 data
  let header ← BlockHeaderV2.fromDict d
  .ok ⟨header, []⟩

def createGenesisBlock : Except PyErr BlockV2 := decodeBlockV2 GENESIS_HEADER_BYTES

/-- `is_genesis`: the hash is read only after the previous hash is all zeros. -/
def BlockV2.isGenesis (b : BlockV2) : Except PyErr Bool :=
  if b.header.prevHash = zeroHash then do
    let h ← b.hash E
    .ok (h = GENESIS_HASH)
  else .ok false

def Block.isGenesis (b : Block) : Bool := b.header.prevHash = zeroHash

def Block.verifyGenesis (b : Block) : Except PyErr Bool := do
  let expected ← createGenesisBlock
  let h ← b.hash E
  let eh ← expected.hash E
  .ok (b.header.version = expected.header.version && b.header.prevHash = expected.header.prevHash &&
    b.header.timestamp = expected.header.timestamp && b.header.target = expected.header.target &&
    b.header.nonce = expected.header.nonce && b.header.merkleRoot = expected.header.merkleRoot &&
    b.transactions.isEmpty && h = eh)

/-! ## Verification of one block -/

/-- The schema of every transaction, then the validator's opinion of each. -/
def transactionsOk (validator : Option (Json → Bool)) (transactions : List Json) : Bool :=
  transactions.all schemaOk && validator.all fun v => transactions.all v

/-- `BlockV2.verify`. -/
def BlockV2.verify (b : BlockV2) (referenceTime : Option Int) (allowGenesis : Bool)
    (medianPast expectedTarget : Option Int) (validator : Option (Json → Bool)) : Except PyErr Bool :=
  if b.header.version ≠ PROTOCOL_VERSION then .ok false
  else do
    let genesis ← if allowGenesis then b.isGenesis E else .ok false
    if genesis then .ok true
    else if ¬ (MIN_TARGET ≤ b.header.target ∧ b.header.target ≤ MAX_TARGET) then .ok false
    else do
      let merkleRoot ← merkleRootOf E b.transactions
      if merkleRoot ≠ b.header.merkleRoot then .ok false
      else do
        let hash ← b.hash E
        .ok (satisfiesPow hash b.header.target && expectedTarget.all (b.header.target = ·) &&
          decide (0 < b.header.timestamp) &&
          referenceTime.all (fun r => b.header.timestamp ≤ r + 2 * 60 * 60) &&
          medianPast.all (· < b.header.timestamp) && transactionsOk validator b.transactions)

/-- `Block.verify`: without a reference time, or with zero, the clock is read. -/
def Block.verify (b : Block) (clock : Int) (referenceTime : Option Int) (allowGenesis : Bool)
    (medianPast expectedTarget : Option Int) (validator : Option (Json → Bool)) : Except PyErr Bool :=
  if ¬ (MIN_TARGET ≤ b.header.target ∧ b.header.target ≤ MAX_TARGET) then .ok false
  else do
    let merkleRoot ← merkleRootOf E b.transactions
    if merkleRoot ≠ b.header.merkleRoot then .ok false
    else do
      let hash ← b.hash E
      if ¬ satisfiesPow hash b.header.target then .ok false
      else if ¬ expectedTarget.all (b.header.target = ·) then .ok false
      else if allowGenesis && b.isGenesis then b.verifyGenesis E
      else
        let now := match referenceTime with
          | some r => if r = 0 then clock else r
          | none => clock
        .ok (decide (b.header.timestamp ≤ now + 7200) && medianPast.all (· < b.header.timestamp) &&
          transactionsOk validator b.transactions)

/-! ## Mining -/

def NONCE_LIMIT : Int := 2 ^ 64

/-- The search of `mine_header_v2`, from the header's own nonce. -/
def searchNonce : Nat → BlockHeaderV2 → Except PyErr (Option BlockHeaderV2)
  | 0, _ => .ok none
  | n + 1, header => do
    let hash ← header.hash E
    if satisfiesPow hash header.target then .ok (some header)
    else searchNonce n { header with nonce := (header.nonce + 1) % NONCE_LIMIT }

/-- `mine_header_v2`: the header with the nonce found, or none. -/
def mineHeaderV2 (header : BlockHeaderV2) (maxIterations : Nat) : Except PyErr (Option BlockHeaderV2) :=
  if header.prevHash = zeroHash ∧ header.version = PROTOCOL_VERSION then do
    let candidate ← header.bytes
    if candidate = GENESIS_HEADER_BYTES then .ok none else searchNonce E maxIterations header
  else searchNonce E maxIterations header

end

end ChainBreaker
