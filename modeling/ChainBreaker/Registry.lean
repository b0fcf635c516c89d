import ChainBreaker.Governance
import Mathlib.Data.List.MinMax

/-!
# The curator registry

The immutable registry state, its canonical bytes and root, the two lookups of
a curator's key at a height, and the reducer that applies one governance
transaction. Heights and thresholds are natural numbers: the parsers and the
constructors let nothing else through.
-/

namespace ChainBreaker

open Fallible

structure CuratorRecord where
  curatorId : Str
  publicKeyHex : Str
  activationHeight : Nat
  revocationHeight : Option Nat
  previousKeyHex : Option Str
  registrationTxid : Str
  latestRotationTxid : Option Str
  deriving DecidableEq

def CuratorRecord.isActiveAt (r : CuratorRecord) (height : Nat) : Bool :=
  decide (r.activationHeight ≤ height) &&
    match r.revocationHeight with
    | none => true
    | some R => decide (height < R)

/-- Whether one record vouches for `key` at `height`: as its own key, or as the
key it replaced, before its activation. -/
def CuratorRecord.vouches (r : CuratorRecord) (key : Str) (height : Nat) : Bool :=
  (r.publicKeyHex == key && r.isActiveAt height) ||
    (r.previousKeyHex == some key && decide (height < r.activationHeight))

structure RegistryState where
  records : List CuratorRecord
  governanceVersion : Nat := GOVERNANCE_SCHEMA_VERSION
  networkId : Str := NETWORK_ID
  governanceKeys : List Str := []
  threshold : Nat := 0
  deriving DecidableEq

namespace RegistryState

/-- The records of one curator, in the order of the state. -/
def recordsOf (s : RegistryState) (c : Str) : List CuratorRecord :=
  s.records.filter fun r => r.curatorId == c

/-- The record with the greatest activation height, the first of several. -/
def byId (s : RegistryState) (c : Str) : Option CuratorRecord :=
  (s.recordsOf c).argmax CuratorRecord.activationHeight

def isActive (s : RegistryState) (c : Str) (height : Nat) : Bool :=
  (s.byId c).any (·.isActiveAt height)

def activeKeyAt (s : RegistryState) (c : Str) (height : Nat) : Option Str :=
  match s.byId c with
  | none => none
  | some r => if r.isActiveAt height then some r.publicKeyHex else none

def keyWasValidAt (s : RegistryState) (c key : Str) (height : Nat) : Bool :=
  (s.recordsOf c).any fun r => r.vouches key height

def withNetworkId (s : RegistryState) (networkId : Str) : RegistryState := { s with networkId := networkId }

def checkGenesisKeys : List Str → Except PyErr Unit
  | [] => .ok ()
  | key :: rest => do
    let raw ← fromHexOrRaise key
    require (raw.length = 32) ⟨.registryError, "governance key must be 32 bytes: %", [.str key]⟩
    checkGenesisKeys rest

def genesis (governanceKeys : List Str) (threshold : Nat) : Except PyErr RegistryState := do
  require (governanceKeys ≠ []) (err .registryError "genesis requires at least one governance key")
  require (1 ≤ threshold ∧ threshold ≤ governanceKeys.length)
    ⟨.registryError, "genesis threshold must satisfy 1 <= threshold <= %", [.int governanceKeys.length]⟩
  checkGenesisKeys governanceKeys
  .ok { records := [], governanceVersion := GOVERNANCE_SCHEMA_VERSION, networkId := NETWORK_ID,
        governanceKeys := Lex.sortOn charKey id governanceKeys, threshold := threshold }

end RegistryState

/-! ## Canonical bytes -/

def encodeVarint (n : Nat) : Except PyErr Bytes :=
  if n < 0xFD then .ok (leBytes 1 n)
  else if n ≤ 0xFFFF then .ok (0xFD :: leBytes 2 n)
  else if n ≤ 0xFFFFFFFF then .ok (0xFE :: leBytes 4 n)
  else if n ≤ 0xFFFFFFFFFFFFFFFF then .ok (0xFF :: leBytes 8 n)
  else raise .registryError "varint overflow" []

def encodeBytes (data : Bytes) : Except PyErr Bytes := do
  let n ← encodeVarint data.length
  .ok (n ++ data)

def encodeStr (s : Str) : Except PyErr Bytes := encodeUtf8 s >>= encodeBytes

/-- `bytes.fromhex(h) if h else bytes(32)`. -/
def hexOrZeros : Option Str → Except PyErr Bytes
  | none => .ok (List.replicate 32 0)
  | some [] => .ok (List.replicate 32 0)
  | some h => fromHexOrRaise h

def serializeRecord (r : CuratorRecord) : Except PyErr Bytes := do
  let version ← toBytesLE 4 GOVERNANCE_SCHEMA_VERSION
  let curatorId ← encodeStr r.curatorId
  let publicKey ← fromHexOrRaise r.publicKeyHex
  let activation ← toBytesLE 8 r.activationHeight
  let revocation ← toBytesLE 8 (r.revocationHeight.getD 0xFFFFFFFFFFFFFFFF)
  let previous ← hexOrZeros r.previousKeyHex
  let registration ← fromHexOrRaise r.registrationTxid
  let latest ← hexOrZeros r.latestRotationTxid
  .ok (version ++ curatorId ++ publicKey ++ activation ++ revocation ++ previous ++ registration ++ latest)

def concatOk {α : Type} (f : α → Except PyErr Bytes) : List α → Except PyErr Bytes
  | [] => .ok []
  | a :: as => do
    let b ← f a
    let bs ← concatOk f as
    .ok (b ++ bs)

def utf8Key (b : UInt8) : Nat := b.toNat

/-- `sorted(records, key=lambda r: r.curator_id.encode("utf-8"))`: every key is
computed before the sort. -/
def sortRecords (records : List CuratorRecord) : Except PyErr (List CuratorRecord) :=
  match records.find? fun r => r.curatorId.any isSurrogate with
  | some r => raise .unicodeEncodeError "surrogates not allowed" [.str r.curatorId]
  | none => .ok (Lex.sortOn utf8Key (fun r => utf8 r.curatorId) records)

def serializeRegistryState (s : RegistryState) : Except PyErr Bytes := do
  let sortedRecords ← sortRecords s.records
  let version ← toBytesLE 4 s.governanceVersion
  let networkId ← encodeStr s.networkId
  let keyCount ← encodeVarint s.governanceKeys.length
  let keys ← concatOk fromHexOrRaise s.governanceKeys
  let threshold ← toBytesLE 1 s.threshold
  let recordCount ← encodeVarint sortedRecords.length
  let records ← concatOk serializeRecord sortedRecords
  .ok (version ++ networkId ++ keyCount ++ keys ++ threshold ++ recordCount ++ records)

section
variable (E : Primitives)

def registryRoot (s : RegistryState) : Except PyErr Str := do
  let data ← serializeRegistryState s
  .ok (hashSingleHex E data)

/-! ## The reducer -/

def registryError (t : String) : PyErr := err .registryError t

/-- The loop looks at one record at a time, the curator before the key. -/
def requireNotRegistered (s : RegistryState) (c key : Str) : Except PyErr Unit :=
  match s.records.find? fun r => r.curatorId == c || r.publicKeyHex == key with
  | none => .ok ()
  | some r =>
    if r.curatorId == c then raise .registryError "curator_id % already registered" [.str c]
    else raise .registryError "public_key_hex already registered under %" [.str r.curatorId]

def requirePublicKeyUnused (s : RegistryState) (key excludeCuratorId : Str) : Except PyErr Unit :=
  match s.records.find? fun r => r.publicKeyHex == key && r.curatorId != excludeCuratorId with
  | none => .ok ()
  | some r => raise .registryError "public_key_hex already registered under %" [.str r.curatorId]

/-- The newest record of the curator, if it carries the key; activation and
revocation heights are not looked at. -/
def requireActiveRecord (s : RegistryState) (c key : Str) : Except PyErr CuratorRecord := do
  let r ← orRaise (s.byId c) ⟨.registryError, "unknown curator %", [.str c]⟩
  require (r.publicKeyHex = key) (registryError "public_key_hex does not match active record")
  .ok r

def verifyCuratorSignature (r : CuratorRecord) (bodyWithoutWitness : Fields) (signatureHex : Str) :
    Except PyErr Unit := do
  let message ← governanceMessage E bodyWithoutWitness NETWORK_ID
  let pk ← decodePublicKey r.publicKeyHex
  require (verify E pk message signatureHex = true) (registryError "invalid curator signature")

def applyRegister (s : RegistryState) (tx : CuratorRegisterTx) (blockHeight : Nat) (txid : Str)
    (ctx : GovernanceContext) : Except PyErr RegistryState := do
  let bodyWithoutWitness := tx.toDict.without ["governance_signatures"]
  ctx.verifyGovernanceSignatures E bodyWithoutWitness tx.governanceSignatures
  require (blockHeight < tx.activationHeight)
    (registryError "activation_height must be greater than block_height")
  let root ← registryRoot E s
  require (tx.previousRegistryRoot = root)
    (registryError "previous_registry_root does not match current state")
  requireNotRegistered s tx.curatorId tx.publicKeyHex
  let newRecord : CuratorRecord :=
    { curatorId := tx.curatorId, publicKeyHex := tx.publicKeyHex, activationHeight := tx.activationHeight,
      revocationHeight := none, previousKeyHex := none, registrationTxid := txid, latestRotationTxid := none }
  let newRecords ← sortRecords (s.records ++ [newRecord])
  .ok { records := newRecords, governanceVersion := s.governanceVersion, networkId := s.networkId,
        governanceKeys := s.governanceKeys, threshold := s.threshold }

def applyRotate (s : RegistryState) (tx : CuratorRotateTx) (blockHeight : Nat) (txid : Str)
    (ctx : GovernanceContext) : Except PyErr RegistryState := do
  let bodyWithoutWitness := tx.toDict.without ["governance_signatures", "curator_signature"]
  ctx.verifyGovernanceSignatures E bodyWithoutWitness tx.governanceSignatures
  require (blockHeight < tx.activationHeight)
    (registryError "activation_height must be greater than block_height")
  let root ← registryRoot E s
  require (tx.previousRegistryRoot = root)
    (registryError "previous_registry_root does not match current state")
  let oldRecord ← requireActiveRecord s tx.curatorId tx.publicKeyHex
  verifyCuratorSignature E oldRecord bodyWithoutWitness tx.curatorSignatureHex
  require (tx.newPublicKeyHex ≠ oldRecord.publicKeyHex)
    (registryError "new public key must differ from current key")
  requirePublicKeyUnused s tx.newPublicKeyHex tx.curatorId
  let revokedOld : CuratorRecord :=
    { oldRecord with revocationHeight := some tx.activationHeight, latestRotationTxid := some txid }
  let newRecord : CuratorRecord :=
    { curatorId := tx.curatorId, publicKeyHex := tx.newPublicKeyHex,
      activationHeight := tx.activationHeight, revocationHeight := none,
      previousKeyHex := some oldRecord.publicKeyHex, registrationTxid := oldRecord.registrationTxid,
      latestRotationTxid := some txid }
  let newRecords ← sortRecords
    (s.records.filter (fun r => r.curatorId != tx.curatorId) ++ [revokedOld, newRecord])
  .ok { records := newRecords, governanceVersion := s.governanceVersion, networkId := s.networkId,
        governanceKeys := s.governanceKeys, threshold := s.threshold }

def applyRevoke (s : RegistryState) (tx : CuratorRevokeTx) (blockHeight : Nat) (txid : Str)
    (ctx : GovernanceContext) : Except PyErr RegistryState := do
  let bodyWithoutWitness := tx.toDict.without ["governance_signatures", "curator_signature"]
  ctx.verifyGovernanceSignatures E bodyWithoutWitness tx.governanceSignatures
  require (blockHeight < tx.revocationHeight)
    (registryError "revocation_height must be greater than block_height")
  let root ← registryRoot E s
  require (tx.previousRegistryRoot = root)
    (registryError "previous_registry_root does not match current state")
  let oldRecord ← requireActiveRecord s tx.curatorId tx.publicKeyHex
  verifyCuratorSignature E oldRecord bodyWithoutWitness tx.curatorSignatureHex
  require (oldRecord.revocationHeight = none) (registryError "curator is already revoked")
  require (oldRecord.activationHeight ≤ tx.revocationHeight)
    (registryError "revocation_height must be >= activation_height")
  let revoked : CuratorRecord :=
    { oldRecord with revocationHeight := some tx.revocationHeight, latestRotationTxid := some txid }
  let newRecords ← sortRecords (s.records.filter (fun r => r.curatorId != tx.curatorId) ++ [revoked])
  -- the source passes the records alone: the other fields take their defaults
  .ok { records := newRecords }

def applyRegistryTransaction (s : RegistryState) (tx : GovernanceTx) (blockHeight : Nat) (txid : Str)
    (ctx : GovernanceContext) : Except PyErr RegistryState :=
  match tx with
  | .register tx => applyRegister E s tx blockHeight txid ctx
  | .rotate tx => applyRotate E s tx blockHeight txid ctx
  | .revoke tx => applyRevoke E s tx blockHeight txid ctx

end

end ChainBreaker
