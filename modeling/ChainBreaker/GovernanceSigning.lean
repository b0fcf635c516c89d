import ChainBreaker.Attestation
import ChainBreaker.Completeness
import ChainBreaker.SignatureOrder
import ChainBreaker.StorageFormats
import ChainBreaker.Threshold
import ChainBreaker.TypedMessages

/-!
# Signing governance transactions

`_build_sign_governance_tx` builds the body of a transaction, signs it with the
private keys it is given and checks the signatures before it writes anything. The
body names the default network whatever the network of the ledger is, and is signed
as it was typed, although what is verified has its keys in lower case. What it writes
is what the ledger takes exactly on the default network, with keys in lower case,
the curator's own private key, and no rotation of a revoked key (`signs_iff`).
-/

namespace ChainBreaker

open Fallible

namespace CliV2

inductive GovernanceAction where
  | register
  | rotate
  | revoke
  deriving DecidableEq

def GovernanceAction.name : GovernanceAction → Str
  | .register => str "curator_register"
  | .rotate => str "curator_rotate"
  | .revoke => str "curator_revoke"

/-- The arguments of `_build_sign_governance_tx`. -/
structure SignRequest where
  action : GovernanceAction
  ledgerPath : Str
  curatorId : Str
  publicKey : Str
  governanceKeys : List Str
  keyIndices : List Int
  output : Str
  force : Bool
  activationHeight : Option Int := none
  newPublicKey : Option Str := none
  revocationHeight : Option Int := none
  reason : Option Str := none
  curatorPrivateKey : Option Str := none

/-- The files that are there, what the ledger and key files hold, and Ed25519 signing. -/
structure Workspace (K : Type) where
  fileExists : Str → Bool
  /-- `_load_ledger` -/
  ledger : Str → Except PyErr Ledger
  /-- `_load_private_key` -/
  privateKey : Str → Except PyErr K
  sign : K → Bytes → Bytes
  sign_length : ∀ sk message, (sign sk message).length = 64

/-- The transaction file, and what is printed about it. -/
structure SignedTx where
  envelope : Json
  report : Fields

def cliError (t : String) : PyErr := err .cliError t

/-! ## The checks of the command line -/

/-- `except Exception`, around `decode_public_key`. -/
def checkPublicKey (text : String) (key : Str) : Except PyErr Unit :=
  match decodePublicKey key with
  | .ok _ => .ok ()
  | .error e => raise .cliError text [.str (str e.text)]

def candidateBlockHeight (l : Ledger) : Int := l.height + 1

/-- The loop over the records for a registration. -/
def requireUnregistered (s : RegistryState) (curatorId publicKey : Str) : Except PyErr Unit :=
  match s.records.find? fun r => r.curatorId == curatorId || r.publicKeyHex == publicKey with
  | none => .ok ()
  | some r =>
    if r.curatorId == curatorId then raise .cliError "curator_id % is already registered" [.str curatorId]
    else raise .cliError "public key is already registered under %" [.str r.curatorId]

/-- The loop over the records for a rotation. -/
def requireNewKeyUnused (s : RegistryState) (curatorId newPublicKey : Str) : Except PyErr Unit :=
  match s.records.find? fun r => r.publicKeyHex == newPublicKey && r.curatorId != curatorId with
  | none => .ok ()
  | some r => raise .cliError "new public key is already registered under %" [.str r.curatorId]

def requireActiveCuratorKey (s : RegistryState) (curatorId publicKeyHex : Str) : Except PyErr CuratorRecord := do
  let record ← orRaise (s.byId curatorId) ⟨.cliError, "unknown curator %", [.str curatorId]⟩
  require (record.publicKeyHex = publicKeyHex) (cliError "public_key_hex does not match active record")
  require (record.revocationHeight = none) (cliError "curator is already revoked")
  .ok record

/-- The branch of the action: what it checks and the fields it adds. -/
def SignRequest.actionFields (a : SignRequest) (s : RegistryState) (candidateHeight : Int) : Except PyErr Fields :=
  match a.action with
  | .register => do
    let activationHeight ← orRaise a.activationHeight (cliError "--activation-height is required for curator_register")
    require (candidateHeight < activationHeight)
      ⟨.cliError, "activation_height (%) must be greater than candidate block height (%)",
        [.int activationHeight, .int candidateHeight]⟩
    requireUnregistered s a.curatorId a.publicKey
    .ok [(str "activation_height", .int activationHeight)]
  | .rotate => do
    let activationHeight ← orRaise a.activationHeight (cliError "--activation-height is required for curator_rotate")
    let newPublicKey ← orRaise a.newPublicKey (cliError "--new-public-key is required for curator_rotate")
    require (candidateHeight < activationHeight)
      ⟨.cliError, "activation_height (%) must be greater than candidate block height (%)",
        [.int activationHeight, .int candidateHeight]⟩
    let _ ← requireActiveCuratorKey s a.curatorId a.publicKey
    checkPublicKey "invalid new public key: %" newPublicKey
    requireNewKeyUnused s a.curatorId newPublicKey
    .ok [(str "activation_height", .int activationHeight), (str "new_public_key_hex", .str newPublicKey)]
  | .revoke => do
    let revocationHeight ← orRaise a.revocationHeight (cliError "--revocation-height is required for curator_revoke")
    let reason ← orRaise a.reason (cliError "--reason is required for curator_revoke")
    require (candidateHeight < revocationHeight)
      ⟨.cliError, "revocation_height (%) must be greater than candidate block height (%)",
        [.int revocationHeight, .int candidateHeight]⟩
    let record ← requireActiveCuratorKey s a.curatorId a.publicKey
    require (record.revocationHeight = none) (cliError "curator is already revoked")
    require ((record.activationHeight : Int) ≤ revocationHeight)
      ⟨.cliError, "revocation_height (%) must be >= activation_height (%)",
        [.int revocationHeight, .int record.activationHeight]⟩
    .ok [(str "revocation_height", .int revocationHeight), (str "reason_code", .str reason)]

/-- The fields that every body has. -/
def SignRequest.commonFields (a : SignRequest) (previousRegistryRoot : Str) : Fields :=
  [(str "action", .str a.action.name),
    (str "curator_id", .str a.curatorId),
    (str "public_key_hex", .str a.publicKey),
    (str "previous_registry_root", .str previousRegistryRoot),
    (str "network_id", .str NETWORK_ID),
    (str "schema_version", .int GOVERNANCE_SCHEMA_VERSION)]

/-- `_tx_body_to_envelope`. -/
def txBodyToEnvelope (body : Fields) : Json := .dict [(str "type", .str (str "governance")), (str "body", .dict body)]

def WITNESS_KEYS : List String := ["governance_signatures", "curator_signature"]

section
variable {K : Type} (E : Primitives) (W : Workspace K)

def derivePreviousRegistryRoot (l : Ledger) : Except PyErr Str := do
  let s ← l.registryStateAt l.height.toNat
  registryRoot E s

/-- `make_curator_signature` and `make_governance_signature` sign the same message. -/
def signBody (sk : K) (body : Fields) : Except PyErr Str := do
  let message ← governanceMessage E body NETWORK_ID
  .ok (toHex (W.sign sk message))

def addCuratorSignature (a : SignRequest) (body : Fields) : Except PyErr Fields :=
  if a.action = .register then .ok body
  else do
    let path ← orRaise a.curatorPrivateKey ⟨.cliError, "--curator-private-key is required for %", [.str a.action.name]⟩
    let sk ← W.privateKey path
    let signature ← signBody E W sk (body.without WITNESS_KEYS)
    .ok (body ++ [(str "curator_signature", .str signature)])

/-- The loop over the governance keys, with the indices already seen. -/
def signGovernance (keyCount : Nat) (body : Fields) : List Int → List (K × Int) →
    Except PyErr (List GovernanceSignature)
  | _, [] => .ok []
  | seen, (sk, i) :: rest => do
    require (i ∉ seen) ⟨.cliError, "duplicate governance key index: %", [.int i]⟩
    require (0 ≤ i ∧ i < keyCount)
      ⟨.cliError, "governance key index % out of range (0..%)", [.int i, .int (keyCount - 1)]⟩
    let signature ← signBody E W sk (body.without WITNESS_KEYS)
    let sigs ← signGovernance keyCount body (i :: seen) rest
    .ok (⟨i, signature⟩ :: sigs)

def validateGovernanceBody (action : GovernanceAction) (body : Fields) (ctx : GovernanceContext) : Except PyErr Unit :=
  match action with
  | .register => do
    let tx ← CuratorRegisterTx.fromDict (.dict body) NETWORK_ID
    ctx.verifyGovernanceSignatures E (tx.toDict.without ["governance_signatures"]) tx.governanceSignatures
  | .rotate => do
    let tx ← CuratorRotateTx.fromDict (.dict body) NETWORK_ID
    ctx.verifyGovernanceSignatures E (tx.toDict.without WITNESS_KEYS) tx.governanceSignatures
  | .revoke => do
    let tx ← CuratorRevokeTx.fromDict (.dict body) NETWORK_ID
    ctx.verifyGovernanceSignatures E (tx.toDict.without WITNESS_KEYS) tx.governanceSignatures

/-- The check of the assembled transaction, with the errors that are reported. -/
def authorize (l : Ledger) (action : GovernanceAction) (body : Fields) : Except PyErr Unit :=
  match (do
    let ctx ← GovernanceContext.init l.governanceKeys l.governanceThreshold NETWORK_ID
    validateGovernanceBody E action body ctx) with
  | .ok () => .ok ()
  | .error e =>
    if Ledger.rejects e then raise .cliError "governance authorization failed: %" [.str (str e.text)] else .error e

def buildSignGovernanceTx (a : SignRequest) : Except PyErr SignedTx := do
  require (¬ (W.fileExists a.output = true ∧ a.force = false))
    ⟨.cliError, "refusing to overwrite existing file: % (use --force)", [.str a.output]⟩
  require (a.governanceKeys.length = a.keyIndices.length)
    (cliError "each --governance-key must have a matching --key-index")
  require (a.governanceKeys ≠ []) (cliError "at least one --governance-key is required")
  let led ← W.ledger a.ledgerPath
  let candidateHeight := candidateBlockHeight led
  let previousRegistryRoot ← derivePreviousRegistryRoot E led
  let state ← led.registryStateAt led.height.toNat
  checkPublicKey "invalid public key: %" a.publicKey
  let fields ← a.actionFields state candidateHeight
  let body ← addCuratorSignature E W a (a.commonFields previousRegistryRoot ++ fields)
  let privKeys ← collect W.privateKey a.governanceKeys
  let sigs ← signGovernance E W led.governanceKeys.length body [] (privKeys.zip a.keyIndices)
  let sorted := sigs.insertionSort fun s t => s.keyIndex ≤ t.keyIndex
  let body := body ++ [(str "governance_signatures", .list (sorted.map GovernanceSignature.toDict))]
  authorize E led a.action body
  let txid ← canonicalTxid E body
  .ok ⟨txBodyToEnvelope body,
    [(str "path", .str a.output), (str "action", .str a.action.name), (str "curator_id", .str a.curatorId),
      (str "canonical_txid", .str txid), (str "previous_registry_root", .str previousRegistryRoot)]⟩

end

/-! ## What is asked for -/

/-- What a request that has its options asks for. -/
inductive Choice where
  | register (activationHeight : Int)
  | rotate (newPublicKey : Str) (activationHeight : Int)
  | revoke (revocationHeight : Int) (reason : Str)

namespace Choice

def action : Choice → GovernanceAction
  | .register _ => .register
  | .rotate .. => .rotate
  | .revoke .. => .revoke

def fields : Choice → Fields
  | .register h => [(str "activation_height", .int h)]
  | .rotate k h => [(str "activation_height", .int h), (str "new_public_key_hex", .str k)]
  | .revoke h r => [(str "revocation_height", .int h), (str "reason_code", .str r)]

/-- The fields with the signature of the curator, which a registration does not have. -/
def curatorFields (signature : Str) : Choice → Fields
  | .register _ => []
  | _ => [(str "curator_signature", .str signature)]

/-- The keys of the choice, besides the curator's. -/
def newKeys : Choice → List Str
  | .rotate k _ => [k]
  | _ => []

/-- The choice with its key in lower case, as the parser reads it. -/
def lowered : Choice → Choice
  | .rotate k h => .rotate (lower k) h
  | x => x

end Choice

namespace SignRequest

def Asks (a : SignRequest) : Choice → Prop
  | .register h => a.action = .register ∧ a.activationHeight = some h
  | .rotate k h => a.action = .rotate ∧ a.activationHeight = some h ∧ a.newPublicKey = some k
  | .revoke h r => a.action = .revoke ∧ a.revocationHeight = some h ∧ a.reason = some r

theorem Asks.action {a : SignRequest} {x : Choice} (h : a.Asks x) : a.action = x.action := by cases x <;> exact h.1

/-- The body without its signatures. -/
def body (a : SignRequest) (x : Choice) (root : Str) : Fields := a.commonFields root ++ x.fields

def lowered (a : SignRequest) : SignRequest := { a with publicKey := lower a.publicKey }

/-- The body with its signatures. -/
def writtenBody (a : SignRequest) (x : Choice) (root curatorSignature : Str) (sigs : List GovernanceSignature) :
    Fields :=
  a.body x root ++ x.curatorFields curatorSignature ++
    [(str "governance_signatures", .list (sigs.map GovernanceSignature.toDict))]

/-- The transaction that the parser makes of the body. -/
def tx (a : SignRequest) (root curatorSignature : Str) (sigs : List GovernanceSignature) : Choice → GovernanceTx
  | .register h => .register ⟨a.curatorId, lower a.publicKey, h.toNat, none, root, sigs, NETWORK_ID,
    GOVERNANCE_SCHEMA_VERSION⟩
  | .rotate k h => .rotate ⟨a.curatorId, lower a.publicKey, lower k, h.toNat, none, root, sigs, curatorSignature,
    NETWORK_ID, GOVERNANCE_SCHEMA_VERSION⟩
  | .revoke h r => .revoke ⟨a.curatorId, lower a.publicKey, h.toNat, r, root, sigs, curatorSignature, NETWORK_ID,
      GOVERNANCE_SCHEMA_VERSION⟩

end SignRequest

/-- What the reducer asks of the choice in a block of the height, besides the signatures. -/
def Choice.Allowed (a : SignRequest) (s : RegistryState) (height : Nat) : Choice → Prop
  | .register h => height < h ∧ requireNotRegistered s a.curatorId (lower a.publicKey) = .ok ()
  | .rotate k h => height < h ∧ IsHex32 k ∧ ∃ r, requireActiveRecord s a.curatorId (lower a.publicKey) = .ok r ∧
      lower k ≠ r.publicKeyHex ∧ requirePublicKeyUnused s (lower k) a.curatorId = .ok ()
  | .revoke h reason => height < h ∧ requireReasonCode (.str reason) = .ok reason ∧
      ∃ r, requireActiveRecord s a.curatorId (lower a.publicKey) = .ok r ∧ r.revocationHeight = none ∧
      r.activationHeight ≤ h

/-- The rules that the parser and the reducer have for the choice on the state, besides the signatures. -/
structure FollowsRules (E : Primitives) (a : SignRequest) (x : Choice) (s : RegistryState) (root : Str) (height : Nat) :
    Prop where
  curatorId : requireCuratorId (.str a.curatorId) = .ok a.curatorId
  publicKey : IsHex32 a.publicKey
  root : registryRoot E s = .ok root
  allowed : x.Allowed a s height

/-! ## The parsed body -/

section
variable {a : SignRequest} {x : Choice} {s : RegistryState} {root curatorSignature : Str}
  {sigs : List GovernanceSignature} {height : Nat}

/-- A signature that the parser reads. -/
def Sound (sig : GovernanceSignature) : Prop :=
  0 ≤ sig.keyIndex ∧ ∃ raw, fromHex sig.signatureHex = some raw ∧ raw.length = 64

theorem signature_back {sig : GovernanceSignature} (h : Sound sig) :
    GovernanceSignature.fromDict sig.toDict = .ok sig := by
  obtain ⟨hindex, raw, hraw, hlen⟩ := h
  have hkeys : Fields.keysWithin [(str "key_index", .int sig.keyIndex), (str "signature", .str sig.signatureHex)]
      ["key_index", "signature"] ∧ Fields.hasKeys [(str "key_index", .int sig.keyIndex),
        (str "signature", .str sig.signatureHex)]
      ["key_index", "signature"] := ⟨rfl, rfl⟩
  have hget : Fields.get [(str "key_index", .int sig.keyIndex), (str "signature", .str sig.signatureHex)] "key_index" =
      some (.int sig.keyIndex) := rfl
  have hsig : Fields.get [(str "key_index", .int sig.keyIndex), (str "signature", .str sig.signatureHex)] "signature" =
      some (.str sig.signatureHex) := rfl
  simp only [GovernanceSignature.fromDict, GovernanceSignature.toDict, Json.asDict?, orRaise, ok_bind, hget, hsig,
    Option.bind_some, Json.asInt?, Json.asStr?, hraw]
  rw [require_of _ hkeys, ok_bind, require_of _ hindex, ok_bind, require_of _ hlen, ok_bind]

theorem requireSignatures_back (h : ∀ sig ∈ sigs, Sound sig) :
    requireSignatures (.list (sigs.map GovernanceSignature.toDict)) = .ok sigs := by
  rw [requireSignatures, Json.asList?, orRaise, ok_bind]
  exact collect_eq_ok.mpr (List.forall₂_map_left_iff.mpr (List.forall₂_same.mpr fun sig hsig =>
    signature_back (h sig hsig)))

theorem requireHexHash_of {key : Str} {n : Nat} {raw : Bytes} (hraw : fromHex key = some raw)
    (hlen : raw.length * 2 = n) (name : String) : requireHexHash (.str key) name n = .ok (lower key) := by
  rw [requireHexHash, Json.asStr?, orRaise, ok_bind, hraw, orRaise, ok_bind, require_of _ hlen, ok_bind]

theorem requireHeight_of {h : Int} (hpos : 0 ≤ h) (name : String) : requireHeight (.int h) name = .ok h.toNat := by
  rw [requireHeight, Json.asInt?, orRaise, ok_bind, require_of _ hpos, ok_bind]

theorem lower_toHex (raw : Bytes) : lower (toHex raw) = toHex raw := by
  have hmap : ∀ t : Str, (∀ c ∈ t, isLowerHex c = true) → lower t = t := by
    intro t ht
    rw [lower, List.map_congr_left fun c hc => ?_, List.map_id]
    have hc' := ht c hc
    simp only [isLowerHex, Bool.or_eq_true, Bool.and_eq_true, decide_eq_true_eq] at hc'
    rw [lowerChar, if_neg (by omega), id]
  exact hmap _ (toHex_lower raw).2

theorem requireHexHash_toHex {raw : Bytes} {n : Nat} (hlen : raw.length * 2 = n) (name : String) :
    requireHexHash (.str (toHex raw)) name n = .ok (toHex raw) := by
  rw [requireHexHash_of (fromHex_toHex raw) hlen, lower_toHex]

/-- What the parser reads of a body depends on its signatures having the right form. -/
structure WellSigned (root curatorSignature : Str) (sigs : List GovernanceSignature) : Prop where
  root : ∃ raw : Bytes, raw.length = 32 ∧ root = toHex raw
  curator : ∃ raw : Bytes, raw.length = 64 ∧ curatorSignature = toHex raw
  sigs : ∀ sig ∈ sigs, Sound sig

/-- The fields that every action has. -/
theorem writtenBody_common (a : SignRequest) (x : Choice) (root curatorSignature : Str)
    (sigs : List GovernanceSignature) :
    (a.writtenBody x root curatorSignature sigs).item "curator_id" = .ok (.str a.curatorId) ∧
      (a.writtenBody x root curatorSignature sigs).item "public_key_hex" = .ok (.str a.publicKey) ∧
      (a.writtenBody x root curatorSignature sigs).item "previous_registry_root" = .ok (.str root) ∧
      (a.writtenBody x root curatorSignature sigs).item "governance_signatures" =
        .ok (.list (sigs.map GovernanceSignature.toDict)) ∧
      (a.writtenBody x root curatorSignature sigs).get "action" = some (.str a.action.name) ∧
      (a.writtenBody x root curatorSignature sigs).get "network_id" = some (.str NETWORK_ID) ∧
      (a.writtenBody x root curatorSignature sigs).get "schema_version" = some (.int 1) ∧
      (a.writtenBody x root curatorSignature sigs).get "display_metadata_hash" = none := by
  cases x <;> exact ⟨rfl, rfl, rfl, rfl, rfl, rfl, rfl, rfl⟩

theorem eqStr_self (t : Str) : (Json.str t).eqStr t = true := by
  rw [Json.eqStr]
  exact beq_self_eq_true t

/-- The envelope of a written body is the one that the parser of its action expects. -/
theorem checkEnvelope_writtenBody {what action : String} {keys : List String} (haction : a.action.name = str action)
    (hkeys : (a.writtenBody x root curatorSignature sigs).keysWithin keys = true) :
    checkEnvelope what action keys (.dict (a.writtenBody x root curatorSignature sigs)) NETWORK_ID =
      .ok (a.writtenBody x root curatorSignature sigs) := by
  obtain ⟨-, -, -, -, hname, hnetwork, hversion, -⟩ := writtenBody_common a x root curatorSignature sigs
  rw [checkEnvelope, Json.asDict?, orRaise, ok_bind, require_of _ hkeys, ok_bind,
    require_of _ (by rw [hname, haction]; exact eqStr_self _), ok_bind,
    require_of _ (by rw [hnetwork]; exact eqStr_self _), ok_bind, require_of _ (by rw [hversion]; rfl), ok_bind]

section
variable {E : Primitives} {h : Int}

theorem register_back (haction : a.action = .register) (hrules : FollowsRules E a (.register h) s root height)
    (hsigned : WellSigned root curatorSignature sigs) :
    CuratorRegisterTx.fromDict (.dict (a.writtenBody (.register h) root curatorSignature sigs)) NETWORK_ID =
      .ok ⟨a.curatorId, lower a.publicKey, h.toNat, none, root, sigs, NETWORK_ID, GOVERNANCE_SCHEMA_VERSION⟩ := by
  obtain ⟨rawRoot, hrootLen, rfl⟩ := hsigned.root
  obtain ⟨rawKey, hkey, hkeyLen⟩ := hrules.publicKey
  have hpos : 0 ≤ h := by have := hrules.allowed.1; omega
  obtain ⟨hid, hpk, hroot, hsigs, -, -, -, hdisplay⟩ :=
    writtenBody_common a (.register h) (toHex rawRoot) curatorSignature sigs
  have hheight : (a.writtenBody (.register h) (toHex rawRoot) curatorSignature sigs).item "activation_height" =
    .ok (.int h) := rfl
  rw [CuratorRegisterTx.fromDict, checkEnvelope_writtenBody (by rw [haction]; rfl) rfl, ok_bind, hid, ok_bind,
    hrules.curatorId, ok_bind, hpk, ok_bind, requireHexHash_of hkey (by omega), ok_bind, hheight, ok_bind,
    requireHeight_of hpos, ok_bind, hdisplay, requireOptionalHexHash, ok_bind, hroot, ok_bind,
      requireHexHash_toHex (by omega), ok_bind, hsigs, ok_bind,
    requireSignatures_back hsigned.sigs, ok_bind]

theorem rotate_back {k : Str} (haction : a.action = .rotate) (hrules : FollowsRules E a (.rotate k h) s root height)
    (hsigned : WellSigned root curatorSignature sigs) :
    CuratorRotateTx.fromDict (.dict (a.writtenBody (.rotate k h) root curatorSignature sigs)) NETWORK_ID =
      .ok ⟨a.curatorId, lower a.publicKey, lower k, h.toNat, none, root, sigs, curatorSignature, NETWORK_ID,
        GOVERNANCE_SCHEMA_VERSION⟩ := by
  obtain ⟨rawRoot, hrootLen, rfl⟩ := hsigned.root
  obtain ⟨rawSig, hsigLen, rfl⟩ := hsigned.curator
  obtain ⟨rawKey, hkey, hkeyLen⟩ := hrules.publicKey
  obtain ⟨hlt, ⟨rawNew, hnew, hnewLen⟩, -⟩ := hrules.allowed
  obtain ⟨hid, hpk, hroot, hsigs, -, -, -, hdisplay⟩ :=
    writtenBody_common a (.rotate k h) (toHex rawRoot) (toHex rawSig) sigs
  have hheight : (a.writtenBody (.rotate k h) (toHex rawRoot) (toHex rawSig) sigs).item "activation_height" =
    .ok (.int h) := rfl
  have hnewKey : (a.writtenBody (.rotate k h) (toHex rawRoot) (toHex rawSig) sigs).item "new_public_key_hex" =
    .ok (.str k) := rfl
  have hcurator : (a.writtenBody (.rotate k h) (toHex rawRoot) (toHex rawSig) sigs).item "curator_signature" =
    .ok (.str (toHex rawSig)) := rfl
  rw [CuratorRotateTx.fromDict, checkEnvelope_writtenBody (by rw [haction]; rfl) rfl, ok_bind, hid, ok_bind,
    hrules.curatorId, ok_bind, hpk, ok_bind, requireHexHash_of hkey (by omega), ok_bind, hnewKey, ok_bind,
    requireHexHash_of hnew (by omega), ok_bind, hheight, ok_bind, requireHeight_of (by omega), ok_bind, hdisplay,
      requireOptionalHexHash, ok_bind, hroot, ok_bind,
    requireHexHash_toHex (by omega), ok_bind, hsigs, ok_bind, requireSignatures_back hsigned.sigs, ok_bind, hcurator,
      ok_bind,
    requireHexHash_toHex (by omega), ok_bind]

theorem revoke_back {reason : Str} (haction : a.action = .revoke)
    (hrules : FollowsRules E a (.revoke h reason) s root height) (hsigned : WellSigned root curatorSignature sigs) :
    CuratorRevokeTx.fromDict (.dict (a.writtenBody (.revoke h reason) root curatorSignature sigs)) NETWORK_ID =
      .ok ⟨a.curatorId, lower a.publicKey, h.toNat, reason, root, sigs, curatorSignature, NETWORK_ID,
        GOVERNANCE_SCHEMA_VERSION⟩ := by
  obtain ⟨rawRoot, hrootLen, rfl⟩ := hsigned.root
  obtain ⟨rawSig, hsigLen, rfl⟩ := hsigned.curator
  obtain ⟨rawKey, hkey, hkeyLen⟩ := hrules.publicKey
  obtain ⟨hlt, hreason, -⟩ := hrules.allowed
  obtain ⟨hid, hpk, hroot, hsigs, -, -, -, -⟩ :=
    writtenBody_common a (.revoke h reason) (toHex rawRoot) (toHex rawSig) sigs
  have hheight : (a.writtenBody (.revoke h reason) (toHex rawRoot) (toHex rawSig) sigs).item "revocation_height" =
    .ok (.int h) := rfl
  have hcode : (a.writtenBody (.revoke h reason) (toHex rawRoot) (toHex rawSig) sigs).item "reason_code" =
    .ok (.str reason) := rfl
  have hcurator : (a.writtenBody (.revoke h reason) (toHex rawRoot) (toHex rawSig) sigs).item "curator_signature" =
    .ok (.str (toHex rawSig)) := rfl
  rw [CuratorRevokeTx.fromDict, checkEnvelope_writtenBody (by rw [haction]; rfl) rfl, ok_bind, hid, ok_bind,
    hrules.curatorId, ok_bind, hpk, ok_bind, requireHexHash_of hkey (by omega), ok_bind, hheight, ok_bind,
    requireHeight_of (by omega), ok_bind, hcode, ok_bind, hreason, ok_bind, hroot, ok_bind,
      requireHexHash_toHex (by omega), ok_bind, hsigs, ok_bind,
    requireSignatures_back hsigned.sigs, ok_bind, hcurator, ok_bind, requireHexHash_toHex (by omega), ok_bind]

/-- The parser reads what was asked for, with the keys in lower case. -/
theorem parse_writtenBody (hasks : a.Asks x) (hrules : FollowsRules E a x s root height)
    (hsigned : WellSigned root curatorSignature sigs) :
    parseGovernanceTransaction NETWORK_ID (txBodyToEnvelope (a.writtenBody x root curatorSignature sigs)) =
      .ok (some (a.tx root curatorSignature sigs x)) := by
  have hname : Fields.getOrNull (a.writtenBody x root curatorSignature sigs) "action" = .str a.action.name := by
    rw [Fields.getOrNull, (writtenBody_common a x root curatorSignature sigs).2.2.2.2.1, Option.getD_some]
  have htype : (Fields.getOrNull [(str "type", .str (str "governance")),
    (str "body", .dict (a.writtenBody x root curatorSignature sigs))] "type").eqStr (str "governance") = true := rfl
  have hbody : (Fields.get [(str "type", .str (str "governance")),
    (str "body", .dict (a.writtenBody x root curatorSignature sigs))] "body") =
      some (.dict (a.writtenBody x root curatorSignature sigs)) := rfl
  simp only [parseGovernanceTransaction, parseGovernanceWith, txBodyToEnvelope, htype, if_true, hbody, Option.getD_some,
    hname]
  cases x with
  | register h =>
    rw [hasks.1, if_pos (by decide), register_back hasks.1 hrules hsigned]
    rfl
  | rotate k h =>
    rw [hasks.1, if_neg (by decide), if_pos (by decide), rotate_back hasks.1 hrules hsigned]
    rfl
  | revoke h reason =>
    rw [hasks.1, if_neg (by decide), if_neg (by decide), if_pos (by decide), revoke_back hasks.1 hrules hsigned]
    rfl

/-- What is validated before it is written is the transaction that the parser makes. -/
theorem validate_writtenBody {ctx : GovernanceContext} (hasks : a.Asks x) (hrules : FollowsRules E a x s root height)
    (hsigned : WellSigned root curatorSignature sigs) :
    validateGovernanceBody E a.action (a.writtenBody x root curatorSignature sigs) ctx =
      ctx.verifyGovernanceSignatures E (a.tx root curatorSignature sigs x).signedBody sigs := by
  unfold validateGovernanceBody
  cases x with
  | register h =>
    have hback := register_back hasks.1 hrules hsigned
    rw [hasks.1]
    simp only [hback, ok_bind]
    rfl
  | rotate k h =>
    have hback := rotate_back hasks.1 hrules hsigned
    rw [hasks.1]
    simp only [hback, ok_bind]
    rfl
  | revoke h reason =>
    have hback := revoke_back hasks.1 hrules hsigned
    rw [hasks.1]
    simp only [hback, ok_bind]
    rfl

end

end

/-! ## The signed message -/

theorem norm_dict_perm {d e : Fields} (hd : (d.map Prod.fst).Nodup) (h : d.Perm e) :
    (Json.dict d).norm = (Json.dict e).norm := by
  have he : (e.map Prod.fst).Nodup := (h.map Prod.fst).nodup_iff.mp hd
  refine (norm_dict_iff hd he).mpr fun k => congrArg _ (Option.ext fun v => ?_)
  rw [lookup_iff_mem hd, lookup_iff_mem he, h.mem_iff]

section
variable {E : Primitives} {a : SignRequest} {x : Choice} {s : RegistryState} {root curatorSignature : Str}
  {sigs : List GovernanceSignature} {height : Nat} {d e : Fields} {message : Bytes}

def messageFields (networkId bodyHash : Str) : List (String × Json) :=
  [("network_id", .str networkId), ("version", .int PROTOCOL_VERSION), ("type", .str (str "registry")),
    ("body_hash", .str bodyHash)]

/-- What `governance_message` hashes around the hash of the body. -/
def messageJson (networkId bodyHash : Str) : Json := object (messageFields networkId bodyHash)

theorem governanceMessage_eq_ok {networkId : Str} : governanceMessage E d networkId = .ok message ↔
    ∃ t u, canonicalJson E (.dict d) = .ok t ∧ canonicalJson E (messageJson networkId (toHex (E.sha256 t))) = .ok u ∧
      message = E.sha256 u := by
  rw [governanceMessage, hashObjectHex, bind_eq_ok]
  simp only [bind_eq_ok, hashObject_eq_ok]
  constructor
  · rintro ⟨_, ⟨_, ⟨t, ht, rfl⟩, h⟩, u, hu, rfl⟩
    cases h
    exact ⟨t, u, ht, hu, rfl⟩
  · rintro ⟨t, u, ht, hu, rfl⟩
    exact ⟨_, ⟨_, ⟨t, ht, rfl⟩, rfl⟩, u, hu, rfl⟩

theorem governanceMessage_norm (h : (Json.dict d).norm = (Json.dict e).norm) {networkId : Str}
    (hm : governanceMessage E d networkId = .ok message) : governanceMessage E e networkId = .ok message := by
  obtain ⟨t, u, ht, hu, rfl⟩ := governanceMessage_eq_ok.mp hm
  exact governanceMessage_eq_ok.mpr ⟨t, u, canonicalJson_norm h ht, hu, rfl⟩

theorem body_keys (a : SignRequest) (x : Choice) (root : Str) : ((a.body x root).map Prod.fst).Nodup := by
  have hregister : (["action", "curator_id", "public_key_hex", "previous_registry_root", "network_id", "schema_version",
    "activation_height"].map str).Nodup := by decide
  have hrotate : (["action", "curator_id", "public_key_hex", "previous_registry_root", "network_id", "schema_version",
    "activation_height", "new_public_key_hex"].map str).Nodup := by decide
  have hrevoke : (["action", "curator_id", "public_key_hex", "previous_registry_root", "network_id", "schema_version",
    "revocation_height", "reason_code"].map str).Nodup := by decide
  cases x with
  | register h => exact hregister
  | rotate k h => exact hrotate
  | revoke h reason => exact hrevoke

/-- The fields of the action stand in the middle of a transaction's dictionary. -/
theorem middle_perm {α : Type} (front middle back : List α) :
    (front ++ back ++ middle).Perm (front ++ middle ++ back) := by
  rw [List.append_assoc, List.append_assoc]
  exact List.perm_append_comm.append_left front

/-- The keys sign the body with its public keys in lower case. -/
theorem signedBody_norm (hasks : a.Asks x) (hrules : FollowsRules E a x s root height) :
    (Json.dict (a.lowered.body x.lowered root)).norm =
      (Json.dict (a.tx root curatorSignature sigs x).signedBody).norm := by
  have hallowed := hrules.allowed
  refine norm_dict_perm (body_keys _ _ _) ?_
  obtain ⟨action, _, curatorId, publicKey, _, _, _, _, _, _, _, _, _⟩ := a
  have hperm := fun action middle => middle_perm [(str "action", Json.str (GovernanceAction.name action)),
    (str "curator_id", .str curatorId), (str "public_key_hex", .str (lower publicKey))] middle
    [(str "previous_registry_root", .str root), (str "network_id", .str NETWORK_ID), (str "schema_version", .int 1)]
  cases x with
  | register h =>
    obtain ⟨n, rfl⟩ := Int.eq_ofNat_of_zero_le (show 0 ≤ h by have := hallowed.1; omega)
    obtain ⟨rfl, -⟩ := hasks
    exact hperm .register [(str "activation_height", .int n)]
  | rotate k h =>
    obtain ⟨n, rfl⟩ := Int.eq_ofNat_of_zero_le (show 0 ≤ h by have := hallowed.1; omega)
    obtain ⟨rfl, -⟩ := hasks
    refine (hperm .rotate [(str "activation_height", .int n), (str "new_public_key_hex", .str (lower k))]).trans ?_
    exact ((List.Perm.swap _ _ _).append_left [_, _, _]).append_right [_, _, _]
  | revoke h reason =>
    obtain ⟨n, rfl⟩ := Int.eq_ofNat_of_zero_le (show 0 ≤ h by have := hallowed.1; omega)
    obtain ⟨rfl, -⟩ := hasks
    exact hperm .revoke [(str "revocation_height", .int n), (str "reason_code", .str reason)]

/-- The texts that are hashed for the message of a body. -/
def MessageHashed (E : Primitives) (d : Fields) (t : Bytes) : Prop :=
  canonicalJson E (.dict d) = .ok t ∨
    ∃ u, canonicalJson E (.dict d) = .ok u ∧ canonicalJson E (messageJson NETWORK_ID (toHex (E.sha256 u))) = .ok t

theorem bare_inj {v w : Json} {t : Bytes} (hv : v.Bare) (hw : w.Bare) (h : canonicalJson E v = .ok t)
    (h' : canonicalJson E w = .ok t) : v.norm = w.norm := by
  let B : Builtins := { builtins with toPrimitives := E }
  obtain ⟨t₁, ht₁, hback⟩ := hv.back (B := B)
  obtain ⟨t₂, ht₂, hback'⟩ := hw.back (B := B)
  cases Except.ok.inj (ht₁.symm.trans h)
  cases Except.ok.inj (ht₂.symm.trans h')
  exact Except.ok.inj (hback.symm.trans hback')

theorem messageJson_keys (networkId bodyHash : Str) :
    plainKeys ((messageFields networkId bodyHash).map Prod.fst) = true := by
  change plainKeys ["network_id", "version", "type", "body_hash"] = true
  decide

/-- Bodies with one message have one text. -/
theorem message_inj (hfree : CollisionFree E fun t => MessageHashed E d t ∨ MessageHashed E e t)
    (hd : governanceMessage E d NETWORK_ID = .ok message) (he : governanceMessage E e NETWORK_ID = .ok message) :
    ∃ t, canonicalJson E (.dict d) = .ok t ∧ canonicalJson E (.dict e) = .ok t := by
  obtain ⟨t, u, ht, hu, rfl⟩ := governanceMessage_eq_ok.mp hd
  obtain ⟨t', u', ht', hu', hmessage⟩ := governanceMessage_eq_ok.mp he
  obtain rfl := hfree u u' (.inl (.inr ⟨t, ht, hu⟩)) (.inr (.inr ⟨t', ht', hu'⟩)) hmessage
  have hbare : ∀ raw : Bytes, (messageJson NETWORK_ID (toHex raw)).Bare := fun raw =>
    object_bare (messageJson_keys _ _) (List.forall_mem_cons.mpr ⟨bare_str.mpr (by decide),
      List.forall_mem_cons.mpr ⟨bare_int _, List.forall_mem_cons.mpr ⟨bare_str.mpr (by decide),
      List.forall_mem_singleton.mpr
        (bare_str.mpr (asciiStr_decoded (fromHex_ascii (fromHex_toHex raw))))⟩⟩⟩)
  have hitem : ∀ raw : Bytes, (messageJson NETWORK_ID (toHex raw)).norm.item "body_hash" = .ok (.str (toHex raw)) :=
    fun raw =>
    object_item (messageJson_keys _ _) (.tail _ (.tail _ (.tail _ (.head _))))
  have hhash := hitem (E.sha256 t)
  rw [bare_inj (hbare _) (hbare _) hu hu', hitem, Except.ok.injEq, Json.str.injEq] at hhash
  obtain rfl := hfree t t' (.inl (.inl ht)) (.inr (.inl ht')) (toHex_inj hhash.symm)
  exact ⟨t, ht, ht'⟩

theorem encodeUtf8_decoded {t : Str} {encoded : Bytes} (h : encodeUtf8 t = .ok encoded) : decodedStr t = true :=
  Scalars.decoded fun c hc => by simpa using List.any_eq_false.mp (encodeUtf8_eq_ok.mp h).1 c hc

theorem curatorId_clean {t : Str} (h : requireCuratorId (.str t) = .ok t) : t.any isSurrogate = false := by
  simp only [requireCuratorId, bind_eq_ok] at h
  obtain ⟨_, ⟨⟩, _, -, encoded, hencoded, -⟩ := h
  exact (encodeUtf8_eq_ok.mp hencoded).1

theorem curatorId_decoded {t : Str} (h : requireCuratorId (.str t) = .ok t) : decodedStr t = true := by
  simp only [requireCuratorId, bind_eq_ok] at h
  obtain ⟨_, ⟨⟩, _, -, encoded, hencoded, -⟩ := h
  exact encodeUtf8_decoded hencoded

theorem reasonCode_decoded {t : Str} (h : requireReasonCode (.str t) = .ok t) : decodedStr t = true := by
  simp only [requireReasonCode, bind_eq_ok] at h
  obtain ⟨_, ⟨⟩, _, -, encoded, hencoded, -⟩ := h
  exact encodeUtf8_decoded hencoded

/-- The strings of the choice. -/
def Choice.Decoded : Choice → Prop
  | .register _ => True
  | .rotate k _ => decodedStr k = true
  | .revoke _ reason => decodedStr reason = true

theorem body_bare (hid : decodedStr a.curatorId = true) (hkey : decodedStr a.publicKey = true)
    (hroot : decodedStr root = true) (hx : x.Decoded) : (Json.dict (a.body x root)).Bare := by
  have hnames : ∀ t ∈ ["action", "curator_id", "public_key_hex", "previous_registry_root", "network_id",
    "schema_version", "activation_height", "new_public_key_hex", "revocation_height", "reason_code"],
    decodedStr (str t) = true := by decide
  have haction : decodedStr a.action.name = true := by cases a.action <;> decide
  have hcommon : ∀ f ∈ a.commonFields root, decodedStr f.1 = true ∧ f.2.Bare := by
    simp only [SignRequest.commonFields, List.forall_mem_cons, List.not_mem_nil, false_imp_iff, implies_true, and_true]
    exact ⟨⟨hnames _ (by decide), bare_str.mpr haction⟩, ⟨hnames _ (by decide), bare_str.mpr hid⟩,
      ⟨hnames _ (by decide), bare_str.mpr hkey⟩, ⟨hnames _ (by decide), bare_str.mpr hroot⟩,
      ⟨hnames _ (by decide), bare_str.mpr (by decide)⟩, ⟨hnames _ (by decide), bare_int _⟩⟩
  have hfields : ∀ f ∈ x.fields, decodedStr f.1 = true ∧ f.2.Bare := by
    cases x with
    | register h => exact List.forall_mem_singleton.mpr ⟨hnames _ (by decide), bare_int _⟩
    | rotate k h => exact List.forall_mem_cons.mpr ⟨⟨hnames _ (by decide), bare_int _⟩,
        List.forall_mem_singleton.mpr ⟨hnames _ (by decide), bare_str.mpr hx⟩⟩
    | revoke h reason => exact List.forall_mem_cons.mpr ⟨⟨hnames _ (by decide), bare_int _⟩,
        List.forall_mem_singleton.mpr ⟨hnames _ (by decide), bare_str.mpr hx⟩⟩
  refine bare_dict.mpr ⟨body_keys a x root, fun f hf => ?_⟩
  rcases List.mem_append.mp hf with hf | hf
  · exact hcommon f hf
  · exact hfields f hf

/-- The public keys of the request are typed in lower case. -/
def SignRequest.LowerCase (a : SignRequest) (x : Choice) : Prop :=
  lower a.publicKey = a.publicKey ∧ ∀ k ∈ x.newKeys, lower k = k

/-- If the typed body has the message of the body in lower case, it is in lower case. -/
theorem lowerCase_of_message (hrules : FollowsRules E a x s root height)
    (hfree : CollisionFree E fun t => MessageHashed E (a.body x root) t ∨
      MessageHashed E (a.lowered.body x.lowered root) t)
    (h : governanceMessage E (a.body x root) NETWORK_ID = .ok message)
    (h' : governanceMessage E (a.lowered.body x.lowered root) NETWORK_ID = .ok message) : a.LowerCase x := by
  obtain ⟨t, ht, ht'⟩ := message_inj hfree h h'
  obtain ⟨rawKey, hkey, -⟩ := hrules.publicKey
  have hroot : ∃ raw, root = toHex raw := by
    obtain ⟨data, -, hdata⟩ := bind_eq_ok.mp hrules.root
    exact ⟨_, (Except.ok.inj hdata).symm⟩
  obtain ⟨rawRoot, rfl⟩ := hroot
  have hx : x.Decoded ∧ x.lowered.Decoded := by
    have hallowed := hrules.allowed
    cases x with
    | register h => exact ⟨trivial, trivial⟩
    | rotate k h =>
      obtain ⟨-, ⟨raw, hraw, -⟩, -⟩ := hallowed
      exact ⟨asciiStr_decoded (fromHex_ascii hraw), asciiStr_decoded
        (fromHex_ascii (by rw [fromHex_lower]; exact hraw))⟩
    | revoke h reason =>
      exact ⟨reasonCode_decoded hallowed.2.1, reasonCode_decoded hallowed.2.1⟩
  have hid := curatorId_decoded hrules.curatorId
  have hrootDecoded := asciiStr_decoded (fromHex_ascii (fromHex_toHex rawRoot))
  have hnorm := bare_inj (body_bare hid (asciiStr_decoded (fromHex_ascii hkey)) hrootDecoded hx.1)
    (@body_bare a.lowered x.lowered _ hid (asciiStr_decoded (fromHex_ascii ((fromHex_lower _).trans hkey))) hrootDecoded
      hx.2) ht ht'
  have hlookup := (norm_dict_iff (body_keys _ _ _) (body_keys _ _ _)).mp hnorm
  have hpublic : some (Json.str a.publicKey) = some (.str (lower a.publicKey)) := hlookup (str "public_key_hex")
  refine ⟨by simpa using hpublic.symm, fun k hk => ?_⟩
  cases x with
  | register h => cases hk
  | rotate k' h =>
    obtain rfl := List.mem_singleton.mp hk
    have hnew : some (Json.str k) = some (.str (lower k)) := hlookup (str "new_public_key_hex")
    simpa using hnew.symm
  | revoke h reason => cases hk

theorem SignRequest.LowerCase.body (h : a.LowerCase x) : a.lowered.body x.lowered root = a.body x root := by
  obtain ⟨hkey, hnew⟩ := h
  have ha : a.lowered = a := by rw [SignRequest.lowered, hkey]
  have hx : x.lowered = x := by
    cases x with
    | rotate k h => rw [Choice.lowered, hnew k (List.mem_singleton_self k)]
    | register h => rfl
    | revoke h reason => rfl
  rw [ha, hx]

end

/-! ## What the tool comes to -/

/-- The signature of the message by one key, for its index. -/
def Workspace.signature {K : Type} (W : Workspace K) (message : Bytes) (p : K × Int) : GovernanceSignature :=
  ⟨p.2, toHex (W.sign p.1 message)⟩

section
variable {K : Type} (E : Primitives) (W : Workspace K)

/-- The private keys and what they sign, in the order of the indices. -/
structure SignedBy (a : SignRequest) (keyCount : Nat) (message : Bytes) (sks : List K)
    (sigs : List GovernanceSignature) : Prop where
  loaded : collect W.privateKey a.governanceKeys = .ok sks
  paired : sks.length = a.keyIndices.length
  distinct : a.keyIndices.Nodup
  range : ∀ i ∈ a.keyIndices, 0 ≤ i ∧ i < keyCount
  signed : sigs = ((sks.zip a.keyIndices).map (W.signature message)).insertionSort fun s t => s.keyIndex ≤ t.keyIndex

/-- The signature of the curator, which a registration goes without. -/
def CuratorSigned (a : SignRequest) (x : Choice) (message raw : Bytes) : Prop :=
  raw.length = 64 ∧ (x.action ≠ .register → ∃ path sk, a.curatorPrivateKey = some path ∧ W.privateKey path = .ok sk ∧
    raw = W.sign sk message)

/-- The steps of the tool for a choice that follows the rules. -/
structure Steps (l : Ledger) (a : SignRequest) (x : Choice) (s : RegistryState) (root : Str) (message raw : Bytes)
    (sks : List K) (sigs : List GovernanceSignature) : Prop where
  free : ¬ (W.fileExists a.output = true ∧ a.force = false)
  some : sks ≠ []
  fields : a.actionFields s (candidateBlockHeight l) = .ok x.fields
  curator : CuratorSigned W a x message raw
  signed : SignedBy W a l.governanceKeys.length message sks sigs
  authorized : authorize E l a.action (a.writtenBody x root (toHex raw) sigs) = .ok ()

end

section
variable {K : Type} {E : Primitives} {W : Workspace K} {l : Ledger} {a : SignRequest} {x : Choice} {s : RegistryState}
  {root : Str} {message raw : Bytes} {sks : List K} {sigs : List GovernanceSignature}

theorem without_witness (a : SignRequest) (x : Choice) (root curatorSignature : Str) :
    (a.body x root).without WITNESS_KEYS = a.body x root ∧
      (a.body x root ++ x.curatorFields curatorSignature).without WITNESS_KEYS = a.body x root := by
  cases x <;> exact ⟨rfl, rfl⟩

theorem body_message (E : Primitives) (a : SignRequest) (x : Choice) (root : Str) :
    ∃ message, governanceMessage E (a.body x root) NETWORK_ID = .ok message :=
  governanceMessage_ok _ (by cases x <;> rfl)

theorem signGovernance_eq_ok {n : Nat} {d : Fields}
    (hm : governanceMessage E (d.without WITNESS_KEYS) NETWORK_ID = .ok message) :
    ∀ {pairs : List (K × Int)} {seen : List Int} {sigs : List GovernanceSignature},
      signGovernance E W n d seen pairs = .ok sigs ↔ (∀ p ∈ pairs, p.2 ∉ seen ∧ 0 ≤ p.2 ∧ p.2 < n) ∧
        (pairs.map Prod.snd).Nodup ∧ sigs = pairs.map (W.signature message) := by
  intro pairs
  induction pairs with
  | nil =>
    intro seen sigs
    simp [signGovernance, eq_comm]
  | cons pair rest ih =>
    intro seen sigs
    obtain ⟨sk, i⟩ := pair
    rw [List.forall_mem_cons, List.map_cons, List.nodup_cons, List.map_cons]
    simp only [signGovernance, signBody, hm, ok_bind, bind_eq_ok, require_eq_ok, exists_const, ih,
      Except.ok.injEq, List.mem_map, List.mem_cons, not_or]
    constructor
    · rintro ⟨hseen, hrange, _, ⟨hrest, hnodup, rfl⟩, rfl⟩
      exact ⟨⟨⟨hseen, hrange⟩, fun p hp => ⟨(hrest p hp).1.2, (hrest p hp).2⟩⟩,
        ⟨not_exists.mpr fun p hp => (hrest p hp.1).1.1 hp.2, hnodup⟩, rfl⟩
    · rintro ⟨⟨⟨hseen, hrange⟩, hrest⟩, ⟨hfresh, hnodup⟩, rfl⟩
      exact ⟨hseen, hrange, _, ⟨fun p hp => ⟨⟨fun heq => hfresh ⟨p, hp, heq⟩, (hrest p hp).1⟩, (hrest p hp).2⟩, hnodup,
        rfl⟩, rfl⟩

/-- The curator's signature stands behind the body. -/
theorem addCuratorSignature_eq_ok (hasks : a.Asks x) (hm : governanceMessage E (a.body x root) NETWORK_ID = .ok message)
    {d : Fields} :
    addCuratorSignature E W a (a.body x root) = .ok d ↔
      ∃ raw, CuratorSigned W a x message raw ∧ d = a.body x root ++ x.curatorFields (toHex raw) := by
  rw [addCuratorSignature, hasks.action]
  by_cases hx : x.action = .register
  · obtain ⟨h, rfl⟩ : ∃ h, x = .register h := by cases x <;> first | exact ⟨_, rfl⟩ | cases hx
    rw [if_pos hx, Except.ok.injEq]
    have hnone : ∀ raw : Bytes, a.body (.register h) root ++ (Choice.register h).curatorFields (toHex raw) =
      a.body (.register h) root :=
      fun raw => List.append_nil _
    constructor
    · rintro rfl
      exact ⟨List.replicate 64 0, ⟨List.length_replicate, fun hne => absurd rfl hne⟩, (hnone _).symm⟩
    · rintro ⟨raw, -, rfl⟩
      exact (hnone raw).symm
  · have hsome : ∀ t, x.curatorFields t = [(str "curator_signature", .str t)] := by
      intro t
      cases x with
      | register h => exact absurd rfl hx
      | rotate k h => rfl
      | revoke h reason => rfl
    rw [if_neg hx]
    simp only [bind_eq_ok, orRaise_eq_ok, signBody, (without_witness a x root []).1, hm, ok_bind, Except.ok.injEq]
    constructor
    · rintro ⟨path, hpath, sk, hsk, rfl⟩
      exact ⟨_, ⟨W.sign_length _ _, fun _ => ⟨path, sk, hpath, hsk, rfl⟩⟩, by rw [hsome]⟩
    · rintro ⟨raw, ⟨-, hsigned⟩, rfl⟩
      obtain ⟨path, sk, hpath, hsk, rfl⟩ := hsigned hx
      exact ⟨path, hpath, sk, hsk, by rw [hsome]⟩

theorem checkPublicKey_of {text : String} {t : Str} (h : IsHex32 t) : checkPublicKey text t = .ok () := by
  obtain ⟨pk, hpk, hlen⟩ := h
  rw [checkPublicKey, decodePublicKey_eq_ok.mpr ⟨hpk, hlen⟩]

theorem actionFields_asks (hasks : a.Asks x) {height : Int} {fields : Fields}
    (h : a.actionFields s height = .ok fields) :
    fields = x.fields := by
  unfold SignRequest.actionFields at h
  cases x with
  | register n =>
    obtain ⟨haction, hn⟩ := hasks
    simp only [haction, hn, orRaise, bind_eq_ok, Except.ok.injEq] at h
    obtain ⟨_, rfl, _, -, _, -, rfl⟩ := h
    rfl
  | rotate k n =>
    obtain ⟨haction, hn, hk⟩ := hasks
    simp only [haction, hn, hk, orRaise, bind_eq_ok, Except.ok.injEq] at h
    obtain ⟨_, rfl, _, rfl, _, -, _, -, _, -, _, -, rfl⟩ := h
    rfl
  | revoke n reason =>
    obtain ⟨haction, hn, hr⟩ := hasks
    simp only [haction, hn, hr, orRaise, bind_eq_ok, Except.ok.injEq] at h
    obtain ⟨_, rfl, _, rfl, _, -, _, -, _, -, _, -, rfl⟩ := h
    rfl

theorem writtenBody_finite (a : SignRequest) (x : Choice) (root curatorSignature : Str)
    (sigs : List GovernanceSignature) :
    finiteFields (a.writtenBody x root curatorSignature sigs) = true := by
  have hsigs := signatures_finite sigs
  cases x <;> simpa [SignRequest.writtenBody, SignRequest.body, SignRequest.commonFields, Choice.fields,
    Choice.curatorFields, finiteFields, Json.finite] using hsigs

/-- The tool writes a choice that follows the rules exactly if its steps go through. -/
theorem build_ok_iff (hload : W.ledger a.ledgerPath = .ok l) (hstate : l.registryStateAt l.height.toNat = .ok s)
    (hasks : a.Asks x) {height : Nat} (hrules : FollowsRules E a x s root height)
    (hm : governanceMessage E (a.body x root) NETWORK_ID = .ok message) {envelope : Json} :
    (∃ w, buildSignGovernanceTx E W a = .ok w ∧ w.envelope = envelope) ↔ ∃ raw sks sigs,
      Steps E W l a x s root message raw sks sigs ∧
        envelope = txBodyToEnvelope (a.writtenBody x root (toHex raw) sigs) := by
  have hroot : derivePreviousRegistryRoot E l = .ok root := by
    rw [derivePreviousRegistryRoot, hstate, ok_bind, hrules.root]
  have hbody : ∀ raw, governanceMessage E ((a.body x root ++ x.curatorFields (toHex raw)).without WITNESS_KEYS)
    NETWORK_ID = .ok message := fun raw => by rw [(without_witness a x root _).2, hm]
  have hpair : ∀ {sks : List K}, sks.length = a.keyIndices.length → (sks.zip a.keyIndices).map Prod.snd =
    a.keyIndices :=
    fun hlen => List.map_snd_zip hlen.ge
  have hall : ∀ {sks : List K} {P : Int → Prop}, sks.length = a.keyIndices.length →
      ((∀ p ∈ sks.zip a.keyIndices, P p.2) ↔ ∀ i ∈ a.keyIndices, P i) := by
    intro sks P hlen
    rw [← hpair hlen, List.forall_mem_map, hpair hlen]
  constructor
  · rintro ⟨w, hw, rfl⟩
    simp only [buildSignGovernanceTx, hload, hroot, hstate, checkPublicKey_of hrules.publicKey, ok_bind, bind_eq_ok,
      require_eq_ok, exists_const] at hw
    obtain ⟨hfree, hlen, hsome, fields, hfields, d, hd, sks, hsks, sigs, hsigs, _, hauth, txid, -, hw⟩ := hw
    cases hw
    obtain rfl := actionFields_asks hasks hfields
    obtain ⟨raw, hcurator, rfl⟩ := (addCuratorSignature_eq_ok hasks hm).mp hd
    obtain ⟨hrange, hnodup, rfl⟩ := (signGovernance_eq_ok (hbody raw)).mp hsigs
    have hsksLen : sks.length = a.keyIndices.length := (collect_eq_ok.mp hsks).length_eq.symm.trans hlen
    refine ⟨raw, sks, _, ⟨hfree, ?_, hfields, hcurator, ⟨hsks, hsksLen, hpair hsksLen ▸ hnodup, ?_, rfl⟩, hauth⟩, rfl⟩
    · rintro rfl
      exact hsome (List.eq_nil_of_length_eq_zero (hlen.trans hsksLen.symm))
    · exact (hall hsksLen).mp fun p hp => (hrange p hp).2
  · rintro ⟨raw, sks, sigs, ⟨hfree, hsome, hfields, hcurator, ⟨hsks, hlen, hnodup, hrange, rfl⟩, hauth⟩, rfl⟩
    obtain ⟨txid, htxid⟩ := canonicalTxid_ok (E := E) (writtenBody_finite a x root (toHex raw)
      (((sks.zip a.keyIndices).map (W.signature message)).insertionSort fun s t => s.keyIndex ≤ t.keyIndex))
    have hkeys : a.governanceKeys.length = sks.length := (collect_eq_ok.mp hsks).length_eq
    have hne : a.governanceKeys ≠ [] := by
      intro hnil
      rw [hnil, List.length_nil] at hkeys
      exact hsome (List.eq_nil_of_length_eq_zero hkeys.symm)
    have hadded := (addCuratorSignature_eq_ok hasks hm).mpr ⟨raw, hcurator, rfl⟩
    have hloop := (signGovernance_eq_ok (W := W) (hbody raw)).mpr ⟨fun p hp => ⟨List.not_mem_nil,
      (hall hlen).mpr hrange p hp⟩, (hpair hlen).symm ▸ hnodup, rfl⟩
    rw [buildSignGovernanceTx, require_of _ hfree, ok_bind, require_of _ (hkeys.trans hlen), ok_bind, require_of _ hne,
      ok_bind, hload, ok_bind]
    simp only [hroot, hstate, checkPublicKey_of hrules.publicKey, hfields, ok_bind]
    rw [SignRequest.body] at hadded
    rw [hadded, ok_bind, hsks, ok_bind, ← SignRequest.body, hloop, ok_bind]
    rw [SignRequest.writtenBody] at hauth htxid
    rw [hauth, ok_bind, htxid, ok_bind]
    exact ⟨_, rfl, rfl⟩

/-! ## The checks before anything is written -/

theorem authorize_eq_ok {ctx : GovernanceContext} {action : GovernanceAction} {d : Fields}
    (hctx : GovernanceContext.init l.governanceKeys l.governanceThreshold NETWORK_ID = .ok ctx) :
    authorize E l action d = .ok () ↔ validateGovernanceBody E action d ctx = .ok () := by
  unfold authorize
  rw [hctx]
  simp only [ok_bind]
  constructor
  · intro h
    split at h
    · assumption
    · split at h <;> cases h
  · intro h
    rw [h]

theorem sound_signature (message : Bytes) {p : K × Int} (h : 0 ≤ p.2) : Sound (W.signature message p) :=
  ⟨h, _, fromHex_toHex _, W.sign_length _ _⟩

theorem wellSigned_of {height : Nat} (hrules : FollowsRules E a x s root height) (hraw : raw.length = 64)
    {keyCount : Nat} (hsigned : SignedBy W a keyCount message sks sigs) : WellSigned root (toHex raw) sigs where
  root := by
    obtain ⟨data, -, hdata⟩ := bind_eq_ok.mp hrules.root
    exact ⟨_, E.sha256_length _, (Except.ok.inj hdata).symm⟩
  curator := ⟨raw, hraw, rfl⟩
  sigs sig hsig := by
    obtain ⟨-, hlen, -, hrange, rfl⟩ := hsigned
    obtain ⟨p, hp, rfl⟩ := List.mem_map.mp ((List.mem_insertionSort _).mp hsig)
    exact sound_signature message (hrange p.2 (List.of_mem_zip hp).2).1

theorem requireUnregistered_of {c k : Str} (h : requireNotRegistered s c k = .ok ()) :
    requireUnregistered s c k = .ok () := by
  rw [requireNotRegistered] at h
  rw [requireUnregistered]
  cases hfind : s.records.find? fun r => r.curatorId == c || r.publicKeyHex == k with
  | none => rfl
  | some r =>
    rw [hfind] at h
    simp only at h
    split at h <;> cases h

theorem requireNewKeyUnused_of {c k : Str} (h : requirePublicKeyUnused s k c = .ok ()) :
    requireNewKeyUnused s c k = .ok () := by
  rw [requirePublicKeyUnused] at h
  rw [requireNewKeyUnused]
  cases hfind : s.records.find? fun r => r.publicKeyHex == k && r.curatorId != c with
  | none => rfl
  | some r =>
    rw [hfind] at h
    cases h

theorem requireActiveCuratorKey_eq_ok {c k : Str} {r : CuratorRecord} :
    requireActiveCuratorKey s c k = .ok r ↔ s.byId c = some r ∧ r.publicKeyHex = k ∧ r.revocationHeight = none := by
  simp only [requireActiveCuratorKey, bind_eq_ok, orRaise_eq_ok, require_eq_ok, exists_const]
  constructor
  · rintro ⟨_, hr, hkey, hnone, ⟨⟩⟩
    exact ⟨hr, hkey, hnone⟩
  · rintro ⟨hr, hkey, hnone⟩
    exact ⟨r, hr, hkey, hnone, rfl⟩

/-- The reducer's rules are the checks of the command line, in lower case and with the key not revoked. -/
theorem actionFields_of (hasks : a.Asks x) (hrules : FollowsRules E a x s root l.chain.length) (hlower : a.LowerCase x)
    (hopen : x.action = .rotate → ∀ r, s.byId a.curatorId = some r → r.revocationHeight = none) :
    a.actionFields s (candidateBlockHeight l) = .ok x.fields := by
  have hheight : candidateBlockHeight l = l.chain.length := by
    rw [candidateBlockHeight, Ledger.height]
    omega
  have hallowed := hrules.allowed
  obtain ⟨hkey, hnew⟩ := hlower
  rw [hheight, SignRequest.actionFields, hasks.action]
  cases x with
  | register h =>
    obtain ⟨hlt, hfresh⟩ := hallowed
    rw [hkey] at hfresh
    simp only [Choice.action, hasks.2, orRaise, ok_bind, require_of _ hlt, requireUnregistered_of hfresh]
    rfl
  | rotate k h =>
    obtain ⟨hlt, hhex, r, hactive, -, hunused⟩ := hallowed
    obtain ⟨hr, hown⟩ := requireActiveRecord_ok hactive
    rw [hkey] at hown
    rw [hnew k (List.mem_singleton_self k)] at hunused
    have hrecord := requireActiveCuratorKey_eq_ok.mpr ⟨hr, hown, hopen rfl r hr⟩
    simp only [Choice.action, hasks.2.1, hasks.2.2, orRaise, ok_bind, require_of _ hlt, hrecord, checkPublicKey_of hhex,
      requireNewKeyUnused_of hunused]
    rfl
  | revoke h reason =>
    obtain ⟨hlt, -, r, hactive, hnone, hle⟩ := hallowed
    obtain ⟨hr, hown⟩ := requireActiveRecord_ok hactive
    rw [hkey] at hown
    have hrecord := requireActiveCuratorKey_eq_ok.mpr ⟨hr, hown, hnone⟩
    simp only [Choice.action, hasks.2.1, hasks.2.2, orRaise, ok_bind, require_of _ hlt, hrecord, require_of _ hnone,
      require_of _ hle]
    rfl

/-- The tool rotates no revoked key. -/
theorem not_revoked_of (hasks : a.Asks x) {height : Int} {fields : Fields} (h : a.actionFields s height = .ok fields)
    (hx : x.action = .rotate) : ∀ r, s.byId a.curatorId = some r → r.revocationHeight = none := by
  intro r hr
  rw [SignRequest.actionFields, hasks.action, hx] at h
  simp only [bind_eq_ok, requireActiveCuratorKey_eq_ok] at h
  obtain ⟨_, -, _, -, _, -, r', ⟨hr', -, hnone⟩, -⟩ := h
  cases hr.symm.trans hr'
  exact hnone

/-! ## What the reducer does with it -/

theorem verifyCuratorSignature_eq_ok {r : CuratorRecord} {d : Fields} {signatureHex : Str} {u : Unit}
    (hm : governanceMessage E d NETWORK_ID = .ok message) : verifyCuratorSignature E r d signatureHex = .ok u ↔
      ∃ pk, decodePublicKey r.publicKeyHex = .ok pk ∧ verify E pk message signatureHex = true := by
  simp only [verifyCuratorSignature, hm, ok_bind, bind_eq_ok, require_eq_ok]

/-- The reducer takes a choice that follows its rules, if the signatures hold. -/
theorem apply_of {ctx : GovernanceContext} {height : Nat} {curatorSignature : Str} (txid : Str)
    (hrules : FollowsRules E a x s root height)
    (hverified : ctx.verifyGovernanceSignatures E (a.tx root curatorSignature sigs x).signedBody sigs = .ok ())
    (hcurator : x.action ≠ .register → ∀ r, s.byId a.curatorId = some r →
      verifyCuratorSignature E r (a.tx root curatorSignature sigs x).signedBody curatorSignature = .ok ()) :
    ∃ s', applyRegistryTransaction E s (a.tx root curatorSignature sigs x) height txid ctx = .ok s' := by
  have hallowed := hrules.allowed
  obtain ⟨data, hdata, -⟩ := bind_eq_ok.mp hrules.root
  rw [serializeRegistryState] at hdata
  obtain ⟨sorted, hsorted, -⟩ := bind_eq_ok.mp hdata
  have hclean := (sortRecords_ok hsorted).2
  have hid := curatorId_clean hrules.curatorId
  have hold : ∀ {r : CuratorRecord}, s.byId a.curatorId = some r → r.curatorId.any isSurrogate = false := fun hr =>
    hclean _ (List.mem_filter.mp (byId_mem hr)).1
  have hrest : ∀ r ∈ s.records.filter (fun r => r.curatorId != a.curatorId), r.curatorId.any isSurrogate = false :=
    fun r hr =>
    hclean r (List.mem_of_mem_filter hr)
  cases x with
  | register h =>
    obtain ⟨hlt, hfresh⟩ := hallowed
    obtain ⟨records, hrecords⟩ := sortRecords_ok_iff.mpr
      (List.forall_mem_append.mpr ⟨hclean, List.forall_mem_singleton.mpr hid⟩ : ∀ r ∈ s.records ++ [(⟨a.curatorId,
        lower a.publicKey, h.toNat, none, none, txid, none⟩ : CuratorRecord)], r.curatorId.any isSurrogate = false)
    simp only [GovernanceTx.signedBody, SignRequest.tx] at hverified
    simp only [SignRequest.tx, applyRegistryTransaction, applyRegister, hverified, ok_bind, hrules.root, hfresh,
      hrecords]
    rw [require_of _ (by omega), ok_bind, require_of _ trivial, ok_bind]
    exact ⟨_, rfl⟩
  | rotate k h =>
    obtain ⟨hlt, -, r, hactive, hne, hunused⟩ := hallowed
    have hr := (requireActiveRecord_ok hactive).1
    have hsig := hcurator (by rintro ⟨⟩) r hr
    have hown : r.curatorId.any isSurrogate = false := hold hr
    obtain ⟨records, hrecords⟩ := sortRecords_ok_iff.mpr
      (List.forall_mem_append.mpr ⟨hrest, List.forall_mem_cons.mpr ⟨hown, List.forall_mem_singleton.mpr hid⟩⟩ :
        ∀ q ∈ s.records.filter (fun r => r.curatorId != a.curatorId) ++
          [({ r with revocationHeight := some h.toNat, latestRotationTxid := some txid } : CuratorRecord),
            ⟨a.curatorId, lower k, h.toNat, none, some r.publicKeyHex, r.registrationTxid, some txid⟩],
          q.curatorId.any isSurrogate = false)
    simp only [GovernanceTx.signedBody, SignRequest.tx] at hverified hsig
    simp only [SignRequest.tx, applyRegistryTransaction, applyRotate, hverified, ok_bind, hrules.root, hactive, hsig,
      hunused, hrecords]
    rw [require_of _ (by omega), ok_bind, require_of _ trivial, ok_bind, require_of _ hne, ok_bind]
    exact ⟨_, rfl⟩
  | revoke h reason =>
    obtain ⟨hlt, -, r, hactive, hnone, hle⟩ := hallowed
    have hr := (requireActiveRecord_ok hactive).1
    have hsig := hcurator (by rintro ⟨⟩) r hr
    have hown : r.curatorId.any isSurrogate = false := hold hr
    obtain ⟨records, hrecords⟩ := sortRecords_ok_iff.mpr
      (List.forall_mem_append.mpr ⟨hrest, List.forall_mem_singleton.mpr hown⟩ :
        ∀ q ∈ s.records.filter (fun r => r.curatorId != a.curatorId) ++
          [({ r with revocationHeight := some h.toNat, latestRotationTxid := some txid } : CuratorRecord)],
          q.curatorId.any isSurrogate = false)
    simp only [GovernanceTx.signedBody, SignRequest.tx] at hverified hsig
    simp only [SignRequest.tx, applyRegistryTransaction, applyRevoke, hverified, ok_bind, hrules.root, hactive, hsig,
      hrecords]
    rw [require_of _ (by omega), ok_bind, require_of _ trivial, ok_bind, require_of _ hnone, ok_bind,
      require_of _ (by omega), ok_bind]
    exact ⟨_, rfl⟩

end

/-! ## The tool and the ledger -/

section
variable {K : Type} (E : Primitives) (W : Workspace K) (l : Ledger) (a : SignRequest)

/-- The ledger parses the transaction and applies it in a block on its tip. -/
def Takes (envelope : Json) : Prop :=
  ∃ tx s s', parseGovernanceTransaction l.networkId envelope = .ok (some tx) ∧
    l.stateAt E (l.chain.length - 1) = .ok s ∧
    l.applyTransactions E s [envelope] l.chain.length = .ok s'

/-- Private keys for at least threshold many of the governance keys are given under their indices, and a
rotation or revocation has a key file of the curator. -/
structure KeysGiven (x : Choice) (root : Str) : Prop where
  free : ¬ (W.fileExists a.output = true ∧ a.force = false)
  curator : x.action ≠ .register → ∃ path sk, a.curatorPrivateKey = some path ∧ W.privateKey path = .ok sk
  governance : ∃ sks message sigs, governanceMessage E (a.body x root) NETWORK_ID = .ok message ∧
    SignedBy W a l.governanceKeys.length message sks sigs ∧
    l.governanceThreshold ≤ (sigs.filter (GovernanceSignature.holds E l.governanceKeys message)).length

/-- Whenever the choice follows the rules on the tip state and the keys are given, the tool writes a
transaction, and the ledger takes whatever it writes. -/
def SignsForLedger : Prop :=
  ∀ x s root, a.Asks x → l.stateAt E (l.chain.length - 1) = .ok s → FollowsRules E a x s root l.chain.length →
    (KeysGiven E W l a x root → ∃ w, buildSignGovernanceTx E W a = .ok w) ∧
      ∀ w, buildSignGovernanceTx E W a = .ok w → Takes E l w.envelope

/-- The private key file is that of the curator's current key, as far as this body shows. -/
def CuratorsKey (x : Choice) (s : RegistryState) (root : Str) : Prop :=
  ∀ path sk message r pk, a.curatorPrivateKey = some path → W.privateKey path = .ok sk →
    governanceMessage E (a.body x root) NETWORK_ID = .ok message → s.byId a.curatorId = some r →
    decodePublicKey r.publicKeyHex = .ok pk → verify E pk message (toHex (W.sign sk message)) = true

/-- The default network, keys typed in lower case, the curator's own key, and no rotation of a revoked key. -/
def WithinReach : Prop :=
  ∀ x s root, a.Asks x → l.stateAt E (l.chain.length - 1) = .ok s → FollowsRules E a x s root l.chain.length →
    KeysGiven E W l a x root → l.networkId = NETWORK_ID ∧ a.LowerCase x ∧
      (x.action ≠ .register → CuratorsKey E W a x s root) ∧
      (x.action = .rotate → ∀ r, s.byId a.curatorId = some r → r.revocationHeight = none)

/-- What a key signs holds for no other message. -/
def SignsOnly : Prop := ∀ sk message pk message', message.length = 32 → message'.length = 32 →
  verify E pk message' (toHex (W.sign sk message)) = true → message' = message

/-- SHA-256 has no collision on what is hashed for the typed body and for the body in lower case. -/
def BodiesApart : Prop := ∀ x s root, a.Asks x → l.stateAt E (l.chain.length - 1) = .ok s →
  FollowsRules E a x s root l.chain.length →
  CollisionFree E fun t => MessageHashed E (a.body x root) t ∨ MessageHashed E (a.lowered.body x.lowered root) t

end

section
variable {K : Type} {E : Primitives} {W : Workspace K} {l : Ledger} {a : SignRequest} {x : Choice} {s : RegistryState}
  {root : Str} {message raw : Bytes} {sks : List K} {sigs : List GovernanceSignature} {args : LedgerArgs}

theorem init_context (h : Ledger.init E args = .ok l) :
    GovernanceContext.init l.governanceKeys l.governanceThreshold l.networkId = .ok l.governanceContext := by
  obtain ⟨base, -, -, hctx, -, hreplay⟩ := init_ok h
  simp only [Ledger.replayRegistryStates, bind_eq_ok] at hreplay
  obtain ⟨g, -, states, -, hl⟩ := hreplay
  cases hl
  exact hctx

/-- The name of the network matters to the constructor only by being empty or not. -/
theorem context_network {keys : List Str} {threshold : Nat} {networkId networkId' : Str} {ctx : GovernanceContext}
    (h : GovernanceContext.init keys threshold networkId = .ok ctx) (hne : networkId' ≠ []) :
    ∃ ctx', GovernanceContext.init keys threshold networkId' = .ok ctx' := by
  unfold GovernanceContext.init at h ⊢
  split at h
  · rename_i hcount
    rw [dif_pos hcount]
    split at h
    · cases h
    · rename_i hkeys
      split at h
      · rename_i hthreshold
        rw [dif_pos hthreshold, dif_pos hne]
        exact ⟨_, rfl⟩
      · cases h
  · cases h

theorem message_length {d : Fields} {networkId : Str} (h : governanceMessage E d networkId = .ok message) :
    message.length = 32 := by
  obtain ⟨t, u, -, -, rfl⟩ := governanceMessage_eq_ok.mp h
  exact E.sha256_length u

theorem holds_verify {keys : List Str} {sig : GovernanceSignature} (h : sig.holds E keys message = true) :
    ∃ pk, verify E pk message sig.signatureHex = true := by
  unfold GovernanceSignature.holds at h
  split at h
  · exact ⟨_, h⟩
  · cases h

theorem SignedBy.indices {keyCount : Nat} (h : SignedBy W a keyCount message sks sigs) :
    (∀ sig ∈ sigs, 0 ≤ sig.keyIndex ∧ sig.keyIndex < keyCount) ∧ (sigs.map GovernanceSignature.keyIndex).Nodup := by
  obtain ⟨-, hlen, hnodup, hrange, rfl⟩ := h
  have hindices : ((sks.zip a.keyIndices).map (W.signature message)).map GovernanceSignature.keyIndex =
    a.keyIndices := by
    rw [List.map_map]
    exact List.map_snd_zip hlen.ge
  constructor
  · intro sig hsig
    have hmem := List.mem_map_of_mem (f := GovernanceSignature.keyIndex) ((List.mem_insertionSort _).mp hsig)
    rw [hindices] at hmem
    exact hrange _ hmem
  · exact ((List.perm_insertionSort _ _).map _).nodup_iff.mpr (hindices.symm ▸ hnodup)

/-- The check of the tool counts the signatures that hold for the body in lower case. -/
theorem authorized_iff {ctx : GovernanceContext} {height : Nat} {message' : Bytes}
    (hctx : GovernanceContext.init l.governanceKeys l.governanceThreshold NETWORK_ID = .ok ctx) (hasks : a.Asks x)
    (hrules : FollowsRules E a x s root height) (hraw : raw.length = 64)
    (hsigned : SignedBy W a l.governanceKeys.length message sks sigs)
    (hm : governanceMessage E (a.lowered.body x.lowered root) NETWORK_ID = .ok message') :
    (authorize E l a.action (a.writtenBody x root (toHex raw) sigs) = .ok () ↔
      ctx.verifyGovernanceSignatures E (a.tx root (toHex raw) sigs x).signedBody sigs = .ok ()) ∧
    (ctx.verifyGovernanceSignatures E (a.tx root (toHex raw) sigs x).signedBody sigs = .ok () ↔
      l.governanceThreshold ≤ (sigs.filter (GovernanceSignature.holds E l.governanceKeys message')).length) := by
  obtain ⟨hkeys, hthreshold, hnetwork⟩ := GovernanceContext.init_fields hctx
  have hmessage : governanceMessage E (a.tx root (toHex raw) sigs x).signedBody ctx.networkId = .ok message' := by
    rw [hnetwork]
    exact governanceMessage_norm (signedBody_norm hasks hrules) hm
  obtain ⟨hrange, hnodup⟩ := hsigned.indices
  rw [authorize_eq_ok hctx, validate_writtenBody hasks hrules (wellSigned_of hrules hraw hsigned),
    verifyGovernanceSignatures_eq_ok hmessage, hkeys, hthreshold]
  exact ⟨Iff.rfl, fun h => h.2.2, fun h => ⟨hrange, hnodup, h⟩⟩

/-- What is written was typed in lower case. -/
theorem lowerCase_of_authorized {ctx : GovernanceContext} {height : Nat} {message' : Bytes} (honly : SignsOnly E W)
    (hfree : CollisionFree E fun t => MessageHashed E (a.body x root) t ∨
      MessageHashed E (a.lowered.body x.lowered root) t)
    (hctx : GovernanceContext.init l.governanceKeys l.governanceThreshold NETWORK_ID = .ok ctx)
    (hrules : FollowsRules E a x s root height) (hm : governanceMessage E (a.body x root) NETWORK_ID = .ok message)
    (hm' : governanceMessage E (a.lowered.body x.lowered root) NETWORK_ID = .ok message')
    (hsigned : SignedBy W a l.governanceKeys.length message sks sigs)
    (h : l.governanceThreshold ≤ (sigs.filter (GovernanceSignature.holds E l.governanceKeys message')).length) :
      a.LowerCase x := by
  have hpos := ctx.threshold_range.1
  rw [(GovernanceContext.init_fields hctx).2.1] at hpos
  obtain ⟨sig, hsig⟩ := List.exists_mem_of_length_pos (Nat.lt_of_lt_of_le hpos h)
  obtain ⟨hmem, hholds⟩ := List.mem_filter.mp hsig
  rw [hsigned.signed] at hmem
  obtain ⟨p, -, rfl⟩ := List.mem_map.mp ((List.mem_insertionSort _).mp hmem)
  obtain ⟨pk, hverify⟩ := holds_verify hholds
  obtain rfl := honly _ _ _ _ (message_length hm) (message_length hm') hverify
  exact lowerCase_of_message hrules hfree hm hm'

/-- The ledger takes no body of another network. -/
theorem parse_networkId {networkId curatorSignature : Str} {tx : GovernanceTx}
    (h : parseGovernanceTransaction networkId (txBodyToEnvelope (a.writtenBody x root curatorSignature sigs)) =
      .ok (some tx)) :
    networkId = NETWORK_ID := by
  have hnames : namesNetwork (a.writtenBody x root curatorSignature sigs) networkId = true := by
    unfold parseGovernanceTransaction parseGovernanceWith txBodyToEnvelope at h
    simp only [show (Fields.getOrNull [(str "type", .str (str "governance")), (str "body", .dict (a.writtenBody x root
      curatorSignature sigs))] "type").eqStr (str "governance") = true from rfl, if_true,
      show (Fields.get [(str "type", .str (str "governance")), (str "body", .dict (a.writtenBody x root
        curatorSignature sigs))] "body") = some (.dict (a.writtenBody x root curatorSignature sigs)) from rfl,
          Option.getD_some] at h
    split at h
    · obtain ⟨_, hparse, -⟩ := bind_eq_ok.mp h
      exact register_network hparse
    · split at h
      · obtain ⟨_, hparse, -⟩ := bind_eq_ok.mp h
        exact rotate_network hparse
      · split at h
        · obtain ⟨_, hparse, -⟩ := bind_eq_ok.mp h
          exact revoke_network hparse
        · cases h
  obtain ⟨-, -, -, -, -, hnetwork, -⟩ := writtenBody_common a x root curatorSignature sigs
  rw [namesNetwork, hnetwork, Option.getD_some, Json.eqStr] at hnames
  exact (eq_of_beq hnames).symm

/-- One transaction in a block is one step of the reducer. -/
theorem applyTransactions_one {envelope : Json} {tx : GovernanceTx} {height : Nat} {s' : RegistryState}
    (hparse : parseGovernanceTransaction l.networkId envelope = .ok (some tx)) :
    l.applyTransactions E s [envelope] height = .ok s' ↔
      ∃ txid, canonicalTxid E tx.toDict = .ok txid ∧ applyRegistryTransaction E s tx height txid l.governanceContext =
      .ok s' := by
  rw [Ledger.applyTransactions, applyTransactionsWith, run_cons, bind_eq_ok]
  simp only [run_nil, Except.ok.injEq, exists_eq_right, applyTransactionWith, hparse, ok_bind, bind_eq_ok]

/-- The reducer has checked the signature of the curator. -/
theorem curator_of_apply {ctx : GovernanceContext} {height : Nat} {curatorSignature txid : Str} {s' : RegistryState}
    (hx : x.action ≠ .register)
    (h : applyRegistryTransaction E s (a.tx root curatorSignature sigs x) height txid ctx = .ok s') :
    ∀ r, s.byId a.curatorId = some r →
      verifyCuratorSignature E r (a.tx root curatorSignature sigs x).signedBody curatorSignature = .ok () := by
  intro r hr
  cases x with
  | register n => exact absurd rfl hx
  | rotate k n =>
    simp only [SignRequest.tx, applyRegistryTransaction, applyRotate, bind_eq_ok] at h
    obtain ⟨_, -, _, -, _, -, _, -, old, hold, _, hsig, -⟩ := h
    cases hr.symm.trans (requireActiveRecord_ok hold).1
    exact hsig
  | revoke n reason =>
    simp only [SignRequest.tx, applyRegistryTransaction, applyRevoke, bind_eq_ok] at h
    obtain ⟨_, -, _, -, _, -, _, -, old, hold, _, hsig, -⟩ := h
    cases hr.symm.trans (requireActiveRecord_ok hold).1
    exact hsig

/-- The current key of the curator is the one that was asked for. -/
theorem current_key {height : Nat} (hrules : FollowsRules E a x s root height) (hx : x.action ≠ .register)
    {r : CuratorRecord} (hr : s.byId a.curatorId = some r) : ∃ pk, decodePublicKey r.publicKeyHex = .ok pk := by
  obtain ⟨pk, hpk, hlen⟩ := hrules.publicKey
  have hkey : r.publicKeyHex = lower a.publicKey := by
    have hallowed := hrules.allowed
    cases x with
    | register h => exact absurd rfl hx
    | rotate k h =>
      obtain ⟨-, -, r', hactive, -⟩ := hallowed
      cases hr.symm.trans (requireActiveRecord_ok hactive).1
      exact (requireActiveRecord_ok hactive).2
    | revoke h reason =>
      obtain ⟨-, -, r', hactive, -⟩ := hallowed
      cases hr.symm.trans (requireActiveRecord_ok hactive).1
      exact (requireActiveRecord_ok hactive).2
  exact ⟨pk, decodePublicKey_eq_ok.mpr ⟨by rw [hkey, fromHex_lower, hpk], hlen⟩⟩

theorem SignedBy.ne_nil {keyCount threshold : Nat} (h : SignedBy W a keyCount message sks sigs) {keys : List Str}
    (hpos : 1 ≤ threshold) (hcount : threshold ≤ (sigs.filter (GovernanceSignature.holds E keys message)).length) :
      sks ≠ [] := by
  rintro rfl
  rw [h.signed] at hcount
  simp at hcount
  omega

/-- The message of a body in lower case is that of its transaction. -/
theorem signed_message {height : Nat} {curatorSignature : Str} (hasks : a.Asks x)
    (hrules : FollowsRules E a x s root height) (hlower : a.LowerCase x)
    (hm : governanceMessage E (a.body x root) NETWORK_ID = .ok message) :
    governanceMessage E (a.tx root curatorSignature sigs x).signedBody NETWORK_ID = .ok message := by
  refine governanceMessage_norm (signedBody_norm hasks hrules) ?_
  rw [hlower.body, hm]

/-- The constructor keeps the state of every height, and its keys make a context for any network. -/
theorem init_tip (hinit : Ledger.init E args = .ok l) :
    (∀ {s}, l.stateAt E (l.chain.length - 1) = .ok s → l.registryStateAt l.height.toNat = .ok s) ∧
      ∃ ctx, GovernanceContext.init l.governanceKeys l.governanceThreshold NETWORK_ID = .ok ctx := by
  have hkept := init_cacheKept hinit
  have hlast : l.height.toNat = l.chain.length - 1 := by
    rw [Ledger.height]
    omega
  have hpos := List.length_pos_iff.mpr hkept.chain_ne
  constructor
  · intro s hs
    obtain ⟨s', hs', ht⟩ := hkept.coherent (l.chain.length - 1) (by omega)
    rw [hlast, hs', ← hs, ht]
  · exact context_network (init_context hinit) (by decide)

/-- A request that is signed for the ledger is within reach. -/
theorem reach_of_signs (hinit : Ledger.init E args = .ok l) (hload : W.ledger a.ledgerPath = .ok l)
    (honly : SignsOnly E W) (hapart : BodiesApart E l a) (hsigns : SignsForLedger E W l a) : WithinReach E W l a := by
  intro x s root hasks hs hrules hgiven
  obtain ⟨hstored, ctx, hctx⟩ := init_tip hinit
  obtain ⟨message, hm⟩ := body_message E a x root
  obtain ⟨message', hm'⟩ := body_message E a.lowered x.lowered root
  obtain ⟨hwrites, htaken⟩ := hsigns x s root hasks hs hrules
  obtain ⟨w, hw⟩ := hwrites hgiven
  obtain ⟨raw, sks, sigs, hsteps, henvelope⟩ := (build_ok_iff hload (hstored hs) hasks hrules hm).mp ⟨w, hw, rfl⟩
  obtain ⟨tx, s₁, s', hparse, hs₁, happly⟩ := htaken w hw
  cases hs.symm.trans hs₁
  rw [henvelope] at hparse happly
  have hnetwork := parse_networkId hparse
  have hparsed := parse_writtenBody hasks hrules (wellSigned_of hrules hsteps.curator.1 hsteps.signed)
  rw [← hnetwork] at hparsed
  obtain ⟨txid, -, happly⟩ := (applyTransactions_one hparsed).mp happly
  obtain ⟨hauthorized, hcount⟩ := authorized_iff hctx hasks hrules hsteps.curator.1 hsteps.signed hm'
  have hlower := lowerCase_of_authorized honly (hapart x s root hasks hs hrules) hctx hrules hm hm' hsteps.signed
    (hcount.mp (hauthorized.mp hsteps.authorized))
  refine ⟨hnetwork, hlower, fun hx path sk message₁ r pk hpath hsk hm₁ hr hpk => ?_, not_revoked_of hasks hsteps.fields⟩
  cases hm.symm.trans hm₁
  obtain ⟨pk', hpk', hverify⟩ := (verifyCuratorSignature_eq_ok (signed_message hasks hrules hlower hm)).mp
    (curator_of_apply hx happly r hr)
  cases hpk.symm.trans hpk'
  obtain ⟨path', sk', hpath', hsk', rfl⟩ := hsteps.curator.2 hx
  cases hpath.symm.trans hpath'
  cases hsk.symm.trans hsk'
  exact hverify

/-- A request within reach is signed for the ledger. -/
theorem signs_of_reach (hinit : Ledger.init E args = .ok l) (hload : W.ledger a.ledgerPath = .ok l)
    (honly : SignsOnly E W) (hapart : BodiesApart E l a) (hreach : WithinReach E W l a) : SignsForLedger E W l a := by
  intro x s root hasks hs hrules
  obtain ⟨hstored, ctx, hctx⟩ := init_tip hinit
  obtain ⟨message, hm⟩ := body_message E a x root
  constructor
  · intro hgiven
    obtain ⟨hnetwork, hlower, -, hopen⟩ := hreach x s root hasks hs hrules hgiven
    obtain ⟨hfree, hkey, sks, message₁, sigs, hm₁, hsigned, hcount⟩ := hgiven
    cases hm.symm.trans hm₁
    obtain ⟨raw, hcurator⟩ : ∃ raw, CuratorSigned W a x message raw := by
      by_cases hx : x.action = .register
      · exact ⟨List.replicate 64 0, List.length_replicate, fun hne => absurd hx hne⟩
      · obtain ⟨path, sk, hpath, hsk⟩ := hkey hx
        exact ⟨_, W.sign_length sk message, fun _ => ⟨path, sk, hpath, hsk, rfl⟩⟩
    obtain ⟨hauthorized, hverified⟩ := authorized_iff hctx hasks hrules hcurator.1 hsigned (by rw [hlower.body, hm])
    have hthreshold := ctx.threshold_range.1
    rw [(GovernanceContext.init_fields hctx).2.1] at hthreshold
    obtain ⟨w, hw, -⟩ := (build_ok_iff hload (hstored hs) hasks hrules hm).mpr ⟨raw, sks, sigs,
      ⟨hfree, hsigned.ne_nil hthreshold hcount, actionFields_of hasks hrules hlower hopen, hcurator, hsigned,
        hauthorized.mpr (hverified.mpr hcount)⟩, rfl⟩
    exact ⟨w, hw⟩
  · intro w hw
    obtain ⟨message', hm'⟩ := body_message E a.lowered x.lowered root
    obtain ⟨raw, sks, sigs, hsteps, henvelope⟩ := (build_ok_iff hload (hstored hs) hasks hrules hm).mp ⟨w, hw, rfl⟩
    obtain ⟨hauthorized, hcount⟩ := authorized_iff hctx hasks hrules hsteps.curator.1 hsteps.signed hm'
    have hverified := hauthorized.mp hsteps.authorized
    have hlower := lowerCase_of_authorized honly (hapart x s root hasks hs hrules) hctx hrules hm hm' hsteps.signed
      (hcount.mp hverified)
    have henough := hcount.mp hverified
    rw [hlower.body, hm, Except.ok.injEq] at hm'
    subst hm'
    have hgiven : KeysGiven E W l a x root := by
      refine ⟨hsteps.free, fun hx => ?_, sks, message, sigs, hm, hsteps.signed, henough⟩
      obtain ⟨path, sk, hpath, hsk, -⟩ := hsteps.curator.2 hx
      exact ⟨path, sk, hpath, hsk⟩
    obtain ⟨hnetwork, -, hkey, -⟩ := hreach x s root hasks hs hrules hgiven
    have hparsed := parse_writtenBody hasks hrules (wellSigned_of hrules hsteps.curator.1 hsteps.signed)
    have hsame : l.governanceContext = ctx := by
      have hown := init_context hinit
      rw [hnetwork, hctx] at hown
      exact (Except.ok.inj hown).symm
    obtain ⟨txid, htxid⟩ := canonicalTxid_ok (E := E) (toDict_finite (a.tx root (toHex raw) sigs x))
    obtain ⟨s', happly⟩ := apply_of txid hrules hverified fun hx r hr => by
      obtain ⟨pk, hpk⟩ := current_key hrules hx hr
      obtain ⟨path, sk, hpath, hsk, rfl⟩ := hsteps.curator.2 hx
      exact (verifyCuratorSignature_eq_ok (signed_message hasks hrules hlower hm)).mpr
        ⟨pk, hpk, hkey hx path sk message r pk hpath hsk hm hr hpk⟩
    rw [← hnetwork] at hparsed
    rw [henvelope]
    refine ⟨_, s, s', hparsed, hs, (applyTransactions_one hparsed).mpr ⟨txid, htxid, ?_⟩⟩
    rw [hsame]
    exact happly

/-- **The signing tool.** It writes what the ledger takes for exactly the requests on the default network that
name their keys in lower case, with the curator's own key, and do not rotate a revoked key. -/
theorem signs_iff (hinit : Ledger.init E args = .ok l) (hload : W.ledger a.ledgerPath = .ok l) (honly : SignsOnly E W)
    (hapart : BodiesApart E l a) : SignsForLedger E W l a ↔ WithinReach E W l a :=
  ⟨reach_of_signs hinit hload honly hapart, signs_of_reach hinit hload honly hapart⟩

end

/-! ## A registration on the development network -/

def devRegistration : SignRequest where
  action := .register
  ledgerPath := str "ledger.json"
  curatorId := str "alice"
  publicKey := aliceKey₁
  governanceKeys := [str "governance.key"]
  keyIndices := [0]
  output := str "transaction.json"
  force := false
  activationHeight := some 2

def devBodyHash : Str := str "ae1f68acbf3d84a6142093e32bd6725482bfd73473d4638a9ea7815b159207a4"
def devMessage : Str := str "7a0fd82cbdf76e570272d8036e5beb0fe2a398fa672f5f774161f6219b65adbe"
def devSignature : Str :=
  str "1757a1ad16d8dd9a098d75d0fc8d368db77f2770fff01fd7b401a2cc1527ebf41c4da4e059690e68c3004d82b4eb1c0dd7990665e85403af92e1c3a855aef90a"

/-- Ed25519 as far as the key of the network signed the body of the registration. -/
def devSigned : Primitives := recorded [(devKey, devMessage, devSignature)]

/-- A key that signs one message for the network's key, and nothing else that holds. -/
def devWorkspace (l : Ledger) : Workspace Unit where
  fileExists _ := false
  ledger _ := .ok l
  privateKey _ := .ok ()
  sign _ message := if some message = fromHex devMessage then (fromHex devSignature).getD [] else List.replicate 64 0
  sign_length _ message := by
    split
    · decide +kernel
    · exact List.length_replicate

set_option maxRecDepth 100000 in
/-- The ledger of the network, which is not the default network, has no curators yet. -/
theorem devLedger_fresh : ∃ l, Ledger.init devSigned { networkIdentity := some devIdentity } = .ok l ∧
    (l.networkId != NETWORK_ID && l.chain.length == 1 && l.governanceKeys == [devKey] && l.governanceThreshold == 1 &&
      okAnd (fun s => s.records.isEmpty && decide (okEq (registryRoot devSigned s) devRoot))
        (l.stateAt devSigned 0)) = true :=
  of_okAnd (by decide +kernel)

set_option maxRecDepth 100000 in
/-- The hashes of the body of the registration. -/
theorem devRegistration_hashes : (okAnd (fun t => toHex (devSigned.sha256 t) == devBodyHash)
      (canonicalJson devSigned (.dict (devRegistration.body (.register 2) devRoot))) &&
    okAnd (fun t => toHex (devSigned.sha256 t) == devMessage)
      (canonicalJson devSigned (messageJson NETWORK_ID devBodyHash))) = true := by
  decide +kernel

section
variable {l : Ledger}

/-- What the ledger is before its first registration. -/
structure DevFresh (l : Ledger) : Prop where
  started : Ledger.init devSigned { networkIdentity := some devIdentity } = .ok l
  network : l.networkId ≠ NETWORK_ID
  genesis : l.chain.length = 1
  keys : l.governanceKeys = [devKey]
  threshold : l.governanceThreshold = 1
  state : ∃ s, l.stateAt devSigned (l.chain.length - 1) = .ok s ∧ s.records = [] ∧
    registryRoot devSigned s = .ok devRoot

theorem devFresh : ∃ l, DevFresh l := by
  obtain ⟨l, hl, h⟩ := devLedger_fresh
  simp only [Bool.and_eq_true, bne_iff_ne, beq_iff_eq] at h
  obtain ⟨⟨⟨⟨hnetwork, hgenesis⟩, hkeys⟩, hthreshold⟩, hstate⟩ := h
  obtain ⟨s, hs, hs'⟩ := of_okAnd hstate
  rw [Bool.and_eq_true] at hs'
  exact ⟨l, hl, hnetwork, hgenesis, hkeys, hthreshold, s, by rw [hgenesis]; exact hs, List.isEmpty_iff.mp hs'.1,
    of_okEq (of_decide_eq_true hs'.2)⟩

theorem devRegistration_texts : ∃ t u,
    canonicalJson devSigned (.dict (devRegistration.body (.register 2) devRoot)) = .ok t ∧
    toHex (devSigned.sha256 t) = devBodyHash ∧ canonicalJson devSigned (messageJson NETWORK_ID devBodyHash) = .ok u ∧
    toHex (devSigned.sha256 u) = devMessage := by
  have h := devRegistration_hashes
  rw [Bool.and_eq_true] at h
  obtain ⟨t, ht, hbody⟩ := of_okAnd h.1
  obtain ⟨u, hu, hmessage⟩ := of_okAnd h.2
  exact ⟨t, u, ht, eq_of_beq hbody, hu, eq_of_beq hmessage⟩

/-- The network's key signs the message of the registration. -/
theorem devRegistration_message : ∃ message,
    governanceMessage devSigned (devRegistration.body (.register 2) devRoot) NETWORK_ID = .ok message ∧
      toHex message = devMessage := by
  obtain ⟨t, u, ht, hbody, hu, hmessage⟩ := devRegistration_texts
  exact ⟨_, governanceMessage_eq_ok.mpr ⟨t, u, ht, by rw [hbody, hu], rfl⟩, hmessage⟩

theorem devWorkspace_sign (l : Ledger) (sk : Unit) (message : Bytes) : (devWorkspace l).sign sk message =
    if some message = fromHex devMessage then (fromHex devSignature).getD [] else List.replicate 64 0 := rfl

theorem devSigned_only (l : Ledger) : SignsOnly devSigned (devWorkspace l) := by
  intro sk message pk message' _ _ h
  rw [verify, fromHex_toHex] at h
  simp only [devSigned, recorded, List.any_cons, List.any_nil, Bool.or_false, (devWorkspace l).sign_length, ne_eq,
    not_true_eq_false, if_false, Bool.and_eq_true, beq_iff_eq] at h
  obtain ⟨⟨-, hmessage⟩, hsignature⟩ := h
  by_cases hsame : some message = fromHex devMessage
  · exact Option.some.inj (hmessage.symm.trans hsame.symm)
  · rw [devWorkspace_sign, if_neg hsame] at hsignature
    exact absurd hsignature (by decide +kernel)

theorem devRegistration_lower : devRegistration.LowerCase (.register 2) := ⟨by decide, nofun⟩

theorem devBodies_apart (hl : DevFresh l) : BodiesApart devSigned l devRegistration := by
  intro x s root hasks hs hrules t t' ht ht' hsame
  obtain ⟨s₀, hs₀, -, hroot⟩ := hl.state
  cases hs.symm.trans hs₀
  cases hrules.root.symm.trans hroot
  obtain rfl : x = .register 2 := by
    cases x with
    | register h =>
      obtain rfl : (2 : Int) = h := Option.some.inj hasks.2
      rfl
    | rotate k h => cases hasks.1
    | revoke h reason => cases hasks.1
  obtain ⟨t₀, u₀, ht₀, hbody, hu₀, hmessage⟩ := devRegistration_texts
  have htexts : ∀ {t : Bytes}, MessageHashed devSigned (devRegistration.body (.register 2) devRoot) t →
    t = t₀ ∨ t = u₀ := by
    rintro t (ht | ⟨u, hu, ht⟩)
    · exact .inl (Except.ok.inj (ht.symm.trans ht₀))
    · cases hu.symm.trans ht₀
      rw [hbody, hu₀] at ht
      exact .inr (Except.ok.inj ht).symm
  have hapart : devSigned.sha256 t₀ ≠ devSigned.sha256 u₀ := by
    intro heq
    rw [heq, hmessage] at hbody
    exact absurd hbody (by decide +kernel)
  rw [devRegistration_lower.body, or_self] at ht ht'
  obtain rfl | rfl := htexts ht <;> obtain rfl | rfl := htexts ht'
  · rfl
  · exact absurd hsame hapart
  · exact absurd hsame.symm hapart
  · rfl

theorem devRegistration_rules (hl : DevFresh l) : ∃ s, l.stateAt devSigned (l.chain.length - 1) = .ok s ∧
    FollowsRules devSigned devRegistration (.register 2) s devRoot l.chain.length := by
  obtain ⟨s, hs, hrecords, hroot⟩ := hl.state
  refine ⟨s, hs, of_okEq (by decide), isHex32_of (by decide +kernel), hroot, ?_, ?_⟩
  · rw [hl.genesis]
    decide
  · rw [requireNotRegistered, hrecords]
    rfl

/-- The network's key holds for the message that it signs. -/
theorem devSignature_holds {message : Bytes} (hmessage : fromHex devMessage = some message) :
    ((devWorkspace l).signature message ((), 0)).holds devSigned [devKey] message = true := by
  obtain ⟨pk, hpk, hlen⟩ : IsHex32 devKey := isHex32_of (by decide +kernel)
  obtain ⟨sig, hsig⟩ : ∃ sig, fromHex devSignature = some sig := Option.isSome_iff_exists.mp (by decide +kernel)
  have hsign : (devWorkspace l).sign () message = sig := by
    rw [devWorkspace_sign, if_pos hmessage.symm, hsig, Option.getD_some]
  have hkey : [devKey][((devWorkspace l).signature message ((), 0)).keyIndex.toNat]? = some devKey := rfl
  rw [GovernanceSignature.holds, hkey, Option.map_some, decodePublicKey_eq_ok.mpr ⟨hpk, hlen⟩]
  simp only [verify, Workspace.signature, fromHex_toHex, (devWorkspace l).sign_length, ne_eq, not_true_eq_false,
    if_false]
  simp only [devSigned, recorded, hsign, hpk, hmessage, hsig, List.any_cons, List.any_nil, beq_self_eq_true,
    Bool.and_self, Bool.or_false]

/-- The one key of the network is given, under its index. -/
theorem devRegistration_keys (hl : DevFresh l) :
    KeysGiven devSigned (devWorkspace l) l devRegistration (.register 2) devRoot := by
  obtain ⟨message, hm, hhex⟩ := devRegistration_message
  have hmessage : fromHex devMessage = some message := by rw [← hhex, fromHex_toHex]
  refine ⟨nofun, nofun, [()], message, [(devWorkspace l).signature message ((), 0)], hm, ⟨rfl, rfl, by decide, ?_, rfl⟩,
    ?_⟩
  · rw [hl.keys]
    decide
  · rw [hl.threshold, hl.keys, List.filter_singleton, devSignature_holds hmessage]
    exact le_rfl

/-- The tool writes a registration of alice on the development network, and the ledger of that network refuses it. -/
theorem registration_misnamed : ¬ ∀ (K : Type) (E : Primitives) (W : Workspace K) (l : Ledger) (args : LedgerArgs)
    (a : SignRequest), Ledger.init E args = .ok l → W.ledger a.ledgerPath = .ok l → SignsOnly E W → BodiesApart E l a →
      SignsForLedger E W l a := by
  intro h
  obtain ⟨l, hl⟩ := devFresh
  obtain ⟨s, hs, hrules⟩ := devRegistration_rules hl
  have hsigns := h Unit devSigned (devWorkspace l) l _ devRegistration hl.started rfl (devSigned_only l)
    (devBodies_apart hl)
  have hreach := @reach_of_signs _ _ (devWorkspace l) _ _ _ hl.started rfl (devSigned_only l) (devBodies_apart hl)
    hsigns
  exact hl.network (hreach (.register 2) s devRoot ⟨rfl, rfl⟩ hs hrules (devRegistration_keys hl)).1

theorem signs_devRegistration : ∃ l, Ledger.init devSigned { networkIdentity := some devIdentity } = .ok l ∧
    (SignsForLedger devSigned (devWorkspace l) l devRegistration ↔
    WithinReach devSigned (devWorkspace l) l devRegistration) := by
  obtain ⟨l, hl⟩ := devFresh
  exact ⟨l, hl.started, signs_iff hl.started rfl (devSigned_only l) (devBodies_apart hl)⟩

end

end CliV2

end ChainBreaker
