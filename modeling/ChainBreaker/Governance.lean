import ChainBreaker.Crypto

/-!
# Governance transactions

The three registry mutations, their parsers, and the check of governance
signatures. A parser reads the fields in the order the source reads them, so
the first fault of a body decides its error.
-/

namespace ChainBreaker

open Fallible

def NETWORK_ID : Str := str "chainbreaker-scripture-v2"

theorem networkId_nonempty : NETWORK_ID ≠ [] := by decide

def PROTOCOL_VERSION : Int := 2
def GOVERNANCE_SCHEMA_VERSION : Nat := 1
def MAX_CURATOR_ID_BYTES : Nat := 128
def MAX_REASON_CODE_BYTES : Nat := 64

def governanceError (t : String) : PyErr := err .governanceError t

def orRaise {α : Type} (o : Option α) (e : PyErr) : Except PyErr α :=
  match o with
  | some a => .ok a
  | none => .error e

theorem orRaise_eq_ok {α : Type} {o : Option α} {e : PyErr} {a : α} :
    orRaise o e = .ok a ↔ o = some a := by cases o <;> simp [orRaise]

theorem orRaise_eq_error {α : Type} {o : Option α} {e e' : PyErr} :
    orRaise o e = .error e' ↔ o = none ∧ e = e' := by cases o <;> simp [orRaise]

def Json.asStr? : Json → Option Str
  | .str s => some s
  | _ => none

/-- An integer that is not a boolean. -/
def Json.asInt? : Json → Option Int
  | .int n => some n
  | _ => none

def Json.asList? : Json → Option (List Json)
  | .list xs => some xs
  | _ => none

def Json.asDict? : Json → Option Fields
  | .dict d => some d
  | _ => none

theorem asStr?_eq_some {v : Json} {s : Str} : v.asStr? = some s ↔ v = .str s := by
  cases v <;> simp [Json.asStr?]

theorem asInt?_eq_some {v : Json} {n : Int} : v.asInt? = some n ↔ v = .int n := by
  cases v <;> simp [Json.asInt?]

theorem asDict?_eq_some {v : Json} {d : Fields} : v.asDict? = some d ↔ v = .dict d := by
  cases v <;> simp [Json.asDict?]

/-! ## Field checks -/

structure GovernanceSignature where
  keyIndex : Int
  signatureHex : Str
  deriving DecidableEq

def GovernanceSignature.toDict (s : GovernanceSignature) : Json :=
  .dict [(str "key_index", .int s.keyIndex), (str "signature", .str s.signatureHex)]

def GovernanceSignature.fromDict (data : Json) : Except PyErr GovernanceSignature := do
  let d ← orRaise data.asDict? (governanceError "signature must be a dict")
  require (d.keysWithin ["key_index", "signature"] ∧ d.hasKeys ["key_index", "signature"])
    (governanceError "signature has wrong keys")
  let keyIndex ← orRaise ((d.get "key_index").bind Json.asInt?)
    (governanceError "key_index must be an integer")
  require (0 ≤ keyIndex) (governanceError "key_index must be non-negative")
  let sig ← orRaise ((d.get "signature").bind Json.asStr?) (governanceError "signature must be a string")
  let sigBytes ← orRaise (fromHex sig) (governanceError "signature must be hex")
  require (sigBytes.length = 64) (governanceError "signature must be 64 bytes hex")
  .ok ⟨keyIndex, sig⟩

def requireHexHash (value : Json) (name : String) (length : Nat) : Except PyErr Str := do
  let s ← orRaise value.asStr? (governanceError (name ++ " must be a string"))
  let raw ← orRaise (fromHex s) (governanceError (name ++ " must be hex"))
  require (raw.length * 2 = length)
    (governanceError (name ++ " must be " ++ toString length ++ " hex characters"))
  .ok (lower s)

def requireCuratorId (value : Json) : Except PyErr Str := do
  let s ← orRaise value.asStr? (governanceError "curator_id must be a non-empty string")
  require (s ≠ []) (governanceError "curator_id must be a non-empty string")
  let encoded ← encodeUtf8 s
  require (1 ≤ encoded.length ∧ encoded.length ≤ MAX_CURATOR_ID_BYTES)
    (governanceError "curator_id must be 1..128 UTF-8 bytes")
  .ok s

def requireReasonCode (value : Json) : Except PyErr Str := do
  let s ← orRaise value.asStr? (governanceError "reason_code must be a non-empty string")
  require (s ≠ []) (governanceError "reason_code must be a non-empty string")
  let encoded ← encodeUtf8 s
  require (encoded.length ≤ MAX_REASON_CODE_BYTES)
    (governanceError "reason_code must be <= 64 UTF-8 bytes")
  .ok s

def requireHeight (value : Json) (name : String) : Except PyErr Nat := do
  let n ← orRaise value.asInt? (governanceError (name ++ " must be an integer"))
  require (0 ≤ n) (governanceError (name ++ " must be >= 0"))
  .ok n.toNat

def requireOptionalHexHash (value : Option Json) (name : String) : Except PyErr (Option Str) :=
  match value with
  | none => .ok none
  | some .null => .ok none
  | some v => do
    let s ← requireHexHash v name 64
    .ok (some s)

def requireSignatures (value : Json) : Except PyErr (List GovernanceSignature) := do
  let xs ← orRaise value.asList? (governanceError "governance_signatures must be a list")
  collect GovernanceSignature.fromDict xs

/-- What the three parsers check before they read their fields. -/
def checkEnvelope (what action : String) (expectedKeys : List String) (data : Json)
    (expectedNetworkId : Str) : Except PyErr Fields := do
  let d ← orRaise data.asDict? (governanceError (what ++ " transaction body must be a dict"))
  require (d.keysWithin expectedKeys)
    ⟨.governanceError, "unexpected keys: %", (Fields.without d expectedKeys).map fun f => .str f.1⟩
  require ((d.get "action").any (·.eqStr (str action))) (governanceError ("action must be " ++ action))
  require (((d.get "network_id").getD (.str NETWORK_ID)).eqStr expectedNetworkId)
    (governanceError "wrong network_id")
  require (((d.get "schema_version").getD (.int 1)).eqOne)
    (governanceError "unsupported schema_version")
  .ok d

/-! ## The transactions -/

structure CuratorRegisterTx where
  curatorId : Str
  publicKeyHex : Str
  activationHeight : Nat
  displayMetadataHash : Option Str
  previousRegistryRoot : Str
  governanceSignatures : List GovernanceSignature
  networkId : Str
  schemaVersion : Nat
  deriving DecidableEq

def optionalEntry (k : String) : Option Str → Fields
  | none => []
  | some s => [(str k, .str s)]

def CuratorRegisterTx.toDict (tx : CuratorRegisterTx) : Fields :=
  [(str "action", .str (str "curator_register")),
    (str "curator_id", .str tx.curatorId),
    (str "public_key_hex", .str tx.publicKeyHex),
    (str "activation_height", .int tx.activationHeight),
    (str "previous_registry_root", .str tx.previousRegistryRoot),
    (str "governance_signatures", .list (tx.governanceSignatures.map GovernanceSignature.toDict)),
    (str "network_id", .str tx.networkId),
    (str "schema_version", .int tx.schemaVersion)] ++
  optionalEntry "display_metadata_hash" tx.displayMetadataHash

def CuratorRegisterTx.fromDict (data : Json) (expectedNetworkId : Str) :
    Except PyErr CuratorRegisterTx := do
  let d ← checkEnvelope "register" "curator_register"
    ["action", "curator_id", "public_key_hex", "activation_height", "previous_registry_root",
      "governance_signatures", "network_id", "schema_version", "display_metadata_hash"]
    data expectedNetworkId
  let curatorId ← d.item "curator_id" >>= requireCuratorId
  let publicKeyHex ← d.item "public_key_hex" >>= fun v => requireHexHash v "public_key_hex" 64
  let activationHeight ← d.item "activation_height" >>= fun v => requireHeight v "activation_height"
  let displayMetadataHash ← requireOptionalHexHash (d.get "display_metadata_hash") "display_metadata_hash"
  let previousRegistryRoot ← d.item "previous_registry_root" >>= fun v =>
    requireHexHash v "previous_registry_root" 64
  let governanceSignatures ← d.item "governance_signatures" >>= requireSignatures
  .ok ⟨curatorId, publicKeyHex, activationHeight, displayMetadataHash, previousRegistryRoot,
    governanceSignatures, expectedNetworkId, GOVERNANCE_SCHEMA_VERSION⟩

structure CuratorRotateTx where
  curatorId : Str
  publicKeyHex : Str
  newPublicKeyHex : Str
  activationHeight : Nat
  displayMetadataHash : Option Str
  previousRegistryRoot : Str
  governanceSignatures : List GovernanceSignature
  curatorSignatureHex : Str
  networkId : Str
  schemaVersion : Nat
  deriving DecidableEq

def CuratorRotateTx.toDict (tx : CuratorRotateTx) : Fields :=
  [(str "action", .str (str "curator_rotate")),
    (str "curator_id", .str tx.curatorId),
    (str "public_key_hex", .str tx.publicKeyHex),
    (str "new_public_key_hex", .str tx.newPublicKeyHex),
    (str "activation_height", .int tx.activationHeight),
    (str "previous_registry_root", .str tx.previousRegistryRoot),
    (str "governance_signatures", .list (tx.governanceSignatures.map GovernanceSignature.toDict)),
    (str "curator_signature", .str tx.curatorSignatureHex),
    (str "network_id", .str tx.networkId),
    (str "schema_version", .int tx.schemaVersion)] ++
  optionalEntry "display_metadata_hash" tx.displayMetadataHash

def CuratorRotateTx.fromDict (data : Json) (expectedNetworkId : Str) :
    Except PyErr CuratorRotateTx := do
  let d ← checkEnvelope "rotate" "curator_rotate"
    ["action", "curator_id", "public_key_hex", "new_public_key_hex", "activation_height",
      "previous_registry_root", "governance_signatures", "curator_signature", "network_id",
      "schema_version", "display_metadata_hash"]
    data expectedNetworkId
  let curatorId ← d.item "curator_id" >>= requireCuratorId
  let publicKeyHex ← d.item "public_key_hex" >>= fun v => requireHexHash v "public_key_hex" 64
  let newPublicKeyHex ← d.item "new_public_key_hex" >>= fun v => requireHexHash v "new_public_key_hex" 64
  let activationHeight ← d.item "activation_height" >>= fun v => requireHeight v "activation_height"
  let displayMetadataHash ← requireOptionalHexHash (d.get "display_metadata_hash") "display_metadata_hash"
  let previousRegistryRoot ← d.item "previous_registry_root" >>= fun v =>
    requireHexHash v "previous_registry_root" 64
  let governanceSignatures ← d.item "governance_signatures" >>= requireSignatures
  let curatorSignatureHex ← d.item "curator_signature" >>= fun v => requireHexHash v "curator_signature" 128
  .ok ⟨curatorId, publicKeyHex, newPublicKeyHex, activationHeight, displayMetadataHash,
    previousRegistryRoot, governanceSignatures, curatorSignatureHex, expectedNetworkId,
    GOVERNANCE_SCHEMA_VERSION⟩

structure CuratorRevokeTx where
  curatorId : Str
  publicKeyHex : Str
  revocationHeight : Nat
  reasonCode : Str
  previousRegistryRoot : Str
  governanceSignatures : List GovernanceSignature
  curatorSignatureHex : Str
  networkId : Str
  schemaVersion : Nat
  deriving DecidableEq

def CuratorRevokeTx.toDict (tx : CuratorRevokeTx) : Fields :=
  [(str "action", .str (str "curator_revoke")),
    (str "curator_id", .str tx.curatorId),
    (str "public_key_hex", .str tx.publicKeyHex),
    (str "revocation_height", .int tx.revocationHeight),
    (str "reason_code", .str tx.reasonCode),
    (str "previous_registry_root", .str tx.previousRegistryRoot),
    (str "governance_signatures", .list (tx.governanceSignatures.map GovernanceSignature.toDict)),
    (str "curator_signature", .str tx.curatorSignatureHex),
    (str "network_id", .str tx.networkId),
    (str "schema_version", .int tx.schemaVersion)]

def CuratorRevokeTx.fromDict (data : Json) (expectedNetworkId : Str) :
    Except PyErr CuratorRevokeTx := do
  let d ← checkEnvelope "revoke" "curator_revoke"
    ["action", "curator_id", "public_key_hex", "revocation_height", "reason_code",
      "previous_registry_root", "governance_signatures", "curator_signature", "network_id",
      "schema_version"]
    data expectedNetworkId
  let curatorId ← d.item "curator_id" >>= requireCuratorId
  let publicKeyHex ← d.item "public_key_hex" >>= fun v => requireHexHash v "public_key_hex" 64
  let revocationHeight ← d.item "revocation_height" >>= fun v => requireHeight v "revocation_height"
  let reasonCode ← d.item "reason_code" >>= requireReasonCode
  let previousRegistryRoot ← d.item "previous_registry_root" >>= fun v =>
    requireHexHash v "previous_registry_root" 64
  let governanceSignatures ← d.item "governance_signatures" >>= requireSignatures
  let curatorSignatureHex ← d.item "curator_signature" >>= fun v => requireHexHash v "curator_signature" 128
  .ok ⟨curatorId, publicKeyHex, revocationHeight, reasonCode, previousRegistryRoot,
    governanceSignatures, curatorSignatureHex, expectedNetworkId, GOVERNANCE_SCHEMA_VERSION⟩

inductive GovernanceTx where
  | register (tx : CuratorRegisterTx)
  | rotate (tx : CuratorRotateTx)
  | revoke (tx : CuratorRevokeTx)
  deriving DecidableEq

def GovernanceTx.toDict : GovernanceTx → Fields
  | .register tx => tx.toDict
  | .rotate tx => tx.toDict
  | .revoke tx => tx.toDict

/-! ## Governance context -/

/-- The loop over the configured keys, with those already seen. -/
def checkKeys : List Str → List Str → Except PyErr Unit
  | _, [] => .ok ()
  | seen, key :: rest => do
    require (key ∉ seen) (governanceError "duplicate governance key")
    let raw ← orRaise (fromHex key) (governanceError "governance key must be hex")
    require (raw.length = 32) (governanceError "governance key must be 32 bytes hex")
    checkKeys (key :: seen) rest

theorem checkKeys_ok : ∀ (keys seen : List Str), checkKeys seen keys = .ok () →
    (∀ k ∈ keys, ∃ raw, fromHex k = some raw ∧ raw.length = 32) ∧ keys.Nodup ∧ ∀ k ∈ keys, k ∉ seen
  | [], _, _ => by simp
  | key :: rest, seen, h => by
    simp only [checkKeys, bind_eq_ok, require_eq_ok, orRaise_eq_ok] at h
    obtain ⟨_, hs, raw, hr, _, hl, h⟩ := h
    obtain ⟨hv, hn, hd⟩ := checkKeys_ok rest (key :: seen) h
    refine ⟨?_, List.nodup_cons.mpr ⟨fun hk => hd key hk (List.mem_cons_self ..), hn⟩, ?_⟩
    · intro k hk
      rcases List.mem_cons.mp hk with rfl | hk
      · exact ⟨raw, hr, hl⟩
      · exact hv k hk
    · intro k hk
      rcases List.mem_cons.mp hk with rfl | hk
      · exact hs
      · exact fun hks => hd k hk (List.mem_cons_of_mem _ hks)

/-- A governance configuration that passed the checks of its constructor. -/
structure GovernanceContext where
  publicKeysHex : List Str
  threshold : Nat
  networkId : Str
  count_range : 1 ≤ publicKeysHex.length ∧ publicKeysHex.length ≤ 16
  keys_valid : ∀ k ∈ publicKeysHex, ∃ raw, fromHex k = some raw ∧ raw.length = 32
  keys_nodup : publicKeysHex.Nodup
  threshold_range : 1 ≤ threshold ∧ threshold ≤ publicKeysHex.length
  networkId_ne : networkId ≠ []

def GovernanceContext.init (publicKeysHex : List Str) (threshold : Nat) (networkId : Str) :
    Except PyErr GovernanceContext :=
  if hc : 1 ≤ publicKeysHex.length ∧ publicKeysHex.length ≤ 16 then
    match hk : checkKeys [] publicKeysHex with
    | .error e => .error e
    | .ok () =>
      if ht : 1 ≤ threshold ∧ threshold ≤ publicKeysHex.length then
        if hn : networkId ≠ [] then
          .ok ⟨publicKeysHex, threshold, networkId, hc, (checkKeys_ok _ _ hk).1,
            (checkKeys_ok _ _ hk).2.1, ht, hn⟩
        else .error (governanceError "network_id must be a non-empty string")
      else .error (governanceError "threshold must be 1..len(public_keys_hex)")
  else .error (governanceError "governance key count must be 1..16")

theorem GovernanceContext.init_fields {keys : List Str} {t : Nat} {nid : Str} {ctx : GovernanceContext}
    (h : GovernanceContext.init keys t nid = .ok ctx) :
    ctx.publicKeysHex = keys ∧ ctx.threshold = t ∧ ctx.networkId = nid := by
  unfold GovernanceContext.init at h
  split at h
  · split at h
    · cases h
    · split at h
      · split at h
        · cases h; exact ⟨rfl, rfl, rfl⟩
        · cases h
      · cases h
  · cases h

section
variable (E : Primitives)

/-- The bytes the governance keys and the curators sign for a body. -/
def governanceMessage (body : Fields) (networkId : Str) : Except PyErr Bytes := do
  let bodyHash ← hashObjectHex E (.dict body)
  hashObject E (.dict [(str "network_id", .str networkId), (str "version", .int PROTOCOL_VERSION),
    (str "type", .str (str "registry")), (str "body_hash", .str bodyHash)])

/-- Whether the signature holds under the key at its index; a malformed key or
signature counts as one that does not. -/
def GovernanceSignature.holds (keys : List Str) (message : Bytes) (sig : GovernanceSignature) : Bool :=
  match (keys[sig.keyIndex.toNat]?).map decodePublicKey with
  | some (.ok pk) => verify E pk message sig.signatureHex
  | _ => false

/-- The loop of `verify_governance_signatures`: the number of valid signatures
after those already counted. -/
def countValid (keys : List Str) (message : Bytes) :
    List GovernanceSignature → List Int → Nat → Except PyErr Nat
  | [], _, valid => .ok valid
  | sig :: rest, usedIndices, valid => do
    require (0 ≤ sig.keyIndex) (governanceError "invalid key_index")
    require (sig.keyIndex < keys.length) (governanceError "key_index out of range")
    require (sig.keyIndex ∉ usedIndices) (governanceError "duplicate governance key index")
    countValid keys message rest (sig.keyIndex :: usedIndices)
      (if sig.holds E keys message then valid + 1 else valid)

def GovernanceContext.verifyGovernanceSignatures (ctx : GovernanceContext) (body : Fields)
    (signatures : List GovernanceSignature) : Except PyErr Unit := do
  let message ← governanceMessage E body ctx.networkId
  let valid ← countValid E ctx.publicKeysHex message signatures [] 0
  require (ctx.threshold ≤ valid) (governanceError "insufficient valid governance signatures")

end

end ChainBreaker
