import ChainBreaker.Governance

/-!
# The binary codec of headers and the transaction schema

Header dictionaries, their 149 (and 117) bytes, and the schema every Protocol
V2 transaction must meet. Decoding undoes encoding up to the spelling of the
hashes (`decodeHeaderV2_encode`), so the bytes of a header determine its fields.
-/

namespace ChainBreaker

open Fallible

def codecError (t : String) : PyErr := err .codecError t

def schemaError (t : String) : PyErr := err .schemaError t

def HASH_LEN : Nat := 32
def TYPE_HEADER : UInt8 := 0x02

/-- The dictionary of a V1 header; the target is written in hexadecimal. -/
structure HeaderDict where
  version : Int
  prevHash : Str
  merkleRoot : Str
  timestamp : Int
  target : Str
  nonce : Int
  deriving DecidableEq

structure HeaderDictV2 where
  version : Int
  prevHash : Str
  merkleRoot : Str
  registryRoot : Str
  timestamp : Int
  target : Str
  nonce : Int
  deriving DecidableEq

def encodeHash (hashHex : Str) : Except PyErr Bytes := do
  let raw ← fromHexOrRaise hashHex
  require (raw.length = HASH_LEN) ⟨.codecError, "hash must be 32 bytes, got %", [.int raw.length]⟩
  .ok raw

/-- `except (KeyError, ValueError)`: a `struct.error` is neither. -/
def asCodecError {α : Type} (x : Except PyErr α) : Except PyErr α :=
  match x with
  | .ok a => .ok a
  | .error e =>
    if e.kind = .keyError ∨ e.kind.isValueError then .error ⟨.codecError, "invalid header: " ++ e.text, e.args⟩
    else .error e

def encodeHeader (d : HeaderDict) : Except PyErr Bytes := asCodecError do
  let version ← structPack 4 d.version
  let prevHash ← encodeHash d.prevHash
  let merkleRoot ← encodeHash d.merkleRoot
  let timestamp ← structPack 8 d.timestamp
  let target ← encodeHash d.target
  let nonce ← structPack 8 d.nonce
  .ok (TYPE_HEADER :: (version ++ (prevHash ++ (merkleRoot ++ (timestamp ++ (target ++ nonce))))))

def encodeHeaderV2 (d : HeaderDictV2) : Except PyErr Bytes := asCodecError do
  let version ← structPack 4 d.version
  let prevHash ← encodeHash d.prevHash
  let merkleRoot ← encodeHash d.merkleRoot
  let registryRoot ← encodeHash d.registryRoot
  let timestamp ← structPack 8 d.timestamp
  let target ← encodeHash d.target
  let nonce ← structPack 8 d.nonce
  .ok (TYPE_HEADER ::
    (version ++ (prevHash ++ (merkleRoot ++ (registryRoot ++ (timestamp ++ (target ++ nonce)))))))

/-- The next `n` bytes and the rest. -/
def takeBytes (n : Nat) (data : Bytes) : Except PyErr (Bytes × Bytes) := do
  require (n ≤ data.length) ⟨.codecError, "need % bytes, have %", [.int n, .int data.length]⟩
  .ok (data.take n, data.drop n)

def fromLE : Bytes → Nat
  | [] => 0
  | b :: bs => b.toNat + 256 * fromLE bs

/-- `decode_header_v2(data)`, which lets bytes trail. -/
def decodeHeaderV2 (data : Bytes) : Except PyErr HeaderDictV2 := do
  let (tag, data) ← takeBytes 1 data
  require (tag = [TYPE_HEADER]) (codecError "expected header type 0x02")
  let (version, data) ← takeBytes 4 data
  let (prevHash, data) ← takeBytes HASH_LEN data
  let (merkleRoot, data) ← takeBytes HASH_LEN data
  let (registryRoot, data) ← takeBytes HASH_LEN data
  let (timestamp, data) ← takeBytes 8 data
  let (target, data) ← takeBytes HASH_LEN data
  let (nonce, _) ← takeBytes 8 data
  .ok ⟨fromLE version, toHex prevHash, toHex merkleRoot, toHex registryRoot, fromLE timestamp,
    toHex target, fromLE nonce⟩

/-! ## Decoding undoes encoding -/

theorem asCodecError_eq_ok {α : Type} {x : Except PyErr α} {a : α} : asCodecError x = .ok a ↔ x = .ok a := by
  unfold asCodecError
  split
  · rfl
  · split <;> simp

theorem fromHexOrRaise_eq_ok {s : Str} {raw : Bytes} : fromHexOrRaise s = .ok raw ↔ fromHex s = some raw := by
  unfold fromHexOrRaise raise
  split <;> simp_all

theorem encodeHash_eq_ok {s : Str} {raw : Bytes} :
    encodeHash s = .ok raw ↔ fromHex s = some raw ∧ raw.length = HASH_LEN := by
  simp only [encodeHash, bind_eq_ok, require_eq_ok, fromHexOrRaise_eq_ok]
  constructor
  · rintro ⟨r, hr, _, hl, h⟩
    cases h
    exact ⟨hr, hl⟩
  · exact fun ⟨hr, hl⟩ => ⟨raw, hr, (), hl, rfl⟩

theorem fromLE_leBytes : ∀ (k n : Nat), n < 256 ^ k → fromLE (leBytes k n) = n := by
  intro k
  induction k with
  | zero =>
    intro n h
    simp at h
    simp [leBytes, fromLE, h]
  | succ k ih =>
    intro n h
    have hdiv : n / 256 < 256 ^ k := by
      rw [Nat.div_lt_iff_lt_mul (by decide)]; rwa [Nat.pow_succ] at h
    simp only [leBytes, fromLE, ih _ hdiv]
    have : (UInt8.ofNat (n % 256)).toNat = n % 256 := by simp
    omega

theorem takeBytes_append {n : Nat} {a b : Bytes} (h : a.length = n) : takeBytes n (a ++ b) = .ok (a, b) := by
  subst h
  simp [takeBytes, require, ok_bind]

/-- A hash in the spelling the decoder gives it. -/
def canonicalHash (s : Str) : Str := toHex ((fromHex s).getD [])

theorem canonicalHash_toHex (b : Bytes) : canonicalHash (toHex b) = toHex b := by
  rw [canonicalHash, fromHex_toHex, Option.getD_some]

def HeaderDictV2.canonical (d : HeaderDictV2) : HeaderDictV2 :=
  { d with prevHash := canonicalHash d.prevHash, merkleRoot := canonicalHash d.merkleRoot,
           registryRoot := canonicalHash d.registryRoot, target := canonicalHash d.target }

theorem decodeHeaderV2_append {d : HeaderDictV2} {b : Bytes} (h : encodeHeaderV2 d = .ok b) (rest : Bytes) :
    decodeHeaderV2 (b ++ rest) = .ok d.canonical := by
  simp only [encodeHeaderV2, asCodecError_eq_ok, bind_eq_ok, structPack_eq_ok, encodeHash_eq_ok] at h
  obtain ⟨v, ⟨hv₀, hv₁, rfl⟩, p, ⟨hp, hpl⟩, m, ⟨hm, hml⟩, r, ⟨hr, hrl⟩, ts, ⟨ht₀, ht₁, rfl⟩, t, ⟨ht, htl⟩,
    n, ⟨hn₀, hn₁, rfl⟩, h⟩ := h
  cases h
  have back : ∀ {k : Nat} {x : Int}, 0 ≤ x → x < 256 ^ k → (fromLE (leBytes k x.toNat) : Int) = x := by
    intro k x h₀ h₁
    have hx : x.toNat < 256 ^ k := by
      have : ((256 ^ k : Nat) : Int) = 256 ^ k := by simp
      omega
    rw [fromLE_leBytes k _ hx, Int.toNat_of_nonneg h₀]
  unfold decodeHeaderV2
  simp only [List.cons_append, List.append_assoc]
  rw [← List.singleton_append, takeBytes_append (show [TYPE_HEADER].length = 1 from rfl), ok_bind]
  simp only [require, if_true, ok_bind, takeBytes_append (leBytes_length _ _), takeBytes_append hpl,
    takeBytes_append hml, takeBytes_append hrl, takeBytes_append htl]
  simp only [HeaderDictV2.canonical, canonicalHash, hp, hm, hr, ht, Option.getD_some, back hv₀ hv₁,
    back ht₀ ht₁, back hn₀ hn₁]

theorem decodeHeaderV2_encode {d : HeaderDictV2} {b : Bytes} (h : encodeHeaderV2 d = .ok b) :
    decodeHeaderV2 b = .ok d.canonical := by
  have happend := decodeHeaderV2_append h []
  rwa [List.append_nil] at happend

/-- The bytes of a header determine its fields, up to the spelling of the hashes. -/
theorem encodeHeaderV2_inj {d d' : HeaderDictV2} {b : Bytes} (h : encodeHeaderV2 d = .ok b)
    (h' : encodeHeaderV2 d' = .ok b) : d.canonical = d'.canonical := by
  have := (decodeHeaderV2_encode h).symm.trans (decodeHeaderV2_encode h')
  exact Except.ok.inj this

/-! ## Transaction schema -/

def isLowerHex (c : CodePoint) : Bool := (48 ≤ c.val && c.val ≤ 57) || (97 ≤ c.val && c.val ≤ 102)

/-- `^[0-9a-f]{64}$`; the `$` also matches before a final line feed. -/
def isHash : Json → Bool
  | .str s =>
    let body := if s.getLast? = some 10 then s.dropLast else s
    body.length == 64 && body.all isLowerHex
  | _ => false

def isNull : Json → Bool
  | .null => true
  | _ => false

def requireString (value : Json) (nullable : Bool) : Except PyErr Bool :=
  if isNull value && nullable then .ok true
  else
    match value with
    | .str s => do
      let encoded ← encodeUtf8 s
      .ok (decide (encoded.length ≤ 65535))
    | _ => .ok false

def requireInt (value : Json) (minValue : Option Int) : Bool :=
  match value with
  | .int n => minValue.all (decide <| · ≤ n)
  | _ => false

/-- `d.get(k)`, with `None` for a missing key. -/
def Fields.getOrNull (d : Fields) (k : String) : Json := (d.get k).getD .null

/-- `value in {names}`: a list or a dictionary has no hash. -/
def inSet (value : Json) (names : List String) : Except PyErr Bool :=
  match value with
  | .str s => .ok ((names.map str).contains s)
  | .list _ => raise .typeError "unhashable type: 'list'" []
  | .dict _ => raise .typeError "unhashable type: 'dict'" []
  | _ => .ok false

def isNonEmptyStr : Json → Bool
  | .str s => s ≠ []
  | _ => false

def isStr (v : Json) : Bool := v.asStr?.isSome

def scriptureRequired : List String :=
  ["schema", "content_hash", "byte_length", "media_type", "title", "language", "source", "source_uri",
    "acquisition_date", "license", "parent_hash", "metadata_hash", "notes_hash"]

/-- The loop over the textual fields of a manifest. -/
def validateTexts (body : Fields) : List String → Except PyErr Unit
  | [] => .ok ()
  | key :: rest => do
    let value ← body.item key
    let ok ← requireString value true
    require (ok = true) (schemaError (key ++ " must be a string or null"))
    validateTexts body rest

def validateScriptureBody (body : Fields) : Except PyErr Unit := do
  require (body.keysWithin (scriptureRequired ++ ["network_id", "schema_version"]))
    (schemaError "scripture body has disallowed keys")
  require (body.hasKeys scriptureRequired) (schemaError "scripture body is missing required keys")
  let schema ← body.item "schema"
  require (schema.eqStr (str "chainbreaker-manifest-v1")) (schemaError "unsupported manifest schema")
  let contentHash ← body.item "content_hash"
  require (isHash contentHash) (schemaError "content_hash must be a 64-char hex SHA-256")
  let metadataHash ← body.item "metadata_hash"
  require (isHash metadataHash) (schemaError "metadata_hash must be a 64-char hex SHA-256")
  let parentHash ← body.item "parent_hash"
  require (isNull parentHash || isHash parentHash)
    (schemaError "parent_hash must be null or a 64-char hex SHA-256")
  let notesHash ← body.item "notes_hash"
  require (isNull notesHash || isHash notesHash)
    (schemaError "notes_hash must be null or a 64-char hex SHA-256")
  let byteLength ← body.item "byte_length"
  require (requireInt byteLength (some 0)) (schemaError "byte_length must be a non-negative integer")
  validateTexts body ["media_type", "title", "language", "source", "source_uri", "license"]
  let acquisitionDate ← body.item "acquisition_date"
  require (isNull acquisitionDate || requireInt acquisitionDate none)
    (schemaError "acquisition_date must be an integer Unix timestamp or null")

def validateGenesisBody (body : Fields) : Except PyErr Unit := do
  require (body.keysWithin ["network_id", "message", "timestamp"] ∧
    body.hasKeys ["network_id", "message", "timestamp"]) (schemaError "genesis body has incorrect keys")
  let networkId ← body.item "network_id"
  require (isStr networkId) (schemaError "network_id must be a string")
  let message ← body.item "message"
  require (isStr message) (schemaError "message must be a string")
  let timestamp ← body.item "timestamp"
  require (requireInt timestamp none) (schemaError "timestamp must be an integer")

/-- The loop over the governance signatures of a body. -/
def validateSignatures : List Json → Except PyErr Unit
  | [] => .ok ()
  | sig :: rest => do
    let d ← orRaise sig.asDict? (schemaError "governance signature must be a dict")
    require (requireInt (d.getOrNull "key_index") (some 0))
      (schemaError "key_index must be a non-negative integer")
    require (isStr (d.getOrNull "signature")) (schemaError "signature must be a string")
    validateSignatures rest

/-- The fields of one governance action. -/
def validateAction (body : Fields) (action : Json) : Except PyErr Unit :=
  if action.eqStr (str "curator_register") then
    require (requireInt (body.getOrNull "activation_height") (some 0))
      (schemaError "activation_height must be a non-negative integer")
  else if action.eqStr (str "curator_rotate") then do
    require (requireInt (body.getOrNull "activation_height") (some 0))
      (schemaError "activation_height must be a non-negative integer")
    require (isHash (body.getOrNull "new_public_key_hex"))
      (schemaError "new_public_key_hex must be a 64-char hex public key")
  else if action.eqStr (str "curator_revoke") then do
    require (requireInt (body.getOrNull "revocation_height") (some 0))
      (schemaError "revocation_height must be a non-negative integer")
    require (isNonEmptyStr (body.getOrNull "reason_code")) (schemaError "reason_code must be a non-empty string")
  else .ok ()

def validateGovernanceBody (body : Fields) : Except PyErr Unit := do
  let action := body.getOrNull "action"
  let known ← inSet action ["curator_register", "curator_rotate", "curator_revoke"]
  require (known = true)
    (schemaError "governance action must be curator_register, curator_rotate, or curator_revoke")
  require (body.hasKeys ["action", "curator_id", "public_key_hex", "previous_registry_root", "network_id",
    "schema_version"]) (schemaError "governance body missing required base fields")
  let curatorId ← body.item "curator_id"
  require (isNonEmptyStr curatorId) (schemaError "curator_id must be a non-empty string")
  let publicKeyHex ← body.item "public_key_hex"
  require (isHash publicKeyHex) (schemaError "public_key_hex must be a 64-char hex Ed25519 public key")
  let previousRegistryRoot ← body.item "previous_registry_root"
  require (isHash previousRegistryRoot) (schemaError "previous_registry_root must be a 64-char hex hash")
  require (isNonEmptyStr (body.getOrNull "network_id")) (schemaError "network_id must be a non-empty string")
  require (((body.get "schema_version").getD (.int 1)).eqOne)
    (schemaError "unsupported governance schema_version")
  validateAction body action
  let sigs ← orRaise (body.getOrNull "governance_signatures").asList?
    (schemaError "governance_signatures must be a non-empty list")
  require (sigs.isEmpty = false) (schemaError "governance_signatures must be a non-empty list")
  validateSignatures sigs

def validateV2Transaction (tx : Json) : Except PyErr Unit := do
  let d ← orRaise tx.asDict? (schemaError "transaction must be a dict")
  let txType := d.getOrNull "type"
  let known ← inSet txType ["genesis", "governance", "scripture"]
  require (known = true) ⟨.schemaError, "unsupported v2 transaction type: %", [txType]⟩
  let body ← orRaise (d.getOrNull "body").asDict? (schemaError "transaction body must be a dict")
  if txType.eqStr (str "genesis") then validateGenesisBody body
  else if txType.eqStr (str "scripture") then validateScriptureBody body
  else validateGovernanceBody body

/-- `try: validate_v2_transaction(tx) except Exception: return False`. -/
def schemaOk (tx : Json) : Bool :=
  match validateV2Transaction tx with
  | .ok _ => true
  | .error _ => false

end ChainBreaker
