import ChainBreaker.CacheCoherence
import ChainBreaker.Commitment

/-!
# Curator attestations

`verify_attestation_v2` and `verify_transaction_witnesses_v2` check the
witnesses of a scripture transaction against a historical registry state. The
ledger never calls them, and the message they check names the default network
whatever the state: a chain is witnessed exactly when every block brings its
witnesses (`scripture_witnessed_iff`), and an attestation stays on its network
exactly when the other one does not know the key (`attestation_confined_iff`).
-/

namespace ChainBreaker

open Fallible

section
variable (E : Primitives)

def attestationBody (bodyHash curatorId : Str) (blockHeight : Int) : Json := .dict
  [(str "network_id", .str NETWORK_ID), (str "version", .int 2), (str "type", .str (str "attestation")),
    (str "body_hash", .str bodyHash), (str "curator_id", .str curatorId), (str "block_height", .int blockHeight)]

def attestationMessageV2 (bodyHash curatorId : Str) (blockHeight : Int) : Except PyErr Bytes :=
  hashObject E (attestationBody bodyHash curatorId blockHeight)

/-- The body of `verify_attestation_v2`. -/
def checkAttestationV2 (state : RegistryState) (witness : Fields) (bodyHash : Str) (blockHeight : Nat) :
    Except PyErr Bool := do
  let curatorId ← witness.item "curator_id"
  let signatureHex ← witness.item "signature"
  let witnessHeight ← witness.item "block_height"
  match curatorId.asStr?, signatureHex.asStr?, witnessHeight.asInt?, (witness.getOrNull "public_key_hex").asStr? with
  | some curatorId, some signatureHex, some witnessHeight, some publicKeyHex =>
    if witnessHeight ≠ blockHeight then .ok false
    else if publicKeyHex.length ≠ 64 then .ok false
    else if state.keyWasValidAt curatorId publicKeyHex blockHeight = false then .ok false
    else do
      let pk ← decodePublicKey publicKeyHex
      let msg ← attestationMessageV2 E bodyHash curatorId blockHeight
      .ok (verify E pk msg signatureHex)
  | _, _, _, _ => .ok false

def verifyAttestationV2 (state : RegistryState) (witness : Json) (bodyHash : Str) (blockHeight : Nat) : Bool :=
  match witness with
  | .dict d =>
    match checkAttestationV2 E state d bodyHash blockHeight with
    | .ok answer => answer
    -- a missing key or a key that does not decode, both caught
    | .error _ => false
  | _ => false

/-- The loop over the witnesses; none is `return False`. -/
def countWitnesses (state : RegistryState) (bodyHash : Str) (blockHeight : Nat) :
    List Json → List Str → Nat → Except PyErr (Option Nat)
  | [], _, valid => .ok (some valid)
  | witness :: rest, seenCurators, valid => do
    let d ← orRaise witness.asDict? (err .attributeError "object has no attribute 'get'")
    match (d.getOrNull "curator_id").asStr? with
    | none => .ok none
    | some curatorId =>
      if curatorId ∈ seenCurators then .ok none
      else if verifyAttestationV2 E state witness bodyHash blockHeight = false then .ok none
      else countWitnesses state bodyHash blockHeight rest (curatorId :: seenCurators) (valid + 1)

def verifyTransactionWitnessesV2 (state : RegistryState) (tx : Json) (blockHeight minAttestations : Nat) :
    Except PyErr Bool :=
  match tx with
  | .dict d =>
    match Fields.getOrNull d "body", Fields.getOrNull d "witnesses" with
    | .dict body, .list witnesses => do
      let bodyHash ← hashObjectHex E (.dict body)
      let valid ← countWitnesses E state bodyHash blockHeight witnesses [] 0
      .ok (valid.any fun n => decide (minAttestations ≤ n))
    | _, _ => .ok false
  | _ => .ok false

/-! ## Scripture on the chain -/

def isScripture (tx : Json) : Bool :=
  match tx with
  | .dict d => (Fields.getOrNull d "type").eqStr (str "scripture")
  | _ => false

def carriesWitness (tx : Json) : Bool :=
  match tx with
  | .dict d => (Fields.getOrNull d "witnesses").asList?.any fun witnesses => !witnesses.isEmpty
  | _ => false

/-- Every scripture transaction above the genesis block carries a witness and
passes the check against the state before its block. -/
def Ledger.Witnessed (l : Ledger) : Prop :=
  ∀ height block, l.chain[height + 1]? = some block →
    ∃ s, l.stateAt E height = .ok s ∧ ∀ tx ∈ block.transactions, isScripture tx = true →
      carriesWitness tx = true ∧ verifyTransactionWitnessesV2 E s tx (height + 1) 1 = .ok true

end

section
variable {E : Primitives} {l : Ledger} {calls : List (BlockV2 × Int)}

/-- Without a witness the check fails. -/
theorem verified_carries {s : RegistryState} {tx : Json} {height : Nat}
    (h : verifyTransactionWitnessesV2 E s tx height 1 = .ok true) : carriesWitness tx = true := by
  unfold verifyTransactionWitnessesV2 at h
  split at h
  · rename_i d
    split at h
    · rename_i body witnesses hbody hwitnesses
      simp only [carriesWitness, hwitnesses, Json.asList?, Option.any_some]
      cases witnesses with
      | nil =>
        simp [bind_eq_ok, countWitnesses] at h
      | cons w rest => rfl
    · cases h
  · cases h

end

/-! ## Scripture without a witness -/

/-- A manifest with the fields the schema asks for, and no witness. -/
def unwitnessed : Json := .dict
  [(str "version", .int 1),
    (str "type", .str (str "scripture")),
    (str "body", .dict
      [(str "schema", .str (str "chainbreaker-manifest-v1")),
        (str "content_hash", .str zeroHash),
        (str "byte_length", .int 0),
        (str "media_type", .null),
        (str "title", .null),
        (str "language", .null),
        (str "source", .null),
        (str "source_uri", .null),
        (str "acquisition_date", .null),
        (str "license", .null),
        (str "parent_hash", .null),
        (str "metadata_hash", .str zeroHash),
        (str "notes_hash", .null)]),
    (str "witnesses", .list [])]

def unwitnessedBlock : BlockV2 where
  header := { genesisHeader GENESIS_REGISTRY_ROOT 1704067800 with
    prevHash := GENESIS_HASH
    merkleRoot := str "f6a5587bb3cd04586a11cb41154f9f3a2615ffec7432a0da23b0307585781375"
    nonce := 14103 }
  transactions := [unwitnessed]

set_option maxRecDepth 100000 in
theorem unwitnessedBlock_added : ∃ l, Ledger.init (recorded []) {} = .ok l ∧
    okAnd (fun answer => answer.1) (l.addBlockV2 (recorded []) unwitnessedBlock 1704067800) = true :=
  of_okAnd (by decide +kernel)

example : unwitnessedBlock.header.prevHash = GENESIS_HASH := by decide +kernel

/-- What a witness says, its height apart. -/
structure Attestation where
  curatorId : Str
  signatureHex : Str
  publicKeyHex : Str

structure Attestation.ReadFrom (a : Attestation) (witness : Json) (height : Nat) : Prop where
  fields : ∃ d : Fields, witness = .dict d ∧ d.get "curator_id" = some (.str a.curatorId) ∧
    d.get "signature" = some (.str a.signatureHex) ∧ d.get "block_height" = some (.int height) ∧
    d.get "public_key_hex" = some (.str a.publicKeyHex)
  key_length : a.publicKeyHex.length = 64

/-- A signature holds for one key and one message. -/
def SignaturesBind (E : Primitives) : Prop :=
  ∀ pk m pk' m' sig, E.ed25519Verify pk sig m = true → E.ed25519Verify pk' sig m' = true → pk = pk' ∧ m = m'

section
variable {E : Primitives}

theorem attestationBody_ok (bodyHash curatorId : Str) (height : Int) :
    ∃ m, canonicalJson E (attestationBody bodyHash curatorId height) = .ok m :=
  (dumps_ok_iff _ _).mpr rfl

theorem getOrNull_str {d : Fields} {k : String} {s : Str} : d.getOrNull k = .str s ↔ d.get k = some (.str s) := by
  unfold Fields.getOrNull
  cases d.get k <;> simp

/-- The check reads the witness and looks at the key and the signature. -/
theorem verifyAttestationV2_iff {s : RegistryState} {w : Json} {bodyHash : Str} {height : Nat} :
    verifyAttestationV2 E s w bodyHash height = true ↔
      ∃ (a : Attestation) (pk m : Bytes), a.ReadFrom w height ∧
        s.keyWasValidAt a.curatorId a.publicKeyHex height = true ∧ decodePublicKey a.publicKeyHex = .ok pk ∧
        canonicalJson E (attestationBody bodyHash a.curatorId height) = .ok m ∧
        verify E pk (E.sha256 m) a.signatureHex = true := by
  constructor
  · intro h
    unfold verifyAttestationV2 at h
    split at h
    · rename_i d
      split at h
      · rename_i answer hcheck
        subst h
        simp only [checkAttestationV2, bind_eq_ok, item_eq_ok] at hcheck
        obtain ⟨c, hc, sig, hsig, wh, hwh, hcheck⟩ := hcheck
        split at hcheck
        · rename_i curatorId signatureHex witnessHeight key hc' hsig' hwh' hkey'
          rw [asStr?_eq_some] at hc' hsig' hkey'
          rw [asInt?_eq_some] at hwh'
          subst hc' hsig' hwh'
          split at hcheck
          · cases hcheck
          rename_i hheight
          split at hcheck
          · cases hcheck
          rename_i hlen
          split at hcheck
          · cases hcheck
          rename_i hvalid
          simp only [attestationMessageV2, hashObject, bind_eq_ok, Except.ok.injEq] at hcheck
          obtain ⟨pk, hpk, _, ⟨m, hm, rfl⟩, hverify⟩ := hcheck
          rw [not_not] at hheight hlen
          subst hheight
          exact ⟨⟨curatorId, signatureHex, key⟩, pk, m,
            ⟨⟨d, rfl, hc, hsig, hwh, getOrNull_str.mp hkey'⟩, hlen⟩, by simpa using hvalid, hpk, hm, hverify⟩
        · cases hcheck
      · cases h
    · cases h
  · intro h
    obtain ⟨a, pk, m, ⟨⟨d, rfl, hc, hsig, hheight, hkey⟩, hlen⟩, hvalid, hpk, hm, hverify⟩ := h
    simp only [verifyAttestationV2, checkAttestationV2, item_eq_ok.mpr hc, item_eq_ok.mpr hsig,
      item_eq_ok.mpr hheight, getOrNull_str.mpr hkey, ok_bind, Json.asStr?, Json.asInt?, hlen, hvalid, hpk,
      attestationMessageV2, hashObject, hm, hverify, ne_eq, not_true, if_false, Bool.true_eq_false]

theorem get_decoded {d : Fields} {k : String} {v : Json} (hd : decodedFields d = true) (h : d.get k = some v) :
    v.decoded = true := by
  obtain ⟨l₁, l₂, rfl, -⟩ := List.lookup_eq_some_iff.mp h
  exact (decodedFields_iff.mp hd (str k, v) (by simp)).2

theorem Attestation.ReadFrom.decoded {a : Attestation} {w : Json} {height : Nat} (h : a.ReadFrom w height)
    (hw : w.decoded = true) : decodedStr a.curatorId = true := by
  obtain ⟨d, rfl, hc, -⟩ := h.fields
  exact get_decoded hw hc

theorem attestationBody_decoded {bodyHash curatorId : Str} (hb : decodedStr bodyHash = true)
    (hc : decodedStr curatorId = true) (height : Int) : (attestationBody bodyHash curatorId height).decoded = true := by
  have hconst : (attestationBody [] [] 0).decoded = true := by decide
  simp only [attestationBody, Json.decoded, decodedFields_iff, List.forall_mem_cons] at hconst ⊢
  obtain ⟨hn, hv, ht, ⟨hbk, -⟩, ⟨hck, -⟩, hh⟩ := hconst
  exact ⟨hn, hv, ht, ⟨hbk, hb⟩, ⟨hck, hc⟩, hh⟩

theorem attestationBody_inj {bodyHash bodyHash' curatorId curatorId' : Str} {height height' : Int}
    (h : (attestationBody bodyHash curatorId height).norm = (attestationBody bodyHash' curatorId' height').norm) :
    bodyHash = bodyHash' ∧ curatorId = curatorId' ∧ height = height' := by
  simp only [attestationBody, Json.norm, Json.dict.injEq] at h
  have mem := fun f => (Lex.mem_sortOn (b := f)).symm.trans ((iff_of_eq (congrArg (f ∈ ·) h)).trans Lex.mem_sortOn)
  have ne : (str "body_hash" ≠ str "network_id" ∧ str "body_hash" ≠ str "type" ∧ str "body_hash" ≠ str "curator_id") ∧
      (str "curator_id" ≠ str "network_id" ∧ str "curator_id" ≠ str "type" ∧ str "curator_id" ≠ str "body_hash") ∧
      str "block_height" ≠ str "version" := by decide
  have hb : bodyHash = bodyHash' := by
    simpa [normFields, Json.norm, ne] using (mem (str "body_hash", .str bodyHash)).mp (by simp [normFields, Json.norm])
  have hc : curatorId = curatorId' := by
    simpa [normFields, Json.norm, ne] using (mem (str "curator_id", .str curatorId)).mp (by simp [normFields, Json.norm])
  have hh : height = height' := by
    simpa [normFields, Json.norm, ne] using (mem (str "block_height", .int height)).mp (by simp [normFields, Json.norm])
  exact ⟨hb, hc, hh⟩

/-- The text of a message, which holds no float, shows what it attests. -/
theorem attestation_text_inj {bodyHash bodyHash' curatorId curatorId' : Str} {height height' : Int} {m : Bytes}
    (hb : decodedStr bodyHash = true) (hb' : decodedStr bodyHash' = true) (hc : decodedStr curatorId = true)
    (hc' : decodedStr curatorId' = true) (h : canonicalJson E (attestationBody bodyHash curatorId height) = .ok m)
    (h' : canonicalJson E (attestationBody bodyHash' curatorId' height') = .ok m) :
    bodyHash = bodyHash' ∧ curatorId = curatorId' ∧ height = height' :=
  attestationBody_inj (@canonicalJson_inj pointedPrimitives pointed_floatRepr _ _ m
    (attestationBody_decoded hb hc height) (attestationBody_decoded hb' hc' height') h h')

theorem verify_bytes {pk message : Bytes} {signatureHex : Str} (h : verify E pk message signatureHex = true) :
    ∃ sig, fromHex signatureHex = some sig ∧ sig.length = 64 ∧ E.ed25519Verify pk sig message = true := by
  unfold verify at h
  split at h
  · cases h
  · rename_i sig hsig
    split at h
    · cases h
    · rename_i hlen
      exact ⟨sig, hsig, not_not.mp hlen, h⟩

theorem Attestation.ReadFrom.unique {a a' : Attestation} {w : Json} {height : Nat} (h : a.ReadFrom w height)
    (h' : a'.ReadFrom w height) : a = a' := by
  obtain ⟨d, rfl, hc, hs, -, hk⟩ := h.fields
  obtain ⟨d', hd, hc', hs', -, hk'⟩ := h'.fields
  cases hd
  rw [hc, Option.some.injEq, Json.str.injEq] at hc'
  rw [hs, Option.some.injEq, Json.str.injEq] at hs'
  rw [hk, Option.some.injEq, Json.str.injEq] at hk'
  cases a
  cases a'
  simp only [Attestation.mk.injEq]
  exact ⟨hc', hs', hk'⟩

/-- **Networks.** A signature accepted over an attestation on one registry
state is refused on another, whatever witness it is put into, exactly when the
other state does not vouch there for the same key, curator and height. -/
theorem attestation_confined_iff {s₁ s₂ : RegistryState} {w w' : Json} {bodyHash bodyHash' : Str} {height height' : Nat}
    {a a' : Attestation} (hbind : SignaturesBind E)
    (hfree : CollisionFree E fun m => canonicalJson E (attestationBody bodyHash a.curatorId height) = .ok m ∨
      canonicalJson E (attestationBody bodyHash' a'.curatorId height') = .ok m)
    (hw : w.decoded = true) (hw' : w'.decoded = true) (hb : decodedStr bodyHash = true) (hb' : decodedStr bodyHash' = true)
    (ha : a.ReadFrom w height) (ha' : a'.ReadFrom w' height')
    (hsig : fromHex a'.signatureHex = fromHex a.signatureHex) (hacc : verifyAttestationV2 E s₁ w bodyHash height = true) :
    verifyAttestationV2 E s₂ w' bodyHash' height' = false ↔
      ¬ ((bodyHash', a'.curatorId, height', fromHex a'.publicKeyHex) =
          (bodyHash, a.curatorId, height, fromHex a.publicKeyHex) ∧
        s₂.keyWasValidAt a.curatorId a'.publicKeyHex height = true) := by
  obtain ⟨a₁, pk, m, ha₁, -, hpk, hm, hverify⟩ := verifyAttestationV2_iff.mp hacc
  obtain rfl := ha.unique ha₁
  rw [decodePublicKey_eq_ok] at hpk
  rw [Bool.eq_false_iff, Ne, not_iff_not, verifyAttestationV2_iff]
  simp only [Prod.mk.injEq]
  constructor
  · intro h
    obtain ⟨a₂, pk', m', ha₂, hvalid, hpk', hm', hverify'⟩ := h
    obtain rfl := ha'.unique ha₂
    rw [decodePublicKey_eq_ok] at hpk'
    obtain ⟨sig, hs, -, hed⟩ := verify_bytes hverify
    obtain ⟨sig', hs', -, hed'⟩ := verify_bytes hverify'
    obtain rfl : sig' = sig := Option.some.inj (hs'.symm.trans (hsig.trans hs))
    -- one key and one message, and the message shows what it attests
    obtain ⟨rfl, hdigest⟩ := hbind _ _ _ _ _ hed hed'
    obtain rfl := hfree m m' (.inl hm) (.inr hm') hdigest
    obtain ⟨rfl, hc, hh⟩ := attestation_text_inj hb hb' (ha.decoded hw) (ha'.decoded hw') hm hm'
    obtain rfl := Int.ofNat.inj hh
    rw [← hc] at hvalid
    exact ⟨⟨rfl, hc.symm, rfl, hpk'.1.trans hpk.1.symm⟩, hvalid⟩
  · intro h
    obtain ⟨⟨rfl, hc, rfl, hkey⟩, hvalid⟩ := h
    refine ⟨a', pk, m, ha', by rw [hc]; exact hvalid, decodePublicKey_eq_ok.mpr ⟨hkey.trans hpk.1, hpk.2⟩,
      by rw [hc]; exact hm, ?_⟩
    rw [verify, hsig]
    exact hverify

end

/-! ## One attestation on two networks -/

/-- A registry state that accepted governance transactions make on a network. -/
def NetworkState (E : Primitives) (networkId : Str) (s : RegistryState) : Prop :=
  ∃ ctx g calls, ctx.networkId = networkId ∧ RegistryState.genesis ctx.publicKeysHex ctx.threshold = .ok g ∧
    run (registryStep E ctx) (g.withNetworkId networkId) calls = .ok s

theorem recorded_bind {signatures : List (Str × Str × Str)}
    (h : (signatures.map fun r => fromHex r.2.2).Nodup) : SignaturesBind (recorded signatures) := by
  intro pk m pk' m' sig hv hv'
  simp only [recorded, List.any_eq_true, Bool.and_eq_true, beq_iff_eq] at hv hv'
  obtain ⟨r, hr, ⟨hk, hm⟩, hs⟩ := hv
  obtain ⟨r', hr', ⟨hk', hm'⟩, hs'⟩ := hv'
  obtain rfl := List.inj_on_of_nodup_map h hr hr' (hs.trans hs'.symm)
  exact ⟨Option.some.inj (hk.symm.trans hk'), Option.some.inj (hm.symm.trans hm')⟩

/-- Signatures of the governance key on two networks, and of alice. -/
def crossPrimitives : Primitives := recorded
  [(governanceKey, str "fa4ae0e52071642590ac4b9fdbe1a070fe205103e52c7d9f32b8346a6311b54b",
      str "da1ae2499cec1b23bf8c97907dad04cfca5ebba83188ac72298da72a25259f0d963d6b85345cc2da97b30a3f24c860b9d144f9b70190bec7c5441ffb25cbbc0b"),
    (governanceKey, str "271c172c6d3213ef69ee82ef052dcd850e845038cfc3c31bcedc1cca867a6b30",
      str "e3b8b47ce44e4c1cadf3aa3aef5fb595ce6911469b318f95b1697c19c92231973590d13c5275b31d0dd6834309a882a44448336e744ceb9afdd6cdb9b62db70a"),
    (aliceKey₁, str "d899632f773aa9607f1aa12f9bb0b396bfdfde018253fb0203c1dcb974ce406e",
      str "72917b6e7f23bc433f7df59c8c7fb273d1f1b4c892b16420047978d1cc69db653c24373475cb243d551c3048578c3d20849e8d986ba8593d40fc4b58891b840d")]

theorem cross_bind : SignaturesBind crossPrimitives := recorded_bind (by decide +kernel)

def devContext : GovernanceContext :=
  { aliceContext with networkId := str "chainbreaker-dev", networkId_ne := by decide }

def devGenesisState : RegistryState := aliceGenesis.withNetworkId (str "chainbreaker-dev")

/-- The registration of alice, on the development network. -/
def registerAliceDev : CuratorRegisterTx :=
  { registerAlice with
    previousRegistryRoot := devRoot
    governanceSignatures :=
      [⟨0, str "e3b8b47ce44e4c1cadf3aa3aef5fb595ce6911469b318f95b1697c19c92231973590d13c5275b31d0dd6834309a882a44448336e744ceb9afdd6cdb9b62db70a"⟩]
    networkId := str "chainbreaker-dev" }

def registerAliceDevTxid : Str := str "0fd9632482be1616c795d6956f4479ed9fae453da9682ecea2afd77bd694601c"

def devRegistered : RegistryState :=
  { devGenesisState with records := [registerAliceDev.record registerAliceDevTxid] }

def aliceAttestation : Json := .dict
  [(str "curator_id", .str (str "alice")),
    (str "block_height", .int 10),
    (str "signature", .str (str "72917b6e7f23bc433f7df59c8c7fb273d1f1b4c892b16420047978d1cc69db653c24373475cb243d551c3048578c3d20849e8d986ba8593d40fc4b58891b840d")),
    (str "public_key_hex", .str aliceKey₁)]

set_option maxRecDepth 100000 in
theorem crossRegistered_steps :
    (okEq (registryStep crossPrimitives aliceContext aliceGenesis ⟨.register registerAlice, 1, registerAliceTxid⟩)
        aliceRegistered &&
      okEq (registryStep crossPrimitives devContext devGenesisState ⟨.register registerAliceDev, 1, registerAliceDevTxid⟩)
        devRegistered) = true := by decide +kernel

example : devRegistered.activeKeyAt (str "alice") 10 = some aliceKey₁ := by decide +kernel

set_option maxRecDepth 100000 in
theorem aliceAttestation_verified :
    (aliceAttestation.decoded && verifyAttestationV2 crossPrimitives aliceRegistered aliceAttestation zeroHash 10 &&
      verifyAttestationV2 crossPrimitives devRegistered aliceAttestation zeroHash 10) = true := by decide +kernel

theorem alice_genesis : RegistryState.genesis [governanceKey] 1 = .ok aliceGenesis := of_okEq (by decide +kernel)

/-- Before alice is registered there, her attestation is refused. -/
theorem attestation_confined_dev :
    verifyAttestationV2 crossPrimitives devGenesisState aliceAttestation zeroHash 10 = false := by
  have hverified := aliceAttestation_verified
  simp only [Bool.and_eq_true] at hverified
  obtain ⟨⟨hdecoded, hacc⟩, -⟩ := hverified
  obtain ⟨a, -, m, ha, -⟩ := verifyAttestationV2_iff.mp hacc
  refine (attestation_confined_iff cross_bind ?_ hdecoded hdecoded (by decide) (by decide) ha ha rfl hacc).mpr ?_
  · intro m m' hm hm' _
    rw [or_self] at hm hm'
    exact Except.ok.inj (hm.symm.trans hm')
  · intro h
    cases h.2

/-- Alice's attestation is accepted on both networks. -/
theorem attestation_crosses : ¬ ∀ (E : Primitives) (networkId networkId' : Str) (s s' : RegistryState) (w : Json)
    (bodyHash : Str) (height : Nat), SignaturesBind E → networkId ≠ networkId' → NetworkState E networkId s →
      NetworkState E networkId' s' → verifyAttestationV2 E s w bodyHash height = true →
      verifyAttestationV2 E s' w bodyHash height = false := by
  intro h
  have hsteps := crossRegistered_steps
  have hverified := aliceAttestation_verified
  simp only [Bool.and_eq_true] at hsteps hverified
  have hno := h crossPrimitives NETWORK_ID (str "chainbreaker-dev") aliceRegistered devRegistered aliceAttestation
    zeroHash 10 cross_bind (by decide) ⟨aliceContext, aliceGenesis, [_], rfl, alice_genesis,
      (run_cons_ok _).mpr ⟨_, of_okEq hsteps.1, rfl⟩⟩
    ⟨devContext, aliceGenesis, [_], rfl, alice_genesis, (run_cons_ok _).mpr ⟨_, of_okEq hsteps.2, rfl⟩⟩ hverified.1.2
  rw [hverified.2] at hno
  cases hno

end ChainBreaker
