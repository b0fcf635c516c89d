import ChainBreaker.KeyHistory

/-!
# When a rotation takes effect

The lookups take the record of a curator that activates last, and of two that
activate together the first. A rotation puts the replaced record before its
successor: so the new key comes into force, and is the one that the next
rotation or revocation must carry, exactly when it activates after the old one
(`rotation_takes_effect_iff`).
-/

namespace ChainBreaker

open Fallible

/-! ## What the next mutation carries -/

/-- A rotation or revocation of the curator. -/
def GovernanceTx.mutates (c : Str) : GovernanceTx → Bool
  | .register _ => false
  | .rotate tx => tx.curatorId == c
  | .revoke tx => tx.curatorId == c

section
variable (E : Primitives)

/-- The signature holds under the key, for the body without its witnesses. -/
def SignedBy (body : Fields) (signatureHex key : Str) : Prop :=
  ∃ message pk, governanceMessage E (body.without ["governance_signatures", "curator_signature"]) NETWORK_ID = .ok message ∧
    decodePublicKey key = .ok pk ∧ verify E pk message signatureHex = true

/-- The transaction names the key as the current one and is signed by it. -/
def GovernanceTx.CarriedBy (key : Str) : GovernanceTx → Prop
  | .register _ => False
  | .rotate tx => tx.publicKeyHex = key ∧ SignedBy E tx.toDict tx.curatorSignatureHex key
  | .revoke tx => tx.publicKeyHex = key ∧ SignedBy E tx.toDict tx.curatorSignatureHex key

/-- From the state on, the next rotation or revocation of the curator is accepted only under the key. -/
def NextCarriedBy (ctx : GovernanceContext) (s : RegistryState) (c key : Str) : Prop :=
  ∀ (between : List RegistryCall) (call : RegistryCall) (t t' : RegistryState),
    run (registryStep E ctx) s between = .ok t → (∀ b ∈ between, b.tx.mutates c = false) →
    call.tx.mutates c = true → registryStep E ctx t call = .ok t' → call.tx.CarriedBy E key

end

/-! ## Steps -/

section
variable {E : Primitives} {ctx : GovernanceContext} {s s' : RegistryState} {c : Str}

/-- Other transactions leave the records of a registered curator alone. -/
theorem recordsOf_step {height : Nat} {txid : Str} {tx : GovernanceTx} (ha : Accepted s height txid s' tx)
    (hother : tx.mutates c = false) (hc : s.recordsOf c ≠ []) : s'.recordsOf c = s.recordsOf c := by
  cases ha with
  | register tx _ hnil _ hw _ =>
    rw [hw c, if_neg]
    intro he
    rw [he] at hc
    exact hc hnil
  | rotate tx old _ _ _ _ hw _ =>
    rw [hw c, if_neg]
    intro he
    rw [he] at hother
    exact absurd hother (by simp [GovernanceTx.mutates])
  | revoke tx old _ _ _ _ _ hw _ =>
    rw [hw c, if_neg]
    intro he
    rw [he] at hother
    exact absurd hother (by simp [GovernanceTx.mutates])

theorem recordsOf_run {between : List RegistryCall} (h : run (registryStep E ctx) s between = .ok s')
    (hother : ∀ b ∈ between, b.tx.mutates c = false) (hc : s.recordsOf c ≠ []) : s'.recordsOf c = s.recordsOf c := by
  refine run_inv (I := fun u => u.recordsOf c = s.recordsOf c) (registryStep E ctx) ?_ rfl h
  intro call hcall u u' hu hstep
  rw [recordsOf_step (applyRegistryTransaction_ok E hstep) (hother call hcall) (hu.symm ▸ hc), hu]

theorem signedBy_of_verified {r : CuratorRecord} {body : Fields} {signatureHex : Str} {u : Unit}
    (h : verifyCuratorSignature E r (body.without ["governance_signatures", "curator_signature"]) signatureHex = .ok u) :
    SignedBy E body signatureHex r.publicKeyHex := by
  simp only [verifyCuratorSignature, bind_eq_ok, require_eq_ok] at h
  obtain ⟨message, hmessage, pk, hpk, hverify⟩ := h
  exact ⟨message, pk, hmessage, hpk, hverify⟩

/-- An accepted rotation or revocation carries the key of the record that the lookup takes. -/
theorem carriedBy_current {call : RegistryCall} {r : CuratorRecord} (hmut : call.tx.mutates c = true)
    (hid : s.byId c = some r) (h : registryStep E ctx s call = .ok s') : call.tx.CarriedBy E r.publicKeyHex := by
  have current : ∀ {key : Str} {old : CuratorRecord}, requireActiveRecord s c key = .ok old →
      old = r ∧ key = r.publicKeyHex := fun hold => by
    obtain ⟨hold, hkey⟩ := requireActiveRecord_ok hold
    rw [hid, Option.some.injEq] at hold
    subst hold
    exact ⟨rfl, hkey.symm⟩
  obtain ⟨tx, height, txid⟩ := call
  cases tx with
  | register tx => cases hmut
  | rotate tx =>
    have hc : tx.curatorId = c := by simpa [GovernanceTx.mutates] using hmut
    simp only [registryStep, applyRegistryTransaction, applyRotate, bind_eq_ok] at h
    obtain ⟨_, -, _, -, _, -, _, -, old, hold, _, hsig, -⟩ := h
    obtain ⟨rfl, hkey⟩ := current (hc ▸ hold)
    exact ⟨hkey, signedBy_of_verified hsig⟩
  | revoke tx =>
    have hc : tx.curatorId = c := by simpa [GovernanceTx.mutates] using hmut
    simp only [registryStep, applyRegistryTransaction, applyRevoke, bind_eq_ok] at h
    obtain ⟨_, -, _, -, _, -, _, -, old, hold, _, hsig, -⟩ := h
    obtain ⟨rfl, hkey⟩ := current (hc ▸ hold)
    exact ⟨hkey, signedBy_of_verified hsig⟩

/-! ## The rotation -/

theorem byId_rotated {tx : CuratorRotateTx} {old : CuratorRecord} {txid : Str}
    (hw : s.Rewrote s' tx.curatorId [old.closedAt tx.activationHeight txid, tx.record old txid]) :
    s'.byId tx.curatorId = some
      (if old.activationHeight < tx.activationHeight then tx.record old txid else old.closedAt tx.activationHeight txid) := by
  have hrecords := hw tx.curatorId
  rw [if_pos rfl] at hrecords
  exact byId_two hrecords

/-- After an accepted rotation the new key is in force from its activation height on, and the next
rotation or revocation of the curator must carry it, exactly if the replaced record activates before it. -/
theorem rotation_takes_effect_iff {tx : CuratorRotateTx} {height : Nat} {txid : Str}
    (hrot : registryStep E ctx s ⟨.rotate tx, height, txid⟩ = .ok s') :
    ((∀ h, tx.activationHeight ≤ h → s'.activeKeyAt tx.curatorId h = some tx.newPublicKeyHex) ∧
        NextCarriedBy E ctx s' tx.curatorId tx.newPublicKeyHex) ↔
      ∃ old, s.byId tx.curatorId = some old ∧ old.activationHeight < tx.activationHeight := by
  cases applyRegistryTransaction_ok E hrot with
  | rotate _ old _ hold _ _ hw _ =>
    have hid := byId_rotated hw
    constructor
    · rintro ⟨hactive, -⟩
      refine ⟨old, hold, ?_⟩
      by_contra hlate
      rw [if_neg hlate] at hid
      -- the replaced record is taken, and it ends where the new one begins
      have hkey := hactive tx.activationHeight le_rfl
      have hended : (old.closedAt tx.activationHeight txid).isActiveAt tx.activationHeight = false := by
        rw [Bool.eq_false_iff, Ne, isActiveAt_iff]
        exact fun hopen => Nat.lt_irrefl _ (hopen.2 _ rfl)
      simp [RegistryState.activeKeyAt, hid, hended] at hkey
    · rintro ⟨old', hold', hlater⟩
      rw [hold, Option.some.injEq] at hold'
      subst hold'
      rw [if_pos hlater] at hid
      constructor
      · intro h hh
        have hopen : (tx.record old txid).isActiveAt h = true := isActiveAt_iff.mpr ⟨hh, by rintro _ ⟨⟩⟩
        simp only [RegistryState.activeKeyAt, hid]
        rw [if_pos hopen]
        rfl
      · intro between call t t' hbetween hother hmut hstep
        have hrecords : s'.recordsOf tx.curatorId ≠ [] := by
          rw [hw tx.curatorId, if_pos rfl]
          exact List.cons_ne_nil _ _
        have hsame := recordsOf_run hbetween hother hrecords
        have hid' : t.byId tx.curatorId = some (tx.record old txid) := by
          rw [RegistryState.byId, hsame, ← RegistryState.byId, hid]
        exact carriedBy_current hmut hid' hstep

end

theorem rotation_takes_effect_alice :
    (∀ h, 20 ≤ h → aliceRotated.activeKeyAt (str "alice") h = some aliceKey₂) ∧
      NextCarriedBy alicePrimitives aliceContext aliceRotated (str "alice") aliceKey₂ :=
  (rotation_takes_effect_iff aliceRotated_step).mpr ⟨aliceRecord₁, byId_one rfl, by decide⟩

/-! ## A rotation that is overtaken -/

def hastyPrimitives : Primitives := recorded
  [(governanceKey, str "fa4ae0e52071642590ac4b9fdbe1a070fe205103e52c7d9f32b8346a6311b54b",
      str "da1ae2499cec1b23bf8c97907dad04cfca5ebba83188ac72298da72a25259f0d963d6b85345cc2da97b30a3f24c860b9d144f9b70190bec7c5441ffb25cbbc0b"),
    (governanceKey, str "2520b10851058e9a15b66095373ff7609d6b78954e1ce55328d02d5d1d2f3481",
      str "e1841913a91398f373589ffbb5598063ae89a7a5011c8f1d8918a72012b515d268a7e9ce0d6987af1ee207b28f69f3d2cb2ed040cb17db2d0cc0a64b95365d01"),
    (aliceKey₁, str "2520b10851058e9a15b66095373ff7609d6b78954e1ce55328d02d5d1d2f3481",
      str "e4fcefab2b9867010c98f93046d4363c92960e7ba0ca484ac8e120c2c87a54cc09ac1ef777ad0b6458590083434614cac0f7a73b0181a39229940120f200bd02")]

/-- Alice's key activates at 10, and before that she rotates to one that activates at 5. -/
def rotateHastily : CuratorRotateTx where
  curatorId := str "alice"
  publicKeyHex := aliceKey₁
  newPublicKeyHex := aliceKey₂
  activationHeight := 5
  displayMetadataHash := none
  previousRegistryRoot := str "d4c087a3cf67412acbc5575331cc1347c9b275f5bf0677b580dbcfb46efb7345"
  governanceSignatures :=
    [⟨0, str "e1841913a91398f373589ffbb5598063ae89a7a5011c8f1d8918a72012b515d268a7e9ce0d6987af1ee207b28f69f3d2cb2ed040cb17db2d0cc0a64b95365d01"⟩]
  curatorSignatureHex :=
    str "e4fcefab2b9867010c98f93046d4363c92960e7ba0ca484ac8e120c2c87a54cc09ac1ef777ad0b6458590083434614cac0f7a73b0181a39229940120f200bd02"
  networkId := NETWORK_ID
  schemaVersion := 1

def rotateHastilyTxid : Str := str "c79c1cd8e82a69885999576de2fb114c63df4572124e38f31350592a177624cf"

def hastilyRotated : RegistryState :=
  { aliceGenesis with
    records := [aliceRecord₁.closedAt 5 rotateHastilyTxid, rotateHastily.record aliceRecord₁ rotateHastilyTxid] }

set_option maxRecDepth 100000 in
theorem hastilyRotated_run : run (registryStep hastyPrimitives aliceContext) aliceGenesis
    [⟨.register registerAlice, 1, registerAliceTxid⟩, ⟨.rotate rotateHastily, 2, rotateHastilyTxid⟩] =
    .ok hastilyRotated := of_okEq (by decide +kernel)

example : hastilyRotated.activeKeyAt (str "alice") 5 = none := by decide +kernel

/-- Alice, with a key about to activate and a rotation accepted, has no key in force at all. -/
theorem rotation_without_effect : ¬ ∀ (E : Primitives) (ctx : GovernanceContext) (g s s' : RegistryState)
    (calls : List RegistryCall) (tx : CuratorRotateTx) (height : Nat) (txid : Str), IsGenesisState g →
      run (registryStep E ctx) g calls = .ok s → registryStep E ctx s ⟨.rotate tx, height, txid⟩ = .ok s' →
      (∀ h, tx.activationHeight ≤ h → s'.activeKeyAt tx.curatorId h = some tx.newPublicKeyHex) ∧
        NextCarriedBy E ctx s' tx.curatorId tx.newPublicKeyHex := by
  intro h
  obtain ⟨s, hfirst, hrest⟩ := (run_cons_ok _).mp hastilyRotated_run
  obtain ⟨s', hrot, hnil⟩ := (run_cons_ok _).mp hrest
  cases hnil
  have hkey := (h _ _ _ _ _ _ _ _ _ aliceGenesis_isGenesisState ((run_cons_ok _).mpr ⟨_, hfirst, run_nil _ _⟩) hrot).1
    5 le_rfl
  exact absurd hkey (by decide)

end ChainBreaker
