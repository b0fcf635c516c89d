import ChainBreaker.Registry

/-!
# What an accepted governance transaction does

One inversion lemma says everything an accepted transaction does: its guards,
the records it leaves to its own curator, and that every other curator's
records stay. The records of a curator then only ever take three shapes:
none, one record, or a replaced record followed by its successor.
-/

namespace ChainBreaker

open Fallible

/-! ## Records of one curator -/

theorem recordsOf_curator {s : RegistryState} {c : Str} {r : CuratorRecord} (h : r ∈ s.recordsOf c) :
    r.curatorId = c := by
  simpa using (List.mem_filter.mp h).2

theorem byId_mem {s : RegistryState} {c : Str} {r : CuratorRecord} (h : s.byId c = some r) :
    r ∈ s.recordsOf c := List.argmax_mem h

theorem sortRecords_ok {l l' : List CuratorRecord} (h : sortRecords l = .ok l') :
    l' = Lex.sortOn utf8Key (fun r => utf8 r.curatorId) l ∧
      ∀ r ∈ l, r.curatorId.any isSurrogate = false := by
  unfold sortRecords at h
  split at h
  · cases h
  · rename_i hf
    cases h
    exact ⟨rfl, fun r hr => by simpa using List.find?_eq_none.mp hf r hr⟩

theorem sortRecords_filter {l l' : List CuratorRecord} (h : sortRecords l = .ok l') (c : Str) :
    l'.filter (fun r => r.curatorId == c) = l.filter fun r => r.curatorId == c := by
  rw [(sortRecords_ok h).1]
  exact Lex.filter_sortOn _ _ _ (fun a b ha hb => by simp_all) l

theorem sortRecords_mem {l l' : List CuratorRecord} (h : sortRecords l = .ok l') {r : CuratorRecord} :
    r ∈ l' ↔ r ∈ l := by
  rw [(sortRecords_ok h).1]; exact Lex.mem_sortOn

/-- Dropping the records of `d` and adding others of `d` touches no other curator. -/
theorem filter_replace (l new : List CuratorRecord) {d : Str} (hnew : ∀ r ∈ new, r.curatorId = d)
    (c : Str) :
    (l.filter (fun r => r.curatorId != d) ++ new).filter (fun r => r.curatorId == c) =
      if c = d then new else l.filter fun r => r.curatorId == c := by
  rw [List.filter_append, List.filter_filter]
  split
  · rename_i h
    subst h
    have hold : l.filter (fun r => r.curatorId == c && r.curatorId != c) = [] := by
      rw [List.filter_eq_nil_iff]; intro r _; simp
    rw [hold, List.filter_eq_self.mpr (fun r hr => by simp [hnew r hr])]
    rfl
  · rename_i h
    have hnone : new.filter (fun r => r.curatorId == c) = [] := by
      rw [List.filter_eq_nil_iff]; intro r hr; simp [hnew r hr, Ne.symm h]
    rw [hnone, List.append_nil]
    apply List.filter_congr
    intro r _
    by_cases hr : r.curatorId = c
    · simp [hr, h]
    · simp [hr]

/-! ## The records an accepted transaction writes -/

def CuratorRegisterTx.record (tx : CuratorRegisterTx) (txid : Str) : CuratorRecord :=
  ⟨tx.curatorId, tx.publicKeyHex, tx.activationHeight, none, none, txid, none⟩

/-- A record closed at `height` by the transaction `txid`. -/
def CuratorRecord.closedAt (r : CuratorRecord) (height : Nat) (txid : Str) : CuratorRecord :=
  { r with revocationHeight := some height, latestRotationTxid := some txid }

def CuratorRotateTx.record (tx : CuratorRotateTx) (old : CuratorRecord) (txid : Str) : CuratorRecord :=
  ⟨tx.curatorId, tx.newPublicKeyHex, tx.activationHeight, none, some old.publicKeyHex,
    old.registrationTxid, some txid⟩

/-- The fields of a state other than its records. -/
def RegistryState.frame (s : RegistryState) : Nat × Str × List Str × Nat :=
  (s.governanceVersion, s.networkId, s.governanceKeys, s.threshold)

/-- The records of every curator after those of `d` became `new`. -/
def RegistryState.Rewrote (s s' : RegistryState) (d : Str) (new : List CuratorRecord) : Prop :=
  ∀ c, s'.recordsOf c = if c = d then new else s.recordsOf c

inductive Accepted (s : RegistryState) (height : Nat) (txid : Str) (s' : RegistryState) : GovernanceTx → Prop
  | register (tx : CuratorRegisterTx) :
      height < tx.activationHeight → s.recordsOf tx.curatorId = [] →
      (∀ r ∈ s.records, r.publicKeyHex ≠ tx.publicKeyHex) →
      s.Rewrote s' tx.curatorId [tx.record txid] → s'.frame = s.frame →
      Accepted s height txid s' (.register tx)
  | rotate (tx : CuratorRotateTx) (old : CuratorRecord) :
      height < tx.activationHeight → s.byId tx.curatorId = some old →
      old.publicKeyHex = tx.publicKeyHex → tx.newPublicKeyHex ≠ old.publicKeyHex →
      s.Rewrote s' tx.curatorId [old.closedAt tx.activationHeight txid, tx.record old txid] →
      s'.frame = s.frame → Accepted s height txid s' (.rotate tx)
  | revoke (tx : CuratorRevokeTx) (old : CuratorRecord) :
      height < tx.revocationHeight → s.byId tx.curatorId = some old →
      old.publicKeyHex = tx.publicKeyHex → old.revocationHeight = none →
      old.activationHeight ≤ tx.revocationHeight →
      s.Rewrote s' tx.curatorId [old.closedAt tx.revocationHeight txid] →
      s'.frame = (GOVERNANCE_SCHEMA_VERSION, NETWORK_ID, [], 0) → Accepted s height txid s' (.revoke tx)

section
variable (E : Primitives) {s s' : RegistryState} {height : Nat} {txid : Str} {ctx : GovernanceContext}

theorem requireNotRegistered_ok {c key : Str} {u : Unit} (h : requireNotRegistered s c key = .ok u) :
    (∀ r ∈ s.records, r.curatorId ≠ c) ∧ ∀ r ∈ s.records, r.publicKeyHex ≠ key := by
  unfold requireNotRegistered at h
  split at h
  · rename_i hf
    have hall := List.find?_eq_none.mp hf
    constructor <;> intro r hr he <;> exact hall r hr (by simp [he])
  · split at h <;> cases h

theorem requireActiveRecord_ok {c key : Str} {r : CuratorRecord}
    (h : requireActiveRecord s c key = .ok r) : s.byId c = some r ∧ r.publicKeyHex = key := by
  simp only [requireActiveRecord, bind_eq_ok, orRaise_eq_ok, require_eq_ok] at h
  obtain ⟨_, hb, _, hk, h⟩ := h
  cases h
  exact ⟨hb, hk⟩

theorem applyRegister_ok {tx : CuratorRegisterTx} (h : applyRegister E s tx height txid ctx = .ok s') :
    Accepted s height txid s' (.register tx) := by
  simp only [applyRegister, bind_eq_ok, require_eq_ok] at h
  obtain ⟨_, -, _, hact, _, -, _, -, _, hnot, l, hsort, h⟩ := h
  obtain ⟨hc, hk⟩ := requireNotRegistered_ok hnot
  have hnil : s.recordsOf tx.curatorId = [] := by
    unfold RegistryState.recordsOf
    rw [List.filter_eq_nil_iff]
    intro r hr; simpa using hc r hr
  cases h
  refine .register tx hact hnil hk (fun c => ?_) rfl
  rw [RegistryState.recordsOf, sortRecords_filter hsort, List.filter_append]
  split
  · rename_i h
    subst h
    rw [← RegistryState.recordsOf, hnil]
    simp [CuratorRegisterTx.record]
  · rename_i h
    simp [RegistryState.recordsOf, Ne.symm h]

theorem applyRotate_ok {tx : CuratorRotateTx} (h : applyRotate E s tx height txid ctx = .ok s') :
    Accepted s height txid s' (.rotate tx) := by
  simp only [applyRotate, bind_eq_ok, require_eq_ok] at h
  obtain ⟨_, -, _, hact, _, -, _, -, old, hold, _, -, _, hne, _, -, l, hsort, h⟩ := h
  obtain ⟨hid, hkey⟩ := requireActiveRecord_ok hold
  cases h
  refine .rotate tx old hact hid hkey hne (fun c => ?_) rfl
  rw [RegistryState.recordsOf, sortRecords_filter hsort, filter_replace]
  · rfl
  · have := recordsOf_curator (byId_mem hid)
    simp [this]

theorem applyRevoke_ok {tx : CuratorRevokeTx} (h : applyRevoke E s tx height txid ctx = .ok s') :
    Accepted s height txid s' (.revoke tx) := by
  simp only [applyRevoke, bind_eq_ok, require_eq_ok] at h
  obtain ⟨_, -, _, hrev, _, -, _, -, old, hold, _, -, _, hnone, _, hle, l, hsort, h⟩ := h
  obtain ⟨hid, hkey⟩ := requireActiveRecord_ok hold
  cases h
  refine .revoke tx old hrev hid hkey hnone hle (fun c => ?_) rfl
  rw [RegistryState.recordsOf, sortRecords_filter hsort, filter_replace]
  · rfl
  · have := recordsOf_curator (byId_mem hid)
    simp [this]

/-- **Inversion.** Everything an accepted transaction does to the state. -/
theorem applyRegistryTransaction_ok {tx : GovernanceTx}
    (h : applyRegistryTransaction E s tx height txid ctx = .ok s') : Accepted s height txid s' tx := by
  cases tx with
  | register tx => exact applyRegister_ok E h
  | rotate tx => exact applyRotate_ok E h
  | revoke tx => exact applyRevoke_ok E h

end

/-! ## Runs -/

/-- One call of the reducer by the ledger. -/
structure RegistryCall where
  tx : GovernanceTx
  blockHeight : Nat
  txid : Str

def registryStep (E : Primitives) (ctx : GovernanceContext) (s : RegistryState) (call : RegistryCall) :
    Except PyErr RegistryState :=
  applyRegistryTransaction E s call.tx call.blockHeight call.txid ctx

/-- A bootstrap state: no curators, and the keys and threshold of a ceremony. -/
def IsGenesisState (g : RegistryState) : Prop :=
  ∃ keys threshold g₀ networkId,
    RegistryState.genesis keys threshold = .ok g₀ ∧ g = g₀.withNetworkId networkId

theorem genesis_ok {keys : List Str} {threshold : Nat} {g : RegistryState}
    (h : RegistryState.genesis keys threshold = .ok g) :
    g.records = [] ∧ g.governanceVersion = GOVERNANCE_SCHEMA_VERSION ∧ g.networkId = NETWORK_ID ∧
      g.governanceKeys = Lex.sortOn charKey id keys ∧ g.threshold = threshold ∧
      1 ≤ threshold ∧ threshold ≤ keys.length := by
  simp only [RegistryState.genesis, bind_eq_ok, require_eq_ok] at h
  obtain ⟨_, -, _, ht, _, -, h⟩ := h
  cases h
  exact ⟨rfl, rfl, rfl, rfl, rfl, ht.1, ht.2⟩

theorem IsGenesisState.recordsOf {g : RegistryState} (hg : IsGenesisState g) (c : Str) :
    g.recordsOf c = [] := by
  obtain ⟨keys, t, g₀, n, h, rfl⟩ := hg
  simp [RegistryState.recordsOf, RegistryState.withNetworkId, (genesis_ok h).1]

theorem IsGenesisState.keys_ne {g : RegistryState} (hg : IsGenesisState g) : g.governanceKeys ≠ [] := by
  obtain ⟨keys, t, g₀, n, h, rfl⟩ := hg
  obtain ⟨-, -, -, hk, -, h₁, h₂⟩ := genesis_ok h
  intro hnil
  have hlen := (Lex.sortOn_perm charKey id keys).length_eq
  rw [← hk, show g₀.governanceKeys = [] from hnil] at hlen
  simp at hlen
  omega

/-! ## The shape of a curator's records -/

/-- A record left by an accepted transaction: in force after some block, and
not replacing its own key. -/
def CuratorRecord.Sound (r : CuratorRecord) : Prop :=
  0 < r.activationHeight ∧ r.previousKeyHex ≠ some r.publicKeyHex

/-- `n` replaced `x`. -/
structure Succeeds (x n : CuratorRecord) : Prop where
  closed : x.revocationHeight = some n.activationHeight
  opened : n.revocationHeight = none
  previous : n.previousKeyHex = some x.publicKeyHex
  fresh : n.publicKeyHex ≠ x.publicKeyHex

inductive Shape : List CuratorRecord → Prop
  | none : Shape []
  | one (r : CuratorRecord) : r.Sound → Shape [r]
  | two (x n : CuratorRecord) : x.Sound → n.Sound → Succeeds x n → Shape [x, n]

def Shaped (s : RegistryState) : Prop := ∀ c, Shape (s.recordsOf c)

theorem Shape.sound {l : List CuratorRecord} (h : Shape l) {r : CuratorRecord} (hr : r ∈ l) : r.Sound := by
  cases h with
  | none => cases hr
  | one _ h => rw [List.mem_singleton] at hr; exact hr ▸ h
  | two _ _ hx hn _ =>
    rcases List.mem_cons.mp hr with rfl | hr
    · exact hx
    · rw [List.mem_singleton] at hr; exact hr ▸ hn

theorem CuratorRecord.Sound.closedAt {r : CuratorRecord} (h : r.Sound) (height : Nat) (txid : Str) :
    (r.closedAt height txid).Sound := h

theorem shaped_step {s s' : RegistryState} {height : Nat} {txid : Str} {tx : GovernanceTx}
    (ha : Accepted s height txid s' tx) (hs : Shaped s) : Shaped s' := by
  intro c
  cases ha with
  | register tx hact _ _ hw _ =>
    rw [hw c]; split
    · exact .one _ ⟨Nat.zero_lt_of_lt hact, by simp [CuratorRegisterTx.record]⟩
    · exact hs c
  | rotate tx old hact hid _ hne hw _ =>
    rw [hw c]; split
    · have hold := (hs _).sound (byId_mem hid)
      refine .two _ _ (hold.closedAt _ _) ⟨Nat.zero_lt_of_lt hact, ?_⟩ ⟨rfl, rfl, rfl, hne⟩
      simp [CuratorRotateTx.record, Ne.symm hne]
    · exact hs c
  | revoke tx old _ hid _ _ _ hw _ =>
    rw [hw c]; split
    · exact .one _ (((hs _).sound (byId_mem hid)).closedAt _ _)
    · exact hs c

theorem shaped_run (E : Primitives) {ctx : GovernanceContext} {g s : RegistryState}
    {calls : List RegistryCall} (hg : IsGenesisState g) (h : run (registryStep E ctx) g calls = .ok s) :
    Shaped s :=
  run_inv (registryStep E ctx)
    (fun _ _ _ _ hu h => shaped_step (applyRegistryTransaction_ok E h) hu)
    (fun c => by rw [hg.recordsOf c]; exact .none) h

/-! ## A run with every kind of transaction -/

def governanceKey : Str := str "8a88e3dd7409f195fd52db2d3cba5d72ca6709bf1d94121bf3748801b40f6f5c"
def aliceKey₁ : Str := str "66be7e332c7a453332bd9d0a7f7db055f5c5ef1a06ada66d98b39fb6810c473a"
def aliceKey₂ : Str := str "0b513ad9b4924015ca0902ed079044d3ac5dbec2306f06948c10da8eb6e39f2d"
def aliceKey₃ : Str := str "91a28a0b74381593a4d9469579208926afc8ad82c8839b7644359b9eba9a4b3a"

/-- The signatures of the run, by the governance key and by the curator. -/
def alicePrimitives : Primitives := recorded
  [(governanceKey, str "fa4ae0e52071642590ac4b9fdbe1a070fe205103e52c7d9f32b8346a6311b54b",
      str "da1ae2499cec1b23bf8c97907dad04cfca5ebba83188ac72298da72a25259f0d963d6b85345cc2da97b30a3f24c860b9d144f9b70190bec7c5441ffb25cbbc0b"),
    (governanceKey, str "67919ec47ad7ea934273134b09ab84c0f357f3f69f887496e75dd40e0c9362b5",
      str "4fd84c7a520537448b702e89180bf0d7ba6d2d9bb142c953d807fb6e01cf09e50ac094aa6dc742282c14bb50c8f12b146894ca5440cb3e104d7b2a392aff670b"),
    (aliceKey₁, str "67919ec47ad7ea934273134b09ab84c0f357f3f69f887496e75dd40e0c9362b5",
      str "94bf0b07f06548b32e3f66da0be708e830e13822f7eedec52dad492ac92a27996bc458faa32860ff39fb4dd6e94ab5bb2746727b701c18e4958b63bd38f01200"),
    (governanceKey, str "8042440124eff497484a7bb69fbb81d0bb32699be6693f8334dec2b6e7f8264c",
      str "f80fd2a883798b3015234b7e7f02979ad61dd19de742defe5d0afb45e2c7f78a7fef4fa1893d29f32b73a83d65d55b5f7e4f9c341c0ce98343ae7f0653ed5607"),
    (aliceKey₂, str "8042440124eff497484a7bb69fbb81d0bb32699be6693f8334dec2b6e7f8264c",
      str "eaad4703250bfc9e42a73c7fb06b4aae730f3a33d9a646d939fe240a12e2c9777973e46b0a91f5bf76bce1b3f9d05012919d3422cfa5fc934ec4181cb5f87c07"),
    (governanceKey, str "f034c870a824aec3d79429d468d64580620d333ea916e12b97e1cd82265638e7",
      str "6d5db9b638cb7c533b9f7d5fc8d2478644797764957bfaba4b3fefa4a5458e0461bd55c07514497c06d009582aca819175f7e80a6d67fe843b70a23b6e6eb40f"),
    (aliceKey₂, str "f034c870a824aec3d79429d468d64580620d333ea916e12b97e1cd82265638e7",
      str "86e0117f37c5833f8fdea7dbabc533a56d62ef5f8307d05ff245f68f7a19f3345ead3d6a8b33286c3afcb8f8eadb037f5121df85729ea015f3e9d58737a7030e")]

theorem governanceKey_checks : checkKeys [] [governanceKey] = .ok () := of_okEq (by decide +kernel)

def aliceContext : GovernanceContext where
  publicKeysHex := [governanceKey]
  threshold := 1
  networkId := NETWORK_ID
  count_range := by decide
  keys_valid := (checkKeys_ok _ _ governanceKey_checks).1
  keys_nodup := (checkKeys_ok _ _ governanceKey_checks).2.1
  threshold_range := by decide
  networkId_ne := networkId_nonempty

def registerAlice : CuratorRegisterTx where
  curatorId := str "alice"
  publicKeyHex := aliceKey₁
  activationHeight := 10
  displayMetadataHash := none
  previousRegistryRoot := str "be403d7f302f4856625473a23a20d54db38490ce67a9a6ca2e513679ad8d80ee"
  governanceSignatures :=
    [⟨0, str "da1ae2499cec1b23bf8c97907dad04cfca5ebba83188ac72298da72a25259f0d963d6b85345cc2da97b30a3f24c860b9d144f9b70190bec7c5441ffb25cbbc0b"⟩]
  networkId := NETWORK_ID
  schemaVersion := 1

def registerAliceTxid : Str := str "be11d7b4040791f3cef60272f10030bc52e1ce11e955d9b42ab77a2e654764e5"

def rotateAlice : CuratorRotateTx where
  curatorId := str "alice"
  publicKeyHex := aliceKey₁
  newPublicKeyHex := aliceKey₂
  activationHeight := 20
  displayMetadataHash := none
  previousRegistryRoot := str "d4c087a3cf67412acbc5575331cc1347c9b275f5bf0677b580dbcfb46efb7345"
  governanceSignatures :=
    [⟨0, str "4fd84c7a520537448b702e89180bf0d7ba6d2d9bb142c953d807fb6e01cf09e50ac094aa6dc742282c14bb50c8f12b146894ca5440cb3e104d7b2a392aff670b"⟩]
  curatorSignatureHex :=
    str "94bf0b07f06548b32e3f66da0be708e830e13822f7eedec52dad492ac92a27996bc458faa32860ff39fb4dd6e94ab5bb2746727b701c18e4958b63bd38f01200"
  networkId := NETWORK_ID
  schemaVersion := 1

def rotateAliceTxid : Str := str "ae7cefdd857805cd7394d5d1c7e8dc02a76e82da86d1a6dcea3bdd19b41adfad"

def revokeAlice : CuratorRevokeTx where
  curatorId := str "alice"
  publicKeyHex := aliceKey₂
  revocationHeight := 30
  reasonCode := str "lost"
  previousRegistryRoot := str "826bb1b21f633f0d22a1ec15d4b5ff12974fc42dd429ebe4bc68949a60054dab"
  governanceSignatures :=
    [⟨0, str "f80fd2a883798b3015234b7e7f02979ad61dd19de742defe5d0afb45e2c7f78a7fef4fa1893d29f32b73a83d65d55b5f7e4f9c341c0ce98343ae7f0653ed5607"⟩]
  curatorSignatureHex :=
    str "eaad4703250bfc9e42a73c7fb06b4aae730f3a33d9a646d939fe240a12e2c9777973e46b0a91f5bf76bce1b3f9d05012919d3422cfa5fc934ec4181cb5f87c07"
  networkId := NETWORK_ID
  schemaVersion := 1

def revokeAliceTxid : Str := str "be02b31e8a50b6f20b6d11fb7032eae1b38d8f044d01529c3d4bb7970ee390e5"

def rotateAliceAgain : CuratorRotateTx where
  curatorId := str "alice"
  publicKeyHex := aliceKey₂
  newPublicKeyHex := aliceKey₃
  activationHeight := 40
  displayMetadataHash := none
  previousRegistryRoot := str "f76058acd9dd99eb92e9fbe95aa5865ef7c827e0b2481ef6ec3790dac7c9df31"
  governanceSignatures :=
    [⟨0, str "6d5db9b638cb7c533b9f7d5fc8d2478644797764957bfaba4b3fefa4a5458e0461bd55c07514497c06d009582aca819175f7e80a6d67fe843b70a23b6e6eb40f"⟩]
  curatorSignatureHex :=
    str "86e0117f37c5833f8fdea7dbabc533a56d62ef5f8307d05ff245f68f7a19f3345ead3d6a8b33286c3afcb8f8eadb037f5121df85729ea015f3e9d58737a7030e"
  networkId := NETWORK_ID
  schemaVersion := 1

def rotateAliceAgainTxid : Str := str "c1e160628c9a08f31108319f1684d44ac58f2f14fc71a677394779ef45cab852"

def aliceCalls : List RegistryCall :=
  [⟨.register registerAlice, 1, registerAliceTxid⟩, ⟨.rotate rotateAlice, 2, rotateAliceTxid⟩,
    ⟨.revoke revokeAlice, 3, revokeAliceTxid⟩, ⟨.rotate rotateAliceAgain, 4, rotateAliceAgainTxid⟩]

def aliceGenesis : RegistryState := { records := [], governanceKeys := [governanceKey], threshold := 1 }

def aliceRecord₁ : CuratorRecord := registerAlice.record registerAliceTxid
def aliceRecord₂ : CuratorRecord := rotateAlice.record aliceRecord₁ rotateAliceTxid
def aliceRecord₃ : CuratorRecord :=
  rotateAliceAgain.record (aliceRecord₂.closedAt 30 revokeAliceTxid) rotateAliceAgainTxid

def aliceRegistered : RegistryState := { aliceGenesis with records := [aliceRecord₁] }
def aliceRotated : RegistryState :=
  { aliceGenesis with records := [aliceRecord₁.closedAt 20 rotateAliceTxid, aliceRecord₂] }
def aliceRevoked : RegistryState := { records := [aliceRecord₂.closedAt 30 revokeAliceTxid] }
def aliceRevived : RegistryState :=
  { records := [aliceRecord₂.closedAt 40 rotateAliceAgainTxid, aliceRecord₃] }

theorem aliceGenesis_isGenesisState : IsGenesisState aliceGenesis :=
  ⟨[governanceKey], 1, aliceGenesis, NETWORK_ID, of_okEq (by decide +kernel), rfl⟩

section
set_option maxRecDepth 100000

theorem aliceRegistered_step : registryStep alicePrimitives aliceContext aliceGenesis
    ⟨.register registerAlice, 1, registerAliceTxid⟩ = .ok aliceRegistered := of_okEq (by decide +kernel)

example : aliceRegistered.activeKeyAt (str "alice") 9 = none := by decide +kernel

theorem aliceRotated_step : registryStep alicePrimitives aliceContext aliceRegistered
    ⟨.rotate rotateAlice, 2, rotateAliceTxid⟩ = .ok aliceRotated := of_okEq (by decide +kernel)

example : aliceRotated.activeKeyAt (str "alice") 20 = some aliceKey₂ := by decide +kernel

theorem aliceRevoked_step : registryStep alicePrimitives aliceContext aliceRotated
    ⟨.revoke revokeAlice, 3, revokeAliceTxid⟩ = .ok aliceRevoked := of_okEq (by decide +kernel)

example : aliceRevoked.activeKeyAt (str "alice") 30 = none := by decide +kernel

theorem aliceRevived_step : registryStep alicePrimitives aliceContext aliceRevoked
    ⟨.rotate rotateAliceAgain, 4, rotateAliceAgainTxid⟩ = .ok aliceRevived := of_okEq (by decide +kernel)

example : aliceRevived.activeKeyAt (str "alice") 40 = some aliceKey₃ := by decide +kernel

end

def aliceRotation : List RegistryCall := aliceCalls.take 2

theorem aliceRotation_run : run (registryStep alicePrimitives aliceContext) aliceGenesis aliceRotation =
    .ok aliceRotated :=
  (run_cons_ok _).mpr ⟨_, aliceRegistered_step, (run_cons_ok _).mpr ⟨_, aliceRotated_step, rfl⟩⟩

theorem aliceCalls_run : run (registryStep alicePrimitives aliceContext) aliceGenesis aliceCalls =
    .ok aliceRevived := by
  change run _ _ (aliceRotation ++ aliceCalls.drop 2) = _
  refine (run_append_ok _).mpr ⟨_, aliceRotation_run, ?_⟩
  exact (run_cons_ok _).mpr ⟨_, aliceRevoked_step, (run_cons_ok _).mpr ⟨_, aliceRevived_step, rfl⟩⟩

end ChainBreaker
