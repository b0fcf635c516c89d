import ChainBreaker.RegistryStep
import ChainBreaker.Ledger

/-!
# When a registry state has a root

A state has a root exactly when its strings encode, its keys and ids are
hexadecimal and its heights fit their eight bytes (`Writable`). What an
accepted transaction makes of a writable state is writable if its height fits,
and no transaction is accepted over a state that is not.
-/

namespace ChainBreaker

open Fallible

/-! ## Writable states -/

def Encodable (s : Str) : Prop := s.any isSurrogate = false ∧ (utf8 s).length < 2 ^ 64

def IsHex (s : Str) : Prop := ∃ raw, fromHex s = some raw

structure CuratorRecord.Writable (r : CuratorRecord) : Prop where
  curatorId : Encodable r.curatorId
  publicKey : IsHex r.publicKeyHex
  activation : r.activationHeight < 2 ^ 64
  revocation : ∀ R, r.revocationHeight = some R → R < 2 ^ 64
  previous : ∀ k, r.previousKeyHex = some k → IsHex k
  registration : IsHex r.registrationTxid
  latest : ∀ t, r.latestRotationTxid = some t → IsHex t

structure RegistryState.Writable (s : RegistryState) : Prop where
  records : ∀ r ∈ s.records, r.Writable
  version : s.governanceVersion < 2 ^ 32
  networkId : Encodable s.networkId
  keys : ∀ k ∈ s.governanceKeys, IsHex k
  keyCount : s.governanceKeys.length < 2 ^ 64
  threshold : s.threshold < 256

theorem encodeVarint_ok_iff {n : Nat} : (∃ b, encodeVarint n = .ok b) ↔ n < 2 ^ 64 := by
  unfold encodeVarint
  split_ifs with h₁ h₂ h₃ h₄
  · exact iff_of_true ⟨_, rfl⟩ (by omega)
  · exact iff_of_true ⟨_, rfl⟩ (by omega)
  · exact iff_of_true ⟨_, rfl⟩ (by omega)
  · exact iff_of_true ⟨_, rfl⟩ (by omega)
  · exact iff_of_false (fun ⟨b, h⟩ => by cases h) (by omega)

theorem encodeStr_ok_iff {s : Str} : (∃ b, encodeStr s = .ok b) ↔ Encodable s := by
  simp only [encodeStr, encodeBytes, bind_eq_ok, encodeUtf8_eq_ok, Encodable]
  rw [← encodeVarint_ok_iff]
  constructor
  · rintro ⟨b, _, ⟨hs, rfl⟩, n, hn, -⟩
    exact ⟨hs, n, hn⟩
  · rintro ⟨hs, n, hn⟩
    exact ⟨_, _, ⟨hs, rfl⟩, n, hn, rfl⟩

theorem toBytesLE_ok_iff {len n : Nat} : (∃ b, toBytesLE len n = .ok b) ↔ n < 256 ^ len := by
  have hpow : ((256 ^ len : Nat) : Int) = 256 ^ len := by simp
  simp only [toBytesLE_eq_ok]
  constructor
  · rintro ⟨b, -, h, -⟩
    omega
  · exact fun h => ⟨_, by omega, by omega, rfl⟩

theorem fromHexOrRaise_ok_iff {s : Str} : (∃ b, fromHexOrRaise s = .ok b) ↔ IsHex s := by
  simp only [fromHexOrRaise_eq_ok, IsHex]

theorem decodePublicKey_eq_ok {key : Str} {pk : Bytes} :
    decodePublicKey key = .ok pk ↔ fromHex key = some pk ∧ pk.length = 32 := by
  simp only [decodePublicKey, bind_eq_ok, fromHexOrRaise_eq_ok, raise]
  constructor
  · rintro ⟨raw, hraw, h⟩
    split at h
    · cases h
    · rename_i hlen
      cases h
      exact ⟨hraw, not_not.mp hlen⟩
  · rintro ⟨hraw, hlen⟩
    exact ⟨pk, hraw, by rw [if_neg (not_not.mpr hlen)]⟩

theorem hexOrZeros_ok_iff {o : Option Str} : (∃ b, hexOrZeros o = .ok b) ↔ ∀ s, o = some s → IsHex s := by
  unfold hexOrZeros
  split
  · exact iff_of_true ⟨_, rfl⟩ (fun _ h => by cases h)
  · exact iff_of_true ⟨_, rfl⟩ (fun s h => by cases h; exact ⟨[], rfl⟩)
  · rw [fromHexOrRaise_ok_iff]
    exact ⟨fun h s hs => by cases hs; exact h, fun h => h _ rfl⟩

theorem concatOk_ok_iff {α : Type} {f : α → Except PyErr Bytes} : ∀ {l : List α},
    (∃ b, concatOk f l = .ok b) ↔ ∀ a ∈ l, ∃ b, f a = .ok b := by
  intro l
  induction l with
  | nil => exact iff_of_true ⟨[], rfl⟩ (by simp)
  | cons a l ih =>
    simp only [concatOk, bind_eq_ok, List.forall_mem_cons, ← ih]
    constructor
    · rintro ⟨_, x, hx, y, hy, _⟩
      exact ⟨⟨x, hx⟩, y, hy⟩
    · rintro ⟨⟨x, hx⟩, y, hy⟩
      exact ⟨_, x, hx, y, hy, rfl⟩

theorem sortRecords_ok_iff {l : List CuratorRecord} :
    (∃ l', sortRecords l = .ok l') ↔ ∀ r ∈ l, r.curatorId.any isSurrogate = false := by
  constructor
  · exact fun ⟨l', h⟩ => (sortRecords_ok h).2
  · intro h
    unfold sortRecords
    split
    · rename_i r hr
      have hs := List.find?_some hr
      rw [h r (List.mem_of_find?_eq_some hr)] at hs
      cases hs
    · exact ⟨_, rfl⟩

theorem serializeRecord_ok_iff {r : CuratorRecord} : (∃ b, serializeRecord r = .ok b) ↔ r.Writable := by
  have hversion := toBytesLE_ok_iff.mpr (show GOVERNANCE_SCHEMA_VERSION < 256 ^ 4 by decide)
  have hrev : r.revocationHeight.getD 0xFFFFFFFFFFFFFFFF < 256 ^ 8 ↔ ∀ R, r.revocationHeight = some R → R < 2 ^ 64 := by
    cases r.revocationHeight <;> simp
  constructor
  · rintro ⟨b, h⟩
    simp only [serializeRecord, bind_eq_ok] at h
    obtain ⟨v, -, c, hc, pk, hpk, a, ha, e, he, p, hp, g, hg, t, ht, -⟩ := h
    exact ⟨encodeStr_ok_iff.mp ⟨c, hc⟩, fromHexOrRaise_ok_iff.mp ⟨pk, hpk⟩, toBytesLE_ok_iff.mp ⟨a, ha⟩,
      hrev.mp (toBytesLE_ok_iff.mp ⟨e, he⟩), hexOrZeros_ok_iff.mp ⟨p, hp⟩, fromHexOrRaise_ok_iff.mp ⟨g, hg⟩,
      hexOrZeros_ok_iff.mp ⟨t, ht⟩⟩
  · intro h
    obtain ⟨v, hv⟩ := hversion
    obtain ⟨c, hc⟩ := encodeStr_ok_iff.mpr h.curatorId
    obtain ⟨pk, hpk⟩ := fromHexOrRaise_ok_iff.mpr h.publicKey
    obtain ⟨a, ha⟩ := toBytesLE_ok_iff.mpr (show r.activationHeight < 256 ^ 8 from h.activation)
    obtain ⟨e, he⟩ := toBytesLE_ok_iff.mpr (hrev.mpr h.revocation)
    obtain ⟨p, hp⟩ := hexOrZeros_ok_iff.mpr h.previous
    obtain ⟨g, hg⟩ := fromHexOrRaise_ok_iff.mpr h.registration
    obtain ⟨t, ht⟩ := hexOrZeros_ok_iff.mpr h.latest
    exact ⟨_, by simp only [serializeRecord, hv, hc, hpk, ha, he, hp, hg, ht, ok_bind]; rfl⟩

theorem sortRecords_length {l l' : List CuratorRecord} (h : sortRecords l = .ok l') : l'.length = l.length := by
  rw [(sortRecords_ok h).1]
  exact (Lex.sortOn_perm _ _ _).length_eq

/-- **When there is a root.** -/
theorem registryRoot_ok_iff (E : Primitives) {s : RegistryState} :
    (∃ root, registryRoot E s = .ok root) ↔ s.Writable ∧ s.records.length < 2 ^ 64 := by
  constructor
  · rintro ⟨root, h⟩
    simp only [registryRoot, serializeRegistryState, bind_eq_ok] at h
    obtain ⟨_, ⟨l, hl, v, hv, n, hn, kc, hkc, ks, hks, t, ht, rc, hrc, rs, hrs, -⟩, -⟩ := h
    refine ⟨⟨fun r hr => ?_, toBytesLE_ok_iff.mp ⟨v, hv⟩, encodeStr_ok_iff.mp ⟨n, hn⟩, fun k hk => ?_,
      encodeVarint_ok_iff.mp ⟨kc, hkc⟩, toBytesLE_ok_iff.mp ⟨t, ht⟩⟩, ?_⟩
    · exact serializeRecord_ok_iff.mp (concatOk_ok_iff.mp ⟨rs, hrs⟩ r ((sortRecords_mem hl).mpr hr))
    · exact fromHexOrRaise_ok_iff.mp (concatOk_ok_iff.mp ⟨ks, hks⟩ k hk)
    · exact sortRecords_length hl ▸ encodeVarint_ok_iff.mp ⟨rc, hrc⟩
  · rintro ⟨h, hcount⟩
    obtain ⟨l, hl⟩ := sortRecords_ok_iff.mpr fun r hr => (h.records r hr).curatorId.1
    obtain ⟨v, hv⟩ := toBytesLE_ok_iff.mpr (show s.governanceVersion < 256 ^ 4 from h.version)
    obtain ⟨n, hn⟩ := encodeStr_ok_iff.mpr h.networkId
    obtain ⟨kc, hkc⟩ := encodeVarint_ok_iff.mpr h.keyCount
    obtain ⟨ks, hks⟩ := concatOk_ok_iff.mpr fun k hk => fromHexOrRaise_ok_iff.mpr (h.keys k hk)
    obtain ⟨t, ht⟩ := toBytesLE_ok_iff.mpr (show s.threshold < 256 ^ 1 from h.threshold)
    obtain ⟨rc, hrc⟩ := encodeVarint_ok_iff.mpr ((sortRecords_length hl).symm ▸ hcount)
    obtain ⟨rs, hrs⟩ := concatOk_ok_iff.mpr fun r hr =>
      serializeRecord_ok_iff.mpr (h.records r ((sortRecords_mem hl).mp hr))
    exact ⟨_, by simp only [registryRoot, serializeRegistryState, hl, hv, hn, hkc, hks, ht, hrc, hrs, ok_bind]; rfl⟩

/-! ## What a parsed transaction carries -/

/-- Thirty-two bytes in hexadecimal. -/
def IsHex32 (s : Str) : Prop := ∃ raw, fromHex s = some raw ∧ raw.length = 32

theorem IsHex32.isHex {s : Str} (h : IsHex32 s) : IsHex s := by
  obtain ⟨raw, hraw, -⟩ := h
  exact ⟨raw, hraw⟩

def GovernanceTx.curatorId : GovernanceTx → Str
  | .register tx => tx.curatorId
  | .rotate tx => tx.curatorId
  | .revoke tx => tx.curatorId

/-- The key a transaction puts into force, or the one it revokes. -/
def GovernanceTx.key : GovernanceTx → Str
  | .register tx => tx.publicKeyHex
  | .rotate tx => tx.newPublicKeyHex
  | .revoke tx => tx.publicKeyHex

/-- The height a transaction writes into the registry. -/
def GovernanceTx.height : GovernanceTx → Nat
  | .register tx => tx.activationHeight
  | .rotate tx => tx.activationHeight
  | .revoke tx => tx.revocationHeight

def GovernanceTx.previousRegistryRoot : GovernanceTx → Str
  | .register tx => tx.previousRegistryRoot
  | .rotate tx => tx.previousRegistryRoot
  | .revoke tx => tx.previousRegistryRoot

structure GovernanceTx.Clean (tx : GovernanceTx) : Prop where
  curatorId : Encodable tx.curatorId
  key : IsHex32 tx.key

theorem requireCuratorId_ok {v : Json} {s : Str} (h : requireCuratorId v = .ok s) : Encodable s := by
  simp only [requireCuratorId, bind_eq_ok, require_eq_ok, orRaise_eq_ok, encodeUtf8_eq_ok] at h
  obtain ⟨s', -, _, -, _, ⟨hs, rfl⟩, _, ⟨-, hlen⟩, h⟩ := h
  cases h
  exact ⟨hs, by have : MAX_CURATOR_ID_BYTES < 2 ^ 64 := by decide
                omega⟩

theorem requireHexHash_ok {v : Json} {name : String} {s : Str} (h : requireHexHash v name 64 = .ok s) : IsHex32 s := by
  simp only [requireHexHash, bind_eq_ok, require_eq_ok, orRaise_eq_ok] at h
  obtain ⟨t, -, raw, hraw, _, hlen, h⟩ := h
  cases h
  exact ⟨raw, by rw [fromHex_lower, hraw], by omega⟩

theorem parse_clean {networkId : Str} {t : Json} {tx : GovernanceTx}
    (h : parseGovernanceTransaction networkId t = .ok (some tx)) : tx.Clean := by
  unfold parseGovernanceTransaction parseGovernanceWith at h
  split at h
  · split at h
    · dsimp only at h
      split at h
      · split at h
        · obtain ⟨r, hr, h⟩ := bind_eq_ok.mp h
          cases h
          simp only [CuratorRegisterTx.fromDict, bind_eq_ok] at hr
          obtain ⟨_, -, c, ⟨_, -, hc⟩, k, ⟨_, -, hk⟩, _, -, _, -, _, -, _, -, hr⟩ := hr
          cases hr
          exact ⟨requireCuratorId_ok hc, requireHexHash_ok hk⟩
        · split at h
          · obtain ⟨r, hr, h⟩ := bind_eq_ok.mp h
            cases h
            simp only [CuratorRotateTx.fromDict, bind_eq_ok] at hr
            obtain ⟨_, -, c, ⟨_, -, hc⟩, _, -, k, ⟨_, -, hk⟩, _, -, _, -, _, -, _, -, _, -, hr⟩ := hr
            cases hr
            exact ⟨requireCuratorId_ok hc, requireHexHash_ok hk⟩
          · split at h
            · obtain ⟨r, hr, h⟩ := bind_eq_ok.mp h
              cases h
              simp only [CuratorRevokeTx.fromDict, bind_eq_ok] at hr
              obtain ⟨_, -, c, ⟨_, -, hc⟩, k, ⟨_, -, hk⟩, _, -, _, -, _, -, _, -, _, -, hr⟩ := hr
              cases hr
              exact ⟨requireCuratorId_ok hc, requireHexHash_ok hk⟩
            · cases h
      · cases h
    · cases h
  · cases h

theorem canonicalTxid_isHex {E : Primitives} {body : Fields} {txid : Str} (h : canonicalTxid E body = .ok txid) :
    IsHex txid := by
  simp only [canonicalTxid, hashObjectHex, bind_eq_ok] at h
  obtain ⟨digest, -, h⟩ := h
  cases h
  exact ⟨digest, fromHex_toHex digest⟩

/-! ## What a transaction does to the bytes -/

section
variable {s s' : RegistryState} {height : Nat} {txid : Str} {tx : GovernanceTx}

theorem writable_of_frame (hf : s'.frame = s.frame) (h : s.Writable) (hrec : ∀ r ∈ s'.records, r.Writable) :
    s'.Writable := by
  simp only [RegistryState.frame, Prod.mk.injEq] at hf
  obtain ⟨hv, hn, hk, ht⟩ := hf
  exact ⟨hrec, hv ▸ h.version, hn ▸ h.networkId, hk ▸ h.keys, hk ▸ h.keyCount, ht ▸ h.threshold⟩

theorem writable_of_default (hf : s'.frame = (GOVERNANCE_SCHEMA_VERSION, NETWORK_ID, [], 0))
    (hrec : ∀ r ∈ s'.records, r.Writable) : s'.Writable := by
  simp only [RegistryState.frame, Prod.mk.injEq] at hf
  obtain ⟨hv, hn, hk, ht⟩ := hf
  refine ⟨hrec, hv ▸ by decide, hn ▸ ⟨by decide, by decide⟩, ?_, ?_, ht ▸ by decide⟩
  · rw [hk]; intro k hk; cases hk
  · rw [hk]; decide

/-- What holds of every record before holds of every record after, if it holds
of the records written. -/
theorem Rewrote.forall_iff {P : CuratorRecord → Prop} {d : Str} {new : List CuratorRecord} (hw : s.Rewrote s' d new)
    (h : ∀ r ∈ s.records, P r) : (∀ r ∈ s'.records, P r) ↔ ∀ r ∈ new, P r := by
  constructor
  · intro hall r hr
    have hmem : r ∈ s'.recordsOf d := by rw [hw d, if_pos rfl]; exact hr
    exact hall r (List.mem_of_mem_filter hmem)
  · intro hnew r hr
    have hmem : r ∈ s'.recordsOf r.curatorId := List.mem_filter.mpr ⟨hr, by simp⟩
    rw [hw] at hmem
    split at hmem
    · exact hnew r hmem
    · exact h r (List.mem_of_mem_filter hmem)

theorem byId_records {c : Str} {r : CuratorRecord} (h : s.byId c = some r) : r ∈ s.records :=
  List.mem_of_mem_filter (byId_mem h)

/-- **Step.** An accepted transaction keeps the state writable exactly when its
height fits. -/
theorem writable_step (ha : Accepted s height txid s' tx) (h : s.Writable) (hc : tx.Clean) (ht : IsHex txid) :
    s'.Writable ↔ tx.height < 2 ^ 64 := by
  have hsome : ∀ {t : Str}, some txid = some t → IsHex t := fun e => by cases e; exact ht
  cases ha with
  | register tx _ _ _ hw hf =>
    constructor
    · exact fun h' => ((Rewrote.forall_iff hw h.records).mp h'.records _ (.head _)).activation
    · intro hfit
      refine writable_of_frame hf h ((Rewrote.forall_iff hw h.records).mpr (List.forall_mem_singleton.mpr ?_))
      exact ⟨hc.curatorId, hc.key.isHex, hfit, nofun, nofun, ht, nofun⟩
  | rotate tx old _ hid _ _ hw hf =>
    have hold := h.records old (byId_records hid)
    constructor
    · exact fun h' => ((Rewrote.forall_iff hw h.records).mp h'.records _ (.tail _ (.head _))).activation
    · intro hfit
      refine writable_of_frame hf h ((Rewrote.forall_iff hw h.records).mpr (List.forall_mem_cons.mpr
        ⟨?_, List.forall_mem_singleton.mpr ?_⟩))
      · exact { hold with revocation := fun R e => (by cases e; exact hfit), latest := fun _ => hsome }
      · have hprevious : ∀ k, some old.publicKeyHex = some k → IsHex k := fun k e => by cases e; exact hold.publicKey
        exact ⟨hc.curatorId, hc.key.isHex, hfit, nofun, hprevious, hold.registration, fun _ => hsome⟩
  | revoke tx old _ hid _ _ _ hw hf =>
    have hold := h.records old (byId_records hid)
    constructor
    · exact fun h' => ((Rewrote.forall_iff hw h.records).mp h'.records _ (.head _)).revocation _ rfl
    · intro hfit
      refine writable_of_default hf ((Rewrote.forall_iff hw h.records).mpr (List.forall_mem_singleton.mpr ?_))
      exact { hold with revocation := fun R e => (by cases e; exact hfit), latest := fun _ => hsome }

variable {E : Primitives} {ctx : GovernanceContext}

/-- An accepted transaction names the root of the state it is applied to. -/
theorem apply_root (h : applyRegistryTransaction E s tx height txid ctx = .ok s') :
    registryRoot E s = .ok tx.previousRegistryRoot := by
  cases tx with
  | register tx =>
    simp only [applyRegistryTransaction, applyRegister, bind_eq_ok, require_eq_ok] at h
    obtain ⟨_, -, _, -, root, hroot, _, hprev, -⟩ := h
    exact hroot.trans (congrArg _ hprev.symm)
  | rotate tx =>
    simp only [applyRegistryTransaction, applyRotate, bind_eq_ok, require_eq_ok] at h
    obtain ⟨_, -, _, -, root, hroot, _, hprev, -⟩ := h
    exact hroot.trans (congrArg _ hprev.symm)
  | revoke tx =>
    simp only [applyRegistryTransaction, applyRevoke, bind_eq_ok, require_eq_ok] at h
    obtain ⟨_, -, _, -, root, hroot, _, hprev, -⟩ := h
    exact hroot.trans (congrArg _ hprev.symm)

/-- Dropping the records of a curator who has one drops at least one. -/
theorem others_length {r : CuratorRecord} (hr : r ∈ s.records) :
    (s.records.filter fun x => x.curatorId != r.curatorId).length < s.records.length := by
  apply List.length_filter_lt_length_iff_exists.mpr
  exact ⟨r, hr, by simp⟩

theorem apply_length (h : applyRegistryTransaction E s tx height txid ctx = .ok s') :
    s'.records.length ≤ s.records.length + 1 := by
  cases tx with
  | register tx =>
    simp only [applyRegistryTransaction, applyRegister, bind_eq_ok] at h
    obtain ⟨_, -, _, -, _, -, _, -, _, -, l, hsort, h⟩ := h
    cases h
    simp [sortRecords_length hsort]
  | rotate tx =>
    simp only [applyRegistryTransaction, applyRotate, bind_eq_ok] at h
    obtain ⟨_, -, _, -, _, -, _, -, old, hold, _, -, _, -, _, -, l, hsort, h⟩ := h
    have hid := (requireActiveRecord_ok hold).1
    have hlt := others_length (byId_records hid)
    rw [recordsOf_curator (byId_mem hid)] at hlt
    cases h
    simp only [sortRecords_length hsort, List.length_append, List.length_cons, List.length_nil]
    omega
  | revoke tx =>
    simp only [applyRegistryTransaction, applyRevoke, bind_eq_ok] at h
    obtain ⟨_, -, _, -, _, -, _, -, old, hold, _, -, _, -, _, -, l, hsort, h⟩ := h
    have hid := (requireActiveRecord_ok hold).1
    have hlt := others_length (byId_records hid)
    rw [recordsOf_curator (byId_mem hid)] at hlt
    cases h
    simp only [sortRecords_length hsort, List.length_append, List.length_cons, List.length_nil]
    omega

end

/-! ## The transactions of a block -/

/-- The height a governance transaction carries fits its eight bytes. -/
def HeightFits (networkId : Str) (t : Json) : Prop :=
  ∀ tx, parseGovernanceTransaction networkId t = .ok (some tx) → tx.height < 2 ^ 64

section
variable {E : Primitives} {networkId : Str} {ctx : GovernanceContext} {height : Nat} {s s' : RegistryState} {t : Json}

/-- A transaction leaves the state alone or is a governance transaction the
registry accepts. -/
theorem applyTransaction_ok (h : applyTransactionWith E (parseGovernanceTransaction networkId) ctx height s t = .ok s') :
    (parseGovernanceTransaction networkId t = .ok none ∧ s' = s) ∨
      ∃ tx txid, parseGovernanceTransaction networkId t = .ok (some tx) ∧ canonicalTxid E tx.toDict = .ok txid ∧
        applyRegistryTransaction E s tx height txid ctx = .ok s' := by
  obtain ⟨parsed, hp, h⟩ := bind_eq_ok.mp h
  cases parsed with
  | none => cases h; exact .inl ⟨hp, rfl⟩
  | some tx =>
    obtain ⟨txid, ht, h⟩ := bind_eq_ok.mp h
    exact .inr ⟨tx, txid, hp, ht, h⟩

theorem transaction_length
    (h : applyTransactionWith E (parseGovernanceTransaction networkId) ctx height s t = .ok s') :
    s'.records.length ≤ s.records.length + 1 := by
  rcases applyTransaction_ok h with ⟨-, rfl⟩ | ⟨tx, txid, -, -, h⟩
  · exact Nat.le_succ _
  · exact apply_length h

theorem transactions_length : ∀ {ts : List Json} {s : RegistryState},
    applyTransactionsWith E (parseGovernanceTransaction networkId) ctx s ts height = .ok s' →
    s'.records.length ≤ s.records.length + ts.length
  | [], s, h => by cases h; exact Nat.le_refl _
  | t :: ts, s, h => by
    obtain ⟨u, hu, h⟩ := (run_cons_ok _).mp h
    have := transaction_length hu
    have := transactions_length h
    rw [List.length_cons]
    omega

/-- Over a state that is not writable no governance transaction is accepted. -/
theorem transactions_stuck {ts : List Json} (hw : ¬ s.Writable)
    (h : applyTransactionsWith E (parseGovernanceTransaction networkId) ctx s ts height = .ok s') : s' = s := by
  refine run_inv _ (I := fun u => u = s) (fun t _ u u' hu ht => ?_) rfl h
  subst hu
  rcases applyTransaction_ok ht with ⟨-, rfl⟩ | ⟨tx, txid, -, -, ha⟩
  · rfl
  · exact absurd ((registryRoot_ok_iff E).mp ⟨_, apply_root ha⟩).1 hw

/-- **Run.** The transactions of a block keep the state writable exactly when
every height they carry fits. -/
theorem transactions_writable : ∀ {ts : List Json} {s : RegistryState}, s.Writable →
    applyTransactionsWith E (parseGovernanceTransaction networkId) ctx s ts height = .ok s' →
    (s'.Writable ↔ ∀ t ∈ ts, HeightFits networkId t)
  | [], s, hw, h => by cases h; simp [hw]
  | t :: ts, s, hw, h => by
    obtain ⟨u, hu, hr⟩ := (run_cons_ok _).mp h
    rw [List.forall_mem_cons]
    rcases applyTransaction_ok hu with ⟨hp, rfl⟩ | ⟨tx, txid, hp, ht, ha⟩
    · rw [transactions_writable hw hr]
      have hfit : HeightFits networkId t := fun tx htx => by rw [hp] at htx; cases htx
      exact ⟨fun h => ⟨hfit, h⟩, And.right⟩
    · have hfit : HeightFits networkId t ↔ tx.height < 2 ^ 64 := by
        refine ⟨fun h => h tx hp, fun h tx' htx => ?_⟩
        rw [hp] at htx
        cases htx
        exact h
      have hstep := writable_step (applyRegistryTransaction_ok E ha) hw (parse_clean hp) (canonicalTxid_isHex ht)
      rw [hfit, ← hstep]
      by_cases hu : u.Writable
      · rw [transactions_writable hu hr]
        exact ⟨fun h => ⟨hu, h⟩, And.right⟩
      · rw [transactions_stuck hu hr]
        exact ⟨fun h => absurd h hu, fun h => absurd h.1 hu⟩

end

end ChainBreaker
