import ChainBreaker.ReorgRules
import ChainBreaker.RegistryBytes

/-!
# How a governance transaction fails

The ledger answers `GovernanceError` and `RegistryError` with `False`. The
schema leaves two things to the parser that it meets with other errors: text
that does not encode, and a rotation or revocation without its curator's
signature. The reducer fails otherwise only over a state that has no root.
-/

namespace ChainBreaker

open Fallible

def Refusal (e : PyErr) : Prop := Ledger.rejects e = true

theorem refusal_governance {e : PyErr} (h : e.kind = .governanceError) : Refusal e := by
  simp [Refusal, Ledger.rejects, h]

theorem refusal_registry {e : PyErr} (h : e.kind = .registryError) : Refusal e := by
  simp [Refusal, Ledger.rejects, h]

/-! ## The parser -/

section
variable {v : Json} {d : Fields}

theorem failsOnly_orRaise {α : Type} {P : PyErr → Prop} {o : Option α} {e : PyErr} (h : P e) :
    FailsOnly P (orRaise o e) := by
  intro e' he
  obtain ⟨-, rfl⟩ := orRaise_eq_error.mp he
  exact h

theorem item_then {α : Type} {P : PyErr → Prop} {k : String} {f : Json → Except PyErr α}
    (hk : (d.get k).isSome = true) (hf : FailsOnly P (f (d.getOrNull k))) : FailsOnly P (d.item k >>= f) := by
  obtain ⟨v, hv⟩ := Option.isSome_iff_exists.mp hk
  rw [Fields.getOrNull, hv] at hf
  rw [Fields.item, hv]
  exact hf

/-- A string in the value has no lone surrogate. -/
def Json.encodes (v : Json) : Bool :=
  match v with
  | .str s => !s.any isSurrogate
  | _ => true

theorem encodes_str {s : Str} (h : v.encodes = true) (hv : v.asStr? = some s) : encodeUtf8 s = .ok (utf8 s) := by
  cases v with
  | str t =>
    cases hv
    exact encodeUtf8_eq_ok.mpr ⟨by simpa [Json.encodes] using h, rfl⟩
  | _ => cases hv

theorem requireCuratorId_fails (h : v.encodes = true) : FailsOnly Refusal (requireCuratorId v) :=
  (failsOnly_orRaise (refusal_governance rfl)).bind fun _ hs =>
  (failsOnly_require (refusal_governance rfl)).bind fun _ _ =>
  (failsOnly_of_ok ⟨_, encodes_str h (orRaise_eq_ok.mp hs)⟩).bind fun _ _ =>
  (failsOnly_require (refusal_governance rfl)).bind fun _ _ => failsOnly_of_ok ⟨_, rfl⟩

theorem requireReasonCode_fails (h : v.encodes = true) : FailsOnly Refusal (requireReasonCode v) :=
  (failsOnly_orRaise (refusal_governance rfl)).bind fun _ hs =>
  (failsOnly_require (refusal_governance rfl)).bind fun _ _ =>
  (failsOnly_of_ok ⟨_, encodes_str h (orRaise_eq_ok.mp hs)⟩).bind fun _ _ =>
  (failsOnly_require (refusal_governance rfl)).bind fun _ _ => failsOnly_of_ok ⟨_, rfl⟩

theorem requireHexHash_fails (v : Json) (name : String) (length : Nat) :
    FailsOnly Refusal (requireHexHash v name length) :=
  (failsOnly_orRaise (refusal_governance rfl)).bind fun _ _ =>
  (failsOnly_orRaise (refusal_governance rfl)).bind fun _ _ =>
  (failsOnly_require (refusal_governance rfl)).bind fun _ _ => failsOnly_of_ok ⟨_, rfl⟩

theorem requireHeight_fails (v : Json) (name : String) : FailsOnly Refusal (requireHeight v name) :=
  (failsOnly_orRaise (refusal_governance rfl)).bind fun _ _ =>
  (failsOnly_require (refusal_governance rfl)).bind fun _ _ => failsOnly_of_ok ⟨_, rfl⟩

theorem requireOptionalHexHash_fails (o : Option Json) (name : String) :
    FailsOnly Refusal (requireOptionalHexHash o name) := by
  unfold requireOptionalHexHash
  split
  · exact failsOnly_of_ok ⟨_, rfl⟩
  · exact failsOnly_of_ok ⟨_, rfl⟩
  · exact (requireHexHash_fails _ _ _).bind fun _ _ => failsOnly_of_ok ⟨_, rfl⟩

theorem signature_fails (v : Json) : FailsOnly Refusal (GovernanceSignature.fromDict v) :=
  (failsOnly_orRaise (refusal_governance rfl)).bind fun _ _ =>
  (failsOnly_require (refusal_governance rfl)).bind fun _ _ =>
  (failsOnly_orRaise (refusal_governance rfl)).bind fun _ _ =>
  (failsOnly_require (refusal_governance rfl)).bind fun _ _ =>
  (failsOnly_orRaise (refusal_governance rfl)).bind fun _ _ =>
  (failsOnly_orRaise (refusal_governance rfl)).bind fun _ _ =>
  (failsOnly_require (refusal_governance rfl)).bind fun _ _ => failsOnly_of_ok ⟨_, rfl⟩

theorem requireSignatures_fails (v : Json) : FailsOnly Refusal (requireSignatures v) :=
  (failsOnly_orRaise (refusal_governance rfl)).bind fun _ _ => failsOnly_collect fun _ _ => signature_fails _

end

section
variable {body : Fields} {networkId : Str}

/-- A field that is read as `d.get(k)` and is not null is there. -/
theorem present_of {p : Json → Bool} {k : String} (hnull : p .null = false) (h : p (body.getOrNull k) = true) :
    (body.get k).isSome = true := by
  unfold Fields.getOrNull at h
  cases hg : body.get k with
  | some v => rfl
  | none =>
    rw [hg, Option.getD_none, hnull] at h
    cases h

theorem eqStr_iff {v : Json} {s : Str} : v.eqStr s = true ↔ v = .str s := by
  cases v <;> simp [Json.eqStr]

/-- The fields that the schema makes present. -/
structure Complete (body : Fields) : Prop where
  base : body.hasKeys ["curator_id", "public_key_hex", "previous_registry_root", "governance_signatures"] = true
  register : body.getOrNull "action" = .str (str "curator_register") → (body.get "activation_height").isSome = true
  rotate : body.getOrNull "action" = .str (str "curator_rotate") →
    body.hasKeys ["activation_height", "new_public_key_hex"] = true
  revoke : body.getOrNull "action" = .str (str "curator_revoke") →
    body.hasKeys ["revocation_height", "reason_code"] = true

theorem hasKeys_cons {k : String} {ks : List String} :
    body.hasKeys (k :: ks) = true ↔ (body.get k).isSome = true ∧ body.hasKeys ks = true := by
  simp [Fields.hasKeys]

theorem hasKeys_nil : body.hasKeys [] = true := rfl

theorem complete_of_schema (h : validateGovernanceBody body = .ok ()) : Complete body := by
  simp only [validateGovernanceBody, bind_eq_ok, require_eq_ok, orRaise_eq_ok] at h
  obtain ⟨_, -, _, -, _, hkeys, _, -, _, -, _, -, _, -, _, -, _, -, _, -, _, -, _, haction, sigs, hsigs, -⟩ := h
  have hint : ∀ {k}, requireInt (body.getOrNull k) (some 0) = true → (body.get k).isSome = true :=
    fun h => present_of (p := fun v => requireInt v (some 0)) rfl h
  constructor
  · simp only [hasKeys_cons] at hkeys ⊢
    obtain ⟨-, hc, hp, hr, -⟩ := hkeys
    exact ⟨hc, hp, hr, present_of (p := fun v => v.asList?.isSome) rfl (by rw [hsigs]; rfl), hasKeys_nil⟩
  · intro ha
    rw [validateAction, ha, if_pos (by decide), require_eq_ok] at haction
    exact hint haction
  · intro ha
    rw [validateAction, ha, if_neg (by decide), if_pos (by decide)] at haction
    simp only [bind_eq_ok, require_eq_ok] at haction
    obtain ⟨_, hheight, hkey⟩ := haction
    exact hasKeys_cons.mpr ⟨hint hheight, hasKeys_cons.mpr ⟨present_of (p := isHash) rfl hkey, hasKeys_nil⟩⟩
  · intro ha
    rw [validateAction, ha, if_neg (by decide), if_neg (by decide), if_pos (by decide)] at haction
    simp only [bind_eq_ok, require_eq_ok] at haction
    obtain ⟨_, hheight, hreason⟩ := haction
    exact hasKeys_cons.mpr ⟨hint hheight, hasKeys_cons.mpr ⟨present_of (p := isNonEmptyStr) rfl hreason, hasKeys_nil⟩⟩

/-- What the parser needs of a body and the schema does not ask for. -/
structure Legible (body : Fields) : Prop where
  curatorId : (body.getOrNull "curator_id").encodes = true
  reasonCode : body.getOrNull "action" = .str (str "curator_revoke") → (body.getOrNull "reason_code").encodes = true
  witness : body.getOrNull "action" ≠ .str (str "curator_register") → (body.get "curator_signature").isSome = true

theorem envelope_then {α : Type} {P : PyErr → Prop} {what action : String} {keys : List String}
    {f : Fields → Except PyErr α} (hP : ∀ {e : PyErr}, e.kind = .governanceError → P e) (hf : FailsOnly P (f body)) :
    FailsOnly P (checkEnvelope what action keys (.dict body) networkId >>= f) := by
  refine FailsOnly.bind ?_ fun d hd => ?_
  · refine (failsOnly_orRaise (hP rfl)).bind fun _ _ => (failsOnly_require (hP rfl)).bind fun _ _ =>
      (failsOnly_require (hP rfl)).bind fun _ _ => (failsOnly_require (hP rfl)).bind fun _ _ =>
      (failsOnly_require (hP rfl)).bind fun _ _ => failsOnly_of_ok ⟨_, rfl⟩
  · cases (checkEnvelope_network hd).1
    exact hf

theorem register_fails (hc : Complete body) (hl : Legible body)
    (ha : body.getOrNull "action" = .str (str "curator_register")) :
    FailsOnly Refusal (CuratorRegisterTx.fromDict (.dict body) networkId) := by
  obtain ⟨hid, hkey, hroot, hsigs, -⟩ := by simpa only [hasKeys_cons] using hc.base
  exact envelope_then refusal_governance <|
    (item_then hid (requireCuratorId_fails hl.curatorId)).bind fun _ _ =>
    (item_then hkey (requireHexHash_fails _ _ _)).bind fun _ _ =>
    (item_then (hc.register ha) (requireHeight_fails _ _)).bind fun _ _ =>
    (requireOptionalHexHash_fails _ _).bind fun _ _ =>
    (item_then hroot (requireHexHash_fails _ _ _)).bind fun _ _ =>
    (item_then hsigs (requireSignatures_fails _)).bind fun _ _ => failsOnly_of_ok ⟨_, rfl⟩

theorem rotate_fails (hc : Complete body) (hl : Legible body)
    (ha : body.getOrNull "action" = .str (str "curator_rotate")) :
    FailsOnly Refusal (CuratorRotateTx.fromDict (.dict body) networkId) := by
  obtain ⟨hid, hkey, hroot, hsigs, -⟩ := by simpa only [hasKeys_cons] using hc.base
  obtain ⟨hheight, hnew, -⟩ := by simpa only [hasKeys_cons] using hc.rotate ha
  have hsig := hl.witness (by rw [ha]; exact fun h => absurd (Json.str.inj h) (by decide))
  exact envelope_then refusal_governance <|
    (item_then hid (requireCuratorId_fails hl.curatorId)).bind fun _ _ =>
    (item_then hkey (requireHexHash_fails _ _ _)).bind fun _ _ =>
    (item_then hnew (requireHexHash_fails _ _ _)).bind fun _ _ =>
    (item_then hheight (requireHeight_fails _ _)).bind fun _ _ =>
    (requireOptionalHexHash_fails _ _).bind fun _ _ =>
    (item_then hroot (requireHexHash_fails _ _ _)).bind fun _ _ =>
    (item_then hsigs (requireSignatures_fails _)).bind fun _ _ =>
    (item_then hsig (requireHexHash_fails _ _ _)).bind fun _ _ => failsOnly_of_ok ⟨_, rfl⟩

theorem revoke_fails (hc : Complete body) (hl : Legible body)
    (ha : body.getOrNull "action" = .str (str "curator_revoke")) :
    FailsOnly Refusal (CuratorRevokeTx.fromDict (.dict body) networkId) := by
  obtain ⟨hid, hkey, hroot, hsigs, -⟩ := by simpa only [hasKeys_cons] using hc.base
  obtain ⟨hheight, hreason, -⟩ := by simpa only [hasKeys_cons] using hc.revoke ha
  have hsig := hl.witness (by rw [ha]; exact fun h => absurd (Json.str.inj h) (by decide))
  exact envelope_then refusal_governance <|
    (item_then hid (requireCuratorId_fails hl.curatorId)).bind fun _ _ =>
    (item_then hkey (requireHexHash_fails _ _ _)).bind fun _ _ =>
    (item_then hheight (requireHeight_fails _ _)).bind fun _ _ =>
    (item_then hreason (requireReasonCode_fails (hl.reasonCode ha))).bind fun _ _ =>
    (item_then hroot (requireHexHash_fails _ _ _)).bind fun _ _ =>
    (item_then hsigs (requireSignatures_fails _)).bind fun _ _ =>
    (item_then hsig (requireHexHash_fails _ _ _)).bind fun _ _ => failsOnly_of_ok ⟨_, rfl⟩

end

/-- The body of a governance transaction is legible. -/
def LegibleTx (t : Json) : Prop :=
  ∀ (d body : Fields), t = .dict d → isGovernance t = true → d.get "body" = some (.dict body) → Legible body

theorem parse_fails {networkId : Str} {t : Json} (hs : schemaOk t = true) (hl : LegibleTx t) :
    FailsOnly Refusal (parseGovernanceTransaction networkId t) := by
  unfold parseGovernanceTransaction parseGovernanceWith
  split
  · rename_i d
    split
    · rename_i hgov
      obtain ⟨body, hbody⟩ := schemaOk_body hs
      have hc := complete_of_schema (schemaOk_governance hs hgov hbody)
      have hb := hl d body rfl hgov hbody
      simp only [hbody, Option.getD_some]
      split
      · rename_i ha
        exact (register_fails hc hb (eqStr_iff.mp ha)).bind fun _ _ => failsOnly_of_ok ⟨_, rfl⟩
      · split
        · rename_i ha
          exact (rotate_fails hc hb (eqStr_iff.mp ha)).bind fun _ _ => failsOnly_of_ok ⟨_, rfl⟩
        · split
          · rename_i ha
            exact (revoke_fails hc hb (eqStr_iff.mp ha)).bind fun _ _ => failsOnly_of_ok ⟨_, rfl⟩
          · exact failsOnly_of_ok ⟨_, rfl⟩
    · exact failsOnly_of_ok ⟨_, rfl⟩
  · exact failsOnly_of_ok ⟨_, rfl⟩

/-! ## The reducer -/

theorem signatures_finite (sigs : List GovernanceSignature) :
    finiteList (sigs.map GovernanceSignature.toDict) = true := by
  rw [finiteList_iff]
  intro x hx
  obtain ⟨sig, -, rfl⟩ := List.mem_map.mp hx
  rfl

theorem toDict_finite (tx : GovernanceTx) : finiteFields tx.toDict = true := by
  have hopt : ∀ k o, finiteFields (optionalEntry k o) = true := fun k o => by cases o <;> rfl
  have happ : ∀ {a b : Fields}, finiteFields a = true → finiteFields b = true → finiteFields (a ++ b) = true := by
    intro a b ha hb
    rw [finiteFields_iff] at ha hb ⊢
    exact fun f hf => (List.mem_append.mp hf).elim (ha f) (hb f)
  cases tx with
  | register tx =>
    refine happ ?_ (hopt _ _)
    simp only [finiteFields, Json.finite, signatures_finite, Bool.and_self]
  | rotate tx =>
    refine happ ?_ (hopt _ _)
    simp only [finiteFields, Json.finite, signatures_finite, Bool.and_self]
  | revoke tx =>
    simp only [GovernanceTx.toDict, CuratorRevokeTx.toDict, finiteFields, Json.finite, signatures_finite, Bool.and_self]

theorem sortSignatures_finite {v : Json} (h : v.finite = true) : (sortSignatures v).finite = true := by
  unfold sortSignatures
  split
  · rw [Json.finite, finiteList_iff] at h ⊢
    exact fun x hx => h x (Lex.mem_sortOn.mp hx)
  · exact h

theorem hashObjectHex_ok {E : Primitives} {v : Json} (h : v.finite = true) : ∃ digest, hashObjectHex E v = .ok digest := by
  obtain ⟨b, hb⟩ := (hashObject_ok_iff E v).mpr h
  exact ⟨toHex b, by rw [hashObjectHex, hb, ok_bind]⟩

section
variable {E : Primitives} {ctx : GovernanceContext} {s s' : RegistryState} {height : Nat} {txid : Str}
  {body : Fields}

theorem canonicalTxid_ok (h : finiteFields body = true) : ∃ txid, canonicalTxid E body = .ok txid := by
  refine hashObjectHex_ok ?_
  rw [Json.finite, finiteFields_iff]
  intro f hf
  obtain ⟨g, hg, rfl⟩ := List.mem_map.mp hf
  have hfin := finiteFields_iff.mp h g hg
  split
  · exact sortSignatures_finite hfin
  · exact hfin

theorem governanceMessage_ok (networkId : Str) (h : finiteFields body = true) :
    ∃ message, governanceMessage E body networkId = .ok message := by
  obtain ⟨bodyHash, hb⟩ := hashObjectHex_ok (E := E) (v := .dict body) h
  simp only [governanceMessage, hb, ok_bind]
  exact (hashObject_ok_iff E _).mpr rfl

theorem without_finite (ks : List String) (h : finiteFields body = true) : finiteFields (body.without ks) = true := by
  rw [finiteFields_iff] at h ⊢
  exact fun f hf => h f (List.mem_of_mem_filter hf)

theorem countValid_fails {keys : List Str} {message : Bytes} : ∀ (sigs : List GovernanceSignature) (used : List Int)
    (valid : Nat), FailsOnly Refusal (countValid E keys message sigs used valid)
  | [], _, _ => failsOnly_of_ok ⟨_, rfl⟩
  | _ :: sigs, _, _ => (failsOnly_require (refusal_governance rfl)).bind fun _ _ =>
    (failsOnly_require (refusal_governance rfl)).bind fun _ _ =>
    (failsOnly_require (refusal_governance rfl)).bind fun _ _ => countValid_fails sigs _ _

theorem verifyGovernanceSignatures_fails {sigs : List GovernanceSignature} (h : finiteFields body = true) :
    FailsOnly Refusal (ctx.verifyGovernanceSignatures E body sigs) :=
  (failsOnly_of_ok (governanceMessage_ok _ h)).bind fun _ _ => (countValid_fails _ _ _).bind fun _ _ =>
  failsOnly_require (refusal_governance rfl)

/-- Every record carries a 32-byte key. -/
def RegistryState.Keyed (s : RegistryState) : Prop := ∀ r ∈ s.records, IsHex32 r.publicKeyHex

theorem verifyCuratorSignature_fails {r : CuratorRecord} {signature : Str} (h : finiteFields body = true)
    (hr : IsHex32 r.publicKeyHex) : FailsOnly Refusal (verifyCuratorSignature E r body signature) := by
  obtain ⟨raw, hraw, hlen⟩ := hr
  have hpk : decodePublicKey r.publicKeyHex = .ok raw := by
    rw [decodePublicKey, fromHexOrRaise_eq_ok.mpr hraw, ok_bind, if_neg (not_not.mpr hlen)]
  exact (failsOnly_of_ok (governanceMessage_ok _ h)).bind fun _ _ => (failsOnly_of_ok ⟨raw, hpk⟩).bind fun _ _ =>
    failsOnly_require (refusal_registry rfl)

theorem requireNotRegistered_fails (c key : Str) : FailsOnly Refusal (requireNotRegistered s c key) := by
  unfold requireNotRegistered
  split
  · exact failsOnly_of_ok ⟨_, rfl⟩
  · split <;> exact failsOnly_error (refusal_registry rfl)

theorem requirePublicKeyUnused_fails (key c : Str) : FailsOnly Refusal (requirePublicKeyUnused s key c) := by
  unfold requirePublicKeyUnused
  split
  · exact failsOnly_of_ok ⟨_, rfl⟩
  · exact failsOnly_error (refusal_registry rfl)

theorem requireActiveRecord_fails (c key : Str) : FailsOnly Refusal (requireActiveRecord s c key) :=
  (failsOnly_orRaise (refusal_registry rfl)).bind fun _ _ =>
  (failsOnly_require (refusal_registry rfl)).bind fun _ _ => failsOnly_of_ok ⟨_, rfl⟩

/-- The records that replace those of one curator can be sorted. -/
theorem sortReplaced_ok (h : s.Writable) {c : Str} {new : List CuratorRecord}
    (hnew : ∀ r ∈ new, r.curatorId.any isSurrogate = false) :
    ∃ l, sortRecords (s.records.filter (fun r => r.curatorId != c) ++ new) = .ok l := by
  refine sortRecords_ok_iff.mpr fun r hr => ?_
  rcases List.mem_append.mp hr with hr | hr
  · exact (h.records r (List.mem_of_mem_filter hr)).curatorId.1
  · exact hnew r hr

/-- **The reducer refuses.** Over a state with a root and proper keys it fails
only with the errors the ledger answers. -/
theorem apply_fails (hw : s.Writable) (hcount : s.records.length < 2 ^ 64) (hk : s.Keyed) {tx : GovernanceTx}
    (hc : tx.Clean) : FailsOnly Refusal (applyRegistryTransaction E s tx height txid ctx) := by
  have hfin := toDict_finite tx
  have hroot := failsOnly_of_ok (P := Refusal) ((registryRoot_ok_iff E).mpr ⟨hw, hcount⟩)
  have hheight : ∀ {p : Prop} [Decidable p] {t : String}, FailsOnly Refusal (require p (registryError t)) :=
    fun {_} _ {_} => failsOnly_require (refusal_registry rfl)
  cases tx with
  | register tx =>
    have hsort : ∃ l, sortRecords (s.records ++ [tx.record txid]) = .ok l := by
      refine sortRecords_ok_iff.mpr fun r hr => ?_
      rcases List.mem_append.mp hr with hr | hr
      · exact (hw.records r hr).curatorId.1
      · cases List.mem_singleton.mp hr
        exact hc.curatorId.1
    exact (verifyGovernanceSignatures_fails (without_finite _ hfin)).bind fun _ _ => hheight.bind fun _ _ =>
      hroot.bind fun _ _ => hheight.bind fun _ _ => (requireNotRegistered_fails _ _).bind fun _ _ =>
      (failsOnly_of_ok hsort).bind fun _ _ => failsOnly_of_ok ⟨_, rfl⟩
  | rotate tx =>
    refine (verifyGovernanceSignatures_fails (without_finite _ hfin)).bind fun _ _ => hheight.bind fun _ _ =>
      hroot.bind fun _ _ => hheight.bind fun _ _ => (requireActiveRecord_fails _ _).bind fun old hold => ?_
    have hmem := byId_records (requireActiveRecord_ok hold).1
    refine (verifyCuratorSignature_fails (without_finite _ hfin) (hk old hmem)).bind fun _ _ => hheight.bind fun _ _ =>
      (requirePublicKeyUnused_fails _ _).bind fun _ _ => (failsOnly_of_ok (sortReplaced_ok hw ?_)).bind fun _ _ =>
      failsOnly_of_ok ⟨_, rfl⟩
    exact List.forall_mem_cons.mpr ⟨(hw.records old hmem).curatorId.1, List.forall_mem_singleton.mpr hc.curatorId.1⟩
  | revoke tx =>
    refine (verifyGovernanceSignatures_fails (without_finite _ hfin)).bind fun _ _ => hheight.bind fun _ _ =>
      hroot.bind fun _ _ => hheight.bind fun _ _ => (requireActiveRecord_fails _ _).bind fun old hold => ?_
    have hmem := byId_records (requireActiveRecord_ok hold).1
    refine (verifyCuratorSignature_fails (without_finite _ hfin) (hk old hmem)).bind fun _ _ => hheight.bind fun _ _ =>
      hheight.bind fun _ _ => (failsOnly_of_ok (sortReplaced_ok hw ?_)).bind fun _ _ => failsOnly_of_ok ⟨_, rfl⟩
    exact List.forall_mem_singleton.mpr (hw.records old hmem).curatorId.1

theorem keyed_step {tx : GovernanceTx} (ha : Accepted s height txid s' tx) (hk : s.Keyed) (hc : tx.Clean) : s'.Keyed := by
  cases ha with
  | register tx _ _ _ hw _ => exact (Rewrote.forall_iff hw hk).mpr (List.forall_mem_singleton.mpr hc.key)
  | rotate tx old _ hid _ _ hw _ =>
    exact (Rewrote.forall_iff hw hk).mpr
      (List.forall_mem_cons.mpr ⟨hk old (byId_records hid), List.forall_mem_singleton.mpr hc.key⟩)
  | revoke tx old _ hid _ _ _ hw _ =>
    exact (Rewrote.forall_iff hw hk).mpr (List.forall_mem_singleton.mpr (hk old (byId_records hid)))

end

end ChainBreaker
