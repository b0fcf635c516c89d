import ChainBreaker.KeyOrder
import ChainBreaker.ReplayProtection

/-!
# The order of the signatures

A parsed transaction keeps its signatures in the order of the JSON list. The
loop that counts them accepts distinct positions in any order, and the
transaction id is hashed over the list sorted by them: so a ledger takes a
transaction and its reordering alike (`signature_order_irrelevant`).
-/

namespace ChainBreaker

open Fallible

/-! ## Reordered transactions -/

/-- One governance transaction with its signatures in two orders. -/
inductive Reordered : Json → Json → Prop
  | mk (before after front back : Fields) {sigs sigs' : List Json} (h : sigs.Perm sigs') :
      Reordered (.dict (before ++ (str "body", .dict (front ++ (str "governance_signatures", .list sigs) :: back)) :: after))
        (.dict (before ++ (str "body", .dict (front ++ (str "governance_signatures", .list sigs') :: back)) :: after))

def GovernanceTx.withSignatures (sigs : List GovernanceSignature) : GovernanceTx → GovernanceTx
  | .register tx => .register { tx with governanceSignatures := sigs }
  | .rotate tx => .rotate { tx with governanceSignatures := sigs }
  | .revoke tx => .revoke { tx with governanceSignatures := sigs }

/-- Two bodies with the same fields, except for the order of the signatures. -/
structure BodyReordered (b b' : Fields) : Prop where
  keys : ∀ ks, b'.keysWithin ks = b.keysWithin ks
  other : ∀ k, str k ≠ str "governance_signatures" → b'.get k = b.get k
  sigs : b'.get "governance_signatures" = b.get "governance_signatures" ∨ ∃ xs ys : List Json, xs.Perm ys ∧
    b.get "governance_signatures" = some (.list xs) ∧ b'.get "governance_signatures" = some (.list ys)

section
variable {b b' : Fields}

theorem get_replaced {front back : Fields} {k : String} {v v' : Json} {j : String} (h : str j ≠ str k) :
    Fields.get (front ++ (str k, v') :: back) j = Fields.get (front ++ (str k, v) :: back) j := by
  have hne : (str j == str k) = false := beq_eq_false_iff_ne.mpr h
  simp only [Fields.get, List.lookup_append, List.lookup_cons, hne]

/-- The field itself is read there, unless an earlier one has its name. -/
theorem get_own {front back : Fields} {k : String} {v v' : Json} :
    Fields.get (front ++ (str k, v') :: back) k = Fields.get (front ++ (str k, v) :: back) k ∨
      (Fields.get (front ++ (str k, v) :: back) k = some v ∧ Fields.get (front ++ (str k, v') :: back) k = some v') := by
  simp only [Fields.get, List.lookup_append, List.lookup_cons, BEq.rfl]
  cases List.lookup (str k) front with
  | none => exact .inr ⟨rfl, rfl⟩
  | some w => exact .inl rfl

theorem bodyReordered {front back : Fields} {sigs sigs' : List Json} (h : sigs.Perm sigs') :
    BodyReordered (front ++ (str "governance_signatures", .list sigs) :: back)
      (front ++ (str "governance_signatures", .list sigs') :: back) where
  keys ks := by simp only [Fields.keysWithin, List.all_append, List.all_cons]
  other k hk := get_replaced hk
  sigs := get_own.imp id fun ⟨h₁, h₂⟩ => ⟨sigs, sigs', h, h₁, h₂⟩

/-! ## Parsing -/

theorem BodyReordered.item (h : BodyReordered b b') {k : String} (hk : str k ≠ str "governance_signatures") :
    b'.item k = b.item k := by rw [Fields.item, h.other k hk, Fields.item]

theorem BodyReordered.requireSignatures (h : BodyReordered b b') {v : Json} {sigs : List GovernanceSignature}
    (hv : b.item "governance_signatures" = .ok v) (hsigs : requireSignatures v = .ok sigs) :
    ∃ v' sigs', b'.item "governance_signatures" = .ok v' ∧ ChainBreaker.requireSignatures v' = .ok sigs' ∧ sigs.Perm sigs' := by
  rcases h.sigs with hsame | ⟨xs, ys, hperm, hxs, hys⟩
  · exact ⟨v, sigs, by rw [Fields.item, hsame, ← Fields.item, hv], hsigs, .refl _⟩
  · rw [Fields.item, hxs, Except.ok.injEq] at hv
    subst hv
    obtain ⟨sigs', hsigs', hperm'⟩ := collect_perm hperm hsigs
    exact ⟨.list ys, sigs', by rw [Fields.item, hys], hsigs', hperm'⟩

theorem BodyReordered.checkEnvelope (h : BodyReordered b b') {what action : String} {keys : List String} {networkId : Str}
    {d : Fields} (hok : checkEnvelope what action keys (.dict b) networkId = .ok d) :
    d = b ∧ ChainBreaker.checkEnvelope what action keys (.dict b') networkId = .ok b' := by
  simp only [ChainBreaker.checkEnvelope, Json.asDict?, orRaise, ok_bind, bind_eq_ok, require_eq_ok, exists_const,
    Except.ok.injEq] at hok ⊢
  rw [h.keys, h.other "action" (by decide), h.other "network_id" (by decide), h.other "schema_version" (by decide)]
  obtain ⟨hkeys, haction, hnetwork, hversion, hd⟩ := hok
  exact ⟨hd.symm, hkeys, haction, hnetwork, hversion, trivial⟩

theorem BodyReordered.register (h : BodyReordered b b') {networkId : Str} {tx : CuratorRegisterTx}
    (hok : CuratorRegisterTx.fromDict (.dict b) networkId = .ok tx) : ∃ sigs, tx.governanceSignatures.Perm sigs ∧
      CuratorRegisterTx.fromDict (.dict b') networkId = .ok { tx with governanceSignatures := sigs } := by
  simp only [CuratorRegisterTx.fromDict, bind_eq_ok] at hok
  obtain ⟨d, henv, c, hc, pk, hpk, act, hact, display, hdisplay, root, hroot, sigs, ⟨v, hv, hsigs⟩, heq⟩ := hok
  obtain ⟨rfl, henv'⟩ := h.checkEnvelope henv
  obtain ⟨v', sigs', hv', hsigs', hperm⟩ := h.requireSignatures hv hsigs
  cases heq
  refine ⟨sigs', hperm, ?_⟩
  simp only [CuratorRegisterTx.fromDict, henv', ok_bind, bind_eq_ok]
  rw [h.item (k := "curator_id") (by decide), h.item (k := "public_key_hex") (by decide),
    h.item (k := "activation_height") (by decide), h.other "display_metadata_hash" (by decide),
    h.item (k := "previous_registry_root") (by decide)]
  exact ⟨c, hc, pk, hpk, act, hact, display, hdisplay, root, hroot, sigs', ⟨v', hv', hsigs'⟩, rfl⟩

theorem BodyReordered.rotate (h : BodyReordered b b') {networkId : Str} {tx : CuratorRotateTx}
    (hok : CuratorRotateTx.fromDict (.dict b) networkId = .ok tx) : ∃ sigs, tx.governanceSignatures.Perm sigs ∧
      CuratorRotateTx.fromDict (.dict b') networkId = .ok { tx with governanceSignatures := sigs } := by
  simp only [CuratorRotateTx.fromDict, bind_eq_ok] at hok
  obtain ⟨d, henv, c, hc, pk, hpk, new, hnew, act, hact, display, hdisplay, root, hroot, sigs, ⟨v, hv, hsigs⟩, sig, hsig, heq⟩ := hok
  obtain ⟨rfl, henv'⟩ := h.checkEnvelope henv
  obtain ⟨v', sigs', hv', hsigs', hperm⟩ := h.requireSignatures hv hsigs
  cases heq
  refine ⟨sigs', hperm, ?_⟩
  simp only [CuratorRotateTx.fromDict, henv', ok_bind, bind_eq_ok]
  rw [h.item (k := "curator_id") (by decide), h.item (k := "public_key_hex") (by decide),
    h.item (k := "new_public_key_hex") (by decide), h.item (k := "activation_height") (by decide),
    h.other "display_metadata_hash" (by decide), h.item (k := "previous_registry_root") (by decide),
    h.item (k := "curator_signature") (by decide)]
  exact ⟨c, hc, pk, hpk, new, hnew, act, hact, display, hdisplay, root, hroot, sigs', ⟨v', hv', hsigs'⟩, sig, hsig, rfl⟩

theorem BodyReordered.revoke (h : BodyReordered b b') {networkId : Str} {tx : CuratorRevokeTx}
    (hok : CuratorRevokeTx.fromDict (.dict b) networkId = .ok tx) : ∃ sigs, tx.governanceSignatures.Perm sigs ∧
      CuratorRevokeTx.fromDict (.dict b') networkId = .ok { tx with governanceSignatures := sigs } := by
  simp only [CuratorRevokeTx.fromDict, bind_eq_ok] at hok
  obtain ⟨d, henv, c, hc, pk, hpk, rev, hrev, reason, hreason, root, hroot, sigs, ⟨v, hv, hsigs⟩, sig, hsig, heq⟩ := hok
  obtain ⟨rfl, henv'⟩ := h.checkEnvelope henv
  obtain ⟨v', sigs', hv', hsigs', hperm⟩ := h.requireSignatures hv hsigs
  cases heq
  refine ⟨sigs', hperm, ?_⟩
  simp only [CuratorRevokeTx.fromDict, henv', ok_bind, bind_eq_ok]
  rw [h.item (k := "curator_id") (by decide), h.item (k := "public_key_hex") (by decide),
    h.item (k := "revocation_height") (by decide), h.item (k := "reason_code") (by decide),
    h.item (k := "previous_registry_root") (by decide), h.item (k := "curator_signature") (by decide)]
  exact ⟨c, hc, pk, hpk, rev, hrev, reason, hreason, root, hroot, sigs', ⟨v', hv', hsigs'⟩, sig, hsig, rfl⟩

/-- A reordered transaction parses to the same one with its signatures reordered, or to none as well. -/
def ParsedAlike (r r' : Option GovernanceTx) : Prop :=
  r' = r ∨ ∃ tx sigs, r = some tx ∧ r' = some (tx.withSignatures sigs) ∧ tx.signatures.Perm sigs

theorem Reordered.parse {t t' : Json} (h : Reordered t t') {networkId : Str} {r : Option GovernanceTx}
    (hok : parseGovernanceTransaction networkId t = .ok r) :
    ∃ r', parseGovernanceTransaction networkId t' = .ok r' ∧ ParsedAlike r r' := by
  obtain ⟨before, after, front, back, hperm⟩ := h
  rename_i sigs sigs'
  have hbody := @bodyReordered front back _ _ hperm
  generalize hb : front ++ (str "governance_signatures", Json.list sigs) :: back = b at hbody hok
  generalize hb' : front ++ (str "governance_signatures", Json.list sigs') :: back = b' at hbody
  unfold parseGovernanceTransaction parseGovernanceWith at hok ⊢
  simp only at hok ⊢
  have htype : Fields.getOrNull (before ++ (str "body", Json.dict b') :: after) "type" =
      Fields.getOrNull (before ++ (str "body", Json.dict b) :: after) "type" := by
    rw [Fields.getOrNull, get_replaced (by decide), Fields.getOrNull]
  rw [htype]
  by_cases hgov : (Fields.getOrNull (before ++ (str "body", Json.dict b) :: after) "type").eqStr (str "governance") = true
  · rw [if_pos hgov] at hok ⊢
    rcases @get_own before after "body" (.dict b) (.dict b') with hsame | ⟨hown, hown'⟩
    · rw [hsame]
      exact ⟨r, hok, .inl rfl⟩
    · rw [hown, Option.getD_some] at hok
      rw [hown', Option.getD_some]
      simp only at hok ⊢
      have haction : b'.getOrNull "action" = b.getOrNull "action" := by
        rw [Fields.getOrNull, hbody.other "action" (by decide), Fields.getOrNull]
      rw [haction]
      by_cases hreg : (b.getOrNull "action").eqStr (str "curator_register") = true
      · rw [if_pos hreg] at hok ⊢
        obtain ⟨tx, htx, hr⟩ := bind_eq_ok.mp hok
        obtain ⟨sigs, hsigs, htx'⟩ := hbody.register htx
        cases hr
        exact ⟨_, bind_eq_ok.mpr ⟨_, htx', rfl⟩, .inr ⟨_, sigs, rfl, rfl, hsigs⟩⟩
      rw [if_neg hreg] at hok ⊢
      by_cases hrot : (b.getOrNull "action").eqStr (str "curator_rotate") = true
      · rw [if_pos hrot] at hok ⊢
        obtain ⟨tx, htx, hr⟩ := bind_eq_ok.mp hok
        obtain ⟨sigs, hsigs, htx'⟩ := hbody.rotate htx
        cases hr
        exact ⟨_, bind_eq_ok.mpr ⟨_, htx', rfl⟩, .inr ⟨_, sigs, rfl, rfl, hsigs⟩⟩
      rw [if_neg hrot] at hok ⊢
      by_cases hrev : (b.getOrNull "action").eqStr (str "curator_revoke") = true
      · rw [if_pos hrev] at hok ⊢
        obtain ⟨tx, htx, hr⟩ := bind_eq_ok.mp hok
        obtain ⟨sigs, hsigs, htx'⟩ := hbody.revoke htx
        cases hr
        exact ⟨_, bind_eq_ok.mpr ⟨_, htx', rfl⟩, .inr ⟨_, sigs, rfl, rfl, hsigs⟩⟩
      · rw [if_neg hrev] at hok ⊢
        exact ⟨r, hok, .inl rfl⟩
  · rw [if_neg hgov] at hok ⊢
    exact ⟨r, hok, .inl rfl⟩

end

/-! ## Applying -/

section
variable {E : Primitives} {ctx : GovernanceContext} {s s' : RegistryState} {height : Nat} {txid : Str} {tx : GovernanceTx}
  {sigs : List GovernanceSignature}

theorem verifyGovernanceSignatures_perm {body : Fields} {sigs' : List GovernanceSignature} (h : sigs.Perm sigs')
    (hok : ctx.verifyGovernanceSignatures E body sigs = .ok ()) : ctx.verifyGovernanceSignatures E body sigs' = .ok () := by
  simp only [GovernanceContext.verifyGovernanceSignatures, bind_eq_ok, require_eq_ok, countValid_eq_ok] at hok ⊢
  obtain ⟨message, hmessage, n, ⟨hrange, hnodup, rfl⟩, hle⟩ := hok
  refine ⟨message, hmessage, _, ⟨fun sig hsig => hrange sig (h.mem_iff.mpr hsig), (h.map _).nodup_iff.mp hnodup, rfl⟩, ?_⟩
  rwa [← (h.filter _).length_eq]

theorem signatures_withSignatures : (tx.withSignatures sigs).signatures = sigs := by cases tx <;> rfl

theorem without_append {a b : Fields} {f : Str × Json} {ks : List String} (h : (ks.map str).contains f.1 = true) :
    Fields.without (a ++ f :: b) ks = Fields.without (a ++ b) ks := by
  rw [Fields.without, Fields.without, List.filter_append, List.filter_append, List.filter_cons, h]
  rfl

/-- The other fields of a transaction's dictionary, before and after the signatures. -/
theorem toDict_split (tx : GovernanceTx) : ∃ front back : Fields, ∀ sigs, (tx.withSignatures sigs).toDict =
    front ++ (str "governance_signatures", .list (sigs.map GovernanceSignature.toDict)) :: back := by
  cases tx with
  | register tx => exact ⟨tx.toDict.take 5, tx.toDict.drop 6, fun sigs => rfl⟩
  | rotate tx => exact ⟨tx.toDict.take 6, tx.toDict.drop 7, fun sigs => rfl⟩
  | revoke tx => exact ⟨tx.toDict.take 6, tx.toDict.drop 7, fun sigs => rfl⟩

theorem withSignatures_signatures : tx.withSignatures tx.signatures = tx := by cases tx <;> rfl

theorem toDict_without {ks : List String} (h : (ks.map str).contains (str "governance_signatures") = true) :
    (tx.withSignatures sigs).toDict.without ks = tx.toDict.without ks := by
  obtain ⟨front, back, hdict⟩ := toDict_split tx
  have hself := hdict tx.signatures
  rw [withSignatures_signatures] at hself
  rw [hdict, hself, without_append h, without_append h]

theorem keyIndexOf_toDict (sig : GovernanceSignature) : keyIndexOf sig.toDict = sig.keyIndex.toNat := rfl

theorem sortSignatures_perm {sigs' : List GovernanceSignature} (h : sigs.Perm sigs')
    (hrange : ∀ sig ∈ sigs, 0 ≤ sig.keyIndex) (hnodup : (sigs.map GovernanceSignature.keyIndex).Nodup) :
    sortSignatures (.list (sigs'.map GovernanceSignature.toDict)) = sortSignatures (.list (sigs.map GovernanceSignature.toDict)) := by
  have hkey : ∀ a ∈ sigs.map GovernanceSignature.toDict, ∀ b ∈ sigs.map GovernanceSignature.toDict,
      [keyIndexOf a] = [keyIndexOf b] → a = b := by
    intro a ha b hb hab
    obtain ⟨x, hx, rfl⟩ := List.mem_map.mp ha
    obtain ⟨y, hy, rfl⟩ := List.mem_map.mp hb
    rw [List.cons.injEq, keyIndexOf_toDict, keyIndexOf_toDict] at hab
    have hx0 := hrange x hx
    have hy0 := hrange y hy
    rw [List.inj_on_of_nodup_map hnodup hx hy (by omega)]
  rw [sortSignatures, sortSignatures, Lex.sortOn_eq_of_perm_on Function.injective_id hkey (h.map _)]

theorem canonicalTxid_perm {sigs' : List GovernanceSignature} (h : tx.signatures.Perm sigs')
    (hrange : ∀ sig ∈ tx.signatures, 0 ≤ sig.keyIndex) (hnodup : (tx.signatures.map GovernanceSignature.keyIndex).Nodup) :
    canonicalTxid E (tx.withSignatures sigs').toDict = canonicalTxid E tx.toDict := by
  obtain ⟨front, back, hdict⟩ := toDict_split tx
  have hself := hdict tx.signatures
  rw [withSignatures_signatures] at hself
  rw [hdict, hself, canonicalTxid, canonicalTxid, List.map_append, List.map_append, List.map_cons, List.map_cons, if_pos rfl,
    if_pos rfl, sortSignatures_perm h hrange hnodup]

theorem apply_perm (h : tx.signatures.Perm sigs) (hok : applyRegistryTransaction E s tx height txid ctx = .ok s') :
    applyRegistryTransaction E s (tx.withSignatures sigs) height txid ctx = .ok s' := by
  cases tx with
  | register tx =>
    have hbody : (CuratorRegisterTx.toDict { tx with governanceSignatures := sigs }).without ["governance_signatures"] =
        tx.toDict.without ["governance_signatures"] := @toDict_without (.register tx) sigs _ (by decide)
    simp only [applyRegistryTransaction, GovernanceTx.withSignatures, applyRegister, hbody] at hok ⊢
    obtain ⟨_, hverify, hrest⟩ := bind_eq_ok.mp hok
    exact bind_eq_ok.mpr ⟨(), verifyGovernanceSignatures_perm h hverify, hrest⟩
  | rotate tx =>
    have hbody : (CuratorRotateTx.toDict { tx with governanceSignatures := sigs }).without
        ["governance_signatures", "curator_signature"] =
        tx.toDict.without ["governance_signatures", "curator_signature"] := @toDict_without (.rotate tx) sigs _ (by decide)
    simp only [applyRegistryTransaction, GovernanceTx.withSignatures, applyRotate, hbody] at hok ⊢
    obtain ⟨_, hverify, hrest⟩ := bind_eq_ok.mp hok
    exact bind_eq_ok.mpr ⟨(), verifyGovernanceSignatures_perm h hverify, hrest⟩
  | revoke tx =>
    have hbody : (CuratorRevokeTx.toDict { tx with governanceSignatures := sigs }).without
        ["governance_signatures", "curator_signature"] =
        tx.toDict.without ["governance_signatures", "curator_signature"] := @toDict_without (.revoke tx) sigs _ (by decide)
    simp only [applyRegistryTransaction, GovernanceTx.withSignatures, applyRevoke, hbody] at hok ⊢
    obtain ⟨_, hverify, hrest⟩ := bind_eq_ok.mp hok
    exact bind_eq_ok.mpr ⟨(), verifyGovernanceSignatures_perm h hverify, hrest⟩

end

/-! ## The ledger -/

section
variable {E : Primitives} {l : Ledger} {s s' : RegistryState} {height : Nat} {t t' : Json} {tx : GovernanceTx}

theorem Reordered.symm (h : Reordered t t') : Reordered t' t := by
  obtain ⟨before, after, front, back, hperm⟩ := h
  exact .mk before after front back hperm.symm

/-- An accepted transaction in another order: the parsed one, its id and the next state. -/
theorem Reordered.apply (h : Reordered t t') (hok : l.applyTransactions E s [t] height = .ok s') :
    l.applyTransactions E s [t'] height = .ok s' ∧
    ∀ tx, parseGovernanceTransaction l.networkId t = .ok (some tx) →
      ∃ tx' txid, parseGovernanceTransaction l.networkId t' = .ok (some tx') ∧
        canonicalTxid E tx.toDict = .ok txid ∧ canonicalTxid E tx'.toDict = .ok txid := by
  obtain ⟨s₁, hone, hlast⟩ := (run_cons_ok _).mp hok
  obtain rfl : s₁ = s' := Except.ok.inj hlast
  obtain ⟨r, hparse, hrun⟩ := bind_eq_ok.mp hone
  obtain ⟨r', hparse', halike⟩ := h.parse hparse
  rcases halike with rfl | ⟨tx, sigs, rfl, rfl, hperm⟩
  · refine ⟨(run_cons_ok _).mpr ⟨s₁, bind_eq_ok.mpr ⟨r', hparse', hrun⟩, rfl⟩, fun tx htx => ?_⟩
    obtain rfl : r' = some tx := Except.ok.inj (hparse.symm.trans htx)
    obtain ⟨txid, htxid, -⟩ := bind_eq_ok.mp hrun
    exact ⟨tx, txid, hparse', htxid, htxid⟩
  · have hsigned := transaction_signed hone hparse
    obtain ⟨txid, htxid, happly⟩ := bind_eq_ok.mp hrun
    obtain ⟨hrange, hnodup⟩ : (∀ sig ∈ tx.signatures, 0 ≤ sig.keyIndex) ∧
        (tx.signatures.map GovernanceSignature.keyIndex).Nodup := by
      simp only [GovernanceContext.verifyGovernanceSignatures, bind_eq_ok, require_eq_ok, countValid_eq_ok] at hsigned
      obtain ⟨-, -, -, ⟨hrange, hnodup, -⟩, -⟩ := hsigned
      exact ⟨fun sig hsig => (hrange sig hsig).1, hnodup⟩
    have htxid' : canonicalTxid E (tx.withSignatures sigs).toDict = .ok txid :=
      (canonicalTxid_perm hperm hrange hnodup).trans htxid
    have happly' : applyRegistryTransaction E s (tx.withSignatures sigs) height txid l.governanceContext = .ok s₁ :=
      apply_perm hperm happly
    refine ⟨(run_cons_ok _).mpr ⟨s₁, bind_eq_ok.mpr ⟨_, hparse', bind_eq_ok.mpr ⟨txid, htxid', happly'⟩⟩, rfl⟩,
      fun tx₁ htx₁ => ?_⟩
    obtain rfl : tx = tx₁ := Option.some.inj (Except.ok.inj (hparse.symm.trans htx₁))
    exact ⟨_, txid, hparse', htxid, htxid'⟩

end

/-- A ledger takes a transaction and its reordering alike, under one id and to one state. -/
theorem signature_order_irrelevant (E : Primitives) (l : Ledger) (s : RegistryState) (height : Nat) {t t' : Json}
    (h : Reordered t t') :
    (∀ s', l.applyTransactions E s [t] height = .ok s' ↔ l.applyTransactions E s [t'] height = .ok s') ∧
    ∀ s' tx, l.applyTransactions E s [t] height = .ok s' → parseGovernanceTransaction l.networkId t = .ok (some tx) →
      ∃ tx' txid, parseGovernanceTransaction l.networkId t' = .ok (some tx') ∧
        canonicalTxid E tx.toDict = .ok txid ∧ canonicalTxid E tx'.toDict = .ok txid :=
  ⟨fun _ => ⟨fun hok => (h.apply hok).1, fun hok => (h.symm.apply hok).1⟩, fun _ tx hok => (h.apply hok).2 tx⟩

/-- The registration of alice on the network of two keys, its signatures in the given order. -/
def registerBoth (sigs : List Json) : Json := .dict
  ([] ++ (str "body", .dict
      ([(str "action", .str (str "curator_register")), (str "curator_id", .str (str "alice")),
          (str "public_key_hex", .str aliceKey₁), (str "activation_height", .int 10),
          (str "previous_registry_root", .str pairRoot), (str "network_id", .str (str "chainbreaker-dev")),
          (str "schema_version", .int 1)] ++
        (str "governance_signatures", .list sigs) :: [])) :: [(str "type", .str (str "governance"))])

/-- The signature of the first key, under the key at the position. -/
def signedAt (i : Int) : Json := .dict
  [(str "key_index", .int i),
    (str "signature", .str (str "4f8329deaf8493031f342249c72f45b5f4ea517ded7a9a71c1a778097a993949c78872cf8424614b1f1e72adeb451e540d1ecbdb1d7363fa839c134580be8f0d"))]

set_option maxRecDepth 100000 in
theorem registerBoth_applied : okAnd (fun l => okAnd (fun parsed => parsed.isSome)
    (parseGovernanceTransaction l.networkId (registerBoth [signedAt 0, signedAt 1])) &&
    okAnd (fun _ => true) (l.genesisState >>= fun s =>
      l.applyTransactions pairPrimitives s [registerBoth [signedAt 0, signedAt 1]] 1))
    (Ledger.init pairPrimitives (pairArgs [governanceKey, secondKey])) = true := by decide +kernel

theorem signature_order_irrelevant_pair : ∃ l s s' tx tx' txid,
    Ledger.init pairPrimitives (pairArgs [governanceKey, secondKey]) = .ok l ∧ l.genesisState = .ok s ∧
    parseGovernanceTransaction l.networkId (registerBoth [signedAt 0, signedAt 1]) = .ok (some tx) ∧
    parseGovernanceTransaction l.networkId (registerBoth [signedAt 1, signedAt 0]) = .ok (some tx') ∧
    canonicalTxid pairPrimitives tx.toDict = .ok txid ∧ canonicalTxid pairPrimitives tx'.toDict = .ok txid ∧
    l.applyTransactions pairPrimitives s [registerBoth [signedAt 0, signedAt 1]] 1 = .ok s' ∧
    l.applyTransactions pairPrimitives s [registerBoth [signedAt 1, signedAt 0]] 1 = .ok s' := by
  obtain ⟨l, hl, h⟩ := of_okAnd registerBoth_applied
  rw [Bool.and_eq_true] at h
  obtain ⟨parsed, hparsed, hsome⟩ := of_okAnd h.1
  obtain ⟨tx, rfl⟩ := Option.isSome_iff_exists.mp hsome
  obtain ⟨s', happlied, -⟩ := of_okAnd h.2
  obtain ⟨s, hs, happlied⟩ := bind_eq_ok.mp happlied
  have hswap : Reordered (registerBoth [signedAt 0, signedAt 1]) (registerBoth [signedAt 1, signedAt 0]) :=
    .mk [] _ _ [] (.swap (signedAt 1) (signedAt 0) [])
  obtain ⟨happly, hids⟩ := signature_order_irrelevant pairPrimitives l s 1 hswap
  obtain ⟨tx', txid, htx', htxid, htxid'⟩ := hids s' tx happlied hparsed
  exact ⟨l, s, s', tx, tx', txid, hl, hs, hparsed, htx', htxid, htxid', happlied, (happly s').mp happlied⟩

end ChainBreaker
