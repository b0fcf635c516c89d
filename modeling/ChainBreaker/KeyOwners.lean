import ChainBreaker.Acceptance
import ChainBreaker.CacheCoherence
import ChainBreaker.ReplayProtection

/-!
# To whom a key belongs

The reducer compares a new key, as it is spelled, with the keys of the records
still present. Over the whole history, and by the bytes the keys decode to, a
key belongs to one curator exactly while nobody brings a key of another curator
that is spelled differently or whose record was dropped (`keys_apart_iff`).
-/

namespace ChainBreaker

open Fallible

/-! ## The keys a step brings -/

def CuratorRecord.owner (r : CuratorRecord) : Str × Str := (r.curatorId, r.publicKeyHex)

/-- The curator and the key a transaction brings in. -/
def GovernanceTx.introduced : GovernanceTx → Option (Str × Str)
  | .register tx => some (tx.curatorId, tx.publicKeyHex)
  | .rotate tx => some (tx.curatorId, tx.newPublicKeyHex)
  | .revoke _ => none

section
variable {s s' : RegistryState} {height : Nat} {txid : Str} {tx : GovernanceTx} {c k : Str}

/-- A record of the new state has the owner and key of an old one, or the transaction's. -/
theorem accepted_owner (ha : Accepted s height txid s' tx) {r : CuratorRecord} (hr : r ∈ s'.records) :
    (∃ old ∈ s.records, old.owner = r.owner) ∨ tx.introduced = some r.owner := by
  have hmem : r ∈ s'.recordsOf r.curatorId := by
    rw [RegistryState.recordsOf, List.mem_filter]
    exact ⟨hr, by simp⟩
  have kept : ∀ {d new}, s.Rewrote s' d new → r.curatorId ≠ d → ∃ old ∈ s.records, old.owner = r.owner := by
    intro d new hw hne
    rw [hw, if_neg hne] at hmem
    exact ⟨r, List.mem_of_mem_filter hmem, rfl⟩
  cases ha with
  | register tx _ _ _ hw _ =>
    by_cases hc : r.curatorId = tx.curatorId
    · rw [hw, if_pos hc, List.mem_singleton] at hmem
      exact .inr (by rw [hmem]; rfl)
    · exact .inl (kept hw hc)
  | rotate tx old _ hid _ _ hw _ =>
    by_cases hc : r.curatorId = tx.curatorId
    · rw [hw, if_pos hc] at hmem
      rcases List.mem_cons.mp hmem with rfl | hmem
      · exact .inl ⟨old, byId_records hid, rfl⟩
      · rw [List.mem_singleton] at hmem
        exact .inr (by rw [hmem]; rfl)
    · exact .inl (kept hw hc)
  | revoke tx old _ hid _ _ _ hw _ =>
    by_cases hc : r.curatorId = tx.curatorId
    · rw [hw, if_pos hc, List.mem_singleton] at hmem
      exact .inl ⟨old, byId_records hid, by rw [hmem]; rfl⟩
    · exact .inl (kept hw hc)

theorem accepted_introduced (ha : Accepted s height txid s' tx) (hi : tx.introduced = some (c, k)) :
    ∃ r ∈ s'.records, r.owner = (c, k) := by
  have written : ∀ {d : Str} {new : List CuratorRecord} {r : CuratorRecord}, s.Rewrote s' d new → r ∈ new →
      r ∈ s'.records := by
    intro d new r hw hr
    have hmem : r ∈ s'.recordsOf d := by rw [hw, if_pos rfl]; exact hr
    exact List.mem_of_mem_filter hmem
  cases ha with
  | register tx _ _ _ hw _ =>
    cases hi
    exact ⟨_, written hw (.head _), rfl⟩
  | rotate tx old _ _ _ _ hw _ =>
    cases hi
    exact ⟨_, written hw (.tail _ (.head _)), rfl⟩
  | revoke tx old _ _ _ _ _ hw _ => cases hi

/-- The check of the reducer: nobody else present spells the key the same. -/
theorem apply_unused {E : Primitives} {ctx : GovernanceContext}
    (h : applyRegistryTransaction E s tx height txid ctx = .ok s') (hi : tx.introduced = some (c, k)) :
    ∀ r ∈ s.records, r.publicKeyHex = k → r.curatorId = c := by
  intro r hr hk
  cases tx with
  | register tx =>
    cases hi
    cases applyRegister_ok E h with
    | register _ _ _ hfree => exact absurd hk (hfree r hr)
  | rotate tx =>
    cases hi
    simp only [applyRegistryTransaction, applyRotate, bind_eq_ok] at h
    obtain ⟨_, -, _, -, _, -, _, -, _, -, _, -, _, -, _, hunused, -⟩ := h
    unfold requirePublicKeyUnused at hunused
    split at hunused
    · rename_i hnone
      have hno := List.find?_eq_none.mp hnone r hr
      simpa [hk] using hno
    · cases hunused
  | revoke tx => cases hi

end

/-! ## The whole history -/

section
variable (E : Primitives)

/-- Records of two curators, from any two states of the chain, have different keys. -/
def Ledger.KeysApart (l : Ledger) : Prop :=
  ∀ p p' u u', p <+: placed l.chain → p' <+: placed l.chain → l.Visits E p u → l.Visits E p' u' →
    ∀ r ∈ u.records, ∀ r' ∈ u'.records, r.curatorId ≠ r'.curatorId → fromHex r.publicKeyHex ≠ fromHex r'.publicKeyHex

/-- The transaction `t` is accepted at the state `s` after `pre`, and brings
the key `k` for the curator `c`. -/
def Ledger.Admits (l : Ledger) (pre : List (Json × Nat)) (t : Json × Nat) (s : RegistryState) (c k : Str) : Prop :=
  l.Visits E pre s ∧ (∃ s', l.Visits E (pre ++ [t]) s') ∧
    ∃ tx, parseGovernanceTransaction l.networkId t.1 = .ok (some tx) ∧ tx.introduced = some (c, k)

/-- The key `k` of `c` has the bytes of a key that somebody else's record had
before `s`, and the check at `s` does not see it: the key is spelled
differently, or its record was dropped. -/
def Ledger.Reuses (l : Ledger) (pre : List (Json × Nat)) (s : RegistryState) (c k : Str) : Prop :=
  ∃ p u, p <+: pre ∧ l.Visits E p u ∧ ∃ r ∈ u.records, r.curatorId ≠ c ∧ fromHex r.publicKeyHex = fromHex k ∧
    (r.publicKeyHex ≠ k ∨ ∀ r' ∈ s.records, r'.owner ≠ r.owner)

variable {E} {l : Ledger} {s s' : RegistryState} {pre pre' : List (Json × Nat)} {t t' : Json × Nat} {c c' k k' : Str}

theorem visits_unique (h : l.Visits E pre s) (h' : l.Visits E pre s') : s = s' := by
  obtain ⟨g, hg, hrun⟩ := h
  obtain ⟨g', hg', hrun'⟩ := h'
  obtain rfl := Except.ok.inj (hg.symm.trans hg')
  exact Except.ok.inj (hrun.symm.trans hrun')

/-- **Step.** A transaction of the chain that is no governance transaction
changes nothing, and one that is was accepted. -/
theorem visits_snoc (h : l.Visits E (pre ++ [t]) s') :
    ∃ s, l.Visits E pre s ∧ ((parseGovernanceTransaction l.networkId t.1 = .ok none ∧ s' = s) ∨
      ∃ tx txid, parseGovernanceTransaction l.networkId t.1 = .ok (some tx) ∧
        applyRegistryTransaction E s tx t.2 txid l.governanceContext = .ok s') := by
  obtain ⟨g, hg, hrun⟩ := h
  obtain ⟨s, hs, hstep⟩ := (run_snoc_ok _).mp hrun
  refine ⟨s, ⟨g, hg, hs⟩, ?_⟩
  obtain ⟨parsed, hparse, hstep⟩ := bind_eq_ok.mp hstep
  cases parsed with
  | none =>
    cases hstep
    exact .inl ⟨hparse, rfl⟩
  | some tx =>
    obtain ⟨txid, -, hstep⟩ := bind_eq_ok.mp hstep
    exact .inr ⟨tx, txid, hparse, hstep⟩

theorem admits_unique (h : l.Admits E pre t s c k) (h' : l.Admits E pre t s' c' k') : c = c' := by
  obtain ⟨-, -, tx, hparse, hi⟩ := h
  obtain ⟨-, -, tx', hparse', hi'⟩ := h'
  rw [hparse] at hparse'
  cases hparse'
  rw [hi] at hi'
  cases hi'
  rfl

/-- What an admitted transaction brings is in the state after it, and nobody
else had it at the state before. -/
theorem admits_apply (h : l.Admits E pre t s c k) :
    (∃ s', l.Visits E (pre ++ [t]) s' ∧ ∃ r ∈ s'.records, r.owner = (c, k)) ∧
      ∀ r ∈ s.records, r.publicKeyHex = k → r.curatorId = c := by
  obtain ⟨hs, ⟨s', hs'⟩, tx, hparse, hi⟩ := h
  obtain ⟨s₁, hs₁, ⟨hnone, -⟩ | ⟨tx', txid, hparse', ha⟩⟩ := visits_snoc hs'
  · rw [hparse] at hnone
    cases hnone
  · obtain rfl := visits_unique hs hs₁
    rw [hparse] at hparse'
    cases hparse'
    exact ⟨⟨s', hs', accepted_introduced (applyRegistryTransaction_ok E ha) hi⟩, apply_unused ha hi⟩

/-- What a state holds, a transaction before it brought. -/
theorem owner_admitted {r : CuratorRecord} (hr : r ∈ s.records) (h : l.Visits E pre s) :
    ∃ p t u, p ++ [t] <+: pre ∧ l.Admits E p t u r.curatorId r.publicKeyHex := by
  induction pre using List.reverseRecOn generalizing s r with
  | nil =>
    obtain ⟨g, hg, hrun⟩ := h
    cases hrun
    rw [genesisState_records hg] at hr
    cases hr
  | append_singleton pre t ih =>
    have before : ∀ {u old}, l.Visits E pre u → old ∈ u.records → old.owner = r.owner →
        ∃ p t' u, p ++ [t'] <+: pre ++ [t] ∧ l.Admits E p t' u r.curatorId r.publicKeyHex := by
      intro u old hu hold howner
      obtain ⟨p, t', v, hp, ha⟩ := ih hold hu
      obtain ⟨hc, hk⟩ := Prod.mk.inj howner
      rw [hc, hk] at ha
      exact ⟨p, t', v, hp.trans (List.prefix_append _ _), ha⟩
    obtain ⟨u, hu, ⟨-, rfl⟩ | ⟨tx, txid, hparse, ha⟩⟩ := visits_snoc h
    · exact before hu hr rfl
    · rcases accepted_owner (applyRegistryTransaction_ok E ha) hr with ⟨old, hold, howner⟩ | hi
      · exact before hu hold howner
      · exact ⟨pre, t, u, List.prefix_refl _, hu, ⟨s, h⟩, tx, hparse, hi⟩

/-- A key brought after another curator's, with the same bytes, is one the check does not see. -/
theorem reuses_of_later (h : l.Admits E pre t s c k) (h' : l.Admits E pre' t' s' c' k') (hlater : pre ++ [t] <+: pre')
    (hne : c ≠ c') (hbytes : fromHex k = fromHex k') : l.Reuses E pre' s' c' k' := by
  obtain ⟨⟨u, hu, r, hr, howner⟩, -⟩ := admits_apply h
  obtain ⟨-, hunused⟩ := admits_apply h'
  obtain ⟨rfl, rfl⟩ := Prod.mk.inj howner
  refine ⟨_, u, hlater, hu, r, hr, hne, hbytes, ?_⟩
  by_cases hspelled : r.publicKeyHex = k'
  · refine .inr fun r' hr' hsame => hne ?_
    obtain ⟨hc, hk⟩ := Prod.mk.inj hsame
    rw [← hc]
    exact hunused r' hr' (hk.trans hspelled)
  · exact .inl hspelled

theorem keysApart_iff (l : Ledger) :
    l.KeysApart E ↔ ∀ pre t post s c k, placed l.chain = pre ++ t :: post → l.Admits E pre t s c k →
      ¬ l.Reuses E pre s c k := by
  constructor
  · rintro h pre t post s c k hchain ha ⟨p, u, hp, hu, r, hr, hne, hbytes, -⟩
    obtain ⟨⟨s', hs', r', hr', howner⟩, -⟩ := admits_apply ha
    obtain ⟨rfl, rfl⟩ := Prod.mk.inj howner
    have hpre : pre ++ [t] <+: placed l.chain := ⟨post, by rw [hchain, List.append_assoc]; rfl⟩
    exact h p _ u s' ((hp.trans (List.prefix_append _ _)).trans hpre) hpre hu hs' r hr r' hr' hne hbytes
  · intro h p p' u u' hp hp' hu hu' r hr r' hr' hne hbytes
    obtain ⟨q, t, v, hq, ha⟩ := owner_admitted hr hu
    obtain ⟨q', t', v', hq', ha'⟩ := owner_admitted hr' hu'
    have hplaced := hq.trans hp
    have hplaced' := hq'.trans hp'
    have apart : ∀ {q t v c k q' t' v' c' k'}, l.Admits E q t v c k → l.Admits E q' t' v' c' k' →
        q' ++ [t'] <+: placed l.chain → q ++ [t] <+: q' → c ≠ c' → fromHex k ≠ fromHex k' := by
      intro q t v c k q' t' v' c' k' ha ha' hin hlater hne hbytes
      obtain ⟨post, hpost⟩ := hin
      refine h q' t' post v' c' k' ?_ ha' (reuses_of_later ha ha' hlater hne hbytes)
      rw [← hpost, List.append_assoc]
      rfl
    by_cases heq : q ++ [t] = q' ++ [t']
    · obtain ⟨rfl, ht⟩ := List.append_inj' heq rfl
      cases ht
      exact hne (admits_unique ha ha')
    -- otherwise one of the two transactions comes first
    · rcases List.prefix_or_prefix_of_prefix hplaced hplaced' with hle | hle
      · exact apart ha ha' hplaced' ((List.prefix_concat_iff.mp hle).resolve_left heq) hne hbytes
      · exact apart ha' ha hplaced ((List.prefix_concat_iff.mp hle).resolve_left (Ne.symm heq)) hne.symm hbytes.symm

/-- A key belongs to one curator along a run exactly while no accepted
transaction brings back the bytes of a key of somebody else. -/
theorem keys_apart_iff (l : Ledger) (calls : List (AnyBlock × Int)) :
    (l.offers E calls).KeysApart E ↔ ∀ pre t post s c k, placed (l.offers E calls).chain = pre ++ t :: post →
      (l.offers E calls).Admits E pre t s c k → ¬ (l.offers E calls).Reuses E pre s c k :=
  keysApart_iff _

/-- The state of a height of the chain is visited. -/
theorem stateAt_visits {i : Nat} (h : l.stateAt E i = .ok s) : ∃ p, p <+: placed l.chain ∧ l.Visits E p s := by
  have hi : i < l.chain.length := by
    by_contra hge
    rw [Ledger.stateAt, if_pos (Nat.not_lt.mp hge)] at h
    cases h
  rw [stateAt_eq hi] at h
  obtain ⟨g, hg, hrun⟩ := bind_eq_ok.mp h
  refine ⟨_, ?_, g, hg, (run_blocks _ _).trans hrun⟩
  have hsplit := congrArg (List.flatMap fun p => p.1.transactions.map fun t => (t, p.2))
    (List.take_append_drop i (numbered l.chain))
  rw [List.flatMap_append, numbered_take] at hsplit
  exact ⟨_, hsplit⟩

end

/-! ## One key, spelled twice -/

def registerDev (curator key root signature : Str) : Json := .dict
  [(str "type", .str (str "governance")),
    (str "body", .dict
      [(str "action", .str (str "curator_register")),
        (str "curator_id", .str curator),
        (str "public_key_hex", .str key),
        (str "activation_height", .int 10),
        (str "previous_registry_root", .str root),
        (str "network_id", .str (str "chainbreaker-dev")),
        (str "schema_version", .int 1),
        (str "governance_signatures", .list [.dict
          [(str "key_index", .int 0), (str "signature", .str signature)]])])]

def sharedKey : Str := List.replicate 64 49

def sharedRegistered : Str := str "45fe13438b3b2aca3640675e3fa36fd0ba0a2be1eb2185e51fc5653227e9b7bc"

def aliceSignature : Str := str "3d34f02a9eb5fc97e47ad1876409cea6aa62bab2679465cf967bcb31d6d2f914a09663152cce6057341e196b4c34bbf612fde32e390782c5e51d0bedc4cd1a03"

def bobSignature : Str := str "7578397a7eb1a9eeb90063e7c24d10f55b6ddb090a7b01a38e863eedf94fdec544dda67b56337d439421f90204d0e4076176b96d31c18146177d94bc718dc901"

/-- Registers alice with a key, and bob with the same key and a line feed. -/
def sharedBlock : BlockV2 where
  header := { genesisHeader devRoot 1704090439 with
    prevHash := devGenesisHash
    merkleRoot := str "fae12dd3fd043dd122766dcdac60ae9aa159697ca34383ed65c5d70fb6be4761"
    nonce := 39588 }
  transactions := [registerDev (str "alice") sharedKey devRoot aliceSignature,
    registerDev (str "bob") (sharedKey ++ [10]) sharedRegistered bobSignature]

def sharedPrimitives : Primitives := recorded
  [(devKey, str "f207e8034a01522c596f8cf71cd6bc6301490d85c4f674e656aec7512d72a846", aliceSignature),
    (devKey, str "7d8808d31f40a793b748f94ba94b557d4e0cc95764848e01d8716ba879a54c34", bobSignature)]

set_option maxRecDepth 100000 in
theorem sharedBlock_added : ∃ l₀, Ledger.init sharedPrimitives { networkIdentity := some devIdentity } = .ok l₀ ∧
    okAnd (fun answer => answer.1 && (answer.2.registryStates 1).any fun s => s.records.map CuratorRecord.owner ==
      [(str "alice", sharedKey), (str "bob", sharedKey ++ [10])] && (serializeRegistryState s).isOk)
      (l₀.addBlockV2 sharedPrimitives sharedBlock 1704090439) = true :=
  of_okAnd (by decide +kernel)

example : fromHex (sharedKey ++ [10]) = fromHex sharedKey := by decide +kernel

/-- The block is taken, and the state after it has alice's record and bob's. -/
theorem sharedBlock_state : ∃ l₀ s b, Ledger.init sharedPrimitives { networkIdentity := some devIdentity } = .ok l₀ ∧
    (l₀.offers sharedPrimitives [(.v2 sharedBlock, 1704090439)]).stateAt sharedPrimitives 1 = .ok s ∧
      s.records.map CuratorRecord.owner = [(str "alice", sharedKey), (str "bob", sharedKey ++ [10])] ∧
      serializeRegistryState s = .ok b := by
  obtain ⟨l₀, hl₀, hadd⟩ := sharedBlock_added
  obtain ⟨⟨added, l⟩, hl, hadded⟩ := of_okAnd hadd
  rw [Bool.and_eq_true] at hadded
  obtain ⟨rfl, hstate⟩ := hadded
  have hoffer : l₀.offers sharedPrimitives [(.v2 sharedBlock, 1704090439)] = l := by
    have hcall : l₀.addBlock sharedPrimitives (.v2 sharedBlock) 1704090439 = .ok (true, l) := hl
    change l₀.offer _ _ = l
    rw [Ledger.offer, hcall]
  have hkept : (l₀.offers sharedPrimitives [(.v2 sharedBlock, 1704090439)]).CacheKept sharedPrimitives := by
    refine cacheKept_offers (init_cacheKept hl₀) fun pre b now post hsplit => ?_
    rcases pre with _ | ⟨x, pre⟩ <;> simp at hsplit
  rw [hoffer] at hkept
  obtain ⟨s, hs, hheld⟩ := (Option.any_eq_true _ _).mp hstate
  rw [Bool.and_eq_true] at hheld
  obtain ⟨howners, hbytes⟩ := hheld
  cases hb : serializeRegistryState s with
  | error e =>
    rw [hb] at hbytes
    cases hbytes
  | ok b =>
    refine ⟨l₀, s, b, hl₀, ?_, eq_of_beq howners, hb⟩
    rw [hoffer]
    exact hkept.state_of hs

/-- Both spellings are accepted: one key belongs to alice and to bob. -/
theorem keys_shared : ¬ ∀ (E : Primitives) (args : LedgerArgs) (l : Ledger) (calls : List (AnyBlock × Int)),
    Ledger.init E args = .ok l → (l.offers E calls).KeysApart E := by
  intro h
  obtain ⟨l₀, s, -, hl₀, hstate, howners, -⟩ := sharedBlock_state
  have hapart := h sharedPrimitives _ _ [(.v2 sharedBlock, 1704090439)] hl₀
  obtain ⟨p, hp, hvisits⟩ := stateAt_visits hstate
  have howned : ∀ o ∈ [(str "alice", sharedKey), (str "bob", sharedKey ++ [10])], ∃ r ∈ s.records, r.owner = o := by
    intro o ho
    rw [← howners] at ho
    exact List.mem_map.mp ho
  obtain ⟨r, hr, howner⟩ := howned _ (.head _)
  obtain ⟨r', hr', howner'⟩ := howned _ (.tail _ (.head _))
  obtain ⟨hc, hk⟩ := Prod.mk.inj howner
  obtain ⟨hc', hk'⟩ := Prod.mk.inj howner'
  refine hapart p p s s hp hp hvisits hvisits r hr r' hr' ?_ ?_
  · rw [hc, hc']
    decide
  · rw [hk, hk']
    decide

end ChainBreaker
