import ChainBreaker.CacheCoherence

/-!
# The order of the governance keys

Identity, genesis root and registry state sort the governance keys; a signature
names its key by the position in the list a ledger was configured with. Two
ledgers with the same keys in different orders stay together exactly while
every block that one of them takes is signed under the order of the other too
(`key_order_iff`).
-/

namespace ChainBreaker

open Fallible

/-! ## Signatures under one list of keys -/

def GovernanceTx.signatures : GovernanceTx → List GovernanceSignature
  | .register tx => tx.governanceSignatures
  | .rotate tx => tx.governanceSignatures
  | .revoke tx => tx.governanceSignatures

/-- The body the governance keys sign. -/
def GovernanceTx.signedBody : GovernanceTx → Fields
  | .register tx => tx.toDict.without ["governance_signatures"]
  | .rotate tx => tx.toDict.without ["governance_signatures", "curator_signature"]
  | .revoke tx => tx.toDict.without ["governance_signatures", "curator_signature"]

section
variable (E : Primitives)

/-- Enough of the signatures hold under the keys at their positions. -/
def GovernanceContext.Signed (ctx : GovernanceContext) (body : Fields) (signatures : List GovernanceSignature) : Prop :=
  ∃ message, governanceMessage E body ctx.networkId = .ok message ∧
    ctx.threshold ≤ (signatures.filter (GovernanceSignature.holds E ctx.publicKeysHex message)).length

/-- Every governance transaction of the block is signed under the keys of `l`. -/
def BlockV2.SignedFor (b : BlockV2) (l : Ledger) : Prop :=
  ∀ t ∈ b.transactions, ∀ tx, parseGovernanceTransaction l.networkId t = .ok (some tx) →
    l.governanceContext.Signed E tx.signedBody tx.signatures

end

section
variable {E : Primitives} {ctx ctx' : GovernanceContext} {s s' : RegistryState} {height : Nat}

/-- The loop accepts distinct positions within the list, and counts. -/
theorem countValid_eq_ok {keys : List Str} {message : Bytes} : ∀ {sigs : List GovernanceSignature} {used : List Int}
    {valid n : Nat}, countValid E keys message sigs used valid = .ok n ↔
      (∀ sig ∈ sigs, 0 ≤ sig.keyIndex ∧ sig.keyIndex < keys.length ∧ sig.keyIndex ∉ used) ∧
        (sigs.map GovernanceSignature.keyIndex).Nodup ∧
        n = valid + (sigs.filter (GovernanceSignature.holds E keys message)).length := by
  intro sigs
  induction sigs with
  | nil =>
    intro used valid n
    simp [countValid, eq_comm]
  | cons sig rest ih =>
    intro used valid n
    rw [List.forall_mem_cons, List.map_cons, List.nodup_cons, List.filter_cons]
    simp only [countValid, bind_eq_ok, require_eq_ok, exists_const, ih,
      List.mem_map, List.mem_cons, not_or]
    have hcount : ∀ k : Nat, (if sig.holds E keys message = true then valid + 1 else valid) + k =
        valid + if sig.holds E keys message = true then k + 1 else k := by
      intro k
      split <;> omega
    have hlen : (if sig.holds E keys message = true then
          sig :: rest.filter (GovernanceSignature.holds E keys message)
        else rest.filter (GovernanceSignature.holds E keys message)).length =
        if sig.holds E keys message = true then (rest.filter (GovernanceSignature.holds E keys message)).length + 1
        else (rest.filter (GovernanceSignature.holds E keys message)).length := by
      split <;> rfl
    rw [hlen, ← hcount]
    constructor
    · rintro ⟨h0, hlt, hused, hrest, hnodup, hn⟩
      exact ⟨⟨⟨h0, hlt, hused⟩, fun r hr => ⟨(hrest r hr).1, (hrest r hr).2.1, (hrest r hr).2.2.2⟩⟩,
        ⟨not_exists.mpr fun r hr => (hrest r hr.1).2.2.1 hr.2, hnodup⟩, hn⟩
    · rintro ⟨⟨⟨h0, hlt, hused⟩, hrest⟩, ⟨hfresh, hnodup⟩, hn⟩
      exact ⟨h0, hlt, hused, fun r hr => ⟨(hrest r hr).1, (hrest r hr).2.1, fun heq => hfresh ⟨r, hr, heq⟩,
        (hrest r hr).2.2⟩, hnodup, hn⟩

theorem verifyGovernanceSignatures_signed {body : Fields} {sigs : List GovernanceSignature}
    (h : ctx.verifyGovernanceSignatures E body sigs = .ok ()) : ctx.Signed E body sigs := by
  simp only [GovernanceContext.verifyGovernanceSignatures, bind_eq_ok, require_eq_ok, countValid_eq_ok] at h
  obtain ⟨message, hm, n, ⟨-, -, rfl⟩, hle⟩ := h
  exact ⟨message, hm, by omega⟩

/-- Under as many other keys the signatures only have to hold. -/
theorem verifyGovernanceSignatures_transfer {body : Fields} {sigs : List GovernanceSignature}
    (hlen : ctx'.publicKeysHex.length = ctx.publicKeysHex.length)
    (h : ctx.verifyGovernanceSignatures E body sigs = .ok ()) (hsigned : ctx'.Signed E body sigs) :
    ctx'.verifyGovernanceSignatures E body sigs = .ok () := by
  simp only [GovernanceContext.verifyGovernanceSignatures, bind_eq_ok, require_eq_ok, countValid_eq_ok] at h ⊢
  obtain ⟨-, -, n, ⟨hrange, hnodup, -⟩, -⟩ := h
  obtain ⟨message, hm, hle⟩ := hsigned
  rw [← hlen] at hrange
  exact ⟨message, hm, _, ⟨hrange, hnodup, rfl⟩, by omega⟩

/-- The keys matter to the reducer in the check of the signatures alone. -/
theorem apply_context (E : Primitives) (s : RegistryState) (tx : GovernanceTx) (height : Nat) (txid : Str) :
    ∃ rest, ∀ ctx : GovernanceContext, applyRegistryTransaction E s tx height txid ctx =
      (ctx.verifyGovernanceSignatures E tx.signedBody tx.signatures >>= fun _ => rest) := by
  cases tx with
  | register tx => exact ⟨_, fun _ => rfl⟩
  | rotate tx => exact ⟨_, fun _ => rfl⟩
  | revoke tx => exact ⟨_, fun _ => rfl⟩

section
variable {parse : Json → Except PyErr (Option GovernanceTx)}

theorem transaction_signed {t : Json} {tx : GovernanceTx}
    (h : applyTransactionWith E parse ctx height s t = .ok s') (hparse : parse t = .ok (some tx)) :
    ctx.verifyGovernanceSignatures E tx.signedBody tx.signatures = .ok () := by
  simp only [applyTransactionWith, hparse, ok_bind, bind_eq_ok] at h
  obtain ⟨txid, -, h⟩ := h
  obtain ⟨rest, hrest⟩ := apply_context E s tx height txid
  rw [hrest ctx, bind_eq_ok] at h
  obtain ⟨_, h, -⟩ := h
  exact h

theorem transaction_transfer {t : Json} (hlen : ctx'.publicKeysHex.length = ctx.publicKeysHex.length)
    (h : applyTransactionWith E parse ctx height s t = .ok s')
    (hsigned : ∀ tx, parse t = .ok (some tx) → ctx'.Signed E tx.signedBody tx.signatures) :
    applyTransactionWith E parse ctx' height s t = .ok s' := by
  obtain ⟨parsed, hparse, hrun⟩ := bind_eq_ok.mp h
  cases parsed with
  | none =>
    rw [applyTransactionWith, hparse]
    exact hrun
  | some tx =>
    have hverified := verifyGovernanceSignatures_transfer hlen (transaction_signed h hparse) (hsigned tx hparse)
    obtain ⟨txid, htxid, hrun⟩ := bind_eq_ok.mp hrun
    obtain ⟨rest, hrest⟩ := apply_context E s tx height txid
    simp only [applyTransactionWith, hparse, ok_bind, htxid]
    rw [hrest ctx, bind_eq_ok] at hrun
    obtain ⟨_, -, hrun⟩ := hrun
    rw [hrest ctx', hverified, ok_bind]
    exact hrun

theorem transactions_signed : ∀ {ts : List Json} {s : RegistryState},
    applyTransactionsWith E parse ctx s ts height = .ok s' → ∀ t ∈ ts, ∀ tx, parse t = .ok (some tx) →
      ctx.verifyGovernanceSignatures E tx.signedBody tx.signatures = .ok ()
  | [], _, _, _, ht, _, _ => by cases ht
  | u :: ts, s, h, t, ht, tx, hparse => by
    obtain ⟨s₁, hu, hrest⟩ := (run_cons_ok _).mp h
    rcases List.mem_cons.mp ht with rfl | ht
    · exact transaction_signed hu hparse
    · exact transactions_signed hrest t ht tx hparse

theorem transactions_transfer (hlen : ctx'.publicKeysHex.length = ctx.publicKeysHex.length) :
    ∀ {ts : List Json} {s : RegistryState}, applyTransactionsWith E parse ctx s ts height = .ok s' →
      (∀ t ∈ ts, ∀ tx, parse t = .ok (some tx) → ctx'.Signed E tx.signedBody tx.signatures) →
      applyTransactionsWith E parse ctx' s ts height = .ok s' := by
  intro ts
  induction ts with
  | nil =>
    intro s h _
    rw [applyTransactionsWith, run_nil] at h ⊢
    exact h
  | cons t ts ih =>
    intro s h hsigned
    obtain ⟨s₁, ht, hrest⟩ := (run_cons_ok _).mp h
    refine (run_cons_ok _).mpr ⟨s₁, transaction_transfer hlen ht (hsigned t (.head _)), ?_⟩
    exact ih hrest fun u hu => hsigned u (.tail _ hu)

end

end

/-! ## Two ledgers side by side -/

/-- The same ledger, up to the order of the governance keys. -/
structure Ledger.Twin (E : Primitives) (l l' : Ledger) : Prop where
  chain : l'.chain = l.chain
  chain_ne : l.chain ≠ []
  identity : l'.networkIdentity = l.networkIdentity
  validator : l'.transactionValidator = l.transactionValidator
  count : l'.governanceContext.publicKeysHex.length = l.governanceContext.publicKeysHex.length
  replayed : ∃ s, l.replay E l.chain = .ok s ∧ l'.replay E l.chain = .ok s

section
variable {E : Primitives} {l l' : Ledger} {b : BlockV2} {now : Int} {s s' : RegistryState}

theorem Ledger.Twin.symm (h : l.Twin E l') : l'.Twin E l where
  chain := h.chain.symm
  chain_ne := h.chain ▸ h.chain_ne
  identity := h.identity.symm
  validator := h.validator.symm
  count := h.count.symm
  replayed := by
    obtain ⟨s, hs, hs'⟩ := h.replayed
    rw [h.chain]
    exact ⟨s, hs', hs⟩

theorem Ledger.Follows.signed (h : l.Follows E l.chain b s s') : b.SignedFor E l :=
  fun t ht tx hparse => verifyGovernanceSignatures_signed (transactions_signed h.applied t ht tx hparse)

/-- A block that is signed under both orders is taken by both ledgers. -/
theorem Ledger.Twin.follows (h : l.Twin E l') (hf : l.Follows E l.chain b s s') (hsigned : b.SignedFor E l') :
    l'.Follows E l'.chain b s s' := by
  obtain ⟨t, ht, ht'⟩ := h.replayed
  have hst : t = s := Except.ok.inj (ht.symm.trans hf.replayed)
  have hnetwork : l'.networkId = l.networkId := by rw [Ledger.networkId, h.identity, Ledger.networkId]
  rw [h.chain]
  refine { linked := hf.linked, target := hf.target, replayed := hst ▸ ht', root := hf.root, median := hf.median,
           intact := h.validator ▸ hf.intact, applied := ?_ }
  rw [Ledger.applyTransactions, hnetwork]
  refine transactions_transfer h.count hf.applied fun u hu tx hparse => ?_
  rw [← hnetwork] at hparse
  exact hsigned u hu tx hparse

theorem Ledger.Twin.grown (h : l.Twin E l') (hf : l.Follows E l.chain b s s') (hf' : l'.Follows E l'.chain b s s')
    (cache cache' : StateCache) :
    ({ l with chain := l.chain ++ [.v2 b], registryStates := cache } : Ledger).Twin E
      { l' with chain := l'.chain ++ [.v2 b], registryStates := cache' } where
  chain := by rw [h.chain]
  chain_ne := by simp
  identity := h.identity
  validator := h.validator
  count := h.count
  replayed := by
    refine ⟨s', (hf.replay_append h.chain_ne : l.replay E _ = _), ?_⟩
    have := hf'.replay_append (h.chain ▸ h.chain_ne)
    rw [h.chain] at this
    exact (this : l'.replay E _ = _)

/-- **Step.** Twins stay twins at a block that is signed under both orders if
one of them takes it. -/
theorem Ledger.Twin.offer (h : l.Twin E l') (hsigned : ∀ s, l.Takes E b now s → b.SignedFor E l')
    (hsigned' : ∀ s, l'.Takes E b now s → b.SignedFor E l) :
    (l.offer E (.v2 b, now)).Twin E (l'.offer E (.v2 b, now)) := by
  have hne' : l'.chain ≠ [] := h.chain ▸ h.chain_ne
  rcases offerV2_cases (E := E) h.chain_ne b now with ⟨hsame, hno⟩ | ⟨s, s', ht, hf, hgrown⟩ <;>
    rcases offerV2_cases (E := E) hne' b now with ⟨hsame', hno'⟩ | ⟨t, t', ht', hf', hgrown'⟩
  · rw [hsame, hsame']
    exact h
  · exact absurd ⟨ht'.1, t', h.symm.follows hf' (hsigned' t ht')⟩ (hno t)
  · exact absurd ⟨ht.1, s', h.follows hf (hsigned s ht)⟩ (hno' s)
  · have hboth := h.follows hf (hsigned s ht)
    obtain rfl : s = t := Except.ok.inj (hboth.replayed.symm.trans hf'.replayed)
    obtain rfl : s' = t' := Except.ok.inj (hboth.applied.symm.trans hf'.applied)
    rw [hgrown, hgrown']
    exact h.grown hf hboth _ _

/-- Twins that part at a block had it taken by one of them alone. -/
theorem Ledger.Twin.signed_of_chain (h : l.Twin E l')
    (hchain : (l'.offer E (.v2 b, now)).chain = (l.offer E (.v2 b, now)).chain) (ht : l.Takes E b now s) :
    b.SignedFor E l' := by
  have hne' : l'.chain ≠ [] := h.chain ▸ h.chain_ne
  rcases offerV2_cases (E := E) h.chain_ne b now with ⟨-, hno⟩ | ⟨u, u', -, -, hgrown⟩
  · exact absurd ht (hno s)
  rcases offerV2_cases (E := E) hne' b now with ⟨hsame', -⟩ | ⟨t, t', -, hf', -⟩
  · rw [hsame', hgrown, h.chain] at hchain
    simp at hchain
  · exact hf'.signed

/-- **Runs.** Twins have one chain all along a run exactly when every block that
one of them takes is signed for the other. -/
theorem Ledger.Twin.run_iff (h : l.Twin E l') {calls : List (BlockV2 × Int)} :
    (∀ pre, pre <+: calls → (l'.offersV2 E pre).chain = (l.offersV2 E pre).chain) ↔
      ∀ pre b now post s, calls = pre ++ (b, now) :: post →
        ((l.offersV2 E pre).Takes E b now s → b.SignedFor E (l'.offersV2 E pre)) ∧
          ((l'.offersV2 E pre).Takes E b now s → b.SignedFor E (l.offersV2 E pre)) := by
  -- while the blocks are signed for both, the ledgers are twins
  have twins : ∀ pre, pre <+: calls → (∀ early b now late, pre = early ++ (b, now) :: late →
      (∀ s, (l.offersV2 E early).Takes E b now s → b.SignedFor E (l'.offersV2 E early)) ∧
        ∀ s, (l'.offersV2 E early).Takes E b now s → b.SignedFor E (l.offersV2 E early)) →
      (l.offersV2 E pre).Twin E (l'.offersV2 E pre) := by
    intro pre hpre hsigned
    induction pre using List.reverseRecOn with
    | nil => exact h
    | append_singleton pre call ih =>
      obtain ⟨b, now⟩ := call
      obtain ⟨post, hpost⟩ := hpre
      have hprev := ih ⟨(b, now) :: post, by rw [← hpost]; simp⟩ fun early b' now' late hsplit =>
        hsigned early b' now' (late ++ [(b, now)]) (by rw [hsplit]; simp)
      rw [offersV2_snoc, offersV2_snoc]
      exact hprev.offer (hsigned pre b now [] rfl).1 (hsigned pre b now [] rfl).2
  constructor
  · intro hchain pre
    induction hlen : pre.length using Nat.strong_induction_on generalizing pre with
    | _ n ih =>
      intro b now post s hsplit
      have hpre : pre <+: calls := ⟨(b, now) :: post, hsplit.symm⟩
      have htwin := twins pre hpre fun early b' now' late hearly => by
        have hsplit' : calls = early ++ (b', now') :: (late ++ (b, now) :: post) := by rw [hsplit, hearly]; simp
        have hlt : early.length < n := by rw [← hlen, hearly]; simp
        exact ⟨fun s' => (ih _ hlt early rfl b' now' _ s' hsplit').1, fun s' => (ih _ hlt early rfl b' now' _ s' hsplit').2⟩
      have hnext := hchain (pre ++ [(b, now)]) ⟨post, by rw [hsplit]; simp⟩
      rw [offersV2_snoc, offersV2_snoc] at hnext
      exact ⟨htwin.signed_of_chain hnext, htwin.symm.signed_of_chain hnext.symm⟩
  · intro hsigned pre hpre
    refine (twins pre hpre fun early b now late hearly => ?_).chain
    obtain ⟨post, hpost⟩ := hpre
    have hsplit : calls = early ++ (b, now) :: (late ++ post) := by rw [← hpost, hearly]; simp
    exact ⟨fun s => (hsigned early b now _ s hsplit).1, fun s => (hsigned early b now _ s hsplit).2⟩

end

/-! ## One identity for every order -/

section
variable {E : Primitives} {l l' : Ledger} {keys keys' : List Str} {args : LedgerArgs}

theorem sortedKeys_perm (h : keys'.Perm keys) : sortedKeys keys' = sortedKeys keys :=
  Lex.sortOn_eq_of_perm Fin.val_injective Function.injective_id h

theorem genesis_perm (h : keys'.Perm keys) {threshold : Nat} {g g' : RegistryState}
    (hg : RegistryState.genesis keys threshold = .ok g) (hg' : RegistryState.genesis keys' threshold = .ok g') : g' = g := by
  obtain ⟨hr, hv, hn, hk, ht, -⟩ := genesis_ok hg
  obtain ⟨hr', hv', hn', hk', ht', -⟩ := genesis_ok hg'
  cases g
  cases g'
  have hsorted : Lex.sortOn charKey id keys' = Lex.sortOn charKey id keys := sortedKeys_perm h
  simp only [RegistryState.mk.injEq] at *
  exact ⟨hr'.trans hr.symm, hv'.trans hv.symm, hn'.trans hn.symm, hk'.trans (hsorted.trans hk.symm), ht'.trans ht.symm⟩

theorem validateGovernanceKeys_sorted {threshold : Nat} {allow : Bool} {sorted : List Str}
    (h : validateGovernanceKeysForIdentity E keys threshold allow = .ok sorted) : sorted = sortedKeys keys := by
  simp only [validateGovernanceKeysForIdentity, bind_eq_ok] at h
  obtain ⟨_, -, _, -, _, -, _, -, _, -, _, -, h⟩ := h
  exact (Except.ok.inj h).symm

theorem deriveNetworkIdentity_perm (h : keys'.Perm keys) {networkId : Str} {threshold iterations : Nat}
    {kind : NetworkKind} {timestamp : Int} {i i' : NetworkIdentity}
    (hi : deriveNetworkIdentity E networkId keys threshold kind timestamp iterations = .ok i)
    (hi' : deriveNetworkIdentity E networkId keys' threshold kind timestamp iterations = .ok i') : i' = i := by
  simp only [deriveNetworkIdentity, bind_eq_ok] at hi hi'
  obtain ⟨_, hk, sorted, hs, hi⟩ := hi
  obtain ⟨_, -, sorted', hs', hi'⟩ := hi'
  obtain rfl : sorted' = sorted := by
    rw [validateGovernanceKeys_sorted hs, validateGovernanceKeys_sorted hs', sortedKeys_perm h]
  simp only [← bind_eq_ok] at hi hi'
  exact Except.ok.inj (hi'.symm.trans hi)

theorem deriveTestNetworkIdentity_perm (h : keys'.Perm keys) {threshold iterations : Nat} {timestamp : Int}
    {i i' : NetworkIdentity} (hi : deriveTestNetworkIdentity E keys threshold timestamp iterations = .ok i)
    (hi' : deriveTestNetworkIdentity E keys' threshold timestamp iterations = .ok i') : i' = i := by
  simp only [deriveTestNetworkIdentity, bind_eq_ok] at hi hi'
  obtain ⟨sorted, hs, root, hroot, hi⟩ := hi
  obtain ⟨sorted', hs', root', hroot', hi'⟩ := hi'
  obtain rfl : sorted' = sorted := by
    rw [validateGovernanceKeys_sorted hs, validateGovernanceKeys_sorted hs', sortedKeys_perm h]
  obtain rfl : root' = root := Except.ok.inj (hroot'.symm.trans hroot)
  exact deriveNetworkIdentity_perm h hi hi'

theorem inferIdentity_perm (h : keys'.Perm keys) {threshold : Option Nat} {i i' : NetworkIdentity}
    (hi : Ledger.inferIdentity E (some keys) threshold = .ok i)
    (hi' : Ledger.inferIdentity E (some keys') threshold = .ok i') : i' = i := by
  simp only [Ledger.inferIdentity, sortedKeys_perm h] at hi hi'
  split at hi
  · rename_i hgenesis
    rw [if_pos hgenesis] at hi'
    exact Except.ok.inj (hi'.symm.trans hi)
  · rename_i hgenesis
    rw [if_neg hgenesis] at hi'
    exact deriveTestNetworkIdentity_perm h hi hi'

theorem orKeys_perm (h : keys'.Perm keys) (default : List Str) :
    (Ledger.orKeys (some keys') default).Perm (Ledger.orKeys (some keys) default) := by
  cases keys with
  | nil =>
    rw [h.eq_nil]
  | cons k ks =>
    cases keys' with
    | nil => exact absurd h.symm.eq_nil (by simp)
    | cons k' ks' => exact h

/-- Fresh ledgers that differ in the order of the keys are twins. -/
theorem init_twin (h : keys'.Perm keys) (hchain : args.chain = none)
    (hl : Ledger.init E { args with governanceKeys := some keys } = .ok l)
    (hl' : Ledger.init E { args with governanceKeys := some keys' } = .ok l') : l.Twin E l' := by
  have hne := (init_cacheKept hl).chain_ne
  obtain ⟨s, hs⟩ := (init_cacheKept hl).replayed
  obtain ⟨s', hs'⟩ := (init_cacheKept hl').replayed
  obtain ⟨identity, g, hi, hg, hon⟩ := init_genesis hl hchain
  obtain ⟨identity', g', hi', hg', hon'⟩ := init_genesis hl' hchain
  obtain rfl : identity' = identity := by
    cases hidentity : args.networkIdentity with
    | none =>
      simp only [hidentity, Option.elim_none] at hi hi'
      exact inferIdentity_perm h hi hi'
    | some i =>
      simp only [hidentity, Option.elim_some] at hi hi'
      exact Except.ok.inj (hi'.symm.trans hi)
  obtain rfl : g' = g := Except.ok.inj (hg'.symm.trans hg)
  obtain ⟨hc, hid, hv, hk, ht, hctx⟩ := initOn_fields hon
  obtain ⟨hc', hid', hv', hk', ht', hctx'⟩ := initOn_fields hon'
  have hperm : l'.governanceKeys.Perm l.governanceKeys := by
    rw [hk, hk']
    exact orKeys_perm h _
  have hstates : s' = s := by
    rw [hc, Ledger.replay] at hs
    rw [hc', Ledger.replay] at hs'
    obtain ⟨t, hgen, hrun⟩ := bind_eq_ok.mp hs
    obtain ⟨t', hgen', hrun'⟩ := bind_eq_ok.mp hs'
    obtain ⟨u, hu, hu₂⟩ := bind_eq_ok.mp hgen
    obtain ⟨u', hu', hu₂'⟩ := bind_eq_ok.mp hgen'
    rw [ht', ← ht] at hu'
    obtain rfl := genesis_perm hperm hu hu'
    rw [Ledger.networkId, hid', ← hid] at hu₂'
    obtain rfl : t' = t := Except.ok.inj (hu₂'.symm.trans hu₂)
    exact Except.ok.inj (hrun'.symm.trans hrun)
  exact { chain := hc'.trans hc.symm, chain_ne := hne, identity := hid'.trans hid.symm, validator := hv'.trans hv.symm
          count := by
            rw [(GovernanceContext.init_fields hctx).1, (GovernanceContext.init_fields hctx').1]
            exact hperm.length_eq
          replayed := ⟨s, hs, by rw [hc, ← hc', ← hstates]; exact hs'⟩ }

/-- **Key order.** Two fresh ledgers with the same governance keys in different
orders accept the same blocks all along a run exactly when every block that one
of them takes is signed under the order of the other too. -/
theorem key_order_iff {calls : List (BlockV2 × Int)} (h : keys'.Perm keys) (hchain : args.chain = none)
    (hl : Ledger.init E { args with governanceKeys := some keys } = .ok l)
    (hl' : Ledger.init E { args with governanceKeys := some keys' } = .ok l') :
    (∀ pre, pre <+: calls → (l'.offersV2 E pre).chain = (l.offersV2 E pre).chain) ↔
      ∀ pre b now post s, calls = pre ++ (b, now) :: post →
        ((l.offersV2 E pre).Takes E b now s → b.SignedFor E (l'.offersV2 E pre)) ∧
          ((l'.offersV2 E pre).Takes E b now s → b.SignedFor E (l.offersV2 E pre)) :=
  (init_twin h hchain hl hl').run_iff

end

/-! ## Two keys in two orders -/

def secondKey : Str := str "8139770ea87d175f56a35466c34c7ecccb8d8a91b4ee37a25df60f5b8fc9b394"

def pairRoot : Str := str "2cb3895f632bcf05c544cd17dce03bc03fa105731304ae13ab24cfcbd69c6de9"

def pairGenesisHash : Str := str "0000c7ba5deee37e21e365e4acb1a929f73f1d658eb66922535dbb867a2a1a5d"

/-- A development network with two governance keys and threshold one. -/
def pairIdentity : NetworkIdentity where
  networkId := str "chainbreaker-dev"
  kind := .dev
  genesisHash := pairGenesisHash
  genesisRegistryRoot := pairRoot
  governanceKeys := [secondKey, governanceKey]
  governanceThreshold := 1
  genesisHeaderBytes :=
    (fromHex (str "0202000000" ++ zeroHash ++ zeroHash ++ pairRoot ++ str "ddaf926500000000" ++
      str "0000ffff00000000000000000000000000000000000000000000000000000000" ++ str "0000000000000000")).getD []
  genesisTimestamp := 1704112093

/-- The registration of alice, signed by the first of `[governanceKey, secondKey]`. -/
def registerFirst : Json := .dict
  [(str "type", .str (str "governance")),
    (str "body", .dict
      [(str "action", .str (str "curator_register")),
        (str "curator_id", .str (str "alice")),
        (str "public_key_hex", .str aliceKey₁),
        (str "activation_height", .int 10),
        (str "previous_registry_root", .str pairRoot),
        (str "network_id", .str (str "chainbreaker-dev")),
        (str "schema_version", .int 1),
        (str "governance_signatures", .list [.dict
          [(str "key_index", .int 0),
            (str "signature", .str (str "4f8329deaf8493031f342249c72f45b5f4ea517ded7a9a71c1a778097a993949c78872cf8424614b1f1e72adeb451e540d1ecbdb1d7363fa839c134580be8f0d"))]])])]

def firstBlockOfPair : BlockV2 where
  header := { genesisHeader pairRoot 1704112693 with
    prevHash := pairGenesisHash
    merkleRoot := str "7163dd3432881af85bb3d48b10a245fb5cd6cbbcd6cead32c44b965900e1db07"
    nonce := 98914 }
  transactions := [registerFirst]

def pairPrimitives : Primitives := recorded
  [(governanceKey, str "381f9b1d57d0c6879cbfdfa63659ca8fa688c1884921f103a684c66bca84a40a",
    str "4f8329deaf8493031f342249c72f45b5f4ea517ded7a9a71c1a778097a993949c78872cf8424614b1f1e72adeb451e540d1ecbdb1d7363fa839c134580be8f0d")]

def pairArgs (keys : List Str) : LedgerArgs := { networkIdentity := some pairIdentity, governanceKeys := some keys }

set_option maxRecDepth 100000 in
theorem pairLedgers : ∃ l l', Ledger.init pairPrimitives (pairArgs [governanceKey, secondKey]) = .ok l ∧
    Ledger.init pairPrimitives (pairArgs [secondKey, governanceKey]) = .ok l' ∧
    okAnd (fun answer => answer.1) (l.addBlockV2 pairPrimitives firstBlockOfPair 1704112693) = true := by
  have h : (okAnd (fun l => okAnd (fun answer => answer.1) (l.addBlockV2 pairPrimitives firstBlockOfPair 1704112693))
      (Ledger.init pairPrimitives (pairArgs [governanceKey, secondKey])) &&
    okAnd (fun _ => true) (Ledger.init pairPrimitives (pairArgs [secondKey, governanceKey]))) = true := by decide +kernel
  rw [Bool.and_eq_true] at h
  obtain ⟨l, hl, hadded⟩ := of_okAnd h.1
  obtain ⟨l', hl', -⟩ := of_okAnd h.2
  exact ⟨l, l', hl, hl', hadded⟩

example : checkKeys [] [secondKey, governanceKey] = .ok () := of_okEq (by decide +kernel)

def emptyBlockOfPair : BlockV2 :=
  ⟨{ genesisHeader pairRoot 1704112693 with prevHash := pairGenesisHash, nonce := 4625 }, []⟩

theorem key_order_empty : ∃ l l', Ledger.init pairPrimitives (pairArgs [governanceKey, secondKey]) = .ok l ∧
    Ledger.init pairPrimitives (pairArgs [secondKey, governanceKey]) = .ok l' ∧
    (l'.offersV2 pairPrimitives [(emptyBlockOfPair, 1704112693)]).chain =
      (l.offersV2 pairPrimitives [(emptyBlockOfPair, 1704112693)]).chain := by
  obtain ⟨l, l', hl, hl', -⟩ := pairLedgers
  refine ⟨l, l', hl, hl', (@key_order_iff pairPrimitives l l' _ _ { networkIdentity := some pairIdentity } _
    (List.Perm.swap ..) rfl hl hl').mpr ?_ _ (List.prefix_refl _)⟩
  intro pre b now post s hsplit
  rcases pre with _ | ⟨x, pre⟩
  · cases hsplit
    exact ⟨fun _ t ht => (by cases ht), fun _ t ht => (by cases ht)⟩
  · simp at hsplit

/-- No signature is recorded for the second key. -/
theorem secondKey_unsigned (message : Bytes) {sig : GovernanceSignature} (h : sig.keyIndex = 0) :
    sig.holds pairPrimitives [secondKey, governanceKey] message = false := by
  have hne : fromHex governanceKey ≠ fromHex secondKey := by decide +kernel
  rw [Bool.eq_false_iff]
  intro hholds
  simp only [GovernanceSignature.holds, h, Int.toNat_zero, List.getElem?_cons_zero, Option.map_some] at hholds
  split at hholds
  · rename_i pk hpk
    rw [Option.some.injEq, decodePublicKey_eq_ok] at hpk
    unfold verify at hholds
    split at hholds
    · cases hholds
    · split at hholds
      · cases hholds
      · simp only [pairPrimitives, recorded, List.any_cons, List.any_nil, Bool.or_false, Bool.and_eq_true,
          beq_iff_eq] at hholds
        exact hne (hholds.1.1.trans hpk.1.symm)
  · cases hholds

set_option maxRecDepth 100000 in
theorem registerFirst_parsed : okAnd (fun parsed => parsed.any fun tx => tx.signatures.all fun sig => sig.keyIndex == 0)
    (parseGovernanceTransaction (str "chainbreaker-dev") registerFirst) = true := by decide +kernel

/-- The block with the registration is taken under one order only. -/
theorem key_order_matters : ¬ ∀ (E : Primitives) (args : LedgerArgs) (keys keys' : List Str) (l l' : Ledger)
    (calls : List (BlockV2 × Int)), keys'.Perm keys → args.chain = none →
      Ledger.init E { args with governanceKeys := some keys } = .ok l →
      Ledger.init E { args with governanceKeys := some keys' } = .ok l' →
      (l'.offersV2 E calls).chain = (l.offersV2 E calls).chain := by
  intro h
  obtain ⟨l, l', hl, hl', hadded⟩ := pairLedgers
  have hperm : [secondKey, governanceKey].Perm [governanceKey, secondKey] := List.Perm.swap ..
  have htwin := @init_twin pairPrimitives l l' _ _ { networkIdentity := some pairIdentity } hperm rfl hl hl'
  obtain ⟨⟨added, grown⟩, hadd, rfl⟩ := of_okAnd hadded
  obtain ⟨htime, s, s', hf, -⟩ := (addBlockV2_true_iff htwin.chain_ne).mp hadd
  have hsigned := htwin.signed_of_chain (h pairPrimitives { networkIdentity := some pairIdentity } _ _ l l'
    [(firstBlockOfPair, 1704112693)] hperm rfl hl hl') ⟨htime, s', hf⟩
  -- the other ledger finds the second key at position 0
  obtain ⟨identity, g, hidentity, -, hon⟩ := init_genesis hl' rfl
  cases hidentity
  obtain ⟨-, hid, -, hkeys, hthreshold, hctx⟩ := initOn_fields hon
  obtain ⟨hctxKeys, hctxThreshold, -⟩ := GovernanceContext.init_fields hctx
  obtain ⟨parsed, hparse, hzero⟩ := of_okAnd registerFirst_parsed
  cases parsed with
  | none => cases hzero
  | some tx =>
    simp only [Option.any_some, List.all_eq_true, beq_iff_eq] at hzero
    obtain ⟨message, -, hcount⟩ := hsigned registerFirst (.head _) tx (by rw [Ledger.networkId, hid]; exact hparse)
    have hnone : tx.signatures.filter (GovernanceSignature.holds pairPrimitives [secondKey, governanceKey] message) = [] :=
      List.filter_eq_nil_iff.mpr fun sig hsig => by rw [secondKey_unsigned message (hzero sig hsig)]; simp
    rw [hctxKeys, hctxThreshold, hkeys, hthreshold] at hcount
    change _ ≤ (tx.signatures.filter (GovernanceSignature.holds pairPrimitives [secondKey, governanceKey] message)).length
      at hcount
    rw [hnone] at hcount
    cases hcount

end ChainBreaker
