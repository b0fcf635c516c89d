import ChainBreaker.Answers

/-!
# The cache of registry states

`registry_state_at` reads a cache that the constructor fills and
`add_block_v2` extends. `add_block` also takes V1 blocks, and appending one
leaves its height out of the cache: the cache agrees with the replayed states
exactly in the runs that append no V1 block.
-/

namespace ChainBreaker

open Fallible

section
variable (E : Primitives)

def Ledger.registryStateAt (l : Ledger) (height : Nat) : Except PyErr RegistryState :=
  orRaise (l.registryStates height) ⟨.ledgerError, "registry state not available at height %", [.int height]⟩

/-- A call of `add_block`, whatever comes of it; one that raises leaves the
ledger as it was. -/
def Ledger.offer (l : Ledger) (call : AnyBlock × Int) : Ledger :=
  match l.addBlock E call.1 call.2 with
  | .ok (_, l') => l'
  | .error _ => l

def Ledger.offers (l : Ledger) (calls : List (AnyBlock × Int)) : Ledger := calls.foldl (Ledger.offer E) l

/-- At every height of the chain the cache has the replayed state. -/
def Ledger.Coherent (l : Ledger) : Prop :=
  ∀ h < l.chain.length, ∃ s, l.registryStateAt h = .ok s ∧ l.stateAt E h = .ok s

/-- The checks of `_add_block_v1`: the block links to the tip, has the expected
target and verifies. -/
structure Ledger.TakesV1 (l : Ledger) (b : Block) (now : Int) : Prop where
  linked : ∃ last, l.chain.getLast? = some last ∧ last.hash E = .ok b.header.prevHash
  target : expectedTargetAt l.chain l.chain.length = .ok b.header.target
  verified : b.verify E now (some now) false (some (medianPastTime l.chain l.chain.length 11)) (some b.header.target)
    l.transactionValidator = .ok true

/-- What the ledger keeps while no V1 block is appended. -/
structure Ledger.CacheKept (l : Ledger) : Prop where
  chain_ne : l.chain ≠ []
  cached : l.Cached E l.chain l.registryStates
  replayed : ∃ s, l.replay E l.chain = .ok s

end

section
variable {E : Primitives} {l l' : Ledger} {call : AnyBlock × Int} {calls : List (AnyBlock × Int)}

theorem addBlockV1_true_iff {b : Block} {now : Int} :
    l.addBlockV1 E b now = .ok (true, l') ↔ l.TakesV1 E b now ∧ l' = { l with chain := l.chain ++ [.v1 b] } := by
  unfold Ledger.addBlockV1 Ledger.lastBlock
  simp only [bind_eq_ok, orRaise_eq_ok]
  constructor
  · rintro ⟨target, htarget, last, hlast, hash, hhash, h⟩
    split at h
    · cases h
    rename_i hprev
    split at h
    · cases h
    rename_i htgt
    rw [not_not] at hprev htgt
    obtain ⟨ok, hok, h⟩ := bind_eq_ok.mp h
    split at h
    · rename_i hverified
      cases h
      subst hverified hprev htgt
      exact ⟨⟨⟨last, hlast, hhash⟩, htarget, hok⟩, rfl⟩
    · cases h
  · rintro ⟨⟨⟨last, hlast, hhash⟩, htarget, hverified⟩, rfl⟩
    refine ⟨_, htarget, last, hlast, _, hhash, ?_⟩
    rw [if_neg (by simp), if_neg (by simp), hverified, ok_bind, if_pos rfl]

/-- **Step.** An offered block is appended, a V2 block with its state, or nothing changes. -/
theorem offer_cases (call : AnyBlock × Int) :
    l.offer E call = l ∨
      (∃ b, call.1 = .v1 b ∧ l.TakesV1 E b call.2 ∧ l.offer E call = { l with chain := l.chain ++ [.v1 b] }) ∨
      ∃ b s s', call.1 = .v2 b ∧ l.Follows E l.chain b s s' ∧
        l.offer E call = { l with chain := l.chain ++ [.v2 b],
                                  registryStates := l.registryStates.set l.chain.length s' } := by
  obtain ⟨block, now⟩ := call
  unfold Ledger.offer
  cases hadd : l.addBlock E block now with
  | error e => exact .inl rfl
  | ok answer =>
    obtain ⟨added, l'⟩ := answer
    cases block with
    | v1 b =>
      cases added with
      | false =>
        rcases addBlockV1_ok hadd with ⟨-, rfl⟩ | ⟨h, -⟩
        · exact .inl rfl
        · cases h
      | true =>
        obtain ⟨ht, rfl⟩ := addBlockV1_true_iff.mp hadd
        exact .inr (.inl ⟨b, rfl, ht, rfl⟩)
    | v2 b =>
      cases added with
      | false => exact .inl (addBlockV2_false hadd)
      | true =>
        obtain ⟨-, s, s', hf, rfl⟩ := (addBlockV2_true_iff (chain_ne_of_added hadd)).mp hadd
        exact .inr (.inr ⟨b, s, s', rfl, hf, rfl⟩)

theorem offer_v1 {b : Block} {now : Int} (h : l.TakesV1 E b now) :
    l.offer E (.v1 b, now) = { l with chain := l.chain ++ [.v1 b] } := by
  have hadd : l.addBlock E (.v1 b) now = _ := addBlockV1_true_iff.mpr ⟨h, rfl⟩
  rw [Ledger.offer, hadd]

theorem replay_take {c : List AnyBlock} {s : RegistryState} (h : l.replay E c = .ok s) (i : Nat) :
    ∃ t, l.replay E (c.take (i + 1)) = .ok t := by
  obtain ⟨g, hg, hrun⟩ := bind_eq_ok.mp h
  obtain ⟨t, ht⟩ := run_prefix _ hrun (List.take_prefix i (numbered c))
  rw [numbered_take] at ht
  exact ⟨t, bind_eq_ok.mpr ⟨g, hg, ht⟩⟩

theorem Ledger.CacheKept.coherent (h : l.CacheKept E) : l.Coherent E := by
  intro i hi
  obtain ⟨s, hs⟩ := h.replayed
  obtain ⟨t, ht⟩ := replay_take hs i
  refine ⟨t, ?_, ?_⟩
  · rw [Ledger.registryStateAt, h.cached i, if_pos hi, ht]
    rfl
  · rw [stateAt_eq hi]
    exact ht

theorem Ledger.CacheKept.extend {b : BlockV2} {s s' : RegistryState} (h : l.CacheKept E)
    (hf : l.Follows E l.chain b s s') :
    ({ l with chain := l.chain ++ [.v2 b], registryStates := l.registryStates.set l.chain.length s' } : Ledger).CacheKept E where
  chain_ne := by simp
  cached := (h.cached.extend h.chain_ne hf : l.Cached E _ _)
  replayed := ⟨s', (hf.replay_append h.chain_ne : l.replay E _ = _)⟩

variable (E) in
/-- The constructor, once the identity and the chain are known. -/
def LedgerArgs.initOn (args : LedgerArgs) (identity : NetworkIdentity) (chain : List AnyBlock) : Except PyErr Ledger := do
  let keys := Ledger.orKeys args.governanceKeys identity.governanceKeys
  let threshold := args.governanceThreshold.getD identity.governanceThreshold
  let ctx ← GovernanceContext.init keys threshold identity.networkId
  let l : Ledger := ⟨chain, identity, args.transactionValidator, keys, threshold, ctx, fun _ => none⟩
  if args.strictIdentity then l.validateGenesisIdentity E else .ok ()
  let _ ← blockAt chain 0
  l.replayRegistryStates E

theorem init_initOn {args : LedgerArgs} (h : Ledger.init E args = .ok l) :
    ∃ identity chain, args.initOn E identity chain = .ok l := by
  unfold Ledger.init at h
  cases hidentity : args.networkIdentity <;> cases hchain : args.chain <;> simp only [hidentity, hchain] at h
  · obtain ⟨identity, -, h⟩ := bind_eq_ok.mp h
    obtain ⟨g, -, h⟩ := bind_eq_ok.mp h
    exact ⟨identity, _, h⟩
  · obtain ⟨identity, -, h⟩ := bind_eq_ok.mp h
    exact ⟨identity, _, h⟩
  · rw [ok_bind] at h
    obtain ⟨g, -, h⟩ := bind_eq_ok.mp h
    exact ⟨_, _, h⟩
  · exact ⟨_, _, h⟩

/-- What the constructor did to make a ledger. -/
theorem init_ok {args : LedgerArgs} (h : Ledger.init E args = .ok l) :
    ∃ base : Ledger, base.chain ≠ [] ∧ base.transactionValidator = args.transactionValidator ∧
      GovernanceContext.init base.governanceKeys base.governanceThreshold base.networkIdentity.networkId =
        .ok base.governanceContext ∧
      (args.strictIdentity = true → base.validateGenesisIdentity E = .ok ()) ∧ base.replayRegistryStates E = .ok l := by
  obtain ⟨identity, chain, h⟩ := init_initOn h
  obtain ⟨ctx, hctx, h⟩ := bind_eq_ok.mp h
  have hne : ∀ {first}, blockAt chain 0 = .ok first → chain ≠ [] := by
    rintro first hfirst rfl
    simp [blockAt, orRaise] at hfirst
  refine ⟨⟨chain, identity, args.transactionValidator, Ledger.orKeys args.governanceKeys identity.governanceKeys,
    args.governanceThreshold.getD identity.governanceThreshold, ctx, fun _ => none⟩, ?_⟩
  cases hstrict : args.strictIdentity <;> simp only [hstrict, Bool.false_eq_true, if_false, if_true, bind_eq_ok] at h
  · obtain ⟨_, -, first, hfirst, hreplay⟩ := h
    exact ⟨hne hfirst, rfl, hctx, fun hs => (by cases hs), hreplay⟩
  · obtain ⟨_, hvalid, first, hfirst, hreplay⟩ := h
    exact ⟨hne hfirst, rfl, hctx, fun _ => hvalid, hreplay⟩

/-- The constructor fills the cache. -/
theorem init_cacheKept {args : LedgerArgs} (h : Ledger.init E args = .ok l) : l.CacheKept E := by
  obtain ⟨base, hne, -, -, -, hreplay⟩ := init_ok h
  obtain ⟨cache, hl, hcache⟩ := @replayRegistryStates_ok E base base.chain base.registryStates l hne hreplay
  obtain ⟨g, hg, states, hscan, -⟩ := by
    simpa only [Ledger.replayRegistryStates, bind_eq_ok] using hreplay
  obtain ⟨s, hs⟩ := (scan_ok_iff _).mp ⟨states, hscan⟩
  rw [hl]
  exact ⟨hne, hcache, s, bind_eq_ok.mpr ⟨g, hg, hs⟩⟩

/-- While no V1 block is appended the cache is kept. -/
theorem cacheKept_offers (h : l.CacheKept E)
    (hno : ∀ pre b now post, calls = pre ++ (.v1 b, now) :: post → ¬ (l.offers E pre).TakesV1 E b now) :
    (l.offers E calls).CacheKept E := by
  induction calls using List.reverseRecOn with
  | nil => exact h
  | append_singleton calls call ih =>
    have hkept := ih fun pre b now post hsplit => hno pre b now (post ++ [call]) (by rw [hsplit]; simp)
    rw [Ledger.offers, List.foldl_append]
    change ((l.offers E calls).offer E call).CacheKept E
    rcases offer_cases (E := E) (l := l.offers E calls) call with hsame | ⟨b, hb, ht, -⟩ | ⟨b, s, s', -, hf, hgrown⟩
    · rw [hsame]
      exact hkept
    · obtain ⟨block, now⟩ := call
      subst hb
      exact absurd ht (hno calls b now [] rfl)
    · rw [hgrown]
      exact hkept.extend hf

/-- Nothing is cached above the chain. -/
def Ledger.CacheBounded (l : Ledger) : Prop := ∀ h, l.chain.length ≤ h → l.registryStates h = none

theorem Ledger.CacheKept.bounded (h : l.CacheKept E) : l.CacheBounded := by
  intro i hi
  rw [h.cached i, if_neg (Nat.not_lt.mpr hi)]

theorem Ledger.CacheKept.state_of (h : l.CacheKept E) {i : Nat} {s : RegistryState} (hs : l.registryStates i = some s) :
    l.stateAt E i = .ok s := by
  have hi : i < l.chain.length := by
    by_contra hge
    rw [h.bounded i (Nat.not_lt.mp hge)] at hs
    cases hs
  obtain ⟨s', hs', ht⟩ := h.coherent i hi
  rw [Ledger.registryStateAt, hs] at hs'
  cases hs'
  exact ht

theorem cacheBounded_offers (h : l.CacheBounded) (calls : List (AnyBlock × Int)) : (l.offers E calls).CacheBounded := by
  induction calls using List.reverseRecOn with
  | nil => exact h
  | append_singleton calls call ih =>
    rw [Ledger.offers, List.foldl_append]
    change ((l.offers E calls).offer E call).CacheBounded
    rcases offer_cases (E := E) (l := l.offers E calls) call with hsame | ⟨b, -, -, hgrown⟩ | ⟨b, s, s', -, -, hgrown⟩
    · rw [hsame]
      exact ih
    · rw [hgrown]
      intro i hi
      exact ih i (by simp only [List.length_append] at hi; omega)
    · rw [hgrown]
      intro i hi
      simp only [List.length_append, List.length_singleton] at hi
      change (if i = _ then _ else _) = none
      rw [if_neg (by omega)]
      exact ih i (by omega)

/-- **Coherence.** Over any calls of `add_block` the cache has the replayed
state of every height, at every point, exactly when no V1 block passes the
checks of its own. -/
theorem cache_coherent_iff {args : LedgerArgs} (h : Ledger.init E args = .ok l) :
    (∀ pre, pre <+: calls → (l.offers E pre).Coherent E) ↔
      ∀ pre b now post, calls = pre ++ (.v1 b, now) :: post → ¬ (l.offers E pre).TakesV1 E b now := by
  constructor
  · rintro hall pre b now post rfl ht
    have hpre : pre ++ [(.v1 b, now)] <+: pre ++ (.v1 b, now) :: post := ⟨post, by simp⟩
    have hgrown : l.offers E (pre ++ [(.v1 b, now)]) =
        { l.offers E pre with chain := (l.offers E pre).chain ++ [.v1 b] } := by
      rw [Ledger.offers, List.foldl_append]
      exact offer_v1 ht
    obtain ⟨s, hs, -⟩ := hall _ hpre (l.offers E pre).chain.length (by rw [hgrown]; simp)
    -- the V1 block has no cached state
    have hnone := cacheBounded_offers (E := E) (init_cacheKept h).bounded pre _ (Nat.le_refl _)
    rw [hgrown, Ledger.registryStateAt, hnone] at hs
    cases hs
  · rintro hno pre ⟨post, rfl⟩
    refine (cacheKept_offers (init_cacheKept h) fun pre' b now post' hsplit => ?_).coherent
    exact hno pre' b now (post' ++ post) (by rw [hsplit]; simp)

end

/-! ## Calls of add_block_v2 -/

section
variable (E : Primitives)

/-- The rules of `add_block_v2` for `b` at the tip of `l`, whose state is `s`. -/
def Ledger.Takes (l : Ledger) (b : BlockV2) (now : Int) (s : RegistryState) : Prop :=
  b.header.timestamp ≤ now + 2 * 60 * 60 ∧ ∃ s', l.Follows E l.chain b s s'

/-- Calls of `add_block_v2`. -/
def Ledger.offersV2 (l : Ledger) (calls : List (BlockV2 × Int)) : Ledger :=
  calls.foldl (fun l call => l.offer E (.v2 call.1, call.2)) l

end

section
variable {E : Primitives} {l : Ledger} {calls : List (BlockV2 × Int)}

theorem offersV2_snoc (call : BlockV2 × Int) :
    l.offersV2 E (calls ++ [call]) = (l.offersV2 E calls).offer E (.v2 call.1, call.2) := by
  rw [Ledger.offersV2, List.foldl_append]
  rfl

/-- **Step.** A block is appended where the rules take it; nothing changes elsewhere. -/
theorem offerV2_cases (hne : l.chain ≠ []) (b : BlockV2) (now : Int) :
    (l.offer E (.v2 b, now) = l ∧ ∀ s, ¬ l.Takes E b now s) ∨
      ∃ s s', l.Takes E b now s ∧ l.Follows E l.chain b s s' ∧
        l.offer E (.v2 b, now) = { l with chain := l.chain ++ [.v2 b],
                                          registryStates := l.registryStates.set l.chain.length s' } := by
  have taken : ∀ {s}, l.Takes E b now s → ∃ s', l.Follows E l.chain b s s' ∧ l.addBlock E (.v2 b) now =
      .ok (true, { l with chain := l.chain ++ [.v2 b], registryStates := l.registryStates.set l.chain.length s' }) := by
    intro s ht
    obtain ⟨htime, s', hf⟩ := ht
    exact ⟨s', hf, (addBlockV2_true_iff hne).mpr ⟨htime, s, s', hf, rfl⟩⟩
  by_cases hs : ∃ s, l.Takes E b now s
  · obtain ⟨s, ht⟩ := hs
    obtain ⟨s', hf, hadd⟩ := taken ht
    refine .inr ⟨s, s', ht, hf, ?_⟩
    rw [Ledger.offer, hadd]
  · rw [not_exists] at hs
    refine .inl ⟨?_, hs⟩
    unfold Ledger.offer
    cases hadd : l.addBlock E (.v2 b) now with
    | error e => rfl
    | ok answer =>
      obtain ⟨added, l'⟩ := answer
      cases added with
      | false => exact addBlockV2_false hadd
      | true =>
        obtain ⟨htime, s, s', hf, -⟩ := (addBlockV2_true_iff hne).mp hadd
        exact absurd ⟨htime, s', hf⟩ (hs s)

theorem offersV2_ne (hne : l.chain ≠ []) : (l.offersV2 E calls).chain ≠ [] := by
  induction calls using List.reverseRecOn with
  | nil => exact hne
  | append_singleton calls call ih =>
    rw [offersV2_snoc]
    rcases offerV2_cases (E := E) ih call.1 call.2 with ⟨hsame, -⟩ | ⟨s, s', -, -, hgrown⟩
    · rw [hsame]
      exact ih
    · rw [hgrown]
      simp

/-- The states of the chain stay as they are when it grows. -/
theorem stateAt_grown {i : Nat} (hi : i < l.chain.length) (b : AnyBlock) (cache : StateCache) :
    ({ l with chain := l.chain ++ [b], registryStates := cache } : Ledger).stateAt E i = l.stateAt E i := by
  have hi' : i < (l.chain ++ [b]).length := by
    rw [List.length_append]
    omega
  rw [stateAt_eq hi, @stateAt_eq E { l with chain := l.chain ++ [b], registryStates := cache } i hi',
    List.take_append_of_le_length hi]
  exact replay_congr rfl rfl rfl rfl

/-- The fields of a new ledger. -/
theorem initOn_fields {args : LedgerArgs} {identity : NetworkIdentity} {chain : List AnyBlock}
    (h : args.initOn E identity chain = .ok l) :
    l.chain = chain ∧ l.networkIdentity = identity ∧ l.transactionValidator = args.transactionValidator ∧
      l.governanceKeys = Ledger.orKeys args.governanceKeys identity.governanceKeys ∧
      l.governanceThreshold = args.governanceThreshold.getD identity.governanceThreshold ∧
      GovernanceContext.init l.governanceKeys l.governanceThreshold identity.networkId = .ok l.governanceContext := by
  obtain ⟨ctx, hctx, h⟩ := bind_eq_ok.mp h
  cases hstrict : args.strictIdentity <;>
    simp only [hstrict, Bool.false_eq_true, if_false, if_true, bind_eq_ok] at h
  all_goals
    obtain ⟨_, -, _, -, hreplay⟩ := h
    obtain ⟨_, -, _, -, hl⟩ := by simpa only [Ledger.replayRegistryStates, bind_eq_ok] using hreplay
    cases hl
    exact ⟨rfl, rfl, rfl, rfl, rfl, hctx⟩

/-- A ledger given no chain starts on the genesis block of its identity. -/
theorem init_genesis {args : LedgerArgs} (h : Ledger.init E args = .ok l) (hchain : args.chain = none) :
    ∃ identity g, args.networkIdentity.elim (Ledger.inferIdentity E args.governanceKeys args.governanceThreshold) .ok =
        .ok identity ∧ genesisBlockFor identity = .ok g ∧ args.initOn E identity [.v2 g] = .ok l := by
  unfold Ledger.init at h
  cases hidentity : args.networkIdentity <;> simp only [hidentity, hchain] at h
  · obtain ⟨identity, hi, h⟩ := bind_eq_ok.mp h
    obtain ⟨g, hg, h⟩ := bind_eq_ok.mp h
    exact ⟨identity, g, hi, hg, h⟩
  · rw [ok_bind] at h
    obtain ⟨g, hg, h⟩ := bind_eq_ok.mp h
    exact ⟨_, g, rfl, hg, h⟩

theorem init_fresh {args : LedgerArgs} (h : Ledger.init E args = .ok l) (hchain : args.chain = none) :
    l.chain.length = 1 := by
  obtain ⟨identity, g, -, -, h⟩ := init_genesis h hchain
  rw [(initOn_fields h).1, List.length_singleton]

end

/-! ## A V1 block on the alpha network -/

theorem cache_coherent_alphaChild : ∃ l, Ledger.init (recorded []) {} = .ok l ∧
    (l.offers (recorded []) [(.v2 alphaChild, 1704067800)]).Coherent (recorded []) := by
  obtain ⟨l, hl, -⟩ := alphaLedger_grown
  refine ⟨l, hl, (cache_coherent_iff hl).mpr ?_ _ (List.prefix_refl _)⟩
  intro pre b now post h
  rcases pre with _ | ⟨x, pre⟩ <;> simp at h

/-- An empty V1 block on the genesis block. -/
def legacyBlock : Block where
  header := { version := 1, prevHash := GENESIS_HASH, merkleRoot := zeroHash, timestamp := 1704067800,
              target := MAX_TARGET, nonce := 29564 }
  transactions := []

set_option maxRecDepth 100000 in
theorem legacyBlock_added : ∃ l, Ledger.init (recorded []) {} = .ok l ∧
    okAnd (fun answer => answer.1) (l.addBlockV1 (recorded []) legacyBlock 1704067800) = true :=
  of_okAnd (by decide +kernel)

/-- After a V1 block the tip has no cached state. -/
theorem cache_incoherent : ¬ ∀ (E : Primitives) (args : LedgerArgs) (l : Ledger) (calls : List (AnyBlock × Int)),
    Ledger.init E args = .ok l → (l.offers E calls).Coherent E := by
  intro h
  obtain ⟨l, hl, hadded⟩ := legacyBlock_added
  obtain ⟨⟨added, l'⟩, hadd, rfl⟩ := of_okAnd hadded
  obtain ⟨ht, -⟩ := addBlockV1_true_iff.mp hadd
  have hoffer := offer_v1 ht
  obtain ⟨s, hs, -⟩ := h _ _ _ [(.v1 legacyBlock, 1704067800)] hl l.chain.length (by
    change _ < (l.offer _ _).chain.length
    rw [hoffer]
    simp)
  change (l.offer _ _).registryStateAt _ = _ at hs
  rw [hoffer, Ledger.registryStateAt, (init_cacheKept hl).bounded _ (Nat.le_refl _)] at hs
  cases hs

end ChainBreaker
