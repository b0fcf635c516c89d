import ChainBreaker.LedgerRules

/-!
# Validating a chain at once and block by block

Both ways accept a list of V2 blocks over a genesis block exactly when every
block follows the ones below (`FollowAll`), and both leave the cache that
replaying each prefix gives (`Cached`).
-/

namespace ChainBreaker

open Fallible

/-! ## A run of blocks over a chain -/

/-- The same network over another chain and cache. -/
def Ledger.on (l : Ledger) (c : List AnyBlock) (cache : StateCache) : Ledger :=
  { l with chain := c, registryStates := cache }

section
variable (E : Primitives)

def Ledger.FollowAll (l : Ledger) : List AnyBlock → List BlockV2 → Prop
  | _, [] => True
  | c, b :: bs => (∃ s s', l.Follows E c b s s') ∧ l.FollowAll (c ++ [.v2 b]) bs

/-- The cache holds the replayed state of every prefix of `c`, and nothing else. -/
def Ledger.Cached (l : Ledger) (c : List AnyBlock) (cache : StateCache) : Prop :=
  ∀ h, cache h = if h < c.length then (l.replay E (c.take (h + 1))).toOption else none

/-- Append a block and go on only if the answer is `True`; none is `False`. -/
def Ledger.addedStep (now : Int) (l : Ledger) (b : BlockV2) : Except (Option PyErr) Ledger :=
  match l.addBlockV2 E b now with
  | .ok (true, l') => .ok l'
  | .ok (false, _) => .error none
  | .error e => .error (some e)

variable {E} {l : Ledger} {c : List AnyBlock} {cache : StateCache} {b : BlockV2} {s s' : RegistryState}

theorem addedStep_eq_ok {now : Int} {l' : Ledger} :
    l.addedStep E now b = .ok l' ↔ l.addBlockV2 E b now = .ok (true, l') := by
  unfold Ledger.addedStep
  split <;> simp_all

theorem on_follows {c₀ : List AnyBlock} : (l.on c₀ cache).Follows E c b s s' ↔ l.Follows E c b s s' :=
  ⟨fun h => ⟨h.linked, h.target, h.replayed, h.root, h.median, h.intact, h.applied⟩,
    fun h => ⟨h.linked, h.target, h.replayed, h.root, h.median, h.intact, h.applied⟩⟩

theorem Ledger.FollowAll.replay : ∀ {bs : List BlockV2} {c : List AnyBlock} {s : RegistryState}, c ≠ [] →
    l.replay E c = .ok s → l.FollowAll E c bs → ∃ t, l.replay E (c ++ bs.map .v2) = .ok t
  | [], c, s, _, hs, _ => ⟨s, by simpa using hs⟩
  | b :: bs, c, s, hc, hs, ⟨⟨t, t', hf⟩, hfs⟩ => by
    simpa using FollowAll.replay (by simp) (hf.replay_append hc) hfs

theorem Ledger.Cached.extend (hc : c ≠ []) (hcache : l.Cached E c cache) (hf : l.Follows E c b s s') :
    l.Cached E (c ++ [.v2 b]) (cache.set c.length s') := by
  intro h
  unfold StateCache.set
  by_cases hh : h = c.length
  · subst hh
    rw [if_pos rfl, if_pos (by simp), List.take_of_length_le (by simp), hf.replay_append hc]
    rfl
  · rw [if_neg hh, hcache h]
    by_cases hlt : h < c.length
    · rw [if_pos hlt, if_pos (by simp; omega), List.take_append_of_le_length (by omega)]
    · rw [if_neg hlt, if_neg (by simp; omega)]

theorem Ledger.Cached.unique {cache' : StateCache} (h : l.Cached E c cache) (h' : l.Cached E c cache') :
    cache = cache' := funext fun i => (h i).trans (h' i).symm

/-! ## Block by block -/

theorem on_added_iff {now : Int} {l' : Ledger} (hc : c ≠ []) :
    (l.on c cache).addedStep E now b = .ok l' ↔ b.header.timestamp ≤ now + 2 * 60 * 60 ∧
      ∃ s s', l.Follows E c b s s' ∧ l' = l.on (c ++ [.v2 b]) (cache.set c.length s') := by
  rw [addedStep_eq_ok, addBlockV2_true_iff (show (l.on c cache).chain ≠ [] from hc)]
  constructor
  · rintro ⟨hnow, s, s', hf, rfl⟩
    exact ⟨hnow, s, s', on_follows.mp hf, rfl⟩
  · rintro ⟨hnow, s, s', hf, rfl⟩
    exact ⟨hnow, s, s', on_follows.mpr hf, rfl⟩

theorem adds_iff (now : Int) : ∀ (bs : List BlockV2) (c : List AnyBlock) (cache : StateCache), c ≠ [] →
    ((∃ l', run (Ledger.addedStep E now) (l.on c cache) bs = .ok l') ↔
      l.FollowAll E c bs ∧ ∀ b ∈ bs, b.header.timestamp ≤ now + 2 * 60 * 60)
  | [], _, _, _ => iff_of_true ⟨_, rfl⟩ ⟨trivial, by simp⟩
  | b :: bs, c, cache, hc => by
    have ih := fun cache => adds_iff now bs (c ++ [.v2 b]) cache (by simp)
    simp only [run_cons_ok, on_added_iff hc, List.forall_mem_cons, Ledger.FollowAll]
    constructor
    · rintro ⟨l', u, ⟨hnow, s, s', hf, rfl⟩, hrun⟩
      obtain ⟨hfs, hall⟩ := (ih _).mp ⟨l', hrun⟩
      exact ⟨⟨⟨s, s', hf⟩, hfs⟩, hnow, hall⟩
    · rintro ⟨⟨⟨s, s', hf⟩, hfs⟩, hnow, hall⟩
      obtain ⟨l', hrun⟩ := (ih (cache.set c.length s')).mpr ⟨hfs, hall⟩
      exact ⟨l', _, ⟨hnow, s, s', hf, rfl⟩, hrun⟩

theorem adds_cached {now : Int} : ∀ {bs : List BlockV2} {c : List AnyBlock} {cache : StateCache} {l' : Ledger},
    c ≠ [] → l.Cached E c cache → run (Ledger.addedStep E now) (l.on c cache) bs = .ok l' →
    l.Cached E (c ++ bs.map .v2) l'.registryStates
  | [], c, cache, l', _, hcache, hrun => by
    cases hrun
    rw [List.map_nil, List.append_nil]
    exact hcache
  | b :: bs, c, cache, l', hc, hcache, hrun => by
    obtain ⟨u, hu, hrun⟩ := (run_cons_ok _).mp hrun
    obtain ⟨-, s, s', hf, rfl⟩ := (on_added_iff hc).mp hu
    simpa using adds_cached (by simp) (hcache.extend hc hf) hrun

/-! ## At once -/

theorem set_of_cached {i : Nat} {s : RegistryState} (h : cache i = some s) : cache.set i s = cache := by
  funext j
  unfold StateCache.set
  split
  · rename_i hj
    rw [hj, h]
  · rfl

/-- From height `c.length` on, validation succeeds exactly when the remaining
blocks follow, and leaves the cache as it was. -/
theorem validateFrom_iff {full : List AnyBlock} (clock : Int) (hcache : l.Cached E full cache) :
    ∀ (bs : List BlockV2) (c : List AnyBlock) (cache' : StateCache), c ≠ [] → full = c ++ bs.map .v2 →
      ((l.on full cache).validateFrom E clock (List.range' c.length bs.length) cache = .ok (true, cache') ↔
        l.FollowAll E c bs ∧ cache' = cache)
  | [], c, cache', _, _ => by
    simp [Ledger.validateFrom, Ledger.FollowAll, eq_comm]
  | b :: bs, c, cache', hc, hfull => by
    have hpos : 0 < c.length := List.length_pos_iff.mpr hc
    have hb : (l.on full cache).chain[c.length]? = some (.v2 b) := by simp [Ledger.on, hfull]
    have htake : (l.on full cache).chain.take c.length = c := by simp [Ledger.on, hfull]
    have hfull' : full = (c ++ [.v2 b]) ++ bs.map .v2 := by simp [hfull]
    have ih := fun cache' => validateFrom_iff clock hcache bs (c ++ [.v2 b]) cache' (by simp) hfull'
    -- the cached state at this height is the one the block leads to
    have hat : ∀ {s s'}, l.Follows E c b s s' → cache c.length = some s' := by
      intro s s' hf
      have hlt : c.length < full.length := by simp [hfull]
      have hpre : full.take (c.length + 1) = c ++ [.v2 b] := by
        rw [hfull', List.take_append_of_le_length (by simp), List.take_of_length_le (by simp)]
      rw [hcache, if_pos hlt, hpre, hf.replay_append hc]
      rfl
    rw [List.length_append, List.length_singleton] at ih
    simp only [List.length_cons, List.range'_succ, Ledger.validateFrom, bind_eq_ok, Ledger.FollowAll]
    constructor
    · rintro ⟨next, hnext, h⟩
      cases next with
      | none => cases h
      | some next =>
        rw [validateBlockAt_some_iff hpos hb, htake] at hnext
        obtain ⟨s, s', hf, -, rfl⟩ := hnext
        have hf' := on_follows.mp hf
        rw [set_of_cached (hat hf')] at h
        obtain ⟨hfs, rfl⟩ := (ih _).mp h
        exact ⟨⟨⟨s, s', hf'⟩, hfs⟩, rfl⟩
    · rintro ⟨⟨⟨s, s', hf⟩, hfs⟩, rfl⟩
      refine ⟨some cache', ?_, (ih _).mpr ⟨hfs, rfl⟩⟩
      rw [validateBlockAt_some_iff hpos hb, htake]
      refine ⟨s, s', on_follows.mpr hf, fun t ht => ?_, (set_of_cached (hat hf)).symm⟩
      exact Option.some.inj (ht.symm.trans (hat hf))

/-! ## Ledgers over a list of V2 blocks -/

variable {identity : NetworkIdentity} {validator : Option (Json → Bool)} {L : Ledger}

variable (E) in
/-- `Ledger(chain=blocks, transaction_validator=validator, network_identity=identity)`. -/
def ledgerOn (identity : NetworkIdentity) (validator : Option (Json → Bool)) (blocks : List BlockV2) :
    Except PyErr Ledger :=
  Ledger.init E { chain := some (blocks.map .v2), transactionValidator := validator,
                  networkIdentity := some identity }

variable (E) in
/-- `Ledger.validate_chain` accepts the blocks for the network. -/
def Accepts (identity : NetworkIdentity) (validator : Option (Json → Bool)) (clock : Int)
    (blocks : List BlockV2) : Prop :=
  ∃ L L', ledgerOn E identity validator blocks = .ok L ∧ L.validateChain E clock = .ok (true, L')

/-- A ledger of the network, before it is given a chain. -/
def NetworkIdentity.rules (identity : NetworkIdentity) (validator : Option (Json → Bool))
    (ctx : GovernanceContext) : Ledger :=
  ⟨[], identity, validator, identity.governanceKeys, identity.governanceThreshold, ctx, fun _ => none⟩

theorem replayRegistryStates_ok (hc : c ≠ [])
    (h : (l.on c cache).replayRegistryStates E = .ok L) :
    ∃ cache', L = l.on c cache' ∧ l.Cached E c cache' := by
  unfold Ledger.replayRegistryStates at h
  obtain ⟨g, hg, states, hscan, h⟩ := by simpa only [bind_eq_ok] using h
  cases h
  refine ⟨_, rfl, fun i => ?_⟩
  have hlen := scan_length _ hscan
  have hpos := List.length_pos_iff.mpr hc
  rw [numbered_length] at hlen
  change _ = c.length - 1 + 1 at hlen
  split
  · rename_i hi
    have hle : i ≤ (numbered c).length := by rw [numbered_length]; omega
    obtain ⟨t, ht, hrun⟩ := scan_getElem? _ hscan hle
    change l.genesisState = .ok g at hg
    have hrep : l.replay E (c.take (i + 1)) = .ok t := by
      unfold Ledger.replay
      rw [hg, ok_bind, ← numbered_take]
      exact hrun
    rw [ht, hrep]; rfl
  · rw [List.getElem?_eq_none]; omega

theorem replayRegistryStates_of_replay (cache : StateCache) (h : l.replay E c = .ok s) :
    ∃ L, (l.on c cache).replayRegistryStates E = .ok L := by
  unfold Ledger.replay at h
  obtain ⟨g, hg, hrun⟩ := bind_eq_ok.mp h
  obtain ⟨states, hscan⟩ := (scan_ok_iff ((l.on c cache).replayStep E)).mpr ⟨s, hrun⟩
  refine ⟨_, bind_eq_ok.mpr ⟨g, hg, bind_eq_ok.mpr ⟨states, hscan, rfl⟩⟩⟩

theorem ledgerOn_ok_iff {blocks : List BlockV2} :
    ledgerOn E identity validator blocks = .ok L ↔ ∃ ctx,
      GovernanceContext.init identity.governanceKeys identity.governanceThreshold identity.networkId = .ok ctx ∧
      ((identity.rules validator ctx).on (blocks.map .v2) fun _ => none).validateGenesisIdentity E = .ok () ∧
      blocks ≠ [] ∧
      ((identity.rules validator ctx).on (blocks.map .v2) fun _ => none).replayRegistryStates E = .ok L := by
  simp only [ledgerOn, Ledger.init, ok_bind, if_true, bind_eq_ok]
  constructor
  · rintro ⟨ctx, hctx, _, hval, _, hb, hrep⟩
    refine ⟨ctx, hctx, hval, ?_, hrep⟩
    rintro rfl
    simp [blockAt, orRaise] at hb
  · rintro ⟨ctx, hctx, hval, hne, hrep⟩
    obtain ⟨b, bs, rfl⟩ := List.exists_cons_of_ne_nil hne
    exact ⟨ctx, hctx, (), hval, .v2 b, rfl, hrep⟩

theorem validateChain_iff {g : BlockV2} {rest : List BlockV2} {clock : Int} {L' : Ledger}
    (hcache : l.Cached E (.v2 g :: rest.map .v2) cache) :
    (l.on (.v2 g :: rest.map .v2) cache).validateChain E clock = .ok (true, L') ↔
      identityMatchesGenesis E l.networkIdentity (some g) = .ok true ∧
        g.verify E none true none none none = .ok true ∧ l.FollowAll E [.v2 g] rest ∧
        L' = l.on (.v2 g :: rest.map .v2) cache := by
  have hfrom := fun cache' => validateFrom_iff clock hcache rest [.v2 g] cache' (by simp) rfl
  simp only [List.length_singleton] at hfrom
  simp only [Ledger.validateChain, Ledger.on, AnyBlock.asV2, AnyBlock.verify, List.length_map, bind_eq_ok]
  constructor
  · rintro ⟨matched, hm, h⟩
    split at h
    · cases h
    rename_i hmt
    rw [Bool.not_eq_false] at hmt
    subst hmt
    obtain ⟨ok, hok, h⟩ := bind_eq_ok.mp h
    split at h
    · cases h
    rename_i hokt
    rw [Bool.not_eq_false] at hokt
    subst hokt
    obtain ⟨⟨valid, cache'⟩, hvf, h⟩ := bind_eq_ok.mp h
    cases h
    obtain ⟨hf, rfl⟩ := (hfrom _).mp hvf
    exact ⟨hm, hok, hf, rfl⟩
  · rintro ⟨hm, hok, hf, rfl⟩
    have hvf := (hfrom cache).mpr ⟨hf, rfl⟩
    unfold Ledger.on at hvf
    simp only [hm, hok, hvf, ok_bind, Bool.true_eq_false, if_false, Except.ok.injEq, exists_eq_left']

theorem validateGenesisIdentity_ok {g : BlockV2} {rest : List AnyBlock}
    (h : (l.on (.v2 g :: rest) cache).validateGenesisIdentity E = .ok ()) :
    identityMatchesGenesis E l.networkIdentity (some g) = .ok true ∧
      ∃ s, l.replay E [.v2 g] = .ok s ∧ registryRoot E s = .ok l.networkIdentity.genesisRegistryRoot := by
  simp only [Ledger.validateGenesisIdentity, bind_eq_ok, orRaise_eq_ok, require_eq_ok] at h
  obtain ⟨g', hg, matched, hm, _, hmt, s, hs, root, hroot, _, hr, -⟩ := h
  cases hg
  subst hmt
  refine ⟨hm, s, ?_, hroot.trans (congrArg _ hr)⟩
  change l.genesisState = .ok s at hs
  simp [Ledger.replay, hs, ok_bind, numbered]

/-- **What acceptance means**: the genesis block is the network's and verifies,
and every further block follows the ones below it. -/
theorem accepts_iff {g : BlockV2} {rest : List BlockV2} {clock : Int} :
    Accepts E identity validator clock (g :: rest) ↔ ∃ ctx,
      GovernanceContext.init identity.governanceKeys identity.governanceThreshold identity.networkId = .ok ctx ∧
      ((identity.rules validator ctx).on [.v2 g] fun _ => none).validateGenesisIdentity E = .ok () ∧
      g.verify E none true none none none = .ok true ∧
      (identity.rules validator ctx).FollowAll E [.v2 g] rest := by
  unfold Accepts
  simp only [ledgerOn_ok_iff]
  constructor
  · rintro ⟨L, L', ⟨ctx, hctx, hval, -, hrep⟩, hvc⟩
    obtain ⟨cache, rfl, hcache⟩ := replayRegistryStates_ok (by simp) hrep
    obtain ⟨-, hok, hf, -⟩ := (validateChain_iff hcache).mp hvc
    exact ⟨ctx, hctx, hval, hok, hf⟩
  · rintro ⟨ctx, hctx, hval, hok, hf⟩
    obtain ⟨hm, s, hs, -⟩ := validateGenesisIdentity_ok hval
    obtain ⟨t, ht⟩ := hf.replay (by simp) hs
    obtain ⟨L, hL⟩ := replayRegistryStates_of_replay (fun _ => none) ht
    obtain ⟨cache, rfl, hcache⟩ := replayRegistryStates_ok (by simp) hL
    exact ⟨_, _, ⟨ctx, hctx, hval, by simp, hL⟩, (validateChain_iff hcache).mpr ⟨hm, hok, hf, rfl⟩⟩

/-! ## Genesis blocks verify -/

variable (E) in
/-- A network the code makes: the frozen alpha network, or one derived from a
key ceremony. -/
inductive NetworkIdentity.Made : NetworkIdentity → Prop
  | alpha : Made alphaNetworkIdentity
  | derived (networkId : Str) (keys : List Str) (threshold : Nat) (kind : NetworkKind) (timestamp : Int)
      (iterations : Nat) (identity : NetworkIdentity) :
      deriveNetworkIdentity E networkId keys threshold kind timestamp iterations = .ok identity → Made identity

theorem searchNonce_some : ∀ {n : Nat} {h h' : BlockHeaderV2}, searchNonce E n h = .ok (some h') →
    (∃ nonce, h' = { h with nonce := nonce }) ∧ ∃ hash, h'.hash E = .ok hash ∧ satisfiesPow hash h'.target = true
  | 0, _, _, h => by cases h
  | n + 1, hd, h', h => by
    simp only [searchNonce, bind_eq_ok] at h
    obtain ⟨hash, hhash, h⟩ := h
    split at h
    · rename_i hpow
      cases h
      exact ⟨⟨hd.nonce, rfl⟩, hash, hhash, hpow⟩
    · obtain ⟨⟨nonce, rfl⟩, hp⟩ := searchNonce_some h
      exact ⟨⟨nonce, rfl⟩, hp⟩

theorem mineHeaderV2_some {n : Nat} {h h' : BlockHeaderV2} (hm : mineHeaderV2 E h n = .ok (some h')) :
    (∃ nonce, h' = { h with nonce := nonce }) ∧
      ∃ hash, h'.hash E = .ok hash ∧ satisfiesPow hash h'.target = true := by
  unfold mineHeaderV2 at hm
  split at hm
  · obtain ⟨bytes, -, hm⟩ := bind_eq_ok.mp hm
    split at hm
    · cases hm
    · exact searchNonce_some hm
  · exact searchNonce_some hm

theorem targetToHex_max : ∃ t, targetToHex MAX_TARGET = .ok t ∧ hexToTarget (canonicalHash t) = .ok MAX_TARGET :=
  ⟨str "0000ffff00000000000000000000000000000000000000000000000000000000", of_okEq (by decide +kernel),
    of_okEq (by decide +kernel)⟩

/-- The genesis header of a derived network reads back as it was mined. -/
theorem decode_mined {root : Bytes} {timestamp nonce : Int} {bytes : Bytes} {g : BlockV2}
    (hb : ({ genesisHeader (toHex root) timestamp with nonce := nonce } : BlockHeaderV2).bytes = .ok bytes)
    (hg : decodeBlockV2 bytes = .ok g) :
    g = ⟨{ genesisHeader (toHex root) timestamp with nonce := nonce }, []⟩ := by
  obtain ⟨t, ht, hback⟩ := targetToHex_max
  have hzero : canonicalHash zeroHash = zeroHash := by decide
  simp only [BlockHeaderV2.bytes, BlockHeaderV2.toDict, genesisHeader, ht, ok_bind] at hb
  simp only [decodeBlockV2, decodeHeaderV2_encode hb, ok_bind, HeaderDictV2.canonical, BlockHeaderV2.fromDict,
    hback, canonicalHash_toHex, hzero] at hg
  exact (Except.ok.inj hg).symm

theorem verify_mined {h : BlockHeaderV2} {hash : Str} (hversion : h.version = PROTOCOL_VERSION)
    (hprev : h.prevHash = zeroHash) (hmerkle : h.merkleRoot = zeroHash) (htarget : h.target = MAX_TARGET)
    (hts : 0 < h.timestamp) (hhash : h.hash E = .ok hash) (hpow : satisfiesPow hash h.target = true) :
    (⟨h, []⟩ : BlockV2).verify E none true none none none = .ok true := by
  have hh : (⟨h, []⟩ : BlockV2).hash E = .ok hash := hhash
  have hroot : merkleRootOf E [] = .ok zeroHash := rfl
  have hmin : MIN_TARGET ≤ MAX_TARGET := by decide
  by_cases hg : hash = GENESIS_HASH
  · simp [BlockV2.verify, BlockV2.isGenesis, hversion, hprev, hh, ok_bind, hg]
  · rw [htarget] at hpow
    simp [BlockV2.verify, BlockV2.isGenesis, hversion, hprev, hh, ok_bind, hg, htarget, hroot, hmerkle, hmin, hpow,
      hts, transactionsOk]

/-- The genesis block of a network the code makes passes `verify`. -/
theorem genesis_verifies {g : BlockV2} (hmade : identity.Made E) (hg : genesisBlockFor identity = .ok g)
    (hts : 0 < identity.genesisTimestamp) (hm : identityMatchesGenesis E identity (some g) = .ok true) :
    g.verify E none true none none none = .ok true := by
  cases hmade with
  | alpha =>
    unfold identityMatchesGenesis at hm
    dsimp only at hm
    split at hm
    · cases hm
    rename_i hprev
    split at hm
    · cases hm
    rename_i hversion
    obtain ⟨hash, hhash, hm⟩ := bind_eq_ok.mp hm
    split at hm
    · cases hm
    rename_i heq
    rw [not_not] at hprev hversion heq
    have heq' : hash = GENESIS_HASH := heq
    simp [BlockV2.verify, hversion, BlockV2.isGenesis, hprev, hhash, ok_bind, heq']
  | derived networkId keys threshold kind timestamp iterations _ h =>
    simp only [deriveNetworkIdentity, bind_eq_ok, orRaise_eq_ok, require_eq_ok, registryRoot] at h
    obtain ⟨_, -, sorted, -, root, ⟨data, -, hroot⟩, mined, hmine, header, rfl, hash, hhash, bytes, hbytes, h⟩ := h
    cases hroot
    cases h
    obtain ⟨⟨nonce, rfl⟩, hash', hhash', hpow⟩ := mineHeaderV2_some hmine
    have hgeq := decode_mined hbytes hg
    subst hgeq
    exact verify_mined rfl rfl rfl rfl hts hhash' hpow

/-! ## Both ways agree -/

/-- A ledger over a chain is the network's rules over it with an exact cache. -/
theorem ledgerOn_cached {blocks : List BlockV2} (h : ledgerOn E identity validator blocks = .ok L) :
    ∃ ctx cache, GovernanceContext.init identity.governanceKeys identity.governanceThreshold
        identity.networkId = .ok ctx ∧
      L = (identity.rules validator ctx).on (blocks.map .v2) cache ∧
      (identity.rules validator ctx).Cached E (blocks.map .v2) cache := by
  obtain ⟨ctx, hctx, -, hne, hrep⟩ := ledgerOn_ok_iff.mp h
  obtain ⟨cache, rfl, hcache⟩ := replayRegistryStates_ok (by simpa using hne) hrep
  exact ⟨ctx, cache, hctx, rfl, hcache⟩

section
variable {clock : Int} {g : BlockV2} {rest : List BlockV2}

theorem incremental_iff : (∃ L₀ L', ledgerOn E identity validator [g] = .ok L₀ ∧
      run (Ledger.addedStep E clock) L₀ rest = .ok L') ↔ ∃ ctx,
    GovernanceContext.init identity.governanceKeys identity.governanceThreshold identity.networkId = .ok ctx ∧
    ((identity.rules validator ctx).on [.v2 g] fun _ => none).validateGenesisIdentity E = .ok () ∧
    (identity.rules validator ctx).FollowAll E [.v2 g] rest ∧
    ∀ b ∈ rest, b.header.timestamp ≤ clock + 2 * 60 * 60 := by
  constructor
  · rintro ⟨L₀, L', hL₀, hrun⟩
    obtain ⟨ctx, hctx, hval, -, hrep⟩ := ledgerOn_ok_iff.mp hL₀
    obtain ⟨cache, rfl, -⟩ := replayRegistryStates_ok (by simp) hrep
    exact ⟨ctx, hctx, hval, (adds_iff clock rest _ cache (by simp)).mp ⟨L', hrun⟩⟩
  · rintro ⟨ctx, hctx, hval, hf⟩
    obtain ⟨-, s, hs, -⟩ := validateGenesisIdentity_ok hval
    obtain ⟨L₀, hrep⟩ := replayRegistryStates_of_replay (fun _ => none) hs
    have hL₀ : ledgerOn E identity validator [g] = .ok L₀ :=
      ledgerOn_ok_iff.mpr ⟨ctx, hctx, hval, by simp, hrep⟩
    obtain ⟨cache, rfl, -⟩ := replayRegistryStates_ok (by simp) hrep
    obtain ⟨L', hrun⟩ := (adds_iff clock rest [.v2 g] cache (by simp)).mpr hf
    exact ⟨_, L', hL₀, hrun⟩

theorem accepts_iff_added
    (hok : identityMatchesGenesis E identity (some g) = .ok true → g.verify E none true none none none = .ok true)
    (hclock : ∀ b ∈ g :: rest, b.header.timestamp ≤ clock + 2 * 60 * 60) :
    Accepts E identity validator clock (g :: rest) ↔ ∃ L₀ L', ledgerOn E identity validator [g] = .ok L₀ ∧
      run (Ledger.addedStep E clock) L₀ rest = .ok L' := by
  rw [accepts_iff, incremental_iff]
  constructor
  · rintro ⟨ctx, hctx, hval, -, hf⟩
    exact ⟨ctx, hctx, hval, hf, fun b hb => hclock b (.tail _ hb)⟩
  · rintro ⟨ctx, hctx, hval, hf, -⟩
    exact ⟨ctx, hctx, hval, hok (validateGenesisIdentity_ok hval).1, hf⟩

/-- **Batch and incremental validation agree** on acceptance and on every
registry state, for a network whose genesis block verifies. -/
theorem batch_iff_incremental (hg : genesisBlockFor identity = .ok g) (hts : 0 < identity.genesisTimestamp)
    (hnet : identity.Made E ∨ g.verify E none true none none none = .ok true)
    (hclock : ∀ b ∈ g :: rest, b.header.timestamp ≤ clock + 2 * 60 * 60) :
    (Accepts E identity validator clock (g :: rest) ↔ ∃ L₀ L', ledgerOn E identity validator [g] = .ok L₀ ∧
      run (Ledger.addedStep E clock) L₀ rest = .ok L') ∧
    ∀ L L' L₀ L'', ledgerOn E identity validator (g :: rest) = .ok L →
      L.validateChain E clock = .ok (true, L') → ledgerOn E identity validator [g] = .ok L₀ →
      run (Ledger.addedStep E clock) L₀ rest = .ok L'' →
      ∀ h, L'.registryStates h = L''.registryStates h := by
  constructor
  · exact accepts_iff_added (fun hm => hnet.elim (fun hmade => genesis_verifies hmade hg hts hm) id) hclock
  · intro L L' L₀ L'' hL hvc hL₀ hrun h
    obtain ⟨ctx, cache, hctx, rfl, hcache⟩ := ledgerOn_cached hL
    obtain ⟨ctx₀, cache₀, hctx₀, rfl, hcache₀⟩ := ledgerOn_cached hL₀
    obtain rfl : ctx = ctx₀ := Except.ok.inj (hctx.symm.trans hctx₀)
    obtain ⟨-, -, -, rfl⟩ := (validateChain_iff hcache).mp hvc
    have hcache'' := adds_cached (by simp) hcache₀ hrun
    exact congrFun (hcache.unique (by simpa using hcache'')) h

end

end

/-! ## The alpha network's first block -/

def alphaGenesis : BlockV2 := ⟨{ genesisHeader GENESIS_REGISTRY_ROOT GENESIS_TIMESTAMP with nonce := GENESIS_NONCE }, []⟩

/-- An empty block of the alpha network at the greatest target. -/
def alphaBlock (prevHash : Str) (timestamp nonce : Int) : BlockV2 :=
  ⟨{ genesisHeader GENESIS_REGISTRY_ROOT timestamp with prevHash := prevHash, nonce := nonce }, []⟩

def alphaChild : BlockV2 := alphaBlock GENESIS_HASH 1704067800 94902

set_option maxRecDepth 100000 in
example : alphaChild.hash (recorded []) = .ok (str "0000e91ffe8f11e6454e4d27524689678fbfa7aea4e05d268ce7d3d4801fdb17") :=
  of_okEq (by decide +kernel)

theorem alphaGenesis_eq : genesisBlockFor alphaNetworkIdentity = .ok alphaGenesis := by
  have h : (decodeHeaderV2 GENESIS_HEADER_BYTES >>= BlockHeaderV2.fromDict) = .ok alphaGenesis.header :=
    of_okEq (by decide +kernel)
  obtain ⟨d, hd, hh⟩ := bind_eq_ok.mp h
  unfold genesisBlockFor decodeBlockV2 alphaNetworkIdentity
  simp only [hd, hh, ok_bind]
  rfl

set_option maxRecDepth 100000 in
theorem alphaChild_added : ∃ L₀ L', ledgerOn (recorded []) alphaNetworkIdentity none [alphaGenesis] = .ok L₀ ∧
    run (Ledger.addedStep (recorded []) 1704067800) L₀ [alphaChild] = .ok L' := by
  have h : okAnd (fun L₀ => okAnd (fun _ => true) (run (Ledger.addedStep (recorded []) 1704067800) L₀ [alphaChild]))
      (ledgerOn (recorded []) alphaNetworkIdentity none [alphaGenesis]) = true := by decide +kernel
  obtain ⟨L₀, hL₀, h⟩ := of_okAnd h
  obtain ⟨L', hL', -⟩ := of_okAnd h
  exact ⟨L₀, L', hL₀, hL'⟩

theorem alphaChild_accepted : Accepts (recorded []) alphaNetworkIdentity none 1704067800 [alphaGenesis, alphaChild] :=
  (accepts_iff_added (genesis_verifies .alpha alphaGenesis_eq (by decide)) (by decide)).mpr alphaChild_added

theorem batch_iff_incremental_alphaChild :
    Accepts (recorded []) alphaNetworkIdentity none 1704067800 [alphaGenesis, alphaChild] :=
  (batch_iff_incremental alphaGenesis_eq (by decide) (.inl .alpha) (by decide)).1.mpr alphaChild_added

/-! ## A genesis block without work -/

def unminedGenesis : BlockV2 := ⟨genesisHeader GENESIS_REGISTRY_ROOT GENESIS_TIMESTAMP, []⟩

/-- The alpha network with the nonce of its genesis block left at zero, as a
stored ledger may name it. -/
def unminedIdentity : NetworkIdentity :=
  { alphaNetworkIdentity with
    genesisHash := str "05abd26b563727780a798d5e0a2808007f084bde3ae4061e1c431f585f063868"
    genesisHeaderBytes :=
      (fromHex (str "0202000000" ++ zeroHash ++ zeroHash ++ GENESIS_REGISTRY_ROOT ++ str "8000926500000000" ++
        str "0000ffff00000000000000000000000000000000000000000000000000000000" ++ str "0000000000000000")).getD [] }

set_option maxRecDepth 100000 in
example : unminedGenesis.hash (recorded []) = .ok unminedIdentity.genesisHash := of_okEq (by decide +kernel)

theorem unminedGenesis_eq : genesisBlockFor unminedIdentity = .ok unminedGenesis := by
  have h : (decodeHeaderV2 unminedIdentity.genesisHeaderBytes >>= BlockHeaderV2.fromDict) = .ok unminedGenesis.header :=
    of_okEq (by decide +kernel)
  obtain ⟨d, hd, hh⟩ := bind_eq_ok.mp h
  unfold genesisBlockFor decodeBlockV2
  simp only [hd, hh, ok_bind]
  rfl

set_option maxRecDepth 100000 in
theorem unminedGenesis_ledger : ∃ L, ledgerOn (recorded []) unminedIdentity none [unminedGenesis] = .ok L := by
  have h : okAnd (fun _ => true) (ledgerOn (recorded []) unminedIdentity none [unminedGenesis]) = true := by
    decide +kernel
  obtain ⟨L, hL, -⟩ := of_okAnd h
  exact ⟨L, hL⟩

/-- A ledger is built over a genesis block without work, and appends to it;
validating it says `False`. -/
theorem batch_differs_unmined : ¬ ∀ (E : Primitives) (identity : NetworkIdentity) (validator : Option (Json → Bool))
    (clock : Int) (g : BlockV2) (rest : List BlockV2), 0 < identity.genesisTimestamp →
      genesisBlockFor identity = .ok g → (∀ b ∈ g :: rest, b.header.timestamp ≤ clock + 2 * 60 * 60) →
      (Accepts E identity validator clock (g :: rest) ↔ ∃ L₀ L', ledgerOn E identity validator [g] = .ok L₀ ∧
        run (Ledger.addedStep E clock) L₀ rest = .ok L') := by
  intro h
  obtain ⟨L, hL⟩ := unminedGenesis_ledger
  have hacc := (h (recorded []) unminedIdentity none 1704067800 unminedGenesis [] (by decide) unminedGenesis_eq
    (by decide)).mpr ⟨L, L, hL, rfl⟩
  obtain ⟨-, -, -, hok, -⟩ := accepts_iff.mp hacc
  have hno : unminedGenesis.verify (recorded []) none true none none none = .ok false := of_okEq (by decide +kernel)
  rw [hno] at hok
  cases hok

end ChainBreaker
