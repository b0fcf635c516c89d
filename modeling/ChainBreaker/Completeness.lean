import ChainBreaker.ForkChoice

/-!
# To which heavier chains the engine switches

The engine reads the targets it expects off its own chain and replays the
registry under the default network's id. So of the heavier accepted chains it
takes those whose targets are the ones of its own chain, on the default network.
-/

namespace ChainBreaker

open Fallible Measure

section
variable {E : Primitives} {identity : NetworkIdentity} {validator : Option (Json → Bool)} {clock : Int}
  {ctx : GovernanceContext} {cur cand : List BlockV2} {depth : Option Int} {eng : ReorgEngine} {k : Nat}

/-! ## The fork -/

variable (E) in
/-- The chains share their blocks up to height `k` and no later one. -/
structure ForksAt (cur cand : List BlockV2) (k : Nat) : Prop where
  inCur : k < cur.length
  inCand : k < cand.length
  shared : cur.take (k + 1) = cand.take (k + 1)
  apart : ∀ i, k < i → ∀ h, hashAt E cur i = .ok h → hashAt E cand i ≠ .ok h

theorem ForksAt.getElem? (h : ForksAt E cur cand k) {i : Nat} (hi : i ≤ k) : cur[i]? = cand[i]? := by
  have hg := congrArg (·[i]?) h.shared
  simpa [List.getElem?_take, Nat.lt_succ_of_le hi] using hg

theorem accepts_hashAt (h : Accepts E identity validator clock cur) {i : Nat} (hi : i < cur.length) :
    ∃ hash, hashAt E cur i = .ok hash := by
  obtain ⟨ctx, hctx⟩ := accepts_ctx h
  have hb : cur[i]? = some cur[i] := List.getElem?_eq_getElem hi
  cases i with
  | zero =>
    obtain ⟨g, rest, rfl⟩ := List.exists_cons_of_ne_nil (accepts_ne h)
    obtain ⟨ctx', -, hval, -⟩ := accepts_iff.mp h
    exact ⟨_, hashAt_eq_ok.mpr ⟨g, rfl, hash_eq_ok.mpr ⟨_, genesis_bytes (validateGenesisIdentity_ok hval).1, rfl⟩⟩⟩
  | succ i =>
    obtain ⟨s, s', hf⟩ := h.follows hctx (split_at hb) (by simp [accepts_ne h])
    obtain ⟨hash, hhash, -⟩ := hf.intact.work
    exact ⟨hash, hashAt_eq_ok.mpr ⟨_, hb, hhash⟩⟩

/-- The search finds the height where the chains fork. -/
theorem searchAncestor_fork (hcur : Accepts E identity validator clock cur) (hfork : ForksAt E cur cand k)
    (hcand : Accepts E identity validator clock cand) : ∀ n, k ≤ n → n < cur.length → n < cand.length →
      searchAncestor E cur cand n = .ok k
  | 0, hk, _, _ => by rw [Nat.le_zero.mp hk]; rfl
  | n + 1, hk, hn, hn' => by
    obtain ⟨a, ha⟩ := accepts_hashAt hcur hn
    obtain ⟨b, hb⟩ := accepts_hashAt hcand hn'
    rw [searchAncestor, ha, hb, ok_bind, ok_bind]
    rcases Nat.lt_or_eq_of_le hk with hlt | rfl
    · rw [if_neg fun hab => hfork.apart _ hlt a ha (by rw [hb, hab])]
      exact searchAncestor_fork hcur hfork hcand n (by omega) (by omega) (by omega)
    · rw [if_pos]
      unfold hashAt at ha hb
      rw [hfork.getElem? le_rfl] at ha
      exact Except.ok.inj (ha.symm.trans hb)

theorem findCommonAncestor_fork (hcur : Accepts E identity validator clock cur)
    (hcand : Accepts E identity validator clock cand) (hfork : ForksAt E cur cand k) :
    findCommonAncestor E cur cand = .ok k := by
  have hin := hfork.inCur
  have hin' := hfork.inCand
  obtain ⟨a, ha⟩ := accepts_hashAt hcur (Nat.zero_lt_of_lt hin)
  have hb : hashAt E cand 0 = .ok a := by
    unfold hashAt at ha ⊢
    rwa [← hfork.getElem? (Nat.zero_le _)]
  have hne : cur ≠ [] ∧ cand ≠ [] := ⟨accepts_ne hcur, accepts_ne hcand⟩
  rw [findCommonAncestor, require_of _ hne, ok_bind, ha, hb, ok_bind, ok_bind, require_of _ rfl,
    ok_bind]
  exact searchAncestor_fork hcur hfork hcand _ (by omega) (by omega) (by omega)

/-! ## Expected targets -/

/-- Above the fork the candidate has the targets of the current chain, and above
its tip the tip's own. -/
def TargetsMatch (cur cand : List BlockV2) (k : Nat) : Prop :=
  ∀ i b, k < i → cand[i]? = some b →
    ∃ a, (cur[i]?.or cur.getLast?) = some a ∧ a.header.target = b.header.target

/-- A ledger that does not check its genesis block. -/
theorem init_loose (hctx : GovernanceContext.init identity.governanceKeys identity.governanceThreshold
    identity.networkId = .ok ctx) {c : List AnyBlock} (hc : c ≠ []) :
    Ledger.init E
      { chain := some c, governanceKeys := some identity.governanceKeys,
        governanceThreshold := some identity.governanceThreshold, networkIdentity := some identity,
        strictIdentity := false } = ((identity.rules none ctx).on c fun _ => none).replayRegistryStates E := by
  obtain ⟨key, keys, hk⟩ := List.exists_cons_of_ne_nil (context_keys hctx)
  have hkeys : Ledger.orKeys (some identity.governanceKeys) identity.governanceKeys = identity.governanceKeys := by
    rw [hk]; rfl
  obtain ⟨g, rest, rfl⟩ := List.exists_cons_of_ne_nil hc
  simp only [Ledger.init, hkeys, ok_bind, Option.getD_some, hctx, Bool.false_eq_true, if_false]
  rfl

theorem engine_expectedTarget (hcur : Accepts E identity validator clock cur) {i : Nat} (hi : 0 < i) {a : BlockV2}
    (ha : (cur[i]?.or cur.getLast?) = some a) :
    ReorgEngine.expectedTargetAt E ⟨cur, identity.governanceKeys, identity.governanceThreshold, depth, identity⟩ i =
      .ok a.header.target := by
  obtain ⟨ctx, hctx⟩ := accepts_ctx hcur
  unfold ReorgEngine.expectedTargetAt
  rw [if_neg (Nat.ne_of_gt hi)]
  dsimp only
  split
  · rename_i hlt
    have hget : cur[i]? = some cur[i] := List.getElem?_eq_getElem hlt
    rw [hget, Option.some_or, Option.some.injEq] at ha
    obtain ⟨s, s', hf⟩ := hcur.follows hctx (split_at hget) (by simp; exact ⟨by omega, accepts_ne hcur⟩)
    have hlen : ((cur.take i).map AnyBlock.v2).length = i := by simp; omega
    have htarget := hf.target
    rw [hlen] at htarget
    have hne : (cur.take i).map AnyBlock.v2 ≠ [] := by rw [← List.length_pos_iff, hlen]; exact hi
    -- the ledger over the prefix is built, since the prefix replays
    have hs : (identity.rules none ctx).replay E ((cur.take i).map .v2) = .ok s := hf.replayed
    obtain ⟨L, hL⟩ := replayRegistryStates_of_replay (fun _ => none) hs
    obtain ⟨cache, rfl, -⟩ := replayRegistryStates_ok hne hL
    rw [init_loose hctx hne, hL, ok_bind]
    change ChainBreaker.expectedTargetAt ((cur.take i).map .v2) i = _
    rw [htarget, ← ha]
  · rename_i hge
    rw [List.getElem?_eq_none (Nat.not_lt.mp hge), Option.none_or] at ha
    rw [ha, orRaise, ok_bind]

/-! ## The registry of the suffix -/

/-- No block above the genesis block holds a governance transaction. -/
def NoGovernance (blocks : List BlockV2) : Prop :=
  ∀ b ∈ blocks.tail, ∀ tx ∈ b.transactions, isGovernance tx = false

variable (E) in
/-- The bootstrap state has one root under the default network's id and under
the identity's own. -/
def RootsCollide (identity : NetworkIdentity) : Prop :=
  ∃ g root, RegistryState.genesis identity.governanceKeys identity.governanceThreshold = .ok g ∧
    registryRoot E g = .ok root ∧ registryRoot E (g.withNetworkId identity.networkId) = .ok root

/-- The engine's checks of a suffix that follows: its targets and its replay of
the registry remain to be seen. -/
theorem suffixAll_of_follows {l : Ledger} {targetAt : Nat → Except PyErr Int} {pre suf : List BlockV2} {n : Nat}
    {s : RegistryState}
    (hfollow : ∀ p b q, suf = p ++ b :: q → ∃ t t', l.Follows E ((pre ++ p).map .v2) b t t')
    (htarget : ∀ p b q, suf = p ++ b :: q → targetAt (n + p.length) = .ok b.header.target)
    (hreplay : ∀ p b q, suf = p ++ b :: q → ∃ t t',
      run (ReorgEngine.replayStep E ctx) s ((p.map .v2).zipIdx n) = .ok t ∧
      registryRoot E t = .ok b.header.registryRoot ∧
      reorgApplyTransactions E t b.transactions (n + p.length) ctx = .ok t') :
    SuffixAll E ctx targetAt n s none suf := by
  refine suffixAll_iff.mpr fun p b q h => ⟨fun _ _ hx => (by cases hx), fun last hl => ?_, ?_⟩
  · obtain ⟨t, t', hf⟩ := hfollow p b q h
    obtain ⟨last', hl', hhash⟩ := hf.linked
    rw [List.getLast?_map, List.getLast?_append, hl] at hl'
    cases hl'
    exact hhash
  · obtain ⟨t, t', hf⟩ := hfollow p b q h
    obtain ⟨u, u', hrun, hroot, happ⟩ := hreplay p b q h
    obtain ⟨hash, hhash, hpow⟩ := hf.intact.work
    exact ⟨u, u', hash, hrun, hhash, hf.intact.version, hpow, htarget p b q h, hf.intact.merkle, hroot, happ⟩

/-- On the default network both replays of the suffix are one. -/
theorem replay_default {l : Ledger} {pre suf : List BlockV2} {n : Nat} {s : RegistryState}
    (hlen : pre.length = n + 1) (hn : l.networkId = NETWORK_ID) (hctx : l.governanceContext = ctx)
    (hs : l.replay E (pre.map .v2) = .ok s)
    (hfollow : ∀ p b q, suf = p ++ b :: q → ∃ t t', l.Follows E ((pre ++ p).map .v2) b t t') :
    ∀ p b q, suf = p ++ b :: q → ∃ t t',
      run (ReorgEngine.replayStep E ctx) s ((p.map .v2).zipIdx (n + 1)) = .ok t ∧
      registryRoot E t = .ok b.header.registryRoot ∧
      reorgApplyTransactions E t b.transactions (n + 1 + p.length) ctx = .ok t' := by
  intro p b q h
  have hschema : ∀ x ∈ suf, ∀ tx ∈ x.transactions, schemaOk tx = true := by
    intro x hx
    obtain ⟨p, q, hpq⟩ := List.append_of_mem hx
    exact (follows_iff.mp (hfollow p x q hpq)).2.1.schema
  have hpre : pre.map AnyBlock.v2 ≠ [] := by rw [← List.length_pos_iff, List.length_map]; omega
  obtain ⟨t, t', hf⟩ := hfollow p b q h
  have hreplayed := hf.replayed
  have happ := hf.applied
  rw [List.map_append, replay_append_all hpre hs, List.length_map, hlen] at hreplayed
  rw [List.length_map, List.length_append, hlen] at happ
  refine ⟨t, t', ?_, hf.root, ?_⟩
  · rw [engineReplay_eq hn hctx fun x hx => hschema x (by rw [h]; simp [hx])]
    exact hreplayed
  · rw [reorgApply_eq E hn hctx (hschema b (by rw [h]; simp))]
    exact happ

/-- Without governance transactions neither replay moves. -/
theorem engineReplay_fixed {bs : List BlockV2} (h : ∀ b ∈ bs, ∀ tx ∈ b.transactions, isGovernance tx = false)
    (s : RegistryState) (n : Nat) : run (ReorgEngine.replayStep E ctx) s ((bs.map .v2).zipIdx n) = .ok s := by
  refine run_fixed _ fun x hx => ?_
  obtain ⟨b, hb, he⟩ := mem_zipIdx_blocks hx
  unfold ReorgEngine.replayStep
  rw [he]
  exact apply_without_governance E (h b hb)

theorem ledgerReplay_fixed {l : Ledger} {bs : List BlockV2} (h : NoGovernance bs) :
    l.replay E (bs.map .v2) = l.genesisState := by
  unfold Ledger.replay
  cases l.genesisState with
  | error e => rfl
  | ok g =>
    rw [ok_bind, numbered, ← List.map_tail]
    refine run_fixed _ fun x hx => ?_
    obtain ⟨b, hb, he⟩ := mem_zipIdx_blocks hx
    unfold Ledger.replayStep
    rw [he]
    exact apply_without_governance E (h b hb)

theorem genesisState_other {l : Ledger} (hn : l.networkId ≠ NETWORK_ID) {g : RegistryState}
    (hg : RegistryState.genesis l.governanceKeys l.governanceThreshold = .ok g) :
    l.genesisState = .ok (g.withNetworkId l.networkId) := by
  rw [Ledger.genesisState, hg, ok_bind, if_pos hn]

theorem branchWork_nonneg : ∀ {blocks : List BlockV2} {w : Int}, branchWork blocks = .ok w → 0 ≤ w
  | [], w, h => by cases h; exact le_rfl
  | b :: rest, w, h => by
    obtain ⟨x, hx, y, hy, h⟩ := by simpa only [branchWork, bind_eq_ok] using h
    cases h
    unfold computeWork at hx
    split at hx
    · cases hx
    · rename_i hpos
      cases hx
      exact Int.add_nonneg (Int.ediv_nonneg (by decide) (by omega)) (branchWork_nonneg hy)

theorem branchWork_append : ∀ {a b : List BlockV2} {w : Int}, branchWork (a ++ b) = .ok w →
    ∃ x y, branchWork a = .ok x ∧ branchWork b = .ok y ∧ w = x + y
  | [], b, w, h => ⟨0, w, rfl, h, (Int.zero_add w).symm⟩
  | c :: a, b, w, h => by
    obtain ⟨v, hv, z, hz, h⟩ := by simpa only [List.cons_append, branchWork, bind_eq_ok] using h
    obtain ⟨x, y, hx, hy, rfl⟩ := branchWork_append hz
    cases h
    exact ⟨v + x, y, by rw [branchWork, hv, ok_bind, hx, ok_bind], hy, (Int.add_assoc v x y).symm⟩

theorem branchWork_suffix {w w' : Int} (hfork : ForksAt E cur cand k) (hw : branchWork cur = .ok w)
    (hw' : branchWork cand = .ok w') : ∃ x y y', branchWork (cur.drop (k + 1)) = .ok y ∧
      branchWork (cand.drop (k + 1)) = .ok y' ∧ w = x + y ∧ w' = x + y' := by
  rw [← List.take_append_drop (k + 1) cur] at hw
  rw [← List.take_append_drop (k + 1) cand, ← hfork.shared] at hw'
  obtain ⟨x, y, hx, hy, rfl⟩ := branchWork_append hw
  obtain ⟨x', y', hx', hy', rfl⟩ := branchWork_append hw'
  obtain rfl : x = x' := Except.ok.inj (hx.symm.trans hx')
  exact ⟨x, y, y', hy, hy', rfl, rfl⟩

theorem context_other {keys : List Str} {threshold : Nat} {n n' : Str} (hn : n' ≠ [])
    (h : GovernanceContext.init keys threshold n = .ok ctx) : ∃ ctx', GovernanceContext.init keys threshold n' = .ok ctx' := by
  unfold GovernanceContext.init at h ⊢
  split at h
  · rename_i hc
    rw [dif_pos hc]
    split at h
    · cases h
    · rename_i hk
      split at h
      · rename_i ht
        rw [dif_pos ht, dif_pos hn]
        exact ⟨_, rfl⟩
      · cases h
  · cases h

/-- Blocks that both replays apply on another network hold no governance. -/
theorem noGovernance_prefix {l : Ledger} {pre : List BlockV2} {g g' t t' : RegistryState} (hn : l.networkId ≠ NETWORK_ID)
    (hschema : ∀ b ∈ pre.tail, ∀ tx ∈ b.transactions, schemaOk tx = true)
    (hl : run (l.replayStep E) g (numbered (pre.map .v2)) = .ok t)
    (hr : run (ReorgEngine.replayStep E ctx) g' (numbered (pre.map .v2)) = .ok t') : NoGovernance pre := by
  intro b hb
  have hmem : (AnyBlock.v2 b) ∈ ((numbered (pre.map .v2)).map Prod.fst) := by
    rw [numbered, List.zipIdx_map_fst, ← List.map_tail]
    exact List.mem_map_of_mem hb
  obtain ⟨⟨_, n⟩, hx, rfl⟩ := List.mem_map.mp hmem
  obtain ⟨u, u', hu⟩ := run_mem _ hl hx
  obtain ⟨v, v', hv⟩ := run_mem _ hr hx
  exact no_governance_of_both E hn (hschema b hb) hu hv

theorem engine_stateAt_ok {s : RegistryState} (hk : k < cur.length) :
    ReorgEngine.stateAt E ⟨cur, identity.governanceKeys, identity.governanceThreshold, depth, identity⟩ k = .ok s ↔
      ∃ g ctx, RegistryState.genesis identity.governanceKeys identity.governanceThreshold = .ok g ∧
        GovernanceContext.init identity.governanceKeys identity.governanceThreshold NETWORK_ID = .ok ctx ∧
        run (ReorgEngine.replayStep E ctx) g (numbered ((cur.take (k + 1)).map .v2)) = .ok s := by
  unfold ReorgEngine.stateAt
  dsimp only
  rw [if_neg (Nat.not_le.mpr hk), numbered_take, ← List.map_take]
  simp only [bind_eq_ok]
  constructor
  · rintro ⟨g, hg, ctx, hctx, h⟩
    exact ⟨g, ctx, hg, hctx, h⟩
  · rintro ⟨g, ctx, hg, hctx, h⟩
    exact ⟨g, hg, ctx, hctx, h⟩

theorem noGovernance_split (hpre : NoGovernance (cand.take (k + 1)))
    (hsuf : ∀ b ∈ cand.drop (k + 1), ∀ tx ∈ b.transactions, isGovernance tx = false) : NoGovernance cand := by
  intro b hb
  cases cand with
  | nil => cases hb
  | cons g rest =>
    rw [List.tail_cons, ← List.take_append_drop k rest, List.mem_append] at hb
    exact hb.elim (hpre b) (hsuf b)

theorem NoGovernance.above (h : NoGovernance cand) :
    ∀ b ∈ cand.drop (k + 1), ∀ tx ∈ b.transactions, isGovernance tx = false := by
  intro b hb
  refine h b ?_
  rw [← List.drop_one]
  exact (List.drop_subset_drop_left cand (by omega)) hb

theorem NoGovernance.below (h : NoGovernance cand) : NoGovernance (cand.take (k + 1)) := by
  intro b hb
  cases cand with
  | nil => cases hb
  | cons g rest => exact h b (List.mem_of_mem_take hb)

/-- On another network the checked suffix shows the collision. -/
theorem collide_of_suffix (hctx : GovernanceContext.init identity.governanceKeys identity.governanceThreshold
      identity.networkId = .ok ctx) (hcand : Accepts E identity validator clock cand) (hfork : ForksAt E cur cand k)
    (hn : identity.networkId ≠ NETWORK_ID) {s : RegistryState} {ctx' : GovernanceContext}
    {targetAt : Nat → Except PyErr Int} (hne : cand.drop (k + 1) ≠ [])
    (hstate : ReorgEngine.stateAt E ⟨cur, identity.governanceKeys, identity.governanceThreshold, depth, identity⟩ k =
      .ok s)
    (hall : SuffixAll E ctx' targetAt (k + 1) s none (cand.drop (k + 1))) :
    RootsCollide E identity ∧ NoGovernance cand := by
  have hnet : (identity.rules validator ctx).networkId ≠ NETWORK_ID := hn
  have hfollow := fun p b q h => (followAll_iff _ _).mp ((accepts_split hctx k).mp hcand).2 p b q h
  obtain ⟨b, q, hsuf⟩ := List.exists_cons_of_ne_nil hne
  obtain ⟨t, t', hf⟩ := hfollow [] b q hsuf
  have hreplay := hf.replayed
  rw [List.append_nil] at hreplay
  obtain ⟨g, ctx₀, hg, -, hrun⟩ := (engine_stateAt_ok hfork.inCur).mp hstate
  rw [hfork.shared] at hrun
  -- no governance below the fork, nor above it
  have hpre : NoGovernance (cand.take (k + 1)) := by
    obtain ⟨g', -, hrun'⟩ := bind_eq_ok.mp hreplay
    refine noGovernance_prefix hnet (fun x hx => accepts_schema hcand ?_) hrun' hrun
    cases cand with
    | nil => cases hx
    | cons g rest => exact List.mem_of_mem_take hx
  have hgov : NoGovernance cand := by
    refine noGovernance_split hpre fun x hx => ?_
    obtain ⟨p, q, hpq⟩ := List.append_of_mem hx
    obtain ⟨u, u', hfx⟩ := hfollow p x q hpq
    obtain ⟨-, -, v, v', hash, -, hok⟩ := suffixAll_iff.mp hall p x q hpq
    have happ := hfx.applied
    rw [List.length_map, List.length_append, List.length_take, Nat.min_eq_left hfork.inCand] at happ
    exact no_governance_of_both E hnet (follows_iff.mp ⟨u, u', hfx⟩).2.1.schema happ hok.applied
  refine ⟨⟨g, b.header.registryRoot, hg, ?_, ?_⟩, hgov⟩
  · have hs : s = g := by
      rw [numbered, ← List.map_tail, engineReplay_fixed hpre] at hrun
      exact (Except.ok.inj hrun).symm
    obtain ⟨-, -, v, v', hash, hv, hok⟩ := suffixAll_iff.mp hall [] b q hsuf
    cases hv
    rw [← hs]; exact hok.root
  · rw [ledgerReplay_fixed hpre, genesisState_other hnet hg, Except.ok.injEq] at hreplay
    have hroot := hf.root
    rw [← hreplay] at hroot
    exact hroot

/-- Where the bootstrap roots collide and nothing touches the registry, the
engine's replay of the suffix stands still. -/
theorem replay_collide {l : Ledger} {pre suf : List BlockV2} {g : RegistryState} {root : Str} (n : Nat)
    (hn : l.networkId ≠ NETWORK_ID) (hg : RegistryState.genesis l.governanceKeys l.governanceThreshold = .ok g)
    (hroot : registryRoot E g = .ok root) (hroot' : registryRoot E (g.withNetworkId l.networkId) = .ok root)
    (hpre : pre ≠ []) (hgov : NoGovernance (pre ++ suf))
    (hfollow : ∀ p b q, suf = p ++ b :: q → ∃ t t', l.Follows E ((pre ++ p).map .v2) b t t') :
    ∀ p b q, suf = p ++ b :: q → ∃ t t',
      run (ReorgEngine.replayStep E ctx) g ((p.map .v2).zipIdx n) = .ok t ∧
      registryRoot E t = .ok b.header.registryRoot ∧
      reorgApplyTransactions E t b.transactions (n + p.length) ctx = .ok t' := by
  intro p b q h
  obtain ⟨g₀, pre, rfl⟩ := List.exists_cons_of_ne_nil hpre
  have hsuf : ∀ x ∈ suf, ∀ tx ∈ x.transactions, isGovernance tx = false := fun x hx =>
    hgov x (List.mem_append_right _ hx)
  have hbelow : NoGovernance (g₀ :: pre ++ p) := fun x hx => hgov x (by
    rcases List.mem_append.mp hx with hx | hx
    · exact List.mem_append_left _ hx
    · exact List.mem_append_right _ (by rw [h]; simp [hx]))
  obtain ⟨t, t', hf⟩ := hfollow p b q h
  have hreplayed := hf.replayed
  rw [ledgerReplay_fixed hbelow, genesisState_other hn hg, Except.ok.injEq] at hreplayed
  have hb := hf.root
  rw [← hreplayed, hroot', Except.ok.injEq] at hb
  refine ⟨g, g, engineReplay_fixed (fun x hx => hsuf x (by rw [h]; simp [hx])) g n, by rw [hroot, hb],
    apply_without_governance E (hsuf b (by rw [h]; simp))⟩

/-! ## Completeness -/

variable (E) in
/-- The result is a switch to the tip of `cand` at the fork. -/
structure ReorgResult.SwitchesTo (r : ReorgResult) (cur cand : List BlockV2) (k : Nat) : Prop where
  switched : r.switched = true
  tip : ∃ tip, cand.getLast? = some tip ∧ tip.hash E = .ok r.newTipHash
  height : r.newTipHeight = cand.length - 1
  ancestor : r.commonAncestorHeight = k
  disconnect : r.disconnectHeights = List.range' (k + 1) (cur.length - (k + 1))
  connect : r.connectHeights = List.range' (k + 1) (cand.length - (k + 1))

theorem accepts_tip (h : Accepts E identity validator clock cur) :
    ∃ tip hash, cur.getLast? = some tip ∧ tip.hash E = .ok hash := by
  have hpos := List.length_pos_iff.mpr (accepts_ne h)
  obtain ⟨hash, hh⟩ := accepts_hashAt h (Nat.sub_lt hpos Nat.one_pos)
  obtain ⟨tip, htip, hh⟩ := hashAt_eq_ok.mp hh
  exact ⟨tip, hash, by rw [List.getLast?_eq_getElem?, htip], hh⟩

/-- The engine's checks of the suffix pass when the targets and the network are
as they must be. -/
theorem engine_suffix (hcur : Accepts E identity validator clock cur) (hcand : Accepts E identity validator clock cand)
    (hfork : ForksAt E cur cand k) (htargets : TargetsMatch cur cand k)
    (hnet : identity.networkId = NETWORK_ID ∨ RootsCollide E identity ∧ NoGovernance cand) :
    let eng : ReorgEngine := ⟨cur, identity.governanceKeys, identity.governanceThreshold, depth, identity⟩
    ∃ s ctx, eng.stateAt E k = .ok s ∧
      GovernanceContext.init identity.governanceKeys identity.governanceThreshold NETWORK_ID = .ok ctx ∧
      SuffixAll E ctx (eng.expectedTargetAt E) (k + 1) s none (cand.drop (k + 1)) := by
  intro eng
  obtain ⟨ctx, hctx⟩ := accepts_ctx hcur
  have hlen : (cand.take (k + 1)).length = k + 1 := by rw [List.length_take]; exact Nat.min_eq_left hfork.inCand
  obtain ⟨hpre, hfollow⟩ := (accepts_split hctx k).mp hcand
  have hfollow := fun p b q h => (followAll_iff _ _).mp hfollow p b q h
  have htarget : ∀ p b q, cand.drop (k + 1) = p ++ b :: q →
      eng.expectedTargetAt E (k + 1 + p.length) = .ok b.header.target := by
    intro p b q h
    have hb : cand[k + 1 + p.length]? = some b := by
      rw [← List.getElem?_drop, h]; simp
    obtain ⟨a, ha, hab⟩ := htargets _ b (by omega) hb
    rw [← hab]
    exact engine_expectedTarget hcur (by omega) ha
  by_cases hn : identity.networkId = NETWORK_ID
  · obtain ⟨s, hs⟩ := accepts_replay hctx hpre
    have hstate := @engine_stateAt E identity validator clock ctx cur depth k hcur hn hctx hfork.inCur
    rw [hfork.shared, hs] at hstate
    have hnetwork : (identity.rules validator ctx).networkId = NETWORK_ID := hn
    refine ⟨s, ctx, hstate, hn ▸ hctx, suffixAll_of_follows hfollow htarget ?_⟩
    exact replay_default hlen hnetwork rfl hs hfollow
  · obtain ⟨⟨g, root, hg, hroot, hroot'⟩, hgov⟩ := hnet.resolve_left hn
    have hname : NETWORK_ID ≠ [] := by decide
    obtain ⟨ctx', hctx'⟩ := context_other hname hctx
    have hstate : eng.stateAt E k = .ok g := by
      refine (engine_stateAt_ok hfork.inCur).mpr ⟨g, ctx', hg, hctx', ?_⟩
      rw [hfork.shared, numbered, ← List.map_tail]
      exact engineReplay_fixed hgov.below g 1
    refine ⟨g, ctx', hstate, hctx', suffixAll_of_follows hfollow htarget ?_⟩
    have hother : (identity.rules validator ctx).networkId ≠ NETWORK_ID := hn
    refine replay_collide (k + 1) hother hg hroot hroot' (accepts_ne hpre) ?_ hfollow
    rwa [List.take_append_drop]

theorem switches_of_more_work (hcur : Accepts E identity validator clock cur)
    (hcand : Accepts E identity validator clock cand) (hfork : ForksAt E cur cand k)
    (hdepth : ∀ d, depth = some d → (cur.length : Int) - 1 - k ≤ d) (htargets : TargetsMatch cur cand k)
    (hnet : identity.networkId = NETWORK_ID ∨ RootsCollide E identity ∧ NoGovernance cand) {y y' : Int}
    (hy : branchWork (cur.drop (k + 1)) = .ok y) (hy' : branchWork (cand.drop (k + 1)) = .ok y') (hlt : y < y') :
    ∃ r, ReorgEngine.evaluateCandidate E
      ⟨cur, identity.governanceKeys, identity.governanceThreshold, depth, identity⟩ cand = .ok r ∧
        r.SwitchesTo E cur cand k := by
  obtain ⟨tip, old, htip, hold⟩ := accepts_tip hcur
  obtain ⟨tip', new, htip', hnew⟩ := accepts_tip hcand
  have hcurTip : ReorgEngine.currentTipHash E
      ⟨cur, identity.governanceKeys, identity.governanceThreshold, depth, identity⟩ = .ok old := by
    simp only [ReorgEngine.currentTipHash, htip, orRaise, ok_bind, hold]
  refine ⟨_, (evaluateCandidate_switched_iff.mpr ⟨k, findCommonAncestor_fork hcur hcand hfork, hdepth,
    engine_suffix hcur hcand hfork htargets hnet, ⟨y', y, hy', hy, hlt⟩, tip', old, new, htip', hcurTip, hnew,
    rfl⟩).1, ?_⟩
  exact ⟨rfl, ⟨tip', htip', hnew⟩, rfl, rfl, rfl, rfl⟩

/-- **Completeness.** Of a heavier accepted chain the engine reports a switch
exactly when the targets match, and either the network is the default one or
its bootstrap roots collide and the chain does not touch the registry. -/
theorem switch_complete_iff (hcur : Accepts E identity validator clock cur)
    (hcand : Accepts E identity validator clock cand) (heng : engineOn E identity depth cur = .ok eng)
    (hfork : ForksAt E cur cand k) (hdepth : ∀ d, depth = some d → (cur.length : Int) - 1 - k ≤ d)
    (hwork : ∃ w w', branchWork cur = .ok w ∧ branchWork cand = .ok w' ∧ w < w') :
    (∃ r, eng.evaluateCandidate E cand = .ok r ∧ r.SwitchesTo E cur cand k) ↔
      TargetsMatch cur cand k ∧
        (identity.networkId = NETWORK_ID ∨ RootsCollide E identity ∧ NoGovernance cand) := by
  obtain ⟨ctx, hctx⟩ := accepts_ctx hcur
  obtain rfl := engineOn_fields hcur heng
  have hk := findCommonAncestor_fork hcur hcand hfork
  obtain ⟨w, w', hw, hw', hww⟩ := hwork
  obtain ⟨x, y, y', hy, hy', rfl, rfl⟩ := branchWork_suffix hfork hw hw'
  constructor
  · rintro ⟨r, hr, hto⟩
    obtain ⟨k', hs⟩ := evaluateCandidate_switched_iff.mp ⟨hr, hto.switched⟩
    obtain rfl : k = k' := Except.ok.inj (hk.symm.trans hs.ancestor)
    obtain ⟨s, ctx', hstate, hctx', hall⟩ := hs.suffix
    constructor
    · intro i b hi hb
      have ha : ∃ a, (cur[i]?.or cur.getLast?) = some a := by
        cases hc : cur[i]? with
        | some a => exact ⟨a, rfl⟩
        | none =>
          obtain ⟨tip, -, htip, -⟩ := accepts_tip hcur
          exact ⟨tip, htip⟩
      obtain ⟨a, ha⟩ := ha
      refine ⟨a, ha, ?_⟩
      obtain ⟨p, q, hsuf, hp⟩ : ∃ p q, cand.drop (k + 1) = p ++ b :: q ∧ k + 1 + p.length = i := by
        have hd : (cand.drop (k + 1))[i - (k + 1)]? = some b := by
          rw [List.getElem?_drop, ← hb]; congr 1; omega
        refine ⟨_, _, split_at hd, ?_⟩
        have := (List.getElem?_eq_some_iff.mp hd).1
        rw [List.length_take]; omega
      obtain ⟨-, -, t, t', hash, -, hok⟩ := suffixAll_iff.mp hall p b q hsuf
      have ht := hok.target
      rw [hp, engine_expectedTarget hcur (by omega) ha] at ht
      exact Except.ok.inj ht
    · by_cases hn : identity.networkId = NETWORK_ID
      · exact .inl hn
      · refine .inr (collide_of_suffix hctx hcand hfork hn ?_ hstate hall)
        intro hnil
        rw [hnil] at hy'
        cases hy'
        have := branchWork_nonneg hy
        omega
  · rintro ⟨htargets, hnet⟩
    exact switches_of_more_work hcur hcand hfork hdepth htargets hnet hy hy' (by omega)

end

theorem alphaChild_forks : ForksAt (recorded []) [alphaGenesis] [alphaGenesis, alphaChild] 0 where
  inCur := by decide
  inCand := by decide
  shared := rfl
  apart i hi h hh := by
    obtain ⟨a, ha, -⟩ := hashAt_eq_ok.mp hh
    exact absurd (List.getElem?_eq_some_iff.mp ha).1 (by simp; omega)

theorem switch_complete_alphaChild : ∃ r, ReorgEngine.evaluateCandidate (recorded [])
    ⟨[alphaGenesis], GENESIS_GOVERNANCE_KEYS, 2, none, alphaNetworkIdentity⟩ [alphaGenesis, alphaChild] = .ok r ∧
      r.SwitchesTo (recorded []) [alphaGenesis] [alphaGenesis, alphaChild] 0 := by
  refine (switch_complete_iff alphaGenesis_accepted alphaChild_accepted alphaEngine alphaChild_forks
    (fun _ h => (by cases h)) ⟨_, _, rfl, rfl, by decide⟩).mpr ⟨fun i b hi hb => ?_, .inl rfl⟩
  obtain rfl : i = 1 := by
    have := (List.getElem?_eq_some_iff.mp hb).1
    simp at this; omega
  cases hb
  exact ⟨alphaGenesis, rfl, rfl⟩

/-! ## A development network -/

def devKey : Str := str "8a88e3dd7409f195fd52db2d3cba5d72ca6709bf1d94121bf3748801b40f6f5c"
def devRoot : Str := str "d405f8674bf48a743ce441b5f7b947a60e649a6a63a0cb321f8c88cd295cac97"
def devGenesisHash : Str := str "0000eca63517c16552b024067e97b0b4df89376c81c90d6cc9875171b44b6852"

def devGenesis : BlockV2 := ⟨genesisHeader devRoot 1704089839, []⟩
def devChild : BlockV2 := ⟨{ genesisHeader devRoot 1704105223 with prevHash := devGenesisHash }, []⟩

/-- The network of one governance key, mined with the first nonce. -/
def devIdentity : NetworkIdentity where
  networkId := str "chainbreaker-dev"
  kind := .dev
  genesisHash := devGenesisHash
  genesisRegistryRoot := devRoot
  governanceKeys := [devKey]
  governanceThreshold := 1
  genesisHeaderBytes :=
    (fromHex (str "0202000000" ++ zeroHash ++ zeroHash ++ devRoot ++ str "ef58926500000000" ++
      str "0000ffff00000000000000000000000000000000000000000000000000000000" ++ str "0000000000000000")).getD []
  genesisTimestamp := 1704089839

set_option maxRecDepth 100000 in
theorem devIdentity_made : devIdentity.Made (recorded []) :=
  .derived (str "chainbreaker-dev") [devKey] 1 .dev 1704089839 1 _ (of_okEq (by decide +kernel))

example : devIdentity.genesisHeaderBytes.length = 149 := by decide +kernel

theorem devGenesis_eq : genesisBlockFor devIdentity = .ok devGenesis := by
  have h : (decodeHeaderV2 devIdentity.genesisHeaderBytes >>= BlockHeaderV2.fromDict) = .ok devGenesis.header :=
    of_okEq (by decide +kernel)
  obtain ⟨d, hd, hh⟩ := bind_eq_ok.mp h
  unfold genesisBlockFor decodeBlockV2
  simp only [hd, hh, ok_bind]
  rfl

set_option maxRecDepth 100000 in
theorem devChild_accepted : Accepts (recorded []) devIdentity none 1704105223 [devGenesis, devChild] := by
  have h : okAnd (fun L₀ => okAnd (fun _ => true) (run (Ledger.addedStep (recorded []) 1704105223) L₀ [devChild]))
      (ledgerOn (recorded []) devIdentity none [devGenesis]) = true := by decide +kernel
  obtain ⟨L₀, hL₀, h⟩ := of_okAnd h
  obtain ⟨L', hL', -⟩ := of_okAnd h
  exact (accepts_iff_added (genesis_verifies devIdentity_made devGenesis_eq (by decide)) (by decide)).mpr
    ⟨L₀, L', hL₀, hL'⟩

example : devChild.header.prevHash = devIdentity.genesisHash := by decide +kernel

set_option maxRecDepth 100000 in
theorem devChild_kept : ∃ r, ReorgEngine.evaluateCandidate (recorded [])
    ⟨[devGenesis], [devKey], 1, none, devIdentity⟩ [devGenesis, devChild] = .ok r ∧ (!r.switched) = true :=
  of_okAnd (by decide +kernel)

/-- On the development network the engine keeps its chain against every heavier one. -/
theorem switch_incomplete : ¬ ∀ (E : Primitives) (identity : NetworkIdentity) (validator : Option (Json → Bool))
    (clock : Int) (depth : Option Int) (cur cand : List BlockV2) (eng : ReorgEngine) (k : Nat), identity.Made E →
      Accepts E identity validator clock cur → Accepts E identity validator clock cand →
      engineOn E identity depth cur = .ok eng → ForksAt E cur cand k →
      (∀ d, depth = some d → (cur.length : Int) - 1 - k ≤ d) →
      (∃ w w', branchWork cur = .ok w ∧ branchWork cand = .ok w' ∧ w < w') →
      ∃ r, eng.evaluateCandidate E cand = .ok r ∧ r.SwitchesTo E cur cand k := by
  intro h
  obtain ⟨ctx, hctx⟩ := accepts_ctx devChild_accepted
  have hgen : Accepts (recorded []) devIdentity none 1704105223 [devGenesis] :=
    ((accepts_split hctx 0).mp devChild_accepted).1
  have hfork : ForksAt (recorded []) [devGenesis] [devGenesis, devChild] 0 := by
    refine ⟨by decide, by decide, rfl, fun i hi hash hh => ?_⟩
    obtain ⟨a, ha, -⟩ := hashAt_eq_ok.mp hh
    exact absurd (List.getElem?_eq_some_iff.mp ha).1 (by simp; omega)
  obtain ⟨r, hr, hto⟩ := h _ _ _ _ none _ _ _ 0 devIdentity_made hgen devChild_accepted (engineOn_eq hctx _) hfork
    (fun _ h => (by cases h)) ⟨_, _, rfl, rfl, by decide⟩
  obtain ⟨r', hr', hkept⟩ := devChild_kept
  obtain rfl : r = r' := Except.ok.inj (hr.symm.trans hr')
  rw [hto.switched] at hkept
  cases hkept

end ChainBreaker
