import ChainBreaker.SharedPrefix
import ChainBreaker.StorageFormats
import ChainBreaker.Work
import ChainBreaker.Lib.OrderStatistic

/-!
# Chains the ledger has accepted

A ledger that was made over the genesis block of its network or whose chain it
has validated, grown by the V2 blocks it appended since. On its chain every
expected target lies within the consensus bounds and within a factor of four of
the one before (`target_bounds`), and the median past time never goes back
(`median_monotone`).
-/

namespace ChainBreaker

open Fallible

/-! ## Grown ledgers -/

section
variable (E : Primitives)

inductive Grown : Ledger → Prop
  /-- `Ledger(...)` without a chain. -/
  | started {args : LedgerArgs} {l : Ledger} : args.chain = none → Ledger.init E args = .ok l → Grown l
  /-- `Ledger(chain=blocks, ...)` for which `validate_chain` is true. -/
  | validated {args : LedgerArgs} {blocks : List BlockV2} {clock : Int} {l l' : Ledger} :
      args.chain = some (blocks.map .v2) → Ledger.init E args = .ok l → l.validateChain E clock = .ok (true, l') → Grown l'
  | added {l l' : Ledger} {b : BlockV2} {now : Int} : Grown l → l.addBlockV2 E b now = .ok (true, l') → Grown l'

/-- The chain of a grown ledger: a genesis block of its network and blocks that follow. -/
structure Ledger.Over (l : Ledger) (g : BlockV2) (rest : List BlockV2) : Prop where
  chain : l.chain = .v2 g :: rest.map .v2
  genesis : genesisBlockFor l.networkIdentity = .ok g ∨ g.header.bytes = .ok l.networkIdentity.genesisHeaderBytes
  follows : l.FollowAll E [.v2 g] rest

end

section
variable {E : Primitives} {l l' : Ledger} {c : List AnyBlock} {cache : StateCache} {g b : BlockV2} {rest bs : List BlockV2}

theorem on_followAll : ∀ {bs : List BlockV2} {c c₀ : List AnyBlock}, (l.on c₀ cache).FollowAll E c bs ↔ l.FollowAll E c bs
  | [], _, _ => Iff.rfl
  | b :: bs, c, c₀ => by
    have hone : (∃ s s', (l.on c₀ cache).Follows E c b s s') ↔ ∃ s s', l.Follows E c b s s' :=
      exists_congr fun s => exists_congr fun s' => on_follows
    rw [Ledger.FollowAll, Ledger.FollowAll, on_followAll, hone]

/-- Every block of the run follows the ones below it. -/
theorem Ledger.FollowAll.at {pre post : List BlockV2} (h : l.FollowAll E c (pre ++ b :: post)) :
    ∃ s s', l.Follows E (c ++ pre.map .v2) b s s' := ((followAll_append pre (b :: post) c).mp h).2.1

theorem Ledger.Over.added {now : Int} (h : l.Over E g rest) (hadd : l.addBlockV2 E b now = .ok (true, l')) :
    l'.Over E g (rest ++ [b]) := by
  obtain ⟨-, s, s', hf, rfl⟩ := (addBlockV2_true_iff (by rw [h.chain]; exact List.cons_ne_nil _ _)).mp hadd
  rw [h.chain] at hf
  refine ⟨?_, h.genesis, on_followAll.mpr ((followAll_append _ _ _).mpr ⟨h.follows, ⟨s, s', hf⟩, trivial⟩)⟩
  show l.chain ++ [.v2 b] = _
  rw [h.chain, List.map_append]
  rfl

theorem replayed_on (hc : l.chain ≠ []) (h : l.replayRegistryStates E = .ok l') :
    ∃ cache, l' = l.on l.chain cache ∧ l.Cached E l.chain cache := by
  apply replayRegistryStates_ok hc
  exact h

/-- The ledger that the constructor makes of its arguments, before its states are replayed. -/
def LedgerArgs.blank (args : LedgerArgs) (identity : NetworkIdentity) (chain : List AnyBlock) (ctx : GovernanceContext) :
    Ledger :=
  ⟨chain, identity, args.transactionValidator, Ledger.orKeys args.governanceKeys identity.governanceKeys,
    args.governanceThreshold.getD identity.governanceThreshold, ctx, fun _ => none⟩

theorem init_blank {args : LedgerArgs} (h : Ledger.init E args = .ok l) : ∃ identity chain ctx, chain ≠ [] ∧
    (args.blank identity chain ctx).replayRegistryStates E = .ok l ∧
      (args.chain = some chain ∨ args.chain = none ∧ ∃ g, genesisBlockFor identity = .ok g ∧ chain = [.v2 g]) := by
  have hfirst : ∀ {chain : List AnyBlock} {b : AnyBlock}, blockAt chain 0 = .ok b → chain ≠ [] := by
    rintro chain b hb rfl
    cases hb
  obtain ⟨chain, validator, keys, threshold, identity, strict⟩ := args
  cases identity <;> cases chain <;> cases strict <;>
    simp only [Ledger.init, bind_eq_ok, ok_bind, if_true, if_false, Bool.false_eq_true] at h
  · obtain ⟨i, -, g, hg, ctx, -, b, hb, hrep⟩ := h
    exact ⟨i, _, ctx, hfirst hb, hrep, .inr ⟨rfl, g, hg, rfl⟩⟩
  · obtain ⟨i, -, g, hg, ctx, -, -, -, b, hb, hrep⟩ := h
    exact ⟨i, _, ctx, hfirst hb, hrep, .inr ⟨rfl, g, hg, rfl⟩⟩
  · obtain ⟨i, -, ctx, -, b, hb, hrep⟩ := h
    exact ⟨i, _, ctx, hfirst hb, hrep, .inl rfl⟩
  · obtain ⟨i, -, ctx, -, -, -, b, hb, hrep⟩ := h
    exact ⟨i, _, ctx, hfirst hb, hrep, .inl rfl⟩
  · obtain ⟨g, hg, ctx, -, b, hb, hrep⟩ := h
    exact ⟨_, _, ctx, hfirst hb, hrep, .inr ⟨rfl, g, hg, rfl⟩⟩
  · obtain ⟨g, hg, ctx, -, -, -, b, hb, hrep⟩ := h
    exact ⟨_, _, ctx, hfirst hb, hrep, .inr ⟨rfl, g, hg, rfl⟩⟩
  · obtain ⟨ctx, -, b, hb, hrep⟩ := h
    exact ⟨_, _, ctx, hfirst hb, hrep, .inl rfl⟩
  · obtain ⟨ctx, -, -, -, b, hb, hrep⟩ := h
    exact ⟨_, _, ctx, hfirst hb, hrep, .inl rfl⟩

theorem identity_bytes {identity : NetworkIdentity} (h : identityMatchesGenesis E identity (some g) = .ok true) :
    g.header.bytes = .ok identity.genesisHeaderBytes := by
  simp only [identityMatchesGenesis] at h
  split at h
  · cases h
  split at h
  · cases h
  obtain ⟨hash, -, h⟩ := bind_eq_ok.mp h
  split at h
  · cases h
  split at h
  · rename_i actual hactual
    rw [hactual, of_decide_eq_true (Except.ok.inj h)]
  · cases h

theorem Grown.over (h : Grown E l) : ∃ g rest, l.Over E g rest := by
  induction h with
  | started hnone hinit =>
    obtain ⟨identity, chain, ctx, hne, hrep, hchain⟩ := init_blank hinit
    obtain ⟨cache, rfl, -⟩ := replayed_on hne hrep
    rcases hchain with hsome | ⟨-, g, hg, rfl⟩
    · rw [hnone] at hsome
      cases hsome
    · exact ⟨g, [], rfl, .inl hg, trivial⟩
  | @validated args blocks clock l l' hsome hinit hvalid =>
    obtain ⟨identity, chain, ctx, hne, hrep, hchain⟩ := init_blank hinit
    obtain ⟨cache, rfl, hcache⟩ := replayed_on hne hrep
    obtain rfl : chain = blocks.map .v2 := by
      rcases hchain with h | ⟨h, -⟩ <;> rw [hsome] at h <;> cases h
      rfl
    obtain ⟨g, rest, rfl⟩ : ∃ g rest, blocks = g :: rest :=
      List.exists_cons_of_ne_nil fun hnil => hne (by rw [hnil]; rfl)
    obtain ⟨hmatch, -, hf, rfl⟩ := (validateChain_iff hcache).mp hvalid
    exact ⟨g, rest, rfl, .inr (identity_bytes hmatch), on_followAll.mpr hf⟩
  | added _ hadd ih =>
    obtain ⟨g, rest, hover⟩ := ih
    exact ⟨g, _, hover.added hadd⟩

/-! ## Genesis blocks -/

theorem decodeBlockV2_bytes {h : BlockHeaderV2} {bytes : Bytes} (hb : h.bytes = .ok bytes) :
    decodeBlockV2 bytes = .ok ⟨h.canonical, []⟩ := by
  obtain ⟨-, hdecode, -⟩ := decode_headerBytes hb
  obtain ⟨d, hd, hfrom⟩ := bind_eq_ok.mp hdecode
  rw [decodeBlockV2, hd, ok_bind, hfrom]
  rfl

theorem made_target {identity : NetworkIdentity} (hmade : identity.Made E) (hg : genesisBlockFor identity = .ok g) :
    g.header.target = MAX_TARGET := by
  cases hmade with
  | alpha =>
    rw [alphaGenesis_eq] at hg
    cases hg
    rfl
  | derived networkId keys threshold kind timestamp iterations _ h =>
    simp only [deriveNetworkIdentity, bind_eq_ok, orRaise_eq_ok, require_eq_ok] at h
    obtain ⟨_, -, sorted, -, root, -, mined, hmine, header, rfl, hash, -, bytes, hbytes, h⟩ := h
    cases h
    obtain ⟨⟨nonce, rfl⟩, -⟩ := mineHeaderV2_some hmine
    change decodeBlockV2 bytes = .ok g at hg
    rw [decodeBlockV2_bytes hbytes] at hg
    cases hg
    rfl

theorem Ledger.Over.genesis_target (h : l.Over E g rest) (hmade : l.networkIdentity.Made E) :
    g.header.target = MAX_TARGET := by
  rcases h.genesis with hg | hb
  · exact made_target hmade hg
  · have htarget := made_target hmade (decodeBlockV2_bytes hb)
    exact htarget

theorem Ledger.Over.genesis_timestamp (h : l.Over E g rest) : 0 ≤ g.header.timestamp := by
  rcases h.genesis with hg | hb
  · simp only [genesisBlockFor, decodeBlockV2, decodeHeaderV2, BlockHeaderV2.fromDict, bind_eq_ok, require_eq_ok,
      Prod.exists] at hg
    obtain ⟨d, ⟨_, _, -, _, -, _, _, -, _, _, -, _, _, -, _, _, -, _, _, -, _, _, -, _, _, -, hd⟩, header, ⟨t, -, hheader⟩, hg⟩ := hg
    cases hd
    cases hheader
    cases hg
    exact Int.natCast_nonneg _
  · simp only [BlockHeaderV2.bytes, BlockHeaderV2.toDict, encodeHeaderV2, asCodecError_eq_ok, bind_eq_ok,
      structPack_eq_ok] at hb
    obtain ⟨d, ⟨t, -, hd⟩, _, -, _, -, _, -, _, -, _, hts, -⟩ := hb
    cases hd
    exact hts.1

/-! ## Expected targets -/

/-- A block above the genesis block, and the chain below it. -/
theorem Ledger.Over.at {i : Nat} (h : l.Over E g rest) (hi : 1 ≤ i) (hlen : i < l.chain.length) :
    ∃ b s s', l.chain[i]? = some (.v2 b) ∧ l.Follows E (l.chain.take i) b s s' := by
  obtain ⟨k, rfl⟩ : ∃ k, i = k + 1 := ⟨i - 1, by omega⟩
  have hk : k < rest.length := by
    rw [h.chain, List.length_cons, List.length_map] at hlen
    omega
  have hsplit : rest = rest.take k ++ rest[k] :: rest.drop (k + 1) := by
    rw [List.cons_getElem_drop_succ, List.take_append_drop]
  obtain ⟨s, s', hf⟩ := Ledger.FollowAll.at (hsplit ▸ h.follows)
  refine ⟨rest[k], s, s', ?_, ?_⟩
  · rw [h.chain, List.getElem?_cons_succ, List.getElem?_map, List.getElem?_eq_getElem hk]
    rfl
  · rw [h.chain, List.take_succ_cons, ← List.map_take]
    exact hf

/-- Every target on the chain is within the bounds. -/
theorem Ledger.Over.bounds (h : l.Over E g rest) (hmade : l.networkIdentity.Made E) {i : Nat} {b : AnyBlock}
    (hb : l.chain[i]? = some b) : InBounds b.target := by
  by_cases hi : 1 ≤ i
  · obtain ⟨b', s, s', hb', hf⟩ := h.at hi (List.getElem?_eq_some_iff.mp hb).1
    rw [hb] at hb'
    cases hb'
    exact hf.intact.bounds
  · obtain rfl : i = 0 := by omega
    rw [h.chain] at hb
    cases hb
    have htarget : g.header.target = MAX_TARGET := h.genesis_target hmade
    show InBounds g.header.target
    rw [htarget]
    exact ⟨by decide, le_refl _⟩

/-- A target kept within the bounds, and then within a factor of four of `t`. -/
def clampedTarget (t new : Int) : Int :=
  max (t / MAX_RETARGET_FACTOR) (min (t * MAX_RETARGET_FACTOR) (max MIN_TARGET (min MAX_TARGET new)))

/-- The second clamp does not undo the first. -/
theorem clamped_bounds {t new : Int} (h : InBounds t) :
    InBounds (clampedTarget t new) ∧ t / 4 ≤ clampedTarget t new ∧ clampedTarget t new ≤ 4 * t := by
  have hfactor : MAX_RETARGET_FACTOR = 4 := rfl
  have hmin : MIN_TARGET = 1 := rfl
  have hmax : MIN_TARGET ≤ MAX_TARGET := by decide
  obtain ⟨hlo, hhi⟩ := h
  rw [clampedTarget, hfactor]
  unfold InBounds
  generalize MAX_TARGET = top at *
  omega

/-- **Retargeting stays within bounds**, at every height up to the one above the tip. -/
theorem target_bounds (h : Grown E l) (hmade : l.networkIdentity.Made E) {height : Nat} (hpos : 1 ≤ height)
    (hlen : height ≤ l.chain.length) : ∃ t, expectedTargetAt l.chain height = .ok t ∧ MIN_TARGET ≤ t ∧ t ≤ MAX_TARGET ∧
      (height % DIFFICULTY_RETARGET_INTERVAL = 0 → ∃ last, l.chain[height - 1]? = some last ∧
        last.target / 4 ≤ t ∧ t ≤ 4 * last.target) := by
  obtain ⟨g, rest, hover⟩ := h.over
  have hten : DIFFICULTY_RETARGET_INTERVAL = 10 := rfl
  have hblock : ∀ {i : Nat}, i < l.chain.length → ∃ b, l.chain[i]? = some b ∧ blockAt l.chain i = .ok b ∧ InBounds b.target := by
    intro i hi
    have hb : l.chain[i]? = some l.chain[i] := List.getElem?_eq_getElem hi
    exact ⟨_, hb, blockAt_eq_ok.mpr hb, hover.bounds hmade hb⟩
  obtain ⟨last, hlast, hat, hin⟩ := @hblock (height - 1) (by omega)
  rw [expectedTargetAt, if_neg (by omega)]
  by_cases hfirst : height < DIFFICULTY_RETARGET_INTERVAL
  · obtain ⟨b, -, hb, hbounds⟩ := @hblock 0 (by omega)
    rw [if_pos hfirst, hb, ok_bind]
    exact ⟨_, rfl, hbounds.1, hbounds.2, fun hzero => by rw [hten] at hzero; omega⟩
  · rw [if_neg hfirst]
    by_cases hbetween : height % DIFFICULTY_RETARGET_INTERVAL = 0
    · obtain ⟨first, -, hfirstAt, -⟩ := @hblock (height - DIFFICULTY_RETARGET_INTERVAL) (by omega)
      rw [if_neg (not_not.mpr hbetween), retargetAt, if_neg hfirst, hfirstAt, ok_bind, hat, ok_bind]
      obtain ⟨hbounds, hquarter, hfour⟩ := @clamped_bounds last.target _ hin
      exact ⟨_, rfl, hbounds.1, hbounds.2, fun _ => ⟨last, hlast, hquarter, hfour⟩⟩
    · rw [if_pos hbetween, hat, ok_bind]
      exact ⟨_, rfl, hin.1, hin.2, fun h => absurd h hbetween⟩

theorem Accepts.grown {identity : NetworkIdentity} {validator : Option (Json → Bool)} {clock : Int}
    (h : Accepts E identity validator clock bs) : ∃ ctx cache,
      GovernanceContext.init identity.governanceKeys identity.governanceThreshold identity.networkId = .ok ctx ∧
      Grown E ((identity.rules validator ctx).on (bs.map .v2) cache) := by
  obtain ⟨L, L', hL, hvalid⟩ := h
  have hgrown : Grown E L' := .validated rfl hL hvalid
  obtain ⟨ctx, cache, hctx, rfl, hcache⟩ := ledgerOn_cached hL
  obtain ⟨g, rest, rfl⟩ : ∃ g rest, bs = g :: rest := by
    apply List.exists_cons_of_ne_nil
    rintro rfl
    cases hvalid
  obtain ⟨-, -, -, rfl⟩ := (validateChain_iff hcache).mp hvalid
  exact ⟨ctx, cache, hctx, hgrown⟩

theorem target_bounds_alphaChild : ∃ (l : Ledger) (t : Int), l.chain = [AnyBlock.v2 alphaGenesis, .v2 alphaChild] ∧
    expectedTargetAt l.chain 2 = .ok t ∧ MIN_TARGET ≤ t ∧ t ≤ MAX_TARGET := by
  obtain ⟨ctx, cache, -, hgrown⟩ := alphaChild_accepted.grown
  obtain ⟨t, ht, hmin, hmax, -⟩ := target_bounds hgrown .alpha (by decide : 1 ≤ 2) (le_refl 2)
  exact ⟨_, t, rfl, ht, hmin, hmax⟩

/-! ## The median past time -/

/-- The timestamps the median is taken of. -/
def timeWindow (c : List AnyBlock) : List Int := (c.drop (c.length - 11)).map AnyBlock.timestamp

theorem medianPastTime_window (hc : c ≠ []) : medianPastTime c c.length 11 = OrderStatistic.median (timeWindow c) 0 := by
  have hpos := List.length_pos_iff.mpr hc
  simp only [medianPastTime, Nat.min_self, List.take_length]
  rw [if_neg (by omega)]
  simp only [OrderStatistic.median, OrderStatistic.nth, timeWindow, List.length_insertionSort]

theorem timeWindow_snoc (c : List AnyBlock) (b : AnyBlock) :
    timeWindow (c ++ [b]) = (timeWindow c).drop (if 11 ≤ c.length then 1 else 0) ++ [b.timestamp] := by
  have hlen : (c ++ [b]).length - 11 = c.length - 11 + if 11 ≤ c.length then 1 else 0 := by
    rw [List.length_append, List.length_singleton]
    split_ifs <;> omega
  have hle : (c ++ [b]).length - 11 ≤ c.length := by
    rw [List.length_append, List.length_singleton]
    omega
  rw [timeWindow, List.drop_append_of_le_length hle, hlen, ← List.drop_drop, List.map_append, List.map_drop]
  rfl

/-- A block above the median moves it up, at most to its own time. -/
theorem median_step {b : AnyBlock} (hc : c ≠ []) (h : medianPastTime c c.length 11 < b.timestamp) :
    medianPastTime c c.length 11 ≤ medianPastTime (c ++ [b]) (c.length + 1) 11 ∧
      medianPastTime (c ++ [b]) (c.length + 1) 11 ≤ b.timestamp := by
  have hgrown : medianPastTime (c ++ [b]) (c.length + 1) 11 = OrderStatistic.median (timeWindow (c ++ [b])) 0 := by
    rw [← medianPastTime_window (List.append_ne_nil_of_left_ne_nil hc _), List.length_append, List.length_singleton]
  rw [medianPastTime_window hc] at h
  have hwindow : timeWindow c ≠ [] := by
    intro hnil
    have hlen := congrArg List.length hnil
    rw [timeWindow, List.length_map, List.length_drop, List.length_nil] at hlen
    have := List.length_pos_iff.mpr hc
    omega
  rw [hgrown, medianPastTime_window hc, timeWindow_snoc]
  exact OrderStatistic.median_moves hwindow (by split_ifs <;> omega) h

/-- **Median time never goes back**: the next block is checked against no
earlier median than the block before it. -/
theorem median_monotone (h : Grown E l) {height : Nat} (hlen : height < l.chain.length) :
    medianPastTime l.chain height 11 ≤ medianPastTime l.chain (height + 1) 11 := by
  obtain ⟨g, rest, hover⟩ := h.over
  by_cases hi : 1 ≤ height
  · obtain ⟨b, s, s', hb, hf⟩ := hover.at hi hlen
    have htake : (l.chain.take height).length = height := List.length_take_of_le hlen.le
    have hne : l.chain.take height ≠ [] := List.ne_nil_of_length_pos (by omega)
    have hnext : l.chain.take (height + 1) = l.chain.take height ++ [.v2 b] := by
      rw [List.take_add_one, hb]
      rfl
    have habove : medianPastTime (l.chain.take height) (l.chain.take height).length 11 < (AnyBlock.v2 b).timestamp := hf.median
    have hstep := (median_step hne habove).1
    rw [← medianPastTime_take 11 hlen.le, ← medianPastTime_take 11 (Nat.succ_le_of_lt hlen), hnext]
    rwa [htake] at hstep
  · obtain rfl : height = 0 := by omega
    -- before the genesis block there is no time, and its own time is a number of eight bytes
    have hzero : medianPastTime l.chain 0 11 = 0 := by simp [medianPastTime]
    have hone : medianPastTime l.chain 1 11 = g.header.timestamp := by
      rw [hover.chain]
      simp [medianPastTime, AnyBlock.timestamp]
    rw [hzero, hone]
    exact hover.genesis_timestamp

theorem median_monotone_alphaChild : ∃ l : Ledger, l.chain = [AnyBlock.v2 alphaGenesis, .v2 alphaChild] ∧
    medianPastTime l.chain 1 11 ≤ medianPastTime l.chain 2 11 := by
  obtain ⟨ctx, cache, -, hgrown⟩ := alphaChild_accepted.grown
  exact ⟨_, rfl, median_monotone hgrown (Nat.lt_succ_self 1)⟩

end

end ChainBreaker
