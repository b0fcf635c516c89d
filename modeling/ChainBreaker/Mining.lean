import ChainBreaker.AlphaBlocks
import ChainBreaker.GrownChain

/-!
# Mining on the tip

The miner chooses the target, the roots and the timestamp by the rules the
validator checks them by. Only the bound on the future is not among them: a
block on a tip as late as the bound allows is a second too late itself
(`mined_accepted_iff`).
-/

namespace ChainBreaker

open Fallible

/-! ## The miner -/

namespace Ledger

/-- `next_block_timestamp`, at the clock reading `now`. -/
def nextBlockTimestamp (l : Ledger) (now : Int) : Except PyErr Int := do
  let last ← l.lastBlock
  let lastTs := last.timestamp
  let median := medianPastTime l.chain l.chain.length 11
  .ok (max (max now (lastTs + 1)) (median + 1))

/-- `mine_block_v2`, at the clock reading `now`. -/
def mineBlockV2 (E : Primitives) (l : Ledger) (now : Int) (transactions : List Json) (maxIterations : Nat)
    (timestamp : Option Int) : Except PyErr BlockV2 := do
  let _ ← collect validateV2Transaction transactions
  let last ← l.lastBlock
  let prevHash ← last.hash E
  let height := l.chain.length
  let target ← expectedTargetAt l.chain height
  let timestamp ← match timestamp with
    | some t => .ok t
    | none => l.nextBlockTimestamp now
  let previousState ← l.stateAt E (height - 1)
  let registryRootHex ← registryRoot E previousState
  let txHashes ← collect (hashObject E) transactions
  let merkleRoot := (merkleTreeRoot E txHashes).getD (List.replicate 32 0)
  let header : BlockHeaderV2 := ⟨2, prevHash, toHex merkleRoot, registryRootHex, timestamp, target, 0⟩
  let mined ← mineHeaderV2 E header maxIterations
  match mined with
  | some header => .ok ⟨header, transactions⟩
  | none => raise .ledgerError "mining failed to find proof of work" []

end Ledger

/-- The transactions pass the schema, the validator of the ledger and the registry reducer on the state of its tip. -/
structure Ledger.Applicable (E : Primitives) (l : Ledger) (transactions : List Json) : Prop where
  valid : transactionsOk l.transactionValidator transactions = true
  applied : ∃ s s', l.stateAt E (l.chain.length - 1) = .ok s ∧ l.applyTransactions E s transactions l.chain.length = .ok s'

section
variable {E : Primitives} {l : Ledger} {now : Int} {transactions : List Json} {n : Nat} {b : BlockV2}

/-- The Merkle root of the miner is the one the validator computes. -/
theorem mined_root {txHashes : List Bytes} (h : collect (hashObject E) transactions = .ok txHashes) :
    merkleRootOf E transactions = .ok (toHex ((merkleTreeRoot E txHashes).getD (List.replicate 32 0))) := by
  cases transactions with
  | nil =>
    cases h
    rfl
  | cons tx rest =>
    rw [merkleRootOf, if_neg (by simp), h, ok_bind]
    cases merkleTreeRoot E txHashes <;> rfl

/-- What the miner returns. -/
theorem mineBlockV2_ok (h : l.mineBlockV2 E now transactions n none = .ok b) : ∃ last s,
    l.chain.getLast? = some last ∧ last.hash E = .ok b.header.prevHash ∧ b.header.version = PROTOCOL_VERSION ∧
    expectedTargetAt l.chain l.chain.length = .ok b.header.target ∧
    b.header.timestamp = max (max now (last.timestamp + 1)) (medianPastTime l.chain l.chain.length 11 + 1) ∧
    l.stateAt E (l.chain.length - 1) = .ok s ∧ registryRoot E s = .ok b.header.registryRoot ∧
    merkleRootOf E b.transactions = .ok b.header.merkleRoot ∧ b.transactions = transactions ∧
    ∃ hash, b.hash E = .ok hash ∧ satisfiesPow hash b.header.target = true := by
  simp only [Ledger.mineBlockV2, Ledger.nextBlockTimestamp, Ledger.lastBlock, bind_eq_ok, orRaise_eq_ok] at h
  obtain ⟨_, -, last, hlast, prevHash, hprev, target, htarget, ts, ⟨last', hlast', hts⟩, s, hs, root, hroot, txHashes,
    hhashes, mined, hmined, h⟩ := h
  obtain rfl : last = last' := Option.some.inj (hlast.symm.trans hlast')
  cases hts
  cases mined with
  | none => cases h
  | some header =>
    cases h
    obtain ⟨⟨nonce, rfl⟩, hash, hhash, hpow⟩ := mineHeaderV2_some hmined
    exact ⟨last, s, hlast, hprev, rfl, htarget, rfl, hs, hroot, mined_root hhashes, rfl, hash, hhash, hpow⟩

theorem Ledger.Over.tip_timestamp {g : BlockV2} {rest : List BlockV2} {last : AnyBlock} (h : l.Over E g rest)
    (hlast : l.chain.getLast? = some last) :
    0 ≤ last.timestamp ∧ medianPastTime l.chain l.chain.length 11 ≤ last.timestamp := by
  have hchain : l.chain ≠ [] := by
    rw [h.chain]
    exact List.cons_ne_nil _ _
  rw [List.getLast?_eq_getElem?] at hlast
  by_cases hone : l.chain.length = 1
  · rw [hone, h.chain] at hlast
    cases hlast
    have hrest : rest = [] := by
      rw [h.chain, List.length_cons, List.length_map] at hone
      exact List.eq_nil_of_length_eq_zero (by omega)
    rw [h.chain, hrest]
    refine ⟨h.genesis_timestamp, le_of_eq ?_⟩
    simp [medianPastTime, AnyBlock.timestamp]
  · have hpos := List.length_pos_iff.mpr hchain
    obtain ⟨b, s, s', hb, hf⟩ := h.at (i := l.chain.length - 1) (by omega) (by omega)
    rw [hlast] at hb
    cases hb
    have hne : l.chain.take (l.chain.length - 1) ≠ [] := List.ne_nil_of_length_pos (by rw [List.length_take]; omega)
    have hwhole : l.chain.take (l.chain.length - 1) ++ [.v2 b] = l.chain := by
      have hsucc := List.take_add_one (l := l.chain) (i := l.chain.length - 1)
      rw [Nat.sub_add_cancel hpos, List.take_length, hlast] at hsucc
      exact hsucc.symm
    have habove : medianPastTime (l.chain.take (l.chain.length - 1)) (l.chain.take (l.chain.length - 1)).length 11 <
        (AnyBlock.v2 b).timestamp := hf.median
    have hmedian := (median_step hne habove).2
    have hlen : (l.chain.take (l.chain.length - 1)).length + 1 = l.chain.length := by
      rw [List.length_take]
      omega
    rw [hwhole, hlen] at hmedian
    exact ⟨le_of_lt hf.intact.timestamp, hmedian⟩

/-- **What is mined is accepted** exactly on a tip before the bound on the future. -/
theorem mined_accepted_iff (h : Grown E l) (hmade : l.networkIdentity.Made E) (happlicable : l.Applicable E transactions)
    {tip : AnyBlock} (htip : l.chain.getLast? = some tip) (hmined : l.mineBlockV2 E now transactions n none = .ok b) :
    (∃ l', l.addBlockV2 E b now = .ok (true, l')) ↔ tip.timestamp < now + 2 * 60 * 60 := by
  obtain ⟨g, rest, hover⟩ := h.over
  have hchain : l.chain ≠ [] := by
    rw [hover.chain]
    exact List.cons_ne_nil _ _
  have hpos := List.length_pos_iff.mpr hchain
  obtain ⟨last, s, hlast, hprev, hversion, htarget, htime, hs, hroot, hmerkle, htxs, hwork⟩ := mineBlockV2_ok hmined
  obtain rfl : tip = last := Option.some.inj (htip.symm.trans hlast)
  obtain ⟨htipTime, hmedian⟩ := hover.tip_timestamp hlast
  obtain ⟨t, ht, hmin, hmax, -⟩ := target_bounds h hmade hpos (le_refl _)
  obtain rfl : t = b.header.target := Except.ok.inj (ht.symm.trans htarget)
  obtain ⟨hvalid, s₀, s', hs₀, happlied⟩ := happlicable
  obtain rfl : s = s₀ := Except.ok.inj (hs.symm.trans hs₀)
  have hreplay : l.replay E l.chain = .ok s := by
    rw [← hs, stateAt_eq (by omega), Nat.sub_add_cancel hpos, List.take_length]
  rw [← htxs] at hvalid happlied
  have hfollows : l.Follows E l.chain b s s' :=
    ⟨⟨tip, hlast, hprev⟩, htarget, hreplay, hroot, by omega, ⟨hversion, ⟨hmin, hmax⟩, hmerkle, hwork, by omega, hvalid⟩,
      happlied⟩
  constructor
  · rintro ⟨l', hadd⟩
    obtain ⟨hfuture, -⟩ := (addBlockV2_true_iff hchain).mp hadd
    omega
  · intro hearly
    exact ⟨_, (addBlockV2_true_iff hchain).mpr ⟨by omega, s, s', hfollows, rfl⟩⟩

/-- A block that follows the chain is what the miner returns when its search finds it. -/
theorem mineBlockV2_follows {s s' : RegistryState} (hne : l.chain ≠ []) (hf : l.Follows E l.chain b s s')
    (htime : l.nextBlockTimestamp now = .ok b.header.timestamp)
    (hsearch : mineHeaderV2 E { b.header with nonce := 0 } n = .ok (some b.header)) :
    l.mineBlockV2 E now b.transactions n none = .ok b := by
  have hpos := List.length_pos_iff.mpr hne
  obtain ⟨last, hlast, hprev⟩ := hf.linked
  have hstate : l.stateAt E (l.chain.length - 1) = .ok s := by
    rw [stateAt_eq (by omega), Nat.sub_add_cancel hpos, List.take_length]
    exact hf.replayed
  obtain ⟨units, hunits⟩ : ∃ units, collect validateV2Transaction b.transactions = .ok units := by
    refine collect_of_forall fun tx htx => ?_
    have hok := hf.intact.transactions
    rw [transactionsOk, Bool.and_eq_true, List.all_eq_true] at hok
    have hschema := hok.1 tx htx
    rw [schemaOk] at hschema
    split at hschema
    · exact ⟨_, ‹_›⟩
    · cases hschema
  obtain ⟨txHashes, hhashes⟩ : ∃ txHashes, collect (hashObject E) b.transactions = .ok txHashes := by
    have hroot := hf.intact.merkle
    unfold merkleRootOf at hroot
    split at hroot
    · rename_i hnil
      rw [List.isEmpty_iff.mp hnil]
      exact ⟨[], rfl⟩
    · obtain ⟨txHashes, hhashes, -⟩ := bind_eq_ok.mp hroot
      exact ⟨txHashes, hhashes⟩
  have hmerkle : toHex ((merkleTreeRoot E txHashes).getD (List.replicate 32 0)) = b.header.merkleRoot :=
    Except.ok.inj ((mined_root hhashes).symm.trans hf.intact.merkle)
  have hheader : (⟨2, b.header.prevHash, b.header.merkleRoot, b.header.registryRoot, b.header.timestamp, b.header.target, 0⟩ :
      BlockHeaderV2) = { b.header with nonce := 0 } := by
    have hversion : b.header.version = 2 := hf.intact.version
    rw [← hversion]
  have htip : l.lastBlock = .ok last := orRaise_eq_ok.mpr hlast
  simp only [Ledger.mineBlockV2, hunits, htip, hprev, hf.target, htime, hstate, hf.root, hhashes, hmerkle, hheader, hsearch,
    ok_bind]

end

/-! ## A tip from the future -/

/-- A block of the alpha network. -/
def alphaTip : BlockV2 := alphaBlock GENESIS_HASH 1704068326 23265

/-- The block on it a second later, by the third nonce. -/
def alphaMined : BlockV2 :=
  alphaBlock (str "0000e093a37075cf6779f80343e93796edba021bc5fab8c8b01763c320bb00c4") 1704068327 2

set_option maxRecDepth 100000 in
theorem alphaMined_linked : linked (recorded []) [.v2 alphaGenesis] GENESIS_HASH [alphaTip, alphaMined] = true := by
  decide +kernel

set_option maxRecDepth 100000 in
theorem alphaMined_found :
    mineHeaderV2 (recorded []) { alphaMined.header with nonce := 0 } 10000000 = .ok (some alphaMined.header) :=
  of_okEq (by decide +kernel)

example : alphaMined.header.timestamp = alphaTip.header.timestamp + 1 := by decide +kernel

theorem alphaMined_accepted (clock : Int) :
    Accepts (recorded []) alphaNetworkIdentity none clock [alphaGenesis, alphaTip, alphaMined] := by
  refine accepts_linked (by decide) ?_ alphaMined_linked
  simp only [List.forall_mem_cons]
  exact ⟨⟨_, _, _, by decide, rfl⟩, ⟨_, _, _, by decide, rfl⟩, fun _ h => by cases h⟩

/-- The tip is taken two hours before its time, and the ledger mines the block at any clock that has not passed it. -/
theorem alphaMined_mined : ∃ l₀ l : Ledger, Grown (recorded []) l₀ ∧
    l₀.addBlockV2 (recorded []) alphaTip 1704061126 = .ok (true, l) ∧ l.networkIdentity = alphaNetworkIdentity ∧
    l.chain = [AnyBlock.v2 alphaGenesis, .v2 alphaTip] ∧ l.Applicable (recorded []) [] ∧
    ∀ now ≤ 1704068327, l.mineBlockV2 (recorded []) now [] 10000000 none = .ok alphaMined := by
  obtain ⟨ctx, hctx⟩ := accepts_ctx (alphaMined_accepted 0)
  obtain ⟨haccepts, ⟨s, s', hf⟩, ⟨t, t', hf'⟩, -⟩ := (accepts_split hctx 0).mp (alphaMined_accepted 0)
  obtain ⟨ctx', cache, hctx', hgrown⟩ := haccepts.grown
  obtain rfl : ctx = ctx' := Except.ok.inj (hctx.symm.trans hctx')
  have hadd := (addBlockV2_true_iff (l := (alphaNetworkIdentity.rules none ctx).on _ cache) (List.cons_ne_nil _ _)).mpr
    ⟨(by decide : alphaTip.header.timestamp ≤ 1704061126 + 2 * 60 * 60), s, s', on_follows.mpr hf, rfl⟩
  have hfollows : ∀ {c₀ : List AnyBlock} {cache : StateCache}, ((alphaNetworkIdentity.rules none ctx).on c₀ cache).Follows
      (recorded []) [.v2 alphaGenesis, .v2 alphaTip] alphaMined t t' := on_follows.mpr hf'
  refine ⟨_, _, hgrown, hadd, rfl, rfl, ⟨rfl, t, t', ?_, hfollows.applied⟩, fun now hnow => ?_⟩
  · rw [stateAt_eq (Nat.lt_succ_self 1)]
    exact hfollows.replayed
  · apply mineBlockV2_follows (List.cons_ne_nil _ _) hfollows _ alphaMined_found
    have hmedian : medianPastTime [.v2 alphaGenesis, .v2 alphaTip] 2 11 = 1704067200 := by decide
    have htime : max (max now (1704068326 + 1)) (medianPastTime [.v2 alphaGenesis, .v2 alphaTip] 2 11 + 1) = 1704068327 := by
      rw [hmedian]
      omega
    exact congrArg Except.ok htime

theorem mined_accepted_alphaMined : ∃ l l' : Ledger, l.chain = [AnyBlock.v2 alphaGenesis, .v2 alphaTip] ∧
    l.mineBlockV2 (recorded []) 1704068326 [] 10000000 none = .ok alphaMined ∧
    l.addBlockV2 (recorded []) alphaMined 1704068326 = .ok (true, l') := by
  obtain ⟨l₀, l, hgrown, hadd, hidentity, hchain, happlicable, hmined⟩ := alphaMined_mined
  have hmade : l.networkIdentity.Made (recorded []) := hidentity ▸ .alpha
  have htip : l.chain.getLast? = some (.v2 alphaTip) := by
    rw [hchain]
    rfl
  have hmined' := hmined 1704068326 (by decide)
  obtain ⟨l', hadd'⟩ := (mined_accepted_iff (hgrown.added hadd) hmade happlicable htip hmined').mpr (by decide)
  exact ⟨l, l', hchain, hmined', hadd'⟩

/-- Two hours before its time the tip is acceptable, and the block that is mined on it is not. -/
theorem mined_too_late : ∃ l₀ l : Ledger, Grown (recorded []) l₀ ∧
    l₀.addBlockV2 (recorded []) alphaTip 1704061126 = .ok (true, l) ∧ l.networkIdentity.Made (recorded []) ∧
    l.Applicable (recorded []) [] ∧ l.mineBlockV2 (recorded []) 1704061126 [] 10000000 none = .ok alphaMined ∧
    ¬ ∃ l', l.addBlockV2 (recorded []) alphaMined 1704061126 = .ok (true, l') := by
  obtain ⟨l₀, l, hgrown, hadd, hidentity, hchain, happlicable, hmined⟩ := alphaMined_mined
  refine ⟨l₀, l, hgrown, hadd, hidentity ▸ .alpha, happlicable, hmined _ (by decide), ?_⟩
  rintro ⟨l', hadd'⟩
  have hlate := ((addBlockV2_true_iff (by rw [hchain]; exact List.cons_ne_nil _ _)).mp hadd').1
  exact absurd hlate (by decide)

end ChainBreaker
