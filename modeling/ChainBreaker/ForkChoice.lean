import ChainBreaker.AlphaBlocks
import ChainBreaker.SharedPrefix

/-!
# Fork choice against the ledger's rules

The engine here is configured with the network of the chain it holds. It looks
at less than `validate_chain` does, and reads targets and registry states off
the chain it holds. `switch_sound_iff` says which of its switches lead to an
accepted chain, `switch_complete_iff` to which heavier accepted chains it
switches.
-/

namespace ChainBreaker

open Fallible Measure

/-! ## The rules the engine leaves out -/

section
variable (E : Primitives)

def LinksTo (c : List AnyBlock) (b : BlockV2) : Prop :=
  ∃ last, c.getLast? = some last ∧ last.hash E = .ok b.header.prevHash

/-- The rules for following `c` that the engine leaves out, and the target,
which it reads off its own chain. -/
structure Ledger.Unchecked (l : Ledger) (c : List AnyBlock) (b : BlockV2) : Prop where
  target : expectedTargetAt c c.length = .ok b.header.target
  bounds : InBounds b.header.target
  median : medianPastTime c c.length 11 < b.header.timestamp
  timestamp : 0 < b.header.timestamp
  transactions : transactionsOk l.transactionValidator b.transactions = true

/-- The registry root and the governance transactions of `b` are right over `c`. -/
def Ledger.RegistryHeld (l : Ledger) (c : List AnyBlock) (b : BlockV2) : Prop :=
  ∃ s s', l.replay E c = .ok s ∧ registryRoot E s = .ok b.header.registryRoot ∧
    l.applyTransactions E s b.transactions c.length = .ok s'

/-- The rules both sides check alike. -/
structure BlockV2.Sealed (b : BlockV2) : Prop where
  version : b.header.version = PROTOCOL_VERSION
  merkle : merkleRootOf E b.transactions = .ok b.header.merkleRoot
  work : ∃ hash, b.hash E = .ok hash ∧ satisfiesPow hash b.header.target = true

variable {E} {l : Ledger} {c : List AnyBlock} {b : BlockV2}

theorem follows_iff : (∃ s s', l.Follows E c b s s') ↔
    LinksTo E c b ∧ l.Unchecked c b ∧ l.RegistryHeld E c b ∧ b.Sealed E := by
  constructor
  · rintro ⟨s, s', hf⟩
    exact ⟨hf.linked, ⟨hf.target, hf.intact.bounds, hf.median, hf.intact.timestamp, hf.intact.transactions⟩,
      ⟨s, s', hf.replayed, hf.root, hf.applied⟩, ⟨hf.intact.version, hf.intact.merkle, hf.intact.work⟩⟩
  · rintro ⟨hlink, hu, ⟨s, s', hs, hroot, happ⟩, hi⟩
    exact ⟨s, s', hlink, hu.target, hs, hroot, hu.median,
      ⟨hi.version, hu.bounds, hi.merkle, hi.work, hu.timestamp, hu.transactions⟩, happ⟩

theorem Ledger.Unchecked.schema (h : l.Unchecked c b) : ∀ tx ∈ b.transactions, schemaOk tx = true := by
  have hall := h.transactions
  unfold transactionsOk at hall
  rw [Bool.and_eq_true, List.all_eq_true] at hall
  exact hall.1

end

/-! ## The suffix, block by block -/

section
variable {E : Primitives} {ctx : GovernanceContext} {targetAt : Nat → Except PyErr Int}

theorem suffixAll_iff : ∀ {bs : List BlockV2} {h : Nat} {s : RegistryState} {prev : Option Str},
    SuffixAll E ctx targetAt h s prev bs ↔ ∀ p b q, bs = p ++ b :: q →
      (p = [] → ∀ x, prev = some x → b.header.prevHash = x) ∧
      (∀ last, p.getLast? = some last → last.hash E = .ok b.header.prevHash) ∧
      ∃ t t' hash, run (ReorgEngine.replayStep E ctx) s ((p.map .v2).zipIdx h) = .ok t ∧
        SuffixOk E ctx targetAt (h + p.length) b t t' hash
  | [], _, _, _ => by simp [SuffixAll]
  | a :: bs, h, s, prev => by
    constructor
    · rintro ⟨hlink, s', hash, hok, hall⟩ p b q hbs
      cases p with
      | nil =>
        cases hbs
        exact ⟨fun _ => hlink, by simp, s, s', hash, rfl, hok⟩
      | cons a' p =>
        cases hbs
        obtain ⟨hfirst, hlast, t, t', hash', hrun, hok'⟩ := suffixAll_iff.mp hall p b q rfl
        refine ⟨by simp, fun last hl => ?_, t, t', hash', ?_, by
          rw [List.length_cons, ← Nat.add_assoc, Nat.add_right_comm]; exact hok'⟩
        · cases p with
          | nil =>
            cases hl
            rw [hfirst rfl hash rfl]; exact hok.hashed
          | cons a'' p => exact hlast last (by rwa [List.getLast?_cons_cons] at hl)
        · rw [List.map_cons, List.zipIdx_cons]
          exact (run_cons_ok _).mpr ⟨s', hok.applied, hrun⟩
    · intro hall
      obtain ⟨hlink, -, t, s', hash, hrun, hok⟩ := hall [] a bs rfl
      cases hrun
      refine ⟨hlink rfl, s', hash, hok, suffixAll_iff.mpr fun p b q hbs => ?_⟩
      obtain ⟨-, hlast, t, t', hash', hrun, hok'⟩ := hall (a :: p) b q (by rw [hbs]; rfl)
      rw [List.map_cons, List.zipIdx_cons] at hrun
      obtain ⟨u, hu, hrun⟩ := (run_cons_ok _).mp hrun
      obtain rfl : s' = u := Except.ok.inj (hok.applied.symm.trans hu)
      rw [List.length_cons, ← Nat.add_assoc, Nat.add_right_comm] at hok'
      refine ⟨?_, fun last hl => hlast last ?_, t, t', hash', hrun, hok'⟩
      · rintro rfl x hx
        cases hx
        have hh := hlast a rfl
        rw [hok.hashed, Except.ok.injEq] at hh
        exact hh.symm
      · cases p with
        | nil => cases hl
        | cons a' p => rwa [List.getLast?_cons_cons]

end

/-! ## The two replays of a chain -/

section
variable {E : Primitives} {l : Ledger} {c : List AnyBlock} {s : RegistryState} {ctx : GovernanceContext}

theorem numbered_append_all (hc : c ≠ []) (bs : List AnyBlock) :
    numbered (c ++ bs) = numbered c ++ bs.zipIdx c.length := by
  cases c with
  | nil => exact absurd rfl hc
  | cons g rest => simp [numbered, List.zipIdx_append, Nat.add_comm]

theorem replay_append_all (hc : c ≠ []) (hs : l.replay E c = .ok s) (bs : List AnyBlock) :
    l.replay E (c ++ bs) = run (l.replayStep E) s (bs.zipIdx c.length) := by
  unfold Ledger.replay at hs ⊢
  obtain ⟨g, hg, hr⟩ := bind_eq_ok.mp hs
  rw [hg, ok_bind, numbered_append_all hc, run_append, hr, ok_bind]

theorem mem_zipIdx_blocks {bs : List BlockV2} {n : Nat} {x : AnyBlock × Nat} (hx : x ∈ (bs.map AnyBlock.v2).zipIdx n) :
    ∃ b ∈ bs, x.1 = .v2 b := by
  obtain ⟨-, -, he⟩ := List.mem_zipIdx hx
  rw [he, List.getElem_map]
  exact ⟨_, List.getElem_mem _, rfl⟩

/-- Over schema-conforming blocks of the default network the engine replays as
the ledger does. -/
theorem engineReplay_eq (hn : l.networkId = NETWORK_ID) (hctx : l.governanceContext = ctx) {bs : List BlockV2}
    (h : ∀ b ∈ bs, ∀ tx ∈ b.transactions, schemaOk tx = true) (n : Nat) :
    run (ReorgEngine.replayStep E ctx) s ((bs.map .v2).zipIdx n) = run (l.replayStep E) s ((bs.map .v2).zipIdx n) := by
  refine run_congr _ (fun x hx u => ?_) s
  obtain ⟨b, hb, he⟩ := mem_zipIdx_blocks hx
  refine reorgApply_eq E hn hctx ?_
  rw [he]
  exact h b hb

end

/-! ## The engine of a network -/

section
variable {E : Primitives} {identity : NetworkIdentity} {validator : Option (Json → Bool)} {clock : Int}
  {ctx : GovernanceContext} {cur cand : List BlockV2} {depth : Option Int} {eng : ReorgEngine} {k : Nat}

variable (E) in
/-- `ReorgEngine(chain, keys, threshold, depth, identity)` with the keys and
threshold of the identity. -/
def engineOn (identity : NetworkIdentity) (depth : Option Int) (chain : List BlockV2) : Except PyErr ReorgEngine :=
  ReorgEngine.init E chain (some identity.governanceKeys) (some identity.governanceThreshold) depth (some identity)

theorem context_keys (hctx : GovernanceContext.init identity.governanceKeys identity.governanceThreshold
    identity.networkId = .ok ctx) : identity.governanceKeys ≠ [] := by
  intro hnil
  have hr := ctx.count_range
  rw [(GovernanceContext.init_fields hctx).1, hnil] at hr
  exact absurd hr.1 (by simp)

theorem engineOn_eq (hctx : GovernanceContext.init identity.governanceKeys identity.governanceThreshold
    identity.networkId = .ok ctx) (cur : List BlockV2) : engineOn E identity depth cur =
      .ok ⟨cur, identity.governanceKeys, identity.governanceThreshold, depth, identity⟩ := by
  obtain ⟨key, keys, hk⟩ := List.exists_cons_of_ne_nil (context_keys hctx)
  simp [engineOn, ReorgEngine.init, hk, Ledger.orKeys, ok_bind]

theorem engineOn_fields (hcur : Accepts E identity validator clock cur) (heng : engineOn E identity depth cur = .ok eng) :
    eng = ⟨cur, identity.governanceKeys, identity.governanceThreshold, depth, identity⟩ := by
  obtain ⟨ctx, hctx⟩ := accepts_ctx hcur
  exact Except.ok.inj (heng.symm.trans (engineOn_eq hctx cur))

theorem accepts_schema (hcur : Accepts E identity validator clock cur) {b : BlockV2} (hb : b ∈ cur.tail) :
    ∀ tx ∈ b.transactions, schemaOk tx = true := by
  obtain ⟨ctx, hctx⟩ := accepts_ctx hcur
  obtain ⟨pre, post, hsplit⟩ := List.append_of_mem hb
  obtain ⟨g, rest, rfl⟩ := List.exists_cons_of_ne_nil (accepts_ne hcur)
  rw [List.tail_cons] at hsplit
  obtain ⟨s, s', hf⟩ := hcur.follows hctx (show g :: rest = (g :: pre) ++ b :: post by rw [hsplit]; rfl) (by simp)
  exact (follows_iff.mp ⟨s, s', hf⟩).2.1.schema

/-- On the default network the engine's state at `k` is the ledger's. -/
theorem engine_stateAt (hcur : Accepts E identity validator clock cur) (hn : identity.networkId = NETWORK_ID)
    (hctx : GovernanceContext.init identity.governanceKeys identity.governanceThreshold identity.networkId = .ok ctx)
    (hk : k < cur.length) :
    ReorgEngine.stateAt E ⟨cur, identity.governanceKeys, identity.governanceThreshold, depth, identity⟩ k =
      (identity.rules validator ctx).replay E ((cur.take (k + 1)).map .v2) := by
  have hgen : (identity.rules validator ctx).genesisState =
      RegistryState.genesis identity.governanceKeys identity.governanceThreshold := by
    unfold Ledger.genesisState Ledger.networkId NetworkIdentity.rules
    dsimp only
    cases RegistryState.genesis identity.governanceKeys identity.governanceThreshold with
    | ok g => simp [ok_bind, hn]
    | error e => rfl
  have hnet : (identity.rules validator ctx).networkId = NETWORK_ID := hn
  have hctx' := hctx
  rw [hn] at hctx'
  unfold ReorgEngine.stateAt Ledger.replay
  dsimp only
  rw [if_neg (Nat.not_le.mpr hk), hgen]
  cases RegistryState.genesis identity.governanceKeys identity.governanceThreshold with
  | error e => rfl
  | ok g =>
    rw [ok_bind, ok_bind, hctx', ok_bind, numbered_take, ← List.map_take, numbered, ← List.map_tail]
    refine engineReplay_eq hnet rfl (fun b hb => accepts_schema hcur ?_) 1
    cases cur with
    | nil => exact absurd hk (by simp)
    | cons g rest =>
      rw [List.take_succ_cons, List.tail_cons] at hb
      exact List.mem_of_mem_take hb

/-! ## Soundness -/

variable (E) in
/-- More branch work, or as much and a smaller tip hash. -/
def Heavier (cur cand : List BlockV2) : Prop :=
  ∃ w w', branchWork cur = .ok w ∧ branchWork cand = .ok w' ∧
    (w < w' ∨ w = w' ∧ ∃ tip tip' h h', cur.getLast? = some tip ∧ cand.getLast? = some tip' ∧
      tip.hash E = .ok h ∧ tip'.hash E = .ok h' ∧ h' < h)

variable (E) in
/-- What the engine leaves to chance when it switches from `cur` to `cand`: the
blocks of `cand` up to the common height, the link above it, the rules it does
not check on the suffix, and, unless the network is the default one and both
chains lead to one registry state there, the registry. -/
def Trusted (identity : NetworkIdentity) (validator : Option (Json → Bool)) (clock : Int)
    (cur cand : List BlockV2) : Prop :=
  ∃ k ctx, findCommonAncestor E cur cand = .ok k ∧
    GovernanceContext.init identity.governanceKeys identity.governanceThreshold identity.networkId = .ok ctx ∧
    Accepts E identity validator clock (cand.take (k + 1)) ∧
    (∀ b, cand[k + 1]? = some b → LinksTo E ((cand.take (k + 1)).map .v2) b) ∧
    (∀ pre b post, cand = pre ++ b :: post → k < pre.length →
      (identity.rules validator ctx).Unchecked (pre.map .v2) b) ∧
    (identity.networkId = NETWORK_ID ∧
        (identity.rules validator ctx).replay E ((cand.take (k + 1)).map .v2) =
          (identity.rules validator ctx).replay E ((cur.take (k + 1)).map .v2) ∨
      ∀ pre b post, cand = pre ++ b :: post → k < pre.length →
        (identity.rules validator ctx).RegistryHeld E (pre.map .v2) b)

theorem forall_above {α : Type} {l : List α} {n : Nat} {P : List α → α → Prop} :
    (∀ pre b post, l = pre ++ b :: post → n ≤ pre.length → P pre b) ↔
      ∀ p b q, l.drop n = p ++ b :: q → P (l.take n ++ p) b := by
  constructor
  · intro h p b q hd
    have hlt : n < l.length := by
      have := congrArg List.length hd
      simp at this; omega
    refine h _ b q ?_ (by simp; omega)
    rw [List.append_assoc, ← hd, List.take_append_drop]
  · rintro h pre b post rfl hn
    have hp := h (pre.drop n) b post (by rw [List.drop_append_of_le_length hn])
    rwa [List.take_append_of_le_length hn, List.take_append_drop] at hp

theorem findCommonAncestor_lt (h : findCommonAncestor E cur cand = .ok k) : k < cur.length ∧ k < cand.length := by
  obtain ⟨hash, ha, hb⟩ := findCommonAncestor_hash h
  obtain ⟨a, ha, -⟩ := hashAt_eq_ok.mp ha
  obtain ⟨b, hb, -⟩ := hashAt_eq_ok.mp hb
  exact ⟨(List.getElem?_eq_some_iff.mp ha).1, (List.getElem?_eq_some_iff.mp hb).1⟩

/-- Where both replays start from one state on the default network, the suffix
the engine checks holds the registry. -/
theorem held_of_suffix {l : Ledger} {targetAt : Nat → Except PyErr Int} {pre suf : List BlockV2} {s : RegistryState}
    {n : Nat} (hlen : pre.length = n + 1) (hn : l.networkId = NETWORK_ID) (hctx : l.governanceContext = ctx)
    (hs : l.replay E (pre.map .v2) = .ok s) (hall : SuffixAll E ctx targetAt (n + 1) s none suf)
    (hschema : ∀ b ∈ suf, ∀ tx ∈ b.transactions, schemaOk tx = true) :
    ∀ p b q, suf = p ++ b :: q → l.RegistryHeld E ((pre ++ p).map .v2) b := by
  intro p b q hsuf
  obtain ⟨-, -, t, t', hash, hrun, hok⟩ := suffixAll_iff.mp hall p b q hsuf
  have hp : ∀ b ∈ p, ∀ tx ∈ b.transactions, schemaOk tx = true := fun b hb => hschema b (by rw [hsuf]; simp [hb])
  have hb : ∀ tx ∈ b.transactions, schemaOk tx = true := hschema b (by rw [hsuf]; simp)
  have happ := hok.applied
  have hpre : pre.map AnyBlock.v2 ≠ [] := by rw [← List.length_pos_iff, List.length_map]; omega
  rw [reorgApply_eq E hn hctx hb] at happ
  rw [engineReplay_eq hn hctx hp] at hrun
  refine ⟨t, t', ?_, hok.root, by rw [List.length_map, List.length_append, hlen]; exact happ⟩
  rw [List.map_append, replay_append_all hpre hs, List.length_map, hlen]
  exact hrun

/-- A suffix that passes the engine's checks follows when the rest holds. -/
theorem followAll_of_suffix {l : Ledger} {targetAt : Nat → Except PyErr Int} {pre suf : List BlockV2}
    {s : RegistryState} {n : Nat} (hall : SuffixAll E ctx targetAt n s none suf)
    (hlink : ∀ b, suf.head? = some b → LinksTo E (pre.map .v2) b)
    (hrest : ∀ p b q, suf = p ++ b :: q → l.Unchecked ((pre ++ p).map .v2) b ∧ l.RegistryHeld E ((pre ++ p).map .v2) b) :
    l.FollowAll E (pre.map .v2) suf := by
  refine (followAll_iff suf pre).mpr fun p b q hsuf => follows_iff.mpr ?_
  obtain ⟨-, hlast, t, t', hash, -, hok⟩ := suffixAll_iff.mp hall p b q hsuf
  obtain ⟨hu, hheld⟩ := hrest p b q hsuf
  refine ⟨?_, hu, hheld, ⟨hok.version, hok.merkle, hash, hok.hashed, hok.work⟩⟩
  cases hp : p.getLast? with
  | none =>
    obtain rfl := List.getLast?_eq_none_iff.mp hp
    rw [List.append_nil]
    exact hlink b (by rw [hsuf]; rfl)
  | some last =>
    refine ⟨.v2 last, ?_, hlast last hp⟩
    rw [List.getLast?_map, List.getLast?_append, hp]
    rfl

/-- **Soundness.** When the engine of an accepted chain reports a switch, the
candidate is an accepted chain of more work exactly when what the engine does
not check holds. -/
theorem switch_sound_iff {r : ReorgResult} (hcur : Accepts E identity validator clock cur)
    (heng : engineOn E identity depth cur = .ok eng) (hnc : NoCollision E cur cand)
    (hr : eng.evaluateCandidate E cand = .ok r) (hsw : r.switched = true) :
    Accepts E identity validator clock cand ∧ Heavier E cur cand ↔
      Trusted E identity validator clock cur cand := by
  obtain ⟨ctx, hctx⟩ := accepts_ctx hcur
  obtain rfl := engineOn_fields hcur heng
  obtain ⟨k, hswitch⟩ := evaluateCandidate_switched_iff.mp ⟨hr, hsw⟩
  obtain ⟨hkc, hkd⟩ := findCommonAncestor_lt hswitch.ancestor
  have hlen : (cand.take (k + 1)).length = k + 1 := by rw [List.length_take]; omega
  obtain ⟨s, ctx', hstate, hctx', hall⟩ := hswitch.suffix
  have habove := fun P => @forall_above _ cand (k + 1) P
  constructor
  · rintro ⟨hacc, -⟩
    obtain ⟨haccPre, hf⟩ := (accepts_split hctx k).mp hacc
    have hfollow := fun p b q h => follows_iff.mp ((followAll_iff _ _).mp hf p b q h)
    refine ⟨k, ctx, hswitch.ancestor, hctx, haccPre, fun b hb => ?_, (habove _).mpr fun p b q h => (hfollow p b q h).2.1,
      .inr ((habove _).mpr fun p b q h => (hfollow p b q h).2.2.1)⟩
    have hd : cand.drop (k + 1) = [] ++ b :: cand.drop (k + 2) := by
      obtain ⟨hlt, rfl⟩ := List.getElem?_eq_some_iff.mp hb
      rw [List.nil_append, List.drop_eq_getElem_cons hlt]
    simpa using (hfollow [] b _ hd).1
  · rintro ⟨k', ctx'', hk', hctx'', haccPre, hlink, hun, hreg⟩
    obtain rfl : k = k' := Except.ok.inj (hswitch.ancestor.symm.trans hk')
    obtain rfl : ctx = ctx'' := Except.ok.inj (hctx.symm.trans hctx'')
    have hu := (habove _).mp hun
    have hheld : ∀ p b q, cand.drop (k + 1) = p ++ b :: q →
        (identity.rules validator ctx).RegistryHeld E ((cand.take (k + 1) ++ p).map .v2) b := by
      rcases hreg with ⟨hn, hsame⟩ | hheld
      · rw [engine_stateAt hcur hn hctx hkc, ← hsame] at hstate
        have hctxs : (identity.rules validator ctx).governanceContext = ctx' := by
          rw [hn] at hctx
          exact Except.ok.inj (hctx.symm.trans hctx')
        refine held_of_suffix hlen hn hctxs hstate hall fun b hb => ?_
        obtain ⟨p, q, hd⟩ := List.append_of_mem hb
        exact (hu p b q hd).schema
      · exact (habove _).mp hheld
    have hacc : Accepts E identity validator clock cand := by
      refine (accepts_split hctx k).mpr ⟨haccPre, followAll_of_suffix hall (fun b hb => hlink b ?_)
        fun p b q h => ⟨hu p b q h, hheld p b q h⟩⟩
      rwa [List.head?_drop] at hb
    refine ⟨hacc, ?_⟩
    -- the shared prefix has one work, so the suffixes decide
    have hwcur := accepts_branchWork hcur fun b hb => hnc.genesis b (List.mem_append_left _ hb)
    have hwcand := accepts_branchWork hacc fun b hb => hnc.genesis b (List.mem_append_right _ hb)
    refine ⟨_, _, hwcur, hwcand, .inl ?_⟩
    obtain ⟨w, w', hw, hw', hlt⟩ := hswitch.work
    have hpos : ∀ {c : List BlockV2}, (∀ t ∈ targetsOf c, InBounds t) → ∀ t ∈ targetsOf (c.drop (k + 1)), 0 < t := by
      intro c hc t ht
      obtain ⟨b, hb, rfl⟩ := List.mem_map.mp ht
      exact (hc _ (List.mem_map_of_mem (List.mem_of_mem_drop hb))).pos
    have htcur := accepts_targets hcur fun b hb => hnc.genesis b (List.mem_append_left _ hb)
    have htcand := accepts_targets hacc fun b hb => hnc.genesis b (List.mem_append_right _ hb)
    rw [branchWork_eq (hpos htcand)] at hw
    rw [branchWork_eq (hpos htcur)] at hw'
    cases hw
    cases hw'
    rw [total_split cur (k + 1), total_split cand (k + 1),
      shared_targets hcur hacc hnc (findCommonAncestor_hash hswitch.ancestor)]
    exact Int.add_lt_add_left hlt _

end

theorem alphaChild_hash : alphaChild.hash (recorded []) =
    .ok (str "0000e91ffe8f11e6454e4d27524689678fbfa7aea4e05d268ce7d3d4801fdb17") := of_okEq (by decide +kernel)

theorem alphaGenesis_accepted : Accepts (recorded []) alphaNetworkIdentity none 1704067800 [alphaGenesis] := by
  obtain ⟨ctx, hctx⟩ := accepts_ctx alphaChild_accepted
  exact ((accepts_split hctx 0).mp alphaChild_accepted).1

theorem alphaEngine : engineOn (recorded []) alphaNetworkIdentity none [alphaGenesis] =
    .ok ⟨[alphaGenesis], GENESIS_GOVERNANCE_KEYS, 2, none, alphaNetworkIdentity⟩ := by
  obtain ⟨ctx, hctx⟩ := accepts_ctx alphaGenesis_accepted
  exact engineOn_eq hctx _

theorem alphaChild_noCollision : NoCollision (recorded []) [alphaGenesis] [alphaGenesis, alphaChild] := by
  have hne : str "0000e91ffe8f11e6454e4d27524689678fbfa7aea4e05d268ce7d3d4801fdb17" ≠ GENESIS_HASH := by decide
  constructor
  · intro a ha b hb h hah hbh
    obtain rfl := List.mem_singleton.mp ha
    rcases List.mem_cons.mp hb with rfl | hb
    · rfl
    · obtain rfl := List.mem_singleton.mp hb
      rw [alphaGenesis_hash] at hah
      rw [alphaChild_hash] at hbh
      exact absurd (Except.ok.inj (hbh.trans hah.symm)) hne
  · intro b hb hbh
    simp only [List.cons_append, List.nil_append, List.mem_cons, List.not_mem_nil, or_false] at hb
    rcases hb with rfl | rfl | rfl
    · exact alphaGenesis_bytes
    · exact alphaGenesis_bytes
    · rw [alphaChild_hash] at hbh
      exact absurd (Except.ok.inj hbh) hne

set_option maxRecDepth 100000 in
theorem alphaChild_switched : ∃ r, ReorgEngine.evaluateCandidate (recorded [])
    ⟨[alphaGenesis], GENESIS_GOVERNANCE_KEYS, 2, none, alphaNetworkIdentity⟩ [alphaGenesis, alphaChild] = .ok r ∧
      r.switched = true := of_okAnd (by decide +kernel)

theorem switch_sound_alphaChild :
    Trusted (recorded []) alphaNetworkIdentity none 1704067800 [alphaGenesis] [alphaGenesis, alphaChild] := by
  obtain ⟨r, hr, hsw⟩ := alphaChild_switched
  exact (switch_sound_iff alphaGenesis_accepted alphaEngine alphaChild_noCollision hr hsw).mp
    ⟨alphaChild_accepted, _, _, rfl, rfl, .inl (by decide)⟩

/-- A mined block above no known block. -/
def orphan : BlockV2 := alphaBlock (List.replicate 64 49) 1704067800 37593

set_option maxRecDepth 100000 in
theorem orphan_switched : ∃ r, ReorgEngine.evaluateCandidate (recorded [])
    ⟨[alphaGenesis], GENESIS_GOVERNANCE_KEYS, 2, none, alphaNetworkIdentity⟩ [alphaGenesis, orphan] = .ok r ∧
      r.switched = true := of_okAnd (by decide +kernel)

/-- The engine switches to a block that does not link to the genesis block. -/
theorem switch_unsound : ¬ ∀ (E : Primitives) (identity : NetworkIdentity) (validator : Option (Json → Bool))
    (clock : Int) (depth : Option Int) (cur cand : List BlockV2) (eng : ReorgEngine) (r : ReorgResult),
      Accepts E identity validator clock cur → engineOn E identity depth cur = .ok eng →
      eng.evaluateCandidate E cand = .ok r → r.switched = true →
      Accepts E identity validator clock cand ∧ Heavier E cur cand := by
  intro h
  obtain ⟨r, hr, hsw⟩ := orphan_switched
  have hacc := (h _ _ _ _ _ _ _ _ _ alphaGenesis_accepted alphaEngine hr hsw).1
  have hlink : alphaGenesis.hash (recorded []) = .ok (List.replicate 64 49) := hacc.link (i := 0) rfl rfl
  rw [alphaGenesis_hash] at hlink
  exact absurd (Except.ok.inj hlink) (by decide)

end ChainBreaker
