import ChainBreaker.AlphaBlocks
import ChainBreaker.SyncEngine

/-!
# The delivery of a batch

A peer delivers the blocks of the pending headers one by one. The height a block is
expected at counts the pending blocks twice, and all blocks go to the store with the
state below the last: the batch arrives (`block_sync_iff`) at the start of a chain,
without a change of the registry before its last block.
-/

namespace ChainBreaker

open Fallible

/-! ## Deliveries -/

/-- A call of `handle_block`, and the block it is to bring. -/
structure Delivery where
  surroundings : Surroundings
  payload : Bytes
  block : BlockV2

/-- The message carries the block and no other. -/
def Delivery.Carries (B : Builtins) (d : Delivery) : Prop :=
  ∃ entry, BlockMessage.fromPayload B d.payload = .ok ⟨[entry]⟩ ∧ decodeBlock B entry.blockBytes = .ok d.block

/-- The ledger takes the block. -/
def Delivery.added (E : Primitives) (l : Ledger) (d : Delivery) : Except (Option PyErr) Ledger :=
  l.addedStep E d.surroundings.now d.block

section
variable (B : Builtins) (C : StoreConfig)

/-- The answers to the deliveries, and what they leave. -/
def SyncEngine.deliver : SyncEngine → Node → List Delivery → List (Except PyErr SyncReply) × SyncEngine × Node
  | e, s, [] => ([], e, s)
  | e, s, d :: ds =>
    let (reply, e, s) := e.handleBlock B C d.surroundings s d.payload
    let (replies, after) := SyncEngine.deliver e s ds
    (reply :: replies, after)

/-- The answers to `n` blocks of which each is accepted and the last committed. -/
def batchReplies (n : Nat) (height : Int) : List (Except PyErr SyncReply) :=
  List.replicate (n - 1) (.ok .nextBlock) ++ [.ok (.committed height)]

/-- The store ends at the tip of the ledger. -/
def StoreEndsAt (files : StoreFiles) (l : Ledger) : Prop :=
  ∃ head last, getTip C files = .ok head ∧ head.height = l.height ∧ l.lastBlock = .ok last ∧
    last.hash B.toPrimitives = .ok head.blockHash

/-- Each delivered block is handed to `append_block` with the state of the block before it. -/
def CallsWithStates (e : SyncEngine) (l l' : Ledger) (ds : List Delivery) : Prop :=
  ∃ calls, commitCalls l' (e.pendingBlocks ++ ds.map Delivery.block) = .ok calls ∧ ∀ i d, ds[i]? = some d →
    ∃ state, calls[e.pendingBlocks.length + i]? = some (d.block, state) ∧
      l'.stateAt B.toPrimitives (l.chain.length - 1 + i) = .ok state

/-- Every block is accepted, and the last commits the batch; the ledger is then `l'`. -/
def BranchDelivered (e : SyncEngine) (s : Node) (ds : List Delivery) (l' : Ledger) : Prop :=
  l'.chain = s.ledger.chain ++ ds.map (fun d => .v2 d.block) ∧ CallsWithStates B e s.ledger l' ds ∧ ∃ files,
    e.deliver B C s ds = (batchReplies ds.length l'.height, { state := .synced }, ⟨l', files⟩) ∧ StoreEndsAt B C files l'

/-- No blocks are pending, or the last that is has the hash of the tip. -/
def SyncEngine.AtTip (e : SyncEngine) (l : Ledger) : Prop :=
  ∀ block, e.pendingBlocks.getLast? = some block →
    ∃ last hash, l.lastBlock = .ok last ∧ last.hash B.toPrimitives = .ok hash ∧ block.hash B.toPrimitives = .ok hash

/-- The height and the hash the next block is expected with are its own. -/
def SyncEngine.Expects (e : SyncEngine) (l : Ledger) : Prop :=
  e.AtTip B l ∧ (e.pendingBlocks.length = 0 ∨ l.chain.length + e.pendingBlocks.length < DIFFICULTY_RETARGET_INTERVAL)

/-- The store ends below the pending blocks, reads its own HEAD, and takes blocks with the state. -/
structure StoreTakes (faults : Nat → Option Nat) (s : Node) (pending : Nat) (blocks : List BlockV2) (state : RegistryState) :
    Prop where
  readable : C.Readable
  tip : ∃ head, getTip C s.storage = .ok head ∧ head.height + pending = s.ledger.height
  appended : (appendAll B C faults s.storage (blocks.map fun block => (block, state))).1 = .ok ()

end

/-! ## One block -/

section
variable {B : Builtins} {C : StoreConfig} {e : SyncEngine} {s : Node} {d : Delivery} {rest : List BlockHeaderV2} {l₁ : Ledger}

theorem added_chain (h : d.added B.toPrimitives s.ledger = .ok l₁) : l₁.chain = s.ledger.chain ++ [.v2 d.block] ∧
    (∃ last, s.ledger.lastBlock = .ok last ∧ last.hash B.toPrimitives = .ok d.block.header.prevHash) ∧
    expectedTargetAt s.ledger.chain s.ledger.chain.length = .ok d.block.header.target ∧ s.ledger.chain ≠ [] := by
  have hadd := addedStep_eq_ok.mp h
  have hne := chain_ne_of_added hadd
  obtain ⟨-, _, _, hf, rfl⟩ := (addBlockV2_true_iff hne).mp hadd
  obtain ⟨last, hlast, hhash⟩ := hf.linked
  exact ⟨rfl, ⟨last, by rw [Ledger.lastBlock, hlast, orRaise], hhash⟩, hf.target, hne⟩

/-- The target is looked up `k` heights too high. -/
theorem expectedTargetAt_beyond {chain : List AnyBlock} (hne : chain ≠ []) (k : Nat) :
    if k = 0 ∨ chain.length + k < DIFFICULTY_RETARGET_INTERVAL then
      expectedTargetAt chain (chain.length + k) = expectedTargetAt chain chain.length
    else ∃ e, expectedTargetAt chain (chain.length + k) = .error e := by
  have hpos := List.length_pos_of_ne_nil hne
  split
  · rename_i h
    rcases h with rfl | h
    · rfl
    · have hlow : chain.length < DIFFICULTY_RETARGET_INTERVAL := by omega
      simp only [expectedTargetAt, Nat.ne_of_gt hpos, Nat.ne_of_gt (Nat.add_pos_left hpos k), h, hlow, if_true, if_false]
  · rename_i h
    obtain ⟨hk, hbig⟩ := not_or.mp h
    exact expectedTargetAt_missing (by omega) hbig

theorem expectedPrevHash_blocks (state : SyncState) (headers : List BlockHeaderV2) :
    SyncEngine.expectedPrevHash B ⟨state, headers, e.pendingBlocks⟩ s = e.expectedPrevHash B s := rfl

theorem expectedPrevHash_iff {prevHash : Str} {last : AnyBlock} (hlast : s.ledger.lastBlock = .ok last)
    (hhash : last.hash B.toPrimitives = .ok prevHash) :
    e.expectedPrevHash B s = .ok prevHash ↔ e.AtTip B s.ledger := by
  unfold SyncEngine.expectedPrevHash SyncEngine.AtTip
  cases e.pendingBlocks.getLast? with
  | none =>
    simp only [hlast, ok_bind, hhash, true_iff]
    exact fun block h => by cases h
  | some block =>
    constructor
    · rintro h _ ⟨⟩
      exact ⟨last, prevHash, hlast, hhash, h⟩
    · intro h
      obtain ⟨last', hash, hlast', hhash', hblock⟩ := h block rfl
      cases Except.ok.inj (hlast.symm.trans hlast')
      cases Except.ok.inj (hhash.symm.trans hhash')
      exact hblock

theorem parseBlockMessage_iff {l : Ledger} {entry : BlockEntry} {block block' : BlockV2} {height : Nat} {prevHash : Str}
    (hdecode : decodeBlock B entry.blockBytes = .ok block) :
    parseBlockMessage B l ⟨[entry]⟩ height prevHash = .ok block' ↔
      block' = block ∧ block.header.prevHash = prevHash ∧ expectedTargetAt l.chain height = .ok block.header.target := by
  simp only [parseBlockMessage, hdecode, orInvalidData, ok_bind, bind_eq_ok, require_eq_ok]
  constructor
  · rintro ⟨_, hprev, target, htarget, _, heq, h⟩
    cases h
    exact ⟨rfl, hprev, by rw [htarget, heq]⟩
  · rintro ⟨rfl, hprev, htarget⟩
    exact ⟨(), hprev, _, htarget, (), rfl, rfl⟩

/-- The next block of the batch is parsed exactly if it is expected. -/
theorem delivered_parsed_iff {entry : BlockEntry} (hdecode : decodeBlock B entry.blockBytes = .ok d.block)
    (hadd : d.added B.toPrimitives s.ledger = .ok l₁) :
    (∃ prevHash block, e.expectedPrevHash B s = .ok prevHash ∧ parseBlockMessage B s.ledger ⟨[entry]⟩
      (s.ledger.chain.length + e.pendingBlocks.length) prevHash = .ok block) ↔ e.Expects B s.ledger := by
  obtain ⟨-, ⟨last, hlast, hlink⟩, htarget, hne⟩ := added_chain hadd
  have hbeyond := expectedTargetAt_beyond hne e.pendingBlocks.length
  have hprev := expectedPrevHash_iff (e := e) hlast hlink
  simp only [parseBlockMessage_iff hdecode]
  constructor
  · rintro ⟨_, _, hexpected, -, rfl, hheight⟩
    refine ⟨hprev.mp hexpected, ?_⟩
    by_contra hnot
    rw [if_neg hnot] at hbeyond
    obtain ⟨err, herr⟩ := hbeyond
    rw [herr] at hheight
    cases hheight
  · rintro ⟨htip, hheight⟩
    rw [if_pos hheight, htarget] at hbeyond
    exact ⟨_, _, hprev.mpr htip, rfl, rfl, hbeyond⟩

theorem handleBlock_accepted (hpending : e.pendingHeaders = d.block.header :: rest) (hcarries : d.Carries B)
    (hadd : d.added B.toPrimitives s.ledger = .ok l₁) (hexpects : e.Expects B s.ledger) :
    e.handleBlock B C d.surroundings s d.payload =
      if rest.isEmpty then SyncEngine.commit B C d.surroundings
        ⟨.committing, rest, e.pendingBlocks ++ [d.block]⟩ ⟨l₁, s.storage⟩
      else (.ok .nextBlock, ⟨.requestingBlocks, rest, e.pendingBlocks ++ [d.block]⟩, ⟨l₁, s.storage⟩) := by
  obtain ⟨entry, hmsg, hdecode⟩ := hcarries
  obtain ⟨prevHash, block, hprev, hparse⟩ := (delivered_parsed_iff hdecode hadd).mpr hexpects
  obtain ⟨rfl, -, -⟩ := (parseBlockMessage_iff hdecode).mp hparse
  unfold SyncEngine.handleBlock
  simp only [hpending, expectedPrevHash_blocks, hprev, hmsg, ok_bind, hparse, addedStep_eq_ok.mp hadd]

theorem handleBlock_refused (hpending : e.pendingHeaders = d.block.header :: rest) (hcarries : d.Carries B)
    (hadd : d.added B.toPrimitives s.ledger = .ok l₁) (hexpects : ¬ e.Expects B s.ledger) :
    (e.handleBlock B C d.surroundings s d.payload).1 ≠ .ok .nextBlock ∧
      ∀ height, (e.handleBlock B C d.surroundings s d.payload).1 ≠ .ok (.committed height) := by
  obtain ⟨entry, hmsg, hdecode⟩ := hcarries
  unfold SyncEngine.handleBlock
  simp only [hpending, expectedPrevHash_blocks, hmsg, ok_bind]
  cases hprev : e.expectedPrevHash B s with
  | error exc => exact ⟨nofun, fun _ => nofun⟩
  | ok prevHash =>
    dsimp only
    cases hparse : parseBlockMessage B s.ledger ⟨[entry]⟩ (s.ledger.chain.length + e.pendingBlocks.length) prevHash with
    | ok block => exact absurd ((delivered_parsed_iff hdecode hadd).mp ⟨prevHash, block, hprev, hparse⟩) hexpects
    | error exc =>
      dsimp only
      split
      · exact ⟨nofun, fun _ => nofun⟩
      · exact ⟨nofun, fun _ => nofun⟩

end

/-! ## The commit -/

section
variable {B : Builtins} {C : StoreConfig} {s : Node} {S : Surroundings} {files : StoreFiles} {blocks : List BlockV2}

theorem commitCalls_ok {l : Ledger} {calls : List (BlockV2 × RegistryState)} (hne : blocks ≠ []) :
    commitCalls l blocks = .ok calls ↔
      ∃ state, l.stateBelowTip = .ok state ∧ calls = blocks.map fun block => (block, state) := by
  obtain ⟨block, blocks, rfl⟩ := List.exists_cons_of_ne_nil hne
  unfold commitCalls
  cases hstate : l.stateBelowTip with
  | error e => exact ⟨nofun, by rintro ⟨_, h, -⟩; cases h⟩
  | ok state =>
    have hall : ∀ bs : List BlockV2, collect (fun block => (Except.ok state : Except PyErr RegistryState).map fun state => (block, state)) bs =
        .ok (bs.map fun block => (block, state)) := fun bs =>
      collect_eq_ok.mpr (List.forall₂_map_right_iff.mpr (List.forall₂_same.mpr fun _ _ => rfl))
    rw [hall]
    constructor
    · exact fun h => ⟨state, rfl, (Except.ok.inj h).symm⟩
    · rintro ⟨_, ⟨⟩, rfl⟩
      rfl

theorem commitBlocks_ok (hne : blocks ≠ []) : commitBlocks B C S s blocks = (.ok (), files) ↔
    ∃ state, s.ledger.stateBelowTip = .ok state ∧
      appendAll B C S.faults s.storage (blocks.map fun block => (block, state)) = (.ok (), files) := by
  unfold commitBlocks
  cases hcalls : commitCalls s.ledger blocks with
  | error e =>
    refine ⟨nofun, ?_⟩
    rintro ⟨state, hstate, -⟩
    rw [(commitCalls_ok hne).mpr ⟨state, hstate, rfl⟩] at hcalls
    cases hcalls
  | ok calls =>
    obtain ⟨state, hstate, rfl⟩ := (commitCalls_ok hne).mp hcalls
    constructor
    · exact fun h => ⟨state, hstate, h⟩
    · rintro ⟨state', hstate', h⟩
      cases Except.ok.inj (hstate.symm.trans hstate')
      exact h

/-- The tip after blocks appended in turn. -/
theorem appendAll_tip : ∀ {calls : List (BlockV2 × RegistryState)} {faults : Nat → Option Nat} {files files' : StoreFiles}
    {block : BlockV2} {state : RegistryState},
    appendAll B C faults files (calls ++ [(block, state)]) = (.ok (), files') →
    ∃ tip hash, getTip C files = .ok tip ∧ block.hash B.toPrimitives = .ok hash ∧ ∀ head, getTip C files' = .ok head ↔
      C.Readable ∧ head = ⟨tip.height + calls.length + 1, hash, C.networkId, C.genesisHash, STORAGE_FORMAT_VERSION⟩ := by
  intro calls
  induction calls with
  | nil =>
    intro faults files files' block state h
    rw [List.nil_append, appendAll] at h
    cases happend : appendBlock B.toRuntime C (faults 0) files block state with
    | mk result files₁ =>
      rw [happend] at h
      cases result with
      | error e => cases h
      | ok state' =>
        cases h
        obtain ⟨tip, hash, htip, hhash, hread⟩ := appendBlock_tip happend
        exact ⟨tip, hash, htip, hhash, by simpa using hread⟩
  | cons call calls ih =>
    obtain ⟨block₁, state₁⟩ := call
    intro faults files files' block state h
    rw [List.cons_append, appendAll] at h
    cases happend : appendBlock B.toRuntime C (faults 0) files block₁ state₁ with
    | mk result files₁ =>
      rw [happend] at h
      cases result with
      | error e => cases h
      | ok state' =>
        obtain ⟨tip, hash₁, htip, -, hread₁⟩ := appendBlock_tip happend
        obtain ⟨tip₁, hash, htip₁, hhash, hread⟩ := ih h
        obtain ⟨-, rfl⟩ := (hread₁ tip₁).mp htip₁
        refine ⟨tip, hash, htip, hhash, fun head => ?_⟩
        rw [hread head, List.length_cons]
        have hheight : tip.height + 1 + calls.length + 1 = tip.height + (calls.length + 1 : Nat) + 1 := by omega
        rw [hheight]

end

/-! ## The whole batch -/

section
variable {B : Builtins} {C : StoreConfig} {l' : Ledger} {files : StoreFiles}

theorem deliver_cons_iff {e : SyncEngine} {s : Node} {d : Delivery} {ds : List Delivery} {reply : Except PyErr SyncReply}
    {replies : List (Except PyErr SyncReply)} {after : SyncEngine × Node} {h : Except PyErr SyncReply × SyncEngine × Node}
    (hh : e.handleBlock B C d.surroundings s d.payload = h) :
    e.deliver B C s (d :: ds) = (reply :: replies, after) ↔
      h.1 = reply ∧ h.2.1.deliver B C h.2.2 ds = (replies, after) := by
  rw [SyncEngine.deliver, hh]
  simp only [Prod.ext_iff, List.cons.injEq, and_assoc]

theorem batchReplies_more (n : Nat) (height : Int) :
    batchReplies (n + 2) height = .ok .nextBlock :: batchReplies (n + 1) height := rfl

theorem commit_iff {S : Surroundings} {e : SyncEngine} {s : Node} :
    SyncEngine.commit B C S e s = (.ok (.committed s.ledger.height), { e with state := .synced, pendingBlocks := [] },
      { s with storage := files }) ↔ commitBlocks B C S s e.pendingBlocks = (.ok (), files) := by
  unfold SyncEngine.commit
  rcases hcommit : commitBlocks B C S s e.pendingBlocks with ⟨_ | _, files'⟩
  · exact ⟨nofun, nofun⟩
  · constructor
    · intro h
      simp only [Prod.mk.injEq, Node.mk.injEq, true_and] at h
      rw [h]
    · intro h
      cases h
      rfl

/-- The delivery goes through exactly if the first block is expected, no height is
counted past the first retarget, and the store takes what is pending in the end. -/
theorem deliver_iff : ∀ {ds : List Delivery} {e : SyncEngine} {s : Node} {last : Delivery}, ds.getLast? = some last →
    e.pendingHeaders = ds.map (fun d => d.block.header) → (∀ d ∈ ds, d.Carries B) →
    run (Delivery.added B.toPrimitives) s.ledger ds = .ok l' →
    (e.deliver B C s ds = (batchReplies ds.length l'.height, { state := .synced }, ⟨l', files⟩) ↔
      (e.AtTip B s.ledger ∧ ((e.pendingBlocks.length = 0 ∧ ds.length = 1) ∨
        s.ledger.chain.length + e.pendingBlocks.length + 2 * (ds.length - 1) < DIFFICULTY_RETARGET_INTERVAL)) ∧
      commitBlocks B C last.surroundings ⟨l', s.storage⟩ (e.pendingBlocks ++ ds.map Delivery.block) = (.ok (), files)) := by
  intro ds
  induction ds with
  | nil => intro e s last h; cases h
  | cons d ds ih =>
    intro e s last hlast hpending hcarries hvalid
    obtain ⟨l₁, hadd, hvalid⟩ := (run_cons_ok _).mp hvalid
    obtain ⟨hchain, -, -, -⟩ := added_chain hadd
    have hcarry := hcarries d (.head _)
    cases ds with
    | nil =>
      cases hlast
      obtain rfl : l₁ = l' := Except.ok.inj hvalid
      by_cases hexpects : e.Expects B s.ledger
      · have hstep : e.handleBlock B C d.surroundings s d.payload = SyncEngine.commit B C d.surroundings
            ⟨.committing, [], e.pendingBlocks ++ [d.block]⟩ ⟨l₁, s.storage⟩ :=
          handleBlock_accepted hpending hcarry hadd hexpects
        have hcommit := @commit_iff B C files d.surroundings
          ⟨.committing, [], e.pendingBlocks ++ [d.block]⟩ ⟨l₁, s.storage⟩
        refine (deliver_cons_iff hstep).trans (Iff.trans ?_ (hcommit.trans ⟨fun h => ⟨⟨hexpects.1, ?_⟩, h⟩, fun h => h.2⟩))
        · simp only [SyncEngine.deliver, Prod.ext_iff, true_and]
        · exact hexpects.2.imp (fun h => ⟨h, rfl⟩) id
      · obtain ⟨-, hnot⟩ := handleBlock_refused (C := C) hpending hcarry hadd hexpects
        constructor
        · intro h
          exact absurd ((deliver_cons_iff rfl).mp h).1 (hnot _)
        · rintro ⟨⟨htip, hheight⟩, -⟩
          exact absurd ⟨htip, hheight.imp And.left id⟩ hexpects
    | cons d' ds =>
      have hheights : e.Expects B s.ledger ∧
          s.ledger.chain.length + 1 + (e.pendingBlocks.length + 1) + 2 * ds.length < DIFFICULTY_RETARGET_INTERVAL ↔
          e.AtTip B s.ledger ∧ ((e.pendingBlocks.length = 0 ∧ (d :: d' :: ds).length = 1) ∨
            s.ledger.chain.length + e.pendingBlocks.length + 2 * ((d :: d' :: ds).length - 1) < DIFFICULTY_RETARGET_INTERVAL) := by
        rw [SyncEngine.Expects, and_assoc]
        refine and_congr_right fun _ => ?_
        simp only [List.length_cons]
        omega
      rw [← hheights]
      by_cases hexpects : e.Expects B s.ledger
      · have hstep : e.handleBlock B C d.surroundings s d.payload = (.ok .nextBlock,
            ⟨.requestingBlocks, (d' :: ds).map fun d => d.block.header, e.pendingBlocks ++ [d.block]⟩, ⟨l₁, s.storage⟩) :=
          handleBlock_accepted hpending hcarry hadd hexpects
        generalize he₁ : (⟨.requestingBlocks, (d' :: ds).map fun d => d.block.header, e.pendingBlocks ++ [d.block]⟩ : SyncEngine) = e₁
          at hstep
        -- the next block is linked to this one, so it is expected by its hash
        obtain ⟨l₂, hadd', -⟩ := (run_cons_ok _).mp hvalid
        obtain ⟨-, ⟨tip, htip, hlink⟩, -, -⟩ := added_chain (s := ⟨l₁, s.storage⟩) hadd'
        have hblock : tip = .v2 d.block := by
          rw [Ledger.lastBlock, hchain, List.getLast?_concat] at htip
          exact (Except.ok.inj htip).symm
        have hnext : e₁.AtTip B l₁ := by
          intro block hlastBlock
          rw [← he₁, List.getLast?_concat] at hlastBlock
          cases hlastBlock
          exact ⟨tip, _, htip, hlink, by rw [hblock] at hlink; exact hlink⟩
        have hlater : e₁.AtTip B l₁ ∧ ((e₁.pendingBlocks.length = 0 ∧ (d' :: ds).length = 1) ∨
              l₁.chain.length + e₁.pendingBlocks.length + 2 * ((d' :: ds).length - 1) < DIFFICULTY_RETARGET_INTERVAL) ↔
            s.ledger.chain.length + 1 + (e.pendingBlocks.length + 1) + 2 * ds.length < DIFFICULTY_RETARGET_INTERVAL := by
          rw [hchain, ← he₁]
          simp only [List.length_append, List.length_cons, List.length_nil]
          rw [and_iff_right (by rw [he₁]; exact hnext)]
          omega
        have hrest := ih (e := e₁) (s := ⟨l₁, s.storage⟩) hlast (by rw [← he₁]) (fun d hd => hcarries d (.tail _ hd)) hvalid
        have hblocks : e₁.pendingBlocks ++ (d' :: ds).map Delivery.block =
            e.pendingBlocks ++ (d :: d' :: ds).map Delivery.block := by
          rw [← he₁]
          exact List.append_assoc _ _ _
        rw [hlater, hblocks] at hrest
        rw [and_iff_right hexpects, ← hrest, List.length_cons, List.length_cons, batchReplies_more, deliver_cons_iff hstep]
        exact and_iff_right rfl
      · obtain ⟨hnot, -⟩ := handleBlock_refused (C := C) hpending hcarry hadd hexpects
        constructor
        · intro h
          exact absurd ((deliver_cons_iff rfl).mp h).1 hnot
        · rintro ⟨⟨h, -⟩, -⟩
          exact absurd h hexpects

theorem addedAll_chain : ∀ {ds : List Delivery} {l : Ledger}, run (Delivery.added B.toPrimitives) l ds = .ok l' →
    l'.chain = l.chain ++ ds.map (fun d => .v2 d.block) := by
  intro ds
  induction ds with
  | nil =>
    intro l h
    cases h
    exact (List.append_nil _).symm
  | cons d ds ih =>
    intro l h
    obtain ⟨l₁, hadd, h⟩ := (run_cons_ok _).mp h
    rw [ih h, (added_chain (s := ⟨l, ∅⟩) hadd).1, List.append_assoc, List.singleton_append, List.map_cons]

theorem callsWithStates_iff {e : SyncEngine} {l : Ledger} {ds : List Delivery} {state : RegistryState} (hds : ds ≠ [])
    (hstate : l'.stateBelowTip = .ok state) : CallsWithStates B e l l' ds ↔
      ∀ i < ds.length, l'.stateAt B.toPrimitives (l.chain.length - 1 + i) = .ok state := by
  have hne : e.pendingBlocks ++ ds.map Delivery.block ≠ [] := by simp [hds]
  have hcall : ∀ i d, ds[i]? = some d →
      ((e.pendingBlocks ++ ds.map Delivery.block).map fun block => (block, state))[e.pendingBlocks.length + i]? =
        some (d.block, state) := by
    intro i d hd
    rw [List.getElem?_map, List.getElem?_append_right (Nat.le_add_right _ _), Nat.add_sub_cancel_left, List.getElem?_map, hd]
    rfl
  constructor
  · rintro ⟨calls, hcalls, hall⟩ i hi
    obtain ⟨state', hstate', rfl⟩ := (commitCalls_ok hne).mp hcalls
    cases Except.ok.inj (hstate.symm.trans hstate')
    obtain ⟨state', hget, hat⟩ := hall i ds[i] (List.getElem?_eq_getElem hi)
    rw [hcall i _ (List.getElem?_eq_getElem hi)] at hget
    cases hget
    exact hat
  · intro hall
    refine ⟨_, (commitCalls_ok hne).mpr ⟨state, hstate, rfl⟩, fun i d hd => ⟨state, hcall i d hd, hall i ?_⟩⟩
    exact (List.getElem?_eq_some_iff.mp hd).1

/-- **A batch arrives whole at the start of a chain only.** The delivery of the valid
blocks of all pending headers ends in a commit that hands each block to the store with
the state before it exactly if the first block is expected, no height counted for them
reaches the first retarget, one state stands below all blocks, and the store takes them. -/
theorem block_sync_iff {e : SyncEngine} {s : Node} {ds : List Delivery} {last : Delivery} (hlast : ds.getLast? = some last)
    (hpending : e.pendingHeaders = ds.map (fun d => d.block.header)) (hcarries : ∀ d ∈ ds, d.Carries B)
    (hvalid : run (Delivery.added B.toPrimitives) s.ledger ds = .ok l') :
    BranchDelivered B C e s ds l' ↔
      (e.AtTip B s.ledger ∧ ((e.pendingBlocks.length = 0 ∧ ds.length = 1) ∨
        s.ledger.chain.length + e.pendingBlocks.length + 2 * (ds.length - 1) < DIFFICULTY_RETARGET_INTERVAL)) ∧
      ∃ state, l'.stateBelowTip = .ok state ∧
        (∀ i < ds.length, l'.stateAt B.toPrimitives (s.ledger.chain.length - 1 + i) = .ok state) ∧
        StoreTakes B C last.surroundings.faults s e.pendingBlocks.length (e.pendingBlocks ++ ds.map Delivery.block) state := by
  have hds : ds ≠ [] := fun h => by rw [h] at hlast; cases hlast
  have hne : e.pendingBlocks ++ ds.map Delivery.block ≠ [] := by simp [hds]
  have hchain := addedAll_chain hvalid
  have hsplit : ∀ state : RegistryState, (e.pendingBlocks ++ ds.map Delivery.block).map (fun block => (block, state)) =
      (e.pendingBlocks ++ ds.dropLast.map Delivery.block).map (fun block => (block, state)) ++ [(last.block, state)] := by
    intro state
    have hback : ds = ds.dropLast ++ [last] := (List.dropLast_append_getLast? _ hlast).symm
    conv => lhs; rw [hback]
    simp only [List.map_append, List.map_cons, List.map_nil, List.append_assoc]
  have hlastBlock : l'.lastBlock = .ok (.v2 last.block) := by
    rw [Ledger.lastBlock, hchain, List.getLast?_append_of_ne_nil _ (by simpa using hds), List.getLast?_map, hlast]
    rfl
  have hheight : l'.height = s.ledger.height + ds.length := by
    rw [Ledger.height, Ledger.height, hchain, List.length_append, List.length_map]
    omega
  have hcount : ds.dropLast.length + 1 = ds.length := by
    rw [List.length_dropLast]
    have := List.length_pos_of_ne_nil hds
    omega
  constructor
  · rintro ⟨-, hcalls, files, hdeliver, head, tip, hhead, hheadHeight, -, -⟩
    obtain ⟨hcond, hcommit⟩ := (deliver_iff hlast hpending hcarries hvalid).mp hdeliver
    obtain ⟨state, hstate, happend⟩ := (commitBlocks_ok hne).mp hcommit
    refine ⟨hcond, state, hstate, (callsWithStates_iff hds hstate).mp hcalls, ?_⟩
    have happend' := happend
    rw [hsplit] at happend'
    obtain ⟨old, hash, hold, -, hread⟩ := appendAll_tip happend'
    obtain ⟨hreadable, rfl⟩ := (hread head).mp hhead
    refine ⟨hreadable, ⟨old, hold, ?_⟩, by rw [happend]⟩
    simp only [List.length_map, List.length_append] at hheadHeight
    omega
  · rintro ⟨hcond, state, hstate, hstates, htakes⟩
    obtain ⟨old, hold, holdHeight⟩ := htakes.tip
    obtain ⟨files, happend⟩ : ∃ files, appendAll B C last.surroundings.faults s.storage
        ((e.pendingBlocks ++ ds.map Delivery.block).map fun block => (block, state)) = (.ok (), files) :=
      ⟨_, Prod.ext htakes.appended rfl⟩
    have hcommit := (commitBlocks_ok (s := ⟨l', s.storage⟩) hne).mpr ⟨state, hstate, happend⟩
    refine ⟨hchain, (callsWithStates_iff hds hstate).mpr hstates, files,
      (deliver_iff hlast hpending hcarries hvalid).mpr ⟨hcond, hcommit⟩, ?_⟩
    rw [hsplit] at happend
    obtain ⟨old', hash, hold', hhash, hread⟩ := appendAll_tip happend
    cases Except.ok.inj (hold.symm.trans hold')
    refine ⟨_, _, (hread _).mpr ⟨htakes.readable, rfl⟩, ?_, hlastBlock, hhash⟩
    simp only [List.length_map, List.length_append]
    omega

end

/-! ## Deliveries on the alpha network -/

section
variable {B : Builtins} {l l₁ : Ledger} {block : BlockV2} {now : Int}

/-- A block that the ledger takes can be sent. -/
theorem delivery_exists (hplain : block.Plain) (hnorm : block.transactions.map Json.norm = block.transactions)
    (hadd : l.addedStep B.toPrimitives now block = .ok l₁) :
    ∃ payload, ∀ S, (⟨S, payload, block⟩ : Delivery).Carries B := by
  have hadded := addedStep_eq_ok.mp hadd
  obtain ⟨-, _, _, hf, -⟩ := (addBlockV2_true_iff (chain_ne_of_added hadded)).mp hadded
  obtain ⟨hash, hhash, -⟩ := hf.intact.work
  obtain ⟨raw, hraw, hdouble⟩ := bind_eq_ok.mp hhash
  obtain ⟨d, hd, -⟩ := bind_eq_ok.mp hraw
  obtain ⟨blockBytes, hblockBytes⟩ : ∃ blockBytes, encodeBlock B.toRuntime block = .ok blockBytes := by
    rw [encodeBlock, BlockV2.toJson, hd, ok_bind, hhash]
    exact ⟨_, rfl⟩
  obtain ⟨hascii, hdecode⟩ := decodeBlock_encodeBlock (B := B) hplain hblockBytes
  obtain ⟨payload, hpayload⟩ : ∃ payload, (BlockMessage.mk [⟨hash, blockBytes⟩]).toPayload B.toPrimitives = .ok payload :=
    ⟨_, rfl⟩
  have hlower : isLowerHash hash = true := by
    rw [← Except.ok.inj hdouble]
    exact isLowerHash_toHex (doubleSha256_length _)
  refine ⟨payload, fun S => ⟨⟨hash, blockBytes⟩, ?_, ?_⟩⟩
  · exact BlockMessage.fromPayload_toPayload (m := ⟨[⟨hash, blockBytes⟩]⟩)
      (show 1 ≤ MAX_BLOCKS_RESPONSE by decide) (List.forall_mem_singleton.mpr ⟨hlower, hascii⟩) hpayload
  · rw [hdecode, hnorm]

end

theorem alphaBlock_plain {prevHash : Str} (h : asciiStr prevHash = true) (timestamp nonce : Int) :
    (alphaBlock prevHash timestamp nonce).Plain := by
  have hroots : asciiStr zeroHash = true ∧ asciiStr GENESIS_REGISTRY_ROOT = true := by decide +kernel
  exact ⟨h, hroots.1, hroots.2, fun _ ht => by cases ht⟩

def alphaStore : StoreConfig := ⟨NETWORK_ID, GENESIS_HASH⟩

set_option maxRecDepth 100000 in
/-- The first block is delivered to an empty store. -/
theorem alphaChild_stored : ∃ l l₁ state, Ledger.init (recorded []) {} = .ok l ∧
    l.addedStep (recorded []) 1704067800 alphaChild = .ok l₁ ∧ l₁.stateBelowTip = .ok state ∧
    l₁.stateAt (recorded []) 0 = .ok state ∧
    (appendAll builtins alphaStore (fun _ => none) ∅ [(alphaChild, state)]).1 = .ok () := by
  have h : okAnd (fun l => okAnd (fun l₁ => okAnd (fun state => okEq (l₁.stateAt (recorded []) 0) state &&
      okAnd (fun _ => true) (appendAll builtins alphaStore (fun _ => none) ∅ [(alphaChild, state)]).1)
      l₁.stateBelowTip) (l.addedStep (recorded []) 1704067800 alphaChild)) (Ledger.init (recorded []) {}) = true := by
    decide +kernel
  obtain ⟨l, hl, h⟩ := of_okAnd h
  obtain ⟨l₁, hl₁, h⟩ := of_okAnd h
  obtain ⟨state, hstate, h⟩ := of_okAnd h
  rw [Bool.and_eq_true] at h
  obtain ⟨⟨⟩, hunit, -⟩ := of_okAnd h.2
  exact ⟨l, l₁, state, hl, hl₁, hstate, of_okEq h.1, hunit⟩

/-- The first block of the alpha network arrives. -/
theorem block_sync_alpha : ∃ l l' payload, Ledger.init builtins.toPrimitives {} = .ok l ∧
    BranchDelivered builtins alphaStore { pendingHeaders := [alphaChild.header] } ⟨l, ∅⟩
      [⟨{ now := 1704067800 }, payload, alphaChild⟩] l' := by
  obtain ⟨l, l₁, state, hl, hadd, hbelow, hat, happend⟩ := alphaChild_stored
  obtain ⟨payload, hcarries⟩ := delivery_exists (B := builtins) (alphaBlock_plain (by decide +kernel) _ _) rfl hadd
  have hlength : l.chain.length = 1 := by rw [alpha_chain hl, List.length_singleton]
  refine ⟨l, l₁, payload, hl, ?_⟩
  have hvalid : run (Delivery.added builtins.toPrimitives) l [⟨{ now := 1704067800 }, payload, alphaChild⟩] = .ok l₁ :=
    (run_cons_ok _).mpr ⟨l₁, hadd, rfl⟩
  refine (block_sync_iff (s := ⟨l, ∅⟩) (C := alphaStore) rfl rfl (List.forall_mem_singleton.mpr (hcarries _)) hvalid).mpr
    ⟨⟨fun _ h => (by cases h), .inl ⟨rfl, rfl⟩⟩, state, hbelow, fun i hi => ?_, ?_⟩
  · obtain rfl : i = 0 := Nat.lt_one_iff.mp hi
    rw [hlength]
    exact hat
  · refine ⟨⟨by decide, by decide +kernel⟩, ⟨_, rfl, ?_⟩, happend⟩
    rw [Ledger.height, hlength]
    rfl

/-! ## A batch across the first retarget -/

/-- The first nine blocks of the alpha network, by parent, timestamp and nonce. -/
def alphaBlocks : List BlockV2 :=
  [alphaChild, alphaSecond,
    alphaBlock (str "000018a99f915deba91769acb7cf1450f3df0fc852dfbc5ea32427fbb5c07b46") 1704069000 25545,
    alphaBlock (str "00004390f8e041c68a67ca4bb58e5a0a147c3e572f071331496fb61166adf870") 1704069600 1799,
    alphaBlock (str "00001029d89ac76a9961ea306976d900b00c0f1f8a5989aeaffee525d30c9193") 1704070200 133789,
    alphaBlock (str "000000a8265d15f8de897e4e74a30a1939135717e6f71306290cfd79b37f1fb9") 1704070800 3393,
    alphaBlock (str "0000424d3ad620fe4210734d26b1eff7cb1d6067e088e08fcfe9bfd346b83da1") 1704071400 22049]

def alphaEighth : BlockV2 :=
  alphaBlock (str "00001dd5c3c43845c931c0b4ef70b4ee1afe9616b7d11b3c81139a3ad9f574c9") 1704072000 82704

def alphaNinth : BlockV2 :=
  alphaBlock (str "0000bf308c11a92a7d944fcad28b310fa8439dba223f12b274d281e9c71578ba") 1704072600 45328

set_option maxRecDepth 100000 in
theorem alphaBlocks_linked : linked (recorded []) [.v2 alphaGenesis] GENESIS_HASH
    (alphaBlocks ++ [alphaEighth, alphaNinth]) = true := by decide +kernel

theorem alphaBlocks_blank : ∀ b ∈ alphaBlocks ++ [alphaEighth, alphaNinth], b.Blank := by
  simp only [alphaBlocks, List.cons_append, List.nil_append, List.forall_mem_cons]
  exact ⟨⟨_, _, _, by decide, rfl⟩, ⟨_, _, _, by decide, rfl⟩, ⟨_, _, _, by decide, rfl⟩, ⟨_, _, _, by decide, rfl⟩,
    ⟨_, _, _, by decide, rfl⟩, ⟨_, _, _, by decide, rfl⟩, ⟨_, _, _, by decide, rfl⟩, ⟨_, _, _, by decide, rfl⟩,
    ⟨_, _, _, by decide, rfl⟩, fun _ h => by cases h⟩

theorem alphaNinth_accepted (clock : Int) : Accepts (recorded []) alphaNetworkIdentity none clock
    (alphaGenesis :: (alphaBlocks ++ [alphaEighth, alphaNinth])) :=
  accepts_linked (by decide) alphaBlocks_blank alphaBlocks_linked

theorem alphaNinth_added : ∃ l l₁ l₂,
    Ledger.init (recorded []) { chain := some (.v2 alphaGenesis :: alphaBlocks.map .v2) } = .ok l ∧ l.chain.length = 8 ∧
    l.addedStep (recorded []) 1704072000 alphaEighth = .ok l₁ ∧ l₁.addedStep (recorded []) 1704072600 alphaNinth = .ok l₂ := by
  obtain ⟨ctx, hctx⟩ := accepts_ctx (alphaNinth_accepted 0)
  have hsplit := (accepts_split hctx 7).mp (alphaNinth_accepted 0)
  obtain ⟨⟨l, l', hl, -⟩, ⟨s, s', hf⟩, ⟨t, t', hf'⟩, -⟩ := hsplit
  obtain ⟨ctx', cache, hctx', rfl, -⟩ := ledgerOn_cached hl
  obtain rfl : ctx = ctx' := Except.ok.inj (hctx.symm.trans hctx')
  exact ⟨_, _, _, hl, rfl, (on_added_iff (List.cons_ne_nil _ _)).mpr ⟨by decide, s, s', hf, rfl⟩,
    (on_added_iff (List.cons_ne_nil _ _)).mpr ⟨by decide, t, t', hf', rfl⟩⟩

/-- The blocks at heights 8 and 9, both valid, do not arrive as one batch: the second is looked up at height 10. -/
theorem second_block_lost : ∃ l l₂ ds, Ledger.init builtins.toPrimitives
      { chain := some (.v2 alphaGenesis :: alphaBlocks.map .v2) } = .ok l ∧
    ds.map Delivery.block = [alphaEighth, alphaNinth] ∧ (∀ d ∈ ds, d.Carries builtins) ∧
    run (Delivery.added builtins.toPrimitives) l ds = .ok l₂ ∧ ∀ C storage, ¬ BranchDelivered builtins C
      { pendingHeaders := [alphaEighth.header, alphaNinth.header] } ⟨l, storage⟩ ds l₂ := by
  obtain ⟨l, l₁, l₂, hl, hlength, hadd, hadd'⟩ := alphaNinth_added
  obtain ⟨payload, hcarries⟩ := delivery_exists (B := builtins) (alphaBlock_plain (by decide +kernel) _ _) rfl hadd
  obtain ⟨payload', hcarries'⟩ := delivery_exists (B := builtins) (alphaBlock_plain (by decide +kernel) _ _) rfl hadd'
  have hall : ∀ d ∈ [(⟨{ now := 1704072000 }, payload, alphaEighth⟩ : Delivery), ⟨{ now := 1704072600 }, payload', alphaNinth⟩],
      d.Carries builtins := by
    intro d hd
    rcases List.mem_pair.mp hd with rfl | rfl
    · exact hcarries _
    · exact hcarries' _
  have hvalid : run (Delivery.added builtins.toPrimitives) l
      [⟨{ now := 1704072000 }, payload, alphaEighth⟩, ⟨{ now := 1704072600 }, payload', alphaNinth⟩] = .ok l₂ :=
    (run_cons_ok _).mpr ⟨l₁, hadd, (run_cons_ok _).mpr ⟨l₂, hadd', rfl⟩⟩
  refine ⟨l, l₂, _, hl, rfl, hall, hvalid, fun C storage h => ?_⟩
  obtain ⟨-, -, files, hdeliver, -⟩ := h
  obtain ⟨⟨-, hheights⟩, -⟩ := (deliver_iff (s := ⟨l, storage⟩) rfl rfl hall hvalid).mp hdeliver
  rw [hlength] at hheights
  have hbeyond : ¬ ((0 = 0 ∧ 2 = 1) ∨ 8 + 0 + 2 * (2 - 1) < DIFFICULTY_RETARGET_INTERVAL) := by decide
  exact hbeyond hheights

end ChainBreaker
