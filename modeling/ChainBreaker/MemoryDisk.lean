import ChainBreaker.Acceptance
import ChainBreaker.BlockDelivery
import ChainBreaker.BlockResponses
import ChainBreaker.BranchRuns
import ChainBreaker.Lib.WriteBehind

/-!
# Memory and disk

The sync engine and the relay engine share a ledger and a store. A block goes into the
ledger first; the sync engine writes the blocks of a batch after the last of them, the
relay engine each at once. What a store then has is what a log has that is written
behind (`Mirrors.run`): no block that the ledger lacks, none twice, the blocks of the
ledger in their order as long as the relay engine stays out of a batch, and all of
them as long as no batch is given up (`memory_disk`).
-/

namespace ChainBreaker

open Fallible FileSteps

/-! ## The node -/

structure NodeState (τ : Type) where
  sync : SyncEngine := {}
  relay : RelayEngine τ := {}
  node : Node

/-- A call of one of the engines. -/
inductive NodeCall (τ : Type) where
  | startHeaderSync
  | handleHeaders (payload : Bytes)
  | nextBlockRequest
  | syncBlock (S : Surroundings) (payload : Bytes)
  | reset
  | relayBlock (S : Nat → EntrySurroundings) (peerId : Str) (payload : Bytes) (now : τ)
  /-- any call that changes the relay engine only -/
  | relayOther (relay : RelayEngine τ)

section
variable {τ : Type} (B : Builtins) (C : StoreConfig) (L : RelayLimitPolicy τ)

def NodeCall.after (p : NodeState τ) : NodeCall τ → NodeState τ
  | .startHeaderSync => { p with sync := (p.sync.startHeaderSync B p.node).2 }
  | .handleHeaders payload => { p with sync := (p.sync.handleHeaders B p.node payload).2 }
  | .nextBlockRequest => p
  | .syncBlock S payload =>
    { p with sync := (p.sync.handleBlock B C S p.node payload).2.1,
             node := (p.sync.handleBlock B C S p.node payload).2.2 }
  | .reset => { p with sync := p.sync.reset }
  | .relayBlock S peerId payload now =>
    { p with relay := (p.relay.handleBlock B C L S peerId payload now p.node).2.1,
             node := (p.relay.handleBlock B C L S peerId payload now p.node).2.2 }
  | .relayOther relay => { p with relay := relay }

def NodeCall.afterAll (p : NodeState τ) (calls : List (NodeCall τ)) : NodeState τ := calls.foldl (NodeCall.after B C L) p

/-- What the relay engine answers to the entries of a BLOCK message, up to one that raises. -/
def NodeState.relayResults (p : NodeState τ) (S : Nat → EntrySurroundings) (peerId : Str) (payload : Bytes) (now : τ) :
    List RelayResult :=
  match RelayEngine.blockEntries B L payload with
  | .ok (some entries) => (p.relay.handleEntries B C L S peerId now p.node entries).1
  | _ => []

/-- The relay engine stays out of the batches of the sync engine. -/
def NodeCall.InTurn (p : NodeState τ) : NodeCall τ → Prop
  | .relayBlock _ _ _ _ => p.sync.pendingBlocks = []
  | _ => True

/-- No batch is given up, and the store takes what it is given. -/
def NodeCall.Keeps (p : NodeState τ) : NodeCall τ → Prop
  | .syncBlock S payload =>
    ∀ exc, (p.sync.handleBlock B C S p.node payload).1 = .error exc → exc.kind ≠ .syncStorageError
  | .reset => p.sync.pendingBlocks = []
  | .relayBlock S peerId payload now =>
    ∀ hash reason, .storageError hash reason ∉ p.relayResults B C L S peerId payload now
  | _ => True

/-- Each call of the run, in the state it is made in. -/
def NodeCall.Always (P : NodeState τ → NodeCall τ → Prop) : NodeState τ → List (NodeCall τ) → Prop
  | _, [] => True
  | p, call :: calls => P p call ∧ Always P (call.after B C L p) calls

/-- The blocks of the ledger above genesis that are neither on disk nor pending. -/
def NodeState.behind (p : NodeState τ) : Except PyErr Int := do
  let tip ← getTip C p.node.storage
  .ok (p.node.ledger.height - tip.height - p.sync.pendingBlocks.length)

end

/-- The blocks that are read from the store. -/
structure OnDisk (M : Runtime) (C : StoreConfig) (files : StoreFiles) (blocks : List BlockV2) : Prop where
  tip : ∃ head, getTip C files = .ok head ∧ head.height = blocks.length
  block : ∀ i b, blocks[i]? = some b → ∃ block, readBlock M files (i + 1) = .ok block ∧
    block.header = b.header.canonical ∧ block.hash M.toPrimitives = b.hash M.toPrimitives ∧
    loads M.floatOf (dumpsText M.floatRepr (.list b.transactions)) = .ok (.list block.transactions)

/-! ## The log behind it -/

/-- The node is at a log that is written behind. -/
structure Mirrors {τ : Type} (M : Runtime) (C : StoreConfig) (p : NodeState τ) (g : AnyBlock) (w : WriteBehind BlockV2)
    (t : Tape (KeptBlock M)) : Prop where
  memory : p.node.ledger.chain = g :: w.memory.map AnyBlock.v2
  waiting : p.sync.pendingBlocks = w.waiting
  written : t.current.map KeptBlock.block = w.written
  disk : Below M C p.node.storage t

section
variable {τ : Type} {B : Builtins} {C : StoreConfig} {L : RelayLimitPolicy τ} {p : NodeState τ} {g : AnyBlock}
  {w : WriteBehind BlockV2} {t : Tape (KeptBlock B.toRuntime)}

theorem Mirrors.onDisk (hfl : FloatText B.floatRepr) (h : Mirrors B.toRuntime C p g w t) :
    OnDisk B.toRuntime C p.node.storage w.written := by
  refine ⟨⟨_, h.disk.head, ?_⟩, fun i b hb => ?_⟩
  · rw [← h.written, List.length_map, Tape.length_current]
    rfl
  · rw [← h.written, List.getElem?_map, Option.map_eq_some_iff] at hb
    obtain ⟨k, hk, rfl⟩ := hb
    have hi : i < t.tip := by
      rw [← Tape.length_current]
      exact (List.getElem?_eq_some_iff.mp hk).1
    rw [Tape.getElem?_current hi] at hk
    obtain ⟨block, hblock, hback⟩ := (h.disk.kept i hi).readBlock hfl hk
    exact ⟨block, hblock, hback.header, hback.hash.trans k.hash_eq.symm, hback.transactions⟩

theorem Mirrors.behind_eq (h : Mirrors B.toRuntime C p g w t) (hw : w.Contained) :
    p.behind C = .ok (w.missing : Int) := by
  have htip : (headOf C t).height = w.written.length := by
    rw [← h.written, List.length_map, Tape.length_current]
    rfl
  have hlength := hw.length_le
  rw [NodeState.behind, h.disk.head, ok_bind, htip, h.waiting, Ledger.height, h.memory]
  simp only [WriteBehind.missing, List.length_cons, List.length_map, List.length_append] at hlength ⊢
  congr 1
  omega

/-! ## Appending to the store -/

/-- Calls of `append_block` in turn write a part of their blocks, and all of them if none raises. -/
theorem appendAll_below (hC : C.Readable) : ∀ {calls : List (BlockV2 × RegistryState)} {faults : Nat → Option Nat}
    {files : StoreFiles} {t : Tape (KeptBlock B.toRuntime)}, Below B.toRuntime C files t →
    ∃ n t', Below B.toRuntime C (appendAll B C faults files calls).2 t' ∧
      t'.current.map KeptBlock.block = t.current.map KeptBlock.block ++ (calls.map Prod.fst).take n ∧
      ((appendAll B C faults files calls).1 = .ok () → calls.length ≤ n) := by
  intro calls
  induction calls with
  | nil => exact fun h => ⟨0, _, h, (List.append_nil _).symm, fun _ => Nat.le_refl _⟩
  | cons call calls ih =>
    intro faults files t h
    obtain ⟨block, state⟩ := call
    obtain ⟨t₁, hbelow, hmoved⟩ := append_below hC (faults 0) block state h
    rw [appendAll]
    cases happend : appendBlock B.toRuntime C (faults 0) files block state with
    | mk answer files₁ =>
      rw [happend] at hbelow hmoved
      cases answer with
      | error exc =>
        rcases hmoved with ⟨k, hk, rfl⟩ | ⟨rfl, -⟩
        · refine ⟨1, _, hbelow, ?_, by rintro ⟨⟩⟩
          rw [Tape.current_push, List.map_append, List.map_singleton, hk.1]
          rfl
        · exact ⟨0, _, hbelow, (List.append_nil _).symm, by rintro ⟨⟩⟩
      | ok state₁ =>
        obtain ⟨k, hk, rfl⟩ | ⟨-, exc, hexc⟩ := hmoved
        · obtain ⟨n, t', hbelow', hwritten, hall⟩ := @ih (fun i => faults (i + 1)) _ _ hbelow
          refine ⟨n + 1, t', hbelow', ?_, fun hok => Nat.succ_le_succ (hall hok)⟩
          rw [hwritten, Tape.current_push, List.map_append, List.map_singleton, hk.1, List.append_assoc]
          rfl
        · cases hexc

theorem commitCalls_blocks {l : Ledger} {calls : List (BlockV2 × RegistryState)} :
    ∀ {blocks : List BlockV2}, commitCalls l blocks = .ok calls → calls.map Prod.fst = blocks
  | [], h => by cases h; rfl
  | b :: bs, h => by
    obtain ⟨state, -, rfl⟩ := (commitCalls_ok (List.cons_ne_nil b bs)).mp h
    rw [List.map_map]
    exact List.map_id _

theorem commitBlocks_below (hC : C.Readable) (S : Surroundings) {s : Node} {t : Tape (KeptBlock B.toRuntime)}
    (h : Below B.toRuntime C s.storage t) (blocks : List BlockV2) :
    ∃ n t', Below B.toRuntime C (commitBlocks B C S s blocks).2 t' ∧
      t'.current.map KeptBlock.block = t.current.map KeptBlock.block ++ blocks.take n ∧
      ((commitBlocks B C S s blocks).1 = .ok () → blocks.length ≤ n) := by
  rw [commitBlocks]
  cases hcalls : commitCalls s.ledger blocks with
  | error exc => exact ⟨0, t, h, (List.append_nil _).symm, nofun⟩
  | ok calls =>
    obtain ⟨n, t', hbelow, hwritten, hall⟩ := @appendAll_below B C hC calls S.faults s.storage t h
    have hblocks := commitCalls_blocks hcalls
    have hlength : calls.length = blocks.length := by rw [← hblocks, List.length_map]
    rw [hblocks] at hwritten
    exact ⟨n, t', hbelow, hwritten, fun hok => hlength ▸ hall hok⟩

/-! ## The calls of the sync engine -/

/-- What `handle_block` can do: the block of the message goes into the ledger, and is pending or
written with the batch, or nothing changes but the engine's state. -/
theorem handleBlock_cases (B : Builtins) (C : StoreConfig) (S : Surroundings) (e : SyncEngine) (s : Node) (payload : Bytes) :
    (∃ answer state, e.handleBlock B C S s payload = (answer, { e with state := state }, s)) ∨
    ∃ block rest ledger, s.ledger.addBlockV2 B.toPrimitives block S.now = .ok (true, ledger) ∧
      (e.handleBlock B C S s payload = (.ok .nextBlock,
          { e with pendingBlocks := e.pendingBlocks ++ [block], pendingHeaders := rest, state := .requestingBlocks },
          { s with ledger := ledger }) ∨
        e.handleBlock B C S s payload = SyncEngine.commit B C S
          { e with pendingBlocks := e.pendingBlocks ++ [block], pendingHeaders := rest, state := .committing }
          { s with ledger := ledger }) := by
  unfold SyncEngine.handleBlock
  split
  · exact .inl ⟨_, e.state, rfl⟩
  · rename_i header rest hpending
    dsimp only
    split
    · exact .inl ⟨_, _, rfl⟩
    · rename_i prevHash hprev
      split
      · split
        · exact .inl ⟨_, _, rfl⟩
        · exact .inl ⟨_, _, rfl⟩
      · rename_i block hblock
        split
        · exact .inl ⟨_, _, rfl⟩
        · rename_i ledger hadd
          obtain rfl := addBlockV2_false hadd
          exact .inl ⟨_, _, rfl⟩
        · rename_i ledger hadd
          refine .inr ⟨block, rest, ledger, hadd, ?_⟩
          split
          · exact .inr rfl
          · exact .inl rfl

theorem commit_cases (B : Builtins) (C : StoreConfig) (S : Surroundings) (e : SyncEngine) (s : Node) : ∃ answer state,
    e.commit B C S s = (answer, { e with state := state, pendingBlocks := [] },
      { s with storage := (commitBlocks B C S s e.pendingBlocks).2 }) ∧
    ((∀ exc, answer = .error exc → exc.kind ≠ .syncStorageError) →
      (commitBlocks B C S s e.pendingBlocks).1 = .ok ()) := by
  unfold SyncEngine.commit
  split
  · rename_i exc files hcommit
    rw [hcommit]
    exact ⟨_, _, rfl, fun hkind => absurd rfl (hkind _ rfl)⟩
  · rename_i files hcommit
    rw [hcommit]
    exact ⟨_, _, rfl, fun _ => rfl⟩

theorem added_memory {l l' : Ledger} {block : BlockV2} {now : Int} {memory : List BlockV2}
    (h : l.addBlockV2 B.toPrimitives block now = .ok (true, l')) (hl : l.chain = g :: memory.map AnyBlock.v2) :
    l'.chain = g :: (memory ++ [block]).map AnyBlock.v2 := by
  obtain ⟨-, s, s', -, rfl⟩ := (addBlockV2_true_iff (chain_ne_of_added h)).mp h
  change l.chain ++ [.v2 block] = _
  rw [hl, List.map_append]
  rfl

/-- One call of the sync engine. -/
theorem Mirrors.syncBlock (hC : C.Readable) (h : Mirrors B.toRuntime C p g w t) (S : Surroundings) (payload : Bytes) :
    ∃ es t', Mirrors B.toRuntime C ((NodeCall.syncBlock S payload).after B C L p) g (w.run es) t' ∧ w.AllInTurn es ∧
      ((NodeCall.syncBlock S payload).Keeps B C L p → w.lostIn es = 0) := by
  rcases handleBlock_cases B C S p.sync p.node payload with
    ⟨answer, state, heq⟩ | ⟨block, rest, ledger, hadd, heq | heq⟩
  · refine ⟨[], t, ?_, trivial, fun _ => rfl⟩
    simp only [NodeCall.after, heq]
    exact ⟨h.memory, h.waiting, h.written, h.disk⟩
  · refine ⟨[.enter block], t, ?_, ⟨trivial, trivial⟩, fun _ => rfl⟩
    simp only [NodeCall.after, heq]
    exact ⟨added_memory hadd h.memory, congrArg (· ++ [block]) h.waiting, h.written, h.disk⟩
  · obtain ⟨answer, state, hcommit, hok⟩ := commit_cases B C S
      { p.sync with pendingBlocks := p.sync.pendingBlocks ++ [block], pendingHeaders := rest, state := .committing }
      { p.node with ledger := ledger }
    obtain ⟨n, t', hbelow, hwritten, hall⟩ := commitBlocks_below hC S (s := { p.node with ledger := ledger }) h.disk
      (p.sync.pendingBlocks ++ [block])
    refine ⟨[.enter block, .flush n], t', ?_, ⟨trivial, trivial, trivial⟩, fun hkeeps => ?_⟩
    · simp only [NodeCall.after, heq, hcommit]
      refine ⟨added_memory hadd h.memory, rfl, ?_, hbelow⟩
      rw [hwritten, h.written, h.waiting]
      rfl
    · have hlength := hall (hok fun exc hexc => hkeeps exc (by rw [heq, hcommit, hexc]))
      change 0 + ((w.waiting ++ [block]).length - n + 0) = 0
      rw [← h.waiting]
      omega

/-! ## The calls of the relay engine -/

theorem storeBlock_below (hC : C.Readable) (fault : Option Nat) {s : Node} (h : Below B.toRuntime C s.storage t)
    (block : BlockV2) : ∃ stored t', Below B.toRuntime C (RelayEngine.storeBlock B C fault s block).2.storage t' ∧
      (RelayEngine.storeBlock B C fault s block).2.ledger = s.ledger ∧
      t'.current.map KeptBlock.block =
        (if stored then t.current.map KeptBlock.block ++ [block] else t.current.map KeptBlock.block) ∧
      ((RelayEngine.storeBlock B C fault s block).1 = .ok () → stored = true) := by
  unfold RelayEngine.storeBlock
  cases s.ledger.stateBelowTip with
  | error exc => exact ⟨false, t, h, rfl, rfl, by rintro ⟨⟩⟩
  | ok previousState =>
    obtain ⟨t', hbelow, ⟨k, hk, rfl⟩ | ⟨rfl, exc, hexc⟩⟩ := append_below hC fault block previousState h
    · refine ⟨true, _, hbelow, rfl, ?_, fun _ => rfl⟩
      rw [Tape.current_push, List.map_append, List.map_singleton, hk.1]
      rfl
    · refine ⟨false, _, hbelow, rfl, rfl, fun hok => ?_⟩
      dsimp only at hok
      rw [hexc] at hok
      cases hok

/-- One entry of a BLOCK message. -/
theorem Mirrors.entry (hC : C.Readable) (h : Mirrors B.toRuntime C p g w t) (S : EntrySurroundings) (peerId : Str)
    (now : τ) (e : RelayEngine τ) (entry : BlockEntry) :
    ∃ es t', Mirrors B.toRuntime C { p with
        relay := (e.handleEntry B C L S peerId now p.node entry).2.1,
        node := (e.handleEntry B C L S peerId now p.node entry).2.2 } g (w.run es) t' ∧
      (w.run es).waiting = w.waiting ∧ (w.waiting = [] → w.AllInTurn es) ∧
      ((∀ hash reason, (e.handleEntry B C L S peerId now p.node entry).1 ≠ .ok (.storageError hash reason)) →
        w.lostIn es = 0) := by
  have hsame : ∀ (relay : RelayEngine τ), Mirrors B.toRuntime C { p with relay := relay } g w t := fun _ =>
    ⟨h.memory, h.waiting, h.written, h.disk⟩
  have hnone : ∀ {relay : RelayEngine τ} {P : Prop}, ∃ es t',
      Mirrors B.toRuntime C { p with relay := relay } g (w.run es) t' ∧ (w.run es).waiting = w.waiting ∧ (w.waiting = [] → w.AllInTurn es) ∧ (P → w.lostIn es = 0) :=
    ⟨[], t, hsame _, rfl, fun _ => trivial, fun _ => rfl⟩
  unfold RelayEngine.handleEntry
  split
  · exact hnone
  · rename_i block hash hdecode
    split
    · exact hnone
    · split
      · exact hnone
      · rename_i cache hhas
        dsimp only
        split
        · exact hnone
        · rename_i ledger hadd
          obtain rfl := addBlockV2_false hadd
          exact hnone
        · rename_i ledger hadd
          obtain ⟨stored, t', hbelow, hledger, hwritten, hall⟩ :=
            storeBlock_below hC S.fault (s := { p.node with ledger := ledger }) h.disk block
          have hmemory := added_memory hadd h.memory
          have hmoved : ∀ relay : RelayEngine τ, Mirrors B.toRuntime C { p with
              relay := relay, node := (RelayEngine.storeBlock B C S.fault { p.node with ledger := ledger } block).2 } g
              (w.run [.through block stored]) t' := fun _ => by
            refine ⟨by rw [hledger]; exact hmemory, h.waiting, ?_, hbelow⟩
            rw [hwritten, h.written]
            rfl
          have hturn : w.waiting = [] → w.AllInTurn [.through block stored] := fun hw => ⟨hw, trivial⟩
          split
          · rename_i exc s' hstore
            rw [hstore] at hmoved
            exact ⟨_, t', hmoved _, rfl, hturn, fun hkeeps => absurd rfl (hkeeps _ _)⟩
          · rename_i s' hstore
            have hlost : w.lostIn [.through block stored] = 0 := by
              rw [hall (by rw [hstore])]
              rfl
            rw [hstore] at hmoved
            split
            · exact ⟨_, t', hmoved _, rfl, hturn, fun _ => hlost⟩
            · exact ⟨_, t', hmoved _, rfl, hturn, fun _ => hlost⟩

/-- The loop over the entries. -/
theorem Mirrors.entries (hC : C.Readable) (peerId : Str) (now : τ) : ∀ (entries : List BlockEntry)
    {S : Nat → EntrySurroundings} {p : NodeState τ} {w : WriteBehind BlockV2} {t : Tape (KeptBlock B.toRuntime)},
    Mirrors B.toRuntime C p g w t →
    ∃ es t', Mirrors B.toRuntime C { p with
        relay := (p.relay.handleEntries B C L S peerId now p.node entries).2.2.1,
        node := (p.relay.handleEntries B C L S peerId now p.node entries).2.2.2 } g (w.run es) t' ∧
      (w.waiting = [] → w.AllInTurn es) ∧
      ((∀ hash reason, .storageError hash reason ∉ (p.relay.handleEntries B C L S peerId now p.node entries).1) →
        w.lostIn es = 0) := by
  intro entries
  induction entries with
  | nil => exact fun h => ⟨[], _, h, fun _ => trivial, fun _ => rfl⟩
  | cons entry entries ih =>
    intro S p w t h
    obtain ⟨es, t₁, hmirrors, hwaiting, hturn, hlost⟩ := h.entry (L := L) hC (S 0) peerId now p.relay entry
    rw [RelayEngine.handleEntries]
    cases hentry : p.relay.handleEntry B C L (S 0) peerId now p.node entry with
    | mk answer rest =>
      obtain ⟨relay, node⟩ := rest
      rw [hentry] at hmirrors hlost
      cases answer with
      | error exc => exact ⟨es, t₁, hmirrors, hturn, fun _ => hlost fun _ _ => by rintro ⟨⟩⟩
      | ok result =>
        obtain ⟨es', t₂, hmirrors', hturn', hlost'⟩ := @ih (fun i => S (i + 1)) _ _ _ hmirrors
        refine ⟨es ++ es', t₂, ?_, fun hw => ?_, fun hkeeps => ?_⟩
        · rw [WriteBehind.run_append]
          exact hmirrors'
        · exact WriteBehind.allInTurn_append.mpr ⟨hturn hw, hturn' (hwaiting.trans hw)⟩
        · rw [WriteBehind.lostIn_append, hlost fun hash reason heq => hkeeps hash reason ?_,
            hlost' fun hash reason hmem => hkeeps hash reason (.tail _ hmem)]
          cases heq
          exact .head _

theorem Mirrors.relayBlock (hC : C.Readable) (h : Mirrors B.toRuntime C p g w t) (S : Nat → EntrySurroundings)
    (peerId : Str) (payload : Bytes) (now : τ) :
    ∃ es t', Mirrors B.toRuntime C ((NodeCall.relayBlock S peerId payload now).after B C L p) g (w.run es) t' ∧
      ((NodeCall.relayBlock S peerId payload now).InTurn p → w.AllInTurn es) ∧
      ((NodeCall.relayBlock S peerId payload now).Keeps B C L p → w.lostIn es = 0) := by
  have hnone : ∃ es t', Mirrors B.toRuntime C p g (w.run es) t' ∧
      ((NodeCall.relayBlock S peerId payload now).InTurn p → w.AllInTurn es) ∧
      ((NodeCall.relayBlock S peerId payload now).Keeps B C L p → w.lostIn es = 0) :=
    ⟨[], t, h, fun _ => trivial, fun _ => rfl⟩
  simp only [NodeCall.after, RelayEngine.handleBlock]
  cases hentries : RelayEngine.blockEntries B L payload with
  | error exc => exact hnone
  | ok entries =>
    cases entries with
    | none => exact hnone
    | some entries =>
      obtain ⟨es, t', hmirrors, hturn, hlost⟩ := h.entries (L := L) hC peerId now entries (S := S)
      refine ⟨es, t', hmirrors, fun hw => hturn (h.waiting.symm.trans hw), fun hkeeps => hlost fun hash reason => ?_⟩
      have hresult := hkeeps hash reason
      rw [NodeState.relayResults, hentries] at hresult
      exact hresult

/-! ## Runs of a node -/

theorem handleHeaders_pending (B : Builtins) (e : SyncEngine) (s : Node) (payload : Bytes) :
    (e.handleHeaders B s payload).2.pendingBlocks = e.pendingBlocks := by
  unfold SyncEngine.handleHeaders
  dsimp only
  repeat' split
  all_goals rfl

/-- **Step.** -/
theorem Mirrors.call (hC : C.Readable) (h : Mirrors B.toRuntime C p g w t) (call : NodeCall τ) :
    ∃ es t', Mirrors B.toRuntime C (call.after B C L p) g (w.run es) t' ∧ (call.InTurn p → w.AllInTurn es) ∧
      (call.Keeps B C L p → w.lostIn es = 0) := by
  cases call with
  | startHeaderSync => exact ⟨[], t, ⟨h.memory, h.waiting, h.written, h.disk⟩, fun _ => trivial, fun _ => rfl⟩
  | handleHeaders payload =>
    refine ⟨[], t, ⟨h.memory, ?_, h.written, h.disk⟩, fun _ => trivial, fun _ => rfl⟩
    exact (handleHeaders_pending B p.sync p.node payload).trans h.waiting
  | nextBlockRequest => exact ⟨[], t, h, fun _ => trivial, fun _ => rfl⟩
  | syncBlock S payload =>
    obtain ⟨es, t', hmirrors, hturn, hlost⟩ := h.syncBlock (L := L) hC S payload
    exact ⟨es, t', hmirrors, fun _ => hturn, hlost⟩
  | reset =>
    refine ⟨[.flush 0], t, ⟨h.memory, rfl, ?_, h.disk⟩, fun _ => ⟨trivial, trivial⟩, fun hkeeps => ?_⟩
    · exact h.written.trans (List.append_nil _).symm
    · change w.waiting.length - 0 + 0 = 0
      rw [← h.waiting, show p.sync.pendingBlocks = [] from hkeeps]
      rfl
  | relayBlock S peerId payload now => exact h.relayBlock hC S peerId payload now
  | relayOther relay => exact ⟨[], t, ⟨h.memory, h.waiting, h.written, h.disk⟩, fun _ => trivial, fun _ => rfl⟩

/-- **Run.** -/
theorem Mirrors.run (hC : C.Readable) : ∀ (calls : List (NodeCall τ)) {p : NodeState τ} {w : WriteBehind BlockV2}
    {t : Tape (KeptBlock B.toRuntime)}, Mirrors B.toRuntime C p g w t →
    ∃ es t', Mirrors B.toRuntime C (NodeCall.afterAll B C L p calls) g (w.run es) t' ∧
      (NodeCall.Always B C L (fun p call => call.InTurn p) p calls → w.AllInTurn es) ∧
      (NodeCall.Always B C L (NodeCall.Keeps B C L) p calls → w.lostIn es = 0) := by
  intro calls
  induction calls with
  | nil => exact fun h => ⟨[], _, h, fun _ => trivial, fun _ => rfl⟩
  | cons call calls ih =>
    intro p w t h
    obtain ⟨es, t₁, hmirrors, hturn, hlost⟩ := h.call (L := L) hC call
    obtain ⟨es', t₂, hmirrors', hturn', hlost'⟩ := ih hmirrors
    refine ⟨es ++ es', t₂, ?_, fun halways => ?_, fun halways => ?_⟩
    · rw [WriteBehind.run_append]
      exact hmirrors'
    · exact WriteBehind.allInTurn_append.mpr ⟨hturn halways.1, hturn' halways.2⟩
    · rw [WriteBehind.lostIn_append, hlost halways.1, hlost' halways.2]

theorem Mirrors.start (B : Builtins) (C : StoreConfig) {s : Node} (hmemory : s.ledger.chain = [g])
    (hstorage : s.storage = ∅) :
    Mirrors B.toRuntime C ({ node := s } : NodeState τ) g {} .empty :=
  ⟨hmemory, rfl, rfl, hstorage ▸ holds_empty.toBelow⟩

theorem alphaLedger_alone : ∃ l, Ledger.init (recorded []) {} = .ok l ∧ (l.chain.length == 1) = true :=
  of_okAnd (by decide +kernel)

end

end ChainBreaker
