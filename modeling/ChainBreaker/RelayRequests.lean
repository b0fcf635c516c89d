import ChainBreaker.MessageCodecs
import ChainBreaker.Relay
import ChainBreaker.Lib.Outstanding
import ChainBreaker.Lib.SecondaryIndex
import ChainBreaker.Lib.Trace
import ChainBreaker.Lib.Window
import Mathlib.Algebra.Order.Ring.Rat

/-!
# Requests of the relay engine

An inventory message makes the engine ask for the blocks it has not seen. A request
goes only when a BLOCK message answers it: no hash is asked for twice before
(`requests_disciplined`), and once the burst is outstanding nothing is asked for at
all. Every part of the engine keeps its bound over every run (`engine_bounded`), and
the rate check is exact for calls in the order of their times (`inventory_rate_exact`).
-/

namespace ChainBreaker

open Fallible Outstanding SecondaryIndex Window

/-! ## The engine -/

/-- The limits that requests and orphans read. -/
structure RequestLimits extends RelayLimitPolicy ℚ where
  maxInvPerPeerPerMinute : Int := 60
  maxGetBlockBurst : Int := 16
  maxBlockBytesTotal : Int := 2000000
  maxOrphanBlocks : Int := 1024
  orphanMaxAgeSeconds : ℚ := 7200

structure InventoryEngine extends RelayEngine ℚ where
  peerInvTimestamps : List (Str × List ℚ) := []

inductive InvReply where
  | ignored
  | rateLimited
  | requested (hashes : List Str)

/-- A GET_BLOCK message to a peer. -/
structure BlockRequest where
  peerId : Str
  payload : Bytes

/-- `_check_rate`. -/
def checkRate (buckets : List (Str × List ℚ)) (peerId : Str) (limitPerMinute : Int) (now : ℚ) :
    Bool × List (Str × List ℚ) :=
  let window := ((buckets.lookup peerId).getD []).dropWhile fun t => t < now - 60
  if limitPerMinute ≤ window.length then (false, put peerId window buckets)
  else (true, put peerId (window ++ [now]) buckets)

section
variable (B : Builtins) (L : RequestLimits)

/-- The loop of `handle_inv`: the hashes that are asked for. -/
def RelayEngine.requestHashes (peerId : Str) (now : ℚ) (e : RelayEngine ℚ) : List Str → List Str × RelayEngine ℚ
  | [] => ([], e)
  | blockHash :: hashes =>
    match e.seenCache.has L.toRelayLimitPolicy blockHash now with
    | (true, cache) => RelayEngine.requestHashes peerId now { e with seenCache := cache } hashes
    | (false, cache) =>
      let e := { e with seenCache := cache }
      if L.maxGetBlockBurst ≤ e.pendingRequests.length then ([], e)
      else if (e.pendingRequests.lookup blockHash).isSome then RelayEngine.requestHashes peerId now e hashes
      else
        let state : RequestState ℚ := { blockHash := blockHash, peerId := peerId, timestamp := now }
        let e := { e with pendingRequests := e.pendingRequests ++ [(blockHash, state)] }
        let (requested, e) := RelayEngine.requestHashes peerId now e hashes
        (blockHash :: requested, e)

/-- `next_get_block_requests`. -/
def RelayEngine.nextGetBlockRequests (e : RelayEngine ℚ) : Except PyErr (List BlockRequest) :=
  collect (fun f => do
    let payload ← (GetBlockMessage.mk [f.2.blockHash] L.maxBlockBytesTotal).toPayload B.toPrimitives
    .ok ⟨f.2.peerId, payload⟩) e.pendingRequests

def RelayEngine.addOrphan (e : RelayEngine ℚ) (block : BlockV2) (now : ℚ) : Except PyErr Unit × RelayEngine ℚ :=
  if L.maxOrphanBlocks ≤ e.orphans.length ∧ e.orphans.isEmpty then (raise .keyError "dictionary is empty" [], e)
  else
    let orphans := if L.maxOrphanBlocks ≤ e.orphans.length then e.orphans.tail else e.orphans
    let orphans := orphans.filter fun f => ! decide (L.orphanMaxAgeSeconds < now - f.2.2)
    match block.hash B.toPrimitives with
    | .error exc => (.error exc, { e with orphans := orphans })
    | .ok hash => (.ok (), { e with orphans := put hash (block, now) orphans })

namespace InventoryEngine

def handleInv (e : InventoryEngine) (peerId : Str) (payload : Bytes) (now : ℚ) :
    Except PyErr InvReply × InventoryEngine :=
  match InventoryMessage.fromPayload B payload with
  | .error exc => (.error exc, e)
  | .ok msg =>
    if msg.invType ≠ str "blocks" then (.ok .ignored, e)
    else
      match checkRate e.peerInvTimestamps peerId L.maxInvPerPeerPerMinute now with
      | (false, buckets) => (.ok .rateLimited, { e with peerInvTimestamps := buckets })
      | (true, buckets) =>
        let (requested, engine) := e.toRelayEngine.requestHashes L peerId now msg.hashes
        (.ok (.requested requested), { toRelayEngine := engine, peerInvTimestamps := buckets })

end InventoryEngine

end

/-! ## Runs -/

inductive EngineCall where
  | relay (call : RelayCall ℚ)
  | handleInv (peerId : Str) (payload : Bytes) (now : ℚ)
  | addOrphan (block : BlockV2) (now : ℚ)

/-- The hash whose request a result takes away. -/
def RelayResult.answered : RelayResult → Option Str
  | .hashMismatch _ => none
  | .duplicate hash | .consensusRejected hash | .storageError hash _ | .accepted hash => some hash

section
variable (B : Builtins) (C : StoreConfig) (L : RequestLimits)

/-- The hashes a call answers: of a BLOCK message also those before an entry that raises. -/
def RelayCall.answers {τ : Type} (L : RelayLimitPolicy τ) (p : RelayEngine τ × Node) : RelayCall τ → List Str
  | .handleBlock S peerId payload now =>
    match RelayEngine.blockEntries B L payload with
    | .ok (some entries) => (p.1.handleEntries B C L S peerId now p.2 entries).1.filterMap RelayResult.answered
    | _ => []
  | _ => []

namespace EngineCall

def after (p : InventoryEngine × Node) : EngineCall → InventoryEngine × Node
  | .relay call =>
    let (engine, s) := call.after B C L.toRelayLimitPolicy (p.1.toRelayEngine, p.2)
    ({ p.1 with toRelayEngine := engine }, s)
  | .handleInv peerId payload now => ((p.1.handleInv B L peerId payload now).2, p.2)
  | .addOrphan block now => ({ p.1 with toRelayEngine := (p.1.toRelayEngine.addOrphan B L block now).2 }, p.2)

def afterAll (p : InventoryEngine × Node) (calls : List EngineCall) : InventoryEngine × Node :=
  calls.foldl (after B C L) p

/-- What the call asks for and what it answers. -/
def events (p : InventoryEngine × Node) : EngineCall → List (Event Str)
  | .relay call => (call.answers B C L.toRelayLimitPolicy (p.1.toRelayEngine, p.2)).map .settled
  | .handleInv peerId payload now =>
    match (p.1.handleInv B L peerId payload now).1 with
    | .ok (.requested hashes) => hashes.map .asked
    | _ => []
  | .addOrphan _ _ => []

/-- The time of an inventory of the peer that passes the rate check. -/
def letThrough (peer : Str) (p : InventoryEngine × Node) : EngineCall → List ℚ
  | .handleInv peerId payload now =>
    match (p.1.handleInv B L peerId payload now).1 with
    | .ok (.requested _) => if peerId = peer then [now] else []
    | _ => []
  | _ => []

/-- The times of the inventories of a run. -/
def invTimes (calls : List EngineCall) : List ℚ := calls.filterMap fun | .handleInv _ _ now => some now | _ => none

end EngineCall

def requestLog (p : InventoryEngine × Node) (calls : List EngineCall) : List (Event Str) :=
  Trace.collect (EngineCall.after B C L) (EngineCall.events B C L) p calls

/-- The times at which inventories of the peer passed in a run. -/
def passed (peer : Str) (p : InventoryEngine × Node) (calls : List EngineCall) : List ℚ :=
  Trace.collect (EngineCall.after B C L) (EngineCall.letThrough B L peer) p calls

end

/-! ## What the engine's own calls leave -/

section
variable {τ : Type}

/-- Distinct hashes, and no more than the cache may hold. -/
structure RelaySeenCache.Kept (L : RelayLimitPolicy τ) (cache : RelaySeenCache τ) : Prop where
  nodup : (cache.map Prod.fst).Nodup
  length : (cache.length : Int) ≤ max 0 L.seenCacheSize

variable {L : RelayLimitPolicy τ} {cache cache' : RelaySeenCache τ}

namespace RelaySeenCache

theorem Kept.sublist (h : Kept L cache) (hsub : List.Sublist cache' cache) : Kept L cache' :=
  ⟨h.nodup.sublist (hsub.map _), le_trans (Int.ofNat_le.mpr hsub.length_le) h.length⟩

theorem Kept.has (h : Kept L cache) (hash : Str) (now : τ) : Kept L (RelaySeenCache.has L cache hash now).2 := by
  unfold RelaySeenCache.has
  split
  · exact h
  · split
    · exact h.sublist List.filter_sublist
    · exact h

theorem Kept.push (h : Kept L cache) {hash : Str} (hnew : cache.lookup hash = none)
    (hroom : (cache.length : Int) < max 0 L.seenCacheSize) (entry : SeenEntry τ) :
      Kept L (cache ++ [(hash, entry)]) := by
  refine ⟨?_, ?_⟩
  · rw [List.map_append, List.map_singleton]
    exact h.nodup.append (List.nodup_singleton _) (List.disjoint_singleton.mpr (lookup_none_iff.mp hnew))
  · rw [List.length_append, List.length_singleton]
    omega

theorem Kept.add (h : Kept L cache) (hash sourcePeer : Str) (now : τ) :
    Kept L (RelaySeenCache.add L cache hash sourcePeer now).2 := by
  unfold RelaySeenCache.add
  have hlive : Kept L (cache.filter fun f => ! L.expired now f.2.timestamp) := h.sublist List.filter_sublist
  generalize cache.filter (fun f => ! L.expired now f.2.timestamp) = live at hlive ⊢
  dsimp only
  split
  · exact hlive
  · rename_i hsome
    have hnew : live.lookup hash = none := Option.not_isSome_iff_eq_none.mp hsome
    have hbound := hlive.length
    split
    · cases live with
      | nil => exact hlive
      | cons first later =>
        have hlater : Kept L later := hlive.sublist (List.sublist_cons_self _ _)
        refine hlater.push ?_ ?_ _
        · exact lookup_none_iff.mpr fun hmem => lookup_none_iff.mp hnew (List.mem_cons_of_mem _ hmem)
        · rw [List.length_cons] at hbound
          omega
    · exact hlive.push hnew (by omega) _

end RelaySeenCache

/-- The requests of the answered hashes go, orphans only go, and the cache keeps its bound. -/
structure Relayed (L : RelayLimitPolicy τ) (answered : List Str) (e e' : RelayEngine τ) : Prop where
  pending : e'.pendingRequests = e.pendingRequests.filter fun f => f.1 ∉ answered
  orphans : e'.orphans.Sublist e.orphans
  seen : e.seenCache.Kept L → e'.seenCache.Kept L

variable {B : Builtins} {C : StoreConfig} {e e' e'' : RelayEngine τ} {s : Node} {as bs : List Str} {hash : Str}

namespace Relayed

theorem refl (L : RelayLimitPolicy τ) (e : RelayEngine τ) : Relayed L [] e e :=
  ⟨(List.filter_eq_self.mpr fun _ _ => rfl).symm, List.Sublist.refl _, id⟩

theorem trans (h : Relayed L as e e') (h' : Relayed L bs e' e'') : Relayed L (as ++ bs) e e'' := by
  refine ⟨?_, h'.orphans.trans h.orphans, h'.seen ∘ h.seen⟩
  rw [h'.pending, h.pending, List.filter_filter]
  exact List.filter_congr fun f _ => by simp [Bool.and_comm]

theorem cached (hseen : e.seenCache.Kept L → cache.Kept L) : Relayed L [] e { e with seenCache := cache } :=
  ⟨(refl L e).pending, List.Sublist.refl _, hseen⟩

theorem popped (L : RelayLimitPolicy τ) (e : RelayEngine τ) (hash : Str) : Relayed L [hash] e (e.popRequest hash) :=
  ⟨List.filter_congr fun f _ => by simp [bne, beq_eq_decide], List.Sublist.refl _, id⟩

theorem queued (L : RelayLimitPolicy τ) (e : RelayEngine τ) (hashes : List Str) :
    Relayed L [] e { e with localBlocksToAnnounce := hashes } := ⟨(refl L e).pending, List.Sublist.refl _, id⟩

theorem connected (L : RelayLimitPolicy τ) (e : RelayEngine τ) (hash : Str) :
    Relayed L [] e (e.tryConnectOrphans hash) :=
  ⟨(refl L e).pending, List.filter_sublist, id⟩

end Relayed

/-- The hash that the outcome of an entry answers. -/
def answeredBy : Except PyErr RelayResult → List Str
  | .ok result => result.answered.toList
  | .error _ => []

theorem handleEntry_relayed (S : EntrySurroundings) (peerId : Str) (now : τ) (entry : BlockEntry) :
    Relayed L (answeredBy (e.handleEntry B C L S peerId now s entry).1) e
    (e.handleEntry B C L S peerId now s entry).2.1 := by
  unfold RelayEngine.handleEntry
  cases decodeBlock B entry.blockBytes >>= fun block => (block.hash B.toPrimitives).map fun hash => (block, hash) with
  | error exc => exact Relayed.refl L e
  | ok decoded =>
    obtain ⟨block, hash⟩ := decoded
    dsimp only
    by_cases hhash : hash = entry.hash
    · rw [if_neg (not_not.mpr hhash)]
      have hcached := @Relayed.cached τ L (e.seenCache.has L hash now).2 e fun h => h.has hash now
      cases hhas : e.seenCache.has L hash now with
      | mk seen cache =>
        rw [hhas] at hcached
        cases seen with
        | true => exact hcached.trans (Relayed.popped L _ hash)
        | false =>
          dsimp only
          cases s.ledger.addBlockV2 B.toPrimitives block S.wall with
          | error exc => exact hcached
          | ok added =>
            obtain ⟨accepted, ledger⟩ := added
            cases accepted with
            | false => exact hcached.trans (Relayed.popped L _ hash)
            | true =>
              dsimp only
              cases RelayEngine.storeBlock B C S.fault { s with ledger := ledger } block with
              | mk stored s' =>
                cases stored with
                | error exc => exact hcached.trans (Relayed.popped L _ hash)
                | ok _ =>
                  have hadded := hcached.trans (@Relayed.cached τ L (cache.add L hash peerId now).2
                    { e with seenCache := cache }
                    fun h => h.add hash peerId now)
                  dsimp only
                  cases hadd : cache.add L hash peerId now with
                  | mk answer cache' =>
                    rw [hadd] at hadded
                    cases answer with
                    | error exc => exact hadded
                    | ok _ =>
                      exact ((hadded.trans (Relayed.popped L _ hash)).trans (Relayed.queued L _ _)).trans
                        (Relayed.connected L _ hash)
    · rw [if_pos hhash]
      exact Relayed.refl L e

theorem handleEntries_relayed (peerId : Str) (now : τ) : ∀ {entries : List BlockEntry} {S : Nat → EntrySurroundings}
    {e : RelayEngine τ} {s : Node},
    Relayed L ((e.handleEntries B C L S peerId now s entries).1.filterMap RelayResult.answered)
      e (e.handleEntries B C L S peerId now s entries).2.2.1
  | [], _, e, _ => Relayed.refl L e
  | entry :: entries, S, e, s => by
    have hfirst := @handleEntry_relayed τ L B C e s (S 0) peerId now entry
    unfold RelayEngine.handleEntries
    cases hentry : e.handleEntry B C L (S 0) peerId now s entry with
    | mk answer rest =>
      obtain ⟨e', s'⟩ := rest
      rw [hentry] at hfirst
      cases answer with
      | error exc => exact hfirst
      | ok result =>
        have hall := hfirst.trans (@handleEntries_relayed peerId now entries (fun i => S (i + 1)) e' s')
        dsimp only [answeredBy] at hall ⊢
        cases hresult : result.answered <;> simpa [hresult] using hall

theorem onLocalBlock_relayed (block : BlockV2) (now later : τ) :
    Relayed L [] e (e.onLocalBlock B L block now later).2 := by
  unfold RelayEngine.onLocalBlock
  cases block.hash B.toPrimitives with
  | error exc => exact Relayed.refl L e
  | ok hash =>
    have hcached := @Relayed.cached τ L (e.seenCache.has L hash now).2 e fun h => h.has hash now
    dsimp only
    cases hhas : e.seenCache.has L hash now with
    | mk seen cache =>
      rw [hhas] at hcached
      cases seen with
      | true => exact hcached
      | false =>
        have hadded := hcached.trans (@Relayed.cached τ L (cache.add L hash (str "local") later).2
          { e with seenCache := cache }
          fun h => h.add hash (str "local") later)
        dsimp only
        cases hadd : cache.add L hash (str "local") later with
        | mk answer cache' =>
          rw [hadd] at hadded
          cases answer with
          | error exc => exact hadded
          | ok _ => exact hadded.trans (Relayed.queued L _ _)

theorem createInvMessage_relayed : Relayed L [] e (e.createInvMessage L none).2 := by
  unfold RelayEngine.createInvMessage RelayEngine.buildAnnouncements
  dsimp only
  split <;> exact Relayed.queued L e []

/-- A call of the relay takes away the requests it answers. -/
theorem after_relayed (p : RelayEngine τ × Node) (call : RelayCall τ) :
    Relayed L (call.answers B C L p) p.1 (call.after B C L p).1 := by
  cases call with
  | onLocalBlock block now later => exact onLocalBlock_relayed block now later
  | handleBlock S peerId payload now =>
    unfold RelayCall.after RelayCall.answers RelayEngine.handleBlock
    dsimp only
    cases RelayEngine.blockEntries B L payload with
    | error exc => exact Relayed.refl L p.1
    | ok entries =>
      cases entries with
      | none => exact Relayed.refl L p.1
      | some entries => exact handleEntries_relayed peerId now
  | createInvMessage peerId => exact createInvMessage_relayed
  | elsewhere s => exact Relayed.refl L p.1

end

/-! ## What an inventory asks for -/

section
variable {B : Builtins} {C : StoreConfig} {L : RequestLimits} {peerId : Str} {now : ℚ}

/-- What the hashes of an inventory add: requests in the order of the message, each for
a hash without one and while there is room for it. -/
structure Requested (L : RequestLimits) (peerId : Str) (now : ℚ) (hashes asked : List Str) (e e' : RelayEngine ℚ) :
    Prop where
  pending : e'.pendingRequests = e.pendingRequests ++ asked.map fun h => (h, ⟨h, peerId, now, 0⟩)
  announced : asked.Sublist hashes
  fresh : ∀ pre h post, asked = pre ++ h :: post → h ∉ e.pendingRequests.map Prod.fst ++ pre ∧
    (e.pendingRequests.length + pre.length : Int) < L.maxGetBlockBurst
  orphans : e'.orphans = e.orphans
  seen : e.seenCache.Kept L.toRelayLimitPolicy → e'.seenCache.Kept L.toRelayLimitPolicy

namespace Requested

variable {e e' : RelayEngine ℚ} {hashes asked : List Str} {blockHash : Str} {cache : RelaySeenCache ℚ}

theorem stop (L : RequestLimits) (peerId : Str) (now : ℚ) (hashes : List Str) (e : RelayEngine ℚ) :
    Requested L peerId now hashes [] e e := by
  refine ⟨(List.append_nil _).symm, List.nil_sublist _, fun pre h post heq => ?_, rfl, id⟩
  cases pre <;> cases heq

theorem skip (h : Requested L peerId now hashes asked e e') (blockHash : Str) :
    Requested L peerId now (blockHash :: hashes) asked e e' := { h with announced := h.announced.cons _ }

theorem cached (hseen : e.seenCache.Kept L.toRelayLimitPolicy → cache.Kept L.toRelayLimitPolicy)
    (h : Requested L peerId now hashes asked { e with seenCache := cache } e') :
      Requested L peerId now hashes asked e e' :=
  { h with seen := h.seen ∘ hseen }

theorem ask (hnew : e.pendingRequests.lookup blockHash = none)
    (hroom : (e.pendingRequests.length : Int) < L.maxGetBlockBurst) (h : Requested L peerId now hashes asked
      { e with pendingRequests := e.pendingRequests ++ [(blockHash, ⟨blockHash, peerId, now, 0⟩)] } e') :
    Requested L peerId now (blockHash :: hashes) (blockHash :: asked) e e' := by
  refine ⟨?_, h.announced.cons_cons _, ?_, h.orphans, h.seen⟩
  · rw [h.pending, List.append_assoc]
    rfl
  · intro pre k post heq
    cases pre with
    | nil =>
      obtain ⟨rfl, rfl⟩ := List.cons.inj heq
      refine ⟨?_, by simpa using hroom⟩
      rw [List.append_nil]
      exact lookup_none_iff.mp hnew
    | cons first pre =>
      obtain ⟨rfl, rfl⟩ := List.cons.inj heq
      obtain ⟨hfresh, hlt⟩ := h.fresh pre k post rfl
      simp only [List.map_append, List.map_cons, List.map_nil, List.append_assoc, List.length_append, List.length_cons,
        List.length_nil] at hfresh hlt ⊢
      refine ⟨hfresh, ?_⟩
      push_cast at hlt ⊢
      omega

end Requested

theorem requestHashes_requested : ∀ {hashes : List Str} {e : RelayEngine ℚ},
    Requested L peerId now hashes (e.requestHashes L peerId now hashes).1 e (e.requestHashes L peerId now hashes).2
  | [], e => Requested.stop L peerId now [] e
  | blockHash :: hashes, e => by
    have hkept := fun h : e.seenCache.Kept L.toRelayLimitPolicy => h.has blockHash now
    rw [RelayEngine.requestHashes]
    cases hhas : e.seenCache.has L.toRelayLimitPolicy blockHash now with
    | mk seen cache =>
      rw [hhas] at hkept
      cases seen with
      | true => exact Requested.cached hkept (requestHashes_requested.skip blockHash)
      | false =>
        dsimp only
        split
        · exact Requested.cached hkept (Requested.stop L peerId now _ _)
        · rename_i hroom
          split
          · exact Requested.cached hkept (requestHashes_requested.skip blockHash)
          · rename_i hnew
            refine Requested.cached hkept (Requested.ask ?_ (by simpa using hroom) requestHashes_requested)
            exact Option.not_isSome_iff_eq_none.mp hnew

/-- What an inventory does to the rest of the engine. -/
theorem handleInv_cases (B : Builtins) (L : RequestLimits) (e : InventoryEngine) (peerId : Str) (payload : Bytes)
    (now : ℚ) :
    (∃ exc, InventoryMessage.fromPayload B payload = .error exc ∧
      e.handleInv B L peerId payload now = (.error exc, e)) ∨
    (∃ msg, InventoryMessage.fromPayload B payload = .ok msg ∧ msg.invType ≠ str "blocks" ∧
      e.handleInv B L peerId payload now = (.ok .ignored, e)) ∨
    ∃ msg buckets, InventoryMessage.fromPayload B payload = .ok msg ∧ msg.invType = str "blocks" ∧
      ((checkRate e.peerInvTimestamps peerId L.maxInvPerPeerPerMinute now = (false, buckets) ∧
        e.handleInv B L peerId payload now = (.ok .rateLimited, { e with peerInvTimestamps := buckets })) ∨
      checkRate e.peerInvTimestamps peerId L.maxInvPerPeerPerMinute now = (true, buckets) ∧ ∃ asked engine,
        Requested L peerId now msg.hashes asked e.toRelayEngine engine ∧
        e.handleInv B L peerId payload now = (.ok (.requested asked), ⟨engine, buckets⟩)) := by
  unfold InventoryEngine.handleInv
  cases hmsg : InventoryMessage.fromPayload B payload with
  | error exc => exact .inl ⟨exc, rfl, rfl⟩
  | ok msg =>
    dsimp only
    by_cases htype : msg.invType = str "blocks"
    · rw [if_neg (not_not.mpr htype)]
      refine .inr (.inr ⟨msg, (checkRate e.peerInvTimestamps peerId L.maxInvPerPeerPerMinute now).2, rfl, htype, ?_⟩)
      cases hrate : checkRate e.peerInvTimestamps peerId L.maxInvPerPeerPerMinute now with
      | mk granted buckets =>
        cases granted with
        | false => exact .inl ⟨rfl, rfl⟩
        | true => exact .inr ⟨rfl, _, _, requestHashes_requested, rfl⟩
    · rw [if_pos htype]
      exact .inr (.inl ⟨msg, rfl, htype, rfl⟩)

/-! ## Asked and answered -/

/-- The keys of the requests. -/
def RelayEngine.outstanding {τ : Type} (e : RelayEngine τ) : List Str := e.pendingRequests.map Prod.fst

/-- A call changes the requests by its events, and asks only for hashes without a
request and within the burst. -/
theorem after_events (p : InventoryEngine × Node) (call : EngineCall) :
    (call.after B C L p).1.outstanding = (call.events B C L p).foldl Outstanding.step p.1.outstanding ∧
    ∀ log : List (Event Str), Outstanding.outstanding log = p.1.outstanding → Disciplined L.maxGetBlockBurst log →
      Disciplined L.maxGetBlockBurst (log ++ call.events B C L p) := by
  cases call with
  | relay call =>
    have h := after_relayed (B := B) (C := C) (L := L.toRelayLimitPolicy) (p.1.toRelayEngine, p.2) call
    refine ⟨?_, fun log _ hlog => hlog.append_settled _⟩
    change List.map Prod.fst (call.after B C L.toRelayLimitPolicy (p.1.toRelayEngine, p.2)).1.pendingRequests = _
    rw [h.pending, EngineCall.events, foldl_settled, RelayEngine.outstanding, List.filter_map]
    exact congrArg _ (List.filter_congr fun f _ => by simp)
  | handleInv peerId payload now =>
    rw [EngineCall.after, EngineCall.events]
    obtain ⟨exc, -, heq⟩ | ⟨msg, -, -, heq⟩ | ⟨msg, buckets, -, -, ⟨-, heq⟩ | ⟨-, asked, engine, hasked, heq⟩⟩ :=
      handleInv_cases B L p.1 peerId payload now
    · exact ⟨by rw [heq]; rfl, fun log _ hlog => by rw [heq, List.append_nil]; exact hlog⟩
    · exact ⟨by rw [heq]; rfl, fun log _ hlog => by rw [heq, List.append_nil]; exact hlog⟩
    · exact ⟨by rw [heq]; rfl, fun log _ hlog => by rw [heq, List.append_nil]; exact hlog⟩
    · rw [heq]
      constructor
      · dsimp only
        rw [foldl_asked, RelayEngine.outstanding, hasked.pending, List.map_append, List.map_map]
        exact congrArg _ (List.map_id' asked)
      · intro log hopen hlog
        refine hlog.append_asked fun pre h post hpost => ?_
        obtain ⟨hfresh, hlt⟩ := hasked.fresh pre h post hpost
        rw [hopen, RelayEngine.outstanding, List.length_map]
        exact ⟨hfresh, hlt⟩
  | addOrphan block now =>
    refine ⟨?_, fun log _ hlog => by rw [EngineCall.events, List.append_nil]; exact hlog⟩
    rw [EngineCall.after, EngineCall.events, List.foldl_nil, RelayEngine.addOrphan]
    split
    · rfl
    · dsimp only
      split <;> rfl

/-- **Nothing is asked for twice** before it is answered, and never more than the burst:
over every run of a new engine the requests are those asked for and not answered. -/
theorem requests_disciplined (B : Builtins) (C : StoreConfig) (L : RequestLimits) (s : Node) (calls : List EngineCall) :
    Outstanding.outstanding (requestLog B C L ({}, s) calls) = (EngineCall.afterAll B C L ({}, s) calls).1.outstanding ∧
    Disciplined L.maxGetBlockBurst (requestLog B C L ({}, s) calls) := by
  induction calls using List.reverseRecOn with
  | nil => exact ⟨rfl, Disciplined.start⟩
  | append_singleton calls call ih =>
    obtain ⟨hopen, hlog⟩ := ih
    obtain ⟨hafter, hnext⟩ := after_events (B := B) (C := C) (L := L) (EngineCall.afterAll B C L ({}, s) calls) call
    rw [requestLog, Trace.collect_snoc, EngineCall.afterAll, Trace.foldl_snoc]
    refine ⟨?_, hnext _ hopen hlog⟩
    rw [Outstanding.outstanding, List.foldl_append]
    change ((call.events B C L _).foldl Outstanding.step (Outstanding.outstanding (requestLog B C L ({}, s) calls))) = _
    rw [hopen]
    exact hafter.symm

/-- **No hash is asked for a second time** before its first request is answered; the
requests outnumber the answers by the outstanding ones, which are no more than the burst. -/
theorem requests_answered_first (B : Builtins) (C : StoreConfig) (L : RequestLimits) (s : Node)
    (calls : List EngineCall) :
    (∀ pre h mid post, requestLog B C L ({}, s) calls = pre ++ .asked h :: (mid ++ .asked h :: post) →
    .settled h ∈ mid) ∧
    (askedIn (requestLog B C L ({}, s) calls)).length ≤ (settledIn (requestLog B C L ({}, s) calls)).length +
      (EngineCall.afterAll B C L ({}, s) calls).1.pendingRequests.length ∧
    ((EngineCall.afterAll B C L ({}, s) calls).1.pendingRequests.length : Int) ≤ max 0 L.maxGetBlockBurst := by
  obtain ⟨hopen, hlog⟩ := requests_disciplined B C L s calls
  have hlength : (Outstanding.outstanding (requestLog B C L ({}, s) calls)).length =
      (EngineCall.afterAll B C L ({}, s) calls).1.pendingRequests.length := by
    rw [hopen, RelayEngine.outstanding, List.length_map]
  refine ⟨fun pre h mid post heq => ?_, ?_, ?_⟩
  · rw [heq] at hlog
    exact hlog.settled_between
  · rw [← hlength]
    exact hlog.asked_le
  · rw [← hlength]
    exact hlog.bounded.2

/-- **A full burst stops the engine**: no request runs out of time, so as long as none
of the outstanding hashes is answered, no inventory of any peer is acted on. -/
theorem burst_blocks {s : Node} {calls later : List EngineCall}
    (hfull : L.maxGetBlockBurst ≤ (EngineCall.afterAll B C L ({}, s) calls).1.pendingRequests.length)
    (hnone : ∀ h ∈ (EngineCall.afterAll B C L ({}, s) calls).1.outstanding,
      .settled h ∉ requestLog B C L (EngineCall.afterAll B C L ({}, s) calls) later) :
    askedIn (requestLog B C L (EngineCall.afterAll B C L ({}, s) calls) later) = [] ∧
    ∀ h ∈ (EngineCall.afterAll B C L ({}, s) calls).1.outstanding,
      h ∈ (EngineCall.afterAll B C L ({}, s) (calls ++ later)).1.outstanding := by
  obtain ⟨hopen, -⟩ := requests_disciplined B C L s calls
  obtain ⟨hopen', hlog⟩ := requests_disciplined B C L s (calls ++ later)
  rw [requestLog, Trace.collect_append, ← requestLog] at hopen' hlog
  change Outstanding.outstanding (requestLog B C L ({}, s) calls ++
    requestLog B C L (EngineCall.afterAll B C L ({}, s) calls) later) = _ at hopen'
  change Disciplined L.maxGetBlockBurst (requestLog B C L ({}, s) calls ++
    requestLog B C L (EngineCall.afterAll B C L ({}, s) calls) later) at hlog
  rw [← hopen] at hnone ⊢
  rw [← hopen']
  refine ⟨hlog.full ?_ hnone, fun h hh => stays_outstanding hh (hnone h hh)⟩
  rw [hopen, RelayEngine.outstanding, List.length_map]
  exact hfull

end

/-! ## The rate of inventories -/

section
variable {B : Builtins} {C : StoreConfig} {L : RequestLimits} {buckets : List (Str × List ℚ)} {peer peerId : Str}
  {limit : Int} {now : ℚ} {times : List ℚ}

/-- The times in the bucket of a peer. -/
def bucketOf (buckets : List (Str × List ℚ)) (peer : Str) : List ℚ := (buckets.lookup peer).getD []

theorem bucketOf_put (peerId : Str) (window : List ℚ) (buckets : List (Str × List ℚ)) (peer : Str) :
    bucketOf (put peerId window buckets) peer = if peerId = peer then window else bucketOf buckets peer := by
  rw [bucketOf]
  split
  · rename_i heq
    rw [heq, lookup_put_self, Option.getD_some]
  · rename_i hne
    rw [SecondaryIndex.lookup_put_other (Ne.symm hne), bucketOf]

/-- The check refuses exactly if the last minute is full, and notes what it does not refuse. -/
theorem checkRate_spec (h : Recent 60 now times (bucketOf buckets peerId)) :
    ((checkRate buckets peerId limit now).1 = false ↔ limit ≤ (times.countP fun t => now - 60 ≤ t : Nat)) ∧
    Recent 60 now (times ++ if (checkRate buckets peerId limit now).1 then [now] else [])
      (bucketOf (checkRate buckets peerId limit now).2 peerId) ∧
    ∀ other, other ≠ peerId → bucketOf (checkRate buckets peerId limit now).2 other = bucketOf buckets other := by
  obtain ⟨hpruned, hlength⟩ := h.prune
  unfold checkRate
  dsimp only
  rw [← bucketOf]
  split
  · rename_i hfull
    rw [hlength] at hfull
    refine ⟨iff_of_true rfl hfull, ?_, fun other hother => ?_⟩
    · rw [bucketOf_put, if_pos rfl, if_neg Bool.false_ne_true, List.append_nil]
      exact hpruned
    · rw [bucketOf_put, if_neg (Ne.symm hother)]
  · rename_i hroom
    rw [hlength] at hroom
    refine ⟨iff_of_false (fun h => Bool.noConfusion h) hroom, ?_, fun other hother => ?_⟩
    · rw [bucketOf_put, if_pos rfl, if_pos rfl]
      exact hpruned.push
    · rw [bucketOf_put, if_neg (Ne.symm hother)]

/-- The buckets hold the last minute of what has passed. -/
def Tracked (e : InventoryEngine) (now : ℚ) (history : Str → List ℚ) : Prop :=
  ∀ peer, Recent 60 now (history peer) (bucketOf e.peerInvTimestamps peer)

theorem relay_buckets (p : InventoryEngine × Node) (call : EngineCall) (hcall : EngineCall.invTimes [call] = []) :
    (call.after B C L p).1.peerInvTimestamps = p.1.peerInvTimestamps ∧ call.letThrough B L peer p = [] := by
  cases call with
  | relay call => exact ⟨rfl, rfl⟩
  | handleInv peerId payload now => cases hcall
  | addOrphan block now => exact ⟨rfl, rfl⟩

/-- One inventory, at a time not before the others. -/
theorem Tracked.handleInv {p : InventoryEngine × Node} {history : Str → List ℚ} (h : Tracked p.1 now history)
    (payload : Bytes) :
    Tracked ((EngineCall.handleInv peerId payload now).after B C L p).1 now (fun peer =>
      history peer ++ (EngineCall.handleInv peerId payload now).letThrough B L peer p) ∧
    (∀ msg, InventoryMessage.fromPayload B payload = .ok msg → msg.invType = str "blocks" →
      ((p.1.handleInv B L peerId payload now).1 = .ok .rateLimited ↔
        L.maxInvPerPeerPerMinute ≤ ((history peerId).countP fun t => now - 60 ≤ t : Nat))) ∧
    ∀ peer, (EngineCall.handleInv peerId payload now).letThrough B L peer p ≠ [] →
      (EngineCall.handleInv peerId payload now).letThrough B L peer p = [now] ∧
      ((history peer).countP fun t => now - 60 ≤ t : Nat) < L.maxInvPerPeerPerMinute := by
  obtain ⟨hexact, hrecent, hother⟩ := @checkRate_spec _ peerId L.maxInvPerPeerPerMinute _ _ (h peerId)
  rw [EngineCall.after]
  simp only [EngineCall.letThrough]
  obtain ⟨exc, hmsg, heq⟩ | ⟨msg, hmsg, htype, heq⟩ | ⟨msg, buckets, hmsg, htype, ⟨hrate, heq⟩ | ⟨hrate, asked,
    engine, -, heq⟩⟩ :=
    handleInv_cases B L p.1 peerId payload now
  · rw [heq]
    refine ⟨fun peer => ?_, fun msg hmsg' => ?_, fun peer hne => absurd rfl hne⟩
    · dsimp only
      rw [List.append_nil]
      exact h peer
    · rw [hmsg] at hmsg'
      cases hmsg'
  · rw [heq]
    refine ⟨fun peer => ?_, fun msg' hmsg' htype' => ?_, fun peer hne => absurd rfl hne⟩
    · dsimp only
      rw [List.append_nil]
      exact h peer
    · rw [hmsg] at hmsg'
      cases hmsg'
      exact absurd htype' htype
  · rw [heq]
    rw [hrate] at hexact hrecent hother
    refine ⟨fun peer => ?_, fun _ _ _ => iff_of_true rfl (hexact.mp rfl), fun peer hne => absurd rfl hne⟩
    dsimp only
    rw [List.append_nil]
    by_cases hpeer : peer = peerId
    · rw [hpeer]
      simpa using hrecent
    · rw [hother peer hpeer]
      exact h peer
  · rw [heq]
    rw [hrate] at hexact hrecent hother
    have hroom : ((history peerId).countP fun t => now - 60 ≤ t : Nat) < L.maxInvPerPeerPerMinute := by
      by_contra hfull
      cases hexact.mpr (not_lt.mp hfull)
    refine ⟨fun peer => ?_, fun _ _ _ => iff_of_false nofun (not_le.mpr hroom), fun peer hne => ?_⟩
    · dsimp only
      by_cases hpeer : peerId = peer
      · rw [if_pos hpeer, ← hpeer]
        simpa using hrecent
      · rw [if_neg hpeer, List.append_nil, hother peer (Ne.symm hpeer)]
        exact h peer
    · dsimp only at hne ⊢
      by_cases hpeer : peerId = peer
      · rw [if_pos hpeer, ← hpeer]
        exact ⟨rfl, hroom⟩
      · rw [if_neg hpeer] at hne
        exact absurd rfl hne

theorem invTimes_snoc (calls : List EngineCall) (call : EngineCall) :
    EngineCall.invTimes (calls ++ [call]) = EngineCall.invTimes calls ++ EngineCall.invTimes [call] :=
    List.filterMap_append

/-- Over a run the buckets hold what has passed, and that keeps to the limit. -/
theorem run_tracked (L : RequestLimits) (s : Node) {calls : List EngineCall}
    (htimes : (EngineCall.invTimes calls).Pairwise (· ≤ ·)) :
    (∀ now, (∀ t ∈ EngineCall.invTimes calls, t ≤ now) →
      Tracked (EngineCall.afterAll B C L ({}, s) calls).1 now (fun peer => passed B C L peer ({}, s) calls)) ∧
    ∀ peer, Capped 60 (max 0 L.maxInvPerPeerPerMinute) (passed B C L peer ({}, s) calls) := by
  induction calls using List.reverseRecOn with
  | nil => exact ⟨fun now _ peer => Recent.start 60 now, fun peer a => le_max_left _ _⟩
  | append_singleton calls call ih =>
    rw [invTimes_snoc] at htimes ⊢
    obtain ⟨hbefore, hcapped⟩ := ih (List.pairwise_append.mp htimes).1
    have hpassed : ∀ peer, passed B C L peer ({}, s) (calls ++ [call]) =
        passed B C L peer ({}, s) calls ++ call.letThrough B L peer (EngineCall.afterAll B C L ({}, s) calls) :=
      fun peer => Trace.collect_snoc calls call
    have hafter : EngineCall.afterAll B C L ({}, s) (calls ++ [call]) = call.after B C L (EngineCall.afterAll B C L ({},
      s) calls) :=
      Trace.foldl_snoc calls call
    simp only [hpassed, hafter]
    generalize EngineCall.afterAll B C L ({}, s) calls = p at hbefore hpassed hafter ⊢
    cases hcall : EngineCall.invTimes [call] with
    | nil =>
      have hsame := fun peer => @relay_buckets B C L peer p call hcall
      rw [List.append_nil]
      refine ⟨fun now hnow peer => ?_, fun peer => ?_⟩
      · dsimp only
        rw [(hsame peer).1, (hsame peer).2, List.append_nil]
        exact hbefore now hnow peer
      · rw [(hsame peer).2, List.append_nil]
        exact hcapped peer
    | cons t rest =>
      obtain ⟨peerId, payload, rfl⟩ : ∃ peerId payload, call = .handleInv peerId payload t := by
        cases call with
        | handleInv peerId payload now =>
          cases hcall
          exact ⟨peerId, payload, rfl⟩
        | relay call => cases hcall
        | addOrphan block now => cases hcall
      have hlast : ∀ u ∈ EngineCall.invTimes calls, u ≤ t := fun u hu =>
        (List.pairwise_append.mp htimes).2.2 u hu t (by rw [hcall]; exact List.mem_cons_self)
      obtain ⟨hnext, -, hroom⟩ := @Tracked.handleInv B C L peerId _ _ _ (hbefore t hlast) payload
      refine ⟨fun now hnow peer => (hnext peer).wait (hnow t ?_), fun peer => ?_⟩
      · exact List.mem_append_right _ List.mem_cons_self
      · by_cases hlet : (EngineCall.handleInv peerId payload t).letThrough B L peer p = []
        · rw [hlet, List.append_nil]
          exact hcapped peer
        · obtain ⟨hone, hlt⟩ := hroom peer hlet
          rw [hone]
          exact (hcapped peer).record (lt_of_lt_of_le hlt (le_max_right _ _))

/-- **The rate check is exact.** Over inventories at nondecreasing times no peer gets
more than the limit through in any minute, and an inventory of blocks is refused
exactly if the limit of them has passed in the minute before it. -/
theorem inventory_rate_exact {s : Node} {calls : List EngineCall}
    (htimes : (EngineCall.invTimes calls).Pairwise (· ≤ ·)) :
    (∀ peer, Capped 60 (max 0 L.maxInvPerPeerPerMinute) (passed B C L peer ({}, s) calls)) ∧
    ∀ pre peerId payload now post msg, calls = pre ++ .handleInv peerId payload now :: post →
      InventoryMessage.fromPayload B payload = .ok msg → msg.invType = str "blocks" →
      (((EngineCall.afterAll B C L ({}, s) pre).1.handleInv B L peerId payload now).1 = .ok .rateLimited ↔
        L.maxInvPerPeerPerMinute ≤ ((passed B C L peerId ({}, s) pre).countP fun t => now - 60 ≤ t : Nat)) := by
  refine ⟨(run_tracked L s htimes).2, ?_⟩
  rintro pre peerId payload now post msg rfl hmsg htype
  rw [EngineCall.invTimes, List.filterMap_append, List.filterMap_cons, ← EngineCall.invTimes,
    ← EngineCall.invTimes] at htimes
  obtain ⟨hpre, -, hcross⟩ := List.pairwise_append.mp htimes
  have hbefore := (run_tracked (B := B) (C := C) L s hpre).1 now fun t ht => hcross t ht now List.mem_cons_self
  exact (@Tracked.handleInv B C L peerId now _ _ hbefore payload).2.1 msg hmsg htype

end

/-! ## The bounds of the engine -/

section
variable {B : Builtins} {C : StoreConfig} {L : RequestLimits}

/-- Every part of the engine but the requests within its limit, and every record under its own hash. -/
structure WithinLimits (B : Builtins) (L : RequestLimits) (e : InventoryEngine) : Prop where
  seen : e.seenCache.Kept L.toRelayLimitPolicy
  orphanHashes : ∀ f ∈ e.orphans, f.2.1.hash B.toPrimitives = .ok f.1
  orphanKeys : (e.orphans.map Prod.fst).Nodup
  orphans : (e.orphans.length : Int) ≤ max 0 L.maxOrphanBlocks
  requests : ∀ f ∈ e.pendingRequests, f.2.blockHash = f.1 ∧ isLowerHash f.1 = true
  buckets : ∀ f ∈ e.peerInvTimestamps, (f.2.length : Int) ≤ max 0 L.maxInvPerPeerPerMinute

namespace WithinLimits

variable {e : InventoryEngine} {engine : RelayEngine ℚ} {buckets : List (Str × List ℚ)} {answered : List Str}

theorem start (B : Builtins) (L : RequestLimits) : WithinLimits B L {} :=
  ⟨⟨List.nodup_nil, le_max_left _ _⟩, nofun, List.nodup_nil, le_max_left _ _, nofun, nofun⟩

theorem relayed (h : WithinLimits B L e) (hstep : Relayed L.toRelayLimitPolicy answered e.toRelayEngine engine) :
    WithinLimits B L { e with toRelayEngine := engine } where
  seen := hstep.seen h.seen
  orphanHashes f hf := h.orphanHashes f (hstep.orphans.subset hf)
  orphanKeys := h.orphanKeys.sublist (hstep.orphans.map _)
  orphans := le_trans (Int.ofNat_le.mpr hstep.orphans.length_le) h.orphans
  requests := by
    intro f hf
    change f ∈ engine.pendingRequests at hf
    rw [hstep.pending] at hf
    exact h.requests f (List.mem_filter.mp hf).1
  buckets := h.buckets

theorem requested {peerId : Str} {now : ℚ} {hashes asked : List Str} (h : WithinLimits B L e)
    (hstep : Requested L peerId now hashes asked e.toRelayEngine engine)
    (hhashes : ∀ x ∈ hashes, isLowerHash x = true) :
    WithinLimits B L { e with toRelayEngine := engine } where
  seen := hstep.seen h.seen
  orphanHashes := by rw [hstep.orphans]; exact h.orphanHashes
  orphanKeys := by rw [hstep.orphans]; exact h.orphanKeys
  orphans := by rw [hstep.orphans]; exact h.orphans
  requests := by
    intro f hf
    change f ∈ engine.pendingRequests at hf
    rw [hstep.pending] at hf
    rcases List.mem_append.mp hf with hf | hf
    · exact h.requests f hf
    · obtain ⟨x, hx, rfl⟩ := List.mem_map.mp hf
      exact ⟨rfl, hhashes x (hstep.announced.subset hx)⟩
  buckets := h.buckets

theorem checked (h : WithinLimits B L e) (peerId : Str) (now : ℚ) : WithinLimits B L
    { e with peerInvTimestamps := (checkRate e.peerInvTimestamps peerId L.maxInvPerPeerPerMinute now).2 } := by
  have hput : ∀ window : List ℚ, (window.length : Int) ≤ max 0 L.maxInvPerPeerPerMinute →
      ∀ f ∈ put peerId window e.peerInvTimestamps, (f.2.length : Int) ≤ max 0 L.maxInvPerPeerPerMinute := by
    intro window hwindow f hf
    rw [put] at hf
    split at hf
    · rcases mem_revise.mp hf with ⟨_, -, rfl⟩ | ⟨hf, -⟩
      · exact hwindow
      · exact h.buckets f hf
    · rcases List.mem_append.mp hf with hf | hf
      · exact h.buckets f hf
      · rw [List.mem_singleton.mp hf]
        exact hwindow
  have hold : ((bucketOf e.peerInvTimestamps peerId).length : Int) ≤ max 0 L.maxInvPerPeerPerMinute := by
    rw [bucketOf]
    cases hlookup : e.peerInvTimestamps.lookup peerId with
    | none => exact le_max_left _ _
    | some window =>
      obtain ⟨before, later, heq, -⟩ := List.lookup_eq_some_iff.mp hlookup
      exact h.buckets (peerId, window) (by rw [heq]; simp)
  have hlive := (List.dropWhile_sublist (fun t => decide (t < now - 60))
    (l := bucketOf e.peerInvTimestamps peerId)).length_le
  refine { h with buckets := ?_ }
  unfold checkRate
  rw [← bucketOf]
  dsimp only
  split
  · exact hput _ (le_trans (Int.ofNat_le.mpr hlive) hold)
  · refine hput _ ?_
    rw [List.length_append, List.length_singleton]
    omega

theorem addOrphan (h : WithinLimits B L e) (block : BlockV2) (now : ℚ) :
    WithinLimits B L { e with toRelayEngine := (e.toRelayEngine.addOrphan B L block now).2 } := by
  have hkept : ∀ orphans : List (Str × BlockV2 × ℚ), orphans.Sublist e.orphans → WithinLimits B L
      { e with orphans := orphans } := fun orphans hsub =>
    { h with
      orphanHashes := fun f hf => h.orphanHashes f (hsub.subset hf)
      orphanKeys := h.orphanKeys.sublist (hsub.map _)
      orphans := le_trans (Int.ofNat_le.mpr hsub.length_le) h.orphans }
  unfold RelayEngine.addOrphan
  split
  · exact h
  · rename_i hroom
    dsimp only
    -- the oldest has gone if there was no room
    have hfewer : ((if L.maxOrphanBlocks ≤ e.orphans.length then e.orphans.tail else e.orphans).length : Int) <
        max 0 L.maxOrphanBlocks := by
      have hbound := h.orphans
      split
      · rename_i hfull
        have hsome : e.orphans ≠ [] := fun hnil => hroom ⟨hfull, by rw [hnil]; rfl⟩
        have hpos := List.length_pos_iff.mpr hsome
        rw [List.length_tail]
        omega
      · omega
    have hsub : (if L.maxOrphanBlocks ≤ e.orphans.length then e.orphans.tail else e.orphans).Sublist e.orphans := by
      split
      · exact List.tail_sublist _
      · exact List.Sublist.refl _
    generalize (if L.maxOrphanBlocks ≤ e.orphans.length then e.orphans.tail else e.orphans) = kept at hfewer hsub ⊢
    have hlive := hkept _
      ((List.filter_sublist (p := fun f => ! decide (L.orphanMaxAgeSeconds < now - f.2.2))).trans hsub)
    have hlength := List.length_filter_le (fun f : Str × BlockV2 × ℚ => ! decide (L.orphanMaxAgeSeconds < now - f.2.2))
      kept
    generalize kept.filter (fun f => ! decide (L.orphanMaxAgeSeconds < now - f.2.2)) = live at hlive hlength ⊢
    split
    · exact hlive
    · rename_i hash hhash
      refine { hlive with orphanHashes := ?_, orphanKeys := ?_, orphans := ?_ }
      · intro f hf
        change f ∈ put hash (block, now) live at hf
        rw [put] at hf
        split at hf
        · rcases mem_revise.mp hf with ⟨_, -, rfl⟩ | ⟨hf, -⟩
          · exact hhash
          · exact hlive.orphanHashes f hf
        · rcases List.mem_append.mp hf with hf | hf
          · exact hlive.orphanHashes f hf
          · rw [List.mem_singleton.mp hf]
            exact hhash
      · exact nodup_put hlive.orphanKeys
      · have hput := length_put_le hash (block, now) live
        change ((put hash (block, now) live).length : Int) ≤ _
        omega

theorem after {p : InventoryEngine × Node} (h : WithinLimits B L p.1) (call : EngineCall) :
    WithinLimits B L (call.after B C L p).1 := by
  cases call with
  | relay call => exact h.relayed (after_relayed (B := B) (C := C) (p.1.toRelayEngine, p.2) call)
  | handleInv peerId payload now =>
    rw [EngineCall.after]
    obtain ⟨exc, -, heq⟩ | ⟨msg, -, -, heq⟩ | ⟨msg, buckets, hmsg, -, ⟨hrate, heq⟩ | ⟨hrate, asked, engine, hasked,
      heq⟩⟩ :=
      handleInv_cases B L p.1 peerId payload now
    · rw [heq]
      exact h
    · rw [heq]
      exact h
    · have hchecked := h.checked peerId now
      rw [hrate] at hchecked
      rw [heq]
      exact hchecked
    · have hchecked := h.checked peerId now
      rw [hrate] at hchecked
      rw [heq]
      exact hchecked.requested hasked (inventoryCodec.sound hmsg).hashes.2
  | addOrphan block now => exact h.addOrphan block now

end WithinLimits

/-- **Bounded memory.** Over every run of a new engine each of its tables keeps to its limit. -/
theorem engine_bounded (B : Builtins) (C : StoreConfig) (L : RequestLimits) (s : Node) (calls : List EngineCall) :
    WithinLimits B L (EngineCall.afterAll B C L ({}, s) calls).1 ∧
    (EngineCall.afterAll B C L ({}, s) calls).1.outstanding.Nodup ∧
    ((EngineCall.afterAll B C L ({}, s) calls).1.outstanding.length : Int) ≤ max 0 L.maxGetBlockBurst := by
  refine ⟨Trace.foldl_inv (P := fun p : InventoryEngine × Node => WithinLimits B L p.1) (fun p call h => h.after call)
    (WithinLimits.start B L) calls, ?_⟩
  obtain ⟨hopen, hlog⟩ := requests_disciplined B C L s calls
  rw [← hopen]
  exact hlog.bounded

end

/-! ## One request and one inventory -/

/-- The default limits but for a burst of one request and one inventory a minute. -/
def oneRequest : RequestLimits := { expired := fun _ _ => false, maxInvPerPeerPerMinute := 1, maxGetBlockBurst := 1 }

theorem genesisHash_lower : isLowerHash GENESIS_HASH = true := by decide +kernel

theorem inventory_exists (B : Builtins) {hash : Str} (h : isLowerHash hash = true) :
    ∃ payload, InventoryMessage.fromPayload B payload = .ok ⟨str "blocks", [hash]⟩ := by
  have htype : str "blocks" ∈ ["headers", "blocks", "archive", "transactions"].map str := by decide
  have hsound : InventoryMessage.Sound ⟨str "blocks", [hash]⟩ :=
    ⟨htype, (by decide : 1 ≤ MAX_INVENTORY_ENTRIES), List.forall_mem_singleton.mpr h⟩
  obtain ⟨payload, -, hdecode⟩ := (inventoryCodec.bare hsound).back (B := B)
  exact ⟨payload, inventoryCodec.back hsound hdecode⟩

theorem first_inventory {B : Builtins} {payload : Bytes} {hash : Str}
    (h : InventoryMessage.fromPayload B payload = .ok ⟨str "blocks", [hash]⟩) :
    InventoryEngine.handleInv B oneRequest {} (str "peer") payload 0 = (.ok (.requested [hash]),
      { pendingRequests := [(hash, ⟨hash, str "peer", 0, 0⟩)], peerInvTimestamps := [(str "peer", [0])] }) := by
  unfold InventoryEngine.handleInv
  rw [h]
  rfl

/-- While the genesis block is asked for, another peer's inventory leads to no request. -/
theorem burst_blocks_one : ∃ l payload, Ledger.init (recorded []) {} = .ok l ∧
    askedIn (requestLog builtins ⟨[], []⟩ oneRequest
      (EngineCall.afterAll builtins ⟨[], []⟩ oneRequest ({}, ⟨l, ∅⟩) [.handleInv (str "peer") payload 0])
      [.handleInv (str "other") payload 0]) = [] := by
  obtain ⟨l, hl, -⟩ := alphaLedger_grown
  obtain ⟨payload, hpayload⟩ := inventory_exists builtins genesisHash_lower
  refine ⟨l, payload, hl,
    (@burst_blocks builtins ⟨[], []⟩ oneRequest ⟨l, ∅⟩ [.handleInv (str "peer") payload 0] _ ?_ ?_).1⟩
  · change (1 : Int) ≤
      (InventoryEngine.handleInv builtins oneRequest {} (str "peer") payload 0).2.pendingRequests.length
    rw [first_inventory hpayload]
    exact Int.le_refl _
  · intro h _ hmem
    rw [requestLog, Trace.collect, Trace.collect, List.append_nil, EngineCall.events] at hmem
    split at hmem
    · obtain ⟨_, -, heq⟩ := List.mem_map.mp hmem
      cases heq
    · cases hmem

/-- A second inventory in the same minute is refused. -/
theorem inventory_rate_exact_one : ∃ l payload, Ledger.init (recorded []) {} = .ok l ∧
    ((EngineCall.afterAll builtins ⟨[], []⟩ oneRequest ({}, ⟨l, ∅⟩)
      [.handleInv (str "peer") payload 0]).1.handleInv builtins oneRequest (str "peer") payload 60).1 =
        .ok .rateLimited := by
  obtain ⟨l, hl, -⟩ := alphaLedger_grown
  obtain ⟨payload, hpayload⟩ := inventory_exists builtins genesisHash_lower
  refine ⟨l, payload, hl, ?_⟩
  have h := (@inventory_rate_exact builtins ⟨[], []⟩ oneRequest ⟨l, ∅⟩
    [.handleInv (str "peer") payload 0, .handleInv (str "peer") payload 60]
    (by decide : [(0 : ℚ), 60].Pairwise (· ≤ ·))).2
    [.handleInv (str "peer") payload 0] (str "peer") payload 60 [] _ rfl hpayload rfl
  refine h.mpr ?_
  rw [passed, Trace.collect, Trace.collect, List.append_nil, EngineCall.letThrough, first_inventory hpayload]
  decide +kernel

end ChainBreaker
