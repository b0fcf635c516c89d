import ChainBreaker.SyncEngine

/-!
# The relay engine

Blocks that the node accepts are queued by hash, and an inventory message takes the
queue as far as its item limit goes. What is cut off is queued nowhere else, so
every accepted block is announced as long as no message finds more hashes than
its limit (`relay_announces_iff`).
-/

namespace ChainBreaker

open Fallible

/-! ## The engine -/

/-- The limits the calls below read, over clock readings `τ`. -/
structure RelayLimitPolicy (τ : Type) where
  maxInvItems : Int := 256
  maxBlocksResponse : Int := 32
  seenCacheSize : Int := 50000
  /-- `now - timestamp > seen_cache_ttl_seconds`. -/
  expired : τ → τ → Bool

structure SeenEntry (τ : Type) where
  timestamp : τ
  sourcePeer : Str

/-- The entries by hash, in the order in which they came. -/
abbrev RelaySeenCache (τ : Type) := List (Str × SeenEntry τ)

structure RequestState (τ : Type) where
  blockHash : Str
  peerId : Str
  timestamp : τ
  retryCount : Nat := 0

structure RelayEngine (τ : Type) where
  seenCache : RelaySeenCache τ := []
  pendingRequests : List (Str × RequestState τ) := []
  orphans : List (Str × BlockV2 × τ) := []
  localBlocksToAnnounce : List Str := []

/-- The answer to one entry of a BLOCK message. -/
inductive RelayResult where
  | hashMismatch (hash : Str)
  | duplicate (hash : Str)
  | consensusRejected (hash : Str)
  | storageError (hash reason : Str)
  | accepted (hash : Str)

inductive RelayReply where
  | tooManyBlocks
  | processed (results : List RelayResult)

/-- The surroundings of one entry: the wall clock, and the number of steps after which
the operating system raises in `append_block`, if it does. -/
structure EntrySurroundings where
  wall : Int
  fault : Option Nat := none

section
variable {τ : Type}

namespace RelaySeenCache

variable (L : RelayLimitPolicy τ)

def without (cache : RelaySeenCache τ) (hash : Str) : RelaySeenCache τ := cache.filter fun f => f.1 != hash

def has (cache : RelaySeenCache τ) (hash : Str) (now : τ) : Bool × RelaySeenCache τ :=
  match cache.lookup hash with
  | none => (false, cache)
  | some entry => if L.expired now entry.timestamp then (false, cache.without hash) else (true, cache)

def add (cache : RelaySeenCache τ) (hash sourcePeer : Str) (now : τ) : Except PyErr Unit × RelaySeenCache τ :=
  let cache := cache.filter fun f => ! L.expired now f.2.timestamp
  if (cache.lookup hash).isSome then (.ok (), cache)
  else if L.seenCacheSize ≤ cache.length then
    match cache with
    | [] => (raise .keyError "dictionary is empty" [], [])
    | _ :: later => (.ok (), later ++ [(hash, ⟨now, sourcePeer⟩)])
  else (.ok (), cache ++ [(hash, ⟨now, sourcePeer⟩)])

end RelaySeenCache

/-- `xs[:n]`. -/
def upTo {α : Type} (n : Int) (xs : List α) : List α := xs.take (if 0 ≤ n then n else xs.length + n).toNat

namespace RelayEngine

variable (B : Builtins) (C : StoreConfig) (L : RelayLimitPolicy τ)

def popRequest (e : RelayEngine τ) (hash : Str) : RelayEngine τ :=
  { e with pendingRequests := e.pendingRequests.filter fun f => f.1 != hash }

/-- `_try_connect_orphans`: the orphans of the parent are let go. -/
def tryConnectOrphans (e : RelayEngine τ) (connectedHash : Str) : RelayEngine τ :=
  { e with orphans := e.orphans.filter fun f => f.2.1.header.prevHash != connectedHash }

/-- `now` and `later` are the readings of the clock for the look into the cache and the entry. -/
def onLocalBlock (e : RelayEngine τ) (block : BlockV2) (now later : τ) : Except PyErr Unit × RelayEngine τ :=
  match block.hash B.toPrimitives with
  | .error exc => (.error exc, e)
  | .ok hash =>
    match e.seenCache.has L hash now with
    | (true, cache) => (.ok (), { e with seenCache := cache })
    | (false, cache) =>
      match cache.add L hash (str "local") later with
      | (.error exc, cache) => (.error exc, { e with seenCache := cache })
      | (.ok (), cache) =>
        (.ok (), { e with seenCache := cache, localBlocksToAnnounce := e.localBlocksToAnnounce ++ [hash] })

def buildAnnouncements (e : RelayEngine τ) : List Str × RelayEngine τ :=
  (e.localBlocksToAnnounce, { e with localBlocksToAnnounce := [] })

def createInvMessage (e : RelayEngine τ) (hashes : Option (List Str)) : InventoryMessage × RelayEngine τ :=
  let (targetHashes, e) :=
    match hashes with
    | some hashes => (hashes, e)
    | none => e.buildAnnouncements
  if targetHashes.isEmpty then (⟨str "blocks", []⟩, e) else (⟨str "blocks", upTo L.maxInvItems targetHashes⟩, e)

/-- The `try` of `handle_block`. -/
def storeBlock (fault : Option Nat) (s : Node) (block : BlockV2) : Except PyErr Unit × Node :=
  match s.ledger.stateBelowTip with
  | .error exc => (.error exc, s)
  | .ok previousState =>
    match appendBlock B.toRuntime C fault s.storage block previousState with
    | (answer, files) => (answer.map fun _ => (), { s with storage := files })

/-- One turn of the loop of `handle_block`. -/
def handleEntry (S : EntrySurroundings) (peerId : Str) (now : τ) (e : RelayEngine τ) (s : Node) (entry : BlockEntry) :
    Except PyErr RelayResult × RelayEngine τ × Node :=
  match decodeBlock B entry.blockBytes >>= fun block => (block.hash B.toPrimitives).map fun hash => (block, hash) with
  | .error exc => (.error exc, e, s)
  | .ok (block, hash) =>
    if hash ≠ entry.hash then (.ok (.hashMismatch entry.hash), e, s)
    else
      match e.seenCache.has L hash now with
      | (true, cache) => (.ok (.duplicate hash), { e with seenCache := cache }.popRequest hash, s)
      | (false, cache) =>
        let e := { e with seenCache := cache }
        match s.ledger.addBlockV2 B.toPrimitives block S.wall with
        | .error exc => (.error exc, e, s)
        | .ok (false, ledger) => (.ok (.consensusRejected hash), e.popRequest hash, { s with ledger := ledger })
        | .ok (true, ledger) =>
          match storeBlock B C S.fault { s with ledger := ledger } block with
          | (.error exc, s) => (.ok (.storageError hash (str "storage: " ++ B.errText exc)), e.popRequest hash, s)
          | (.ok (), s) =>
            match e.seenCache.add L hash peerId now with
            | (.error exc, cache) => (.error exc, { e with seenCache := cache }, s)
            | (.ok (), cache) =>
              let e := { e with seenCache := cache }.popRequest hash
              let e := { e with localBlocksToAnnounce := e.localBlocksToAnnounce ++ [hash] }
              (.ok (.accepted hash), e.tryConnectOrphans hash, s)

/-- The loop: the answers, up to an entry that raises. -/
def handleEntries (S : Nat → EntrySurroundings) (peerId : Str) (now : τ) (e : RelayEngine τ) (s : Node) :
    List BlockEntry → List RelayResult × Except PyErr Unit × RelayEngine τ × Node
  | [] => ([], .ok (), e, s)
  | entry :: entries =>
    match handleEntry B C L (S 0) peerId now e s entry with
    | (.error exc, e, s) => ([], .error exc, e, s)
    | (.ok result, e, s) =>
      match handleEntries (fun i => S (i + 1)) peerId now e s entries with
      | (results, answer, e, s) => (result :: results, answer, e, s)

/-- The entries of the message, unless it is refused as a whole. -/
def blockEntries (payload : Bytes) : Except PyErr (Option (List BlockEntry)) := do
  let msg ← BlockMessage.fromPayload B payload
  if L.maxBlocksResponse < msg.blocks.length then .ok none else .ok (some msg.blocks)

def handleBlock (S : Nat → EntrySurroundings) (peerId : Str) (payload : Bytes) (now : τ) (e : RelayEngine τ) (s : Node) :
    Except PyErr RelayReply × RelayEngine τ × Node :=
  match blockEntries B L payload with
  | .error exc => (.error exc, e, s)
  | .ok none => (.ok .tooManyBlocks, e, s)
  | .ok (some entries) =>
    match handleEntries B C L S peerId now e s entries with
    | (results, answer, e, s) => (answer.map fun _ => .processed results, e, s)

end RelayEngine

/-! ## Runs -/

/-- A call of the engine, or a change of the node by its other parts. -/
inductive RelayCall (τ : Type) where
  | onLocalBlock (block : BlockV2) (now later : τ)
  | handleBlock (S : Nat → EntrySurroundings) (peerId : Str) (payload : Bytes) (now : τ)
  | createInvMessage (peerId : Str)
  | elsewhere (s : Node)

/-- The hash of an accepted block. -/
def RelayResult.acceptedHash : RelayResult → Option Str
  | .accepted hash => some hash
  | _ => none

section
variable (B : Builtins) (C : StoreConfig) (L : RelayLimitPolicy τ)

/-- The hash of a local block that is not in the cache, and goes into it. -/
def RelayEngine.newHash (e : RelayEngine τ) (block : BlockV2) (now later : τ) : List Str :=
  match block.hash B.toPrimitives with
  | .error _ => []
  | .ok hash =>
    match e.seenCache.has L hash now with
    | (true, _) => []
    | (false, cache) =>
      match cache.add L hash (str "local") later with
      | (.error _, _) => []
      | (.ok (), _) => [hash]

def RelayCall.after (p : RelayEngine τ × Node) : RelayCall τ → RelayEngine τ × Node
  | .onLocalBlock block now later => ((p.1.onLocalBlock B L block now later).2, p.2)
  | .handleBlock S peerId payload now => (p.1.handleBlock B C L S peerId payload now p.2).2
  | .createInvMessage _ => ((p.1.createInvMessage L none).2, p.2)
  | .elsewhere s => (p.1, s)

def RelayCall.afterAll (p : RelayEngine τ × Node) (calls : List (RelayCall τ)) : RelayEngine τ × Node :=
  calls.foldl (RelayCall.after B C L) p

/-- The blocks that the call takes: of a BLOCK message also those before an entry that raises. -/
def RelayCall.accepts (p : RelayEngine τ × Node) : RelayCall τ → List Str
  | .onLocalBlock block now later => p.1.newHash B L block now later
  | .handleBlock S peerId payload now =>
    match RelayEngine.blockEntries B L payload with
    | .ok (some entries) => (p.1.handleEntries B C L S peerId now p.2 entries).1.filterMap RelayResult.acceptedHash
    | _ => []
  | _ => []

/-- The hashes of the message the call returns. -/
def RelayCall.announces (p : RelayEngine τ × Node) : RelayCall τ → Option (List Str)
  | .createInvMessage _ => some (p.1.createInvMessage L none).1.hashes
  | _ => none

/-- What the calls of a run give, one after the other. -/
def RelayCall.collect {α : Type} (f : RelayEngine τ × Node → RelayCall τ → List α) (p : RelayEngine τ × Node) :
    List (RelayCall τ) → List α
  | [] => []
  | call :: calls => f p call ++ RelayCall.collect f (call.after B C L p) calls

/-- The hashes that a run accepts. -/
def acceptedIn (p : RelayEngine τ × Node) (calls : List (RelayCall τ)) : List Str :=
  RelayCall.collect B C L (RelayCall.accepts B C L) p calls

/-- The inventory messages of a run. -/
def announcedIn (p : RelayEngine τ × Node) (calls : List (RelayCall τ)) : List (List Str) :=
  RelayCall.collect B C L (fun p call => (call.announces L p).toList) p calls

end

/-- A message can carry the whole queue. -/
def RelayEngine.QueueFits (L : RelayLimitPolicy τ) (e : RelayEngine τ) : Prop :=
  (e.localBlocksToAnnounce.length : Int) ≤ L.maxInvItems ∨ e.localBlocksToAnnounce = []

theorem upTo_eq_self_iff {α : Type} {n : Int} {xs : List α} : upTo n xs = xs ↔ (xs.length : Int) ≤ n ∨ xs = [] := by
  rw [upTo, List.take_eq_self_iff, ← List.length_eq_zero_iff]
  split <;> omega

section
variable {B : Builtins} {C : StoreConfig} {L : RelayLimitPolicy τ} {e : RelayEngine τ} {s : Node} {p : RelayEngine τ × Node}
  {calls : List (RelayCall τ)}

theorem onLocalBlock_queue (block : BlockV2) (now later : τ) : (e.onLocalBlock B L block now later).2.localBlocksToAnnounce =
    e.localBlocksToAnnounce ++ e.newHash B L block now later := by
  unfold RelayEngine.onLocalBlock RelayEngine.newHash
  cases block.hash B.toPrimitives with
  | error exc => exact (List.append_nil _).symm
  | ok hash =>
    dsimp only
    cases e.seenCache.has L hash now with
    | mk seen cache =>
      cases seen with
      | true => exact (List.append_nil _).symm
      | false =>
        dsimp only
        cases cache.add L hash (str "local") later with
        | mk answer cache =>
          cases answer with
          | error exc => exact (List.append_nil _).symm
          | ok _ => rfl

/-- An entry queues its hash exactly if it is accepted. -/
theorem handleEntry_queue (S : EntrySurroundings) (peerId : Str) (now : τ) (entry : BlockEntry) :
    (e.handleEntry B C L S peerId now s entry).2.1.localBlocksToAnnounce = e.localBlocksToAnnounce ++
      match (e.handleEntry B C L S peerId now s entry).1 with
      | .ok result => result.acceptedHash.toList
      | .error _ => [] := by
  unfold RelayEngine.handleEntry
  cases decodeBlock B entry.blockBytes >>= fun block => (block.hash B.toPrimitives).map fun hash => (block, hash) with
  | error exc => exact (List.append_nil _).symm
  | ok decoded =>
    obtain ⟨block, hash⟩ := decoded
    dsimp only
    by_cases hhash : hash = entry.hash
    · rw [if_neg (not_not.mpr hhash)]
      cases e.seenCache.has L hash now with
      | mk seen cache =>
        cases seen with
        | true => exact (List.append_nil _).symm
        | false =>
          dsimp only
          cases s.ledger.addBlockV2 B.toPrimitives block S.wall with
          | error exc => exact (List.append_nil _).symm
          | ok added =>
            obtain ⟨accepted, ledger⟩ := added
            cases accepted with
            | false => exact (List.append_nil _).symm
            | true =>
              dsimp only
              cases RelayEngine.storeBlock B C S.fault { s with ledger := ledger } block with
              | mk stored s' =>
                cases stored with
                | error exc => exact (List.append_nil _).symm
                | ok _ =>
                  dsimp only
                  cases cache.add L hash peerId now with
                  | mk answer cache' =>
                    cases answer with
                    | error exc => exact (List.append_nil _).symm
                    | ok _ => rfl
    · rw [if_pos hhash]
      exact (List.append_nil _).symm

theorem handleEntries_queue (peerId : Str) (now : τ) : ∀ {entries : List BlockEntry} {S : Nat → EntrySurroundings}
    {e : RelayEngine τ} {s : Node}, (e.handleEntries B C L S peerId now s entries).2.2.1.localBlocksToAnnounce =
      e.localBlocksToAnnounce ++ (e.handleEntries B C L S peerId now s entries).1.filterMap RelayResult.acceptedHash
  | [], _, _, _ => (List.append_nil _).symm
  | entry :: entries, S, e, s => by
    have hfirst := @handleEntry_queue τ B C L e s (S 0) peerId now entry
    unfold RelayEngine.handleEntries
    cases hentry : e.handleEntry B C L (S 0) peerId now s entry with
    | mk answer rest =>
      obtain ⟨e', s'⟩ := rest
      rw [hentry] at hfirst
      cases answer with
      | error exc => exact hfirst
      | ok result =>
        have hrest := @handleEntries_queue peerId now entries (fun i => S (i + 1)) e' s'
        dsimp only at hfirst hrest ⊢
        rw [hrest, hfirst, List.append_assoc]
        cases hresult : result.acceptedHash <;> simp [hresult]

/-- Every call but that for a message queues what it accepts. -/
theorem after_queue (call : RelayCall τ) (hcall : call.announces L p = none) :
    (call.after B C L p).1.localBlocksToAnnounce = p.1.localBlocksToAnnounce ++ call.accepts B C L p := by
  cases call with
  | onLocalBlock block now later => exact onLocalBlock_queue block now later
  | handleBlock S peerId payload now =>
    unfold RelayCall.after RelayCall.accepts RelayEngine.handleBlock
    dsimp only
    cases RelayEngine.blockEntries B L payload with
    | error exc => exact (List.append_nil _).symm
    | ok entries =>
      cases entries with
      | none => exact (List.append_nil _).symm
      | some entries => exact handleEntries_queue peerId now
  | createInvMessage peerId => cases hcall
  | elsewhere s => exact (List.append_nil _).symm

/-- A message takes the whole queue, and carries as much of it as its limit allows. -/
theorem createInvMessage_queue : (e.createInvMessage L none).2.localBlocksToAnnounce = [] ∧
    (e.createInvMessage L none).1.hashes = upTo L.maxInvItems e.localBlocksToAnnounce := by
  unfold RelayEngine.createInvMessage RelayEngine.buildAnnouncements
  dsimp only
  cases h : e.localBlocksToAnnounce with
  | nil => exact ⟨rfl, List.take_nil.symm⟩
  | cons hash hashes => exact ⟨rfl, rfl⟩

/-! ## What is accepted and what is announced -/

theorem afterAll_snoc (call : RelayCall τ) :
    RelayCall.afterAll B C L p (calls ++ [call]) = call.after B C L (RelayCall.afterAll B C L p calls) := by
  rw [RelayCall.afterAll, List.foldl_append]
  rfl

theorem collect_snoc {α : Type} (f : RelayEngine τ × Node → RelayCall τ → List α) (call : RelayCall τ) :
    ∀ {calls : List (RelayCall τ)} {p : RelayEngine τ × Node}, RelayCall.collect B C L f p (calls ++ [call]) =
      RelayCall.collect B C L f p calls ++ f (RelayCall.afterAll B C L p calls) call
  | [], p => List.append_nil _
  | first :: calls, p => by
    rw [List.cons_append, RelayCall.collect, collect_snoc f call, RelayCall.collect, List.append_assoc]
    rfl

/-- What was queued at first and accepted since has been announced, or is queued, in this order. -/
def Accounted (B : Builtins) (C : StoreConfig) (L : RelayLimitPolicy τ) (p : RelayEngine τ × Node) (calls : List (RelayCall τ)) :
    Prop :=
  (announcedIn B C L p calls).flatten ++ (RelayCall.afterAll B C L p calls).1.localBlocksToAnnounce =
    p.1.localBlocksToAnnounce ++ acceptedIn B C L p calls

theorem accounted_nil : Accounted B C L p [] := (List.append_nil _).symm

theorem accounted_snoc (call : RelayCall τ) (h : Accounted B C L p calls) : Accounted B C L p (calls ++ [call]) ↔
    (call.announces L (RelayCall.afterAll B C L p calls) ≠ none → (RelayCall.afterAll B C L p calls).1.QueueFits L) := by
  unfold Accounted announcedIn acceptedIn at *
  rw [afterAll_snoc, collect_snoc, collect_snoc, ← List.append_assoc, ← h]
  generalize hq : RelayCall.afterAll B C L p calls = q
  cases hcall : call.announces L q with
  | none =>
    rw [after_queue call hcall, Option.toList_none, List.append_nil, List.append_assoc]
    exact ⟨fun _ hne => absurd rfl hne, fun _ => rfl⟩
  | some hashes =>
    cases call with
    | createInvMessage peerId =>
      obtain ⟨hempty, hhashes⟩ := @createInvMessage_queue τ L q.1
      obtain rfl := Option.some.inj hcall
      change List.flatten (_ ++ _) ++ (q.1.createInvMessage L none).2.localBlocksToAnnounce = _ ++ _ ++ [] ↔ _
      rw [hempty, hhashes, List.append_nil, List.append_nil, Option.toList_some, List.flatten_append, List.flatten_singleton,
        List.append_cancel_left_eq, upTo_eq_self_iff]
      exact ⟨fun hfits _ => hfits, fun hfits => hfits nofun⟩
    | onLocalBlock block now later => cases hcall
    | handleBlock S peerId payload now => cases hcall
    | elsewhere s => cases hcall

/-- Every message of the run finds a queue that it can carry. -/
def EveryQueueFits (B : Builtins) (C : StoreConfig) (L : RelayLimitPolicy τ) (p : RelayEngine τ × Node)
    (calls : List (RelayCall τ)) : Prop :=
  ∀ pre peerId post, calls = pre ++ .createInvMessage peerId :: post → (RelayCall.afterAll B C L p pre).1.QueueFits L

theorem announces_ne_none {call : RelayCall τ} : call.announces L p ≠ none ↔ ∃ peerId, call = .createInvMessage peerId := by
  cases call <;> simp [RelayCall.announces]

theorem accounted_of_fits (h : EveryQueueFits B C L p calls) : Accounted B C L p calls := by
  induction calls using List.reverseRecOn with
  | nil => exact accounted_nil
  | append_singleton calls call ih =>
    have hbefore : EveryQueueFits B C L p calls := by
      rintro pre peerId post rfl
      exact h pre peerId (post ++ [call]) (by rw [List.append_assoc, List.cons_append])
    refine (accounted_snoc call (ih hbefore)).mpr fun hcall => ?_
    obtain ⟨peerId, rfl⟩ := announces_ne_none.mp hcall
    exact h calls peerId [] rfl

/-- **Every accepted block is announced** as long as every message finds a queue that
it can carry; as soon as one does not, hashes are lost. -/
theorem relay_announces_iff (B : Builtins) (C : StoreConfig) (L : RelayLimitPolicy τ) (p : RelayEngine τ × Node)
    (calls : List (RelayCall τ)) :
    ((∀ pre, pre <+: calls → Accounted B C L p pre) ↔ EveryQueueFits B C L p calls) ∧
    (EveryQueueFits B C L p calls → ∀ pre peerId, calls = pre ++ [.createInvMessage peerId] →
      ∀ hash ∈ p.1.localBlocksToAnnounce ++ acceptedIn B C L p calls, ∃ message ∈ announcedIn B C L p calls, hash ∈ message) := by
  refine ⟨⟨?_, ?_⟩, ?_⟩
  · rintro h pre peerId post rfl
    have hbefore := h pre (List.prefix_append _ _)
    have hafter := h (pre ++ [.createInvMessage peerId]) ⟨post, by rw [List.append_assoc]; rfl⟩
    exact (accounted_snoc _ hbefore).mp hafter (announces_ne_none.mpr ⟨peerId, rfl⟩)
  · rintro h pre ⟨post, rfl⟩
    refine accounted_of_fits fun pre' peerId post' hpre => ?_
    exact h pre' peerId (post' ++ post) (by rw [hpre, List.append_assoc, List.cons_append])
  · rintro h pre peerId rfl hash hhash
    have hall := accounted_of_fits h
    unfold Accounted at hall
    rw [← hall, afterAll_snoc] at hhash
    change hash ∈ _ ++ (RelayEngine.createInvMessage L _ none).2.localBlocksToAnnounce at hhash
    rw [createInvMessage_queue.1, List.append_nil] at hhash
    exact List.mem_flatten.mp hhash

end

end

/-- A run that accepts no more than a message can carry. -/
theorem fits_of_few {τ : Type} {B : Builtins} {C : StoreConfig} {L : RelayLimitPolicy τ} {p : RelayEngine τ × Node} {calls : List (RelayCall τ)}
    (h : (p.1.localBlocksToAnnounce.length + (acceptedIn B C L p calls).length : Int) ≤ L.maxInvItems) :
    EveryQueueFits B C L p calls := by
  have hqueue : ∀ pre : List (RelayCall τ), (RelayCall.afterAll B C L p pre).1.localBlocksToAnnounce.length ≤
      p.1.localBlocksToAnnounce.length + (acceptedIn B C L p pre).length := by
    intro pre
    induction pre using List.reverseRecOn with
    | nil => exact Nat.le_refl _
    | append_singleton pre call ih =>
      rw [afterAll_snoc, acceptedIn, collect_snoc, List.length_append]
      unfold acceptedIn at ih
      by_cases hcall : call.announces L (RelayCall.afterAll B C L p pre) = none
      · rw [after_queue call hcall, List.length_append]
        omega
      · obtain ⟨peerId, rfl⟩ := announces_ne_none.mp hcall
        change (RelayEngine.createInvMessage L _ none).2.localBlocksToAnnounce.length ≤ _
        rw [createInvMessage_queue.1]
        exact Nat.zero_le _
  have hgrows : ∀ post pre : List (RelayCall τ), (acceptedIn B C L p pre).length ≤ (acceptedIn B C L p (pre ++ post)).length := by
    intro post pre
    induction post using List.reverseRecOn with
    | nil => rw [List.append_nil]
    | append_singleton post call ih =>
      rw [← List.append_assoc, acceptedIn, acceptedIn, collect_snoc, List.length_append]
      exact Nat.le_add_right_of_le ih
  rintro pre peerId post rfl
  have hpre := hqueue pre
  have hpost := hgrows (.createInvMessage peerId :: post) pre
  exact .inl (by omega)

/-! ## Two blocks and a message of one item -/

/-- A block that the cache does not know, and has room for. -/
theorem onLocalBlock_new {τ : Type} {B : Builtins} {L : RelayLimitPolicy τ} {e : RelayEngine τ} {block : BlockV2} {hash : Str} {now later : τ}
    (hhash : block.hash B.toPrimitives = .ok hash) (hnew : ∀ f ∈ e.seenCache, (hash != f.1) = true)
    (hlive : ∀ f ∈ e.seenCache, L.expired later f.2.timestamp = false) (hroom : (e.seenCache.length : Int) < L.seenCacheSize) :
    e.newHash B L block now later = [hash] ∧ e.onLocalBlock B L block now later =
      (.ok (), { e with seenCache := e.seenCache ++ [(hash, ⟨later, str "local"⟩)],
                        localBlocksToAnnounce := e.localBlocksToAnnounce ++ [hash] }) := by
  have hlookup : e.seenCache.lookup hash = none := List.lookup_eq_none_iff.mpr hnew
  have hkept : e.seenCache.filter (fun f => ! L.expired later f.2.timestamp) = e.seenCache :=
    List.filter_eq_self.mpr fun f hf => by rw [hlive f hf]; rfl
  have hadd : e.seenCache.add L hash (str "local") later = (.ok (), e.seenCache ++ [(hash, ⟨later, str "local"⟩)]) := by
    unfold RelaySeenCache.add
    dsimp only
    rw [hkept, hlookup, Option.isSome_none, if_neg Bool.false_ne_true, if_neg (by omega)]
  have hhas : e.seenCache.has L hash now = (false, e.seenCache) := by
    rw [RelaySeenCache.has, hlookup]
  unfold RelayEngine.newHash RelayEngine.onLocalBlock
  simp only [hhash, hhas, hadd, and_self]

/-- The default limits but for the items of a message, over clocks that count seconds. -/
def shortMessages (maxInvItems : Int) : RelayLimitPolicy Nat :=
  { maxInvItems := maxInvItems, expired := fun now timestamp => decide (7200 < now - timestamp) }

/-- Two local blocks, and messages until nothing is left. -/
def twoLocalBlocks : List (RelayCall Nat) :=
  [.onLocalBlock alphaChild 0 0, .onLocalBlock alphaSecond 1 1, .createInvMessage (str "peer"),
    .createInvMessage (str "peer")]

def alphaSecondHash : Str := str "000018a99f915deba91769acb7cf1450f3df0fc852dfbc5ea32427fbb5c07b46"

theorem twoLocalBlocks_run (C : StoreConfig) (s : Node) (n : Int) :
    acceptedIn builtins C (shortMessages n) ({}, s) twoLocalBlocks = [alphaSecond.header.prevHash, alphaSecondHash] ∧
    announcedIn builtins C (shortMessages n) ({}, s) twoLocalBlocks =
      [upTo n [alphaSecond.header.prevHash, alphaSecondHash], []] := by
  obtain ⟨-, hchild, hsecond⟩ := alpha_hashes
  have hne : (alphaSecondHash != alphaSecond.header.prevHash) = true := by decide +kernel
  obtain ⟨hfirstNew, hfirst⟩ := @onLocalBlock_new _ builtins (shortMessages n) {} _ _ 0 0 hchild nofun nofun (by simp [shortMessages])
  obtain ⟨hsecondNew, hsecond⟩ := @onLocalBlock_new _ builtins (shortMessages n)
    { seenCache := [(alphaSecond.header.prevHash, ⟨0, str "local"⟩)], localBlocksToAnnounce := [alphaSecond.header.prevHash] }
    _ _ 1 1 hsecond (by intro f hf; rw [List.mem_singleton.mp hf]; exact hne) (by simp [shortMessages]) (by simp [shortMessages])
  have hfirst' : (RelayEngine.onLocalBlock builtins (shortMessages n) {} alphaChild 0 0).2 =
      { seenCache := [(alphaSecond.header.prevHash, ⟨0, str "local"⟩)], localBlocksToAnnounce := [alphaSecond.header.prevHash] } := by
    rw [hfirst]
    rfl
  unfold acceptedIn announcedIn twoLocalBlocks
  simp only [RelayCall.collect, RelayCall.accepts, RelayCall.announces, RelayCall.after, hfirstNew, hfirst', hsecondNew, hsecond]
  exact ⟨rfl, rfl⟩

/-- With messages of one item the second of two blocks is announced by none. -/
theorem announcement_lost : ¬ ∀ (L : RelayLimitPolicy Nat) (C : StoreConfig) (s : Node) (pre : List (RelayCall Nat)) (peerId : Str),
    (RelayCall.createInvMessage peerId).announces L (RelayCall.afterAll builtins C L ({}, s) pre) = some [] →
    ∀ hash ∈ acceptedIn builtins C L ({}, s) (pre ++ [.createInvMessage peerId]),
      ∃ message ∈ announcedIn builtins C L ({}, s) (pre ++ [.createInvMessage peerId]), hash ∈ message := by
  intro hall
  obtain ⟨l, -, -⟩ := alphaLedger_grown
  have h := hall (shortMessages 1) ⟨[], []⟩ ⟨l, ∅⟩ (twoLocalBlocks.take 3) (str "peer") ?_
  · obtain ⟨haccepted, hannounced⟩ := twoLocalBlocks_run ⟨[], []⟩ ⟨l, ∅⟩ 1
    change ∀ hash ∈ acceptedIn _ _ _ _ twoLocalBlocks, ∃ message ∈ announcedIn _ _ _ _ twoLocalBlocks, hash ∈ message at h
    rw [haccepted, hannounced] at h
    obtain ⟨message, hmessage, hin⟩ := h alphaSecondHash (.tail _ (.head _))
    have hne : alphaSecondHash ≠ alphaSecond.header.prevHash := by decide +kernel
    rcases List.mem_pair.mp hmessage with rfl | rfl
    · exact hne (List.mem_singleton.mp hin)
    · cases hin
  · have hdrained : (RelayCall.afterAll builtins ⟨[], []⟩ (shortMessages 1) ({}, ⟨l, ∅⟩) (twoLocalBlocks.take 3)).1.localBlocksToAnnounce =
        [] := by
      rw [show twoLocalBlocks.take 3 = twoLocalBlocks.take 2 ++ [.createInvMessage (str "peer")] from rfl, afterAll_snoc]
      generalize RelayCall.afterAll builtins ⟨[], []⟩ (shortMessages 1) ({}, ⟨l, ∅⟩) (twoLocalBlocks.take 2) = q
      exact createInvMessage_queue.1
    change some (RelayEngine.createInvMessage _ _ none).1.hashes = some []
    rw [createInvMessage_queue.2, hdrained]
    rfl

/-- By default a message carries both. -/
theorem relay_announces_two : ∃ l, Ledger.init (recorded []) {} = .ok l ∧
    ∀ hash ∈ [alphaSecond.header.prevHash, alphaSecondHash],
      ∃ message ∈ announcedIn builtins ⟨[], []⟩ (shortMessages 256) ({}, ⟨l, ∅⟩) twoLocalBlocks, hash ∈ message := by
  obtain ⟨l, hl, -⟩ := alphaLedger_grown
  have haccepted := (twoLocalBlocks_run ⟨[], []⟩ ⟨l, ∅⟩ 256).1
  have hfits : EveryQueueFits builtins ⟨[], []⟩ (shortMessages 256) ({}, ⟨l, ∅⟩) twoLocalBlocks :=
    fits_of_few (by rw [haccepted]; exact (by decide : (2 : Int) ≤ 256))
  have h := (relay_announces_iff builtins ⟨[], []⟩ (shortMessages 256) ({}, ⟨l, ∅⟩) twoLocalBlocks).2 hfits
    (twoLocalBlocks.take 3) (str "peer") rfl
  rw [haccepted] at h
  exact ⟨l, hl, h⟩

end ChainBreaker
