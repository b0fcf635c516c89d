import ChainBreaker.HeaderSync
import ChainBreaker.Lib.Lex
import ChainBreaker.Lib.Recency
import Mathlib.Algebra.Order.Ring.Rat

/-!
# The gossip engine

Token buckets, the cache of seen messages, and what the engine receives and
forwards. Times, rates and amounts are exact rationals; every call is given the
clock readings it takes, in their order.
-/

namespace ChainBreaker

open Fallible Recency

def PING : Int := 3
def PONG : Int := 4
def PEX : Int := 14
def GOSSIP_MESSAGE_TYPES : List Int := [PING, PONG, PEX]
def DEFAULT_GOSSIP_FANOUT : Int := 3
def DEFAULT_GOSSIP_MAX_HOPS : Int := 8
def DEFAULT_GOSSIP_CACHE_TTL_SECONDS : ℚ := 300
def DEFAULT_GOSSIP_CACHE_MAX_ENTRIES : Int := 50000
def DEFAULT_MAX_GOSSIP_PAYLOAD_SIZE : Int := 1024

/-! ## Token buckets -/

structure TokenBucket where
  rate : ℚ
  capacity : ℚ
  tokens : ℚ
  last : ℚ

namespace TokenBucket

def new (rate : ℚ) (capacity : Option ℚ) (now : ℚ) : TokenBucket :=
  ⟨rate, capacity.getD rate, capacity.getD rate, now⟩

def consume (b : TokenBucket) (amount now : ℚ) : Bool × TokenBucket :=
  let elapsed := now - b.last
  let tokens := min b.capacity (b.tokens + elapsed * b.rate)
  if tokens < amount then (false, { b with last := now, tokens := tokens })
  else (true, { b with last := now, tokens := tokens - amount })

end TokenBucket

/-! ## The cache -/

/-- `GossipCache`, with the entries from the oldest to the newest. -/
structure GossipCache where
  maxEntries : Int
  ttlSeconds : ℚ
  entries : List (Str × ℚ)
  maxEntries_pos : 0 < maxEntries

namespace GossipCache

def new (maxEntries : Int) (ttlSeconds : ℚ) : Except PyErr GossipCache :=
  if h : 0 < maxEntries then .ok ⟨maxEntries, ttlSeconds, [], h⟩
  else raise .valueError "max_entries must be positive" []

/-- `_gossip_id`, of a type that is one byte. -/
def gossipId (E : Primitives) (messageType : Int) (payload : Bytes) : Str :=
  toHex (E.sha256 (UInt8.ofNat messageType.toNat :: payload))

def evictExpired (g : GossipCache) (now : ℚ) : GossipCache :=
  { g with entries := g.entries.filter fun e => !decide (g.ttlSeconds < now - e.2) }

def seen (E : Primitives) (g : GossipCache) (messageType : Int) (payload : Bytes) (now : ℚ) : Bool × GossipCache :=
  let g := g.evictExpired now
  let key := gossipId E messageType payload
  if contains g.entries key then (true, { g with entries := moveToEnd key g.entries }) else (false, g)

def add (E : Primitives) (g : GossipCache) (messageType : Int) (payload : Bytes) (now inserted : ℚ) : GossipCache :=
  let g := g.evictExpired now
  let key := gossipId E messageType payload
  if contains g.entries key then { g with entries := moveToEnd key g.entries }
  -- while len(entries) >= max_entries: entries.popitem(last=False)
  else { g with entries := makeRoom g.maxEntries g.entries ++ [(key, inserted)] }

end GossipCache

/-! ## JSON in bytes -/

inductive JsonEncoding where
  | utf8 | utf8Sig | utf16 | utf16be | utf16le | utf32 | utf32be | utf32le
  deriving DecidableEq

/-- `json.detect_encoding`. -/
def detectEncoding (b : Bytes) : JsonEncoding :=
  if [0x00, 0x00, 0xFE, 0xFF].isPrefixOf b || [0xFF, 0xFE, 0x00, 0x00].isPrefixOf b then .utf32
  else if [0xFE, 0xFF].isPrefixOf b || [0xFF, 0xFE].isPrefixOf b then .utf16
  else if [0xEF, 0xBB, 0xBF].isPrefixOf b then .utf8Sig
  else
    match b with
    | b₀ :: b₁ :: b₂ :: b₃ :: _ =>
      if b₀ = 0 then if b₁ ≠ 0 then .utf16be else .utf32be
      else if b₁ = 0 then if b₂ ≠ 0 ∨ b₃ ≠ 0 then .utf16le else .utf32le
      else .utf8
    | [b₀, b₁] => if b₀ = 0 then .utf16be else if b₁ = 0 then .utf16le else .utf8
    | _ => .utf8

/-- One character of UTF-8 with `surrogatepass`. -/
def readUtf8Pass (data : Bytes) : Option (CodePoint × Bytes) :=
  match readUtf8 data with
  | some r => some r
  | none =>
    match data with
    | 0xED :: b :: d :: rest =>
      if 0xA0 ≤ b.toNat ∧ b.toNat ≤ 0xBF ∧ isTail d = true then
        some (Fin.ofNat _ (0xD000 + b.toNat % 64 * 64 + d.toNat % 64), rest)
      else none
    | _ => none

/-- At most `n` characters. -/
def readUtf8sPass : Nat → Bytes → Option Str
  | _, [] => some []
  | 0, _ :: _ => none
  | n + 1, data =>
    match readUtf8Pass data with
    | some (c, rest) => (readUtf8sPass n rest).map (c :: ·)
    | none => none

/-- The two-byte units of a text. -/
def units16 (big : Bool) : Bytes → Option (List Nat)
  | [] => some []
  | [_] => none
  | a :: b :: rest => (units16 big rest).map ((if big then fromBE [a, b] else fromBE [b, a]) :: ·)

/-- The four-byte characters of a text. -/
def chars32 (big : Bool) : Bytes → Option Str
  | [] => some []
  | a :: b :: d :: e :: rest =>
    let n := if big then fromBE [a, b, d, e] else fromBE [e, d, b, a]
    if n < 0x110000 then (chars32 big rest).map (Fin.ofNat _ n :: ·) else none
  | _ => none

/-- `b.decode(encoding, "surrogatepass")`. -/
def decodePass (b : Bytes) : JsonEncoding → Option Str
  | .utf8 => readUtf8sPass b.length b
  | .utf8Sig => readUtf8sPass b.length (b.drop 3)
  | .utf16 => (units16 (b.head? = some 0xFE) (b.drop 2)).map joinUnits
  | .utf16be => (units16 true b).map joinUnits
  | .utf16le => (units16 false b).map joinUnits
  | .utf32 => chars32 (b.head? = some 0x00) (b.drop 4)
  | .utf32be => chars32 true b
  | .utf32le => chars32 false b

/-- `json.loads` of bytes. -/
def loadsBytes (M : Runtime) (b : Bytes) : Except PyErr Json :=
  match decodePass b (detectEncoding b) with
  | some s => loads M.floatOf s
  | none => raise .unicodeDecodeError "invalid start or continuation byte" []

/-! ## The engine -/

structure GossipLimits where
  fanout : Int := DEFAULT_GOSSIP_FANOUT
  maxHops : Int := DEFAULT_GOSSIP_MAX_HOPS
  maxPayloadSize : Int := DEFAULT_MAX_GOSSIP_PAYLOAD_SIZE
  maxPerPeerPerSecond : ℚ := 10
  maxTotalPerSecond : ℚ := 100
  maxBytesPerSecond : ℚ := 512 * 1024

structure GossipEngine where
  limits : GossipLimits
  cache : GossipCache
  peerBuckets : Str → Option TokenBucket
  totalBucket : TokenBucket
  bytesBucket : TokenBucket

/-- The clock readings of one call of `receive`: of the peer's new bucket, of the
three buckets, and of the cache. -/
structure Readings where
  created : ℚ
  peer : ℚ
  total : ℚ
  bytes : ℚ
  seen : ℚ
  evicted : ℚ
  inserted : ℚ

namespace GossipEngine

/-- `GossipEngine(limits, cache)`, with the readings of its two buckets. -/
def new (limits : GossipLimits) (cache : GossipCache) (total bytes : ℚ) : GossipEngine where
  limits := limits
  cache := cache
  peerBuckets := fun _ => none
  totalBucket := .new limits.maxTotalPerSecond none total
  bytesBucket := .new limits.maxBytesPerSecond none bytes

def checkRate (e : GossipEngine) (peerId : Str) (payloadSize : Nat) (r : Readings) : Except PyErr Unit × GossipEngine :=
  if e.limits.maxPayloadSize < payloadSize then (raise .gossipRateLimitError "gossip payload too large" [], e)
  else
    let bucket := (e.peerBuckets peerId).getD (.new e.limits.maxPerPeerPerSecond none r.created)
    let (granted, bucket) := bucket.consume 1 r.peer
    let e := { e with peerBuckets := Function.update e.peerBuckets peerId (some bucket) }
    if !granted then (raise .gossipRateLimitError "peer gossip rate limit exceeded" [], e)
    else
      let (granted, bucket) := e.totalBucket.consume 1 r.total
      let e := { e with totalBucket := bucket }
      if !granted then (raise .gossipRateLimitError "global gossip rate limit exceeded" [], e)
      else
        let (granted, bucket) := e.bytesBucket.consume payloadSize r.bytes
        let e := { e with bytesBucket := bucket }
        if !granted then (raise .gossipRateLimitError "global gossip byte limit exceeded" [], e)
        else (.ok (), e)

def receive (E : Primitives) (e : GossipEngine) (envelope : NetworkEnvelope) (fromPeerId : Str) (r : Readings) :
    Except PyErr Bool × GossipEngine :=
  if envelope.messageType ∉ GOSSIP_MESSAGE_TYPES then
    (.error ⟨.gossipError, "message type % is not gossip", [.int envelope.messageType]⟩, e)
  else
    match e.checkRate fromPeerId envelope.payload.length r with
    | (.error x, e) => (.error x, e)
    | (.ok (), e) =>
      let (known, cache) := e.cache.seen E envelope.messageType envelope.payload r.seen
      if known then (.ok false, { e with cache := cache })
      else (.ok true, { e with cache := cache.add E envelope.messageType envelope.payload r.evicted r.inserted })

section
variable (M : Runtime)

/-- `_extract_forward_fields`: the ttl and the hop count. -/
def extractForwardFields (payload : Bytes) : Int × Int :=
  let fields : Except PyErr (Int × Int) := do
    let data ← loadsBytes M payload
    match data with
    | .dict d => do
      let ttl ← pyInt ((Fields.get d "ttl").getD (.int 0))
      let hopCount ← pyInt ((Fields.get d "hop_count").getD (.int 0))
      .ok (ttl, hopCount)
    | _ => .ok (0, 0)
  match fields with
  | .ok f => f
  | .error _ => (0, 0)

def adjustFields (payload : Bytes) (ttl hopCount : Int) : Bytes :=
  match loadsBytes M payload with
  | .ok (.dict d) =>
    let d := Fields.put (Fields.put d (str "ttl") (.int (max 0 ttl))) (str "hop_count") (.int hopCount)
    text (nanText M.floatRepr) (Json.dict d).norm
  | _ => payload

def prepareForward (envelope : NetworkEnvelope) : NetworkEnvelope :=
  let (ttl, hopCount) := extractForwardFields M envelope.payload
  { envelope with payload := adjustFields M envelope.payload (ttl - 1) (hopCount + 1) }

/-- `peers[:n]` -/
def sliceTo {α : Type} (l : List α) (n : Int) : List α := l.take (if 0 ≤ n then n else l.length + n).toNat

/-- `forward_targets`, where `hash` is the process's hash of a pair of the seed and a
peer's id. -/
def forwardTargets (hash : Nat → Str → Int) (e : GossipEngine) (envelope : NetworkEnvelope) (fromPeerId : Str)
    (peers : List (Str × Int)) : List (Str × Int) :=
  if envelope.messageType ∉ GOSSIP_MESSAGE_TYPES then []
  else
    let (ttl, hopCount) := extractForwardFields M envelope.payload
    if ttl ≤ 0 ∨ e.limits.maxHops ≤ hopCount then []
    else
      let available := peers.filter fun p => p.1 != fromPeerId
      -- the first 16 digits of the id are the first 8 bytes of the hash
      let seed := fromBE ((M.sha256 (UInt8.ofNat envelope.messageType.toNat :: envelope.payload)).take 8)
      let available := Lex.sortOn id (fun p => (hash seed p.1 % 2 ^ 31).toNat :: p.1.map charKey) available
      sliceTo available e.limits.fanout

end

end GossipEngine

end ChainBreaker
