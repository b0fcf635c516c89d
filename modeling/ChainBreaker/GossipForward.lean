import ChainBreaker.GossipHops

/-!
# A forwarded peer exchange

PEX is a gossip message, and no message of the wire: the engine accepts and rewrites
it, and no envelope carries it. The payload a forward leaves is one of the same peers,
one hop further (`PEXMessage.forwarded`).
-/

namespace ChainBreaker

open Fallible

def DEFAULT_GOSSIP_TTL : Int := 3

/-- Peers are kept as the objects they were read as. -/
structure PEXMessage where
  peers : List Json
  ttl : Int
  hopCount : Int

namespace PEXMessage

/-- `PEXMessage(peers, ttl, hop_count)`. -/
def new (peers : List Json) (ttl hopCount : Int) : PEXMessage := ⟨peers, max 0 ttl, max 0 hopCount⟩

/-- `isinstance(v, list)` and at most 16 entries. -/
def peerList : Json → Except PyErr (List Json)
  | .list xs => if xs.length ≤ 16 then .ok xs else raise .networkValidationError "pex: invalid peer list" []
  | _ => raise .networkValidationError "pex: invalid peer list" []

/-- One turn of the loop of `from_payload`; a bool is an int. -/
def checkPeer : Json → Except PyErr Unit
  | .dict peer =>
    match Fields.get peer "host", Fields.get peer "port" with
    | some (.str _), some (.int _) => .ok ()
    | some (.str _), some (.bool _) => .ok ()
    | _, _ => raise .networkValidationError "pex: invalid peer endpoint" []
  | _ => raise .networkValidationError "pex: peer must be dict" []

def fromPayload (M : Runtime) (payload : Bytes) : Except PyErr PEXMessage := do
  let obj ← decodePayload M payload
  match obj with
  | .dict d => do
    let peers ← peerList ((Fields.get d "peers").getD (.list []))
    let _ ← collect checkPeer peers
    let ttl := (Fields.get d "ttl").getD (.int DEFAULT_GOSSIP_TTL)
    let hopCount := (Fields.get d "hop_count").getD (.int 0)
    validateNonnegativeInt ttl
    validateNonnegativeInt hopCount
    let ttl ← pyInt ttl
    let hopCount ← pyInt hopCount
    .ok (new peers ttl hopCount)
  | _ => raise .networkValidationError "pex: payload must be object" []

section
variable {M : Runtime} {payload : Bytes} {m : PEXMessage}

/-- The object of a message. -/
structure Reads (d : Fields) (m : PEXMessage) : Prop where
  peers : (Fields.get d "peers").getD (.list []) = .list m.peers
  few : m.peers.length ≤ 16
  endpoints : ∀ p ∈ m.peers, checkPeer p = .ok ()
  ttl : (Fields.get d "ttl").getD (.int DEFAULT_GOSSIP_TTL) = .int m.ttl ∧ 0 ≤ m.ttl
  hopCount : (Fields.get d "hop_count").getD (.int 0) = .int m.hopCount ∧ 0 ≤ m.hopCount

theorem peerList_eq_ok {v : Json} {xs : List Json} : peerList v = .ok xs ↔ v = .list xs ∧ xs.length ≤ 16 := by
  cases v with
  | list ys =>
    rw [peerList]
    split
    · rename_i hlen
      rw [Except.ok.injEq, Json.list.injEq]
      exact ⟨fun h => ⟨h, h ▸ hlen⟩, And.left⟩
    · rename_i hlen
      refine iff_of_false nofun ?_
      rintro ⟨heq, hle⟩
      cases heq
      exact hlen hle
  | _ => exact iff_of_false nofun fun h => nomatch h.1

theorem validateNonnegativeInt_eq_ok {v : Json} {u : Unit} :
    validateNonnegativeInt v = .ok u ↔ ∃ n, v = .int n ∧ 0 ≤ n := by
  cases v with
  | int n =>
    rw [validateNonnegativeInt, require_eq_ok]
    constructor
    · exact fun h => ⟨n, rfl, h⟩
    · rintro ⟨k, hk, h⟩
      exact Json.int.inj hk ▸ h
  | _ =>
    refine iff_of_false (by rintro ⟨⟩) ?_
    rintro ⟨_, ⟨⟩, _⟩

theorem fromPayload_eq_ok :
    fromPayload M payload = .ok m ↔ ∃ d, decodePayload M payload = .ok (.dict d) ∧ Reads d m := by
  constructor
  · intro h
    obtain ⟨obj, hobj, h⟩ := bind_eq_ok.mp h
    cases obj with
    | dict d =>
      simp only [bind_eq_ok, peerList_eq_ok, validateNonnegativeInt_eq_ok] at h
      obtain ⟨xs, ⟨hpeers, hfew⟩, _, hcheck, _, ⟨ttl, httl, ht⟩, _, ⟨hop, hhop, hh⟩, a, ha, b, hb, h⟩ := h
      rw [httl] at ha
      rw [hhop] at hb
      cases ha
      cases hb
      cases h
      refine ⟨d, hobj, hpeers, hfew, fun p hp => ?_, ?_, ?_⟩
      · obtain ⟨_, h⟩ := collect_mem hcheck p hp
        exact h
      · rw [new, max_eq_right ht]
        exact ⟨httl, ht⟩
      · rw [new, max_eq_right hh]
        exact ⟨hhop, hh⟩
    | _ => cases h
  · rintro ⟨d, hd, h⟩
    obtain ⟨us, hus⟩ := collect_of_forall fun p hp => ⟨(), h.endpoints p hp⟩
    rw [fromPayload, hd, ok_bind]
    dsimp only
    rw [h.peers, peerList_eq_ok.mpr ⟨rfl, h.few⟩, ok_bind, hus, ok_bind, h.ttl.1, h.hopCount.1,
      (validateNonnegativeInt_eq_ok (u := ())).mpr ⟨_, rfl, h.ttl.2⟩, ok_bind,
      (validateNonnegativeInt_eq_ok (u := ())).mpr ⟨_, rfl, h.hopCount.2⟩, ok_bind, pyInt, ok_bind, pyInt, ok_bind, new,
      max_eq_right h.ttl.2, max_eq_right h.hopCount.2]

/-! ## One hop further -/

theorem checkPeer_ok {v : Json} {u : Unit} (h : checkPeer v = .ok u) : ∃ p, v = .dict p ∧
    ∃ host port, Fields.get p "host" = some (.str host) ∧ Fields.get p "port" = some port ∧
      ((∃ n, port = .int n) ∨ ∃ b, port = .bool b) := by
  unfold checkPeer at h
  split at h
  · rename_i peer
    refine ⟨peer, rfl, ?_⟩
    split at h
    · rename_i host port hhost hport
      exact ⟨host, _, hhost, hport, .inl ⟨_, rfl⟩⟩
    · rename_i host port hhost hport
      exact ⟨host, _, hhost, hport, .inr ⟨_, rfl⟩⟩
    · cases h
  · cases h

/-- An endpoint is one with its keys sorted too. -/
theorem checkPeer_reread {v : Json} (hv : v.Loaded) (h : checkPeer v = .ok ()) : checkPeer v.norm.named = .ok () := by
  obtain ⟨p, rfl, host, port, hhost, hport, hkind⟩ := checkPeer_ok h
  obtain ⟨p', hp', hlookup⟩ := dict_reread hv
  rw [reread_loaded hv] at hp'
  have hhost' : Fields.get p' "host" = some (.str host) := by
    rw [Fields.get, hlookup, show p.lookup (str "host") = some (.str host) from hhost]
    rfl
  have hport' : Fields.get p' "port" = some port.norm.named := by
    rw [Fields.get, hlookup, show p.lookup (str "port") = some port from hport]
    rfl
  rw [hp', checkPeer, hhost', hport']
  rcases hkind with ⟨n, rfl⟩ | ⟨b, rfl⟩
  · rfl
  · rfl

theorem Reads.extracted {d : Fields} (h : Reads d m) (hload : loadsBytes M payload = .ok (.dict d))
    (httl : 0 < (GossipEngine.extractForwardFields M payload).1) :
    Fields.get d "ttl" = some (.int m.ttl) ∧ GossipEngine.extractForwardFields M payload = (m.ttl, m.hopCount) := by
  have hhop := h.hopCount.1
  have hfields : ∀ {ttl}, pyInt ((Fields.get d "ttl").getD (.int 0)) = .ok ttl →
      GossipEngine.extractForwardFields M payload = (ttl, m.hopCount) := by
    intro ttl httl
    unfold GossipEngine.extractForwardFields
    rw [hload, ok_bind]
    dsimp only
    rw [httl, ok_bind, hhop]
    rfl
  have hread := h.ttl.1
  cases hget : Fields.get d "ttl" with
  | none =>
    -- the class has a default of its own, the engine takes a missing ttl for spent
    rw [@hfields 0 (by rw [hget]; rfl)] at httl
    exact absurd httl (lt_irrefl 0)
  | some v =>
    rw [hget, Option.getD_some] at hread
    rw [hread] at hget
    rw [@hfields m.ttl (by rw [hget]; rfl)]
    exact ⟨congrArg some hread, rfl⟩

/-- **One hop.** What was a message is one again, of the same peers. -/
theorem forwarded (hM : FloatsRead M) (httl : 0 < (GossipEngine.extractForwardFields M payload).1)
    (h : fromPayload M payload = .ok m) :
    fromPayload M (GossipEngine.adjustFields M payload ((GossipEngine.extractForwardFields M payload).1 - 1)
      ((GossipEngine.extractForwardFields M payload).2 + 1)) =
        .ok ⟨m.peers.map fun p => p.norm.named, m.ttl - 1, m.hopCount + 1⟩ := by
  obtain ⟨d, hd, hm⟩ := fromPayload_eq_ok.mp h
  have hloads := loadsBytes_decoded hd
  have hloaded := loads_sound hd
  obtain ⟨hget, hfields⟩ := hm.extracted hloads httl
  rw [hfields] at httl ⊢
  dsimp only at httl ⊢
  -- the two puts
  have hd₁ : (Json.dict (Fields.put d (str "ttl") (.int (max 0 (m.ttl - 1))))).Loaded :=
    put_loaded hloaded (by decide) ⟨rfl, rfl⟩
  have hd₂ : (Json.dict (Fields.put (Fields.put d (str "ttl") (.int (max 0 (m.ttl - 1)))) (str "hop_count")
      (.int (m.hopCount + 1)))).Loaded := put_loaded hd₁ (by decide) ⟨rfl, rfl⟩
  have hkeys := (loaded_dict.mp hloaded).1
  have hkeys₁ := (loaded_dict.mp hd₁).1
  have hkeys₂ := (loaded_dict.mp hd₂).1
  obtain ⟨d', hd', hlookup⟩ := dict_reread hd₂
  refine fromPayload_eq_ok.mpr ⟨d', ?_, ?_⟩
  · rw [GossipEngine.adjustFields, hloads, ← hd']
    exact decodePayload_text hM _
  · have hpeers : Fields.get d' "peers" = (Fields.get d "peers").map fun v => v.norm.named := by
      rw [Fields.get, hlookup, lookup_put_other hkeys₁ hkeys₂ (by decide), lookup_put_other hkeys hkeys₁ (by decide)]
      rfl
    have httl' : Fields.get d' "ttl" = some (.int (max 0 (m.ttl - 1))) := by
      have hthere := (carries_put d (str "ttl") (.int (max 0 (m.ttl - 1)))).get
      rw [Fields.get] at hthere
      rw [Fields.get, hlookup, lookup_put_other hkeys₁ hkeys₂ (by decide), hthere]
      rfl
    have hhop' : Fields.get d' "hop_count" = some (.int (m.hopCount + 1)) := by
      have hthere := (carries_put (Fields.put d (str "ttl") (.int (max 0 (m.ttl - 1)))) (str "hop_count")
        (.int (m.hopCount + 1))).get
      rw [Fields.get] at hthere
      rw [Fields.get, hlookup, hthere]
      rfl
    have hpeer : ∀ p ∈ m.peers, p.Loaded := by
      have hlist := hm.peers
      cases hthere : Fields.get d "peers" with
      | none =>
        rw [hthere] at hlist
        rw [← Json.list.inj hlist]
        exact List.forall_mem_nil _
      | some v =>
        rw [hthere, Option.getD_some] at hlist
        rw [hlist] at hthere
        exact loaded_list.mp ((loaded_dict.mp hloaded).2 _ ((lookup_iff_mem hkeys).mp hthere)).2
    have hhop := hm.hopCount.2
    constructor
    · rw [hpeers]
      have hlist := hm.peers
      cases hthere : Fields.get d "peers" with
      | none =>
        rw [hthere] at hlist
        rw [← Json.list.inj hlist]
        rfl
      | some v =>
        rw [hthere, Option.getD_some] at hlist
        rw [hlist, Option.map_some, Option.getD_some, Json.norm, Json.named, normList_eq, namedList_eq, List.map_map]
        rfl
    · rw [List.length_map]
      exact hm.few
    · exact List.forall_mem_map.mpr fun p hp => checkPeer_reread (hpeer p hp) (hm.endpoints p hp)
    · rw [httl', Option.getD_some]
      exact ⟨congrArg Json.int (max_eq_right (by omega)), by dsimp only; omega⟩
    · rw [hhop', Option.getD_some]
      exact ⟨rfl, by dsimp only; omega⟩

end

end PEXMessage

namespace GossipEngine

theorem prepareForward_type (M : Runtime) (e : NetworkEnvelope) : (prepareForward M e).messageType = e.messageType := rfl

theorem pex_unknown : PEX ∉ KNOWN_MESSAGE_TYPES := by decide

theorem serializeEnvelope_unknown {E : Primitives} {messageType flags : Int} {payload : Bytes}
    (h : messageType ∉ KNOWN_MESSAGE_TYPES) : serializeEnvelope E messageType flags payload =
      .error ⟨.unknownMessageTypeError, "unknown message type: %", [.int messageType]⟩ := by
  rw [serializeEnvelope, require, if_neg h]
  rfl

/-- **Peer exchange stays off the wire.** The envelope a forward leaves is refused by
the serializer, and no message on the wire is one of its type; its payload is one
of the same peers, with the ttl one less and the hop count one more. -/
theorem pex_forward {M : Runtime} (hM : FloatsRead M) {e : NetworkEnvelope} (htype : e.messageType = PEX)
    (httl : 0 < (extractForwardFields M e.payload).1) :
    serializeEnvelope M.toPrimitives (prepareForward M e).messageType (prepareForward M e).flags (prepareForward M e).payload =
        .error ⟨.unknownMessageTypeError, "unknown message type: %", [.int PEX]⟩ ∧
      (∀ data received, parseEnvelope M.toPrimitives data = .ok received → received.messageType ≠ PEX) ∧
      ∀ m, PEXMessage.fromPayload M e.payload = .ok m →
        PEXMessage.fromPayload M (prepareForward M e).payload =
          .ok ⟨m.peers.map fun p => p.norm.named, m.ttl - 1, m.hopCount + 1⟩ := by
  have hnext : (prepareForward M e).messageType = PEX := (prepareForward_type M e).trans htype
  refine ⟨?_, fun data received h htype => ?_, fun m hm => PEXMessage.forwarded hM httl hm⟩
  · rw [hnext, serializeEnvelope_unknown pex_unknown]
  · exact pex_unknown (htype ▸ (parseEnvelope_ok _ h).1.known)

/-- One peer, three hops left. -/
def pexEnvelope : NetworkEnvelope :=
  ⟨PEX, 0, ascii "\x7b\"hop_count\":0,\"peers\":[\x7b\"host\":\"10.0.0.1\",\"port\":8333\x7d],\"ttl\":3\x7d"⟩

theorem pex_forward_peer : ∃ m, PEXMessage.fromPayload alphaCodec.toRuntime pexEnvelope.payload = .ok m ∧ m.peers.length = 1 ∧
    PEXMessage.fromPayload alphaCodec.toRuntime (prepareForward alphaCodec.toRuntime pexEnvelope).payload =
      .ok ⟨m.peers.map fun p => p.norm.named, 2, 1⟩ := by
  obtain ⟨m, hm, hp⟩ : ∃ m, PEXMessage.fromPayload alphaCodec.toRuntime pexEnvelope.payload = .ok m ∧
      decide (m.peers.length = 1 ∧ m.ttl = 3 ∧ m.hopCount = 0) = true := of_okAnd (by decide +kernel)
  obtain ⟨hlen, httl, hhop⟩ := of_decide_eq_true hp
  have hforward := (pex_forward (bitsCodec_read _) (show pexEnvelope.messageType = PEX from rfl) (by decide +kernel)).2.2 m hm
  rw [httl, hhop] at hforward
  exact ⟨m, hm, hlen, hforward⟩

/-- A fresh engine accepts the message, and what it forwards is not serialized. -/
theorem pex_unsent : ¬ ∀ (M : Runtime) (node : GossipEngine) (e : NetworkEnvelope) (fromPeerId : Str) (r : Readings),
    FloatsRead M → e.messageType = PEX → (node.receive M.toPrimitives e fromPeerId r).1 = .ok true →
    0 < (extractForwardFields M e.payload).1 → (extractForwardFields M e.payload).2 < node.limits.maxHops →
      ∃ raw, serializeEnvelope M.toPrimitives (prepareForward M e).messageType (prepareForward M e).flags
        (prepareForward M e).payload = .ok raw := by
  intro h
  obtain ⟨raw, hraw⟩ := h alphaCodec.toRuntime (.new {} ⟨1, 0, [], Int.one_pos⟩ 0 0) pexEnvelope (str "a") ⟨0, 0, 0, 0, 0, 0, 0⟩
    (bitsCodec_read _) rfl (of_okEq (by decide +kernel)) (by decide +kernel) (by decide +kernel)
  rw [prepareForward_type, show pexEnvelope.messageType = PEX from rfl, serializeEnvelope_unknown pex_unknown] at hraw
  cases hraw

end GossipEngine

end ChainBreaker
