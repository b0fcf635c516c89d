import ChainBreaker.Handshake

/-!
# What a handshake session knows of its peer

Any calls, in any state and with any messages: a session that waits, validates or
is established has recorded a peer that its context accepts (`Linked`), and one
that has ended does not come back (`handshake_calls`).
-/

namespace ChainBreaker

open Fallible

/-- A call on a session, or the manager's step that establishes it. -/
inductive HandshakeCall where
  | sendHello (localHeight : Int) (localChainWork : Str)
  | handleHello (envelope : NetworkEnvelope)
  | handleHelloAck (envelope : NetworkEnvelope)
  | buildHelloAck (ok : Bool) (reason : Str)
  | reject (reason : Json)
  | close
  | establish

namespace HandshakeSession

variable (B : Builtins)

/-- The session after a call, which may have raised. -/
def call (s : HandshakeSession) : HandshakeCall → HandshakeSession
  | .sendHello localHeight localChainWork => (s.sendHello B.toPrimitives localHeight localChainWork).2
  | .handleHello envelope => (s.handleHello B envelope).2
  | .handleHelloAck envelope => (s.handleHelloAck B envelope).2
  | .buildHelloAck _ _ => s
  | .reject reason => (s.reject reason).2
  | .close => s.close.2
  | .establish => (s.transitionTo .established).2

def calls (s : HandshakeSession) (cs : List HandshakeCall) : HandshakeSession := cs.foldl (call B) s

/-- `HandshakeSession(context)`. -/
def new (context : HandshakeContext) : HandshakeSession := { context := context }

/-- The peer is one of the context, and the capabilities are the common ones. -/
structure Accepted (ctx : HandshakeContext) (info : HelloMessage) (capabilities : List Str) : Prop where
  protocolVersion : info.protocolVersion = ctx.protocolVersion
  networkId : info.networkId = ctx.networkId
  genesisHash : info.genesisHash = ctx.genesisHash
  capabilities : ∀ f, f ∈ capabilities ↔ f ∈ ctx.localFeatures ∧ f ∈ info.featureBits

def live (s : HandshakeSession) : Prop := s.state = .waitHelloAck ∨ s.state = .validating ∨ s.state = .established

def ended (s : HandshakeSession) : Prop := s.state = .rejected ∨ s.state = .closed

/-- The session of a context knows its peer while it is live. -/
structure Linked (ctx : HandshakeContext) (s : HandshakeSession) : Prop where
  context : s.context = ctx
  peer : s.live → ∃ info capabilities, s.peerInfo = some info ∧ s.capabilities = some capabilities ∧ Accepted ctx info capabilities

variable {B} {ctx : HandshakeContext} {s s' : HandshakeSession}

/-- The step records nothing of the peer. -/
structure Keeps (s s' : HandshakeSession) : Prop where
  context : s'.context = s.context
  peerInfo : s'.peerInfo = s.peerInfo
  capabilities : s'.capabilities = s.capabilities

theorem transitionTo_keeps (newState : HandshakeState) : s.Keeps (s.transitionTo newState).2 := by
  unfold transitionTo
  split <;> exact ⟨rfl, rfl, rfl⟩

theorem transitionTo_state (newState : HandshakeState) :
    (s.transitionTo newState).2.state = if newState ∈ s.state.next then newState else s.state := by
  unfold transitionTo
  split <;> rfl

theorem reject_keeps (reason : Json) : s.Keeps (s.reject reason).2 := by
  unfold reject
  split
  · exact ⟨rfl, rfl, rfl⟩
  · dsimp only
    split
    · obtain ⟨hcontext, hinfo, hcaps⟩ := transitionTo_keeps (s := { s with rejectReason := some reason }) .rejected
      exact ⟨hcontext, hinfo, hcaps⟩
    · exact ⟨rfl, rfl, rfl⟩

/-- A step that records nothing and comes to life at most from a live state. -/
theorem Linked.keep (h : Linked ctx s) (hkeeps : s.Keeps s') (hlive : s'.live → s.live) : Linked ctx s' := by
  refine ⟨hkeeps.context.trans h.context, fun hl => ?_⟩
  rw [hkeeps.peerInfo, hkeeps.capabilities]
  exact h.peer (hlive hl)

theorem validateHello_none {msg : HelloMessage} (h : ctx.validateHello msg = none) :
    Accepted ctx msg (ctx.localFeatures.filter (· ∈ msg.featureBits)) := by
  unfold HandshakeContext.validateHello at h
  split_ifs at h with hversion hnetwork hgenesis
  exact ⟨not_not.mp hversion, not_not.mp hnetwork, not_not.mp hgenesis, fun f => by simp⟩

/-! ## One call -/

theorem Linked.reject (h : Linked ctx s) (reason : Json) : Linked ctx (s.reject reason).2 := by
  refine h.keep (reject_keeps reason) fun hlive => ?_
  unfold live at hlive ⊢
  rw [reject_state] at hlive
  split_ifs at hlive with hstate
  · exact hlive
  · rcases hlive with hl | hl | hl <;> cases hl

/-- Only a live session can be established. -/
theorem Linked.establish (h : Linked ctx s) : Linked ctx (s.transitionTo .established).2 := by
  refine h.keep (transitionTo_keeps _) fun hlive => ?_
  unfold live at hlive ⊢
  rw [transitionTo_state] at hlive
  split_ifs at hlive with hnext
  · cases hs : s.state with
    | waitHelloAck => exact .inl rfl
    | validating => exact .inr (.inl rfl)
    | established => exact .inr (.inr rfl)
    | new => rw [hs] at hnext; exact absurd hnext (by decide)
    | sendHello => rw [hs] at hnext; exact absurd hnext (by decide)
    | rejected => rw [hs] at hnext; exact absurd hnext (by decide)
    | closed => rw [hs] at hnext; exact absurd hnext (by decide)
  · exact hlive

/-- No other step comes to life. -/
theorem Linked.leave (h : Linked ctx s) {newState : HandshakeState} (hnew : ¬ { s with state := newState }.live) :
    Linked ctx (s.transitionTo newState).2 := by
  refine h.keep (transitionTo_keeps _) fun hlive => ?_
  unfold live at hlive ⊢
  rw [transitionTo_state] at hlive
  split_ifs at hlive with hnext
  · exact absurd hlive hnew
  · exact hlive

theorem Linked.close (h : Linked ctx s) : Linked ctx s.close.2 := by
  unfold HandshakeSession.close
  split
  · exact h.leave (by simp [live])
  · exact h

theorem Linked.sendHello (h : Linked ctx s) (E : Primitives) (localHeight : Int) (localChainWork : Str) :
    Linked ctx (s.sendHello E localHeight localChainWork).2 := by
  have hleave : Linked ctx (s.transitionTo .sendHello).2 := h.leave (by simp [live])
  unfold HandshakeSession.sendHello
  split
  · exact h
  · cases htransition : s.transitionTo .sendHello with
    | mk outcome s' =>
      rw [htransition] at hleave
      cases outcome with
      | error e => exact hleave
      | ok u => exact hleave

theorem Linked.handleHelloAck (h : Linked ctx s) (envelope : NetworkEnvelope) : Linked ctx (s.handleHelloAck B envelope).2 := by
  unfold HandshakeSession.handleHelloAck
  split
  · exact h.reject _
  split
  · exact h.reject _
  cases decodeAckPayload B.toRuntime envelope.payload with
  | error e => exact h.reject _
  | ok payload =>
    dsimp only
    split
    · exact h.reject _
    · exact h.establish

theorem Linked.handleHello (h : Linked ctx s) (envelope : NetworkEnvelope) : Linked ctx (s.handleHello B envelope).2 := by
  unfold HandshakeSession.handleHello
  split
  · exact h.reject _
  split
  · exact h.reject _
  cases HelloMessage.fromPayload B envelope.payload with
  | error e => exact h.reject _
  | ok msg =>
    dsimp only
    cases hvalid : s.context.validateHello msg with
    | some reason => exact h.reject _
    | none =>
      have haccepted := validateHello_none hvalid
      rw [h.context] at haccepted
      -- whatever the new state, the accepted peer has been recorded before it
      have hrecorded : ∀ s', Keeps { s with
          peerInfo := some msg, capabilities := some (s.context.localFeatures.filter (· ∈ msg.featureBits)) } s' →
          Linked ctx s' := by
        intro s' hkeeps
        refine ⟨hkeeps.context.trans h.context, fun _ => ⟨msg, _, hkeeps.peerInfo, hkeeps.capabilities, ?_⟩⟩
        rw [h.context]
        exact haccepted
      dsimp only
      split
      · exact hrecorded _ (transitionTo_keeps _)
      · split
        · exact hrecorded _ (transitionTo_keeps _)
        · exact hrecorded _ ⟨rfl, rfl, rfl⟩

theorem linked_call (h : Linked ctx s) : ∀ c : HandshakeCall, Linked ctx (s.call B c)
  | .sendHello localHeight localChainWork => h.sendHello _ localHeight localChainWork
  | .handleHello envelope => h.handleHello envelope
  | .handleHelloAck envelope => h.handleHelloAck envelope
  | .buildHelloAck _ _ => h
  | .reject reason => h.reject reason
  | .close => h.close
  | .establish => h.establish

theorem ended_reject (h : s.ended) (reason : Json) : (s.reject reason).2.ended := by
  unfold ended
  rw [reject_state]
  split
  · exact h
  · exact .inl rfl

theorem ended_transitionTo (h : s.ended) (newState : HandshakeState) : (s.transitionTo newState).2.ended := by
  unfold ended
  rw [transitionTo_state]
  split
  · rename_i hnext
    rcases h with h | h <;> rw [h] at hnext
    · exact .inr (List.mem_singleton.mp hnext)
    · cases hnext
  · exact h

theorem ended_call (h : s.ended) : ∀ c : HandshakeCall, (s.call B c).ended
  | .sendHello localHeight localChainWork => by
    have hnew : s.state ≠ .new := by rcases h with h | h <;> rw [h] <;> decide
    change (s.sendHello B.toPrimitives localHeight localChainWork).2.ended
    rw [HandshakeSession.sendHello, if_pos hnew]
    exact h
  | .handleHello envelope => by
    have hstate : s.state ≠ .new ∧ s.state ≠ .sendHello ∧ s.state ≠ .waitHelloAck := by
      rcases h with h | h <;> rw [h] <;> decide
    change (s.handleHello B envelope).2.ended
    rw [HandshakeSession.handleHello, if_pos hstate]
    split
    · exact ended_reject h _
    · exact ended_reject h _
  | .handleHelloAck envelope => by
    have hstate : s.state ≠ .waitHelloAck := by rcases h with h | h <;> rw [h] <;> decide
    change (s.handleHelloAck B envelope).2.ended
    rw [HandshakeSession.handleHelloAck, if_pos hstate]
    split
    · exact ended_reject h _
    · exact ended_reject h _
  | .buildHelloAck _ _ => h
  | .reject reason => ended_reject h reason
  | .close => by
    change s.close.2.ended
    rw [HandshakeSession.close]
    split
    · exact ended_transitionTo h _
    · exact h
  | .establish => ended_transitionTo h _

/-! ## Any calls -/

theorem linked_calls (h : Linked ctx s) (cs : List HandshakeCall) : Linked ctx (s.calls B cs) :=
  List.foldlRecOn cs (call B) h fun _ hs c _ => linked_call hs c

theorem ended_calls (h : s.ended) (cs : List HandshakeCall) : (s.calls B cs).ended :=
  List.foldlRecOn cs (call B) h fun _ hs c _ => ended_call hs c

/-- **The session and the peer it knows.** After any calls on a new session, a live
one has recorded a peer of its context and the features that both have; and no
session is established that was ended before. -/
theorem handshake_calls (B : Builtins) (ctx : HandshakeContext) (cs : List HandshakeCall) :
    (((new ctx).calls B cs).live → ∃ info capabilities, ((new ctx).calls B cs).peerInfo = some info ∧
      ((new ctx).calls B cs).capabilities = some capabilities ∧ Accepted ctx info capabilities) ∧
    ∀ before later, cs = before ++ later → ((new ctx).calls B before).ended →
      ((new ctx).calls B cs).state ≠ .established := by
  have hnew : Linked ctx (new ctx) := ⟨rfl, fun h => by rcases h with h | h | h <;> cases h⟩
  refine ⟨(linked_calls hnew cs).peer, ?_⟩
  rintro before later rfl hended
  have hstill := ended_calls (B := B) hended later
  rw [HandshakeSession.calls, HandshakeSession.calls, ← List.foldl_append] at hstill
  rcases hstill with h | h <;> rw [HandshakeSession.calls, h] <;> decide

end HandshakeSession

end ChainBreaker
