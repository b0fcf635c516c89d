import ChainBreaker.Messages

/-!
# The handshake state machine

A `HandshakeSession` takes the messages of one handshake. An operation that
raises keeps the changes it has made before, so each returns its result together
with the session it leaves.
-/

namespace ChainBreaker

open Fallible

def HELLO : Int := 1
def HELLO_ACK : Int := 2

inductive HandshakeState where
  | new | sendHello | waitHelloAck | validating | established | rejected | closed
  deriving DecidableEq

/-- `_HANDSHAKE_VALID_TRANSITIONS`. -/
def HandshakeState.next : HandshakeState → List HandshakeState
  | .new => [.sendHello, .validating, .rejected]
  | .sendHello => [.waitHelloAck, .rejected, .closed]
  | .waitHelloAck => [.established, .rejected, .closed]
  | .validating => [.established, .rejected, .closed]
  | .established => [.closed, .rejected]
  | .rejected => [.closed]
  | .closed => []

structure HandshakeContext where
  networkId : Str
  genesisHash : Str
  localFeatures : List Str
  protocolVersion : Int

/-- The reason for a refusal, if there is one. -/
def HandshakeContext.validateHello (ctx : HandshakeContext) (msg : HelloMessage) : Option Str :=
  if msg.protocolVersion ≠ ctx.protocolVersion then
    some (str "unsupported protocol version " ++ asciiText (intRepr msg.protocolVersion))
  else if msg.networkId ≠ ctx.networkId then some (str "wrong network_id")
  else if msg.genesisHash ≠ ctx.genesisHash then some (str "wrong genesis_hash")
  else none

structure HandshakeSession where
  context : HandshakeContext
  state : HandshakeState := .new
  peerInfo : Option HelloMessage := none
  capabilities : Option (List Str) := none
  rejectReason : Option Json := none

namespace HandshakeSession

def transitionTo (s : HandshakeSession) (newState : HandshakeState) : Except PyErr Unit × HandshakeSession :=
  if newState ∈ s.state.next then (.ok (), { s with state := newState })
  else (raise .transportStateError "invalid handshake transition" [], s)

/-- `parse_envelope(serialize_envelope(message_type, payload=...))`. -/
def makeEnvelope (E : Primitives) (messageType : Int) (payload : Except PyErr Bytes) : Except PyErr NetworkEnvelope := do
  let payload ← payload
  let raw ← serializeEnvelope E messageType 0 payload
  parseEnvelope E raw

/-- The HELLO that a context sends. -/
def helloMessage (ctx : HandshakeContext) (localHeight : Int) (localChainWork : Str) : HelloMessage :=
  ⟨ctx.protocolVersion, ctx.networkId, ctx.genesisHash, localHeight, localChainWork, sortStrs ctx.localFeatures, []⟩

def sendHello (E : Primitives) (s : HandshakeSession) (localHeight : Int) (localChainWork : Str) :
    Except PyErr NetworkEnvelope × HandshakeSession :=
  if s.state ≠ .new then (raise .transportStateError "cannot send HELLO" [], s)
  else
    match s.transitionTo .sendHello with
    | (.error e, s) => (.error e, s)
    | (.ok _, s) => (makeEnvelope E HELLO ((helloMessage s.context localHeight localChainWork).toPayload E), s)

def reject (s : HandshakeSession) (reason : Json) : Except PyErr Unit × HandshakeSession :=
  if s.state = .established ∨ s.state = .closed then (raise .transportStateError "cannot reject" [], s)
  else
    let s := { s with rejectReason := some reason }
    if s.state ≠ .rejected then s.transitionTo .rejected else (.ok (), s)

def handleHello (B : Builtins) (s : HandshakeSession) (envelope : NetworkEnvelope) : Except PyErr Unit × HandshakeSession :=
  if envelope.messageType ≠ HELLO then s.reject (.str (str "expected HELLO"))
  else if s.state ≠ .new ∧ s.state ≠ .sendHello ∧ s.state ≠ .waitHelloAck then s.reject (.str (str "unexpected HELLO"))
  else
    match HelloMessage.fromPayload B envelope.payload with
    | .error e => s.reject (.str (str "invalid HELLO payload: " ++ B.errText e))
    | .ok msg =>
      match s.context.validateHello msg with
      | some reason => s.reject (.str reason)
      | none =>
        let s := { s with peerInfo := some msg, capabilities := some (s.context.localFeatures.filter (· ∈ msg.featureBits)) }
        if s.state = .sendHello then s.transitionTo .waitHelloAck
        else if s.state = .new then s.transitionTo .validating
        else (.ok (), s)

def decodeAckPayload (M : Runtime) (payload : Bytes) : Except PyErr Fields := do
  let data ← decodePayload M payload
  orRaise data.asDict? (err .transportValidationError "HELLO_ACK payload must be an object")

def handleHelloAck (B : Builtins) (s : HandshakeSession) (envelope : NetworkEnvelope) :
    Except PyErr Unit × HandshakeSession :=
  if envelope.messageType ≠ HELLO_ACK then s.reject (.str (str "expected HELLO_ACK"))
  else if s.state ≠ .waitHelloAck then s.reject (.str (str "unexpected HELLO_ACK"))
  else
    match decodeAckPayload B.toRuntime envelope.payload with
    | .error e => s.reject (.str (str "invalid HELLO_ACK payload: " ++ B.errText e))
    | .ok payload =>
      if (payload.getOrNull "ok").truthy = false then s.reject ((payload.get "reason").getD (.str (str "rejected")))
      else s.transitionTo .established

/-- `{"ok": ok, "reason": reason}` in an envelope. -/
def ackEnvelope (E : Primitives) (ok : Bool) (reason : Json) : Except PyErr NetworkEnvelope :=
  makeEnvelope E HELLO_ACK (encodePayload E (.dict [(str "ok", .bool ok), (str "reason", reason)]))

def buildHelloAck (E : Primitives) (s : HandshakeSession) (ok : Bool) (reason : Str) : Except PyErr NetworkEnvelope := do
  require (s.state = .validating ∨ s.state = .waitHelloAck ∨ s.state = .rejected)
    (err .transportStateError "cannot build HELLO_ACK")
  ackEnvelope E ok (.str reason)

def close (s : HandshakeSession) : Except PyErr Unit × HandshakeSession :=
  if s.state ≠ .rejected ∧ s.state ≠ .closed then s.transitionTo .closed else (.ok (), s)

/-! ## Envelopes made and read -/

theorem makeEnvelope_eq_ok {E : Primitives} {t : Int} {payload : Except PyErr Bytes} {e : NetworkEnvelope} :
    makeEnvelope E t payload = .ok e ↔ ∃ p, payload = .ok p ∧ NetworkEnvelope.Valid ⟨t, 0, p⟩ ∧ e = ⟨t, 0, p⟩ := by
  simp only [makeEnvelope, bind_eq_ok]
  constructor
  · rintro ⟨p, hp, raw, hraw, hparse⟩
    obtain ⟨hvalid, rfl⟩ := (serializeEnvelope_eq_ok E (e := ⟨t, 0, p⟩)).mp hraw
    rw [parseEnvelope_frame E hvalid] at hparse
    exact ⟨p, hp, hvalid, (Except.ok.inj hparse).symm⟩
  · rintro ⟨p, hp, hvalid, rfl⟩
    exact ⟨p, hp, _, (serializeEnvelope_eq_ok E (e := ⟨t, 0, p⟩)).mpr ⟨hvalid, rfl⟩, parseEnvelope_frame E hvalid⟩

theorem ackEnvelope_type {E : Primitives} {ok : Bool} {reason : Json} {e : NetworkEnvelope}
    (h : ackEnvelope E ok reason = .ok e) : e.messageType = HELLO_ACK := by
  obtain ⟨p, -, -, rfl⟩ := makeEnvelope_eq_ok.mp h
  rfl

/-- The positive answer can always be built. -/
theorem ackEnvelope_ok (E : Primitives) : ∃ e, ackEnvelope E true (.str []) = .ok e := by
  have htext : encodePayload E (.dict [(str "ok", .bool true), (str "reason", .str [])]) =
      .ok (ascii "\x7b\"ok\":true,\"reason\":\"\"\x7d") := by
    rfl
  exact ⟨_, makeEnvelope_eq_ok.mpr ⟨_, htext, ⟨by decide, by decide, by decide⟩, rfl⟩⟩

/-! ## The states an operation leads to -/

variable {B : Builtins} {s : HandshakeSession}

theorem reject_state (reason : Json) : (s.reject reason).2.state =
    if s.state = .established ∨ s.state = .closed then s.state else .rejected := by
  unfold reject
  by_cases h : s.state = .established ∨ s.state = .closed
  · rw [if_pos h, if_pos h]
  · rw [if_neg h, if_neg h]
    by_cases hr : s.state = .rejected
    · rw [if_neg (not_not.mpr hr)]
      exact hr
    · rw [if_pos hr]
      rcases s with ⟨ctx, st, info, caps, why⟩
      cases st <;> first | rfl | simp at h hr

theorem reject_open (reason : Json) (h : s.state = .new ∨ s.state = .sendHello) :
    s.reject reason = (.ok (), { s with state := .rejected, rejectReason := some reason }) := by
  rcases s with ⟨ctx, st, info, caps, why⟩
  rcases h with h | h
  · obtain rfl : st = .new := h
    rfl
  · obtain rfl : st = .sendHello := h
    rfl

theorem close_of_ne_new (h : s.state ≠ .new) :
    s.close.1 = .ok () ∧ s.close.2.state ≠ .new ∧ s.close.2.state ≠ .established := by
  rcases s with ⟨ctx, st, info, caps, why⟩
  cases st with
  | new => exact absurd rfl h
  | sendHello => exact ⟨rfl, nofun, nofun⟩
  | waitHelloAck => exact ⟨rfl, nofun, nofun⟩
  | validating => exact ⟨rfl, nofun, nofun⟩
  | established => exact ⟨rfl, nofun, nofun⟩
  | rejected => exact ⟨rfl, nofun, nofun⟩
  | closed => exact ⟨rfl, nofun, nofun⟩

/-- `close` is no legal step from the beginning: it raises and changes nothing. -/
theorem close_of_new (h : s.state = .new) : (∃ e, s.close.1 = .error e) ∧ s.close.2 = s := by
  rcases s with ⟨ctx, st, info, caps, why⟩
  obtain rfl : st = .new := h
  exact ⟨⟨_, rfl⟩, rfl⟩

theorem reject_left (reason : Json) (h : s.state ≠ .established) :
    (s.reject reason).2.state ≠ .established ∧ (s.reject reason).2.state ≠ .new := by
  rw [reject_state]
  by_cases hc : s.state = .closed
  · rw [if_pos (Or.inr hc), hc]
    exact ⟨nofun, nofun⟩
  · rw [if_neg (by simp [h, hc])]
    exact ⟨nofun, nofun⟩

/-- A HELLO neither establishes a session nor leaves it at the beginning. -/
theorem handleHello_left (envelope : NetworkEnvelope) (h : s.state ≠ .established) :
    (s.handleHello B envelope).2.state ≠ .established ∧ (s.handleHello B envelope).2.state ≠ .new := by
  unfold handleHello
  by_cases htype : envelope.messageType ≠ HELLO
  · rw [if_pos htype]
    exact reject_left _ h
  rw [if_neg htype]
  by_cases hstate : s.state ≠ .new ∧ s.state ≠ .sendHello ∧ s.state ≠ .waitHelloAck
  · rw [if_pos hstate]
    exact reject_left _ h
  rw [if_neg hstate]
  cases HelloMessage.fromPayload B envelope.payload with
  | error e => exact reject_left _ h
  | ok msg =>
    simp only
    cases s.context.validateHello msg with
    | some reason => exact reject_left _ h
    | none =>
      rcases s with ⟨ctx, st, info, caps, why⟩
      cases st with
      | new => exact ⟨by rintro ⟨⟩, by rintro ⟨⟩⟩
      | sendHello => exact ⟨by rintro ⟨⟩, by rintro ⟨⟩⟩
      | waitHelloAck => exact ⟨by rintro ⟨⟩, by rintro ⟨⟩⟩
      | validating => simp at hstate
      | established => exact absurd rfl h
      | rejected => simp at hstate
      | closed => simp at hstate

/-- A HELLO_ACK that establishes a session does not raise. -/
theorem handleHelloAck_left (envelope : NetworkEnvelope) (h : s.state ≠ .established) (hn : s.state ≠ .new) :
    (s.handleHelloAck B envelope).2.state ≠ .new ∧
      ((s.handleHelloAck B envelope).2.state = .established → (s.handleHelloAck B envelope).1 = .ok ()) := by
  have hreject : ∀ reason, (s.reject reason).2.state ≠ .new ∧
      ((s.reject reason).2.state = .established → (s.reject reason).1 = .ok ()) := fun reason =>
    ⟨(reject_left reason h).2, fun he => absurd he (reject_left reason h).1⟩
  unfold handleHelloAck
  by_cases htype : envelope.messageType ≠ HELLO_ACK
  · rw [if_pos htype]
    exact hreject _
  rw [if_neg htype]
  by_cases hstate : s.state ≠ .waitHelloAck
  · rw [if_pos hstate]
    exact hreject _
  rw [if_neg hstate]
  cases decodeAckPayload B.toRuntime envelope.payload with
  | error e => exact hreject _
  | ok payload =>
    simp only
    by_cases hok : (Fields.getOrNull payload "ok").truthy = false
    · rw [if_pos hok]
      exact hreject _
    · rw [if_neg hok]
      rcases s with ⟨ctx, st, info, caps, why⟩
      obtain rfl : st = .waitHelloAck := not_not.mp hstate
      exact ⟨nofun, fun _ => rfl⟩

end HandshakeSession

end ChainBreaker
