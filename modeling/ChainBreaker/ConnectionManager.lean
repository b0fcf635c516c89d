import ChainBreaker.Handshake

/-!
# The connection manager

A call of `accept` or `register_inbound` stops at every send and receive of its
transport, and the calls mix in any order there. `Attempt` is such a call with
its managed connection; `ConnectionManager` numbers them as they begin.
-/

namespace ChainBreaker

open Fallible

/-- Where a call waits. -/
inductive Point where
  /-- `accept`: sending our HELLO, receiving the peer's, sending and receiving the HELLO_ACK -/
  | sendHello (hello : NetworkEnvelope)
  | receiveHello
  | sendAck (ack : NetworkEnvelope)
  | receiveAck
  /-- `register_inbound`: receiving a HELLO, answering it -/
  | inboundHello
  | sendRefusal (ack : NetworkEnvelope) (reason : Json)
  | answer (ack : NetworkEnvelope)
  /-- the `finally` block, behind `handshake.close()`: closing the transport -/
  | closing (e : PyErr)
  | returned
  | raised (e : PyErr)

/-- How an await ends. -/
inductive Reply where
  | sent
  | received (envelope : NetworkEnvelope)
  | failed (e : PyErr)

structure Attempt where
  connectionId : Str
  peerKey : Str
  session : HandshakeSession
  point : Point
  /-- the entry was popped by `remove`; nothing reads it -/
  removed : Bool := false

/-- What a stretch between two awaits does to the manager. -/
structure Effects where
  recordReject : Bool := false
  pop : Bool := false

def Point.ended : Point → Bool
  | .returned => true
  | .raised _ => true
  | _ => false

namespace Attempt

/-- The `finally` block under the exception `e`, up to the closing of the transport. -/
def fail (a : Attempt) (e : PyErr) : Attempt :=
  if a.session.state = .established then { a with point := .raised e }
  else
    match a.session.close with
    | (.error e', session) => { a with session := session, point := .raised e' }
    | (.ok _, session) => { a with session := session, point := .closing e }

/-- `session.reject_reason or "rejected"`. -/
def rejection (s : HandshakeSession) : Json :=
  match s.rejectReason with
  | some reason => if reason.truthy then reason else .str (str "rejected")
  | none => .str (str "rejected")

def validationError (reason : Json) : PyErr := ⟨.transportValidationError, "%", [reason]⟩

variable (B : Builtins)

/-- `accept` up to its first await. -/
def outbound (context : HandshakeContext) (connectionId peerKey : Str) : Attempt :=
  let a : Attempt := ⟨connectionId, peerKey, { context := context }, .returned, false⟩
  match a.session.sendHello B.toPrimitives 0 (List.replicate 64 48) with
  | (.error e, session) => { a with session := session }.fail e
  | (.ok hello, session) => { a with session := session, point := .sendHello hello }

/-- `register_inbound` up to its first await. -/
def inbound (context : HandshakeContext) (connectionId peerKey : Str) : Attempt :=
  ⟨connectionId, peerKey, { context := context }, .inboundHello, false⟩

/-- `accept` with the peer's HELLO. -/
def takeHello (a : Attempt) (envelope : NetworkEnvelope) : Attempt × Effects :=
  match a.session.handleHello B envelope with
  | (.error e, session) => ({ a with session := session }.fail e, {})
  | (.ok _, session) =>
    let a := { a with session := session }
    if session.state = .rejected then (a.fail (validationError (rejection session)), { recordReject := true })
    else
      match session.buildHelloAck B.toPrimitives true [] with
      | .error e => (a.fail e, {})
      | .ok ack => ({ a with point := .sendAck ack }, {})

/-- `accept` with the peer's HELLO_ACK. -/
def takeAck (a : Attempt) (envelope : NetworkEnvelope) : Attempt × Effects :=
  match a.session.handleHelloAck B envelope with
  | (.error e, session) => ({ a with session := session }.fail e, {})
  | (.ok _, session) =>
    let a := { a with session := session }
    if session.state = .rejected then (a.fail (validationError (rejection session)), { recordReject := true })
    else if session.state ≠ .established then (a.fail (err .transportValidationError "handshake did not establish"), {})
    else ({ a with point := .returned }, {})

/-- `register_inbound` with the peer's HELLO. -/
def takeInbound (a : Attempt) (envelope : NetworkEnvelope) : Attempt × Effects :=
  match a.session.handleHello B envelope with
  | (.error e, session) => ({ a with session := session }.fail e, {})
  | (.ok _, session) =>
    let a := { a with session := session }
    if session.state = .rejected then
      match HandshakeSession.ackEnvelope B.toPrimitives false (rejection session) with
      | .error e => (a.fail e, {})
      | .ok ack => ({ a with point := .sendRefusal ack (rejection session) }, {})
    else
      match session.buildHelloAck B.toPrimitives true [] with
      | .error e => (a.fail e, {})
      | .ok ack => ({ a with point := .answer ack }, {})

/-- `register_inbound` behind its HELLO_ACK. -/
def answered (a : Attempt) : Attempt :=
  match a.session.transitionTo .established with
  | (.error e, session) => { a with session := session }.fail e
  | (.ok _, session) => { a with session := session, point := .returned }

/-- The stretch of the call that the reply sets going. -/
def resume (a : Attempt) (r : Reply) : Attempt × Effects :=
  match a.point, r with
  | .sendHello _, .sent => ({ a with point := .receiveHello }, {})
  | .receiveHello, .received envelope => a.takeHello B envelope
  | .sendAck _, .sent => ({ a with point := .receiveAck }, {})
  | .receiveAck, .received envelope => a.takeAck B envelope
  | .inboundHello, .received envelope => a.takeInbound B envelope
  | .answer _, .sent => (a.answered, {})
  -- a refusal that cannot be sent is none the less recorded
  | .sendRefusal _ reason, .sent => (a.fail (validationError reason), { recordReject := true })
  | .sendRefusal _ reason, .failed _ => (a.fail (validationError reason), { recordReject := true })
  -- nor does it matter how the closing of the transport ends
  | .closing e, .sent => ({ a with point := .raised e }, { pop := true })
  | .closing e, .failed _ => ({ a with point := .raised e }, { pop := true })
  | .sendHello _, .failed e => (a.fail e, {})
  | .receiveHello, .failed e => (a.fail e, {})
  | .sendAck _, .failed e => (a.fail e, {})
  | .receiveAck, .failed e => (a.fail e, {})
  | .inboundHello, .failed e => (a.fail e, {})
  | .answer _, .failed e => (a.fail e, {})
  | _, _ => (a, {})

end Attempt

/-! ## The manager -/

structure ConnectionManager where
  context : HandshakeContext
  maxConnections : Nat := 128
  /-- the calls so far, by number -/
  attempts : List Attempt := []
  /-- `_connections`, from the id to the call it belongs to -/
  connections : List (Str × Nat) := []
  rejectCounts : List (Str × Nat) := []
  bannedPeers : List Str := []
  /-- what the `cleanup` calls still have to remove -/
  cleanups : List (List Str) := []

/-- What happens next: a call begins, a reply comes for the call of a number, or a
`cleanup` goes on. -/
inductive ManagerEvent where
  | accept (connectionId peerKey : Str)
  | registerInbound (connectionId peerKey : Str)
  | reply (number : Nat) (r : Reply)
  | remove (connectionId : Str)
  | cleanup
  | cleanupNext (number : Nat)

namespace ConnectionManager

/-- `ConnectionManager(handshake_context, max_connections)`. -/
def new (context : HandshakeContext) (maxConnections : Nat) : ConnectionManager :=
  { context := context, maxConnections := maxConnections }

/-- The checks of `_prepare`. -/
def prepare (m : ConnectionManager) (connectionId peerKey : Str) : Except PyErr Unit := do
  require (peerKey ∉ m.bannedPeers) ⟨.transportLimitError, "peer % is banned", [.str peerKey]⟩
  require (m.connections.length < m.maxConnections) (err .transportLimitError "connection manager at capacity")
  require (m.connections.lookup connectionId = none)
    ⟨.transportStateError, "connection id % already exists", [.str connectionId]⟩

/-- A call that `_prepare` lets in gets the next number and the entry of its id. -/
def start (m : ConnectionManager) (a : Attempt) : ConnectionManager :=
  match m.prepare a.connectionId a.peerKey with
  | .error _ => m
  | .ok _ => { m with attempts := m.attempts ++ [a], connections := m.connections ++ [(a.connectionId, m.attempts.length)] }

/-- `_connections.pop(connection_id, None)`. -/
def pop (m : ConnectionManager) (connectionId : Str) : ConnectionManager :=
  { m with connections := m.connections.filter fun entry => entry.1 != connectionId }

def recordReject (m : ConnectionManager) (peerKey : Str) : ConnectionManager :=
  let count := (m.rejectCounts.lookup peerKey).getD 0 + 1
  let m := { m with rejectCounts := (peerKey, count) :: m.rejectCounts.filter fun entry => entry.1 != peerKey }
  if 3 ≤ count then { m with bannedPeers := peerKey :: m.bannedPeers } else m

/-- `remove`, up to the closing of the transport; `_connections` has lost the entry
also where `managed.close()` raises. -/
def remove (m : ConnectionManager) (connectionId : Str) : Except PyErr Unit × ConnectionManager :=
  match m.connections.lookup connectionId with
  | none => (.ok (), m)
  | some number =>
    match m.attempts[number]? with
    | none => (.ok (), m.pop connectionId)
    | some a =>
      let (r, session) := a.session.close
      (r, { m.pop connectionId with attempts := m.attempts.set number { a with session := session, removed := true } })

variable (B : Builtins)

/-- The call of the number goes on with the reply. -/
def reply (m : ConnectionManager) (number : Nat) (r : Reply) : ConnectionManager :=
  match m.attempts[number]? with
  | none => m
  | some a =>
    let (a, effects) := a.resume B r
    let m := { m with attempts := m.attempts.set number a }
    let m := if effects.recordReject then m.recordReject a.peerKey else m
    if effects.pop then m.pop a.connectionId else m

/-- A `cleanup` removes the next of its ids, unless one before has raised. -/
def cleanupNext (m : ConnectionManager) (number : Nat) : ConnectionManager :=
  match m.cleanups[number]? with
  | some (connectionId :: ids) =>
    match m.remove connectionId with
    | (.ok _, m) => { m with cleanups := m.cleanups.set number ids }
    | (.error _, m) => { m with cleanups := m.cleanups.set number [] }
  | _ => m

def step (m : ConnectionManager) : ManagerEvent → ConnectionManager
  | .accept connectionId peerKey => m.start (Attempt.outbound B m.context connectionId peerKey)
  | .registerInbound connectionId peerKey => m.start (Attempt.inbound m.context connectionId peerKey)
  | .reply number r => m.reply B number r
  | .remove connectionId => (m.remove connectionId).2
  | .cleanup => { m with cleanups := m.cleanups ++ [m.connections.map Prod.fst] }
  | .cleanupNext number => m.cleanupNext number

def run (m : ConnectionManager) (events : List ManagerEvent) : ConnectionManager := events.foldl (step B) m

end ConnectionManager

/-! ## One stretch of a call -/

namespace Attempt

variable {B : Builtins} {a : Attempt}

/-- What the point of a call says of its session. -/
structure Sane (a : Attempt) : Prop where
  established : a.session.state = .established → a.point = .returned
  started : a.point.ended = false → a.point ≠ .inboundHello → a.session.state ≠ .new

theorem fail_started (e : PyErr) (hs : a.session.state ≠ .new) (he : a.session.state ≠ .established) :
    (a.fail e).Sane ∧ ∃ session, a.fail e = { a with session := session, point := .closing e } := by
  obtain ⟨hok, hnew, hestablished⟩ := HandshakeSession.close_of_ne_new hs
  unfold fail
  rw [if_neg he]
  rcases hclose : a.session.close with ⟨_ | _, session⟩
  · rw [hclose] at hok
    cases hok
  · rw [hclose] at hnew hestablished
    exact ⟨⟨fun h => absurd h hestablished, fun _ _ => hnew⟩, session, rfl⟩

theorem fail_new (e : PyErr) (hs : a.session.state = .new) : ∃ e', a.fail e = { a with point := .raised e' } := by
  obtain ⟨⟨e', he'⟩, hsame⟩ := HandshakeSession.close_of_new hs
  unfold fail
  rw [if_neg (by rw [hs]; nofun)]
  rcases hclose : a.session.close with ⟨_ | _, session⟩
  · rw [hclose] at hsame
    exact ⟨_, by rw [← hsame]⟩
  · rw [hclose] at he'
    cases he'

theorem fail_rejected (e : PyErr) (hs : a.session.state = .rejected) : a.fail e = { a with point := .closing e } := by
  rcases a with ⟨id, peer, ⟨ctx, st, info, caps, why⟩, point, removed⟩
  obtain rfl : st = .rejected := hs
  rfl

/-- What a stretch of a call does, whatever the reply. -/
structure Resumed (a : Attempt) (r : Reply) (a' : Attempt) (effects : Effects) : Prop where
  same : a'.connectionId = a.connectionId ∧ a'.removed = a.removed
  sane : a'.Sane
  /-- the entry is popped as the call ends -/
  pops : effects.pop = true → a.point.ended = false ∧ ∃ e, a'.point = .raised e
  /-- only a `register_inbound` whose first receive fails ends without that -/
  ends : (∃ e, a'.point = .raised e) → (∃ e, a.point = .raised e) ∨ effects.pop = true ∨
    (a.point = .inboundHello ∧ ∃ e, r = .failed e)
  stays : a.point.ended = true → a' = a

theorem Resumed.of_fail {r : Reply} {b : Attempt} (e : PyErr) {effects : Effects} (hpop : effects.pop = false)
    (hended : a.point.ended = false)
    (hid : b.connectionId = a.connectionId ∧ b.removed = a.removed) (hs : b.session.state ≠ .new)
    (he : b.session.state ≠ .established) : Resumed a r (b.fail e) effects := by
  obtain ⟨hsane, session, heq⟩ := fail_started e hs he
  refine ⟨?_, hsane, fun h => ?_, fun ⟨e', h⟩ => ?_, fun h => ?_⟩
  · rw [heq]
    exact hid
  · rw [hpop] at h
    cases h
  · rw [heq] at h
    cases h
  · rw [hended] at h
    cases h

theorem Resumed.of_point {r : Reply} {b : Attempt} {effects : Effects} (hpop : effects.pop = false)
    (hended : a.point.ended = false) (hraised : ∀ e, b.point ≠ .raised e)
    (hid : b.connectionId = a.connectionId ∧ b.removed = a.removed) (hsane : b.Sane) : Resumed a r b effects := by
  refine ⟨hid, hsane, fun h => ?_, fun ⟨e', h⟩ => absurd h (hraised e'), fun h => ?_⟩
  · rw [hpop] at h
    cases h
  · rw [hended] at h
    cases h

theorem Resumed.refl (h : a.Sane) (r : Reply) : Resumed a r a {} :=
  ⟨⟨rfl, rfl⟩, h, nofun, Or.inl, fun _ => rfl⟩

theorem takeHello_resumed {r : Reply} (envelope : NetworkEnvelope) (hended : a.point.ended = false)
    (hs : a.session.state ≠ .established) : Resumed a r (a.takeHello B envelope).1 (a.takeHello B envelope).2 := by
  obtain ⟨hestablished, hnew⟩ := HandshakeSession.handleHello_left (B := B) envelope hs
  unfold takeHello
  rcases hh : a.session.handleHello B envelope with ⟨_ | _, session⟩
  · rw [hh] at hestablished hnew
    exact .of_fail _ rfl hended ⟨rfl, rfl⟩ hnew hestablished
  · rw [hh] at hestablished hnew
    simp only
    by_cases hr : session.state = .rejected
    · rw [if_pos hr]
      exact .of_fail _ rfl hended ⟨rfl, rfl⟩ hnew hestablished
    · rw [if_neg hr]
      cases session.buildHelloAck B.toPrimitives true [] with
      | error e => exact .of_fail _ rfl hended ⟨rfl, rfl⟩ hnew hestablished
      | ok ack => exact .of_point rfl hended nofun ⟨rfl, rfl⟩ ⟨fun h => absurd h hestablished, fun _ _ => hnew⟩

theorem takeInbound_resumed {r : Reply} (envelope : NetworkEnvelope) (hended : a.point.ended = false)
    (hs : a.session.state ≠ .established) : Resumed a r (a.takeInbound B envelope).1 (a.takeInbound B envelope).2 := by
  obtain ⟨hestablished, hnew⟩ := HandshakeSession.handleHello_left (B := B) envelope hs
  unfold takeInbound
  rcases hh : a.session.handleHello B envelope with ⟨_ | _, session⟩
  · rw [hh] at hestablished hnew
    exact .of_fail _ rfl hended ⟨rfl, rfl⟩ hnew hestablished
  · rw [hh] at hestablished hnew
    simp only
    by_cases hr : session.state = .rejected
    · rw [if_pos hr]
      cases HandshakeSession.ackEnvelope B.toPrimitives false (rejection session) with
      | error e => exact .of_fail _ rfl hended ⟨rfl, rfl⟩ hnew hestablished
      | ok ack => exact .of_point rfl hended nofun ⟨rfl, rfl⟩ ⟨fun h => absurd h hestablished, fun _ _ => hnew⟩
    · rw [if_neg hr]
      cases session.buildHelloAck B.toPrimitives true [] with
      | error e => exact .of_fail _ rfl hended ⟨rfl, rfl⟩ hnew hestablished
      | ok ack => exact .of_point rfl hended nofun ⟨rfl, rfl⟩ ⟨fun h => absurd h hestablished, fun _ _ => hnew⟩

theorem takeAck_resumed {r : Reply} (envelope : NetworkEnvelope) (hended : a.point.ended = false)
    (hs : a.session.state ≠ .established) (hn : a.session.state ≠ .new) :
    Resumed a r (a.takeAck B envelope).1 (a.takeAck B envelope).2 := by
  obtain ⟨hnew, hok⟩ := HandshakeSession.handleHelloAck_left (B := B) envelope hs hn
  unfold takeAck
  rcases hh : a.session.handleHelloAck B envelope with ⟨_ | _, session⟩
  · rw [hh] at hnew hok
    exact .of_fail _ rfl hended ⟨rfl, rfl⟩ hnew fun h => by cases hok h
  · rw [hh] at hnew
    simp only
    by_cases hr : session.state = .rejected
    · rw [if_pos hr]
      exact .of_fail _ rfl hended ⟨rfl, rfl⟩ hnew (by rw [hr]; nofun)
    · rw [if_neg hr]
      by_cases he : session.state ≠ .established
      · rw [if_pos he]
        exact .of_fail _ rfl hended ⟨rfl, rfl⟩ hnew he
      · rw [if_neg he]
        exact .of_point rfl hended nofun ⟨rfl, rfl⟩ ⟨fun _ => rfl, nofun⟩

theorem answered_resumed {r : Reply} (hended : a.point.ended = false) (hs : a.session.state ≠ .established)
    (hn : a.session.state ≠ .new) : Resumed a r a.answered {} := by
  unfold answered HandshakeSession.transitionTo
  by_cases h : HandshakeState.established ∈ a.session.state.next
  · rw [if_pos h]
    exact .of_point rfl hended nofun ⟨rfl, rfl⟩ ⟨fun _ => rfl, nofun⟩
  · rw [if_neg h]
    exact .of_fail _ rfl hended ⟨rfl, rfl⟩ hn hs

theorem Sane.not_established (h : a.Sane) (hended : a.point.ended = false) : a.session.state ≠ .established := by
  intro he
  rw [h.established he] at hended
  cases hended

theorem resume_resumed (h : a.Sane) (r : Reply) : Resumed a r (a.resume B r).1 (a.resume B r).2 := by
  by_cases hended : a.point.ended = true
  · have hsame : a.resume B r = (a, {}) := by
      unfold resume
      cases hp : a.point <;> first | rfl | (rw [hp] at hended; cases hended)
    rw [hsame]
    exact .refl h r
  rw [Bool.not_eq_true] at hended
  have hs := h.not_established hended
  by_cases hin : a.point = .inboundHello
  · unfold resume
    rw [hin]
    cases r with
    | sent => exact .refl h _
    | received envelope => exact takeInbound_resumed envelope hended hs
    | failed e =>
      by_cases hn : a.session.state = .new
      · obtain ⟨e', heq⟩ := fail_new e hn
        simp only [heq]
        exact ⟨⟨rfl, rfl⟩, ⟨fun he => absurd he hs, nofun⟩, nofun, fun _ => Or.inr (Or.inr ⟨hin, e, rfl⟩),
          fun hp => by rw [hended] at hp; cases hp⟩
      · exact .of_fail e rfl hended ⟨rfl, rfl⟩ hn hs
  have hn := h.started hended hin
  have hfail : ∀ (e : PyErr) (effects : Effects), effects.pop = false → Resumed a r (a.fail e) effects :=
    fun e effects hpop => .of_fail e hpop hended ⟨rfl, rfl⟩ hn hs
  have hgo : ∀ p : Point, p.ended = false → Resumed a r { a with point := p } {} := fun p hp =>
    .of_point rfl hended (fun e he => by subst he; cases hp) ⟨rfl, rfl⟩ ⟨fun he => absurd he hs, fun _ _ => hn⟩
  unfold resume
  cases hp : a.point with
  | inboundHello => exact absurd hp hin
  | returned => rw [hp] at hended; cases hended
  | raised e => rw [hp] at hended; cases hended
  | sendHello hello =>
    cases r with
    | sent => exact hgo _ rfl
    | received envelope => exact .refl h _
    | failed e => exact hfail e _ rfl
  | receiveHello =>
    cases r with
    | sent => exact .refl h _
    | received envelope => exact takeHello_resumed envelope hended hs
    | failed e => exact hfail e _ rfl
  | sendAck ack =>
    cases r with
    | sent => exact hgo _ rfl
    | received envelope => exact .refl h _
    | failed e => exact hfail e _ rfl
  | receiveAck =>
    cases r with
    | sent => exact .refl h _
    | received envelope => exact takeAck_resumed envelope hended hs hn
    | failed e => exact hfail e _ rfl
  | sendRefusal ack reason =>
    cases r with
    | sent => exact hfail _ _ rfl
    | received envelope => exact .refl h _
    | failed e => exact hfail _ _ rfl
  | answer ack =>
    cases r with
    | sent => exact answered_resumed hended hs hn
    | received envelope => exact .refl h _
    | failed e => exact hfail e _ rfl
  | closing e =>
    have hclosed : Resumed a r { a with point := .raised e } { pop := true } :=
      ⟨⟨rfl, rfl⟩, ⟨fun he => absurd he hs, nofun⟩, fun _ => ⟨hended, e, rfl⟩, fun _ => Or.inr (Or.inl rfl),
        fun hp => by rw [hended] at hp; cases hp⟩
    cases r with
    | sent => exact hclosed
    | received envelope => exact .refl h _
    | failed e' => exact hclosed

end Attempt

/-! ## The entries of the manager -/

theorem outbound_sane (B : Builtins) (context : HandshakeContext) (connectionId peerKey : Str) :
    (Attempt.outbound B context connectionId peerKey).Sane ∧
      (Attempt.outbound B context connectionId peerKey).connectionId = connectionId ∧
      (Attempt.outbound B context connectionId peerKey).removed = false ∧
      ∀ e, (Attempt.outbound B context connectionId peerKey).point ≠ .raised e := by
  have hstate : ((⟨context, .new, none, none, none⟩ : HandshakeSession).sendHello B.toPrimitives 0
      (List.replicate 64 48)).2.state = .sendHello := rfl
  unfold Attempt.outbound
  simp only
  rcases hsend : (⟨context, .new, none, none, none⟩ : HandshakeSession).sendHello B.toPrimitives 0 (List.replicate 64 48)
    with ⟨e | hello, session⟩
  · rw [hsend] at hstate
    obtain ⟨hsane, session', heq⟩ := Attempt.fail_started
      (a := ⟨connectionId, peerKey, session, .returned, false⟩) e (by rw [hstate]; nofun) (by rw [hstate]; nofun)
    simp only
    rw [heq] at hsane ⊢
    exact ⟨hsane, rfl, rfl, nofun⟩
  · rw [hsend] at hstate
    have hsession : session.state = .sendHello := hstate
    exact ⟨⟨fun h => absurd (hsession.symm.trans h) nofun, fun _ _ h => absurd (hsession.symm.trans h) nofun⟩,
      rfl, rfl, nofun⟩

theorem inbound_sane (context : HandshakeContext) (connectionId peerKey : Str) :
    (Attempt.inbound context connectionId peerKey).Sane := ⟨nofun, fun _ h => absurd rfl h⟩

/-- The values of a list of pairs with different keys. -/
theorem nodup_keys_unique {l : List (Str × Nat)} (h : (l.map Prod.fst).Nodup) {id : Str} {j k : Nat} (hj : (id, j) ∈ l)
    (hk : (id, k) ∈ l) : j = k :=
  congrArg Prod.snd (List.inj_on_of_nodup_map h hj hk rfl)

namespace ConnectionManager

/-- What holds of the entries and the calls at every moment. -/
structure Inv (m : ConnectionManager) : Prop where
  keys : (m.connections.map Prod.fst).Nodup
  entry : ∀ id k, (id, k) ∈ m.connections → ∃ a : Attempt, m.attempts[k]? = some a ∧ a.connectionId = id ∧
    a.removed = false ∧ ∀ e, a.point ≠ .raised e
  present : ∀ (k : Nat) (a : Attempt), m.attempts[k]? = some a → a.removed = false → (∀ e, a.point ≠ .raised e) →
    (a.connectionId, k) ∈ m.connections
  gone : ∀ (k : Nat) (a : Attempt), m.attempts[k]? = some a → a.removed = true → a.point.ended = false →
    ∀ j, (a.connectionId, j) ∉ m.connections
  sane : ∀ a ∈ m.attempts, a.Sane
  bounded : m.connections.length ≤ m.maxConnections

variable {B : Builtins} {m : ConnectionManager}

theorem mem_pop {id id' : Str} {k : Nat} : (id', k) ∈ (m.pop id).connections ↔ (id', k) ∈ m.connections ∧ id' ≠ id := by
  simp [pop]

/-- An unfinished call shares its id with no entry but its own. -/
theorem Inv.alone (h : m.Inv) {k j : Nat} {a : Attempt} (ha : m.attempts[k]? = some a) (hended : a.point.ended = false)
    (hj : (a.connectionId, j) ∈ m.connections) : j = k := by
  cases hr : a.removed with
  | true => exact absurd hj (h.gone k a ha hr hended j)
  | false =>
    have hpoint : ∀ e, a.point ≠ .raised e := fun e he => by rw [he] at hended; cases hended
    exact nodup_keys_unique h.keys hj (h.present k a ha hr hpoint)

theorem start_eq {a : Attempt} : m.start a = m ∨ (m.connections.length < m.maxConnections ∧
    (∀ k, (a.connectionId, k) ∉ m.connections) ∧ m.start a = { m with
      attempts := m.attempts ++ [a], connections := m.connections ++ [(a.connectionId, m.attempts.length)] }) := by
  unfold start
  cases hp : m.prepare a.connectionId a.peerKey with
  | error e => exact Or.inl rfl
  | ok u =>
    simp only [prepare, bind_eq_ok, require_eq_ok] at hp
    obtain ⟨-, -, -, hroom, hnew⟩ := hp
    refine Or.inr ⟨hroom, fun k hk => ?_, rfl⟩
    exact absurd (List.lookup_eq_none_iff.mp hnew _ hk) (by simp)

theorem start_inv (h : m.Inv) {a : Attempt} (hsane : a.Sane) (hremoved : a.removed = false)
    (hpoint : ∀ e, a.point ≠ .raised e)
    (hfree : ∀ b ∈ m.attempts, b.connectionId = a.connectionId → b.removed = true → b.point.ended = true) :
    (m.start a).Inv := by
  rcases @start_eq m a with heq | ⟨hroom, hnew, heq⟩
  · rw [heq]
    exact h
  rw [heq]
  have hold : ∀ k b, (m.attempts ++ [a])[k]? = some b → m.attempts[k]? = some b ∨ (k = m.attempts.length ∧ b = a) := by
    intro k b hb
    by_cases hk : k < m.attempts.length
    · rw [List.getElem?_append_left hk] at hb
      exact Or.inl hb
    · have hlt := (List.getElem?_eq_some_iff.mp hb).1
      rw [List.length_append, List.length_singleton] at hlt
      obtain rfl : k = m.attempts.length := by omega
      rw [List.getElem?_concat_length] at hb
      exact Or.inr ⟨rfl, (Option.some.inj hb).symm⟩
  constructor
  · rw [List.map_append, List.nodup_append]
    refine ⟨h.keys, List.nodup_singleton _, fun id hid id' hid' heq => ?_⟩
    obtain ⟨⟨id₀, k⟩, hk, rfl⟩ := List.mem_map.mp hid
    rw [List.map_singleton, List.mem_singleton] at hid'
    have hsame : id₀ = a.connectionId := heq.trans hid'
    exact hnew k (hsame ▸ hk)
  · intro id k hk
    rcases List.mem_append.mp hk with hk | hk
    · obtain ⟨b, hb, hrest⟩ := h.entry id k hk
      exact ⟨b, (List.getElem?_append_left (List.getElem?_eq_some_iff.mp hb).1).trans hb, hrest⟩
    · cases List.mem_singleton.mp hk
      exact ⟨a, List.getElem?_concat_length, rfl, hremoved, hpoint⟩
  · intro k b hb hr hp
    rcases hold k b hb with hb | ⟨rfl, rfl⟩
    · exact List.mem_append_left _ (h.present k b hb hr hp)
    · exact List.mem_append_right _ (.head _)
  · intro k b hb hr hended j hj
    rcases hold k b hb with hb | ⟨rfl, rfl⟩
    · rcases List.mem_append.mp hj with hj | hj
      · exact h.gone k b hb hr hended j hj
      · have hid := congrArg Prod.fst (List.mem_singleton.mp hj)
        rw [hfree b (List.mem_of_getElem? hb) hid hr] at hended
        cases hended
    · rw [hremoved] at hr
      cases hr
  · intro b hb
    rcases List.mem_append.mp hb with hb | hb
    · exact h.sane b hb
    · exact List.mem_singleton.mp hb ▸ hsane
  · rw [List.length_append]
    exact hroom

theorem recordReject_same (peerKey : Str) : (m.recordReject peerKey).attempts = m.attempts ∧
    (m.recordReject peerKey).connections = m.connections ∧ (m.recordReject peerKey).maxConnections = m.maxConnections := by
  unfold recordReject
  simp only
  split <;> exact ⟨rfl, rfl, rfl⟩

/-- A reply changes the call it is for, and the entries by a pop at most. -/
theorem reply_spec {number : Nat} {r : Reply} {a : Attempt} (ha : m.attempts[number]? = some a) :
    (m.reply B number r).attempts = m.attempts.set number (a.resume B r).1 ∧
      (m.reply B number r).maxConnections = m.maxConnections ∧
      (m.reply B number r).connections =
        if (a.resume B r).2.pop then (m.pop (a.resume B r).1.connectionId).connections else m.connections := by
  unfold reply
  simp only [ha]
  rcases a.resume B r with ⟨a', ⟨record, pops⟩⟩
  cases record with
  | false => cases pops <;> exact ⟨rfl, rfl, rfl⟩
  | true =>
    have hsame := @recordReject_same { m with attempts := m.attempts.set number a' } a'.peerKey
    cases pops with
    | false => exact ⟨hsame.1, hsame.2.2, hsame.2.1⟩
    | true => exact ⟨hsame.1, hsame.2.2, congrArg (List.filter _) hsame.2.1⟩

theorem reply_inv (h : m.Inv) {number : Nat} {r : Reply} {a : Attempt} (ha : m.attempts[number]? = some a)
    (horderly : ∀ e, r = .failed e → a.point = .inboundHello → a.removed = true) :
    (m.reply B number r).Inv := by
  obtain ⟨hattempts, hmax, hconnections⟩ := reply_spec (B := B) (r := r) ha
  have hr := Attempt.resume_resumed (B := B) (h.sane a (List.mem_of_getElem? ha)) r
  generalize a.resume B r = next at hattempts hconnections hr
  obtain ⟨a', effects⟩ := next
  simp only at hattempts hconnections hr
  have hlt := (List.getElem?_eq_some_iff.mp ha).1
  have hget : ∀ k b, (m.attempts.set number a')[k]? = some b → (k = number ∧ b = a') ∨ (k ≠ number ∧ m.attempts[k]? = some b) := by
    intro k b hb
    by_cases hk : k = number
    · subst hk
      rw [List.getElem?_set_self hlt] at hb
      exact Or.inl ⟨rfl, (Option.some.inj hb).symm⟩
    · rw [List.getElem?_set_ne (Ne.symm hk)] at hb
      exact Or.inr ⟨hk, hb⟩
  have hkept : ∀ k b, k ≠ number → m.attempts[k]? = some b → (m.attempts.set number a')[k]? = some b := by
    intro k b hk hb
    rw [List.getElem?_set_ne (Ne.symm hk)]
    exact hb
  have hsane : ∀ b ∈ m.attempts.set number a', b.Sane := fun b hb =>
    (List.mem_or_eq_of_mem_set hb).elim (h.sane b) fun heq => heq ▸ hr.sane
  have hgone : ∀ (k : Nat) (b : Attempt), (m.attempts.set number a')[k]? = some b → b.removed = true → b.point.ended = false →
      ∀ j, (b.connectionId, j) ∉ m.connections := by
    intro k b hb hrm hended j hj
    rcases hget k b hb with ⟨rfl, rfl⟩ | ⟨-, hb⟩
    · rw [hr.same.1] at hj
      rw [hr.same.2] at hrm
      cases hfinal : a.point.ended with
      | false => exact h.gone k a ha hrm hfinal j hj
      | true =>
        rw [hr.stays hfinal, hfinal] at hended
        cases hended
    · exact h.gone k b hb hrm hended j hj
  cases hpop : effects.pop with
  | false =>
    rw [hpop] at hconnections
    have hends : ∀ e, a'.point = .raised e → a.removed = false → ∃ e, a.point = .raised e := by
      intro e he hrm
      rcases hr.ends ⟨e, he⟩ with hraised | hpops | ⟨hin, e', hfailed⟩
      · exact hraised
      · rw [hpop] at hpops
        cases hpops
      · rw [horderly e' hfailed hin] at hrm
        cases hrm
    constructor
    · rw [hconnections]
      exact h.keys
    · rw [hconnections, hattempts]
      intro id k hk
      obtain ⟨b, hb, hid, hrm, hraised⟩ := h.entry id k hk
      by_cases hkn : k = number
      · subst hkn
        cases hb.symm.trans ha
        refine ⟨a', List.getElem?_set_self hlt, by rw [hr.same.1, hid], by rw [hr.same.2, hrm], fun e he => ?_⟩
        obtain ⟨e', he'⟩ := hends e he hrm
        exact hraised e' he'
      · exact ⟨b, hkept k b hkn hb, hid, hrm, hraised⟩
    · rw [hconnections, hattempts]
      intro k b hb hrm hraised
      rcases hget k b hb with ⟨rfl, rfl⟩ | ⟨-, hb⟩
      · rw [hr.same.1]
        rw [hr.same.2] at hrm
        refine h.present k a ha hrm fun e he => ?_
        have hended : a.point.ended = true := by rw [he]; rfl
        rw [hr.stays hended] at hraised
        exact hraised e he
      · exact h.present k b hb hrm hraised
    · rw [hconnections, hattempts]
      exact hgone
    · rw [hattempts]
      exact hsane
    · rw [hconnections, hmax]
      exact h.bounded
  | true =>
    rw [hpop, if_pos rfl, hr.same.1] at hconnections
    obtain ⟨hended, e, he⟩ := hr.pops hpop
    constructor
    · rw [hconnections]
      exact (List.filter_sublist.map _).nodup h.keys
    · rw [hconnections, hattempts]
      intro id k hk
      obtain ⟨hk, hne⟩ := mem_pop.mp hk
      obtain ⟨b, hb, hid, hrest⟩ := h.entry id k hk
      have hkn : k ≠ number := fun hkn => by
        subst hkn
        cases hb.symm.trans ha
        exact hne hid.symm
      exact ⟨b, hkept k b hkn hb, hid, hrest⟩
    · rw [hconnections, hattempts]
      intro k b hb hrm hraised
      rcases hget k b hb with ⟨rfl, rfl⟩ | ⟨hkn, hb⟩
      · exact absurd he (hraised e)
      · have hin := h.present k b hb hrm hraised
        refine mem_pop.mpr ⟨hin, fun hid => hkn ?_⟩
        rw [hid] at hin
        exact h.alone ha hended hin
    · rw [hconnections, hattempts]
      exact fun k b hb hrm hend j hj => hgone k b hb hrm hend j (mem_pop.mp hj).1
    · rw [hattempts]
      exact hsane
    · rw [hconnections, hmax]
      exact (List.length_filter_le _ _).trans h.bounded

/-- The pop of an ending call finds its own entry or none. -/
theorem reply_keeps (h : m.Inv) {number j : Nat} {r : Reply} {id : Str} (hj : (id, j) ∈ m.connections) (hne : j ≠ number) :
    (id, j) ∈ (m.reply B number r).connections := by
  cases ha : m.attempts[number]? with
  | none =>
    unfold reply
    rw [ha]
    exact hj
  | some a =>
    rw [(reply_spec ha).2.2]
    have hr := Attempt.resume_resumed (B := B) (h.sane a (List.mem_of_getElem? ha)) r
    cases hpop : (a.resume B r).2.pop with
    | false => exact hj
    | true =>
      refine mem_pop.mpr ⟨hj, fun hid => hne ?_⟩
      rw [hr.same.1] at hid
      subst hid
      exact h.alone ha (hr.pops hpop).1 hj

theorem remove_inv (h : m.Inv) (id : Str) : (m.remove id).2.Inv := by
  unfold remove
  cases hlookup : m.connections.lookup id with
  | none => exact h
  | some number =>
    have hin := (lookup_iff_mem h.keys).mp hlookup
    obtain ⟨a, ha, hid, hrm, hraised⟩ := h.entry id number hin
    simp only [ha]
    have hlt := (List.getElem?_eq_some_iff.mp ha).1
    have hget : ∀ k b, (m.attempts.set number { a with session := a.session.close.2, removed := true })[k]? = some b →
        (k = number ∧ b = { a with session := a.session.close.2, removed := true }) ∨ (k ≠ number ∧ m.attempts[k]? = some b) := by
      intro k b hb
      by_cases hk : k = number
      · subst hk
        rw [List.getElem?_set_self hlt] at hb
        exact Or.inl ⟨rfl, (Option.some.inj hb).symm⟩
      · rw [List.getElem?_set_ne (Ne.symm hk)] at hb
        exact Or.inr ⟨hk, hb⟩
    have hclosed : ({ a with session := a.session.close.2, removed := true } : Attempt).Sane := by
      by_cases hn : a.session.state = .new
      · have hsame := (HandshakeSession.close_of_new hn).2
        refine ⟨fun he => ?_, fun hended hpoint => ?_⟩
        · rw [hsame, hn] at he
          cases he
        · exact absurd hn ((h.sane a (List.mem_of_getElem? ha)).started hended hpoint)
      · obtain ⟨-, hnew, hestablished⟩ := HandshakeSession.close_of_ne_new hn
        exact ⟨fun he => absurd he hestablished, fun _ _ => hnew⟩
    constructor
    · exact (List.filter_sublist.map _).nodup h.keys
    · intro id' k hk
      obtain ⟨hk, hne⟩ := mem_pop.mp hk
      obtain ⟨b, hb, hid', hrest⟩ := h.entry id' k hk
      have hkn : k ≠ number := fun hkn => by
        subst hkn
        cases hb.symm.trans ha
        exact hne (hid'.symm.trans hid)
      refine ⟨b, ?_, hid', hrest⟩
      change (m.attempts.set number _)[k]? = some b
      rw [List.getElem?_set_ne (Ne.symm hkn)]
      exact hb
    · intro k b hb hrm' hraised'
      rcases hget k b hb with ⟨rfl, rfl⟩ | ⟨hkn, hb⟩
      · cases hrm'
      · have hin' := h.present k b hb hrm' hraised'
        refine mem_pop.mpr ⟨hin', fun hid' => hkn ?_⟩
        rw [hid'] at hin'
        exact nodup_keys_unique h.keys hin' hin
    · intro k b hb hrm' hended j hj
      obtain ⟨hj, hne⟩ := mem_pop.mp hj
      rcases hget k b hb with ⟨rfl, rfl⟩ | ⟨-, hb⟩
      · exact hne hid
      · exact h.gone k b hb hrm' hended j hj
    · intro b hb
      exact (List.mem_or_eq_of_mem_set hb).elim (h.sane b) fun heq => heq ▸ hclosed
    · exact (List.length_filter_le _ _).trans h.bounded

/-! ## Whole runs -/

/-- An event that goes well: no call begins under the id of a removed call that has
not ended, and no first receive of a `register_inbound` fails that was not removed. -/
def Orderly (m : ConnectionManager) : ManagerEvent → Prop
  | .accept connectionId _ =>
    ∀ a ∈ m.attempts, a.connectionId = connectionId → a.removed = true → a.point.ended = true
  | .registerInbound connectionId _ =>
    ∀ a ∈ m.attempts, a.connectionId = connectionId → a.removed = true → a.point.ended = true
  | .reply number (.failed _) =>
    ∀ a, m.attempts[number]? = some a → a.point = .inboundHello → a.removed = true
  | _ => True

variable (B) in
/-- Every event of a run goes well. -/
def OrderlyRun : ConnectionManager → List ManagerEvent → Prop
  | _, [] => True
  | m, e :: events => m.Orderly e ∧ OrderlyRun (m.step B e) events

/-- The entries are those of the calls: a connection that is established, and neither
closed nor removed, has the entry of its id, a call that failed has none, and there
are no more than `max_connections`. -/
structure Accounted (m : ConnectionManager) : Prop where
  established : ∀ (k : Nat) (a : Attempt), m.attempts[k]? = some a → a.session.state = .established →
    a.removed = false → m.connections.lookup a.connectionId = some k
  failed : ∀ (k : Nat) (a : Attempt) (e : PyErr), m.attempts[k]? = some a → a.point = .raised e →
    ∀ id, m.connections.lookup id ≠ some k
  bounded : m.connections.length ≤ m.maxConnections

/-- A call that goes on takes no other call's entry away. -/
def KeepsOthers (m : ConnectionManager) (number : Nat) (m' : ConnectionManager) : Prop :=
  ∀ id k, m.connections.lookup id = some k → k ≠ number → m'.connections.lookup id = some k

theorem Inv.accounted (h : m.Inv) : m.Accounted where
  established k a ha he hr := (lookup_iff_mem h.keys).mpr (h.present k a ha hr fun e hp => by
    rw [(h.sane a (List.mem_of_getElem? ha)).established he] at hp
    cases hp)
  failed k a e ha hp id hlookup := by
    obtain ⟨b, hb, -, -, hraised⟩ := h.entry id k ((lookup_iff_mem h.keys).mp hlookup)
    cases ha.symm.trans hb
    exact hraised e hp
  bounded := h.bounded

theorem Inv.of_cleanups (h : m.Inv) (cleanups : List (List Str)) : ({ m with cleanups := cleanups } : ConnectionManager).Inv :=
  ⟨h.keys, h.entry, h.present, h.gone, h.sane, h.bounded⟩

theorem step_inv (h : m.Inv) {event : ManagerEvent} (horderly : m.Orderly event) : (m.step B event).Inv := by
  cases event with
  | accept connectionId peerKey =>
    obtain ⟨hsane, hid, hremoved, hpoint⟩ := outbound_sane B m.context connectionId peerKey
    exact start_inv h hsane hremoved hpoint (by rw [hid]; exact horderly)
  | registerInbound connectionId peerKey =>
    exact start_inv h (inbound_sane m.context connectionId peerKey) rfl nofun horderly
  | reply number r =>
    change (m.reply B number r).Inv
    cases ha : m.attempts[number]? with
    | none =>
      unfold reply
      rw [ha]
      exact h
    | some a =>
      refine reply_inv h ha fun e hr hin => ?_
      subst hr
      exact horderly a ha hin
  | remove connectionId => exact remove_inv h connectionId
  | cleanup => exact h.of_cleanups _
  | cleanupNext number =>
    change (m.cleanupNext number).Inv
    unfold cleanupNext
    split
    · rename_i connectionId ids hget
      have hrm := remove_inv h connectionId
      rcases hremove : m.remove connectionId with ⟨_ | _, m'⟩
      · rw [hremove] at hrm
        exact hrm.of_cleanups _
      · rw [hremove] at hrm
        exact hrm.of_cleanups _
    · exact h

theorem run_inv (h : m.Inv) {events : List ManagerEvent} (horderly : OrderlyRun B m events) : (m.run B events).Inv := by
  induction events generalizing m with
  | nil => exact h
  | cons e events ih => exact ih (step_inv h horderly.1) horderly.2

theorem OrderlyRun.split {pre post : List ManagerEvent} (h : OrderlyRun B m (pre ++ post)) :
    OrderlyRun B m pre ∧ OrderlyRun B (m.run B pre) post := by
  induction pre generalizing m with
  | nil => exact ⟨trivial, h⟩
  | cons e pre ih =>
    obtain ⟨hpre, hpost⟩ := ih h.2
    exact ⟨⟨h.1, hpre⟩, hpost⟩

theorem new_inv (context : HandshakeContext) (maxConnections : Nat) : (new context maxConnections).Inv where
  keys := List.nodup_nil
  entry _ _ h := absurd h List.not_mem_nil
  present k a h := by cases (List.getElem?_nil.symm.trans h : none = some a)
  gone k a h := by cases (List.getElem?_nil.symm.trans h : none = some a)
  sane _ h := absurd h List.not_mem_nil
  bounded := Nat.zero_le _

/-- In every run of a new manager whose events all go well the entries are those of
the calls, at every moment, and no call takes another's entry away. -/
theorem connections_accounted (B : Builtins) (context : HandshakeContext) (maxConnections : Nat)
    (events : List ManagerEvent) (horderly : OrderlyRun B (new context maxConnections) events)
    (pre post : List ManagerEvent) (hsplit : events = pre ++ post) :
    let m := run B (new context maxConnections) pre
    m.Accounted ∧ ∀ number r later, post = .reply number r :: later → m.KeepsOthers number (m.step B (.reply number r)) := by
  subst hsplit
  have hinv := run_inv (new_inv context maxConnections) horderly.split.1
  refine ⟨hinv.accounted, fun number r later hpost id k hlookup hne => ?_⟩
  have hmore := horderly.split.2
  rw [hpost] at hmore
  have hnext := step_inv (B := B) hinv hmore.1
  exact (lookup_iff_mem hnext.keys).mpr (reply_keeps (B := B) hinv ((lookup_iff_mem hinv.keys).mp hlookup) hne)

/-- A peer that begins with a ping, and whose refusal is sent. -/
theorem connections_accounted_ping : (run builtins (new ⟨str "net", [], [], 1⟩ 1)
    [.registerInbound (str "x") (str "p"), .reply 0 (.received ⟨3, 0, []⟩), .reply 0 .sent]).Accounted :=
  (connections_accounted builtins ⟨str "net", [], [], 1⟩ 1
    [.registerInbound (str "x") (str "p"), .reply 0 (.received ⟨3, 0, []⟩), .reply 0 .sent]
    ⟨fun _ h => absurd h List.not_mem_nil, trivial, trivial, trivial⟩ _ [] (List.append_nil _).symm).1

/-- A `register_inbound` that waits for its HELLO in vain keeps its entry. -/
theorem failed_attempt_leaks : ¬ ∀ (B : Builtins) (context : HandshakeContext) (maxConnections : Nat)
    (events pre post : List ManagerEvent), events = pre ++ post →
    let m := run B (new context maxConnections) pre
    m.Accounted ∧ ∀ number r later, post = .reply number r :: later →
      m.KeepsOthers number (m.step B (.reply number r)) := by
  intro h
  have haccounted := (h builtins ⟨str "net", [], [], 1⟩ 1 _
    [.registerInbound (str "x") (str "p"), .reply 0 (.failed (err .transportLimitError "get timed out"))] [] rfl).1
  exact haccounted.failed 0 _ _ rfl rfl (str "x") rfl

end ConnectionManager

end ChainBreaker
