import ChainBreaker.ConnectionManager
import Mathlib.Logic.Relation

/-!
# Two peers in a handshake

`accept` on one side sends a HELLO and waits for the peer's HELLO;
`register_inbound` on the other answers the first HELLO by a HELLO_ACK and is
established. So the outbound side never is (`out_not_established`), and the two
agree only where the inbound side refuses (`handshake_agreement_iff`).
-/

namespace ChainBreaker

open Fallible Relation

/-- Both calls, and the messages in flight between them, the oldest first. -/
structure Pair where
  outbound : Attempt
  inbound : Attempt
  toInbound : List NetworkEnvelope := []
  toOutbound : List NetworkEnvelope := []
  /-- one side has closed the transport -/
  closed : Bool := false

/-- The envelope a call is sending. -/
def Point.sending : Point → Option NetworkEnvelope
  | .sendHello envelope => some envelope
  | .sendAck envelope => some envelope
  | .sendRefusal envelope _ => some envelope
  | .answer envelope => some envelope
  | _ => none

def Point.receiving : Point → Bool
  | .receiveHello => true
  | .receiveAck => true
  | .inboundHello => true
  | _ => false

variable (B : Builtins)

/-- A step of one side over a reliable transport: what is sent arrives, once and in
order, and nothing fails until the transport is closed. -/
inductive Pair.Step : Pair → Pair → Prop
  | outSends (p : Pair) (envelope : NetworkEnvelope) (h : p.outbound.point.sending = some envelope) :
      Pair.Step p { p with outbound := (p.outbound.resume B .sent).1, toInbound := p.toInbound ++ [envelope] }
  | outReceives (p : Pair) (envelope : NetworkEnvelope) (later : List NetworkEnvelope)
      (h : p.outbound.point.receiving = true) (hflight : p.toOutbound = envelope :: later) :
      Pair.Step p { p with outbound := (p.outbound.resume B (.received envelope)).1, toOutbound := later }
  | outFails (p : Pair) (e : PyErr) (h : p.outbound.point.sending.isSome ∨ p.outbound.point.receiving = true)
      (hclosed : p.closed = true) : Pair.Step p { p with outbound := (p.outbound.resume B (.failed e)).1 }
  | outCloses (p : Pair) (e : PyErr) (h : p.outbound.point = .closing e) :
      Pair.Step p { p with outbound := (p.outbound.resume B .sent).1, closed := true }
  | inSends (p : Pair) (envelope : NetworkEnvelope) (h : p.inbound.point.sending = some envelope) :
      Pair.Step p { p with inbound := (p.inbound.resume B .sent).1, toOutbound := p.toOutbound ++ [envelope] }
  | inReceives (p : Pair) (envelope : NetworkEnvelope) (later : List NetworkEnvelope)
      (h : p.inbound.point.receiving = true) (hflight : p.toInbound = envelope :: later) :
      Pair.Step p { p with inbound := (p.inbound.resume B (.received envelope)).1, toInbound := later }
  | inFails (p : Pair) (e : PyErr) (h : p.inbound.point.sending.isSome ∨ p.inbound.point.receiving = true)
      (hclosed : p.closed = true) : Pair.Step p { p with inbound := (p.inbound.resume B (.failed e)).1 }
  | inCloses (p : Pair) (e : PyErr) (h : p.inbound.point = .closing e) :
      Pair.Step p { p with inbound := (p.inbound.resume B .sent).1, closed := true }

/-- Both calls have begun; `_prepare` let them in. -/
def Pair.start (a b : HandshakeContext) : Pair :=
  { outbound := Attempt.outbound B a [] [], inbound := Attempt.inbound b [] [] }

def Attempt.isEstablished (a : Attempt) : Prop := a.session.state = .established

def Attempt.isRejected (a : Attempt) : Prop := a.session.state = .rejected

/-- Same network id, genesis and protocol version. -/
def Compatible (a b : HandshakeContext) : Prop :=
  a.networkId = b.networkId ∧ a.genesisHash = b.genesisHash ∧ a.protocolVersion = b.protocolVersion

/-- What peers expect of a handshake. -/
structure Agreement (a b : HandshakeContext) : Prop where
  /-- with compatible contexts every run that has ended has ended well -/
  both : Compatible a b → ∀ p, ReflTransGen (Pair.Step B) (Pair.start B a b) p → (∀ q, ¬ Pair.Step B p q) →
    p.outbound.isEstablished ∧ p.inbound.isEstablished
  /-- at no moment is one side established while the other has ended in REJECTED -/
  never : ∀ p, ReflTransGen (Pair.Step B) (Pair.start B a b) p →
    ¬ (p.outbound.isEstablished ∧ p.inbound.isRejected) ∧ ¬ (p.inbound.isEstablished ∧ p.outbound.isRejected)

/-- The HELLO that `accept` sends first. -/
def helloOf (a : HandshakeContext) : Except PyErr NetworkEnvelope :=
  HandshakeSession.makeEnvelope B.toPrimitives HELLO
    ((HandshakeSession.helloMessage a 0 (List.replicate 64 48)).toPayload B.toPrimitives)

/-- `validate_hello` of the one context passes the HELLO of the other, as it is read. -/
def Welcomes (b a : HandshakeContext) : Prop :=
  ∃ hello msg, helloOf B a = .ok hello ∧ HelloMessage.fromPayload B hello.payload = .ok msg ∧ b.validateHello msg = none

/-! ## Where the two sides can be -/

/-- `accept`: it never comes further than to wait for a HELLO. -/
inductive OutStage (a : HandshakeContext) : Point → HandshakeState → Prop
  | sending (hello : NetworkEnvelope) (h : helloOf B a = .ok hello) : OutStage a (.sendHello hello) .sendHello
  | waiting : OutStage a .receiveHello .sendHello
  | closing (e : PyErr) (st : HandshakeState) (h : st ≠ .established) : OutStage a (.closing e) st
  | raised (e : PyErr) (st : HandshakeState) (h : st ≠ .established) : OutStage a (.raised e) st

/-- `register_inbound` in the context `b`; `W` is what it knows once it has passed the HELLO. -/
inductive InStage (b : HandshakeContext) (W : Prop) : Point → HandshakeSession → Prop
  | waiting : InStage b W .inboundHello { context := b }
  | refusing (ack : NetworkEnvelope) (reason : Json) (s : HandshakeSession) (hack : ack.messageType = HELLO_ACK)
      (h : s.state ≠ .established) : InStage b W (.sendRefusal ack reason) s
  | answering (ack : NetworkEnvelope) (s : HandshakeSession) (hack : ack.messageType = HELLO_ACK)
      (h : s.state = .validating) (hw : W) : InStage b W (.answer ack) s
  | established (s : HandshakeSession) (hw : W) : InStage b W .returned s
  | closing (e : PyErr) (s : HandshakeSession) (h : s.state ≠ .established) : InStage b W (.closing e) s
  | raised (e : PyErr) (s : HandshakeSession) (h : s.state ≠ .established) : InStage b W (.raised e) s

structure PairInv (a b : HandshakeContext) (p : Pair) : Prop where
  out : OutStage B a p.outbound.point p.outbound.session.state
  inn : InStage b (Welcomes B b a) p.inbound.point p.inbound.session
  toInbound : ∀ e ∈ p.toInbound, helloOf B a = .ok e
  toOutbound : ∀ e ∈ p.toOutbound, e.messageType = HELLO_ACK

variable {B} {a b : HandshakeContext}

/-- A failure leads to the closing of the transport or ends the call. -/
theorem fail_ends {o : Attempt} (e : PyErr) (h : o.session.state ≠ .established) :
    (o.fail e).session.state ≠ .established ∧
      ((∃ e', (o.fail e).point = .closing e') ∨ ∃ e', (o.fail e).point = .raised e') := by
  by_cases hn : o.session.state = .new
  · obtain ⟨e', heq⟩ := Attempt.fail_new e hn
    rw [heq]
    exact ⟨h, Or.inr ⟨e', rfl⟩⟩
  · obtain ⟨hsane, session, heq⟩ := Attempt.fail_started e hn h
    have hclosing : (o.fail e).point = .closing e := by rw [heq]
    refine ⟨fun he => ?_, Or.inl ⟨e, hclosing⟩⟩
    rw [hsane.established he] at hclosing
    cases hclosing

theorem out_fail {o : Attempt} (e : PyErr) (h : o.session.state ≠ .established) :
    OutStage B a (o.fail e).point (o.fail e).session.state := by
  obtain ⟨hs, ⟨e', hp⟩ | ⟨e', hp⟩⟩ := fail_ends e h
  · rw [hp]
    exact .closing e' _ hs
  · rw [hp]
    exact .raised e' _ hs

theorem in_fail {W : Prop} {o : Attempt} (e : PyErr) (h : o.session.state ≠ .established) :
    InStage b W (o.fail e).point (o.fail e).session := by
  obtain ⟨hs, ⟨e', hp⟩ | ⟨e', hp⟩⟩ := fail_ends e h
  · rw [hp]
    exact .closing e' _ hs
  · rw [hp]
    exact .raised e' _ hs

theorem out_start : OutStage B a (Attempt.outbound B a [] []).point (Attempt.outbound B a [] []).session.state := by
  have hsend : (⟨a, .new, none, none, none⟩ : HandshakeSession).sendHello B.toPrimitives 0 (List.replicate 64 48) =
      (helloOf B a, ⟨a, .sendHello, none, none, none⟩) := rfl
  unfold Attempt.outbound
  simp only [hsend]
  cases hhello : helloOf B a with
  | error e => exact out_fail e nofun
  | ok hello => exact .sending hello hhello

/-- Waiting for a HELLO, `accept` refuses a HELLO_ACK. -/
theorem takeHello_ack {o : Attempt} {envelope : NetworkEnvelope} (hs : o.session.state = .sendHello)
    (htype : envelope.messageType = HELLO_ACK) :
    (o.takeHello B envelope).1.session.state = .rejected ∧ ∃ e, (o.takeHello B envelope).1.point = .closing e := by
  have hne : envelope.messageType ≠ HELLO := by rw [htype]; decide
  unfold Attempt.takeHello HandshakeSession.handleHello
  rw [if_pos hne, HandshakeSession.reject_open _ (Or.inr hs)]
  simp only [if_true]
  rw [Attempt.fail_rejected _ rfl]
  exact ⟨rfl, _, rfl⟩

/-- The first HELLO is welcome, or it is refused without raising. -/
theorem handleHello_first {hello : NetworkEnvelope} (hhello : helloOf B a = .ok hello) :
    ∃ s, (⟨b, .new, none, none, none⟩ : HandshakeSession).handleHello B hello = (.ok (), s) ∧
      (s.state = .rejected ∨ (s.state = .validating ∧ Welcomes B b a)) := by
  have htype : ¬ hello.messageType ≠ HELLO := by
    obtain ⟨p, -, -, rfl⟩ := HandshakeSession.makeEnvelope_eq_ok.mp hhello
    exact not_not.mpr rfl
  unfold HandshakeSession.handleHello
  rw [if_neg htype, if_neg (fun h => h.1 rfl)]
  cases hmsg : HelloMessage.fromPayload B hello.payload with
  | error e => exact ⟨_, HandshakeSession.reject_open _ (Or.inl rfl), Or.inl rfl⟩
  | ok msg =>
    simp only
    cases hvalid : b.validateHello msg with
    | some reason => exact ⟨_, HandshakeSession.reject_open _ (Or.inl rfl), Or.inl rfl⟩
    | none => exact ⟨_, rfl, Or.inr ⟨rfl, hello, msg, hhello, hmsg, hvalid⟩⟩

theorem takeInbound_hello {o : Attempt} {hello : NetworkEnvelope} (hs : o.session = { context := b })
    (hhello : helloOf B a = .ok hello) :
    InStage b (Welcomes B b a) (o.takeInbound B hello).1.point (o.takeInbound B hello).1.session := by
  obtain ⟨s, hrun, hstate⟩ := handleHello_first (b := b) hhello
  unfold Attempt.takeInbound
  rw [hs, hrun]
  rcases hstate with hr | ⟨hv, hw⟩
  · simp only [if_pos hr]
    cases hack : HandshakeSession.ackEnvelope B.toPrimitives false (Attempt.rejection s) with
    | error e => exact in_fail e (by simp only [hr]; nofun)
    | ok ack => exact .refusing ack _ _ (HandshakeSession.ackEnvelope_type hack) (by simp only [hr]; nofun)
  · have hne : ¬ s.state = .rejected := by rw [hv]; nofun
    simp only [if_neg hne]
    cases hack : s.buildHelloAck B.toPrimitives true [] with
    | error e => exact in_fail e (by simp only [hv]; nofun)
    | ok ack =>
      obtain ⟨_, -, hack⟩ := bind_eq_ok.mp hack
      exact .answering ack _ (HandshakeSession.ackEnvelope_type hack) hv hw

/-! ## One step -/

theorem out_sent {o : Attempt} {e : NetworkEnvelope} (h : OutStage B a o.point o.session.state)
    (he : o.point.sending = some e) :
    OutStage B a (o.resume B .sent).1.point (o.resume B .sent).1.session.state ∧ helloOf B a = .ok e := by
  unfold Attempt.resume
  generalize hp : o.point = point at h he
  generalize hs : o.session.state = st at h
  cases h with
  | sending hello hhello =>
    cases he
    refine ⟨?_, hhello⟩
    change OutStage B a .receiveHello o.session.state
    rw [hs]
    exact .waiting
  | waiting => cases he
  | closing e' st hst => cases he
  | raised e' st hst => cases he

theorem out_received {o : Attempt} {e : NetworkEnvelope} (h : OutStage B a o.point o.session.state)
    (hr : o.point.receiving = true) (htype : e.messageType = HELLO_ACK) :
    OutStage B a (o.resume B (.received e)).1.point (o.resume B (.received e)).1.session.state := by
  unfold Attempt.resume
  generalize hp : o.point = point at h hr
  generalize hs : o.session.state = st at h
  cases h with
  | sending hello hhello => cases hr
  | waiting =>
    obtain ⟨hrejected, e', hclosing⟩ := takeHello_ack (B := B) hs htype
    change OutStage B a (o.takeHello B e).1.point (o.takeHello B e).1.session.state
    rw [hclosing, hrejected]
    exact .closing e' _ nofun
  | closing e' st hst => cases hr
  | raised e' st hst => cases hr

theorem out_failed {o : Attempt} (e : PyErr) (h : OutStage B a o.point o.session.state)
    (hw : o.point.sending.isSome ∨ o.point.receiving = true) :
    OutStage B a (o.resume B (.failed e)).1.point (o.resume B (.failed e)).1.session.state := by
  unfold Attempt.resume
  generalize hp : o.point = point at h hw
  generalize hs : o.session.state = st at h
  cases h with
  | sending hello hhello => exact out_fail e (by rw [hs]; nofun)
  | waiting => exact out_fail e (by rw [hs]; nofun)
  | closing e' st hst => rcases hw with h | h <;> cases h
  | raised e' st hst => rcases hw with h | h <;> cases h

theorem in_sent {W : Prop} {o : Attempt} {e : NetworkEnvelope} (h : InStage b W o.point o.session)
    (he : o.point.sending = some e) :
    InStage b W (o.resume B .sent).1.point (o.resume B .sent).1.session ∧ e.messageType = HELLO_ACK := by
  unfold Attempt.resume
  generalize hp : o.point = point at h he
  generalize hs : o.session = s at h
  cases h with
  | waiting => cases he
  | refusing ack reason s hack hst =>
    cases he
    exact ⟨in_fail _ (by rw [hs]; exact hst), hack⟩
  | answering ack s hack hst hw =>
    cases he
    refine ⟨?_, hack⟩
    have hanswered : o.answered = { o with session := { o.session with state := .established }, point := .returned } := by
      unfold Attempt.answered HandshakeSession.transitionTo
      rw [if_pos (by rw [hs, hst]; decide)]
    change InStage b W o.answered.point o.answered.session
    rw [hanswered]
    exact .established _ hw
  | established s hw => cases he
  | closing e' s hst => cases he
  | raised e' s hst => cases he

theorem in_received {o : Attempt} {e : NetworkEnvelope} (h : InStage b (Welcomes B b a) o.point o.session)
    (hr : o.point.receiving = true) (hhello : helloOf B a = .ok e) :
    InStage b (Welcomes B b a) (o.resume B (.received e)).1.point (o.resume B (.received e)).1.session := by
  unfold Attempt.resume
  generalize hp : o.point = point at h hr
  generalize hs : o.session = s at h
  cases h with
  | waiting => exact takeInbound_hello hs hhello
  | refusing ack reason s hack hst => cases hr
  | answering ack s hack hst hw => cases hr
  | established s hw => cases hr
  | closing e' s hst => cases hr
  | raised e' s hst => cases hr

theorem in_failed {W : Prop} {o : Attempt} (e : PyErr) (h : InStage b W o.point o.session)
    (hw : o.point.sending.isSome ∨ o.point.receiving = true) :
    InStage b W (o.resume B (.failed e)).1.point (o.resume B (.failed e)).1.session := by
  unfold Attempt.resume
  generalize hp : o.point = point at h hw
  generalize hs : o.session = s at h
  cases h with
  | waiting => exact in_fail e (by rw [hs]; nofun)
  | refusing ack reason s hack hst => exact in_fail _ (by rw [hs]; exact hst)
  | answering ack s hack hst _ => exact in_fail e (by rw [hs, hst]; nofun)
  | established s _ => rcases hw with h | h <;> cases h
  | closing e' s hst => rcases hw with h | h <;> cases h
  | raised e' s hst => rcases hw with h | h <;> cases h

theorem resume_closing {o : Attempt} {e : PyErr} (h : o.point = .closing e) :
    (o.resume B .sent).1 = { o with point := .raised e } := by
  unfold Attempt.resume
  rw [h]

theorem closing_not_established {o : Attempt} {e : PyErr} (h : OutStage B a o.point o.session.state)
    (hp : o.point = .closing e) : o.session.state ≠ .established := by
  rw [hp] at h
  generalize o.session.state = st at h
  cases h with
  | closing _ _ hst => exact hst

theorem in_closing_not_established {W : Prop} {o : Attempt} {e : PyErr} (h : InStage b W o.point o.session)
    (hp : o.point = .closing e) : o.session.state ≠ .established := by
  rw [hp] at h
  generalize o.session = s at h
  cases h with
  | closing _ _ hst => exact hst

theorem step_pairInv {p q : Pair} (h : PairInv B a b p) (hstep : Pair.Step B p q) : PairInv B a b q := by
  cases hstep with
  | outSends envelope he =>
    obtain ⟨hout, hhello⟩ := out_sent h.out he
    exact ⟨hout, h.inn, fun x hx => (List.mem_append.mp hx).elim (h.toInbound x) fun hx => List.mem_singleton.mp hx ▸ hhello,
      h.toOutbound⟩
  | outReceives envelope later hr hflight =>
    have htypes := h.toOutbound
    rw [hflight] at htypes
    exact ⟨out_received h.out hr (htypes _ (.head _)), h.inn, h.toInbound, fun x hx => htypes x (.tail _ hx)⟩
  | outFails e hw hclosed => exact ⟨out_failed e h.out hw, h.inn, h.toInbound, h.toOutbound⟩
  | outCloses e hp =>
    have hst := closing_not_established h.out hp
    refine ⟨?_, h.inn, h.toInbound, h.toOutbound⟩
    rw [resume_closing hp]
    exact .raised e _ hst
  | inSends envelope he =>
    obtain ⟨hin, htype⟩ := in_sent h.inn he
    exact ⟨h.out, hin, h.toInbound,
      fun x hx => (List.mem_append.mp hx).elim (h.toOutbound x) fun hx => List.mem_singleton.mp hx ▸ htype⟩
  | inReceives envelope later hr hflight =>
    have hhellos := h.toInbound
    rw [hflight] at hhellos
    exact ⟨h.out, in_received h.inn hr (hhellos _ (.head _)), fun x hx => hhellos x (.tail _ hx), h.toOutbound⟩
  | inFails e hw hclosed => exact ⟨h.out, in_failed e h.inn hw, h.toInbound, h.toOutbound⟩
  | inCloses e hp =>
    have hst := in_closing_not_established h.inn hp
    refine ⟨h.out, ?_, h.toInbound, h.toOutbound⟩
    rw [resume_closing hp]
    exact .raised e _ hst

theorem reachable_pairInv {p : Pair} (h : ReflTransGen (Pair.Step B) (Pair.start B a b) p) : PairInv B a b p := by
  induction h with
  | refl => exact ⟨out_start, .waiting, nofun, nofun⟩
  | tail _ hstep ih => exact step_pairInv ih hstep

/-- `accept` is never established. -/
theorem out_not_established {p : Pair} (h : ReflTransGen (Pair.Step B) (Pair.start B a b) p) : ¬ p.outbound.isEstablished := by
  have hout := (reachable_pairInv h).out
  unfold Attempt.isEstablished
  generalize p.outbound.point = point at hout
  generalize p.outbound.session.state = st at hout ⊢
  cases hout with
  | sending hello hhello => nofun
  | waiting => nofun
  | closing e st hst => exact hst
  | raised e st hst => exact hst

/-- `register_inbound` is established only where the HELLO is welcome. -/
theorem in_established_welcome {p : Pair} (h : ReflTransGen (Pair.Step B) (Pair.start B a b) p)
    (he : p.inbound.isEstablished) : Welcomes B b a := by
  have hin := (reachable_pairInv h).inn
  unfold Attempt.isEstablished at he
  generalize p.inbound.point = point at hin
  generalize p.inbound.session = s at hin he
  cases hin with
  | waiting => cases he
  | refusing ack reason s hack hst => exact absurd he hst
  | answering ack s hack hst hw => exact hw
  | established s hw => exact hw
  | closing e s hst => exact absurd he hst
  | raised e s hst => exact absurd he hst

/-! ## Every run ends -/

/-- A relation that lowers a measure leads from everywhere to where it ends. -/
theorem exists_end {α : Type} {R : α → α → Prop} (m : α → Nat) (h : ∀ p q, R p q → m q < m p) (p : α) :
    ∃ q, ReflTransGen R p q ∧ ∀ r, ¬ R q r := by
  induction hn : m p using Nat.strong_induction_on generalizing p with
  | _ n ih =>
    by_cases hend : ∀ r, ¬ R p r
    · exact ⟨p, .refl, hend⟩
    · push Not at hend
      obtain ⟨r, hr⟩ := hend
      obtain ⟨q, hrq, hq⟩ := ih (m r) (hn ▸ h p r hr) r rfl
      exact ⟨q, .head hr hrq, hq⟩

/-- How far a call is from its end. -/
def Point.rank : Point → Nat
  | .sendHello _ => 5
  | .receiveHello => 4
  | .sendAck _ => 3
  | .receiveAck => 2
  | .inboundHello => 4
  | .sendRefusal _ _ => 2
  | .answer _ => 2
  | .closing _ => 1
  | .returned => 0
  | .raised _ => 0

theorem fail_rank (o : Attempt) (e : PyErr) : (o.fail e).point.rank ≤ 1 := by
  unfold Attempt.fail
  split
  · exact Nat.zero_le 1
  · split
    · exact Nat.zero_le 1
    · exact le_rfl

theorem takeHello_rank (o : Attempt) (e : NetworkEnvelope) : (o.takeHello B e).1.point.rank < 4 := by
  unfold Attempt.takeHello
  rcases o.session.handleHello B e with ⟨_ | _, session⟩
  · exact Nat.lt_of_le_of_lt (fail_rank _ _) (by decide)
  · simp only
    split
    · exact Nat.lt_of_le_of_lt (fail_rank _ _) (by decide)
    · split
      · exact Nat.lt_of_le_of_lt (fail_rank _ _) (by decide)
      · exact Nat.lt_succ_self 3

theorem takeAck_rank (o : Attempt) (e : NetworkEnvelope) : (o.takeAck B e).1.point.rank < 2 := by
  unfold Attempt.takeAck
  rcases o.session.handleHelloAck B e with ⟨_ | _, session⟩
  · exact Nat.lt_succ_of_le (fail_rank _ _)
  · simp only
    split
    · exact Nat.lt_succ_of_le (fail_rank _ _)
    · split
      · exact Nat.lt_succ_of_le (fail_rank _ _)
      · exact Nat.zero_lt_succ 1

theorem takeInbound_rank (o : Attempt) (e : NetworkEnvelope) : (o.takeInbound B e).1.point.rank < 4 := by
  unfold Attempt.takeInbound
  rcases o.session.handleHello B e with ⟨_ | _, session⟩
  · exact Nat.lt_of_le_of_lt (fail_rank _ _) (by decide)
  · simp only
    split
    · split
      · exact Nat.lt_of_le_of_lt (fail_rank _ _) (by decide)
      · exact Nat.lt_of_lt_of_le (Nat.lt_succ_self 2) (by decide)
    · split
      · exact Nat.lt_of_le_of_lt (fail_rank _ _) (by decide)
      · exact Nat.lt_of_lt_of_le (Nat.lt_succ_self 2) (by decide)

theorem answered_rank (o : Attempt) : o.answered.point.rank < 2 := by
  unfold Attempt.answered
  split
  · exact Nat.lt_succ_of_le (fail_rank _ _)
  · exact Nat.zero_lt_succ 1

theorem sent_rank {o : Attempt} {e : NetworkEnvelope} (h : o.point.sending = some e) :
    (o.resume B .sent).1.point.rank < o.point.rank := by
  unfold Attempt.resume
  cases hp : o.point with
  | sendHello hello => exact Nat.lt_succ_self 4
  | sendAck ack => exact Nat.lt_succ_self 2
  | sendRefusal ack reason => exact Nat.lt_succ_of_le (fail_rank _ _)
  | answer ack => exact answered_rank o
  | receiveHello => rw [hp] at h; cases h
  | receiveAck => rw [hp] at h; cases h
  | inboundHello => rw [hp] at h; cases h
  | closing e => rw [hp] at h; cases h
  | returned => rw [hp] at h; cases h
  | raised e => rw [hp] at h; cases h

theorem received_rank {o : Attempt} (e : NetworkEnvelope) (h : o.point.receiving = true) :
    (o.resume B (.received e)).1.point.rank < o.point.rank := by
  unfold Attempt.resume
  cases hp : o.point with
  | receiveHello => exact takeHello_rank o e
  | receiveAck => exact takeAck_rank o e
  | inboundHello => exact takeInbound_rank o e
  | sendHello hello => rw [hp] at h; cases h
  | sendAck ack => rw [hp] at h; cases h
  | sendRefusal ack reason => rw [hp] at h; cases h
  | answer ack => rw [hp] at h; cases h
  | closing e => rw [hp] at h; cases h
  | returned => rw [hp] at h; cases h
  | raised e => rw [hp] at h; cases h

theorem failed_rank {o : Attempt} (e : PyErr) (h : o.point.sending.isSome ∨ o.point.receiving = true) :
    (o.resume B (.failed e)).1.point.rank < o.point.rank := by
  have hlow : ∀ {n : Nat}, 2 ≤ n → (o.fail e).point.rank < n := fun hn => (Nat.lt_succ_of_le (fail_rank o e)).trans_le hn
  unfold Attempt.resume
  cases hp : o.point with
  | receiveHello => exact hlow (by decide)
  | receiveAck => exact hlow le_rfl
  | inboundHello => exact hlow (by decide)
  | sendHello hello => exact hlow (n := 5) (by decide)
  | sendAck ack => exact hlow (n := 3) (by decide)
  | sendRefusal ack reason => exact Nat.lt_succ_of_le (fail_rank _ _)
  | answer ack => exact hlow le_rfl
  | closing e => rw [hp] at h; rcases h with h | h <;> cases h
  | returned => rw [hp] at h; rcases h with h | h <;> cases h
  | raised e => rw [hp] at h; rcases h with h | h <;> cases h

theorem closed_rank {o : Attempt} {e : PyErr} (h : o.point = .closing e) :
    (o.resume B .sent).1.point.rank < o.point.rank := by
  rw [resume_closing h, h]
  exact Nat.zero_lt_one

theorem step_rank {p q : Pair} (h : Pair.Step B p q) :
    q.outbound.point.rank + q.inbound.point.rank < p.outbound.point.rank + p.inbound.point.rank := by
  cases h with
  | outSends envelope he => exact Nat.add_lt_add_right (sent_rank he) _
  | outReceives envelope later hr hflight => exact Nat.add_lt_add_right (received_rank envelope hr) _
  | outFails e hw hclosed => exact Nat.add_lt_add_right (failed_rank e hw) _
  | outCloses e hp => exact Nat.add_lt_add_right (closed_rank hp) _
  | inSends envelope he => exact Nat.add_lt_add_left (sent_rank he) _
  | inReceives envelope later hr hflight => exact Nat.add_lt_add_left (received_rank envelope hr) _
  | inFails e hw hclosed => exact Nat.add_lt_add_left (failed_rank e hw) _
  | inCloses e hp => exact Nat.add_lt_add_left (closed_rank hp) _

/-! ## Agreement -/

/-- With compatible contexts no run ends well. -/
theorem compatible_disagree (h : Compatible a b) : ¬ Agreement B a b := by
  intro hagree
  obtain ⟨p, hreach, hend⟩ := exists_end (fun p : Pair => p.outbound.point.rank + p.inbound.point.rank)
    (fun _ _ => step_rank (B := B)) (Pair.start B a b)
  exact out_not_established hreach (hagree.both h p hreach hend).1

theorem takeInbound_welcome {hello : NetworkEnvelope} {msg : HelloMessage} (hhello : helloOf B a = .ok hello)
    (hmsg : HelloMessage.fromPayload B hello.payload = .ok msg) (hvalid : b.validateHello msg = none) :
    ∃ ack, ((Attempt.inbound b [] []).takeInbound B hello).1.point = .answer ack ∧
      ((Attempt.inbound b [] []).takeInbound B hello).1.session.state = .validating ∧ ack.messageType = HELLO_ACK := by
  have htype : ¬ hello.messageType ≠ HELLO := by
    obtain ⟨p, -, -, rfl⟩ := HandshakeSession.makeEnvelope_eq_ok.mp hhello
    exact not_not.mpr rfl
  obtain ⟨ack, hack⟩ := HandshakeSession.ackEnvelope_ok B.toPrimitives
  have hrun : (Attempt.inbound b [] []).session.handleHello B hello = (.ok (), ⟨b, .validating, some msg,
      some (b.localFeatures.filter (· ∈ msg.featureBits)), none⟩) := by
    unfold HandshakeSession.handleHello Attempt.inbound
    rw [if_neg htype, if_neg (fun h => h.1 rfl), hmsg]
    simp only [hvalid]
    rfl
  refine ⟨ack, ?_⟩
  unfold Attempt.takeInbound
  rw [hrun]
  simp only [HandshakeSession.buildHelloAck, hack, require, ok_bind, reduceCtorEq, if_false, true_or, if_true]
  exact ⟨trivial, trivial, HandshakeSession.ackEnvelope_type hack⟩

/-- A welcome HELLO: the inbound side is established, its HELLO_ACK is refused. -/
theorem welcome_disagree (h : Welcomes B b a) : ∃ p, ReflTransGen (Pair.Step B) (Pair.start B a b) p ∧
    p.inbound.isEstablished ∧ p.outbound.isRejected := by
  obtain ⟨hello, msg, hhello, hmsg, hvalid⟩ := h
  have hout : Attempt.outbound B a [] [] = ⟨[], [], ⟨a, .sendHello, none, none, none⟩, .sendHello hello, false⟩ := by
    have hsend : (⟨a, .new, none, none, none⟩ : HandshakeSession).sendHello B.toPrimitives 0 (List.replicate 64 48) =
        (helloOf B a, ⟨a, .sendHello, none, none, none⟩) := rfl
    unfold Attempt.outbound
    simp only [hsend, hhello]
  obtain ⟨ack, hpoint, hstate, htype⟩ := takeInbound_welcome hhello hmsg hvalid
  have hstart : Pair.start B a b = ⟨⟨[], [], ⟨a, .sendHello, none, none, none⟩, .sendHello hello, false⟩,
      Attempt.inbound b [] [], [], [], false⟩ := by rw [Pair.start, hout]
  have hanswered : (((Attempt.inbound b [] []).takeInbound B hello).1.resume B .sent).1.isEstablished := by
    unfold Attempt.resume
    rw [hpoint]
    unfold Attempt.answered HandshakeSession.transitionTo
    rw [if_pos (by rw [hstate]; decide)]
    rfl
  -- the HELLO goes over, is answered, and the answer comes back
  refine ⟨_, .tail (.tail (.tail (.tail .refl (.outSends _ hello ?_)) (.inReceives _ hello [] rfl ?_))
    (.inSends _ ack ?_)) (.outReceives _ ack [] ?_ rfl), hanswered, ?_⟩
  · rw [hstart]; rfl
  · rw [hstart]; rfl
  · rw [hstart]; exact congrArg Point.sending hpoint
  · rw [hstart]; rfl
  · rw [hstart]
    exact (takeHello_ack rfl htype).1

theorem handshake_agreement_iff (B : Builtins) (a b : HandshakeContext) :
    Agreement B a b ↔ ¬ Compatible a b ∧ ¬ Welcomes B b a := by
  constructor
  · intro h
    refine ⟨fun hc => compatible_disagree hc h, fun hw => ?_⟩
    obtain ⟨p, hreach, hin, hout⟩ := welcome_disagree hw
    exact (h.never p hreach).2 ⟨hin, hout⟩
  · rintro ⟨hc, hw⟩
    refine ⟨fun h => absurd h hc, fun p hreach => ⟨fun h => ?_, fun h => ?_⟩⟩
    · exact out_not_established hreach h.1
    · exact hw (in_established_welcome hreach h.1)

theorem compatible_peers_disagree : ¬ ∀ (B : Builtins) (a b : HandshakeContext), Agreement B a b := fun h =>
  compatible_disagree ⟨rfl, rfl, rfl⟩ (h builtins ⟨str "net", [], [], 1⟩ ⟨str "net", [], [], 1⟩)

end ChainBreaker
