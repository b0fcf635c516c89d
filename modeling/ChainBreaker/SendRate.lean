import ChainBreaker.Envelope
import ChainBreaker.Lib.Window
import ChainBreaker.MessageQueue
import Mathlib.Algebra.Order.Ring.Rat

/-!
# The rate of sends

`MemoryTransport.send` asks its rate limiter before the put and tells it after, and
the put may have to wait. Sends that wait are counted by nobody: with a queue that
is full, any number of them pass the check, and all are recorded at once
(`burst_unbounded`). Where every check leaves room for the sends under way, no window
is overrun (`sends_bounded`). Times are exact rationals.
-/

namespace ChainBreaker

open Fallible Window

structure TransportLimits where
  maxMessagesPerWindow : Int := 1000
  maxBytesPerWindow : Int := 16777216
  windowSeconds : ℚ := 1
  sendTimeoutSeconds : ℚ := 30
  maxMessagesPerWindow_pos : 0 < maxMessagesPerWindow
  windowSeconds_pos : 0 < windowSeconds

structure RateLimiter where
  limits : TransportLimits
  messageTimes : List ℚ := []
  byteWindows : List (ℚ × Nat) := []

namespace RateLimiter

/-- The two loops of `check`, which drop what is older than the window. -/
def prune (l : RateLimiter) (now : ℚ) : RateLimiter :=
  let cutoff := now - l.limits.windowSeconds
  { l with
    messageTimes := l.messageTimes.dropWhile fun t => t ≤ cutoff
    byteWindows := l.byteWindows.dropWhile fun e => e.1 ≤ cutoff }

def check (l : RateLimiter) (messageCount byteCount : Nat) (now : ℚ) : Bool × RateLimiter :=
  let l := l.prune now
  if l.limits.maxMessagesPerWindow < l.messageTimes.length + messageCount then (false, l)
  else
    let totalBytes := (l.byteWindows.map Prod.snd).sum + byteCount
    (decide (totalBytes ≤ l.limits.maxBytesPerWindow), l)

def record (l : RateLimiter) (messageCount byteCount : Nat) (now : ℚ) : RateLimiter :=
  { l with
    messageTimes := l.messageTimes ++ List.replicate messageCount now
    byteWindows := if byteCount ≠ 0 then l.byteWindows ++ [(now, byteCount)] else l.byteWindows }

end RateLimiter

inductive ConnectionState where
  | created | opening | active | draining | closed
  deriving DecidableEq

def ConnectionState.name : ConnectionState → Str
  | .created => str "CREATED"
  | .opening => str "OPENING"
  | .active => str "ACTIVE"
  | .draining => str "DRAINING"
  | .closed => str "CLOSED"

structure MemoryTransport where
  connectionId : Str
  state : ConnectionState
  limits : TransportLimits
  outbound : BoundedMessageQueue
  rateLimiter : RateLimiter
  closed : Bool := false

namespace MemoryTransport

/-- `Connection.ensure_open`. -/
def ensureOpen (t : MemoryTransport) : Except PyErr Unit :=
  match t.state with
  | .active | .opening => .ok ()
  | .closed => .error ⟨.transportClosedError, "connection % is closed", [.str t.connectionId]⟩
  | state => .error ⟨.transportStateError, "connection % is not open (state=%)", [.str t.connectionId, .str state.name]⟩

/-- `send` before its await: the bytes to put. -/
def beginSend (E : Primitives) (t : MemoryTransport) (envelope : NetworkEnvelope) (now : ℚ) : Except PyErr Bytes × MemoryTransport :=
  let raw : Except PyErr Bytes := do
    t.ensureOpen
    require (t.closed = false) (err .transportClosedError "transport is closed")
    serializeEnvelope E envelope.messageType envelope.flags envelope.payload
  match raw with
  | .error e => (.error e, t)
  | .ok raw =>
    let (granted, limiter) := t.rateLimiter.check 1 raw.length now
    let t := { t with rateLimiter := limiter }
    if granted then (.ok raw, t) else (raise .transportLimitError "rate limit exceeded" [], t)

/-- `send` after its await. -/
def sent (t : MemoryTransport) (raw : Bytes) (now : ℚ) : MemoryTransport :=
  { t with rateLimiter := t.rateLimiter.record 1 raw.length now }

/-- `close`, or that of the other endpoint. -/
def close (t : MemoryTransport) : MemoryTransport :=
  { t with closed := true, state := .closed, outbound := { t.outbound with closed := true } }

end MemoryTransport

/-! ## Interleaved sends -/

/-- A send that waits for its put, by its size. -/
def QueueCall.pending : QueueCall → List Nat
  | .put item _ | .putBudget item _ _ | .putSpace item _ _ => [item.length]
  | _ => []

/-- What a `put` has put when it returns. -/
def QueueCall.returned : QueueCall → QueueCall → Option Bytes
  | .putReturned _, _ => none
  | _, .putReturned item => some item
  | _, _ => none

/-- The endpoint, the calls on its outbound queue (the puts of its sends and the gets of
the other endpoint), and what was recorded, with the times. -/
structure SendRun where
  transport : MemoryTransport
  calls : List QueueCall := []
  history : List (ℚ × Nat) := []

inductive SendEvent where
  | send (envelope : NetworkEnvelope)
  | get (timeout : Option ℚ)
  | wake (i : Nat) (w : Wake)
  | close

namespace SendRun

/-- A call goes on, and a send whose put returns goes on to its end. -/
def wake (s : SendRun) (i : Nat) (w : Wake) (now : ℚ) : SendRun :=
  match s.calls[i]? with
  | none => s
  | some call =>
    let (q, call') := s.transport.outbound.wake w call
    let s := { s with transport := { s.transport with outbound := q }, calls := s.calls.set i call' }
    match call.returned call' with
    | none => s
    | some raw => { s with transport := s.transport.sent raw now, history := s.history ++ [(now, raw.length)] }

/-- One event, at its clock reading. The put of a send begins at once. -/
def step (E : Primitives) (s : SendRun) : SendEvent × ℚ → SendRun
  | (.send envelope, now) =>
    match s.transport.beginSend E envelope now with
    | (.error _, t) => { s with transport := t }
    | (.ok raw, t) =>
      let s := { s with transport := t, calls := s.calls ++ [QueueCall.put raw (some t.limits.sendTimeoutSeconds)] }
      s.wake (s.calls.length - 1) .resume now
  | (.get timeout, _) => { s with calls := s.calls ++ [QueueCall.get timeout] }
  | (.wake i w, now) => s.wake i w now
  | (.close, _) => { s with transport := s.transport.close }

def run (E : Primitives) (s : SendRun) (events : List (SendEvent × ℚ)) : SendRun := events.foldl (step E) s

/-- The sizes of the sends between their check and their record. -/
def underWay (s : SendRun) : List Nat := s.calls.flatMap QueueCall.pending

/-- A send that passes its check leaves room for the sends under way. -/
def Room (E : Primitives) (s : SendRun) : SendEvent × ℚ → Prop
  | (.send envelope, now) => ∀ raw, (s.transport.beginSend E envelope now).1 = .ok raw →
    (s.transport.rateLimiter.check (1 + s.underWay.length) (raw.length + s.underWay.sum) now).1 = true
  | _ => True

def AllRoom (E : Primitives) : SendRun → List (SendEvent × ℚ) → Prop
  | _, [] => True
  | s, event :: events => s.Room E event ∧ (s.step E event).AllRoom E events

end SendRun

/-! ## What becomes of a put -/

/-- It waits, it has put, or it has failed. -/
inductive PutGoesOn (item : Bytes) : QueueCall → Prop
  | waits {call : QueueCall} (hpending : call.pending = [item.length]) (hreturned : ∀ before, QueueCall.returned before call = none) :
    PutGoesOn item call
  | returned : PutGoesOn item (.putReturned item)
  | failed (e : PyErr) : PutGoesOn item (.failed e)

section
variable {q : BoundedMessageQueue} {item : Bytes} {timeout : Option ℚ} {call : QueueCall}

theorem goesOn_putSpace (stored : Bool) : PutGoesOn item (.putSpace item timeout stored) :=
  .waits rfl fun before => by cases before <;> rfl

theorem goesOn_putBudget (got : Bool) : PutGoesOn item (.putBudget item timeout got) :=
  .waits rfl fun before => by cases before <;> rfl

theorem goesOn_awaitPut : PutGoesOn item (q.awaitPut item timeout).2 := by
  unfold BoundedMessageQueue.awaitPut
  cases timeout with
  | some t => exact goesOn_putSpace false
  | none =>
    dsimp only
    split
    · exact goesOn_putSpace false
    · exact .returned

theorem goesOn_awaitBudget : PutGoesOn item (q.awaitBudget item timeout).2 := by
  unfold BoundedMessageQueue.awaitBudget
  split
  · cases timeout with
    | none => exact goesOn_putBudget false
    | some t =>
      dsimp only
      split
      · exact .failed _
      · exact goesOn_putBudget false
  · exact goesOn_awaitPut

theorem goesOn_afterBudget : PutGoesOn item (q.afterBudget item timeout).2 := by
  unfold BoundedMessageQueue.afterBudget
  split
  · exact .failed _
  · exact goesOn_awaitBudget

theorem goesOn_beginPut : PutGoesOn item (q.beginPut item timeout).2 := by
  unfold BoundedMessageQueue.beginPut
  split
  · exact .failed _
  · split
    · exact .failed _
    · exact goesOn_awaitBudget

theorem goesOn_putBudget_wake (w : Wake) (got : Bool) : PutGoesOn item (q.wake w (.putBudget item timeout got)).2 := by
  cases w with
  | resume =>
    cases got with
    | false => exact goesOn_putBudget false
    | true =>
      unfold BoundedMessageQueue.wake BoundedMessageQueue.resume
      dsimp only
      split
      · exact .failed _
      · exact goesOn_afterBudget
  | runTask =>
    cases got with
    | true => exact goesOn_putBudget true
    | false =>
      unfold BoundedMessageQueue.wake BoundedMessageQueue.runTask
      dsimp only
      split
      · exact goesOn_putBudget false
      · exact goesOn_putBudget true
  | timeOut =>
    cases got with
    | true => exact goesOn_putBudget true
    | false => exact goesOn_afterBudget

theorem goesOn_putSpace_wake (w : Wake) (stored : Bool) : PutGoesOn item (q.wake w (.putSpace item timeout stored)).2 := by
  cases timeout with
  | none =>
    cases stored with
    | true => cases w <;> exact goesOn_putSpace true
    | false =>
      cases w with
      | resume => exact goesOn_awaitPut
      | runTask => exact goesOn_putSpace false
      | timeOut => exact goesOn_putSpace false
  | some t =>
    cases w with
    | resume =>
      cases stored with
      | false => exact goesOn_putSpace false
      | true => exact .returned
    | runTask =>
      cases stored with
      | true => exact goesOn_putSpace true
      | false =>
        unfold BoundedMessageQueue.wake BoundedMessageQueue.runTask
        dsimp only
        split
        · exact goesOn_putSpace true
        · exact goesOn_putSpace false
    | timeOut =>
      cases stored with
      | true => exact goesOn_putSpace true
      | false => exact .failed _

/-- **A step of a call.** It stays under way as it is, or ends without a record, or its
put returns. -/
theorem wake_pending (q : BoundedMessageQueue) (w : Wake) (call : QueueCall) :
    (call.returned (q.wake w call).2 = none ∧ ((q.wake w call).2.pending = call.pending ∨ (q.wake w call).2.pending = [])) ∨
      ∃ raw, call.returned (q.wake w call).2 = some raw ∧ call.pending = [raw.length] ∧ (q.wake w call).2.pending = [] := by
  have hput : ∀ {item : Bytes} {call call' : QueueCall}, PutGoesOn item call' → call.pending = [item.length] →
      (call.returned call' = none ∧ (call'.pending = call.pending ∨ call'.pending = [])) ∨
        ∃ raw, call.returned call' = some raw ∧ call.pending = [raw.length] ∧ call'.pending = [] := by
    intro item call call' h hcall
    cases h with
    | waits hpending hreturned => exact .inl ⟨hreturned call, .inl (hpending.trans hcall.symm)⟩
    | returned =>
      refine .inr ⟨item, ?_, hcall, rfl⟩
      cases call <;> first | rfl | cases hcall
    | failed e =>
      refine .inl ⟨?_, .inr rfl⟩
      cases call <;> rfl
  cases call with
  | put item timeout =>
    cases w with
    | resume => exact hput goesOn_beginPut rfl
    | runTask => exact .inl ⟨rfl, .inl rfl⟩
    | timeOut => exact .inl ⟨rfl, .inl rfl⟩
  | putBudget item timeout got => exact hput (goesOn_putBudget_wake w got) rfl
  | putSpace item timeout stored => exact hput (goesOn_putSpace_wake w stored) rfl
  | putReturned item => cases w <;> exact .inl ⟨rfl, .inl rfl⟩
  | getReturned item => cases w <;> exact .inl ⟨rfl, .inl rfl⟩
  | failed e => cases w <;> exact .inl ⟨rfl, .inl rfl⟩
  | get timeout =>
    cases w with
    | resume =>
      unfold BoundedMessageQueue.wake BoundedMessageQueue.resume BoundedMessageQueue.beginGet BoundedMessageQueue.awaitGet
      dsimp only
      split
      · exact .inl ⟨rfl, .inl rfl⟩
      · cases timeout with
        | some t => exact .inl ⟨rfl, .inl rfl⟩
        | none => cases q.queue <;> exact .inl ⟨rfl, .inl rfl⟩
    | runTask => exact .inl ⟨rfl, .inl rfl⟩
    | timeOut => exact .inl ⟨rfl, .inl rfl⟩
  | getItem timeout item =>
    cases timeout with
    | none =>
      cases item with
      | some item => cases w <;> exact .inl ⟨rfl, .inl rfl⟩
      | none =>
        cases w with
        | resume =>
          unfold BoundedMessageQueue.wake BoundedMessageQueue.resume BoundedMessageQueue.awaitGet
          dsimp only
          cases q.queue <;> exact .inl ⟨rfl, .inl rfl⟩
        | runTask => exact .inl ⟨rfl, .inl rfl⟩
        | timeOut => exact .inl ⟨rfl, .inl rfl⟩
    | some t =>
      cases item with
      | some item => cases w <;> exact .inl ⟨rfl, .inl rfl⟩
      | none =>
        cases w with
        | resume => exact .inl ⟨rfl, .inl rfl⟩
        | runTask =>
          unfold BoundedMessageQueue.wake BoundedMessageQueue.runTask
          dsimp only
          split
          · cases q.queue <;> exact .inl ⟨rfl, .inl rfl⟩
          · exact .inl ⟨rfl, .inl rfl⟩
        | timeOut => exact .inl ⟨rfl, .inl rfl⟩

end

/-! ## The limiter and what was recorded -/

theorem dropWhile_sorted {α : Type} {f : α → ℚ} {cutoff : ℚ} : ∀ {l : List α}, (l.map f).Pairwise (· ≤ ·) →
    (l.dropWhile fun a => f a ≤ cutoff) = l.filter fun a => cutoff < f a
  | [], _ => rfl
  | a :: l, h => by
    rw [List.map_cons, List.pairwise_cons] at h
    rw [List.dropWhile_cons, List.filter_cons]
    by_cases ha : f a ≤ cutoff
    · rw [if_pos (decide_eq_true ha), if_neg (by simpa using ha)]
      exact dropWhile_sorted h.2
    · have hlate : ∀ b ∈ l, cutoff < f b := fun b hb =>
        lt_of_lt_of_le (not_le.mp ha) (h.1 _ (List.mem_map_of_mem hb))
      rw [if_neg (by simpa using ha), if_pos (by simpa using ha),
        List.filter_eq_self.mpr fun b hb => decide_eq_true (hlate b hb)]

theorem sum_nonzero : ∀ l : List (ℚ × Nat), ((l.filter fun e => e.2 ≠ 0).map Prod.snd).sum = (l.map Prod.snd).sum
  | [] => rfl
  | e :: l => by
    have ih := sum_nonzero l
    by_cases he : e.2 = 0
    · rw [List.filter_cons_of_neg (by simpa using he), List.map_cons, List.sum_cons, he, Nat.zero_add, ih]
    · rw [List.filter_cons_of_pos (by simpa using he), List.map_cons, List.map_cons, List.sum_cons, List.sum_cons, ih]

namespace RateLimiter

/-- The limiter has what was recorded since some time before the last window. -/
structure Tracks (l : RateLimiter) (recorded : List (ℚ × Nat)) (last : ℚ) : Prop where
  sorted : (recorded.map Prod.fst).Pairwise (· ≤ ·)
  before : ∀ e ∈ recorded, e.1 ≤ last
  kept : ∃ cut ≤ last - l.limits.windowSeconds, (l.messageTimes = (recorded.filter fun e => cut < e.1).map Prod.fst) ∧
    l.byteWindows = (recorded.filter fun e => cut < e.1).filter fun e => e.2 ≠ 0

variable {l : RateLimiter} {recorded : List (ℚ × Nat)} {last now : ℚ}

theorem check_state (messageCount byteCount : Nat) : (l.check messageCount byteCount now).2 = l.prune now := by
  unfold check
  dsimp only
  split <;> rfl

theorem check_granted {messageCount byteCount : Nat} (h : (l.check messageCount byteCount now).1 = true) :
    ((l.prune now).messageTimes.length : Int) + messageCount ≤ l.limits.maxMessagesPerWindow ∧
      (((l.prune now).byteWindows.map Prod.snd).sum : Int) + byteCount ≤ l.limits.maxBytesPerWindow := by
  unfold check at h
  dsimp only at h
  split at h
  · cases h
  · rename_i hmessages
    exact ⟨not_lt.mp hmessages, of_decide_eq_true h⟩

theorem Tracks.pruned (h : l.Tracks recorded last) (hnow : last ≤ now) :
    ((l.prune now).messageTimes = (recorded.filter fun e => now - l.limits.windowSeconds < e.1).map Prod.fst) ∧
      (l.prune now).byteWindows = (recorded.filter fun e => now - l.limits.windowSeconds < e.1).filter fun e => e.2 ≠ 0 := by
  obtain ⟨cut, hcut, hmessages, hbytes⟩ := h.kept
  have hlate : cut ≤ now - l.limits.windowSeconds := hcut.trans (sub_le_sub_right hnow _)
  have hfilter : ((recorded.filter fun e => cut < e.1).filter fun e => now - l.limits.windowSeconds < e.1) =
      recorded.filter fun e => now - l.limits.windowSeconds < e.1 := by
    rw [List.filter_filter]
    refine List.filter_congr fun e _ => ?_
    rw [← Bool.decide_and, decide_eq_decide]
    exact ⟨And.left, fun he => ⟨he, lt_of_le_of_lt hlate he⟩⟩
  have hsorted : ((recorded.filter fun e => cut < e.1).map Prod.fst).Pairwise (· ≤ ·) :=
    h.sorted.sublist (List.filter_sublist.map _)
  constructor
  · have hdrop := @dropWhile_sorted _ Prod.fst (now - l.limits.windowSeconds) _ hsorted
    rw [prune]
    dsimp only
    rw [hmessages, List.dropWhile_map, ← hfilter, ← hdrop]
    rfl
  · have hdrop := @dropWhile_sorted _ Prod.fst (now - l.limits.windowSeconds) _
      (hsorted.sublist ((List.filter_sublist (p := fun e => e.2 ≠ 0)).map _))
    rw [prune]
    dsimp only
    rw [hbytes, hdrop, ← hfilter, List.filter_filter, List.filter_filter, List.filter_filter, List.filter_filter]
    exact List.filter_congr fun e _ => by ac_rfl

theorem Tracks.prune (h : l.Tracks recorded last) (hnow : last ≤ now) : (l.prune now).Tracks recorded now :=
  ⟨h.sorted, fun e he => (h.before e he).trans hnow, _, le_rfl, h.pruned hnow⟩

theorem Tracks.wait (h : l.Tracks recorded last) (hnow : last ≤ now) : l.Tracks recorded now := by
  obtain ⟨cut, hcut, hkept⟩ := h.kept
  exact ⟨h.sorted, fun e he => (h.before e he).trans hnow, cut, hcut.trans (sub_le_sub_right hnow _), hkept⟩

theorem Tracks.record (h : l.Tracks recorded now) (n : Nat) : (l.record 1 n now).Tracks (recorded ++ [(now, n)]) now := by
  obtain ⟨cut, hcut, hmessages, hbytes⟩ := h.kept
  have hin : cut < now := lt_of_le_of_lt hcut (sub_lt_self now l.limits.windowSeconds_pos)
  have hfilter : ((recorded ++ [(now, n)]).filter fun e => cut < e.1) = (recorded.filter fun e => cut < e.1) ++ [(now, n)] := by
    rw [List.filter_append]
    simp [hin]
  refine ⟨?_, ?_, cut, hcut, ?_, ?_⟩
  · rw [List.map_append, List.pairwise_append]
    refine ⟨h.sorted, List.pairwise_singleton _ _, fun a ha b hb => ?_⟩
    obtain ⟨e, he, rfl⟩ := List.mem_map.mp ha
    rw [List.mem_singleton.mp hb]
    exact h.before e he
  · intro e he
    rcases List.mem_append.mp he with he | he
    · exact h.before e he
    · rw [List.mem_singleton.mp he]
  · rw [RateLimiter.record, hfilter, List.map_append, ← hmessages]
    rfl
  · rw [RateLimiter.record, hfilter, List.filter_append, ← hbytes]
    by_cases hn : n ≠ 0
    · simp [hn]
    · simp [not_not.mp hn]

/-- What a granted check says of the last window. -/
theorem Tracks.room (h : l.Tracks recorded last) (hnow : last ≤ now) {messageCount byteCount : Nat}
    (hgranted : (l.check messageCount byteCount now).1 = true) :
    (load (fun t => now - l.limits.windowSeconds < t) (recorded.map fun e => (e.1, 1)) : Int) + messageCount ≤
        l.limits.maxMessagesPerWindow ∧
      (load (fun t => now - l.limits.windowSeconds < t) recorded : Int) + byteCount ≤ l.limits.maxBytesPerWindow := by
  have hgranted := check_granted hgranted
  obtain ⟨hmessages, hbytes⟩ := h.pruned hnow
  rw [hmessages, hbytes, List.length_map, sum_nonzero] at hgranted
  rw [load_ones]
  exact hgranted

end RateLimiter

/-! ## Whole runs -/

namespace SendRun

/-- What holds between two events, with the last clock reading. -/
structure Inv (limits : TransportLimits) (s : SendRun) (last : ℚ) : Prop where
  kept : s.transport.rateLimiter.limits = limits
  tracks : s.transport.rateLimiter.Tracks s.history last
  messages : Held limits.windowSeconds limits.maxMessagesPerWindow last s.underWay.length (s.history.map fun e => (e.1, 1))
  bytes : Held limits.windowSeconds limits.maxBytesPerWindow last s.underWay.sum s.history

variable {E : Primitives} {limits : TransportLimits} {s : SendRun} {last now : ℚ}

theorem Inv.wait (h : Inv limits s last) (hnow : last ≤ now) : Inv limits s now :=
  ⟨h.kept, h.tracks.wait hnow, h.messages.wait hnow, h.bytes.wait hnow⟩

/-- The sends under way, with one call apart. -/
theorem underWay_set {calls : List QueueCall} {i : Nat} {call : QueueCall} (h : calls[i]? = some call) :
    ∃ a b, calls.flatMap QueueCall.pending = a ++ call.pending ++ b ∧
      ∀ call', (calls.set i call').flatMap QueueCall.pending = a ++ call'.pending ++ b := by
  obtain ⟨hi, hcall⟩ := List.getElem?_eq_some_iff.mp h
  refine ⟨(calls.take i).flatMap QueueCall.pending, (calls.drop (i + 1)).flatMap QueueCall.pending, ?_, fun call' => ?_⟩
  · conv_lhs => rw [← List.take_append_drop i calls, List.drop_eq_getElem_cons hi, hcall]
    rw [List.flatMap_append, List.flatMap_cons, List.append_assoc]
  · rw [List.set_eq_take_append_cons_drop, if_pos hi, List.flatMap_append, List.flatMap_cons, List.append_assoc]

theorem Inv.wake (h : Inv limits s now) (i : Nat) (w : Wake) : Inv limits (s.wake i w now) now := by
  cases hcall : s.calls[i]? with
  | none =>
    have hsame : s.wake i w now = s := by simp only [SendRun.wake, hcall]
    rwa [hsame]
  | some call =>
    obtain ⟨a, b, hbefore, hafter⟩ := underWay_set hcall
    have hmessages := h.messages
    have hbytes := h.bytes
    rw [underWay, hbefore] at hmessages hbytes
    obtain ⟨hreturned, hpending⟩ | ⟨raw, hreturned, hraw, hdone⟩ := wake_pending s.transport.outbound w call
    · have hnext : s.wake i w now = { s with
          transport := { s.transport with outbound := (s.transport.outbound.wake w call).1 },
          calls := s.calls.set i (s.transport.outbound.wake w call).2 } := by
        simp only [SendRun.wake, hcall, hreturned]
      have hfewer : (a ++ (s.transport.outbound.wake w call).2.pending ++ b).length ≤ (a ++ call.pending ++ b).length ∧
          (a ++ (s.transport.outbound.wake w call).2.pending ++ b).sum ≤ (a ++ call.pending ++ b).sum := by
        rcases hpending with heq | hnil
        · rw [heq]
          exact ⟨le_rfl, le_rfl⟩
        · simp only [hnil, List.append_nil, List.length_append, List.sum_append]
          omega
      rw [hnext]
      refine ⟨h.kept, h.tracks, ?_, ?_⟩
      · rw [underWay, hafter]
        exact hmessages.release hfewer.1
      · rw [underWay, hafter]
        exact hbytes.release hfewer.2
    · have hnext : s.wake i w now = { s with
          transport := MemoryTransport.sent { s.transport with outbound := (s.transport.outbound.wake w call).1 } raw now,
          calls := s.calls.set i (s.transport.outbound.wake w call).2, history := s.history ++ [(now, raw.length)] } := by
        simp only [SendRun.wake, hcall, hreturned]
      have hlength : (a ++ call.pending ++ b).length = (a ++ b).length + 1 := by
        simp only [hraw, List.length_append, List.length_singleton]
        omega
      have hsum : (a ++ call.pending ++ b).sum = (a ++ b).sum + raw.length := by
        simp only [hraw, List.sum_append, List.sum_singleton]
        omega
      rw [hlength] at hmessages
      rw [hsum] at hbytes
      rw [hnext]
      refine ⟨h.kept, h.tracks.record raw.length, ?_, ?_⟩
      · rw [underWay, hafter, hdone, List.append_nil, List.map_append]
        exact hmessages.record limits.windowSeconds_pos
      · rw [underWay, hafter, hdone, List.append_nil]
        exact hbytes.record limits.windowSeconds_pos

/-- What a send leaves before its put: the limiter has dropped the old entries, if it was asked. -/
theorem beginSend_cases (E : Primitives) (t : MemoryTransport) (envelope : NetworkEnvelope) (now : ℚ) :
    (∃ e, t.beginSend E envelope now = (.error e, t) ∨
      t.beginSend E envelope now = (.error e, { t with rateLimiter := t.rateLimiter.prune now })) ∨
      ∃ raw, t.beginSend E envelope now = (.ok raw, { t with rateLimiter := t.rateLimiter.prune now }) := by
  unfold MemoryTransport.beginSend
  dsimp only
  split
  · rename_i e _
    exact .inl ⟨e, .inl rfl⟩
  · rename_i raw _
    rw [RateLimiter.check_state]
    split
    · exact .inr ⟨raw, rfl⟩
    · exact .inl ⟨_, .inr rfl⟩

theorem Inv.step {event : SendEvent} (h : Inv limits s last) (hnow : last ≤ now) (hroom : s.Room E (event, now)) :
    Inv limits (s.step E (event, now)) now := by
  cases event with
  | get timeout =>
    have hsame : (s.step E (.get timeout, now)).underWay = s.underWay := by
      rw [SendRun.step, underWay, List.flatMap_append, List.flatMap_singleton]
      exact List.append_nil _
    have hwait := h.wait hnow
    exact ⟨hwait.kept, hwait.tracks, hsame ▸ hwait.messages, hsame ▸ hwait.bytes⟩
  | wake i w => exact (h.wait hnow).wake i w
  | close => exact ⟨h.kept, h.tracks.wait hnow, h.messages.wait hnow, h.bytes.wait hnow⟩
  | send envelope =>
    obtain ⟨e, hbegin | hbegin⟩ | ⟨raw, hbegin⟩ := beginSend_cases E s.transport envelope now
    · have hnext : s.step E (.send envelope, now) = s := by simp only [SendRun.step, hbegin]
      rw [hnext]
      exact h.wait hnow
    · have hnext : s.step E (.send envelope, now) =
          { s with transport := { s.transport with rateLimiter := s.transport.rateLimiter.prune now } } := by
        simp only [SendRun.step, hbegin]
      rw [hnext]
      exact ⟨h.kept, h.tracks.prune hnow, h.messages.wait hnow, h.bytes.wait hnow⟩
    · simp only [SendRun.step, hbegin]
      apply Inv.wake
      have hgranted := h.tracks.room hnow (hroom raw (by rw [hbegin]))
      rw [h.kept] at hgranted
      have hunder : ∀ timeout, (s.calls ++ [QueueCall.put raw timeout]).flatMap QueueCall.pending = s.underWay ++ [raw.length] :=
        fun timeout => by rw [List.flatMap_append, List.flatMap_singleton]; rfl
      refine ⟨h.kept, h.tracks.prune hnow, ?_, ?_⟩
      · rw [underWay, hunder, List.length_append, List.length_singleton]
        refine (h.messages.wait hnow).reserve (le_trans (le_of_eq ?_) hgranted.1)
        rw [Nat.add_comm]
      · rw [underWay, hunder, List.sum_append, List.sum_singleton]
        refine (h.bytes.wait hnow).reserve (le_trans (le_of_eq ?_) hgranted.2)
        rw [Nat.add_comm raw.length]

theorem Inv.run : ∀ {events : List (SendEvent × ℚ)} {s : SendRun} {last : ℚ}, Inv limits s last →
    (∀ e ∈ events, last ≤ e.2) → (events.map Prod.snd).Pairwise (· ≤ ·) → s.AllRoom E events →
    ∃ last', Inv limits (s.run E events) last'
  | [], _, last, h, _, _, _ => ⟨last, h⟩
  | (event, now) :: events, s, last, h, hlast, htimes, hroom => by
    rw [List.map_cons, List.pairwise_cons] at htimes
    have hnow : last ≤ now := hlast (event, now) List.mem_cons_self
    exact @Inv.run events (s.step E (event, now)) now (h.step hnow hroom.1) (fun e he => htimes.1 _ (List.mem_map_of_mem he))
      htimes.2 hroom.2

/-- **Where the rate holds.** In every run in which each send that passes its check
leaves room for the sends under way, no window of either kind has more recorded
messages or bytes than the limits allow. -/
theorem sends_bounded {transport : MemoryTransport} (hfresh : transport.rateLimiter = { limits := transport.limits })
    (hbytes : 0 ≤ transport.limits.maxBytesPerWindow) {events : List (SendEvent × ℚ)}
    (htimes : (events.map Prod.snd).Pairwise (· ≤ ·)) (hroom : AllRoom E { transport := transport } events) :
    Bounded transport.limits.windowSeconds transport.limits.maxMessagesPerWindow
        ((run E { transport := transport } events).history.map fun e => (e.1, 1)) ∧
      Bounded transport.limits.windowSeconds transport.limits.maxBytesPerWindow (run E { transport := transport } events).history := by
  have hstart : ∀ now, Inv transport.limits { transport := transport } now := fun now =>
    ⟨by rw [hfresh], by rw [hfresh]; exact ⟨.nil, nofun, _, le_rfl, rfl, rfl⟩, .start transport.limits.maxMessagesPerWindow_pos.le,
      .start hbytes⟩
  have hfirst : ∃ now, ∀ e ∈ events, now ≤ e.2 := by
    cases events with
    | nil => exact ⟨0, nofun⟩
    | cons e events =>
      rw [List.map_cons, List.pairwise_cons] at htimes
      exact ⟨e.2, List.forall_mem_cons.mpr ⟨le_rfl, fun x hx => htimes.1 _ (List.mem_map_of_mem hx)⟩⟩
  obtain ⟨now, hnow⟩ := hfirst
  obtain ⟨last, h⟩ := (hstart now).run hnow htimes hroom
  exact ⟨h.messages.bounded, h.bytes.bounded⟩

/-! ## Runs -/

theorem beginSend_length {t : MemoryTransport} {envelope : NetworkEnvelope} {raw : Bytes}
    (h : (t.beginSend E envelope now).1 = .ok raw) : raw.length = 70 + envelope.payload.length := by
  unfold MemoryTransport.beginSend at h
  dsimp only at h
  split at h
  · cases h
  · rename_i sent hsent
    simp only [bind_eq_ok] at hsent
    obtain ⟨_, -, _, -, hraw⟩ := hsent
    split at h
    · cases h
      rw [(serializeEnvelope_eq_ok E).mp hraw |>.2, frame_length]
    · cases h

/-- Two messages a second, of any size. -/
def twoLimits : TransportLimits := { maxMessagesPerWindow := 2, maxMessagesPerWindow_pos := by decide, windowSeconds_pos := by decide }

/-- A queue with one place. -/
def oneTransport : MemoryTransport :=
  { connectionId := str "a", state := .active, limits := twoLimits, rateLimiter := { limits := twoLimits },
    outbound := { maxDepth := 1, maxBytes := 1000, name := str "a->b" } }

def emptyPing : NetworkEnvelope := ⟨3, 0, []⟩

/-- The second send begins while the first is under way. -/
def twoSends : List (SendEvent × ℚ) :=
  [(.send emptyPing, 0), (.send emptyPing, 0), (.wake 0 .runTask, 0), (.wake 0 .resume, 0)]

theorem sends_bounded_two :
    Bounded (1 : ℚ) 2 ((run (recorded []) { transport := oneTransport } twoSends).history.map fun e => (e.1, 1)) := by
  refine (@sends_bounded (recorded []) oneTransport rfl (by decide) twoSends (by decide) ⟨?_, ?_, trivial, trivial, trivial⟩).1
  · intro raw hraw
    rw [beginSend_length hraw]
    decide
  · intro raw hraw
    rw [beginSend_length hraw]
    decide +kernel

/-- The first message fills the queue; the next two sends pass the check while they wait. -/
def burst : List (SendEvent × ℚ) :=
  [(.send emptyPing, 0), (.wake 0 .runTask, 0), (.wake 0 .resume, 0), (.send emptyPing, 0), (.send emptyPing, 0),
    (.get (some 1), 0), (.wake 3 .resume, 0), (.wake 3 .runTask, 0), (.wake 1 .runTask, 0), (.wake 1 .resume, 0),
    (.get (some 1), 0), (.wake 4 .resume, 0), (.wake 4 .runTask, 0), (.wake 2 .runTask, 0), (.wake 2 .resume, 0)]

theorem burst_recorded : (run (recorded []) { transport := oneTransport } burst).history = [(0, 70), (0, 70), (0, 70)] := by
  decide +kernel

/-- Three messages are recorded in a window of two. -/
theorem burst_unbounded : ¬ ∀ (E : Primitives) (transport : MemoryTransport) (events : List (SendEvent × ℚ)),
    transport.rateLimiter = { limits := transport.limits } → 0 ≤ transport.limits.maxBytesPerWindow →
    (events.map Prod.snd).Pairwise (· ≤ ·) →
    Bounded transport.limits.windowSeconds transport.limits.maxMessagesPerWindow
        ((run E { transport := transport } events).history.map fun e => (e.1, 1)) ∧
      Bounded transport.limits.windowSeconds transport.limits.maxBytesPerWindow (run E { transport := transport } events).history := by
  intro h
  have hbounded := (h (recorded []) oneTransport burst rfl (by decide) (by decide)).1.closed_open 0
  rw [burst_recorded] at hbounded
  exact absurd hbounded (by decide +kernel)

end SendRun

end ChainBreaker
