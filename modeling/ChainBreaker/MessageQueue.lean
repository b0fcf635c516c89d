import ChainBreaker.Lib.Fallible
import ChainBreaker.Py
import Mathlib.Algebra.BigOperators.Group.List.Basic
import Mathlib.Data.List.Perm.Basic

/-!
# The bounded message queue

Calls of `put` and `get` over one `asyncio.Queue`, interleaved wherever they
await. A timed wait runs its operation in a task of its own, so the byte counter
may lag behind the queue. As long as no `put` takes an item for its own budget,
nothing is lost (`queue_accounted`).
-/

namespace ChainBreaker

open Fallible

structure BoundedMessageQueue where
  maxDepth : Nat
  maxBytes : Nat
  name : Str
  queue : List Bytes := []
  bytesUsed : Int := 0
  drops : Nat := 0
  closed : Bool := false
  deriving DecidableEq

/-- A call: where it awaits, or how it ended. -/
inductive QueueCall where
  | put (item : Bytes) (timeout : Option Rat)
  | get (timeout : Option Rat)
  /-- `put` waits for its byte budget; `got`: the task of the wait has taken an item. -/
  | putBudget (item : Bytes) (timeout : Option Rat) (got : Bool)
  /-- `put` waits for a free place; `stored`: the task of a timed wait has put the item there. -/
  | putSpace (item : Bytes) (timeout : Option Rat) (stored : Bool)
  /-- `get` waits; `item`: what the task of a timed wait has taken. -/
  | getItem (timeout : Option Rat) (item : Option Bytes)
  | putReturned (item : Bytes)
  | getReturned (item : Bytes)
  | failed (e : PyErr)

namespace BoundedMessageQueue

def init (maxDepth maxBytes : Int) (name : Str) : Except PyErr BoundedMessageQueue := do
  require (0 < maxDepth) (ChainBreaker.err .valueError "max_depth must be positive")
  require (0 < maxBytes) (ChainBreaker.err .valueError "max_bytes must be positive")
  .ok { maxDepth := maxDepth.toNat, maxBytes := maxBytes.toNat, name := name }

variable (q : BoundedMessageQueue)

def full : Bool := q.maxDepth ≤ q.queue.length

/-- The bytes of the queued items. -/
def queued : Nat := (q.queue.map List.length).sum

/-- `self._bytes_used + item_size > self._max_bytes`. -/
def overBudget (item : Bytes) : Bool := (q.maxBytes : Int) < q.bytesUsed + item.length

def closedError : PyErr := ⟨.transportClosedError, "% is closed", [.str q.name]⟩

/-! ## The code between two awaits -/

/-- `put` once it has its budget. Without a timeout the queue is awaited directly. -/
def awaitPut (item : Bytes) : Option Rat → BoundedMessageQueue × QueueCall
  | some timeout => (q, .putSpace item (some timeout) false)
  | none =>
    if q.full then (q, .putSpace item none false)
    else ({ q with queue := q.queue ++ [item], bytesUsed := q.bytesUsed + item.length }, .putReturned item)

/-- The head of the loop that waits for the budget. -/
def awaitBudget (item : Bytes) (timeout : Option Rat) : BoundedMessageQueue × QueueCall :=
  if q.overBudget item then
    match timeout with
    | some t =>
      if t ≤ 0 then
        ({ q with drops := q.drops + 1 }, .failed ⟨.transportLimitError, "% byte budget exhausted", [.str q.name]⟩)
      else (q, .putBudget item (some t) false)
    | none => (q, .putBudget item none false)
  else q.awaitPut item timeout

def beginPut (item : Bytes) (timeout : Option Rat) : BoundedMessageQueue × QueueCall :=
  if q.closed then (q, .failed q.closedError)
  else if q.maxBytes < item.length then
    ({ q with drops := q.drops + 1 }, .failed ⟨.transportLimitError, "message size % exceeds queue byte capacity %",
      [.int item.length, .int q.maxBytes]⟩)
  else q.awaitBudget item timeout

/-- The end of a round of that loop. -/
def afterBudget (item : Bytes) (timeout : Option Rat) : BoundedMessageQueue × QueueCall :=
  if q.closed then (q, .failed q.closedError) else q.awaitBudget item timeout

def awaitGet : Option Rat → BoundedMessageQueue × QueueCall
  | some timeout => (q, .getItem (some timeout) none)
  | none =>
    match q.queue with
    | [] => (q, .getItem none none)
    | item :: rest => ({ q with queue := rest, bytesUsed := q.bytesUsed - item.length }, .getReturned item)

def beginGet (timeout : Option Rat) : BoundedMessageQueue × QueueCall :=
  if q.closed ∧ q.queue = [] then (q, .failed q.closedError) else q.awaitGet timeout

/-! ## What wakes a call -/

/-- The call goes on, if what it awaits has happened. -/
def resume : QueueCall → BoundedMessageQueue × QueueCall
  | .put item timeout => q.beginPut item timeout
  | .get timeout => q.beginGet timeout
  | .putBudget item timeout true =>
    -- the awaited item is dropped, and only the next one is accounted for
    match q.queue with
    | [] => (q, .failed (ChainBreaker.err .queueEmpty ""))
    | next :: rest => afterBudget { q with queue := rest, bytesUsed := q.bytesUsed - next.length } item timeout
  | .putSpace item none false => q.awaitPut item none
  | .putSpace item (some _) true => ({ q with bytesUsed := q.bytesUsed + item.length }, .putReturned item)
  | .getItem none none => q.awaitGet none
  | .getItem (some _) (some item) => ({ q with bytesUsed := q.bytesUsed - item.length }, .getReturned item)
  | call => (q, call)

/-- The task of a timed wait gets its turn; with no time left it is cancelled before it begins. -/
def runTask : QueueCall → BoundedMessageQueue × QueueCall
  | .putBudget item timeout false =>
    match q.queue with
    | [] => (q, .putBudget item timeout false)
    | _ :: rest => ({ q with queue := rest }, .putBudget item timeout true)
  | .putSpace item (some t) false =>
    if 0 < t ∧ ¬ q.full then ({ q with queue := q.queue ++ [item] }, .putSpace item (some t) true)
    else (q, .putSpace item (some t) false)
  | .getItem (some t) none =>
    if 0 < t then
      match q.queue with
      | [] => (q, .getItem (some t) none)
      | item :: rest => ({ q with queue := rest }, .getItem (some t) (some item))
    else (q, .getItem (some t) none)
  | call => (q, call)

/-- A timed wait ends without what it waited for. -/
def timeOut : QueueCall → BoundedMessageQueue × QueueCall
  | .putBudget item timeout false => q.afterBudget item timeout
  | .putSpace _ (some _) false =>
    ({ q with drops := q.drops + 1 }, .failed ⟨.transportLimitError, "% put timed out", [.str q.name]⟩)
  | .getItem (some _) none => (q, .failed ⟨.transportLimitError, "% get timed out", [.str q.name]⟩)
  | call => (q, call)

end BoundedMessageQueue

inductive Wake where
  | resume | runTask | timeOut
  deriving DecidableEq

def BoundedMessageQueue.wake (q : BoundedMessageQueue) : Wake → QueueCall → BoundedMessageQueue × QueueCall
  | .resume => q.resume
  | .runTask => q.runTask
  | .timeOut => q.timeOut

/-! ## Interleaved calls -/

namespace QueueCall

def Finished : QueueCall → Prop
  | putReturned _ | getReturned _ | failed _ => True
  | _ => False

/-- The item that the call has put into the queue. -/
def storedItem : QueueCall → List Bytes
  | putSpace item _ true | putReturned item => [item]
  | _ => []

/-- The item that a `get` has taken out of the queue. -/
def takenItem : QueueCall → List Bytes
  | getItem _ (some item) | getReturned item => [item]
  | _ => []

/-- The item of a `put` that returned normally. -/
def putItem : QueueCall → List Bytes
  | putReturned item => [item]
  | _ => []

/-- The item that a `get` returned. -/
def gotItem : QueueCall → List Bytes
  | getReturned item => [item]
  | _ => []

end QueueCall

/-- The queue, the calls begun so far, and the items that entered and left the queue, in order. -/
structure QueueRun where
  q : BoundedMessageQueue
  calls : List QueueCall := []
  entered : List Bytes := []
  taken : List Bytes := []

inductive QueueEvent where
  | put (item : Bytes) (timeout : Option Rat)
  | get (timeout : Option Rat)
  | wake (i : Nat) (w : Wake)
  | close

def QueueRun.step (s : QueueRun) : QueueEvent → QueueRun
  | .put item timeout => { s with calls := s.calls ++ [.put item timeout] }
  | .get timeout => { s with calls := s.calls ++ [.get timeout] }
  | .close => { s with q := { s.q with closed := true } }
  | .wake i w =>
    match s.calls[i]? with
    | none => s
    | some call =>
      let (q, call') := s.q.wake w call
      { q := q, calls := s.calls.set i call',
        entered := s.entered ++ call'.storedItem.drop call.storedItem.length,
        taken := s.taken ++ call'.takenItem.drop call.takenItem.length }

def QueueRun.run (s : QueueRun) (events : List QueueEvent) : QueueRun := events.foldl QueueRun.step s

/-- Nothing is lost or counted wrongly. -/
structure QueueRun.Accounted (s : QueueRun) : Prop where
  fifo : s.taken ++ s.q.queue = s.entered
  idle : (∀ call ∈ s.calls, call.Finished) →
    (s.entered.Perm (s.calls.flatMap QueueCall.putItem) ∧ s.taken.Perm (s.calls.flatMap QueueCall.gotItem)) ∧
      s.q.bytesUsed = s.q.queued ∧ 0 ≤ s.q.bytesUsed ∧ s.q.bytesUsed ≤ s.q.maxBytes

/-! ## When a step is safe -/

/-- The item that a wake puts into the queue. -/
def BoundedMessageQueue.stores (q : BoundedMessageQueue) : Wake → QueueCall → Option Bytes
  | .resume, .put item none =>
    if q.closed ∨ q.maxBytes < item.length ∨ q.overBudget item ∨ q.full then none else some item
  | .resume, .putSpace item none false => if q.full then none else some item
  | .runTask, .putSpace item (some t) false => if 0 < t ∧ ¬ q.full then some item else none
  | .timeOut, .putBudget item none false => if q.closed ∨ q.overBudget item ∨ q.full then none else some item
  | _, _ => none

/-- What is put fits beside what is queued, and a `put` that waits for its budget finds nothing to take. -/
structure BoundedMessageQueue.Fits (q : BoundedMessageQueue) (w : Wake) (call : QueueCall) : Prop where
  room : ∀ item, q.stores w call = some item → q.queued + item.length ≤ q.maxBytes
  spared : w = .runTask → ∀ item timeout, call = .putBudget item timeout false → q.queue = []

def QueueRun.Fits (s : QueueRun) : QueueEvent → Prop
  | .wake i w => ∀ call, s.calls[i]? = some call → s.q.Fits w call
  | _ => True

def QueueRun.AllFit : QueueRun → List QueueEvent → Prop
  | _, [] => True
  | s, event :: events => s.Fits event ∧ (s.step event).AllFit events

/-! ## One step of one call -/

namespace QueueCall

/-- By how much the counter is behind the queue because of the call. -/
def owed : QueueCall → Int
  | putSpace item _ true => item.length
  | getItem _ (some item) => -item.length
  | _ => 0

/-- A `put` that has taken an item for its budget. -/
def Robbing : QueueCall → Prop
  | putBudget _ _ true => True
  | _ => False

/-- A call that has not touched the queue. -/
structure Blank (call : QueueCall) : Prop where
  stored : call.storedItem = []
  taken : call.takenItem = []
  owed : call.owed = 0
  spared : ¬ call.Robbing

end QueueCall

/-- What a step of a call does to the queue, and what it makes of the call. -/
structure CallStep (q : BoundedMessageQueue) (call : QueueCall) (q' : BoundedMessageQueue) (call' : QueueCall) : Prop where
  maxBytes : q'.maxBytes = q.maxBytes
  fifo : call'.takenItem.drop call.takenItem.length ++ q'.queue
    = q.queue ++ call'.storedItem.drop call.storedItem.length
  stored : call.storedItem <+: call'.storedItem
  taken : call.takenItem <+: call'.takenItem
  owed : q'.bytesUsed + call'.owed - q'.queued = q.bytesUsed + call.owed - q.queued
  room : q.queued ≤ q.maxBytes → q'.queued ≤ q.maxBytes
  spared : ¬ call'.Robbing

section
variable {q q' : BoundedMessageQueue} {call call' : QueueCall} {item : Bytes} {timeout : Option Rat}

theorem CallStep.refl (h : ¬ call.Robbing) : CallStep q call q call where
  maxBytes := rfl
  fifo := by rw [List.drop_length, List.drop_length, List.nil_append, List.append_nil]
  stored := List.prefix_refl _
  taken := List.prefix_refl _
  owed := rfl
  room := id
  spared := h

/-- A step that leaves queue and counter alone. -/
theorem CallStep.stay (hqueue : q'.queue = q.queue) (hbytes : q'.bytesUsed = q.bytesUsed) (hmax : q'.maxBytes = q.maxBytes)
    (h : call.Blank) (h' : call'.Blank) : CallStep q call q' call' where
  maxBytes := hmax
  fifo := by rw [h.stored, h.taken, h'.stored, h'.taken, hqueue]; exact (List.append_nil _).symm
  stored := by rw [h.stored]; exact List.nil_prefix
  taken := by rw [h.taken]; exact List.nil_prefix
  owed := by rw [h.owed, h'.owed, hbytes, BoundedMessageQueue.queued, hqueue, BoundedMessageQueue.queued]
  room hroom := by rwa [BoundedMessageQueue.queued, hqueue]
  spared := h'.spared

/-- A step that puts an item in, with the counter at once or later. -/
theorem CallStep.store {bytes : Int} (h : call.Blank) (hstored : call'.storedItem = [item]) (htaken : call'.takenItem = [])
    (hspared : ¬ call'.Robbing) (howed : bytes + call'.owed = q.bytesUsed + item.length)
    (hroom : q.queued + item.length ≤ q.maxBytes) :
    CallStep q call { q with queue := q.queue ++ [item], bytesUsed := bytes } call' := by
  have hqueued : ((q.queue ++ [item]).map List.length).sum = q.queued + item.length := by
    simp [BoundedMessageQueue.queued]
  exact {
    maxBytes := rfl
    fifo := by rw [h.stored, h.taken, hstored, htaken]; rfl
    stored := by rw [h.stored]; exact List.nil_prefix
    taken := by rw [h.taken]; exact List.nil_prefix
    owed := by rw [howed, h.owed, BoundedMessageQueue.queued, hqueued]; push_cast; omega
    room := fun _ => by rw [BoundedMessageQueue.queued, hqueued]; exact hroom
    spared := hspared }

theorem CallStep.awaitPut (h : call.Blank)
    (hroom : timeout = none → q.full = false → q.queued + item.length ≤ q.maxBytes) :
    CallStep q call (q.awaitPut item timeout).1 (q.awaitPut item timeout).2 := by
  cases timeout with
  | some t => exact .stay rfl rfl rfl h ⟨rfl, rfl, rfl, id⟩
  | none =>
    unfold BoundedMessageQueue.awaitPut
    by_cases hfull : q.full = true
    · rw [if_pos hfull]
      exact .stay rfl rfl rfl h ⟨rfl, rfl, rfl, id⟩
    · rw [if_neg hfull]
      exact .store h rfl rfl id (Int.add_zero _) (hroom rfl (Bool.not_eq_true _ ▸ hfull))

theorem CallStep.awaitBudget (h : call.Blank)
    (hroom : timeout = none → q.overBudget item = false → q.full = false → q.queued + item.length ≤ q.maxBytes) :
    CallStep q call (q.awaitBudget item timeout).1 (q.awaitBudget item timeout).2 := by
  unfold BoundedMessageQueue.awaitBudget
  by_cases hover : q.overBudget item = true
  · rw [if_pos hover]
    cases timeout with
    | none => exact .stay rfl rfl rfl h ⟨rfl, rfl, rfl, id⟩
    | some t =>
      by_cases ht : t ≤ 0
      · simp only [if_pos ht]
        exact .stay rfl rfl rfl h ⟨rfl, rfl, rfl, id⟩
      · simp only [if_neg ht]
        exact .stay rfl rfl rfl h ⟨rfl, rfl, rfl, id⟩
  · rw [if_neg hover]
    exact .awaitPut h fun hnone hfull => hroom hnone (Bool.not_eq_true _ ▸ hover) hfull

theorem CallStep.afterBudget (h : call.Blank) (hroom : timeout = none → q.closed = false → q.overBudget item = false →
    q.full = false → q.queued + item.length ≤ q.maxBytes) :
    CallStep q call (q.afterBudget item timeout).1 (q.afterBudget item timeout).2 := by
  unfold BoundedMessageQueue.afterBudget
  by_cases hclosed : q.closed = true
  · rw [if_pos hclosed]
    exact .stay rfl rfl rfl h ⟨rfl, rfl, rfl, id⟩
  · rw [if_neg hclosed]
    exact .awaitBudget h fun hnone => hroom hnone (Bool.not_eq_true _ ▸ hclosed)

theorem CallStep.beginPut (h : call.Blank) (hroom : timeout = none → q.closed = false → item.length ≤ q.maxBytes →
    q.overBudget item = false → q.full = false → q.queued + item.length ≤ q.maxBytes) :
    CallStep q call (q.beginPut item timeout).1 (q.beginPut item timeout).2 := by
  unfold BoundedMessageQueue.beginPut
  by_cases hclosed : q.closed = true
  · rw [if_pos hclosed]
    exact .stay rfl rfl rfl h ⟨rfl, rfl, rfl, id⟩
  rw [if_neg hclosed]
  by_cases hsize : q.maxBytes < item.length
  · rw [if_pos hsize]
    exact .stay rfl rfl rfl h ⟨rfl, rfl, rfl, id⟩
  · rw [if_neg hsize]
    exact .awaitBudget h fun hnone => hroom hnone (Bool.not_eq_true _ ▸ hclosed) (Nat.not_lt.mp hsize)

/-- A step that takes the first item out, with the counter at once or later. -/
theorem CallStep.take {rest : List Bytes} {bytes : Int} (hqueue : q.queue = item :: rest) (h : call.Blank)
    (htaken : call'.takenItem = [item]) (hstored : call'.storedItem = []) (hspared : ¬ call'.Robbing)
    (howed : bytes + call'.owed = q.bytesUsed - item.length) :
    CallStep q call { q with queue := rest, bytesUsed := bytes } call' := by
  have hqueued : q.queued = item.length + (rest.map List.length).sum := by
    rw [BoundedMessageQueue.queued, hqueue, List.map_cons, List.sum_cons]
  exact {
    maxBytes := rfl
    fifo := by rw [h.taken, htaken, h.stored, hstored, hqueue]; exact (List.append_nil _).symm
    stored := by rw [h.stored]; exact List.nil_prefix
    taken := by rw [h.taken]; exact List.nil_prefix
    owed := by rw [howed, h.owed, hqueued, BoundedMessageQueue.queued]; push_cast; omega
    room := fun hroom => by simp only [BoundedMessageQueue.queued] at hqueued hroom ⊢; omega
    spared := hspared }

theorem CallStep.awaitGet (h : call.Blank) : CallStep q call (q.awaitGet timeout).1 (q.awaitGet timeout).2 := by
  cases timeout with
  | some t => exact .stay rfl rfl rfl h ⟨rfl, rfl, rfl, id⟩
  | none =>
    unfold BoundedMessageQueue.awaitGet
    cases hqueue : q.queue with
    | nil => exact .stay rfl rfl rfl h ⟨rfl, rfl, rfl, id⟩
    | cons item rest => exact .take hqueue h rfl rfl id (Int.add_zero _)

theorem CallStep.beginGet (h : call.Blank) : CallStep q call (q.beginGet timeout).1 (q.beginGet timeout).2 := by
  unfold BoundedMessageQueue.beginGet
  by_cases hclosed : q.closed = true ∧ q.queue = []
  · rw [if_pos hclosed]
    exact .stay rfl rfl rfl h ⟨rfl, rfl, rfl, id⟩
  · rw [if_neg hclosed]
    exact .awaitGet h

/-- The counter catches up with what the task of a call has done. -/
theorem CallStep.count {bytes : Int} (hstored : call'.storedItem = call.storedItem) (htaken : call'.takenItem = call.takenItem)
    (hspared : ¬ call'.Robbing) (howed : bytes + call'.owed = q.bytesUsed + call.owed) :
    CallStep q call { q with bytesUsed := bytes } call' where
  maxBytes := rfl
  fifo := by
    rw [hstored, htaken, List.drop_length, List.drop_length]
    exact (List.append_nil q.queue).symm
  stored := hstored ▸ List.prefix_refl _
  taken := htaken ▸ List.prefix_refl _
  owed := by rw [howed]; rfl
  room := id
  spared := hspared

theorem CallStep.resume (hspared : ¬ call.Robbing) (hfits : q.Fits .resume call) :
    CallStep q call (q.resume call).1 (q.resume call).2 := by
  have hroom := hfits.room
  cases call with
  | put item timeout =>
    refine .beginPut ⟨rfl, rfl, rfl, id⟩ fun hnone hclosed hsize hover hfull => hroom item ?_
    subst hnone
    exact if_neg (by simp [hclosed, hover, hfull, hsize])
  | get timeout => exact .beginGet ⟨rfl, rfl, rfl, id⟩
  | putBudget item timeout got =>
    cases got with
    | true => exact absurd trivial hspared
    | false => exact .refl hspared
  | putSpace item timeout stored =>
    cases timeout with
    | none =>
      cases stored with
      | true => exact .refl id
      | false => exact .awaitPut ⟨rfl, rfl, rfl, id⟩ fun _ hfull => hroom item (if_neg (by rw [hfull]; nofun))
    | some t =>
      cases stored with
      | false => exact .refl id
      | true => exact .count rfl rfl id (Int.add_zero _)
  | getItem timeout item =>
    cases timeout with
    | none =>
      cases item with
      | none => exact .awaitGet ⟨rfl, rfl, rfl, id⟩
      | some item => exact .refl id
    | some t =>
      cases item with
      | none => exact .refl id
      | some item => exact .count rfl rfl id (Int.add_zero _)
  | putReturned item => exact .refl id
  | getReturned item => exact .refl id
  | failed e => exact .refl id

theorem CallStep.runTask (hspared : ¬ call.Robbing) (hfits : q.Fits .runTask call) :
    CallStep q call (q.runTask call).1 (q.runTask call).2 := by
  cases call with
  | putBudget item timeout got =>
    cases got with
    | true => exact absurd trivial hspared
    | false =>
      have hempty := hfits.spared rfl item timeout rfl
      unfold BoundedMessageQueue.runTask
      simp only [hempty]
      exact .refl hspared
  | putSpace item timeout stored =>
    cases timeout with
    | none => cases stored <;> exact .refl id
    | some t =>
      cases stored with
      | true => exact .refl id
      | false =>
        have hroom := hfits.room item
        unfold BoundedMessageQueue.runTask
        by_cases hturn : 0 < t ∧ ¬ q.full = true
        · simp only [if_pos hturn]
          exact .store ⟨rfl, rfl, rfl, id⟩ rfl rfl id rfl (hroom (if_pos hturn))
        · simp only [if_neg hturn]
          exact .refl id
  | getItem timeout item =>
    cases timeout with
    | none => cases item <;> exact .refl id
    | some t =>
      cases item with
      | some item => exact .refl id
      | none =>
        unfold BoundedMessageQueue.runTask
        by_cases ht : 0 < t
        · simp only [if_pos ht]
          cases hqueue : q.queue with
          | nil => exact .refl id
          | cons item rest => exact .take hqueue ⟨rfl, rfl, rfl, id⟩ rfl rfl id (Int.sub_eq_add_neg).symm
        · simp only [if_neg ht]
          exact .refl id
  | put item timeout => exact .refl id
  | get timeout => exact .refl id
  | putReturned item => exact .refl id
  | getReturned item => exact .refl id
  | failed e => exact .refl id

theorem CallStep.timeOut (hspared : ¬ call.Robbing) (hfits : q.Fits .timeOut call) :
    CallStep q call (q.timeOut call).1 (q.timeOut call).2 := by
  cases call with
  | putBudget item timeout got =>
    cases got with
    | true => exact absurd trivial hspared
    | false =>
      refine .afterBudget ⟨rfl, rfl, rfl, id⟩ fun hnone hclosed hover hfull => hfits.room item ?_
      subst hnone
      exact if_neg (by simp [hclosed, hover, hfull])
  | putSpace item timeout stored =>
    cases timeout with
    | none => cases stored <;> exact .refl id
    | some t =>
      cases stored with
      | true => exact .refl id
      | false => exact .stay rfl rfl rfl ⟨rfl, rfl, rfl, id⟩ ⟨rfl, rfl, rfl, id⟩
  | getItem timeout item =>
    cases timeout with
    | none => cases item <;> exact .refl id
    | some t =>
      cases item with
      | some item => exact .refl id
      | none => exact .stay rfl rfl rfl ⟨rfl, rfl, rfl, id⟩ ⟨rfl, rfl, rfl, id⟩
  | put item timeout => exact .refl id
  | get timeout => exact .refl id
  | putReturned item => exact .refl id
  | getReturned item => exact .refl id
  | failed e => exact .refl id

theorem CallStep.wake {w : Wake} (hspared : ¬ call.Robbing) (hfits : q.Fits w call) :
    CallStep q call (q.wake w call).1 (q.wake w call).2 := by
  cases w with
  | resume => exact .resume hspared hfits
  | runTask => exact .runTask hspared hfits
  | timeOut => exact .timeOut hspared hfits

end

/-! ## Whole runs -/

section
variable {α β : Type}

theorem flatMap_set_perm {f : α → List β} {a b : α} {d : List β} : ∀ {l : List α} {i : Nat}, l[i]? = some a →
    f b = f a ++ d → ((l.set i b).flatMap f).Perm (l.flatMap f ++ d)
  | x :: l, 0, ha, hb => by
    cases ha
    rw [List.set_cons_zero, List.flatMap_cons, List.flatMap_cons, hb, List.append_assoc, List.append_assoc]
    exact List.perm_append_comm.append_left _
  | x :: l, i + 1, ha, hb => by
    rw [List.set_cons_succ, List.flatMap_cons, List.flatMap_cons, List.append_assoc]
    exact (flatMap_set_perm (l := l) (by simpa using ha) hb).append_left _

theorem sum_map_set {f : α → Int} {a b : α} : ∀ {l : List α} {i : Nat}, l[i]? = some a →
    ((l.set i b).map f).sum = (l.map f).sum - f a + f b
  | x :: l, 0, ha => by
    cases ha
    rw [List.set_cons_zero, List.map_cons, List.sum_cons, List.map_cons, List.sum_cons]
    omega
  | x :: l, i + 1, ha => by
    rw [List.set_cons_succ, List.map_cons, List.sum_cons, List.map_cons, List.sum_cons,
      sum_map_set (l := l) (by simpa using ha)]
    omega

end

/-- The invariant of a run: every difference is owed by a call that has not ended. -/
structure QueueRun.Inv (s : QueueRun) : Prop where
  fifo : s.taken ++ s.q.queue = s.entered
  stored : s.entered.Perm (s.calls.flatMap QueueCall.storedItem)
  got : s.taken.Perm (s.calls.flatMap QueueCall.takenItem)
  owed : s.q.bytesUsed + (s.calls.map QueueCall.owed).sum = s.q.queued
  room : s.q.queued ≤ s.q.maxBytes
  spared : ∀ call ∈ s.calls, ¬ call.Robbing

theorem QueueRun.Inv.begin {s : QueueRun} (h : s.Inv) {call : QueueCall} (hblank : call.Blank) :
    QueueRun.Inv { s with calls := s.calls ++ [call] } where
  fifo := h.fifo
  stored := by
    rw [List.flatMap_append, List.flatMap_singleton, hblank.stored, List.append_nil]
    exact h.stored
  got := by
    rw [List.flatMap_append, List.flatMap_singleton, hblank.taken, List.append_nil]
    exact h.got
  owed := by
    rw [List.map_append, List.sum_append, List.map_singleton, List.sum_singleton, hblank.owed, Int.add_zero]
    exact h.owed
  room := h.room
  spared x hx := by
    rcases List.mem_append.mp hx with hx | hx
    · exact h.spared x hx
    · rw [List.mem_singleton.mp hx]
      exact hblank.spared

theorem prefix_append_drop {α : Type} {xs ys : List α} (h : xs <+: ys) : ys = xs ++ ys.drop xs.length := by
  obtain ⟨d, rfl⟩ := h
  rw [List.drop_left]

theorem QueueRun.step_wake {s : QueueRun} {i : Nat} {w : Wake} {call : QueueCall} (hcall : s.calls[i]? = some call) :
    s.step (.wake i w) =
      { q := (s.q.wake w call).1, calls := s.calls.set i (s.q.wake w call).2,
        entered := s.entered ++ (s.q.wake w call).2.storedItem.drop call.storedItem.length,
        taken := s.taken ++ (s.q.wake w call).2.takenItem.drop call.takenItem.length } := by
  simp only [step, hcall]

/-- A safe event keeps the invariant. -/
theorem QueueRun.Inv.step {s : QueueRun} (h : s.Inv) {event : QueueEvent} (hfits : s.Fits event) : (s.step event).Inv := by
  cases event with
  | put item timeout => exact h.begin ⟨rfl, rfl, rfl, id⟩
  | get timeout => exact h.begin ⟨rfl, rfl, rfl, id⟩
  | close => exact ⟨h.fifo, h.stored, h.got, h.owed, h.room, h.spared⟩
  | wake i w =>
    cases hcall : s.calls[i]? with
    | none =>
      have hsame : s.step (.wake i w) = s := by simp only [QueueRun.step, hcall]
      rwa [hsame]
    | some call =>
      have hstep := CallStep.wake (h.spared call (List.mem_of_getElem? hcall)) (hfits call hcall)
      rw [QueueRun.step_wake hcall]
      refine ⟨?_, ?_, ?_, ?_, ?_, ?_⟩
      · rw [List.append_assoc, hstep.fifo, ← h.fifo, List.append_assoc]
      · exact (h.stored.append_right _).trans (flatMap_set_perm hcall (prefix_append_drop hstep.stored)).symm
      · exact (h.got.append_right _).trans (flatMap_set_perm hcall (prefix_append_drop hstep.taken)).symm
      · have howed := h.owed
        have hnext := hstep.owed
        rw [sum_map_set hcall]
        simp only
        omega
      · rw [hstep.maxBytes]
        exact hstep.room h.room
      · intro x hx
        rcases List.mem_or_eq_of_mem_set hx with hx | rfl
        · exact h.spared x hx
        · exact hstep.spared

theorem QueueRun.Inv.run : ∀ {events : List QueueEvent} {s : QueueRun}, s.Inv → s.AllFit events → (s.run events).Inv
  | [], _, h, _ => h
  | _ :: _, _, h, hfits => (h.step hfits.1).run hfits.2

theorem QueueCall.Finished.items {call : QueueCall} (h : call.Finished) :
    call.storedItem = call.putItem ∧ call.takenItem = call.gotItem ∧ call.owed = 0 := by
  cases call with
  | putReturned item => exact ⟨rfl, rfl, rfl⟩
  | getReturned item => exact ⟨rfl, rfl, rfl⟩
  | failed e => exact ⟨rfl, rfl, rfl⟩
  | put item timeout => cases h
  | get timeout => cases h
  | putBudget item timeout got => cases h
  | putSpace item timeout stored => cases h
  | getItem timeout item => cases h

theorem QueueRun.Inv.accounted {s : QueueRun} (h : s.Inv) : s.Accounted where
  fifo := h.fifo
  idle hidle := by
    have hstored : s.calls.flatMap QueueCall.storedItem = s.calls.flatMap QueueCall.putItem :=
      List.flatMap_congr fun call hcall => (hidle call hcall).items.1
    have htaken : s.calls.flatMap QueueCall.takenItem = s.calls.flatMap QueueCall.gotItem :=
      List.flatMap_congr fun call hcall => (hidle call hcall).items.2.1
    have howed : (s.calls.map QueueCall.owed).sum = 0 :=
      List.sum_eq_zero fun x hx => by
        obtain ⟨call, hcall, rfl⟩ := List.mem_map.mp hx
        exact (hidle call hcall).items.2.2
    have hbytes := h.owed
    have hroom := h.room
    rw [howed, Int.add_zero] at hbytes
    exact ⟨⟨hstored ▸ h.stored, htaken ▸ h.got⟩, hbytes, by omega, by omega⟩

/-- In every run without a `put` that takes an item for its budget or one that stores beyond it,
what leaves the queue is what entered it, in order, and the counter is right once no call is in progress. -/
theorem queue_accounted {maxDepth maxBytes : Int} {name : Str} {q : BoundedMessageQueue}
    (hinit : BoundedMessageQueue.init maxDepth maxBytes name = .ok q) (events : List QueueEvent)
    (hfits : QueueRun.AllFit { q := q } events) : (QueueRun.run { q := q } events).Accounted := by
  simp only [BoundedMessageQueue.init, bind_eq_ok, require_eq_ok, Except.ok.injEq] at hinit
  obtain ⟨_, -, _, -, rfl⟩ := hinit
  have hstart : QueueRun.Inv { q := { maxDepth := maxDepth.toNat, maxBytes := maxBytes.toNat, name := name } } :=
    ⟨rfl, .refl _, .refl _, rfl, Nat.zero_le _, List.forall_mem_nil _⟩
  exact (hstart.run hfits).accounted

/-- Two messages of two bytes each, put and got. -/
theorem queue_accounted_pair : (QueueRun.run { q := { maxDepth := 2, maxBytes := 4, name := str "queue" } }
    [.put [1, 1] none, .wake 0 .resume, .put [2, 2] (some 1), .wake 1 .resume, .wake 1 .runTask, .wake 1 .resume,
      .get none, .wake 2 .resume]).Accounted := by
  refine @queue_accounted 2 4 (str "queue") _ rfl _ ⟨trivial, ?_, trivial, ?_, ?_, ?_, trivial, ?_, trivial⟩
  · rintro call ⟨⟩
    exact ⟨fun item h => by cases h; decide, nofun⟩
  · rintro call ⟨⟩
    exact ⟨nofun, nofun⟩
  · rintro call ⟨⟩
    exact ⟨fun item h => by cases h; decide, nofun⟩
  · rintro call ⟨⟩
    exact ⟨nofun, nofun⟩
  · rintro call ⟨⟩
    exact ⟨nofun, nofun⟩

/-- A `put` that waits for its budget loses the message that it takes. -/
theorem queued_message_lost : ¬ ∀ (maxDepth maxBytes : Int) (name : Str) (q : BoundedMessageQueue) (events : List QueueEvent),
    BoundedMessageQueue.init maxDepth maxBytes name = .ok q → (QueueRun.run { q := q } events).Accounted := by
  intro h
  have hfifo := (h 2 3 (str "queue") _ [.put [1, 1] none, .wake 0 .resume, .put [2, 2] none, .wake 1 .resume,
    .wake 1 .runTask, .wake 1 .resume] rfl).fifo
  cases hfifo

end ChainBreaker
