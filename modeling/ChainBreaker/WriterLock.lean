import ChainBreaker.Governance
import ChainBreaker.Text
import Mathlib.Data.Fintype.Basic

/-!
# The single-writer lock file

`SingleWriterLock` as processes run it: each file operation of `acquire` and
`release` is one step, and the steps of the processes mix in any order. Two
processes never hold the lock together as long as no one decides to take it
while another has decided to and not yet done so (`writer_lock_exclusive`).
-/

namespace ChainBreaker

open Fallible

/-- The processes that share one lock file, alive all along on one machine. -/
structure Writers (ι : Type) where
  /-- `os.getpid()` -/
  pid : ι → Nat
  pid_inj : Function.Injective pid
  pid_range : ∀ i, pid i < 2 ^ 31
  /-- `platform.node()` -/
  node : Str
  node_encodes : node.any isSurrogate = false

/-- Where a process stands in `acquire`, by the file operation that is next. -/
inductive LockStage where
  | idle | reading | unlinking | writing | replacing
  deriving DecidableEq

structure Writer where
  stage : LockStage := .idle
  holds : Bool := false
  /-- the temporary file, which has the process id in its name -/
  tmp : Option Bytes := none

structure LockSystem (ι : Type) where
  lock : Option Bytes
  writer : ι → Writer

/-- The next step of a process, and what the system answers in it. -/
structure LockEvent (ι : Type) where
  process : ι
  /-- an idle process calls `release`, or else `acquire` -/
  release : Bool
  /-- the file operation raises an `OSError` -/
  fails : Bool
  /-- `os.kill(pid, 0)`, as `_pid_alive` reads it -/
  pidAlive : Int → Except PyErr Bool

/-! ## Reading the lock file -/

/-- `content.strip().split()[0]`, empty where that is an `IndexError`. -/
def firstWord (content : Str) : Str := (strip content).takeWhile fun c => !isUniSpace c

/-- `int` of the first word, or none. -/
def ownerPid (content : Str) : Option Int :=
  if firstWord content = [] then none else (parseInt (firstWord content)).toOption

/-- The check of a lock file that was there: it passes if the file is stale. -/
def checkStale (lock : Option Bytes) (pidAlive : Int → Except PyErr Bool) : Except PyErr Unit := do
  let data ← orRaise lock (err .fileNotFoundError "No such file or directory")
  let content ← decodeUtf8 data
  match ownerPid content with
  | none => .ok ()
  | some pid => do
    let alive ← pidAlive pid
    require (alive = false) ⟨.storageIOError, "storage lock held by process %", [.int pid]⟩

/-- `f"{os.getpid()} {platform.node()}\n"`. -/
def lockText (pid : Nat) (node : Str) : Str := natText pid ++ 32 :: (node ++ [10])

theorem natText_not_space {n : Nat} {c : CodePoint} (h : c ∈ natText n) : isUniSpace c = false := by
  have hc := isDigit_iff.mp (natText_digit h)
  simp only [isUniSpace, Bool.or_eq_false_iff, Bool.and_eq_false_iff, decide_eq_false_iff_not, beq_eq_false_iff_ne]
  omega

/-- Stripping a word with a blank behind it leaves the word in front. -/
theorem strip_word {word rest : Str} {blank : CodePoint} (hne : word ≠ []) (hword : ∀ c ∈ word, isUniSpace c = false)
    (hblank : isUniSpace blank = true) :
    ∃ r, strip (word ++ blank :: rest) = word ++ r ∧ ∀ c, r.head? = some c → isUniSpace c = true := by
  obtain ⟨first, tail, rfl⟩ := List.exists_cons_of_ne_nil hne
  have hfront : ((first :: tail) ++ blank :: rest).dropWhile isUniSpace = (first :: tail) ++ blank :: rest := by
    rw [List.cons_append, List.dropWhile_cons, hword first (.head _)]
    rfl
  have hlast : (first :: tail).reverse.dropWhile isUniSpace = (first :: tail).reverse := by
    cases hr : (first :: tail).reverse with
    | nil => rfl
    | cons c r =>
      have hc : c ∈ first :: tail := List.mem_reverse.mp (hr ▸ List.mem_cons_self)
      rw [List.dropWhile_cons, hword c hc]
      rfl
  have hreverse : ((first :: tail) ++ blank :: rest).reverse = rest.reverse ++ ([blank] ++ (first :: tail).reverse) := by
    simp
  rw [strip, stripOf, hfront, hreverse, List.dropWhile_append]
  split
  · refine ⟨[], ?_, fun c hc => by cases hc⟩
    rw [List.singleton_append, List.dropWhile_cons, if_pos hblank, hlast, List.reverse_reverse, List.append_nil]
  · refine ⟨blank :: (rest.reverse.dropWhile isUniSpace).reverse, by simp, ?_⟩
    intro c hc
    cases hc
    exact hblank

theorem firstWord_lockText (pid : Nat) (node : Str) : firstWord (lockText pid node) = natText pid := by
  obtain ⟨r, hstrip, hr⟩ := @strip_word (natText pid) (node ++ [10]) 32 (natText_ne_nil pid) (fun _ => natText_not_space) rfl
  rw [firstWord, lockText, hstrip]
  rw [List.takeWhile_append_of_pos fun c hc => by rw [natText_not_space hc]; rfl]
  cases r with
  | nil => rw [List.takeWhile_nil, List.append_nil]
  | cons c r => rw [List.takeWhile_cons, hr c rfl, Bool.not_true, if_neg (by decide), List.append_nil]

/-- A lock file names the process that wrote it. -/
theorem ownerPid_lockText {pid : Nat} (h : pid < 2 ^ 31) (node : Str) : ownerPid (lockText pid node) = some (pid : Int) := by
  have hlen : (natText pid).length ≤ 10 := by
    rw [natText, List.length_map]
    exact (Nat.length_toDigits_le_iff (by decide) (by decide)).mpr (Nat.lt_trans h (by decide))
  have hpad : padInt 0 pid = .ok (natText pid) := by
    have hnonneg : ¬ (pid : Int) < 0 := by omega
    have hshort : ¬ MAX_STR_DIGITS < (natText pid).length := Nat.not_lt.mpr (Nat.le_trans hlen (by decide))
    rw [padInt, Int.natAbs_natCast]
    simp only [if_neg hshort, if_neg hnonneg, Nat.zero_sub, List.replicate_zero, List.nil_append]
  rw [ownerPid, firstWord_lockText, if_neg (natText_ne_nil pid), parseInt_padInt (by decide) hpad]
  rfl

/-! ## Steps -/

section
variable {ι : Type} [DecidableEq ι] (W : Writers ι)

/-- What process `i` writes. -/
def Writers.data (i : ι) : Bytes := utf8 (lockText (W.pid i) W.node)

def LockSystem.set (s : LockSystem ι) (i : ι) (w : Writer) : LockSystem ι :=
  { s with writer := Function.update s.writer i w }

/-- One step of a process. Where a file operation or a check raises, the call is over. -/
def lockStep (s : LockSystem ι) (e : LockEvent ι) : LockSystem ι :=
  let w := s.writer e.process
  match w.stage with
  | .idle =>
    if e.fails then s
    else if e.release then { s.set e.process { w with holds := false } with lock := none }
    else s.set e.process { w with stage := if s.lock.isSome then .reading else .writing }
  | .reading =>
    match if e.fails then .error (err .storageIOError "read failed") else checkStale s.lock e.pidAlive with
    | .ok _ => s.set e.process { w with stage := .unlinking }
    | .error _ => s.set e.process { w with stage := .idle }
  | .unlinking =>
    if e.fails then s.set e.process { w with stage := .idle }
    else { s.set e.process { w with stage := .writing } with lock := none }
  | .writing =>
    if e.fails then s.set e.process { w with stage := .idle }
    else s.set e.process { w with stage := .replacing, tmp := some (W.data e.process) }
  | .replacing =>
    match w.tmp with
    | some data =>
      if e.fails then s.set e.process { w with stage := .idle, tmp := none }
      else { s.set e.process { stage := .idle, holds := true, tmp := none } with lock := some data }
    | none => s.set e.process { w with stage := .idle }

/-! ## Exclusion -/

/-- Between the check that found no live owner and the write of the lock file. -/
def LockStage.taking : LockStage → Bool
  | .idle | .reading => false
  | .unlinking | .writing | .replacing => true

def LockSystem.AtMostOne (s : LockSystem ι) : Prop :=
  ∀ i j, (s.writer i).holds = true → (s.writer j).holds = true → i = j

/-- No process decides to take the lock while another is taking it, or releases
what another holds. -/
def OrderlyStep (s : LockSystem ι) (e : LockEvent ι) : Prop :=
  ∀ j, j ≠ e.process →
    ((s.writer j).stage.taking = true → (s.writer e.process).stage.taking = false →
      ((lockStep W s e).writer e.process).stage.taking = false) ∧
    ((s.writer j).holds = true → (s.writer e.process).stage = .idle → e.release = true → e.fails = false →
      (s.writer e.process).holds = true)

/-- The system answers that the processes are alive. -/
def Live (e : LockEvent ι) : Prop := ∀ i, e.pidAlive (W.pid i) = .ok true

/-- What orderly steps keep. -/
structure LockSystem.Exclusive (s : LockSystem ι) : Prop where
  one_taking : ∀ i j, (s.writer i).stage.taking = true → (s.writer j).stage.taking = true → i = j
  none_held : ∀ i j, (s.writer i).stage.taking = true → (s.writer j).holds = false
  one_holder : s.AtMostOne
  named : ∀ i, (s.writer i).holds = true → s.lock = some (W.data i)
  written : ∀ i, (s.writer i).stage = .replacing → (s.writer i).tmp = some (W.data i)

structure LockSystem.Initial (s : LockSystem ι) : Prop where
  idle : ∀ i, (s.writer i).stage = .idle
  free : ∀ i, (s.writer i).holds = false

variable {W}

omit [DecidableEq ι] in
theorem LockSystem.Initial.exclusive {s : LockSystem ι} (h : s.Initial) : s.Exclusive W where
  one_taking i _ hi := by rw [h.idle i] at hi; cases hi
  none_held i _ hi := by rw [h.idle i] at hi; cases hi
  one_holder i _ hi := by rw [h.free i] at hi; cases hi
  named i hi := by rw [h.free i] at hi; cases hi
  written i hi := by rw [h.idle i] at hi; cases hi

@[simp] theorem set_self (s : LockSystem ι) (i : ι) (w : Writer) : (s.set i w).writer i = w := by
  simp [LockSystem.set]

@[simp] theorem set_other (s : LockSystem ι) {i j : ι} (w : Writer) (h : j ≠ i) : (s.set i w).writer j = s.writer j := by
  simp [LockSystem.set, h]

@[simp] theorem set_lock (s : LockSystem ι) (i : ι) (w : Writer) : (s.set i w).lock = s.lock := rfl

theorem lockStep_other (s : LockSystem ι) {e : LockEvent ι} {j : ι} (h : j ≠ e.process) :
    (lockStep W s e).writer j = s.writer j := by
  unfold lockStep
  simp only
  split
  · split
    · rfl
    · split <;> exact set_other s _ h
  · split <;> exact set_other s _ h
  · split <;> exact set_other s _ h
  · split <;> exact set_other s _ h
  · split
    · split <;> exact set_other s _ h
    · exact set_other s _ h

omit [DecidableEq ι] in
/-- The lock file of a live process is not stale. -/
theorem checkStale_live {e : LockEvent ι} (h : Live W e) (i : ι) : ∃ x, checkStale (some (W.data i)) e.pidAlive = .error x := by
  have hchars : (lockText (W.pid i) W.node).any isSurrogate = false := by
    have hdigits : (natText (W.pid i)).any isSurrogate = false := by
      rw [List.any_eq_false]
      intro c hc
      have := isDigit_iff.mp (natText_digit hc)
      simp only [isSurrogate, Bool.and_eq_true, decide_eq_true_eq]
      omega
    rw [lockText, List.any_append, hdigits, List.any_cons, List.any_append, W.node_encodes]
    rfl
  refine ⟨⟨.storageIOError, "storage lock held by process %", [.int (W.pid i)]⟩, ?_⟩
  rw [checkStale, orRaise, ok_bind, Writers.data, decodeUtf8_utf8 hchars, ok_bind, ownerPid_lockText (W.pid_range i)]
  simp only [h i, ok_bind]
  rfl

/-- A step of `i` keeps the invariant if its own part of it holds afterwards
and the lock file of another holder is left alone. -/
theorem LockSystem.Exclusive.of_step {s s' : LockSystem ι} (h : s.Exclusive W) {i : ι}
    (hother : ∀ j, j ≠ i → s'.writer j = s.writer j)
    (htaking : (s'.writer i).stage.taking = true → (s'.writer i).holds = false ∧
      ∀ j, j ≠ i → (s.writer j).stage.taking = false ∧ (s.writer j).holds = false)
    (hholds : (s'.writer i).holds = true → s'.lock = some (W.data i) ∧
      ∀ j, j ≠ i → (s.writer j).stage.taking = false ∧ (s.writer j).holds = false)
    (hlock : ∀ j, j ≠ i → (s.writer j).holds = true → s'.lock = s.lock)
    (hwritten : (s'.writer i).stage = .replacing → (s'.writer i).tmp = some (W.data i)) : s'.Exclusive W where
  one_taking j k hj hk := by
    by_cases hji : j = i <;> by_cases hki : k = i
    · rw [hji, hki]
    · subst hji
      rw [hother k hki, ((htaking hj).2 k hki).1] at hk
      cases hk
    · subst hki
      rw [hother j hji, ((htaking hk).2 j hji).1] at hj
      cases hj
    · rw [hother j hji] at hj
      rw [hother k hki] at hk
      exact h.one_taking j k hj hk
  none_held j k hj := by
    by_cases hji : j = i <;> by_cases hki : k = i
    · rw [hki]
      exact (htaking (hji ▸ hj)).1
    · subst hji
      rw [hother k hki]
      exact ((htaking hj).2 k hki).2
    · subst hki
      rw [Bool.eq_false_iff]
      intro hk
      rw [hother j hji, ((hholds hk).2 j hji).1] at hj
      cases hj
    · rw [hother j hji] at hj
      rw [hother k hki]
      exact h.none_held j k hj
  one_holder j k hj hk := by
    by_cases hji : j = i <;> by_cases hki : k = i
    · rw [hji, hki]
    · subst hji
      rw [hother k hki, ((hholds hj).2 k hki).2] at hk
      cases hk
    · subst hki
      rw [hother j hji, ((hholds hk).2 j hji).2] at hj
      cases hj
    · rw [hother j hji] at hj
      rw [hother k hki] at hk
      exact h.one_holder j k hj hk
  named j hj := by
    by_cases hji : j = i
    · subst hji
      exact (hholds hj).1
    · rw [hother j hji] at hj
      rw [hlock j hji hj]
      exact h.named j hj
  written j hj := by
    by_cases hji : j = i
    · subst hji
      exact hwritten hj
    · rw [hother j hji] at hj ⊢
      exact h.written j hj

omit [DecidableEq ι] in
/-- A holder is alone, also while it stands somewhere else in `acquire`. -/
theorem LockSystem.Exclusive.alone {s : LockSystem ι} (h : s.Exclusive W) {i : ι} (hi : (s.writer i).holds = true) :
    s.lock = some (W.data i) ∧ ∀ j, j ≠ i → (s.writer j).stage.taking = false ∧ (s.writer j).holds = false := by
  refine ⟨h.named i hi, fun j hj => ⟨?_, ?_⟩⟩
  · rw [Bool.eq_false_iff]
    intro ht
    rw [h.none_held j i ht] at hi
    cases hi
  · rw [Bool.eq_false_iff]
    exact fun hh => hj (h.one_holder j i hh hi)

/-- A process that steps back from taking the lock, or only looks at it. -/
theorem LockSystem.Exclusive.pause {s : LockSystem ι} (h : s.Exclusive W) {i : ι} {w : Writer}
    (hstage : w.stage.taking = false) (hholds : w.holds = (s.writer i).holds) : (s.set i w).Exclusive W := by
  refine h.of_step (fun j hj => set_other s w hj) ?_ ?_ (fun _ _ _ => rfl) ?_
  · intro ht
    rw [set_self, hstage] at ht
    cases ht
  · intro hi
    rw [set_self, hholds] at hi
    exact h.alone hi
  · intro hr
    rw [set_self] at hr
    rw [hr] at hstage
    cases hstage

/-- A process that is taking the lock, while no other takes or holds it. -/
theorem LockSystem.Exclusive.take {s : LockSystem ι} (h : s.Exclusive W) {i : ι} {w : Writer} (lock : Option Bytes)
    (hfree : w.holds = false) (halone : ∀ j, j ≠ i → (s.writer j).stage.taking = false ∧ (s.writer j).holds = false)
    (hwritten : w.stage = .replacing → w.tmp = some (W.data i)) : { s.set i w with lock := lock }.Exclusive W := by
  refine h.of_step (fun j hj => set_other s w hj) ?_ ?_ ?_ ?_
  · exact fun _ => ⟨by rw [set_self]; exact hfree, halone⟩
  · intro hi
    rw [set_self, hfree] at hi
    cases hi
  · intro j hj hh
    rw [(halone j hj).2] at hh
    cases hh
  · intro hr
    rw [set_self] at hr ⊢
    exact hwritten hr

omit [DecidableEq ι] in
/-- Nobody holds a lock whose file names none of the processes. -/
theorem LockSystem.Exclusive.unheld {s : LockSystem ι} (h : s.Exclusive W) (hlock : ∀ j, s.lock ≠ some (W.data j)) (j : ι) :
    (s.writer j).holds = false := by
  rw [Bool.eq_false_iff]
  exact fun hj => hlock j (h.named j hj)

omit [DecidableEq ι] in
theorem LockSystem.Exclusive.taking_alone {s : LockSystem ι} (h : s.Exclusive W) {i : ι}
    (hi : (s.writer i).stage.taking = true) (j : ι) (hj : j ≠ i) :
    (s.writer j).stage.taking = false ∧ (s.writer j).holds = false := by
  refine ⟨?_, h.none_held i j hi⟩
  rw [Bool.eq_false_iff]
  exact fun hj' => hj (h.one_taking j i hj' hi)

/-- **Step.** An orderly step keeps the lock exclusive. -/
theorem exclusive_step {s : LockSystem ι} {e : LockEvent ι} (h : s.Exclusive W) (ho : OrderlyStep W s e)
    (hlive : Live W e) : (lockStep W s e).Exclusive W := by
  have hdecides : (s.writer e.process).stage.taking = false → ((lockStep W s e).writer e.process).stage.taking = true →
      ∀ j, j ≠ e.process → (s.writer j).stage.taking = false := by
    intro hout hin j hj
    rw [Bool.eq_false_iff]
    intro ht
    rw [(ho j hj).1 ht hout] at hin
    cases hin
  unfold lockStep at hdecides ⊢
  simp only at hdecides ⊢
  cases hstage : (s.writer e.process).stage with
  | idle =>
    simp only [hstage] at hdecides ⊢
    cases hfails : e.fails with
    | true => simpa using h
    | false =>
      cases hrelease : e.release with
      | true =>
        simp only [Bool.false_eq_true, if_false, if_true]
        refine h.of_step (fun j hj => set_other s _ hj) ?_ ?_ ?_ ?_
        · intro ht
          simp [LockStage.taking] at ht
        · intro hh
          simp at hh
        · -- only the holder releases, so no other holds
          intro j hj hh
          have hi := (ho j hj).2 hh hstage hrelease hfails
          exact absurd (h.one_holder j e.process hh hi) hj
        · intro hr
          simp at hr
      | false =>
        simp only [hfails, hrelease, Bool.false_eq_true, if_false] at hdecides ⊢
        cases hlock : s.lock with
        | some data =>
          rw [Option.isSome_some, if_pos rfl]
          exact h.pause rfl rfl
        | none =>
          rw [hlock, Option.isSome_none, if_neg (by decide)] at hdecides
          rw [Option.isSome_none, if_neg (by decide)]
          have hnone : ∀ j, (s.writer j).holds = false := h.unheld fun j hj => by rw [hlock] at hj; cases hj
          refine h.take s.lock (hnone _) (fun j hj => ⟨?_, hnone j⟩) (fun hr => by cases hr)
          exact hdecides rfl (by simp [LockStage.taking]) j hj
  | reading =>
    simp only [hstage] at hdecides ⊢
    cases hcheck : (if e.fails then .error (err .storageIOError "read failed") else checkStale s.lock e.pidAlive :
        Except PyErr Unit) with
    | error x => exact h.pause rfl rfl
    | ok u =>
      rw [hcheck] at hdecides
      have hnone : ∀ j, (s.writer j).holds = false := by
        refine h.unheld fun j hj => ?_
        obtain ⟨x, hx⟩ := checkStale_live hlive j
        rw [hj, hx] at hcheck
        split at hcheck <;> cases hcheck
      refine h.take s.lock (hnone _) (fun j hj => ⟨?_, hnone j⟩) (fun hr => by cases hr)
      exact hdecides rfl (by simp [LockStage.taking]) j hj
  | unlinking =>
    have halone := h.taking_alone (by rw [hstage]; rfl)
    have hfree := h.none_held e.process e.process (by rw [hstage]; rfl)
    simp only
    cases hfails : e.fails with
    | true => exact h.pause rfl rfl
    | false => exact h.take none hfree halone fun hr => by cases hr
  | writing =>
    have halone := h.taking_alone (by rw [hstage]; rfl)
    have hfree := h.none_held e.process e.process (by rw [hstage]; rfl)
    simp only
    cases hfails : e.fails with
    | true => exact h.pause rfl rfl
    | false => exact h.take s.lock hfree halone fun _ => rfl
  | replacing =>
    have halone := h.taking_alone (by rw [hstage]; rfl)
    simp only [h.written e.process hstage]
    cases hfails : e.fails with
    | true => exact h.pause rfl rfl
    | false =>
      refine h.of_step (fun j hj => set_other s _ hj) ?_ ?_ ?_ ?_
      · intro ht
        simp [LockStage.taking] at ht
      · exact fun _ => ⟨rfl, halone⟩
      · intro j hj hh
        rw [(halone j hj).2] at hh
        cases hh
      · intro hr
        simp at hr

/-! ## Runs -/

variable (W) in
def lockRun (s : LockSystem ι) (events : List (LockEvent ι)) : LockSystem ι := events.foldl (lockStep W) s

variable (W) in
/-- Every step of the run is orderly. -/
def Orderly : LockSystem ι → List (LockEvent ι) → Prop
  | _, [] => True
  | s, e :: events => OrderlyStep W s e ∧ Orderly (lockStep W s e) events

instance [Fintype ι] (s : LockSystem ι) (e : LockEvent ι) : Decidable (OrderlyStep W s e) :=
  inferInstanceAs (Decidable (∀ j, j ≠ e.process → (_ ∧ _)))

instance decidableOrderly [Fintype ι] : ∀ (s : LockSystem ι) (events : List (LockEvent ι)), Decidable (Orderly W s events)
  | _, [] => isTrue trivial
  | s, e :: events =>
    have := decidableOrderly (lockStep W s e) events
    inferInstanceAs (Decidable (_ ∧ _))

theorem exclusive_run {s : LockSystem ι} {events : List (LockEvent ι)} (h : s.Exclusive W) (ho : Orderly W s events)
    (hlive : ∀ e ∈ events, Live W e) : (lockRun W s events).Exclusive W := by
  induction events generalizing s with
  | nil => exact h
  | cons e events ih =>
    exact ih (exclusive_step h ho.1 (hlive e (.head _))) ho.2 fun e he => hlive e (.tail _ he)

theorem orderly_append {s : LockSystem ι} {events events' : List (LockEvent ι)} :
    Orderly W s (events ++ events') ↔ Orderly W s events ∧ Orderly W (lockRun W s events) events' := by
  induction events generalizing s with
  | nil => simp [Orderly, lockRun]
  | cons e events ih =>
    rw [List.cons_append, Orderly, Orderly, ih, and_assoc]
    rfl

theorem lockRun_other {i j : ι} (hj : j ≠ i) {s : LockSystem ι} {events : List (LockEvent ι)}
    (hi : ∀ e ∈ events, e.process = i) : (lockRun W s events).writer j = s.writer j := by
  induction events generalizing s with
  | nil => rfl
  | cons e events ih =>
    have he : j ≠ e.process := by
      rw [hi e (.head _)]
      exact hj
    exact (ih fun e he => hi e (.tail _ he)).trans (lockStep_other s he)

/-- The next step of `acquire`, without a fault. -/
def acquireStep (i : ι) : LockEvent ι := ⟨i, false, false, fun _ => .ok true⟩

/-- Left to itself, a process that is taking the lock gets it. -/
theorem taken (s : LockSystem ι) {i : ι} (h : (s.writer i).stage.taking = true)
    (hwritten : (s.writer i).stage = .replacing → (s.writer i).tmp = some (W.data i)) :
    ∃ n, ((lockRun W s (List.replicate n (acquireStep i))).writer i).holds = true := by
  have replacing : ∀ {s : LockSystem ι}, (s.writer i).stage = .replacing → (s.writer i).tmp = some (W.data i) →
      ((lockRun W s (List.replicate 1 (acquireStep i))).writer i).holds = true := by
    intro s hs htmp
    simp [lockRun, lockStep, acquireStep, hs, htmp, LockSystem.set]
  have writing : ∀ {s : LockSystem ι}, (s.writer i).stage = .writing →
      ((lockRun W s (List.replicate 2 (acquireStep i))).writer i).holds = true := by
    intro s hs
    refine @replacing (lockStep W s (acquireStep i)) ?_ ?_ <;> simp [lockStep, acquireStep, hs]
  cases hs : (s.writer i).stage with
  | idle => rw [hs] at h; cases h
  | reading => rw [hs] at h; cases h
  | unlinking => exact ⟨3, @writing (lockStep W s (acquireStep i)) (by simp [lockStep, acquireStep, hs, LockSystem.set])⟩
  | writing => exact ⟨2, writing hs⟩
  | replacing => exact ⟨1, replacing hs (hwritten hs)⟩

theorem not_replacing_of_entered {s : LockSystem ι} {e : LockEvent ι} (h : (s.writer e.process).stage.taking = false) :
    ((lockStep W s e).writer e.process).stage ≠ .replacing := by
  unfold lockStep
  simp only
  cases hs : (s.writer e.process).stage with
  | idle => simp only; split_ifs <;> simp [hs]
  | reading => simp only; split <;> simp
  | unlinking => rw [hs] at h; cases h
  | writing => rw [hs] at h; cases h
  | replacing => rw [hs] at h; cases h

theorem writing_of_unlocked {s : LockSystem ι} {i : ι} (hlock : s.lock = none) (hidle : (s.writer i).stage = .idle) :
    ((lockStep W s (acquireStep i)).writer i).stage = .writing := by
  simp [lockStep, acquireStep, hidle, hlock]

/-- Two processes that are taking the lock can both get it. -/
theorem both_taken {s : LockSystem ι} {i j : ι} (hij : j ≠ i) (hi : (s.writer i).stage.taking = true)
    (hiw : (s.writer i).stage = .replacing → (s.writer i).tmp = some (W.data i))
    (hj : (s.writer j).holds = true ∨ (s.writer j).stage.taking = true ∧
      ((s.writer j).stage = .replacing → (s.writer j).tmp = some (W.data j))) :
    ∃ more, (∀ e ∈ more, Live W e) ∧ ¬ (lockRun W s more).AtMostOne := by
  have hlive : ∀ (n : Nat) (k : ι), ∀ e ∈ List.replicate n (acquireStep k), Live W e ∧ e.process = k := by
    intro n k e he
    rw [List.eq_of_mem_replicate he]
    exact ⟨fun _ => rfl, rfl⟩
  -- first `j` gets it, if it does not hold it yet, then `i`
  obtain ⟨n, hn⟩ : ∃ n, ((lockRun W s (List.replicate n (acquireStep j))).writer j).holds = true := by
    rcases hj with hj | ⟨hj, hjw⟩
    · exact ⟨0, hj⟩
    · exact taken s hj hjw
  have hkeep := lockRun_other (W := W) hij.symm (s := s) fun e he => (hlive n j e he).2
  obtain ⟨m, hm⟩ := taken (W := W) (lockRun W s (List.replicate n (acquireStep j))) (i := i)
    (by rw [hkeep]; exact hi) (by rw [hkeep]; exact hiw)
  refine ⟨List.replicate n (acquireStep j) ++ List.replicate m (acquireStep i), ?_, ?_⟩
  · intro e he
    rcases List.mem_append.mp he with he | he
    · exact (hlive n j e he).1
    · exact (hlive m i e he).1
  · intro hone
    rw [lockRun, List.foldl_append] at hone
    refine hij (hone j i ?_ hm)
    exact (congrArg Writer.holds (lockRun_other hij fun e he => (hlive m i e he).2)).trans hn

/-- **Single writer.** In a run of orderly steps no two processes ever hold the
lock. And after such a run every step that is not orderly can be followed by
steps after which two processes do. -/
theorem writer_lock_exclusive {s : LockSystem ι} {events : List (LockEvent ι)} (h : s.Initial)
    (hlive : ∀ e ∈ events, Live W e) (ho : Orderly W s events) :
    (∀ pre, pre <+: events → (lockRun W s pre).AtMostOne) ∧
      ∀ e, ¬ OrderlyStep W (lockRun W s events) e →
        ∃ more, (∀ e ∈ more, Live W e) ∧ ¬ (lockRun W s (events ++ e :: more)).AtMostOne := by
  constructor
  · rintro pre ⟨post, rfl⟩
    exact (exclusive_run h.exclusive (orderly_append.mp ho).1 fun e he => hlive e (List.mem_append_left _ he)).one_holder
  · intro e he
    have hs := exclusive_run h.exclusive ho hlive
    have hrun : ∀ more, lockRun W s (events ++ e :: more) = lockRun W (lockStep W (lockRun W s events) e) more := by
      intro more
      rw [lockRun, List.foldl_append]
      rfl
    simp only [hrun]
    generalize lockRun W s events = t at he hs
    obtain ⟨j, hj, hbad⟩ : ∃ j, j ≠ e.process ∧ ¬ (_ ∧ _) := by simpa only [OrderlyStep, not_forall, exists_prop] using he
    have hother := lockStep_other (W := W) t hj
    rcases not_and_or.mp hbad with hbad | hbad
    · -- both have decided
      simp only [not_forall, exists_prop, Bool.not_eq_false] at hbad
      obtain ⟨hjt, hout, hin⟩ := hbad
      refine both_taken hj hin (fun hr => absurd hr (not_replacing_of_entered hout)) (.inr ?_)
      rw [hother]
      exact ⟨hjt, hs.written j⟩
    · -- the lock file of `j` is gone
      simp only [not_forall, exists_prop] at hbad
      obtain ⟨hjh, hidle, hrelease, hfails, -⟩ := hbad
      have hgone : (lockStep W t e).lock = none ∧ ((lockStep W t e).writer e.process).stage = .idle := by
        simp [lockStep, hidle, hrelease, hfails, LockSystem.set]
      have hnext := writing_of_unlocked (W := W) hgone.1 hgone.2
      have hkept : ((lockStep W (lockStep W t e) (acquireStep e.process)).writer j).holds = true := by
        rw [@lockStep_other _ _ W _ (acquireStep e.process) j hj, hother]
        exact hjh
      obtain ⟨more, hmore, hboth⟩ := both_taken hj (by rw [hnext]; rfl) (by rw [hnext]; intro hr; cases hr) (.inl hkept)
      refine ⟨acquireStep e.process :: more, ?_, hboth⟩
      intro x hx
      rcases List.mem_cons.mp hx with rfl | hx
      · exact fun _ => rfl
      · exact hmore x hx

end

/-! ## Two processes start together -/

def twoWriters : Writers Bool where
  pid b := if b then 102 else 101
  pid_inj := by unfold Function.Injective; decide
  pid_range := by decide
  node := str "node"
  node_encodes := by decide

/-- No lock file, and nobody at work. -/
def unlocked : LockSystem Bool := ⟨none, fun _ => {}⟩

theorem unlocked_initial : unlocked.Initial := ⟨fun _ => rfl, fun _ => rfl⟩

/-- One process alone tests, writes and replaces; the other then finds it alive. -/
def oneAfterAnother : List (LockEvent Bool) :=
  [acquireStep false, acquireStep false, acquireStep false, acquireStep true, acquireStep true]

theorem writer_lock_exclusive_oneAfterAnother : (lockRun twoWriters unlocked oneAfterAnother).AtMostOne := by
  have hlive : ∀ e ∈ oneAfterAnother, Live twoWriters e := by
    intro e he i
    simp only [oneAfterAnother, List.mem_cons, List.not_mem_nil, or_false] at he
    rcases he with rfl | rfl | rfl | rfl | rfl <;> rfl
  exact (writer_lock_exclusive unlocked_initial hlive (by decide +kernel)).1 _ (List.prefix_refl _)

theorem writer_lock_shared : ¬ ∀ (W : Writers Bool) (s : LockSystem Bool) (events : List (LockEvent Bool)), s.Initial →
    (∀ e ∈ events, Live W e) → (lockRun W s events).AtMostOne := by
  intro h
  have hone := h twoWriters unlocked ([false, true, false, false, true, true].map acquireStep) unlocked_initial
    (fun e he i => by obtain ⟨b, -, rfl⟩ := List.mem_map.mp he; rfl)
  exact absurd (hone false true (by decide) (by decide)) (by decide)

end ChainBreaker
