import Mathlib.Data.List.Induction
import Mathlib.Data.List.Perm.Subperm
import Mathlib.Tactic.Common

/-!
# Writing behind

Entries go into memory as they come and wait there to be written; a flush writes
those that wait, as far as it gets, and gives up the others. Nothing that came once is
written twice (`Contained`), what does not overtake the waiting entries stays in order
(`Ordered`), and an entry that was given up once is missing for good (`missing_run`).
-/

structure WriteBehind (α : Type) where
  memory : List α := []
  waiting : List α := []
  written : List α := []

namespace WriteBehind

inductive Event (α : Type) where
  | enter (a : α)
  /-- the first `n` that wait are written -/
  | flush (n : Nat)
  /-- an entry that does not wait -/
  | through (a : α) (stored : Bool)

variable {α : Type} {w : WriteBehind α} {e : Event α} {es : List (Event α)}

def step (w : WriteBehind α) : Event α → WriteBehind α
  | .enter a => { w with memory := w.memory ++ [a], waiting := w.waiting ++ [a] }
  | .flush n => { w with waiting := [], written := w.written ++ w.waiting.take n }
  | .through a stored =>
    { w with memory := w.memory ++ [a], written := if stored then w.written ++ [a] else w.written }

def run (w : WriteBehind α) (es : List (Event α)) : WriteBehind α := es.foldl step w

/-- How many entries the event gives up. -/
def lost (w : WriteBehind α) : Event α → Nat
  | .enter _ => 0
  | .flush n => w.waiting.length - n
  | .through _ stored => if stored then 0 else 1

/-- The event overtakes no entry that waits. -/
def InTurn (w : WriteBehind α) : Event α → Prop
  | .through _ _ => w.waiting = []
  | _ => True

/-- What waits or is written is in memory, and as often there as here. -/
def Contained (w : WriteBehind α) : Prop := (w.written ++ w.waiting).Subperm w.memory

def Ordered (w : WriteBehind α) : Prop := (w.written ++ w.waiting).Sublist w.memory

/-- The number of entries in memory that neither wait nor are written. -/
def missing (w : WriteBehind α) : Nat := w.memory.length - (w.written ++ w.waiting).length

def Complete (w : WriteBehind α) : Prop := w.written ++ w.waiting = w.memory

@[simp] theorem run_nil : w.run [] = w := rfl

@[simp] theorem run_cons : w.run (e :: es) = (w.step e).run es := rfl

theorem run_append (es' : List (Event α)) : w.run (es ++ es') = (w.run es).run es' := List.foldl_append

theorem run_snoc : w.run (es ++ [e]) = (w.run es).step e := by
  rw [run_append, run_cons, run_nil]

/-! ## One event -/

theorem Contained.step (h : w.Contained) (e : Event α) : (w.step e).Contained := by
  cases e with
  | enter a =>
    change (w.written ++ (w.waiting ++ [a])).Subperm (w.memory ++ [a])
    rw [← List.append_assoc]
    exact h.append (List.Subperm.refl [a])
  | flush n =>
    change (w.written ++ w.waiting.take n ++ []).Subperm w.memory
    rw [List.append_nil]
    exact ((List.Sublist.refl w.written).append (List.take_sublist n w.waiting)).subperm.trans h
  | through a stored =>
    change ((if stored then w.written ++ [a] else w.written) ++ w.waiting).Subperm (w.memory ++ [a])
    cases stored with
    | false => exact h.trans (List.sublist_append_left _ _).subperm
    | true =>
      rw [if_pos rfl, List.append_assoc]
      refine List.Perm.subperm ?_ |>.trans (h.append (List.Subperm.refl [a]))
      rw [List.append_assoc]
      exact List.Perm.append_left _ List.perm_append_comm

theorem Ordered.contained (h : w.Ordered) : w.Contained := h.subperm

theorem Ordered.step (h : w.Ordered) (hturn : w.InTurn e) : (w.step e).Ordered := by
  cases e with
  | enter a =>
    change (w.written ++ (w.waiting ++ [a])).Sublist (w.memory ++ [a])
    rw [← List.append_assoc]
    exact h.append (List.Sublist.refl [a])
  | flush n =>
    change (w.written ++ w.waiting.take n ++ []).Sublist w.memory
    rw [List.append_nil]
    exact ((List.Sublist.refl w.written).append (List.take_sublist n w.waiting)).trans h
  | through a stored =>
    have hnone : w.waiting = [] := hturn
    rw [Ordered, hnone, List.append_nil] at h
    change ((if stored then w.written ++ [a] else w.written) ++ w.waiting).Sublist (w.memory ++ [a])
    rw [hnone, List.append_nil]
    cases stored with
    | false => exact h.trans (List.sublist_append_left _ _)
    | true => exact h.append (List.Sublist.refl [a])

/-- What an event gives up is missing from then on. -/
theorem missing_step (h : w.Contained) (e : Event α) : (w.step e).missing = w.missing + w.lost e := by
  have hlength := h.length_le
  cases e with
  | enter a =>
    simp only [missing, WriteBehind.step, lost, List.length_append, List.length_singleton] at hlength ⊢
    omega
  | flush n =>
    simp only [missing, WriteBehind.step, lost, List.length_append, List.length_take, List.length_nil] at hlength ⊢
    omega
  | through a stored =>
    cases stored <;>
    · simp only [missing, WriteBehind.step, lost, List.length_append, List.length_singleton, if_true,
        Bool.false_eq_true, if_false] at hlength ⊢
      omega

/-! ## Runs -/

theorem Contained.run : ∀ (es : List (Event α)) {w : WriteBehind α}, w.Contained → (w.run es).Contained
  | [], _, h => h
  | e :: es, _, h => Contained.run es (h.step e)

/-- Every event of the run comes in turn. -/
def AllInTurn : WriteBehind α → List (Event α) → Prop
  | _, [] => True
  | w, e :: es => w.InTurn e ∧ AllInTurn (w.step e) es

def lostIn : WriteBehind α → List (Event α) → Nat
  | _, [] => 0
  | w, e :: es => w.lost e + lostIn (w.step e) es

theorem allInTurn_append {es' : List (Event α)} : ∀ {es : List (Event α)} {w : WriteBehind α},
    w.AllInTurn (es ++ es') ↔ w.AllInTurn es ∧ (w.run es).AllInTurn es' := by
  intro es
  induction es with
  | nil => exact fun {_} => ⟨fun h => ⟨trivial, h⟩, And.right⟩
  | cons e es ih =>
    intro w
    rw [List.cons_append, AllInTurn, AllInTurn, ih, and_assoc, run_cons]

theorem lostIn_append {es' : List (Event α)} : ∀ {es : List (Event α)} {w : WriteBehind α},
    w.lostIn (es ++ es') = w.lostIn es + (w.run es).lostIn es' := by
  intro es
  induction es with
  | nil => exact fun {_} => (Nat.zero_add _).symm
  | cons e es ih =>
    intro w
    rw [List.cons_append, lostIn, lostIn, ih, Nat.add_assoc, run_cons]

theorem Ordered.run : ∀ {es : List (Event α)} {w : WriteBehind α}, w.Ordered → w.AllInTurn es → (w.run es).Ordered
  | [], _, h, _ => h
  | _ :: _, _, h, hturn => (h.step hturn.1).run hturn.2

theorem missing_run : ∀ {es : List (Event α)} {w : WriteBehind α}, w.Contained →
    (w.run es).missing = w.missing + w.lostIn es
  | [], _, _ => rfl
  | e :: es, w, h => by rw [run_cons, missing_run (h.step e), missing_step h, lostIn, Nat.add_assoc]

theorem Ordered.complete_iff (h : w.Ordered) : w.Complete ↔ w.missing = 0 := by
  rw [missing, Nat.sub_eq_zero_iff_le]
  exact ⟨fun heq => Nat.le_of_eq (congrArg List.length heq).symm, h.eq_of_length_le⟩

end WriteBehind
