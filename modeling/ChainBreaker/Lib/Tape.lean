import Mathlib.Data.List.Basic

/-!
# Tapes

A tape is a row of cells of which the first `tip` are current. Writing goes to
the cell above the tip; the tip can be set to any cell that was written. Of a
current cell nothing is lost by either (`current_push`, `current_seek`).
-/

structure Tape (α : Type) where
  cells : List α
  tip : Nat
  tip_le : tip ≤ cells.length

namespace Tape

variable {α : Type}

def empty : Tape α := ⟨[], 0, Nat.le_refl 0⟩

/-- The cells up to the tip. -/
def current (t : Tape α) : List α := t.cells.take t.tip

/-- Write the cell above the tip, which becomes the tip. -/
def push (t : Tape α) (a : α) : Tape α where
  cells := t.current ++ a :: t.cells.drop (t.tip + 1)
  tip := t.tip + 1
  tip_le := by
    have := t.tip_le
    simp only [current, List.length_append, List.length_take, List.length_cons]
    omega

/-- Set the tip. -/
def seek (t : Tape α) (k : Nat) (h : k ≤ t.cells.length) : Tape α := ⟨t.cells, k, h⟩

/-- Drop the cells above the tip. -/
def cut (t : Tape α) : Tape α :=
  ⟨t.current, t.tip, by rw [current, List.length_take]; exact Nat.le_min.mpr ⟨Nat.le_refl _, t.tip_le⟩⟩

@[simp] theorem length_current (t : Tape α) : t.current.length = t.tip := by
  rw [current, List.length_take, Nat.min_eq_left t.tip_le]

@[simp] theorem tip_push (t : Tape α) (a : α) : (t.push a).tip = t.tip + 1 := rfl
@[simp] theorem tip_seek (t : Tape α) (k : Nat) (h : k ≤ t.cells.length) : (t.seek k h).tip = k := rfl
@[simp] theorem cells_seek (t : Tape α) (k : Nat) (h : k ≤ t.cells.length) : (t.seek k h).cells = t.cells := rfl
@[simp] theorem tip_cut (t : Tape α) : t.cut.tip = t.tip := rfl
@[simp] theorem cells_cut (t : Tape α) : t.cut.cells = t.current := rfl

@[simp] theorem current_push (t : Tape α) (a : α) : (t.push a).current = t.current ++ [a] := by
  have hcells : (t.push a).cells = (t.current ++ [a]) ++ t.cells.drop (t.tip + 1) := by simp [push]
  rw [current, hcells, List.take_left' (by simp)]

@[simp] theorem current_seek (t : Tape α) (k : Nat) (h : k ≤ t.cells.length) :
    (t.seek k h).current = t.cells.take k := rfl

@[simp] theorem current_cut (t : Tape α) : t.cut.current = t.current := by
  rw [current, cells_cut, List.take_of_length_le (by simp)]

theorem getElem?_current {t : Tape α} {i : Nat} (h : i < t.tip) : t.current[i]? = t.cells[i]? :=
  List.getElem?_take_of_lt h

theorem current_none {t : Tape α} {i : Nat} (h : t.tip ≤ i) : t.current[i]? = none :=
  List.getElem?_eq_none (by rwa [length_current])

/-- A write changes the cell above the tip, and no other. -/
theorem cells_push (t : Tape α) (a : α) (i : Nat) :
    (t.push a).cells[i]? = if i = t.tip then some a else t.cells[i]? := by
  have hlen := t.length_current
  rcases Nat.lt_trichotomy i t.tip with h | rfl | h
  · rw [push, List.getElem?_append_left (by omega), getElem?_current h, if_neg (by omega)]
  · rw [push, List.getElem?_append_right (by omega), hlen, Nat.sub_self, if_pos rfl]
    rfl
  · obtain ⟨j, rfl⟩ : ∃ j, i = t.tip + 1 + j := ⟨i - (t.tip + 1), by omega⟩
    rw [push, List.getElem?_append_right (by omega), hlen, if_neg (by omega),
      show t.tip + 1 + j - t.tip = j + 1 by omega, List.getElem?_cons_succ, List.getElem?_drop]

/-- Two tapes are one if their cells and tips agree. -/
@[ext] theorem ext {t u : Tape α} (hcells : t.cells = u.cells) (htip : t.tip = u.tip) : t = u := by
  cases t
  cases u
  cases hcells
  cases htip
  rfl

end Tape
