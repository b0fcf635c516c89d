import Mathlib.Algebra.BigOperators.Group.List.Basic
import Mathlib.Algebra.Order.Field.Basic
import Mathlib.Data.List.Infix
import Mathlib.Order.Bounds.Basic
import Mathlib.Tactic.Linarith
import Mathlib.Tactic.Ring

/-!
# Allowances

Amounts granted at given times keep to a burst and a rate when every run of
consecutive grants does (`Kept`). What the next grant may take is then the least
of what the runs that it would end leave over, and this least allowance can be
carried along as one number (`Level.snoc`).
-/

namespace Allowance

variable {K : Type} [Field K] {capacity rate now last level a : K} {block history : List (K × K)}

/-- The sum of the amounts, which stand behind their times. -/
def granted (block : List (K × K)) : K := (block.map Prod.snd).sum

@[simp] theorem granted_cons (t a : K) (block : List (K × K)) : granted ((t, a) :: block) = a + granted block := by
  simp [granted]

@[simp] theorem granted_snoc (block : List (K × K)) (t a : K) : granted (block ++ [(t, a)]) = granted block + a := by
  simp [granted]

/-- What the run leaves to a grant at `now` behind it. -/
def left (capacity rate now : K) : List (K × K) → K
  | [] => capacity
  | (t, a) :: block => capacity + rate * (now - t) - granted ((t, a) :: block)

theorem left_snoc (block : List (K × K)) (t a : K) :
    left capacity rate now (block ++ [(t, a)]) = left capacity rate t block + rate * (now - t) - a := by
  cases block with
  | nil =>
    rw [List.nil_append, left, left, granted_cons, granted, List.map_nil, List.sum_nil]
    ring
  | cons e block =>
    obtain ⟨u, x⟩ := e
    rw [List.cons_append, left, left, ← List.cons_append, granted_snoc]
    ring

variable [LinearOrder K]

/-- The bound on one run of grants. -/
def Kept (capacity rate : K) (block : List (K × K)) : Prop :=
  ∀ first ∈ block.head?, ∀ last ∈ block.getLast?, granted block ≤ capacity + rate * (last.1 - first.1)

/-- At any time, the least that a run up to the last grant leaves. -/
def Level (capacity rate : K) (history : List (K × K)) (level last : K) : Prop :=
  ∀ now, IsLeast {x | ∃ block, block <:+ history ∧ left capacity rate now block = x} (min capacity (level + rate * (now - last)))

theorem Level.start (t : K) : Level capacity rate [(t, 0)] capacity t := by
  intro now
  have hone : left capacity rate now [(t, 0)] = capacity + rate * (now - t) := by simp [left, granted]
  constructor
  · rcases min_choice capacity (capacity + rate * (now - t)) with h | h
    · exact ⟨[], List.nil_suffix, h.symm⟩
    · exact ⟨[(t, 0)], List.suffix_refl _, by rw [hone, h]⟩
  · rintro x ⟨block, hblock, rfl⟩
    obtain rfl | ⟨front, rfl, hfront⟩ := List.suffix_concat_iff.mp (show block <:+ [] ++ [(t, 0)] from hblock)
    · exact min_le_left _ _
    · obtain rfl := List.suffix_nil.mp hfront
      rw [List.nil_append, hone]
      exact min_le_right _ _

variable [IsStrictOrderedRing K]

/-- A grant keeps the run to the bound when it takes no more than is left. -/
theorem kept_snoc : Kept capacity rate (block ++ [(now, a)]) ↔ a ≤ left capacity rate now block := by
  cases block with
  | nil => simp [Kept, left, granted]
  | cons e block =>
    obtain ⟨t, x⟩ := e
    have hhead : ((t, x) :: block ++ [(now, a)]).head? = some (t, x) := rfl
    have hlast : ((t, x) :: block ++ [(now, a)]).getLast? = some (now, a) := List.getLast?_concat
    simp only [Kept, hhead, hlast, Option.mem_some_iff, forall_eq', granted_snoc, left]
    rw [le_sub_iff_add_le, add_comm a]

/-- A grant of `a` at `t`. -/
theorem Level.snoc (h : Level capacity rate history level last) (t a : K) :
    Level capacity rate (history ++ [(t, a)]) (min capacity (level + rate * (t - last)) - a) t := by
  intro now
  obtain ⟨⟨least, hleast, hlevel⟩, hlower⟩ := h t
  constructor
  · rcases min_choice capacity (min capacity (level + rate * (t - last)) - a + rate * (now - t)) with hc | hc
    · exact ⟨[], List.nil_suffix, hc.symm⟩
    · refine ⟨least ++ [(t, a)], List.suffix_concat_iff.mpr (.inr ⟨least, rfl, hleast⟩), ?_⟩
      rw [hc, left_snoc, hlevel]
      ring
  · rintro x ⟨block, hblock, rfl⟩
    obtain rfl | ⟨front, rfl, hfront⟩ := List.suffix_concat_iff.mp hblock
    · exact min_le_left _ _
    · have hle := hlower ⟨front, hfront, rfl⟩
      rw [left_snoc]
      exact (min_le_right _ _).trans (by linarith)

/-- Too little is left exactly when some run would break its bound. -/
theorem Level.lt_iff (h : Level capacity rate history level last) :
    min capacity (level + rate * (now - last)) < a ↔ ∃ block, block <:+ history ∧ ¬ Kept capacity rate (block ++ [(now, a)]) := by
  obtain ⟨⟨least, hleast, hlevel⟩, hlower⟩ := h now
  constructor
  · intro hlt
    exact ⟨least, hleast, by rw [kept_snoc, hlevel]; exact hlt.not_ge⟩
  · rintro ⟨block, hblock, hbroken⟩
    rw [kept_snoc, not_le] at hbroken
    exact lt_of_le_of_lt (hlower ⟨block, hblock, rfl⟩) hbroken

/-- While a grant takes no more than there is, every run that it ends is kept. -/
theorem Level.kept (h : Level capacity rate history level last) (ha : a ≤ min capacity (level + rate * (now - last)))
    (hblock : block <:+ history) : Kept capacity rate (block ++ [(now, a)]) := by
  by_contra hbroken
  exact (h.lt_iff.mpr ⟨block, hblock, hbroken⟩).not_ge ha

end Allowance
