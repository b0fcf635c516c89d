import Mathlib.Algebra.BigOperators.Group.List.Basic
import Mathlib.Algebra.Order.Ring.Int
import Mathlib.Tactic.Ring
import Mathlib.Tactic.Linarith

/-!
# Lists compared by two additive measures

Two positive integer weights give every list a total. They order all lists over
a set of elements alike exactly when they are proportional on it
(`sameOrder_iff`): of elements on which they are not, enough copies of each
tie under one weight and differ under the other.
-/

namespace Measure

variable {α : Type}

def total (w : α → Int) (l : List α) : Int := (l.map w).sum

@[simp] theorem total_nil (w : α → Int) : total w [] = 0 := rfl

@[simp] theorem total_cons (w : α → Int) (a : α) (l : List α) : total w (a :: l) = w a + total w l := by
  simp [total]

theorem total_append (w : α → Int) (l l' : List α) : total w (l ++ l') = total w l + total w l' := by
  simp [total]

theorem total_replicate (w : α → Int) (n : Nat) (a : α) : total w (List.replicate n a) = n * w a := by
  simp [total]

/-- The two totals compare alike. -/
def SameOrder (v w : α → Int) (a b : List α) : Prop :=
  compare (total v a) (total v b) = compare (total w a) (total w b)

theorem compare_eq_compare {x y x' y' : Int} :
    compare x y = compare x' y' ↔ (x < y ↔ x' < y') ∧ (y < x ↔ y' < x') := by
  constructor
  · intro h
    rw [← compare_lt_iff_lt, ← compare_lt_iff_lt, ← compare_gt_iff_gt, ← compare_gt_iff_gt, h]
    exact ⟨Iff.rfl, Iff.rfl⟩
  · rintro ⟨hlt, hgt⟩
    cases h : compare x y with
    | lt => exact (compare_lt_iff_lt.mpr (hlt.mp (compare_lt_iff_lt.mp h))).symm
    | gt => exact (compare_gt_iff_gt.mpr (hgt.mp (compare_gt_iff_gt.mp h))).symm
    | eq =>
      have he := compare_eq_iff_eq.mp h
      exact (compare_eq_iff_eq.mpr (by omega)).symm

theorem total_proportional {v w : α → Int} {T : Set α}
    (hp : ∀ s ∈ T, ∀ t ∈ T, v s * w t = v t * w s) {t : α} (ht : t ∈ T) :
    ∀ {l : List α}, (∀ a ∈ l, a ∈ T) → total v l * w t = v t * total w l
  | [], _ => by simp
  | a :: l, h => by
    have ih : total v l * w t = v t * total w l := total_proportional hp ht fun b hb => h b (.tail _ hb)
    have ha := hp a (h a (.head _)) t ht
    rw [total_cons, total_cons, add_mul, mul_add, ih, ha]

theorem sameOrder_iff {v w : α → Int} {T : Set α} (hv : ∀ t ∈ T, 0 < v t) (hw : ∀ t ∈ T, 0 < w t) :
    (∀ a b : List α, (∀ x ∈ a, x ∈ T) → (∀ x ∈ b, x ∈ T) → SameOrder v w a b) ↔
      ∀ s ∈ T, ∀ t ∈ T, v s * w t = v t * w s := by
  constructor
  · intro h s hs t ht
    -- `v t` copies of `s` and `v s` copies of `t` tie under `v`
    have hab := h (List.replicate (v t).toNat s) (List.replicate (v s).toNat t)
      (fun x hx => List.eq_of_mem_replicate hx ▸ hs) (fun x hx => List.eq_of_mem_replicate hx ▸ ht)
    rw [SameOrder, compare_eq_compare] at hab
    simp only [total_replicate, Int.toNat_of_nonneg (hv s hs).le, Int.toNat_of_nonneg (hv t ht).le] at hab
    have hcomm := mul_comm (v t) (v s)
    have h₁ : ¬ v t * w s < v s * w t := fun hlt => absurd (hab.1.mpr hlt) (by rw [hcomm]; exact lt_irrefl _)
    have h₂ : ¬ v s * w t < v t * w s := fun hlt => absurd (hab.2.mpr hlt) (by rw [hcomm]; exact lt_irrefl _)
    omega
  · intro hp a b ha hb
    rw [SameOrder, compare_eq_compare]
    by_cases hT : ∃ t, t ∈ T
    · obtain ⟨t, ht⟩ := hT
      have hwt := hw t ht
      have hvt := hv t ht
      have ea := total_proportional hp ht ha
      have eb := total_proportional hp ht hb
      have scale : ∀ {x y x' y' : Int}, x * w t = v t * x' → y * w t = v t * y' → (x < y ↔ x' < y') := by
        intro x y x' y' hx hy
        rw [← Int.mul_lt_mul_right hwt, hx, hy, Int.mul_lt_mul_left hvt]
      exact ⟨scale ea eb, scale eb ea⟩
    · have ha' : a = [] := List.eq_nil_iff_forall_not_mem.mpr fun x hx => hT ⟨x, ha x hx⟩
      have hb' : b = [] := List.eq_nil_iff_forall_not_mem.mpr fun x hx => hT ⟨x, hb x hx⟩
      subst ha' hb'
      simp

end Measure
