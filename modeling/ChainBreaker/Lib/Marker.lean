import Mathlib.Data.List.Infix

/-!
# Markers in a text

`find w s` is the first place where `w` stands in `s`. A marker without a border
(no proper suffix of it is a prefix of it) that follows a text free of it
stands there for the first time (`place_of_marker`).
-/

namespace Marker

variable {α : Type} {w g s r : List α} {i : Nat}

/-- The first place where `w` stands. -/
def find [DecidableEq α] (w : List α) : List α → Option Nat
  | [] => none
  | a :: s => if w.isPrefixOf (a :: s) then some 0 else (find w s).map (· + 1)

/-- `w` stands nowhere in `g`. -/
def Free (w g : List α) : Prop := ¬ w <:+: g

def Borderless (w : List α) : Prop := ∀ k < w.length, 0 < k → w.drop k ≠ w.take (w.length - k)

instance [DecidableEq α] : Decidable (Borderless w) :=
  inferInstanceAs (Decidable (∀ k < w.length, 0 < k → w.drop k ≠ w.take (w.length - k)))

theorem find_spec [DecidableEq α] : find w s = some i → w <+: s.drop i ∧ ∀ j < i, ¬ w <+: s.drop j := by
  induction s generalizing i with
  | nil => exact nofun
  | cons a s ih =>
    intro h
    rw [find] at h
    by_cases hp : w.isPrefixOf (a :: s) = true
    · rw [if_pos hp] at h
      cases h
      exact ⟨List.isPrefixOf_iff_prefix.mp hp, fun j hj => absurd hj (Nat.not_lt_zero j)⟩
    · rw [if_neg hp, Option.map_eq_some_iff] at h
      obtain ⟨i, hi, rfl⟩ := h
      obtain ⟨hat, hfirst⟩ := ih hi
      refine ⟨hat, fun j hj => ?_⟩
      cases j with
      | zero => exact fun h => hp (List.isPrefixOf_iff_prefix.mpr h)
      | succ j => exact hfirst j (by omega)

theorem find_eq_none [DecidableEq α] (hw : w ≠ []) : find w s = none ↔ Free w s := by
  induction s with
  | nil => exact iff_of_true rfl fun h => hw (List.infix_nil.mp h)
  | cons a s ih =>
    rw [find, Free, List.infix_cons_iff, ← List.isPrefixOf_iff_prefix]
    by_cases hp : w.isPrefixOf (a :: s) = true
    · simp [hp]
    · rw [if_neg hp, Option.map_eq_none_iff, ih, Free, or_iff_right hp]

theorem Free.drop (h : Free w g) (k : Nat) : Free w (g.drop k) :=
  fun hin => h (hin.trans (List.drop_suffix k g).isInfix)

theorem free_nil (hw : w ≠ []) : Free w [] := fun h => hw (List.infix_nil.mp h)

/-- Behind a text free of a marker without a border, the marker does not stand
before its own place. -/
theorem place_of_marker (hb : Borderless w) (hg : Free w g) (h : w <+: (g ++ (w ++ r)).drop i) : g.length ≤ i := by
  by_contra hlt
  rw [Nat.not_le] at hlt
  rw [List.drop_append_of_le_length hlt.le] at h
  obtain ⟨t, ht⟩ := h
  have hlen : (g.drop i).length = g.length - i := List.length_drop
  by_cases hin : w.length ≤ g.length - i
  · -- the marker would be inside the free text
    have hpre : w <+: g.drop i :=
      List.prefix_of_prefix_length_le ⟨t, ht⟩ (List.prefix_append _ _) (by omega)
    exact hg (hpre.isInfix.trans (List.drop_suffix i g).isInfix)
  · -- the marker would overlap itself
    have hdrop := congrArg (List.drop (g.length - i)) ht
    rw [List.drop_append_of_le_length (by omega), ← hlen, List.drop_left, hlen] at hdrop
    have htake := congrArg (List.take (w.length - (g.length - i))) hdrop
    have hrest : (w.drop (g.length - i)).length = w.length - (g.length - i) := List.length_drop
    rw [← hrest, List.take_left, List.take_append_of_le_length (by omega), hrest] at htake
    exact hb (g.length - i) (by omega) (by omega) htake

end Marker
