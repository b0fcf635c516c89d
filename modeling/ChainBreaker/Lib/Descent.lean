import Mathlib.Data.List.Pairwise
import Mathlib.Order.Monotone.Basic
import Mathlib.Tactic.Common

/-!
# Sparse descents

The way from a height down to zero that stops at growing depths. It lists at
most `n` heights and zero, strictly descending, and where each depth is at most
twice the one before and two, no height lies above the next listed one by more
than its own depth (`exists_within_twice`).
-/

namespace Descent

variable {d : Nat → Nat} {top n i a : Nat}

/-- The heights `top - d i`, `top - d (i + 1)`, … above zero, at most `n` of them, and zero. -/
def heights (d : Nat → Nat) (top : Nat) : Nat → Nat → List Nat
  | 0, _ => [0]
  | n + 1, i => if d i < top then (top - d i) :: heights d top n (i + 1) else [0]

theorem heights_of_lt (h : d i < top) : heights d top (n + 1) i = (top - d i) :: heights d top n (i + 1) := if_pos h

theorem heights_of_le (h : top ≤ d i) : heights d top n i = [0] := by
  cases n with
  | zero => rfl
  | succ n => exact if_neg (by omega)

theorem length_heights_le : ∀ {n i : Nat}, (heights d top n i).length ≤ n + 1
  | 0, _ => Nat.le_refl 1
  | n + 1, i => by
    rcases Nat.lt_or_ge (d i) top with h | h
    · rw [heights_of_lt h, List.length_cons]
      exact Nat.succ_le_succ length_heights_le
    · rw [heights_of_le h, List.length_singleton]
      omega

theorem getLast?_heights : ∀ {n i : Nat}, (heights d top n i).getLast? = some 0
  | 0, _ => rfl
  | n + 1, i => by
    rcases Nat.lt_or_ge (d i) top with h | h
    · rw [heights_of_lt h, List.getLast?_cons, getLast?_heights]
      rfl
    · rw [heights_of_le h]
      rfl

/-- A listed height is zero or lies at one of the depths. -/
theorem mem_heights : ∀ {n i e : Nat}, e ∈ heights d top n i → e = 0 ∨ ∃ j, i ≤ j ∧ d j < top ∧ e = top - d j
  | 0, _, e, he => .inl (List.mem_singleton.mp he)
  | n + 1, i, e, he => by
    rcases Nat.lt_or_ge (d i) top with h | h
    · rw [heights_of_lt h] at he
      rcases List.mem_cons.mp he with rfl | he
      · exact .inr ⟨i, Nat.le_refl i, h, rfl⟩
      · obtain rfl | ⟨j, hij, hj⟩ := mem_heights he
        · exact .inl rfl
        · exact .inr ⟨j, by omega, hj⟩
    · rw [heights_of_le h] at he
      exact .inl (List.mem_singleton.mp he)

/-- The first depth is listed, with zero in its place where it is out of reach. -/
theorem next_mem_heights (hreach : top ≤ d (i + n)) : top - d i ∈ heights d top n i := by
  rcases Nat.lt_or_ge (d i) top with h | h
  · cases n with
    | zero => exact absurd hreach (by rw [Nat.add_zero]; omega)
    | succ n =>
      rw [heights_of_lt h]
      exact List.mem_cons_self
  · rw [heights_of_le h, Nat.sub_eq_zero_of_le h]
    exact List.mem_singleton_self 0

section
variable (hd : StrictMono d)
include hd

theorem pairwise_heights : ∀ {n i : Nat}, (heights d top n i).Pairwise (· > ·)
  | 0, _ => List.pairwise_singleton _ _
  | n + 1, i => by
    rcases Nat.lt_or_ge (d i) top with h | h
    · rw [heights_of_lt h, List.pairwise_cons]
      refine ⟨fun e he => ?_, pairwise_heights⟩
      obtain rfl | ⟨j, hij, hj, rfl⟩ := mem_heights he
      · omega
      · have hlt : d i < d j := hd hij
        omega
    · rw [heights_of_le h]
      exact List.pairwise_singleton _ _

theorem depth_mem_heights : ∀ {n i j : Nat}, i ≤ j → j < i + n → top - d j ∈ heights d top n i
  | 0, i, j, hij, hj => absurd hj (by omega)
  | n + 1, i, j, hij, hj => by
    rcases Nat.lt_or_ge (d i) top with h | h
    · rw [heights_of_lt h]
      rcases Nat.eq_or_lt_of_le hij with rfl | hij
      · exact List.mem_cons_self
      · exact .tail _ (depth_mem_heights hij (by omega))
    · have hle : d i ≤ d j := hd.monotone hij
      rw [heights_of_le h, Nat.sub_eq_zero_of_le (by omega)]
      exact List.mem_singleton_self 0

end

theorem exists_within_twice (hstep : ∀ j, d (j + 1) ≤ 2 * (d j + 1)) (ha : a ≤ top) :
    ∀ {n i : Nat}, top ≤ d (i + n) → d i ≤ top - a → ∃ e ∈ heights d top n i, e ≤ a ∧ top - e ≤ 2 * (top - a)
  | 0, i, hreach, hi => by
    rw [Nat.add_zero] at hreach
    exact ⟨0, List.mem_singleton_self 0, Nat.zero_le a, by omega⟩
  | n + 1, i, hreach, hi => by
    rcases Nat.lt_or_ge (d i) top with h | h
    · rw [heights_of_lt h]
      rcases Nat.lt_or_ge (top - a) (d (i + 1)) with hnext | hnext
      · rcases Nat.eq_or_lt_of_le hi with heq | hlt
        · exact ⟨top - d i, List.mem_cons_self, by omega, by omega⟩
        · -- `a` lies strictly between two depths, and the lower one is listed next
          have := hstep i
          have hmem : top - d (i + 1) ∈ heights d top n (i + 1) := next_mem_heights (by rwa [Nat.add_right_comm])
          exact ⟨top - d (i + 1), .tail _ hmem, by omega, by omega⟩
      · obtain ⟨e, he, hea, hdepth⟩ := exists_within_twice hstep ha (n := n) (by rwa [Nat.add_right_comm]) hnext
        exact ⟨e, .tail _ he, hea, hdepth⟩
    · rw [heights_of_le h]
      exact ⟨0, List.mem_singleton_self 0, Nat.zero_le a, by omega⟩

end Descent
