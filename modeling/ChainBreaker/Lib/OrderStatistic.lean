import Mathlib.Data.List.Sort

/-!
# Order statistics of a list

The element at an index of the sorted list lies above a bound exactly if at most
so many elements lie below it (`le_nth_iff`), and below a bound exactly if more
elements do (`nth_le_iff`). How the statistic moves when the list changes is
then a matter of counting.
-/

namespace OrderStatistic

variable {α : Type} [LinearOrder α]

/-- The element at index `k` of the sorted list. -/
def nth (l : List α) (k : Nat) (default : α) : α := (l.insertionSort (· ≤ ·)).getD k default

section
variable {s l : List α} {k : Nat} {m d : α}

theorem countP_eq_zero_of_le (h : ∀ x ∈ s, m ≤ x) : s.countP (· < m) = 0 := by
  rw [List.countP_eq_zero]
  exact fun x hx hlt => absurd (of_decide_eq_true hlt) (not_lt_of_ge (h x hx))

theorem le_getD_iff : ∀ {s : List α} {k : Nat}, s.Pairwise (· ≤ ·) → k < s.length →
    (m ≤ s.getD k d ↔ s.countP (· < m) ≤ k)
  | a :: s, k, hs, hk => by
    obtain ⟨ha, hs⟩ := List.pairwise_cons.mp hs
    by_cases hm : m ≤ a
    · have hall : ∀ x ∈ a :: s, m ≤ x := List.forall_mem_cons.mpr ⟨hm, fun x hx => le_trans hm (ha x hx)⟩
      rw [countP_eq_zero_of_le hall]
      refine iff_of_true ?_ (Nat.zero_le k)
      rw [← List.getElem_eq_getD d (h := hk)]
      exact hall _ (List.getElem_mem hk)
    · have hcount : (a :: s).countP (· < m) = s.countP (· < m) + 1 :=
        List.countP_cons_of_pos (decide_eq_true (lt_of_not_ge hm))
      rw [hcount]
      cases k with
      | zero => exact iff_of_false hm (by omega)
      | succ k =>
        rw [List.getD_cons_succ, le_getD_iff hs (Nat.lt_of_succ_lt_succ hk)]
        omega

theorem getD_le_iff : ∀ {s : List α} {k : Nat}, s.Pairwise (· ≤ ·) → k < s.length →
    (s.getD k d ≤ m ↔ k < s.countP (· ≤ m))
  | a :: s, k, hs, hk => by
    obtain ⟨ha, hs⟩ := List.pairwise_cons.mp hs
    by_cases hm : a ≤ m
    · have hcount : (a :: s).countP (· ≤ m) = s.countP (· ≤ m) + 1 := List.countP_cons_of_pos (decide_eq_true hm)
      rw [hcount]
      cases k with
      | zero => exact iff_of_true hm (Nat.succ_pos _)
      | succ k =>
        rw [List.getD_cons_succ, getD_le_iff hs (Nat.lt_of_succ_lt_succ hk)]
        omega
    · have hall : ∀ x ∈ a :: s, ¬ x ≤ m :=
        List.forall_mem_cons.mpr ⟨hm, fun x hx h => hm (le_trans (ha x hx) h)⟩
      have hnone : (a :: s).countP (· ≤ m) = 0 := by
        rw [List.countP_eq_zero]
        exact fun x hx h => hall x hx (of_decide_eq_true h)
      rw [hnone]
      refine iff_of_false ?_ (Nat.not_lt_zero k)
      rw [← List.getElem_eq_getD d (h := hk)]
      exact hall _ (List.getElem_mem hk)

theorem le_nth_iff (hk : k < l.length) : m ≤ nth l k d ↔ l.countP (· < m) ≤ k := by
  rw [nth, le_getD_iff (List.pairwise_insertionSort _ _) (by rwa [List.length_insertionSort]),
    (List.perm_insertionSort _ l).countP_eq]

theorem nth_le_iff (hk : k < l.length) : nth l k d ≤ m ↔ k < l.countP (· ≤ m) := by
  rw [nth, getD_le_iff (List.pairwise_insertionSort _ _) (by rwa [List.length_insertionSort]),
    (List.perm_insertionSort _ l).countP_eq]

/-! ## The median of a window -/

/-- The lower median. -/
def median (l : List α) (default : α) : α := nth l ((l.length - 1) / 2) default

theorem drop_countP {β : Type} (p : β → Bool) (l : List β) (e : Nat) : l.countP p ≤ (l.drop e).countP p + e := by
  have hsplit : l.countP p = (l.take e).countP p + (l.drop e).countP p := by
    rw [← List.countP_append, List.take_append_drop]
  have htaken : (l.take e).countP p ≤ (l.take e).length := List.countP_le_length
  rw [List.length_take] at htaken
  omega

/-- A window that takes in an element above its median, and lets its oldest go
or not, has its median moved up, at most to that element. -/
theorem median_moves {w : List α} {t : α} {e : Nat} (hw : w ≠ []) (he : e ≤ 1) (ht : median w d < t) :
    median w d ≤ median (w.drop e ++ [t]) d ∧ median (w.drop e ++ [t]) d ≤ t := by
  have hpos := List.length_pos_iff.mpr hw
  have hlen : (w.drop e ++ [t]).length = w.length - e + 1 := by
    rw [List.length_append, List.length_drop, List.length_singleton]
  have hbelow : w.countP (· < median w d) ≤ (w.length - 1) / 2 :=
    (@le_nth_iff _ _ w _ (median w d) d (by omega)).mp (le_refl _)
  have hupto : (w.length - 1) / 2 < w.countP (· ≤ median w d) :=
    (@nth_le_iff _ _ w _ (median w d) d (by omega)).mp (le_refl _)
  constructor
  · have hsub : (w.drop e).countP (· < median w d) ≤ w.countP (· < median w d) :=
      (List.drop_sublist e w).countP_le
    have hnew : [t].countP (· < median w d) = 0 := by simp [le_of_lt ht]
    rw [median, median, le_nth_iff (by rw [hlen]; omega), List.countP_append, ← median, hnew, hlen]
    omega
  · have hmore : w.countP (· ≤ median w d) ≤ w.countP (· ≤ t) :=
      List.countP_mono_left fun x _ hx => decide_eq_true (le_trans (of_decide_eq_true hx) (le_of_lt ht))
    have hdrop := drop_countP (· ≤ t) w e
    have hnew : [t].countP (· ≤ t) = 1 := by simp
    rw [median, nth_le_iff (by rw [hlen]; omega), List.countP_append, hnew, hlen]
    omega

end

end OrderStatistic
