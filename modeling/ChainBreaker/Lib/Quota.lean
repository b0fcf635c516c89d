import Mathlib.Data.List.Nodup
import Mathlib.Tactic.Common

/-!
# Greedy choice under quotas

Every item carries some labels, and every label has a quota. Going down a list and
taking each item whose labels all have room keeps the quotas (`used_greedy_le`) and
leaves an item out only when the items taken before it fill the quota of one of its
labels (`greedy_maximal`).
-/

namespace Quota

variable {α ℓ : Type} [DecidableEq ℓ] (labels : α → List ℓ) (quota : ℓ → Int)

/-- How many of the items carry the label. -/
def used (s : ℓ) (items : List α) : Nat := items.countP fun a => s ∈ labels a

def fits (taken : List α) (a : α) : Bool := (labels a).all fun s => (used labels s taken : Int) < quota s

def greedy (taken : List α) : List α → List α
  | [] => taken
  | a :: l => if fits labels quota taken a then greedy (taken ++ [a]) l else greedy taken l

variable {labels quota} {taken l : List α} {a : α} {s : ℓ}

theorem used_snoc : used labels s (taken ++ [a]) = used labels s taken + if s ∈ labels a then 1 else 0 := by
  simp [used, List.countP_append, List.countP_cons]

theorem fits_iff : fits labels quota taken a = true ↔ ∀ s ∈ labels a, (used labels s taken : Int) < quota s := by
  simp [fits]

theorem greedy_append (l m : List α) :
    greedy labels quota taken (l ++ m) = greedy labels quota (greedy labels quota taken l) m := by
  induction l generalizing taken with
  | nil => rfl
  | cons a l ih =>
    rw [List.cons_append, greedy, greedy]
    split
    · exact ih
    · exact ih

/-- What is taken comes from the list, in its order. -/
theorem greedy_picks (taken l : List α) : ∃ picked, greedy labels quota taken l = taken ++ picked ∧ picked.Sublist l := by
  induction l generalizing taken with
  | nil => exact ⟨[], by rw [greedy, List.append_nil], List.Sublist.refl _⟩
  | cons a l ih =>
    rw [greedy]
    split
    · obtain ⟨picked, heq, hsub⟩ := ih (taken ++ [a])
      exact ⟨a :: picked, by rw [heq, List.append_assoc, List.singleton_append], hsub.cons_cons a⟩
    · obtain ⟨picked, heq, hsub⟩ := ih taken
      exact ⟨picked, heq, hsub.cons a⟩

theorem greedy_sublist (l : List α) : (greedy labels quota [] l).Sublist l := by
  obtain ⟨picked, heq, hsub⟩ := @greedy_picks _ _ _ labels quota [] l
  rw [heq, List.nil_append]
  exact hsub

/-- Nothing is taken where nothing fits. -/
theorem greedy_full (h : ∀ a ∈ l, fits labels quota taken a = false) : greedy labels quota taken l = taken := by
  induction l with
  | nil => rfl
  | cons a l ih =>
    rw [greedy, if_neg (by rw [h a List.mem_cons_self]; exact Bool.noConfusion)]
    exact ih fun b hb => h b (List.mem_cons_of_mem a hb)

/-- The quotas are kept. -/
theorem used_greedy_le (h : (used labels s taken : Int) ≤ max 0 (quota s)) (l : List α) :
    (used labels s (greedy labels quota taken l) : Int) ≤ max 0 (quota s) := by
  induction l generalizing taken with
  | nil => exact h
  | cons a l ih =>
    rw [greedy]
    split
    · rename_i hfits
      refine ih ?_
      rw [used_snoc]
      split
      · rename_i hs
        have := fits_iff.mp hfits s hs
        omega
      · simpa using h
    · exact ih h

/-- An item left out met a label whose quota was taken before it. -/
theorem greedy_left_out {pre post : List α} (hnot : a ∉ greedy labels quota [] (pre ++ a :: post)) :
    ∃ s ∈ labels a, quota s ≤ used labels s (greedy labels quota [] pre) := by
  rw [greedy_append, greedy] at hnot
  split at hnot
  · rename_i hfits
    obtain ⟨picked, heq, -⟩ := @greedy_picks _ _ _ labels quota (greedy labels quota [] pre ++ [a]) post
    exact absurd (by rw [heq]; simp) hnot
  · rename_i hfits
    rw [fits_iff] at hfits
    obtain ⟨s, hs, hfull⟩ : ∃ s ∈ labels a, ¬ (used labels s (greedy labels quota [] pre) : Int) < quota s := by
      simpa only [not_forall, exists_prop] using hfits
    exact ⟨s, hs, Int.not_lt.mp hfull⟩

/-- The same, in a list in strict order: what stands before the item in the choice fills the quota. -/
theorem greedy_maximal {before : α → α → Prop} [DecidableRel before] (hl : l.Pairwise before)
    (ha : a ∈ l) (hnot : a ∉ greedy labels quota [] l) :
    ∃ s ∈ labels a, quota s ≤ used labels s ((greedy labels quota [] l).filter fun b => before b a) := by
  obtain ⟨pre, post, rfl⟩ := List.append_of_mem ha
  obtain ⟨s, hs, hused⟩ := greedy_left_out hnot
  refine ⟨s, hs, Int.le_trans hused ?_⟩
  obtain ⟨hpre, hpost, hcross⟩ := List.pairwise_append.mp hl
  obtain ⟨picked, heq, -⟩ := @greedy_picks _ _ _ labels quota (greedy labels quota [] pre) (a :: post)
  rw [greedy_append, heq, List.filter_append]
  have hall : (greedy labels quota [] pre).filter (fun b => before b a) = greedy labels quota [] pre :=
    List.filter_eq_self.mpr fun b hb => decide_eq_true (hcross b ((greedy_sublist pre).subset hb) a List.mem_cons_self)
  rw [hall, used, used, List.countP_append]
  exact_mod_cast Nat.le_add_right _ _

end Quota
