import Mathlib.Data.List.Nodup
import Mathlib.Data.Set.Basic
import Mathlib.Tactic.Common

/-!
# Dictionaries in order of use

A dictionary whose entries stand from the least to the most recently used one. An
entry is `Held` while all that stands behind it has one of the given keys; it
leaves the front only with a full dictionary of such entries behind it
(`Held.makeRoom`).
-/

namespace Recency

variable {κ τ : Type} {l : List (κ × τ)} {k k' : κ} {t t' : τ} {S S' : Set κ}

/-! ## Leaving at the front -/

/-- Drop the first entries while there are `n` or more. -/
def makeRoom (n : Int) : List (κ × τ) → List (κ × τ)
  | [] => []
  | e :: l => if n ≤ (e :: l).length then makeRoom n l else e :: l

theorem makeRoom_suffix (n : Int) : ∀ l : List (κ × τ), makeRoom n l <:+ l
  | [] => List.suffix_refl []
  | e :: l => by
    rw [makeRoom]
    split
    · exact (makeRoom_suffix n l).trans (List.suffix_cons e l)
    · exact List.suffix_refl _

theorem length_makeRoom_lt {n : Int} (hn : 0 < n) : ∀ l : List (κ × τ), ((makeRoom n l).length : Int) < n
  | [] => hn
  | e :: l => by
    rw [makeRoom]
    split
    · exact length_makeRoom_lt hn l
    · omega

/-- The entry is there, with only the given keys behind it. -/
def Held (l : List (κ × τ)) (k : κ) (t : τ) (S : Set κ) : Prop :=
  ∃ front rest, l = front ++ (k, t) :: rest ∧ ∀ e ∈ rest, e.1 ∈ S

theorem Held.mono (h : Held l k t S) (hS : S ⊆ S') : Held l k t S' := by
  obtain ⟨front, rest, hl, hrest⟩ := h
  exact ⟨front, rest, hl, fun e he => hS (hrest e he)⟩

theorem Held.filter (h : Held l k t S) {p : κ × τ → Bool} (hp : p (k, t) = true) : Held (l.filter p) k t S := by
  obtain ⟨front, rest, rfl, hrest⟩ := h
  exact ⟨front.filter p, rest.filter p, by rw [List.filter_append, List.filter_cons, if_pos hp],
    fun e he => hrest e (List.mem_filter.mp he).1⟩

theorem held_last (l : List (κ × τ)) (k : κ) (t : τ) (S : Set κ) : Held (l ++ [(k, t)]) k t S := ⟨l, [], rfl, nofun⟩

theorem Held.push (h : Held l k t S) (hk' : k' ∈ S) : Held (l ++ [(k', t')]) k t S := by
  obtain ⟨front, rest, rfl, hrest⟩ := h
  refine ⟨front, rest ++ [(k', t')], by simp, fun e he => ?_⟩
  rcases List.mem_append.mp he with he | he
  · exact hrest e he
  · rw [List.mem_singleton.mp he]
    exact hk'

/-- An entry stays unless all but one of `n` places behind it are taken. -/
theorem Held.makeRoom {n : Int} (h : Held l k t S) : Held (makeRoom n l) k t S ∨
    ∃ rest, (k, t) :: rest <:+ l ∧ n ≤ rest.length + 1 ∧ ∀ e ∈ rest, e.1 ∈ S := by
  obtain ⟨front, rest, rfl, hrest⟩ := h
  induction front with
  | nil =>
    rw [List.nil_append, Recency.makeRoom]
    split
    · rename_i hfull
      exact .inr ⟨rest, List.suffix_refl _, by simpa using hfull, hrest⟩
    · exact .inl ⟨[], rest, rfl, hrest⟩
  | cons e front ih =>
    rw [List.cons_append, Recency.makeRoom]
    split
    · rcases ih with hheld | ⟨behind, hsuffix, hfull⟩
      · exact .inl hheld
      · exact .inr ⟨behind, hsuffix.trans (List.suffix_cons e _), hfull⟩
    · exact .inl ⟨e :: front, rest, rfl, hrest⟩

/-! ## Moving to the end -/

variable [DecidableEq κ]

def contains (l : List (κ × τ)) (k : κ) : Bool := l.any fun e => e.1 = k

def moveToEnd (k : κ) (l : List (κ × τ)) : List (κ × τ) := l.filter (fun e => e.1 ≠ k) ++ l.filter fun e => e.1 = k

theorem contains_iff : contains l k = true ↔ k ∈ l.map Prod.fst := by
  simp [contains]

/-- A new key keeps the keys apart. -/
theorem nodup_push (h : (l.map Prod.fst).Nodup) (hk : contains l k = false) : ((l ++ [(k, t)]).map Prod.fst).Nodup := by
  rw [Bool.eq_false_iff, ne_eq, contains_iff] at hk
  rw [List.map_append, List.map_singleton]
  exact h.append (List.nodup_singleton k) (List.disjoint_singleton.mpr hk)

theorem contains_filter {p : κ × τ → Bool} (h : contains l k = false) : contains (l.filter p) k = false := by
  rw [Bool.eq_false_iff, ne_eq, contains_iff] at h ⊢
  exact fun hmem => h (List.filter_sublist.map Prod.fst |>.subset hmem)

theorem Held.contains (h : Held l k t S) : contains l k = true := by
  obtain ⟨front, rest, rfl, -⟩ := h
  exact contains_iff.mpr (List.mem_map.mpr ⟨(k, t), List.mem_append_right _ List.mem_cons_self, rfl⟩)

theorem moveToEnd_perm (k : κ) (l : List (κ × τ)) : (moveToEnd k l).Perm l := by
  have hnot : (fun e : κ × τ => decide (e.1 = k)) = fun e => !decide (e.1 ≠ k) := by
    funext e
    rw [decide_not, Bool.not_not]
  rw [moveToEnd, hnot]
  exact List.filter_append_perm _ l

theorem Held.moveToEnd (h : Held l k t S) (hk' : k' ∈ S) : Held (moveToEnd k' l) k t S := by
  have hmoved : ∀ e ∈ l.filter fun e => e.1 = k', e.1 ∈ S := fun e he => by
    rw [of_decide_eq_true (List.mem_filter.mp he).2]
    exact hk'
  by_cases hk : k = k'
  · subst hk
    obtain ⟨front, rest, hl, hrest⟩ := h.filter (p := fun e => e.1 = k) (decide_eq_true rfl)
    refine ⟨l.filter (fun e => e.1 ≠ k) ++ front, rest, by rw [Recency.moveToEnd, hl, List.append_assoc], hrest⟩
  · obtain ⟨front, rest, hl, hrest⟩ := h.filter (p := fun e => e.1 ≠ k') (decide_eq_true hk)
    refine ⟨front, rest ++ l.filter fun e => e.1 = k', by rw [Recency.moveToEnd, hl, List.append_assoc, List.cons_append], ?_⟩
    intro e he
    exact (List.mem_append.mp he).elim (hrest e) (hmoved e)

end Recency
