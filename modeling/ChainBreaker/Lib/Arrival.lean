import Mathlib.Data.List.MinMax

/-!
# Keeping the best of what arrives

A holder replaces what it holds by every arrival of strictly greater weight. It
ends on the first of the heaviest (`argmax_arrivals`), so the order of arrival
changes its weight never, and what it is only among the heaviest.
-/

namespace Arrival

variable {α β : Type} [LinearOrder β] (w : α → β)

def keep (held a : α) : α := if w held < w a then a else held

theorem keep_mem {S : α → Prop} {held a : α} (hheld : S held) (ha : S a) : S (keep w held a) := by
  unfold keep
  split
  · exact ha
  · exact hheld

/-- A step that keeps the better of any two in `S`, over arrivals in `S`. -/
theorem foldl_eq_keep {S : α → Prop} {step : α → α → α} (h : ∀ a b, S a → S b → step a b = keep w a b) :
    ∀ {l : List α} {c : α}, S c → (∀ a ∈ l, S a) → l.foldl step c = l.foldl (keep w) c
  | [], _, _, _ => rfl
  | a :: l, c, hc, hl => by
    rw [List.foldl_cons, List.foldl_cons, h c a hc (hl a (.head _))]
    exact foldl_eq_keep h (keep_mem w hc (hl a (.head _))) fun b hb => hl b (.tail _ hb)

theorem argmax_arrivals (l : List α) (c : α) : (c :: l).argmax w = some (l.foldl (keep w) c) := by
  induction l using List.reverseRecOn with
  | nil => rfl
  | append_singleton l a ih =>
    rw [← List.cons_append, List.argmax_concat, ih, List.foldl_concat]
    unfold keep
    simp only
    split <;> rfl

/-- What is held in the end, by its place among the arrivals. -/
theorem arrivals_spec (l : List α) (c : α) : l.foldl (keep w) c ∈ c :: l ∧
    ∀ a ∈ c :: l, w a ≤ w (l.foldl (keep w) c) :=
  ⟨List.argmax_mem (argmax_arrivals w l c), fun _ ha => List.le_of_mem_argmax ha (argmax_arrivals w l c)⟩

variable {w}

theorem arrivals_perm {l l' : List α} (h : l.Perm l') (c : α) :
    w (l.foldl (keep w) c) = w (l'.foldl (keep w) c) := by
  obtain ⟨hm, hle⟩ := arrivals_spec w l c
  obtain ⟨hm', hle'⟩ := arrivals_spec w l' c
  have hp := h.cons c
  exact le_antisymm (hle' _ (hp.mem_iff.mp hm)) (hle _ (hp.mem_iff.mpr hm'))

/-- A single heaviest element is held whatever the order. -/
theorem arrivals_unique {l : List α} {c m : α} (hm : m ∈ c :: l) (h : ∀ a ∈ c :: l, a ≠ m → w a < w m) :
    l.foldl (keep w) c = m := by
  obtain ⟨hmem, hle⟩ := arrivals_spec w l c
  by_contra hne
  exact absurd (hle m hm) (not_le.mpr (h _ hmem hne))

end Arrival
