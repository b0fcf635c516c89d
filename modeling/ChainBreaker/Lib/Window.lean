import Mathlib.Algebra.Order.Group.Basic
import Mathlib.Algebra.Ring.Nat
import Mathlib.Data.Int.Order.Basic
import Mathlib.Data.List.TakeWhile
import Mathlib.Tactic.Common

/-!
# Windows

Amounts recorded at given times keep to a limit in every window of a length
(`Bounded`) if each was reserved before it was recorded: at every time the window
that ends there has room for what is recorded in it and what is reserved (`Held`).
A list that drops what is older than the window, whenever it is looked at, holds what
the closed window does (`Recent`).
-/

namespace Window

variable {K : Type}

/-- What is recorded at the times of a kind. -/
def load (P : K → Prop) [DecidablePred P] (history : List (K × Nat)) : Nat :=
  ((history.filter fun e => P e.1).map Prod.snd).sum

section
variable {P Q : K → Prop} [DecidablePred P] [DecidablePred Q] {history : List (K × Nat)}

@[simp] theorem load_nil : load P [] = 0 := rfl

theorem load_cons (t : K) (n : Nat) (history : List (K × Nat)) :
    load P ((t, n) :: history) = (if P t then n else 0) + load P history := by
  by_cases h : P t <;> simp [load, h]

theorem load_snoc (t : K) (n : Nat) : ∀ history : List (K × Nat),
    load P (history ++ [(t, n)]) = load P history + if P t then n else 0
  | [] => by rw [List.nil_append, load_cons, load_nil, Nat.add_comm]
  | (u, k) :: history => by rw [List.cons_append, load_cons, load_snoc t n history, load_cons, Nat.add_assoc]

theorem load_mono (h : ∀ t, P t → Q t) : ∀ history : List (K × Nat), load P history ≤ load Q history
  | [] => Nat.le_refl _
  | (t, n) :: history => by
    have ih := load_mono h history
    have hone : (if P t then n else 0) ≤ if Q t then n else 0 := by
      by_cases hp : P t
      · rw [if_pos hp, if_pos (h t hp)]
      · rw [if_neg hp]
        exact Nat.zero_le _
    rw [load_cons, load_cons]
    exact Nat.add_le_add hone ih

/-- Every entry counted once. -/
theorem load_ones : ∀ history : List (K × Nat),
    load P (history.map fun e => (e.1, 1)) = (history.filter fun e => P e.1).length
  | [] => rfl
  | (t, n) :: history => by
    rw [List.map_cons, load_cons, load_ones history]
    by_cases h : P t <;> simp [h, Nat.add_comm]

end

variable [AddCommGroup K] [LinearOrder K]
variable {width now last : K} {limit : Int} {reserved n : Nat} {history : List (K × Nat)}

/-- The limit in every half-open window, whichever end it includes. -/
structure Bounded (width : K) (limit : Int) (history : List (K × Nat)) : Prop where
  open_closed : ∀ a, (load (fun t => a < t ∧ t ≤ a + width) history : Int) ≤ limit
  closed_open : ∀ a, (load (fun t => a ≤ t ∧ t < a + width) history : Int) ≤ limit

/-- The limit, and room for what is reserved in the window up to `now`. -/
structure Held (width : K) (limit : Int) (now : K) (reserved : Nat) (history : List (K × Nat)) : Prop where
  bounded : Bounded width limit history
  room : (load (fun t => now - width < t) history : Int) + reserved ≤ limit

theorem Held.start (h : 0 ≤ limit) : Held width limit now 0 [] := ⟨⟨fun _ => h, fun _ => h⟩, h⟩

theorem Held.release (h : Held width limit now reserved history) (hn : n ≤ reserved) : Held width limit now n history :=
  ⟨h.bounded, le_trans (Int.add_le_add_left (Int.ofNat_le.mpr hn) _) h.room⟩

theorem Held.reserve (h : Held width limit now reserved history)
    (hroom : (load (fun t => now - width < t) history : Int) + (reserved + n : Nat) ≤ limit) :
    Held width limit now (reserved + n) history := ⟨h.bounded, hroom⟩

variable [IsOrderedAddMonoid K]

/-- Time passes. -/
theorem Held.wait (h : Held width limit last reserved history) (hnow : last ≤ now) : Held width limit now reserved history := by
  refine ⟨h.bounded, le_trans (Int.add_le_add_right ?_ _) h.room⟩
  exact Int.ofNat_le.mpr (load_mono (fun t ht => lt_of_le_of_lt (sub_le_sub_right hnow width) ht) history)

/-- What was reserved is recorded. -/
theorem Held.record (h : Held width limit now (reserved + n) history) (hwidth : 0 < width) :
    Held width limit now reserved (history ++ [(now, n)]) := by
  have hroom := h.room
  have hin : now - width < now := sub_lt_self now hwidth
  have hwindow : ∀ (P : K → Prop) [DecidablePred P], (load P history : Int) ≤ limit →
      (P now → ∀ t, P t → now - width < t) → (load P (history ++ [(now, n)]) : Int) ≤ limit := by
    intro P _ hload hlate
    rw [load_snoc]
    by_cases hnow : P now
    · rw [if_pos hnow]
      calc (↑(load P history + n) : Int)
          ≤ ↑(load (fun t => now - width < t) history + (reserved + n)) :=
            Int.ofNat_le.mpr (Nat.add_le_add (load_mono (hlate hnow) history) (Nat.le_add_left n reserved))
        _ ≤ limit := by
            rw [Int.natCast_add]
            exact hroom
    · rwa [if_neg hnow, Nat.add_zero]
  refine ⟨⟨fun a => hwindow _ (h.bounded.open_closed a) ?_, fun a => hwindow _ (h.bounded.closed_open a) ?_⟩, ?_⟩
  · intro hnow t ht
    exact lt_of_le_of_lt (sub_le_iff_le_add.mpr hnow.2) ht.1
  · intro hnow t ht
    exact lt_of_lt_of_le (sub_lt_iff_lt_add.mpr hnow.2) ht.1
  · rw [load_snoc, if_pos hin]
    omega

/-! ## A list of recent times -/

/-- The times of the history but for some that are too old by now. -/
structure Recent (width now : K) (history window : List K) : Prop where
  split : ∃ old, history = old ++ window ∧ ∀ t ∈ old, t < now - width
  sorted : history.Pairwise (· ≤ ·)
  last : ∀ t ∈ history, t ≤ now

/-- The limit in every closed window. -/
def Capped (width : K) (limit : Int) (history : List K) : Prop :=
  ∀ a, ((history.countP fun t => a ≤ t ∧ t ≤ a + width : Nat) : Int) ≤ limit

section
variable {times window : List K}

omit [IsOrderedAddMonoid K] in
theorem Recent.start (width now : K) : Recent width now [] [] := ⟨⟨[], rfl, nofun⟩, List.Pairwise.nil, nofun⟩

theorem Recent.wait (h : Recent width last times window) (hnow : last ≤ now) : Recent width now times window := by
  obtain ⟨old, rfl, hold⟩ := h.split
  exact ⟨⟨old, rfl, fun t ht => lt_of_lt_of_le (hold t ht) (sub_le_sub_right hnow width)⟩, h.sorted,
    fun t ht => le_trans (h.last t ht) hnow⟩

omit [IsOrderedAddMonoid K] in
/-- What is dropped from the front is older than the window, and what stays is not. -/
theorem Recent.prune (h : Recent width now times window) :
    Recent width now times (window.dropWhile fun t => t < now - width) ∧
    (window.dropWhile fun t => t < now - width).length = times.countP fun t => now - width ≤ t := by
  obtain ⟨old, rfl, hold⟩ := h.split
  have hdrop : ∀ t ∈ window.takeWhile (fun t => t < now - width), t < now - width := by
    intro t ht
    have := List.mem_takeWhile_imp ht
    exact of_decide_eq_true this
  have hkeep : ∀ t ∈ window.dropWhile (fun t => t < now - width), now - width ≤ t := by
    have hsorted := (List.pairwise_append.mp h.sorted).2.1.sublist (List.dropWhile_sublist fun t => t < now - width)
    cases hrest : window.dropWhile fun t => t < now - width with
    | nil => exact nofun
    | cons first rest =>
      rw [hrest] at hsorted
      have hfirst : ¬ first < now - width := by
        have := @List.head_dropWhile_not _ (fun t => decide (t < now - width)) window (by rw [hrest]; exact List.cons_ne_nil _ _)
        simpa [hrest] using this
      intro t ht
      rcases List.mem_cons.mp ht with rfl | ht
      · exact not_lt.mp hfirst
      · exact le_trans (not_lt.mp hfirst) ((List.pairwise_cons.mp hsorted).1 t ht)
  refine ⟨⟨⟨old ++ window.takeWhile fun t => t < now - width, ?_, ?_⟩, h.sorted, h.last⟩, ?_⟩
  · rw [List.append_assoc, List.takeWhile_append_dropWhile]
  · exact fun t ht => (List.mem_append.mp ht).elim (hold t) (hdrop t)
  · rw [← List.takeWhile_append_dropWhile (p := fun t => decide (t < now - width)) (l := window), List.countP_append,
      List.countP_append, List.countP_eq_zero.mpr fun t ht => by simpa using hold t ht,
      List.countP_eq_zero.mpr fun t ht => by simpa using hdrop t ht, Nat.zero_add, Nat.zero_add,
      List.takeWhile_append_dropWhile]
    exact (List.countP_eq_length.mpr fun t ht => decide_eq_true (hkeep t ht)).symm

omit [IsOrderedAddMonoid K] in
theorem Recent.push (h : Recent width now times window) : Recent width now (times ++ [now]) (window ++ [now]) := by
  obtain ⟨old, rfl, hold⟩ := h.split
  refine ⟨⟨old, List.append_assoc _ _ _, hold⟩, ?_, ?_⟩
  · exact List.pairwise_append.mpr ⟨h.sorted, List.pairwise_singleton _ _, fun t ht u hu => by
      rw [List.mem_singleton.mp hu]
      exact h.last t ht⟩
  · intro t ht
    rcases List.mem_append.mp ht with ht | ht
    · exact h.last t ht
    · rw [List.mem_singleton.mp ht]

theorem Capped.record (h : Capped width limit times)
    (hroom : ((times.countP fun t => now - width ≤ t : Nat) : Int) < limit) : Capped width limit (times ++ [now]) := by
  intro a
  rw [List.countP_append]
  by_cases hnow : a ≤ now ∧ now ≤ a + width
  · have hle : (times.countP fun t => a ≤ t ∧ t ≤ a + width) ≤ times.countP fun t => now - width ≤ t :=
      List.countP_mono_left fun t _ hin =>
        decide_eq_true (le_trans (sub_le_iff_le_add.mpr hnow.2) (of_decide_eq_true hin).1)
    simp only [List.countP_cons, List.countP_nil, hnow, and_self, decide_true, if_true]
    omega
  · have hle := h a
    simp only [List.countP_cons, List.countP_nil, hnow, decide_false, Bool.false_eq_true, if_false]
    omega

end

end Window
