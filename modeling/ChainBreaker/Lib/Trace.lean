import Mathlib.Data.List.Basic
import Mathlib.Tactic.Common

/-!
# Traces

What the steps of a run give, one after the other, each by itself and the state that
it finds.
-/

namespace Trace

variable {σ α β : Type} (step : σ → α → σ) (f : σ → α → List β)

def collect (s : σ) : List α → List β
  | [] => []
  | a :: as => f s a ++ collect (step s a) as

variable {step f} {s : σ}

theorem collect_append : ∀ {as bs : List α} {s : σ},
    collect step f s (as ++ bs) = collect step f s as ++ collect step f (as.foldl step s) bs
  | [], _, _ => rfl
  | a :: as, bs, s => by
    rw [List.cons_append, collect, collect_append, collect, List.append_assoc]
    rfl

theorem collect_snoc (as : List α) (a : α) :
    collect step f s (as ++ [a]) = collect step f s as ++ f (as.foldl step s) a := by
  rw [collect_append, collect, collect, List.append_nil]

theorem foldl_snoc (as : List α) (a : α) : (as ++ [a]).foldl step s = step (as.foldl step s) a := by
  rw [List.foldl_append]
  rfl

/-- What holds at first and is kept by every step holds after every run. -/
theorem foldl_inv {P : σ → Prop} (hstep : ∀ s a, P s → P (step s a)) (hs : P s) (as : List α) : P (as.foldl step s) := by
  induction as generalizing s with
  | nil => exact hs
  | cons a as ih => exact ih (hstep s a hs)

end Trace
