import ChainBreaker.Lib.Fallible
import Mathlib.Data.List.AList

/-!
# Files, and programs that are cut short

A file system is a finite map from names to contents. A step of a program sets
one file to what it computes from the files of its moment; it is done whole or
not at all, and it may raise instead. `interrupt n` leaves what a process
leaves that dies before its step `n + 1`. What no step of a program names, no
part of the program changes (`interrupt_frame`).
-/

namespace FileSteps

open Fallible

variable {P γ ε : Type} [DecidableEq P]

abbrev Files (P γ : Type) := AList fun _ : P => γ

/-- The file has the content, or is gone. -/
def put (s : Files P γ) (p : P) : Option γ → Files P γ
  | some c => s.insert p c
  | none => s.erase p

@[simp] theorem lookup_put (s : Files P γ) (p q : P) (o : Option γ) :
    (put s p o).lookup q = if q = p then o else s.lookup q := by
  cases o with
  | none =>
    by_cases h : q = p
    · subst h
      simp [put]
    · simp [put, AList.lookup_erase_ne h, h]
  | some c =>
    by_cases h : q = p
    · subst h
      simp [put]
    · simp [put, AList.lookup_insert_ne h, h]

/-- The same files with the same contents. -/
def Same (s t : Files P γ) : Prop := ∀ p, s.lookup p = t.lookup p

structure Step (P γ ε : Type) [DecidableEq P] where
  name : P
  content : Files P γ → Except ε (Option γ)

namespace Step

def write (p : P) (c : Except ε γ) : Step P γ ε := ⟨p, fun _ => c.map some⟩

def unlink (p : P) : Step P γ ε := ⟨p, fun _ => .ok none⟩

def run (st : Step P γ ε) (s : Files P γ) : Except ε (Files P γ) := do
  let o ← st.content s
  .ok (put s st.name o)

theorem run_eq_ok {st : Step P γ ε} {s t : Files P γ} :
    st.run s = .ok t ↔ ∃ o, st.content s = .ok o ∧ t = put s st.name o := by
  rw [run, bind_eq_ok]
  exact exists_congr fun o => and_congr_right fun _ => by rw [Except.ok.injEq, eq_comm]

theorem write_content {p : P} {c : Except ε γ} {s : Files P γ} {o : Option γ} :
    (write p c).content s = .ok o ↔ ∃ x, c = .ok x ∧ o = some x := by
  cases c <;> simp [write, Except.map, eq_comm]

end Step

/-! ## Whole programs -/

def exec (s : Files P γ) (l : List (Step P γ ε)) : Except ε (Files P γ) := Fallible.run (fun s st => st.run s) s l

/-- At most `n` steps, up to the first that raises. -/
def interrupt : Nat → List (Step P γ ε) → Files P γ → Files P γ
  | 0, _, s => s
  | _ + 1, [], s => s
  | n + 1, st :: l, s =>
    match st.run s with
    | .ok t => interrupt n l t
    | .error _ => s

theorem exec_cons_ok {s t : Files P γ} {st : Step P γ ε} {l : List (Step P γ ε)} :
    exec s (st :: l) = .ok t ↔ ∃ u, st.run s = .ok u ∧ exec u l = .ok t := run_cons_ok _

theorem exec_append_ok {s t : Files P γ} {l l' : List (Step P γ ε)} :
    exec s (l ++ l') = .ok t ↔ ∃ u, exec s l = .ok u ∧ exec u l' = .ok t := run_append_ok _

@[simp] theorem interrupt_nil (n : Nat) (s : Files P γ) : interrupt n ([] : List (Step P γ ε)) s = s := by
  cases n <;> rfl

/-- A program that returns, cut short after its end. -/
theorem interrupt_exec : ∀ {l : List (Step P γ ε)} {n : Nat} {s t : Files P γ}, exec s l = .ok t → l.length ≤ n →
    interrupt n l s = t
  | [], n, s, t, h, _ => by
    cases h
    exact interrupt_nil n s
  | st :: l, n, s, t, h, hn => by
    obtain ⟨n, rfl⟩ : ∃ m, n = m + 1 := ⟨n - 1, by simp only [List.length_cons] at hn; omega⟩
    obtain ⟨u, hu, h⟩ := exec_cons_ok.mp h
    rw [interrupt, hu]
    exact interrupt_exec h (Nat.le_of_succ_le_succ hn)

/-- What every step preserves, every part of the program preserves. -/
theorem interrupt_inv {I : Files P γ → Prop} : ∀ {l : List (Step P γ ε)} {n : Nat} {s : Files P γ},
    (∀ st ∈ l, ∀ u u', I u → st.run u = .ok u' → I u') → I s → I (interrupt n l s)
  | [], n, s, _, hs => by rwa [interrupt_nil]
  | st :: l, 0, s, _, hs => hs
  | st :: l, n + 1, s, h, hs => by
    cases hst : st.run s with
    | error e =>
      rw [interrupt, hst]
      exact hs
    | ok t =>
      rw [interrupt, hst]
      exact interrupt_inv (fun st' hst' => h st' (.tail _ hst')) (h st (.head _) s t hs hst)

theorem exec_inv {I : Files P γ → Prop} {l : List (Step P γ ε)} {s t : Files P γ}
    (h : ∀ st ∈ l, ∀ u u', I u → st.run u = .ok u' → I u') (hs : I s) (ht : exec s l = .ok t) : I t := by
  rw [← interrupt_exec ht (Nat.le_refl _)]
  exact interrupt_inv h hs

/-- **Frame.** A file that no step names keeps its content. -/
theorem interrupt_frame {l : List (Step P γ ε)} {n : Nat} {s : Files P γ} {p : P} (h : ∀ st ∈ l, st.name ≠ p) :
    (interrupt n l s).lookup p = s.lookup p := by
  apply interrupt_inv (I := fun u => u.lookup p = s.lookup p)
  · intro st hst u u' hu hrun
    obtain ⟨o, -, rfl⟩ := Step.run_eq_ok.mp hrun
    rw [lookup_put, if_neg (h st hst).symm, hu]
  · rfl

theorem exec_frame {l : List (Step P γ ε)} {s t : Files P γ} {p : P} (h : ∀ st ∈ l, st.name ≠ p)
    (ht : exec s l = .ok t) : t.lookup p = s.lookup p := by
  rw [← interrupt_exec ht (Nat.le_refl _)]
  exact interrupt_frame h

/-- A file keeps what the last step that names it has put there. -/
theorem exec_last {l l' : List (Step P γ ε)} {st : Step P γ ε} {s t : Files P γ} (h : exec s (l ++ st :: l') = .ok t)
    (hlast : ∀ st' ∈ l', st'.name ≠ st.name) :
    ∃ u o, exec s l = .ok u ∧ st.content u = .ok o ∧ t.lookup st.name = o := by
  obtain ⟨u, hu, h⟩ := exec_append_ok.mp h
  obtain ⟨v, hv, h⟩ := exec_cons_ok.mp h
  obtain ⟨o, ho, rfl⟩ := Step.run_eq_ok.mp hv
  exact ⟨u, o, hu, ho, by rw [exec_frame hlast h, lookup_put, if_pos rfl]⟩

/-- A program of two parts is cut in the first, or after it. -/
theorem interrupt_append {l l' : List (Step P γ ε)} {n : Nat} {s : Files P γ} :
    interrupt n (l ++ l') s = interrupt n l s ∨
      ∃ t, exec s l = .ok t ∧ interrupt n (l ++ l') s = interrupt (n - l.length) l' t := by
  induction l generalizing n s with
  | nil => exact .inr ⟨s, rfl, rfl⟩
  | cons st l ih =>
    cases n with
    | zero => exact .inl rfl
    | succ n =>
      cases hst : st.run s with
      | error e =>
        refine .inl ?_
        rw [List.cons_append, interrupt, interrupt, hst]
      | ok t =>
        have hcut : ∀ l'', interrupt (n + 1) (st :: l'') s = interrupt n l'' t := fun l'' => by rw [interrupt, hst]
        rw [List.cons_append, hcut, hcut]
        rcases ih (n := n) (s := t) with h | ⟨u, hu, h⟩
        · exact .inl h
        · exact .inr ⟨u, exec_cons_ok.mpr ⟨t, hst, hu⟩, by rw [h, List.length_cons, Nat.add_sub_add_right]⟩

theorem exec_fails {E : ε → Prop} : ∀ {l : List (Step P γ ε)} {s : Files P γ},
    (∀ st ∈ l, ∀ u, FailsOnly E (st.content u)) → FailsOnly E (exec s l)
  | [], _, _ => failsOnly_of_ok ⟨_, rfl⟩
  | st :: l, s, h => by
    unfold exec
    rw [run_cons]
    exact ((h st (.head _) s).bind fun _ _ => failsOnly_of_ok ⟨_, rfl⟩).bind fun _ _ =>
      exec_fails fun st' hst' => h st' (.tail _ hst')

/-- Removing files one by one. -/
theorem exec_unlink : ∀ (ps : List P) (s : Files P γ), ∃ t, exec s (ps.map (Step.unlink (ε := ε))) = .ok t ∧
    ∀ q, t.lookup q = if q ∈ ps then none else s.lookup q
  | [], s => ⟨s, rfl, fun q => by simp⟩
  | p :: ps, s => by
    obtain ⟨t, ht, hlookup⟩ := exec_unlink ps (put s p none)
    refine ⟨t, exec_cons_ok.mpr ⟨_, Step.run_eq_ok.mpr ⟨none, rfl, rfl⟩, ht⟩, fun q => ?_⟩
    rw [hlookup, lookup_put]
    by_cases hq : q = p
    · simp [hq]
    · simp [hq]

end FileSteps
