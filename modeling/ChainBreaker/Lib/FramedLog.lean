import Mathlib.Data.List.Basic

/-!
# Append-only logs of framed records

A log is read record by record from the front until a record cannot be read.
`Framed read write` says that `read` takes exactly what `write` wrote off the
front and nothing off a part of it, so a log of written records with a part of
one at its end reads back as the records (`scan_written`).
-/

namespace FramedLog

variable {α β ε : Type}

/-- The records up to the first that cannot be read, and what is left from
there; at most `n` records. -/
def scan (read : List β → Except ε (α × List β)) : Nat → List β → List α × List β
  | 0, data => ([], data)
  | n + 1, data =>
    if data.isEmpty then ([], [])
    else
      match read data with
      | .ok (a, rest) => (a :: (scan read n rest).1, (scan read n rest).2)
      | .error _ => ([], data)

/-- How `write` and `read` belong together, on the records of `Valid`. -/
structure Framed (read : List β → Except ε (α × List β)) (write : α → List β) (Valid : α → Prop) : Prop where
  reads : ∀ a rest, Valid a → read (write a ++ rest) = .ok (a, rest)
  nonempty : ∀ a, Valid a → write a ≠ []
  torn : ∀ a n, Valid a → n < (write a).length → ∃ e, read ((write a).take n) = .error e

/-- The records written one after the other. -/
def written (write : α → List β) (as : List α) : List β := as.flatMap write

section
variable {read : List β → Except ε (α × List β)} {write : α → List β} {Valid : α → Prop}

theorem length_le_written (hf : Framed read write Valid) : ∀ {as : List α}, (∀ a ∈ as, Valid a) →
    as.length ≤ (written write as).length
  | [], _ => Nat.zero_le _
  | a :: as, h => by
    have ih := length_le_written hf fun b hb => h b (.tail _ hb)
    have hpos := List.length_pos_iff.mpr (hf.nonempty a (h a (.head _)))
    rw [written, List.flatMap_cons, List.length_append, List.length_cons]
    change as.length + 1 ≤ _ + (written write as).length
    omega

theorem scan_unreadable (n : Nat) {data : List β} (h : data ≠ [] → ∃ e, read data = .error e) :
    scan read n data = ([], data) := by
  cases n with
  | zero => rfl
  | succ n =>
    unfold scan
    by_cases hnil : data = []
    · subst hnil
      rfl
    · obtain ⟨e, he⟩ := h hnil
      rw [he]
      simp [hnil]

/-- **Reading back.** Written records before something that cannot be read. -/
theorem scan_written (hf : Framed read write Valid) {torn : List β} (ht : torn ≠ [] → ∃ e, read torn = .error e) :
    ∀ {as : List α} {n : Nat}, (∀ a ∈ as, Valid a) → as.length ≤ n →
      scan read n (written write as ++ torn) = (as, torn)
  | [], n, _, _ => scan_unreadable n ht
  | a :: as, n, h, hn => by
    obtain ⟨n, rfl⟩ : ∃ m, n = m + 1 := ⟨n - 1, by simp only [List.length_cons] at hn; omega⟩
    have ha := h a (.head _)
    have hdata : written write (a :: as) ++ torn = write a ++ (written write as ++ torn) := by
      rw [written, List.flatMap_cons, List.append_assoc]
      rfl
    have hne : (write a ++ (written write as ++ torn)).isEmpty = false := by
      simpa using fun hnil => absurd hnil (hf.nonempty a ha)
    have ih := scan_written hf ht (fun b hb => h b (.tail _ hb)) (n := n) (Nat.le_of_succ_le_succ hn)
    rw [hdata, scan, hne, if_neg (by decide), hf.reads a _ ha]
    simp only [ih]

end

end FramedLog
