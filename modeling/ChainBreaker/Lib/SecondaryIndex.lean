import Mathlib.Data.List.Nodup
import Mathlib.Tactic.Common

/-!
# A dictionary with a second key

Records stand in a dictionary under their own key, and an index gives for each
address the key of the record that has it. `Indexed` says that the two agree; it is
kept by entering a record with a new key and a new address, by taking one out of
both, and by changing what is neither key nor address.
-/

namespace SecondaryIndex

variable {κ ρ α τ : Type}

/-! ## Dictionaries -/

section
variable [BEq κ]

/-- What `d.pop(k, None)` leaves. -/
def pop (k : κ) (l : List (κ × τ)) : List (κ × τ) := l.filter fun e => e.1 != k

/-- The value under `k` is changed where it stands. -/
def revise (k : κ) (f : τ → τ) (l : List (κ × τ)) : List (κ × τ) := l.map fun e => if e.1 == k then (k, f e.2) else e

/-- `d[k] = v`. -/
def put (k : κ) (v : τ) (l : List (κ × τ)) : List (κ × τ) :=
  if (l.lookup k).isSome then revise k (fun _ => v) l else l ++ [(k, v)]

variable {l : List (κ × τ)} {k k' : κ} {v : τ} {f : τ → τ}

theorem put_new (h : l.lookup k = none) (v : τ) : put k v l = l ++ [(k, v)] := by
  rw [put, h]
  rfl

variable [LawfulBEq κ]

theorem lookup_cons_ne (h : k ≠ k') (v : τ) (l : List (κ × τ)) : ((k', v) :: l).lookup k = l.lookup k := by
  rw [List.lookup_cons, beq_false_of_ne h]

theorem lookup_iff_mem (h : (l.map Prod.fst).Nodup) : l.lookup k = some v ↔ (k, v) ∈ l := by
  induction l with
  | nil => simp
  | cons e l ih =>
    obtain ⟨k', v'⟩ := e
    rw [List.map_cons, List.nodup_cons] at h
    rw [List.mem_cons]
    by_cases hk : k = k'
    · subst hk
      have hnot : (k, v) ∉ l := fun hmem => h.1 (List.mem_map.mpr ⟨_, hmem, rfl⟩)
      simp [hnot, eq_comm]
    · rw [lookup_cons_ne hk, ih h.2]
      simp [hk]

theorem lookup_none_iff : l.lookup k = none ↔ k ∉ l.map Prod.fst := by
  induction l with
  | nil => simp
  | cons e l ih =>
    obtain ⟨k', v'⟩ := e
    rw [List.map_cons, List.mem_cons]
    by_cases hk : k = k'
    · simp [hk]
    · rw [lookup_cons_ne hk, ih]
      simp [hk]

theorem keys_revise (k : κ) (f : τ → τ) (l : List (κ × τ)) : (revise k f l).map Prod.fst = l.map Prod.fst := by
  rw [revise, List.map_map]
  refine List.map_congr_left fun e _ => ?_
  rw [Function.comp_apply]
  split
  · rename_i hk
    exact (eq_of_beq hk).symm
  · rfl

theorem mem_revise {e : κ × τ} : e ∈ revise k f l ↔ (∃ v, (k, v) ∈ l ∧ (k, f v) = e) ∨ e ∈ l ∧ e.1 ≠ k := by
  rw [revise, List.mem_map]
  constructor
  · rintro ⟨⟨k', v⟩, hmem, rfl⟩
    by_cases hk : k' = k
    · subst hk
      exact .inl ⟨v, hmem, by rw [if_pos BEq.rfl]⟩
    · rw [if_neg (mt eq_of_beq hk)]
      exact .inr ⟨hmem, hk⟩
  · rintro (⟨v, hmem, rfl⟩ | ⟨hmem, hk⟩)
    · exact ⟨(k, v), hmem, if_pos BEq.rfl⟩
    · exact ⟨e, hmem, if_neg (mt eq_of_beq hk)⟩

theorem lookup_revise_self (f : τ → τ) : (revise k f l).lookup k = (l.lookup k).map f := by
  induction l with
  | nil => rfl
  | cons e l ih =>
    obtain ⟨k', v⟩ := e
    rw [revise, List.map_cons, ← revise]
    by_cases hk : k = k'
    · subst hk
      rw [if_pos BEq.rfl, List.lookup_cons_self, List.lookup_cons_self, Option.map_some]
    · rw [if_neg (mt eq_of_beq (Ne.symm hk)), lookup_cons_ne hk, lookup_cons_ne hk, ih]

theorem lookup_revise_other (h : k' ≠ k) (f : τ → τ) : (revise k f l).lookup k' = l.lookup k' := by
  induction l with
  | nil => rfl
  | cons e l ih =>
    obtain ⟨k₁, v⟩ := e
    rw [revise, List.map_cons, ← revise]
    by_cases hk : k₁ = k
    · subst hk
      rw [if_pos BEq.rfl, lookup_cons_ne h, lookup_cons_ne h, ih]
    · rw [if_neg (mt eq_of_beq hk), List.lookup_cons, List.lookup_cons, ih]

theorem lookup_put_self (k : κ) (v : τ) (l : List (κ × τ)) : (put k v l).lookup k = some v := by
  cases h : l.lookup k with
  | none =>
    rw [put_new h, List.lookup_append, h, Option.none_or, List.lookup_cons_self]
  | some w =>
    rw [put, h, Option.isSome_some, if_pos rfl, lookup_revise_self, h, Option.map_some]

theorem lookup_put_other (h : k' ≠ k) (v : τ) (l : List (κ × τ)) : (put k v l).lookup k' = l.lookup k' := by
  rw [put]
  split
  · exact lookup_revise_other h _
  · rw [List.lookup_append, lookup_cons_ne h, List.lookup_nil, Option.or_none]

theorem nodup_put (h : (l.map Prod.fst).Nodup) : ((put k v l).map Prod.fst).Nodup := by
  rw [put]
  split
  · rw [keys_revise]
    exact h
  · rename_i hnew
    rw [List.map_append, List.map_singleton]
    exact h.append (List.nodup_singleton _)
      (List.disjoint_singleton.mpr (lookup_none_iff.mp (Option.not_isSome_iff_eq_none.mp hnew)))

omit [LawfulBEq κ] in
theorem length_put_le (k : κ) (v : τ) (l : List (κ × τ)) : (put k v l).length ≤ l.length + 1 := by
  rw [put]
  split
  · rw [revise, List.length_map]
    exact Nat.le_succ _
  · exact Nat.le_of_eq List.length_append

theorem lookup_pop_other (h : k' ≠ k) : (pop k l).lookup k' = l.lookup k' := by
  induction l with
  | nil => rfl
  | cons e l ih =>
    obtain ⟨k₁, v⟩ := e
    rw [pop, List.filter_cons, ← pop]
    by_cases hk : k₁ = k
    · subst hk
      rw [if_neg (by simp), ih, lookup_cons_ne h]
    · rw [if_pos (by simpa using hk), List.lookup_cons, List.lookup_cons, ih]

theorem lookup_pop_self (k : κ) (l : List (κ × τ)) : (pop k l).lookup k = none := by
  rw [lookup_none_iff, pop, List.mem_map]
  rintro ⟨e, he, rfl⟩
  exact absurd (List.mem_filter.mp he).2 (by simp)

theorem lookup_pop_none (h : l.lookup k = none) : (pop k' l).lookup k = none := by
  rw [lookup_none_iff] at h ⊢
  exact fun hmem => h ((List.filter_sublist.map Prod.fst).subset hmem)

theorem length_pop_lt (h : k ∈ l.map Prod.fst) : (pop k l).length < l.length := by
  obtain ⟨e, hmem, rfl⟩ := List.mem_map.mp h
  refine List.length_filter_lt_length_iff_exists.mpr ⟨e, hmem, ?_⟩
  simp

end

/-! ## The index -/

variable {key : ρ → κ} {address : ρ → α} {records : List (κ × ρ)} {index : List (α × κ)} {r r' : ρ}

structure Indexed (key : ρ → κ) (address : ρ → α) (records : List (κ × ρ)) (index : List (α × κ)) : Prop where
  keys : (records.map Prod.fst).Nodup
  keyed : ∀ e ∈ records, key e.2 = e.1
  addresses : (index.map Prod.fst).Nodup
  exact : ∀ a k, (a, k) ∈ index ↔ ∃ r, (k, r) ∈ records ∧ address r = a

namespace Indexed

theorem empty : Indexed key address [] [] := ⟨List.nodup_nil, nofun, List.nodup_nil, by simp⟩

variable [BEq κ] [LawfulBEq κ] (h : Indexed key address records index)
include h

/-- A change of a record that keeps its key and its address. -/
theorem revise {f : ρ → ρ} (hkey : ∀ r, key (f r) = key r) (haddress : ∀ r, address (f r) = address r) (k : κ) :
    Indexed key address (SecondaryIndex.revise k f records) index where
  keys := by
    rw [keys_revise]
    exact h.keys
  keyed := by
    intro e he
    rcases mem_revise.mp he with ⟨r, hr, rfl⟩ | ⟨he, -⟩
    · exact (hkey r).trans (h.keyed _ hr)
    · exact h.keyed e he
  addresses := h.addresses
  exact := by
    intro a k'
    rw [h.exact]
    constructor
    · rintro ⟨r, hr, rfl⟩
      by_cases hk : k' = k
      · subst hk
        exact ⟨f r, mem_revise.mpr (.inl ⟨r, hr, rfl⟩), haddress r⟩
      · exact ⟨r, mem_revise.mpr (.inr ⟨hr, hk⟩), rfl⟩
    · rintro ⟨r, hr, rfl⟩
      rcases mem_revise.mp hr with ⟨r', hr', heq⟩ | ⟨hr, -⟩
      · obtain ⟨rfl, rfl⟩ := Prod.mk.inj heq
        exact ⟨r', hr', (haddress r').symm⟩
      · exact ⟨r, hr, rfl⟩

variable [BEq α] [LawfulBEq α]

/-- No two records share an address. -/
theorem unique (hr : (k, r) ∈ records) (hr' : (k', r') ∈ records) (heq : address r = address r') : k = k' ∧ r = r' := by
  have hk := (lookup_iff_mem h.addresses).mpr ((h.exact _ _).mpr ⟨r, hr, rfl⟩)
  have hk' := (lookup_iff_mem h.addresses).mpr ((h.exact _ _).mpr ⟨r', hr', rfl⟩)
  rw [heq, hk', Option.some.injEq] at hk
  subst hk
  refine ⟨rfl, Option.some.inj ?_⟩
  rw [← (lookup_iff_mem h.keys).mpr hr, (lookup_iff_mem h.keys).mpr hr']

/-- Taking a record out of both. -/
theorem pop (hr : (k, r) ∈ records) :
    Indexed key address (SecondaryIndex.pop k records) (SecondaryIndex.pop (address r) index) where
  keys := h.keys.sublist (List.filter_sublist.map Prod.fst)
  keyed := fun e he => h.keyed e (List.mem_filter.mp he).1
  addresses := h.addresses.sublist (List.filter_sublist.map Prod.fst)
  exact := by
    intro a k'
    simp only [SecondaryIndex.pop, List.mem_filter, h.exact, bne_iff_ne]
    constructor
    · rintro ⟨⟨r', hr', rfl⟩, hne⟩
      refine ⟨r', ⟨hr', fun hk => hne ?_⟩, rfl⟩
      subst hk
      have heq := (lookup_iff_mem h.keys).mpr hr
      rw [(lookup_iff_mem h.keys).mpr hr', Option.some.injEq] at heq
      rw [heq]
    · rintro ⟨r', ⟨hr', hk⟩, rfl⟩
      exact ⟨⟨r', hr', rfl⟩, fun heq => hk (h.unique hr' hr heq).1⟩

/-- Entering a record with a new key and a new address. -/
theorem push (hk : records.lookup (key r) = none) (ha : index.lookup (address r) = none) :
    Indexed key address (records ++ [(key r, r)]) (index ++ [(address r, key r)]) where
  keys := by
    rw [List.map_append, List.map_singleton]
    exact h.keys.append (List.nodup_singleton _) (List.disjoint_singleton.mpr (lookup_none_iff.mp hk))
  keyed := by
    intro e he
    rcases List.mem_append.mp he with he | he
    · exact h.keyed e he
    · rw [List.mem_singleton.mp he]
  addresses := by
    rw [List.map_append, List.map_singleton]
    exact h.addresses.append (List.nodup_singleton _) (List.disjoint_singleton.mpr (lookup_none_iff.mp ha))
  exact := by
    intro a k'
    simp only [List.mem_append, List.mem_singleton, Prod.mk.injEq, h.exact]
    constructor
    · rintro (⟨r', hr', rfl⟩ | ⟨rfl, rfl⟩)
      · exact ⟨r', .inl hr', rfl⟩
      · exact ⟨r, .inr ⟨rfl, rfl⟩, rfl⟩
    · rintro ⟨r', hr' | ⟨rfl, rfl⟩, rfl⟩
      · exact .inl ⟨r', hr', rfl⟩
      · exact .inr ⟨rfl, rfl⟩

end Indexed

end SecondaryIndex
