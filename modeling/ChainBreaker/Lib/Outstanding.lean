import Mathlib.Data.List.Induction
import Mathlib.Data.List.Nodup
import Mathlib.Data.List.Perm.Subperm
import Mathlib.Tactic.Common

/-!
# Outstanding requests

A log of requests and of answers to them, by their keys. Where no key is asked for
while it is outstanding, and nothing while the outstanding fill a limit
(`Disciplined`), every second request for a key follows an answer to the first, and
the requests outnumber the answers by no more than the limit.
-/

namespace Outstanding

inductive Event (κ : Type) where
  | asked (k : κ)
  | settled (k : κ)

variable {κ : Type} [DecidableEq κ]

def step (keys : List κ) : Event κ → List κ
  | .asked k => keys ++ [k]
  | .settled k => keys.filter fun j => j ≠ k

/-- The keys asked for and not settled since. -/
def outstanding (log : List (Event κ)) : List κ := log.foldl step []

def askedIn (log : List (Event κ)) : List κ := log.filterMap fun | .asked k => some k | .settled _ => none

def settledIn (log : List (Event κ)) : List κ := log.filterMap fun | .asked _ => none | .settled k => some k

variable {log pre mid post : List (Event κ)} {k : κ} {limit : Int}

theorem outstanding_snoc (event : Event κ) : outstanding (log ++ [event]) = step (outstanding log) event := by
  rw [outstanding, List.foldl_append]
  rfl

theorem foldl_asked (keys : List κ) : ∀ open' : List κ, (keys.map Event.asked).foldl step open' = open' ++ keys := by
  induction keys with
  | nil => exact fun _ => (List.append_nil _).symm
  | cons k keys ih =>
    intro open'
    rw [List.map_cons, List.foldl_cons, ih, step, List.append_assoc, List.singleton_append]

theorem foldl_settled (keys : List κ) : ∀ open' : List κ,
    (keys.map Event.settled).foldl step open' = open'.filter fun j => j ∉ keys := by
  induction keys with
  | nil => exact fun open' => (List.filter_eq_self.mpr (by simp)).symm
  | cons k keys ih =>
    intro open'
    rw [List.map_cons, List.foldl_cons, ih, step, List.filter_filter]
    exact List.filter_congr fun j _ => by simp [Bool.and_comm]

/-- A key is outstanding exactly if it was asked for and not settled after that. -/
theorem mem_outstanding_iff : k ∈ outstanding log ↔ ∃ pre post, log = pre ++ .asked k :: post ∧ .settled k ∉ post := by
  induction log using List.reverseRecOn with
  | nil =>
    refine iff_of_false List.not_mem_nil ?_
    rintro ⟨pre, post, heq, -⟩
    cases pre <;> cases heq
  | append_singleton log event ih =>
    rw [outstanding_snoc]
    constructor
    · intro hk
      cases event with
      | asked j =>
        rcases List.mem_append.mp hk with hk | hk
        · obtain ⟨pre, post, rfl, hpost⟩ := ih.mp hk
          refine ⟨pre, post ++ [.asked j], by rw [List.append_assoc, List.cons_append], ?_⟩
          rw [List.mem_append, List.mem_singleton]
          rintro (h | h)
          · exact hpost h
          · cases h
        · rw [List.mem_singleton] at hk
          subst hk
          exact ⟨log, [], rfl, List.not_mem_nil⟩
      | settled j =>
        obtain ⟨hk, hne⟩ := List.mem_filter.mp hk
        obtain ⟨pre, post, rfl, hpost⟩ := ih.mp hk
        refine ⟨pre, post ++ [.settled j], by rw [List.append_assoc, List.cons_append], ?_⟩
        rw [List.mem_append, List.mem_singleton]
        rintro (h | h)
        · exact hpost h
        · exact of_decide_eq_true hne (Event.settled.inj h)
    · rintro ⟨pre, post, heq, hpost⟩
      obtain rfl | ⟨rest, last, rfl⟩ := post.eq_nil_or_concat'
      · obtain ⟨-, hlast⟩ := List.append_inj' heq rfl
        cases hlast
        exact List.mem_append_right _ (List.mem_singleton_self k)
      · rw [← List.cons_append, ← List.append_assoc] at heq
        obtain ⟨rfl, hlast⟩ := List.append_inj' heq rfl
        cases hlast
        rw [List.mem_append, List.mem_singleton, not_or] at hpost
        have hk := ih.mpr ⟨pre, rest, rfl, hpost.1⟩
        cases event with
        | asked j => exact List.mem_append_left _ hk
        | settled j => exact List.mem_filter.mpr ⟨hk, decide_eq_true fun h => hpost.2 (h ▸ rfl)⟩

/-- Nothing is asked for while it is outstanding, or while the limit is reached. -/
def Disciplined (limit : Int) (log : List (Event κ)) : Prop :=
  ∀ pre k post, log = pre ++ .asked k :: post → k ∉ outstanding pre ∧ ((outstanding pre).length : Int) < limit

/-- What is not settled stays outstanding. -/
theorem stays_outstanding (hk : k ∈ outstanding log) (hpost : .settled k ∉ post) : k ∈ outstanding (log ++ post) := by
  obtain ⟨pre, mid, rfl, hmid⟩ := mem_outstanding_iff.mp hk
  refine mem_outstanding_iff.mpr ⟨pre, mid ++ post, by rw [List.append_assoc, List.cons_append], ?_⟩
  exact fun h => (List.mem_append.mp h).elim hmid hpost

namespace Disciplined

theorem start : Disciplined limit ([] : List (Event κ)) := by
  intro pre k post h
  cases pre <;> cases h

theorem before (h : Disciplined limit (pre ++ post)) : Disciplined limit pre := by
  rintro pre' k post' rfl
  exact h pre' k (post' ++ post) (by rw [List.append_assoc, List.cons_append])

theorem snoc (h : Disciplined limit log) {event : Event κ}
    (hevent : ∀ k, event = .asked k → k ∉ outstanding log ∧ ((outstanding log).length : Int) < limit) :
    Disciplined limit (log ++ [event]) := by
  intro pre k post heq
  obtain rfl | ⟨rest, last, rfl⟩ := post.eq_nil_or_concat'
  · obtain ⟨rfl, hk⟩ := List.append_inj' heq rfl
    exact hevent k (List.singleton_inj.mp hk)
  · rw [← List.cons_append, ← List.append_assoc] at heq
    exact h pre k rest (List.append_inj' heq rfl).1

theorem append_settled (h : Disciplined limit log) (keys : List κ) : Disciplined limit (log ++ keys.map .settled) := by
  induction keys using List.reverseRecOn with
  | nil => rwa [List.map_nil, List.append_nil]
  | append_singleton keys k ih =>
    rw [List.map_append, ← List.append_assoc]
    exact ih.snoc nofun

theorem append_asked (h : Disciplined limit log) {keys : List κ} (hkeys : ∀ pre k post, keys = pre ++ k :: post →
    k ∉ outstanding log ++ pre ∧ ((outstanding log).length + pre.length : Int) < limit) :
    Disciplined limit (log ++ keys.map .asked) := by
  induction keys using List.reverseRecOn with
  | nil => rwa [List.map_nil, List.append_nil]
  | append_singleton keys k ih =>
    rw [List.map_append, ← List.append_assoc]
    have hpast := ih fun pre j post heq => hkeys pre j (post ++ [k]) (by rw [heq, List.append_assoc, List.cons_append])
    refine hpast.snoc ?_
    rintro j ⟨⟩
    rw [outstanding, List.foldl_append, foldl_asked, List.length_append]
    push_cast
    exact hkeys keys k [] rfl

/-- Between two requests for a key it is settled. -/
theorem settled_between (h : Disciplined limit (pre ++ .asked k :: (mid ++ .asked k :: post))) : .settled k ∈ mid := by
  by_contra hmid
  refine (h (pre ++ .asked k :: mid) k post (by rw [List.append_assoc, List.cons_append])).1 ?_
  exact mem_outstanding_iff.mpr ⟨pre, mid, rfl, hmid⟩

theorem bounded (h : Disciplined limit log) :
    (outstanding log).Nodup ∧ ((outstanding log).length : Int) ≤ max 0 limit := by
  induction log using List.reverseRecOn with
  | nil => exact ⟨List.nodup_nil, Int.le_max_left _ _⟩
  | append_singleton log event ih =>
    obtain ⟨hnodup, hlength⟩ := ih h.before
    rw [outstanding_snoc]
    cases event with
    | asked k =>
      obtain ⟨hnew, hroom⟩ := h log k [] rfl
      refine ⟨hnodup.append (List.nodup_singleton k) (List.disjoint_singleton.mpr hnew), ?_⟩
      rw [step, List.length_append, List.length_singleton]
      omega
    | settled k =>
      refine ⟨hnodup.filter _, ?_⟩
      have hle := List.length_filter_le (fun j => decide (j ≠ k)) (outstanding log)
      rw [step]
      omega

/-- With the limit reached nothing is asked for until one of the outstanding is settled. -/
theorem full (h : Disciplined limit (log ++ post)) (hfull : limit ≤ (outstanding log).length)
    (hnone : ∀ k ∈ outstanding log, .settled k ∉ post) : askedIn post = [] := by
  rw [askedIn, List.filterMap_eq_nil_iff]
  rintro (k | k) hk
  · obtain ⟨mid, rest, rfl⟩ := List.append_of_mem hk
    rw [← List.append_assoc] at h
    have hlt := (h (log ++ mid) k rest rfl).2
    have hsub : (outstanding log).Subperm (outstanding (log ++ mid)) := by
      refine List.subperm_of_subset h.before.before.bounded.1 fun j hj => stays_outstanding hj fun hmid => ?_
      exact hnone j hj (List.mem_append_left _ hmid)
    have hle := hsub.length_le
    omega
  · rfl

/-- What is asked for is outstanding or was settled. -/
theorem asked_le (h : Disciplined limit log) :
    (askedIn log).length ≤ (settledIn log).length + (outstanding log).length := by
  induction log using List.reverseRecOn with
  | nil => exact Nat.le_refl _
  | append_singleton log event ih =>
    have hbefore := ih h.before
    have hnodup := h.before.bounded.1
    rw [outstanding_snoc, askedIn, settledIn, List.filterMap_append, List.filterMap_append, ← askedIn, ← settledIn]
    cases event with
    | asked k =>
      simp only [step, List.length_append, List.filterMap_cons, List.filterMap_nil, List.length_singleton,
        List.length_nil]
      omega
    | settled k =>
      have hone : (outstanding log).length ≤ (step (outstanding log) (.settled k)).length + 1 := by
        have hcount := List.nodup_iff_count_le_one.mp hnodup k
        have hsplit := List.length_eq_length_filter_add (fun j => decide (j ≠ k)) (l := outstanding log)
        rw [List.count_eq_length_filter] at hcount
        have hsame : (outstanding log).filter (fun j => !decide (j ≠ k)) = (outstanding log).filter fun j => j == k :=
          List.filter_congr fun j _ => by simp [beq_eq_decide]
        rw [hsame] at hsplit
        rw [step]
        omega
      simp only [List.length_append, List.filterMap_cons, List.filterMap_nil, List.length_singleton, List.length_nil]
      omega

end Disciplined

end Outstanding
