import Mathlib.Data.List.Basic

/-!
# Trees of pairs over a list

A level is hashed in pairs into the level above, a last element without a
partner being paired with itself, until one element is left. Over lists of one
length the top determines the list, if `node` tells the pairs apart that are met
on the way (`climb_inj`); lists of different lengths can share a top.
-/

namespace PairTree

variable {α : Type}

/-- The pairs of one level. -/
def pairs : List α → List (α × α)
  | [] => []
  | [a] => [(a, a)]
  | a :: b :: rest => (a, b) :: pairs rest

theorem pairs_length : ∀ l : List α, (pairs l).length = (l.length + 1) / 2
  | [] => by simp [pairs]
  | [_] => by simp [pairs]
  | _ :: _ :: rest => by simp [pairs, pairs_length rest]; omega

theorem pairs_inj : ∀ {l l' : List α}, l.length = l'.length → pairs l = pairs l' → l = l'
  | [], [], _, _ => rfl
  | [a], [b], _, h => by
    simp only [pairs, List.cons.injEq, Prod.mk.injEq] at h
    rw [h.1.1]
  | a :: b :: rest, c :: d :: rest', hlen, h => by
    simp only [pairs, List.cons.injEq, Prod.mk.injEq] at h
    simp only [List.length_cons, Nat.add_right_cancel_iff] at hlen
    obtain ⟨⟨rfl, rfl⟩, h⟩ := h
    rw [pairs_inj hlen h]

variable (node : α × α → α)

/-- The top of the tree, `n` levels above at most. -/
def climb : Nat → List α → Option α
  | 0, l => l.head?
  | n + 1, l => if 1 < l.length then climb n ((pairs l).map node) else l.head?

/-- The pairs met on the way to the top. -/
def met : Nat → List α → List (α × α)
  | 0, _ => []
  | n + 1, l => if 1 < l.length then pairs l ++ met n ((pairs l).map node) else []

theorem map_inj_on {β : Type} (f : β → α) : ∀ {l l' : List β}, (∀ p ∈ l, ∀ q ∈ l', f p = f q → p = q) →
    l.map f = l'.map f → l = l'
  | [], [], _, _ => rfl
  | p :: l, q :: l', hinj, h => by
    rw [List.map_cons, List.map_cons, List.cons.injEq] at h
    rw [hinj p (.head _) q (.head _) h.1, map_inj_on f (fun x hx y hy => hinj x (.tail _ hx) y (.tail _ hy)) h.2]

theorem head?_inj : ∀ {l l' : List α}, l.length = l'.length → l.length ≤ 1 → l.head? = l'.head? → l = l'
  | [], [], _, _, _ => rfl
  | [a], [b], _, _, h => by simpa using h

theorem climb_isSome (n : Nat) : ∀ {l : List α}, l ≠ [] → (climb node n l).isSome = true := by
  induction n with
  | zero =>
    intro l h
    simpa [climb] using h
  | succ n ih =>
    intro l h
    unfold climb
    split
    · rename_i hlen
      apply ih
      intro hnil
      have := congrArg List.length hnil
      simp only [List.length_map, pairs_length, List.length_nil] at this
      omega
    · simpa using h

theorem pairs_forall {P : α → Prop} : ∀ {l : List α}, (∀ a ∈ l, P a) → ∀ p ∈ pairs l, P p.1 ∧ P p.2
  | [a], h, p, hp => by
    rw [pairs, List.mem_singleton] at hp
    subst hp
    exact ⟨h a (.head _), h a (.head _)⟩
  | a :: b :: rest, h, p, hp => by
    rcases List.mem_cons.mp hp with rfl | hp
    · exact ⟨h a (.head _), h b (.tail _ (.head _))⟩
    · exact pairs_forall (fun x hx => h x (.tail _ (.tail _ hx))) p hp

/-- What holds of the list and of every node holds of every pair met. -/
theorem met_forall {P : α → Prop} (hnode : ∀ p, P (node p)) {n : Nat} : ∀ {l : List α}, (∀ a ∈ l, P a) →
    ∀ p ∈ met node n l, P p.1 ∧ P p.2 := by
  induction n with
  | zero => intro l _ p hp; cases hp
  | succ n ih =>
    intro l hl p hp
    unfold met at hp
    split at hp
    · rcases List.mem_append.mp hp with hp | hp
      · exact pairs_forall hl p hp
      · refine ih (fun a ha => ?_) p hp
        obtain ⟨q, -, rfl⟩ := List.mem_map.mp ha
        exact hnode q
    · cases hp

/-- **The top determines a list of known length.** -/
theorem climb_inj : ∀ {n : Nat} {l l' : List α}, l.length = l'.length → l.length ≤ n + 1 →
    (∀ p ∈ met node n l, ∀ q ∈ met node n l', node p = node q → p = q) → climb node n l = climb node n l' → l = l' := by
  intro n
  induction n with
  | zero =>
    intro l l' hlen hle _ h
    exact head?_inj hlen hle h
  | succ n ih =>
    intro l l' hlen hle hinj h
    by_cases hone : 1 < l.length
    · rw [climb, climb, if_pos hone, if_pos (hlen ▸ hone)] at h
      rw [met, met, if_pos hone, if_pos (hlen ▸ hone)] at hinj
      have hbelow : ∀ p ∈ pairs l, ∀ q ∈ pairs l', node p = node q → p = q := fun p hp q hq =>
        hinj p (List.mem_append_left _ hp) q (List.mem_append_left _ hq)
      have habove : (pairs l).map node = (pairs l').map node := by
        apply ih
        · simp [pairs_length, hlen]
        · simp only [List.length_map, pairs_length]
          omega
        · exact fun p hp q hq => hinj p (List.mem_append_right _ hp) q (List.mem_append_right _ hq)
        · exact h
      exact pairs_inj hlen (map_inj_on node hbelow habove)
    · rw [climb, climb, if_neg hone, if_neg (hlen ▸ hone)] at h
      exact head?_inj hlen (by omega) h

/-! ## Paths -/

/-- The element with the sibling of its pair. -/
def side (i : Nat) (a s : α) : α × α := if i % 2 = 0 then (a, s) else (s, a)

theorem side_inj {i : Nat} {a b s t : α} (h : side i a s = side i b t) : a = b := by
  unfold side at h
  split at h <;> cases h <;> rfl

/-- The sibling in a level: a last element without a partner is its own. -/
def sibling (l : List α) (i : Nat) : Option α :=
  let j := if i % 2 = 0 then i + 1 else i - 1
  if j < l.length then l[j]? else l[i]?

theorem pairs_side : ∀ {l : List α} {i : Nat} {a : α}, l[i]? = some a →
    ∃ s, sibling l i = some s ∧ (pairs l)[i / 2]? = some (side i a s)
  | [a], 0, _, h => by
    cases h
    exact ⟨a, rfl, rfl⟩
  | a :: b :: rest, 0, _, h => by
    cases h
    exact ⟨b, rfl, rfl⟩
  | a :: b :: rest, 1, _, h => by
    cases h
    exact ⟨a, rfl, rfl⟩
  | a :: b :: rest, i + 2, x, h => by
    obtain ⟨s, hs, hpair⟩ := pairs_side (l := rest) (i := i) h
    refine ⟨s, ?_, ?_⟩
    · rw [← hs, sibling, sibling]
      have hparity : (i + 2) % 2 = i % 2 := by omega
      by_cases heven : i % 2 = 0
      · simp only [hparity, heven, if_true, List.length_cons]
        have hlt : i + 2 + 1 < rest.length + 1 + 1 ↔ i + 1 < rest.length := by omega
        simp only [hlt]
        rfl
      · obtain ⟨j, rfl⟩ : ∃ j, i = j + 1 := ⟨i - 1, by omega⟩
        simp only [hparity, heven, if_false, List.length_cons, Nat.add_sub_cancel]
        have hlt : j + 1 + 2 - 1 < rest.length + 1 + 1 ↔ j < rest.length := by omega
        simp only [hlt]
        rfl
    · have hhalf : (i + 2) / 2 = i / 2 + 1 := by omega
      have hside : side (i + 2) x s = side i x s := by
        rw [side, side, Nat.add_mod_right]
      rw [hhalf, pairs, List.getElem?_cons_succ, hpair, hside]

/-- From an element and the siblings above it to the top. -/
def ascend : α → List α → Nat → α
  | a, [], _ => a
  | a, s :: path, i => ascend (node (side i a s)) path (i / 2)

/-- The pairs met from an element and the siblings above it. -/
def ascended : α → List α → Nat → List (α × α)
  | _, [], _ => []
  | a, s :: path, i => side i a s :: ascended (node (side i a s)) path (i / 2)

/-- The siblings from an element to the top. -/
def path : Nat → List α → Nat → Option (List α)
  | 0, _, _ => some []
  | n + 1, l, i =>
    if 1 < l.length then do
      let s ← sibling l i
      let rest ← path n ((pairs l).map node) (i / 2)
      some (s :: rest)
    else some []

theorem ascended_forall {P : α → Prop} (hnode : ∀ p, P (node p)) : ∀ {path : List α} {a : α} {i : Nat}, P a →
    (∀ s ∈ path, P s) → ∀ p ∈ ascended node a path i, P p.1 ∧ P p.2
  | [], _, _, _, _, _, hp => by cases hp
  | s :: path, a, i, ha, hall, p, hp => by
    obtain ⟨hs, hpath⟩ := List.forall_mem_cons.mp hall
    rcases List.mem_cons.mp hp with rfl | hp
    · rw [side]
      split
      · exact ⟨ha, hs⟩
      · exact ⟨hs, ha⟩
    · exact ascended_forall hnode (hnode _) hpath p hp

variable {node}

/-- **The path of an element leads to the top.** -/
theorem climb_path : ∀ {n : Nat} {l : List α} {i : Nat} {a : α}, l.length ≤ n + 1 → l[i]? = some a →
    ∃ p, path node n l i = some p ∧ climb node n l = some (ascend node a p i)
  | 0, l, i, a, hlen, ha => by
    have hi := (List.getElem?_eq_some_iff.mp ha).1
    obtain rfl : i = 0 := by omega
    exact ⟨[], rfl, by rw [climb, List.head?_eq_getElem?, ha]; rfl⟩
  | n + 1, l, i, a, hlen, ha => by
    have hi := (List.getElem?_eq_some_iff.mp ha).1
    rw [path, climb]
    by_cases hone : 1 < l.length
    · obtain ⟨s, hs, hpair⟩ := pairs_side ha
      have habove : ((pairs l).map node)[i / 2]? = some (node (side i a s)) := by
        rw [List.getElem?_map, hpair]
        rfl
      obtain ⟨p, hp, htop⟩ := climb_path (n := n) (by rw [List.length_map, pairs_length]; omega) habove
      rw [if_pos hone, if_pos hone, hs, hp]
      exact ⟨s :: p, rfl, htop⟩
    · obtain rfl : i = 0 := by omega
      rw [if_neg hone, if_neg hone, List.head?_eq_getElem?, ha]
      exact ⟨[], rfl, rfl⟩

/-- **Only the element leads to the top** along a path of its length, if `node`
tells the pairs apart that are met on the way. -/
theorem ascend_inj : ∀ {n : Nat} {l : List α} {i : Nat} {a b : α} {p q : List α}, l.length ≤ n + 1 → l[i]? = some a →
    path node n l i = some p → q.length = p.length →
    (∀ x ∈ met node n l, ∀ y ∈ ascended node b q i, node x = node y → x = y) →
    climb node n l = some (ascend node b q i) → b = a
  | 0, l, i, a, b, p, q, hlen, ha, hp, hq, _, htop => by
    have hi := (List.getElem?_eq_some_iff.mp ha).1
    obtain rfl : i = 0 := by omega
    cases hp
    obtain rfl := List.eq_nil_of_length_eq_zero hq
    rw [climb, List.head?_eq_getElem?, ha] at htop
    exact (Option.some.inj htop).symm
  | n + 1, l, i, a, b, p, q, hlen, ha, hp, hq, hinj, htop => by
    have hi := (List.getElem?_eq_some_iff.mp ha).1
    rw [path] at hp
    rw [climb] at htop
    rw [met] at hinj
    by_cases hone : 1 < l.length
    · rw [if_pos hone] at hp htop hinj
      obtain ⟨s, hs, hpair⟩ := pairs_side ha
      simp only [hs, Option.bind_eq_bind, Option.bind_some, Option.bind_eq_some_iff] at hp
      obtain ⟨rest, hrest, hp⟩ := hp
      cases hp
      cases q with
      | nil => cases hq
      | cons t q =>
        have habove : ((pairs l).map node)[i / 2]? = some (node (side i a s)) := by
          rw [List.getElem?_map, hpair]
          rfl
        have hnode : node (side i b t) = node (side i a s) := by
          refine ascend_inj (by rw [List.length_map, pairs_length]; omega) habove hrest (Nat.succ.inj hq) ?_ htop
          exact fun x hx y hy => hinj x (List.mem_append_right _ hx) y (.tail _ hy)
        have hmem : side i a s ∈ pairs l := List.mem_of_getElem? hpair
        exact (side_inj (hinj _ (List.mem_append_left _ hmem) _ (.head _) hnode.symm)).symm
    · obtain rfl : i = 0 := by omega
      rw [if_neg hone] at hp htop
      cases hp
      obtain rfl := List.eq_nil_of_length_eq_zero hq
      rw [List.head?_eq_getElem?, ha] at htop
      exact (Option.some.inj htop).symm

end PairTree
