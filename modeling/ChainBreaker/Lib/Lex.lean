import Mathlib.Data.List.Sort

/-!
# Lexicographic order and stable sorting

`lexLe` orders lists by a numeric key of their elements. `sortOn` is a stable
sort by a list-valued key: it permutes its input, and elements the order does
not tell apart keep their places (`filter_sortOn`).
-/

namespace Lex

variable {α β : Type}

def lexLe (f : α → Nat) : List α → List α → Bool
  | [], _ => true
  | _ :: _, [] => false
  | a :: as, b :: bs => decide (f a < f b) || (f a == f b && lexLe f as bs)

theorem lexLe_refl (f : α → Nat) : ∀ l, lexLe f l l = true
  | [] => rfl
  | a :: l => by simp [lexLe, lexLe_refl f l]

theorem lexLe_total (f : α → Nat) : ∀ l m, lexLe f l m = true ∨ lexLe f m l = true
  | [], _ => .inl rfl
  | _ :: _, [] => .inr rfl
  | a :: l, b :: m => by
    rcases Nat.lt_trichotomy (f a) (f b) with h | h | h
    · left; simp [lexLe, h]
    · rcases lexLe_total f l m with h' | h'
      · left; simp [lexLe, h, h']
      · right; simp [lexLe, h, h']
    · right; simp [lexLe, h]

theorem lexLe_trans (f : α → Nat) : ∀ {l m n : List α}, lexLe f l m = true → lexLe f m n = true → lexLe f l n = true
  | [], _, _, _, _ => rfl
  | _ :: _, [], _, h, _ => by cases h
  | _ :: _, _ :: _, [], _, h => by cases h
  | a :: l, b :: m, c :: n, h, h' => by
    simp only [lexLe, Bool.or_eq_true, Bool.and_eq_true, decide_eq_true_eq, beq_iff_eq] at h h' ⊢
    rcases h with h | ⟨h, hl⟩
    · left
      omega
    · rcases h' with h' | ⟨h', hm⟩
      · left
        omega
      · exact .inr ⟨h.trans h', lexLe_trans f hl hm⟩

theorem lexLe_antisymm {f : α → Nat} (hf : Function.Injective f) :
    ∀ {l m : List α}, lexLe f l m = true → lexLe f m l = true → l = m
  | [], [], _, _ => rfl
  | [], _ :: _, _, h => by cases h
  | _ :: _, [], h, _ => by cases h
  | a :: l, b :: m, h, h' => by
    simp only [lexLe, Bool.or_eq_true, Bool.and_eq_true, decide_eq_true_eq, beq_iff_eq] at h h'
    have hab : f a = f b := by omega
    obtain rfl := hf hab
    exact congrArg (a :: ·) (lexLe_antisymm hf (by simpa using h) (by simpa using h'))

/-- Sort `l` by `key`, keeping the order of elements with equal keys. -/
def sortOn (f : α → Nat) (key : β → List α) (l : List β) : List β :=
  l.insertionSort fun a b => lexLe f (key a) (key b) = true

theorem sortOn_perm (f : α → Nat) (key : β → List α) (l : List β) : (sortOn f key l).Perm l :=
  List.perm_insertionSort _ _

theorem mem_sortOn {f : α → Nat} {key : β → List α} {l : List β} {b : β} :
    b ∈ sortOn f key l ↔ b ∈ l := (sortOn_perm f key l).mem_iff

/-- When different elements have different keys, the sorted list does not
depend on the order of the elements. -/
theorem sortOn_eq_of_perm_on {f : α → Nat} (hf : Function.Injective f) {key : β → List α} {l m : List β}
    (hkey : ∀ a ∈ l, ∀ b ∈ l, key a = key b → a = b) (h : l.Perm m) : sortOn f key l = sortOn f key m := by
  have total : Std.Total fun a b : β => lexLe f (key a) (key b) = true := ⟨fun _ _ => lexLe_total f _ _⟩
  have trans : IsTrans β fun a b => lexLe f (key a) (key b) = true := ⟨fun _ _ _ => lexLe_trans f⟩
  have hperm : (sortOn f key l).Perm (sortOn f key m) :=
    (sortOn_perm f key l).trans (h.trans (sortOn_perm f key m).symm)
  refine hperm.eq_of_pairwise (fun a b ha hb hab hba => ?_) (List.pairwise_insertionSort _ l)
    (List.pairwise_insertionSort _ m)
  have hb' : b ∈ l := h.mem_iff.mpr (mem_sortOn.mp hb)
  exact hkey a (mem_sortOn.mp ha) b hb' (lexLe_antisymm hf hab hba)

theorem sortOn_eq_of_perm {f : α → Nat} (hf : Function.Injective f) {key : β → List α}
    (hkey : Function.Injective key) {l m : List β} (h : l.Perm m) : sortOn f key l = sortOn f key m :=
  sortOn_eq_of_perm_on hf (fun _ _ _ _ hab => hkey hab) h

/-- Sorting once is enough. -/
theorem sortOn_sortOn (f : α → Nat) (key : β → List α) (l : List β) :
    sortOn f key (sortOn f key l) = sortOn f key l := by
  have total : Std.Total fun a b : β => lexLe f (key a) (key b) = true := ⟨fun _ _ => lexLe_total f _ _⟩
  have trans : IsTrans β fun a b => lexLe f (key a) (key b) = true := ⟨fun _ _ _ => lexLe_trans f⟩
  exact (List.pairwise_insertionSort _ l).insertionSort_eq

/-- Sorting by a key of the images. -/
theorem map_sortOn {γ : Type} (f : α → Nat) (key : γ → List α) (g : β → γ) (l : List β) :
    (sortOn f (fun b => key (g b)) l).map g = sortOn f key (l.map g) :=
  List.map_insertionSort _ _ g l fun _ _ _ _ => Iff.rfl

section
variable (r : β → β → Prop) [DecidableRel r] (p : β → Bool)

theorem filter_orderedInsert (hp : ∀ a b, p a = true → p b = true → r a b) (a : β) (l : List β) :
    (l.orderedInsert r a).filter p = if p a then a :: l.filter p else l.filter p := by
  induction l with
  | nil => cases h : p a <;> simp [h]
  | cons b l ih =>
    rw [List.orderedInsert_cons]
    split
    · rw [List.filter_cons]
    · rename_i hr
      rw [List.filter_cons, ih]
      by_cases ha : p a = true
      · -- `a` passes `b`, so `b` is not one of the elements `p` picks
        have hb : p b = false := by
          cases hb : p b with
          | false => rfl
          | true => exact absurd (hp a b ha hb) hr
        simp [ha, hb]
      · simp [ha, List.filter_cons]

theorem filter_insertionSort (hp : ∀ a b, p a = true → p b = true → r a b) (l : List β) :
    (l.insertionSort r).filter p = l.filter p := by
  induction l with
  | nil => rfl
  | cons a l ih => rw [List.insertionSort_cons, filter_orderedInsert r p hp, ih, List.filter_cons]

end

/-- Elements with one common key come out in the order they went in. -/
theorem filter_sortOn (f : α → Nat) (key : β → List α) (p : β → Bool)
    (hp : ∀ a b, p a = true → p b = true → key a = key b) (l : List β) :
    (sortOn f key l).filter p = l.filter p :=
  filter_insertionSort _ p (fun a b ha hb => by rw [hp a b ha hb]; exact lexLe_refl f _) l

end Lex
