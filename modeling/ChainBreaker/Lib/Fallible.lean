import Mathlib.Data.List.Induction
import Mathlib.Data.List.Forall2

/-!
# Fallible steps and their runs

A step that may refuse is a function into `Except`. `run` folds such a step
over a list of inputs and stops at the first refusal. An accepted run is
taken apart at any point (`run_append`), and what every step preserves, every
accepted run preserves (`run_inv`).
-/

namespace Fallible

variable {ε α β σ : Type}

theorem bind_eq_ok {x : Except ε α} {f : α → Except ε β} {b : β} :
    (x >>= f) = .ok b ↔ ∃ a, x = .ok a ∧ f a = .ok b := by
  cases x <;> simp [bind, Except.bind]

theorem bind_eq_error {x : Except ε α} {f : α → Except ε β} {e : ε} :
    (x >>= f) = .error e ↔ x = .error e ∨ ∃ a, x = .ok a ∧ f a = .error e := by
  cases x <;> simp [bind, Except.bind]

theorem map_eq_ok {x : Except ε α} {f : α → β} {b : β} : x.map f = .ok b ↔ ∃ a, x = .ok a ∧ f a = b := by
  cases x <;> simp [Except.map]

theorem ok_bind (a : α) (f : α → Except ε β) : (Except.ok a >>= f) = f a := rfl

theorem error_bind (e : ε) (f : α → Except ε β) : (Except.error e >>= f) = .error e := rfl

theorem pure_eq_ok {a b : α} : (pure a : Except ε α) = .ok b ↔ a = b := by
  simp [pure, Except.pure]

theorem pure_ne_error {a : α} {e : ε} : (pure a : Except ε α) ≠ .error e := by
  simp [pure, Except.pure]

/-- Refuse with `e` unless `c` holds. -/
def require (c : Prop) [Decidable c] (e : ε) : Except ε Unit :=
  if c then .ok () else .error e

theorem require_eq_ok {c : Prop} [Decidable c] {e : ε} {u : Unit} : require c e = .ok u ↔ c := by
  unfold require; split <;> simp_all

theorem require_of {c : Prop} [Decidable c] (e : ε) (h : c) : require c e = .ok () := if_pos h

theorem require_eq_error {c : Prop} [Decidable c] {e e' : ε} :
    require c e = .error e' ↔ ¬ c ∧ e = e' := by
  unfold require; split <;> simp_all

/-- A success that passes a test, for outcomes that are evaluated. -/
def okAnd (p : α → Bool) : Except ε α → Bool
  | .ok a => p a
  | .error _ => false

theorem of_okAnd {p : α → Bool} {x : Except ε α} (h : okAnd p x = true) : ∃ a, x = .ok a ∧ p a = true := by
  cases x with
  | ok a => exact ⟨a, rfl, h⟩
  | error e => cases h

/-- A success that is `a`. -/
def okEq [DecidableEq α] (x : Except ε α) (a : α) : Bool := okAnd (fun b => decide (b = a)) x

theorem of_okEq [DecidableEq α] {x : Except ε α} {a : α} (h : okEq x a = true) : x = .ok a := by
  obtain ⟨b, hb, hba⟩ := of_okAnd h
  rw [hb, of_decide_eq_true hba]

/-- The results of a fallible function over a list, or its first refusal. -/
def collect (f : α → Except ε β) : List α → Except ε (List β)
  | [] => .ok []
  | a :: l => do
    let b ← f a
    let bs ← collect f l
    .ok (b :: bs)

theorem collect_eq_ok {f : α → Except ε β} : ∀ {l : List α} {bs : List β},
    collect f l = .ok bs ↔ List.Forall₂ (fun a b => f a = .ok b) l bs
  | [], bs => by cases bs <;> simp [collect]
  | a :: l, bs => by
    simp only [collect, bind_eq_ok, collect_eq_ok]
    constructor
    · rintro ⟨b, hb, bs, hbs, h⟩
      cases h
      exact .cons hb hbs
    · rintro (_ | ⟨hb, hbs⟩)
      exact ⟨_, hb, _, hbs, rfl⟩

theorem collect_mem {f : α → Except ε β} : ∀ {l : List α} {bs : List β}, collect f l = .ok bs →
    ∀ a ∈ l, ∃ b, f a = .ok b
  | [], _, _ => nofun
  | a :: l, bs, h => by
    simp only [collect, bind_eq_ok] at h
    obtain ⟨b, hb, bs', hbs, -⟩ := h
    exact List.forall_mem_cons.mpr ⟨⟨b, hb⟩, collect_mem hbs⟩

theorem collect_results {f : α → Except ε β} : ∀ {l : List α} {bs : List β}, collect f l = .ok bs →
    ∀ b ∈ bs, ∃ a ∈ l, f a = .ok b
  | [], _, h => by
    cases h
    exact nofun
  | a :: l, bs, h => by
    simp only [collect, bind_eq_ok] at h
    obtain ⟨b, hb, bs', hbs, h⟩ := h
    cases h
    refine List.forall_mem_cons.mpr ⟨⟨a, .head _, hb⟩, fun c hc => ?_⟩
    obtain ⟨d, hd, hdc⟩ := collect_results hbs c hc
    exact ⟨d, .tail _ hd, hdc⟩

theorem collect_finds {f : α → Except ε β} : ∀ {l : List α} {bs : List β}, collect f l = .ok bs →
    ∀ a ∈ l, ∃ b ∈ bs, f a = .ok b
  | [], _, _ => nofun
  | a :: l, bs, h => by
    simp only [collect, bind_eq_ok] at h
    obtain ⟨b, hb, bs', hbs, h⟩ := h
    cases h
    refine List.forall_mem_cons.mpr ⟨⟨b, List.mem_cons_self, hb⟩, fun a' ha' => ?_⟩
    obtain ⟨b', hb', hf⟩ := collect_finds hbs a' ha'
    exact ⟨b', List.mem_cons_of_mem _ hb', hf⟩

theorem collect_of_forall {f : α → Except ε β} : ∀ {l : List α}, (∀ a ∈ l, ∃ b, f a = .ok b) → ∃ bs, collect f l = .ok bs
  | [], _ => ⟨[], rfl⟩
  | a :: l, h => by
    obtain ⟨⟨b, hb⟩, hrest⟩ := List.forall_mem_cons.mp h
    obtain ⟨bs, hbs⟩ := collect_of_forall hrest
    exact ⟨b :: bs, by rw [collect, hb, ok_bind, hbs, ok_bind]⟩

/-- Reordered inputs have reordered results. -/
theorem collect_perm {f : α → Except ε β} {xs ys : List α} (h : xs.Perm ys) :
    ∀ {bs : List β}, collect f xs = .ok bs → ∃ cs, collect f ys = .ok cs ∧ bs.Perm cs := by
  induction h with
  | nil => exact fun hbs => ⟨_, hbs, .refl _⟩
  | cons x _ ih =>
    intro bs hbs
    obtain ⟨b, hb, rest, hrest, rfl⟩ : ∃ b, f x = .ok b ∧ ∃ rest, collect f _ = .ok rest ∧ b :: rest = bs := by
      simpa only [collect, bind_eq_ok, Except.ok.injEq] using hbs
    obtain ⟨cs, hcs, hperm⟩ := ih hrest
    exact ⟨b :: cs, by rw [collect, hb, ok_bind, hcs, ok_bind], hperm.cons b⟩
  | swap x y l =>
    intro bs hbs
    simp only [collect, bind_eq_ok, Except.ok.injEq] at hbs
    obtain ⟨b, hb, _, ⟨c, hc, rest, hrest, rfl⟩, rfl⟩ := hbs
    exact ⟨c :: b :: rest, by simp only [collect, hb, hc, hrest, ok_bind], .swap c b rest⟩
  | trans _ _ ih₁ ih₂ =>
    intro bs hbs
    obtain ⟨cs, hcs, hperm⟩ := ih₁ hbs
    obtain ⟨ds, hds, hperm'⟩ := ih₂ hcs
    exact ⟨ds, hds, hperm.trans hperm'⟩

/-- Over a range of indices, `collect` succeeds when every index does. -/
theorem collect_range_ok {f : Nat → Except ε β} : ∀ {n a : Nat} {bs : List β},
    collect f (List.range' a n) = .ok bs → ∀ i < n, ∃ b, bs[i]? = some b ∧ f (a + i) = .ok b
  | n + 1, a, bs, h, i, hi => by
    simp only [List.range'_succ, collect, bind_eq_ok] at h
    obtain ⟨b, hb, bs', hbs, h⟩ := h
    cases h
    cases i with
    | zero => exact ⟨b, rfl, hb⟩
    | succ i =>
      obtain ⟨b', hb', hf⟩ := collect_range_ok hbs i (by omega)
      exact ⟨b', by simpa using hb', by rw [← hf]; congr 1; omega⟩

theorem collect_range_of {f : Nat → Except ε β} {n a : Nat} (h : ∀ i < n, ∃ b, f (a + i) = .ok b) :
    ∃ bs, collect f (List.range' a n) = .ok bs := by
  refine collect_of_forall fun i hi => ?_
  obtain ⟨j, hj, rfl⟩ := List.mem_range'.mp hi
  rw [Nat.one_mul]
  exact h j hj

/-! ## How a computation fails -/

/-- If `x` refuses, then with an error in `P`. -/
def FailsOnly (P : ε → Prop) (x : Except ε α) : Prop := ∀ e, x = .error e → P e

theorem failsOnly_of_ok {P : ε → Prop} {x : Except ε α} (h : ∃ a, x = .ok a) : FailsOnly P x := by
  obtain ⟨a, rfl⟩ := h
  intro e he
  cases he

theorem failsOnly_error {P : ε → Prop} {e : ε} (h : P e) : FailsOnly P (Except.error e : Except ε α) := by
  intro e' he
  cases he
  exact h

theorem FailsOnly.bind {P : ε → Prop} {x : Except ε α} {f : α → Except ε β} (hx : FailsOnly P x)
    (hf : ∀ a, x = .ok a → FailsOnly P (f a)) : FailsOnly P (x >>= f) := by
  intro e he
  rcases bind_eq_error.mp he with h | ⟨a, ha, h⟩
  · exact hx e h
  · exact hf a ha e h

theorem failsOnly_require {P : ε → Prop} {c : Prop} [Decidable c] {e : ε} (h : P e) :
    FailsOnly P (require c e) := by
  intro e' he
  obtain ⟨-, rfl⟩ := require_eq_error.mp he
  exact h

theorem failsOnly_collect {P : ε → Prop} {f : α → Except ε β} : ∀ {l : List α}, (∀ a ∈ l, FailsOnly P (f a)) →
    FailsOnly P (collect f l)
  | [], _ => failsOnly_of_ok ⟨[], rfl⟩
  | a :: _, h => (h a (.head _)).bind fun _ _ =>
      (failsOnly_collect fun b hb => h b (.tail _ hb)).bind fun _ _ => failsOnly_of_ok ⟨_, rfl⟩

/-! ## Runs -/

/-- Fold a fallible step over `l` from `s`. -/
def run (step : σ → α → Except ε σ) (s : σ) (l : List α) : Except ε σ := l.foldlM step s

section
variable (step : σ → α → Except ε σ)

@[simp] theorem run_nil (s : σ) : run step s [] = .ok s := rfl

theorem run_cons (s : σ) (a : α) (l : List α) :
    run step s (a :: l) = step s a >>= fun t => run step t l := by
  simp [run, List.foldlM_cons]

theorem run_append (s : σ) (l₁ l₂ : List α) :
    run step s (l₁ ++ l₂) = run step s l₁ >>= fun t => run step t l₂ := by
  simp [run, List.foldlM_append]

theorem run_cons_ok {s t : σ} {a : α} {l : List α} :
    run step s (a :: l) = .ok t ↔ ∃ u, step s a = .ok u ∧ run step u l = .ok t := by
  rw [run_cons, bind_eq_ok]

theorem run_append_ok {s t : σ} {l₁ l₂ : List α} :
    run step s (l₁ ++ l₂) = .ok t ↔ ∃ u, run step s l₁ = .ok u ∧ run step u l₂ = .ok t := by
  rw [run_append, bind_eq_ok]

theorem run_snoc_ok {s t : σ} {l : List α} {a : α} :
    run step s (l ++ [a]) = .ok t ↔ ∃ u, run step s l = .ok u ∧ step u a = .ok t := by
  rw [run_append_ok]
  simp [run_cons_ok]

theorem run_congr {step' : σ → α → Except ε σ} {l : List α} (h : ∀ a ∈ l, ∀ s, step s a = step' s a) (s : σ) :
    run step s l = run step' s l := by
  induction l generalizing s with
  | nil => rfl
  | cons a l ih =>
    rw [run_cons, run_cons, h a (.head _)]
    congr 1
    funext t
    exact ih (fun b hb => h b (.tail _ hb)) t

/-- What every accepted step of the run's inputs preserves, the run preserves. -/
theorem run_inv {I : σ → Prop} {l : List α} {s t : σ}
    (hstep : ∀ a ∈ l, ∀ u u', I u → step u a = .ok u' → I u') (hs : I s)
    (h : run step s l = .ok t) : I t := by
  induction l generalizing s with
  | nil => cases h; exact hs
  | cons a l ih =>
    obtain ⟨u, hu, hr⟩ := (run_cons_ok step).mp h
    exact ih (fun b hb => hstep b (List.mem_cons_of_mem _ hb))
      (hstep a (List.mem_cons_self ..) s u hs hu) hr

/-- Every input of an accepted run was accepted in some state. -/
theorem run_mem {l : List α} {s t : σ} (h : run step s l = .ok t) {a : α} (ha : a ∈ l) :
    ∃ u u', step u a = .ok u' := by
  obtain ⟨pre, post, rfl⟩ := List.append_of_mem ha
  obtain ⟨u, -, h⟩ := (run_append_ok step).mp h
  obtain ⟨u', hu, -⟩ := (run_cons_ok step).mp h
  exact ⟨u, u', hu⟩

/-- A state that every input leaves alone is where the run ends. -/
theorem run_fixed {l : List α} {s : σ} (h : ∀ a ∈ l, step s a = .ok s) : run step s l = .ok s := by
  induction l with
  | nil => rfl
  | cons a l ih =>
    rw [run_cons, h a (.head _), ok_bind]
    exact ih fun b hb => h b (.tail _ hb)

/-- An accepted run was accepted up to each of its points. -/
theorem run_prefix {l pre : List α} {s t : σ} (h : run step s l = .ok t) (hp : pre <+: l) :
    ∃ u, run step s pre = .ok u := by
  obtain ⟨rest, rfl⟩ := hp
  obtain ⟨u, hu, -⟩ := (run_append_ok step).mp h
  exact ⟨u, hu⟩

/-- `P` holds of every step an accepted run from `s` over `l` takes. -/
def EachStep (s : σ) (l : List α) (P : σ → α → σ → Prop) : Prop :=
  ∀ pre a post t t', l = pre ++ a :: post → run step s pre = .ok t → step t a = .ok t' → P t a t'

/-- What every step of the kind `P` preserves, a run of such steps preserves. -/
theorem run_inv_each {I : σ → Prop} {P : σ → α → σ → Prop} {s t : σ} {l : List α}
    (hstep : ∀ u a u', I u → P u a u' → step u a = .ok u' → I u') (hs : I s) (h : run step s l = .ok t)
    (hP : EachStep step s l P) : I t := by
  induction l using List.reverseRecOn generalizing t with
  | nil =>
    cases h
    exact hs
  | append_singleton l a ih =>
    obtain ⟨u, hu, ha⟩ := (run_snoc_ok step).mp h
    refine hstep u a t (ih hu ?_) (hP l a [] u t rfl hu ha) ha
    intro pre b post v v' hl hv hb
    exact hP pre b (post ++ [a]) v v' (by rw [hl]; simp) hv hb

/-- Over an invariant of the run, equivalent step properties hold alike. -/
theorem eachStep_congr {I : σ → Prop} {s : σ} {l : List α} {P Q : σ → α → σ → Prop}
    (hstep : ∀ u a u', I u → step u a = .ok u' → I u') (hs : I s)
    (h : ∀ u a u', I u → step u a = .ok u' → (P u a u' ↔ Q u a u')) :
    EachStep step s l P ↔ EachStep step s l Q := by
  have hI : ∀ {pre t}, run step s pre = .ok t → I t := fun hr =>
    run_inv step (fun a _ u u' => hstep u a u') hs hr
  constructor <;> intro hE pre a post t t' hl hr ha
  · exact (h t a t' (hI hr) ha).mp (hE pre a post t t' hl hr ha)
  · exact (h t a t' (hI hr) ha).mpr (hE pre a post t t' hl hr ha)

/-- A refused run was refused at one input, after an accepted prefix. -/
theorem run_eq_error {l : List α} {s : σ} {e : ε} :
    run step s l = .error e ↔
      ∃ pre a post u, l = pre ++ a :: post ∧ run step s pre = .ok u ∧ step u a = .error e := by
  induction l generalizing s with
  | nil => simp [run, pure, Except.pure]
  | cons b l ih =>
    rw [run_cons, bind_eq_error]
    constructor
    · rintro (hb | ⟨v, hv, hl⟩)
      · exact ⟨[], b, l, s, rfl, rfl, hb⟩
      · obtain ⟨pre, a, post, u, rfl, hu, ha⟩ := ih.mp hl
        exact ⟨b :: pre, a, post, u, rfl, (run_cons_ok step).mpr ⟨v, hv, hu⟩, ha⟩
    · rintro ⟨pre, a, post, u, hl, hu, ha⟩
      cases pre with
      | nil =>
        cases hl; cases hu
        exact .inl ha
      | cons c pre =>
        cases hl
        obtain ⟨v, hv, hr⟩ := (run_cons_ok step).mp hu
        exact .inr ⟨v, hv, ih.mpr ⟨pre, a, post, u, rfl, hr, ha⟩⟩

/-- The states of a run, its first and its last among them. -/
def scan (s : σ) : List α → Except ε (List σ)
  | [] => .ok [s]
  | a :: l => do
    let t ← step s a
    let ts ← scan t l
    .ok (s :: ts)

/-- The states scanned are those of the prefixes of the run. -/
theorem scan_getElem? {l : List α} {s : σ} {ts : List σ} (h : scan step s l = .ok ts) {i : Nat}
    (hi : i ≤ l.length) : ∃ t, ts[i]? = some t ∧ run step s (l.take i) = .ok t := by
  induction l generalizing s ts i with
  | nil =>
    cases h
    obtain rfl : i = 0 := by simpa using hi
    exact ⟨s, rfl, rfl⟩
  | cons a l ih =>
    simp only [scan, bind_eq_ok] at h
    obtain ⟨t, ht, ts', hts, h⟩ := h
    cases h
    cases i with
    | zero => exact ⟨s, rfl, rfl⟩
    | succ i =>
      obtain ⟨u, hu, hr⟩ := ih hts (by simpa using hi)
      exact ⟨u, by simpa using hu, (run_cons_ok step).mpr ⟨t, ht, hr⟩⟩

theorem scan_length {l : List α} {s : σ} {ts : List σ} (h : scan step s l = .ok ts) :
    ts.length = l.length + 1 := by
  induction l generalizing s ts with
  | nil => cases h; rfl
  | cons a l ih =>
    simp only [scan, bind_eq_ok] at h
    obtain ⟨t, ht, ts', hts, h⟩ := h
    cases h
    simp [ih hts]

theorem scan_ok_iff {l : List α} {s : σ} :
    (∃ ts, scan step s l = .ok ts) ↔ ∃ t, run step s l = .ok t := by
  induction l generalizing s with
  | nil => exact iff_of_true ⟨_, rfl⟩ ⟨_, rfl⟩
  | cons a l ih =>
    simp only [scan, bind_eq_ok, run_cons_ok]
    constructor
    · rintro ⟨_, t, ht, ts, hts, -⟩
      obtain ⟨u, hu⟩ := ih.mp ⟨ts, hts⟩
      exact ⟨u, t, ht, hu⟩
    · rintro ⟨u, t, ht, hu⟩
      obtain ⟨ts, hts⟩ := ih.mpr ⟨u, hu⟩
      exact ⟨_, t, ht, ts, hts, rfl⟩

end

end Fallible
