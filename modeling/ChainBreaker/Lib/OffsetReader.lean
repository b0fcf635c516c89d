import ChainBreaker.Lib.Fallible
import Mathlib.Data.List.Basic

/-!
# Readers that carry an offset

A reader looks at the whole text from an offset on and returns a value and the
offset behind it. `Reads f x v` says that it finds `v` in the text `x` wherever
`x` stands; a reader repeated finds the values one after the other. `Parses`
also says what a reader takes at all, and on which texts it fails badly; both
put together step by step, as the reader is.
-/

namespace OffsetReader

open Fallible

variable {α β ε : Type}

/-- Wherever the text `x` stands, `f` finds `v` in it and stops behind it. -/
def Reads (f : List β → Nat → Except ε (α × Nat)) (x : List β) (v : α) : Prop :=
  ∀ pre post, f (pre ++ (x ++ post)) pre.length = .ok (v, pre.length + x.length)

variable {f : List β → Nat → Except ε (α × Nat)}

theorem Reads.run {x : List β} {v : α} (h : Reads f x v) {data pre post : List β} {o : Nat} (ho : pre.length = o)
    (hd : data = pre ++ (x ++ post)) : f data o = .ok (v, o + x.length) := by
  subst ho hd
  exact h pre post

/-- `f` so many times, each time from where it stopped. -/
def times (f : List β → Nat → Except ε (α × Nat)) : Nat → List β → Nat → Except ε (List α × Nat)
  | 0, _, o => .ok ([], o)
  | n + 1, data, o => do
    let (a, o) ← f data o
    let (as, o) ← times f n data o
    .ok (a :: as, o)

theorem times_reads {xs : List (List β)} {vs : List α} (h : List.Forall₂ (Reads f) xs vs) :
    Reads (times f vs.length) xs.flatten vs := by
  induction h with
  | nil => exact fun pre post => rfl
  | @cons x v xs vs hx _ ih =>
    intro pre post
    have hassoc : pre ++ ((x :: xs).flatten ++ post) = pre ++ (x ++ (xs.flatten ++ post)) := by simp
    have hbehind : pre ++ (x ++ (xs.flatten ++ post)) = (pre ++ x) ++ (xs.flatten ++ post) := by simp
    have hrest := ih.run List.length_append hbehind
    rw [hassoc, List.length_cons, times, hx pre (xs.flatten ++ post)]
    change (times f vs.length _ _ >>= _) = _
    rw [hrest, List.flatten_cons, List.length_append, ← Nat.add_assoc]
    rfl

/-! ## Readers of a grammar -/

/-- `f` reads the texts `T` gives a value and no others (as long as it stays within
the data), and an error of it is `bad` exactly on the texts in `B`. -/
structure Parses (bad : ε → Prop) (f : List β → Nat → Except ε (α × Nat)) (T : List β → α → Prop)
    (B : List β → Prop) : Prop where
  reads : ∀ {x v}, T x v → Reads f x v
  ahead : ∀ {data o v o'}, f data o = .ok (v, o') → o ≤ o'
  text : ∀ {data o v o'}, f data o = .ok (v, o') → o' ≤ data.length → ∃ x, T x v ∧ data.drop o = x ++ data.drop o'
  wrong : ∀ {data o}, (∃ e, f data o = .error e ∧ bad e) ↔ o ≤ data.length ∧ B (data.drop o)

section
variable {γ : Type} {bad : ε → Prop} {T T' : List β → α → Prop} {B B' : List β → Prop} {g : α → List β → Nat → Except ε (γ × Nat)}
  {U : α → List β → γ → Prop} {C : α → List β → Prop}

theorem Parses.congr (h : Parses bad f T B) (hT : ∀ x v, T x v ↔ T' x v) (hB : ∀ x, B x ↔ B' x) :
    Parses bad f T' B' := by
  obtain rfl : T = T' := funext fun x => funext fun v => propext (hT x v)
  obtain rfl : B = B' := funext fun x => propext (hB x)
  exact h

/-- A text of the grammar at an offset. -/
theorem Parses.take (h : Parses bad f T B) {data x rest : List β} {o : Nat} {v : α} (hx : T x v) (ho : o ≤ data.length)
    (hd : data.drop o = x ++ rest) :
    f data o = .ok (v, o + x.length) ∧ o + x.length ≤ data.length ∧ data.drop (o + x.length) = rest := by
  have hlen : data.length - o = x.length + rest.length := by rw [← List.length_drop, hd, List.length_append]
  have hsplit : data = data.take o ++ (x ++ rest) := by rw [← hd, List.take_append_drop]
  refine ⟨(h.reads hx).run (List.length_take_of_le ho) hsplit, by omega, ?_⟩
  · rw [← List.drop_drop, hd, List.drop_left]

/-- What a reader consumed is a text of the grammar. -/
theorem Parses.consumed (h : Parses bad f T B) {data : List β} {o o' : Nat} {v : α} (hf : f data o = .ok (v, o'))
    (ho : o' ≤ data.length) : ∃ x, T x v ∧ o' = o + x.length ∧ data.drop o = x ++ data.drop o' := by
  obtain ⟨x, hx, hd⟩ := h.text hf ho
  refine ⟨x, hx, ?_, hd⟩
  have hahead := h.ahead hf
  have hlen := congrArg List.length hd
  rw [List.length_append, List.length_drop, List.length_drop] at hlen
  omega

/-- The whole data is a text of the grammar. -/
theorem Parses.whole_iff (h : Parses bad f T B) {data : List β} {v : α} : f data 0 = .ok (v, data.length) ↔ T data v := by
  constructor
  · intro hf
    obtain ⟨x, hx, hd⟩ := h.text hf (Nat.le_refl _)
    rw [List.drop_zero, List.drop_length, List.append_nil] at hd
    exact hd ▸ hx
  · intro hx
    obtain ⟨hf, -⟩ := h.take hx (Nat.zero_le _) (List.append_nil data).symm
    rwa [Nat.zero_add] at hf

/-- One reader behind another. -/
def andThen (f : List β → Nat → Except ε (α × Nat)) (g : α → List β → Nat → Except ε (γ × Nat)) :
    List β → Nat → Except ε (γ × Nat) :=
  fun data o => f data o >>= fun p => g p.1 data p.2

theorem Parses.andThen (hf : Parses bad f T B) (hg : ∀ a, Parses bad (g a) (U a) (C a)) :
    Parses bad (andThen f g) (fun x v => ∃ y a z, x = y ++ z ∧ T y a ∧ U a z v)
      (fun x => B x ∨ ∃ y a z, x = y ++ z ∧ T y a ∧ C a z) where
  reads := by
    rintro x v ⟨y, a, z, rfl, hy, hz⟩ pre post
    have hfirst := hf.reads hy pre (z ++ post)
    have hsecond := ((hg a).reads hz).run (show (pre ++ y).length = pre.length + y.length from List.length_append)
      (show pre ++ (y ++ (z ++ post)) = (pre ++ y) ++ (z ++ post) by simp)
    rw [OffsetReader.andThen, List.append_assoc y, hfirst, ok_bind, hsecond, List.length_append, Nat.add_assoc]
  ahead := by
    intro data o v o' h
    obtain ⟨⟨a, o₁⟩, h₁, h₂⟩ := bind_eq_ok.mp h
    exact Nat.le_trans (hf.ahead h₁) ((hg a).ahead h₂)
  text := by
    intro data o v o' h ho
    obtain ⟨⟨a, o₁⟩, h₁, h₂⟩ := bind_eq_ok.mp h
    obtain ⟨y, hy, hdy⟩ := hf.text h₁ (Nat.le_trans ((hg a).ahead h₂) ho)
    obtain ⟨z, hz, hdz⟩ := (hg a).text h₂ ho
    exact ⟨y ++ z, ⟨y, a, z, rfl, hy, hz⟩, by rw [hdy, hdz, List.append_assoc]⟩
  wrong := by
    intro data o
    constructor
    · rintro ⟨e, h, hbad⟩
      rcases bind_eq_error.mp h with h₁ | ⟨⟨a, o₁⟩, h₁, h₂⟩
      · obtain ⟨ho, hB⟩ := hf.wrong.mp ⟨e, h₁, hbad⟩
        exact ⟨ho, .inl hB⟩
      · obtain ⟨ho, hC⟩ := (hg a).wrong.mp ⟨e, h₂, hbad⟩
        obtain ⟨y, hy, hd⟩ := hf.text h₁ ho
        exact ⟨Nat.le_trans (hf.ahead h₁) ho, .inr ⟨y, a, _, hd, hy, hC⟩⟩
    · rintro ⟨ho, hB | ⟨y, a, z, hd, hy, hC⟩⟩
      · obtain ⟨e, h₁, hbad⟩ := hf.wrong.mpr ⟨ho, hB⟩
        exact ⟨e, bind_eq_error.mpr (.inl h₁), hbad⟩
      · obtain ⟨h₁, ho₁, hdrop⟩ := hf.take hy ho hd
        obtain ⟨e, h₂, hbad⟩ := (hg a).wrong.mpr ⟨ho₁, hdrop ▸ hC⟩
        exact ⟨e, bind_eq_error.mpr (.inr ⟨_, h₁, h₂⟩), hbad⟩

/-- A value without any text. -/
def ret (v : α) : List β → Nat → Except ε (α × Nat) := fun _ o => .ok (v, o)

theorem parses_ret (v : α) : Parses bad (ret v : List β → Nat → Except ε (α × Nat)) (fun x u => x = [] ∧ u = v) (fun _ => False) where
  reads := by
    rintro x u ⟨rfl, rfl⟩ pre post
    rfl
  ahead h := by cases h; exact Nat.le_refl _
  text h _ := by cases h; exact ⟨[], ⟨rfl, rfl⟩, rfl⟩
  wrong := ⟨fun ⟨_, h, _⟩ => (nomatch h), fun h => h.2.elim⟩

/-- The next `n` elements, or as many as there are. -/
def piece (n : Nat) : List β → Nat → Except ε (List β × Nat) := fun data o => .ok ((data.drop o).take n, o + n)

theorem parses_piece (n : Nat) : Parses bad (piece n : List β → Nat → Except ε (List β × Nat))
    (fun x u => u = x ∧ x.length = n) (fun _ => False) where
  reads := by
    rintro x u ⟨rfl, rfl⟩ pre post
    rw [piece, List.drop_left, List.take_left]
  ahead h := by cases h; exact Nat.le_add_right _ _
  text := by
    intro data o v o' h ho
    cases h
    refine ⟨_, ⟨rfl, ?_⟩, ?_⟩
    · rw [List.length_take, List.length_drop]
      omega
    · rw [← List.drop_drop, List.take_append_drop]
  wrong := ⟨fun ⟨_, h, _⟩ => (nomatch h), fun h => h.2.elim⟩

/-- A condition on the value read. -/
theorem Parses.check (h : Parses bad f T B) {c : α → Prop} [DecidablePred c] {e : α → ε} (he : ∀ a, ¬ bad (e a)) :
    Parses bad (OffsetReader.andThen f fun a data o => require (c a) (e a) >>= fun _ => ret a data o) (fun x v => T x v ∧ c v) B := by
  have hcheck : ∀ a, Parses bad (fun (data : List β) o => require (c a) (e a) >>= fun _ => ret a data o)
      (fun x v => (x = [] ∧ v = a) ∧ c a) (fun _ => False) := by
    intro a
    refine ⟨?_, ?_, ?_, ?_⟩
    · rintro x v ⟨⟨rfl, rfl⟩, hc⟩ pre post
      rw [require_of _ hc]
      rfl
    · intro data o v o' h
      obtain ⟨_, -, h⟩ := bind_eq_ok.mp h
      exact (show Parses bad (ret a) _ _ from parses_ret a).ahead h
    · intro data o v o' h ho
      obtain ⟨_, hc, h⟩ := bind_eq_ok.mp h
      cases h
      exact ⟨[], ⟨⟨rfl, rfl⟩, require_eq_ok.mp hc⟩, rfl⟩
    · intro data o
      refine ⟨fun ⟨e', h, hbad⟩ => ?_, fun h => h.2.elim⟩
      rcases bind_eq_error.mp h with h | ⟨_, _, h⟩
      · rw [require_eq_error] at h
        exact absurd (h.2 ▸ hbad) (he a)
      · cases h
  refine (h.andThen hcheck).congr (fun x v => ?_) fun x => ?_
  · constructor
    · rintro ⟨y, a, z, rfl, hy, ⟨rfl, rfl⟩, hc⟩
      rw [List.append_nil]
      exact ⟨hy, hc⟩
    · rintro ⟨hx, hc⟩
      exact ⟨x, v, [], (List.append_nil x).symm, hx, ⟨rfl, rfl⟩, hc⟩
  · constructor
    · rintro (hB | ⟨_, _, _, _, _, hf⟩)
      · exact hB
      · exact hf.elim
    · exact .inl

/-- A bound checked beforehand that every text keeps. -/
theorem Parses.within (h : Parses bad f T fun _ => False) {e : ε} (he : ¬ bad e) {k : Nat}
    (hk : ∀ {x v}, T x v → k ≤ x.length) :
    Parses bad (fun data o => require (o + k ≤ data.length) e >>= fun _ => f data o) T (fun _ => False) where
  reads := by
    intro x v hx pre post
    have hle := hk hx
    have hbound : pre.length + k ≤ (pre ++ (x ++ post)).length := by simp only [List.length_append]; omega
    simp only [require_of e hbound, ok_bind, h.reads hx pre post]
  ahead := by
    intro data o v o' hf
    obtain ⟨_, -, hf⟩ := bind_eq_ok.mp hf
    exact h.ahead hf
  text := by
    intro data o v o' hf ho
    obtain ⟨_, -, hf⟩ := bind_eq_ok.mp hf
    exact h.text hf ho
  wrong := by
    intro data o
    refine ⟨fun ⟨e', hf, hbad⟩ => ?_, fun h => h.2.elim⟩
    rcases bind_eq_error.mp hf with hf | ⟨_, -, hf⟩
    · rw [require_eq_error] at hf
      exact absurd (hf.2 ▸ hbad) he
    · exact (h.wrong.mp ⟨e', hf, hbad⟩).2.elim

theorem Parses.times (h : Parses bad f T B) : ∀ n, Parses bad (times f n)
    (fun x vs => vs.length = n ∧ ∃ ws, List.Forall₂ T ws vs ∧ x = ws.flatten)
    (fun x => ∃ ws vs rest, List.Forall₂ T ws vs ∧ vs.length < n ∧ x = ws.flatten ++ rest ∧ B rest)
  | 0 => (show Parses bad (ret []) _ _ from parses_ret []).congr
      (fun x vs => by
        constructor
        · rintro ⟨rfl, rfl⟩
          exact ⟨rfl, [], .nil, rfl⟩
        · rintro ⟨hlen, ws, hws, rfl⟩
          obtain rfl := List.length_eq_zero_iff.mp hlen
          cases hws
          exact ⟨rfl, rfl⟩)
      (fun x => ⟨fun h => h.elim, fun ⟨_, _, _, _, hlt, _⟩ => absurd hlt (Nat.not_lt_zero _)⟩)
  | n + 1 => by
    have hrest : ∀ a, Parses bad (OffsetReader.andThen (OffsetReader.times f n) fun as => ret (a :: as)) _ _ :=
      fun a => (h.times n).andThen fun as => parses_ret (a :: as)
    refine Parses.congr (f := OffsetReader.times f (n + 1)) (h.andThen hrest) (fun x vs => ?_) fun x => ?_
    · constructor
      · rintro ⟨y, a, _, rfl, hy, z, as, _, rfl, ⟨hlen, ws, hws, rfl⟩, rfl, rfl⟩
        exact ⟨by rw [List.length_cons, hlen], y :: ws, .cons hy hws, by rw [List.append_nil, List.flatten_cons]⟩
      · rintro ⟨hlen, ws, hws, rfl⟩
        cases hws with
        | nil => cases hlen
        | @cons y a ws as hy hws =>
          exact ⟨y, a, ws.flatten, List.flatten_cons, hy, ws.flatten, as, [], (List.append_nil _).symm,
            ⟨Nat.succ.inj hlen, ws, hws, rfl⟩, rfl, rfl⟩
    · constructor
      · rintro (hB | ⟨y, a, z, rfl, hy, (⟨ws, vs, rest, hws, hlt, rfl, hB⟩ | ⟨_, _, _, _, _, hf⟩)⟩)
        · exact ⟨[], [], x, .nil, Nat.succ_pos n, rfl, hB⟩
        · exact ⟨y :: ws, a :: vs, rest, .cons hy hws, Nat.succ_lt_succ hlt, by rw [List.flatten_cons, List.append_assoc], hB⟩
        · exact hf.elim
      · rintro ⟨ws, vs, rest, hws, hlt, rfl, hB⟩
        cases hws with
        | nil => exact .inl hB
        | @cons y a ws vs hy hws =>
          exact .inr ⟨y, a, ws.flatten ++ rest, by rw [List.flatten_cons, List.append_assoc], hy,
            .inl ⟨ws, vs, rest, hws, Nat.lt_of_succ_lt_succ hlt, rfl, hB⟩⟩

end

end OffsetReader
