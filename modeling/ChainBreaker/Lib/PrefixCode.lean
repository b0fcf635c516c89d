import Mathlib.Data.List.Basic

/-!
# Texts that show where they end

`Apart p ok x y` says that the texts `p x` and `p y` are told apart whatever
follows them, as long as `ok` admits it. Words end where a character is none of
theirs, blocks at their closing character, and both put together again end
where their parts do.
-/

namespace PrefixCode

variable {α β : Type}

/-- The texts of `x` and `y` are equal, rests included, only if `x` and `y` are. -/
def Apart (p : α → List β) (ok : List β → Prop) (x y : α) : Prop :=
  ∀ r s, ok r → ok s → p x ++ r = p y ++ s → x = y ∧ r = s

/-- Whatever may follow. -/
def always : List β → Prop := fun _ => True

variable {p : α → List β} {ok : List β → Prop} {x y : α}

theorem Apart.mono {ok' : List β → Prop} (h : Apart p ok x y) (hok : ∀ r, ok' r → ok r) : Apart p ok' x y :=
  fun r s hr hs heq => h r s (hok r hr) (hok s hs) heq

/-- A code that a reader takes off the front. -/
theorem apart_of_reads {read : List β → Option (α × List β)} (hx : ∀ r, ok r → read (p x ++ r) = some (x, r))
    (hy : ∀ r, ok r → read (p y ++ r) = some (y, r)) : Apart p ok x y := by
  intro r s hr hs heq
  have h := (hx r hr).symm.trans ((congrArg read heq).trans (hy s hs))
  rw [Option.some.injEq, Prod.mk.injEq] at h
  exact h

/-! ## Words -/

/-- The text does not go on with a character of `q`. -/
def Stops (q : β → Bool) (r : List β) : Prop := ∀ b, r.head? = some b → q b = false

theorem stops_cons {q : β → Bool} {b : β} (hb : q b = false) (r : List β) : Stops q (b :: r) := by
  intro b' h
  cases h
  exact hb

theorem takeWhile_word {q : β → Bool} : ∀ {w r : List β}, (∀ b ∈ w, q b = true) → Stops q r →
    (w ++ r).takeWhile q = w
  | [], [], _, _ => rfl
  | [], b :: r, _, hr => by rw [List.nil_append, List.takeWhile_cons, hr b rfl]; rfl
  | b :: w, r, hw, hr => by
    rw [List.cons_append, List.takeWhile_cons, hw b (.head _), if_pos rfl,
      takeWhile_word (fun x hx => hw x (.tail _ hx)) hr]

/-- Two words followed by something else are the same word, followed by the same. -/
theorem word_inj {q : β → Bool} {w w' r r' : List β} (hw : ∀ b ∈ w, q b = true) (hw' : ∀ b ∈ w', q b = true)
    (hr : Stops q r) (hr' : Stops q r') (h : w ++ r = w' ++ r') : w = w' ∧ r = r' := by
  have heq : w = w' := by rw [← takeWhile_word hw hr, h, takeWhile_word hw' hr']
  subst heq
  exact ⟨rfl, List.append_cancel_left h⟩

/-! ## Blocks of texts up to a closing character -/

/-- The texts of the elements on end, then the closing character. -/
def block (p : α → List β) (close : β) (xs : List α) : List β := xs.flatMap p ++ [close]

theorem block_cons (close : β) (a : α) (xs : List α) (r : List β) :
    block p close (a :: xs) ++ r = p a ++ (block p close xs ++ r) := by
  simp [block]

theorem block_apart {close : β} : ∀ {xs ys : List α}, (∀ a ∈ xs, ∀ b ∈ ys, Apart p ok a b) →
    (∀ a r, a ∈ xs ∨ a ∈ ys → (p a ++ r).head? ≠ some close) → (∀ zs r, ok (block p close zs ++ r)) →
    Apart (block p close) always xs ys := by
  intro xs
  induction xs with
  | nil =>
    intro ys _ hfree _ r s _ _ heq
    cases ys with
    | nil => exact ⟨rfl, by simpa [block] using heq⟩
    | cons b ys =>
      rw [block_cons] at heq
      exact absurd (congrArg List.head? heq).symm (hfree b _ (.inr (.head _)))
  | cons a xs ih =>
    intro ys hap hfree hok r s hr hs heq
    cases ys with
    | nil =>
      rw [block_cons] at heq
      exact absurd (congrArg List.head? heq) (hfree a _ (.inl (.head _)))
    | cons b ys =>
      rw [block_cons, block_cons] at heq
      obtain ⟨rfl, hrest⟩ := hap a (.head _) b (.head _) _ _ (hok xs r) (hok ys s) heq
      have htail := ih (fun x hx y hy => hap x (.tail _ hx) y (.tail _ hy))
        (fun x r' h => hfree x r' (h.imp (.tail _) (.tail _))) hok r s hr hs hrest
      exact ⟨by rw [htail.1], htail.2⟩

/-! ## Texts between separators -/

/-- The texts of the elements with `sep` between them. -/
def separated (p : α → List β) (sep : β) : List α → List β
  | [] => []
  | a :: xs => p a ++ xs.flatMap fun b => sep :: p b

theorem separated_cons (sep close : β) (a : α) (xs : List α) (r : List β) :
    separated p sep (a :: xs) ++ close :: r = p a ++ (block (fun b => sep :: p b) close xs ++ r) := by
  simp [separated, block]

/-- Elements between separators, then a closing character that no element starts with. -/
theorem separated_apart {sep close : β} (hne : sep ≠ close) {xs ys : List α}
    (hap : ∀ a ∈ xs, ∀ b ∈ ys, Apart p ok a b) (hfree : ∀ a r, a ∈ xs ∨ a ∈ ys → (p a ++ r).head? ≠ some close)
    (hsep : ∀ r, ok (sep :: r)) (hclose : ∀ r, ok (close :: r)) :
    Apart (fun zs => separated p sep zs ++ [close]) always xs ys := by
  intro r s _ _ heq
  have hok : ∀ zs r, ok (block (fun b => sep :: p b) close zs ++ r) := by
    intro zs r
    cases zs with
    | nil => exact hclose r
    | cons z zs => rw [block_cons]; exact hsep _
  simp only [List.append_assoc, List.singleton_append] at heq
  cases xs with
  | nil =>
    cases ys with
    | nil => exact ⟨rfl, by simpa [separated] using heq⟩
    | cons b ys =>
      rw [separated_cons] at heq
      exact absurd (congrArg List.head? heq).symm (hfree b _ (.inr (.head _)))
  | cons a xs =>
    cases ys with
    | nil =>
      rw [separated_cons] at heq
      exact absurd (congrArg List.head? heq) (hfree a _ (.inl (.head _)))
    | cons b ys =>
      rw [separated_cons, separated_cons] at heq
      obtain ⟨rfl, hrest⟩ := hap a (.head _) b (.head _) _ _ (hok xs r) (hok ys s) heq
      have hrest := @block_apart _ _ (fun b => sep :: p b) ok close _ _
        (fun x hx y hy r s hr hs h => hap x (.tail _ hx) y (.tail _ hy) r s hr hs (List.cons.inj h).2)
        (fun x _ _ h => hne (Option.some.inj h)) hok r s trivial trivial hrest
      exact ⟨by rw [hrest.1], hrest.2⟩

end PrefixCode
