import ChainBreaker.Lib.Measure
import ChainBreaker.Reorg

/-!
# Two measures of work

The reorganization engine and the ledger turn a target into work by different
divisions. On targets within the consensus bounds both are total and positive,
and they prefer the same lists exactly where they are proportional.
-/

namespace ChainBreaker

open Fallible Measure

def workOf (target : Int) : Int := 2 ^ 256 / (target + 1)

def ledgerWorkOf (target : Int) : Int := MAX_TARGET / target

def targetsOf (blocks : List BlockV2) : List Int := blocks.map fun b => b.header.target

def InBounds (target : Int) : Prop := MIN_TARGET ≤ target ∧ target ≤ MAX_TARGET

theorem computeWork_eq {t : Int} (h : 0 < t) : computeWork t = .ok (workOf t) := by
  rw [computeWork, if_neg (Int.not_le.mpr h)]
  rfl

theorem workForTargetV2_eq {t : Int} (h : 0 < t) : workForTargetV2 t = .ok (ledgerWorkOf t) := by
  rw [workForTargetV2, if_neg (Int.not_le.mpr h)]
  rfl

theorem branchWork_eq : ∀ {blocks : List BlockV2}, (∀ t ∈ targetsOf blocks, 0 < t) →
    branchWork blocks = .ok (total workOf (targetsOf blocks))
  | [], _ => rfl
  | b :: rest, h => by
    have ih := branchWork_eq fun t (ht : t ∈ targetsOf rest) => h t (.tail _ ht)
    have hb := h b.header.target (.head _)
    simp only [branchWork, computeWork_eq hb, ih, ok_bind]
    rfl

theorem chainWork_eq : ∀ {blocks : List BlockV2}, (∀ t ∈ targetsOf blocks, 0 < t) →
    chainWork blocks = .ok (total ledgerWorkOf (targetsOf blocks))
  | [], _ => rfl
  | b :: rest, h => by
    have ih := chainWork_eq fun t (ht : t ∈ targetsOf rest) => h t (.tail _ ht)
    have hb := h b.header.target (.head _)
    simp only [chainWork, workForTargetV2_eq hb, ih, ok_bind]
    rfl

theorem InBounds.pos {t : Int} (h : InBounds t) : 0 < t := lt_of_lt_of_le (by decide) h.1

theorem workOf_pos {t : Int} (h : InBounds t) : 0 < workOf t := by
  have hpos := h.pos
  have hmax : MAX_TARGET + 1 ≤ 2 ^ 256 := by decide
  have hle : 1 * (t + 1) ≤ 2 ^ 256 := by linarith [h.2]
  exact (Int.le_ediv_iff_mul_le (by omega)).mpr hle

theorem ledgerWorkOf_pos {t : Int} (h : InBounds t) : 0 < ledgerWorkOf t :=
  (Int.le_ediv_iff_mul_le h.pos).mpr (by rw [Int.zero_add, one_mul]; exact h.2)

theorem compareWork_eq_iff {x y x' y' : Int} :
    compareWork x y = compareWork x' y' ↔ compare x y = compare x' y' := by
  rw [compare_eq_compare]
  unfold compareWork
  split_ifs <;> simp <;> omega

/-- An empty block at the target. -/
def blockAtTarget (target : Int) : BlockV2 := ⟨{ genesisHeader [] 0 with target := target }, []⟩

/-- **One measure of work.** Over blocks with targets in `T`, both measures are
defined and prefer alike exactly when they are proportional on `T`. -/
theorem works_agree_iff {T : Set Int} (hT : ∀ t ∈ T, InBounds t) :
    (∀ A B : List BlockV2, (∀ b ∈ A, b.header.target ∈ T) → (∀ b ∈ B, b.header.target ∈ T) →
      ∃ a b a' b', branchWork A = .ok a ∧ branchWork B = .ok b ∧ chainWork A = .ok a' ∧ chainWork B = .ok b' ∧
        compareWork a b = compareWork a' b') ↔
      ∀ s ∈ T, ∀ t ∈ T, 2 ^ 256 / (s + 1) * (MAX_TARGET / t) = 2 ^ 256 / (t + 1) * (MAX_TARGET / s) := by
  have hsame := sameOrder_iff (fun t ht => workOf_pos (hT t ht)) (fun t ht => ledgerWorkOf_pos (hT t ht))
  refine Iff.trans ⟨fun h a b ha hb => ?_, fun h A B hA hB => ?_⟩ hsame
  · have back : ∀ l : List Int, targetsOf (l.map blockAtTarget) = l := fun l => by
      simp [targetsOf, blockAtTarget, Function.comp_def]
    have mem : ∀ {l : List Int}, (∀ t ∈ l, t ∈ T) → ∀ b ∈ l.map blockAtTarget, b.header.target ∈ T := by
      intro l hl b hb
      obtain ⟨t, ht, rfl⟩ := List.mem_map.mp hb
      exact hl t ht
    obtain ⟨x, y, x', y', hx, hy, hx', hy', hc⟩ := h _ _ (mem ha) (mem hb)
    have pos : ∀ {l : List Int}, (∀ t ∈ l, t ∈ T) → ∀ t ∈ targetsOf (l.map blockAtTarget), 0 < t :=
      fun hl t ht => (hT t (hl t (by rwa [back] at ht))).pos
    rw [branchWork_eq (pos ha), back] at hx
    rw [branchWork_eq (pos hb), back] at hy
    rw [chainWork_eq (pos ha), back] at hx'
    rw [chainWork_eq (pos hb), back] at hy'
    cases hx; cases hy; cases hx'; cases hy'
    exact compareWork_eq_iff.mp hc
  · have mem : ∀ {A : List BlockV2}, (∀ b ∈ A, b.header.target ∈ T) → ∀ t ∈ targetsOf A, t ∈ T := by
      intro A hA t ht
      obtain ⟨b, hb, rfl⟩ := List.mem_map.mp ht
      exact hA b hb
    have pos : ∀ {A : List BlockV2}, (∀ b ∈ A, b.header.target ∈ T) → ∀ t ∈ targetsOf A, 0 < t :=
      fun hA t ht => (hT t (mem hA t ht)).pos
    exact ⟨_, _, _, _, branchWork_eq (pos hA), branchWork_eq (pos hB), chainWork_eq (pos hA),
      chainWork_eq (pos hB), compareWork_eq_iff.mpr (h _ _ (mem hA) (mem hB))⟩

theorem works_agree_halved : ∃ a b a' b', branchWork [blockAtTarget MAX_TARGET, blockAtTarget MAX_TARGET] = .ok a ∧
    branchWork [blockAtTarget (MAX_TARGET / 2)] = .ok b ∧
    chainWork [blockAtTarget MAX_TARGET, blockAtTarget MAX_TARGET] = .ok a' ∧
    chainWork [blockAtTarget (MAX_TARGET / 2)] = .ok b' ∧ compareWork a b = compareWork a' b' := by
  refine (@works_agree_iff {MAX_TARGET, MAX_TARGET / 2} ?_).mpr ?_ _ _ (by simp [blockAtTarget]) (by simp [blockAtTarget])
  · rintro _ (rfl | rfl) <;> exact ⟨by decide, by decide⟩
  · rintro _ (rfl | rfl) _ (rfl | rfl) <;> decide

/-- Just above half the greatest target the engine counts twice the work and
the ledger the same. -/
theorem works_disagree : ¬ ∀ A B : List BlockV2, (∀ b ∈ A, InBounds b.header.target) →
    (∀ b ∈ B, InBounds b.header.target) → ∀ a b a' b', branchWork A = .ok a → branchWork B = .ok b →
      chainWork A = .ok a' → chainWork B = .ok b' → compareWork a b = compareWork a' b' := by
  intro h
  have hin : InBounds MAX_TARGET ∧ InBounds (MAX_TARGET / 2 + 1) :=
    ⟨⟨by decide, by decide⟩, ⟨by decide, by decide⟩⟩
  have hc := h [blockAtTarget MAX_TARGET] [blockAtTarget (MAX_TARGET / 2 + 1)]
    (List.forall_mem_singleton.mpr hin.1) (List.forall_mem_singleton.mpr hin.2) _ _ _ _ rfl rfl rfl rfl
  exact absurd hc (by decide)

end ChainBreaker
