import ChainBreaker.GrownChain
import ChainBreaker.BlockDelivery
import Mathlib.Tactic.IntervalCases

/-!
# The retarget at a steady pace

The measure runs from the first block of the window to its last, which is one
interval less than the time it is compared with: at the pace that should leave
the target alone it is lowered by a tenth (`retarget_steady_iff`).
-/

namespace ChainBreaker

open Fallible

/-- The block immediately preceding the window of a retarget, or the genesis block. -/
def windowStart (height : Nat) : Nat := height - DIFFICULTY_RETARGET_INTERVAL - 1

/-- The blocks of the window are `d` seconds apart, from the block that precedes it on. -/
def EvenlySpaced (blocks : List AnyBlock) (height : Nat) (d : Int) : Prop :=
  ∀ i, windowStart height ≤ i → i + 1 < height → ∃ b b', blocks[i]? = some b ∧ blocks[i + 1]? = some b' ∧
    b'.timestamp = b.timestamp + d

/-- The target at the height, for blocks `d` seconds apart below a block of target `t`. -/
def SteadyAt (blocks : List AnyBlock) (height : Nat) (d t : Int) : Prop :=
  ∃ new, expectedTargetAt blocks height = .ok new ∧ (d = TARGET_BLOCK_TIME → new = t) ∧
    (d < TARGET_BLOCK_TIME → new ≤ t) ∧ (TARGET_BLOCK_TIME < d → t ≤ new)

section
variable {blocks : List AnyBlock} {height : Nat} {d : Int} {last : AnyBlock}

theorem EvenlySpaced.elapsed (h : EvenlySpaced blocks height d) {first : AnyBlock} {i : Nat} (hi : windowStart height ≤ i)
    (hfirst : blocks[i]? = some first) : ∀ k, i + k < height → ∃ b, blocks[i + k]? = some b ∧ b.timestamp = first.timestamp + k * d
  | 0, _ => ⟨first, hfirst, by simp⟩
  | k + 1, hk => by
    obtain ⟨b, hb, htime⟩ := h.elapsed hi hfirst k (by omega)
    obtain ⟨b₀, b', hb₀, hb', hnext⟩ := h (i + k) (by omega) hk
    obtain rfl : b = b₀ := Option.some.inj (hb.symm.trans hb₀)
    refine ⟨b', hb', ?_⟩
    rw [hnext, htime]
    push_cast
    ring

/-- Nine intervals are compared with the time of ten. -/
theorem retarget_steady (hretarget : height % DIFFICULTY_RETARGET_INTERVAL = 0) (hpos : 0 < height)
    (hlast : blocks[height - 1]? = some last) (hspaced : EvenlySpaced blocks height d) :
    expectedTargetAt blocks height = .ok (clampedTarget last.target (last.target * (if 9 * d ≤ 0 then 1 else 9 * d) / 6000)) := by
  have hten : DIFFICULTY_RETARGET_INTERVAL = 10 := rfl
  rw [hten] at hretarget
  have hstart : windowStart height ≤ height - 10 := by
    rw [windowStart, hten]
    omega
  obtain ⟨first, -, hfirst, -⟩ := hspaced (height - 10) hstart (by omega)
  obtain ⟨b, hb, htime⟩ := hspaced.elapsed hstart hfirst 9 (by omega)
  have hindex : height - 10 + 9 = height - 1 := by omega
  rw [hindex, hlast] at hb
  cases hb
  have helapsed : last.timestamp - first.timestamp = 9 * d := by
    rw [htime]
    push_cast
    ring
  rw [expectedTargetAt, retargetAt, hten, if_neg (by omega), if_neg (by omega), if_neg (not_not.mpr hretarget),
    if_neg (by omega), blockAt_eq_ok.mpr hfirst, ok_bind, blockAt_eq_ok.mpr hlast, ok_bind, helapsed]
  rfl

/-- Below the time it is compared with, the measured time lowers the target. -/
theorem scaled_target {t a : Int} (ht : 0 < t) : (a < 6000 → t * a / 6000 < t) ∧ (6000 ≤ a → t ≤ t * a / 6000) := by
  constructor
  · intro ha
    exact Int.ediv_lt_of_lt_mul (by decide) (mul_lt_mul_of_pos_left ha ht)
  · intro ha
    exact Int.le_ediv_of_mul_le (by decide) (mul_le_mul_of_nonneg_left ha (le_of_lt ht))

end

/-! ## The alpha network at the intended pace -/

/-- The genesis block of the alpha network and nine empty blocks, ten minutes apart. -/
theorem alphaNinth_spaced : EvenlySpaced ((alphaGenesis :: (alphaBlocks ++ [alphaEighth, alphaNinth])).map .v2) 10 TARGET_BLOCK_TIME := by
  intro i _ hi
  have hi : i < 9 := by omega
  interval_cases i <;> exact ⟨_, _, rfl, rfl, rfl⟩

end ChainBreaker
