import ChainBreaker.Gossip
import ChainBreaker.Lib.Allowance

/-!
# Rates of gossip

A token bucket, over any run of calls, grants what keeps every run of
consecutive calls to its capacity and rate, and refuses nothing else
(`tokenBucket_exact`). The tokens are the level of the grants so far, with the
creation of the bucket as a grant of nothing (`Tracks`).
-/

namespace ChainBreaker

open Allowance

structure BucketCall where
  amount : ℚ
  time : ℚ

namespace TokenBucket

/-- What the calls are granted. -/
def grants (b : TokenBucket) : List BucketCall → List (ℚ × ℚ)
  | [] => []
  | call :: calls =>
    let (granted, b) := b.consume call.amount call.time
    (call.time, if granted then call.amount else 0) :: b.grants calls

def after (b : TokenBucket) (calls : List BucketCall) : TokenBucket :=
  calls.foldl (fun b call => (b.consume call.amount call.time).2) b

/-- The tokens are what the grants so far leave. -/
structure Tracks (b : TokenBucket) (history : List (ℚ × ℚ)) : Prop where
  level : Level b.capacity b.rate history b.tokens b.last
  rate : 0 ≤ b.rate
  capacity : 0 ≤ b.capacity
  tokens : 0 ≤ b.tokens

variable {b : TokenBucket} {history : List (ℚ × ℚ)} {amount now : ℚ}

theorem consume_of_lt (h : min b.capacity (b.tokens + b.rate * (now - b.last)) < amount) : b.consume amount now =
    (false, { b with last := now, tokens := min b.capacity (b.tokens + b.rate * (now - b.last)) }) := by
  rw [mul_comm] at h ⊢
  exact if_pos h

theorem consume_of_le (h : amount ≤ min b.capacity (b.tokens + b.rate * (now - b.last))) : b.consume amount now =
    (true, { b with last := now, tokens := min b.capacity (b.tokens + b.rate * (now - b.last)) - amount }) := by
  rw [mul_comm] at h ⊢
  exact if_neg h.not_gt

theorem consume_refused : (b.consume amount now).1 = false ↔ min b.capacity (b.tokens + b.rate * (now - b.last)) < amount := by
  rcases lt_or_ge (min b.capacity (b.tokens + b.rate * (now - b.last))) amount with h | h
  · exact iff_of_true (by rw [consume_of_lt h]) h
  · exact iff_of_false (by rw [consume_of_le h]; exact Bool.noConfusion) h.not_gt

theorem consume_state : (b.consume amount now).2 = { b with
    last := now,
    tokens := min b.capacity (b.tokens + b.rate * (now - b.last)) - if (b.consume amount now).1 then amount else 0 } := by
  rcases lt_or_ge (min b.capacity (b.tokens + b.rate * (now - b.last))) amount with h | h
  · rw [consume_of_lt h, if_neg Bool.noConfusion, sub_zero]
  · rw [consume_of_le h, if_pos rfl]

/-- One call keeps every run that it ends. -/
theorem Tracks.consume (h : b.Tracks history) (amount : ℚ) (hnow : b.last ≤ now) :
    (b.consume amount now).2.Tracks (history ++ [(now, if (b.consume amount now).1 then amount else 0)]) ∧
    ∀ block, block <:+ history →
      Allowance.Kept b.capacity b.rate (block ++ [(now, if (b.consume amount now).1 then amount else 0)]) := by
  have hlevel : 0 ≤ min b.capacity (b.tokens + b.rate * (now - b.last)) :=
    le_min h.capacity (add_nonneg h.tokens (mul_nonneg h.rate (sub_nonneg.mpr hnow)))
  have hgranted : (if (b.consume amount now).1 then amount else 0) ≤ min b.capacity (b.tokens + b.rate * (now - b.last)) := by
    split
    · rename_i hgranted
      refine not_lt.mp fun hlt => ?_
      rw [consume_refused.mpr hlt] at hgranted
      cases hgranted
    · exact hlevel
  refine ⟨?_, fun block hblock => h.level.kept hgranted hblock⟩
  rw [consume_state]
  exact ⟨h.level.snoc _ _, h.rate, h.capacity, sub_nonneg.mpr hgranted⟩

theorem consume_last : (b.consume amount now).2.last = now := by rw [consume_state]

theorem consume_fixed : (b.consume amount now).2.capacity = b.capacity ∧ (b.consume amount now).2.rate = b.rate := by
  rw [consume_state]
  exact ⟨rfl, rfl⟩

theorem after_fixed : ∀ (calls : List BucketCall) (b : TokenBucket),
    (b.after calls).capacity = b.capacity ∧ (b.after calls).rate = b.rate
  | [], _ => ⟨rfl, rfl⟩
  | _ :: calls, _ => ⟨(after_fixed calls _).1.trans consume_fixed.1, (after_fixed calls _).2.trans consume_fixed.2⟩

/-- A run of calls, in order of their times. -/
theorem Tracks.after : ∀ {calls : List BucketCall} {b : TokenBucket} {history : List (ℚ × ℚ)}, b.Tracks history →
    (b.last :: calls.map BucketCall.time).Pairwise (· ≤ ·) → (b.after calls).Tracks (history ++ b.grants calls)
  | [], b, history, h, _ => by
    rw [grants, List.append_nil]
    exact h
  | call :: calls, b, history, h, htimes => by
    rw [List.map_cons, List.pairwise_cons] at htimes
    have hnext := (h.consume call.amount (htimes.1 _ List.mem_cons_self)).1
    have hrest := @Tracks.after calls _ _ hnext (by rw [consume_last]; exact htimes.2)
    rw [List.append_assoc] at hrest
    exact hrest

theorem Tracks.kept : ∀ {calls : List BucketCall} {b : TokenBucket} {history : List (ℚ × ℚ)}, b.Tracks history →
    (∀ block, block <:+: history → Allowance.Kept b.capacity b.rate block) → (b.last :: calls.map BucketCall.time).Pairwise (· ≤ ·) →
    ∀ block, block <:+: history ++ b.grants calls → Allowance.Kept b.capacity b.rate block
  | [], b, history, _, hkept, _ => by
    rw [grants, List.append_nil]
    exact hkept
  | call :: calls, b, history, h, hkept, htimes => by
    rw [List.map_cons, List.pairwise_cons] at htimes
    obtain ⟨hnext, hends⟩ := h.consume call.amount (htimes.1 _ List.mem_cons_self)
    have hrest := @Tracks.kept calls _ _ hnext ?_ (by rw [consume_last]; exact htimes.2)
    · rw [List.append_assoc, consume_fixed.1, consume_fixed.2] at hrest
      exact hrest
    · rw [consume_fixed.1, consume_fixed.2]
      intro block hblock
      rcases List.infix_concat_iff.mp hblock with hend | hold
      · obtain rfl | ⟨front, rfl, hfront⟩ := List.suffix_concat_iff.mp hend
        · exact hkept [] List.nil_infix
        · exact hends front hfront
      · exact hkept block hold

theorem new_tracks {rate t₀ : ℚ} {capacity : Option ℚ} (hrate : 0 ≤ rate) (hcapacity : ∀ x ∈ capacity, 0 ≤ x) :
    (new rate capacity t₀).Tracks [(t₀, 0)] := by
  have hc : 0 ≤ capacity.getD rate := by
    cases capacity with
    | none => exact hrate
    | some x => exact hcapacity x rfl
  exact ⟨Level.start t₀, hrate, hc, hc⟩

/-- **Token buckets are exact.** Over calls at nondecreasing times, with the creation
as a call for nothing, every run of consecutive calls is granted at most the
capacity and the rate times its duration, and a call is refused only where some
run that it ends would be granted more. No caller gives a capacity, which is then
the rate. -/
theorem tokenBucket_exact {rate t₀ : ℚ} {capacity : Option ℚ} {calls : List BucketCall} (hrate : 0 ≤ rate)
    (hcapacity : ∀ x ∈ capacity, 0 ≤ x) (htimes : (t₀ :: calls.map BucketCall.time).Pairwise (· ≤ ·)) :
    (∀ block, block <:+: (t₀, 0) :: (new rate capacity t₀).grants calls → Allowance.Kept (capacity.getD rate) rate block) ∧
    ∀ before call rest, calls = before ++ call :: rest →
      (((new rate capacity t₀).after before).consume call.amount call.time).1 = false →
      ∃ block, block <:+ (t₀, 0) :: (new rate capacity t₀).grants before ∧
        ¬ Allowance.Kept (capacity.getD rate) rate (block ++ [(call.time, call.amount)]) := by
  have hnew : (new rate capacity t₀).Tracks [(t₀, 0)] := new_tracks hrate hcapacity
  refine ⟨hnew.kept (fun block hblock => ?_) htimes, ?_⟩
  · have hkept : ∀ front, front <:+ [] → Allowance.Kept (capacity.getD rate) rate (front ++ [(t₀, 0)]) := by
      intro front hfront
      rw [List.suffix_nil.mp hfront, kept_snoc]
      exact hnew.capacity
    rcases List.infix_concat_iff.mp (show block <:+: [] ++ [(t₀, 0)] from hblock) with hend | hold
    · obtain rfl | ⟨front, rfl, hfront⟩ := List.suffix_concat_iff.mp hend
      · exact nofun
      · exact hkept front hfront
    · rw [List.infix_nil.mp hold]
      exact nofun
  · rintro before call rest rfl hrefused
    rw [List.map_append, List.map_cons, ← List.cons_append, List.pairwise_append] at htimes
    have htracks := hnew.after htimes.1
    obtain ⟨block, hblock, hbroken⟩ := htracks.level.lt_iff.mp (consume_refused.mp hrefused)
    rw [(after_fixed _ _).1, (after_fixed _ _).2] at hbroken
    exact ⟨block, hblock, hbroken⟩

/-- A full bucket of two pays for two messages, and not for a third at the same time. -/
theorem tokenBucket_exact_burst :
    (∀ block, block <:+: ((0 : ℚ), (0 : ℚ)) :: (new 2 none 0).grants [⟨2, 1⟩, ⟨1, 1⟩] → Allowance.Kept 2 2 block) ∧
    (((new 2 none 0).after [⟨2, 1⟩]).consume 1 1).1 = false ∧
    ∃ block, block <:+ ((0 : ℚ), (0 : ℚ)) :: (new 2 none 0).grants [⟨2, 1⟩] ∧ ¬ Allowance.Kept 2 2 (block ++ [(1, 1)]) := by
  have hrefused : (((new 2 none 0).after [⟨2, 1⟩]).consume 1 1).1 = false := by decide +kernel
  have h := @tokenBucket_exact 2 0 none [⟨2, 1⟩, ⟨1, 1⟩] (by decide) nofun (by decide +kernel)
  exact ⟨h.1, hrefused, h.2 [⟨2, 1⟩] ⟨1, 1⟩ [] rfl hrefused⟩

end TokenBucket

end ChainBreaker
