import ChainBreaker.BranchReads
import ChainBreaker.RecoveredTip

/-!
# Runs of a store

Calls of the store, completed, given up, or cut by a crash that a recovery
follows, act on the files as moves act on a tape (`call_holds`). So in every run
what is read from the files is what the tape holds: the tip, the blocks and the
chain (`store_reads`), the indexes (`store_indexes`), the snapshots
(`store_snapshots`). A crash leaves the tape from before the call or the one
from after it (`crash_atomic`).
-/

namespace ChainBreaker

open Fallible FileSteps

/-! ## Calls and moves -/

inductive StoreCall where
  | append (block : BlockV2) (previousState : RegistryState)
  /-- an append that raises while it stages, after `n` steps -/
  | abandon (block : BlockV2) (previousState : RegistryState) (n : Nat)
  | switch (height : Nat) (hash : Str)
  | rebuild
  /-- the first `n` steps of `write_snapshot` -/
  | snapshot (height : Nat) (state : RegistryState) (n : Nat)
  /-- a crash after `n` steps of an append, and a recovery -/
  | appendCrash (block : BlockV2) (previousState : RegistryState) (n : Nat)
  | switchCrash (height : Nat) (hash : Str) (n : Nat)

section
variable (M : Runtime) (o : Listing) (C : StoreConfig)

/-- The files after the call. -/
def StoreCall.Performs (files files' : StoreFiles) : StoreCall → Prop
  | .append block previousState => ∃ state, appendBlock M C none files block previousState = (.ok state, files')
  | .abandon block previousState n => files' = (appendBlock M C (some n) files block previousState).2
  | .switch height hash => ∃ r, atomicTipSwitch M C none files height hash = (.ok r, files')
  | .rebuild => ∃ r, rebuildIndexes M C files = (.ok r, files')
  | .snapshot height state n => files' = interrupt n (snapshotSteps M C height state) files
  | .appendCrash block previousState n =>
    ∃ r, recoverStore M o C none (appendBlock M C (some n) files block previousState).2 = (files', .ok r)
  | .switchCrash height hash n =>
    ∃ r, recoverStore M o C none (atomicTipSwitch M C (some n) files height hash).2 = (files', .ok r)

end

section
variable {M : Runtime} {o : Listing} {C : StoreConfig} {files files' : StoreFiles} {t t' : Tape (KeptBlock M)}
  {call : StoreCall}

/-- The callers' part: a switch goes to a block that was written, under its hash,
a snapshot is of the state of its block, and what a recovery is to keep is linked.
An index without entries is not rebuilt by a recovery, so genesis is not its tip. -/
def StoreCall.Allowed (C : StoreConfig) (t : Tape (KeptBlock M)) : StoreCall → Prop
  | .append _ _ | .rebuild => True
  | .abandon _ _ n => n ≤ STAGING
  | .switch height hash => height ≤ t.cells.length ∧ hash = keptHash C t.cells height
  | .snapshot height state _ => ∃ i k, height = i + 1 ∧ t.cells[i]? = some k ∧ state = k.state
  | .appendCrash block _ _ =>
    0 < t.tip ∧ Linked C t.current ∧ canonicalHash block.header.prevHash = keptHash C t.cells t.tip
  | .switchCrash height hash _ => 0 < height ∧ height ≤ t.cells.length ∧ hash = keptHash C t.cells height ∧
      Linked C t.current ∧ Linked C (t.cells.take height)

/-- What becomes of the tape. -/
def StoreCall.Moves (t t' : Tape (KeptBlock M)) : StoreCall → Prop
  | .append block previousState => ∃ k, Appends block previousState t k ∧ t' = t.push k
  | .abandon _ _ _ | .rebuild | .snapshot _ _ _ => t' = t
  | .switch height _ => ∃ h, t' = t.seek height h
  | .appendCrash block previousState _ => t' = t.cut ∨ ∃ k, Appends block previousState t k ∧ t' = (t.push k).cut
  | .switchCrash height _ _ => t' = t.cut ∨ ∃ h, t' = (t.seek height h).cut

theorem linked_push {k : KeptBlock M} (hl : Linked C t.current)
    (hk : canonicalHash k.block.header.prevHash = keptHash C t.cells t.tip) :
    Linked C (t.push k).current := by
  rw [Tape.current_push]
  intro i x hx
  have hlen := t.length_current
  rcases Nat.lt_or_ge i t.tip with hi | hi
  · rw [List.getElem?_append_left (by omega)] at hx
    rw [hl i x hx]
    exact keptHash_congr fun j hj => (List.getElem?_append_left (by omega)).symm
  · rw [List.getElem?_append_right (by omega), List.getElem?_singleton] at hx
    split at hx
    · rename_i hzero
      obtain rfl : k = x := Option.some.inj hx
      obtain rfl : i = t.tip := by omega
      rw [hk]
      exact keptHash_congr fun j hj => by rw [List.getElem?_append_left (by omega), Tape.getElem?_current hj]
    · cases hx

/-- At genesis, no index is there. -/
theorem Holds.no_index (h : Holds M C files t) (hzero : t.tip = 0) :
    files.lookup .heightToHash = none ∧ files.lookup .hashToHeight = none := by
  have hnil : t.current = [] := List.length_eq_zero_iff.mp (t.length_current.trans hzero)
  rw [h.heightToHash, h.hashToHeight, hnil]
  exact ⟨rfl, rfl⟩

/-- **One call.** -/
theorem call_holds (hfl : FloatText M.floatRepr) (hC : C.Readable) (h : Holds M C files t) (hallowed : call.Allowed C t)
    (hcall : call.Performs M o C files files') : ∃ t', call.Moves t t' ∧ Holds M C files' t' := by
  cases call with
  | append block previousState =>
    obtain ⟨state, hrun⟩ := hcall
    obtain ⟨k, hk, -, hpushed⟩ := append_holds hC h hrun
    exact ⟨_, ⟨k, hk, rfl⟩, hpushed⟩
  | abandon block previousState n =>
    obtain rfl := hcall
    exact ⟨t, rfl, append_abandoned previousState hallowed h⟩
  | switch height hash =>
    obtain ⟨r, hrun⟩ := hcall
    obtain ⟨hheight, rfl⟩ := hallowed
    exact ⟨_, ⟨hheight, rfl⟩, (switch_holds hfl hC hheight h hrun).2⟩
  | rebuild =>
    obtain ⟨r, hrun⟩ := hcall
    rw [h.toBelow.rebuild hfl] at hrun
    obtain ⟨-, rfl⟩ := Prod.mk.inj hrun
    exact ⟨t, rfl, h.toBelow.reindexed h.above⟩
  | snapshot height state n =>
    obtain ⟨i, k, rfl, hk, rfl⟩ := hallowed
    obtain rfl := hcall
    exact ⟨t, rfl, snapshot_holds hk n h⟩
  | appendCrash block previousState n =>
    obtain ⟨hpos, hl, hprev⟩ := hallowed
    obtain ⟨r, hrun⟩ := hcall
    rcases append_cut hC previousState n h with hbelow | ⟨k, hk, hpushed⟩
    · exact ⟨_, .inl rfl, recovered_holds hfl hbelow hl (fun hzero => absurd hpos (by omega)) hrun⟩
    · refine ⟨_, .inr ⟨k, hk, rfl⟩, recovered_holds hfl hpushed.toBelow (linked_push hl ?_) (fun hzero => ?_) hrun⟩
      · rw [hk.1, hprev]
      · cases hzero
  | switchCrash height hash n =>
    obtain ⟨hpos, hheight, rfl, hl, hl'⟩ := hallowed
    obtain ⟨r, hrun⟩ := hcall
    rcases switch_cut hC hheight n h with hkept | hbelow
    · exact ⟨_, .inl rfl, recovered_holds hfl hkept.toBelow hl hkept.no_index hrun⟩
    · exact ⟨_, .inr ⟨hheight, rfl⟩, recovered_holds hfl hbelow hl' (fun hzero => absurd hpos (by
        rw [Tape.tip_seek] at hzero
        omega)) hrun⟩

theorem Appends.unique {block : BlockV2} {previousState : RegistryState} {k k' : KeptBlock M}
    (h : Appends block previousState t k) (h' : Appends block previousState t k') : k = k' :=
  KeptBlock.eq_of (h.1.trans h'.1.symm) (Except.ok.inj (h.2.symm.trans h'.2))

/-- The tip tells what a call has done. -/
theorem moves_unique {t₁ t₂ : Tape (KeptBlock M)} (h₁ : call.Moves t t₁) (h₂ : call.Moves t t₂)
    (htip : t₁.tip = t₂.tip) :
    t₁ = t₂ := by
  cases call with
  | append block previousState =>
    obtain ⟨k, hk, rfl⟩ := h₁
    obtain ⟨k', hk', rfl⟩ := h₂
    rw [hk.unique hk']
  | switch height hash =>
    obtain ⟨_, rfl⟩ := h₁
    obtain ⟨_, rfl⟩ := h₂
    rfl
  | appendCrash block previousState n =>
    rcases h₁ with rfl | ⟨k, hk, rfl⟩ <;> rcases h₂ with rfl | ⟨k', hk', rfl⟩
    · rfl
    · exact absurd htip (by simp)
    · exact absurd htip (by simp)
    · rw [hk.unique hk']
  | switchCrash height hash n =>
    have hsame : ∀ h : height ≤ t.cells.length, t.tip = height → t.cut = (t.seek height h).cut := fun h heq =>
      Tape.ext (by rw [Tape.cells_cut, Tape.cells_cut, Tape.current_seek, ← heq, Tape.current]) heq
    rcases h₁ with rfl | ⟨h, rfl⟩ <;> rcases h₂ with rfl | ⟨h', rfl⟩
    · rfl
    · exact hsame h' htip
    · exact (hsame h htip.symm).symm
    · rfl
  | abandon block previousState n => exact h₁.trans h₂.symm
  | rebuild => exact h₁.trans h₂.symm
  | snapshot height state n => exact h₁.trans h₂.symm

/-! ## Runs -/

/-- What calls make of an empty store, and of an empty tape. Which of its moves a
crashed call has made is read from HEAD. -/
inductive StoreRun (M : Runtime) (o : Listing) (C : StoreConfig) : StoreFiles → Tape (KeptBlock M) → Prop where
  | empty : StoreRun M o C ∅ .empty
  | call {files files' : StoreFiles} {t t' : Tape (KeptBlock M)} {call : StoreCall} : StoreRun M o C files t →
      call.Allowed C t → call.Performs M o C files files' → call.Moves t t' →
      (∃ head, getTip C files' = .ok head ∧ head.height = t'.tip) → StoreRun M o C files' t'

theorem StoreRun.holds (hfl : FloatText M.floatRepr) (hC : C.Readable) (hrun : StoreRun M o C files t) :
    Holds M C files t := by
  induction hrun with
  | empty => exact holds_empty
  | call _ hallowed hcall hmoves htip ih =>
    obtain ⟨t', hmoves', hholds⟩ := call_holds hfl hC ih hallowed hcall
    obtain ⟨head, hhead, hheight⟩ := htip
    rw [hholds.head] at hhead
    cases hhead
    obtain rfl := moves_unique hmoves hmoves' (Int.ofNat.inj hheight).symm
    exact hholds

/-- Every allowed call that is performed takes a run on. -/
theorem StoreRun.goes_on (hfl : FloatText M.floatRepr) (hC : C.Readable) (hrun : StoreRun M o C files t)
    (hallowed : call.Allowed C t) (hcall : call.Performs M o C files files') :
    ∃ t', call.Moves t t' ∧ StoreRun M o C files' t' := by
  obtain ⟨t', hmoves, hholds⟩ := call_holds hfl hC (hrun.holds hfl hC) hallowed hcall
  exact ⟨t', hmoves, .call hrun hallowed hcall hmoves ⟨_, hholds.head, rfl⟩⟩

/-! ## What a run has stored -/

/-- The state of a registry with one governance key. -/
def oneKeyState : RegistryState := ⟨[], 1, [], [zeroHash], 1⟩

theorem oneKeyState_regular : oneKeyState.Regular where
  version := rfl
  keys _ hk := List.mem_singleton.mp hk ▸ ⟨List.replicate 32 0, by rw [zeroHash_eq, fromHex_toHex], rfl⟩
  records := nofun
  sorted := rfl

set_option maxRecDepth 100000 in
theorem firstAppend :
    okAnd (fun _ => true) (appendBlock plainRuntime plainConfig none ∅ firstBlock oneKeyState).1 = true := by
  decide +kernel

theorem plainConfig_readable : plainConfig.Readable := ⟨by decide, by decide⟩

/-- A run of one append. -/
theorem firstAppend_run : ∃ (files : StoreFiles) (k : KeptBlock plainRuntime),
    StoreRun plainRuntime plainListing plainConfig files (Tape.empty.push k) ∧ k.block = firstBlock ∧
    k.state = oneKeyState := by
  obtain ⟨state, hstate, -⟩ := of_okAnd firstAppend
  generalize hanswer : appendBlock plainRuntime plainConfig none ∅ firstBlock oneKeyState = answer at hstate
  obtain ⟨result, files⟩ := answer
  cases hstate
  have hcall : (StoreCall.append firstBlock oneKeyState).Performs plainRuntime plainListing plainConfig ∅ files :=
    ⟨state, hanswer⟩
  obtain ⟨t', ⟨k, hk, rfl⟩, hrun⟩ := StoreRun.empty.goes_on plainRuntime_floatText plainConfig_readable
    (show (StoreCall.append firstBlock oneKeyState).Allowed plainConfig .empty from trivial) hcall
  obtain ⟨ctx, -, hderived⟩ := bind_eq_ok.mp hk.2
  exact ⟨_, k, hrun, hk.1, (Except.ok.inj hderived).symm⟩

end

end ChainBreaker
