import ChainBreaker.RegistryStep

/-!
# What a run of the registry keeps of its keys

A curator's records are the only memory of its keys. For each promise about
that memory this module says exactly on which runs it is kept: the frame of
the genesis state until the first revocation, the end of a curator by
revocation until the next rotation, the validity of keys at past heights under
`historySafe` steps, and the agreement of the two lookups at settled heights.
-/

namespace ChainBreaker

open Fallible

/-! ## Lookups over a list of records -/

theorem isActiveAt_iff {r : CuratorRecord} {j : Nat} :
    r.isActiveAt j = true ↔ r.activationHeight ≤ j ∧ ∀ R, r.revocationHeight = some R → j < R := by
  unfold CuratorRecord.isActiveAt
  cases r.revocationHeight <;> simp

theorem vouches_iff {r : CuratorRecord} {k : Str} {j : Nat} :
    r.vouches k j = true ↔
      (r.publicKeyHex = k ∧ r.activationHeight ≤ j ∧ ∀ R, r.revocationHeight = some R → j < R) ∨
        (r.previousKeyHex = some k ∧ j < r.activationHeight) := by
  simp [CuratorRecord.vouches, isActiveAt_iff]

theorem keyWasValidAt_iff {s : RegistryState} {c k : Str} {j : Nat} :
    s.keyWasValidAt c k j = true ↔ ∃ r ∈ s.recordsOf c, r.vouches k j = true := by
  simp [RegistryState.keyWasValidAt]

theorem keyWasValidAt_congr {s s' : RegistryState} {c : Str} (h : s'.recordsOf c = s.recordsOf c) (k : Str)
    (j : Nat) : s'.keyWasValidAt c k j = s.keyWasValidAt c k j := by
  unfold RegistryState.keyWasValidAt; rw [h]

theorem byId_one {s : RegistryState} {c : Str} {r : CuratorRecord} (h : s.recordsOf c = [r]) :
    s.byId c = some r := by
  simp [RegistryState.byId, h]

/-- Of a replaced record and its successor, the later activation wins, and the
replaced record a tie. -/
theorem byId_two {s : RegistryState} {c : Str} {x n : CuratorRecord} (h : s.recordsOf c = [x, n]) :
    s.byId c = some (if x.activationHeight < n.activationHeight then n else x) := by
  simp only [RegistryState.byId, h]
  simp [List.argmax, List.argAux]
  split <;> rfl

/-! ## The frame of the state -/

def GovernanceTx.isRevoke : GovernanceTx → Bool
  | .revoke _ => true
  | _ => false

theorem frame_step {s s' : RegistryState} {height : Nat} {txid : Str} {tx : GovernanceTx}
    (ha : Accepted s height txid s' tx) :
    s'.frame = if tx.isRevoke then (GOVERNANCE_SCHEMA_VERSION, NETWORK_ID, [], 0) else s.frame := by
  cases ha with
  | register _ _ _ _ _ hf => exact hf
  | rotate _ _ _ _ _ _ _ hf => exact hf
  | revoke _ _ _ _ _ _ _ _ hf => exact hf

section
variable (E : Primitives) {ctx : GovernanceContext} {g s : RegistryState} {calls : List RegistryCall}

/-- **Frame.** Every state of a run has the fields of the genesis state exactly
when the run revokes nobody. -/
theorem registry_frame_iff (hg : IsGenesisState g) (h : run (registryStep E ctx) g calls = .ok s) :
    (∀ pre t, pre <+: calls → run (registryStep E ctx) g pre = .ok t → t.frame = g.frame) ↔
      ∀ call ∈ calls, call.tx.isRevoke = false := by
  constructor
  · intro hall call hc
    obtain ⟨pre, post, rfl⟩ := List.append_of_mem hc
    have hp : pre ++ [call] <+: pre ++ call :: post := ⟨post, by simp⟩
    obtain ⟨t, ht⟩ := run_prefix _ h hp
    obtain ⟨u, -, hu⟩ := (run_snoc_ok _).mp ht
    have hf := hall _ t hp ht
    rw [frame_step (applyRegistryTransaction_ok E hu)] at hf
    cases hr : call.tx.isRevoke with
    | false => rfl
    | true =>
      -- the defaults hold no key, and the genesis state holds one
      rw [hr] at hf
      exact absurd (congrArg (fun f => f.2.2.1) hf).symm hg.keys_ne
  · intro hno pre t hp ht
    refine run_inv (I := fun u => u.frame = g.frame) (registryStep E ctx) ?_ rfl ht
    intro call hc u u' hu hstep
    rw [frame_step (applyRegistryTransaction_ok E hstep), hno call (hp.subset hc)]
    exact hu

end

theorem registry_frame_aliceRotation : aliceRotated.frame = aliceGenesis.frame :=
  (registry_frame_iff alicePrimitives aliceGenesis_isGenesisState aliceRotation_run).mpr (by decide)
    _ _ (List.prefix_refl _) aliceRotation_run

/-- The revocation of the run leaves a state without governance keys. -/
theorem registry_frame_lost : ¬ ∀ (E : Primitives) (ctx : GovernanceContext) (g s : RegistryState)
    (calls : List RegistryCall), IsGenesisState g → run (registryStep E ctx) g calls = .ok s →
      s.frame = g.frame := by
  intro h
  have hf := h _ _ _ _ _ aliceGenesis_isGenesisState aliceCalls_run
  exact absurd hf (by decide)

/-! ## Revocation -/

def GovernanceTx.rotates (c : Str) : GovernanceTx → Bool
  | .rotate tx => tx.curatorId == c
  | _ => false

/-- One record is left of `c`, closed at `R`. -/
def RegistryState.Ended (s : RegistryState) (c : Str) (R : Nat) : Prop :=
  ∃ r, s.recordsOf c = [r] ∧ r.revocationHeight = some R ∧ r.activationHeight ≤ R

theorem ended_step {s s' : RegistryState} {height : Nat} {txid : Str} {tx : GovernanceTx} {c : Str} {R : Nat}
    (ha : Accepted s height txid s' tx) (hrot : tx.rotates c = false) (h : s.Ended c R) : s'.Ended c R := by
  obtain ⟨r, hr, hrev, hact⟩ := h
  have keep : ∀ {d new}, s.Rewrote s' d new → c ≠ d → s'.Ended c R := fun hw hne =>
    ⟨r, by rw [hw c, if_neg hne, hr], hrev, hact⟩
  cases ha with
  | register tx _ hnil _ hw _ =>
    refine keep hw fun e => ?_
    rw [← e, hr] at hnil; cases hnil
  | rotate tx old _ _ _ _ hw _ =>
    refine keep hw fun e => ?_
    simp [GovernanceTx.rotates, e] at hrot
  | revoke tx old _ hid _ hnone _ hw _ =>
    refine keep hw fun e => ?_
    rw [← e, byId_one hr, Option.some.injEq] at hid
    rw [← hid, hrev] at hnone; cases hnone

theorem ended_lookups {s : RegistryState} {c : Str} {R j : Nat} (h : s.Ended c R) (hj : R ≤ j) :
    (∀ k, s.keyWasValidAt c k j = false) ∧ s.activeKeyAt c j = none := by
  obtain ⟨r, hr, hrev, hact⟩ := h
  have hin : r.isActiveAt j = false := by
    rw [Bool.eq_false_iff, Ne, isActiveAt_iff]
    intro ⟨_, hb⟩
    have := hb R hrev; omega
  constructor
  · intro k
    rw [Bool.eq_false_iff, Ne, keyWasValidAt_iff]
    rintro ⟨r', hr', hv⟩
    rw [hr, List.mem_singleton] at hr'; subst hr'
    rcases vouches_iff.mp hv with ⟨_, hv⟩ | ⟨_, hv⟩
    · exact absurd (isActiveAt_iff.mpr hv) (by simp [hin])
    · omega
  · simp [RegistryState.activeKeyAt, byId_one hr, hin]

section
variable (E : Primitives) {ctx : GovernanceContext} {s s₁ s₂ : RegistryState} {later : List RegistryCall}

/-- **Revocation.** After an accepted revocation no key of the curator is valid
from the revocation height on, in any later state, exactly when no later
transaction rotates the curator. -/
theorem revocation_final_iff {tx : CuratorRevokeTx} {height : Nat} {txid : Str}
    (hrev : registryStep E ctx s ⟨.revoke tx, height, txid⟩ = .ok s₁)
    (h : run (registryStep E ctx) s₁ later = .ok s₂) :
    (∀ pre t, pre <+: later → run (registryStep E ctx) s₁ pre = .ok t →
      ∀ j, tx.revocationHeight ≤ j →
        (∀ k, t.keyWasValidAt tx.curatorId k j = false) ∧ t.activeKeyAt tx.curatorId j = none) ↔
      ∀ call ∈ later, call.tx.rotates tx.curatorId = false := by
  constructor
  · intro hall call hc
    obtain ⟨pre, post, rfl⟩ := List.append_of_mem hc
    have hp : pre ++ [call] <+: pre ++ call :: post := ⟨post, by simp⟩
    obtain ⟨t, ht⟩ := run_prefix _ h hp
    obtain ⟨u, -, hu⟩ := (run_snoc_ok _).mp ht
    have ha := applyRegistryTransaction_ok E hu
    cases hcall : call.tx with
    | register _ => rfl
    | revoke _ => rfl
    | rotate rtx =>
      rw [hcall] at ha
      cases ha with
      | rotate _ old _ _ _ _ hw _ =>
        simp only [GovernanceTx.rotates, beq_eq_false_iff_ne]
        intro he
        -- the new key has no end, so it is valid past both heights
        have hj := (hall _ t hp ht (max tx.revocationHeight rtx.activationHeight) (le_max_left _ _)).1
          rtx.newPublicKeyHex
        refine Bool.eq_false_iff.mp hj (keyWasValidAt_iff.mpr ⟨rtx.record old call.txid, ?_, ?_⟩)
        · rw [hw, if_pos he.symm]; simp
        · exact vouches_iff.mpr (.inl ⟨rfl, le_max_right _ _, fun _ h => by cases h⟩)
  · intro hno pre t hp ht j hj
    refine ended_lookups ?_ hj
    refine run_inv (I := fun u => u.Ended tx.curatorId tx.revocationHeight) (registryStep E ctx) ?_ ?_ ht
    · exact fun call hc u u' hu hstep =>
        ended_step (applyRegistryTransaction_ok E hstep) (hno call (hp.subset hc)) hu
    · cases applyRegistryTransaction_ok E hrev with
      | revoke _ old _ _ _ _ hle hw _ =>
        exact ⟨old.closedAt tx.revocationHeight txid, by rw [hw, if_pos rfl], rfl, hle⟩

end

theorem revocation_final_aliceRevived : ¬ ∀ pre t,
    pre <+: [⟨.rotate rotateAliceAgain, 4, rotateAliceAgainTxid⟩] →
      run (registryStep alicePrimitives aliceContext) aliceRevoked pre = .ok t →
      ∀ j, 30 ≤ j →
        (∀ k, t.keyWasValidAt (str "alice") k j = false) ∧ t.activeKeyAt (str "alice") j = none := by
  intro h
  have hr := (run_cons_ok _).mpr ⟨_, aliceRevived_step, run_nil _ _⟩
  have hrot := (revocation_final_iff alicePrimitives aliceRevoked_step hr).mp h _ (.head _)
  exact absurd hrot (by decide)

/-- The run's last rotation gives the revoked curator a key. -/
theorem revocation_undone : ¬ ∀ (E : Primitives) (ctx : GovernanceContext) (g s s₁ s₂ : RegistryState)
    (calls later : List RegistryCall) (tx : CuratorRevokeTx) (height : Nat) (txid : Str), IsGenesisState g →
      run (registryStep E ctx) g calls = .ok s →
      registryStep E ctx s ⟨.revoke tx, height, txid⟩ = .ok s₁ → run (registryStep E ctx) s₁ later = .ok s₂ →
      ∀ j, tx.revocationHeight ≤ j →
        (∀ k, s₂.keyWasValidAt tx.curatorId k j = false) ∧ s₂.activeKeyAt tx.curatorId j = none := by
  intro h
  have hk := (h _ _ _ _ _ _ _ _ _ _ _ aliceGenesis_isGenesisState aliceRotation_run aliceRevoked_step
    ((run_cons_ok _).mpr ⟨_, aliceRevived_step, run_nil _ _⟩) 40 (by decide)).1 aliceKey₃
  exact absurd hk (by decide)

/-! ## The validity of keys at past heights -/

/-- The records of the call's curator let the call leave past validity alone. A
rotation does so only where both records of the curator still lie ahead and the
record it drops answers like the one it keeps; a revocation does so unless it
drops a record that replaced a key itself. -/
def RegistryState.historySafe (s : RegistryState) (call : RegistryCall) : Bool :=
  match call.tx with
  | .register _ => true
  | .rotate tx =>
    match s.recordsOf tx.curatorId with
    | [x, n] =>
      decide (call.blockHeight < x.activationHeight) && decide (call.blockHeight < n.activationHeight) &&
        (decide (n.activationHeight ≤ x.activationHeight) || x.previousKeyHex == some n.publicKeyHex)
    | _ => false
  | .revoke tx =>
    match s.recordsOf tx.curatorId with
    | [x, _] => x.previousKeyHex.isNone
    | _ => true

/-- `new` vouches for the same keys as `old` up to `h`. -/
def SameUpTo (h : Nat) (new old : List CuratorRecord) : Prop :=
  ∀ k j, j ≤ h → ((∃ r ∈ new, r.vouches k j = true) ↔ ∃ r ∈ old, r.vouches k j = true)

theorem kept_iff_sameUpTo {s s' : RegistryState} {d : Str} {new : List CuratorRecord} {h : Nat}
    (hw : s.Rewrote s' d new) :
    (∀ c k j, j ≤ h → s'.keyWasValidAt c k j = s.keyWasValidAt c k j) ↔ SameUpTo h new (s.recordsOf d) := by
  constructor
  · intro hk k j hj
    have := hk d k j hj
    rw [Bool.eq_iff_iff, keyWasValidAt_iff, keyWasValidAt_iff, hw d, if_pos rfl] at this
    exact this
  · intro hs c k j hj
    by_cases hc : c = d
    · subst hc
      rw [Bool.eq_iff_iff, keyWasValidAt_iff, keyWasValidAt_iff, hw c, if_pos rfl]
      exact hs k j hj
    · exact keyWasValidAt_congr (by rw [hw c, if_neg hc]) k j

theorem vouches_closedAt_iff {r : CuratorRecord} {k txid : Str} {R j : Nat} (hj : j < R) :
    (r.closedAt R txid).vouches k j = true ↔
      (r.publicKeyHex = k ∧ r.activationHeight ≤ j) ∨ (r.previousKeyHex = some k ∧ j < r.activationHeight) := by
  rw [vouches_iff]
  simp [CuratorRecord.closedAt, hj]

/-- Before its activation a rotated-in record vouches for the replaced key. -/
theorem vouches_record_iff {tx : CuratorRotateTx} {old : CuratorRecord} {k txid : Str} {j : Nat}
    (hj : j < tx.activationHeight) : (tx.record old txid).vouches k j = true ↔ old.publicKeyHex = k := by
  rw [vouches_iff]
  simp [CuratorRotateTx.record, hj, Nat.not_le.mpr hj]

theorem sameUpTo_register {tx : CuratorRegisterTx} {txid : Str} {h : Nat} (hact : h < tx.activationHeight) :
    SameUpTo h [tx.record txid] [] := by
  intro k j hj
  have hlt : ¬ tx.activationHeight ≤ j := by omega
  simp [vouches_iff, CuratorRegisterTx.record, hlt]

/-- What the two records after a rotation vouch for up to the rotation's block. -/
theorem rotated_vouch_iff {tx : CuratorRotateTx} {old : CuratorRecord} {k txid : Str} {j : Nat}
    (hj : j < tx.activationHeight) :
    (∃ r ∈ [old.closedAt tx.activationHeight txid, tx.record old txid], r.vouches k j = true) ↔
      old.publicKeyHex = k ∨ (old.previousKeyHex = some k ∧ j < old.activationHeight) := by
  simp only [List.mem_cons, List.not_mem_nil, or_false, exists_eq_or_imp, exists_eq_left,
    vouches_closedAt_iff hj, vouches_record_iff hj]
  tauto

/-- What a replaced record and its successor vouch for. -/
theorem succeeds_vouch_iff {x n : CuratorRecord} (hs : Succeeds x n) {k : Str} {j : Nat} :
    (∃ r ∈ [x, n], r.vouches k j = true) ↔
      (x.publicKeyHex = k ∧ j < n.activationHeight) ∨ (x.previousKeyHex = some k ∧ j < x.activationHeight) ∨
        (n.publicKeyHex = k ∧ n.activationHeight ≤ j) := by
  simp only [List.mem_cons, List.not_mem_nil, or_false, exists_eq_or_imp, exists_eq_left, vouches_iff,
    hs.closed, hs.opened, hs.previous, Option.some.injEq, forall_eq', reduceCtorEq, IsEmpty.forall_iff,
    implies_true, and_true]
  tauto

section
variable {tx : CuratorRotateTx} {txid : Str} {h : Nat}

/-- The key of a curator's only record becomes valid before its activation. -/
theorem not_sameUpTo_rotate_one {r : CuratorRecord} (hr : r.Sound) (hact : h < tx.activationHeight) :
    ¬ SameUpTo h [r.closedAt tx.activationHeight txid, tx.record r txid] [r] := by
  intro hs
  have h0 := (hs r.publicKeyHex 0 (Nat.zero_le h)).mp
    ((rotated_vouch_iff (Nat.zero_lt_of_lt hact)).mpr (.inl rfl))
  simp only [List.mem_singleton, exists_eq_left, vouches_iff] at h0
  rcases h0 with ⟨-, hle, -⟩ | ⟨hp, -⟩
  · exact absurd hr.1 (by omega)
  · exact hr.2 hp

theorem sameUpTo_rotate_successor {x n : CuratorRecord} (hn : n.Sound) (hs : Succeeds x n)
    (hact : h < tx.activationHeight) (hlt : x.activationHeight < n.activationHeight) :
    SameUpTo h [n.closedAt tx.activationHeight txid, tx.record n txid] [x, n] ↔
      h < x.activationHeight ∧ x.previousKeyHex = some n.publicKeyHex := by
  have hfresh := Ne.symm hs.fresh
  constructor
  · intro hsame
    -- the successor's key is now valid at every past height, and was so only as the key `x` replaced
    have key : ∀ j, j ≤ h → j < n.activationHeight →
        x.previousKeyHex = some n.publicKeyHex ∧ j < x.activationHeight := by
      intro j hj hjn
      have hv := (hsame n.publicKeyHex j hj).mp ((rotated_vouch_iff (by omega)).mpr (.inl rfl))
      rcases (succeeds_vouch_iff hs).mp hv with ⟨he, -⟩ | hp | ⟨-, hle⟩
      · exact absurd he hfresh
      · exact hp
      · omega
    refine ⟨?_, (key 0 (Nat.zero_le h) hn.1).1⟩
    by_contra hx
    have := (key x.activationHeight (by omega) hlt).2
    omega
  · rintro ⟨hx, hp⟩ k j hj
    rw [rotated_vouch_iff (by omega), succeeds_vouch_iff hs, hs.previous, hp, Option.some.injEq,
      Option.some.injEq]
    have h₁ : j < n.activationHeight := by omega
    have h₂ : j < x.activationHeight := by omega
    simp only [h₁, h₂, and_true, Nat.not_le.mpr h₁, and_false, or_false]
    exact or_comm

theorem sameUpTo_rotate_replaced {x n : CuratorRecord} (hx : x.Sound) (hs : Succeeds x n)
    (hact : h < tx.activationHeight) :
    SameUpTo h [x.closedAt tx.activationHeight txid, tx.record x txid] [x, n] ↔ h < n.activationHeight := by
  constructor
  · intro hsame
    have hv := (hsame x.publicKeyHex h le_rfl).mp ((rotated_vouch_iff hact).mpr (.inl rfl))
    rcases (succeeds_vouch_iff hs).mp hv with ⟨-, hlt⟩ | ⟨hp, -⟩ | ⟨he, -⟩
    · exact hlt
    · exact absurd hp hx.2
    · exact absurd he hs.fresh
  · intro hn k j hj
    rw [rotated_vouch_iff (by omega), succeeds_vouch_iff hs]
    have h₁ : j < n.activationHeight := by omega
    simp [h₁, Nat.not_le.mpr h₁]

end

theorem sameUpTo_revoke_one {r : CuratorRecord} {txid : Str} {h R : Nat} (hnone : r.revocationHeight = none)
    (hR : h < R) : SameUpTo h [r.closedAt R txid] [r] := by
  intro k j hj
  simp only [List.mem_singleton, exists_eq_left]
  rw [vouches_closedAt_iff (by omega), vouches_iff, hnone]
  simp

theorem sameUpTo_revoke_successor {x n : CuratorRecord} (hx : x.Sound) (hn : n.Sound) (hs : Succeeds x n)
    {txid : Str} {h R : Nat} (hR : h < R) :
    SameUpTo h [n.closedAt R txid] [x, n] ↔ x.previousKeyHex = none := by
  have left : ∀ {k j}, j ≤ h → ((∃ r ∈ [n.closedAt R txid], r.vouches k j = true) ↔
      (n.publicKeyHex = k ∧ n.activationHeight ≤ j) ∨ (x.publicKeyHex = k ∧ j < n.activationHeight)) := by
    intro k j hj
    simp only [List.mem_singleton, exists_eq_left]
    rw [vouches_closedAt_iff (by omega), hs.previous, Option.some.injEq]
  constructor
  · intro hsame
    by_contra hne
    obtain ⟨p, hp⟩ := Option.ne_none_iff_exists'.mp hne
    -- the key `x` replaced was valid at height zero and is forgotten with `x`
    have hv := (hsame p 0 (Nat.zero_le h)).mpr ((succeeds_vouch_iff hs).mpr (.inr (.inl ⟨hp, hx.1⟩)))
    rcases (left (Nat.zero_le h)).mp hv with ⟨-, hle⟩ | ⟨he, -⟩
    · exact absurd hn.1 (by omega)
    · exact hx.2 (by rw [hp, he])
  · intro hp k j hj
    rw [left hj, succeeds_vouch_iff hs, hp]
    simp [or_comm]

theorem historySafe_step {s s' : RegistryState} {call : RegistryCall} (hs : Shaped s)
    (ha : Accepted s call.blockHeight call.txid s' call.tx) :
    (∀ c k j, j ≤ call.blockHeight → s'.keyWasValidAt c k j = s.keyWasValidAt c k j) ↔
      s.historySafe call = true := by
  obtain ⟨tx, height, txid⟩ := call
  unfold RegistryState.historySafe
  cases ha with
  | register tx hact hnil _ hw _ =>
    rw [kept_iff_sameUpTo hw, hnil]
    exact iff_of_true (sameUpTo_register hact) rfl
  | rotate tx old hact hid _ _ hw _ =>
    rw [kept_iff_sameUpTo hw]
    have hshape := hs tx.curatorId
    generalize hl : s.recordsOf tx.curatorId = l at hshape
    cases hshape with
    | none => simp [RegistryState.byId, hl] at hid
    | one r hr =>
      rw [byId_one hl, Option.some.injEq] at hid; subst hid
      simpa [hl] using not_sameUpTo_rotate_one hr hact
    | two x n hx hn hxn =>
      rw [byId_two hl, Option.some.injEq] at hid
      split at hid
      · rename_i hlt
        subst hid
        rw [sameUpTo_rotate_successor hn hxn hact hlt]
        simp [hl, Nat.not_le.mpr hlt]
        omega
      · rename_i hge
        subst hid
        rw [sameUpTo_rotate_replaced hx hxn hact]
        simp [hl, Nat.not_lt.mp hge]
        omega
  | revoke tx old hact hid _ hnone _ hw _ =>
    rw [kept_iff_sameUpTo hw]
    have hshape := hs tx.curatorId
    generalize hl : s.recordsOf tx.curatorId = l at hshape
    cases hshape with
    | none => simp [RegistryState.byId, hl] at hid
    | one r hr =>
      rw [byId_one hl, Option.some.injEq] at hid; subst hid
      simpa [hl] using sameUpTo_revoke_one hnone hact
    | two x n hx hn hxn =>
      rw [byId_two hl, Option.some.injEq] at hid
      split at hid
      · subst hid
        rw [sameUpTo_revoke_successor hx hn hxn hact]
        simp [hl]
      · subst hid
        rw [hxn.closed] at hnone; cases hnone

section
variable (E : Primitives) {ctx : GovernanceContext} {g s : RegistryState} {calls : List RegistryCall}

/-- **History.** No part of a run changes the validity of a key at a height its
blocks had reached, exactly when each of its calls leaves the past alone. -/
theorem history_preserved_iff (hg : IsGenesisState g) :
    (∀ pre later t t', pre ++ later <+: calls → run (registryStep E ctx) g pre = .ok t →
      run (registryStep E ctx) t later = .ok t' →
      ∀ c k j, (∀ call ∈ later, j ≤ call.blockHeight) → t'.keyWasValidAt c k j = t.keyWasValidAt c k j) ↔
      EachStep (registryStep E ctx) g calls fun t call _ => t.historySafe call = true := by
  have step_iff : ∀ {pre call t t'}, run (registryStep E ctx) g pre = .ok t →
      registryStep E ctx t call = .ok t' →
      ((∀ c k j, j ≤ call.blockHeight → t'.keyWasValidAt c k j = t.keyWasValidAt c k j) ↔
        t.historySafe call = true) := fun hr ht =>
    historySafe_step (shaped_run E hg hr) (applyRegistryTransaction_ok E ht)
  constructor
  · intro hk pre call post t t' hl hr ht
    refine (step_iff hr ht).mp fun c k j hj => ?_
    refine hk pre [call] t t' ⟨post, by simp [hl]⟩ hr ((run_cons_ok _).mpr ⟨t', ht, rfl⟩) c k j ?_
    intro call' hm
    rw [List.mem_singleton] at hm; exact hm ▸ hj
  · intro hsafe pre later
    induction later generalizing pre with
    | nil => intro t t' _ _ hl c k j _; cases hl; rfl
    | cons call later ih =>
      intro t t' hp hr hl c k j hj
      obtain ⟨u, hu, hl⟩ := (run_cons_ok _).mp hl
      have hcalls := hp
      obtain ⟨post, hpost⟩ := hcalls
      have hu' : run (registryStep E ctx) g (pre ++ [call]) = .ok u := (run_snoc_ok _).mpr ⟨t, hr, hu⟩
      have hstep := hsafe pre call (later ++ post) t u (by simp [← hpost]) hr hu
      rw [ih (pre ++ [call]) u t' (by simpa using hp) hu' hl c k j fun a ha => hj a (.tail _ ha)]
      exact (step_iff hr hu).mpr hstep c k j (hj call (.head _))

end

theorem history_preserved_aliceRegistered :
    aliceRegistered.keyWasValidAt (str "alice") aliceKey₁ 1 = aliceGenesis.keyWasValidAt (str "alice") aliceKey₁ 1 := by
  have hrun := (run_cons_ok _).mpr ⟨_, aliceRegistered_step, run_nil _ _⟩
  refine (history_preserved_iff alicePrimitives aliceGenesis_isGenesisState).mpr ?_
    [] _ _ _ (List.prefix_refl _) (run_nil _ _) hrun _ _ 1 (List.forall_mem_singleton.mpr (by decide))
  intro pre call post t t' hl _ _
  have hc : call ∈ [(⟨.register registerAlice, 1, registerAliceTxid⟩ : RegistryCall)] := by
    rw [← List.nil_append [_], hl]; simp
  rw [List.mem_singleton] at hc
  subst hc; rfl

/-- The rotation in block 2 makes the first key valid at height 2, before its
activation at 10. -/
theorem history_rewritten : ¬ ∀ (E : Primitives) (ctx : GovernanceContext) (g s s' : RegistryState)
    (calls : List RegistryCall) (call : RegistryCall), IsGenesisState g →
      run (registryStep E ctx) g calls = .ok s → registryStep E ctx s call = .ok s' →
      ∀ c k j, j ≤ call.blockHeight → s'.keyWasValidAt c k j = s.keyWasValidAt c k j := by
  intro h
  have hk := h _ _ _ _ _ _ _ aliceGenesis_isGenesisState
    ((run_cons_ok _).mpr ⟨_, aliceRegistered_step, run_nil _ _⟩) aliceRotated_step
    (str "alice") aliceKey₁ 2 (by decide)
  exact absurd hk (by decide)

/-! ## The key in force -/

/-- At most one key of `c` is valid at `j`, and the two lookups name the same one. -/
def RegistryState.LookupsAgree (s : RegistryState) (c : Str) (j : Nat) : Prop :=
  (∀ k k', s.keyWasValidAt c k j = true → s.keyWasValidAt c k' j = true → k = k') ∧
    (∀ k, s.activeKeyAt c j = some k ↔ s.keyWasValidAt c k j = true) ∧
    (s.activeKeyAt c j = none ↔ ∀ k, s.keyWasValidAt c k j = false)

/-- No record of `c` still answers for a key it replaced: a successor took over
after the activation of the record it replaced, and by `j`. -/
def RegistryState.settledAt (s : RegistryState) (c : Str) (j : Nat) : Bool :=
  match s.recordsOf c with
  | [] => true
  | [r] => r.previousKeyHex.isNone || decide (r.activationHeight ≤ j)
  | [x, n] => decide (x.activationHeight < n.activationHeight) && decide (n.activationHeight ≤ j)
  | _ => false

theorem lookupsAgree_iff {s : RegistryState} {c : Str} {j : Nat} :
    s.LookupsAgree c j ↔ ∀ k, s.keyWasValidAt c k j = true ↔ s.activeKeyAt c j = some k := by
  refine ⟨fun h k => (h.2.1 k).symm, fun h => ⟨fun k k' hk hk' => ?_, fun k => (h k).symm, ?_⟩⟩
  · exact Option.some.inj (((h k).mp hk).symm.trans ((h k').mp hk'))
  · simp only [Bool.eq_false_iff, ne_eq, h, Option.eq_none_iff_forall_ne_some]

theorem settledAt_iff {s : RegistryState} (hs : Shaped s) (c : Str) (j : Nat) :
    s.LookupsAgree c j ↔ s.settledAt c j = true := by
  rw [lookupsAgree_iff]
  simp only [keyWasValidAt_iff]
  unfold RegistryState.settledAt RegistryState.activeKeyAt
  have hshape := hs c
  generalize hl : s.recordsOf c = l at hshape
  cases hshape with
  | none => simp [RegistryState.byId, hl]
  | one r hr =>
    rw [byId_one hl]
    simp only [List.mem_singleton, exists_eq_left]
    by_cases hj : r.activationHeight ≤ j
    · refine iff_of_true (fun k => ?_) (by simp [hj])
      cases hact : r.isActiveAt j <;> simp [CuratorRecord.vouches, hact, Nat.not_lt.mpr hj]
    · have hact : r.isActiveAt j = false := by simp [CuratorRecord.isActiveAt, hj]
      simp [CuratorRecord.vouches, hact, hj, Nat.lt_of_not_le hj, Option.eq_none_iff_forall_ne_some]
  | two x n hx hn hxn =>
    rw [byId_two hl]
    simp only [succeeds_vouch_iff hxn]
    by_cases hlt : x.activationHeight < n.activationHeight
    · rw [if_pos hlt]
      by_cases hj : n.activationHeight ≤ j
      · have hact : n.isActiveAt j = true := isActiveAt_iff.mpr ⟨hj, fun R h => by rw [hxn.opened] at h; cases h⟩
        refine iff_of_true (fun k => ?_) (by simp [hlt, hj])
        have h₁ : ¬ j < n.activationHeight := by omega
        have h₂ : ¬ j < x.activationHeight := by omega
        simp [hact, hj, h₁, h₂]
      · have hact : n.isActiveAt j = false := by simp [CuratorRecord.isActiveAt, hj]
        refine iff_of_false (fun h => ?_) (by simp [hj])
        -- `x` still answers for its key, and the successor is not in force yet
        have := (h x.publicKeyHex).mp (.inl ⟨rfl, by omega⟩)
        simp [hact] at this
    · rw [if_neg hlt]
      have hact : x.isActiveAt j = false := by
        rw [Bool.eq_false_iff, Ne, isActiveAt_iff]
        intro ⟨hle, hR⟩
        have := hR _ hxn.closed; omega
      refine iff_of_false (fun h => ?_) (by simp [hlt])
      by_cases hj : j < n.activationHeight
      · have := (h x.publicKeyHex).mp (.inl ⟨rfl, hj⟩)
        simp [hact] at this
      · have := (h n.publicKeyHex).mp (.inr (.inr ⟨rfl, by omega⟩))
        simp [hact] at this

def GovernanceTx.isRotate : GovernanceTx → Bool
  | .rotate _ => true
  | _ => false

/-- A state without replaced keys: one record at most for a curator, which replaced none. -/
def Unrotated (s : RegistryState) : Prop :=
  ∀ c, s.recordsOf c = [] ∨ ∃ r, s.recordsOf c = [r] ∧ r.previousKeyHex = none

theorem unrotated_step {s s' : RegistryState} {height : Nat} {txid : Str} {tx : GovernanceTx}
    (ha : Accepted s height txid s' tx) (hno : tx.isRotate = false) (hs : Unrotated s) : Unrotated s' := by
  intro c
  cases ha with
  | register tx _ _ _ hw _ =>
    rw [hw c]; split
    · exact .inr ⟨_, rfl, rfl⟩
    · exact hs c
  | rotate _ _ _ _ _ _ _ _ => cases hno
  | revoke tx old _ hid _ _ _ hw _ =>
    rw [hw c]; split
    · rcases hs tx.curatorId with hnil | ⟨r, hr, hp⟩
      · simp [RegistryState.byId, hnil] at hid
      · rw [byId_one hr, Option.some.injEq] at hid; subst hid
        exact .inr ⟨_, rfl, hp⟩
    · exact hs c

theorem Unrotated.settledAt {s : RegistryState} (hs : Unrotated s) (c : Str) (j : Nat) :
    s.settledAt c j = true := by
  unfold RegistryState.settledAt
  rcases hs c with hnil | ⟨r, hr, hp⟩
  · rw [hnil]
  · simp [hr, hp]

section
variable (E : Primitives) {ctx : GovernanceContext} {g s : RegistryState} {calls : List RegistryCall}

/-- **One key in force.** In a state of a run the lookups agree on a curator at
a height exactly when its records are settled there; they agree everywhere in
every state of the run exactly when it rotates nobody. -/
theorem lookups_agree_iff (hg : IsGenesisState g) (h : run (registryStep E ctx) g calls = .ok s) :
    (∀ c j, s.LookupsAgree c j ↔ s.settledAt c j = true) ∧
      ((∀ pre t, pre <+: calls → run (registryStep E ctx) g pre = .ok t → ∀ c j, t.LookupsAgree c j) ↔
        ∀ call ∈ calls, call.tx.isRotate = false) := by
  refine ⟨settledAt_iff (shaped_run E hg h), fun hall call hc => ?_, fun hno pre t hp ht c j => ?_⟩
  · obtain ⟨pre, post, rfl⟩ := List.append_of_mem hc
    have hp : pre ++ [call] <+: pre ++ call :: post := ⟨post, by simp⟩
    obtain ⟨t, ht⟩ := run_prefix _ h hp
    obtain ⟨u, -, hu⟩ := (run_snoc_ok _).mp ht
    have ha := applyRegistryTransaction_ok E hu
    cases hcall : call.tx with
    | register _ => rfl
    | revoke _ => rfl
    | rotate tx =>
      rw [hcall] at ha
      cases ha with
      | rotate _ old hact _ _ _ hw _ =>
        -- at height zero the new key is not in force and the replaced one still counts
        have hset := (settledAt_iff (shaped_run E hg ht) tx.curatorId 0).mp (hall _ t hp ht _ 0)
        simp [RegistryState.settledAt, hw tx.curatorId, CuratorRotateTx.record] at hset
        omega
  · refine (settledAt_iff (shaped_run E hg ht) c j).mpr (Unrotated.settledAt ?_ c j)
    exact run_inv (registryStep E ctx)
      (fun call hc u u' hu hstep =>
        unrotated_step (applyRegistryTransaction_ok E hstep) (hno call (hp.subset hc)) hu)
      (fun c => .inl (hg.recordsOf c)) ht

end

theorem lookups_agree_aliceRotated : aliceRotated.LookupsAgree (str "alice") 20 :=
  ((lookups_agree_iff alicePrimitives aliceGenesis_isGenesisState aliceRotation_run).1 _ _).mpr
    (by decide)

/-- Between the rotation and its activation no key is in force and the replaced
one is valid. -/
theorem lookups_disagree : ¬ ∀ (E : Primitives) (ctx : GovernanceContext) (g s : RegistryState)
    (calls : List RegistryCall), IsGenesisState g → run (registryStep E ctx) g calls = .ok s →
      ∀ c j, s.LookupsAgree c j := by
  intro h
  have hk := (h _ _ _ _ _ aliceGenesis_isGenesisState aliceRotation_run (str "alice") 5).2.1 aliceKey₁
  exact absurd hk (by decide)

end ChainBreaker
