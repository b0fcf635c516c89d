import ChainBreaker.Ledger

/-!
# What lets a block follow a chain

`Follows` collects every rule a V2 block meets when it extends a chain. Both
ways the ledger checks a block, appending it and validating it in place, come
down to it, because each of their readings of the chain depends only on the
blocks below.
-/

namespace ChainBreaker

open Fallible

/-! ## Readings of a prefix -/

theorem blockAt_take {c : List AnyBlock} {i n : Nat} (h : i < n) : blockAt (c.take n) i = blockAt c i := by
  simp [blockAt, h]

theorem blockAt_eq_ok {chain : List AnyBlock} {i : Nat} {b : AnyBlock} :
    blockAt chain i = .ok b ↔ chain[i]? = some b := by
  rw [blockAt, orRaise_eq_ok]

theorem retargetAt_take (c : List AnyBlock) (i : Nat) : retargetAt (c.take i) i = retargetAt c i := by
  unfold retargetAt
  split
  · rfl
  · rename_i h
    have h10 : DIFFICULTY_RETARGET_INTERVAL = 10 := rfl
    rw [blockAt_take (by omega), blockAt_take (by omega)]

theorem expectedTargetAt_take (c : List AnyBlock) (i : Nat) :
    expectedTargetAt (c.take i) i = expectedTargetAt c i := by
  unfold expectedTargetAt
  split
  · rfl
  · rw [blockAt_take (by omega), blockAt_take (by omega), retargetAt_take]

theorem medianPastTime_take {c : List AnyBlock} {i : Nat} (count : Nat) (h : i ≤ c.length) :
    medianPastTime (c.take i) i count = medianPastTime c i count := by
  simp [medianPastTime, h, List.take_take]

theorem numbered_length (c : List AnyBlock) : (numbered c).length = c.length - 1 := by simp [numbered]

theorem numbered_append {c : List AnyBlock} (hc : c ≠ []) (b : AnyBlock) :
    numbered (c ++ [b]) = numbered c ++ [(b, c.length)] := by
  cases c with
  | nil => exact absurd rfl hc
  | cons g rest => simp [numbered, List.zipIdx_append, Nat.add_comm]

theorem take_zipIdx {α : Type} : ∀ (l : List α) (i n : Nat), (l.zipIdx n).take i = (l.take i).zipIdx n
  | [], _, _ => by simp
  | _ :: _, 0, _ => by simp
  | a :: l, i + 1, n => by simp [take_zipIdx l i (n + 1)]

theorem numbered_take (c : List AnyBlock) (i : Nat) : (numbered c).take i = numbered (c.take (i + 1)) := by
  cases c with
  | nil => simp [numbered]
  | cons g rest => simp [numbered, take_zipIdx]

/-! ## One block by itself -/

section
variable (E : Primitives)

/-- What `verify` checks of a block that is not the genesis block, apart from
the three bounds its caller gives. -/
structure BlockV2.Intact (b : BlockV2) (validator : Option (Json → Bool)) : Prop where
  version : b.header.version = PROTOCOL_VERSION
  bounds : MIN_TARGET ≤ b.header.target ∧ b.header.target ≤ MAX_TARGET
  merkle : merkleRootOf E b.transactions = .ok b.header.merkleRoot
  work : ∃ hash, b.hash E = .ok hash ∧ satisfiesPow hash b.header.target = true
  timestamp : 0 < b.header.timestamp
  transactions : transactionsOk validator b.transactions = true

theorem verify_iff {b : BlockV2} {referenceTime medianPast expectedTarget : Option Int}
    {validator : Option (Json → Bool)} :
    b.verify E referenceTime false medianPast expectedTarget validator = .ok true ↔
      b.Intact E validator ∧ (∀ t, expectedTarget = some t → b.header.target = t) ∧
        (∀ r, referenceTime = some r → b.header.timestamp ≤ r + 2 * 60 * 60) ∧
        ∀ m, medianPast = some m → m < b.header.timestamp := by
  have hall : ∀ {o : Option Int} {p : Int → Bool}, o.all p = true ↔ ∀ t, o = some t → p t = true := by
    intro o p; cases o <;> simp
  unfold BlockV2.verify
  constructor
  · intro h
    split at h
    · cases h
    · rename_i hv
      simp only [Bool.false_eq_true, if_false, ok_bind] at h
      split at h
      · cases h
      · rename_i hb
        obtain ⟨m, hm, h⟩ := bind_eq_ok.mp h
        split at h
        · cases h
        · rename_i hme
          obtain ⟨hash, hhash, h⟩ := bind_eq_ok.mp h
          simp only [Except.ok.injEq, Bool.and_eq_true, hall, decide_eq_true_eq] at h
          obtain ⟨⟨⟨⟨⟨hw, ht⟩, hts⟩, hr⟩, hmed⟩, htx⟩ := h
          exact ⟨⟨not_not.mp hv, not_not.mp hb, by rw [hm, not_not.mp hme], ⟨hash, hhash, hw⟩, hts, htx⟩,
            ht, hr, hmed⟩
  · rintro ⟨⟨hv, hb, hm, ⟨hash, hhash, hw⟩, hts, htx⟩, ht, hr, hmed⟩
    simp only [hv, ne_eq, not_true, if_false, Bool.false_eq_true, ok_bind, hb, and_self, hm, hhash,
      Except.ok.injEq, Bool.and_eq_true, hall, decide_eq_true_eq, hw, hts, htx, true_and, and_true]
    exact ⟨⟨ht, hr⟩, hmed⟩

/-! ## Following a chain -/

/-- The registry state after every block of `c`, under the network of `l`. -/
def Ledger.replay (l : Ledger) (c : List AnyBlock) : Except PyErr RegistryState := do
  let g ← l.genesisState
  run (l.replayStep E) g (numbered c)

/-- `b` follows the chain `c` in the network of `l`, and takes its registry
state from `s` to `s'`. -/
structure Ledger.Follows (l : Ledger) (c : List AnyBlock) (b : BlockV2) (s s' : RegistryState) : Prop where
  linked : ∃ last, c.getLast? = some last ∧ last.hash E = .ok b.header.prevHash
  target : expectedTargetAt c c.length = .ok b.header.target
  replayed : l.replay E c = .ok s
  root : registryRoot E s = .ok b.header.registryRoot
  median : medianPastTime c c.length 11 < b.header.timestamp
  intact : b.Intact E l.transactionValidator
  applied : l.applyTransactions E s b.transactions c.length = .ok s'

variable {E} {l : Ledger} {c : List AnyBlock} {b : BlockV2} {s s' : RegistryState}

theorem replay_append (hc : c ≠ []) (hs : l.replay E c = .ok s) (b : AnyBlock) :
    l.replay E (c ++ [b]) = l.applyTransactions E s b.transactions c.length := by
  unfold Ledger.replay at hs ⊢
  obtain ⟨g, hg, hr⟩ := bind_eq_ok.mp hs
  rw [hg, ok_bind, numbered_append hc, run_append, hr, ok_bind, run_cons]
  cases h : l.replayStep E s (b, c.length) with
  | ok t => exact h.symm
  | error e => exact h.symm

theorem Ledger.Follows.replay_append (hc : c ≠ []) (h : l.Follows E c b s s') :
    l.replay E (c ++ [.v2 b]) = .ok s' := by
  rw [ChainBreaker.replay_append hc h.replayed]
  exact h.applied

theorem stateAt_eq {i : Nat} (h : i < l.chain.length) : l.stateAt E i = l.replay E (l.chain.take (i + 1)) := by
  unfold Ledger.stateAt Ledger.replay
  rw [if_neg (Nat.not_le.mpr h), numbered_take]

theorem tip_state (h : l.chain ≠ []) : l.stateAt E (l.chain.length - 1) = l.replay E l.chain := by
  have hpos := List.length_pos_iff.mpr h
  rw [stateAt_eq (by omega), Nat.sub_add_cancel hpos, List.take_length]

theorem replay_congr {l' : Ledger} (hi : l'.networkIdentity = l.networkIdentity)
    (hk : l'.governanceKeys = l.governanceKeys) (ht : l'.governanceThreshold = l.governanceThreshold)
    (hx : l'.governanceContext = l.governanceContext) : l'.replay E c = l.replay E c := by
  unfold Ledger.replay Ledger.genesisState Ledger.replayStep Ledger.applyTransactions Ledger.networkId
  rw [hi, hk, ht, hx]

/-- **Appending.** A block is appended exactly when it follows the chain and is
not too far ahead of the clock. -/
theorem addBlockV2_true_iff {l l' : Ledger} {now : Int} (hne : l.chain ≠ []) :
    l.addBlockV2 E b now = .ok (true, l') ↔
      b.header.timestamp ≤ now + 2 * 60 * 60 ∧ ∃ s s', l.Follows E l.chain b s s' ∧
        l' = { l with chain := l.chain ++ [.v2 b],
                      registryStates := l.registryStates.set l.chain.length s' } := by
  have hlen : l.chain.length - 1 < l.chain.length := by
    have := List.length_pos_iff.mpr hne; omega
  have hstate : l.stateAt E (l.chain.length - 1) = l.replay E l.chain := by
    rw [stateAt_eq hlen, Nat.sub_add_cancel (by omega), List.take_length]
  unfold Ledger.addBlockV2
  dsimp only
  rw [hstate]
  constructor
  · intro h
    simp only [bind_eq_ok, Ledger.lastBlock, orRaise_eq_ok] at h
    obtain ⟨t, ht, last, hlast, ph, hph, h⟩ := h
    split at h
    · cases h
    rename_i hprev
    split at h
    · cases h
    rename_i htarget
    split at h
    · cases h
    obtain ⟨s, hs, root, hroot, h⟩ := by simpa only [bind_eq_ok] using h
    split at h
    · cases h
    rename_i hrr
    obtain ⟨ok, hok, h⟩ := bind_eq_ok.mp h
    split at h
    · cases h
    rename_i hokt
    rw [Bool.not_eq_false] at hokt
    subst hokt
    obtain ⟨hi, -, hr, hm⟩ := (verify_iff E).mp hok
    split at h
    · rename_i s' happ
      cases h
      rw [not_not] at hprev htarget hrr
      exact ⟨hr now rfl, s, s', ⟨⟨last, hlast, by rw [hprev, hph]⟩, by rw [htarget, ht], hs, by rw [hrr, hroot],
        hm _ rfl, hi, happ⟩, rfl⟩
    · split at h <;> cases h
  · rintro ⟨hnow, s, s', hf, rfl⟩
    obtain ⟨last, hlast, hhash⟩ := hf.linked
    have hok : b.verify E (some now) false (some (medianPastTime l.chain l.chain.length 11))
        (some b.header.target) l.transactionValidator = .ok true :=
      (verify_iff E).mpr ⟨hf.intact, fun t h => by cases h; rfl, fun r h => by cases h; exact hnow,
        fun m h => by cases h; exact hf.median⟩
    simp only [Ledger.lastBlock, hlast, orRaise, hf.target, ok_bind, hhash, ne_eq, not_true, if_false,
      hf.intact.version, hf.replayed, hf.root, hok, Bool.true_eq_false, hf.applied]

theorem chain_ne_of_added {l l' : Ledger} {now : Int} (h : l.addBlockV2 E b now = .ok (true, l')) :
    l.chain ≠ [] := by
  intro hnil
  unfold Ledger.addBlockV2 at h
  simp only [Ledger.lastBlock, hnil, List.getLast?_nil, orRaise, bind_eq_ok] at h
  obtain ⟨_, -, _, h, -⟩ := h
  cases h

/-- **Validating in place.** A V2 block passes its turn exactly when it follows
the blocks below it and the cache does not contradict its state. -/
theorem validateBlockAt_some_iff {clock : Int} {i : Nat} {cache cache' : StateCache} (hi : 0 < i)
    (hb : l.chain[i]? = some (.v2 b)) :
    l.validateBlockAt E clock i cache = .ok (some cache') ↔
      ∃ s s', l.Follows E (l.chain.take i) b s s' ∧ (∀ t, cache i = some t → t = s') ∧
        cache' = cache.set i s' := by
  have hlt : i < l.chain.length := (List.getElem?_eq_some_iff.mp hb).1
  have hlen : (l.chain.take i).length = i := by simp; omega
  have hlast : (l.chain.take i).getLast? = l.chain[i - 1]? := by
    rw [List.getLast?_eq_getElem?, hlen, List.getElem?_take, if_pos (by omega)]
  have hstate : l.stateAt E (i - 1) = l.replay E (l.chain.take i) := by
    rw [stateAt_eq (by omega), Nat.sub_add_cancel hi]
  have hmed := medianPastTime_take 11 hlt.le
  have hexp := expectedTargetAt_take l.chain i
  unfold Ledger.validateBlockAt Ledger.validateRegistry
  rw [hstate]
  constructor
  · intro h
    simp only [bind_eq_ok, blockAt_eq_ok] at h
    obtain ⟨current, hcur, previous, hprev, ph, hph, h⟩ := h
    rw [hb, Option.some.injEq] at hcur
    subst hcur
    split at h
    · cases h
    rename_i hlink
    obtain ⟨t, ht, h⟩ := bind_eq_ok.mp h
    split at h
    · cases h
    rename_i htarget
    split at h
    · cases h
    rename_i hmedian
    obtain ⟨ok, hok, h⟩ := bind_eq_ok.mp h
    split at h
    · cases h
    rename_i hokt
    rw [Bool.not_eq_false] at hokt
    subst hokt
    obtain ⟨hintact, -, -, -⟩ := (verify_iff E).mp hok
    obtain ⟨s, hs, root, hroot, h⟩ := by simpa only [bind_eq_ok] using h
    split at h
    · cases h
    rename_i hrr
    rw [not_not] at hlink htarget hrr
    split at h
    · rename_i s' happ
      split at h
      · cases h
      · rename_i hcache
        cases h
        refine ⟨s, s', ⟨⟨previous, by rw [hlast, hprev], hph.trans (congrArg _ hlink.symm)⟩, ?_, hs, ?_, ?_, hintact,
          by rw [hlen]; exact happ⟩, fun t ht => ?_, rfl⟩
        · rw [hlen, hexp, ht]; exact congrArg _ htarget.symm
        · rw [hroot, hrr]
        · rw [hlen, hmed]; exact Int.not_le.mp hmedian
        · simpa [ht] using hcache
    · split at h <;> cases h
  · rintro ⟨s, s', hf, hcache, rfl⟩
    obtain ⟨last, hl, hhash⟩ := hf.linked
    rw [hlast] at hl
    have htarget := hf.target
    have hmedian := hf.median
    have happ := hf.applied
    rw [hlen, hexp] at htarget
    rw [hlen, hmed] at hmedian
    rw [hlen] at happ
    have hok : b.verify E none false (some (medianPastTime l.chain i 11)) (some b.header.target)
        l.transactionValidator = .ok true :=
      (verify_iff E).mpr ⟨hf.intact, fun t h => by cases h; rfl, fun r h => (by cases h),
        fun m h => by cases h; exact hmedian⟩
    have hnot : ¬ b.header.timestamp ≤ medianPastTime l.chain i 11 := Int.not_le.mpr hmedian
    have hany : ¬ (cache i).any (· ≠ s') = true := by
      cases hc : cache i with
      | none => simp
      | some t => simp [hcache t hc]
    simp only [blockAt, hb, hl, orRaise, ok_bind, hhash, AnyBlock.prevHash, AnyBlock.target, AnyBlock.timestamp,
      AnyBlock.verify, ne_eq, not_true, if_false, htarget, hnot, hok, hf.replayed, hf.root, happ,
      Bool.true_eq_false, Bool.false_eq_true, hany]

end

end ChainBreaker
