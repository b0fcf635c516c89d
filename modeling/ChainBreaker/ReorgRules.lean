import ChainBreaker.Reorg
import ChainBreaker.Batch

/-!
# What a reported switch means

The engine switches exactly when the candidate's suffix passes its own checks
(`SuffixAll`) and carries more work than the suffix it replaces. On blocks that
meet the transaction schema its replay of the registry is the ledger's, if the
network is the default one.
-/

namespace ChainBreaker

open Fallible

/-! ## The two parsers -/

def isGovernance : Json → Bool
  | .dict d => (Fields.getOrNull d "type").eqStr (str "governance")
  | _ => false

theorem parse_of_not_governance {missing : Json} {networkId : Str} {tx : Json} (h : isGovernance tx = false) :
    parseGovernanceWith missing networkId tx = .ok none := by
  unfold parseGovernanceWith
  split
  · rename_i d
    rw [if_neg (by simpa [isGovernance] using h)]
  · rfl

theorem schemaOk_body {d : Fields} (h : schemaOk (.dict d) = true) : ∃ body, d.get "body" = some (.dict body) := by
  unfold schemaOk at h
  split at h
  · rename_i u hv
    simp only [validateV2Transaction, bind_eq_ok, orRaise_eq_ok, Json.asDict?, Option.some.injEq] at hv
    obtain ⟨_, rfl, _, -, _, -, body, hb, -⟩ := hv
    split at hb
    · rename_i b hget
      unfold Fields.getOrNull at hget
      cases hg : d.get "body" with
      | none => rw [hg] at hget; cases hget
      | some v => rw [hg] at hget; exact ⟨b, by rw [← hget]; rfl⟩
    · cases hb
  · cases h

/-- With the schema met, the body taken for a missing one is no matter. -/
theorem parse_congr {missing missing' : Json} {networkId : Str} {tx : Json} (h : schemaOk tx = true) :
    parseGovernanceWith missing networkId tx = parseGovernanceWith missing' networkId tx := by
  unfold parseGovernanceWith
  cases tx with
  | dict d =>
    obtain ⟨body, hb⟩ := schemaOk_body h
    simp only [hb, Option.getD_some]
  | _ => rfl

theorem checkEnvelope_network {what action : String} {keys : List String} {data : Json} {networkId : Str}
    {d : Fields} (h : checkEnvelope what action keys data networkId = .ok d) :
    data = .dict d ∧ ((d.get "network_id").getD (.str NETWORK_ID)).eqStr networkId = true := by
  simp only [checkEnvelope, bind_eq_ok, orRaise_eq_ok, require_eq_ok] at h
  obtain ⟨d', hd, _, -, _, -, _, hn, _, -, h⟩ := h
  cases h
  refine ⟨?_, hn⟩
  cases data <;> simp_all [Json.asDict?]

theorem inSet_true {v : Json} {names : List String} (h : inSet v names = .ok true) :
    ∃ s, v = .str s ∧ s ∈ names.map str := by
  cases v with
  | str s => exact ⟨s, rfl, by simpa [inSet] using h⟩
  | _ => cases h

/-- The schema of a governance transaction is that of its body. -/
theorem schemaOk_governance {d body : Fields} (h : schemaOk (.dict d) = true) (hgov : isGovernance (.dict d) = true)
    (hbody : d.get "body" = some (.dict body)) : validateGovernanceBody body = .ok () := by
  unfold schemaOk at h
  split at h
  · rename_i u hv
    simp only [validateV2Transaction, bind_eq_ok, orRaise_eq_ok, Json.asDict?, Option.some.injEq] at hv
    obtain ⟨_, rfl, _, -, _, -, b, hb, hv⟩ := hv
    have htype : d.getOrNull "type" = .str (str "governance") := by
      simp only [isGovernance, Json.eqStr] at hgov
      split at hgov
      · rename_i t ht
        rw [ht, eq_of_beq hgov]
      · cases hgov
    have hget : d.getOrNull "body" = .dict body := by rw [Fields.getOrNull, hbody]; rfl
    rw [hget, Option.some.injEq] at hb
    subst hb
    rw [htype, if_neg (by decide), if_neg (by decide)] at hv
    exact hv
  · cases h

/-- A governance transaction that meets the schema names one of the three actions. -/
theorem schemaOk_action {d body : Fields} (h : schemaOk (.dict d) = true) (hgov : isGovernance (.dict d) = true)
    (hbody : d.get "body" = some (.dict body)) :
    ∃ action, body.getOrNull "action" = .str action ∧
      action ∈ ["curator_register", "curator_rotate", "curator_revoke"].map str := by
  have hv := schemaOk_governance h hgov hbody
  simp only [validateGovernanceBody, bind_eq_ok, require_eq_ok] at hv
  obtain ⟨known, hk, _, rfl, -⟩ := hv
  exact inSet_true hk

section
variable {body : Fields} {networkId : Str}

def namesNetwork (body : Fields) (networkId : Str) : Bool :=
  ((body.get "network_id").getD (.str NETWORK_ID)).eqStr networkId

theorem envelope_network {what action : String} {keys : List String} {d : Fields}
    (h : checkEnvelope what action keys (.dict body) networkId = .ok d) : namesNetwork body networkId = true := by
  obtain ⟨hd, hn⟩ := checkEnvelope_network h
  cases hd; exact hn

theorem register_network {tx : CuratorRegisterTx} (h : CuratorRegisterTx.fromDict (.dict body) networkId = .ok tx) :
    namesNetwork body networkId = true := by
  simp only [CuratorRegisterTx.fromDict, bind_eq_ok] at h
  obtain ⟨d, he, -⟩ := h
  exact envelope_network he

theorem rotate_network {tx : CuratorRotateTx} (h : CuratorRotateTx.fromDict (.dict body) networkId = .ok tx) :
    namesNetwork body networkId = true := by
  simp only [CuratorRotateTx.fromDict, bind_eq_ok] at h
  obtain ⟨d, he, -⟩ := h
  exact envelope_network he

theorem revoke_network {tx : CuratorRevokeTx} (h : CuratorRevokeTx.fromDict (.dict body) networkId = .ok tx) :
    namesNetwork body networkId = true := by
  simp only [CuratorRevokeTx.fromDict, bind_eq_ok] at h
  obtain ⟨d, he, -⟩ := h
  exact envelope_network he

end

/-- A parsed governance transaction names the network it was parsed for. -/
theorem parse_network {missing : Json} {networkId : Str} {d : Fields} {x : Option GovernanceTx}
    (h : schemaOk (.dict d) = true) (hgov : isGovernance (.dict d) = true)
    (hp : parseGovernanceWith missing networkId (.dict d) = .ok x) :
    ∃ body, d.get "body" = some (.dict body) ∧ namesNetwork body networkId = true := by
  obtain ⟨body, hbody⟩ := schemaOk_body h
  refine ⟨body, hbody, ?_⟩
  obtain ⟨action, ha, hmem⟩ := schemaOk_action h hgov hbody
  have hgov' : (Fields.getOrNull d "type").eqStr (str "governance") = true := hgov
  simp only [parseGovernanceWith, hgov', if_true, hbody, Option.getD_some, ha] at hp
  simp only [List.map_cons, List.map_nil, List.mem_cons, List.not_mem_nil, or_false] at hmem
  rcases hmem with rfl | rfl | rfl
  · rw [if_pos (by decide)] at hp
    obtain ⟨tx, htx, -⟩ := bind_eq_ok.mp hp
    exact register_network htx
  · rw [if_neg (by decide), if_pos (by decide)] at hp
    obtain ⟨tx, htx, -⟩ := bind_eq_ok.mp hp
    exact rotate_network htx
  · rw [if_neg (by decide), if_neg (by decide), if_pos (by decide)] at hp
    obtain ⟨tx, htx, -⟩ := bind_eq_ok.mp hp
    exact revoke_network htx

/-- No governance transaction belongs to two networks. -/
theorem parse_two_networks {missing missing' : Json} {n n' : Str} {tx : Json} {x x' : Option GovernanceTx}
    (h : schemaOk tx = true) (hgov : isGovernance tx = true) (hp : parseGovernanceWith missing n tx = .ok x)
    (hp' : parseGovernanceWith missing' n' tx = .ok x') : n = n' := by
  cases tx with
  | dict d =>
    obtain ⟨body, hb, hn⟩ := parse_network h hgov hp
    obtain ⟨body', hb', hn'⟩ := parse_network h hgov hp'
    rw [hb, Option.some.injEq, Json.dict.injEq] at hb'
    subst hb'
    unfold namesNetwork at hn hn'
    generalize (Fields.get body "network_id").getD (.str NETWORK_ID) = v at hn hn'
    cases v with
    | str s => exact (eq_of_beq hn).symm.trans (eq_of_beq hn')
    | _ => cases hn
  | _ => cases hgov

/-! ## The two replays -/

section
variable (E : Primitives) {ctx : GovernanceContext} {s : RegistryState} {txs : List Json} {height : Nat}

theorem apply_without_governance {missing : Json → Json} {networkId : Str}
    (h : ∀ tx ∈ txs, isGovernance tx = false) :
    applyTransactionsWith E (fun tx => parseGovernanceWith (missing tx) networkId tx) ctx s txs height = .ok s := by
  refine run_fixed _ fun tx htx => ?_
  rw [applyTransactionWith, parse_of_not_governance (h tx htx)]
  rfl

/-- On the default network and schema-conforming transactions the engine
replays as the ledger does. -/
theorem reorgApply_eq {l : Ledger} (hn : l.networkId = NETWORK_ID) (hctx : l.governanceContext = ctx)
    (h : ∀ tx ∈ txs, schemaOk tx = true) :
    reorgApplyTransactions E s txs height ctx = l.applyTransactions E s txs height := by
  subst hctx
  refine run_congr _ (fun tx htx u => ?_) s
  unfold applyTransactionWith reorgParseGovernanceTransaction parseGovernanceTransaction
  rw [hn, parse_congr (h tx htx)]

/-- Transactions that both a ledger of another network and the engine replay
hold no governance transaction. -/
theorem no_governance_of_both {l : Ledger} {s' t t' : RegistryState} (hn : l.networkId ≠ NETWORK_ID)
    (h : ∀ tx ∈ txs, schemaOk tx = true) (hl : l.applyTransactions E s txs height = .ok s')
    (hr : reorgApplyTransactions E t txs height ctx = .ok t') : ∀ tx ∈ txs, isGovernance tx = false := by
  have parsed : ∀ {parse : Json → Except PyErr (Option GovernanceTx)} {c : GovernanceContext} {u u' : RegistryState},
      applyTransactionsWith E parse c u txs height = .ok u' → ∀ tx ∈ txs, ∃ x, parse tx = .ok x := by
    intro parse c u u' hrun tx htx
    obtain ⟨v, w, hw⟩ := run_mem _ hrun htx
    obtain ⟨x, hx, -⟩ := bind_eq_ok.mp hw
    exact ⟨x, hx⟩
  intro tx htx
  by_contra hgov
  rw [Bool.not_eq_false] at hgov
  obtain ⟨x, hx⟩ := parsed hl tx htx
  obtain ⟨y, hy⟩ := parsed hr tx htx
  exact hn (parse_two_networks (h tx htx) hgov hx hy)

/-! ## The checks of the suffix -/

/-- What the engine checks of one block of a suffix, its link apart. -/
structure SuffixOk (ctx : GovernanceContext) (targetAt : Nat → Except PyErr Int) (height : Nat) (b : BlockV2)
    (s s' : RegistryState) (hash : Str) : Prop where
  hashed : b.hash E = .ok hash
  version : b.header.version = PROTOCOL_VERSION
  work : satisfiesPow hash b.header.target = true
  target : targetAt height = .ok b.header.target
  merkle : merkleRootOf E b.transactions = .ok b.header.merkleRoot
  root : registryRoot E s = .ok b.header.registryRoot
  applied : reorgApplyTransactions E s b.transactions height ctx = .ok s'

def SuffixAll (ctx : GovernanceContext) (targetAt : Nat → Except PyErr Int) :
    Nat → RegistryState → Option Str → List BlockV2 → Prop
  | _, _, _, [] => True
  | height, s, prev, b :: bs => (∀ p, prev = some p → b.header.prevHash = p) ∧
      ∃ s' hash, SuffixOk E ctx targetAt height b s s' hash ∧ SuffixAll ctx targetAt (height + 1) s' (some hash) bs

theorem suffixStep_ok_iff {start idx : Nat} {targets : List Int} {prev : Option Str} {b : BlockV2}
    {u : SuffixState} :
    suffixStep E ctx start (some targets) ⟨s, prev, idx⟩ b = .ok u ↔
      (∀ p, prev = some p → b.header.prevHash = p) ∧ ∃ s' hash,
        SuffixOk E ctx (fun _ => orRaise targets[idx]? (err .indexError "list index out of range"))
          (start + 1 + idx) b s s' hash ∧ u = ⟨s', some hash, idx + 1⟩ := by
  have hprev : prev.all (b.header.prevHash = ·) = true ↔ ∀ p, prev = some p → b.header.prevHash = p := by
    cases prev <;> simp
  simp only [suffixStep, checkTarget, bind_eq_ok, require_eq_ok, orRaise_eq_ok, hprev]
  constructor
  · rintro ⟨_, hlink, hash, hhash, _, hv, _, hw, _, ⟨t, ht, hte⟩, m, hm, _, hme, r, hr, _, hre, h⟩
    split at h
    · rename_i s' happ
      cases h
      exact ⟨hlink, s', hash, ⟨hhash, hv, hw, by rw [orRaise_eq_ok, ht, hte], by rw [hm, hme], by rw [hr, hre], happ⟩, rfl⟩
    · split at h <;> cases h
  · rintro ⟨hlink, s', hash, ⟨hhash, hv, hw, ht, hm, hr, happ⟩, rfl⟩
    rw [orRaise_eq_ok] at ht
    exact ⟨(), hlink, hash, hhash, (), hv, (), hw, (), ⟨_, ht, rfl⟩, _, hm, (), rfl, _, hr, (), rfl, by rw [happ]; rfl⟩

/-- The loop over the suffix succeeds exactly when the checks pass. -/
theorem scan_suffix_iff {start : Nat} {targets : List Int} {targetAt : Nat → Except PyErr Int} :
    ∀ {bs : List BlockV2} {s : RegistryState} {prev : Option Str} {idx : Nat},
      (∀ i < bs.length, ∃ t, targets[idx + i]? = some t ∧ targetAt (start + 1 + idx + i) = .ok t) →
      ((∃ us, scan (suffixStep E ctx start (some targets)) ⟨s, prev, idx⟩ bs = .ok us) ↔
        SuffixAll E ctx targetAt (start + 1 + idx) s prev bs)
  | [], _, _, _, _ => iff_of_true ⟨_, rfl⟩ trivial
  | b :: bs, s, prev, idx, h => by
    obtain ⟨t, ht, htat⟩ := h 0 (by simp)
    have hrest : ∀ i < bs.length, ∃ t, targets[idx + 1 + i]? = some t ∧
        targetAt (start + 1 + (idx + 1) + i) = .ok t := by
      intro i hi
      obtain ⟨t', ht', hat⟩ := h (i + 1) (by simpa using hi)
      exact ⟨t', by rw [← ht']; congr 1; omega, by rw [← hat]; congr 1; omega⟩
    have ih := fun s prev => @scan_suffix_iff start targets targetAt bs s prev (idx + 1) hrest
    simp only [scan, bind_eq_ok, suffixStep_ok_iff, SuffixAll]
    have hswap : ∀ {s' hash}, SuffixOk E ctx (fun _ => orRaise targets[idx]? (err .indexError "list index out of range"))
        (start + 1 + idx) b s s' hash ↔ SuffixOk E ctx targetAt (start + 1 + idx) b s s' hash := by
      have hor : orRaise targets[idx]? (err .indexError "list index out of range") = .ok t := by
        rw [orRaise_eq_ok]; exact ht
      have hat : targetAt (start + 1 + idx) = .ok t := htat
      intro s' hash
      constructor <;> rintro ⟨h₁, h₂, h₃, h₄, h₅, h₆, h₇⟩
      · exact ⟨h₁, h₂, h₃, by rw [hat, ← h₄, hor], h₅, h₆, h₇⟩
      · exact ⟨h₁, h₂, h₃, by rw [hor, ← h₄, hat], h₅, h₆, h₇⟩
    constructor
    · rintro ⟨us, u, ⟨hlink, s', hash, hok, rfl⟩, us', hus, -⟩
      exact ⟨hlink, s', hash, hswap.mp hok, (ih _ _).mp ⟨us', hus⟩⟩
    · rintro ⟨hlink, s', hash, hok, hall⟩
      obtain ⟨us', hus⟩ := (ih _ _).mpr hall
      exact ⟨_, _, ⟨hlink, s', hash, hswap.mpr hok, rfl⟩, us', hus, rfl⟩

variable {E}

theorem SuffixAll.targets {targetAt : Nat → Except PyErr Int} : ∀ {bs : List BlockV2} {h : Nat}
    {s : RegistryState} {prev : Option Str}, SuffixAll E ctx targetAt h s prev bs →
    ∀ i < bs.length, ∃ t, targetAt (h + i) = .ok t
  | b :: bs, h, s, prev, ⟨_, s', hash, hok, hall⟩, i, hi => by
    cases i with
    | zero => exact ⟨_, hok.target⟩
    | succ i =>
      obtain ⟨t, ht⟩ := hall.targets i (by simpa using hi)
      exact ⟨t, by rw [← ht]; congr 1; omega⟩

theorem SuffixAll.tip {targetAt : Nat → Except PyErr Int} : ∀ {bs : List BlockV2} {h : Nat}
    {s : RegistryState} {prev : Option Str} {tip : BlockV2}, SuffixAll E ctx targetAt h s prev bs →
    bs.getLast? = some tip → ∃ hash, tip.hash E = .ok hash
  | [b], h, s, prev, tip, ⟨_, s', hash, hok, _⟩, htip => by
    cases htip
    exact ⟨hash, hok.hashed⟩
  | b :: b' :: bs, h, s, prev, tip, ⟨_, s', hash, _, hall⟩, htip =>
    hall.tip (by simpa [List.getLast?_cons_cons] using htip)

/-! ## The decision -/

variable (E) in
/-- The engine switches to `candidate` at the common height `k`, with result `r`. -/
structure Switches (eng : ReorgEngine) (candidate : List BlockV2) (k : Nat) (r : ReorgResult) : Prop where
  ancestor : findCommonAncestor E eng.currentChain candidate = .ok k
  depth : ∀ d, eng.maxReorgDepth = some d → (eng.currentChain.length : Int) - 1 - k ≤ d
  suffix : ∃ s ctx, eng.stateAt E k = .ok s ∧
    GovernanceContext.init eng.governanceKeys eng.governanceThreshold NETWORK_ID = .ok ctx ∧
    SuffixAll E ctx (eng.expectedTargetAt E) (k + 1) s none (candidate.drop (k + 1))
  work : ∃ w w', branchWork (candidate.drop (k + 1)) = .ok w ∧
    branchWork (eng.currentChain.drop (k + 1)) = .ok w' ∧ w' < w
  result : ∃ tip old new, candidate.getLast? = some tip ∧ eng.currentTipHash E = .ok old ∧
    tip.hash E = .ok new ∧
    r = { switched := true, oldTipHeight := eng.currentTipHeight, oldTipHash := old,
          newTipHeight := candidate.length - 1, newTipHash := new, commonAncestorHeight := k,
          disconnectHeights := List.range' (k + 1) (eng.currentChain.length - (k + 1)),
          connectHeights := List.range' (k + 1) (candidate.length - (k + 1)),
          reason := ⟨"higher valid work branch accepted", []⟩ }

theorem stay_not_switched {eng : ReorgEngine} {k : Nat} {reason : Reason} {r : ReorgResult}
    (h : eng.stay E k reason = .ok r) : r.switched = false := by
  obtain ⟨tip, -, h⟩ := bind_eq_ok.mp h
  cases h
  rfl

theorem compareWork_wins {x y : Int} : compareWork x y = .candidateWins ↔ x < y := by
  unfold compareWork
  split_ifs <;> simp <;> omega

theorem findCommonAncestor_ok {cur cand : List BlockV2} {k : Nat} (h : findCommonAncestor E cur cand = .ok k) :
    (cur ≠ [] ∧ cand ≠ []) ∧ ∃ hash, hashAt E cur 0 = .ok hash ∧ hashAt E cand 0 = .ok hash ∧
      searchAncestor E cur cand (min cur.length cand.length - 1) = .ok k := by
  simp only [findCommonAncestor, bind_eq_ok, require_eq_ok] at h
  obtain ⟨_, hne, a, ha, b, hb, _, hab, hs⟩ := h
  exact ⟨hne, a, ha, by rw [hb, hab], hs⟩

theorem evaluateCandidate_switched_iff {eng : ReorgEngine} {candidate : List BlockV2} {r : ReorgResult} :
    eng.evaluateCandidate E candidate = .ok r ∧ r.switched = true ↔ ∃ k, Switches E eng candidate k r := by
  have stays : ∀ {k reason}, eng.stay E k reason = .ok r → r.switched = true → False := by
    intro k reason h hs
    rw [stay_not_switched h] at hs; cases hs
  constructor
  · rintro ⟨h, hs⟩
    unfold ReorgEngine.evaluateCandidate at h
    split at h
    · exact (stays h hs).elim
    obtain ⟨a, ha, b, hb, h⟩ := by simpa only [bind_eq_ok] using h
    split at h
    · exact (stays h hs).elim
    obtain ⟨k, hk, h⟩ := bind_eq_ok.mp h
    split at h
    · exact (stays h hs).elim
    rename_i hdepth
    obtain ⟨s, hstate, ts, hts, h⟩ := by simpa only [bind_eq_ok] using h
    split at h
    · rename_i states hv
      simp only [validateCandidateSuffix, bind_eq_ok] at hv
      obtain ⟨ctx, hctx, us, hscan, -⟩ := hv
      have htargets : ∀ i < (candidate.drop (k + 1)).length,
          ∃ t, ts[0 + i]? = some t ∧ eng.expectedTargetAt E (k + 1 + 0 + i) = .ok t := by
        intro i hi
        rw [Nat.zero_add]
        exact collect_range_ok hts i hi
      have hsuffix := (scan_suffix_iff E htargets).mp ⟨us, hscan⟩
      simp only [ReorgEngine.switchOnWork, bind_eq_ok] at h
      obtain ⟨w, hw, w', hw', h⟩ := h
      split at h
      · exact (stays h hs).elim
      rename_i hwins
      obtain ⟨tip, htip, old, hold, new, hnew, h⟩ := by simpa only [bind_eq_ok, orRaise_eq_ok] using h
      cases h
      refine ⟨k, hk, fun d hd => ?_, ⟨s, ctx, hstate, hctx, hsuffix⟩,
        ⟨w, w', hw, hw', compareWork_wins.mp (not_not.mp hwins)⟩, tip, old, new, htip, hold, hnew, rfl⟩
      simpa [hd] using hdepth
    · split at h
      · exact (stays h hs).elim
      · cases h
  · rintro ⟨k, hk, hdepth, ⟨s, ctx, hstate, hctx, hsuffix⟩, ⟨w, w', hw, hw', hlt⟩, tip, old, new, htip, hold, hnew, rfl⟩
    refine ⟨?_, rfl⟩
    obtain ⟨⟨-, hcand⟩, hash, ha, hb, -⟩ := findCommonAncestor_ok hk
    obtain ⟨ts, hts⟩ := collect_range_of hsuffix.targets
    have htargets : ∀ i < (candidate.drop (k + 1)).length,
        ∃ t, ts[0 + i]? = some t ∧ eng.expectedTargetAt E (k + 1 + 0 + i) = .ok t := by
      intro i hi
      rw [Nat.zero_add]
      exact collect_range_ok hts i hi
    obtain ⟨us, hus⟩ := (scan_suffix_iff E htargets).mpr hsuffix
    have hd : ¬ eng.maxReorgDepth.any (· < (eng.currentChain.length : Int) - 1 - k) = true := by
      cases hm : eng.maxReorgDepth with
      | none => simp
      | some d => simpa using hdepth d hm
    have hwins : ¬ compareWork w' w ≠ .candidateWins := not_not.mpr (compareWork_wins.mpr hlt)
    unfold ReorgEngine.evaluateCandidate
    rw [if_neg (by simpa using hcand), hb, ok_bind, ha, ok_bind, if_neg (not_not.mpr rfl), hk, ok_bind]
    dsimp only
    rw [if_neg hd, hstate, ok_bind, hts, ok_bind]
    simp only [validateCandidateSuffix, hctx, ok_bind, hus, ReorgEngine.switchOnWork, hw, hw', if_neg hwins, htip,
      orRaise, hold, hnew]

end

end ChainBreaker
