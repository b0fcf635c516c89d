import ChainBreaker.GovernanceErrors
import ChainBreaker.Batch
import Mathlib.Data.List.Infix

/-!
# No governance body is accepted twice

A governance body names the root of the state it applies to, and the state
after it holds the hash of the body. Along a chain the hashes of states and
bodies therefore contain one another in turn, and where hashing makes no cycle
no root comes back.
-/

namespace ChainBreaker

open Fallible

/-! ## Messages that contain a digest -/

/-- The digits of `bytes.hex`, as they stand in a JSON string. -/
def hexBytes (d : Bytes) : Bytes := (toHex d).map fun c => UInt8.ofNat c.val

/-- The message holds the digest, raw or in hexadecimal. -/
def Contains (m d : Bytes) : Prop := d <:+: m ∨ hexBytes d <:+: m

/-- The digests of the messages are made one after the other: each message holds
digests of a lower rank than its own. -/
def AcyclicOn (E : Primitives) (M : Bytes → Prop) : Prop :=
  ∃ rank : Bytes → Nat, ∀ m m', M m → M m' → Contains m (E.sha256 m') → rank (E.sha256 m') < rank (E.sha256 m)

theorem concatOk_within {α : Type} {f : α → Except PyErr Bytes} {a : α} {b : Bytes} (hf : f a = .ok b) : ∀ {l : List α}
    {out : Bytes}, a ∈ l → concatOk f l = .ok out → b <:+: out
  | x :: l, out, ha, h => by
    simp only [concatOk, bind_eq_ok] at h
    obtain ⟨y, hy, ys, hys, h⟩ := h
    cases h
    rcases List.mem_cons.mp ha with rfl | ha
    · obtain rfl : b = y := Except.ok.inj (hf.symm.trans hy)
      exact (List.prefix_append _ _).isInfix
    · exact (concatOk_within hf ha hys).trans (List.suffix_append _ _).isInfix

theorem joinComma_within {p : Bytes} : ∀ {ps : List Bytes}, p ∈ ps → p <:+: joinComma ps
  | [q], h => by
    rw [List.mem_singleton] at h
    subst h
    exact List.infix_refl _
  | q :: r :: ps, h => by
    rcases List.mem_cons.mp h with rfl | h
    · exact (List.prefix_append _ _).isInfix
    · have hrest := joinComma_within h
      exact hrest.trans ((List.suffix_cons _ _).trans (List.suffix_append _ _)).isInfix

theorem dumpsFields_mem {fl : UInt64 → Bytes} {k : Str} {v : Json} {p : Bytes} (hp : dumps fl v = .ok p) :
    ∀ {fs : List (Str × Json)} {ps : List (Str × Bytes)}, (k, v) ∈ fs → dumpsFields fl fs = .ok ps →
      (k, jsonStr k ++ 58 :: p) ∈ ps
  | (k', v') :: fs, ps, hm, h => by
    simp only [dumpsFields, bind_eq_ok] at h
    obtain ⟨q, hq, qs, hqs, h⟩ := h
    cases h
    rcases List.mem_cons.mp hm with heq | hm
    · cases heq
      obtain rfl : p = q := Except.ok.inj (hp.symm.trans hq)
      exact .head _
    · exact .tail _ (dumpsFields_mem hp hm hqs)

theorem dumps_dict_within {fl : UInt64 → Bytes} {fs : List (Str × Json)} {k : Str} {v : Json} {p out : Bytes}
    (hm : (k, v) ∈ fs) (hp : dumps fl v = .ok p) (h : dumps fl (.dict fs) = .ok out) : p <:+: out := by
  simp only [dumps, bind_eq_ok] at h
  obtain ⟨ps, hps, h⟩ := h
  cases h
  have hmem : jsonStr k ++ 58 :: p ∈ (Lex.sortOn charKey Prod.fst ps).map Prod.snd :=
    List.mem_map.mpr ⟨_, Lex.mem_sortOn.mpr (dumpsFields_mem hp hm hps), rfl⟩
  have hin := joinComma_within hmem
  have hself : p <:+: jsonStr k ++ 58 :: p := ((List.suffix_cons _ _).trans (List.suffix_append _ _)).isInfix
  exact (hself.trans hin).trans ((List.prefix_append _ _).isInfix.trans (List.suffix_cons _ _).isInfix)

theorem escape_hexDigit : ∀ n < 16, escapeChar (hexDigit n) = [UInt8.ofNat (hexDigit n).val] := by decide

theorem escape_toHex : ∀ d : Bytes, (toHex d).flatMap escapeChar = hexBytes d
  | [] => rfl
  | x :: d => by
    have hx := x.toNat_lt
    have ih := escape_toHex d
    unfold hexBytes at ih ⊢
    simp only [toHex, List.flatMap_cons, List.map_cons, ih, escape_hexDigit (x.toNat / 16) (by omega),
      escape_hexDigit (x.toNat % 16) (by omega), List.cons_append, List.nil_append]

/-- A digest written into a JSON string is in the text. -/
theorem hexBytes_within (d : Bytes) : hexBytes d <:+: jsonStr (toHex d) := by
  rw [jsonStr, escape_toHex]
  exact ((List.prefix_append _ _).isInfix).trans (List.suffix_cons _ _).isInfix

/-! ## States hold the hashes of bodies, bodies those of states -/

/-- The object `_canonical_txid` hashes. -/
def txidObject (body : Fields) : Json :=
  .dict (body.map fun f => if f.1 = str "governance_signatures" then (f.1, sortSignatures f.2) else f)

section
variable {E : Primitives} {s s' : RegistryState} {height : Nat} {txid : Str} {tx : GovernanceTx}

theorem canonicalTxid_ok_iff {body : Fields} :
    canonicalTxid E body = .ok txid ↔ ∃ m, canonicalJson E (txidObject body) = .ok m ∧ txid = toHex (E.sha256 m) := by
  unfold canonicalTxid hashObjectHex hashObject
  simp only [bind_eq_ok]
  constructor
  · rintro ⟨_, ⟨m, hm, h⟩, h'⟩
    cases h
    cases h'
    exact ⟨m, hm, rfl⟩
  · rintro ⟨m, hm, rfl⟩
    exact ⟨_, ⟨m, hm, rfl⟩, rfl⟩

theorem registryRoot_ok {root : Str} :
    registryRoot E s = .ok root ↔ ∃ m, serializeRegistryState s = .ok m ∧ root = toHex (E.sha256 m) := by
  unfold registryRoot hashSingleHex
  simp only [bind_eq_ok, Except.ok.injEq, @eq_comm Str _ root]

/-- The body that is hashed holds the root it names. -/
theorem body_contains {m d : Bytes} (hm : canonicalJson E (txidObject tx.toDict) = .ok m)
    (hd : tx.previousRegistryRoot = toHex d) : Contains m d := by
  have hfield : (str "previous_registry_root", Json.str tx.previousRegistryRoot) ∈ tx.toDict := by
    cases tx with
    | register tx => simp [GovernanceTx.toDict, CuratorRegisterTx.toDict, GovernanceTx.previousRegistryRoot]
    | rotate tx => simp [GovernanceTx.toDict, CuratorRotateTx.toDict, GovernanceTx.previousRegistryRoot]
    | revoke tx => simp [GovernanceTx.toDict, CuratorRevokeTx.toDict, GovernanceTx.previousRegistryRoot]
  have hkey : str "previous_registry_root" ≠ str "governance_signatures" := by decide
  have hkept : (str "previous_registry_root", Json.str (toHex d)) ∈ tx.toDict.map fun f =>
      if f.1 = str "governance_signatures" then (f.1, sortSignatures f.2) else f :=
    List.mem_map.mpr ⟨_, hfield, by rw [if_neg hkey, hd]⟩
  exact .inr ((hexBytes_within d).trans (dumps_dict_within hkept rfl hm))

theorem accepted_carries (h : Accepted s height txid s' tx) :
    ∃ r ∈ s'.records, r.registrationTxid = txid ∨ r.latestRotationTxid = some txid := by
  have written : ∀ {d : Str} {new : List CuratorRecord} {r : CuratorRecord}, s.Rewrote s' d new → r ∈ new →
      r ∈ s'.records := by
    intro d new r hw hr
    have hmem : r ∈ s'.recordsOf d := by rw [hw d, if_pos rfl]; exact hr
    exact List.mem_of_mem_filter hmem
  cases h with
  | register tx _ _ _ hw _ => exact ⟨_, written hw (.head _), .inl rfl⟩
  | rotate tx old _ _ _ _ hw _ => exact ⟨_, written hw (.head _), .inr rfl⟩
  | revoke tx old _ _ _ _ _ hw _ => exact ⟨_, written hw (.head _), .inr rfl⟩

theorem serializeRecord_within {r : CuratorRecord} {d out : Bytes} (hd : fromHex txid = some d) (hne : d ≠ [])
    (hr : r.registrationTxid = txid ∨ r.latestRotationTxid = some txid) (h : serializeRecord r = .ok out) :
    d <:+: out := by
  simp only [serializeRecord, bind_eq_ok] at h
  obtain ⟨v, -, c, -, k, -, a, -, e, -, p, -, g, hg, t, ht, h⟩ := h
  cases h
  rcases hr with hr | hr
  · rw [hr, fromHexOrRaise_eq_ok, hd] at hg
    cases hg
    exact ((List.suffix_append _ _).isInfix).trans (List.prefix_append _ _).isInfix
  · have hnil : txid ≠ [] := by
      rintro rfl
      cases hd
      exact hne rfl
    have ht' : t = d := by
      rw [hr] at ht
      unfold hexOrZeros at ht
      split at ht
      · rename_i h; cases h
      · rename_i h; cases h; exact absurd rfl hnil
      · rename_i h
        cases h
        rw [fromHexOrRaise_eq_ok, hd] at ht
        exact (Option.some.inj ht).symm
    subst ht'
    exact (List.suffix_append _ _).isInfix

/-- The state that is hashed holds the hash of the transaction before it. -/
theorem state_contains {m d : Bytes} (h : Accepted s height txid s' tx) (hm : serializeRegistryState s' = .ok m)
    (hd : fromHex txid = some d) (hne : d ≠ []) : Contains m d := by
  obtain ⟨r, hr, htx⟩ := accepted_carries h
  simp only [serializeRegistryState, bind_eq_ok] at hm
  obtain ⟨l, hl, v, -, n, -, kc, -, ks, -, t, -, rc, -, rs, hrs, hm⟩ := hm
  cases hm
  obtain ⟨b, hb⟩ := concatOk_ok_iff.mp ⟨rs, hrs⟩ r ((sortRecords_mem hl).mpr hr)
  have hin := (serializeRecord_within hd hne htx hb).trans (concatOk_within hb ((sortRecords_mem hl).mpr hr) hrs)
  exact .inl (hin.trans (List.suffix_append _ _).isInfix)

end

/-! ## The transactions of a chain -/

/-- The transactions above the genesis block in order, with their heights. -/
def placed (chain : List AnyBlock) : List (Json × Nat) :=
  (numbered chain).flatMap fun p => p.1.transactions.map fun t => (t, p.2)

section
variable (E : Primitives)

def Ledger.placedStep (l : Ledger) (s : RegistryState) (p : Json × Nat) : Except PyErr RegistryState :=
  applyTransactionWith E (parseGovernanceTransaction l.networkId) l.governanceContext p.2 s p.1

/-- The transactions `pre` take the genesis state to `u`. -/
def Ledger.Visits (l : Ledger) (pre : List (Json × Nat)) (u : RegistryState) : Prop :=
  ∃ g, l.genesisState = .ok g ∧ run (l.placedStep E) g pre = .ok u

/-- What is hashed along the chain: every state, and the body of every
governance transaction. -/
def Ledger.Hashed (l : Ledger) (m : Bytes) : Prop :=
  (∃ g pre u, l.genesisState = .ok g ∧ pre <+: placed l.chain ∧ run (l.placedStep E) g pre = .ok u ∧
    serializeRegistryState u = .ok m) ∨
  ∃ p ∈ placed l.chain, ∃ tx, parseGovernanceTransaction l.networkId p.1 = .ok (some tx) ∧
    canonicalJson E (txidObject tx.toDict) = .ok m

variable {E} {l : Ledger} {s s' : RegistryState}

theorem run_placed (ts : List Json) (height : Nat) (s : RegistryState) :
    run (l.placedStep E) s (ts.map fun t => (t, height)) = l.applyTransactions E s ts height := by
  induction ts generalizing s with
  | nil => rfl
  | cons t ts ih =>
    unfold Ledger.applyTransactions applyTransactionsWith at ih ⊢
    rw [List.map_cons, run_cons, run_cons]
    congr 1
    funext u
    exact ih u

theorem run_blocks (blocks : List (AnyBlock × Nat)) (s : RegistryState) :
    run (l.placedStep E) s (blocks.flatMap fun p => p.1.transactions.map fun t => (t, p.2)) =
      run (l.replayStep E) s blocks := by
  induction blocks generalizing s with
  | nil => rfl
  | cons p blocks ih =>
    rw [List.flatMap_cons, run_append, run_placed, run_cons]
    congr 1
    funext u
    exact ih u

theorem replay_placed (h : l.replay E l.chain = .ok s) :
    ∃ g, l.genesisState = .ok g ∧ run (l.placedStep E) g (placed l.chain) = .ok s := by
  obtain ⟨g, hg, hr⟩ := bind_eq_ok.mp h
  exact ⟨g, hg, (run_blocks _ _).trans hr⟩

/-! ## Roots never come back -/

/-- A state before one with a root has a root. -/
theorem serialized_before : ∀ {ps : List (Json × Nat)} {u v : RegistryState} {mv : Bytes},
    run (l.placedStep E) u ps = .ok v → serializeRegistryState v = .ok mv → ∃ mu, serializeRegistryState u = .ok mu
  | [], u, v, mv, h, hv => by cases h; exact ⟨mv, hv⟩
  | p :: ps, u, v, mv, h, hv => by
    obtain ⟨w, hw, hr⟩ := (run_cons_ok _).mp h
    rcases applyTransaction_ok hw with ⟨-, rfl⟩ | ⟨tx, txid, -, -, ha⟩
    · exact serialized_before hr hv
    · obtain ⟨mu, hmu, -⟩ := registryRoot_ok.mp (apply_root ha)
      exact ⟨mu, hmu⟩

variable {g : RegistryState} {rank : Bytes → Nat}

/-- One accepted transaction raises the rank of the root twice: once for its
body and once for the state after it. -/
theorem rank_step (hrank : ∀ m m', l.Hashed E m → l.Hashed E m' → Contains m (E.sha256 m') →
      rank (E.sha256 m') < rank (E.sha256 m))
    (hg : l.genesisState = .ok g) {pre : List (Json × Nat)} {p : Json × Nat} {post : List (Json × Nat)}
    (hchain : placed l.chain = pre ++ p :: post) {u v : RegistryState} (hu : run (l.placedStep E) g pre = .ok u)
    (hv : l.placedStep E u p = .ok v) {tx : GovernanceTx}
    (hp : parseGovernanceTransaction l.networkId p.1 = .ok (some tx)) {mu mv : Bytes}
    (hmu : serializeRegistryState u = .ok mu) (hmv : serializeRegistryState v = .ok mv) :
    rank (E.sha256 mu) < rank (E.sha256 mv) := by
  have hpre : pre <+: placed l.chain := ⟨p :: post, hchain.symm⟩
  have hsnoc : pre ++ [p] <+: placed l.chain := ⟨post, by rw [hchain]; simp⟩
  have hmem : p ∈ placed l.chain := by rw [hchain]; simp
  rcases applyTransaction_ok hv with ⟨hnone, -⟩ | ⟨tx', txid, hp', htxid, ha⟩
  · rw [hp] at hnone
    cases hnone
  · obtain rfl : tx = tx' := by
      rw [hp] at hp'
      cases hp'
      rfl
    obtain ⟨mb, hmb, rfl⟩ := canonicalTxid_ok_iff.mp htxid
    obtain ⟨mu', hmu', hroot⟩ := registryRoot_ok.mp (apply_root ha)
    obtain rfl : mu' = mu := Except.ok.inj (hmu'.symm.trans hmu)
    have hne : E.sha256 mb ≠ [] := by
      intro h
      have := E.sha256_length mb
      rw [h] at this
      cases this
    have hsu : l.Hashed E mu' := .inl ⟨g, pre, u, hg, hpre, hu, hmu⟩
    have hsb : l.Hashed E mb := .inr ⟨p, hmem, tx, hp, hmb⟩
    have hsv : l.Hashed E mv := .inl ⟨g, pre ++ [p], v, hg, hsnoc, (run_snoc_ok _).mpr ⟨u, hu, hv⟩, hmv⟩
    have hbody := hrank mb mu' hsb hsu (body_contains hmb hroot)
    have hstate := hrank mv mb hsv hsb
      (state_contains (applyRegistryTransaction_ok E ha) hmv (fromHex_toHex _) hne)
    exact Nat.lt_trans hbody hstate

theorem rank_run (hrank : ∀ m m', l.Hashed E m → l.Hashed E m' → Contains m (E.sha256 m') →
      rank (E.sha256 m') < rank (E.sha256 m))
    (hg : l.genesisState = .ok g) : ∀ {mid pre post : List (Json × Nat)}, placed l.chain = pre ++ (mid ++ post) →
    ∀ {u v : RegistryState}, run (l.placedStep E) g pre = .ok u → run (l.placedStep E) u mid = .ok v →
    ∀ {mu mv : Bytes}, serializeRegistryState u = .ok mu → serializeRegistryState v = .ok mv →
    rank (E.sha256 mu) ≤ rank (E.sha256 mv) := by
  intro mid
  induction mid with
  | nil =>
    intro pre post _ u v _ huv mu mv hmu hmv
    cases huv
    rw [Except.ok.inj (hmu.symm.trans hmv)]
  | cons p mid ih =>
    intro pre post hchain u v hu huv mu mv hmu hmv
    obtain ⟨w, hw, hwv⟩ := (run_cons_ok _).mp huv
    have hsplit : placed l.chain = pre ++ p :: (mid ++ post) := hchain
    have hnext : placed l.chain = (pre ++ [p]) ++ (mid ++ post) := by rw [hchain]; simp
    have hpw := (run_snoc_ok (l.placedStep E)).mpr ⟨u, hu, hw⟩
    obtain ⟨mw, hmw⟩ := serialized_before hwv hmv
    have hrest := ih hnext hpw hwv hmw hmv
    rcases applyTransaction_ok hw with ⟨-, rfl⟩ | ⟨tx, txid, hp, -, -⟩
    · rwa [Except.ok.inj (hmu.symm.trans hmw)]
    · exact Nat.le_trans (Nat.le_of_lt (rank_step hrank hg hsplit hu hw hp hmu hmw)) hrest

/-- The body of a transaction, as it stands in the block. -/
def bodyOf : Json → Option Json
  | .dict d => Fields.get d "body"
  | _ => none

theorem parse_of_body {networkId : Str} {t t' : Json} {tx tx' : GovernanceTx}
    (h : parseGovernanceTransaction networkId t = .ok (some tx))
    (h' : parseGovernanceTransaction networkId t' = .ok (some tx')) (hb : bodyOf t = bodyOf t') : tx = tx' := by
  unfold parseGovernanceTransaction parseGovernanceWith at h h'
  split at h
  · split at h
    · split at h'
      · split at h'
        · rw [show Fields.get _ "body" = Fields.get _ "body" from hb] at h
          cases h.symm.trans h'
          rfl
        · cases h'
      · cases h'
    · cases h
  · cases h

theorem toHex_digest_inj {d d' : Bytes} (h : toHex d = toHex d') : d = d' := by
  have hd := fromHex_toHex d
  rw [h, fromHex_toHex] at hd
  exact (Option.some.inj hd).symm

/-- **Replay protection.** On a chain whose transactions were all accepted, and
whose hashes make no cycle, no two governance transactions have one body: they
do not even name one registry root. -/
theorem accepted_once (hs : l.stateAt E (l.chain.length - 1) = .ok s) (hacyclic : AcyclicOn E (l.Hashed E))
    {pre mid post : List (Json × Nat)} {p q : Json × Nat} (hchain : placed l.chain = pre ++ p :: (mid ++ q :: post))
    {tx tx' : GovernanceTx} (hp : parseGovernanceTransaction l.networkId p.1 = .ok (some tx))
    (hq : parseGovernanceTransaction l.networkId q.1 = .ok (some tx')) :
    bodyOf p.1 ≠ bodyOf q.1 ∧ tx.previousRegistryRoot ≠ tx'.previousRegistryRoot := by
  obtain ⟨rank, hrank⟩ := hacyclic
  have hne : l.chain ≠ [] := by
    intro hnil
    unfold Ledger.stateAt at hs
    rw [hnil] at hs
    cases hs
  rw [tip_state hne] at hs
  obtain ⟨g, hg, hrun⟩ := replay_placed hs
  rw [hchain] at hrun
  obtain ⟨u, hu, hrun⟩ := (run_append_ok _).mp hrun
  obtain ⟨w, hw, hrun⟩ := (run_cons_ok _).mp hrun
  obtain ⟨v, hv, hrun⟩ := (run_append_ok _).mp hrun
  obtain ⟨x, hx, -⟩ := (run_cons_ok _).mp hrun
  have named : ∀ {a b : RegistryState} {r : Json × Nat} {tr : GovernanceTx}, l.placedStep E a r = .ok b →
      parseGovernanceTransaction l.networkId r.1 = .ok (some tr) →
      ∃ m, serializeRegistryState a = .ok m ∧ tr.previousRegistryRoot = toHex (E.sha256 m) := by
    intro a b r tr hstep hparse
    rcases applyTransaction_ok hstep with ⟨hnone, -⟩ | ⟨tr', txid, hparse', -, ha⟩
    · rw [hparse] at hnone
      cases hnone
    · rw [hparse] at hparse'
      cases hparse'
      exact registryRoot_ok.mp (apply_root ha)
  obtain ⟨mu, hmu, hroot⟩ := named hw hp
  obtain ⟨mv, hmv, hroot'⟩ := named hx hq
  obtain ⟨mw, hmw⟩ := serialized_before hv hmv
  have hfirst := rank_step hrank hg hchain hu hw hp hmu hmw
  have hnext : placed l.chain = (pre ++ [p]) ++ (mid ++ q :: post) := by rw [hchain]; simp
  have hrest := rank_run hrank hg hnext ((run_snoc_ok _).mpr ⟨u, hu, hw⟩) hv hmw hmv
  have hroots : tx.previousRegistryRoot ≠ tx'.previousRegistryRoot := by
    intro h
    rw [hroot, hroot'] at h
    rw [toHex_digest_inj h] at hfirst
    omega
  exact ⟨fun hb => hroots (by rw [parse_of_body hp hq hb]), hroots⟩

end

/-! ## Alice's chain -/

def governanceJson (tx : GovernanceTx) : Json :=
  .dict [(str "type", .str (str "governance")), (str "body", .dict tx.toDict)]

def registerPlaced : Json × Nat := (governanceJson (.register registerAlice), 1)
def rotatePlaced : Json × Nat := (governanceJson (.rotate rotateAlice), 2)

/-- Two blocks that register alice and rotate her key. -/
def aliceLedger : Ledger where
  chain := [.v2 alphaGenesis, .v2 { alphaChild with transactions := [registerPlaced.1] },
    .v2 { alphaChild with transactions := [rotatePlaced.1] }]
  networkIdentity := alphaNetworkIdentity
  transactionValidator := none
  governanceKeys := [governanceKey]
  governanceThreshold := 1
  governanceContext := aliceContext
  registryStates := fun _ => none

theorem placedStep_of {l : Ledger} {E : Primitives} {s s' : RegistryState} {p : Json × Nat} {tx : GovernanceTx}
    {txid : Str} (hp : parseGovernanceTransaction l.networkId p.1 = .ok (some tx))
    (ht : canonicalTxid E tx.toDict = .ok txid)
    (ha : registryStep E l.governanceContext s ⟨tx, p.2, txid⟩ = .ok s') : l.placedStep E s p = .ok s' := by
  unfold Ledger.placedStep applyTransactionWith
  rw [hp, ok_bind]
  change canonicalTxid E tx.toDict >>= _ = _
  rw [ht, ok_bind]
  exact ha

theorem registerPlaced_parse : parseGovernanceTransaction NETWORK_ID registerPlaced.1 =
    .ok (some (.register registerAlice)) := of_okEq (by decide +kernel)

theorem rotatePlaced_parse : parseGovernanceTransaction NETWORK_ID rotatePlaced.1 =
    .ok (some (.rotate rotateAlice)) := of_okEq (by decide +kernel)

example : registerPlaced.2 < rotatePlaced.2 := by decide +kernel

section
set_option maxRecDepth 100000

theorem registerAlice_txid : canonicalTxid alicePrimitives (GovernanceTx.register registerAlice).toDict =
    .ok registerAliceTxid := of_okEq (by decide +kernel)

theorem rotateAlice_txid : canonicalTxid alicePrimitives (GovernanceTx.rotate rotateAlice).toDict =
    .ok rotateAliceTxid := of_okEq (by decide +kernel)

example : registerAliceTxid ≠ rotateAliceTxid := by decide +kernel

end

theorem registerPlaced_step : aliceLedger.placedStep alicePrimitives aliceGenesis registerPlaced = .ok aliceRegistered :=
  placedStep_of registerPlaced_parse registerAlice_txid aliceRegistered_step

theorem rotatePlaced_step : aliceLedger.placedStep alicePrimitives aliceRegistered rotatePlaced = .ok aliceRotated :=
  placedStep_of rotatePlaced_parse rotateAlice_txid aliceRotated_step

theorem aliceLedger_genesis : aliceLedger.genesisState = .ok aliceGenesis := of_okEq (by decide +kernel)

theorem aliceLedger_state : aliceLedger.stateAt alicePrimitives (aliceLedger.chain.length - 1) = .ok aliceRotated := by
  rw [tip_state (by simp [aliceLedger]), Ledger.replay, aliceLedger_genesis, ok_bind, ← run_blocks]
  exact (run_cons_ok _).mpr ⟨_, registerPlaced_step, (run_cons_ok _).mpr ⟨_, rotatePlaced_step, rfl⟩⟩

def holds (m d : Bytes) : Bool := m.tails.any d.isPrefixOf

theorem holds_iff {m d : Bytes} : holds m d = true ↔ d <:+: m := by
  simp only [holds, List.any_eq_true, List.mem_tails, List.isPrefixOf_iff_prefix, List.infix_iff_prefix_suffix]
  exact ⟨fun ⟨x, hs, hp⟩ => ⟨x, hp, hs⟩, fun ⟨x, hp, hs⟩ => ⟨x, hs, hp⟩⟩

/-- The digests made along the chain, in order: of states and of bodies in turn. -/
def aliceDigests : List Bytes :=
  [registerAlice.previousRegistryRoot, registerAliceTxid, rotateAlice.previousRegistryRoot, rotateAliceTxid,
    revokeAlice.previousRegistryRoot].map fun h => (fromHex h).getD []

/-- The message at the index holds no digest from its own on. -/
def holdsEarlier (m : Bytes) (i : Nat) : Bool := (aliceDigests.drop i).all fun d => !holds m d && !holds m (hexBytes d)

def aliceOrder : Except PyErr (List Bool) := do
  let genesis ← serializeRegistryState aliceGenesis
  let register ← canonicalJson alicePrimitives (txidObject registerAlice.toDict)
  let registered ← serializeRegistryState aliceRegistered
  let rotate ← canonicalJson alicePrimitives (txidObject rotateAlice.toDict)
  let rotated ← serializeRegistryState aliceRotated
  .ok [holdsEarlier genesis 0, holdsEarlier register 1, holdsEarlier registered 2, holdsEarlier rotate 3,
    holdsEarlier rotated 4]

set_option maxRecDepth 100000 in
theorem aliceOrder_eq : aliceOrder = .ok [true, true, true, true, true] := of_okEq (by decide +kernel)

example : aliceDigests.map List.length = List.replicate 5 32 := by decide +kernel

theorem step_digest {s s' : RegistryState} {call : RegistryCall} {m : Bytes}
    (h : registryStep alicePrimitives aliceContext s call = .ok s') (hm : serializeRegistryState s = .ok m) :
    call.tx.previousRegistryRoot = toHex (alicePrimitives.sha256 m) := by
  obtain ⟨m', hm', hroot⟩ := registryRoot_ok.mp (apply_root h)
  rw [Except.ok.inj (hm.symm.trans hm')]
  exact hroot

theorem digest_of_hex {h : Str} {d : Bytes} (hd : h = toHex d) : (fromHex h).getD [] = d := by
  rw [hd, fromHex_toHex]
  rfl

/-- Every message hashed along the chain has its place, and holds no digest from
that place on. -/
theorem aliceHashed {m : Bytes} (h : aliceLedger.Hashed alicePrimitives m) :
    ∃ i, aliceDigests[i]? = some (alicePrimitives.sha256 m) ∧ holdsEarlier m i = true := by
  have horder := aliceOrder_eq
  simp only [aliceOrder, bind_eq_ok] at horder
  obtain ⟨m₀, h₀, b₁, hb₁, m₁, h₁, b₂, hb₂, m₂, h₂, horder⟩ := horder
  simp only [Except.ok.injEq, List.cons.injEq, and_true] at horder
  obtain ⟨o₀, o₁, o₂, o₃, o₄⟩ := horder
  have state : ∀ {u u' : RegistryState} {call : RegistryCall} {n : Bytes} {i : Nat},
      registryStep alicePrimitives aliceContext u call = .ok u' → serializeRegistryState u = .ok n →
      serializeRegistryState u = .ok m → aliceDigests[i]? = some ((fromHex call.tx.previousRegistryRoot).getD []) →
      holdsEarlier n i = true → ∃ i, aliceDigests[i]? = some (alicePrimitives.sha256 m) ∧ holdsEarlier m i = true := by
    intro u u' call n i hstep hn hm hi ho
    obtain rfl : m = n := Except.ok.inj (hm.symm.trans hn)
    exact ⟨i, by rw [hi, digest_of_hex (step_digest hstep hm)], ho⟩
  have body : ∀ {tx tx' : GovernanceTx} {txid : Str} {n : Bytes} {i : Nat},
      canonicalTxid alicePrimitives tx.toDict = .ok txid → canonicalJson alicePrimitives (txidObject tx.toDict) = .ok n →
      tx' = tx → canonicalJson alicePrimitives (txidObject tx'.toDict) = .ok m →
      aliceDigests[i]? = some ((fromHex txid).getD []) → holdsEarlier n i = true →
      ∃ i, aliceDigests[i]? = some (alicePrimitives.sha256 m) ∧ holdsEarlier m i = true := by
    intro tx tx' txid n i htxid hn htx hm hi ho
    subst htx
    obtain rfl : m = n := Except.ok.inj (hm.symm.trans hn)
    obtain ⟨m', hm', hroot⟩ := canonicalTxid_ok_iff.mp htxid
    obtain rfl : m = m' := Except.ok.inj (hm.symm.trans hm')
    exact ⟨i, by rw [hi, digest_of_hex hroot], ho⟩
  rcases h with ⟨g, pre, u, hg, ⟨post, hpre⟩, hu, hm⟩ | ⟨p, hp, tx, hparse, hm⟩
  · obtain rfl : g = aliceGenesis := Except.ok.inj (hg.symm.trans aliceLedger_genesis)
    change pre ++ post = [registerPlaced, rotatePlaced] at hpre
    rcases pre with _ | ⟨x, _ | ⟨y, pre⟩⟩
    · cases hu
      exact state aliceRegistered_step h₀ hm rfl o₀
    · obtain ⟨rfl, -⟩ := List.cons.inj hpre
      obtain ⟨v, hv, hu⟩ := (run_cons_ok _).mp hu
      cases hu
      cases hv.symm.trans registerPlaced_step
      exact state aliceRotated_step h₁ hm rfl o₂
    · simp only [List.cons_append, List.cons.injEq, List.append_eq_nil_iff] at hpre
      obtain ⟨rfl, rfl, rfl, -⟩ := hpre
      obtain ⟨v, hv, hu⟩ := (run_cons_ok _).mp hu
      cases hv.symm.trans registerPlaced_step
      obtain ⟨w, hw, hu⟩ := (run_cons_ok _).mp hu
      cases hw.symm.trans rotatePlaced_step
      cases hu
      exact state aliceRevoked_step h₂ hm rfl o₄
  · change p ∈ [registerPlaced, rotatePlaced] at hp
    rcases List.mem_cons.mp hp with rfl | hp
    · have htx := Except.ok.inj (hparse.symm.trans registerPlaced_parse)
      exact body registerAlice_txid hb₁ (Option.some.inj htx) hm rfl o₁
    · obtain rfl := List.mem_singleton.mp hp
      have htx := Except.ok.inj (hparse.symm.trans rotatePlaced_parse)
      exact body rotateAlice_txid hb₂ (Option.some.inj htx) hm rfl o₃

theorem aliceDigests_nodup : aliceDigests.Nodup := by decide +kernel

theorem aliceLedger_acyclic : AcyclicOn alicePrimitives (aliceLedger.Hashed alicePrimitives) := by
  have rank : ∀ {i : Nat} {d : Bytes}, aliceDigests[i]? = some d → aliceDigests.idxOf d = i := by
    intro i d hi
    obtain ⟨hlt, rfl⟩ := List.getElem?_eq_some_iff.mp hi
    exact List.Nodup.idxOf_getElem aliceDigests_nodup i hlt
  refine ⟨fun d => aliceDigests.idxOf d, fun m m' hm hm' hc => ?_⟩
  obtain ⟨i, hi, ho⟩ := aliceHashed hm
  obtain ⟨j, hj, -⟩ := aliceHashed hm'
  simp only [rank hi, rank hj]
  by_contra hle
  have hmem : alicePrimitives.sha256 m' ∈ aliceDigests.drop i := by
    refine List.mem_iff_getElem?.mpr ⟨j - i, ?_⟩
    rw [List.getElem?_drop, show i + (j - i) = j by omega, hj]
  have hno := List.all_eq_true.mp ho _ hmem
  rw [Bool.and_eq_true, Bool.not_eq_true', Bool.not_eq_true'] at hno
  rcases hc with hc | hc
  · rw [holds_iff.mpr hc] at hno
    cases hno.1
  · rw [holds_iff.mpr hc] at hno
    cases hno.2

theorem accepted_once_alice : bodyOf registerPlaced.1 ≠ bodyOf rotatePlaced.1 ∧
    registerAlice.previousRegistryRoot ≠ rotateAlice.previousRegistryRoot := by
  have hchain : placed aliceLedger.chain = [] ++ registerPlaced :: ([] ++ rotatePlaced :: []) := rfl
  exact accepted_once aliceLedger_state aliceLedger_acyclic hchain registerPlaced_parse rotatePlaced_parse

end ChainBreaker
