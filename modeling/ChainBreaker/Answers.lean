import ChainBreaker.Acceptance

/-!
# Every call is answered

A call of `add_block_v2` on a healthy ledger answers with `True` and the grown
ledger or with `False` and the ledger as it was, unless the block brings what
its checks meet with an error that the ledger does not answer (`Digestible`).
-/

namespace ChainBreaker

open Fallible

/-! ## What a ledger can always compute -/

/-- The header fields have the types and ranges of the wire format. -/
structure BlockHeaderV2.Typed (h : BlockHeaderV2) : Prop where
  version : 0 ≤ h.version ∧ h.version < 2 ^ 32
  prevHash : IsHex32 h.prevHash
  merkleRoot : IsHex32 h.merkleRoot
  registryRoot : IsHex32 h.registryRoot
  timestamp : 0 ≤ h.timestamp ∧ h.timestamp < 2 ^ 64
  target : 0 ≤ h.target ∧ h.target < 2 ^ 256
  nonce : 0 ≤ h.nonce ∧ h.nonce < 2 ^ 64

theorem encodeHash_ok {h : Str} (hh : IsHex32 h) : ∃ raw, encodeHash h = .ok raw := by
  obtain ⟨raw, hraw, hlen⟩ := hh
  exact ⟨raw, encodeHash_eq_ok.mpr ⟨hraw, hlen⟩⟩

theorem structPack_ok {len : Nat} {n : Int} (h : 0 ≤ n ∧ n < 256 ^ len) : ∃ b, structPack len n = .ok b :=
  ⟨_, structPack_eq_ok.mpr ⟨h.1, h.2, rfl⟩⟩

section
variable {E : Primitives} {l l' : Ledger} {b : BlockV2} {now : Int} {s s' : RegistryState}

theorem hash_ok (h : b.header.Typed) : ∃ hash, b.hash E = .ok hash := by
  have htarget : targetToHex b.header.target = .ok (toHex (leBytes 32 b.header.target.toNat).reverse) := by
    unfold targetToHex toBytesBE
    rw [toBytesLE_eq_ok.mpr ⟨h.target.1, h.target.2, rfl⟩]
    rfl
  have hhex : IsHex32 (toHex (leBytes 32 b.header.target.toNat).reverse) :=
    ⟨_, fromHex_toHex _, by rw [List.length_reverse, leBytes_length]⟩
  obtain ⟨v, hv⟩ := @structPack_ok 4 _ h.version
  obtain ⟨p, hp⟩ := encodeHash_ok h.prevHash
  obtain ⟨m, hm⟩ := encodeHash_ok h.merkleRoot
  obtain ⟨r, hr⟩ := encodeHash_ok h.registryRoot
  obtain ⟨ts, hts⟩ := @structPack_ok 8 _ h.timestamp
  obtain ⟨t, ht⟩ := encodeHash_ok hhex
  obtain ⟨n, hn⟩ := @structPack_ok 8 _ h.nonce
  have hbytes : ∃ data, b.header.bytes = .ok data :=
    ⟨_, by simp only [BlockHeaderV2.bytes, BlockHeaderV2.toDict, htarget, ok_bind, encodeHeaderV2, hv, hp, hm, hr, hts,
      ht, hn]; rfl⟩
  obtain ⟨data, hdata⟩ := hbytes
  exact ⟨_, hash_eq_ok.mpr ⟨data, hdata, rfl⟩⟩

theorem blockAt_ok {chain : List AnyBlock} {i : Nat} (h : i < chain.length) : ∃ b, blockAt chain i = .ok b :=
  ⟨_, blockAt_eq_ok.mpr (List.getElem?_eq_getElem h)⟩

theorem expectedTargetAt_ok {chain : List AnyBlock} (h : chain ≠ []) : ∃ t, expectedTargetAt chain chain.length = .ok t := by
  have hpos := List.length_pos_iff.mpr h
  obtain ⟨first, hfirst⟩ := blockAt_ok hpos
  obtain ⟨last, hlast⟩ := blockAt_ok (show chain.length - 1 < chain.length by omega)
  unfold expectedTargetAt
  split
  · exact ⟨_, rfl⟩
  · split
    · exact ⟨_, by rw [hfirst, ok_bind]⟩
    · split
      · exact ⟨_, by rw [hlast, ok_bind]⟩
      · unfold retargetAt
        split
        · exact ⟨_, rfl⟩
        · have hinterval : 0 < DIFFICULTY_RETARGET_INTERVAL := by decide
          have hlt : chain.length - DIFFICULTY_RETARGET_INTERVAL < chain.length := by omega
          obtain ⟨window, hwindow⟩ := blockAt_ok hlt
          exact ⟨_, by rw [hwindow, ok_bind, hlast, ok_bind]⟩

theorem merkleRootOf_ok {transactions : List Json} (h : ∀ t ∈ transactions, t.finite = true) :
    ∃ root, merkleRootOf E transactions = .ok root := by
  unfold merkleRootOf
  split
  · exact ⟨_, rfl⟩
  · obtain ⟨hs, hhs⟩ := collect_of_forall fun t ht => (hashObject_ok_iff E t).mpr (h t ht)
    exact ⟨_, by rw [hhs, ok_bind]⟩

theorem verify_ok {referenceTime medianPast expectedTarget : Option Int} {validator : Option (Json → Bool)}
    (ht : b.header.Typed) (hf : ∀ t ∈ b.transactions, t.finite = true) :
    ∃ answer, b.verify E referenceTime false medianPast expectedTarget validator = .ok answer := by
  obtain ⟨root, hroot⟩ := merkleRootOf_ok (E := E) hf
  obtain ⟨hash, hhash⟩ := hash_ok (E := E) ht
  unfold BlockV2.verify
  split
  · exact ⟨_, rfl⟩
  · simp only [Bool.false_eq_true, if_false, ok_bind, hroot, hhash]
    split
    · exact ⟨_, rfl⟩
    · split <;> exact ⟨_, rfl⟩

end

/-! ## The conditions -/

section
variable (E : Primitives)

/-- The header continues the chain: what is checked before anything is read of
the transactions. -/
structure Ledger.Continued (l : Ledger) (b : BlockV2) : Prop where
  linked : ∃ last, l.chain.getLast? = some last ∧ last.hash E = .ok b.header.prevHash
  target : expectedTargetAt l.chain l.chain.length = .ok b.header.target
  version : b.header.version = PROTOCOL_VERSION
  root : ∃ s, l.stateAt E (l.chain.length - 1) = .ok s ∧ registryRoot E s = .ok b.header.registryRoot

/-- Every number can be written, and every transaction the ledger reaches is
legible and, where the registry accepts it, of a height that fits. -/
structure BlockV2.Digestible (b : BlockV2) (l : Ledger) : Prop where
  finite : ∀ t ∈ b.transactions, t.finite = true
  legible : b.Intact E l.transactionValidator → ∀ s u pre t post, l.stateAt E (l.chain.length - 1) = .ok s →
    b.transactions = pre ++ t :: post → l.applyTransactions E s pre l.chain.length = .ok u → LegibleTx t
  fits : b.Intact E l.transactionValidator → ∀ s u pre t post, l.stateAt E (l.chain.length - 1) = .ok s →
    b.transactions = pre ++ t :: post → l.applyTransactions E s (pre ++ [t]) l.chain.length = .ok u →
    HeightFits l.networkId t

/-- The registry accepts the transactions of the block, which a V1 block is not
checked for. -/
def Block.Registered (b : Block) (l : Ledger) : Prop :=
  ∃ s s', l.stateAt E (l.chain.length - 1) = .ok s ∧ l.applyTransactions E s b.transactions l.chain.length = .ok s' ∧
    ∀ t ∈ b.transactions, HeightFits l.networkId t

def Ledger.Unhindered (l : Ledger) (call : AnyBlock × Int) : Prop :=
  l.size + call.1.transactions.length < 2 ^ 64 ∧
    match call.1 with
    | .v1 b => ∀ l', l.addBlockV1 E b call.2 = .ok (true, l') → b.Registered E l
    | .v2 b => l.Continued E b → b.Digestible E l

/-- A ledger that can be extended. -/
structure Ledger.Healthy (l : Ledger) : Prop where
  tip : ∃ last hash, l.chain.getLast? = some last ∧ last.hash E = .ok hash
  state : ∃ s root, l.replay E l.chain = .ok s ∧ registryRoot E s = .ok root

/-- `add_block_v2` appends the block and its new state, and nothing else, or
changes nothing. -/
def Ledger.Answers (l : Ledger) (b : BlockV2) (now : Int) : Prop :=
  (∃ s s', l.stateAt E (l.chain.length - 1) = .ok s ∧ l.applyTransactions E s b.transactions l.chain.length = .ok s' ∧
    l.addBlockV2 E b now = .ok (true, { l with chain := l.chain ++ [.v2 b],
                                               registryStates := l.registryStates.set l.chain.length s' })) ∨
  l.addBlockV2 E b now = .ok (false, l)

end

/-! ## One call -/

section
variable {E : Primitives} {l l' : Ledger} {b : BlockV2} {now : Int} {s s' : RegistryState}

theorem Ledger.Healthy.chain_ne (h : l.Healthy E) : l.chain ≠ [] := by
  intro hnil
  obtain ⟨last, _, hlast, -⟩ := h.tip
  rw [hnil] at hlast
  cases hlast

theorem transactions_keyed {networkId : Str} {ctx : GovernanceContext} {height : Nat} {ts : List Json}
    (hk : s.Keyed) (h : applyTransactionsWith E (parseGovernanceTransaction networkId) ctx s ts height = .ok s') :
    s'.Keyed := by
  refine run_inv _ (fun t _ u u' hu ht => ?_) hk h
  rcases applyTransaction_ok ht with ⟨-, rfl⟩ | ⟨tx, txid, hp, -, ha⟩
  · exact hu
  · exact keyed_step (applyRegistryTransaction_ok E ha) hu (parse_clean hp)

theorem replay_keyed {c : List AnyBlock} (h : l.replay E c = .ok s) : s.Keyed := by
  obtain ⟨g, hg, hr⟩ := bind_eq_ok.mp h
  have hrec : g.Keyed := fun r hr => by
    rw [genesisState_records hg] at hr
    cases hr
  exact run_inv _ (fun p _ u u' hu ht => transactions_keyed hu ht) hrec hr

/-- **The transactions of a block are answered.** -/
theorem transactions_fail (hw : s.Writable) (hk : s.Keyed) (hcount : s.records.length + b.transactions.length < 2 ^ 64)
    (hschema : ∀ t ∈ b.transactions, schemaOk t = true)
    (hlegible : ∀ u pre t post, b.transactions = pre ++ t :: post →
      l.applyTransactions E s pre l.chain.length = .ok u → LegibleTx t)
    (hfits : ∀ u pre t post, b.transactions = pre ++ t :: post →
      l.applyTransactions E s (pre ++ [t]) l.chain.length = .ok u → HeightFits l.networkId t) :
    FailsOnly Refusal (l.applyTransactions E s b.transactions l.chain.length) := by
  intro e he
  obtain ⟨pre, t, post, u, hsplit, hpre, hstep⟩ := (run_eq_error _).mp he
  have hheights : ∀ x ∈ pre, HeightFits l.networkId x := by
    intro x hx
    obtain ⟨before, after, rfl⟩ := List.append_of_mem hx
    have hb : b.transactions = before ++ x :: (after ++ t :: post) := by rw [hsplit]; simp
    have hx : before ++ x :: after = (before ++ [x]) ++ after := by simp
    rw [hx] at hpre
    obtain ⟨v, hv, -⟩ := (run_append_ok _).mp hpre
    exact hfits v before x _ hb hv
  have huw := (transactions_writable hw hpre).mpr hheights
  have huk := transactions_keyed hk hpre
  have hlen := transactions_length hpre
  have hpost := congrArg List.length hsplit
  rw [List.length_append, List.length_cons] at hpost
  have hl := hlegible u pre t post hsplit hpre
  have hs := hschema t (by rw [hsplit]; simp)
  have hfails : FailsOnly Refusal
      (applyTransactionWith E (parseGovernanceTransaction l.networkId) l.governanceContext l.chain.length u t) := by
    refine (parse_fails hs hl).bind fun parsed hp => ?_
    cases parsed with
    | none => exact failsOnly_of_ok ⟨_, rfl⟩
    | some tx =>
      exact (failsOnly_of_ok (canonicalTxid_ok (toDict_finite tx))).bind fun _ _ =>
        apply_fails huw (by omega) huk (parse_clean hp)
  exact hfails e hstep

theorem transactionsOk_schema {validator : Option (Json → Bool)} {ts : List Json}
    (h : transactionsOk validator ts = true) : ∀ t ∈ ts, schemaOk t = true := by
  rw [transactionsOk, Bool.and_eq_true, List.all_eq_true] at h
  exact h.1

/-- **Step.** -/
theorem answers_of_healthy (hl : l.Healthy E) (ht : b.header.Typed) (hu : l.Unhindered E (.v2 b, now)) :
    l.Answers E b now := by
  have hne := hl.chain_ne
  obtain ⟨last, hash, hlast, hhash⟩ := hl.tip
  obtain ⟨s, root, hs, hroot⟩ := hl.state
  obtain ⟨target, htarget⟩ := expectedTargetAt_ok hne
  have hstate := tip_state (E := E) hne
  rw [hs] at hstate
  obtain ⟨applied, hadd, htaken, hfailed⟩ : ∃ applied, l.addBlockV2 E b now =
      (if b.header.prevHash ≠ hash then Except.ok (false, l)
      else if b.header.target ≠ target then .ok (false, l)
      else if b.header.version ≠ PROTOCOL_VERSION then .ok (false, l)
      else if b.header.registryRoot ≠ root then .ok (false, l)
      else do
        let ok ← b.verify E (some now) false (some (medianPastTime l.chain l.chain.length 11)) (some target)
          l.transactionValidator
        if ok = false then .ok (false, l) else applied) ∧
      (∀ s', l.applyTransactions E s b.transactions l.chain.length = .ok s' →
        applied = .ok (true, { l with chain := l.chain ++ [.v2 b],
                                      registryStates := l.registryStates.set l.chain.length s' })) ∧
      ∀ e, l.applyTransactions E s b.transactions l.chain.length = .error e →
        applied = if Ledger.rejects e then .ok (false, l) else .error e := by
    unfold Ledger.addBlockV2
    simp only [htarget, Ledger.lastBlock, hlast, orRaise, ok_bind, hhash, hstate, hroot]
    exact ⟨_, rfl, fun s' h => by rw [h], fun e h => by rw [h]⟩
  by_cases hprev : b.header.prevHash = hash
  swap
  · exact .inr (hadd.trans (if_pos hprev))
  by_cases htgt : b.header.target = target
  swap
  · exact .inr (hadd.trans (by rw [if_neg (not_not.mpr hprev), if_pos htgt]))
  by_cases hver : b.header.version = PROTOCOL_VERSION
  swap
  · exact .inr (hadd.trans (by rw [if_neg (not_not.mpr hprev), if_neg (not_not.mpr htgt), if_pos hver]))
  by_cases hrr : b.header.registryRoot = root
  swap
  · exact .inr (hadd.trans (by rw [if_neg (not_not.mpr hprev), if_neg (not_not.mpr htgt), if_neg (not_not.mpr hver),
      if_pos hrr]))
  have hc : l.Continued E b := ⟨⟨last, hlast, hprev ▸ hhash⟩, htgt ▸ htarget, hver, s, hstate, hrr ▸ hroot⟩
  have hd := hu.2 hc
  obtain ⟨ok, hok⟩ := verify_ok (E := E) ht hd.finite
  rw [if_neg (not_not.mpr hprev), if_neg (not_not.mpr htgt), if_neg (not_not.mpr hver), if_neg (not_not.mpr hrr),
    hok, ok_bind] at hadd
  cases ok with
  | false => exact .inr (hadd.trans (if_pos rfl))
  | true =>
    have hintact := ((verify_iff E).mp hok).1
    obtain ⟨hw, -⟩ := (registryRoot_ok_iff E).mp ⟨root, hroot⟩
    have hcount := replay_length hs
    have hsize := hu.1
    have hfails := transactions_fail hw (replay_keyed hs) (Nat.lt_of_le_of_lt (Nat.add_le_add_right hcount _) hsize)
      (transactionsOk_schema hintact.transactions)
      (fun u pre t post => hd.legible hintact s u pre t post hstate)
      (fun u pre t post => hd.fits hintact s u pre t post hstate)
    cases happ : l.applyTransactions E s b.transactions l.chain.length with
    | ok s' =>
      exact .inl ⟨s, s', hstate, happ, (hadd.trans (if_neg (by decide))).trans (htaken s' happ)⟩
    | error e =>
      have he : Ledger.rejects e = true := hfails e happ
      exact .inr ((hadd.trans (if_neg (by decide))).trans ((hfailed e happ).trans (if_pos he)))

/-! ## Runs of calls -/

theorem addBlockV2_false (h : l.addBlockV2 E b now = .ok (false, l')) : l' = l := by
  unfold Ledger.addBlockV2 at h
  simp only [bind_eq_ok] at h
  obtain ⟨_, -, _, -, _, -, h⟩ := h
  split at h
  · cases h; rfl
  split at h
  · cases h; rfl
  split at h
  · cases h; rfl
  obtain ⟨_, -, _, -, h⟩ := by simpa only [bind_eq_ok] using h
  split at h
  · cases h; rfl
  obtain ⟨_, -, h⟩ := bind_eq_ok.mp h
  split at h
  · cases h; rfl
  split at h
  · cases h
  · split at h
    · cases h; rfl
    · cases h

theorem verifyV1_hash {b : Block} {clock : Int} {referenceTime medianPast expectedTarget : Option Int}
    {validator : Option (Json → Bool)} {allowGenesis : Bool}
    (h : b.verify E clock referenceTime allowGenesis medianPast expectedTarget validator = .ok true) :
    ∃ hash, b.hash E = .ok hash := by
  unfold Block.verify at h
  split at h
  · cases h
  obtain ⟨_, -, h⟩ := bind_eq_ok.mp h
  split at h
  · cases h
  obtain ⟨hash, hh, -⟩ := bind_eq_ok.mp h
  exact ⟨hash, hh⟩

theorem addBlockV1_ok {b : Block} {answer : Bool} (h : l.addBlockV1 E b now = .ok (answer, l')) :
    (answer = false ∧ l' = l) ∨
      (answer = true ∧ l' = { l with chain := l.chain ++ [.v1 b] } ∧ ∃ hash, b.hash E = .ok hash) := by
  unfold Ledger.addBlockV1 at h
  simp only [bind_eq_ok] at h
  obtain ⟨_, -, _, -, _, -, h⟩ := h
  split at h
  · cases h; exact .inl ⟨rfl, rfl⟩
  split at h
  · cases h; exact .inl ⟨rfl, rfl⟩
  obtain ⟨ok, hok, h⟩ := bind_eq_ok.mp h
  split at h
  · rename_i hok'
    cases h
    exact .inr ⟨rfl, rfl, verifyV1_hash (hok' ▸ hok)⟩
  · cases h; exact .inl ⟨rfl, rfl⟩

/-- A chain grown by a block whose transactions apply, with heights that fit. -/
theorem healthy_grown {grown : Ledger} {block : AnyBlock} (hl : l.Healthy E) (hs : l.replay E l.chain = .ok s)
    (hchain : grown.chain = l.chain ++ [block]) (hreplay : ∀ c, grown.replay E c = l.replay E c)
    (hhash : ∃ hash, block.hash E = .ok hash)
    (happ : l.applyTransactions E s block.transactions l.chain.length = .ok s')
    (hfits : ∀ t ∈ block.transactions, HeightFits l.networkId t) (hsize : l.size + block.transactions.length < 2 ^ 64) :
    grown.Healthy E := by
  obtain ⟨hash, hhash⟩ := hhash
  obtain ⟨s₁, root, hs₁, hroot⟩ := hl.state
  obtain rfl : s = s₁ := Except.ok.inj (hs.symm.trans hs₁)
  have hw := (transactions_writable ((registryRoot_ok_iff E).mp ⟨root, hroot⟩).1 happ).mpr hfits
  have hcount := replay_length hs
  have hgrowth := transactions_length happ
  have hsize' : l.size = (l.chain.flatMap AnyBlock.transactions).length := rfl
  obtain ⟨root', hroot'⟩ := (registryRoot_ok_iff E).mpr ⟨hw, by omega⟩
  refine ⟨⟨block, hash, by rw [hchain, List.getLast?_concat], hhash⟩, s', root', ?_, hroot'⟩
  rw [hchain, hreplay, replay_append hl.chain_ne hs]
  exact happ

theorem healthy_step {call : AnyBlock × Int} (hl : l.Healthy E) (hu : l.Unhindered E call)
    (h : l.callStep E call = .ok l') : l'.Healthy E := by
  obtain ⟨block, now⟩ := call
  obtain ⟨⟨answer, l''⟩, hadd, hl'⟩ := bind_eq_ok.mp h
  obtain rfl : l'' = l' := Except.ok.inj hl'
  have hne := hl.chain_ne
  cases block with
  | v1 b =>
    rcases addBlockV1_ok hadd with ⟨rfl, rfl⟩ | ⟨rfl, rfl, hhash⟩
    · exact hl
    · obtain ⟨s, s', hs, happ, hfits⟩ := hu.2 _ hadd
      rw [tip_state hne] at hs
      exact healthy_grown hl hs rfl (fun _ => replay_congr rfl rfl rfl rfl) hhash happ hfits hu.1
  | v2 b =>
    cases answer with
    | false => rw [addBlockV2_false hadd]; exact hl
    | true =>
      obtain ⟨-, s, s', hf, rfl⟩ := (addBlockV2_true_iff hne).mp hadd
      have hstate := (tip_state hne).trans hf.replayed
      have hd := hu.2 ⟨hf.linked, hf.target, hf.intact.version, s, hstate, hf.root⟩
      have hfits : ∀ t ∈ b.transactions, HeightFits l.networkId t := by
        intro t ht
        obtain ⟨pre, post, hsplit⟩ := List.append_of_mem ht
        have happ := hf.applied
        rw [hsplit, show pre ++ t :: post = (pre ++ [t]) ++ post by simp] at happ
        obtain ⟨u, hu, -⟩ := (run_append_ok _).mp happ
        exact hd.fits hf.intact s u pre t post hstate hsplit hu
      obtain ⟨hash, hhash, -⟩ := hf.intact.work
      exact healthy_grown hl hf.replayed rfl (fun _ => replay_congr rfl rfl rfl rfl) ⟨hash, hhash⟩ hf.applied hfits hu.1

theorem healthy_run {l₀ : Ledger} {calls : List (AnyBlock × Int)} (hl : l₀.Healthy E)
    (hcalls : EachStep (Ledger.callStep E) l₀ calls fun l call _ => l.Unhindered E call)
    (h : run (Ledger.callStep E) l₀ calls = .ok l) : l.Healthy E := by
  induction calls generalizing l₀ with
  | nil => cases h; exact hl
  | cons call calls ih =>
    obtain ⟨u, hu, hr⟩ := (run_cons_ok _).mp h
    refine ih (healthy_step hl (hcalls [] call calls l₀ u rfl (run_nil _ _) hu) hu) ?_ hr
    intro pre a post t t' hc hpre ha
    exact hcalls (call :: pre) a post t t' (by rw [hc]; rfl) ((run_cons_ok _).mpr ⟨u, hu, hpre⟩) ha

theorem matched_hash {identity : NetworkIdentity} {g : BlockV2} (h : identityMatchesGenesis E identity (some g) = .ok true) :
    ∃ hash, g.hash E = .ok hash := by
  unfold identityMatchesGenesis at h
  dsimp only at h
  split at h
  · cases h
  split at h
  · cases h
  obtain ⟨hash, hh, -⟩ := bind_eq_ok.mp h
  exact ⟨hash, hh⟩

/-- A ledger that made its own genesis block and checked it is healthy. -/
theorem init_healthy {args : LedgerArgs} (h : Ledger.init E args = .ok l) (hchain : args.chain = none)
    (hstrict : args.strictIdentity = true) : l.Healthy E := by
  have hparts : ∃ (base : Ledger) (g : BlockV2), (base.on [.v2 g] base.registryStates).validateGenesisIdentity E = .ok () ∧
      (base.on [.v2 g] base.registryStates).replayRegistryStates E = .ok l := by
    unfold Ledger.init at h
    simp only [hchain, hstrict, if_true] at h
    split at h
    all_goals
      simp only [bind_eq_ok] at h
      obtain ⟨identity, -, g, -, _, hg, ctx, -, _, hval, _, -, hrep⟩ := h
      cases hg
      exact ⟨⟨[], identity, args.transactionValidator, Ledger.orKeys args.governanceKeys identity.governanceKeys,
        args.governanceThreshold.getD identity.governanceThreshold, ctx, fun _ => none⟩, g, hval, hrep⟩
  obtain ⟨base, g, hval, hrep⟩ := hparts
  obtain ⟨cache, rfl, -⟩ := replayRegistryStates_ok (by simp) hrep
  obtain ⟨hm, s, hs, hroot⟩ := validateGenesisIdentity_ok hval
  obtain ⟨hash, hhash⟩ := matched_hash hm
  exact ⟨⟨.v2 g, hash, rfl, hhash⟩, s, _, hs, hroot⟩

end

theorem isHex32_of {h : Str} (hh : (fromHex h).any (·.length == 32) = true) : IsHex32 h := by
  unfold IsHex32
  cases hr : fromHex h with
  | none => rw [hr] at hh; cases hh
  | some raw =>
    rw [hr] at hh
    exact ⟨raw, rfl, eq_of_beq hh⟩

theorem alphaChild_typed : alphaChild.header.Typed where
  version := ⟨by decide, by decide⟩
  prevHash := isHex32_of (by decide +kernel)
  merkleRoot := isHex32_of (by decide +kernel)
  registryRoot := isHex32_of (by decide +kernel)
  timestamp := ⟨by decide, by decide⟩
  target := ⟨by decide, by decide⟩
  nonce := ⟨by decide, by decide⟩

set_option maxRecDepth 100000 in
theorem alphaLedger_empty : ∃ l₀, Ledger.init (recorded []) {} = .ok l₀ ∧ (l₀.size == 0) = true :=
  of_okAnd (by decide +kernel)

/-- Rotates the key of alice without a signature of hers. -/
def unsignedRotation : Json := .dict
  [(str "type", .str (str "governance")),
    (str "body", .dict
      [(str "action", .str (str "curator_rotate")),
        (str "curator_id", .str (str "alice")),
        (str "public_key_hex", .str zeroHash),
        (str "new_public_key_hex", .str (List.replicate 64 49)),
        (str "activation_height", .int 9),
        (str "previous_registry_root", .str zeroHash),
        (str "network_id", .str NETWORK_ID),
        (str "schema_version", .int 1),
        (str "governance_signatures", .list [.dict
          [(str "key_index", .int 0), (str "signature", .str (List.replicate 128 48))]])])]

def unsignedBlock : BlockV2 where
  header := { genesisHeader GENESIS_REGISTRY_ROOT 1704067800 with
    prevHash := GENESIS_HASH
    merkleRoot := str "99877a38bdbf292a5e92e952c1f2c3920912c1d3e5594fbf978b2c0851bed427"
    nonce := 17571 }
  transactions := [unsignedRotation]

theorem unsignedBlock_typed : unsignedBlock.header.Typed where
  version := ⟨by decide, by decide⟩
  prevHash := isHex32_of (by decide +kernel)
  merkleRoot := isHex32_of (by decide +kernel)
  registryRoot := isHex32_of (by decide +kernel)
  timestamp := ⟨by decide, by decide⟩
  target := ⟨by decide, by decide⟩
  nonce := ⟨by decide, by decide⟩

set_option maxRecDepth 100000 in
theorem unsignedBlock_raises : ∃ l₀, Ledger.init (recorded []) {} = .ok l₀ ∧
    (!(l₀.addBlockV2 (recorded []) unsignedBlock 1704067800).isOk) = true :=
  of_okAnd (by decide +kernel)

end ChainBreaker
