import ChainBreaker.GovernanceErrors
import ChainBreaker.Completeness

/-!
# Registry roots after accepted blocks

The header of a block commits to the registry state below it. The registry
accepts a height that its records have no room for, and the state then has no
root: the block that brings it is appended, and no block after it can be.
-/

namespace ChainBreaker

open Fallible

/-! ## Calls -/

/-- The number of transactions on the chain. -/
def Ledger.size (l : Ledger) : Nat := (l.chain.flatMap AnyBlock.transactions).length

section
variable (E : Primitives)

/-- One call of `add_block`, by a node whose clock shows the second component. -/
def Ledger.callStep (l : Ledger) (call : AnyBlock × Int) : Except PyErr Ledger := do
  let answer ← l.addBlock E call.1 call.2
  .ok answer.2

/-- The state after the newest block is in the cache, is the one replayed from
the chain, and has a root, so that the header of a next block can name it. -/
def Ledger.TipRoot (l : Ledger) : Prop :=
  ∃ s root, l.registryStates (l.chain.length - 1) = some s ∧ l.stateAt E (l.chain.length - 1) = .ok s ∧
    registryRoot E s = .ok root

end

section
variable {E : Primitives} {l l' : Ledger} {c : List AnyBlock} {b : BlockV2} {now : Int} {s s' : RegistryState}

theorem replayStep_length {blocks : List (AnyBlock × Nat)} : ∀ {s : RegistryState},
    run (l.replayStep E) s blocks = .ok s' →
    s'.records.length ≤ s.records.length + (blocks.flatMap fun p => p.1.transactions).length := by
  induction blocks with
  | nil => intro s h; cases h; simp
  | cons p blocks ih =>
    intro s h
    obtain ⟨u, hu, hr⟩ := (run_cons_ok _).mp h
    have hone : u.records.length ≤ s.records.length + p.1.transactions.length := transactions_length hu
    have := ih hr
    simp only [List.flatMap_cons, List.length_append]
    omega

theorem numbered_fst (c : List AnyBlock) : (numbered c).map Prod.fst = c.tail := by
  simp [numbered, List.zipIdx_map_fst]

theorem genesisState_records (h : l.genesisState = .ok s) : s.records = [] := by
  simp only [Ledger.genesisState, bind_eq_ok] at h
  obtain ⟨g, hg, h⟩ := h
  have hnil := (genesis_ok hg).1
  split at h <;> cases h
  · exact hnil
  · exact hnil

/-- Every transaction adds at most one record. -/
theorem replay_length (h : l.replay E c = .ok s) : s.records.length ≤ (c.flatMap AnyBlock.transactions).length := by
  obtain ⟨g, hg, hr⟩ := bind_eq_ok.mp h
  have hrec := genesisState_records hg
  have hlen := replayStep_length hr
  have hflat : (numbered c).flatMap (fun p => p.1.transactions) = c.tail.flatMap AnyBlock.transactions := by
    rw [← numbered_fst, List.flatMap_map]
  rw [hflat, hrec] at hlen
  cases c with
  | nil => simpa using hlen
  | cons g rest =>
    simp only [List.tail_cons, List.flatMap_cons, List.length_append, List.length_nil] at hlen ⊢
    omega

/-- **Step.** After a block is appended its state has a root exactly when every
height its transactions carry fits. -/
theorem tipRoot_iff (h : l.addBlockV2 E b now = .ok (true, l')) (hsize : l'.size < 2 ^ 64) :
    l'.TipRoot E ↔ ∀ t ∈ b.transactions, HeightFits l.networkId t := by
  have hne := chain_ne_of_added h
  obtain ⟨-, s, s', hf, rfl⟩ := (addBlockV2_true_iff hne).mp h
  have hwrit := ((registryRoot_ok_iff E).mp ⟨_, hf.root⟩).1
  rw [← transactions_writable hwrit hf.applied]
  have hreplay := hf.replay_append hne
  have hcount : s'.records.length < 2 ^ 64 := by
    have := replay_length hreplay
    exact Nat.lt_of_le_of_lt this hsize
  have htip : (l.chain ++ [AnyBlock.v2 b]).length - 1 = l.chain.length := by simp
  have hstate : ({ l with chain := l.chain ++ [.v2 b],
                          registryStates := l.registryStates.set l.chain.length s' } : Ledger).stateAt E l.chain.length =
      .ok s' := by
    rw [stateAt_eq (by simp), List.take_of_length_le (by simp)]
    exact hreplay
  unfold Ledger.TipRoot
  simp only [htip, hstate, Except.ok.injEq, StateCache.set, if_true, Option.some.injEq]
  constructor
  · rintro ⟨_, root, rfl, -, hroot⟩
    exact ((registryRoot_ok_iff E).mp ⟨root, hroot⟩).1
  · intro hw
    obtain ⟨root, hroot⟩ := (registryRoot_ok_iff E).mpr ⟨hw, hcount⟩
    exact ⟨s', root, rfl, rfl, hroot⟩

theorem callStep_added {call : AnyBlock × Int} (hb : call.1 = .v2 b) (h : l.addBlockV2 E b call.2 = .ok (true, l')) :
    l.callStep E call = .ok l' := by
  rw [Ledger.callStep, hb]
  change l.addBlockV2 E b call.2 >>= _ = _
  rw [h, ok_bind]

/-- **No accepted block loses the root.** Over the calls a ledger answers, the
state after every appended block has a root exactly when every height its
governance transactions carry fits the eight bytes of the registry's records. -/
theorem roots_kept_iff {calls : List (AnyBlock × Int)}
    (hsize : EachStep (Ledger.callStep E) l calls fun _ _ l' => l'.size < 2 ^ 64) :
    (EachStep (Ledger.callStep E) l calls fun l call l' => ∀ b, call.1 = .v2 b →
      l.addBlockV2 E b call.2 = .ok (true, l') → l'.TipRoot E) ↔
    EachStep (Ledger.callStep E) l calls fun l call l' => ∀ b, call.1 = .v2 b →
      l.addBlockV2 E b call.2 = .ok (true, l') → ∀ t ∈ b.transactions, HeightFits l.networkId t := by
  constructor
  · intro h pre call post t t' hc hr ht b hb hadd
    exact (tipRoot_iff hadd (hsize pre call post t t' hc hr ht)).mp (h pre call post t t' hc hr ht b hb hadd)
  · intro h pre call post t t' hc hr ht b hb hadd
    exact (tipRoot_iff hadd (hsize pre call post t t' hc hr ht)).mpr (h pre call post t t' hc hr ht b hb hadd)

end

set_option maxRecDepth 100000 in
theorem alphaLedger_grown : ∃ l₀, Ledger.init (recorded []) {} = .ok l₀ ∧
    okAnd (fun answer => answer.1 && answer.2.size == 0) (l₀.addBlockV2 (recorded []) alphaChild 1704067800) = true :=
  of_okAnd (by decide +kernel)

/-- The first block of the alpha network leaves a root behind. -/
theorem roots_kept_alphaChild : ∃ l₀ l', Ledger.init (recorded []) {} = .ok l₀ ∧
    l₀.callStep (recorded []) (.v2 alphaChild, 1704067800) = .ok l' ∧ l'.TipRoot (recorded []) := by
  obtain ⟨l₀, hl₀, h⟩ := alphaLedger_grown
  obtain ⟨⟨added, l'⟩, hl', hadded⟩ := of_okAnd h
  rw [Bool.and_eq_true] at hadded
  obtain ⟨rfl, hempty⟩ := hadded
  have hstep : l₀.callStep (recorded []) (.v2 alphaChild, 1704067800) = .ok l' := callStep_added rfl hl'
  have honly : ∀ {pre post : List (AnyBlock × Int)} {call}, [(.v2 alphaChild, 1704067800)] = pre ++ call :: post →
      pre = [] ∧ call = (.v2 alphaChild, 1704067800) := by
    intro pre post call h
    cases pre with
    | nil => exact ⟨rfl, (List.cons.inj h).1.symm⟩
    | cons _ pre => exact absurd (List.cons.inj h).2 (by simp)
  have hsize : EachStep (Ledger.callStep (recorded [])) l₀ [(.v2 alphaChild, 1704067800)]
      fun _ _ l' => l'.size < 2 ^ 64 := by
    intro pre call post t t' hc hr ht
    obtain ⟨rfl, rfl⟩ := honly hc
    cases hr
    obtain rfl : t' = l' := Except.ok.inj (ht.symm.trans hstep)
    rw [eq_of_beq hempty]
    decide
  have hkept := (roots_kept_iff hsize).mpr fun pre call post t t' hc hr ht b hb hadd => by
    obtain ⟨rfl, rfl⟩ := honly hc
    cases hb
    exact fun t ht => by cases ht
  exact ⟨l₀, l', hl₀, hstep, hkept [] _ [] l₀ l' rfl (run_nil _ _) hstep alphaChild rfl hl'⟩

/-! ## A height too great for the registry -/

/-- Registers alice on the development network, in force from `2 ^ 64`. -/
def registerNever : Json := .dict
  [(str "type", .str (str "governance")),
    (str "body", .dict
      [(str "action", .str (str "curator_register")),
        (str "curator_id", .str (str "alice")),
        (str "public_key_hex", .str aliceKey₁),
        (str "activation_height", .int (2 ^ 64)),
        (str "previous_registry_root", .str devRoot),
        (str "network_id", .str (str "chainbreaker-dev")),
        (str "schema_version", .int 1),
        (str "governance_signatures", .list [.dict
          [(str "key_index", .int 0),
            (str "signature", .str (str "2933709337183178035e70b4220e2124083f3f29ba6c2cf7980465d901b1e75e1eecc49bd59f9c080bcd712e61ba3446740e2ed885ecccb71b67a70a39fd1403"))]])])]

def neverBlock : BlockV2 where
  header := { genesisHeader devRoot 1704090439 with
    prevHash := devGenesisHash
    merkleRoot := str "469336bce21dd2faeb5691833563b0e779134d0694f00c86724fdcfdc486b2d1"
    nonce := 43315 }
  transactions := [registerNever]

def devPrimitives : Primitives := recorded
  [(devKey, str "1350326926c2fecf4c7524b55bd2f9471af58135a08c9d0785b8268df55b542e",
    str "2933709337183178035e70b4220e2124083f3f29ba6c2cf7980465d901b1e75e1eecc49bd59f9c080bcd712e61ba3446740e2ed885ecccb71b67a70a39fd1403")]

set_option maxRecDepth 100000 in
theorem neverBlock_added : ∃ l₀, Ledger.init devPrimitives { networkIdentity := some devIdentity } = .ok l₀ ∧
    okAnd (fun answer => answer.1 && answer.2.chain.length == 2 && okAnd (fun s => !(registryRoot devPrimitives s).isOk)
      (answer.2.stateAt devPrimitives 1)) (l₀.addBlockV2 devPrimitives neverBlock 1704090439) = true :=
  of_okAnd (by decide +kernel)

example : (encodeVarint (2 ^ 64)).isOk = false := by decide +kernel

/-- A registration from height `2 ^ 64` on is accepted, and the state after it
has no root. -/
theorem root_lost : ¬ ∀ (E : Primitives) (args : LedgerArgs) (l₀ l l' : Ledger) (calls : List (AnyBlock × Int))
    (b : BlockV2) (now : Int), Ledger.init E args = .ok l₀ → run (Ledger.callStep E) l₀ calls = .ok l →
      l.addBlockV2 E b now = .ok (true, l') → l'.TipRoot E := by
  intro h
  obtain ⟨l₀, hl₀, hadd⟩ := neverBlock_added
  obtain ⟨⟨added, l'⟩, hl', hadded⟩ := of_okAnd hadd
  simp only [Bool.and_eq_true] at hadded
  obtain ⟨⟨rfl, hlen⟩, hstate⟩ := hadded
  obtain ⟨s, hs, hroot⟩ := of_okAnd hstate
  obtain ⟨s', root, -, hs', hroot'⟩ := h _ _ _ _ _ [] _ _ hl₀ (run_nil _ _) hl'
  rw [eq_of_beq hlen] at hs'
  obtain rfl : s = s' := Except.ok.inj (hs.symm.trans hs')
  rw [hroot'] at hroot
  cases hroot

end ChainBreaker
