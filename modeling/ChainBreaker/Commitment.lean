import ChainBreaker.Batch
import ChainBreaker.CanonicalJson
import ChainBreaker.Lib.PairTree
import Mathlib.Data.List.Dedup

/-!
# What a header says about the transactions

A header holds the Merkle root of the transactions of its block. A last node
without a partner is paired with itself, so the root leaves open how many
transactions there are; among lists of one length it determines the list
(`header_commits_iff`).
-/

namespace ChainBreaker

open Fallible PairTree

/-! ## The Merkle tree as a tree of pairs -/

section
variable (E : Primitives)

/-- The node above a pair. -/
def merkleNode (p : Bytes × Bytes) : Bytes := doubleSha256 E (p.1 ++ p.2)

theorem nextLevel_eq : ∀ l : List Bytes, nextLevel E l = (pairs l).map (merkleNode E)
  | [] => rfl
  | [_] => rfl
  | a :: b :: rest => by rw [nextLevel, pairs, List.map_cons, nextLevel_eq rest, merkleNode]

theorem buildLevels_ne_nil (n : Nat) (l : List Bytes) : buildLevels E n l ≠ [] := by
  cases n with
  | zero => simp [buildLevels]
  | succ n => unfold buildLevels; split <;> simp

theorem buildLevels_root (n : Nat) : ∀ l : List Bytes,
    (buildLevels E n l).getLast?.bind List.head? = climb (merkleNode E) n l := by
  induction n with
  | zero => intro l; rfl
  | succ n ih =>
    intro l
    unfold buildLevels climb
    split
    · rw [← nextLevel_eq, ← ih, List.getLast?_cons]
      rw [List.getLast?_eq_getLast_of_ne_nil (buildLevels_ne_nil E n _), Option.getD_some]
    · rfl

theorem merkleTreeRoot_eq {leaves : List Bytes} (h : leaves ≠ []) :
    merkleTreeRoot E leaves = climb (merkleNode E) leaves.length leaves := by
  have hne : leaves.isEmpty = false := by simpa using h
  rw [merkleTreeRoot, merkleLevels, hne, if_neg (by decide), buildLevels_root]

/-- What is hashed for the Merkle root: the transactions, and at every node the
two digests below it and their digest. -/
def merkleMessages (transactions : List Json) : Except PyErr (List Bytes) := do
  let texts ← collect (canonicalJson E) transactions
  let leaves := texts.map E.sha256
  .ok (texts ++ (met (merkleNode E) leaves.length leaves).flatMap fun p => [p.1 ++ p.2, E.sha256 (p.1 ++ p.2)])

/-- A message hashed for the Merkle root of the transactions. -/
def MerkleHashed (transactions : List Json) (m : Bytes) : Prop :=
  ∃ messages, merkleMessages E transactions = .ok messages ∧ m ∈ messages

/-- No two of the messages have one digest. -/
def CollisionFree (M : Bytes → Prop) : Prop := ∀ m m', M m → M m' → E.sha256 m = E.sha256 m' → m = m'

end

/-! ## The root determines a list of known length -/

section
variable {E : Primitives} {ts ts' : List Json}

theorem hashObject_eq_ok {v : Json} {d : Bytes} :
    hashObject E v = .ok d ↔ ∃ m, canonicalJson E v = .ok m ∧ d = E.sha256 m := by
  rw [hashObject, bind_eq_ok]
  constructor
  · rintro ⟨m, hm, h⟩
    exact ⟨m, hm, (Except.ok.inj h).symm⟩
  · rintro ⟨m, hm, rfl⟩
    exact ⟨m, hm, rfl⟩

theorem leaves_ok : ∀ {ts : List Json} {leaves : List Bytes}, collect (hashObject E) ts = .ok leaves →
    ∃ texts, collect (canonicalJson E) ts = .ok texts ∧ leaves = texts.map E.sha256
  | [], leaves, h => by cases h; exact ⟨[], rfl, rfl⟩
  | t :: ts, leaves, h => by
    simp only [collect, bind_eq_ok, hashObject_eq_ok] at h
    obtain ⟨_, ⟨m, hm, rfl⟩, ds, hds, h⟩ := h
    cases h
    obtain ⟨texts, htexts, rfl⟩ := leaves_ok hds
    exact ⟨m :: texts, by rw [collect, hm, ok_bind, htexts, ok_bind], rfl⟩

theorem collect_length {texts : List Bytes} (h : collect (canonicalJson E) ts = .ok texts) : texts.length = ts.length :=
  (List.Forall₂.length_eq (collect_eq_ok.mp h)).symm

/-- The root of at least one transaction is the top over the digests of the texts. -/
theorem merkleRootOf_top {root : Str} (hne : ts ≠ []) (h : merkleRootOf E ts = .ok root) :
    ∃ texts, collect (canonicalJson E) ts = .ok texts ∧
      ∃ top, climb (merkleNode E) texts.length (texts.map E.sha256) = some top ∧ root = toHex top := by
  have hfull : ts.isEmpty = false := by simpa using hne
  rw [merkleRootOf, hfull, if_neg (by decide)] at h
  obtain ⟨leaves, hleaves, h⟩ := bind_eq_ok.mp h
  obtain ⟨texts, htexts, rfl⟩ := leaves_ok hleaves
  have htne : texts.map E.sha256 ≠ [] := by
    intro hnil
    rw [List.map_eq_nil_iff] at hnil
    rw [hnil] at htexts
    exact hne (List.length_eq_zero_iff.mp (collect_length htexts).symm)
  rw [merkleTreeRoot_eq E htne, List.length_map] at h
  obtain ⟨top, htop⟩ := Option.isSome_iff_exists.mp (climb_isSome (merkleNode E) texts.length htne)
  rw [htop] at h
  exact ⟨texts, htexts, top, htop, (Except.ok.inj h).symm⟩

theorem texts_determine (hfl : FloatRepr E.floatRepr) : ∀ {ts ts' : List Json} {texts : List Bytes},
    (∀ t ∈ ts, t.decoded = true) → (∀ t ∈ ts', t.decoded = true) → collect (canonicalJson E) ts = .ok texts →
    collect (canonicalJson E) ts' = .ok texts → ts.map Json.norm = ts'.map Json.norm := by
  intro ts ts' texts hd hd' h h'
  rw [collect_eq_ok] at h h'
  induction h generalizing ts' with
  | nil => cases h'; rfl
  | @cons t m ts texts ht _ ih =>
    cases h' with
    | @cons t' _ ts' _ ht' h' =>
      rw [List.map_cons, List.map_cons, canonicalJson_inj hfl (hd t (.head _)) (hd' t' (.head _)) ht ht',
        ih (fun x hx => hd x (.tail _ hx)) (fun x hx => hd' x (.tail _ hx)) h']

/-- Collision-free hashing tells the nodes over pairs of digests apart. -/
theorem merkleNode_inj {M : Bytes → Prop} (hfree : CollisionFree E M) {p q : Bytes × Bytes}
    (hp : M (p.1 ++ p.2) ∧ M (E.sha256 (p.1 ++ p.2))) (hq : M (q.1 ++ q.2) ∧ M (E.sha256 (q.1 ++ q.2)))
    (hlen : p.1.length = q.1.length) (h : merkleNode E p = merkleNode E q) : p = q := by
  have hinner := hfree _ _ hp.2 hq.2 h
  obtain ⟨h₁, h₂⟩ := List.append_inj (hfree _ _ hp.1 hq.1 hinner) hlen
  exact Prod.ext h₁ h₂

theorem merkleRoot_inj (hfl : FloatRepr E.floatRepr)
    (hfree : CollisionFree E fun m => MerkleHashed E ts m ∨ MerkleHashed E ts' m)
    (hd : ∀ t ∈ ts, t.decoded = true) (hd' : ∀ t ∈ ts', t.decoded = true) {root : Str}
    (h : merkleRootOf E ts = .ok root) (h' : merkleRootOf E ts' = .ok root) (hlen : ts.length = ts'.length) :
    ts.map Json.norm = ts'.map Json.norm := by
  by_cases hnil : ts = []
  · subst hnil
    rw [List.length_eq_zero_iff.mp hlen.symm]
  have hnil' : ts' ≠ [] := fun h => hnil (List.length_eq_zero_iff.mp (by rw [hlen, h, List.length_nil]))
  obtain ⟨texts, htexts, top, htop, rfl⟩ := merkleRootOf_top hnil h
  obtain ⟨texts', htexts', top', htop', hroot⟩ := merkleRootOf_top hnil' h'
  have hsame : top = top' := by
    have := congrArg fromHex hroot
    rwa [fromHex_toHex, fromHex_toHex, Option.some.injEq] at this
  have hlens : texts.length = texts'.length := by rw [collect_length htexts, collect_length htexts', hlen]
  -- every message of either tree is among those that do not collide
  have messages : ∀ {us : List Json} {ws : List Bytes}, collect (canonicalJson E) us = .ok ws →
      (∀ m ∈ ws, MerkleHashed E us m) ∧ ∀ p ∈ met (merkleNode E) ws.length (ws.map E.sha256),
        (MerkleHashed E us (p.1 ++ p.2) ∧ MerkleHashed E us (E.sha256 (p.1 ++ p.2))) ∧ p.1.length = 32 := by
    intro us ws hws
    have hms : merkleMessages E us = .ok (ws ++ (met (merkleNode E) ws.length (ws.map E.sha256)).flatMap
        fun p => [p.1 ++ p.2, E.sha256 (p.1 ++ p.2)]) := by
      rw [merkleMessages, hws, ok_bind]
      simp only [List.length_map]
    refine ⟨fun m hm => ⟨_, hms, List.mem_append_left _ hm⟩, fun p hp => ⟨⟨?_, ?_⟩, ?_⟩⟩
    · exact ⟨_, hms, List.mem_append_right _ (List.mem_flatMap.mpr ⟨p, hp, by simp⟩)⟩
    · exact ⟨_, hms, List.mem_append_right _ (List.mem_flatMap.mpr ⟨p, hp, by simp⟩)⟩
    · refine (met_forall (merkleNode E) (P := fun d => d.length = 32) (fun _ => E.sha256_length _) ?_ p hp).1
      intro d hd
      obtain ⟨m, -, rfl⟩ := List.mem_map.mp hd
      exact E.sha256_length m
  obtain ⟨hleaf, hnode⟩ := messages htexts
  obtain ⟨hleaf', hnode'⟩ := messages htexts'
  have hleaves : texts.map E.sha256 = texts'.map E.sha256 := by
    apply climb_inj (merkleNode E) (n := texts.length) (by simpa using hlens) (by simp)
    · intro p hp q hq hpq
      rw [hlens] at hq
      obtain ⟨hp, hpl⟩ := hnode p hp
      obtain ⟨hq, hql⟩ := hnode' q hq
      exact merkleNode_inj hfree (hp.imp .inl .inl) (hq.imp .inr .inr) (by rw [hpl, hql]) hpq
    · rw [htop, hlens, htop', hsame]
  have htext : texts = texts' :=
    map_inj_on E.sha256 (fun m hm m' hm' => hfree m m' (.inl (hleaf m hm)) (.inr (hleaf' m' hm'))) hleaves
  exact texts_determine hfl hd hd' htexts (htext ▸ htexts')

end

/-- **A header determines the transactions of an accepted block among those of
as many transactions.** -/
theorem header_commits_iff {E : Primitives} {l l₁ l₂ : Ledger} {b b' : BlockV2} {now now' : Int}
    (hfl : FloatRepr E.floatRepr)
    (hfree : CollisionFree E fun m => MerkleHashed E b.transactions m ∨ MerkleHashed E b'.transactions m)
    (hd : ∀ t ∈ b.transactions ++ b'.transactions, t.decoded = true)
    (h : l.addBlockV2 E b now = .ok (true, l₁)) (h' : l.addBlockV2 E b' now' = .ok (true, l₂))
    (hheader : b.header = b'.header) :
    b.transactions.map Json.norm = b'.transactions.map Json.norm ↔ b.transactions.length = b'.transactions.length := by
  constructor
  · intro heq
    simpa using congrArg List.length heq
  · intro hlen
    have root := fun {b : BlockV2} {now : Int} {l' : Ledger} (h : l.addBlockV2 E b now = .ok (true, l')) =>
      (((addBlockV2_true_iff (chain_ne_of_added h)).mp h).2.choose_spec.choose_spec.1).intact.merkle
    refine merkleRoot_inj hfl hfree (fun t ht => hd t (List.mem_append_left _ ht))
      (fun t ht => hd t (List.mem_append_right _ ht)) (root h) ?_ hlen
    rw [hheader]
    exact root h'

/-! ## Three transactions and four under one header -/

/-- `repr` for floats that no transaction below holds. -/
def pointedPrimitives : Primitives := { recorded [] with floatRepr := fun bits => natRepr bits.toNat ++ [46] }

theorem pointed_floatRepr : FloatRepr pointedPrimitives.floatRepr where
  numeric x _ b hb := by
    rcases List.mem_append.mp hb with hb | hb
    · have hrange := natRepr_digit hb
      have hlo : 48 ≤ b := UInt8.le_iff_toNat_le.mpr hrange.1
      have hhi : b ≤ 57 := UInt8.le_iff_toNat_le.mpr hrange.2
      simp [isNumeric, hlo, hhi]
    · rw [List.mem_singleton.mp hb]
      rfl
  marked x _ := .inl (List.mem_append_right _ (.head _))
  inj x y _ _ h := UInt64.toNat_inj.mp (natRepr_inj (List.append_cancel_right h))

def blankTransaction : Json := .dict
  [(str "type", .str (str "genesis")),
    (str "body", .dict [(str "network_id", .str []), (str "message", .str []), (str "timestamp", .int 0)])]

/-- A block of the alpha network with `n` blank transactions, mined for three. -/
def blankBlock (n : Nat) : BlockV2 where
  header := { genesisHeader GENESIS_REGISTRY_ROOT 1704067800 with
    prevHash := GENESIS_HASH
    merkleRoot := str "c7029f7795f4d9ca5db2a12f1fa9c059c69064ac9b92646e232d1d0454eddaf5"
    nonce := 133495 }
  transactions := List.replicate n blankTransaction

set_option maxRecDepth 100000 in
theorem blankBlocks_added : ∃ l₀, Ledger.init pointedPrimitives {} = .ok l₀ ∧
    (okAnd Prod.fst (l₀.addBlockV2 pointedPrimitives (blankBlock 3) 1704067800) &&
      okAnd Prod.fst (l₀.addBlockV2 pointedPrimitives (blankBlock 4) 1704067800)) = true :=
  of_okAnd (by decide +kernel)

/-- The digests of the messages of both trees. -/
def blankDigests : Except PyErr (List Bytes) := do
  let three ← merkleMessages pointedPrimitives (blankBlock 3).transactions
  let four ← merkleMessages pointedPrimitives (blankBlock 4).transactions
  .ok (((three ++ four).dedup).map pointedPrimitives.sha256)

set_option maxRecDepth 100000 in
theorem blankDigests_nodup : okAnd (fun digests => decide digests.Nodup) blankDigests = true := by decide +kernel

set_option maxRecDepth 100000 in
example : merkleRootOf pointedPrimitives (blankBlock 4).transactions =
    merkleRootOf pointedPrimitives (blankBlock 3).transactions := by
  have h : okAnd (fun root => okEq (merkleRootOf pointedPrimitives (blankBlock 4).transactions) root)
      (merkleRootOf pointedPrimitives (blankBlock 3).transactions) = true := by decide +kernel
  obtain ⟨root, hthree, h⟩ := of_okAnd h
  rw [hthree, of_okEq h]

theorem blankBlocks_collisionFree : CollisionFree pointedPrimitives fun m =>
    MerkleHashed pointedPrimitives (blankBlock 3).transactions m ∨
      MerkleHashed pointedPrimitives (blankBlock 4).transactions m := by
  obtain ⟨digests, hdigests, hnodup⟩ := of_okAnd blankDigests_nodup
  simp only [blankDigests, bind_eq_ok] at hdigests
  obtain ⟨three, h₃, four, h₄, h⟩ := hdigests
  cases h
  have mem : ∀ {m}, MerkleHashed pointedPrimitives (blankBlock 3).transactions m ∨
      MerkleHashed pointedPrimitives (blankBlock 4).transactions m → m ∈ (three ++ four).dedup := by
    rintro m (⟨ms, hms, hm⟩ | ⟨ms, hms, hm⟩)
    · obtain rfl : ms = three := Except.ok.inj (hms.symm.trans h₃)
      exact List.mem_dedup.mpr (List.mem_append_left _ hm)
    · obtain rfl : ms = four := Except.ok.inj (hms.symm.trans h₄)
      exact List.mem_dedup.mpr (List.mem_append_right _ hm)
  intro m m' hm hm' heq
  exact List.inj_on_of_nodup_map (of_decide_eq_true hnodup) (mem hm) (mem hm') heq

theorem blankBlocks_decoded {n : Nat} : ∀ t ∈ (blankBlock n).transactions, t.decoded = true := by
  intro t ht
  rw [(List.mem_replicate.mp ht).2]
  decide

/-- Both blocks are accepted, with one header. -/
theorem header_commits_blank : ∃ l₀ l₁ l₂, Ledger.init pointedPrimitives {} = .ok l₀ ∧
    l₀.addBlockV2 pointedPrimitives (blankBlock 3) 1704067800 = .ok (true, l₁) ∧
    l₀.addBlockV2 pointedPrimitives (blankBlock 4) 1704067800 = .ok (true, l₂) ∧
    ((blankBlock 3).transactions.map Json.norm = (blankBlock 4).transactions.map Json.norm ↔ 3 = 4) := by
  obtain ⟨l₀, hl₀, h⟩ := blankBlocks_added
  rw [Bool.and_eq_true] at h
  obtain ⟨⟨_, l₁⟩, h₁, rfl⟩ := of_okAnd h.1
  obtain ⟨⟨_, l₂⟩, h₂, rfl⟩ := of_okAnd h.2
  refine ⟨l₀, l₁, l₂, hl₀, h₁, h₂, header_commits_iff pointed_floatRepr blankBlocks_collisionFree ?_ h₁ h₂ rfl⟩
  exact fun t ht => (List.mem_append.mp ht).elim (blankBlocks_decoded t) (blankBlocks_decoded t)

theorem header_ambiguous : ¬ ∀ (E : Primitives) (l l₁ l₂ : Ledger) (b b' : BlockV2) (now : Int),
    FloatRepr E.floatRepr →
    (CollisionFree E fun m => MerkleHashed E b.transactions m ∨ MerkleHashed E b'.transactions m) →
    (∀ t ∈ b.transactions ++ b'.transactions, t.decoded = true) →
    l.addBlockV2 E b now = .ok (true, l₁) → l.addBlockV2 E b' now = .ok (true, l₂) → b.header = b'.header →
    b.transactions.map Json.norm = b'.transactions.map Json.norm := by
  intro hall
  obtain ⟨l₀, -, h⟩ := blankBlocks_added
  rw [Bool.and_eq_true] at h
  obtain ⟨⟨_, l₁⟩, h₁, rfl⟩ := of_okAnd h.1
  obtain ⟨⟨_, l₂⟩, h₂, rfl⟩ := of_okAnd h.2
  have heq := hall _ l₀ l₁ l₂ _ _ _ pointed_floatRepr blankBlocks_collisionFree
    (fun t ht => (List.mem_append.mp ht).elim (blankBlocks_decoded t) (blankBlocks_decoded t)) h₁ h₂ rfl
  have hlen : 3 = 4 := by simpa [blankBlock] using congrArg List.length heq
  cases hlen

end ChainBreaker
