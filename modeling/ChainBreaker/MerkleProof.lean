import ChainBreaker.Commitment

/-!
# Proofs of a leaf

A proof lists the siblings of a leaf from its level up. The proof of a leaf
leads to the root, and no other leaf is led there by a proof of the length of
the tree, unless two of the messages hashed for the tree and the proof have one
digest (`merkle_proofs`).
-/

namespace ChainBreaker

open Fallible PairTree

/-! ## Making and checking a proof -/

/-- The loop of `get_proof`, over the levels below the root. -/
def proofFrom : List (List Bytes) → Nat → Except PyErr (List Bytes)
  | [], _ => .ok []
  | level :: levels, index => do
    let sibling := if index % 2 = 0 then index + 1 else index - 1
    let node ← orRaise (if sibling < level.length then level[sibling]? else level[index]?)
      (err .indexError "list index out of range")
    let proof ← proofFrom levels (index / 2)
    .ok (node :: proof)

section
variable (E : Primitives)

/-- `MerkleTree(leaves).get_proof(index)`. -/
def getProof (leaves : List Bytes) (index : Nat) : Except PyErr (List Bytes) :=
  proofFrom (merkleLevels E leaves).dropLast index

/-- The loop of `verify_proof`. -/
def proofRoot : Bytes → List Bytes → Nat → Bytes
  | current, [], _ => current
  | current, sibling :: proof, index =>
    if index % 2 = 0 then proofRoot (doubleSha256 E (current ++ sibling)) proof (index / 2)
    else proofRoot (doubleSha256 E (sibling ++ current)) proof (index / 2)

def verifyProof (root leaf : Bytes) (proof : List Bytes) (index : Nat) : Bool := proofRoot E leaf proof index == root

/-- A message hashed for one of the nodes. -/
def NodeHashed (nodes : List (Bytes × Bytes)) (m : Bytes) : Prop :=
  ∃ p ∈ nodes, m = p.1 ++ p.2 ∨ m = E.sha256 (p.1 ++ p.2)

/-- A message hashed for the tree, or for the check of the proof. -/
def ProofHashed (leaves : List Bytes) (leaf : Bytes) (proof : List Bytes) (index : Nat) (m : Bytes) : Prop :=
  NodeHashed E (met (merkleNode E) leaves.length leaves) m ∨ NodeHashed E (ascended (merkleNode E) leaf proof index) m

end

/-! ## Proofs are paths of the tree -/

section
variable {E : Primitives} {leaves : List Bytes} {i : Nat}

theorem proofRoot_eq : ∀ {proof : List Bytes} {leaf : Bytes} {i : Nat},
    proofRoot E leaf proof i = ascend (merkleNode E) leaf proof i
  | [], _, _ => rfl
  | s :: proof, leaf, i => by
    rw [proofRoot, ascend, side]
    split <;> exact proofRoot_eq

theorem proofFrom_levels : ∀ {n : Nat} {l : List Bytes} {i : Nat} {p : List Bytes}, path (merkleNode E) n l i = some p →
    proofFrom (buildLevels E n l).dropLast i = .ok p ∧ (buildLevels E n l).length = p.length + 1
  | 0, l, i, p, h => by
    cases h
    exact ⟨rfl, rfl⟩
  | n + 1, l, i, p, h => by
    rw [path] at h
    rw [buildLevels]
    by_cases hone : 1 < l.length
    · rw [if_pos hone] at h ⊢
      obtain ⟨s, hs, h⟩ := Option.bind_eq_some_iff.mp h
      obtain ⟨rest, hrest, h⟩ := Option.bind_eq_some_iff.mp h
      cases h
      rw [← nextLevel_eq] at hrest
      obtain ⟨hproof, hdepth⟩ := proofFrom_levels hrest
      rw [List.dropLast_cons_of_ne_nil (buildLevels_ne_nil E n _), proofFrom, List.length_cons, hdepth]
      rw [sibling] at hs
      refine ⟨?_, rfl⟩
      simp only [orRaise_eq_ok.mpr hs, hproof, ok_bind]
    · rw [if_neg hone] at h ⊢
      cases h
      exact ⟨rfl, rfl⟩

/-- **Proofs are complete and sound.** -/
theorem merkle_proofs (hleaves : ∀ leaf ∈ leaves, leaf.length = 32) {own : Bytes} (hi : leaves[i]? = some own) :
    ∃ root proof, merkleTreeRoot E leaves = some root ∧ getProof E leaves i = .ok proof ∧
      verifyProof E root own proof i = true ∧
      ∀ leaf siblings, leaf.length = 32 → (∀ s ∈ siblings, s.length = 32) →
        siblings.length + 1 = (merkleLevels E leaves).length → CollisionFree E (ProofHashed E leaves leaf siblings i) →
        verifyProof E root leaf siblings i = true → leaf = own := by
  have hne : leaves ≠ [] := by
    rintro rfl
    cases hi
  have hlevels : merkleLevels E leaves = buildLevels E leaves.length leaves := by
    rw [merkleLevels, if_neg (by simpa using hne)]
  obtain ⟨proof, hproof, htop⟩ := @climb_path _ (merkleNode E) _ _ i own (Nat.le_succ leaves.length) hi
  obtain ⟨hget, hdepth⟩ := proofFrom_levels hproof
  refine ⟨ascend (merkleNode E) own proof i, proof, by rw [merkleTreeRoot_eq E hne, htop], ?_, ?_, ?_⟩
  · rw [getProof, hlevels, hget]
  · rw [verifyProof, proofRoot_eq, beq_self_eq_true]
  · intro leaf siblings hleaf hsiblings hlength hfree hverify
    rw [hlevels, hdepth] at hlength
    rw [verifyProof, proofRoot_eq, beq_iff_eq] at hverify
    have h32 : ∀ p, (merkleNode E p).length = 32 := fun p => E.sha256_length _
    refine ascend_inj (Nat.le_succ leaves.length) hi hproof (Nat.succ.inj hlength) ?_ (by rw [htop, hverify])
    intro p hp q hq hpq
    have hlen : p.1.length = q.1.length := by
      rw [(met_forall (merkleNode E) h32 hleaves p hp).1, (ascended_forall (merkleNode E) h32 hleaf hsiblings q hq).1]
    exact merkleNode_inj hfree ⟨.inl ⟨p, hp, .inl rfl⟩, .inl ⟨p, hp, .inr rfl⟩⟩
      ⟨.inr ⟨q, hq, .inl rfl⟩, .inr ⟨q, hq, .inr rfl⟩⟩ hlen hpq

end

/-! ## The last of three leaves -/

def threeLeaves : List Bytes := [List.replicate 32 0, List.replicate 32 1, List.replicate 32 2]

/-- The messages hashed for the nodes. -/
def nodeMessages (E : Primitives) (nodes : List (Bytes × Bytes)) : List Bytes :=
  nodes.flatMap fun p => [p.1 ++ p.2, E.sha256 (p.1 ++ p.2)]

theorem nodeHashed_mem {E : Primitives} {nodes : List (Bytes × Bytes)} {m : Bytes} (h : NodeHashed E nodes m) :
    m ∈ nodeMessages E nodes := by
  obtain ⟨p, hp, hm⟩ := h
  refine List.mem_flatMap.mpr ⟨p, hp, ?_⟩
  rcases hm with rfl | rfl
  · exact .head _
  · exact .tail _ (.head _)

/-- The nodes of the tree, and those of the proof of its last leaf. -/
def threeNodes (proof : List Bytes) : List (Bytes × Bytes) :=
  met (merkleNode (recorded [])) 3 threeLeaves ++ ascended (merkleNode (recorded [])) (List.replicate 32 2) proof 2

set_option maxRecDepth 100000 in
theorem threeLeaves_digests : okAnd (fun proof =>
    decide ((nodeMessages (recorded []) (threeNodes proof)).dedup.map (recorded []).sha256).Nodup)
    (getProof (recorded []) threeLeaves 2) = true := by decide +kernel

theorem merkle_proofs_three : ∃ root proof, merkleTreeRoot (recorded []) threeLeaves = some root ∧
    getProof (recorded []) threeLeaves 2 = .ok proof ∧
    verifyProof (recorded []) root (List.replicate 32 2) proof 2 = true ∧
    CollisionFree (recorded []) (ProofHashed (recorded []) threeLeaves (List.replicate 32 2) proof 2) := by
  have hleaves : ∀ leaf ∈ threeLeaves, leaf.length = 32 := by decide
  obtain ⟨root, proof, hroot, hproof, hverify, -⟩ :=
    @merkle_proofs (recorded []) threeLeaves 2 hleaves (List.replicate 32 2) rfl
  obtain ⟨proof', hproof', h⟩ := of_okAnd threeLeaves_digests
  obtain rfl : proof = proof' := Except.ok.inj (hproof.symm.trans hproof')
  have hnodup := of_decide_eq_true h
  have hmem : ∀ m, ProofHashed (recorded []) threeLeaves (List.replicate 32 2) proof 2 m →
      m ∈ (nodeMessages (recorded []) (threeNodes proof)).dedup := by
    intro m hm
    rw [List.mem_dedup, threeNodes, nodeMessages, List.flatMap_append]
    exact List.mem_append.mpr (hm.imp nodeHashed_mem nodeHashed_mem)
  refine ⟨root, proof, hroot, hproof, hverify, fun m m' hm hm' heq => ?_⟩
  exact List.inj_on_of_nodup_map hnodup (hmem m hm) (hmem m' hm') heq

end ChainBreaker
