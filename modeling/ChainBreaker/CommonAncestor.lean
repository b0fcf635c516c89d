import ChainBreaker.Commitment
import ChainBreaker.SharedPrefix

/-!
# The common ancestor of two chains

`find_common_ancestor` compares hashes from the shorter tip down. In linked chains
blocks with one hash stand on blocks with one hash, so the height it returns is
that of the last header that both chains share (`findCommonAncestor_exact`). A
header is what its bytes say: hex digits may be spelled in either case.
-/

namespace ChainBreaker

open Fallible

section
variable (E : Primitives)

/-- Every block has a hash, and the block above it names it. -/
structure HashLinked (chain : List BlockV2) : Prop where
  hashed : ∀ b ∈ chain, ∃ hash, b.hash E = .ok hash
  linked : ∀ i a b, chain[i]? = some a → chain[i + 1]? = some b → a.hash E = .ok b.header.prevHash

/-- A message that is hashed for a header of the two chains. -/
def HeaderHashed (cur cand : List BlockV2) (m : Bytes) : Prop :=
  ∃ b ∈ cur ++ cand, ∃ data, b.header.bytes = .ok data ∧ (m = data ∨ m = E.sha256 data)

end

/-- The block at height `k` is the last of the longest common prefix of headers. -/
structure CommonAncestor (cur cand : List BlockV2) (k : Nat) : Prop where
  inCur : k < cur.length
  inCand : k < cand.length
  shared : ∀ i a b, i ≤ k → cur[i]? = some a → cand[i]? = some b → a.header.bytes = b.header.bytes
  apart : ∀ a b, cur[k + 1]? = some a → cand[k + 1]? = some b → a.header.bytes ≠ b.header.bytes

section
variable {E : Primitives} {cur cand : List BlockV2} {i k n : Nat} {a b : BlockV2}

theorem HashLinked.at (h : HashLinked E cur) (hi : i < cur.length) :
    ∃ b hash, cur[i]? = some b ∧ b.hash E = .ok hash ∧ hashAt E cur i = .ok hash := by
  obtain ⟨hash, hhash⟩ := h.hashed cur[i] (List.getElem_mem hi)
  have hget := List.getElem?_eq_getElem hi
  exact ⟨_, hash, hget, hhash, hashAt_eq_ok.mpr ⟨_, hget, hhash⟩⟩

/-- Headers of the chains have one hash if they are the same bytes. -/
theorem hash_eq_iff (hfree : CollisionFree E (HeaderHashed E cur cand)) (ha : a ∈ cur) (hb : b ∈ cand) {x y : Str}
    (hx : a.hash E = .ok x) (hy : b.hash E = .ok y) : x = y ↔ a.header.bytes = b.header.bytes := by
  obtain ⟨data, hdata, rfl⟩ := hash_eq_ok.mp hx
  obtain ⟨data', hdata', rfl⟩ := hash_eq_ok.mp hy
  have hfrom := List.mem_append_left cand ha
  have hto := List.mem_append_right cur hb
  constructor
  · intro heq
    have hdigest : E.sha256 data = E.sha256 data' :=
      hfree _ _ ⟨a, hfrom, data, hdata, .inr rfl⟩ ⟨b, hto, data', hdata', .inr rfl⟩ (toHex_inj heq)
    have hsame : data = data' := hfree _ _ ⟨a, hfrom, data, hdata, .inl rfl⟩ ⟨b, hto, data', hdata', .inl rfl⟩ hdigest
    rw [hdata, hdata', hsame]
  · intro heq
    rw [hdata, hdata', Except.ok.injEq] at heq
    rw [heq]

/-- **Downwards.** Below a header that the chains share they share every header. -/
theorem shared_below (hcur : HashLinked E cur) (hcand : HashLinked E cand)
    (hfree : CollisionFree E (HeaderHashed E cur cand)) : ∀ {k : Nat} {a b : BlockV2}, cur[k]? = some a → cand[k]? = some b →
      a.header.bytes = b.header.bytes → ∀ i a' b', i ≤ k → cur[i]? = some a' → cand[i]? = some b' →
        a'.header.bytes = b'.header.bytes
  | 0, a, b, ha, hb, hab, i, a', b', hi, ha', hb' => by
    obtain rfl := Nat.le_zero.mp hi
    obtain rfl := Option.some.inj (ha.symm.trans ha')
    obtain rfl := Option.some.inj (hb.symm.trans hb')
    exact hab
  | k + 1, a, b, ha, hb, hab, i, a', b', hi, ha', hb' => by
    rcases Nat.lt_or_eq_of_le hi with hlt | rfl
    · have hk : k < cur.length := Nat.lt_of_succ_lt (List.getElem?_eq_some_iff.mp ha).1
      have hk' : k < cand.length := Nat.lt_of_succ_lt (List.getElem?_eq_some_iff.mp hb).1
      obtain ⟨p, x, hp, hx, -⟩ := hcur.at hk
      obtain ⟨q, y, hq, hy, -⟩ := hcand.at hk'
      have hprev : x = a.header.prevHash := Except.ok.inj (hx.symm.trans (hcur.linked k p a hp ha))
      have hprev' : y = b.header.prevHash := Except.ok.inj (hy.symm.trans (hcand.linked k q b hq hb))
      -- the bytes name the block below up to the spelling, and a hash is spelled in one way
      obtain ⟨data, hdata, hxdata⟩ := hash_eq_ok.mp hx
      obtain ⟨data', -, hydata⟩ := hash_eq_ok.mp hy
      obtain ⟨header, hheader, -⟩ := hash_eq_ok.mp (hcur.hashed a (List.mem_of_getElem? ha)).choose_spec
      have hcanonical := (bytes_inj hheader (hab ▸ hheader)).2
      rw [← hprev, ← hprev', hxdata, hydata, canonicalHash_toHex, canonicalHash_toHex, ← hxdata, ← hydata] at hcanonical
      have hbelow := (hash_eq_iff hfree (List.mem_of_getElem? hp) (List.mem_of_getElem? hq) hx hy).mp hcanonical
      exact shared_below hcur hcand hfree hp hq hbelow i a' b' (Nat.le_of_lt_succ hlt) ha' hb'
    · obtain rfl := Option.some.inj (ha.symm.trans ha')
      obtain rfl := Option.some.inj (hb.symm.trans hb')
      exact hab

/-- The walk ends at the first height, from above, where the hashes agree. -/
theorem searchAncestor_first (hcur : HashLinked E cur) (hcand : HashLinked E cand) :
    ∀ n, n < cur.length → n < cand.length → ∃ k ≤ n, searchAncestor E cur cand n = .ok k ∧
      (k = 0 ∨ ∃ hash, hashAt E cur k = .ok hash ∧ hashAt E cand k = .ok hash) ∧
      ∀ i, k < i → i ≤ n → ∀ x y, hashAt E cur i = .ok x → hashAt E cand i = .ok y → x ≠ y
  | 0, _, _ => ⟨0, le_rfl, rfl, .inl rfl, fun i hi hin => absurd hin (Nat.not_le_of_lt hi)⟩
  | n + 1, hn, hn' => by
    obtain ⟨a, x, ha, hx, hxat⟩ := hcur.at hn
    obtain ⟨b, y, hb, hy, hyat⟩ := hcand.at hn'
    rw [searchAncestor, hxat, hyat, ok_bind, ok_bind]
    by_cases hxy : x = y
    · rw [if_pos hxy]
      exact ⟨n + 1, le_rfl, rfl, .inr ⟨x, hxat, hxy ▸ hyat⟩, fun i hi hin => absurd hin (Nat.not_le_of_lt hi)⟩
    · rw [if_neg hxy]
      obtain ⟨k, hk, hsearch, hfound, hapart⟩ := searchAncestor_first hcur hcand n (Nat.lt_of_succ_lt hn) (Nat.lt_of_succ_lt hn')
      refine ⟨k, Nat.le_succ_of_le hk, hsearch, hfound, fun i hi hin x' y' hx' hy' => ?_⟩
      rcases Nat.lt_or_eq_of_le hin with hlt | rfl
      · exact hapart i hi (Nat.le_of_lt_succ hlt) x' y' hx' hy'
      · obtain rfl := Except.ok.inj (hxat.symm.trans hx')
        obtain rfl := Except.ok.inj (hyat.symm.trans hy')
        exact hxy

/-- There is one last shared header. -/
theorem CommonAncestor.unique {k k' : Nat} (h : CommonAncestor cur cand k) (h' : CommonAncestor cur cand k') : k = k' := by
  have hnot : ∀ {k k' : Nat}, CommonAncestor cur cand k → CommonAncestor cur cand k' → ¬ k < k' := by
    intro k k' h h' hlt
    have hin : k + 1 < cur.length := Nat.lt_of_le_of_lt hlt h'.inCur
    have hin' : k + 1 < cand.length := Nat.lt_of_le_of_lt hlt h'.inCand
    exact h.apart _ _ (List.getElem?_eq_getElem hin) (List.getElem?_eq_getElem hin')
      (h'.shared (k + 1) _ _ hlt (List.getElem?_eq_getElem hin) (List.getElem?_eq_getElem hin'))
  exact Nat.le_antisymm (Nat.le_of_not_lt (hnot h' h)) (Nat.le_of_not_lt (hnot h h'))

/-- Genesis blocks with one hash lead to a common ancestor. -/
theorem findCommonAncestor_found (hcur : HashLinked E cur) (hcand : HashLinked E cand)
    (hfree : CollisionFree E (HeaderHashed E cur cand)) (hne : cur ≠ [] ∧ cand ≠ []) {hash : Str}
    (ha : hashAt E cur 0 = .ok hash) (hb : hashAt E cand 0 = .ok hash) :
    ∃ k, findCommonAncestor E cur cand = .ok k ∧ CommonAncestor cur cand k := by
  have hpos := List.length_pos_iff.mpr hne.1
  have hpos' := List.length_pos_iff.mpr hne.2
  obtain ⟨k, hk, hsearch, hfound, hapart⟩ := searchAncestor_first hcur hcand (min cur.length cand.length - 1) (by omega) (by omega)
  refine ⟨k, ?_, by omega, by omega, ?_, ?_⟩
  · rw [findCommonAncestor, require_of _ hne, ok_bind, ha, ok_bind, hb, ok_bind, require_of _ rfl, ok_bind, hsearch]
  · have hagree : ∃ hash, hashAt E cur k = .ok hash ∧ hashAt E cand k = .ok hash := by
      rcases hfound with rfl | h
      · exact ⟨hash, ha, hb⟩
      · exact h
    obtain ⟨x, hx, hy⟩ := hagree
    obtain ⟨a, hak, hax⟩ := hashAt_eq_ok.mp hx
    obtain ⟨b, hbk, hby⟩ := hashAt_eq_ok.mp hy
    have hbytes := (hash_eq_iff hfree (List.mem_of_getElem? hak) (List.mem_of_getElem? hbk) hax hby).mp rfl
    exact shared_below hcur hcand hfree hak hbk hbytes
  · intro a b hak hbk
    have hin := (List.getElem?_eq_some_iff.mp hak).1
    have hin' := (List.getElem?_eq_some_iff.mp hbk).1
    obtain ⟨x, hx⟩ := hcur.hashed a (List.mem_of_getElem? hak)
    obtain ⟨y, hy⟩ := hcand.hashed b (List.mem_of_getElem? hbk)
    have hxy := hapart (k + 1) (Nat.lt_succ_self k) (by omega) x y (hashAt_eq_ok.mpr ⟨a, hak, hx⟩) (hashAt_eq_ok.mpr ⟨b, hbk, hy⟩)
    exact fun heq => hxy ((hash_eq_iff hfree (List.mem_of_getElem? hak) (List.mem_of_getElem? hbk) hx hy).mpr heq)

/-- **The common ancestor.** Between linked chains the height returned is that of the
last header they share, and `ReorgError`, the only error, is raised exactly for an
empty chain or for genesis blocks with different hashes. -/
theorem findCommonAncestor_exact (hcur : HashLinked E cur) (hcand : HashLinked E cand)
    (hfree : CollisionFree E (HeaderHashed E cur cand)) :
    (∀ k, findCommonAncestor E cur cand = .ok k ↔ CommonAncestor cur cand k) ∧
      (∀ e, findCommonAncestor E cur cand = .error e → e.kind = .reorgError) ∧
      ((∃ e, findCommonAncestor E cur cand = .error e) ↔
        cur = [] ∨ cand = [] ∨ ∃ x y, hashAt E cur 0 = .ok x ∧ hashAt E cand 0 = .ok y ∧ x ≠ y) := by
  by_cases hne : cur ≠ [] ∧ cand ≠ []
  · obtain ⟨a, x, ha, hax, hx⟩ := hcur.at (List.length_pos_iff.mpr hne.1)
    obtain ⟨b, y, hb, hby, hy⟩ := hcand.at (List.length_pos_iff.mpr hne.2)
    by_cases hxy : x = y
    · subst hxy
      obtain ⟨k, hk, hancestor⟩ := findCommonAncestor_found hcur hcand hfree hne hx hy
      rw [hk]
      refine ⟨fun k' => ⟨fun h => Except.ok.inj h ▸ hancestor, fun h => congrArg _ (hancestor.unique h)⟩, by rintro _ ⟨⟩, ?_⟩
      refine iff_of_false (by rintro ⟨_, ⟨⟩⟩) ?_
      rintro (hnil | hnil | ⟨x', y', hx', hy', hne'⟩)
      · exact hne.1 hnil
      · exact hne.2 hnil
      · exact hne' (Except.ok.inj (hx'.symm.trans (hx.trans (hy.symm.trans hy'))))
    · have herror : findCommonAncestor E cur cand =
          .error (reorgError "genesis mismatch: cannot reorg across different networks") := by
        rw [findCommonAncestor, require_of _ hne, ok_bind, hx, ok_bind, hy, ok_bind, require, if_neg hxy]
        rfl
      rw [herror]
      refine ⟨fun k => iff_of_false (by rintro ⟨⟩) fun h => ?_, fun e h => Except.error.inj h ▸ rfl,
        iff_of_true ⟨_, rfl⟩ (.inr (.inr ⟨x, y, hx, hy, hxy⟩))⟩
      exact hxy ((hash_eq_iff hfree (List.mem_of_getElem? ha) (List.mem_of_getElem? hb) hax hby).mpr
        (h.shared 0 a b (Nat.zero_le k) ha hb))
  · have herror : findCommonAncestor E cur cand = .error (reorgError "empty chain") := by
      rw [findCommonAncestor, require, if_neg hne]
      rfl
    have hnil : cur = [] ∨ cand = [] := by
      by_contra hnot
      exact hne (not_or.mp hnot)
    rw [herror]
    refine ⟨fun k => iff_of_false (by rintro ⟨⟩) fun h => ?_, fun e h => Except.error.inj h ▸ rfl,
      iff_of_true ⟨_, rfl⟩ (hnil.imp_right .inl)⟩
    exact hne ⟨List.ne_nil_of_length_pos (Nat.zero_lt_of_lt h.inCur), List.ne_nil_of_length_pos (Nat.zero_lt_of_lt h.inCand)⟩

end

/-! ## A fork -/

/-- The last 32 bytes, reversed, stand in for a hash that is cheap to evaluate. -/
def lastBytes : Primitives where
  sha256 := fun m => (m.reverse ++ List.replicate 32 0).take 32
  sha256_length := fun m => by
    rw [List.length_take, List.length_append, List.length_replicate]
    omega
  ed25519Verify := fun _ _ _ => false
  floatRepr := fun _ => []

/-- A block on top of another, told apart by its nonce. -/
def forkBlock (prevHash : Str) (nonce : Int) : BlockV2 := ⟨⟨2, prevHash, zeroHash, zeroHash, 0, 1, nonce⟩, []⟩

def forkGenesis : BlockV2 := forkBlock zeroHash 1

/-- `forkGenesis.hash`. -/
def forkHash : Str := ((forkGenesis.hash lastBytes).toOption).getD []

def forkChain (nonce : Int) : List BlockV2 := [forkGenesis, forkBlock forkHash nonce]

theorem forkChain_linked (nonce : Int) (h : okAnd (fun _ => true) ((forkBlock forkHash nonce).hash lastBytes) = true) :
    HashLinked lastBytes (forkChain nonce) := by
  have hgenesis : forkGenesis.hash lastBytes = .ok forkHash := of_okEq (by decide +kernel)
  constructor
  · intro b hb
    rcases List.mem_cons.mp hb with rfl | hb
    · exact ⟨_, hgenesis⟩
    · rw [List.mem_singleton.mp hb]
      obtain ⟨hash, hhash, -⟩ := of_okAnd h
      exact ⟨hash, hhash⟩
  · intro i a b ha hb
    match i with
    | 0 =>
      cases ha
      cases hb
      exact hgenesis
    | i + 1 => cases hb

/-- The messages hashed for the chains with two nonces. -/
def forkMessages : Except PyErr (List Bytes) := do
  let headers ← collect (fun b => b.header.bytes) (forkChain 2 ++ forkChain 3)
  .ok (headers ++ headers.map lastBytes.sha256).dedup

theorem forkChains_collisionFree : CollisionFree lastBytes (HeaderHashed lastBytes (forkChain 2) (forkChain 3)) := by
  have hmessages : okAnd (fun messages => decide (messages.map lastBytes.sha256).Nodup) forkMessages = true := by decide +kernel
  obtain ⟨messages, hm, hnodup⟩ := of_okAnd hmessages
  obtain ⟨headers, hheaders, hm⟩ := bind_eq_ok.mp hm
  cases hm
  have mem : ∀ {m}, HeaderHashed lastBytes (forkChain 2) (forkChain 3) m →
      m ∈ (headers ++ headers.map lastBytes.sha256).dedup := by
    rintro m ⟨b, hb, data, hdata, hm⟩
    obtain ⟨data', hin, hdata'⟩ := collect_finds hheaders b hb
    obtain rfl : data = data' := Except.ok.inj (hdata.symm.trans hdata')
    rw [List.mem_dedup, List.mem_append]
    rcases hm with rfl | rfl
    · exact .inl hin
    · exact .inr (List.mem_map_of_mem hin)
  exact fun m m' hm hm' heq => List.inj_on_of_nodup_map (of_decide_eq_true hnodup) (mem hm) (mem hm') heq

/-- Two blocks on one genesis block have it as their common ancestor. -/
theorem forkChains_ancestor : findCommonAncestor lastBytes (forkChain 2) (forkChain 3) = .ok 0 := by
  have hlinked : HashLinked lastBytes (forkChain 2) ∧ HashLinked lastBytes (forkChain 3) :=
    ⟨forkChain_linked 2 (by decide +kernel), forkChain_linked 3 (by decide +kernel)⟩
  refine ((findCommonAncestor_exact hlinked.1 hlinked.2 forkChains_collisionFree).1 0).mpr
    ⟨by decide, by decide, fun i a b hi ha hb => ?_, fun a b ha hb => ?_⟩
  · obtain rfl := Nat.le_zero.mp hi
    rw [← Option.some.inj (ha.symm.trans hb)]
  · cases ha
    cases hb
    intro heq
    have hapart : okAnd (fun data => !okEq ((forkBlock forkHash 3).header.bytes) data) ((forkBlock forkHash 2).header.bytes) = true := by
      decide +kernel
    obtain ⟨data, hdata, hother⟩ := of_okAnd hapart
    rw [← heq, hdata] at hother
    simp [okEq, okAnd] at hother

end ChainBreaker
