import ChainBreaker.ReorgRules
import ChainBreaker.Work

/-!
# Accepted chains that share a block

A prefix of an accepted chain is accepted, and the rest follows it. Two
accepted chains that share a hash share every block below it, as far as the
header goes, unless SHA-256 collides.
-/

namespace ChainBreaker

open Fallible Measure

/-! ## Prefixes of an accepted chain -/

section
variable {E : Primitives} {l : Ledger} {identity : NetworkIdentity} {validator : Option (Json → Bool)}
  {clock : Int} {ctx : GovernanceContext}

theorem followAll_append : ∀ (bs bs' : List BlockV2) (c : List AnyBlock),
    l.FollowAll E c (bs ++ bs') ↔ l.FollowAll E c bs ∧ l.FollowAll E (c ++ bs.map .v2) bs'
  | [], bs', c => by simp [Ledger.FollowAll]
  | b :: bs, bs', c => by
    have ih := followAll_append bs bs' (c ++ [.v2 b])
    simp only [List.cons_append, Ledger.FollowAll, ih, and_assoc, List.map_cons, List.append_assoc,
      List.nil_append]

theorem followAll_iff : ∀ (bs pre : List BlockV2), l.FollowAll E (pre.map .v2) bs ↔
    ∀ p b q, bs = p ++ b :: q → ∃ s s', l.Follows E ((pre ++ p).map .v2) b s s'
  | [], pre => by simp [Ledger.FollowAll]
  | b :: bs, pre => by
    have ih := followAll_iff bs (pre ++ [b])
    rw [List.map_append] at ih
    constructor
    · rintro ⟨hf, hfs⟩ p b' q h
      cases p with
      | nil => cases h; simpa using hf
      | cons x p =>
        cases h
        simpa using ih.mp hfs p b' q rfl
    · intro h
      refine ⟨by simpa using h [] b bs rfl, ih.mpr fun p b' q hq => ?_⟩
      simpa using h (b :: p) b' q (by rw [hq]; rfl)

theorem accepts_ctx {blocks : List BlockV2} (h : Accepts E identity validator clock blocks) :
    ∃ ctx, GovernanceContext.init identity.governanceKeys identity.governanceThreshold identity.networkId =
      .ok ctx := by
  obtain ⟨L, L', hL, -⟩ := h
  obtain ⟨ctx, hctx, -⟩ := ledgerOn_ok_iff.mp hL
  exact ⟨ctx, hctx⟩

theorem accepts_ne {blocks : List BlockV2} (h : Accepts E identity validator clock blocks) : blocks ≠ [] := by
  obtain ⟨L, L', hL, -⟩ := h
  obtain ⟨ctx, -, -, hne, -⟩ := ledgerOn_ok_iff.mp hL
  exact hne

/-- A chain is accepted when a prefix is and the rest follows it. -/
theorem accepts_split (hctx : GovernanceContext.init identity.governanceKeys identity.governanceThreshold
    identity.networkId = .ok ctx) (k : Nat) {blocks : List BlockV2} :
    Accepts E identity validator clock blocks ↔ Accepts E identity validator clock (blocks.take (k + 1)) ∧
      (identity.rules validator ctx).FollowAll E ((blocks.take (k + 1)).map .v2) (blocks.drop (k + 1)) := by
  cases blocks with
  | nil =>
    have hno : ¬ Accepts E identity validator clock [] := fun h => accepts_ne h rfl
    simp [hno]
  | cons g rest =>
    have hsplit : (identity.rules validator ctx).FollowAll E [.v2 g] rest ↔
        (identity.rules validator ctx).FollowAll E [.v2 g] (rest.take k) ∧
          (identity.rules validator ctx).FollowAll E ([.v2 g] ++ (rest.take k).map .v2) (rest.drop k) := by
      rw [← followAll_append, List.take_append_drop]
    rw [List.take_succ_cons, List.drop_succ_cons, accepts_iff, accepts_iff]
    constructor
    · rintro ⟨ctx', hctx', hval, hv, hf⟩
      obtain rfl : ctx = ctx' := Except.ok.inj (hctx.symm.trans hctx')
      obtain ⟨h₁, h₂⟩ := hsplit.mp hf
      exact ⟨⟨ctx, hctx, hval, hv, h₁⟩, h₂⟩
    · rintro ⟨⟨ctx', hctx', hval, hv, h₁⟩, h₂⟩
      obtain rfl : ctx = ctx' := Except.ok.inj (hctx.symm.trans hctx')
      exact ⟨ctx, hctx, hval, hv, hsplit.mpr ⟨h₁, h₂⟩⟩

theorem accepts_replay (hctx : GovernanceContext.init identity.governanceKeys identity.governanceThreshold
    identity.networkId = .ok ctx) {blocks : List BlockV2} (h : Accepts E identity validator clock blocks) :
    ∃ s, (identity.rules validator ctx).replay E (blocks.map .v2) = .ok s := by
  obtain ⟨g, rest, rfl⟩ := List.exists_cons_of_ne_nil (accepts_ne h)
  obtain ⟨ctx', hctx', hval, -, hf⟩ := accepts_iff.mp h
  obtain rfl : ctx = ctx' := Except.ok.inj (hctx.symm.trans hctx')
  obtain ⟨-, s, hs, -⟩ := validateGenesisIdentity_ok hval
  exact hf.replay (by simp) hs

/-- Every block of an accepted chain above the genesis block follows those below. -/
theorem Accepts.follows (hctx : GovernanceContext.init identity.governanceKeys identity.governanceThreshold
    identity.networkId = .ok ctx) {blocks : List BlockV2} (h : Accepts E identity validator clock blocks)
    {pre post : List BlockV2} {b : BlockV2} (hb : blocks = pre ++ b :: post) (hpre : pre ≠ []) :
    ∃ s s', (identity.rules validator ctx).Follows E (pre.map .v2) b s s' := by
  obtain ⟨g, pre, rfl⟩ := List.exists_cons_of_ne_nil hpre
  have hf := ((accepts_split hctx 0).mp h).2
  rw [hb] at hf
  simp only [List.cons_append, List.take_succ_cons, List.take_zero, List.drop_succ_cons, List.drop_zero] at hf
  exact (followAll_iff _ [g]).mp hf pre b post rfl

/-! ## What the bytes of a header say -/

theorem targetToHex_ok {t : Int} {s : Str} (h : targetToHex t = .ok s) :
    0 ≤ t ∧ t < 256 ^ 32 ∧ s = toHex (leBytes 32 t.toNat).reverse := by
  unfold targetToHex toBytesBE at h
  cases hb : toBytesLE 32 t with
  | error e => rw [hb] at h; cases h
  | ok b =>
    rw [hb] at h
    obtain ⟨h₀, h₁, rfl⟩ := toBytesLE_eq_ok.mp hb
    exact ⟨h₀, h₁, (Except.ok.inj h).symm⟩

theorem targetToHex_inj {t t' : Int} {s s' : Str} (h : targetToHex t = .ok s) (h' : targetToHex t' = .ok s')
    (he : canonicalHash s = canonicalHash s') : t = t' := by
  obtain ⟨h₀, h₁, rfl⟩ := targetToHex_ok h
  obtain ⟨h₀', h₁', rfl⟩ := targetToHex_ok h'
  rw [canonicalHash_toHex, canonicalHash_toHex] at he
  have hle := List.reverse_injective (toHex_inj he)
  have hpow : ((256 ^ 32 : Nat) : Int) = 256 ^ 32 := by simp
  have hback := congrArg fromLE hle
  rw [fromLE_leBytes 32 _ (by omega), fromLE_leBytes 32 _ (by omega)] at hback
  omega

theorem bytes_inj {h h' : BlockHeaderV2} {b : Bytes} (hb : h.bytes = .ok b) (hb' : h'.bytes = .ok b) :
    h.target = h'.target ∧ canonicalHash h.prevHash = canonicalHash h'.prevHash := by
  simp only [BlockHeaderV2.bytes, BlockHeaderV2.toDict, bind_eq_ok] at hb hb'
  obtain ⟨d, ⟨t, ht, hd⟩, hb⟩ := hb
  obtain ⟨d', ⟨t', ht', hd'⟩, hb'⟩ := hb'
  cases hd
  cases hd'
  have hinj := encodeHeaderV2_inj hb hb'
  simp only [HeaderDictV2.canonical, HeaderDictV2.mk.injEq] at hinj
  exact ⟨targetToHex_inj ht ht' hinj.2.2.2.2.2.1, hinj.2.1⟩

theorem hash_eq_ok {b : BlockV2} {hash : Str} :
    b.hash E = .ok hash ↔ ∃ data, b.header.bytes = .ok data ∧ hash = toHex (doubleSha256 E data) := by
  simp only [BlockV2.hash, BlockHeaderV2.hash, bind_eq_ok]
  constructor
  · rintro ⟨data, hd, h⟩
    cases h
    exact ⟨data, hd, rfl⟩
  · rintro ⟨data, hd, rfl⟩
    exact ⟨data, hd, rfl⟩

theorem genesis_bytes {g : BlockV2} (h : identityMatchesGenesis E identity (some g) = .ok true) :
    g.header.bytes = .ok identity.genesisHeaderBytes := by
  unfold identityMatchesGenesis at h
  dsimp only at h
  split at h
  · cases h
  split at h
  · cases h
  obtain ⟨hash, -, h⟩ := bind_eq_ok.mp h
  split at h
  · cases h
  split at h
  · rename_i actual hactual
    rw [Except.ok.injEq, decide_eq_true_eq] at h
    rw [hactual, h]
  · cases h

theorem alphaGenesis_bytes : alphaGenesis.header.bytes = .ok GENESIS_HEADER_BYTES := of_okEq (by decide +kernel)

variable (E) in
/-- SHA-256 does not collide on the headers of the two chains, nor on the frozen
genesis header. -/
structure NoCollision (cur cand : List BlockV2) : Prop where
  shared : ∀ a ∈ cur, ∀ b ∈ cand, ∀ h, a.hash E = .ok h → b.hash E = .ok h → a.header.bytes = b.header.bytes
  genesis : ∀ b ∈ cur ++ cand, b.hash E = .ok GENESIS_HASH → b.header.bytes = .ok GENESIS_HEADER_BYTES

theorem genesis_target {g : BlockV2} (h : g.verify E none true none none none = .ok true)
    (hpin : g.hash E = .ok GENESIS_HASH → g.header.bytes = .ok GENESIS_HEADER_BYTES) :
    InBounds g.header.target := by
  unfold BlockV2.verify at h
  split at h
  · cases h
  simp only [if_true] at h
  obtain ⟨genesis, hg, h⟩ := bind_eq_ok.mp h
  split at h
  · rename_i hgen
    subst hgen
    unfold BlockV2.isGenesis at hg
    split at hg
    · obtain ⟨hash, hhash, hg⟩ := bind_eq_ok.mp hg
      rw [Except.ok.injEq, decide_eq_true_eq] at hg
      subst hg
      rw [(bytes_inj (hpin hhash) alphaGenesis_bytes).1]
      exact ⟨by decide, le_rfl⟩
    · cases hg
  · split at h
    · cases h
    · rename_i hb
      exact not_not.mp hb

theorem accepts_targets {blocks : List BlockV2} (h : Accepts E identity validator clock blocks)
    (hpin : ∀ b ∈ blocks, b.hash E = .ok GENESIS_HASH → b.header.bytes = .ok GENESIS_HEADER_BYTES) :
    ∀ t ∈ targetsOf blocks, InBounds t := by
  obtain ⟨ctx, hctx⟩ := accepts_ctx h
  intro t ht
  obtain ⟨b, hb, rfl⟩ := List.mem_map.mp ht
  obtain ⟨pre, post, rfl⟩ := List.append_of_mem hb
  cases pre with
  | nil =>
    obtain ⟨ctx', -, -, hv, -⟩ := accepts_iff.mp h
    exact genesis_target hv (hpin b hb)
  | cons g pre =>
    obtain ⟨s, s', hf⟩ := h.follows hctx rfl (by simp)
    exact hf.intact.bounds

theorem accepts_branchWork {blocks : List BlockV2} (h : Accepts E identity validator clock blocks)
    (hpin : ∀ b ∈ blocks, b.hash E = .ok GENESIS_HASH → b.header.bytes = .ok GENESIS_HEADER_BYTES) :
    branchWork blocks = .ok (total workOf (targetsOf blocks)) :=
  branchWork_eq fun t ht => (accepts_targets h hpin t ht).pos

/-! ## The shared prefix -/

theorem hashAt_eq_ok {blocks : List BlockV2} {i : Nat} {h : Str} :
    hashAt E blocks i = .ok h ↔ ∃ b, blocks[i]? = some b ∧ b.hash E = .ok h := by
  simp only [hashAt, bind_eq_ok, orRaise_eq_ok]

theorem searchAncestor_ok {cur cand : List BlockV2} : ∀ {n k : Nat}, searchAncestor E cur cand n = .ok k →
    k = 0 ∨ ∃ h, hashAt E cur k = .ok h ∧ hashAt E cand k = .ok h
  | 0, k, h => by cases h; exact .inl rfl
  | n + 1, k, h => by
    simp only [searchAncestor, bind_eq_ok] at h
    obtain ⟨a, ha, b, hb, h⟩ := h
    split at h
    · rename_i hab
      cases h
      exact .inr ⟨a, ha, by rw [hb, hab]⟩
    · exact searchAncestor_ok h

/-- At the common height the two blocks have one hash. -/
theorem findCommonAncestor_hash {cur cand : List BlockV2} {k : Nat} (h : findCommonAncestor E cur cand = .ok k) :
    ∃ hash, hashAt E cur k = .ok hash ∧ hashAt E cand k = .ok hash := by
  obtain ⟨-, hash, ha, hb, hs⟩ := findCommonAncestor_ok h
  rcases searchAncestor_ok hs with rfl | h
  · exact ⟨hash, ha, hb⟩
  · exact h

theorem split_at {α : Type} {l : List α} {i : Nat} {a : α} (h : l[i]? = some a) :
    l = l.take i ++ a :: l.drop (i + 1) := by
  obtain ⟨hi, rfl⟩ := List.getElem?_eq_some_iff.mp h
  rw [← List.drop_eq_getElem_cons hi, List.take_append_drop]

theorem Accepts.link {blocks : List BlockV2} (h : Accepts E identity validator clock blocks) {i : Nat}
    {a b : BlockV2} (ha : blocks[i]? = some a) (hb : blocks[i + 1]? = some b) :
    a.hash E = .ok b.header.prevHash := by
  obtain ⟨ctx, hctx⟩ := accepts_ctx h
  have hi := (List.getElem?_eq_some_iff.mp ha).1
  obtain ⟨s, s', hf⟩ := h.follows hctx (split_at hb) (by simp [accepts_ne h])
  obtain ⟨last, hlast, hhash⟩ := hf.linked
  have hlen : (blocks.take (i + 1)).length = i + 1 := by rw [List.length_take]; omega
  have hget : (blocks.take (i + 1)).getLast? = some a := by
    rw [List.getLast?_eq_getElem?, hlen, Nat.add_sub_cancel, List.getElem?_take, if_pos (by omega), ha]
  rw [List.getLast?_map, hget] at hlast
  cases hlast
  exact hhash

/-- Chains that share a hash at `k` share one at every height below. -/
theorem shared_hash {a b : List BlockV2} {k : Nat} {clock' : Int} (ha : Accepts E identity validator clock a)
    (hb : Accepts E identity validator clock' b) (hnc : NoCollision E a b)
    (hk : ∃ h, hashAt E a k = .ok h ∧ hashAt E b k = .ok h) :
    ∀ j ≤ k, ∃ h, hashAt E a (k - j) = .ok h ∧ hashAt E b (k - j) = .ok h
  | 0, _ => hk
  | j + 1, hj => by
    obtain ⟨h, hah, hbh⟩ := shared_hash ha hb hnc hk j (by omega)
    have hkj : k - j = k - (j + 1) + 1 := by omega
    rw [hkj] at hah hbh
    obtain ⟨x, hx, hxh⟩ := hashAt_eq_ok.mp hah
    obtain ⟨y, hy, hyh⟩ := hashAt_eq_ok.mp hbh
    obtain ⟨data, hdata, -⟩ := hash_eq_ok.mp hxh
    have hsame := hnc.shared x (List.mem_of_getElem? hx) y (List.mem_of_getElem? hy) h hxh hyh
    have hprev := (bytes_inj hdata (hsame ▸ hdata)).2
    -- both previous hashes are digests, spelled as the decoder spells them
    have below : ∀ {d : List BlockV2} {cl : Int} {z : BlockV2}, Accepts E identity validator cl d →
        d[k - (j + 1) + 1]? = some z → ∃ w, d[k - (j + 1)]? = some w ∧ w.hash E = .ok z.header.prevHash ∧
          canonicalHash z.header.prevHash = z.header.prevHash := by
      intro d cl z hc hz
      have hlt := (List.getElem?_eq_some_iff.mp hz).1
      have hw : d[k - (j + 1)]? = some d[k - (j + 1)] := List.getElem?_eq_getElem (by omega)
      have hl := hc.link hw hz
      obtain ⟨data, -, hd⟩ := hash_eq_ok.mp hl
      exact ⟨_, hw, hl, by rw [hd, canonicalHash_toHex]⟩
    obtain ⟨x', hx', hxl, hxc⟩ := below ha hx
    obtain ⟨y', hy', hyl, hyc⟩ := below hb hy
    rw [hxc, hyc] at hprev
    exact ⟨_, hashAt_eq_ok.mpr ⟨x', hx', hxl⟩, hashAt_eq_ok.mpr ⟨y', hy', hprev ▸ hyl⟩⟩

theorem shared_targets {a b : List BlockV2} {k : Nat} {clock' : Int} (ha : Accepts E identity validator clock a)
    (hb : Accepts E identity validator clock' b) (hnc : NoCollision E a b)
    (hk : ∃ h, hashAt E a k = .ok h ∧ hashAt E b k = .ok h) :
    targetsOf (a.take (k + 1)) = targetsOf (b.take (k + 1)) := by
  apply List.ext_getElem?
  intro i
  simp only [targetsOf, List.getElem?_map, List.getElem?_take]
  split
  · rename_i hi
    obtain ⟨h, hah, hbh⟩ := shared_hash ha hb hnc hk (k - i) (by omega)
    rw [Nat.sub_sub_self (by omega)] at hah hbh
    obtain ⟨x, hx, hxh⟩ := hashAt_eq_ok.mp hah
    obtain ⟨y, hy, hyh⟩ := hashAt_eq_ok.mp hbh
    obtain ⟨data, hdata, -⟩ := hash_eq_ok.mp hxh
    have hsame := hnc.shared x (List.mem_of_getElem? hx) y (List.mem_of_getElem? hy) h hxh hyh
    rw [hx, hy, Option.map_some, Option.map_some, (bytes_inj hdata (hsame ▸ hdata)).1]
  · rfl

theorem total_split (c : List BlockV2) (k : Nat) : total workOf (targetsOf c) =
    total workOf (targetsOf (c.take k)) + total workOf (targetsOf (c.drop k)) := by
  rw [← total_append, targetsOf, targetsOf, targetsOf, ← List.map_append, List.take_append_drop]

end

end ChainBreaker
