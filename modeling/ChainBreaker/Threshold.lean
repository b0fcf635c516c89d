import ChainBreaker.KeyOrder
import Mathlib.Data.List.Nodup
import Mathlib.Data.List.Range

/-!
# How many keys a threshold stands for

The keys of a context are told apart by their spelling, the signers of a
transaction by the position of their key. So `threshold` signatures come from as
many different keys exactly if one is enough, or no two spellings of the context
decode to one key (`threshold_distinct_iff`).
-/

namespace ChainBreaker

open Fallible

/-- The key at a position, decoded. -/
def keyAt (keys : List Str) (i : Nat) : Bytes := ((keys[i]?).bind fromHex).getD []

/-- No two keys of the context decode to the same bytes. -/
def GovernanceContext.KeysApart (ctx : GovernanceContext) : Prop := (ctx.publicKeysHex.map fromHex).Nodup

section
variable (E : Primitives)

/-- At least `threshold` different keys of the context each have a valid signature in the list. -/
def GovernanceContext.DistinctlySigned (ctx : GovernanceContext) (body : Fields) (signatures : List GovernanceSignature) :
    Prop :=
  ∃ message, governanceMessage E body ctx.networkId = .ok message ∧ ∃ signers : List Bytes,
    signers.Nodup ∧ ctx.threshold ≤ signers.length ∧ ∀ pk ∈ signers, pk.length = 32 ∧
      (∃ key ∈ ctx.publicKeysHex, fromHex key = some pk) ∧ ∃ sig ∈ signatures, verify E pk message sig.signatureHex = true

/-- Ideal signatures on the body: every key of the context can sign it, and what it signs holds under no other. -/
structure GovernanceContext.Ideal (ctx : GovernanceContext) (body : Fields) (message : Bytes) : Prop where
  hashed : governanceMessage E body ctx.networkId = .ok message
  signs : ∀ key ∈ ctx.publicKeysHex, ∀ pk, fromHex key = some pk → ∃ sig, verify E pk message sig = true
  binds : ∀ sig, ∀ key ∈ ctx.publicKeysHex, ∀ key' ∈ ctx.publicKeysHex, ∀ pk pk', fromHex key = some pk →
    fromHex key' = some pk' → verify E pk message sig = true → verify E pk' message sig = true → pk = pk'

end

section
variable {E : Primitives} {ctx : GovernanceContext} {body : Fields} {message : Bytes} {sigs : List GovernanceSignature}
  {sig : GovernanceSignature}

/-! ## The keys of a context -/

theorem GovernanceContext.keyAt_spec {i : Nat} (h : i < ctx.publicKeysHex.length) :
    ∃ key, ctx.publicKeysHex[i]? = some key ∧ key ∈ ctx.publicKeysHex ∧
      fromHex key = some (keyAt ctx.publicKeysHex i) ∧ (keyAt ctx.publicKeysHex i).length = 32 := by
  have hget := List.getElem?_eq_getElem h
  obtain ⟨raw, hraw, hlen⟩ := ctx.keys_valid _ (List.getElem_mem h)
  have hkey : keyAt ctx.publicKeysHex i = raw := by
    rw [keyAt, hget, Option.bind_some, hraw, Option.getD_some]
  exact ⟨_, hget, List.getElem_mem h, by rw [hraw, hkey], by rw [hkey, hlen]⟩

/-- Positions of one key are one position. -/
theorem GovernanceContext.KeysApart.position (h : ctx.KeysApart) {i j : Nat} (hi : i < ctx.publicKeysHex.length)
    (hj : j < ctx.publicKeysHex.length) (hkey : keyAt ctx.publicKeysHex i = keyAt ctx.publicKeysHex j) : i = j := by
  obtain ⟨ki, hgi, -, hdi, -⟩ := ctx.keyAt_spec hi
  obtain ⟨kj, hgj, -, hdj, -⟩ := ctx.keyAt_spec hj
  have hmap : (ctx.publicKeysHex.map fromHex)[i]? = (ctx.publicKeysHex.map fromHex)[j]? := by
    rw [List.getElem?_map, List.getElem?_map, hgi, hgj, Option.map_some, Option.map_some, hdi, hdj, hkey]
  exact (List.getElem?_inj (by rwa [List.length_map]) h).mp hmap

/-- A signature that counts holds under the key at its position. -/
theorem signature_holds_iff (h : sig.keyIndex.toNat < ctx.publicKeysHex.length) :
    sig.holds E ctx.publicKeysHex message = true ↔
      verify E (keyAt ctx.publicKeysHex sig.keyIndex.toNat) message sig.signatureHex = true := by
  obtain ⟨key, hget, -, hdecode, hlen⟩ := ctx.keyAt_spec h
  have hpk : decodePublicKey key = .ok (keyAt ctx.publicKeysHex sig.keyIndex.toNat) := by
    rw [decodePublicKey, fromHexOrRaise_eq_ok.mpr hdecode, ok_bind, if_neg (not_not.mpr hlen)]
  rw [GovernanceSignature.holds, hget, Option.map_some, hpk]

theorem verifyGovernanceSignatures_eq_ok (hmessage : governanceMessage E body ctx.networkId = .ok message) :
    ctx.verifyGovernanceSignatures E body sigs = .ok () ↔
      (∀ sig ∈ sigs, 0 ≤ sig.keyIndex ∧ sig.keyIndex < ctx.publicKeysHex.length) ∧
        (sigs.map GovernanceSignature.keyIndex).Nodup ∧
        ctx.threshold ≤ (sigs.filter (GovernanceSignature.holds E ctx.publicKeysHex message)).length := by
  simp only [GovernanceContext.verifyGovernanceSignatures, hmessage, ok_bind, bind_eq_ok, require_eq_ok, countValid_eq_ok,
    List.not_mem_nil, not_false_eq_true, and_true, Nat.zero_add]
  constructor
  · rintro ⟨n, ⟨hrange, hnodup, rfl⟩, hle⟩
    exact ⟨hrange, hnodup, hle⟩
  · rintro ⟨hrange, hnodup, hle⟩
    exact ⟨_, ⟨hrange, hnodup, rfl⟩, hle⟩

/-! ## Enough different keys -/

/-- The key that a counted signature holds under. -/
theorem signer_of_holds (hrange : 0 ≤ sig.keyIndex ∧ sig.keyIndex < ctx.publicKeysHex.length) (hsig : sig ∈ sigs)
    (hholds : sig.holds E ctx.publicKeysHex message = true) :
    (keyAt ctx.publicKeysHex sig.keyIndex.toNat).length = 32 ∧
      (∃ key ∈ ctx.publicKeysHex, fromHex key = some (keyAt ctx.publicKeysHex sig.keyIndex.toNat)) ∧
      ∃ s ∈ sigs, verify E (keyAt ctx.publicKeysHex sig.keyIndex.toNat) message s.signatureHex = true := by
  have hlt : sig.keyIndex.toNat < ctx.publicKeysHex.length := by omega
  obtain ⟨key, -, hkey, hdecode, hlen⟩ := ctx.keyAt_spec hlt
  exact ⟨hlen, ⟨key, hkey, hdecode⟩, sig, hsig, (signature_holds_iff hlt).mp hholds⟩

/-- With the keys apart, the counted signatures come from different keys. -/
theorem distinct_of_apart (hapart : ctx.KeysApart) (h : ctx.verifyGovernanceSignatures E body sigs = .ok ()) :
    ctx.DistinctlySigned E body sigs := by
  obtain ⟨message, hmessage, -⟩ := verifyGovernanceSignatures_signed h
  obtain ⟨hrange, hnodup, hle⟩ := (verifyGovernanceSignatures_eq_ok hmessage).mp h
  refine ⟨message, hmessage, (sigs.filter (GovernanceSignature.holds E ctx.publicKeysHex message)).map
    (fun sig => keyAt ctx.publicKeysHex sig.keyIndex.toNat), ?_, by rwa [List.length_map], ?_⟩
  · refine List.Nodup.map_on (fun a ha b hb hkey => ?_) ((List.Nodup.of_map _ hnodup).filter _)
    have ha' := hrange a (List.mem_of_mem_filter ha)
    have hb' := hrange b (List.mem_of_mem_filter hb)
    have hposition := hapart.position (by omega) (by omega) hkey
    exact List.inj_on_of_nodup_map hnodup (List.mem_of_mem_filter ha) (List.mem_of_mem_filter hb) (by omega)
  · intro pk hpk
    obtain ⟨sig, hsig, rfl⟩ := List.mem_map.mp hpk
    obtain ⟨hmem, hholds⟩ := List.mem_filter.mp hsig
    exact signer_of_holds (hrange sig hmem) hmem hholds

theorem distinct_of_one (hone : ctx.threshold = 1) (h : ctx.verifyGovernanceSignatures E body sigs = .ok ()) :
    ctx.DistinctlySigned E body sigs := by
  obtain ⟨message, hmessage, -⟩ := verifyGovernanceSignatures_signed h
  obtain ⟨hrange, -, hle⟩ := (verifyGovernanceSignatures_eq_ok hmessage).mp h
  rw [hone] at hle
  obtain ⟨sig, hsig⟩ := List.exists_mem_of_length_pos hle
  obtain ⟨hmem, hholds⟩ := List.mem_filter.mp hsig
  refine ⟨message, hmessage, [keyAt ctx.publicKeysHex sig.keyIndex.toNat], List.nodup_singleton _, by simp [hone], ?_⟩
  intro pk hpk
  rw [List.mem_singleton.mp hpk]
  exact signer_of_holds (hrange sig hmem) hmem hholds

/-! ## One key at two positions -/

/-- `n` positions that begin with `i` and `j`. -/
theorem positions_with {i j n size : Nat} (hij : i ≠ j) (hi : i < size) (hj : j < size) (hn : 2 ≤ n) (hle : n ≤ size) :
    ∃ rest : List Nat, (i :: j :: rest).Nodup ∧ (i :: j :: rest).length = n ∧ ∀ a ∈ i :: j :: rest, a < size := by
  have hall : (i :: j :: ((List.range size).erase i).erase j).Perm (List.range size) := by
    have hj' : j ∈ (List.range size).erase i := (List.mem_erase_of_ne (Ne.symm hij)).mpr (List.mem_range.mpr hj)
    exact ((List.perm_cons_erase hj').symm.cons i).trans (List.perm_cons_erase (List.mem_range.mpr hi)).symm
  have hlen : (i :: j :: ((List.range size).erase i).erase j).length = size := by rw [hall.length_eq, List.length_range]
  have htake : (i :: j :: ((List.range size).erase i).erase j).take n =
      i :: j :: (((List.range size).erase i).erase j).take (n - 2) := by
    obtain ⟨m, rfl⟩ := Nat.exists_eq_add_of_le' hn
    rfl
  refine ⟨(((List.range size).erase i).erase j).take (n - 2), ?_, ?_, ?_⟩
  · rw [← htake]
    exact (hall.nodup_iff.mpr List.nodup_range).sublist (List.take_sublist _ _)
  · rw [← htake, List.length_take, hlen, Nat.min_eq_left hle]
  · intro a ha
    rw [← htake] at ha
    exact List.mem_range.mp (hall.subset (List.mem_of_mem_take ha))

/-- Signatures by the keys at `n` positions, of which two are one key, count as `n`. -/
theorem shared_key_counts_twice (hideal : ctx.Ideal E body message) (hshared : ¬ ctx.KeysApart) (hmany : ctx.threshold ≠ 1) :
    ∃ signatures, ctx.verifyGovernanceSignatures E body signatures = .ok () ∧ ¬ ctx.DistinctlySigned E body signatures := by
  have hthreshold := ctx.threshold_range
  obtain ⟨i, j, hij, hj, hsame⟩ : ∃ i j, i < j ∧ j < ctx.publicKeysHex.length ∧
      keyAt ctx.publicKeysHex i = keyAt ctx.publicKeysHex j := by
    by_contra hnone
    refine hshared (List.pairwise_iff_getElem.mpr fun i j hi hj hlt hkey => hnone ⟨i, j, hlt, by simpa using hj, ?_⟩)
    rw [List.length_map] at hi hj
    rw [List.getElem_map, List.getElem_map] at hkey
    rw [keyAt, keyAt, List.getElem?_eq_getElem hi, List.getElem?_eq_getElem hj, Option.bind_some, Option.bind_some, hkey]
  obtain ⟨rest, hnodup, hlen, hlt⟩ := positions_with (Nat.ne_of_lt hij) (hij.trans hj) hj
    (by omega : 2 ≤ ctx.threshold) hthreshold.2
  have hsigns : ∀ a, ∃ sig, a < ctx.publicKeysHex.length → verify E (keyAt ctx.publicKeysHex a) message sig = true := by
    intro a
    by_cases ha : a < ctx.publicKeysHex.length
    · obtain ⟨key, -, hkey, hdecode, -⟩ := ctx.keyAt_spec ha
      obtain ⟨sig, hsig⟩ := hideal.signs key hkey _ hdecode
      exact ⟨sig, fun _ => hsig⟩
    · exact ⟨[], fun h => absurd h ha⟩
  choose signed hsigned using hsigns
  have hholds : ∀ a ∈ i :: j :: rest, GovernanceSignature.holds E ctx.publicKeysHex message ⟨a, signed a⟩ = true :=
    fun a ha => (@signature_holds_iff E ctx message ⟨a, signed a⟩ (hlt a ha)).mpr (hsigned a (hlt a ha))
  refine ⟨(i :: j :: rest).map fun (a : Nat) => ⟨(a : Int), signed a⟩,
    (verifyGovernanceSignatures_eq_ok hideal.hashed).mpr ⟨?_, ?_, ?_⟩, ?_⟩
  · intro sig hsig
    obtain ⟨a, ha, rfl⟩ := List.mem_map.mp hsig
    have := hlt a ha
    exact ⟨Int.natCast_nonneg a, Int.ofNat_lt.mpr this⟩
  · rw [List.map_map]
    exact hnodup.map fun a b hab => Int.ofNat_inj.mp hab
  · rw [List.filter_eq_self.mpr fun sig hsig => by
      obtain ⟨a, ha, rfl⟩ := List.mem_map.mp hsig
      exact hholds a ha, List.length_map, hlen]
  · rintro ⟨message', hmessage', signers, hdistinct, henough, hsigners⟩
    obtain rfl : message' = message := Except.ok.inj (hmessage'.symm.trans hideal.hashed)
    -- every signer is the key at one of the positions other than the first
    have hsub : signers ⊆ (j :: rest).map (keyAt ctx.publicKeysHex) := by
      intro pk hpk
      obtain ⟨-, ⟨key, hkey, hdecode⟩, sig, hsig, hverify⟩ := hsigners pk hpk
      obtain ⟨a, ha, rfl⟩ := List.mem_map.mp hsig
      obtain ⟨keyA, -, hkeyA, hdecodeA, -⟩ := ctx.keyAt_spec (hlt a ha)
      obtain rfl := hideal.binds _ key hkey keyA hkeyA _ _ hdecode hdecodeA hverify (hsigned a (hlt a ha))
      rcases List.mem_cons.mp ha with rfl | ha
      · exact List.mem_map.mpr ⟨j, .head _, hsame.symm⟩
      · exact List.mem_map_of_mem ha
    have hle := (List.subperm_of_subset hdistinct hsub).length_le
    rw [List.length_map] at hle
    simp only [List.length_cons] at hle hlen
    omega

end

/-- A context that counts one signature or has its keys apart has every accepted body signed by `threshold`
different keys; with ideal signatures no other has. -/
theorem threshold_distinct_iff (E : Primitives) (ctx : GovernanceContext) :
    (ctx.threshold = 1 ∨ ctx.KeysApart → ∀ body signatures,
        ctx.verifyGovernanceSignatures E body signatures = .ok () → ctx.DistinctlySigned E body signatures) ∧
      ∀ body message, ctx.Ideal E body message →
        (∀ signatures, ctx.verifyGovernanceSignatures E body signatures = .ok () → ctx.DistinctlySigned E body signatures) →
        ctx.threshold = 1 ∨ ctx.KeysApart := by
  constructor
  · rintro (hone | hapart) body signatures h
    · exact distinct_of_one hone h
    · exact distinct_of_apart hapart h
  · intro body message hideal hall
    by_contra hnot
    obtain ⟨hmany, hshared⟩ := not_or.mp hnot
    obtain ⟨signatures, hok, hfew⟩ := shared_key_counts_twice hideal hshared hmany
    exact hfew (hall signatures hok)

/-! ## Two spellings of one key -/

/-- The governance key's signature on the empty body. -/
def signedOnce : Primitives := recorded
  [(governanceKey, str "33943b89c20d262d8999a292f097410de22c6c30400ea8555724bce6d3e50129",
    str "80aa487d775bb5644b807793b458889e794c7080b2b909c0595f3f4bce1c9e527eab86eb1163f3760ea356b3b0649bc8e3370648903e36d7bb3f12c04bed9908")]

def governanceKeyUpper : Str := str "8A88E3DD7409F195FD52DB2D3CBA5D72CA6709BF1D94121BF3748801B40F6F5C"

def spelledTwice : List GovernanceSignature :=
  [⟨0, str "80aa487d775bb5644b807793b458889e794c7080b2b909c0595f3f4bce1c9e527eab86eb1163f3760ea356b3b0649bc8e3370648903e36d7bb3f12c04bed9908"⟩,
    ⟨1, str "80aa487d775bb5644b807793b458889e794c7080b2b909c0595f3f4bce1c9e527eab86eb1163f3760ea356b3b0649bc8e3370648903e36d7bb3f12c04bed9908"⟩]

theorem governanceKey_decoded : ∃ raw, fromHex governanceKey = some raw ∧ fromHex governanceKeyUpper = some raw :=
  ⟨(fromHex governanceKey).getD [], by decide +kernel, by decide +kernel⟩

theorem pairKeys_checks : checkKeys [] [governanceKey, aliceKey₁] = .ok () := of_okEq (by decide +kernel)

/-- Two keys, both of which have to sign. -/
def pairContext : GovernanceContext where
  publicKeysHex := [governanceKey, aliceKey₁]
  threshold := 2
  networkId := NETWORK_ID
  count_range := by decide
  keys_valid := (checkKeys_ok _ _ pairKeys_checks).1
  keys_nodup := (checkKeys_ok _ _ pairKeys_checks).2.1
  threshold_range := by decide
  networkId_ne := networkId_nonempty

theorem pairContext_keysApart : pairContext.KeysApart := by
  unfold GovernanceContext.KeysApart
  decide +kernel

theorem threshold_distinct_pair : ∀ body signatures, pairContext.verifyGovernanceSignatures alicePrimitives body signatures =
    .ok () → pairContext.DistinctlySigned alicePrimitives body signatures :=
  (threshold_distinct_iff alicePrimitives pairContext).1 (.inr pairContext_keysApart)

set_option maxRecDepth 100000 in
theorem spelledTwice_verified : okAnd (fun ctx : GovernanceContext =>
    okAnd (fun _ => true) (ctx.verifyGovernanceSignatures signedOnce [] spelledTwice))
    (GovernanceContext.init [governanceKey, governanceKeyUpper] 2 NETWORK_ID) = true := by
  decide +kernel

/-- One key in lower and upper case reaches a threshold of two alone. -/
theorem one_key_counts_twice : ¬ ∀ (E : Primitives) (keys : List Str) (threshold : Nat) (networkId : Str)
    (ctx : GovernanceContext) (body : Fields) (signatures : List GovernanceSignature),
    GovernanceContext.init keys threshold networkId = .ok ctx →
    ctx.verifyGovernanceSignatures E body signatures = .ok () → ctx.DistinctlySigned E body signatures := by
  intro h
  obtain ⟨ctx, hctx, hverified⟩ := of_okAnd spelledTwice_verified
  obtain ⟨u, hu, -⟩ := of_okAnd hverified
  obtain ⟨hkeys, hthreshold, -⟩ := GovernanceContext.init_fields hctx
  obtain ⟨_, -, signers, hdistinct, henough, hsigners⟩ := h _ _ _ _ ctx [] _ hctx hu
  obtain ⟨raw, hlower, hupper⟩ := governanceKey_decoded
  have hsub : signers ⊆ [raw] := by
    intro pk hpk
    obtain ⟨-, ⟨key, hkey, hdecode⟩, -⟩ := hsigners pk hpk
    rw [hkeys, List.mem_pair] at hkey
    rcases hkey with rfl | rfl
    · rw [hlower] at hdecode
      exact List.mem_singleton.mpr (Option.some.inj hdecode).symm
    · rw [hupper] at hdecode
      exact List.mem_singleton.mpr (Option.some.inj hdecode).symm
  have hle := (List.subperm_of_subset hdistinct hsub).length_le
  rw [hthreshold] at henough
  simp only [List.length_singleton] at hle
  omega

end ChainBreaker
