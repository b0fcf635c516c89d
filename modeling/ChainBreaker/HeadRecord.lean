import ChainBreaker.AppendBlock
import ChainBreaker.RecoveryRules

/-!
# HEAD of a derived network

HEAD separates its fields with colons, and one of the fields is the network id,
which `derive_network_identity` takes as it is. A record reads back exactly if
the id has no colon (`head_round_trip_iff`); otherwise no tip can be read after
the first append.
-/

namespace ChainBreaker

open Fallible FileSteps

/-- HEAD can be written, and reads back as what was written. -/
def Head.RoundTrips (head : Head) : Prop := ∃ data, encodeHead head = .ok data ∧ decodeHead data = .ok head

/-- The tip, which was one below, is the block. -/
def ReportsBlock (M : Runtime) (C : StoreConfig) (files files' : StoreFiles) (block : BlockV2) : Prop :=
  ∃ tip hash, getTip C files = .ok tip ∧ block.hash M.toPrimitives = .ok hash ∧
    getTip C files' = .ok ⟨tip.height + 1, hash, C.networkId, C.genesisHash, STORAGE_FORMAT_VERSION⟩

/-! ## What can be written -/

theorem padInt_ok_iff {width : Nat} {n : Int} :
    (∃ s, padInt width n = .ok s) ↔ (natText n.natAbs).length ≤ MAX_STR_DIGITS := by
  unfold padInt raise
  dsimp only
  split_ifs with hlong
  · exact iff_of_false nofun (Nat.not_le.mpr hlong)
  · exact iff_of_true ⟨_, rfl⟩ (Nat.not_lt.mp hlong)
  · exact iff_of_true ⟨_, rfl⟩ (Nat.not_lt.mp hlong)

theorem plain_not_surrogate {s : Str} (h : ∀ c ∈ s, c.val < 0xD800) : s.any isSurrogate = false := by
  rw [List.any_eq_false]
  intro c hc
  have hlt := h c hc
  simp only [isSurrogate, Bool.and_eq_true, decide_eq_true_eq]
  omega

theorem lowerHash_not_surrogate {s : Str} (h : isLowerHash s = true) : s.any isSurrogate = false := by
  rw [isLowerHash, Bool.and_eq_true, List.all_eq_true] at h
  apply plain_not_surrogate
  intro c hc
  have hhex := h.2 c hc
  simp only [isLowerHex, Bool.or_eq_true, Bool.and_eq_true, decide_eq_true_eq] at hhex
  omega

theorem padInt_not_surrogate {width : Nat} {n : Int} {s : Str} (hw : width ≤ MAX_STR_DIGITS) (h : padInt width n = .ok s) :
    s.any isSurrogate = false := by
  apply plain_not_surrogate
  intro c hc
  rcases (padInt_chars hw h).2 c hc with hdigit | rfl
  · rw [isDigit_iff] at hdigit
    omega
  · decide

/-- Over two hashes and a network id that has bytes, only the height can be in the way. -/
theorem encodeHead_ok_iff {head : Head} (hb : isLowerHash head.blockHash = true) (hg : isLowerHash head.genesisHash = true)
    (hn : head.networkId.any isSurrogate = false) (hv : (natText head.formatVersion.natAbs).length ≤ MAX_STR_DIGITS) :
    (∃ data, encodeHead head = .ok data) ↔ (natText head.height.natAbs).length ≤ MAX_STR_DIGITS := by
  have hlength : ∀ {s : Str}, isLowerHash s = true → s.length = 64 := fun h => by
    rw [isLowerHash, Bool.and_eq_true, beq_iff_eq] at h
    exact h.1
  rw [encodeHead, require_of _ (hlength hb), ok_bind, require_of _ (hlength hg), ok_bind]
  constructor
  · rintro ⟨data, h⟩
    simp only [headLine, bind_eq_ok] at h
    obtain ⟨height, hheight, -⟩ := h
    exact padInt_ok_iff.mp ⟨height, hheight⟩
  · intro hlong
    obtain ⟨height, hheight⟩ := padInt_ok_iff.mpr hlong
    obtain ⟨version, hversion⟩ := padInt_ok_iff.mpr hv
    rw [headLine, hheight, ok_bind, hversion, ok_bind]
    refine ⟨_, encodeUtf8_eq_ok.mpr ⟨?_, rfl⟩⟩
    have hcolon : isSurrogate (58 : CodePoint) = false := by decide
    have hfeed : isSurrogate (10 : CodePoint) = false := by decide
    simp only [List.any_append, List.any_cons, List.any_nil, hcolon, hfeed, hn, lowerHash_not_surrogate hb,
      lowerHash_not_surrogate hg, padInt_not_surrogate (by decide) hheight, padInt_not_surrogate (by decide) hversion,
      Bool.or_false]

theorem headRoundTrips_iff {head : Head} (hb : isLowerHash head.blockHash = true) (hg : isLowerHash head.genesisHash = true)
    (hn : head.networkId.any isSurrogate = false) (hv : (natText head.formatVersion.natAbs).length ≤ MAX_STR_DIGITS) :
    head.RoundTrips ↔ (58 : CodePoint) ∉ head.networkId ∧ (natText head.height.natAbs).length ≤ MAX_STR_DIGITS := by
  have hline : ∀ {data}, encodeHead head = .ok data → headLine head = .ok data := by
    intro data h
    simp only [encodeHead, bind_eq_ok] at h
    obtain ⟨_, -, _, -, h⟩ := h
    exact h
  rw [← encodeHead_ok_iff hb hg hn hv]
  constructor
  · rintro ⟨data, hdata, hback⟩
    refine ⟨fun hcolon => ?_, data, hdata⟩
    obtain ⟨e, he⟩ := decodeHead_colon hcolon (hline hdata)
    rw [he] at hback
    cases hback
  · rintro ⟨hcolon, data, hdata⟩
    exact ⟨data, hdata, decodeHead_headLine hb hg hcolon (hline hdata)⟩

/-! ## Derived networks -/

section
variable {M : Runtime} {networkId : Str} {keys : List Str} {threshold : Nat} {kind : NetworkKind} {timestamp : Int}
  {iterations : Nat} {identity : NetworkIdentity}

/-- The registry root of a network takes the bytes of its id. -/
theorem derived_head {E : Primitives}
    (h : deriveNetworkIdentity E networkId keys threshold kind timestamp iterations = .ok identity) :
    identity.networkId = networkId ∧ networkId.any isSurrogate = false ∧ isLowerHash identity.genesisHash = true := by
  simp only [deriveNetworkIdentity, bind_eq_ok, registryRoot, serializeRegistryState, encodeStr, encodeUtf8_eq_ok] at h
  obtain ⟨_, -, sorted, -, root, ⟨data, ⟨_, -, _, -, id, ⟨raw, ⟨hid, -⟩, -⟩, -⟩, -⟩, mined, -, header, -, hash, hhash, bytes, -, h⟩ := h
  cases h
  refine ⟨rfl, hid, ?_⟩
  obtain ⟨headerBytes, -, hhash⟩ := bind_eq_ok.mp hhash
  cases hhash
  exact isLowerHash_toHex (doubleSha256_length _)

/-- **HEAD round trip.** On a derived network HEAD gives its record back, and the tip after an
appended block is that block, exactly if the network id has no colon. -/
theorem head_round_trip_iff
    (h : deriveNetworkIdentity M.toPrimitives networkId keys threshold kind timestamp iterations = .ok identity) :
    (∀ (height : Int) (blockHash : Str), isLowerHash blockHash = true →
      (Head.RoundTrips ⟨height, blockHash, identity.networkId, identity.genesisHash, STORAGE_FORMAT_VERSION⟩ ↔
        (58 : CodePoint) ∉ identity.networkId ∧ (natText height.natAbs).length ≤ MAX_STR_DIGITS)) ∧
    ∀ (fault : Option Nat) (files files' : StoreFiles) (block : BlockV2) (previousState state : RegistryState),
      appendBlock M ⟨identity.networkId, identity.genesisHash⟩ fault files block previousState = (.ok state, files') →
      (ReportsBlock M ⟨identity.networkId, identity.genesisHash⟩ files files' block ↔
        (58 : CodePoint) ∉ identity.networkId) := by
  obtain ⟨rfl, hid, hgenesis⟩ := derived_head h
  have hversion : (natText STORAGE_FORMAT_VERSION.natAbs).length ≤ MAX_STR_DIGITS := by decide
  refine ⟨fun height blockHash hb => headRoundTrips_iff hb hgenesis hid hversion, ?_⟩
  intro fault files files' block previousState state happend
  obtain ⟨tip, hash, htip, hhash, hread⟩ := appendBlock_tip happend
  constructor
  · rintro ⟨_, _, -, -, hnew⟩
    exact ((hread _).mp hnew).1.networkId
  · intro hcolon
    exact ⟨tip, hash, htip, hhash, (hread _).mpr ⟨⟨hcolon, hgenesis⟩, rfl⟩⟩

end

def emptyBlock : BlockV2 := ⟨⟨2, zeroHash, zeroHash, zeroHash, 1, 1, 0⟩, []⟩

/-- A store that holds nothing but a byte of a journal. -/
def strayFiles : StoreFiles := put ∅ .journal (some [0])

set_option maxRecDepth 100000 in
/-- A network with a colon in its id, mined with the first nonce, and its first append. -/
theorem colonNetwork : ∃ identity state files',
    deriveNetworkIdentity plainRuntime.toPrimitives (str "a:b")
      [str "8a88e3dd7409f195fd52db2d3cba5d72ca6709bf1d94121bf3748801b40f6f5c"] 1 .dev 1704078486 1 = .ok identity ∧
    appendBlock plainRuntime ⟨identity.networkId, identity.genesisHash⟩ none strayFiles emptyBlock
      ⟨[], 1, [], identity.governanceKeys, 1⟩ = (.ok state, files') := by
  have hrun : okAnd (fun identity => okAnd (fun _ => true) (appendBlock plainRuntime
        ⟨identity.networkId, identity.genesisHash⟩ none strayFiles emptyBlock ⟨[], 1, [], identity.governanceKeys, 1⟩).1)
      (deriveNetworkIdentity plainRuntime.toPrimitives (str "a:b")
        [str "8a88e3dd7409f195fd52db2d3cba5d72ca6709bf1d94121bf3748801b40f6f5c"] 1 .dev 1704078486 1) = true := by
    decide +kernel
  obtain ⟨identity, hidentity, happend⟩ := of_okAnd hrun
  obtain ⟨state, hstate, -⟩ := of_okAnd happend
  generalize hanswer : appendBlock plainRuntime ⟨identity.networkId, identity.genesisHash⟩ none strayFiles emptyBlock
    ⟨[], 1, [], identity.governanceKeys, 1⟩ = answer at hstate
  obtain ⟨result, files'⟩ := answer
  cases hstate
  exact ⟨identity, state, files', hidentity, hanswer⟩

theorem head_round_trip_colon : ∃ (identity : NetworkIdentity) (files' : StoreFiles),
    (Head.RoundTrips ⟨1, zeroHash, identity.networkId, identity.genesisHash, STORAGE_FORMAT_VERSION⟩ ↔
      (58 : CodePoint) ∉ identity.networkId ∧ (natText (1 : Int).natAbs).length ≤ MAX_STR_DIGITS) ∧
    (ReportsBlock plainRuntime ⟨identity.networkId, identity.genesisHash⟩ strayFiles files' emptyBlock ↔
      (58 : CodePoint) ∉ identity.networkId) := by
  obtain ⟨identity, state, files', hidentity, happend⟩ := colonNetwork
  obtain ⟨hhead, htip⟩ := head_round_trip_iff hidentity
  exact ⟨identity, files', hhead 1 zeroHash (by decide), htip _ _ _ _ _ _ happend⟩

/-- A network id with a colon is taken, and HEAD has a field too many. -/
theorem head_lost : ¬ ∀ (M : Runtime) (networkId : Str) (keys : List Str) (threshold : Nat) (kind : NetworkKind)
    (timestamp : Int) (iterations : Nat) (identity : NetworkIdentity),
    deriveNetworkIdentity M.toPrimitives networkId keys threshold kind timestamp iterations = .ok identity →
    ∀ (height : Nat) (blockHash : Str), isLowerHash blockHash = true →
      Head.RoundTrips ⟨height, blockHash, identity.networkId, identity.genesisHash, STORAGE_FORMAT_VERSION⟩ := by
  intro h
  obtain ⟨identity, -, -, hidentity, -⟩ := colonNetwork
  obtain ⟨data, hdata, hback⟩ := h _ _ _ _ _ _ _ _ hidentity 1 zeroHash (by decide)
  simp only [encodeHead, bind_eq_ok] at hdata
  obtain ⟨_, -, _, -, hline⟩ := hdata
  have hcolon : (58 : CodePoint) ∈ identity.networkId := by
    rw [(derived_head hidentity).1]
    decide
  obtain ⟨e, he⟩ := decodeHead_colon hcolon hline
  rw [he] at hback
  cases hback

end ChainBreaker
