import ChainBreaker.RecoveryRepeat

/-!
# The tip after a recovery

The height and hash that a recovery returns are those of HEAD and of a stored
block exactly from the starts of `Sound`. For a store whose blocks are all
there this is not so: the hash returned is the one the last block checked
names, which is the genesis hash.
-/

namespace ChainBreaker

open Fallible FileSteps

section
variable {M : Runtime}

/-! ## The tip that is left -/

/-- The stored blocks from a height down to 1 can be read and name one another's
hashes, down to genesis. -/
inductive BlockLinks (M : Runtime) (C : StoreConfig) (files : StoreFiles) : Nat → Str → Prop where
  | genesis : BlockLinks M C files 0 C.genesisHash
  | down {h : Nat} {block : BlockV2} {a : Str} : storedBlock M files (h + 1) = some block →
      block.hash M.toPrimitives = .ok a → BlockLinks M C files h block.header.prevHash → BlockLinks M C files (h + 1) a

/-- What is returned is what HEAD names and what is stored, with nothing above it. -/
def ConsistentTip (M : Runtime) (C : StoreConfig) (files : StoreFiles) (r : Recovered) : Prop :=
  ∃ h : Nat, r.height = h ∧
    (∃ head, getTip C files = .ok head ∧ head.height = r.height ∧ head.blockHash = r.blockHash) ∧
    BlockLinks M C files h r.blockHash ∧
    ∀ k > h, files.lookup (.header k) = none ∧ files.lookup (.block k) = none ∧ files.lookup (.state k) = none

/-- Where a recovery can start so that it leaves a consistent tip. -/
inductive Sound (M : Runtime) (C : StoreConfig) (files : StoreFiles) (start : RecoveryStart) : Prop where
  /-- HEAD stands at genesis, or there is none -/
  | genesis {head : Head} : start.height = 0 → start.headHeight = 0 → getTip C files = .ok head → head.height = 0 →
      head.blockHash = C.genesisHash → Sound M C files start
  | nothing : start.height = 0 → start.headHeight ≠ 0 → start.hash = C.genesisHash →
      (58 : CodePoint) ∉ C.networkId → Sound M C files start
  /-- the first block is the only one that does not pass -/
  | first {p : Str} : Links M files start.height.toNat start.hash 1 p → (¬ ∃ q, Verified M files 1 p q) →
      (58 : CodePoint) ∉ C.networkId → Sound M C files start
  /-- blocks that lead from the genesis hash back to it -/
  | cycle {s : Nat} : 0 < s → WalkEnds M C files start s C.genesisHash → BlockLinks M C files s C.genesisHash →
      (s = start.headHeight ∨ (58 : CodePoint) ∉ C.networkId) → Sound M C files start

theorem Verified.stored {files : StoreFiles} {h : Nat} {a p : Str} (hv : Verified M files h a p) :
    ∃ block, storedBlock M files h = some block ∧ block.hash M.toPrimitives = .ok a ∧ block.header.prevHash = p := by
  obtain ⟨_, data, block, -, hdata, -, -, hdecode, hhash, hprev⟩ := hv
  exact ⟨block, by rw [storedBlock, hdata, Option.bind_some, hdecode]; rfl, hhash, hprev⟩

theorem blockLinks_zero {C : StoreConfig} {files : StoreFiles} {a : Str} :
    BlockLinks M C files 0 a ↔ a = C.genesisHash := by
  constructor
  · intro h
    cases h
    rfl
  · rintro rfl
    exact .genesis

/-- A stored block has one hash. -/
theorem Links.top_hash {C : StoreConfig} {files : StoreFiles} {h : Nat} {a b c : Str}
    (hl : Links M files (h + 1) a 0 b) (hb : BlockLinks M C files (h + 1) c) : a = c := by
  cases hl with
  | down hv _ =>
    cases hb with
    | down hstored hhash _ =>
      obtain ⟨block, hblock, hhash', -⟩ := hv.stored
      rw [hstored] at hblock
      cases hblock
      exact Except.ok.inj (hhash'.symm.trans hhash)

/-- Verified blocks that are linked to genesis are verified down to it. -/
theorem Links.to_genesis {C : StoreConfig} {files : StoreFiles} {h : Nat} {a b : Str} (hl : Links M files h a 0 b)
    (hb : BlockLinks M C files h a) : b = C.genesisHash := by
  induction h generalizing a with
  | zero =>
    cases hl
    cases hb
    rfl
  | succ h ih =>
    cases hl with
    | down hv hl =>
      cases hb with
      | down hstored _ hb =>
        obtain ⟨block, hblock, -, hprev⟩ := hv.stored
        rw [hstored] at hblock
        cases hblock
        rw [hprev] at hb
        exact ih hl hb

theorem BlockLinks.congr {C : StoreConfig} {files files' : StoreFiles} {h : Nat} {a : Str}
    (hsame : ∀ k ≤ h, files.lookup (.block k) = files'.lookup (.block k)) (hb : BlockLinks M C files h a) :
    BlockLinks M C files' h a := by
  induction hb with
  | genesis => exact .genesis
  | @down h _ _ hstored hhash _ ih =>
    refine .down ?_ hhash (ih fun k hk => hsame k (by omega))
    rwa [storedBlock, ← hsame (h + 1) (Nat.le_refl _)]

theorem blockLinks_recovered {C : StoreConfig} {tip : SafeTip} {files files' : StoreFiles}
    (hto : RecoversTo M C tip files files') {h : Nat} (hle : (h : Int) ≤ tip.safeHeight) {a : Str} :
    BlockLinks M C files' h a ↔ BlockLinks M C files h a := by
  have hsame : ∀ k ≤ h, files'.lookup (.block k) = files.lookup (.block k) := fun k hk => by
    rw [hto.block, if_neg (by omega)]
  exact ⟨BlockLinks.congr hsame, BlockLinks.congr fun k hk => (hsame k hk).symm⟩

/-- HEAD after a recovery that rewrote it, from a HEAD above genesis. -/
theorem head_rewritten {C : StoreConfig} {tip : SafeTip} {files files' : StoreFiles} (hto : RecoversTo M C tip files files')
    (hne : tip.safeHeight ≠ tip.headHeight) (hgenesis : isLowerHash C.genesisHash = true)
    (hhash : isLowerHash tip.currentHash = true) :
    (∃ head, getTip C files' = .ok head ∧ head.height = tip.safeHeight ∧ head.blockHash = tip.currentHash) ↔
      (58 : CodePoint) ∉ C.networkId := by
  have hhead := hto.head
  rw [if_neg hne] at hhead
  obtain ⟨line, hline, hhead⟩ := hhead
  rw [getTip, hhead]
  dsimp only
  constructor
  · rintro ⟨head, hdecode, -⟩ hcolon
    obtain ⟨e, he⟩ := decodeHead_colon hcolon hline
    rw [hdecode] at he
    cases he
  · exact fun hcolon => ⟨_, decodeHead_headLine hhash hgenesis hcolon hline, rfl, rfl⟩

theorem getTip_kept {C : StoreConfig} {tip : SafeTip} {files files' : StoreFiles} (hto : RecoversTo M C tip files files')
    (heq : tip.safeHeight = tip.headHeight) : getTip C files' = getTip C files := by
  have hhead := hto.head
  rw [if_pos heq] at hhead
  rw [getTip, getTip, hhead]

/-- **When recovery leaves a consistent tip.** -/
theorem recover_consistent_iff {o : Listing} {C : StoreConfig} {maxHeight : Option Int} {files files' : StoreFiles}
    {r : Recovered} {start : RecoveryStart} (hrun : recoverStore M o C maxHeight files = (files', .ok r))
    (hstart : recoveryStart M C maxHeight files = .ok start) :
    ConsistentTip M C files' r ↔ Sound M C files start := by
  obtain ⟨start₁, tip, hstart₁, -, htipHead, hends, hto, hheight, hhash⟩ := recoverStore_ok hrun
  obtain rfl : start₁ = start := Except.ok.inj (hstart₁.symm.trans hstart)
  obtain ⟨hread, hbound⟩ := recoveryStart_ok hstart
  have hstartLe : start₁.height ≤ start₁.headHeight := by
    have := boundHeight_le maxHeight (min start₁.headHeight (readLastCommitHeight M files))
    omega
  have hendsLe := hends.le
  have hsafeZero : start₁.height = 0 → tip.safeHeight = 0 := by omega
  have habove : ∀ h : Nat, tip.safeHeight = h → ∀ k > h, files'.lookup (.header k) = none ∧
      files'.lookup (.block k) = none ∧ files'.lookup (.state k) = none := by
    intro h hh k hk
    rw [hto.header, hto.block, hto.state, if_pos (by omega), if_pos (by omega), if_pos (by omega)]
    exact ⟨rfl, rfl, rfl⟩
  -- a HEAD above genesis was read, so its hashes are hashes
  have hlower : start₁.headHeight ≠ 0 → isLowerHash C.genesisHash = true ∧ isLowerHash tip.currentHash = true := by
    intro hne
    rcases readHead_ok hread with ⟨hzero, -⟩ | ⟨_, head, -, hdecode, hgenesis, -, heq⟩
    · exact absurd hzero hne
    · obtain ⟨hblockLower, hgenesisLower⟩ := decodeHead_hashes hdecode
      rw [hgenesis] at hgenesisLower
      rw [heq] at hblockLower
      refine ⟨hgenesisLower, ?_⟩
      rcases hends with ⟨hl, -⟩ | ⟨_, _, -, -, -, hcur⟩
      · exact hl.lower hblockLower
      · rwa [hcur]
  have hrewritten : 0 ≤ tip.safeHeight → tip.safeHeight ≠ start₁.headHeight →
      ((∃ head, getTip C files' = .ok head ∧ head.height = tip.safeHeight ∧ head.blockHash = tip.currentHash) ↔
        (58 : CodePoint) ∉ C.networkId) := by
    intro hnonneg hne
    obtain ⟨hgenesisLower, hcurrentLower⟩ := hlower (by omega)
    exact head_rewritten hto (by rwa [htipHead]) hgenesisLower hcurrentLower
  unfold ConsistentTip
  rw [hheight, hhash]
  constructor
  · rintro ⟨h, hh, hhead, hb, -⟩
    have hb := (blockLinks_recovered hto (by omega)).mp hb
    cases h with
    | zero =>
      have hgenesis := blockLinks_zero.mp hb
      rcases hends with ⟨hl, hsafe⟩ | ⟨k, p, hl, hbroken, hk, -⟩
      · have hcurrent := links_zero (by omega) hl
        by_cases hzero : start₁.headHeight = 0
        · rw [getTip_kept hto (by omega)] at hhead
          obtain ⟨head, htip, hheadHeight, hheadHash⟩ := hhead
          exact .genesis (by omega) hzero htip (by omega) (by rw [hheadHash, hgenesis])
        · exact .nothing (by omega) hzero (by rw [← hcurrent, hgenesis]) ((hrewritten (by omega) (by omega)).mp hhead)
      · obtain rfl : k = 0 := by omega
        have := hl.le
        exact .first hl hbroken ((hrewritten (by omega) (by omega)).mp hhead)
    | succ h =>
      have hcurrent : tip.currentHash = C.genesisHash := by
        rcases hends with ⟨hl, hsafe⟩ | ⟨k, p, -, -, -, heq⟩
        · have htoNat : start₁.height.toNat = h + 1 := by omega
          rw [htoNat] at hl
          rw [← hl.top_hash hb] at hb
          exact hl.to_genesis hb
        · exact heq
      rw [hcurrent] at hends hb
      rw [hh] at hends
      refine .cycle (Nat.succ_pos h) hends hb ?_
      by_cases hkept : ((h + 1 : Nat) : Int) = start₁.headHeight
      · exact .inl hkept
      · exact .inr ((hrewritten (by omega) (by omega)).mp hhead)
  · rintro (⟨hzero, hheadZero, htip, hheadHeight, hheadHash⟩ | ⟨hzero, hne, hgenesis, hcolon⟩ | ⟨hl, hbroken, hcolon⟩ |
      ⟨hpos, hends', hb, hor⟩)
    · -- HEAD stays as it is
      have hstartHash : start₁.hash = C.genesisHash := by
        rcases readHead_ok hread with ⟨-, heq⟩ | ⟨data, head, hdata, hdecode, -, -, heq⟩
        · exact heq
        · rw [getTip, hdata] at htip
          dsimp only at htip
          rw [hdecode] at htip
          cases htip
          rw [← heq, hheadHash]
      have hsafe := hsafeZero hzero
      have hcurrent : tip.currentHash = C.genesisHash := by
        rcases hends with ⟨hl, -⟩ | ⟨_, _, -, -, -, heq⟩
        · rw [links_zero (by omega) hl, hstartHash]
        · exact heq
      have hkept : getTip C files' = getTip C files := getTip_kept hto (by omega)
      exact ⟨0, hsafe, ⟨_, hkept.trans htip, by rw [hheadHeight, hsafe], by rw [hheadHash, hcurrent]⟩,
        blockLinks_zero.mpr hcurrent, habove 0 hsafe⟩
    · have hsafe := hsafeZero hzero
      have hcurrent : tip.currentHash = C.genesisHash := by
        rcases hends with ⟨hl, -⟩ | ⟨_, _, -, -, -, heq⟩
        · rw [links_zero (by omega) hl, hgenesis]
        · exact heq
      have hhead := (hrewritten (by omega) (by omega)).mpr hcolon
      exact ⟨0, hsafe, hhead, blockLinks_zero.mpr hcurrent, habove 0 hsafe⟩
    · obtain ⟨hsafe, hcurrent⟩ := hends.unique (.inr ⟨0, _, hl, hbroken, rfl, rfl⟩)
      have hstartPos := hl.le
      have hhead := (hrewritten (by omega) (by omega)).mpr hcolon
      exact ⟨0, hsafe, hhead, blockLinks_zero.mpr hcurrent, habove 0 hsafe⟩
    · rename_i s
      obtain ⟨hsafe, hcurrent⟩ := hends.unique hends'
      refine ⟨s, hsafe, ?_, by rw [hcurrent]; exact (blockLinks_recovered hto (by omega)).mpr hb, habove s hsafe⟩
      by_cases hkept : tip.safeHeight = start₁.headHeight
      · -- the block at HEAD has the hash of HEAD, which is then the genesis hash
        obtain ⟨s, rfl⟩ : ∃ m, s = m + 1 := ⟨s - 1, by omega⟩
        have hfull : Links M files (s + 1) start₁.hash 0 C.genesisHash := by
          rcases hends' with ⟨hl, heq⟩ | ⟨k, p, hl, -, heq, -⟩
          · rwa [show start₁.height.toNat = s + 1 by omega] at hl
          · have := hl.le
            omega
        rcases readHead_ok hread with ⟨hzero, -⟩ | ⟨data, head, hdata, hdecode, -, hheadHeight, hheadHash⟩
        · omega
        · have hhead : getTip C files' = .ok head := by
            rw [getTip_kept hto (by omega), getTip, hdata]
            exact hdecode
          exact ⟨head, hhead, by rw [hheadHeight, hkept], by rw [hheadHash, hfull.top_hash hb, hcurrent]⟩
      · exact (hrewritten (by omega) hkept).mpr (hor.resolve_left fun heq => hkept (by omega))

theorem recover_consistent_empty : ∃ files' r,
    recoverStore plainRuntime plainListing plainConfig none ∅ = (files', .ok r) ∧ ConsistentTip plainRuntime plainConfig files' r :=
  ⟨_, _, rfl, (@recover_consistent_iff plainRuntime plainListing plainConfig none ∅ _ _ ⟨0, 0, zeroHash⟩ rfl rfl).mpr
    (@Sound.genesis _ _ _ _ ⟨0, zeroHash, str "t", zeroHash, 1⟩ rfl rfl rfl rfl rfl)⟩

/-- Header, block, HEAD and journal files may be gone or hold other bytes. -/
def Damaged (files damaged : StoreFiles) : Prop :=
  ∀ p, damaged.lookup p = files.lookup p ∨ files.lookup p ≠ none ∧
    ((∃ h, p = .header h ∨ p = .block h) ∨ p = .head ∨ p = .journal)

/-- A recovery of a store that holds blocks names genesis at their height. -/
theorem recover_committed {o : Listing} {C : StoreConfig} {files : StoreFiles} {height : Nat} {tipHash : Str}
    (hcommitted : Committed M C files height tipHash) : ∃ tip files' r, RecoversTo M C tip files files' ∧
      tip.headHeight = height ∧ tip.safeHeight = height ∧ recoverStore M o C none files = (files', .ok r) ∧
      r.height = height ∧ r.blockHash = C.genesisHash := by
  obtain ⟨head, htip, hheight, hhash, hgenesis⟩ := hcommitted.tip
  obtain ⟨tip, hsafe, htipHead, htipHeight, htipHash⟩ :=
    safeTip_linked htip hheight hhash hgenesis hcommitted.links hcommitted.commit
  obtain ⟨files', r, hrun, hto, hrHeight, hrHash⟩ := recoverStore_returns o hsafe fun hne => absurd (htipHeight.trans htipHead.symm) hne
  exact ⟨tip, files', r, hto, htipHead, htipHeight, hrun, by rw [hrHeight, htipHeight], by rw [hrHash, htipHash]⟩

theorem recover_committed_inconsistent {o : Listing} {C : StoreConfig} {files files' : StoreFiles} {height : Nat}
    {tipHash : Str} {r : Recovered} (hcommitted : Committed M C files (height + 1) tipHash) (hne : tipHash ≠ C.genesisHash)
    (hrun : recoverStore M o C none files = (files', .ok r)) : ¬ ConsistentTip M C files' r := by
  rintro ⟨h, hh, -, hb, -⟩
  obtain ⟨tip, files₁, r₁, hto, -, htipHeight, hrun₁, hrHeight, hrHash⟩ := recover_committed (o := o) hcommitted
  rw [hrun] at hrun₁
  cases hrun₁
  obtain rfl : h = height + 1 := by omega
  rw [hrHash] at hb
  exact hne (hcommitted.links.top_hash ((blockLinks_recovered hto (by omega)).mp hb))

theorem plainRuntime_floatText : FloatText plainRuntime.floatRepr := fun _ _ =>
  ⟨[], [48], [46, 48], [], rfl, .inl rfl, .inl rfl, .inr ⟨[48], by simp, by simp [AllDigits, isDigit], rfl⟩, .inl rfl⟩

/-- A block on genesis, without transactions. -/
def firstBlock : BlockV2 := ⟨⟨2, zeroHash, zeroHash, zeroHash, 1, 1, 0⟩, []⟩

/-- The files of a store that holds one block, and its hash. -/
def oneBlockStore (block : BlockV2) : Except PyErr (StoreFiles × Str) := do
  let header ← block.header.bytes
  let record ← encodeBlockRecord plainRuntime block
  let hash ← block.hash plainRuntime.toPrimitives
  let line ← headLine ⟨1, hash, plainConfig.networkId, plainConfig.genesisHash, STORAGE_FORMAT_VERSION⟩
  let journal ← journalAppend plainRuntime.toPrimitives [] JOURNAL_COMMIT 1 []
  .ok (put (put (put (put ∅ .head line) .journal journal) (.header 1) header) (.block 1) record, hash)

set_option maxRecDepth 100000 in
theorem firstBlock_store : okAnd (fun (files, hash) => decide (hash ≠ zeroHash) &&
    (readLastCommitHeight plainRuntime files == 1)) (oneBlockStore firstBlock) = true := by decide +kernel

theorem firstBlock_committed : ∃ files hash, Committed plainRuntime plainConfig files 1 hash ∧ hash ≠ plainConfig.genesisHash := by
  obtain ⟨⟨files, hash⟩, hstore, htest⟩ := of_okAnd firstBlock_store
  rw [Bool.and_eq_true, decide_eq_true_eq, beq_iff_eq] at htest
  obtain ⟨hne, hcommit⟩ := htest
  simp only [oneBlockStore, bind_eq_ok] at hstore
  obtain ⟨header, hheader, record, hrecord, hash', hhash, line, hline, journal, -, hstore⟩ := hstore
  obtain ⟨hfiles, rfl⟩ := Prod.mk.inj (Except.ok.inj hstore)
  obtain ⟨decoded, hdecoded, hbytes, hprev⟩ := decodeBlockRecord_encode plainRuntime_floatText hrecord
  have hlength : header.length = HEADER_LEN := (decode_headerBytes hheader).1
  have hheaderHash : hashDoubleHex plainRuntime.toPrimitives header = hash' := by
    rw [BlockV2.hash, BlockHeaderV2.hash, hheader, ok_bind] at hhash
    exact Except.ok.inj hhash
  have hlower : isLowerHash hash' = true := by
    rw [← hheaderHash]
    exact isLowerHash_toHex (doubleSha256_length _)
  have hlookup : ∀ p, files.lookup p = if p = .block 1 then some record else if p = .header 1 then some header
      else if p = .journal then some journal else if p = .head then some line else none := by
    intro p
    simp only [← hfiles, lookup_put, AList.lookup_empty]
  have hverified : Verified plainRuntime files 1 hash' zeroHash := by
    refine ⟨header, record, decoded, by simp [hlookup], by simp [hlookup], hlength, hheaderHash, hdecoded, ?_, ?_⟩
    · rw [BlockV2.hash, BlockHeaderV2.hash, hbytes, ← BlockHeaderV2.hash]
      exact hhash
    · rw [hprev]
      decide
  have htip : getTip plainConfig files = .ok ⟨1, hash', plainConfig.networkId, plainConfig.genesisHash,
      STORAGE_FORMAT_VERSION⟩ := by
    rw [getTip, hlookup .head]
    exact decodeHead_headLine hlower (show isLowerHash zeroHash = true by decide)
      (show (58 : CodePoint) ∉ plainConfig.networkId by decide) hline
  refine ⟨files, hash', ⟨⟨_, htip, rfl, rfl, rfl⟩, .down hverified (.refl _ _), ?_, ?_⟩, hne⟩
  · rw [hcommit]
  · intro h hh
    simp only [hlookup]
    refine ⟨?_, ?_, ?_, ?_⟩ <;> simp <;> omega

/-- The tip of an undamaged store, after a recovery, has the genesis hash. -/
theorem recover_inconsistent : ¬ ∀ (M : Runtime) (o : Listing) (C : StoreConfig) (maxHeight : Option Int)
    (files damaged files' : StoreFiles) (height : Nat) (tipHash : Str) (r : Recovered),
      Committed M C files height tipHash → Damaged files damaged →
        recoverStore M o C maxHeight damaged = (files', .ok r) → ConsistentTip M C files' r := by
  intro h
  obtain ⟨files, hash, hcommitted, hne⟩ := firstBlock_committed
  obtain ⟨-, files', r, -, -, -, hrun, -⟩ := recover_committed (o := plainListing) hcommitted
  exact recover_committed_inconsistent hcommitted hne hrun
    (h _ _ _ _ files files _ _ _ r hcommitted (fun _ => .inl rfl) hrun)

end

end ChainBreaker
