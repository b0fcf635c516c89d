import ChainBreaker.Store

/-!
# Recovery after an unclean shutdown

What `recover_store` reads: the tip that HEAD names, the highest COMMIT of the
journal, and the blocks from there down, each checked against the hash that the
block above it (HEAD at first) expects. What it then does: it removes the files
above the height where the checks ended, and rewrites HEAD and the indexes.
-/

namespace ChainBreaker

open Fallible FileSteps

/-- The orders in which a set of heights and a directory are gone through. -/
structure Listing where
  sets : List Nat → List Nat
  glob : List Nat → List Nat
  sets_perm : ∀ l, (sets l).Perm l
  glob_perm : ∀ l, (glob l).Perm l

section
variable (M : Runtime)

/-! ## Reading -/

/-- `_read_last_commit_height`. -/
def readLastCommitHeight (files : StoreFiles) : Nat :=
  match files.lookup .journal with
  | none => 0
  | some data => (readRecords M.toPrimitives data).foldl
      (fun highest r => if r.type = JOURNAL_COMMIT ∧ highest < r.height then r.height else highest) 0

/-- `_verify_block_at_height`. -/
def verifyBlockAtHeight (files : StoreFiles) (height : Nat) (expectedHash : Str) : Except PyErr Bool :=
  match files.lookup (.header height), files.lookup (.block height) with
  | some headerData, some blockData =>
    if headerData.length ≠ HEADER_LEN then .ok false
    else if hashDoubleHex M.toPrimitives headerData ≠ expectedHash then .ok false
    else do
      match ← exceptKinds ErrKind.isValueError ((decodeBlockRecord M blockData).map some) none with
      | some block => do
        let hash ← block.hash M.toPrimitives
        .ok (hash = expectedHash)
      | none => .ok false
  | _, _ => .ok false

/-- Height and hash of HEAD. A HEAD of another genesis raises inside the `try`
that takes every `ValueError` for a damaged HEAD. -/
def readHead (C : StoreConfig) (files : StoreFiles) : Except PyErr (Int × Str) :=
  match files.lookup .head with
  | none => .ok (0, C.genesisHash)
  | some data => exceptKinds ErrKind.isValueError (do
      let head ← decodeHead data
      require (head.genesisHash = C.genesisHash) (err .recoveryError "HEAD genesis hash mismatch")
      .ok (head.height, head.blockHash)) (0, C.genesisHash)

/-- Where the walk over the blocks starts. -/
structure RecoveryStart where
  headHeight : Int
  height : Int
  hash : Str

/-- No higher than the bound. -/
def boundHeight (maxHeight : Option Int) (height : Int) : Int :=
  match maxHeight with
  | some m => if m < height then m else height
  | none => height

def recoveryStart (C : StoreConfig) (maxHeight : Option Int) (files : StoreFiles) : Except PyErr RecoveryStart := do
  let (headHeight, headHash) ← readHead C files
  .ok ⟨headHeight, boundHeight maxHeight (min headHeight (readLastCommitHeight M files)), headHash⟩

/-- The walk down from a height: the hash expected last, and the height at which
it broke off. -/
def walkBack (C : StoreConfig) (files : StoreFiles) : Nat → Str → Except PyErr (Str × Option Nat)
  | 0, currentHash => .ok (currentHash, none)
  | h + 1, currentHash => do
    if ← verifyBlockAtHeight M files (h + 1) currentHash then do
      let data ← readBytes files (.block (h + 1))
      match ← exceptKinds ErrKind.isValueError ((decodeBlockRecord M data).map some) none with
      | some block => walkBack C files h block.header.prevHash
      | none => .ok (C.genesisHash, some (h + 1))
    else .ok (C.genesisHash, some (h + 1))

structure SafeTip where
  headHeight : Int
  safeHeight : Int
  currentHash : Str
  rolledBack : List Nat

def safeTip (C : StoreConfig) (maxHeight : Option Int) (files : StoreFiles) : Except PyErr SafeTip := do
  let start ← recoveryStart M C maxHeight files
  let (currentHash, brokenAt) ← walkBack M C files start.height.toNat start.hash
  .ok ⟨start.headHeight, match brokenAt with
    | some h => (h : Int) - 1
    | none => start.height, currentHash, brokenAt.toList⟩

/-! ## Writing -/

def headWrite (C : StoreConfig) (height : Int) (blockHash : Str) : StoreStep :=
  .write .head (headLine ⟨height, blockHash, C.networkId, C.genesisHash, STORAGE_FORMAT_VERSION⟩)

/-- The index files stay as they are when no block is left. -/
def recoverIndexSteps (safeHeight : Int) : List StoreStep :=
  let content (path : StorePath) (fields : List (Nat × Str) → Fields) (files : StoreFiles) :
      Except PyErr (Option Bytes) := do
    let entries ← indexEntries M ErrKind.isValueError files safeHeight
    .ok (if entries.isEmpty then files.lookup path else some (dumpsIndented M.floatRepr (fields entries)))
  [⟨.heightToHash, content .heightToHash heightToHashFields⟩,
    ⟨.hashToHeight, content .hashToHeight hashToHeightFields⟩]

def heightsAbove (safeHeight : Int) (heights : List Nat) : List Nat := heights.filter fun h => decide (safeHeight < h)

/-- The files above the tip, as they are removed. -/
def rollbackPaths (o : Listing) (safeHeight : Int) (files : StoreFiles) : List StorePath :=
  (heightsAbove safeHeight (o.sets (scanHeightFiles .header files))).map .header ++
    (heightsAbove safeHeight (o.sets (scanHeightFiles .block files))).map .block ++
    (heightsAbove safeHeight (o.glob (scanHeightFiles .state files))).flatMap fun h => [.state h, .stateMeta h]

def recoverSteps (o : Listing) (C : StoreConfig) (tip : SafeTip) (files : StoreFiles) : List StoreStep :=
  (rollbackPaths o tip.safeHeight files).map .unlink ++
    ((if tip.safeHeight ≠ tip.headHeight then [headWrite C tip.safeHeight tip.currentHash] else []) ++
      recoverIndexSteps M tip.safeHeight)

structure Recovered where
  height : Int
  blockHash : Str
  networkId : Str
  genesisHash : Str
  formatVersion : Int
  rolledBackHeights : List Nat
  rebuiltIndexes : List Str
  recoveryNote : Str

def recoveryNote : List Nat → Str
  | [] => str "clean recovery"
  | heights => str "rolled back heights [" ++ (List.intercalate [44, 32] (heights.map natText) ++ [93])

/-- `recover_store`: the files it leaves, and what it returns or raises. -/
def recoverStore (o : Listing) (C : StoreConfig) (maxHeight : Option Int) (files : StoreFiles) :
    StoreFiles × Except PyErr Recovered :=
  match safeTip M C maxHeight files with
  | .error e => (files, .error e)
  | .ok tip =>
    let steps := recoverSteps M o C tip files
    (interrupt steps.length steps files, do
      let files' ← exec files steps
      let entries ← indexEntries M ErrKind.isValueError files' tip.safeHeight
      .ok ⟨tip.safeHeight, tip.currentHash, C.networkId, C.genesisHash, STORAGE_FORMAT_VERSION, tip.rolledBack,
        entries.map fun e => natText e.1, recoveryNote tip.rolledBack⟩)

/-! ## What the walk finds -/

/-- The files of the block at the height pass the check against the hash, and
the block names `prev` as the hash before it. -/
def Verified (files : StoreFiles) (height : Nat) (hash prev : Str) : Prop :=
  ∃ headerData blockData block, files.lookup (.header height) = some headerData ∧
    files.lookup (.block height) = some blockData ∧ headerData.length = HEADER_LEN ∧
    hashDoubleHex M.toPrimitives headerData = hash ∧ decodeBlockRecord M blockData = .ok block ∧
    block.hash M.toPrimitives = .ok hash ∧ block.header.prevHash = prev

/-- Verified blocks from a height down to another, each under the hash that the
one above it names. -/
inductive Links (files : StoreFiles) : Nat → Str → Nat → Str → Prop where
  | refl (h : Nat) (a : Str) : Links files h a h a
  | down {h l : Nat} {a p b : Str} : Verified M files (h + 1) a p → Links files h p l b → Links files (h + 1) a l b

variable {M}

theorem decodeOrNone_eq (data : Bytes) :
    exceptKinds ErrKind.isValueError ((decodeBlockRecord M data).map some) none = .ok (decodeBlockRecord M data).toOption := by
  have hfails := fails_decodeBlockRecord M data
  cases hx : decodeBlockRecord M data with
  | ok b => rfl
  | error e => exact if_pos (hfails e hx)

theorem verify_total (files : StoreFiles) (height : Nat) (hash : Str) :
    ∃ b, verifyBlockAtHeight M files height hash = .ok b := by
  unfold verifyBlockAtHeight
  split
  · rename_i headerData blockData _ _
    split
    · exact ⟨false, rfl⟩
    · split
      · exact ⟨false, rfl⟩
      · rw [decodeOrNone_eq, ok_bind]
        cases hdecode : decodeBlockRecord M blockData with
        | error e => exact ⟨false, rfl⟩
        | ok block => exact ⟨_, by rw [Except.toOption]; dsimp only; rw [hash_of_decoded hdecode, ok_bind]⟩
  · exact ⟨false, rfl⟩

theorem verify_true {files : StoreFiles} {height : Nat} {hash : Str} :
    verifyBlockAtHeight M files height hash = .ok true ↔ ∃ prev, Verified M files height hash prev := by
  constructor
  · intro h
    unfold verifyBlockAtHeight at h
    split at h
    · rename_i headerData blockData hheader hblock
      split at h
      · cases h
      · rename_i hlen
        split at h
        · cases h
        · rename_i hhash
          rw [decodeOrNone_eq, ok_bind] at h
          cases hdecode : decodeBlockRecord M blockData with
          | error e =>
            rw [hdecode] at h
            cases h
          | ok block =>
            rw [hdecode, Except.toOption] at h
            obtain ⟨hash', hblockHash, h⟩ := bind_eq_ok.mp h
            obtain rfl : hash' = hash := of_decide_eq_true (Except.ok.inj h)
            exact ⟨_, headerData, blockData, block, hheader, hblock, of_not_not hlen, of_not_not hhash, hdecode,
              hblockHash, rfl⟩
    · cases h
  · rintro ⟨prev, headerData, blockData, block, hheader, hblock, hlen, hhash, hdecode, hblockHash, -⟩
    rw [verifyBlockAtHeight, hheader, hblock]
    dsimp only
    rw [if_neg (not_not.mpr hlen), if_neg (not_not.mpr hhash), decodeOrNone_eq, ok_bind, hdecode, Except.toOption]
    dsimp only
    rw [hblockHash, ok_bind, decide_eq_true rfl]

theorem Verified.unique {files : StoreFiles} {h : Nat} {a p p' : Str} (hv : Verified M files h a p)
    (hv' : Verified M files h a p') : p = p' := by
  obtain ⟨_, _, _, -, hblock, -, -, hdecode, -, rfl⟩ := hv
  obtain ⟨_, _, _, -, hblock', -, -, hdecode', -, rfl⟩ := hv'
  rw [hblock] at hblock'
  cases hblock'
  rw [hdecode] at hdecode'
  cases hdecode'
  rfl

theorem Links.le {files : StoreFiles} {h l : Nat} {a b : Str} (hl : Links M files h a l b) : l ≤ h := by
  induction hl with
  | refl => exact Nat.le_refl _
  | down _ _ ih => omega

/-- Links that end at or above the end of others are part of them. -/
theorem Links.part {files : StoreFiles} {h l k : Nat} {a b c : Str} (hl : Links M files h a l b)
    (hk : Links M files h a k c) (hkl : l ≤ k) : Links M files k c l b := by
  induction hl with
  | refl h a =>
    cases hk with
    | refl => exact .refl _ _
    | down _ hk =>
      have := hk.le
      omega
  | down hv hl ih =>
    cases hk with
    | refl => exact .down hv hl
    | down hv' hk =>
      obtain rfl := hv.unique hv'
      exact ih hk hkl

theorem Links.unique {files : StoreFiles} {h l : Nat} {a b c : Str} (hl : Links M files h a l b)
    (hk : Links M files h a l c) : b = c := by
  cases hl.part hk (Nat.le_refl _) with
  | refl => rfl
  | down _ h =>
    have := h.le
    omega

/-- The walk reaches the bottom, or the first block that does not pass. -/
theorem walkBack_spec (C : StoreConfig) (files : StoreFiles) : ∀ (h : Nat) (a : Str),
    (∃ b, walkBack M C files h a = .ok (b, none) ∧ Links M files h a 0 b) ∨
    ∃ k p, walkBack M C files h a = .ok (C.genesisHash, some (k + 1)) ∧ Links M files h a (k + 1) p ∧
      ¬ ∃ q, Verified M files (k + 1) p q
  | 0, a => .inl ⟨a, rfl, .refl _ _⟩
  | h + 1, a => by
    obtain ⟨b, hb⟩ := verify_total (M := M) files (h + 1) a
    cases b with
    | false =>
      refine .inr ⟨h, a, ?_, .refl _ _, ?_⟩
      · rw [walkBack, hb]
        rfl
      · intro hv
        rw [verify_true.mpr hv] at hb
        cases hb
    | true =>
      obtain ⟨prev, hv⟩ := verify_true.mp hb
      have hwalk : walkBack M C files (h + 1) a = walkBack M C files h prev := by
        obtain ⟨_, blockData, block, -, hblock, -, -, hdecode, -, rfl⟩ := hv
        rw [walkBack, hb, ok_bind, if_pos rfl, readBytes, hblock, orRaise, ok_bind, decodeOrNone_eq, ok_bind, hdecode,
          Except.toOption]
      rw [hwalk]
      rcases walkBack_spec C files h prev with ⟨b, hb, hl⟩ | ⟨k, p, hk, hl, hbroken⟩
      · exact .inl ⟨b, hb, .down hv hl⟩
      · exact .inr ⟨k, p, hk, .down hv hl, hbroken⟩

theorem readHead_total (C : StoreConfig) (files : StoreFiles) : ∃ x, readHead C files = .ok x := by
  unfold readHead
  split
  · exact ⟨_, rfl⟩
  · exact ⟨_, exceptKinds_eq ((fails_decodeHead _).bind fun _ _ =>
      (fails_require rfl).bind fun _ _ => failsOnly_of_ok ⟨_, rfl⟩)⟩

theorem recoveryStart_eq {C : StoreConfig} {maxHeight : Option Int} {files : StoreFiles} {headHeight : Int} {headHash : Str}
    (h : readHead C files = .ok (headHeight, headHash)) : recoveryStart M C maxHeight files =
      .ok ⟨headHeight, boundHeight maxHeight (min headHeight (readLastCommitHeight M files)), headHash⟩ := by
  rw [recoveryStart, h, ok_bind]

/-- Where the walk from a start ends: at the start, when every block passed, or
below the first that did not. -/
def WalkEnds (M : Runtime) (C : StoreConfig) (files : StoreFiles) (start : RecoveryStart) (height : Int) (hash : Str) : Prop :=
  (Links M files start.height.toNat start.hash 0 hash ∧ height = start.height) ∨
    ∃ (k : Nat) (p : Str), Links M files start.height.toNat start.hash (k + 1) p ∧
      (¬ ∃ q, Verified M files (k + 1) p q) ∧ height = k ∧ hash = C.genesisHash

/-- **What the reads decide.** -/
theorem safeTip_spec (C : StoreConfig) (maxHeight : Option Int) (files : StoreFiles) :
    ∃ start tip, recoveryStart M C maxHeight files = .ok start ∧ safeTip M C maxHeight files = .ok tip ∧
      tip.headHeight = start.headHeight ∧ WalkEnds M C files start tip.safeHeight tip.currentHash := by
  obtain ⟨⟨headHeight, headHash⟩, hhead⟩ := readHead_total C files
  obtain ⟨start, hstart⟩ : ∃ start, recoveryStart M C maxHeight files = .ok start := ⟨_, recoveryStart_eq hhead⟩
  rw [safeTip, hstart, ok_bind]
  rcases walkBack_spec (M := M) C files start.height.toNat start.hash with ⟨b, hwalk, hl⟩ | ⟨k, p, hwalk, hl, hbroken⟩
  · exact ⟨start, _, rfl, by rw [hwalk]; rfl, rfl, .inl ⟨hl, rfl⟩⟩
  · exact ⟨start, _, rfl, by rw [hwalk]; rfl, rfl, .inr ⟨k, p, hl, hbroken, by simp, rfl⟩⟩

theorem boundHeight_le (maxHeight : Option Int) (h : Int) : boundHeight maxHeight h ≤ h := by
  unfold boundHeight
  split
  · split <;> omega
  · exact Int.le_refl _

/-- The walk ends where it starts, or from there down to 0. -/
theorem WalkEnds.le {C : StoreConfig} {files : StoreFiles} {start : RecoveryStart} {height : Int} {hash : Str}
    (h : WalkEnds M C files start height hash) : height = start.height ∨ 0 ≤ height ∧ height < start.height := by
  rcases h with ⟨-, rfl⟩ | ⟨k, p, hl, -, rfl, -⟩
  · exact .inl rfl
  · have := hl.le
    exact .inr ⟨by omega, by omega⟩

theorem WalkEnds.unique {C : StoreConfig} {files : StoreFiles} {start : RecoveryStart} {h h' : Int} {a a' : Str}
    (hw : WalkEnds M C files start h a) (hw' : WalkEnds M C files start h' a') : h = h' ∧ a = a' := by
  rcases hw with ⟨hl, rfl⟩ | ⟨k, p, hl, hbroken, rfl, rfl⟩
  · rcases hw' with ⟨hl', rfl⟩ | ⟨k', p', hl', hbroken', rfl, rfl⟩
    · exact ⟨rfl, hl.unique hl'⟩
    · cases hl.part hl' (Nat.zero_le _) with
      | down hv _ => exact absurd ⟨_, hv⟩ hbroken'
  · rcases hw' with ⟨hl', rfl⟩ | ⟨k', p', hl', hbroken', rfl, rfl⟩
    · cases hl'.part hl (Nat.zero_le _) with
      | down hv _ => exact absurd ⟨_, hv⟩ hbroken
    · -- the upper of two breaks would be a block that passed
      rcases Nat.lt_trichotomy k k' with hk | rfl | hk
      · cases hl.part hl' (by omega) with
        | refl => omega
        | down hv _ => exact absurd ⟨_, hv⟩ hbroken'
      · exact ⟨rfl, rfl⟩
      · cases hl'.part hl (by omega) with
        | refl => omega
        | down hv _ => exact absurd ⟨_, hv⟩ hbroken

/-- Blocks are verified from their two files. -/
theorem Verified.congr {files files' : StoreFiles} {h : Nat} {a p : Str}
    (hheader : files.lookup (.header h) = files'.lookup (.header h))
    (hblock : files.lookup (.block h) = files'.lookup (.block h)) (hv : Verified M files h a p) : Verified M files' h a p := by
  unfold Verified at hv ⊢
  rwa [← hheader, ← hblock]

theorem Links.congr {files files' : StoreFiles} {h l : Nat} {a b : Str}
    (hsame : ∀ k ≤ h, files.lookup (.header k) = files'.lookup (.header k) ∧
      files.lookup (.block k) = files'.lookup (.block k)) (hl : Links M files h a l b) : Links M files' h a l b := by
  induction hl with
  | refl h a => exact .refl h a
  | @down h _ _ _ _ hv _ ih =>
    obtain ⟨hheader, hblock⟩ := hsame (h + 1) (Nat.le_refl _)
    exact .down (hv.congr hheader hblock) (ih fun k hk => hsame k (by omega))

theorem Links.lower {files : StoreFiles} {h l : Nat} {a b : Str} (hl : Links M files h a l b)
    (ha : isLowerHash a = true) : isLowerHash b = true := by
  induction hl with
  | refl => exact ha
  | down hv _ ih =>
    obtain ⟨_, _, _, -, -, -, -, hdecode, -, rfl⟩ := hv
    exact ih (decodeBlockRecord_ok hdecode).2

theorem recoveryStart_ok {C : StoreConfig} {maxHeight : Option Int} {files : StoreFiles} {start : RecoveryStart}
    (h : recoveryStart M C maxHeight files = .ok start) : readHead C files = .ok (start.headHeight, start.hash) ∧
      start.height = boundHeight maxHeight (min start.headHeight (readLastCommitHeight M files)) := by
  obtain ⟨⟨headHeight, headHash⟩, hhead⟩ := readHead_total C files
  rw [recoveryStart_eq hhead] at h
  cases h
  exact ⟨hhead, rfl⟩

/-- HEAD as it was read, or as it is taken when it cannot be. -/
theorem readHead_ok {C : StoreConfig} {files : StoreFiles} {height : Int} {hash : Str}
    (h : readHead C files = .ok (height, hash)) :
    (height = 0 ∧ hash = C.genesisHash) ∨ ∃ data head, files.lookup .head = some data ∧ decodeHead data = .ok head ∧
      head.genesisHash = C.genesisHash ∧ head.height = height ∧ head.blockHash = hash := by
  unfold readHead at h
  split at h
  · cases h
    exact .inl ⟨rfl, rfl⟩
  · rename_i data hdata
    rw [exceptKinds_eq ((fails_decodeHead _).bind fun _ _ => (fails_require rfl).bind fun _ _ => failsOnly_of_ok ⟨_, rfl⟩)]
      at h
    cases hhead : decodeHead data with
    | error e =>
      rw [hhead] at h
      cases h
      exact .inl ⟨rfl, rfl⟩
    | ok head =>
      rw [hhead, ok_bind] at h
      by_cases hgenesis : head.genesisHash = C.genesisHash
      · rw [require_of _ hgenesis] at h
        cases h
        exact .inr ⟨data, head, hdata, hhead, hgenesis, rfl, rfl⟩
      · rw [require, if_neg hgenesis] at h
        cases h
        exact .inl ⟨rfl, rfl⟩

theorem readHead_of {C : StoreConfig} {files : StoreFiles} {data : Bytes} {head : Head} (hdata : files.lookup .head = some data)
    (hhead : decodeHead data = .ok head) (hgenesis : head.genesisHash = C.genesisHash) :
    readHead C files = .ok (head.height, head.blockHash) := by
  rw [readHead, hdata]
  dsimp only
  rw [hhead, ok_bind, require_of _ hgenesis]
  rfl

end

end ChainBreaker
