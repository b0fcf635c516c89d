import ChainBreaker.TipSwitch
import ChainBreaker.IndentedJson
import ChainBreaker.RecoveryRepeat
import ChainBreaker.HeadRecord
import ChainBreaker.Lib.Tape

/-!
# A store as a tape of blocks

The block files are the cells of a tape, and HEAD is its tip: the blocks above
HEAD are those of a branch that was left. `Holds` says what the files of such a
store are, `Below` what of it a crash cannot touch. Of `Below` a recovery makes
`Holds` again (`recovered_holds`).
-/

namespace ChainBreaker

open Fallible FileSteps FramedLog

/-! ## Cells -/

/-- A block with its registry state, and what is written of them. -/
structure KeptBlock (M : Runtime) where
  block : BlockV2
  state : RegistryState
  headerBytes : Bytes
  record : Bytes
  stateBytes : Bytes
  header_eq : block.header.bytes = .ok headerBytes
  record_eq : encodeBlockRecord M block = .ok record
  state_eq : serializeRegistryState state = .ok stateBytes

section
variable {M : Runtime} {C : StoreConfig}

def KeptBlock.hash (k : KeptBlock M) : Str := hashDoubleHex M.toPrimitives k.headerBytes

theorem KeptBlock.eq_of {k k' : KeptBlock M} (hblock : k.block = k'.block) (hstate : k.state = k'.state) : k = k' := by
  obtain ⟨b, s, hb, r, sb, hheader, hrecord, hbytes⟩ := k
  obtain ⟨b', s', hb', r', sb', hheader', hrecord', hbytes'⟩ := k'
  cases hblock
  cases hstate
  cases hheader.symm.trans hheader'
  cases hrecord.symm.trans hrecord'
  cases hbytes.symm.trans hbytes'
  rfl

theorem KeptBlock.hash_lower (k : KeptBlock M) : isLowerHash k.hash = true := isLowerHash_toHex (doubleSha256_length _)

theorem KeptBlock.hash_eq (k : KeptBlock M) : k.block.hash M.toPrimitives = .ok k.hash := by
  rw [BlockV2.hash, BlockHeaderV2.hash, k.header_eq, ok_bind]
  rfl

/-- What a record reads back as. -/
theorem KeptBlock.read (hfl : FloatText M.floatRepr) (k : KeptBlock M) : ∃ ws,
    loads M.floatOf (dumpsText M.floatRepr (.list k.block.transactions)) = .ok (.list ws) ∧
      decodeBlockRecord M k.record = .ok ⟨k.block.header.canonical, ws⟩ ∧
      BlockV2.hash M.toPrimitives ⟨k.block.header.canonical, ws⟩ = .ok k.hash := by
  obtain ⟨ws, hws, hdecode⟩ := decodeBlockRecord_written hfl k.record_eq
  refine ⟨ws, hws, hdecode, ?_⟩
  rw [BlockV2.hash, BlockHeaderV2.hash, (decode_headerBytes k.header_eq).2.2, ok_bind]
  rfl

/-- The hash at a height, with genesis at 0. -/
def keptHash (C : StoreConfig) (ks : List (KeptBlock M)) : Nat → Str
  | 0 => C.genesisHash
  | i + 1 => (ks[i]?).elim C.genesisHash KeptBlock.hash

theorem keptHash_lower (hC : C.Readable) (ks : List (KeptBlock M)) (h : Nat) :
    isLowerHash (keptHash C ks h) = true := by
  cases h with
  | zero => exact hC.genesisHash
  | succ i =>
    rw [keptHash]
    cases ks[i]? with
    | none => exact hC.genesisHash
    | some k => exact k.hash_lower

theorem keptHash_congr {ks ks' : List (KeptBlock M)} {h : Nat} (hsame : ∀ i < h, ks[i]? = ks'[i]?) :
    keptHash C ks h = keptHash C ks' h := by
  cases h with
  | zero => rfl
  | succ i => rw [keptHash, keptHash, hsame i (Nat.lt_succ_self i)]

/-- What HEAD names. -/
def headOf (C : StoreConfig) (t : Tape (KeptBlock M)) : Head :=
  ⟨t.tip, keptHash C t.cells t.tip, C.networkId, C.genesisHash, STORAGE_FORMAT_VERSION⟩

/-- Every block names the hash of the one below it. -/
def Linked (C : StoreConfig) (ks : List (KeptBlock M)) : Prop :=
  ∀ i k, ks[i]? = some k → canonicalHash k.block.header.prevHash = keptHash C ks i

/-! ## Indexes -/

/-- Heights and hashes, from height 1 on. -/
def indexed (ks : List (KeptBlock M)) : List (Nat × Str) := (ks.zipIdx 1).map fun x => (x.2, x.1.hash)

theorem indexed_concat (ks : List (KeptBlock M)) (k : KeptBlock M) :
    indexed (ks ++ [k]) = indexed ks ++ [(ks.length + 1, k.hash)] := by
  rw [indexed, List.zipIdx_append, List.map_append, indexed, Nat.add_comm]
  rfl

theorem indexed_heights (ks : List (KeptBlock M)) : (indexed ks).map Prod.fst = List.range' 1 ks.length := by
  rw [indexed, List.map_map, ← List.zipIdx_map_snd]
  rfl

/-- The entries of objects that JSON gives back as they were. -/
structure IndexFields (d : Fields) : Prop where
  lines : Lines d
  decoded : ∀ f ∈ d, decodedStr f.1 = true ∧ f.2.decoded = true

theorem decoded_plain {s : Str} (h : s.any isSurrogate = false) : decodedStr s = true :=
  Scalars.decoded fun c hc => Bool.eq_false_iff.mpr (List.any_eq_false.mp h c hc)

theorem decoded_hash {s : Str} (h : isLowerHash s = true) : decodedStr s = true :=
  decoded_plain (lowerHash_not_surrogate h)

theorem decoded_natText (n : Nat) : decodedStr (natText n) = true :=
  decoded_plain (plain_not_surrogate fun c hc => by
    have := isDigit_iff.mp (natText_digit hc)
    omega)

theorem IndexFields.put {d : Fields} (hd : IndexFields d) {k : Str} {v : Json} (hk : decodedStr k = true)
    (hline : v.OneLine) (hv : v.decoded = true) : IndexFields (Fields.put d k v) := by
  refine ⟨hd.lines.put k hline, fun f hf => ?_⟩
  rcases mem_put hf with rfl | ⟨hf, -⟩
  · exact ⟨hk, hv⟩
  · exact hd.decoded f hf

theorem heightToHash_concat (es : List (Nat × Str)) (e : Nat × Str) :
    heightToHashFields (es ++ [e]) = Fields.put (heightToHashFields es) (natText e.1) (.str e.2) := by
  rw [heightToHashFields, List.foldl_append]
  rfl

theorem hashToHeight_concat (es : List (Nat × Str)) (e : Nat × Str) :
    hashToHeightFields (es ++ [e]) = Fields.put (hashToHeightFields es) e.2 (.int e.1) := by
  rw [hashToHeightFields, List.foldl_append]
  rfl

theorem indexFields_indexed (ks : List (KeptBlock M)) :
    IndexFields (heightToHashFields (indexed ks)) ∧ IndexFields (hashToHeightFields (indexed ks)) := by
  induction ks using List.reverseRecOn with
  | nil => exact ⟨⟨lines_nil, nofun⟩, lines_nil, nofun⟩
  | append_singleton ks k ih =>
    have hhash := decoded_hash k.hash_lower
    rw [indexed_concat, heightToHash_concat, hashToHeight_concat]
    exact ⟨ih.1.put (decoded_natText _) trivial hhash, ih.2.put hhash trivial rfl⟩

/-- What an index file holds. -/
def indexFile (M : Runtime) (fields : List (Nat × Str) → Fields) (entries : List (Nat × Str)) : Option Bytes :=
  if entries.isEmpty then none else some (dumpsIndented M.floatRepr (fields entries))

theorem indexFile_concat {fields : List (Nat × Str) → Fields} (es : List (Nat × Str)) (e : Nat × Str) :
    indexFile M fields (es ++ [e]) = some (dumpsIndented M.floatRepr (fields (es ++ [e]))) :=
  if_neg (by simp)

/-- An index that is there, or not yet, as `_read_index_json` takes it. -/
theorem readIndexJson_eq {files : StoreFiles} {path : StorePath} {fields : List (Nat × Str) → Fields}
    {es : List (Nat × Str)} (hfile : files.lookup path = indexFile M fields es) (hnil : fields [] = [])
    (h : IndexFields (fields es)) : readIndexJson M files path =
      .ok (.dict (Lex.sortOn charKey Prod.fst (fields es))) := by
  rw [readIndexJson, hfile, indexFile]
  by_cases hes : es = []
  · subst hes
    rw [hnil]
    rfl
  · rw [if_neg (by rwa [List.isEmpty_iff])]
    exact h.lines.read h.decoded

/-! ## The journal -/

/-- Every record can be read, and one of them commits the height or one above it. -/
def JournalHolds (M : Runtime) (files : StoreFiles) (height : Nat) : Prop :=
  ∃ records : List JournalRecord, (∀ r ∈ records, r.Valid) ∧
    (files.lookup .journal).getD [] = written (recordBytes M.toPrimitives) records ∧
    (0 < height → ∃ r ∈ records, r.type = JOURNAL_COMMIT ∧ height ≤ r.height)

/-- The step leaves the journal alone, or adds a record to it. -/
def AddsRecord (M : Runtime) (st : StoreStep) : Prop :=
  st.name = .journal → ∀ files o, st.content files = .ok o → ∃ type height payload file,
    journalAppend M.toPrimitives ((files.lookup .journal).getD []) type height payload = .ok file ∧ o = some file

theorem commit_le_foldl (records : List JournalRecord) : ∀ (a : Nat),
    let highest := records.foldl
      (fun highest r => if r.type = JOURNAL_COMMIT ∧ highest < r.height then r.height else highest) a
    a ≤ highest ∧ ∀ r ∈ records, r.type = JOURNAL_COMMIT → r.height ≤ highest := by
  induction records with
  | nil => exact fun a => ⟨Nat.le_refl a, nofun⟩
  | cons r records ih =>
    intro a
    obtain ⟨hle, hrest⟩ := ih (if r.type = JOURNAL_COMMIT ∧ a < r.height then r.height else a)
    rw [List.foldl_cons]
    have hfirst : a ≤ (if r.type = JOURNAL_COMMIT ∧ a < r.height then r.height else a) ∧
        (r.type = JOURNAL_COMMIT → r.height ≤ if r.type = JOURNAL_COMMIT ∧ a < r.height then r.height else a) := by
      split <;> omega
    refine ⟨hfirst.1.trans hle, fun x hx htype => ?_⟩
    rcases List.mem_cons.mp hx with rfl | hx
    · exact (hfirst.2 htype).trans hle
    · exact hrest x hx htype

theorem JournalHolds.le_lastCommit {files : StoreFiles} {height : Nat} (h : JournalHolds M files height) :
    height ≤ readLastCommitHeight M files := by
  obtain ⟨records, hvalid, hfile, hcommit⟩ := h
  have hread : readRecords M.toPrimitives ((files.lookup .journal).getD []) = records := by
    rw [hfile, ← List.append_nil (written _ _)]
    exact (scan_of_written hvalid fun hne => absurd rfl hne).1
  rcases Nat.eq_zero_or_pos height with rfl | hpos
  · exact Nat.zero_le _
  · obtain ⟨r, hr, htype, hle⟩ := hcommit hpos
    rw [readLastCommitHeight]
    cases hlookup : files.lookup .journal with
    | none =>
      rw [hlookup] at hread
      rw [← hread] at hr
      cases hr
    | some data =>
      rw [hlookup, Option.getD_some] at hread
      dsimp only
      rw [hread]
      exact hle.trans ((commit_le_foldl records 0).2 r hr htype)

theorem JournalHolds.congr {files files' : StoreFiles} {height : Nat} (h : JournalHolds M files height)
    (hsame : files'.lookup .journal = files.lookup .journal) : JournalHolds M files' height := by
  rwa [JournalHolds, hsame]

theorem JournalHolds.append {files files' : StoreFiles} {height type h : Nat} {payload file : Bytes}
    (hj : JournalHolds M files height)
    (happend : journalAppend M.toPrimitives ((files.lookup .journal).getD []) type h payload = .ok file)
    (hfile : files'.lookup .journal = some file) :
    JournalHolds M files' height ∧ (type = JOURNAL_COMMIT → JournalHolds M files' h) := by
  obtain ⟨records, hvalid, hwritten, hcommit⟩ := hj
  obtain ⟨hv, rfl⟩ := journalAppend_ok.mp happend
  generalize hr : nextRecord M.toPrimitives ((files.lookup .journal).getD []) type h payload = r at *
  have hvalid' : ∀ x ∈ records ++ [r], x.Valid := fun x hx => by
    rcases List.mem_append.mp hx with hx | hx
    · exact hvalid x hx
    · rw [List.mem_singleton.mp hx]
      exact hv
  have hwritten' : (files'.lookup .journal).getD [] = written (recordBytes M.toPrimitives) (records ++ [r]) := by
    rw [hfile, Option.getD_some, hwritten, FramedLog.written, FramedLog.written, List.flatMap_append]
    simp
  refine ⟨⟨_, hvalid', hwritten', fun hpos => ?_⟩, fun htype => ⟨_, hvalid', hwritten', fun _ => ⟨r, by simp, ?_, ?_⟩⟩⟩
  · obtain ⟨x, hx, hle⟩ := hcommit hpos
    exact ⟨x, List.mem_append_left _ hx, hle⟩
  · rw [← hr]
    exact htype
  · rw [← hr]
    exact Nat.le_refl h

theorem JournalHolds.step {st : StoreStep} {u u' : StoreFiles} {height : Nat} (hj : JournalHolds M u height)
    (hst : AddsRecord M st) (hrun : st.run u = .ok u') : JournalHolds M u' height := by
  obtain ⟨o, ho, rfl⟩ := Step.run_eq_ok.mp hrun
  by_cases hname : st.name = .journal
  · obtain ⟨type, h, payload, file, happend, rfl⟩ := hst hname u o ho
    exact (hj.append happend (by rw [lookup_put, if_pos hname.symm])).1
  · exact hj.congr (by rw [lookup_put, if_neg (Ne.symm hname)])

theorem addsRecord_other {st : StoreStep} (h : st.name ≠ .journal) : AddsRecord M st := fun hname => absurd hname h

theorem journalWrite_ok {type height : Nat} {payload : Bytes} {files : StoreFiles} {o : Option Bytes}
    (h : (journalWrite M type height payload).content files = .ok o) : ∃ file,
      journalAppend M.toPrimitives ((files.lookup .journal).getD []) type height payload = .ok file ∧
      o = some file := by
  obtain ⟨file, happend, rfl⟩ := map_eq_ok.mp h
  exact ⟨file, happend, rfl⟩

theorem addsRecord_write (type height : Nat) (payload : Bytes) : AddsRecord M (journalWrite M type height payload) := by
  intro _ files o ho
  obtain ⟨file, happend, rfl⟩ := journalWrite_ok ho
  exact ⟨type, height, payload, file, happend, rfl⟩

/-- A payload that is computed first. -/
theorem addsRecord_payload (type height : Nat) (payload : Except PyErr Bytes) : AddsRecord M
    ⟨.journal, fun files => payload >>= fun payload => (journalWrite M type height payload).content files⟩ := by
  intro _ files o ho
  obtain ⟨payload, -, ho⟩ := bind_eq_ok.mp ho
  exact addsRecord_write type height payload rfl files o ho

theorem addsRecord_stage {block : BlockV2} {s : Staged} : ∀ st ∈ stageSteps M block s, AddsRecord M st := by
  simp only [stageSteps, List.forall_mem_cons]
  exact ⟨addsRecord_write _ _ _, addsRecord_other (by rintro ⟨⟩), addsRecord_write _ _ _,
    addsRecord_other (by rintro ⟨⟩), addsRecord_payload _ _ _, addsRecord_other (by rintro ⟨⟩),
    addsRecord_payload _ _ _, List.forall_mem_nil _⟩

theorem addsRecord_publish {s : Staged} : ∀ st ∈ publishSteps M s, AddsRecord M st := by
  simp only [publishSteps, updateIndexSteps, List.forall_mem_append, List.forall_mem_cons]
  exact ⟨⟨⟨addsRecord_other (by rintro ⟨⟩), addsRecord_other (by rintro ⟨⟩), addsRecord_other (by rintro ⟨⟩),
    List.forall_mem_nil _⟩, addsRecord_other (by rintro ⟨⟩), addsRecord_other (by rintro ⟨⟩),
    List.forall_mem_nil _⟩, addsRecord_write _ _ _, List.forall_mem_nil _⟩

/-! ## Files and cells -/

/-- The files of the height are those of the cell. A snapshot need not be there. -/
structure KeptAt (M : Runtime) (files : StoreFiles) (cells : List (KeptBlock M)) (i : Nat) : Prop where
  header : files.lookup (.header (i + 1)) = (cells[i]?).map KeptBlock.headerBytes
  block : files.lookup (.block (i + 1)) = (cells[i]?).map KeptBlock.record
  state : ∀ data, files.lookup (.state (i + 1)) = some data → ∃ k, cells[i]? = some k ∧ data = k.stateBytes

/-- A description of a snapshot, of this branch or another. -/
def Described (M : Runtime) (C : StoreConfig) (data : Bytes) : Prop :=
  ∃ height state stateBytes fields, snapshotMeta M C height state stateBytes = .ok fields ∧
    data = dumpsIndented M.floatRepr fields

/-- What the files of a tape have in common, up to the tip. -/
structure Below (M : Runtime) (C : StoreConfig) (files : StoreFiles) (t : Tape (KeptBlock M)) : Prop where
  head : getTip C files = .ok (headOf C t)
  kept : ∀ i < t.tip, KeptAt M files t.cells i
  block_zero : files.lookup (.block 0) = none
  state_zero : files.lookup (.state 0) = none
  stateMeta : ∀ h data, files.lookup (.stateMeta h) = some data → Described M C data
  journal : JournalHolds M files t.tip

/-- The files of a tape. -/
structure Holds (M : Runtime) (C : StoreConfig) (files : StoreFiles) (t : Tape (KeptBlock M)) : Prop extends
    Below M C files t where
  above : ∀ i, t.tip ≤ i → KeptAt M files t.cells i
  heightToHash : files.lookup .heightToHash = indexFile M heightToHashFields (indexed t.current)
  hashToHeight : files.lookup .hashToHeight = indexFile M hashToHeightFields (indexed t.current)

theorem getTip_congr {files files' : StoreFiles} (h : files'.lookup .head = files.lookup .head) :
    getTip C files' = getTip C files := by
  rw [getTip, getTip, h]

theorem KeptAt.congr {files files' : StoreFiles} {cells cells' : List (KeptBlock M)} {i : Nat}
    (h : KeptAt M files cells i) (hcells : cells'[i]? = cells[i]?)
    (hheader : files'.lookup (.header (i + 1)) = files.lookup (.header (i + 1)))
    (hblock : files'.lookup (.block (i + 1)) = files.lookup (.block (i + 1)))
    (hstate : files'.lookup (.state (i + 1)) = files.lookup (.state (i + 1))) : KeptAt M files' cells' i :=
  ⟨by rw [hheader, hcells, h.header], by rw [hblock, hcells, h.block], by rw [hstate, hcells]; exact h.state⟩

/-- Where a block is staged. -/
def StorePath.isTmp : StorePath → Bool
  | .tmpHeader _ | .tmpBlock _ | .tmpState _ => true
  | _ => false

/-- The index files are of no matter to `Below`. -/
theorem Below.congr {files files' : StoreFiles} {t : Tape (KeptBlock M)} (h : Below M C files t)
    (hj : JournalHolds M files' t.tip) (hsame : ∀ p, p.isTmp = false → p ≠ .journal → p ≠ .heightToHash →
      p ≠ .hashToHeight →
      files'.lookup p = files.lookup p) : Below M C files' t where
  head := by rw [getTip_congr (hsame .head rfl nofun nofun nofun), h.head]
  kept i hi := (h.kept i hi).congr rfl (hsame _ rfl nofun nofun nofun) (hsame _ rfl nofun nofun nofun)
    (hsame _ rfl nofun nofun nofun)
  block_zero := by rw [hsame (.block 0) rfl nofun nofun nofun, h.block_zero]
  state_zero := by rw [hsame (.state 0) rfl nofun nofun nofun, h.state_zero]
  stateMeta k data hdata := h.stateMeta k data (by rwa [hsame (.stateMeta k) rfl nofun nofun nofun] at hdata)
  journal := hj

theorem Holds.congr {files files' : StoreFiles} {t : Tape (KeptBlock M)} (h : Holds M C files t)
    (hj : JournalHolds M files' t.tip)
    (hsame : ∀ p, p.isTmp = false → p ≠ .journal → files'.lookup p = files.lookup p) : Holds M C files' t where
  toBelow := h.toBelow.congr hj fun p htmp hjournal _ _ => hsame p htmp hjournal
  above i hi := (h.above i hi).congr rfl (hsame _ rfl nofun) (hsame _ rfl nofun) (hsame _ rfl nofun)
  heightToHash := by rw [hsame .heightToHash rfl nofun, h.heightToHash]
  hashToHeight := by rw [hsame .hashToHeight rfl nofun, h.hashToHeight]

theorem Holds.at {files : StoreFiles} {t : Tape (KeptBlock M)} (h : Holds M C files t) (i : Nat) :
    KeptAt M files t.cells i :=
  (Nat.lt_or_ge i t.tip).elim (h.kept i) (h.above i)

/-- The empty store. -/
theorem holds_empty : Holds M C ∅ .empty where
  head := rfl
  kept := nofun
  block_zero := rfl
  state_zero := rfl
  stateMeta := nofun
  journal := ⟨[], nofun, rfl, nofun⟩
  above _ _ := ⟨rfl, rfl, nofun⟩
  heightToHash := rfl
  hashToHeight := rfl

/-! ## The blocks of an index -/

theorem storedHash_kept (hfl : FloatText M.floatRepr) {files : StoreFiles} {k : KeptBlock M} {h : Nat}
    (hblock : files.lookup (.block h) = some k.record) : storedHash M files h = some k.hash := by
  obtain ⟨ws, -, hdecode, hhash⟩ := k.read hfl
  rw [storedHash, storedBlock, hblock, Option.bind_some, hdecode, Except.toOption, Option.bind_some, hhash]
  rfl

theorem blocksUpTo_kept {files : StoreFiles} {cells : List (KeptBlock M)} {n : Nat} (hn : n ≤ cells.length)
    (hkept : ∀ i < n, KeptAt M files cells i) (hzero : files.lookup (.block 0) = none) :
    blocksUpTo files n = List.range' 1 n := by
  obtain ⟨hnodup, hsorted⟩ := blocksUpTo_sorted files n
  have hrange : (List.range' 1 n).Pairwise (· ≤ ·) := List.Pairwise.imp Nat.le_of_lt List.pairwise_lt_range'
  apply List.Perm.eq_of_pairwise' hsorted hrange
  rw [List.perm_ext_iff_of_nodup hnodup List.nodup_range']
  intro h
  rw [mem_blocksUpTo, List.mem_range'_1]
  constructor
  · rintro ⟨⟨data, hdata⟩, hle⟩
    have hpos : h ≠ 0 := by
      rintro rfl
      rw [hzero] at hdata
      cases hdata
    omega
  · rintro ⟨hpos, hle⟩
    obtain ⟨i, rfl⟩ : ∃ i, h = i + 1 := ⟨h - 1, by omega⟩
    rw [(hkept i (by omega)).block, List.getElem?_eq_getElem (by omega)]
    exact ⟨⟨_, rfl⟩, by omega⟩

/-- The entries that a rebuilt index has are those of the cells. -/
theorem storedEntries_kept (hfl : FloatText M.floatRepr) {files : StoreFiles} {cells : List (KeptBlock M)} {n : Nat}
    (hn : n ≤ cells.length) (hkept : ∀ i < n, KeptAt M files cells i) (hzero : files.lookup (.block 0) = none) :
    storedEntries M files n = indexed (cells.take n) := by
  rw [storedEntries, blocksUpTo_kept hn hkept hzero]
  clear hzero
  induction n with
  | zero => rfl
  | succ n ih =>
    have hlt : n < cells.length := hn
    have hblock := (hkept n (Nat.lt_succ_self n)).block
    rw [List.getElem?_eq_getElem hlt, Option.map_some] at hblock
    rw [List.range'_concat, List.filterMap_append, ih (by omega) fun i hi => hkept i (by omega),
      List.take_succ_eq_append_getElem hlt, indexed_concat, List.length_take_of_le (by omega), Nat.one_mul,
      Nat.add_comm 1 n]
    rw [List.filterMap_cons, storedHash_kept hfl hblock]
    rfl

end

end ChainBreaker
