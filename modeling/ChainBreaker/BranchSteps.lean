import ChainBreaker.BranchStore

/-!
# What the operations make of a tape

A completed append writes the cell above the tip (`append_holds`), a completed
switch sets the tip (`switch_holds`). Cut short, either leaves the old tip or
the new one, with a possibly wrong index, and a recovery cleans up
(`appendCrash_holds`, `switchCrash_holds`).
-/

namespace ChainBreaker

open Fallible FileSteps

section
variable {M : Runtime} {C : StoreConfig} {block : BlockV2} {s : Staged} {files files' u : StoreFiles}
  {t : Tape (KeptBlock M)}

/-! ## Programs that leave the cells alone -/

theorem journal_interrupt {l : List StoreStep} {height n : Nat} (hl : ∀ st ∈ l, AddsRecord M st)
    (h : JournalHolds M files height) : JournalHolds M (interrupt n l files) height :=
  interrupt_inv (I := fun u => JournalHolds M u height) (fun st hst _ _ hu hrun => hu.step (hl st hst) hrun) h

/-- Staging, as far as it goes, changes neither a cell nor an index. -/
theorem Holds.scratch {l : List StoreStep} {n : Nat} (h : Holds M C files t) (hl : ∀ st ∈ l, AddsRecord M st)
    (hnames : ∀ st ∈ l, st.name.isTmp = true ∨ st.name = .journal) : Holds M C (interrupt n l files) t := by
  refine h.congr (journal_interrupt hl h.journal) fun p hp hne => interrupt_frame fun st hst hname => ?_
  rcases hnames st hst with htmp | hjournal
  · rw [hname, hp] at htmp
    cases htmp
  · exact hne (hname.symm.trans hjournal)

theorem stage_names : ∀ st ∈ stageSteps M block s, st.name.isTmp = true ∨ st.name = .journal := by
  simp only [stageSteps, List.forall_mem_cons]
  exact ⟨.inr rfl, .inl rfl, .inr rfl, .inl rfl, .inr trivial, .inl rfl, .inr trivial,
    List.forall_mem_nil _⟩

/-! ## Appending -/

/-- The steps of an append up to the one that moves HEAD. -/
def beforeHead (M : Runtime) (block : BlockV2) (s : Staged) : List StoreStep :=
  stageSteps M block s ++ (publishSteps M s ++ [journalWrite M JOURNAL_COMMIT s.height []])

def headStep (C : StoreConfig) (s : Staged) : StoreStep :=
  .write .head (encodeHead ⟨s.height, s.blockHash, C.networkId, C.genesisHash, STORAGE_FORMAT_VERSION⟩)

def cleanSteps (height : Nat) : List StoreStep :=
  [.unlink (.tmpHeader height), .unlink (.tmpBlock height), .unlink (.tmpState height)]

theorem appendSteps_eq : appendSteps M C block s = beforeHead M block s ++ headStep C s :: cleanSteps s.height := by
  simp only [appendSteps, beforeHead, commitSteps, headStep, cleanSteps, List.append_assoc, List.singleton_append]

theorem addsRecord_beforeHead : ∀ st ∈ beforeHead M block s, AddsRecord M st := by
  simp only [beforeHead, List.forall_mem_append, List.forall_mem_cons]
  exact ⟨addsRecord_stage, addsRecord_publish, addsRecord_write _ _ _, nofun⟩

/-- What lies beside the height that is appended. -/
def StorePath.beside (height : Nat) : StorePath → Prop
  | .header k | .block k | .state k => k ≠ height
  | .head | .stateMeta _ => True
  | _ => False

theorem beforeHead_frame {p : StorePath} (hp : p.beside s.height) (n : Nat) :
    (interrupt n (beforeHead M block s) files).lookup p = files.lookup p := by
  apply interrupt_frame
  have hne : ∀ q : StorePath, ¬ q.beside s.height → q ≠ p := fun q hq heq => hq (heq ▸ hp)
  simp only [beforeHead, publishSteps, updateIndexSteps, List.forall_mem_append, List.forall_mem_cons]
  refine ⟨fun st hst => hne _ fun hbeside => ?_, ⟨⟨⟨hne _ fun h => h rfl, hne _ fun h => h rfl, hne _ fun h => h rfl,
    List.forall_mem_nil _⟩, hne _ id, hne _ id, List.forall_mem_nil _⟩, hne _ id, List.forall_mem_nil _⟩, hne _ id,
    List.forall_mem_nil _⟩
  rcases stage_names st hst with htmp | hjournal
  · cases hname : st.name <;> rw [hname] at htmp hbeside <;> first | exact hbeside | cases htmp
  · rw [hjournal] at hbeside
    exact hbeside

theorem KeptAt.beside {cells : List (KeptBlock M)} {i : Nat} (h : KeptAt M files cells i) (hi : i + 1 ≠ s.height)
    (n : Nat) :
    KeptAt M (interrupt n (beforeHead M block s) files) cells i :=
  h.congr rfl (beforeHead_frame (p := .header (i + 1)) hi n) (beforeHead_frame (p := .block (i + 1)) hi n)
    (beforeHead_frame (p := .state (i + 1)) hi n)

/-- Before HEAD moves, an append writes above the tip only. -/
theorem Below.beforeHead (h : Below M C files t) (hs : s.height = t.tip + 1) (n : Nat) :
    Below M C (interrupt n (beforeHead M block s) files) t where
  head := by rw [getTip_congr (beforeHead_frame (p := .head) trivial n), h.head]
  kept i hi := (h.kept i hi).beside (by omega) n
  block_zero := by rw [beforeHead_frame (p := .block 0) (by rw [hs]; exact nofun), h.block_zero]
  state_zero := by rw [beforeHead_frame (p := .state 0) (by rw [hs]; exact nofun), h.state_zero]
  stateMeta k data hdata := h.stateMeta k data (by rwa [beforeHead_frame (p := .stateMeta k) trivial] at hdata)
  journal := journal_interrupt addsRecord_beforeHead h.journal

theorem staged_header {staged : StoreFiles} (h : exec files (stageSteps M block s) = .ok staged) :
    staged.lookup (.tmpHeader s.height) = some s.headerBytes := by
  have hrun : exec files ((stageSteps M block s).take 1 ++ .write (.tmpHeader s.height) (.ok s.headerBytes) ::
      (stageSteps M block s).drop 2) = .ok staged := h
  obtain ⟨u, o, -, ho, hlookup⟩ := exec_last hrun (by simp [stageSteps, journalWrite, Step.write])
  obtain ⟨_, hbytes, rfl⟩ := Step.write_content.mp ho
  cases hbytes
  exact hlookup

theorem staged_state {staged : StoreFiles} (h : exec files (stageSteps M block s) = .ok staged) :
    ∃ stateBytes, serializeRegistryState s.state = .ok stateBytes := by
  have hrun : exec files ((stageSteps M block s).take 5 ++
    .write (.tmpState s.height) (serializeRegistryState s.state) ::
      (stageSteps M block s).drop 6) = .ok staged := h
  obtain ⟨u, o, -, ho, -⟩ := exec_last hrun (by simp [stageSteps, Step.write])
  obtain ⟨stateBytes, hbytes, -⟩ := Step.write_content.mp ho
  exact ⟨stateBytes, hbytes⟩

theorem published_header {staged published : StoreFiles}
    (hstaged : staged.lookup (.tmpHeader s.height) = some s.headerBytes)
    (h : exec staged (publishSteps M s) = .ok published) :
    published.lookup (.header s.height) = some s.headerBytes := by
  have hrun : exec staged ([] ++ ⟨.header s.height, fun files => (readBytes files (.tmpHeader s.height)).map some⟩ ::
      (publishSteps M s).drop 1) = .ok published := h
  obtain ⟨u, o, hu, ho, hlookup⟩ := exec_last hrun (by simp [publishSteps, updateIndexSteps, journalWrite])
  cases hu
  rw [hlookup]
  simp only [readBytes, hstaged, orRaise, Except.map] at ho
  exact (Except.ok.inj ho).symm

/-- A snapshot is the one of the block, or the one that was there. -/
theorem published_state {staged published : StoreFiles} {stateBytes data : Bytes}
    (hstate : serializeRegistryState s.state = .ok stateBytes) (h : exec staged (publishSteps M s) = .ok published)
    (hdata : published.lookup (.state s.height) = some data) : data = stateBytes := by
  have hrun : exec staged ((publishSteps M s).take 2 ++ ⟨.state s.height, fun files =>
      if (files.lookup (.state s.height)).isSome ∨ s.height % SNAPSHOT_INTERVAL = 0 then
        (serializeRegistryState s.state).map some
      else .ok (files.lookup (.state s.height))⟩ :: (publishSteps M s).drop 3) = .ok published := h
  obtain ⟨u, o, -, ho, hlookup⟩ := exec_last hrun (by simp [publishSteps, updateIndexSteps, journalWrite])
  rw [hlookup] at hdata
  subst hdata
  dsimp only at ho
  split at ho
  · rw [hstate] at ho
    cases ho
    rfl
  · rename_i hnone
    rw [Except.ok.injEq] at ho
    rw [ho, not_or] at hnone
    exact absurd rfl hnone.1

/-- What staging and publishing have made of the cell. -/
structure Written (block : BlockV2) (s : Staged) (u : StoreFiles) (k : KeptBlock M) : Prop where
  block : k.block = block
  state : k.state = s.state
  headerFile : u.lookup (.header s.height) = some k.headerBytes
  blockFile : u.lookup (.block s.height) = some k.record
  stateFile : ∀ data, u.lookup (.state s.height) = some data → data = k.stateBytes

theorem written_of (hheader : block.header.bytes = .ok s.headerBytes)
    (hrun : exec files (beforeHead M block s) = .ok u) : ∃ k : KeptBlock M, Written block s u k := by
  obtain ⟨staged, hstage, hrest⟩ := exec_append_ok.mp hrun
  obtain ⟨published, hpublish, hcommit⟩ := exec_append_ok.mp hrest
  obtain ⟨record, hrecord, htmp⟩ := staged_block hstage
  obtain ⟨stateBytes, hstate⟩ := staged_state hstage
  have hkept : ∀ p, p ≠ .journal → u.lookup p = published.lookup p := fun p hp =>
    exec_frame (by simp only [List.forall_mem_cons]; exact ⟨hp.symm, nofun⟩) hcommit
  exact ⟨⟨block, s.state, s.headerBytes, record, stateBytes, hheader, hrecord, hstate⟩, rfl, rfl,
    (hkept (.header s.height) nofun).trans (published_header (staged_header hstage) hpublish),
    (hkept (.block s.height) nofun).trans (published_block htmp hpublish),
    fun data hdata => published_state hstate hpublish ((hkept (.state s.height) nofun).symm.trans hdata)⟩

/-- The indexes after the entry is put. -/
theorem written_indexes {ks : List (KeptBlock M)} {k : KeptBlock M}
    (hfiles : files.lookup .heightToHash = indexFile M heightToHashFields (indexed ks) ∧
      files.lookup .hashToHeight = indexFile M hashToHeightFields (indexed ks))
    (hheight : s.height = ks.length + 1) (hhash : s.blockHash = k.hash)
    (hrun : exec files (beforeHead M block s) = .ok u) :
    u.lookup .heightToHash = indexFile M heightToHashFields (indexed (ks ++ [k])) ∧
      u.lookup .hashToHeight = indexFile M hashToHeightFields (indexed (ks ++ [k])) := by
  obtain ⟨hheights, hhashes⟩ := indexFields_indexed ks
  have hentry : indexed (ks ++ [k]) = indexed ks ++ [(s.height, s.blockHash)] := by rw [indexed_concat, hheight, hhash]
  have hsplit : beforeHead M block s = (stageSteps M block s ++ (publishSteps M s).take 3) ++
      (updateIndexSteps M s.height s.blockHash ++
        [journalWrite M JOURNAL_INDEX_STAGED s.height [], journalWrite M JOURNAL_COMMIT s.height []]) := by
    simp only [beforeHead, publishSteps, List.take_succ_cons, List.take_zero, List.cons_append, List.nil_append,
      List.append_assoc]
  rw [hsplit] at hrun
  obtain ⟨v, hv, hrun⟩ := exec_append_ok.mp hrun
  obtain ⟨w, hw, hrun⟩ := exec_append_ok.mp hrun
  have hkept : ∀ p, p = .heightToHash ∨ p = .hashToHeight → v.lookup p = files.lookup p := by
    intro p hp
    apply exec_frame _ hv
    simp only [stageSteps, publishSteps]
    rcases hp with rfl | rfl <;> simp [journalWrite, Step.write]
  have hreadHeights : readIndexJson M v .heightToHash =
      .ok (.dict (Lex.sortOn charKey Prod.fst (heightToHashFields (indexed ks)))) :=
    readIndexJson_eq ((hkept _ (.inl rfl)).trans hfiles.1) rfl hheights
  have hreadHashes : ∀ {x : StoreFiles}, x.lookup .hashToHeight = v.lookup .hashToHeight →
      readIndexJson M x .hashToHeight = .ok (.dict (Lex.sortOn charKey Prod.fst (hashToHeightFields (indexed ks)))) :=
    fun hx => readIndexJson_eq (hx.trans ((hkept _ (.inr rfl)).trans hfiles.2)) rfl hhashes
  obtain ⟨v₁, hv₁, hw⟩ := exec_cons_ok.mp hw
  obtain ⟨v₂, hv₂, hw⟩ := exec_cons_ok.mp hw
  cases hw
  obtain ⟨o₁, ho₁, rfl⟩ := Step.run_eq_ok.mp hv₁
  obtain ⟨o₂, ho₂, rfl⟩ := Step.run_eq_ok.mp hv₂
  dsimp only at ho₁ ho₂
  rw [hreadHeights, ok_bind, hreadHashes rfl, ok_bind] at ho₁
  rw [hreadHashes (by simp), ok_bind] at ho₂
  have hheightFile : o₁ = some (dumpsIndented M.floatRepr (Fields.put (Lex.sortOn charKey Prod.fst
      (heightToHashFields (indexed ks))) (natText s.height) (.str s.blockHash))) := (Except.ok.inj ho₁).symm
  have hhashFile : o₂ = some (dumpsIndented M.floatRepr (Fields.put (Lex.sortOn charKey Prod.fst
      (hashToHeightFields (indexed ks))) s.blockHash (.int s.height))) := (Except.ok.inj ho₂).symm
  have hother : ∀ p, p ≠ .journal → u.lookup p = (put (put v .heightToHash o₁) .hashToHeight o₂).lookup p := fun p hp =>
    exec_frame (by simp only [List.forall_mem_cons]; exact ⟨hp.symm, hp.symm, List.forall_mem_nil _⟩) hrun
  rw [hother .heightToHash (by rintro ⟨⟩), hother .hashToHeight (by rintro ⟨⟩), lookup_put, if_neg (by rintro ⟨⟩),
    lookup_put, if_pos rfl,
    lookup_put, if_pos rfl, hentry, indexFile_concat, indexFile_concat, heightToHash_concat, hashToHeight_concat,
    hheightFile, hhashFile, hheights.lines.dumps_put _ (v := .str s.blockHash) trivial,
    hhashes.lines.dumps_put _ (v := .int s.height) trivial]
  exact ⟨rfl, rfl⟩

/-- What is prepared for the block above a tip. -/
structure PreparedFor (M : Runtime) (t : Tape (KeptBlock M)) (block : BlockV2) (s : Staged) : Prop where
  height : s.height = t.tip + 1
  header : block.header.bytes = .ok s.headerBytes
  hash : s.blockHash = hashDoubleHex M.toPrimitives s.headerBytes

theorem Below.prepared {previousState : RegistryState} (h : Below M C files t)
    (hs : prepareAppend M C files block previousState = .ok s) : PreparedFor M t block s ∧
      deriveState M.toPrimitives (t.tip + 1) previousState block.transactions = .ok s.state := by
  obtain ⟨tip, htip, hheight, hstate, hheader, hhash⟩ := prepareAppend_ok hs
  rw [h.head] at htip
  cases htip
  have hnat : s.height = t.tip + 1 := by
    have : (s.height : Int) = t.tip + 1 := hheight
    omega
  exact ⟨⟨hnat, hheader, hhash⟩, hnat ▸ hstate⟩

theorem headLine_of_encodeHead {head : Head} {line : Bytes} (h : encodeHead head = .ok line) :
    headLine head = .ok line := by
  simp only [encodeHead, bind_eq_ok] at h
  obtain ⟨_, -, _, -, h⟩ := h
  exact h

theorem journal_exec {l : List StoreStep} {height : Nat} (hl : ∀ st ∈ l, AddsRecord M st)
    (h : JournalHolds M files height) (hrun : exec files l = .ok u) : JournalHolds M u height :=
  interrupt_exec hrun (Nat.le_refl _) ▸ journal_interrupt hl h

theorem journal_commit {height newHeight : Nat} (h : JournalHolds M files height)
    (hrun : (journalWrite M JOURNAL_COMMIT newHeight []).run files = .ok u) : JournalHolds M u newHeight := by
  obtain ⟨o, ho, rfl⟩ := Step.run_eq_ok.mp hrun
  obtain ⟨file, happend, rfl⟩ := journalWrite_ok ho
  exact (h.append happend (by simp [journalWrite])).2 rfl

theorem committed_beforeHead {height : Nat} (h : JournalHolds M files height)
    (hrun : exec files (beforeHead M block s) = .ok u) :
    JournalHolds M u s.height := by
  obtain ⟨staged, hstage, hrest⟩ := exec_append_ok.mp hrun
  obtain ⟨published, hpublish, hcommit⟩ := exec_append_ok.mp hrest
  obtain ⟨w, hw, hnil⟩ := exec_cons_ok.mp hcommit
  cases hnil
  exact journal_commit (journal_exec addsRecord_publish (journal_exec addsRecord_stage h hstage) hpublish) hw

/-- **HEAD moves** to the cell that was written. -/
theorem Below.headMoved (hC : C.Readable) {line : Bytes} (h : Below M C files t) (hs : PreparedFor M t block s)
    (hrun : exec files (ChainBreaker.beforeHead M block s) = .ok u)
    (hline : encodeHead ⟨s.height, s.blockHash, C.networkId, C.genesisHash, STORAGE_FORMAT_VERSION⟩ = .ok line) :
    ∃ k : KeptBlock M, Written block s u k ∧ s.blockHash = k.hash ∧
      KeptAt M (put u .head (some line)) (t.push k).cells t.tip ∧ Below M C (put u .head (some line)) (t.push k) := by
  obtain ⟨k, hk⟩ := written_of hs.header hrun
  have hhash : s.blockHash = k.hash := by
    have hheader := k.header_eq
    rw [hk.block, hs.header] at hheader
    rw [hs.hash, Except.ok.inj hheader]
    rfl
  have hbelow : Below M C u t := by
    rw [← interrupt_exec hrun (Nat.le_refl _)]
    exact h.beforeHead hs.height _
  have hcells := t.cells_push k
  have hput : ∀ p, p ≠ .head → (put u .head (some line)).lookup p = u.lookup p := fun p hp => by
    rw [lookup_put, if_neg hp]
  have htip : KeptAt M (put u .head (some line)) (t.push k).cells t.tip := by
    refine ⟨?_, ?_, fun data hdata => ⟨k, ?_, ?_⟩⟩
    · rw [hput (.header _) (by rintro ⟨⟩), hcells, if_pos rfl, ← hs.height, hk.headerFile, Option.map_some]
    · rw [hput (.block _) (by rintro ⟨⟩), hcells, if_pos rfl, ← hs.height, hk.blockFile, Option.map_some]
    · rw [hcells, if_pos rfl]
    · exact hk.stateFile data (by rw [hs.height, ← hput (.state _) (by rintro ⟨⟩)]; exact hdata)
  refine ⟨k, hk, hhash, htip, ⟨?_, fun i hi => ?_, ?_, ?_, fun n data hdata => ?_, ?_⟩⟩
  · have hnew : headOf C (t.push k) = ⟨s.height, s.blockHash, C.networkId, C.genesisHash, STORAGE_FORMAT_VERSION⟩ := by
      rw [headOf, Tape.tip_push, keptHash, hcells, if_pos rfl, hs.height, hhash]
      rfl
    rw [getTip, lookup_put, if_pos rfl, hnew]
    exact decodeHead_headLine (hhash ▸ k.hash_lower) hC.genesisHash hC.networkId (headLine_of_encodeHead hline)
  · rw [Tape.tip_push] at hi
    rcases Nat.lt_succ_iff_lt_or_eq.mp hi with hlt | rfl
    · exact (hbelow.kept i hlt).congr (by rw [hcells, if_neg (Nat.ne_of_lt hlt)]) (hput (.header _) (by rintro ⟨⟩))
        (hput (.block _) (by rintro ⟨⟩)) (hput (.state _) (by rintro ⟨⟩))
    · exact htip
  · rw [hput (.block 0) (by rintro ⟨⟩), hbelow.block_zero]
  · rw [hput (.state 0) (by rintro ⟨⟩), hbelow.state_zero]
  · exact hbelow.stateMeta n data ((hput (.stateMeta n) (by rintro ⟨⟩)).symm.trans hdata)
  · exact (hs.height ▸ committed_beforeHead h.journal hrun).congr (hput .journal (by rintro ⟨⟩))

/-- The indexes take the cell up, and what lies beside it stays. -/
theorem Holds.headMoved (hC : C.Readable) {line : Bytes} (h : Holds M C files t) (hs : PreparedFor M t block s)
    (hrun : exec files (ChainBreaker.beforeHead M block s) = .ok u)
    (hline : encodeHead ⟨s.height, s.blockHash, C.networkId, C.genesisHash, STORAGE_FORMAT_VERSION⟩ = .ok line) :
    ∃ k : KeptBlock M, k.block = block ∧ k.state = s.state ∧ Holds M C (put u .head (some line)) (t.push k) := by
  obtain ⟨k, hk, hhash, htip, hbelow⟩ := h.toBelow.headMoved hC hs hrun hline
  obtain ⟨hheightIndex, hhashIndex⟩ := written_indexes ⟨h.heightToHash, h.hashToHeight⟩
    (by rw [Tape.length_current, hs.height]) hhash hrun
  have hput : ∀ p, p ≠ .head → (put u .head (some line)).lookup p = u.lookup p := fun p hp => by
    rw [lookup_put, if_neg hp]
  refine ⟨k, hk.block, hk.state, ⟨hbelow, fun i hi => ?_, ?_, ?_⟩⟩
  · rw [Tape.tip_push] at hi
    have hframe : KeptAt M u t.cells i := by
      rw [← interrupt_exec hrun (Nat.le_refl _)]
      exact (h.at i).beside (by rw [hs.height]; omega) _
    exact hframe.congr (by rw [t.cells_push k, if_neg (by omega)]) (hput (.header _) nofun) (hput (.block _) nofun)
      (hput (.state _) nofun)
  · rw [hput .heightToHash nofun, hheightIndex, Tape.current_push]
  · rw [hput .hashToHeight nofun, hhashIndex, Tape.current_push]

theorem cleaned_frame {height n : Nat} {p : StorePath} (hp : p.isTmp = false) :
    (interrupt n (cleanSteps height) files).lookup p = files.lookup p := by
  apply interrupt_frame
  have hne : ∀ q : StorePath, q.isTmp = true → q ≠ p := fun q hq heq => by rw [heq, hp] at hq; cases hq
  simp only [cleanSteps, List.forall_mem_cons]
  exact ⟨hne _ rfl, hne _ rfl, hne _ rfl, nofun⟩

/-- What remains of an append behind the move of HEAD. -/
theorem Holds.cleaned {height n : Nat} (h : Holds M C files t) :
    Holds M C (interrupt n (cleanSteps height) files) t :=
  h.congr (h.journal.congr (cleaned_frame rfl)) fun _ hp _ => cleaned_frame hp

theorem Below.cleaned {height n : Nat} (h : Below M C files t) :
    Below M C (interrupt n (cleanSteps height) files) t :=
  h.congr (h.journal.congr (cleaned_frame rfl)) fun _ hp _ _ _ => cleaned_frame hp

/-- An append that stops anywhere has moved HEAD, or has changed nothing up to it. -/
theorem Below.cut (h : Below M C files t) (hs : s.height = t.tip + 1) (n : Nat) :
    Below M C (interrupt n (appendSteps M C block s) files) t ∨
    ∃ u line m, exec files (ChainBreaker.beforeHead M block s) = .ok u ∧
      encodeHead ⟨s.height, s.blockHash, C.networkId, C.genesisHash, STORAGE_FORMAT_VERSION⟩ = .ok line ∧
      interrupt n (appendSteps M C block s) files = interrupt m (cleanSteps s.height) (put u .head (some line)) := by
  rw [appendSteps_eq]
  rcases @interrupt_append _ _ _ _ (ChainBreaker.beforeHead M block s) (headStep C s :: cleanSteps s.height) n files
    with hcut | ⟨u, hu, hcut⟩
  · rw [hcut]
    exact .inl (h.beforeHead hs n)
  · have hbelow : Below M C u t := by
      rw [← interrupt_exec hu (Nat.le_refl _)]
      exact h.beforeHead hs _
    rw [hcut]
    cases n - (ChainBreaker.beforeHead M block s).length with
    | zero => exact .inl hbelow
    | succ m =>
      rw [interrupt]
      cases hhead : (headStep C s).run u with
      | error e => exact .inl hbelow
      | ok w =>
        obtain ⟨o, ho, rfl⟩ := Step.run_eq_ok.mp hhead
        obtain ⟨line, hline, rfl⟩ := Step.write_content.mp ho
        exact .inr ⟨u, line, m, hu, hline, rfl⟩

/-- The cell that an append is to write. -/
def Appends (block : BlockV2) (previousState : RegistryState) (t : Tape (KeptBlock M)) (k : KeptBlock M) : Prop :=
  k.block = block ∧ deriveState M.toPrimitives (t.tip + 1) previousState block.transactions = .ok k.state

/-- An append that went through has moved HEAD. -/
theorem appendSteps_moved (hrun : exec files (appendSteps M C block s) = .ok u) :
    ∃ v line, exec files (beforeHead M block s) = .ok v ∧
      encodeHead ⟨s.height, s.blockHash, C.networkId, C.genesisHash, STORAGE_FORMAT_VERSION⟩ = .ok line ∧
      u = interrupt (cleanSteps s.height).length (cleanSteps s.height) (put v .head (some line)) := by
  rw [appendSteps_eq] at hrun
  obtain ⟨v, hv, hrun⟩ := exec_append_ok.mp hrun
  obtain ⟨w, hw, hclean⟩ := exec_cons_ok.mp hrun
  obtain ⟨o, ho, rfl⟩ := Step.run_eq_ok.mp hw
  obtain ⟨line, hline, rfl⟩ := Step.write_content.mp ho
  exact ⟨v, line, hv, hline, (interrupt_exec hclean (Nat.le_refl _)).symm⟩

/-- **A completed append** writes the cell above the tip. -/
theorem append_holds (hC : C.Readable) {previousState state : RegistryState} (h : Holds M C files t)
    (hrun : appendBlock M C none files block previousState = (.ok state, files')) :
    ∃ k : KeptBlock M, Appends block previousState t k ∧ k.state = state ∧ Holds M C files' (t.push k) := by
  unfold appendBlock at hrun
  split at hrun
  · cases hrun
  · rename_i s hprepare
    obtain ⟨hs, hderived⟩ := h.prepared hprepare
    obtain ⟨hresult, hfiles⟩ := Prod.mk.inj hrun
    obtain ⟨v, hexec, hstate⟩ := map_eq_ok.mp hresult
    rw [interrupt_exec hexec (Nat.le_refl _)] at hfiles
    subst hfiles
    obtain ⟨u, line, hu, hline, rfl⟩ := appendSteps_moved hexec
    obtain ⟨k, hblock, hkstate, hmoved⟩ := h.headMoved hC hs hu hline
    exact ⟨k, ⟨hblock, by rw [hkstate]; exact hderived⟩, hkstate.trans hstate, hmoved.cleaned⟩

/-- **An append from below**: wherever it stops, HEAD is at the block, or where it was,
and that only if the call raised. -/
theorem append_below (hC : C.Readable) (fault : Option Nat) (block : BlockV2) (previousState : RegistryState)
    (h : Below M C files t) : ∃ t', Below M C (appendBlock M C fault files block previousState).2 t' ∧
      ((∃ k, Appends block previousState t k ∧ t' = t.push k) ∨
        t' = t ∧ ∃ exc, (appendBlock M C fault files block previousState).1 = .error exc) := by
  unfold appendBlock
  cases hprepare : prepareAppend M C files block previousState with
  | error exc => exact ⟨t, h, .inr ⟨rfl, exc, rfl⟩⟩
  | ok s =>
    obtain ⟨hs, hderived⟩ := h.prepared hprepare
    have hmoved : ∀ {u line m}, exec files (beforeHead M block s) = .ok u →
        encodeHead ⟨s.height, s.blockHash, C.networkId, C.genesisHash, STORAGE_FORMAT_VERSION⟩ = .ok line →
        ∃ k, Appends block previousState t k ∧
          Below M C (interrupt m (cleanSteps s.height) (put u .head (some line))) (t.push k) := by
      intro u line m hu hline
      obtain ⟨k, hk, -, -, hbelow⟩ := h.headMoved hC hs hu hline
      exact ⟨k, ⟨hk.block, by rw [hk.state]; exact hderived⟩, hbelow.cleaned⟩
    have hcut : ∀ n exc, ∃ t', Below M C (interrupt n (appendSteps M C block s) files) t' ∧
        ((∃ k, Appends block previousState t k ∧ t' = t.push k) ∨ t' = t ∧
          ∃ e : PyErr, (.error exc : Except PyErr RegistryState) = .error e) := by
      intro n exc
      rcases h.cut hs.height n with hbelow | ⟨u, line, m, hu, hline, hcut⟩
      · exact ⟨t, hbelow, .inr ⟨rfl, exc, rfl⟩⟩
      · obtain ⟨k, hk, hbelow⟩ := @hmoved u line m hu hline
        rw [hcut]
        exact ⟨_, hbelow, .inl ⟨k, hk, rfl⟩⟩
    cases fault with
    | none =>
      dsimp only
      cases hexec : exec files (appendSteps M C block s) with
      | error exc => exact hcut _ exc
      | ok v =>
        rw [interrupt_exec hexec (Nat.le_refl _)]
        obtain ⟨u, line, hu, hline, rfl⟩ := appendSteps_moved hexec
        obtain ⟨k, hk, hbelow⟩ := hmoved hu hline
        exact ⟨_, hbelow, .inl ⟨k, hk, rfl⟩⟩
    | some n =>
      dsimp only
      cases exec files ((appendSteps M C block s).take n) with
      | error exc => exact hcut n exc
      | ok v => exact hcut n _

/-- **An append cut short** has moved HEAD, or has changed nothing up to it. -/
theorem append_cut (hC : C.Readable) (previousState : RegistryState) (n : Nat) (h : Holds M C files t) :
    Below M C (appendBlock M C (some n) files block previousState).2 t ∨
    ∃ k : KeptBlock M, Appends block previousState t k ∧
      Holds M C (appendBlock M C (some n) files block previousState).2 (t.push k) := by
  unfold appendBlock
  cases hprepare : prepareAppend M C files block previousState with
  | error e => exact .inl h.toBelow
  | ok s =>
    obtain ⟨hs, hderived⟩ := h.prepared hprepare
    dsimp only
    rcases h.cut hs.height n with hbelow | ⟨u, line, m, hu, hline, hcut⟩
    · exact .inl hbelow
    · obtain ⟨k, hblock, hkstate, hmoved⟩ := h.headMoved hC hs hu hline
      rw [hcut]
      exact .inr ⟨k, ⟨hblock, by rw [hkstate]; exact hderived⟩, hmoved.cleaned⟩

/-- The steps that stage a block. -/
def STAGING : Nat := 7

/-- **An append cut short while staging** has changed nothing. -/
theorem append_abandoned (previousState : RegistryState) {n : Nat} (hn : n ≤ STAGING) (h : Holds M C files t) :
    Holds M C (appendBlock M C (some n) files block previousState).2 t := by
  unfold appendBlock
  cases prepareAppend M C files block previousState with
  | error e => exact h
  | ok s =>
    dsimp only
    rw [appendSteps]
    have hstaged : Holds M C (interrupt n (stageSteps M block s) files) t := h.scratch addsRecord_stage stage_names
    rcases @interrupt_append _ _ _ _ (stageSteps M block s) (publishSteps M s ++ commitSteps M C s) n files
      with hcut | ⟨u, hu, hcut⟩
    · rwa [hcut]
    · have hlen : n - (stageSteps M block s).length = 0 := Nat.sub_eq_zero_of_le hn
      rw [hcut, hlen, interrupt]
      rw [← interrupt_exec hu (Nat.le_refl _)]
      exact h.scratch addsRecord_stage stage_names

/-! ## Rebuilding the indexes -/

theorem unreadable_of_value (k : ErrKind) (h : k.isValueError = true) : unreadable k = true := by
  rw [unreadable, h]
  rfl

/-- The two index files as a rebuild leaves them. -/
def withIndexes (M : Runtime) (t : Tape (KeptBlock M)) (files : StoreFiles) : StoreFiles :=
  put (put files .heightToHash (indexFile M heightToHashFields (indexed t.current)))
    .hashToHeight (indexFile M hashToHeightFields (indexed t.current))

theorem Below.entries (hfl : FloatText M.floatRepr) (h : Below M C files t) :
    indexEntries M unreadable files (headOf C t).height = .ok (indexed t.current) := by
  rw [indexEntries_eq unreadable_of_value]
  exact congrArg Except.ok (storedEntries_kept hfl t.tip_le h.kept h.block_zero)

theorem Below.rebuilt (hfl : FloatText M.floatRepr) (h : Below M C files t) :
    exec files (rebuildSteps M C) = .ok (withIndexes M t files) := by
  have hfirst : Below M C (put files .heightToHash (indexFile M heightToHashFields (indexed t.current))) t :=
    h.congr (h.journal.congr (by rw [lookup_put, if_neg nofun])) fun p _ _ hp _ => by rw [lookup_put, if_neg hp]
  have hcontent : ∀ {u : StoreFiles} (fields : List (Nat × Str) → Fields), Below M C u t →
      (getTip C u >>= fun tip => indexEntries M unreadable u tip.height >>= fun entries =>
        Except.ok (if entries.isEmpty then none else some (dumpsIndented M.floatRepr (fields entries)))) =
        .ok (indexFile M fields (indexed t.current)) := by
    intro u fields hu
    rw [hu.head, ok_bind, hu.entries hfl, ok_bind]
    rfl
  rw [rebuildSteps, exec_cons_ok]
  refine ⟨_, Step.run_eq_ok.mpr ⟨_, hcontent heightToHashFields h, rfl⟩, ?_⟩
  rw [exec_cons_ok]
  exact ⟨_, Step.run_eq_ok.mpr ⟨_, hcontent hashToHeightFields hfirst, rfl⟩, rfl⟩

theorem Below.reindexed (h : Below M C files t) (hat : ∀ i, t.tip ≤ i → KeptAt M files t.cells i) :
    Holds M C (withIndexes M t files) t where
  toBelow := h.congr (h.journal.congr (by simp [withIndexes]))
    fun p _ _ hheight hhash => by rw [withIndexes, lookup_put, if_neg hhash, lookup_put, if_neg hheight]
  above i hi := (hat i hi).congr rfl (by simp [withIndexes]) (by simp [withIndexes])
    (by simp [withIndexes])
  heightToHash := by simp [withIndexes]
  hashToHeight := by simp [withIndexes]

theorem Below.rebuild (hfl : FloatText M.floatRepr) (h : Below M C files t) :
    rebuildIndexes M C files = (.ok ⟨t.tip, List.range' 1 t.tip⟩, withIndexes M t files) := by
  have hrun := h.rebuilt hfl
  have hsorted : (List.range' 1 t.tip).insertionSort (· ≤ ·) = List.range' 1 t.tip :=
    (List.Pairwise.imp Nat.le_of_lt List.pairwise_lt_range').insertionSort_eq
  unfold rebuildIndexes
  dsimp only
  rw [h.head, ok_bind, h.entries hfl, ok_bind, hrun, ok_bind, indexed_heights, Tape.length_current, hsorted,
    interrupt_exec hrun (Nat.le_refl _)]
  rfl

/-! ## Setting the tip -/

/-- HEAD with a line, and the journal with a record more. -/
def headed (files : StoreFiles) (journal : Option Bytes) (line : Bytes) : StoreFiles :=
  put (put files .journal journal) .head (some line)

theorem headed_other (journal : Option Bytes) (line : Bytes) {p : StorePath} (hhead : p ≠ .head)
    (hjournal : p ≠ .journal) :
    (headed files journal line).lookup p = files.lookup p := by
  rw [headed, lookup_put, if_neg hhead, lookup_put, if_neg hjournal]

theorem tipSteps_ok {k height : Nat} {hash : Str} (hj : JournalHolds M files height)
    (hrun : exec files (tipSteps M C k hash) = .ok u) :
    ∃ journal line, u = headed files journal line ∧ JournalHolds M u k ∧
      headLine ⟨k, hash, C.networkId, C.genesisHash, STORAGE_FORMAT_VERSION⟩ = .ok line := by
  obtain ⟨v, hv, hrun⟩ := exec_cons_ok.mp hrun
  obtain ⟨w, hw, hnil⟩ := exec_cons_ok.mp hrun
  cases hnil
  have hcommit := journal_commit hj hv
  obtain ⟨o, -, rfl⟩ := Step.run_eq_ok.mp hv
  obtain ⟨o', ho', rfl⟩ := Step.run_eq_ok.mp hw
  obtain ⟨line, hline, rfl⟩ := Step.write_content.mp ho'
  exact ⟨o, line, rfl, hcommit.congr (by rw [lookup_put, if_neg nofun]), hline⟩

theorem tip_moved (hC : C.Readable) (h : Holds M C files t) {k : Nat} (hk : k ≤ t.cells.length)
    (hrun : exec files (tipSteps M C k (keptHash C t.cells k)) = .ok u) :
    Below M C u (t.seek k hk) ∧ ∀ i, KeptAt M u t.cells i := by
  obtain ⟨journal, line, rfl, hj, hline⟩ := tipSteps_ok h.journal hrun
  have hkept := fun p => @headed_other files journal line p
  have hat : ∀ i, KeptAt M (headed files journal line) t.cells i := fun i =>
    (h.at i).congr rfl (hkept (.header (i + 1)) (by rintro ⟨⟩) (by rintro ⟨⟩)) (hkept (.block (i + 1)) (by rintro ⟨⟩) (by rintro ⟨⟩))
      (hkept (.state (i + 1)) (by rintro ⟨⟩) (by rintro ⟨⟩))
  refine ⟨⟨?_, fun i _ => hat i, ?_, ?_, fun n data hdata => h.stateMeta n data ?_, hj⟩, hat⟩
  · rw [getTip, headed, lookup_put, if_pos rfl]
    exact decodeHead_headLine (keptHash_lower hC _ _) hC.genesisHash hC.networkId hline
  · rw [hkept (.block 0) (by rintro ⟨⟩) (by rintro ⟨⟩), h.block_zero]
  · rw [hkept (.state 0) (by rintro ⟨⟩) (by rintro ⟨⟩), h.state_zero]
  · rwa [hkept (.stateMeta n) (by rintro ⟨⟩) (by rintro ⟨⟩)] at hdata

/-- **A completed switch** sets the tip. -/
theorem switch_holds (hfl : FloatText M.floatRepr) (hC : C.Readable) {k : Nat} (hk : k ≤ t.cells.length)
    {r : SwitchedTip} (h : Holds M C files t)
    (hrun : atomicTipSwitch M C none files k (keptHash C t.cells k) = (.ok r, files')) :
    r = ⟨k, keptHash C t.cells k, k, List.range' 1 k⟩ ∧ Holds M C files' (t.seek k hk) := by
  unfold atomicTipSwitch at hrun
  rw [if_neg (by omega)] at hrun
  dsimp only at hrun
  rw [Int.toNat_natCast] at hrun
  obtain ⟨hresult, hfiles⟩ := Prod.mk.inj hrun
  obtain ⟨u, hu, hresult⟩ := bind_eq_ok.mp hresult
  obtain ⟨hbelow, hat⟩ := tip_moved hC h hk hu
  have hrebuilt := hbelow.rebuilt hfl
  have hexec : exec files (switchSteps M C k (keptHash C t.cells k)) = .ok (withIndexes M (t.seek k hk) u) :=
    exec_append_ok.mpr ⟨u, hu, hrebuilt⟩
  rw [interrupt_exec hexec (Nat.le_refl _)] at hfiles
  subst hfiles
  rw [hbelow.rebuild hfl, ok_bind] at hresult
  exact ⟨(Except.ok.inj hresult).symm, hbelow.reindexed fun i _ => hat i⟩

/-- **A switch cut short** has moved HEAD, or has changed nothing but the journal. -/
theorem switch_cut (hC : C.Readable) {k : Nat} (hk : k ≤ t.cells.length) (n : Nat) (h : Holds M C files t) :
    Holds M C (atomicTipSwitch M C (some n) files k (keptHash C t.cells k)).2 t ∨
      Below M C (atomicTipSwitch M C (some n) files k (keptHash C t.cells k)).2 (t.seek k hk) := by
  unfold atomicTipSwitch
  rw [if_neg (by omega)]
  dsimp only
  have hsplit : switchSteps M C k (keptHash C t.cells k) = [journalWrite M JOURNAL_COMMIT k []] ++
      headWrite C k (keptHash C t.cells k) :: rebuildSteps M C := rfl
  rw [Int.toNat_natCast, hsplit]
  have hjournalled : ∀ m, Holds M C (interrupt m [journalWrite M JOURNAL_COMMIT k []] files) t := fun m =>
    h.scratch (by simp only [List.forall_mem_cons]; exact ⟨addsRecord_write _ _ _, List.forall_mem_nil _⟩)
      (by simp only [List.forall_mem_cons]; exact ⟨.inr rfl, List.forall_mem_nil _⟩)
  rcases @interrupt_append _ _ _ _ [journalWrite M JOURNAL_COMMIT k []]
    (headWrite C k (keptHash C t.cells k) :: rebuildSteps M C) n files with hcut | ⟨u, hu, hcut⟩
  · rw [hcut]
    exact .inl (hjournalled n)
  · have hcommitted := interrupt_exec hu (Nat.le_refl _) ▸ hjournalled 1
    rw [hcut]
    cases n - [journalWrite M JOURNAL_COMMIT k []].length with
    | zero => exact .inl hcommitted
    | succ m =>
      rw [interrupt]
      cases hhead : (headWrite C k (keptHash C t.cells k)).run u with
      | error e => exact .inl hcommitted
      | ok w =>
        obtain ⟨v, hv, hnil⟩ := exec_cons_ok.mp hu
        cases hnil
        obtain ⟨hbelow, -⟩ := tip_moved hC h hk (exec_cons_ok.mpr ⟨_, hv, exec_cons_ok.mpr ⟨w, hhead, rfl⟩⟩)
        have hframe : ∀ p, p ≠ .heightToHash → p ≠ .hashToHeight →
            (interrupt m (rebuildSteps M C) w).lookup p = w.lookup p := fun p hheight hhash => interrupt_frame (by
          simp only [rebuildSteps, List.forall_mem_cons]
          exact ⟨hheight.symm, hhash.symm, List.forall_mem_nil _⟩)
        exact .inr (hbelow.congr (hbelow.journal.congr (hframe .journal (by rintro ⟨⟩) (by rintro ⟨⟩))) fun p _ _ => hframe p)

/-! ## Snapshots -/

/-- What writes no file but those of the registry states. -/
theorem Holds.states (h : Holds M C files t)
    (hsame : ∀ p, (∀ n, p ≠ .state n) → (∀ n, p ≠ .stateMeta n) → files'.lookup p = files.lookup p)
    (hzero : files'.lookup (.state 0) = none)
    (hstate : ∀ i data, files'.lookup (.state (i + 1)) = some data → ∃ k, t.cells[i]? = some k ∧ data = k.stateBytes)
    (hmeta : ∀ n data, files'.lookup (.stateMeta n) = some data → Described M C data) : Holds M C files' t := by
  have hat : ∀ i, KeptAt M files' t.cells i := fun i =>
    ⟨by rw [hsame (.header (i + 1)) nofun nofun, (h.at i).header],
      by rw [hsame (.block (i + 1)) nofun nofun, (h.at i).block], hstate i⟩
  refine ⟨⟨?_, fun i _ => hat i, ?_, hzero, hmeta, h.journal.congr (hsame .journal nofun nofun)⟩, fun i _ => hat i, ?_, ?_⟩
  · rw [getTip_congr (hsame .head nofun nofun), h.head]
  · rw [hsame (.block 0) nofun nofun, h.block_zero]
  · rw [hsame .heightToHash nofun nofun, h.heightToHash]
  · rw [hsame .hashToHeight nofun nofun, h.hashToHeight]

theorem Holds.putState {k : KeptBlock M} {i : Nat} (h : Holds M C files t) (hk : t.cells[i]? = some k) :
    Holds M C (put files (.state (i + 1)) (some k.stateBytes)) t := by
  have hother : ∀ p, p ≠ .state (i + 1) → (put files (.state (i + 1)) (some k.stateBytes)).lookup p = files.lookup p :=
    fun p hp => by rw [lookup_put, if_neg hp]
  refine h.states (fun p hp _ => hother p (hp _)) ?_ (fun j data hdata => ?_) fun n data hdata => ?_
  · rw [hother (.state 0) nofun, h.state_zero]
  · by_cases hj : j = i
    · rw [hj, lookup_put, if_pos rfl, Option.some.injEq] at hdata
      exact ⟨k, by rw [hj, hk], hdata.symm⟩
    · rw [hother _ fun heq => hj (Nat.succ.inj (StorePath.state.inj heq))] at hdata
      exact (h.at j).state data hdata
  · rw [hother (.stateMeta n) nofun] at hdata
    exact h.stateMeta n data hdata

theorem Holds.putMeta {data : Bytes} (height : Nat) (h : Holds M C files t) (hdata : Described M C data) :
    Holds M C (put files (.stateMeta height) (some data)) t := by
  have hother : ∀ p, p ≠ .stateMeta height → (put files (.stateMeta height) (some data)).lookup p = files.lookup p :=
    fun p hp => by rw [lookup_put, if_neg hp]
  refine h.states (fun p _ hp => hother p (hp _)) ?_ (fun j data' hdata' => ?_) fun n data' hdata' => ?_
  · rw [hother (.state 0) nofun, h.state_zero]
  · rw [hother (.state (j + 1)) nofun] at hdata'
    exact (h.at j).state data' hdata'
  · rw [lookup_put] at hdata'
    split at hdata'
    · cases hdata'
      exact hdata
    · exact h.stateMeta n data' hdata'

/-- **Writing a snapshot** of a cell, as far as it goes, leaves the tape as it is. -/
theorem snapshot_holds {k : KeptBlock M} {i : Nat} (hk : t.cells[i]? = some k) (n : Nat) (h : Holds M C files t) :
    Holds M C (interrupt n (snapshotSteps M C (i + 1) k.state) files) t := by
  refine interrupt_inv (I := fun u => Holds M C u t) (fun st hst u u' hu hrun => ?_) h
  obtain ⟨o, ho, rfl⟩ := Step.run_eq_ok.mp hrun
  simp only [snapshotSteps, List.mem_cons, List.not_mem_nil, or_false] at hst
  rcases hst with rfl | rfl
  · obtain ⟨data, hdata, rfl⟩ := Step.write_content.mp ho
    obtain rfl : k.stateBytes = data := Except.ok.inj (k.state_eq.symm.trans hdata)
    exact hu.putState hk
  · obtain ⟨data, hdata, rfl⟩ := Step.write_content.mp ho
    obtain ⟨stateBytes, -, hdata⟩ := bind_eq_ok.mp hdata
    obtain ⟨fields, hfields, hdata⟩ := bind_eq_ok.mp hdata
    exact hu.putMeta (i + 1) ⟨_, _, _, fields, hfields, (Except.ok.inj hdata).symm⟩

/-! ## Recovery -/

theorem Below.links (hfl : FloatText M.floatRepr) (h : Below M C files t) (hl : Linked C t.current) :
    ∀ n ≤ t.tip, Links M files n (keptHash C t.current n) 0 C.genesisHash
  | 0, _ => .refl _ _
  | n + 1, hn => by
    have hlt : n < t.current.length := by rwa [Tape.length_current]
    have hcell : t.current[n]? = some t.current[n] := List.getElem?_eq_getElem hlt
    have hcells : t.cells[n]? = some t.current[n] := by rw [← hcell, Tape.getElem?_current hn]
    generalize t.current[n] = k at hcell hcells
    obtain ⟨ws, -, hdecode, hhash⟩ := k.read hfl
    have hat := h.kept n hn
    have hheader := hat.header
    have hblock := hat.block
    rw [hcells, Option.map_some] at hheader hblock
    have hkept : keptHash C t.current (n + 1) = k.hash := by rw [keptHash, hcell]; rfl
    rw [hkept]
    have hverified : Verified M files (n + 1) k.hash (keptHash C t.current n) :=
      ⟨_, _, _, hheader, hblock, (decode_headerBytes k.header_eq).1, rfl, hdecode, hhash, hl n k hcell⟩
    exact .down hverified (h.links hfl hl n (Nat.le_of_lt hn))

/-- The tip that a recovery finds is the tape's. -/
theorem Below.safeTip (hfl : FloatText M.floatRepr) (h : Below M C files t) (hl : Linked C t.current) :
    ∃ tip, ChainBreaker.safeTip M C none files = .ok tip ∧ tip.headHeight = t.tip ∧ tip.safeHeight = t.tip := by
  have hlinks := h.links hfl hl t.tip (Nat.le_refl _)
  rw [keptHash_congr fun i hi => Tape.getElem?_current hi] at hlinks
  obtain ⟨tip, htip, hheadHeight, hsafe, -⟩ := safeTip_linked h.head rfl rfl rfl hlinks h.journal.le_lastCommit
  exact ⟨tip, htip, hheadHeight, hsafe⟩

/-- **A recovery** makes a tape of what lies up to the tip. -/
theorem recovered_holds (hfl : FloatText M.floatRepr) {o : Listing} {r : Recovered}
    (h : Below M C files t) (hl : Linked C t.current)
    (hindex : t.tip = 0 → files.lookup .heightToHash = none ∧ files.lookup .hashToHeight = none)
    (hrun : recoverStore M o C none files = (files', .ok r)) : Holds M C files' t.cut := by
  obtain ⟨tip, htip, hheadHeight, hsafe⟩ := h.safeTip hfl hl
  obtain ⟨-, tip', -, htip', -, -, hto, -, -⟩ := recoverStore_ok hrun
  cases htip.symm.trans htip'
  have hhead := hto.head
  rw [if_pos (hsafe.trans hheadHeight.symm)] at hhead
  have hat : ∀ i, KeptAt M files' t.current i := by
    intro i
    rcases Nat.lt_or_ge i t.tip with hi | hi
    · refine (h.kept i hi).congr (Tape.getElem?_current hi) ?_ ?_ ?_
      · rw [hto.header, if_neg (by omega)]
      · rw [hto.block, if_neg (by omega)]
      · rw [hto.state, if_neg (by omega)]
    · refine ⟨?_, ?_, fun data hdata => ?_⟩
      · rw [hto.header, if_pos (by omega), Tape.current_none hi, Option.map_none]
      · rw [hto.block, if_pos (by omega), Tape.current_none hi, Option.map_none]
      · rw [hto.state, if_pos (by omega)] at hdata
        cases hdata
  have hentries : storedEntries M files tip.safeHeight = indexed t.current := by
    rw [hsafe]
    exact storedEntries_kept hfl t.tip_le h.kept h.block_zero
  have hfile : ∀ {path : StorePath} {fields : List (Nat × Str) → Fields}, (t.tip = 0 → files.lookup path = none) →
      recoveredIndex M tip.safeHeight files path fields = indexFile M fields (indexed t.current) := by
    intro path fields hnone
    rw [recoveredIndex, hentries, indexFile]
    split
    · rename_i hempty
      refine hnone ?_
      have hlen := congrArg List.length (indexed_heights t.current)
      rw [List.isEmpty_iff.mp hempty, List.length_range', Tape.length_current] at hlen
      exact hlen.symm
    · rfl
  refine ⟨⟨?_, fun i _ => hat i, ?_, ?_, fun n data hdata => ?_, ?_⟩, fun i _ => hat i, ?_, ?_⟩
  · rw [getTip_congr hhead, h.head, headOf, headOf, Tape.tip_cut, Tape.cells_cut,
      keptHash_congr fun i hi => Tape.getElem?_current hi]
  · rw [hto.block, h.block_zero, ite_self]
  · rw [hto.state, h.state_zero, ite_self]
  · rw [hto.stateMeta] at hdata
    split at hdata
    · cases hdata
    · exact h.stateMeta n data hdata
  · exact h.journal.congr hto.journal
  · rw [hto.heightToHash, hfile fun hzero => (hindex hzero).1, Tape.current_cut]
  · rw [hto.hashToHeight, hfile fun hzero => (hindex hzero).2, Tape.current_cut]

/-- A recovery of linked blocks returns. -/
theorem Below.recovers (hfl : FloatText M.floatRepr) (o : Listing) (h : Below M C files t) (hl : Linked C t.current) :
    ∃ files' r, recoverStore M o C none files = (files', .ok r) := by
  obtain ⟨tip, htip, hheadHeight, hsafe⟩ := h.safeTip hfl hl
  obtain ⟨files', r, hrun, -⟩ := recoverStore_returns o htip fun hne => absurd (hsafe.trans hheadHeight.symm) hne
  exact ⟨files', r, hrun⟩

end

end ChainBreaker
