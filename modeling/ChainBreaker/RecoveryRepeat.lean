import ChainBreaker.RecoveryRules

/-!
# Recovering twice

A second recovery reads the HEAD that the first left. It decides on the same
tip, and then changes nothing, exactly from the starts of `Steady`.
-/

namespace ChainBreaker

open Fallible FileSteps

section
variable {M : Runtime}

/-! ## A second recovery -/

/-- A second recovery, directly after one that returned, changes no file and
returns the same height and hash. -/
def Repeats (M : Runtime) (o : Listing) (C : StoreConfig) (maxHeight : Option Int) (files' : StoreFiles) (r : Recovered) :
    Prop :=
  ∃ files'' r', recoverStore M o C maxHeight files' = (files'', .ok r') ∧ Same files'' files' ∧ r'.height = r.height ∧
    r'.blockHash = r.blockHash

/-- Where a recovery can start so that it need not be done again. -/
inductive Steady (M : Runtime) (C : StoreConfig) (files : StoreFiles) (start : RecoveryStart) : Prop where
  /-- every block below HEAD passes -/
  | intact {p : Str} : start.height = start.headHeight → Links M files start.height.toNat start.hash 0 p →
      Steady M C files start
  | nothing : start.height ≤ 0 → ((58 : CodePoint) ∉ C.networkId ∨ start.hash = C.genesisHash) → Steady M C files start
  /-- the first block is the only one that does not pass -/
  | first {p : Str} : Links M files start.height.toNat start.hash 1 p → (¬ ∃ q, Verified M files 1 p q) →
      Steady M C files start
  /-- blocks that lead back to their own hash -/
  | cycle {s : Nat} {hash : Str} : (58 : CodePoint) ∉ C.networkId → 0 < s → WalkEnds M C files start s hash →
      Links M files s hash 0 hash → Steady M C files start

/-- What the HEAD line of a recovery reads as. -/
theorem readHead_recovered {C : StoreConfig} {tip : SafeTip} {line : Bytes} {files' : StoreFiles}
    (hline : recoveredLine C tip = .ok line) (hhead : files'.lookup .head = some line)
    (hlower : isLowerHash C.genesisHash = true → isLowerHash tip.currentHash = true) :
    readHead C files' = .ok (if (58 : CodePoint) ∉ C.networkId ∧ isLowerHash C.genesisHash = true
      then (tip.safeHeight, tip.currentHash) else (0, C.genesisHash)) := by
  by_cases hgood : (58 : CodePoint) ∉ C.networkId ∧ isLowerHash C.genesisHash = true
  · rw [if_pos hgood]
    exact readHead_of hhead (decodeHead_headLine (hlower hgood.2) hgood.2 hgood.1 hline) rfl
  · rw [if_neg hgood]
    obtain ⟨⟨height, hash⟩, hread⟩ := readHead_total C files'
    rcases readHead_ok hread with ⟨rfl, rfl⟩ | ⟨data, head, hdata, hdecode, hgenesis, -, -⟩
    · exact hread
    · rw [hhead] at hdata
      cases hdata
      have hlowerGenesis := (decodeHead_hashes hdecode).2
      rw [hgenesis] at hlowerGenesis
      have hcolon : (58 : CodePoint) ∈ C.networkId := not_not.mp fun hn => hgood ⟨hn, hlowerGenesis⟩
      obtain ⟨e, he⟩ := decodeHead_colon hcolon hline
      rw [hdecode] at he
      cases he

theorem links_recovered {C : StoreConfig} {tip : SafeTip} {files files' : StoreFiles} (hto : RecoversTo M C tip files files')
    {h : Nat} (hle : (h : Int) ≤ tip.safeHeight) {a b : Str} :
    Links M files' h a 0 b ↔ Links M files h a 0 b := by
  have hsame : ∀ k ≤ h, files'.lookup (.header k) = files.lookup (.header k) ∧
      files'.lookup (.block k) = files.lookup (.block k) := by
    intro k hk
    rw [hto.header, hto.block, if_neg (by omega), if_neg (by omega)]
    exact ⟨rfl, rfl⟩
  exact ⟨Links.congr hsame, Links.congr fun k hk => ⟨(hsame k hk).1.symm, (hsame k hk).2.symm⟩⟩

/-- A recovery to where the files were just recovered to leaves them. -/
theorem repeats_of_same_tip {o : Listing} {C : StoreConfig} {maxHeight : Option Int} {tip tip' : SafeTip}
    {files files' : StoreFiles} (hto : RecoversTo M C tip files files') (htip' : safeTip M C maxHeight files' = .ok tip')
    (hheight : tip'.safeHeight = tip.safeHeight) (hhash : tip'.currentHash = tip.currentHash)
    (hhead : tip.safeHeight = tip.headHeight → tip'.headHeight = tip.headHeight) :
    ∃ files'' r', recoverStore M o C maxHeight files' = (files'', .ok r') ∧ Same files'' files' ∧
      r'.height = tip.safeHeight ∧ r'.blockHash = tip.currentHash := by
  have hsameLine : recoveredLine C tip' = recoveredLine C tip := by rw [recoveredLine, recoveredLine, hheight, hhash]
  have hrewritten : tip'.safeHeight ≠ tip'.headHeight →
      ∃ line, recoveredLine C tip' = .ok line ∧ files'.lookup .head = some line := by
    intro hne
    have htipNe : tip.safeHeight ≠ tip.headHeight := fun h => hne (by rw [hheight, hhead h, h])
    have := hto.head
    rw [if_neg htipNe] at this
    rwa [hsameLine]
  obtain ⟨files'', r', hrun, hto', hr'height, hr'hash⟩ := recoverStore_returns o htip'
    fun hne => (hrewritten hne).imp fun _ h => h.1
  refine ⟨files'', r', hrun, fun p => ?_, by rw [hr'height, hheight], by rw [hr'hash, hhash]⟩
  have hentries : storedEntries M files' tip.safeHeight = storedEntries M files tip.safeHeight :=
    storedEntries_congr fun k hk => by rw [hto.block, if_neg (by omega)]
  have hindex : ∀ {path fields}, files'.lookup path = recoveredIndex M tip.safeHeight files path fields →
      recoveredIndex M tip.safeHeight files' path fields = files'.lookup path := by
    intro path fields hpath
    rw [recoveredIndex, hentries]
    split
    · rfl
    · rename_i hne
      rw [hpath, recoveredIndex, if_neg hne]
  cases p with
  | header k => rw [hto'.header, hto.header, hheight]; split <;> rfl
  | block k => rw [hto'.block, hto.block, hheight]; split <;> rfl
  | state k => rw [hto'.state, hto.state, hheight]; split <;> rfl
  | stateMeta k =>
    rw [hto'.stateMeta, hheight, hto.state, if_neg]
    rintro ⟨hlt, hne⟩
    exact hne (if_pos hlt)
  | head =>
    have := hto'.head
    split at this
    · exact this
    · rename_i hne
      obtain ⟨line, hline, hhead⟩ := hrewritten hne
      obtain ⟨line', hline', hhead'⟩ := this
      rw [hline] at hline'
      cases hline'
      rw [hhead, hhead']
  | heightToHash => rw [hto'.heightToHash, hheight, hindex hto.heightToHash]
  | hashToHeight => rw [hto'.hashToHeight, hheight, hindex hto.hashToHeight]
  | journal => exact hto'.journal
  | tmpHeader k => exact hto'.tmpHeader k
  | tmpBlock k => exact hto'.tmpBlock k
  | tmpState k => exact hto'.tmpState k

theorem lastCommit_recovered {C : StoreConfig} {tip : SafeTip} {files files' : StoreFiles}
    (hto : RecoversTo M C tip files files') : readLastCommitHeight M files' = readLastCommitHeight M files := by
  rw [readLastCommitHeight, readLastCommitHeight, hto.journal]

theorem boundHeight_cases (maxHeight : Option Int) (h : Int) :
    boundHeight maxHeight h = h ∨ ∃ m, maxHeight = some m ∧ m < h ∧ boundHeight maxHeight h = m := by
  unfold boundHeight
  split
  · rename_i m
    split
    · rename_i hlt
      exact .inr ⟨m, rfl, hlt, rfl⟩
    · exact .inl rfl
  · exact .inl rfl

/-- Bounding a height that was bounded and lowered. -/
theorem boundHeight_again {maxHeight : Option Int} {x y : Int} {n : Nat} (h : y ≤ boundHeight maxHeight (min x n)) :
    boundHeight maxHeight (min y n) = y := by
  have hle := boundHeight_le maxHeight (min x n)
  have hmin : min y (n : Int) = y := by omega
  rw [hmin]
  rcases boundHeight_cases maxHeight y with heq | ⟨m, rfl, hlt, -⟩
  · exact heq
  · rcases boundHeight_cases (some m) (min x n) with heq | ⟨m', hm, -, heq⟩
    · rw [heq] at h hle
      unfold boundHeight at heq
      dsimp only at heq
      split at heq
      · omega
      · omega
    · cases hm
      omega

/-- The bounded height when HEAD counts as genesis. -/
theorem boundHeight_zero {maxHeight : Option Int} {x safe : Int} {n : Nat}
    (hsafe : safe = boundHeight maxHeight (min x n) ∨ 0 ≤ safe ∧ safe < boundHeight maxHeight (min x n)) (hne : safe ≠ x) :
    boundHeight maxHeight (min 0 n) = safe ↔ safe ≤ 0 := by
  have hmin : min (0 : Int) n = 0 := by omega
  rw [hmin]
  unfold boundHeight at hsafe ⊢
  split
  · rename_i m
    dsimp only at hsafe
    split at hsafe <;> split <;> omega
  · dsimp only at hsafe
    omega

/-- The walk that ends at HEAD has left no block out. -/
theorem WalkEnds.kept {C : StoreConfig} {files : StoreFiles} {start : RecoveryStart} {hash : Str}
    (h : WalkEnds M C files start start.headHeight hash) (hle : start.height ≤ start.headHeight) :
    start.height = start.headHeight ∧ Links M files start.height.toNat start.hash 0 hash := by
  rcases h with ⟨hl, heq⟩ | ⟨k, p, hl, -, heq, -⟩
  · exact ⟨heq.symm, hl⟩
  · have := hl.le
    omega

theorem links_zero {files : StoreFiles} {h : Int} {a b : Str} (hh : h ≤ 0) (hl : Links M files h.toNat a 0 b) : b = a := by
  have hzero : h.toNat = 0 := by omega
  rw [hzero] at hl
  cases hl
  rfl

/-- With a HEAD line that can be read, the second walk starts where the first ended. -/
theorem steady_readable {C : StoreConfig} {files : StoreFiles} {start : RecoveryStart} {safe : Int} {hash : Str}
    (hends : WalkEnds M C files start safe hash) (hne : safe ≠ start.headHeight) (hcolon : (58 : CodePoint) ∉ C.networkId) :
    Steady M C files start ↔ Links M files safe.toNat hash 0 hash := by
  constructor
  · rintro (⟨heq, hl⟩ | ⟨hle, -⟩ | ⟨hl, hbroken⟩ | ⟨-, -, hends', hl⟩)
    · exact absurd ((hends.unique (.inl ⟨hl, rfl⟩)).1.trans heq) hne
    · have hzero : safe.toNat = 0 := by
        have := hends.le
        omega
      rw [hzero]
      exact .refl _ _
    · obtain ⟨rfl, -⟩ := hends.unique (.inr ⟨0, _, hl, hbroken, rfl, rfl⟩)
      exact .refl _ _
    · obtain ⟨rfl, rfl⟩ := hends.unique hends'
      exact hl
  · intro hl
    by_cases hpos : 0 < safe
    · obtain ⟨s, rfl⟩ : ∃ s : Nat, safe = s := ⟨safe.toNat, by omega⟩
      exact .cycle hcolon (by omega) hends hl
    · rcases hends with ⟨-, rfl⟩ | ⟨k, p, hk, hbroken, rfl, -⟩
      · exact .nothing (by omega) (.inl hcolon)
      · obtain rfl : k = 0 := by omega
        exact .first hk hbroken

/-- With one that cannot, the second walk starts at genesis. -/
theorem steady_unreadable {C : StoreConfig} {files : StoreFiles} {start : RecoveryStart} {safe : Int} {hash : Str}
    (hends : WalkEnds M C files start safe hash) (hne : safe ≠ start.headHeight)
    (hbad : (58 : CodePoint) ∈ C.networkId ∨ start.height ≤ 0 ∧ start.hash = C.genesisHash) :
    Steady M C files start ↔ safe ≤ 0 ∧ hash = C.genesisHash := by
  constructor
  · rintro (⟨heq, hl⟩ | ⟨hle, hor⟩ | ⟨hl, hbroken⟩ | ⟨hcolon, hpos, hends', hl⟩)
    · exact absurd ((hends.unique (.inl ⟨hl, rfl⟩)).1.trans heq) hne
    · rcases hends with ⟨hl, rfl⟩ | ⟨k, p, hl, -, rfl, hgenesis⟩
      · rw [links_zero hle hl]
        refine ⟨hle, ?_⟩
        rcases hbad with hbad | ⟨-, hbad⟩
        · exact hor.resolve_left (not_not.mpr hbad)
        · exact hbad
      · have := hl.le
        omega
    · obtain ⟨rfl, rfl⟩ := hends.unique (.inr ⟨0, _, hl, hbroken, rfl, rfl⟩)
      exact ⟨by simp, rfl⟩
    · rcases hbad with hbad | ⟨hle, -⟩
      · exact absurd hbad hcolon
      · have := hends'.le
        omega
  · rintro ⟨hsafe, hgenesis⟩
    rcases hends with ⟨hl, rfl⟩ | ⟨k, p, hl, hbroken, rfl, -⟩
    · exact .nothing hsafe (.inr (by rw [← links_zero hsafe hl, hgenesis]))
    · obtain rfl : k = 0 := by omega
      exact .first hl hbroken

/-- **When recovery is idempotent.** -/
theorem recover_idempotent_iff {o o' : Listing} {C : StoreConfig} {maxHeight : Option Int} {files files' : StoreFiles}
    {r : Recovered} {start : RecoveryStart} (hrun : recoverStore M o C maxHeight files = (files', .ok r))
    (hstart : recoveryStart M C maxHeight files = .ok start) :
    Repeats M o' C maxHeight files' r ↔ Steady M C files start := by
  obtain ⟨start₁, tip, hstart₁, -, htipHead, hends, hto, hheight, hhash⟩ := recoverStore_ok hrun
  obtain rfl : start₁ = start := Except.ok.inj (hstart₁.symm.trans hstart)
  obtain ⟨start', tip', hstart', htip', htipHead', hends'⟩ := safeTip_spec (M := M) C maxHeight files'
  obtain ⟨hread, hbound⟩ := recoveryStart_ok hstart
  obtain ⟨hread', hbound'⟩ := recoveryStart_ok hstart'
  rw [lastCommit_recovered hto] at hbound'
  have hheadSame : tip.safeHeight = tip.headHeight → start'.headHeight = start₁.headHeight ∧ start'.hash = start₁.hash := by
    intro heq
    have hhead := hto.head
    rw [if_pos heq] at hhead
    rw [readHead, hhead, ← readHead, hread] at hread'
    obtain ⟨hheight, hhash⟩ := Prod.mk.inj (Except.ok.inj hread')
    exact ⟨hheight.symm, hhash.symm⟩
  -- the second recovery repeats the first when it decides on the same tip
  have hrepeats : Repeats M o' C maxHeight files' r ↔
      tip'.safeHeight = tip.safeHeight ∧ tip'.currentHash = tip.currentHash := by
    constructor
    · rintro ⟨files'', r', hrun', -, hsameHeight, hsameHash⟩
      obtain ⟨-, tip₂, -, htip₂, -, -, -, hheight₂, hhash₂⟩ := recoverStore_ok hrun'
      obtain rfl : tip₂ = tip' := Except.ok.inj (htip₂.symm.trans htip')
      exact ⟨by rw [← hheight₂, hsameHeight, hheight], by rw [← hhash₂, hsameHash, hhash]⟩
    · rintro ⟨hsameHeight, hsameHash⟩
      obtain ⟨files'', r', hrun', hsame, hheight', hhash'⟩ := repeats_of_same_tip (o := o') hto htip' hsameHeight hsameHash
        fun heq => by rw [htipHead', (hheadSame heq).1, htipHead]
      exact ⟨files'', r', hrun', hsame, by rw [hheight', hheight], by rw [hhash', hhash]⟩
  rw [hrepeats]
  have hstartLe : start₁.height ≤ start₁.headHeight := by
    have := boundHeight_le maxHeight (min start₁.headHeight (readLastCommitHeight M files))
    omega
  by_cases hkept : tip.safeHeight = tip.headHeight
  · -- HEAD stays, and with it everything the second run reads
    obtain ⟨hheadHeight, hheadHash⟩ := hheadSame hkept
    rw [hheadHeight, ← hbound] at hbound'
    rw [hkept, htipHead] at hends
    obtain ⟨hfull, hl⟩ := hends.kept hstartLe
    have hl' : WalkEnds M C files' start' tip.safeHeight tip.currentHash := by
      refine .inl ⟨?_, by rw [hbound', hkept, htipHead, hfull]⟩
      rw [hbound', hheadHash]
      by_cases hpos : 0 ≤ start₁.height
      · exact (links_recovered hto (by omega)).mpr hl
      · have hzero : start₁.height.toNat = 0 := by omega
        rw [links_zero (by omega) hl, hzero]
        exact .refl _ _
    exact iff_of_true (hends'.unique hl') (.intact hfull hl)
  · have hne : tip.safeHeight ≠ start₁.headHeight := by rwa [← htipHead]
    have hheadLine := hto.head
    rw [if_neg hkept] at hheadLine
    obtain ⟨line, hline, hheadLine⟩ := hheadLine
    have hlower : isLowerHash C.genesisHash = true → isLowerHash tip.currentHash = true := by
      intro hgenesis
      have hstartLower : isLowerHash start₁.hash = true := by
        rcases readHead_ok hread with ⟨-, heq⟩ | ⟨_, head, -, hdecode, -, -, heq⟩
        · rwa [heq]
        · rw [← heq]
          exact (decodeHead_hashes hdecode).1
      rcases hends with ⟨hl, -⟩ | ⟨_, _, -, -, -, heq⟩
      · exact hl.lower hstartLower
      · rwa [heq]
    rw [readHead_recovered hline hheadLine hlower] at hread'
    have hle : tip.safeHeight = boundHeight maxHeight (min start₁.headHeight (readLastCommitHeight M files)) ∨
        0 ≤ tip.safeHeight ∧ tip.safeHeight < boundHeight maxHeight (min start₁.headHeight (readLastCommitHeight M files)) := by
      rw [← hbound]
      exact hends.le
    by_cases hgood : (58 : CodePoint) ∉ C.networkId ∧ isLowerHash C.genesisHash = true
    · rw [if_pos hgood] at hread'
      obtain ⟨hheadHeight, hheadHash⟩ := Prod.mk.inj (Except.ok.inj hread')
      rw [← hheadHeight, @boundHeight_again maxHeight start₁.headHeight tip.safeHeight _ (by omega)] at hbound'
      rw [steady_readable hends hne hgood.1]
      have hlinks : Links M files' start'.height.toNat start'.hash 0 tip.currentHash ↔
          Links M files tip.safeHeight.toNat tip.currentHash 0 tip.currentHash := by
        rw [hbound', ← hheadHash]
        by_cases hpos : 0 ≤ tip.safeHeight
        · exact links_recovered hto (by omega)
        · have hzero : tip.safeHeight.toNat = 0 := by omega
          rw [hzero]
          exact iff_of_true (.refl _ _) (.refl _ _)
      rw [← hlinks]
      constructor
      · rintro ⟨hsameHeight, hsameHash⟩
        rcases hends' with ⟨hl, -⟩ | ⟨k, p, hl, -, heq, -⟩
        · rwa [hsameHash] at hl
        · have := hl.le
          omega
      · exact fun hl => hends'.unique (.inl ⟨hl, hbound'.symm⟩)
    · rw [if_neg hgood] at hread'
      obtain ⟨hheadHeight, hheadHash⟩ := Prod.mk.inj (Except.ok.inj hread')
      rw [← hheadHeight] at hbound'
      have hzeroLe := boundHeight_le maxHeight (min 0 (readLastCommitHeight M files))
      have hbad : (58 : CodePoint) ∈ C.networkId ∨ start₁.height ≤ 0 ∧ start₁.hash = C.genesisHash := by
        by_cases hcolon : (58 : CodePoint) ∈ C.networkId
        · exact .inl hcolon
        · rcases readHead_ok hread with ⟨hzero, heq⟩ | ⟨_, head, -, hdecode, hgenesis, -⟩
          · exact .inr ⟨by omega, heq⟩
          · exact absurd ⟨hcolon, hgenesis ▸ (decodeHead_hashes hdecode).2⟩ hgood
      rw [steady_unreadable hends hne hbad, ← boundHeight_zero hle hne]
      have hwalk : WalkEnds M C files' start' (boundHeight maxHeight (min 0 (readLastCommitHeight M files))) C.genesisHash := by
        refine .inl ⟨?_, hbound'.symm⟩
        have hzero : start'.height.toNat = 0 := by omega
        rw [hzero, ← hheadHash]
        exact .refl _ _
      obtain ⟨hheight', hhash'⟩ := hends'.unique hwalk
      rw [hheight', hhash', eq_comm (a := C.genesisHash)]

theorem recover_idempotent_empty : ∃ files' r,
    recoverStore plainRuntime plainListing plainConfig none ∅ = (files', .ok r) ∧
      Repeats plainRuntime plainListing plainConfig none files' r :=
  ⟨_, _, rfl, (@recover_idempotent_iff plainRuntime plainListing plainListing plainConfig none ∅ _ _ ⟨0, 0, zeroHash⟩ rfl rfl).mpr (.nothing (Int.le_refl 0) (.inr rfl))⟩

/-- HEAD and the journal of two blocks, without the blocks. -/
def lostBlocks : Except PyErr StoreFiles := do
  let line ← headLine ⟨2, aHash, plainConfig.networkId, plainConfig.genesisHash, STORAGE_FORMAT_VERSION⟩
  let journal ← journalAppend plainRuntime.toPrimitives [] JOURNAL_COMMIT 2 []
  .ok (((∅ : StoreFiles).insert .head line).insert .journal journal)

/-- The heights that two recoveries return. -/
def recoverTwice (files : StoreFiles) : Except PyErr (Int × Int) := do
  let r ← (recoverStore plainRuntime plainListing plainConfig none files).2
  let r' ← (recoverStore plainRuntime plainListing plainConfig none
    (recoverStore plainRuntime plainListing plainConfig none files).1).2
  .ok (r.height, r'.height)

set_option maxRecDepth 100000 in
theorem lostBlocks_twice : okEq (lostBlocks >>= recoverTwice) (1, 0) = true := by decide +kernel

/-- Without its blocks, a store loses one height at each recovery. -/
theorem recover_again_differs : ¬ ∀ (M : Runtime) (o o' : Listing) (C : StoreConfig) (maxHeight : Option Int)
    (files files' : StoreFiles) (r : Recovered), recoverStore M o C maxHeight files = (files', .ok r) →
      Repeats M o' C maxHeight files' r := by
  intro h
  obtain ⟨files, -, htwice⟩ := bind_eq_ok.mp (of_okEq lostBlocks_twice)
  obtain ⟨r, hr, htwice⟩ := bind_eq_ok.mp htwice
  obtain ⟨r', hr', htwice⟩ := bind_eq_ok.mp htwice
  obtain ⟨hheight, hheight'⟩ := Prod.mk.inj (Except.ok.inj htwice)
  obtain ⟨files'', r'', hrun, -, hsame, -⟩ := h plainRuntime plainListing plainListing plainConfig none files _ r
    (Prod.ext rfl hr)
  rw [hrun] at hr'
  cases hr'
  rw [hsame, hheight] at hheight'
  exact absurd hheight' (by decide)

end

end ChainBreaker
