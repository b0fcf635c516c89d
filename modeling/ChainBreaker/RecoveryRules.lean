import ChainBreaker.Recovery

/-!
# What recovery leaves behind

A HEAD of another network is never refused. The files after a recovery follow
from the files before it and the tip that the reads decide on (`RecoversTo`).
-/

namespace ChainBreaker

open Fallible FileSteps

section
variable {M : Runtime}

/-! ## A HEAD of another network -/

abbrev NotRecoveryError (e : PyErr) : Prop := e.kind ≠ .recoveryError

theorem fails_exceptValue {α : Type} (x : Except PyErr α) (a : α) :
    FailsOnly NotRecoveryError (exceptKinds ErrKind.isValueError x a) := by
  unfold exceptKinds
  split
  · exact failsOnly_of_ok ⟨_, rfl⟩
  · split
    · exact failsOnly_of_ok ⟨_, rfl⟩
    · rename_i hvalue
      exact failsOnly_error fun hkind => hvalue (by rw [hkind]; rfl)

theorem fails_headLine (head : Head) : FailsOnly NotRecoveryError (headLine head) := by
  have hpad : ∀ width n, FailsOnly NotRecoveryError (padInt width n) := by
    intro width n
    unfold padInt
    dsimp only
    split
    · exact failsOnly_error (by decide)
    · split
      · exact failsOnly_of_ok ⟨_, rfl⟩
      · exact failsOnly_of_ok ⟨_, rfl⟩
  refine (hpad _ _).bind fun _ _ => (hpad _ _).bind fun _ _ => ?_
  unfold encodeUtf8
  split
  · exact failsOnly_error fun hkind => by cases hkind
  · exact failsOnly_of_ok ⟨_, rfl⟩

theorem fails_indexEntries (files : StoreFiles) (height : Int) :
    FailsOnly NotRecoveryError (indexEntries M ErrKind.isValueError files height) :=
  (failsOnly_collect fun _ _ => fails_exceptValue _ _).bind fun _ _ => failsOnly_of_ok ⟨_, rfl⟩

theorem fails_recoverSteps {o : Listing} {C : StoreConfig} {tip : SafeTip} {files : StoreFiles} :
    FailsOnly NotRecoveryError (exec files (recoverSteps M o C tip files)) := by
  apply exec_fails
  intro st hst u
  simp only [recoverSteps, List.mem_append, List.mem_map] at hst
  rcases hst with ⟨p, -, rfl⟩ | hst | hst
  · exact failsOnly_of_ok ⟨none, rfl⟩
  · split at hst
    · rw [List.mem_singleton.mp hst]
      intro e he
      cases hline : headLine ⟨tip.safeHeight, tip.currentHash, C.networkId, C.genesisHash, STORAGE_FORMAT_VERSION⟩ with
      | ok line => rw [headWrite, Step.write, hline] at he; cases he
      | error e' =>
        rw [headWrite, Step.write, hline] at he
        cases he
        exact fails_headLine _ _ hline
    · cases hst
  · simp only [recoverIndexSteps, List.mem_cons, List.not_mem_nil, or_false] at hst
    rcases hst with rfl | rfl
    · exact (fails_indexEntries _ _).bind fun _ _ => failsOnly_of_ok ⟨_, rfl⟩
    · exact (fails_indexEntries _ _).bind fun _ _ => failsOnly_of_ok ⟨_, rfl⟩

theorem recoverStore_fails (o : Listing) (C : StoreConfig) (maxHeight : Option Int) (files : StoreFiles) :
    FailsOnly NotRecoveryError (recoverStore M o C maxHeight files).2 := by
  obtain ⟨_, tip, -, htip, -⟩ := safeTip_spec (M := M) C maxHeight files
  unfold recoverStore
  rw [htip]
  exact fails_recoverSteps.bind fun _ _ => (fails_indexEntries _ _).bind fun _ _ => failsOnly_of_ok ⟨_, rfl⟩

/-- The store is opened and refused, with its files as they were. -/
def RefusedUnharmed (M : Runtime) (o : Listing) (C : StoreConfig) (maxHeight : Option Int) (files : StoreFiles) : Prop :=
  (∃ e, (recoverStore M o C maxHeight files).2 = .error e ∧ e.kind = .recoveryError) ∧
    Same (recoverStore M o C maxHeight files).1 files

/-- HEAD can be read, and names another genesis or another network. -/
def OtherNetwork (C : StoreConfig) (files : StoreFiles) : Prop :=
  ∃ data head, files.lookup .head = some data ∧ decodeHead data = .ok head ∧
    (head.genesisHash ≠ C.genesisHash ∨ head.networkId ≠ C.networkId)

/-- **No refusal.** A HEAD of another network is never refused: the error is
raised where every `ValueError` counts as damage, and the network id is not
looked at. -/
theorem other_network_not_refused {o : Listing} {C : StoreConfig} {maxHeight : Option Int} {files : StoreFiles}
    (_ : OtherNetwork C files) : ¬ RefusedUnharmed M o C maxHeight files := by
  rintro ⟨⟨e, he, hkind⟩, -⟩
  exact recoverStore_fails o C maxHeight files e he hkind

def plainRuntime : Runtime where
  toPrimitives := { recorded [] with floatRepr := fun _ => ascii "0.0" }
  floatOf := fun _ => 0

def plainConfig : StoreConfig := ⟨str "t", zeroHash⟩

def plainListing : Listing := ⟨id, id, fun l => .refl l, fun l => .refl l⟩

/-- 64 times the digit a. -/
def aHash : Str := List.replicate 64 97

/-- HEAD of a store with another genesis. -/
def foreignHead : Head := ⟨1, aHash, str "t", aHash, STORAGE_FORMAT_VERSION⟩

theorem foreignHead_store : ∃ files, OtherNetwork plainConfig files := by
  obtain ⟨line, hline, -⟩ := of_okAnd (show okAnd (fun _ => true) (headLine foreignHead) = true by decide +kernel)
  have hdecode : decodeHead line = .ok foreignHead :=
    decodeHead_headLine (by decide) (by decide) (by decide) hline
  exact ⟨(∅ : StoreFiles).insert .head line, line, foreignHead, AList.lookup_insert _, hdecode, .inl (by decide)⟩

theorem other_network_not_refused_foreign :
    ∃ files, ¬ RefusedUnharmed plainRuntime plainListing plainConfig none files := by
  obtain ⟨files, hother⟩ := foreignHead_store
  exact ⟨files, other_network_not_refused hother⟩

theorem other_network_recovered : ¬ ∀ (M : Runtime) (o : Listing) (C : StoreConfig) (maxHeight : Option Int)
    (files : StoreFiles), OtherNetwork C files → RefusedUnharmed M o C maxHeight files := by
  intro h
  obtain ⟨files, hother⟩ := foreignHead_store
  obtain ⟨⟨e, he, hkind⟩, -⟩ := h plainRuntime plainListing plainConfig none files hother
  exact recoverStore_fails _ _ _ _ e he hkind

/-! ## The files after a recovery -/

/-- The line that a recovery writes to HEAD. -/
def recoveredLine (C : StoreConfig) (tip : SafeTip) : Except PyErr Bytes :=
  headLine ⟨tip.safeHeight, tip.currentHash, C.networkId, C.genesisHash, STORAGE_FORMAT_VERSION⟩

/-- What an index step makes of its file. -/
def recoveredIndex (M : Runtime) (safeHeight : Int) (files : StoreFiles) (path : StorePath)
    (fields : List (Nat × Str) → Fields) : Option Bytes :=
  if (storedEntries M files safeHeight).isEmpty then files.lookup path
  else some (dumpsIndented M.floatRepr (fields (storedEntries M files safeHeight)))

theorem recoveredIndex_congr {safeHeight : Int} {files files' : StoreFiles} {path : StorePath}
    {fields : List (Nat × Str) → Fields}
    (h : ∀ k : Nat, (k : Int) ≤ safeHeight → files.lookup (.block k) = files'.lookup (.block k))
    (hpath : files.lookup path = files'.lookup path) :
    recoveredIndex M safeHeight files path fields = recoveredIndex M safeHeight files' path fields := by
  rw [recoveredIndex, recoveredIndex, storedEntries_congr h, hpath]

structure RecoversTo (M : Runtime) (C : StoreConfig) (tip : SafeTip) (files files' : StoreFiles) : Prop where
  header : ∀ h : Nat, files'.lookup (.header h) = if tip.safeHeight < h then none else files.lookup (.header h)
  block : ∀ h : Nat, files'.lookup (.block h) = if tip.safeHeight < h then none else files.lookup (.block h)
  state : ∀ h : Nat, files'.lookup (.state h) = if tip.safeHeight < h then none else files.lookup (.state h)
  stateMeta : ∀ h : Nat, files'.lookup (.stateMeta h) =
    if tip.safeHeight < h ∧ files.lookup (.state h) ≠ none then none else files.lookup (.stateMeta h)
  head : if tip.safeHeight = tip.headHeight then files'.lookup .head = files.lookup .head
    else ∃ line, recoveredLine C tip = .ok line ∧ files'.lookup .head = some line
  heightToHash : files'.lookup .heightToHash =
    recoveredIndex M tip.safeHeight files .heightToHash heightToHashFields
  hashToHeight : files'.lookup .hashToHeight =
    recoveredIndex M tip.safeHeight files .hashToHeight hashToHeightFields
  journal : files'.lookup .journal = files.lookup .journal
  tmpHeader : ∀ h, files'.lookup (.tmpHeader h) = files.lookup (.tmpHeader h)
  tmpBlock : ∀ h, files'.lookup (.tmpBlock h) = files.lookup (.tmpBlock h)
  tmpState : ∀ h, files'.lookup (.tmpState h) = files.lookup (.tmpState h)

theorem mem_heightsAbove {safeHeight : Int} {heights : List Nat} {h : Nat} :
    h ∈ heightsAbove safeHeight heights ↔ h ∈ heights ∧ safeHeight < h := by
  rw [heightsAbove, List.mem_filter, decide_eq_true_eq]

theorem mem_rollbackPaths {o : Listing} {safeHeight : Int} {files : StoreFiles} {p : StorePath} :
    p ∈ rollbackPaths o safeHeight files ↔ ∃ h : Nat, safeHeight < h ∧
      ((p = .header h ∧ files.lookup (.header h) ≠ none) ∨ (p = .block h ∧ files.lookup (.block h) ≠ none) ∨
        ((p = .state h ∨ p = .stateMeta h) ∧ files.lookup (.state h) ≠ none)) := by
  have hscan : ∀ {directory : Nat → StorePath} (_ : ∀ h, (directory h).fileHeight = some h) (h : Nat),
      h ∈ scanHeightFiles directory files ↔ files.lookup (directory h) ≠ none := by
    intro directory hdir h
    rw [mem_scanHeightFiles hdir, Option.ne_none_iff_exists']
  have hheader := @hscan .header fun _ => rfl
  have hblock := @hscan .block fun _ => rfl
  have hstate := @hscan .state fun _ => rfl
  simp only [rollbackPaths, List.mem_append, List.mem_map, List.mem_flatMap, List.mem_cons, List.not_mem_nil, or_false,
    mem_heightsAbove, (o.sets_perm _).mem_iff, (o.glob_perm _).mem_iff, hheader, hblock, hstate]
  constructor
  · rintro ((⟨h, ⟨hp, hlt⟩, rfl⟩ | ⟨h, ⟨hp, hlt⟩, rfl⟩) | ⟨h, ⟨hp, hlt⟩, hstate⟩)
    · exact ⟨h, hlt, .inl ⟨rfl, hp⟩⟩
    · exact ⟨h, hlt, .inr (.inl ⟨rfl, hp⟩)⟩
    · exact ⟨h, hlt, .inr (.inr ⟨hstate, hp⟩)⟩
  · rintro ⟨h, hlt, ⟨rfl, hp⟩ | ⟨rfl, hp⟩ | ⟨hstate, hp⟩⟩
    · exact .inl (.inl ⟨h, ⟨hp, hlt⟩, rfl⟩)
    · exact .inl (.inr ⟨h, ⟨hp, hlt⟩, rfl⟩)
    · exact .inr ⟨h, ⟨hp, hlt⟩, hstate⟩

theorem exec_indexSteps (safeHeight : Int) (files : StoreFiles) :
    exec files (recoverIndexSteps M safeHeight) = .ok
      (put (put files .heightToHash (recoveredIndex M safeHeight files .heightToHash heightToHashFields))
        .hashToHeight (recoveredIndex M safeHeight files .hashToHeight hashToHeightFields)) := by
  have hcontent : ∀ (u : StoreFiles) (path : StorePath) (fields : List (Nat × Str) → Fields),
      (indexEntries M ErrKind.isValueError u safeHeight >>= fun entries => Except.ok (if entries.isEmpty
        then u.lookup path else some (dumpsIndented M.floatRepr (fields entries)))) =
        .ok (recoveredIndex M safeHeight u path fields) := by
    intro u path fields
    rw [indexEntries_eq (fun _ h => h), ok_bind, recoveredIndex]
  have hsecond := @recoveredIndex_congr M safeHeight files
    (put files .heightToHash (recoveredIndex M safeHeight files .heightToHash heightToHashFields))
    .hashToHeight hashToHeightFields (fun k _ => by simp) (by simp)
  rw [recoverIndexSteps, exec_cons_ok]
  refine ⟨_, Step.run_eq_ok.mpr ⟨_, hcontent _ _ _, rfl⟩, ?_⟩
  rw [exec_cons_ok]
  exact ⟨_, Step.run_eq_ok.mpr ⟨_, hcontent _ _ _, rfl⟩, by rw [← hsecond]; rfl⟩

/-- The steps between the removals and the indexes. -/
theorem exec_headStep {C : StoreConfig} {tip : SafeTip} {files files' : StoreFiles} :
    exec files (if tip.safeHeight ≠ tip.headHeight then [headWrite C tip.safeHeight tip.currentHash] else []) =
        .ok files' ↔
      if tip.safeHeight = tip.headHeight then files' = files
      else ∃ line, recoveredLine C tip = .ok line ∧ files' = put files .head (some line) := by
  by_cases htip : tip.safeHeight = tip.headHeight
  · rw [if_neg (not_not.mpr htip), if_pos htip]
    exact ⟨fun h => by cases h; rfl, fun h => by rw [h]; rfl⟩
  · rw [if_pos htip, if_neg htip, exec_cons_ok]
    simp only [Step.run_eq_ok, headWrite, Step.write_content]
    constructor
    · rintro ⟨_, ⟨_, ⟨line, hline, rfl⟩, rfl⟩, h⟩
      cases h
      exact ⟨line, hline, rfl⟩
    · rintro ⟨line, hline, rfl⟩
      exact ⟨_, ⟨_, ⟨line, hline, rfl⟩, rfl⟩, rfl⟩

/-- **What a recovery does.** -/
theorem exec_recoverSteps {o : Listing} {C : StoreConfig} {tip : SafeTip} {files files' : StoreFiles}
    (h : exec files (recoverSteps M o C tip files) = .ok files') : RecoversTo M C tip files files' := by
  obtain ⟨cut, hcut, hremoved⟩ := exec_unlink (ε := PyErr) (rollbackPaths o tip.safeHeight files) files
  rw [recoverSteps, exec_append_ok] at h
  obtain ⟨u, hu, h⟩ := h
  rw [hcut] at hu
  cases hu
  obtain ⟨headed, hheaded, h⟩ := exec_append_ok.mp h
  rw [exec_indexSteps, Except.ok.injEq] at h
  rw [exec_headStep] at hheaded
  -- a file that is removed when it is above the tip and there
  have hcutAbove : ∀ (p : StorePath) (k : Nat), (p ∈ rollbackPaths o tip.safeHeight files ↔
      tip.safeHeight < k ∧ files.lookup p ≠ none) → cut.lookup p = if tip.safeHeight < k then none else files.lookup p := by
    intro p k hp
    rw [hremoved]
    by_cases hk : tip.safeHeight < k
    · rw [if_pos hk]
      split
      · rfl
      · rename_i hmem
        exact not_not.mp fun hne => hmem (hp.mpr ⟨hk, hne⟩)
    · rw [if_neg hk, if_neg fun hmem => hk (hp.mp hmem).1]
  have hcutOther : ∀ p, p ∉ rollbackPaths o tip.safeHeight files → cut.lookup p = files.lookup p := fun p hp => by
    rw [hremoved, if_neg hp]
  have hhead : headed.lookup .head = cut.lookup .head ∧ tip.safeHeight = tip.headHeight ∨
      tip.safeHeight ≠ tip.headHeight ∧ ∃ line, recoveredLine C tip = .ok line ∧ headed.lookup .head = some line := by
    split at hheaded
    · rename_i htip
      exact .inl ⟨by rw [hheaded], htip⟩
    · rename_i htip
      obtain ⟨line, hline, rfl⟩ := hheaded
      exact .inr ⟨htip, line, hline, by simp⟩
  have hheadedOther : ∀ p, p ≠ .head → headed.lookup p = cut.lookup p := by
    intro p hp
    split at hheaded
    · rw [hheaded]
    · obtain ⟨line, -, rfl⟩ := hheaded
      rw [lookup_put, if_neg hp]
  have hother : ∀ p, p ≠ .head → p ≠ .heightToHash → p ≠ .hashToHeight → files'.lookup p = cut.lookup p := by
    intro p hhead hheight hhash
    rw [← h, lookup_put, if_neg hhash, lookup_put, if_neg hheight, hheadedOther p hhead]
  have hblocks : ∀ k : Nat, (k : Int) ≤ tip.safeHeight → headed.lookup (.block k) = files.lookup (.block k) := by
    intro k hk
    rw [hheadedOther _ (by simp), hcutOther]
    rw [mem_rollbackPaths]
    rintro ⟨k', hk', ⟨hp, -⟩ | ⟨hp, -⟩ | ⟨hp | hp, -⟩⟩ <;> cases hp
    omega
  refine ⟨fun k => ?_, fun k => ?_, fun k => ?_, fun k => ?_, ?_, ?_, ?_, ?_, fun k => ?_, fun k => ?_, fun k => ?_⟩
  · rw [hother _ (by simp) (by simp) (by simp)]
    exact hcutAbove _ k (by rw [mem_rollbackPaths]; simp)
  · rw [hother _ (by simp) (by simp) (by simp)]
    exact hcutAbove _ k (by rw [mem_rollbackPaths]; simp)
  · rw [hother _ (by simp) (by simp) (by simp)]
    exact hcutAbove _ k (by rw [mem_rollbackPaths]; simp)
  · rw [hother _ (by simp) (by simp) (by simp), hremoved]
    have hmem : .stateMeta k ∈ rollbackPaths o tip.safeHeight files ↔
        tip.safeHeight < k ∧ files.lookup (.state k) ≠ none := by
      rw [mem_rollbackPaths]
      simp
    simp only [hmem]
  · have hkept : files'.lookup .head = headed.lookup .head := by rw [← h]; simp
    have hcutHead := hcutOther .head (by rw [mem_rollbackPaths]; simp)
    rcases hhead with ⟨hsame, htip⟩ | ⟨htip, hline⟩
    · rw [if_pos htip, hkept, hsame, hcutHead]
    · rw [if_neg htip, hkept]
      exact hline
  · rw [← h, lookup_put, if_neg (by simp), lookup_put, if_pos rfl]
    exact recoveredIndex_congr hblocks (by rw [hheadedOther _ (by simp), hcutOther _ (by rw [mem_rollbackPaths]; simp)])
  · rw [← h, lookup_put, if_pos rfl]
    exact recoveredIndex_congr hblocks (by rw [hheadedOther _ (by simp), hcutOther _ (by rw [mem_rollbackPaths]; simp)])
  · rw [hother _ (by simp) (by simp) (by simp), hcutOther _ (by rw [mem_rollbackPaths]; simp)]
  · rw [hother _ (by simp) (by simp) (by simp), hcutOther _ (by rw [mem_rollbackPaths]; simp)]
  · rw [hother _ (by simp) (by simp) (by simp), hcutOther _ (by rw [mem_rollbackPaths]; simp)]
  · rw [hother _ (by simp) (by simp) (by simp), hcutOther _ (by rw [mem_rollbackPaths]; simp)]

theorem recoverStore_ok {o : Listing} {C : StoreConfig} {maxHeight : Option Int} {files files' : StoreFiles} {r : Recovered}
    (h : recoverStore M o C maxHeight files = (files', .ok r)) : ∃ start tip,
      recoveryStart M C maxHeight files = .ok start ∧ safeTip M C maxHeight files = .ok tip ∧
      tip.headHeight = start.headHeight ∧ WalkEnds M C files start tip.safeHeight tip.currentHash ∧
      RecoversTo M C tip files files' ∧ r.height = tip.safeHeight ∧ r.blockHash = tip.currentHash := by
  obtain ⟨start, tip, hstart, htip, hhead, hends⟩ := safeTip_spec (M := M) C maxHeight files
  unfold recoverStore at h
  rw [htip] at h
  obtain ⟨hfiles, hr⟩ := Prod.mk.inj h
  obtain ⟨u, hu, hr⟩ := bind_eq_ok.mp hr
  obtain ⟨entries, -, hr⟩ := bind_eq_ok.mp hr
  cases hr
  rw [interrupt_exec hu (Nat.le_refl _)] at hfiles
  subst hfiles
  exact ⟨start, tip, hstart, htip, hhead, hends, exec_recoverSteps hu, rfl, rfl⟩

theorem recoverStore_returns (o : Listing) {C : StoreConfig} {maxHeight : Option Int} {files : StoreFiles} {tip : SafeTip}
    (htip : safeTip M C maxHeight files = .ok tip)
    (hline : tip.safeHeight ≠ tip.headHeight → ∃ line, recoveredLine C tip = .ok line) :
    ∃ files' r, recoverStore M o C maxHeight files = (files', .ok r) ∧ RecoversTo M C tip files files' ∧
      r.height = tip.safeHeight ∧ r.blockHash = tip.currentHash := by
  obtain ⟨cut, hcut, -⟩ := exec_unlink (ε := PyErr) (rollbackPaths o tip.safeHeight files) files
  obtain ⟨headed, hheaded⟩ : ∃ headed, exec cut (if tip.safeHeight ≠ tip.headHeight
      then [headWrite C tip.safeHeight tip.currentHash] else []) = .ok headed := by
    simp only [exec_headStep]
    split
    · exact ⟨cut, rfl⟩
    · rename_i hne
      obtain ⟨line, hline⟩ := hline hne
      exact ⟨_, line, hline, rfl⟩
  have hexec : ∃ files', exec files (recoverSteps M o C tip files) = .ok files' :=
    ⟨_, exec_append_ok.mpr ⟨cut, hcut, exec_append_ok.mpr ⟨headed, hheaded, exec_indexSteps _ _⟩⟩⟩
  obtain ⟨files', hexec⟩ := hexec
  have hrun : ∃ r, recoverStore M o C maxHeight files = (files', .ok r) ∧ r.height = tip.safeHeight ∧
      r.blockHash = tip.currentHash := by
    unfold recoverStore
    rw [htip]
    dsimp only
    rw [interrupt_exec hexec (Nat.le_refl _), hexec, ok_bind, indexEntries_eq (fun _ h => h), ok_bind]
    exact ⟨_, rfl, rfl, rfl⟩
  obtain ⟨r, hr, hheight, hhash⟩ := hrun
  exact ⟨files', r, hr, exec_recoverSteps hexec, hheight, hhash⟩

/-! ## A store that holds a chain -/

/-- HEAD names a block, the blocks from it down to genesis are there, the
journal has its COMMIT, and nothing is stored above it. -/
structure Committed (M : Runtime) (C : StoreConfig) (files : StoreFiles) (height : Nat) (tipHash : Str) : Prop where
  tip : ∃ head, getTip C files = .ok head ∧ head.height = height ∧ head.blockHash = tipHash ∧
    head.genesisHash = C.genesisHash
  links : Links M files height tipHash 0 C.genesisHash
  commit : height ≤ readLastCommitHeight M files
  above : ∀ h > height, files.lookup (.header h) = none ∧ files.lookup (.block h) = none ∧
    files.lookup (.state h) = none ∧ files.lookup (.stateMeta h) = none

theorem readHead_tip {C : StoreConfig} {files : StoreFiles} {head : Head} (htip : getTip C files = .ok head)
    (hgenesis : head.genesisHash = C.genesisHash) : readHead C files = .ok (head.height, head.blockHash) := by
  cases hhead : files.lookup .head with
  | none =>
    rw [getTip, hhead] at htip
    cases htip
    rw [readHead, hhead]
  | some data =>
    rw [getTip, hhead] at htip
    exact readHead_of hhead htip hgenesis

/-- **A recovery of linked blocks** below a HEAD that names the highest of them,
whatever lies above, ends at HEAD. -/
theorem safeTip_linked {C : StoreConfig} {files : StoreFiles} {height : Nat} {head : Head} {tipHash : Str}
    (htip : getTip C files = .ok head) (hheight : head.height = height) (hhash : head.blockHash = tipHash)
    (hgenesis : head.genesisHash = C.genesisHash) (hl : Links M files height tipHash 0 C.genesisHash)
    (hcommit : height ≤ readLastCommitHeight M files) : ∃ tip, safeTip M C none files = .ok tip ∧
      tip.headHeight = height ∧ tip.safeHeight = height ∧ tip.currentHash = C.genesisHash := by
  obtain ⟨start, tip, hstart, hsafe, htipHead, hends⟩ := safeTip_spec (M := M) C none files
  obtain ⟨hread, hbound⟩ := recoveryStart_ok hstart
  rw [readHead_tip htip hgenesis, hheight, hhash] at hread
  obtain ⟨hheadHeight, hheadHash⟩ := Prod.mk.inj (Except.ok.inj hread)
  have hstartHeight : start.height = height := by
    rw [hbound, ← hheadHeight]
    exact Int.min_eq_left (by omega)
  have hwalk : WalkEnds M C files start height C.genesisHash := by
    refine .inl ⟨?_, hstartHeight.symm⟩
    rw [hstartHeight, ← hheadHash, Int.toNat_natCast]
    exact hl
  obtain ⟨hsafeHeight, hcurrent⟩ := hends.unique hwalk
  exact ⟨tip, hsafe, by rw [htipHead, hheadHeight], hsafeHeight, hcurrent⟩

end

end ChainBreaker
