import ChainBreaker.BranchSteps

/-!
# What is read from a tape

Of a store that holds a tape, the read operations give the blocks of the cells
(`Holds.readBlock_eq`, `Holds.readChain`), the indexes the current ones
(`Holds.heights_mem`, `Holds.hashes_mem`), and a snapshot is one of a current
block, or none, or refused (`Holds.readSnapshot_cases`).
-/

namespace ChainBreaker

open Fallible FileSteps

section
variable {M : Runtime} {C : StoreConfig} {files : StoreFiles} {t : Tape (KeptBlock M)} {k : KeptBlock M}

/-! ## Blocks -/

/-- The block as it is read back. -/
structure ReadBack (k : KeptBlock M) (block : BlockV2) : Prop where
  header : block.header = k.block.header.canonical
  transactions : loads M.floatOf (dumpsText M.floatRepr (.list k.block.transactions)) = .ok (.list block.transactions)
  hash : block.hash M.toPrimitives = .ok k.hash

theorem KeptAt.readBlock {cells : List (KeptBlock M)} {i : Nat} (hfl : FloatText M.floatRepr)
    (h : KeptAt M files cells i) (hk : cells[i]? = some k) :
    ∃ block, ChainBreaker.readBlock M files (i + 1) = .ok block ∧ ReadBack k block := by
  obtain ⟨ws, hws, hdecode, hhash⟩ := k.read hfl
  refine ⟨_, ?_, rfl, hws, hhash⟩
  rw [ChainBreaker.readBlock, h.block, hk, Option.map_some, orRaise, ok_bind, hdecode]

theorem Holds.readBlock_eq (hfl : FloatText M.floatRepr) (h : Holds M C files t) {i : Nat} (hk : t.cells[i]? = some k) :
    ∃ block, readBlock M files (i + 1) = .ok block ∧ ReadBack k block :=
  (h.at i).readBlock hfl hk

theorem Holds.readHeader_eq (h : Holds M C files t) {i : Nat} (hk : t.cells[i]? = some k) :
    readHeader files (i + 1) = .ok k.headerBytes := by
  rw [readHeader, (h.at i).header, hk, Option.map_some, orRaise, ok_bind,
    require_of _ (decode_headerBytes k.header_eq).1, ok_bind]

theorem Holds.listBlocks_eq (h : Holds M C files t) : listBlocks files = List.range' 1 t.cells.length := by
  have hperm : (listBlocks files).Perm (scanHeightFiles .block files) := List.perm_insertionSort _ _
  have hrange : (List.range' 1 t.cells.length).Pairwise (· ≤ ·) :=
    List.Pairwise.imp Nat.le_of_lt List.pairwise_lt_range'
  have hsorted : (listBlocks files).Pairwise (· ≤ ·) := List.pairwise_insertionSort _ _
  apply List.Perm.eq_of_pairwise' hsorted hrange
  rw [List.perm_ext_iff_of_nodup (hperm.nodup_iff.mpr (nodup_scanHeightFiles _ files)) List.nodup_range']
  intro n
  rw [hperm.mem_iff, @mem_scanHeightFiles .block fun _ => rfl, List.mem_range'_1]
  cases n with
  | zero => simp [h.block_zero]
  | succ i =>
    rw [(h.at i).block]
    constructor
    · rintro ⟨data, hdata⟩
      obtain ⟨k, hk, -⟩ := Option.map_eq_some_iff.mp hdata
      have := (List.getElem?_eq_some_iff.mp hk).1
      omega
    · intro hi
      rw [List.getElem?_eq_getElem (by omega)]
      exact ⟨_, rfl⟩

/-- Heights in turn, with what is read at each. -/
theorem collect_cells {f : Nat → Except PyErr BlockV2} : ∀ (ks : List (KeptBlock M)) (j : Nat),
    (∀ i k, ks[i]? = some k → ∃ block, f (j + i) = .ok block ∧ ReadBack k block) →
      ∃ blocks, collect f (List.range' j ks.length) = .ok blocks ∧ List.Forall₂ ReadBack ks blocks
  | [], _, _ => ⟨[], rfl, .nil⟩
  | k :: ks, j, h => by
    obtain ⟨block, hblock, hback⟩ := h 0 k rfl
    obtain ⟨blocks, hblocks, hbacks⟩ := collect_cells ks (j + 1) fun i x hx => by
      rw [Nat.add_assoc, Nat.add_comm 1 i]
      exact h (i + 1) x hx
    refine ⟨block :: blocks, ?_, .cons hback hbacks⟩
    rw [List.length_cons, List.range'_succ, collect, show j = j + 0 from rfl, hblock, ok_bind, hblocks, ok_bind]

theorem Holds.readChain (hfl : FloatText M.floatRepr) (h : Holds M C files t) (B : Builtins) {g : BlockV2}
    (hg : createGenesisBlock = .ok g) {n : Nat} (hn : n ≤ t.cells.length) : ∃ blocks,
      readChainUpTo M B files n = .ok (g :: blocks) ∧
      List.Forall₂ ReadBack (t.cells.take n) blocks := by
  obtain ⟨blocks, hblocks, hbacks⟩ := @collect_cells M (readCanonical M B files) (t.cells.take n) 1 fun i k hk => by
    have hi : i < n := by
      have := (List.getElem?_eq_some_iff.mp hk).1
      rw [List.length_take] at this
      omega
    rw [List.getElem?_take_of_lt hi] at hk
    obtain ⟨block, hblock, hback⟩ := h.readBlock_eq hfl hk
    rw [Nat.add_comm 1 i]
    exact ⟨block, by rw [readCanonical, if_neg (Nat.succ_ne_zero i), hblock], hback⟩
  refine ⟨blocks, ?_, hbacks⟩
  rw [List.length_take_of_le hn] at hblocks
  rw [readChainUpTo, show (((n : Nat) : Int) + 1).toNat = n + 1 by omega, List.range_eq_range', List.range'_succ,
    collect, readCanonical, if_pos rfl, hg, ok_bind, hblocks, ok_bind]

/-! ## Indexes -/

theorem mem_put_iff {d : Fields} {key : Str} {w : Json} {f : Str × Json} :
    f ∈ Fields.put d key w ↔ f = (key, w) ∨ (f ∈ d ∧ f.1 ≠ key) :=
  ⟨mem_put, fun h => h.elim (fun h => h ▸ put_mem d key w) fun h => put_mem_other h.1 h.2⟩

theorem natText_injective {m n : Nat} (h : natText m = natText n) : m = n := by
  rw [← natText_value m, h, natText_value]

theorem getElem?_concat {α : Type} {l : List α} {a x : α} {i : Nat} :
    (l ++ [a])[i]? = some x ↔ l[i]? = some x ∨ i = l.length ∧ x = a := by
  rcases Nat.lt_trichotomy i l.length with h | rfl | h
  · rw [List.getElem?_append_left h]
    exact ⟨.inl, fun hx => hx.elim id fun heq => absurd heq.1 (Nat.ne_of_lt h)⟩
  · simp [eq_comm]
  · rw [List.getElem?_eq_none (by simp; omega), List.getElem?_eq_none (Nat.le_of_lt h)]
    exact ⟨by rintro ⟨⟩, fun hx => hx.elim (by rintro ⟨⟩) fun heq => absurd heq.1 (Nat.ne_of_gt h)⟩

theorem heights_mem (ks : List (KeptBlock M)) (f : Str × Json) : f ∈ heightToHashFields (indexed ks) ↔
    ∃ i k, ks[i]? = some k ∧ f = (natText (i + 1), .str k.hash) := by
  induction ks using List.reverseRecOn with
  | nil => exact ⟨nofun, fun ⟨i, k, hk, _⟩ => by simp at hk⟩
  | append_singleton ks k ih =>
    rw [indexed_concat, heightToHash_concat, mem_put_iff, ih]
    simp only [getElem?_concat]
    constructor
    · rintro (rfl | ⟨⟨i, x, hx, rfl⟩, -⟩)
      · exact ⟨ks.length, k, .inr ⟨rfl, rfl⟩, rfl⟩
      · exact ⟨i, x, .inl hx, rfl⟩
    · rintro ⟨i, x, hx | ⟨rfl, rfl⟩, rfl⟩
      · refine .inr ⟨⟨i, x, hx, rfl⟩, fun heq => ?_⟩
        have hi := (List.getElem?_eq_some_iff.mp hx).1
        have := natText_injective heq
        omega
      · exact .inl rfl

/-- Of two blocks with one hash, the upper is indexed. -/
theorem hashes_mem (ks : List (KeptBlock M)) (f : Str × Json) : f ∈ hashToHeightFields (indexed ks) ↔
    ∃ i k, ks[i]? = some k ∧ f = (k.hash, .int (i + 1 : Nat)) ∧
      ∀ j k', i < j → ks[j]? = some k' → k'.hash ≠ k.hash := by
  induction ks using List.reverseRecOn with
  | nil => exact ⟨nofun, fun ⟨i, k, hk, _⟩ => by simp at hk⟩
  | append_singleton ks k ih =>
    rw [indexed_concat, hashToHeight_concat, mem_put_iff, ih]
    simp only [getElem?_concat]
    constructor
    · rintro (rfl | ⟨⟨i, x, hx, rfl, hlast⟩, hne⟩)
      · refine ⟨ks.length, k, .inr ⟨rfl, rfl⟩, rfl, ?_⟩
        rintro j k' hj (hk' | ⟨rfl, -⟩)
        · have := (List.getElem?_eq_some_iff.mp hk').1
          omega
        · omega
      · refine ⟨i, x, .inl hx, rfl, ?_⟩
        rintro j k' hj (hk' | ⟨-, rfl⟩)
        · exact hlast j k' hj hk'
        · exact Ne.symm hne
    · rintro ⟨i, x, hx | ⟨rfl, rfl⟩, rfl, hlast⟩
      · refine .inr ⟨⟨i, x, hx, rfl, fun j k' hj hk' => hlast j k' hj (.inl hk')⟩, ?_⟩
        exact (hlast ks.length k (List.getElem?_eq_some_iff.mp hx).1 (.inr ⟨rfl, rfl⟩)).symm
      · exact .inl rfl

/-- The indexes as they are read. -/
theorem Holds.readIndexes (h : Holds M C files t) : ∃ heights hashes,
    readIndexJson M files .heightToHash = .ok (.dict heights) ∧
    readIndexJson M files .hashToHeight = .ok (.dict hashes) ∧
      (∀ f, f ∈ heights ↔ f ∈ heightToHashFields (indexed t.current)) ∧
      (∀ f, f ∈ hashes ↔ f ∈ hashToHeightFields (indexed t.current)) ∧
      (heights.map Prod.fst).Nodup ∧ (hashes.map Prod.fst).Nodup := by
  obtain ⟨hheights, hhashes⟩ := indexFields_indexed t.current
  exact ⟨_, _, readIndexJson_eq h.heightToHash rfl hheights, readIndexJson_eq h.hashToHeight rfl hhashes,
    fun _ => Lex.mem_sortOn, fun _ => Lex.mem_sortOn, hheights.lines.sortOn.keys, hhashes.lines.sortOn.keys⟩

/-- Rebuilding indexes that are as they should be changes no file. -/
theorem Holds.rebuild_same (hfl : FloatText M.floatRepr) (h : Holds M C files t) : ∃ files',
    rebuildIndexes M C files = (.ok ⟨t.tip, List.range' 1 t.tip⟩, files') ∧ Same files' files := by
  refine ⟨_, h.toBelow.rebuild hfl, fun p => ?_⟩
  rw [withIndexes, lookup_put, lookup_put]
  split
  · rename_i hp
    rw [hp, h.hashToHeight]
  · split
    · rename_i hp
      rw [hp, h.heightToHash]
    · rfl

/-! ## Snapshots -/

def MismatchAt (height : Nat) (x : Except PyErr (Option RegistryState)) : Prop :=
  x = .error ⟨.storageIOError, "snapshot at height % hash mismatch", [.int height]⟩

theorem snapshotMeta_oneLine {height : Nat} {state : RegistryState} {stateBytes : Bytes} {fields : Fields}
    (h : snapshotMeta M C height state stateBytes = .ok fields) : ∀ f ∈ fields, f.2.OneLine := by
  obtain ⟨root, -, h⟩ := bind_eq_ok.mp h
  rw [← Except.ok.inj h]
  simp only [List.forall_mem_cons]
  exact ⟨trivial, trivial, trivial, trivial, trivial, trivial, nofun⟩

theorem described_dict {data : Bytes} (h : Described M C data) :
    ∃ text fields, decodeUtf8 data = .ok text ∧ loads M.floatOf text = .ok (.dict fields) := by
  obtain ⟨height, state, stateBytes, fields, hfields, rfl⟩ := h
  obtain ⟨text, htext, hloads⟩ := bind_eq_ok.mp (@loads_indented M.floatOf M.floatRepr fields
    (snapshotMeta_oneLine hfields))
  exact ⟨text, _, htext, hloads⟩

/-- **A snapshot** is read as the state of the block at its height, unless there is none
or its description is that of another state. -/
theorem Holds.readSnapshot_cases (h : Holds M C files t) {i : Nat} (hk : t.current[i]? = some k) :
    readSnapshot M C files (i + 1) = .ok none ∨ MismatchAt (i + 1) (readSnapshot M C files (i + 1)) ∨
      readSnapshot M C files (i + 1) = (deserializeRegistryState k.stateBytes).map some := by
  have hi : i < t.tip := by
    have := (List.getElem?_eq_some_iff.mp hk).1
    rwa [Tape.length_current] at this
  rw [Tape.getElem?_current hi] at hk
  have hheight : (headOf C t).height = t.tip := rfl
  have htip : ¬ (headOf C t).height < ((i + 1 : Nat) : Int) := by omega
  unfold readSnapshot
  rw [h.head, ok_bind, if_neg htip]
  cases hdata : files.lookup (.state (i + 1)) with
  | none => exact .inl rfl
  | some data =>
    obtain ⟨k', hk', rfl⟩ := (h.at i).state data hdata
    rw [hk] at hk'
    cases hk'
    dsimp only
    cases hmeta : files.lookup (.stateMeta (i + 1)) with
    | none =>
      right; right
      rw [ok_bind]
      cases deserializeRegistryState k.stateBytes <;> rfl
    | some metaData =>
      obtain ⟨text, fields, htext, hloads⟩ := described_dict (h.stateMeta (i + 1) metaData hmeta)
      right
      dsimp only
      rw [htext, ok_bind, hloads, ok_bind, Json.getOr, ok_bind, require]
      split
      · right
        rw [ok_bind]
        cases deserializeRegistryState k.stateBytes <;> rfl
      · left
        rfl

theorem snapshotMeta_carries {height : Nat} {state : RegistryState} {stateBytes : Bytes} {fields : Fields}
    (h : snapshotMeta M C height state stateBytes = .ok fields) :
    Carries fields (str "state_hash") (.str (hashSingleHex M.toPrimitives stateBytes)) := by
  obtain ⟨root, -, h⟩ := bind_eq_ok.mp h
  rw [← Except.ok.inj h]
  refine ⟨⟨(str "state_hash", .str (hashSingleHex M.toPrimitives stateBytes)), by simp, rfl⟩, ?_⟩
  have hother : ∀ {key : Str} {v w : Json}, key ≠ str "state_hash" → key = str "state_hash" → v = w :=
    fun hne heq => absurd heq hne
  simp only [List.forall_mem_cons]
  exact ⟨hother (by decide), hother (by decide), hother (by decide), hother (by decide), fun _ => trivial,
    hother (by decide), nofun⟩

/-- A plain key keeps its string in what is read back. -/
theorem loads_indented_carries {fields : Fields} {key : String} {s : Str} (hline : ∀ f ∈ fields, f.2.OneLine)
    (h : Carries fields (str key) (.str s)) (hkey : PlainStr (str key)) (hs : decodedStr s = true) : ∃ text d,
      decodeUtf8 (dumpsIndented M.floatRepr fields) = .ok text ∧ loads M.floatOf text = .ok (.dict d) ∧
        Fields.get d key = some (.str s) := by
  obtain ⟨text, htext, hloads⟩ := bind_eq_ok.mp (@loads_indented M.floatOf M.floatRepr fields hline)
  refine ⟨text, _, htext, hloads, Carries.get (carries_foldl ?_ (.inr ⟨?_, nofun⟩))⟩
  · intro f hf hfk
    rw [parsedFields_eq] at hf
    obtain ⟨g, hg, rfl⟩ := List.mem_map.mp hf
    dsimp only at hfk ⊢
    rw [h.only g (Lex.mem_sortOn.mp hg) ((parsedStr_plain hkey).mp hfk), Json.parsed, parsedStr, joinUnits_units hs]
  · obtain ⟨g, hg, hgk⟩ := h.there
    rw [parsedFields_eq]
    exact ⟨_, List.mem_map_of_mem (Lex.mem_sortOn.mpr hg), (parsedStr_plain hkey).mpr hgk⟩

/-- **A snapshot that was written** is read. -/
theorem Holds.readSnapshot_written (h : Holds M C files t) {i n : Nat} (hk : t.current[i]? = some k) (hn : 2 ≤ n) :
    readSnapshot M C (interrupt n (snapshotSteps M C (i + 1) k.state) files) (i + 1) =
      (deserializeRegistryState k.stateBytes).map some := by
  have hi : i < t.tip := by
    have := (List.getElem?_eq_some_iff.mp hk).1
    rwa [Tape.length_current] at this
  have hmeta : ∃ fields, snapshotMeta M C (i + 1) k.state k.stateBytes = .ok fields := by
    rw [snapshotMeta, registryRoot, k.state_eq, ok_bind, ok_bind]
    exact ⟨_, rfl⟩
  obtain ⟨fields, hfields⟩ := hmeta
  have hexec : exec files (snapshotSteps M C (i + 1) k.state) =
    .ok (put (put files (.state (i + 1)) (some k.stateBytes))
      (.stateMeta (i + 1)) (some (dumpsIndented M.floatRepr fields))) := by
    rw [snapshotSteps, exec_cons_ok]
    refine ⟨_, Step.run_eq_ok.mpr ⟨_, Step.write_content.mpr ⟨_, k.state_eq, rfl⟩, rfl⟩, ?_⟩
    rw [exec_cons_ok]
    refine ⟨_, Step.run_eq_ok.mpr ⟨_, Step.write_content.mpr ⟨_, ?_, rfl⟩, rfl⟩, rfl⟩
    rw [k.state_eq, ok_bind, hfields, ok_bind]
  rw [interrupt_exec hexec hn]
  have hheight : (headOf C t).height = t.tip := rfl
  have hlower : isLowerHash (hashSingleHex M.toPrimitives k.stateBytes) = true := isLowerHash_toHex (M.sha256_length _)
  obtain ⟨text, d, htext, hloads, hget⟩ := loads_indented_carries (M := M) (snapshotMeta_oneLine hfields)
    (snapshotMeta_carries hfields) (plainStr_ascii (by decide)) (decoded_hash hlower)
  have hequal : (Json.str (hashSingleHex M.toPrimitives k.stateBytes)).eqStr
    (hashSingleHex M.toPrimitives k.stateBytes) = true :=
    beq_self_eq_true _
  generalize hw : put (put files (.state (i + 1)) (some k.stateBytes)) (.stateMeta (i + 1))
    (some (dumpsIndented M.floatRepr fields)) = w
  have hhead : getTip C w = .ok (headOf C t) := by
    rw [getTip_congr (show w.lookup .head = files.lookup .head by simp [← hw]), h.head]
  have hstateFile : w.lookup (.state (i + 1)) = some k.stateBytes := by simp [← hw]
  have hmetaFile : w.lookup (.stateMeta (i + 1)) = some (dumpsIndented M.floatRepr fields) := by simp [← hw]
  unfold readSnapshot
  rw [hhead, ok_bind, if_neg (by omega), hstateFile]
  dsimp only
  rw [hmetaFile]
  dsimp only
  rw [htext, ok_bind, hloads, ok_bind, Json.getOr, hget, Option.getD_some, ok_bind, require_of _ hequal, ok_bind]
  cases deserializeRegistryState k.stateBytes <;> rfl

end

end ChainBreaker
