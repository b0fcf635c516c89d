import ChainBreaker.StorageFormats
import ChainBreaker.Lib.FileSteps

/-!
# The files of a block store

The files by their paths, the tip that HEAD names, and the two index files as
they are rebuilt from the block files. A program over the store is a list of
steps of one file each.
-/

namespace ChainBreaker

open Fallible FileSteps

/-- The files under the chain root. A file of one height has the height, in ten
digits or more, in its name. -/
inductive StorePath where
  | head | journal
  | header (height : Nat) | block (height : Nat)
  | state (height : Nat) | stateMeta (height : Nat)
  | tmpHeader (height : Nat) | tmpBlock (height : Nat) | tmpState (height : Nat)
  | heightToHash | hashToHeight
  deriving DecidableEq

abbrev StoreFiles := Files StorePath Bytes

abbrev StoreStep := Step StorePath Bytes PyErr

def STORAGE_FORMAT_VERSION : Int := 1
def SNAPSHOT_INTERVAL : Nat := 100

/-- `try: x … except E: a`, for the classes of `caught`. -/
def exceptKinds {α : Type} (caught : ErrKind → Bool) (x : Except PyErr α) (a : α) : Except PyErr α :=
  match x with
  | .ok b => .ok b
  | .error e => if caught e.kind then .ok a else .error e

/-- `path.read_bytes()`. -/
def readBytes (files : StoreFiles) (path : StorePath) : Except PyErr Bytes :=
  orRaise (files.lookup path) (err .fileNotFoundError "No such file or directory")

/-! ## Directories -/

/-- The height in the name of the file. -/
def StorePath.fileHeight : StorePath → Option Nat
  | .head | .journal | .heightToHash | .hashToHeight => none
  | .header h | .block h | .state h | .stateMeta h | .tmpHeader h | .tmpBlock h | .tmpState h => some h

/-- `_scan_height_files`, in no particular order. -/
def scanHeightFiles (directory : Nat → StorePath) (files : StoreFiles) : List Nat :=
  files.keys.filterMap fun p => p.fileHeight.filter fun h => directory h = p

theorem mem_scanHeightFiles {directory : Nat → StorePath} (hdir : ∀ h, (directory h).fileHeight = some h)
    {files : StoreFiles} {h : Nat} :
    h ∈ scanHeightFiles directory files ↔ ∃ data, files.lookup (directory h) = some data := by
  rw [← Option.isSome_iff_exists, AList.lookup_isSome, AList.mem_keys, scanHeightFiles, List.mem_filterMap]
  constructor
  · rintro ⟨p, hp, hh⟩
    obtain ⟨-, hh⟩ := Option.filter_eq_some_iff.mp hh
    rwa [of_decide_eq_true hh]
  · exact fun hp => ⟨_, hp, by rw [hdir]; simp⟩

theorem nodup_scanHeightFiles (directory : Nat → StorePath) (files : StoreFiles) :
    (scanHeightFiles directory files).Nodup := by
  apply List.Nodup.filterMap _ files.keys_nodup
  intro p p' h hp hp'
  obtain ⟨-, hp⟩ := Option.filter_eq_some_iff.mp hp
  obtain ⟨-, hp'⟩ := Option.filter_eq_some_iff.mp hp'
  exact (of_decide_eq_true hp).symm.trans (of_decide_eq_true hp')

/-! ## The tip -/

/-- What a store is opened with. -/
structure StoreConfig where
  networkId : Str
  genesisHash : Str

def getTip (C : StoreConfig) (files : StoreFiles) : Except PyErr Head :=
  match files.lookup .head with
  | none => .ok ⟨0, C.genesisHash, C.networkId, C.genesisHash, STORAGE_FORMAT_VERSION⟩
  | some data => decodeHead data

/-! ## Index files -/

section
variable (M : Runtime)

/-- `list_blocks`. -/
def listBlocks (files : StoreFiles) : List Nat := (scanHeightFiles .block files).insertionSort (· ≤ ·)

def readBlock (files : StoreFiles) (height : Nat) : Except PyErr BlockV2 := do
  let data ← orRaise (files.lookup (.block height)) ⟨.storageIOError, "block not found at height %", [.int height]⟩
  decodeBlockRecord M data

/-- The entry of one block, unless reading it raises one of the classes of `caught`. -/
def indexEntry (caught : ErrKind → Bool) (files : StoreFiles) (height : Nat) : Except PyErr (Option (Nat × Str)) :=
  exceptKinds caught (do
    let block ← readBlock M files height
    let hash ← block.hash M.toPrimitives
    .ok (some (height, hash))) none

/-- The heights of the blocks up to the height. -/
def blocksUpTo (files : StoreFiles) (safeHeight : Int) : List Nat :=
  (listBlocks files).filter fun h : Nat => (h : Int) ≤ safeHeight

/-- The blocks up to the height, each with its hash. -/
def indexEntries (caught : ErrKind → Bool) (files : StoreFiles) (safeHeight : Int) : Except PyErr (List (Nat × Str)) := do
  let entries ← collect (indexEntry M caught files) (blocksUpTo files safeHeight)
  .ok entries.reduceOption

def heightToHashFields (entries : List (Nat × Str)) : Fields :=
  entries.foldl (fun d e => d.put (natText e.1) (.str e.2)) []

def hashToHeightFields (entries : List (Nat × Str)) : Fields :=
  entries.foldl (fun d e => d.put e.2 (.int e.1)) []

/-- The errors that `rebuild_indexes` passes over. -/
def unreadable (k : ErrKind) : Bool := k.isValueError || k = .storageIOError || k = .fileNotFoundError

/-- The two writes of `rebuild_indexes`, or its two removals. -/
def rebuildSteps (C : StoreConfig) : List StoreStep :=
  let content (fields : List (Nat × Str) → Fields) (files : StoreFiles) : Except PyErr (Option Bytes) := do
    let tip ← getTip C files
    let entries ← indexEntries M unreadable files tip.height
    .ok (if entries.isEmpty then none else some (dumpsIndented M.floatRepr (fields entries)))
  [⟨.heightToHash, content heightToHashFields⟩, ⟨.hashToHeight, content hashToHeightFields⟩]

/-- `journal.append`. -/
def journalWrite (type height : Nat) (payload : Bytes) : StoreStep :=
  ⟨.journal, fun files => (journalAppend M.toPrimitives ((files.lookup .journal).getD []) type height payload).map some⟩

/-! ## What the indexes are read from -/

theorem exceptKinds_eq {α : Type} {caught : ErrKind → Bool} {x : Except PyErr α} {a : α}
    (h : FailsOnly (fun e => caught e.kind = true) x) : exceptKinds caught x a = .ok (x.toOption.getD a) := by
  unfold exceptKinds
  cases x with
  | ok b => rfl
  | error e => exact if_pos (h e rfl)

/-- The block stored at the height, if its record can be read. -/
def storedBlock (files : StoreFiles) (height : Nat) : Option BlockV2 :=
  (files.lookup (.block height)).bind fun data => (decodeBlockRecord M data).toOption

def storedHash (files : StoreFiles) (height : Nat) : Option Str :=
  (storedBlock M files height).bind fun block => (block.hash M.toPrimitives).toOption

def storedEntries (files : StoreFiles) (safeHeight : Int) : List (Nat × Str) :=
  (blocksUpTo files safeHeight).filterMap fun h => (storedHash M files h).map fun hash => (h, hash)

variable {M}

theorem hash_of_decoded {data : Bytes} {block : BlockV2} (h : decodeBlockRecord M data = .ok block) :
    block.hash M.toPrimitives = .ok (hashDoubleHex M.toPrimitives (slice data 12 HEADER_LEN)) := by
  rw [BlockV2.hash, BlockHeaderV2.hash, (decodeBlockRecord_ok h).1]
  rfl

theorem mem_blocksUpTo {files : StoreFiles} {safeHeight : Int} {k : Nat} :
    k ∈ blocksUpTo files safeHeight ↔ (∃ data, files.lookup (.block k) = some data) ∧ (k : Int) ≤ safeHeight := by
  rw [blocksUpTo, List.mem_filter, listBlocks, List.mem_insertionSort, @mem_scanHeightFiles .block fun _ => rfl,
    decide_eq_true_eq]

theorem blocksUpTo_sorted (files : StoreFiles) (safeHeight : Int) :
    (blocksUpTo files safeHeight).Nodup ∧ (blocksUpTo files safeHeight).Pairwise (· ≤ ·) :=
  ⟨((List.perm_insertionSort _ _).nodup_iff.mpr (nodup_scanHeightFiles _ files)).filter _,
    (List.pairwise_insertionSort _ _).filter _⟩

theorem blocksUpTo_congr {files files' : StoreFiles} {safeHeight : Int}
    (h : ∀ k : Nat, (k : Int) ≤ safeHeight → files.lookup (.block k) = files'.lookup (.block k)) :
    blocksUpTo files safeHeight = blocksUpTo files' safeHeight := by
  obtain ⟨hnodup, hsorted⟩ := blocksUpTo_sorted files safeHeight
  obtain ⟨hnodup', hsorted'⟩ := blocksUpTo_sorted files' safeHeight
  apply List.Perm.eq_of_pairwise' hsorted hsorted'
  rw [List.perm_ext_iff_of_nodup hnodup hnodup']
  intro k
  rw [mem_blocksUpTo, mem_blocksUpTo]
  exact and_congr_left fun hk => by rw [h k hk]

theorem indexEntry_eq {caught : ErrKind → Bool} (hcaught : ∀ k, k.isValueError = true → caught k = true)
    {files : StoreFiles} {h : Nat} {data : Bytes} (hdata : files.lookup (.block h) = some data) :
    indexEntry M caught files h = .ok ((storedHash M files h).map fun hash => (h, hash)) := by
  have hread : readBlock M files h = decodeBlockRecord M data := by
    rw [readBlock, hdata, orRaise, ok_bind]
  have hstored : storedBlock M files h = (decodeBlockRecord M data).toOption := by
    rw [storedBlock, hdata, Option.bind_some]
  rw [indexEntry, hread, storedHash, hstored]
  cases hdecode : decodeBlockRecord M data with
  | error e => exact if_pos (hcaught _ (fails_decodeBlockRecord M data e hdecode))
  | ok block =>
    rw [ok_bind, hash_of_decoded hdecode, ok_bind, Except.toOption, Option.bind_some, hash_of_decoded hdecode]
    rfl

/-- The entries are those of the blocks that can be read. -/
theorem indexEntries_eq {caught : ErrKind → Bool} (hcaught : ∀ k, k.isValueError = true → caught k = true)
    (files : StoreFiles) (safeHeight : Int) :
    indexEntries M caught files safeHeight = .ok (storedEntries M files safeHeight) := by
  have hcollect : ∀ {l : List Nat}, (∀ h ∈ l, ∃ data, files.lookup (.block h) = some data) →
      collect (indexEntry M caught files) l = .ok (l.map fun h => (storedHash M files h).map fun hash => (h, hash)) := by
    intro l
    induction l with
    | nil => exact fun _ => rfl
    | cons h l ih =>
      intro hl
      obtain ⟨data, hdata⟩ := hl h (.head _)
      rw [collect, indexEntry_eq hcaught hdata, ok_bind, ih fun k hk => hl k (.tail _ hk), ok_bind, List.map_cons]
  rw [indexEntries, hcollect fun h hh => (mem_blocksUpTo.mp hh).1, ok_bind, storedEntries]
  exact congrArg Except.ok List.filterMap_map

theorem storedEntries_congr {files files' : StoreFiles} {safeHeight : Int}
    (h : ∀ k : Nat, (k : Int) ≤ safeHeight → files.lookup (.block k) = files'.lookup (.block k)) :
    storedEntries M files safeHeight = storedEntries M files' safeHeight := by
  rw [storedEntries, storedEntries, blocksUpTo_congr h]
  apply List.filterMap_congr
  intro k hk
  rw [storedHash, storedHash, storedBlock, storedBlock, h k (mem_blocksUpTo.mp hk).2]

end

end ChainBreaker
