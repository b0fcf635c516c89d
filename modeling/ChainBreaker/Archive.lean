import ChainBreaker.Commitment
import ChainBreaker.Messages
import ChainBreaker.LoadedJson
import ChainBreaker.StorageFormats
import ChainBreaker.Lib.FileSteps
import ChainBreaker.Lib.SecondaryIndex

/-!
# The document archive

Objects and manifests are files named by the hash of what they hold. A later
document may write a file again, but only with what it holds (`Stored.addDocument`);
and a file that was tampered with is read only when its content has the hash it is
asked for by (`document_integrity`).
-/

namespace ChainBreaker

open Fallible FileSteps

/-- `zlib.compress` at level 6, and `zlib.decompress`. -/
structure Zlib where
  compress : Bytes → Bytes
  decompress : Bytes → Except PyErr Bytes

/-- `objects/<2>/<2>/<content hash>` and `manifests/<manifest hash>`. -/
inductive ArchivePath where
  | object (contentHash : Str)
  | manifest (manifestHash : Str)
  deriving DecidableEq

abbrev ArchiveFiles := Files ArchivePath Bytes

/-- The arguments of `add_document`. -/
structure Document where
  data : Bytes
  title : Json
  mediaType : Json := .str (str "application/octet-stream")
  language : Json := .null
  source : Json := .null
  sourceUri : Json := .null
  acquisitionDate : Json := .null
  license : Json := .null
  parentHash : Json := .null
  notesHash : Json := .null
  metadata : Json := .null

namespace Archive

def objectPath (contentHash : Str) : Except PyErr ArchivePath := do
  require (4 ≤ contentHash.length) (err .valueError "content_hash too short")
  .ok (.object contentHash)

def manifestOf (d : Document) (contentHash metadataHash : Str) : Fields :=
  [(str "schema", .str (str "chainbreaker-manifest-v1")),
    (str "network_id", .str NETWORK_ID),
    (str "schema_version", .int 1),
    (str "content_hash", .str contentHash),
    (str "byte_length", .int d.data.length),
    (str "media_type", d.mediaType),
    (str "title", d.title),
    (str "language", d.language),
    (str "source", d.source),
    (str "source_uri", d.sourceUri),
    (str "acquisition_date", d.acquisitionDate),
    (str "license", d.license),
    (str "parent_hash", d.parentHash),
    (str "metadata_hash", .str metadataHash),
    (str "notes_hash", d.notesHash)]

section
variable (M : Runtime) (Z : Zlib)

def metadataBlob (d : Document) : Except PyErr Bytes :=
  if d.metadata.truthy then canonicalJson M.toPrimitives d.metadata else .ok (ascii "\x7b\x7d")

/-- The manifest of a document, and its bytes. -/
def describe (d : Document) (contentHash : Str) : Except PyErr (Fields × Bytes) := do
  let metadataBlob ← metadataBlob M d
  let metadataHash := hashSingleHex M.toPrimitives metadataBlob
  let manifest := manifestOf d contentHash metadataHash
  validateScriptureBody manifest
  let manifestBytes ← canonicalJson M.toPrimitives (.dict manifest)
  .ok (manifest, manifestBytes)

/-- The object is on disk before the manifest is made. -/
def addDocument (files : ArchiveFiles) (d : Document) : Except PyErr Str × ArchiveFiles :=
  let contentHash := hashSingleHex M.toPrimitives d.data
  match objectPath contentHash with
  | .error e => (.error e, files)
  | .ok path =>
    let files := put files path (some (Z.compress d.data))
    match describe M d contentHash with
    | .error e => (.error e, files)
    | .ok (_, manifestBytes) =>
      let manifestHash := hashSingleHex M.toPrimitives manifestBytes
      (.ok manifestHash, put files (.manifest manifestHash) (some manifestBytes))

def readFile (files : ArchiveFiles) (path : ArchivePath) : Except PyErr Bytes :=
  orRaise (files.lookup path) (err .fileNotFoundError "No such file or directory")

def getDocument (files : ArchiveFiles) (contentHash : Str) (verify : Bool := true) : Except PyErr Bytes := do
  let path ← objectPath contentHash
  let compressed ← readFile files path
  let data ← Z.decompress compressed
  require (!(verify && hashSingleHex M.toPrimitives data != contentHash))
    ⟨.valueError, "content hash mismatch for %: object is corrupt or was replaced", [.str contentHash]⟩
  .ok data

/-- The manifest is read from one state of the files, its object from another. -/
def verifyDocument (files files' : ArchiveFiles) (manifestHash : Str) : Except PyErr Fields := do
  let storedBytes ← readFile files (.manifest manifestHash)
  require (hashSingleHex M.toPrimitives storedBytes = manifestHash)
    ⟨.valueError, "manifest hash mismatch for %", [.str manifestHash]⟩
  let text ← decodeUtf8 storedBytes
  let value ← loads M.floatOf text
  let manifest ← orRaise value.asDict? (err .attributeError "object has no attribute 'keys'")
  validateScriptureBody manifest
  let contentHash ← manifest.item "content_hash"
  let contentHash ← orRaise contentHash.asStr? (err .typeError "object of this type has no len()")
  let data ← getDocument M Z files' contentHash
  let byteLength ← manifest.item "byte_length"
  require (byteLength.asInt? = some (data.length : Int))
    ⟨.valueError, "content length mismatch for %: expected %, got %", [.str manifestHash, byteLength, .int data.length]⟩
  .ok manifest

/-- The files may change before each of the three reads. -/
def getVerifiedDocument (files files' files'' : ArchiveFiles) (manifestHash : Str) : Except PyErr (Fields × Bytes) := do
  let manifest ← verifyDocument M Z files files' manifestHash
  let contentHash ← manifest.item "content_hash"
  let contentHash ← orRaise contentHash.asStr? (err .typeError "object of this type has no len()")
  let content ← getDocument M Z files'' contentHash
  .ok (manifest, content)

def addDocuments (files : ArchiveFiles) (documents : List Document) : ArchiveFiles :=
  documents.foldl (fun files d => (addDocument M Z files d).2) files

end

/-! ## Manifests -/

/-- `null`, an integer, or a string that can be encoded. -/
def Scalar : Json → Prop
  | .null => True
  | .int _ => True
  | .str s => Scalars s
  | _ => False

theorem Scalar.norm {v : Json} (h : Scalar v) : v.norm = v := by
  cases v <;> first | rfl | exact h.elim

theorem Scalar.loaded {v : Json} (h : Scalar v) : v.decoded = true ∧ v.distinct = true := by
  cases v with
  | str s => exact ⟨Scalars.decoded h, rfl⟩
  | null => exact ⟨rfl, rfl⟩
  | int n => exact ⟨rfl, rfl⟩
  | bool b => cases h
  | float x => cases h
  | list xs => cases h
  | dict fs => cases h

theorem Scalar.floats {P : UInt64 → Prop} {v : Json} (h : Scalar v) : v.Floats P := by
  cases v <;> first | exact h.elim | trivial

theorem scalars_of_any {s : Str} (h : s.any isSurrogate = false) : Scalars s := by
  simpa [Scalars] using h

theorem scalars_lowerHex {s : Str} (h : ∀ c ∈ s, isLowerHex c = true) : Scalars s := by
  intro c hc
  have hlower := h c hc
  simp only [isLowerHex, Bool.or_eq_true, Bool.and_eq_true, decide_eq_true_eq] at hlower
  simp only [isSurrogate, Bool.and_eq_false_iff, decide_eq_false_iff_not]
  omega

theorem scalar_hash {v : Json} (h : isHash v = true) : Scalar v := by
  cases v with
  | str s =>
    simp only [isHash, Bool.and_eq_true] at h
    have hbody := List.all_eq_true.mp h.2
    split at hbody
    · -- a line feed at the end
      rename_i hlast
      obtain ⟨t, rfl⟩ := List.getLast?_eq_some_iff.mp hlast
      rw [List.dropLast_concat] at hbody
      intro c hc
      rcases List.mem_append.mp hc with hc | hc
      · exact scalars_lowerHex hbody c hc
      · rw [List.mem_singleton.mp hc]
        rfl
    · exact scalars_lowerHex hbody
  | null => cases h
  | int n => cases h
  | bool b => cases h
  | float x => cases h
  | list xs => cases h
  | dict fs => cases h

theorem scalar_text {v : Json} (h : requireString v true = .ok true) : Scalar v := by
  cases v with
  | null => trivial
  | str s =>
    simp only [requireString, isNull, Bool.false_and, Bool.false_eq_true, if_false, bind_eq_ok] at h
    obtain ⟨encoded, hencoded, -⟩ := h
    exact scalars_of_any (encodeUtf8_eq_ok.mp hencoded).1
  | int n => trivial
  | bool b => cases h
  | float x => cases h
  | list xs => cases h
  | dict fs => cases h

theorem validated_text {body : Fields} {keys : List String} {key : String} {v : Json}
    (h : validateTexts body keys = .ok ()) (hkey : key ∈ keys) (hv : body.get key = some v) : Scalar v := by
  induction keys with
  | nil => cases hkey
  | cons k keys ih =>
    simp only [validateTexts, bind_eq_ok, require_eq_ok] at h
    obtain ⟨value, hvalue, ok, hok, -, rfl, hrest⟩ := h
    rcases List.mem_cons.mp hkey with rfl | hkey
    · rw [Fields.item, hv, Except.ok.injEq] at hvalue
      subst hvalue
      exact scalar_text hok
    · exact ih hrest hkey

/-- A manifest that was checked. -/
structure Checked (body : Fields) : Prop where
  contentHash : ∃ s, body.get "content_hash" = some (.str s)
  scalars : ∀ key ∈ scriptureRequired, ∀ v, body.get key = some v → Scalar v

theorem checked {body : Fields} (h : validateScriptureBody body = .ok ()) : Checked body := by
  simp only [validateScriptureBody, bind_eq_ok, require_eq_ok, item_eq_ok] at h
  obtain ⟨_, -, _, -, schema, hschema, _, hschemaText, contentHash, hcontent, _, hcontentHash, metadataHash, hmetadata, _,
    hmetadataHash, parentHash, hparent, _, hparentHash, notesHash, hnotes, _, hnotesHash, byteLength, hlength, _, hlengthInt,
    _, htexts, acquisitionDate, hdate, hdateInt⟩ := h
  have hnull : ∀ {v : Json}, isNull v = true → Scalar v := by
    intro v hv
    cases v <;> trivial
  have hint : ∀ {v : Json} {o : Option Int}, requireInt v o = true → Scalar v := by
    intro v o hv
    cases v <;> trivial
  have hone : ∀ {key : String} {v w : Json}, body.get key = some v → Scalar v → body.get key = some w → Scalar w := by
    intro key v w hv hscalar hw
    rw [hv, Option.some.injEq] at hw
    rwa [← hw]
  refine ⟨?_, fun key hkey w hw => ?_⟩
  · cases contentHash <;> first | exact ⟨_, hcontent⟩ | cases hcontentHash
  · simp only [scriptureRequired, List.mem_cons, List.not_mem_nil, or_false] at hkey
    rcases hkey with rfl | rfl | rfl | rfl | rfl | rfl | rfl | rfl | rfl | rfl | rfl | rfl | rfl
    · refine hone hschema ?_ hw
      cases schema with
      | str s =>
        rw [show s = str "chainbreaker-manifest-v1" from eq_of_beq hschemaText]
        exact scalars_of_any (by decide)
      | null => trivial
      | int n => trivial
      | bool b => cases hschemaText
      | float x => cases hschemaText
      | list xs => cases hschemaText
      | dict fs => cases hschemaText
    · exact hone hcontent (scalar_hash hcontentHash) hw
    · exact hone hlength (hint hlengthInt) hw
    · exact validated_text htexts (by simp) hw
    · exact validated_text htexts (by simp) hw
    · exact validated_text htexts (by simp) hw
    · exact validated_text htexts (by simp) hw
    · exact validated_text htexts (by simp) hw
    · exact hone hdate ((Bool.or_eq_true _ _ ▸ hdateInt).elim hnull hint) hw
    · exact validated_text htexts (by simp) hw
    · exact hone hparent ((Bool.or_eq_true _ _ ▸ hparentHash).elim hnull scalar_hash) hw
    · exact hone hmetadata (scalar_hash hmetadataHash) hw
    · exact hone hnotes ((Bool.or_eq_true _ _ ▸ hnotesHash).elim hnull scalar_hash) hw

/-- The check reads a dictionary by its keys. -/
theorem validateScriptureBody_congr {d e : Fields} (h : ∀ k, d.lookup k = e.lookup k) :
    validateScriptureBody d = validateScriptureBody e := by
  have hget : ∀ k, d.get k = e.get k := fun k => h _
  have hitem : ∀ k, d.item k = e.item k := fun k => by rw [Fields.item, hget, ← Fields.item]
  have hhas : ∀ ks, d.hasKeys ks = e.hasKeys ks := fun ks => by simp only [Fields.hasKeys, hget]
  have hkeys : ∀ k, k ∈ d.map Prod.fst ↔ k ∈ e.map Prod.fst := fun k => by
    rw [← not_iff_not, ← SecondaryIndex.lookup_none_iff, ← SecondaryIndex.lookup_none_iff, h]
  have hwithin : ∀ ks, d.keysWithin ks = e.keysWithin ks := fun ks => by
    have hall : ∀ d : Fields, d.keysWithin ks = true ↔ ∀ k ∈ d.map Prod.fst, k ∈ ks.map str := fun d => by
      simp [Fields.keysWithin]
    rw [Bool.eq_iff_iff, hall, hall]
    exact forall_congr' fun k => imp_congr_left (hkeys k)
  have htexts : ∀ ks, validateTexts d ks = validateTexts e ks := fun ks => by
    induction ks with
    | nil => rfl
    | cons k ks ih => rw [validateTexts, validateTexts, hitem, ih]
  simp only [validateScriptureBody, hitem, hhas, hwithin, htexts]

section
variable {M : Runtime} {Z : Zlib} {d d' : Document} {contentHash metadataHash : Str} {manifest : Fields} {b : Bytes}
  {files files' : ArchiveFiles}

/-- The manifest as `json.loads` gives it back: its keys are sorted. -/
def reread (manifest : Fields) : Fields := Lex.sortOn charKey Prod.fst manifest

theorem lookup_reread (h : (manifest.map Prod.fst).Nodup) (k : Str) : (reread manifest).lookup k = manifest.lookup k := by
  have hsorted : ((reread manifest).map Prod.fst).Nodup := ((Lex.sortOn_perm _ _ manifest).map _).nodup_iff.mpr h
  refine Option.ext fun v => ?_
  rw [lookup_iff_mem hsorted, lookup_iff_mem h]
  exact Lex.mem_sortOn

/-- A manifest of scalars is read back from its bytes. -/
theorem loads_manifest (hkeys : (manifest.map Prod.fst).Nodup) (hnames : ∀ f ∈ manifest, decodedStr f.1 = true)
    (hscalars : ∀ f ∈ manifest, Scalar f.2) (h : canonicalJson M.toPrimitives (.dict manifest) = .ok b) :
    (decodeUtf8 b >>= loads M.floatOf) = .ok (.dict (reread manifest)) := by
  have hfloats : (Json.dict manifest).Floats fun _ => False := by
    rw [Json.Floats, floatsFields_iff]
    exact fun f hf => (hscalars f hf).floats
  have hdecoded : (Json.dict manifest).decoded = true := by
    rw [Json.decoded, decodedFields_iff]
    exact fun f hf => ⟨hnames f hf, (hscalars f hf).loaded.1⟩
  have hdistinct : (Json.dict manifest).distinct = true :=
    distinct_dict.mpr ⟨hkeys, fun f hf => (hscalars f hf).loaded.2⟩
  have hnorm : (Json.dict manifest).norm = .dict (reread manifest) := by
    have hfields : normFields manifest = manifest := by
      rw [normFields_eq]
      exact (List.map_congr_left fun f hf => by rw [(hscalars f hf).norm]; rfl).trans (List.map_id _)
    rw [Json.norm, hfields, reread]
  rw [loads_floats floatsBack_none hfloats h, ← hnorm,
    parsed_eq (by rw [norm_decoded]; exact hdecoded) (norm_distinct hdistinct)]

/-! ## Reading -/

def manifestKeys : List String :=
  ["schema", "network_id", "schema_version", "content_hash", "byte_length", "media_type", "title", "language", "source",
    "source_uri", "acquisition_date", "license", "parent_hash", "metadata_hash", "notes_hash"]

theorem manifestOf_keys : (manifestOf d contentHash metadataHash).map Prod.fst = manifestKeys.map str := rfl

theorem manifestOf_nodup : ((manifestOf d contentHash metadataHash).map Prod.fst).Nodup := by
  rw [manifestOf_keys]
  decide +kernel

theorem manifestOf_names : ∀ f ∈ manifestOf d contentHash metadataHash, decodedStr f.1 = true := by
  have hall : ∀ k ∈ manifestKeys.map str, decodedStr k = true := by decide +kernel
  exact fun f hf => hall f.1 (manifestOf_keys (d := d) ▸ List.mem_map_of_mem hf)

theorem manifestOf_contentHash : (manifestOf d contentHash metadataHash).get "content_hash" = some (.str contentHash) := by
  rfl

theorem manifestOf_byteLength : (manifestOf d contentHash metadataHash).get "byte_length" = some (.int d.data.length) := by
  rfl

theorem describe_eq_ok : describe M d contentHash = .ok (manifest, b) ↔ ∃ blob,
    metadataBlob M d = .ok blob ∧ manifest = manifestOf d contentHash (hashSingleHex M.toPrimitives blob) ∧
      validateScriptureBody manifest = .ok () ∧ canonicalJson M.toPrimitives (.dict manifest) = .ok b := by
  simp only [describe, bind_eq_ok, Except.ok.injEq, Prod.mk.injEq]
  constructor
  · rintro ⟨blob, hblob, _, hvalid, bytes, hbytes, rfl, rfl⟩
    exact ⟨blob, hblob, rfl, hvalid, hbytes⟩
  · rintro ⟨blob, hblob, rfl, hvalid, hbytes⟩
    exact ⟨blob, hblob, (), hvalid, b, hbytes, rfl, rfl⟩

theorem manifestOf_scalars (h : validateScriptureBody (manifestOf d contentHash metadataHash) = .ok ()) :
    ∀ f ∈ manifestOf d contentHash metadataHash, Scalar f.2 := by
  intro f hf
  have hget : (manifestOf d contentHash metadataHash).lookup f.1 = some f.2 := (lookup_iff_mem manifestOf_nodup).mpr hf
  obtain ⟨key, hkey, hname⟩ := List.mem_map.mp (manifestOf_keys (d := d) ▸ List.mem_map_of_mem (f := Prod.fst) hf)
  have hkinds : ∀ key ∈ manifestKeys, key ∈ scriptureRequired ∨ key = "network_id" ∨ key = "schema_version" := by decide
  rw [← hname] at hget
  rcases hkinds key hkey with hrequired | rfl | rfl
  · exact (checked h).scalars key hrequired f.2 hget
  · rw [← Option.some.inj (show some (Json.str NETWORK_ID) = some f.2 from hget)]
    exact scalars_of_any (by decide)
  · rw [← Option.some.inj (show some (Json.int 1) = some f.2 from hget)]
    trivial

/-- A described manifest is read back from its bytes, and passes its check again. -/
theorem described (h : describe M d contentHash = .ok (manifest, b)) :
    (decodeUtf8 b >>= loads M.floatOf) = .ok (.dict (reread manifest)) ∧
    validateScriptureBody (reread manifest) = .ok () ∧
    (reread manifest).get "content_hash" = some (.str contentHash) ∧
    (reread manifest).get "byte_length" = some (.int d.data.length) ∧
    (Json.dict (reread manifest)).norm = (Json.dict manifest).norm := by
  obtain ⟨blob, -, rfl, hvalid, hbytes⟩ := describe_eq_ok.mp h
  generalize hashSingleHex M.toPrimitives blob = metadataHash at hvalid hbytes ⊢
  have hkeys := @manifestOf_nodup d contentHash metadataHash
  have hlookup := lookup_reread hkeys
  have hsorted : ((reread (manifestOf d contentHash metadataHash)).map Prod.fst).Nodup :=
    ((Lex.sortOn_perm _ _ _).map _).nodup_iff.mpr hkeys
  refine ⟨loads_manifest hkeys manifestOf_names (manifestOf_scalars hvalid) hbytes, ?_, (hlookup _).trans manifestOf_contentHash,
    (hlookup _).trans manifestOf_byteLength, ?_⟩
  · rw [validateScriptureBody_congr hlookup]
    exact hvalid
  · refine (norm_dict_iff hsorted hkeys).mpr fun k => ?_
    rw [hlookup]

theorem getDocument_eq_ok {data : Bytes} : getDocument M Z files contentHash = .ok data ↔ 4 ≤ contentHash.length ∧
    ∃ compressed, files.lookup (.object contentHash) = some compressed ∧ Z.decompress compressed = .ok data ∧
      hashSingleHex M.toPrimitives data = contentHash := by
  simp only [getDocument, objectPath, readFile, bind_eq_ok, require_eq_ok, orRaise_eq_ok, Except.ok.injEq]
  constructor
  · rintro ⟨_, ⟨_, hlength, rfl⟩, compressed, hfile, _, hdata, _, hverified, rfl⟩
    exact ⟨hlength, compressed, hfile, hdata, by simpa using hverified⟩
  · rintro ⟨hlength, compressed, hfile, hdata, hverified⟩
    exact ⟨_, ⟨(), hlength, rfl⟩, compressed, hfile, data, hdata, (), by simpa using hverified, rfl⟩

variable {manifestHash : Str} {m : Fields} {data : Bytes} {files'' : ArchiveFiles}

/-- What is behind a verified document. -/
structure Verified (M : Runtime) (Z : Zlib) (files files' files'' : ArchiveFiles) (manifestHash : Str) (m : Fields)
    (data : Bytes) (stored : Bytes) : Prop where
  manifest : files.lookup (.manifest manifestHash) = some stored
  hash : hashSingleHex M.toPrimitives stored = manifestHash
  loaded : (decodeUtf8 stored >>= loads M.floatOf) = .ok (.dict m)
  valid : validateScriptureBody m = .ok ()
  binding : ∃ contentHash checked, m.get "content_hash" = some (.str contentHash) ∧
    getDocument M Z files' contentHash = .ok checked ∧ m.get "byte_length" = some (.int checked.length) ∧
    getDocument M Z files'' contentHash = .ok data

theorem getVerifiedDocument_eq_ok : getVerifiedDocument M Z files files' files'' manifestHash = .ok (m, data) ↔
    ∃ stored, Verified M Z files files' files'' manifestHash m data stored := by
  simp only [getVerifiedDocument, verifyDocument, readFile, bind_eq_ok, require_eq_ok, orRaise_eq_ok, item_eq_ok,
    asStr?_eq_some, asInt?_eq_some, asDict?_eq_some, Except.ok.injEq, Prod.mk.injEq]
  constructor
  · rintro ⟨_, ⟨stored, hstored, _, hhash, text, htext, _, hvalue, _, rfl, _, hvalid, _, hv, contentHash, rfl, found, hfound,
      _, hn, _, rfl, rfl⟩, _, hv', _, rfl, content, hdata, rfl, rfl⟩
    rw [hv, Option.some.injEq, Json.str.injEq] at hv'
    subst hv'
    exact ⟨stored, hstored, hhash, bind_eq_ok.mpr ⟨text, htext, hvalue⟩, hvalid, contentHash, found, hv, hfound, hn, hdata⟩
  · rintro ⟨stored, hstored, hhash, hloaded, hvalid, contentHash, found, hv, hfound, hn, hdata⟩
    obtain ⟨text, htext, hvalue⟩ := bind_eq_ok.mp hloaded
    exact ⟨m, ⟨stored, hstored, (), hhash, text, htext, _, hvalue, m, rfl, (), hvalid, _, hv, contentHash, rfl, found, hfound,
      _, hn, (), rfl, rfl⟩, _, hv, contentHash, rfl, data, hdata, rfl, rfl⟩

/-! ## Storing -/

theorem hash_length (data : Bytes) : (hashSingleHex M.toPrimitives data).length = 64 := by
  rw [hashSingleHex, (toHex_lower _).1, M.sha256_length]

/-- The files of a document are there. -/
structure Stored (M : Runtime) (Z : Zlib) (files : ArchiveFiles) (d : Document) (b : Bytes) : Prop where
  object : files.lookup (.object (hashSingleHex M.toPrimitives d.data)) = some (Z.compress d.data)
  manifest : files.lookup (.manifest (hashSingleHex M.toPrimitives b)) = some b

theorem addDocument_error {e : PyErr} (h : describe M d (hashSingleHex M.toPrimitives d.data) = .error e) :
    addDocument M Z files d =
      (.error e, put files (.object (hashSingleHex M.toPrimitives d.data)) (some (Z.compress d.data))) := by
  have hlength : 4 ≤ (hashSingleHex M.toPrimitives d.data).length := by
    rw [hash_length]
    omega
  simp only [addDocument, objectPath, require_of _ hlength, ok_bind, h]

theorem addDocument_ok (h : describe M d (hashSingleHex M.toPrimitives d.data) = .ok (manifest, b)) :
    addDocument M Z files d = (.ok (hashSingleHex M.toPrimitives b),
      put (put files (.object (hashSingleHex M.toPrimitives d.data)) (some (Z.compress d.data)))
        (.manifest (hashSingleHex M.toPrimitives b)) (some b)) := by
  have hlength : 4 ≤ (hashSingleHex M.toPrimitives d.data).length := by
    rw [hash_length]
    omega
  simp only [addDocument, objectPath, require_of _ hlength, ok_bind, h]

/-- A message that is hashed for the documents: contents and manifests. -/
def Hashed (M : Runtime) (documents : List Document) (message : Bytes) : Prop :=
  ∃ d ∈ documents, message = d.data ∨
    ∃ manifest, describe M d (hashSingleHex M.toPrimitives d.data) = .ok (manifest, message)

theorem hash_inj {S : Bytes → Prop} (hfree : CollisionFree M.toPrimitives S) {x y : Bytes} (hx : S x) (hy : S y)
    (h : hashSingleHex M.toPrimitives x = hashSingleHex M.toPrimitives y) : x = y := hfree x y hx hy (toHex_inj h)

/-- What `add_document` returned is on disk. -/
theorem addDocument_stored {hash : Str} (h : (addDocument M Z files d).1 = .ok hash) : ∃ manifest b,
    describe M d (hashSingleHex M.toPrimitives d.data) = .ok (manifest, b) ∧ hash = hashSingleHex M.toPrimitives b ∧
      Stored M Z (addDocument M Z files d).2 d b := by
  cases hd : describe M d (hashSingleHex M.toPrimitives d.data) with
  | error e =>
    rw [addDocument_error hd] at h
    cases h
  | ok out =>
    obtain ⟨manifest, b⟩ := out
    rw [addDocument_ok hd] at h ⊢
    exact ⟨manifest, b, rfl, (Except.ok.inj h).symm, by simp, by simp⟩

/-- A later document leaves the files as they are, also where it writes them again. -/
theorem Stored.addDocument (h : Stored M Z files d b) {documents : List Document}
    (hfree : CollisionFree M.toPrimitives (Hashed M documents)) (hd : d ∈ documents) (hd' : d' ∈ documents)
    (hb : describe M d (hashSingleHex M.toPrimitives d.data) = .ok (manifest, b)) :
    Stored M Z (addDocument M Z files d').2 d b := by
  have hobject : hashSingleHex M.toPrimitives d.data = hashSingleHex M.toPrimitives d'.data →
      Z.compress d'.data = Z.compress d.data := fun heq => by
    rw [hash_inj hfree ⟨d, hd, .inl rfl⟩ ⟨d', hd', .inl rfl⟩ heq]
  cases hdescribe : describe M d' (hashSingleHex M.toPrimitives d'.data) with
  | error e =>
    rw [addDocument_error hdescribe]
    constructor
    · rw [lookup_put]
      split
      · rename_i heq
        rw [hobject (ArchivePath.object.inj heq)]
      · exact h.object
    · rw [lookup_put, if_neg nofun]
      exact h.manifest
  | ok out =>
    obtain ⟨manifest', b'⟩ := out
    rw [addDocument_ok hdescribe]
    constructor
    · rw [lookup_put, if_neg nofun, lookup_put]
      split
      · rename_i heq
        rw [hobject (ArchivePath.object.inj heq)]
      · exact h.object
    · rw [lookup_put]
      split
      · rename_i heq
        rw [hash_inj hfree ⟨d, hd, .inr ⟨_, hb⟩⟩ ⟨d', hd', .inr ⟨_, hdescribe⟩⟩ (ArchivePath.manifest.inj heq)]
      · rw [lookup_put, if_neg nofun]
        exact h.manifest

theorem Stored.addDocuments (h : Stored M Z files d b) {later : List Document}
    (hfree : CollisionFree M.toPrimitives (Hashed M (d :: later)))
    (hb : describe M d (hashSingleHex M.toPrimitives d.data) = .ok (manifest, b)) :
    Stored M Z (addDocuments M Z files later) d b := by
  suffices hall : ∀ {l : List Document} {files : ArchiveFiles}, l ⊆ d :: later → Stored M Z files d b →
      Stored M Z (Archive.addDocuments M Z files l) d b from hall (List.subset_cons_self d later) h
  intro l
  induction l with
  | nil => exact fun _ h => h
  | cons d' l ih =>
    intro files hsub h
    obtain ⟨hd', hsub⟩ := List.cons_subset.mp hsub
    exact ih hsub (h.addDocument hfree List.mem_cons_self hd' hb)

/-- What is stored is read. -/
theorem Stored.read (h : Stored M Z files d b) (hZ : ∀ data, Z.decompress (Z.compress data) = .ok data)
    (hb : describe M d (hashSingleHex M.toPrimitives d.data) = .ok (manifest, b)) :
    getVerifiedDocument M Z files files files (hashSingleHex M.toPrimitives b) = .ok (reread manifest, d.data) := by
  obtain ⟨hloads, hvalid, hcontent, hlength, -⟩ := described hb
  have hget : getDocument M Z files (hashSingleHex M.toPrimitives d.data) = .ok d.data :=
    getDocument_eq_ok.mpr ⟨by rw [hash_length]; omega, _, h.object, hZ _, rfl⟩
  exact getVerifiedDocument_eq_ok.mpr ⟨b, h.manifest, rfl, hloads, hvalid, _, d.data, hcontent, hget, hlength, hget⟩

/-- What is read was there when the hash was issued. -/
theorem Verified.issued {stored : Bytes}
    (h : Verified M Z files files' files'' (hashSingleHex M.toPrimitives b) m data stored)
    (hb : describe M d (hashSingleHex M.toPrimitives d.data) = .ok (manifest, b))
    (hfree : CollisionFree M.toPrimitives fun x => x = b ∨ x = stored ∨ x = d.data ∨ x = data) :
    m = reread manifest ∧ data = d.data := by
  obtain ⟨hloads, -, hcontent, -, -⟩ := described hb
  have hstored : stored = b := hash_inj hfree (.inr (.inl rfl)) (.inl rfl) h.hash
  have hm : m = reread manifest := by
    have hloaded := h.loaded
    rw [hstored, hloads, Except.ok.injEq, Json.dict.injEq] at hloaded
    exact hloaded.symm
  obtain ⟨contentHash, _, hget, -, -, hdata⟩ := h.binding
  rw [hm, hcontent, Option.some.injEq, Json.str.injEq] at hget
  obtain ⟨-, _, -, -, hverified⟩ := getDocument_eq_ok.mp hdata
  refine ⟨hm, hash_inj hfree (.inr (.inr (.inr rfl))) (.inr (.inr (.inl rfl))) ?_⟩
  rw [hverified, hget]

/-- A document that was added is read back under the hash that was returned for it,
whatever is added later; and whatever is done to the files, nothing else is read
under that hash. -/
theorem document_integrity (hZ : ∀ data, Z.decompress (Z.compress data) = .ok data) (earlier later : List Document)
    {hash : Str} (h : (addDocument M Z (addDocuments M Z files earlier) d).1 = .ok hash) :
    ∃ manifest bytes, describe M d (hashSingleHex M.toPrimitives d.data) = .ok (manifest, bytes) ∧
      (CollisionFree M.toPrimitives (Hashed M (d :: later)) →
        ∃ m, (Json.dict m).norm = (Json.dict manifest).norm ∧
          getVerifiedDocument M Z (addDocuments M Z files (earlier ++ d :: later))
            (addDocuments M Z files (earlier ++ d :: later)) (addDocuments M Z files (earlier ++ d :: later)) hash =
              .ok (m, d.data)) ∧
      ∀ files₁ files₂ files₃ m data,
        CollisionFree M.toPrimitives (fun x =>
          x = bytes ∨ files₁.lookup (.manifest hash) = some x ∨ x = d.data ∨ x = data) →
        getVerifiedDocument M Z files₁ files₂ files₃ hash = .ok (m, data) →
          (Json.dict m).norm = (Json.dict manifest).norm ∧ data = d.data := by
  obtain ⟨manifest, b, hb, rfl, hstored⟩ := addDocument_stored h
  have hsame := (described hb).2.2.2.2
  refine ⟨manifest, b, hb, fun hfree => ⟨reread manifest, hsame, ?_⟩, fun files₁ files₂ files₃ m data hfree hget => ?_⟩
  · have hrun : addDocuments M Z files (earlier ++ d :: later) =
        addDocuments M Z (addDocument M Z (addDocuments M Z files earlier) d).2 later := by
      rw [addDocuments, List.foldl_append, List.foldl_cons]
      rfl
    rw [hrun]
    exact (hstored.addDocuments hfree hb).read hZ hb
  · obtain ⟨stored, hverified⟩ := getVerifiedDocument_eq_ok.mp hget
    have hread : ∀ x, x = b ∨ x = stored ∨ x = d.data ∨ x = data →
        x = b ∨ files₁.lookup (.manifest (hashSingleHex M.toPrimitives b)) = some x ∨ x = d.data ∨ x = data := by
      rintro x (hx | rfl | hx)
      · exact .inl hx
      · exact .inr (.inl hverified.manifest)
      · exact .inr (.inr hx)
    obtain ⟨rfl, hdata⟩ := hverified.issued hb fun x y hx hy => hfree x y (hread x hx) (hread y hy)
    exact ⟨hsame, hdata⟩

end

/-! ## One document -/

def note : Document := { data := ascii "In the beginning", title := .str (str "Note") }

/-- zlib on the data of `note`, and behind a mark of its own elsewhere. -/
def noteZlib : Zlib where
  compress := fun data =>
    if data = note.data then
      [0x78, 0x9c, 0xf3, 0xcc, 0x53, 0x28, 0xc9, 0x48, 0x55, 0x48, 0x4a, 0x4d, 0xcf, 0xcc, 0xcb, 0xcb, 0xcc, 0x4b, 0x07, 0x00,
        0x2f, 0x6a, 0x05, 0xea]
    else 0 :: data
  decompress := fun compressed =>
    match compressed with
    | 0 :: data => .ok data
    | 0x78 :: _ => .ok note.data
    | _ => raise .zlibError "Error -3 while decompressing data: incorrect header check" []

theorem noteZlib_back (data : Bytes) : noteZlib.decompress (noteZlib.compress data) = .ok data := by
  simp only [noteZlib]
  by_cases h : data = note.data
  · rw [if_pos h, h]
    rfl
  · rw [if_neg h]
    rfl

theorem note_added : okAnd (fun _ => true) (addDocument builtins.toRuntime noteZlib ∅ note).1 = true := by
  decide +kernel

theorem document_integrity_note : ∃ hash,
    (addDocument builtins.toRuntime noteZlib (addDocuments builtins.toRuntime noteZlib ∅ []) note).1 = .ok hash ∧
    ∃ manifest bytes, describe builtins.toRuntime note (hashSingleHex (recorded []) note.data) = .ok (manifest, bytes) ∧
      (CollisionFree (recorded []) (Hashed builtins.toRuntime [note, note]) →
        ∃ m, (Json.dict m).norm = (Json.dict manifest).norm ∧
          getVerifiedDocument builtins.toRuntime noteZlib
            (addDocuments builtins.toRuntime noteZlib ∅ ([] ++ [note, note]))
            (addDocuments builtins.toRuntime noteZlib ∅ ([] ++ [note, note]))
            (addDocuments builtins.toRuntime noteZlib ∅ ([] ++ [note, note])) hash = .ok (m, note.data)) ∧
      ∀ files₁ files₂ files₃ m data,
        CollisionFree (recorded []) (fun x =>
          x = bytes ∨ files₁.lookup (.manifest hash) = some x ∨ x = note.data ∨ x = data) →
        getVerifiedDocument builtins.toRuntime noteZlib files₁ files₂ files₃ hash = .ok (m, data) →
          (Json.dict m).norm = (Json.dict manifest).norm ∧ data = note.data := by
  obtain ⟨hash, hadd, -⟩ := of_okAnd note_added
  exact ⟨hash, hadd, @document_integrity builtins.toRuntime noteZlib note ∅ noteZlib_back [] [note] hash hadd⟩

end Archive

end ChainBreaker
