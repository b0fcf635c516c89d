import ChainBreaker.Codec
import ChainBreaker.Lib.FramedLog

/-!
# The write-ahead journal

A journal is a file of framed, checksummed records, read up to the first that
does not decode. Each append takes the number after the highest one it can
read. As long as no append begins behind the torn bytes of an earlier one, the
journal reads back exactly the completed appends (`journal_durable`).
-/

namespace ChainBreaker

open Fallible FramedLog

/-! ## Records -/

def JOURNAL_MAGIC : Bytes := ascii "CBJR"

def JOURNAL_BEGIN : Nat := 0x01
def JOURNAL_HEADER_STAGED : Nat := 0x02
def JOURNAL_BLOCK_STAGED : Nat := 0x03
def JOURNAL_REGISTRY_STAGED : Nat := 0x04
def JOURNAL_INDEX_STAGED : Nat := 0x05
def JOURNAL_COMMIT : Nat := 0x10
def JOURNAL_ABORT : Nat := 0xFF

def MAX_JOURNAL_PAYLOAD : Nat := 64 * 1024 * 1024

structure JournalRecord where
  type : Nat
  seq : Nat
  height : Nat
  payload : Bytes
  deriving DecidableEq

section
variable (E : Primitives)

def encodeJournalRecord (r : JournalRecord) : Except PyErr Bytes := do
  require (r.payload.length ≤ MAX_JOURNAL_PAYLOAD)
    ⟨.valueError, "payload length % exceeds maximum", [.int r.payload.length]⟩
  let type ← structPack 1 r.type
  let seq ← structPack 8 r.seq
  let height ← structPack 8 r.height
  let payloadLen ← structPack 4 r.payload.length
  let fields := type ++ (seq ++ (height ++ payloadLen))
  let checksum := doubleSha256 E (fields ++ r.payload)
  .ok (JOURNAL_MAGIC ++ (fields ++ (r.payload ++ checksum)))

/-- `data[i : i + n]`. -/
def slice (data : Bytes) (i n : Nat) : Bytes := (data.drop i).take n

/-- `decode_journal_record(data, offset)` on the bytes from the offset on, which
it returns from the end of the record on. -/
def decodeJournalRecord (data : Bytes) : Except PyErr (JournalRecord × Bytes) := do
  require (25 ≤ data.length) (err .valueError "journal record truncated (header)")
  require (slice data 0 4 = JOURNAL_MAGIC) (err .valueError "bad journal magic")
  let type := fromLE (slice data 4 1)
  let seq := fromLE (slice data 5 8)
  let height := fromLE (slice data 13 8)
  let payloadLen := fromLE (slice data 21 4)
  require (payloadLen ≤ MAX_JOURNAL_PAYLOAD) ⟨.valueError, "payload_len % exceeds maximum", [.int payloadLen]⟩
  require (25 + payloadLen + 32 ≤ data.length) (err .valueError "journal record truncated (payload/checksum)")
  let payload := slice data 25 payloadLen
  let storedChecksum := slice data (25 + payloadLen) 32
  let computedChecksum := doubleSha256 E (slice data 4 21 ++ payload)
  require (storedChecksum = computedChecksum) (err .valueError "journal record checksum mismatch")
  .ok (⟨type, seq, height, payload⟩, data.drop (25 + payloadLen + 32))

/-! ## The journal -/

/-- `read_records`: the records up to the first that does not decode. -/
def readRecords (data : Bytes) : List JournalRecord := (scan (decodeJournalRecord E) data.length data).1

/-- What `read_records` leaves unread. -/
def tornTail (data : Bytes) : Bytes := (scan (decodeJournalRecord E) data.length data).2

def highestSeq (data : Bytes) : Nat := (readRecords E data).foldl (fun highest r => max highest r.seq) 0

/-- The record that `append` writes after `data`. -/
def nextRecord (data : Bytes) (type height : Nat) (payload : Bytes) : JournalRecord :=
  ⟨type, highestSeq E data + 1, height, payload⟩

/-- `Journal.append`, on the bytes of the file. -/
def journalAppend (data : Bytes) (type height : Nat) (payload : Bytes) : Except PyErr Bytes := do
  let record ← encodeJournalRecord E (nextRecord E data type height payload)
  .ok (data ++ record)

/-! ## Records read back -/

/-- The record fits its fields. -/
structure JournalRecord.Valid (r : JournalRecord) : Prop where
  type : r.type < 256
  seq : r.seq < 256 ^ 8
  height : r.height < 256 ^ 8
  payload : r.payload.length ≤ MAX_JOURNAL_PAYLOAD

def recordFields (r : JournalRecord) : Bytes :=
  leBytes 1 r.type ++ (leBytes 8 r.seq ++ (leBytes 8 r.height ++ leBytes 4 r.payload.length))

def recordBytes (r : JournalRecord) : Bytes :=
  JOURNAL_MAGIC ++ (recordFields r ++ (r.payload ++ doubleSha256 E (recordFields r ++ r.payload)))

variable {E}

theorem structPack_nat {len n : Nat} {b : Bytes} : structPack len n = .ok b ↔ n < 256 ^ len ∧ b = leBytes len n := by
  have hpow : ((256 ^ len : Nat) : Int) = 256 ^ len := by simp
  rw [structPack_eq_ok, Int.toNat_natCast, ← hpow]
  exact ⟨fun h => ⟨Int.ofNat_lt.mp h.2.1, h.2.2⟩, fun h => ⟨Int.natCast_nonneg n, Int.ofNat_lt.mpr h.1, h.2⟩⟩

theorem encodeJournalRecord_ok {r : JournalRecord} {b : Bytes} :
    encodeJournalRecord E r = .ok b ↔ r.Valid ∧ b = recordBytes E r := by
  have hmax : MAX_JOURNAL_PAYLOAD < 256 ^ 4 := by decide
  simp only [encodeJournalRecord, bind_eq_ok, require_eq_ok, structPack_nat]
  constructor
  · rintro ⟨_, hp, _, ⟨ht, rfl⟩, _, ⟨hs, rfl⟩, _, ⟨hh, rfl⟩, _, ⟨-, rfl⟩, h⟩
    exact ⟨⟨ht, hs, hh, hp⟩, (Except.ok.inj h).symm⟩
  · rintro ⟨hv, rfl⟩
    exact ⟨(), hv.payload, _, ⟨hv.type, rfl⟩, _, ⟨hv.seq, rfl⟩, _, ⟨hv.height, rfl⟩, _,
      ⟨lt_of_le_of_lt hv.payload hmax, rfl⟩, rfl⟩

theorem slice_mid {pre x post : Bytes} {i n : Nat} (hi : pre.length = i) (hn : x.length = n) :
    slice (pre ++ (x ++ post)) i n = x := by
  subst hi hn
  rw [slice, List.drop_left, List.take_left]

theorem doubleSha256_length (m : Bytes) : (doubleSha256 E m).length = 32 := E.sha256_length _

theorem recordFields_length (r : JournalRecord) : (recordFields r).length = 21 := by
  simp [recordFields, leBytes_length]

theorem recordBytes_length (r : JournalRecord) : (recordBytes E r).length = 25 + r.payload.length + 32 := by
  have hmagic : JOURNAL_MAGIC.length = 4 := rfl
  simp only [recordBytes, List.length_append, hmagic, recordFields_length, doubleSha256_length]
  omega

theorem decode_record {r : JournalRecord} (h : r.Valid) (rest : Bytes) :
    decodeJournalRecord E (recordBytes E r ++ rest) = .ok (r, rest) := by
  have hmagic : JOURNAL_MAGIC.length = 4 := rfl
  have hfields := recordFields_length r
  have hmax : MAX_JOURNAL_PAYLOAD < 256 ^ 4 := by decide
  have hlen := recordBytes_length (E := E) r
  generalize hsum : doubleSha256 E (recordFields r ++ r.payload) = sum at *
  have hsumlen : sum.length = 32 := by rw [← hsum]; exact doubleSha256_length _
  -- the bytes as the fields that are read from them
  have hdata : recordBytes E r ++ rest =
      JOURNAL_MAGIC ++ (recordFields r ++ (r.payload ++ (sum ++ rest))) := by
    rw [recordBytes, hsum]
    simp only [List.append_assoc]
  have hmagicAt : slice (recordBytes E r ++ rest) 0 4 = JOURNAL_MAGIC := by
    rw [hdata]
    exact @slice_mid [] _ _ _ _ rfl hmagic
  have hfieldsAt : slice (recordBytes E r ++ rest) 4 21 = recordFields r := by
    rw [hdata]
    exact slice_mid hmagic hfields
  have htype : slice (recordBytes E r ++ rest) 4 1 = leBytes 1 r.type := by
    rw [hdata, recordFields, List.append_assoc]
    exact slice_mid hmagic (leBytes_length _ _)
  have hseq : slice (recordBytes E r ++ rest) 5 8 = leBytes 8 r.seq := by
    rw [hdata, recordFields]
    simp only [List.append_assoc]
    rw [← List.append_assoc JOURNAL_MAGIC]
    exact slice_mid (by simp [hmagic, leBytes_length]) (leBytes_length _ _)
  have hheight : slice (recordBytes E r ++ rest) 13 8 = leBytes 8 r.height := by
    rw [hdata, recordFields]
    simp only [List.append_assoc]
    rw [← List.append_assoc JOURNAL_MAGIC, ← List.append_assoc (JOURNAL_MAGIC ++ _)]
    exact slice_mid (by simp [hmagic, leBytes_length]) (leBytes_length _ _)
  have hpayloadLen : slice (recordBytes E r ++ rest) 21 4 = leBytes 4 r.payload.length := by
    rw [hdata, recordFields]
    simp only [List.append_assoc]
    rw [← List.append_assoc JOURNAL_MAGIC, ← List.append_assoc (JOURNAL_MAGIC ++ _),
      ← List.append_assoc (JOURNAL_MAGIC ++ _ ++ _)]
    exact slice_mid (by simp [hmagic, leBytes_length]) (leBytes_length _ _)
  have hpayload : slice (recordBytes E r ++ rest) 25 r.payload.length = r.payload := by
    rw [hdata, ← List.append_assoc JOURNAL_MAGIC]
    exact slice_mid (by simp [hmagic, hfields]) rfl
  have hchecksum : slice (recordBytes E r ++ rest) (25 + r.payload.length) 32 = sum := by
    rw [hdata, ← List.append_assoc JOURNAL_MAGIC, ← List.append_assoc (JOURNAL_MAGIC ++ _)]
    exact slice_mid (by simp only [List.length_append, hmagic, hfields]) hsumlen
  have hrest : (recordBytes E r ++ rest).drop (25 + r.payload.length + 32) = rest := by
    rw [← hlen, List.drop_left]
  have hback : fromLE (leBytes 4 r.payload.length) = r.payload.length :=
    fromLE_leBytes _ _ (lt_of_le_of_lt h.payload hmax)
  unfold decodeJournalRecord
  simp only [List.length_append, hlen, hmagicAt, htype, hseq, hheight, hpayloadLen, hback, hpayload, hchecksum,
    hfieldsAt, hsum, hrest, fromLE_leBytes _ _ (show r.type < 256 ^ 1 from h.type), fromLE_leBytes _ _ h.seq,
    fromLE_leBytes _ _ h.height]
  rw [require_of _ (by omega), ok_bind, require_of _ trivial, ok_bind, require_of _ h.payload, ok_bind,
    require_of _ (by omega), ok_bind, require_of _ trivial, ok_bind]

theorem slice_take {data : Bytes} {i n k : Nat} (h : i + n ≤ k) : slice (data.take k) i n = slice data i n := by
  rw [slice, slice, List.drop_take, List.take_take, Nat.min_eq_left (by omega)]

/-- A part of a record does not decode. -/
theorem decode_torn {r : JournalRecord} (h : r.Valid) {n : Nat} (hn : n < (recordBytes E r).length) :
    ∃ e, decodeJournalRecord E ((recordBytes E r).take n) = .error e := by
  cases hx : decodeJournalRecord E ((recordBytes E r).take n) with
  | error e => exact ⟨e, rfl⟩
  | ok x =>
    have hfull : slice (recordBytes E r) 21 4 = leBytes 4 r.payload.length := by
      have hdata : recordBytes E r = (JOURNAL_MAGIC ++ (leBytes 1 r.type ++ (leBytes 8 r.seq ++ leBytes 8 r.height))) ++
          (leBytes 4 r.payload.length ++ (r.payload ++ doubleSha256 E (recordFields r ++ r.payload))) := by
        simp only [recordBytes, recordFields, List.append_assoc]
      rw [hdata]
      exact slice_mid (by simp [leBytes_length]; rfl) (leBytes_length _ _)
    simp only [decodeJournalRecord, bind_eq_ok, require_eq_ok, List.length_take] at hx
    obtain ⟨_, hlen, _, -, _, -, _, hend, -⟩ := hx
    rw [slice_take (by omega), hfull, fromLE_leBytes _ _ (lt_of_le_of_lt h.payload (by decide))] at hend
    rw [recordBytes_length] at hn
    omega

theorem journal_framed : Framed (decodeJournalRecord E) (recordBytes E) JournalRecord.Valid where
  reads _ rest h := decode_record h rest
  nonempty r _ hnil := by
    have := recordBytes_length (E := E) r
    rw [hnil, List.length_nil] at this
    omega
  torn _ _ h hn := decode_torn h hn

/-! ## Histories of appends and crashes -/

inductive JournalEvent where
  | append (type height : Nat) (payload : Bytes)
  /-- the process dies in the append, with `cut` bytes of the record written -/
  | crash (type height : Nat) (payload : Bytes) (cut : Nat)

structure JournalHistory where
  file : Bytes
  /-- the records of the appends that returned -/
  completed : List JournalRecord

def JournalHistory.empty : JournalHistory := ⟨[], []⟩

variable (E) in
def journalStep (s : JournalHistory) : JournalEvent → Except PyErr JournalHistory
  | .append type height payload => do
    let file ← journalAppend E s.file type height payload
    .ok ⟨file, s.completed ++ [nextRecord E s.file type height payload]⟩
  | .crash type height payload cut => do
    let file ← journalAppend E s.file type height payload
    require (cut < file.length - s.file.length) (err .indexError "the record was written whole")
    .ok ⟨file.take (s.file.length + cut), s.completed⟩

theorem journalAppend_ok {data file : Bytes} {type height : Nat} {payload : Bytes} :
    journalAppend E data type height payload = .ok file ↔
      (nextRecord E data type height payload).Valid ∧
        file = data ++ recordBytes E (nextRecord E data type height payload) := by
  simp only [journalAppend, bind_eq_ok, encodeJournalRecord_ok]
  constructor
  · rintro ⟨_, ⟨hv, rfl⟩, h⟩
    exact ⟨hv, (Except.ok.inj h).symm⟩
  · rintro ⟨hv, rfl⟩
    exact ⟨_, ⟨hv, rfl⟩, rfl⟩

/-- The file holds the completed records, numbered in turn, and torn bytes of at
most one more. -/
structure JournalHistory.Good (E : Primitives) (s : JournalHistory) : Prop where
  valid : ∀ r ∈ s.completed, r.Valid
  numbered : s.completed.map JournalRecord.seq = List.range' 1 s.completed.length
  written : ∃ torn, s.file = written (recordBytes E) s.completed ++ torn ∧
    (torn ≠ [] → ∃ e, decodeJournalRecord E torn = .error e)

theorem scan_of_written {records : List JournalRecord} {torn : Bytes} (hv : ∀ r ∈ records, r.Valid)
    (ht : torn ≠ [] → ∃ e, decodeJournalRecord E torn = .error e) :
    readRecords E (written (recordBytes E) records ++ torn) = records ∧
      tornTail E (written (recordBytes E) records ++ torn) = torn := by
  have hlen : records.length ≤ (written (recordBytes E) records ++ torn).length := by
    have := length_le_written (journal_framed (E := E)) hv
    rw [List.length_append]
    omega
  have hscan := scan_written journal_framed ht hv hlen
  exact ⟨by rw [readRecords, hscan], by rw [tornTail, hscan]⟩

theorem JournalHistory.Good.reads {s : JournalHistory} (h : s.Good E) : readRecords E s.file = s.completed := by
  obtain ⟨torn, hfile, ht⟩ := h.written
  rw [hfile]
  exact (scan_of_written h.valid ht).1

theorem foldl_max_range (n : Nat) : ∀ (k a : Nat), a ≤ k → (List.range' (k + 1) n).foldl max a = if n = 0 then a else k + n := by
  induction n with
  | zero => intro k a _; rfl
  | succ n ih =>
    intro k a ha
    rw [List.range'_succ, List.foldl_cons, Nat.max_eq_right (by omega), ih (k + 1) (k + 1) (Nat.le_refl _)]
    split <;> simp <;> omega

theorem JournalHistory.Good.highest {s : JournalHistory} (h : s.Good E) : highestSeq E s.file = s.completed.length := by
  have hfold : highestSeq E s.file = (s.completed.map JournalRecord.seq).foldl max 0 := by
    rw [highestSeq, h.reads, List.foldl_map]
  rw [hfold, h.numbered, foldl_max_range _ 0 0 (Nat.le_refl _)]
  split <;> omega

/-- **Step.** An append that does not begin behind torn bytes adds its record. -/
theorem journalStep_good {s s' : JournalHistory} {event : JournalEvent} (h : s.Good E)
    (hclean : tornTail E s.file = []) (hstep : journalStep E s event = .ok s') : s'.Good E := by
  obtain ⟨torn, hfile, ht⟩ := h.written
  obtain rfl : torn = [] := by
    rw [hfile, (scan_of_written h.valid ht).2] at hclean
    exact hclean
  rw [List.append_nil] at hfile
  cases event with
  | append type height payload =>
    simp only [journalStep, bind_eq_ok, journalAppend_ok] at hstep
    obtain ⟨_, ⟨hv, rfl⟩, hstep⟩ := hstep
    cases hstep
    generalize hr : nextRecord E s.file type height payload = r at *
    have hseq : r.seq = s.completed.length + 1 := by rw [← hr, ← h.highest]; rfl
    refine ⟨?_, ?_, [], ?_, fun hne => absurd rfl hne⟩
    · intro x hx
      rcases List.mem_append.mp hx with hx | hx
      · exact h.valid x hx
      · exact List.mem_singleton.mp hx ▸ hv
    · rw [List.map_append, h.numbered, List.length_append, List.length_singleton, List.range'_concat]
      simp [hseq, Nat.add_comm]
    · rw [hfile, FramedLog.written, FramedLog.written, List.flatMap_append]
      simp
  | crash type height payload cut =>
    simp only [journalStep, bind_eq_ok, journalAppend_ok, require_eq_ok] at hstep
    obtain ⟨_, ⟨hv, rfl⟩, _, hcut, hstep⟩ := hstep
    cases hstep
    rw [List.length_append, Nat.add_sub_cancel_left] at hcut
    refine ⟨h.valid, h.numbered, (recordBytes E (nextRecord E s.file type height payload)).take cut, ?_, ?_⟩
    · simp only [List.take_length_add_append]
      rw [← hfile]
    · exact fun _ => decode_torn hv hcut

/-- **Durability.** In a history in which no append begins behind the torn bytes
of an earlier one, the records read are those of the completed appends, in
order and with rising numbers. -/
theorem journal_durable {events : List JournalEvent} {s : JournalHistory}
    (hrun : run (journalStep E) JournalHistory.empty events = .ok s)
    (hclean : EachStep (journalStep E) JournalHistory.empty events fun s _ _ => tornTail E s.file = []) :
    readRecords E s.file = s.completed ∧ s.completed.Pairwise fun r r' => r.seq < r'.seq := by
  have hempty : JournalHistory.empty.Good E := ⟨fun r hr => (by cases hr), rfl, [], rfl, fun hne => absurd rfl hne⟩
  have hgood := run_inv_each _ (fun _ _ _ h hclean hstep => journalStep_good h hclean hstep) hempty hrun hclean
  refine ⟨hgood.reads, ?_⟩
  have hsorted : (s.completed.map JournalRecord.seq).Pairwise (· < ·) := by
    rw [hgood.numbered]
    exact List.pairwise_lt_range'
  exact List.pairwise_map.mp hsorted

end

/-! ## A torn record at the end, and in the middle -/

def beginAppended : JournalEvent := .append JOURNAL_BEGIN 1 []

set_option maxRecDepth 100000 in
theorem beginAppended_clean : okAnd (fun s => tornTail (recorded []) s.file == [])
    (journalStep (recorded []) .empty beginAppended) = true := by decide +kernel

set_option maxRecDepth 100000 in
theorem commitTorn_run : ∃ s, run (journalStep (recorded [])) .empty [beginAppended, .crash JOURNAL_COMMIT 1 [] 30] = .ok s ∧
    (s.file.length == 87) = true := of_okAnd (by decide +kernel)

theorem journal_durable_commitTorn : ∃ s,
    run (journalStep (recorded [])) .empty [beginAppended, .crash JOURNAL_COMMIT 1 [] 30] = .ok s ∧
    readRecords (recorded []) s.file = s.completed ∧ s.completed.Pairwise fun r r' => r.seq < r'.seq := by
  obtain ⟨s, hs, -⟩ := commitTorn_run
  obtain ⟨t, ht, hclean⟩ := of_okAnd beginAppended_clean
  refine ⟨s, hs, journal_durable hs fun pre event post u u' hevents hu _ => ?_⟩
  rcases pre with _ | ⟨e, _ | ⟨e', pre⟩⟩
  · cases hu
    rfl
  · obtain ⟨rfl, -⟩ := List.cons.inj hevents
    obtain ⟨v, hv, hu⟩ := (run_cons_ok _).mp hu
    cases hu
    obtain rfl : u = t := Except.ok.inj (hv.symm.trans ht)
    exact eq_of_beq hclean
  · simp at hevents

set_option maxRecDepth 100000 in
theorem tornBegin_run : ∃ s, run (journalStep (recorded [])) .empty [.crash JOURNAL_BEGIN 1 [] 1, beginAppended] = .ok s ∧
    decide (readRecords (recorded []) s.file ≠ s.completed) = true := of_okAnd (by decide +kernel)

/-- One byte of a torn record hides every record appended after it. -/
theorem journal_lossy : ¬ ∀ (E : Primitives) (events : List JournalEvent) (s : JournalHistory),
    run (journalStep E) .empty events = .ok s →
      readRecords E s.file = s.completed ∧ s.completed.Pairwise fun r r' => r.seq < r'.seq := by
  intro h
  obtain ⟨s, hs, hlost⟩ := tornBegin_run
  exact of_decide_eq_true hlost (h _ _ _ hs).1

end ChainBreaker
