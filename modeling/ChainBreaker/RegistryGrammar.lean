import ChainBreaker.RegistryRead

/-!
# What the registry decoder accepts

The decoder follows a grammar in which a length may have any of the four widths
and records stand in any order (`deserialize_iff`). Canonical are the texts with
shortest lengths and sorted records. The decoder fails otherwise than by
`RegistryError` at text that is not UTF-8 and where the threshold is missing.
-/

namespace ChainBreaker

open Fallible OffsetReader

/-! ## The grammar -/

/-- A number in one of the four widths. -/
inductive VarintText : Bytes → Nat → Prop
  | one (first : UInt8) (h : first < 0xFD) : VarintText [first] first.toNat
  | two (d : Bytes) (h : d.length = 2) : VarintText (0xFD :: d) (fromLE d)
  | four (d : Bytes) (h : d.length = 4) : VarintText (0xFE :: d) (fromLE d)
  | eight (d : Bytes) (h : d.length = 8) : VarintText (0xFF :: d) (fromLE d)

/-- A number in the width that `_encode_varint` takes. -/
def ShortestText (x : Bytes) (n : Nat) : Prop := encodeVarint n = .ok x

/-- The bytes are the encoding of no string. -/
def NotUtf8 (d : Bytes) : Prop := ¬ ∃ s : Str, s.any isSurrogate = false ∧ d = utf8 s

/-- The parts of a record, each in as many bytes as it has. -/
structure RecordParts where
  curatorId : Str
  publicKey : Bytes
  activation : Bytes
  revocation : Bytes
  previous : Bytes
  registration : Bytes
  latest : Bytes
  publicKey_length : publicKey.length = 32
  activation_length : activation.length = 8
  revocation_length : revocation.length = 8
  previous_length : previous.length = 32
  registration_length : registration.length = 32
  latest_length : latest.length = 32

structure StateParts where
  networkId : Str
  keys : List Bytes
  threshold : UInt8
  records : List RecordParts

def RecordParts.fields (p : RecordParts) : Bytes :=
  p.publicKey ++ (p.activation ++ (p.revocation ++ (p.previous ++ (p.registration ++ p.latest))))

/-- A record of the bytes in its fields. -/
def recordOf (curatorId : Str) (publicKey activation revocation previous registration latest : Bytes) : CuratorRecord where
  curatorId := curatorId
  publicKeyHex := toHex publicKey
  activationHeight := fromLE activation
  revocationHeight := if fromLE revocation = 0xFFFFFFFFFFFFFFFF then none else some (fromLE revocation)
  previousKeyHex := if previous = List.replicate 32 0 then none else some (toHex previous)
  registrationTxid := toHex registration
  latestRotationTxid := if latest = List.replicate 32 0 then none else some (toHex latest)

def RecordParts.record (p : RecordParts) : CuratorRecord :=
  recordOf p.curatorId p.publicKey p.activation p.revocation p.previous p.registration p.latest

def StateParts.state (p : StateParts) : RegistryState where
  records := p.records.map RecordParts.record
  governanceVersion := GOVERNANCE_SCHEMA_VERSION
  networkId := p.networkId
  governanceKeys := p.keys.map toHex
  threshold := p.threshold.toNat

def schemaVersion : Bytes := leBytes 4 GOVERNANCE_SCHEMA_VERSION

section
variable (V : Bytes → Nat → Prop)

/-- Lengths are spelled as `V` says. -/
def StrText (x : Bytes) (s : Str) : Prop :=
  s.any isSurrogate = false ∧ ∃ l, V l (utf8 s).length ∧ x = l ++ utf8 s

def RecordText (x : Bytes) (p : RecordParts) : Prop :=
  ∃ id, StrText V id p.curatorId ∧ x = schemaVersion ++ (id ++ p.fields)

/-- A state up to its governance keys. -/
def KeysText (x : Bytes) (networkId : Str) (keys : List Bytes) : Prop :=
  (∀ k ∈ keys, k.length = 32) ∧
    ∃ id n, StrText V id networkId ∧ V n keys.length ∧ x = schemaVersion ++ (id ++ (n ++ keys.flatten))

def StateText (x : Bytes) (p : StateParts) : Prop :=
  ∃ keys n records, KeysText V keys p.networkId p.keys ∧ V n p.records.length ∧
    List.Forall₂ (RecordText V) records p.records ∧ x = keys ++ (p.threshold :: (n ++ records.flatten))

end

/-- Bytes behind their length that are not UTF-8. -/
def BadText (x : Bytes) : Prop := ∃ n d rest, x = n ++ (d ++ rest) ∧ VarintText n d.length ∧ NotUtf8 d

/-- The texts on which the decoder fails otherwise than by `RegistryError`. -/
inductive ReadsWrong (b : Bytes) : Prop
  | networkId (x : Bytes) (hx : BadText x) (hb : b = schemaVersion ++ x)
  | threshold (networkId : Str) (keys : List Bytes) (h : KeysText VarintText b networkId keys)
  | curatorId (networkId : Str) (keys : List Bytes) (front n x : Bytes) (threshold : UInt8) (count : Nat)
      (records : List Bytes) (ps : List RecordParts) (hfront : KeysText VarintText front networkId keys)
      (hn : VarintText n count) (hrecords : List.Forall₂ (RecordText VarintText) records ps) (hlt : ps.length < count)
      (hx : BadText x) (hb : b = front ++ (threshold :: (n ++ (records.flatten ++ (schemaVersion ++ x)))))

/-- The shortest lengths, and the records in order. -/
def CanonicalText (b : Bytes) : Prop :=
  ∃ p : StateParts, StateText ShortestText b p ∧
    p.records.Pairwise fun r r' => Lex.lexLe utf8Key (utf8 r.curatorId) (utf8 r'.curatorId) = true

/-! ## Readers of the parts -/

/-- Errors the decoder should not raise. -/
def Uncontrolled (e : PyErr) : Prop := e.kind ≠ .registryError

theorem parses_varint : Parses Uncontrolled decodeVarint VarintText (fun _ => False) where
  reads := by
    intro x n h pre post
    have hat : ∀ (m : UInt8) (d : Bytes), (pre ++ (m :: d ++ post))[pre.length]? = some m := fun m d => by simp
    have hbehind : ∀ (m : UInt8) (d : Bytes) (k : Nat), d.length = k →
        slice (pre ++ (m :: d ++ post)) (pre.length + 1) k = d :=
      fun m d k hk => @slice_after pre [m] d post 1 k rfl hk
    unfold decodeVarint
    cases h with
    | one first h =>
      rw [hat first []]
      dsimp only
      rw [if_pos h]
      rfl
    | two d h =>
      rw [hat]
      dsimp only
      rw [if_neg (by decide), if_pos rfl, hbehind _ d 2 h, List.length_cons, h]
    | four d h =>
      rw [hat]
      dsimp only
      rw [if_neg (by decide), if_neg (by decide), if_pos rfl, hbehind _ d 4 h, List.length_cons, h]
    | eight d h =>
      rw [hat]
      dsimp only
      rw [if_neg (by decide), if_neg (by decide), if_neg (by decide), if_pos rfl, hbehind _ d 8 h, List.length_cons, h]
  ahead := by
    intro data o n o' h
    unfold decodeVarint at h
    split at h
    · cases h
    · split_ifs at h <;> first | cases h; omega | cases h
  text := by
    intro data o n o' h ho
    unfold decodeVarint at h
    split at h
    · cases h
    · rename_i first hfirst
      have hsplit : ∀ k, data.drop o = (first :: slice data (o + 1) k) ++ data.drop (o + (k + 1)) := by
        intro k
        have hdrop : data.drop o = first :: data.drop (o + 1) := by
          rw [List.drop_eq_getElem?_toList_append, hfirst]
          rfl
        have hrest := List.take_append_drop k (data.drop (o + 1))
        rw [List.drop_drop, Nat.add_right_comm] at hrest
        rw [hdrop, slice, List.cons_append, ← Nat.add_assoc, hrest]
      have hlen : ∀ k, o + (k + 1) ≤ data.length → (slice data (o + 1) k).length = k := by
        intro k hk
        rw [slice, List.length_take, List.length_drop]
        omega
      split_ifs at h with h₁ h₂ h₃ h₄
      · cases h
        exact ⟨[first], .one first h₁, hsplit 0⟩
      · cases h
        exact ⟨_, h₂ ▸ .two _ (hlen 2 ho), hsplit 2⟩
      · cases h
        exact ⟨_, h₃ ▸ .four _ (hlen 4 ho), hsplit 4⟩
      · cases h
        exact ⟨_, h₄ ▸ .eight _ (hlen 8 ho), hsplit 8⟩
      · cases h
  wrong := by
    intro data o
    refine ⟨fun hwrong => ?_, fun h => h.2.elim⟩
    obtain ⟨e, h, hbad⟩ := hwrong
    unfold decodeVarint at h
    split at h
    · cases h
      exact absurd rfl hbad
    · split_ifs at h
      cases h
      exact absurd rfl hbad

example : decodeVarint [0xfd, 1, 0] 0 = .ok (1, 3) := of_okEq (by decide +kernel)

theorem parses_bytes : Parses Uncontrolled decodeBytes (fun x d => ∃ n, VarintText n d.length ∧ x = n ++ d) (fun _ => False) where
  reads := by
    rintro x d ⟨n, hn, rfl⟩ pre post
    have hvar := (parses_varint.reads hn).run (show pre.length = pre.length from rfl)
      (show pre ++ ((n ++ d) ++ post) = pre ++ (n ++ (d ++ post)) by simp)
    rw [decodeBytes, hvar, ok_bind]
    dsimp only
    rw [require_of _ (by simp only [List.length_append]; omega), ok_bind, List.append_assoc, slice_after rfl rfl,
      List.length_append, Nat.add_assoc]
  ahead := by
    intro data o d o' h
    obtain ⟨⟨n, o₁⟩, h₁, h⟩ := bind_eq_ok.mp h
    obtain ⟨_, -, h⟩ := bind_eq_ok.mp h
    cases h
    exact Nat.le_trans (parses_varint.ahead h₁) (Nat.le_add_right _ _)
  text := by
    intro data o d o' h ho
    obtain ⟨⟨n, o₁⟩, h₁, h⟩ := bind_eq_ok.mp h
    obtain ⟨_, -, h⟩ := bind_eq_ok.mp h
    cases h
    obtain ⟨x, hx, hd⟩ := parses_varint.text h₁ (by omega)
    have hlen : (slice data o₁ n).length = n := by
      rw [slice, List.length_take, List.length_drop]
      omega
    refine ⟨x ++ slice data o₁ n, ⟨x, hlen.symm ▸ hx, rfl⟩, ?_⟩
    rw [hd, List.append_assoc, slice, ← List.drop_drop, List.take_append_drop]
  wrong := by
    intro data o
    refine ⟨fun hwrong => ?_, fun h => h.2.elim⟩
    obtain ⟨e, h, hbad⟩ := hwrong
    rcases bind_eq_error.mp h with h | ⟨⟨n, o₁⟩, -, h⟩
    · exact (parses_varint.wrong.mp ⟨e, h, hbad⟩).2.elim
    · rcases bind_eq_error.mp h with h | ⟨_, -, h⟩
      · rw [require_eq_error] at h
        exact absurd rfl (h.2 ▸ hbad)
      · cases h

theorem decodeUtf8_wrong {d : Bytes} : (∃ e, decodeUtf8 d = .error e ∧ Uncontrolled e) ↔ NotUtf8 d := by
  unfold NotUtf8
  constructor
  · rintro ⟨e, he, -⟩ ⟨s, hs, rfl⟩
    rw [decodeUtf8_utf8 hs] at he
    cases he
  · intro h
    cases hd : decodeUtf8 d with
    | ok s => exact absurd ⟨s, decodeUtf8_eq_ok.mp hd⟩ h
    | error e =>
      unfold decodeUtf8 at hd
      split at hd
      · cases hd
      · cases hd
        exact ⟨_, rfl, nofun⟩

theorem decodeBytes_within {data d : Bytes} {o o' : Nat} (h : decodeBytes data o = .ok (d, o')) : o' ≤ data.length := by
  obtain ⟨⟨n, o₁⟩, -, h⟩ := bind_eq_ok.mp h
  obtain ⟨_, hle, h⟩ := bind_eq_ok.mp h
  cases h
  exact require_eq_ok.mp hle

theorem parses_str : Parses Uncontrolled decodeStr (StrText VarintText) BadText where
  reads := by
    rintro x s ⟨hs, n, hn, rfl⟩ pre post
    rw [decodeStr, parses_bytes.reads ⟨n, hn, rfl⟩ pre post, ok_bind]
    dsimp only
    rw [decodeUtf8_utf8 hs, ok_bind]
  ahead := by
    intro data o s o' h
    obtain ⟨⟨d, o₁⟩, h₁, h⟩ := bind_eq_ok.mp h
    obtain ⟨_, -, h⟩ := bind_eq_ok.mp h
    cases h
    exact parses_bytes.ahead h₁
  text := by
    intro data o s o' h ho
    obtain ⟨⟨d, o₁⟩, h₁, h⟩ := bind_eq_ok.mp h
    obtain ⟨t, ht, h⟩ := bind_eq_ok.mp h
    cases h
    obtain ⟨hs, rfl⟩ := decodeUtf8_eq_ok.mp ht
    obtain ⟨x, ⟨n, hn, rfl⟩, hd⟩ := parses_bytes.text h₁ ho
    exact ⟨_, ⟨hs, n, hn, rfl⟩, hd⟩
  wrong := by
    intro data o
    constructor
    · rintro ⟨e, h, hbad⟩
      rcases bind_eq_error.mp h with h | ⟨⟨d, o₁⟩, h₁, h⟩
      · exact (parses_bytes.wrong.mp ⟨e, h, hbad⟩).2.elim
      · rcases bind_eq_error.mp h with h | ⟨_, -, h⟩
        · obtain ⟨x, ⟨n, hn, rfl⟩, hd⟩ := parses_bytes.text h₁ (decodeBytes_within h₁)
          rw [List.append_assoc] at hd
          exact ⟨Nat.le_trans (parses_bytes.ahead h₁) (decodeBytes_within h₁), n, d, _, hd, hn,
            decodeUtf8_wrong.mp ⟨e, h, hbad⟩⟩
        · cases h
    · rintro ⟨ho, n, d, rest, hd, hn, hd'⟩
      obtain ⟨h₁, -⟩ := parses_bytes.take ⟨n, hn, rfl⟩ ho (hd.trans (List.append_assoc n d rest).symm)
      obtain ⟨e, he, hbad⟩ := decodeUtf8_wrong.mpr hd'
      exact ⟨e, bind_eq_error.mpr (.inr ⟨_, h₁, bind_eq_error.mpr (.inl he)⟩), hbad⟩

theorem fromLE_version {d : Bytes} : d.length = 4 ∧ fromLE d = GOVERNANCE_SCHEMA_VERSION ↔ d = schemaVersion := by
  constructor
  · rintro ⟨hlen, hval⟩
    rw [schemaVersion, ← hlen, ← hval, leBytes_fromLE]
  · rintro rfl
    decide

/-! ## A record -/

def recordVersion : Bytes → Nat → Except PyErr (Bytes × Nat) :=
  andThen (piece 4) fun d data o =>
    require (fromLE d = GOVERNANCE_SCHEMA_VERSION)
      ⟨.registryError, "record schema version % unsupported", [.int (fromLE d)]⟩ >>= fun _ => ret d data o

theorem parses_recordVersion : Parses Uncontrolled recordVersion (fun x d => d = x ∧ x = schemaVersion) (fun _ => False) :=
  ((parses_piece 4).check fun _ h => h rfl).congr (fun x d => by rw [and_assoc, ← fromLE_version]; grind) fun _ => Iff.rfl

/-- The steps of `_deserialize_record`. -/
def recordReader : Bytes → Nat → Except PyErr (CuratorRecord × Nat) :=
  andThen recordVersion fun _ => andThen decodeStr fun curatorId => andThen (piece 32) fun publicKey =>
    andThen (piece 8) fun activation => andThen (piece 8) fun revocation => andThen (piece 32) fun previous =>
    andThen (piece 32) fun registration => andThen (piece 32) fun latest =>
    ret (recordOf curatorId publicKey activation revocation previous registration latest)

theorem deserializeRecord_eq : deserializeRecord = recordReader := by
  funext data o
  unfold deserializeRecord recordReader recordVersion
  by_cases hversion : fromLE (slice data o 4) = GOVERNANCE_SCHEMA_VERSION
  · have hpiece : fromLE ((data.drop o).take 4) = GOVERNANCE_SCHEMA_VERSION := hversion
    simp only [andThen, piece, ok_bind, require_of _ hversion, require_of _ hpiece, ret]
    rfl
  · have hpiece : ¬ fromLE ((data.drop o).take 4) = GOVERNANCE_SCHEMA_VERSION := hversion
    simp only [andThen, piece, ok_bind, require, if_neg hversion, if_neg hpiece, error_bind]
    rfl

theorem parses_record : Parses Uncontrolled deserializeRecord (fun x r => ∃ p : RecordParts, p.record = r ∧ RecordText VarintText x p)
    (fun x => ∃ y, BadText y ∧ x = schemaVersion ++ y) := by
  rw [deserializeRecord_eq]
  refine (parses_recordVersion.andThen fun _ => parses_str.andThen fun _ => (parses_piece 32).andThen fun _ =>
    (parses_piece 8).andThen fun _ => (parses_piece 8).andThen fun _ => (parses_piece 32).andThen fun _ =>
    (parses_piece 32).andThen fun _ => (parses_piece 32).andThen fun _ => parses_ret _).congr (fun x r => ?_) fun x => ?_
  · constructor
    · rintro ⟨_, _, _, rfl, ⟨rfl, rfl⟩, id, s, _, rfl, hid, _, _, _, rfl, ⟨rfl, hpk⟩, _, _, _, rfl, ⟨rfl, ha⟩,
        _, _, _, rfl, ⟨rfl, he⟩, _, _, _, rfl, ⟨rfl, hq⟩, _, _, _, rfl, ⟨rfl, hg⟩, _, _, _, rfl, ⟨rfl, ht⟩, rfl, rfl⟩
      exact ⟨⟨s, _, _, _, _, _, _, hpk, ha, he, hq, hg, ht⟩, rfl, id, hid, by simp only [RecordParts.fields, List.append_nil]⟩
    · rintro ⟨p, rfl, id, hid, rfl⟩
      exact ⟨_, _, _, rfl, ⟨rfl, rfl⟩, id, _, _, rfl, hid, _, _, _, rfl, ⟨rfl, p.publicKey_length⟩, _, _, _, rfl,
        ⟨rfl, p.activation_length⟩, _, _, _, rfl, ⟨rfl, p.revocation_length⟩, _, _, _, rfl, ⟨rfl, p.previous_length⟩,
        _, _, _, rfl, ⟨rfl, p.registration_length⟩, p.latest, _, [], (List.append_nil _).symm, ⟨rfl, p.latest_length⟩, rfl, rfl⟩
  · constructor
    · rintro (h | ⟨_, _, y, rfl, ⟨rfl, rfl⟩, h | ⟨_, _, _, rfl, _, h⟩⟩)
      · exact h.elim
      · exact ⟨y, h, rfl⟩
      · simp only [false_or, and_false, exists_false] at h
    · rintro ⟨y, hy, rfl⟩
      exact .inr ⟨_, _, y, rfl, ⟨rfl, rfl⟩, .inl hy⟩

/-! ## A state -/

/-- The governance keys and the threshold behind them. -/
def keysReader (n : Nat) (data : Bytes) (o : Nat) : Except PyErr ((List Str × UInt8) × Nat) := do
  require (o + n * 32 ≤ data.length) (registryError "governance keys truncated")
  let keys := (List.range n).map fun i => toHex (slice data (o + i * 32) 32)
  let threshold ← orRaise data[o + n * 32]? (err .indexError "index out of range")
  .ok ((keys, threshold), o + n * 32 + 1)

/-- So many keys. -/
def KeyTexts (n : Nat) (x : Bytes) (keys : List Bytes) : Prop :=
  keys.length = n ∧ (∀ k ∈ keys, k.length = 32) ∧ x = keys.flatten

theorem keyTexts_length {n : Nat} {x : Bytes} {keys : List Bytes} (h : KeyTexts n x keys) : x.length = n * 32 := by
  obtain ⟨rfl, hkeys, rfl⟩ := h
  rw [List.length_flatten, List.map_eq_replicate_iff.mpr hkeys, List.sum_replicate_nat]

/-- The keys in the next bytes, if these are there. -/
theorem keyTexts_at {data : Bytes} {o n : Nat} (h : o + n * 32 ≤ data.length) : ∃ keys, KeyTexts n ((data.drop o).take (n * 32)) keys ∧
    ((List.range n).map fun i => toHex (slice data (o + i * 32) 32)) = keys.map toHex := by
  refine ⟨(List.range n).map fun i => slice data (o + i * 32) 32, ⟨by rw [List.length_map, List.length_range], ?_, ?_⟩, by
    rw [List.map_map]; rfl⟩
  · intro k hk
    obtain ⟨i, hi, rfl⟩ := List.mem_map.mp hk
    rw [List.mem_range] at hi
    rw [slice, List.length_take, List.length_drop]
    omega
  · induction n with
    | zero => rfl
    | succ n ih =>
      rw [List.range_succ, List.map_append, List.flatten_append, ← ih (by omega), Nat.succ_mul, List.take_add, List.drop_drop]
      simp [slice]

theorem parses_keys (n : Nat) : Parses Uncontrolled (keysReader n)
    (fun x v => ∃ keys t y, KeyTexts n y keys ∧ v = (keys.map toHex, t) ∧ x = y ++ [t])
    (fun x => ∃ keys, KeyTexts n x keys) where
  reads := by
    rintro x v ⟨keys, t, y, hy, rfl, rfl⟩ pre post
    have hlen := keyTexts_length hy
    obtain ⟨rfl, hkeys, rfl⟩ := hy
    have hslices : ((List.range keys.length).map fun i =>
        toHex (slice (pre ++ (keys.flatten ++ ([t] ++ post))) (pre.length + i * 32) 32)) = keys.map toHex := by
      conv_rhs => rw [← slices_flatten pre ([t] ++ post) hkeys]
      rw [List.map_map]
      rfl
    have hat : (pre ++ (keys.flatten ++ [t] ++ post))[pre.length + keys.length * 32]? = some t := by
      rw [← hlen, List.append_assoc, ← List.append_assoc, ← List.length_append]
      simp
    rw [keysReader, require_of _ (by simp only [List.length_append, hlen]; omega), ok_bind, hat, List.append_assoc keys.flatten]
    simp only [orRaise, ok_bind, hslices, List.length_append, hlen, List.length_singleton, Nat.add_assoc]
  ahead := by
    intro data o v o' h
    obtain ⟨_, -, h⟩ := bind_eq_ok.mp h
    obtain ⟨_, -, h⟩ := bind_eq_ok.mp h
    cases h
    omega
  text := by
    intro data o v o' h ho
    obtain ⟨_, hle, h⟩ := bind_eq_ok.mp h
    obtain ⟨t, ht, h⟩ := bind_eq_ok.mp h
    cases h
    obtain ⟨keys, hkeys, heq⟩ := keyTexts_at (require_eq_ok.mp hle)
    refine ⟨_, ⟨keys, t, _, hkeys, by rw [heq], rfl⟩, ?_⟩
    have hlast : data.drop (o + n * 32) = t :: data.drop (o + n * 32 + 1) := by
      rw [List.drop_eq_getElem?_toList_append, orRaise_eq_ok.mp ht]
      rfl
    rw [List.append_assoc, List.singleton_append, ← hlast, ← List.drop_drop, List.take_append_drop]
  wrong := by
    intro data o
    constructor
    · rintro ⟨e, h, hbad⟩
      rcases bind_eq_error.mp h with h | ⟨_, hle, h⟩
      · rw [require_eq_error] at h
        exact absurd rfl (h.2 ▸ hbad)
      · rcases bind_eq_error.mp h with h | ⟨t, -, h⟩
        · have hle := require_eq_ok.mp hle
          obtain ⟨keys, hkeys, -⟩ := keyTexts_at hle
          refine ⟨by omega, keys, ?_⟩
          have hend : data.length ≤ o + n * 32 := by
            cases hat : data[o + n * 32]? with
            | none => exact List.getElem?_eq_none_iff.mp hat
            | some t =>
              rw [hat] at h
              cases h
          rwa [List.take_of_length_le (by rw [List.length_drop]; omega)] at hkeys
        · cases h
    · rintro ⟨ho, keys, hkeys⟩
      have hlen := keyTexts_length hkeys
      rw [List.length_drop] at hlen
      refine ⟨err .indexError "index out of range", ?_, by rintro ⟨⟩⟩
      rw [keysReader, require_of _ (by omega), ok_bind, List.getElem?_eq_none (by omega)]
      rfl

def stateVersion (data : Bytes) (o : Nat) : Except PyErr (Bytes × Nat) :=
  require (o + 4 ≤ data.length) (registryError "state data too short") >>= fun _ =>
    andThen (piece 4) (fun d data o =>
      require (fromLE d = GOVERNANCE_SCHEMA_VERSION)
        ⟨.registryError, "state schema version % unsupported", [.int (fromLE d)]⟩ >>= fun _ => ret d data o) data o

theorem parses_stateVersion : Parses Uncontrolled stateVersion (fun x d => d = x ∧ x = schemaVersion) (fun _ => False) := by
  have hversion : Parses Uncontrolled (andThen (piece 4) fun d (data : Bytes) o =>
      require (fromLE d = GOVERNANCE_SCHEMA_VERSION)
        ⟨.registryError, "state schema version % unsupported", [.int (fromLE d)]⟩ >>= fun _ => ret d data o)
      (fun x d => d = x ∧ x = schemaVersion) (fun _ => False) :=
    ((parses_piece 4).check fun _ h => h rfl).congr (fun x d => by rw [and_assoc, ← fromLE_version]; grind) fun _ => Iff.rfl
  exact hversion.within (fun h => h rfl) fun h => h.2 ▸ Nat.le_refl 4

/-- The steps of `deserialize_registry_state` up to the check of the end. -/
def stateReader : Bytes → Nat → Except PyErr (RegistryState × Nat) :=
  andThen stateVersion fun _ => andThen decodeStr fun networkId => andThen decodeVarint fun keyCount =>
    andThen (keysReader keyCount) fun keys => andThen decodeVarint fun recordCount =>
    andThen (times deserializeRecord recordCount) fun records =>
    ret { records, governanceVersion := GOVERNANCE_SCHEMA_VERSION, networkId, governanceKeys := keys.1, threshold := keys.2.toNat }

theorem deserialize_eq (data : Bytes) : deserializeRegistryState data = stateReader data 0 >>= fun p =>
    require (p.2 = data.length) ⟨.registryError, "trailing bytes after state deserialization: %", [.int (data.length - p.2)]⟩ >>=
      fun _ => .ok p.1 := by
  unfold deserializeRegistryState stateReader stateVersion keysReader
  by_cases hversion : fromLE (slice data 0 4) = GOVERNANCE_SCHEMA_VERSION
  · have hpiece : fromLE ((data.drop 0).take 4) = GOVERNANCE_SCHEMA_VERSION := hversion
    simp only [andThen, piece, ok_bind, require_of _ hpiece, ret, bind_assoc, Nat.zero_add, hversion, require_of _ trivial]
  · have hpiece : ¬ fromLE ((data.drop 0).take 4) = GOVERNANCE_SCHEMA_VERSION := hversion
    simp only [andThen, piece, ok_bind, require, if_neg hversion, if_neg hpiece, error_bind, Nat.zero_add, bind_assoc]
    rfl

/-- Texts of records, and their parts. -/
theorem records_parts {xs : List Bytes} {rs : List CuratorRecord} :
    List.Forall₂ (fun x r => ∃ p : RecordParts, p.record = r ∧ RecordText VarintText x p) xs rs ↔
      ∃ ps : List RecordParts, ps.map RecordParts.record = rs ∧ List.Forall₂ (RecordText VarintText) xs ps := by
  constructor
  · intro h
    induction h with
    | nil => exact ⟨[], rfl, .nil⟩
    | cons hx _ ih =>
      obtain ⟨p, rfl, hp⟩ := hx
      obtain ⟨ps, rfl, hps⟩ := ih
      exact ⟨p :: ps, rfl, .cons hp hps⟩
  · rintro ⟨ps, rfl, h⟩
    exact List.forall₂_map_right_iff.mpr (h.imp fun x p hp => ⟨p, rfl, hp⟩)

theorem parses_state : Parses Uncontrolled stateReader
    (fun x s => ∃ p : StateParts, p.state = s ∧ StateText VarintText x p) ReadsWrong := by
  refine (parses_stateVersion.andThen fun _ => parses_str.andThen fun _ => parses_varint.andThen fun keyCount =>
    (parses_keys keyCount).andThen fun _ => parses_varint.andThen fun recordCount =>
    (parses_record.times recordCount).andThen fun _ => parses_ret _).congr (fun x s => ?_) fun x => ?_
  · constructor
    · rintro ⟨_, _, _, rfl, ⟨rfl, rfl⟩, id, networkId, _, rfl, hid, c, _, _, rfl, hc, _, _, _, rfl,
        ⟨keys, t, _, ⟨rfl, hkeys, rfl⟩, rfl, rfl⟩, n, _, _, rfl, hn, _, rs, _, rfl, ⟨rfl, xs, hxs, rfl⟩, rfl, rfl⟩
      obtain ⟨ps, rfl, hps⟩ := records_parts.mp hxs
      rw [List.length_map] at hn
      exact ⟨⟨networkId, keys, t, ps⟩, rfl, _, n, xs, ⟨hkeys, id, c, hid, hc, rfl⟩, hn, hps, by
        simp only [List.append_assoc, List.append_nil, List.singleton_append]⟩
    · rintro ⟨p, rfl, front, n, records, ⟨hkeys, id, c, hid, hc, rfl⟩, hn, hrecords, rfl⟩
      refine ⟨schemaVersion, _, id ++ (c ++ (p.keys.flatten ++ [p.threshold] ++ (n ++ (records.flatten ++ [])))), ?_, ⟨rfl, rfl⟩, id,
        p.networkId, _, rfl, hid, c, _, _, rfl, hc, _, (p.keys.map toHex, p.threshold), _, rfl, ⟨p.keys, _, _, ⟨rfl, hkeys, rfl⟩, rfl, rfl⟩,
        n, _, _, rfl, hn, _, p.records.map RecordParts.record, _, rfl,
        ⟨List.length_map _, records, records_parts.mpr ⟨_, rfl, hrecords⟩, rfl⟩, rfl, rfl⟩
      simp only [List.append_assoc, List.append_nil, List.singleton_append]
  · constructor
    · rintro (h | ⟨_, _, _, rfl, ⟨rfl, rfl⟩, h | ⟨id, networkId, _, rfl, hid, h | ⟨c, _, _, rfl, hc,
        h | ⟨_, _, _, rfl, ⟨keys, t, _, ⟨rfl, hkeys, rfl⟩, rfl, rfl⟩, h | ⟨n, count, _, rfl, hn, h | ⟨_, _, _, _, _, h⟩⟩⟩⟩⟩⟩)
      · exact h.elim
      · exact .networkId _ h rfl
      · exact h.elim
      · obtain ⟨keys, rfl, hkeys, rfl⟩ := h
        exact .threshold networkId keys ⟨hkeys, id, c, hid, hc, rfl⟩
      · exact h.elim
      · obtain ⟨xs, rs, _, hxs, hlt, rfl, y, hy, rfl⟩ := h
        obtain ⟨ps, rfl, hps⟩ := records_parts.mp hxs
        rw [List.length_map] at hlt
        refine .curatorId networkId keys _ n y t count xs ps ⟨hkeys, id, c, hid, hc, rfl⟩ hn hps hlt hy ?_
        simp only [List.append_assoc, List.singleton_append]
      · exact h.elim
    · intro h
      refine .inr ?_
      cases h with
      | networkId y hy hb => exact ⟨_, _, y, hb, ⟨rfl, rfl⟩, .inl hy⟩
      | threshold networkId keys h =>
        obtain ⟨hkeys, id, c, hid, hc, rfl⟩ := h
        exact ⟨_, _, _, rfl, ⟨rfl, rfl⟩, .inr ⟨id, networkId, _, rfl, hid, .inr ⟨c, _, _, rfl, hc, .inl ⟨keys, rfl, hkeys, rfl⟩⟩⟩⟩
      | curatorId networkId keys front n y t count xs ps hfront hn hxs hlt hy hb =>
        obtain ⟨hkeys, id, c, hid, hc, rfl⟩ := hfront
        refine ⟨schemaVersion, _, id ++ (c ++ (keys.flatten ++ [t] ++ (n ++ (xs.flatten ++ (schemaVersion ++ y))))), ?_, ⟨rfl, rfl⟩,
          .inr ⟨id, networkId, _, rfl, hid, .inr ⟨c, _, _, rfl, hc, .inr ⟨_, (keys.map toHex, t), _, rfl,
            ⟨keys, t, _, ⟨rfl, hkeys, rfl⟩, rfl, rfl⟩, .inr ⟨n, count, _, rfl, hn, .inl ⟨xs, ps.map RecordParts.record, _,
              records_parts.mpr ⟨ps, rfl, hxs⟩, by rwa [List.length_map], rfl, y, hy, rfl⟩⟩⟩⟩⟩⟩
        rw [hb]
        simp only [List.append_assoc, List.singleton_append]

/-- What the decoder accepts, and what it returns. -/
theorem deserialize_iff {b : Bytes} {s : RegistryState} :
    deserializeRegistryState b = .ok s ↔ ∃ p : StateParts, p.state = s ∧ StateText VarintText b p := by
  rw [← parses_state.whole_iff, deserialize_eq, bind_eq_ok]
  constructor
  · rintro ⟨⟨s', o⟩, h, hend⟩
    obtain ⟨_, ho, hs⟩ := bind_eq_ok.mp hend
    cases hs
    have ho : o = b.length := require_eq_ok.mp ho
    rwa [ho] at h
  · intro h
    exact ⟨_, h, by rw [require_of _ rfl]; rfl⟩

theorem deserialize_wrong {b : Bytes} :
    (∃ e, deserializeRegistryState b = .error e ∧ Uncontrolled e) ↔ ReadsWrong b := by
  have h : (∃ e, stateReader b 0 = .error e ∧ Uncontrolled e) ↔ 0 ≤ b.length ∧ ReadsWrong (b.drop 0) := parses_state.wrong
  rw [List.drop_zero] at h
  refine Iff.trans ?_ (h.trans (and_iff_right (Nat.zero_le _)))
  rw [deserialize_eq]
  constructor
  · rintro ⟨e, he, hbad⟩
    rcases bind_eq_error.mp he with he | ⟨p, -, he⟩
    · exact ⟨e, he, hbad⟩
    · rcases bind_eq_error.mp he with he | ⟨_, -, he⟩
      · rw [require_eq_error] at he
        exact absurd rfl (he.2 ▸ hbad)
      · cases he
  · rintro ⟨e, he, hbad⟩
    exact ⟨e, bind_eq_error.mpr (.inl he), hbad⟩

/-! ## What the encoder writes -/

theorem encodeStr_iff {s : Str} {x : Bytes} : encodeStr s = .ok x ↔ StrText ShortestText x s := by
  rw [encodeStr, bind_eq_ok]
  constructor
  · rintro ⟨raw, hraw, h⟩
    obtain ⟨hs, rfl⟩ := encodeUtf8_eq_ok.mp hraw
    obtain ⟨n, hn, h⟩ := bind_eq_ok.mp h
    cases h
    exact ⟨hs, n, hn, rfl⟩
  · rintro ⟨hs, n, hn, rfl⟩
    exact ⟨_, encodeUtf8_eq_ok.mpr ⟨hs, rfl⟩, bind_eq_ok.mpr ⟨n, hn, rfl⟩⟩

theorem fromHexOrRaise_toHex (d : Bytes) : fromHexOrRaise (toHex d) = .ok d := fromHexOrRaise_eq_ok.mpr (fromHex_toHex d)

theorem hexOrZeros_digits {d : Bytes} (h : d.length = 32) :
    hexOrZeros (if d = List.replicate 32 0 then none else some (toHex d)) = .ok d := by
  by_cases hzero : d = List.replicate 32 0
  · rw [if_pos hzero, hzero]
    rfl
  · rw [if_neg hzero]
    cases hd : toHex d with
    | nil =>
      obtain rfl : d = [] := toHex_inj hd
      cases h
    | cons a t =>
      change fromHexOrRaise (a :: t) = .ok d
      rw [← hd, fromHexOrRaise_toHex]

theorem revocation_digits {d : Bytes} (h : d.length = 8) :
    toBytesLE 8 (Option.getD (if fromLE d = 0xFFFFFFFFFFFFFFFF then none else some (fromLE d)) 0xFFFFFFFFFFFFFFFF : Nat) = .ok d := by
  by_cases hmax : fromLE d = 0xFFFFFFFFFFFFFFFF
  · rw [if_pos hmax, Option.getD_none, ← hmax, toBytesLE_fromLE h]
  · rw [if_neg hmax, Option.getD_some, toBytesLE_fromLE h]

theorem serializeRecord_iff {p : RecordParts} {x : Bytes} : serializeRecord p.record = .ok x ↔ RecordText ShortestText x p := by
  have hversion : toBytesLE 4 GOVERNANCE_SCHEMA_VERSION = .ok schemaVersion := by rfl
  unfold serializeRecord RecordText RecordParts.record recordOf
  simp only [hversion, toBytesLE_fromLE p.activation_length, fromHexOrRaise_toHex, hexOrZeros_digits p.previous_length,
    hexOrZeros_digits p.latest_length, revocation_digits p.revocation_length, ok_bind, bind_eq_ok, encodeStr_iff,
    Except.ok.injEq, RecordParts.fields, List.append_assoc]
  exact exists_congr fun id => and_congr_right fun _ => eq_comm

theorem concatOk_iff {α β : Type} {f : α → Except PyErr Bytes} {g : β → α} {R : Bytes → β → Prop}
    (hf : ∀ b x, f (g b) = .ok x ↔ R x b) : ∀ {l : List β} {out : Bytes},
    concatOk f (l.map g) = .ok out ↔ ∃ xs, List.Forall₂ R xs l ∧ out = xs.flatten
  | [], out => by
    constructor
    · intro h
      cases h
      exact ⟨[], .nil, rfl⟩
    · rintro ⟨xs, hxs, rfl⟩
      cases hxs
      rfl
  | b :: l, out => by
    simp only [List.map_cons, concatOk, bind_eq_ok, concatOk_iff hf, hf]
    constructor
    · rintro ⟨x, hx, _, ⟨xs, hxs, rfl⟩, h⟩
      cases h
      exact ⟨x :: xs, .cons hx hxs, rfl⟩
    · rintro ⟨_, hxs, rfl⟩
      cases hxs with
      | cons hx hxs => exact ⟨_, hx, _, ⟨_, hxs, rfl⟩, rfl⟩

theorem concatOk_keys (keys : List Bytes) : concatOk fromHexOrRaise (keys.map toHex) = .ok keys.flatten :=
  (concatOk_iff fun b x => by rw [fromHexOrRaise_toHex, Except.ok.injEq]).mpr ⟨keys, List.forall₂_refl keys, rfl⟩

/-- The parts of the state with its records in order. -/
def StateParts.sorted (p : StateParts) : StateParts :=
  { p with records := Lex.sortOn utf8Key (fun r => utf8 r.curatorId) p.records }

theorem sortRecords_parts {ps : List RecordParts} (h : ∀ p ∈ ps, p.curatorId.any isSurrogate = false) :
    sortRecords (ps.map RecordParts.record) =
      .ok ((Lex.sortOn utf8Key (fun r => utf8 r.curatorId) ps).map RecordParts.record) := by
  have hmap : ∀ r ∈ ps.map RecordParts.record, r.curatorId.any isSurrogate = false := by
    intro r hr
    obtain ⟨p, hp, rfl⟩ := List.mem_map.mp hr
    exact h p hp
  obtain ⟨l, hl⟩ := sortRecords_ok_iff.mpr hmap
  have hsort : (Lex.sortOn utf8Key (fun p : RecordParts => utf8 p.curatorId) ps).map RecordParts.record =
      Lex.sortOn utf8Key (fun r : CuratorRecord => utf8 r.curatorId) (ps.map RecordParts.record) :=
    List.map_insertionSort _ _ _ _ fun _ _ _ _ => Iff.rfl
  rw [hl, (sortRecords_ok hl).1, hsort]

theorem serialize_iff {p : StateParts} {b : Bytes} (hkeys : ∀ k ∈ p.keys, k.length = 32)
    (hids : ∀ r ∈ p.records, r.curatorId.any isSurrogate = false) :
    serializeRegistryState p.state = .ok b ↔ StateText ShortestText b p.sorted := by
  have hversion : toBytesLE 4 GOVERNANCE_SCHEMA_VERSION = .ok schemaVersion := by rfl
  have hthreshold : toBytesLE 1 p.threshold.toNat = .ok [p.threshold] := by
    have h := toBytesLE_fromLE (b := [p.threshold]) rfl
    rwa [fromLE, fromLE, Nat.mul_zero, Nat.add_zero] at h
  unfold serializeRegistryState StateText KeysText StateParts.state StateParts.sorted
  simp only [sortRecords_parts hids, hversion, hthreshold, concatOk_keys, ok_bind, bind_eq_ok, encodeStr_iff,
    concatOk_iff fun _ _ => serializeRecord_iff, Except.ok.injEq, List.length_map]
  constructor
  · rintro ⟨id, hid, c, hc, n, hn, _, ⟨xs, hxs, rfl⟩, rfl⟩
    exact ⟨_, n, xs, ⟨hkeys, id, c, hid, hc, rfl⟩, hn, hxs, by simp only [List.append_assoc, List.cons_append, List.nil_append]⟩
  · rintro ⟨_, n, xs, ⟨-, id, c, hid, hc, rfl⟩, hn, hxs, rfl⟩
    exact ⟨id, hid, c, hc, n, hn, _, ⟨xs, hxs, rfl⟩, by simp only [List.append_assoc, List.cons_append, List.nil_append]⟩

/-! ## Canonical decoding -/

theorem shortest_varint {x : Bytes} {n : Nat} (h : ShortestText x n) : VarintText x n := by
  unfold ShortestText encodeVarint at h
  have hback : ∀ k, n < 256 ^ k → fromLE (leBytes k n) = n := fun k hk => fromLE_leBytes k n hk
  split_ifs at h with h₁ h₂ h₃ h₄
  · cases h
    have hbyte : (UInt8.ofNat (n % 256)).toNat = n := by
      rw [UInt8.toNat_ofNat']
      omega
    have hone := VarintText.one (UInt8.ofNat (n % 256)) (by rw [UInt8.lt_iff_toNat_lt, hbyte]; exact h₁)
    rwa [hbyte] at hone
  · cases h
    have htwo := VarintText.two (leBytes 2 n) (leBytes_length _ _)
    rwa [hback 2 (by omega)] at htwo
  · cases h
    have hfour := VarintText.four (leBytes 4 n) (leBytes_length _ _)
    rwa [hback 4 (by omega)] at hfour
  · cases h
    have height := VarintText.eight (leBytes 8 n) (leBytes_length _ _)
    rwa [hback 8 (by omega)] at height
  · cases h

section
variable {V V' : Bytes → Nat → Prop} {b : Bytes} {p : StateParts}

theorem StrText.mono (hV : ∀ {x n}, V x n → V' x n) {x : Bytes} {s : Str} (h : StrText V x s) : StrText V' x s := by
  obtain ⟨hs, n, hn, rfl⟩ := h
  exact ⟨hs, n, hV hn, rfl⟩

theorem RecordText.mono (hV : ∀ {x n}, V x n → V' x n) {x : Bytes} {p : RecordParts} (h : RecordText V x p) :
    RecordText V' x p := by
  obtain ⟨id, hid, rfl⟩ := h
  exact ⟨id, hid.mono hV, rfl⟩

theorem StateText.mono (hV : ∀ {x n}, V x n → V' x n) (h : StateText V b p) : StateText V' b p := by
  obtain ⟨_, n, xs, ⟨hkeys, id, c, hid, hc, rfl⟩, hn, hxs, rfl⟩ := h
  exact ⟨_, n, xs, ⟨hkeys, id, c, hid.mono hV, hV hc, rfl⟩, hV hn, hxs.imp fun _ _ hx => hx.mono hV, rfl⟩

theorem StateText.keys (h : StateText V b p) : ∀ k ∈ p.keys, k.length = 32 := by
  obtain ⟨_, n, xs, ⟨hkeys, -⟩, -⟩ := h
  exact hkeys

theorem StateText.ids (h : StateText V b p) : ∀ r ∈ p.records, r.curatorId.any isSurrogate = false := by
  obtain ⟨_, n, xs, -, -, hxs, -⟩ := h
  intro r hr
  obtain ⟨i, hi, rfl⟩ := List.getElem_of_mem hr
  obtain ⟨id, hid, -⟩ := hxs.get (by rw [hxs.length_eq]; exact hi) hi
  exact hid.1

end

theorem sorted_pairwise (p : StateParts) :
    p.sorted.records.Pairwise fun r r' => Lex.lexLe utf8Key (utf8 r.curatorId) (utf8 r'.curatorId) = true := by
  have total : Std.Total fun r r' : RecordParts => Lex.lexLe utf8Key (utf8 r.curatorId) (utf8 r'.curatorId) = true :=
    ⟨fun _ _ => Lex.lexLe_total _ _ _⟩
  have trans : IsTrans RecordParts fun r r' => Lex.lexLe utf8Key (utf8 r.curatorId) (utf8 r'.curatorId) = true :=
    ⟨fun _ _ _ => Lex.lexLe_trans _⟩
  exact List.pairwise_insertionSort _ p.records

theorem sorted_eq {p : StateParts}
    (h : p.records.Pairwise fun r r' => Lex.lexLe utf8Key (utf8 r.curatorId) (utf8 r'.curatorId) = true) : p.sorted = p := by
  rw [StateParts.sorted, Lex.sortOn, h.insertionSort_eq]

/-- Decoding is canonical, or refused by `RegistryError`, exactly where no text goes
wrong and a text of the grammar is a canonical one. -/
theorem canonical_decoding_iff (b : Bytes) :
    ((∃ e, deserializeRegistryState b = .error e ∧ e.kind = .registryError) ∨
      ∃ s, deserializeRegistryState b = .ok s ∧ serializeRegistryState s = .ok b) ↔
    ¬ ReadsWrong b ∧ ((∃ p, StateText VarintText b p) → CanonicalText b) := by
  constructor
  · rintro (⟨e, he, hkind⟩ | ⟨s, hs, hb⟩)
    · constructor
      · intro hwrong
        obtain ⟨e', he', hbad⟩ := deserialize_wrong.mpr hwrong
        rw [he, Except.error.injEq] at he'
        exact hbad (he' ▸ hkind)
      · rintro ⟨p, hp⟩
        rw [deserialize_iff.mpr ⟨p, rfl, hp⟩] at he
        cases he
    · obtain ⟨p, rfl, hp⟩ := deserialize_iff.mp hs
      constructor
      · intro hwrong
        obtain ⟨e, he, -⟩ := deserialize_wrong.mpr hwrong
        rw [hs] at he
        cases he
      · exact fun _ => ⟨p.sorted, (serialize_iff hp.keys hp.ids).mp hb, sorted_pairwise p⟩
  · rintro ⟨hwrong, hcanonical⟩
    cases hd : deserializeRegistryState b with
    | error e =>
      refine .inl ⟨e, rfl, ?_⟩
      by_contra hbad
      exact hwrong (deserialize_wrong.mp ⟨e, hd, hbad⟩)
    | ok s =>
      obtain ⟨p, rfl, hp⟩ := deserialize_iff.mp hd
      obtain ⟨q, hq, hsorted⟩ := hcanonical ⟨p, hp⟩
      have hread := deserialize_iff.mpr ⟨q, rfl, hq.mono shortest_varint⟩
      rw [hd, Except.ok.injEq] at hread
      refine .inr ⟨_, rfl, ?_⟩
      rw [hread, serialize_iff hq.keys hq.ids, sorted_eq hsorted]
      exact hq

/-- The state without network, keys and records, its first length in three bytes. -/
def longLength : Bytes := [1, 0, 0, 0, 0xFD, 0, 0, 0, 0, 0]

theorem longLength_accepted : ¬ ∀ b : Bytes,
    (∃ e, deserializeRegistryState b = .error e ∧ e.kind = .registryError) ∨
      ∃ s, deserializeRegistryState b = .ok s ∧ serializeRegistryState s = .ok b := by
  intro hall
  have hread : deserializeRegistryState longLength =
      .ok { records := [], governanceVersion := 1, networkId := [], governanceKeys := [], threshold := 0 } := by rfl
  rcases hall longLength with ⟨e, he, -⟩ | ⟨s, hs, hb⟩
  · rw [hread] at he
    cases he
  · rw [hread, Except.ok.injEq] at hs
    subst hs
    have hwritten : serializeRegistryState
        { records := [], governanceVersion := 1, networkId := [], governanceKeys := [], threshold := 0 } =
        .ok [1, 0, 0, 0, 0, 0, 0, 0] := by rfl
    rw [hwritten] at hb
    cases hb

end ChainBreaker
