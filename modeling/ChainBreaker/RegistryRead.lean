import ChainBreaker.Commitment
import ChainBreaker.KeyOwners
import ChainBreaker.Lib.OffsetReader
import ChainBreaker.StorageFormats

/-!
# Reading a registry state back

The bytes of a state read back as the state with its hexadecimal strings spelled
by `bytes.hex`, and without the heights and hashes that the format takes for
absent (`deserialize_serialize`). That is the state itself exactly when it is
spelled so already (`registry_round_trip_iff`).
-/

namespace ChainBreaker

open Fallible OffsetReader

/-! ## The decoders -/

def decodeVarint (data : Bytes) (offset : Nat) : Except PyErr (Nat × Nat) :=
  match data[offset]? with
  | none => raise .registryError "varint truncated" []
  | some first =>
    if first < 0xFD then .ok (first.toNat, offset + 1)
    else if first = 0xFD then .ok (fromLE (slice data (offset + 1) 2), offset + 3)
    else if first = 0xFE then .ok (fromLE (slice data (offset + 1) 4), offset + 5)
    else if first = 0xFF then .ok (fromLE (slice data (offset + 1) 8), offset + 9)
    else raise .registryError "invalid varint marker" []

def decodeBytes (data : Bytes) (offset : Nat) : Except PyErr (Bytes × Nat) := do
  let (length, offset) ← decodeVarint data offset
  require (offset + length ≤ data.length) (registryError "bytes truncated")
  .ok (slice data offset length, offset + length)

def decodeStr (data : Bytes) (offset : Nat) : Except PyErr (Str × Nat) := do
  let (raw, offset) ← decodeBytes data offset
  let s ← decodeUtf8 raw
  .ok (s, offset)

def deserializeRecord (data : Bytes) (offset : Nat) : Except PyErr (CuratorRecord × Nat) := do
  let schemaVersion := fromLE (slice data offset 4)
  let offset := offset + 4
  require (schemaVersion = GOVERNANCE_SCHEMA_VERSION)
    ⟨.registryError, "record schema version % unsupported", [.int schemaVersion]⟩
  let (curatorId, offset) ← decodeStr data offset
  let publicKeyHex := toHex (slice data offset 32)
  let offset := offset + 32
  let activationHeight := fromLE (slice data offset 8)
  let offset := offset + 8
  let revocationRaw := fromLE (slice data offset 8)
  let offset := offset + 8
  let revocationHeight := if revocationRaw = 0xFFFFFFFFFFFFFFFF then none else some revocationRaw
  let previousRaw := slice data offset 32
  let offset := offset + 32
  let previousKeyHex := if previousRaw = List.replicate 32 0 then none else some (toHex previousRaw)
  let registrationTxid := toHex (slice data offset 32)
  let offset := offset + 32
  let latestRaw := slice data offset 32
  let offset := offset + 32
  let latestRotationTxid := if latestRaw = List.replicate 32 0 then none else some (toHex latestRaw)
  .ok ({ curatorId, publicKeyHex, activationHeight, revocationHeight, previousKeyHex, registrationTxid,
         latestRotationTxid }, offset)

def deserializeRegistryState (data : Bytes) : Except PyErr RegistryState := do
  require (4 ≤ data.length) (registryError "state data too short")
  let governanceVersion := fromLE (slice data 0 4)
  require (governanceVersion = GOVERNANCE_SCHEMA_VERSION)
    ⟨.registryError, "state schema version % unsupported", [.int governanceVersion]⟩
  let (networkId, offset) ← decodeStr data 4
  let (keyCount, offset) ← decodeVarint data offset
  require (offset + keyCount * 32 ≤ data.length) (registryError "governance keys truncated")
  let governanceKeys := (List.range keyCount).map fun i => toHex (slice data (offset + i * 32) 32)
  let offset := offset + keyCount * 32
  let threshold ← orRaise data[offset]? (err .indexError "index out of range")
  let (recordCount, offset) ← decodeVarint data (offset + 1)
  let (records, offset) ← times deserializeRecord recordCount data offset
  require (offset = data.length)
    ⟨.registryError, "trailing bytes after state deserialization: %", [.int (data.length - offset)]⟩
  .ok { records, governanceVersion, networkId, governanceKeys, threshold := threshold.toNat }

/-! ## What the format keeps -/

/-- `x if raw != sentinel else None`. -/
def CuratorRecord.canonical (r : CuratorRecord) : CuratorRecord where
  curatorId := r.curatorId
  publicKeyHex := canonicalHash r.publicKeyHex
  activationHeight := r.activationHeight
  revocationHeight := r.revocationHeight.filter (· ≠ 0xFFFFFFFFFFFFFFFF)
  previousKeyHex := (r.previousKeyHex.map canonicalHash).filter (· ≠ zeroHash)
  registrationTxid := canonicalHash r.registrationTxid
  latestRotationTxid := (r.latestRotationTxid.map canonicalHash).filter (· ≠ zeroHash)

def RegistryState.canonical (s : RegistryState) : RegistryState :=
  { s with governanceKeys := s.governanceKeys.map canonicalHash, records := s.records.map CuratorRecord.canonical }

/-- The hexadecimal digits of a digest. -/
def IsDigest (t : Str) : Prop := ∃ d : Bytes, d.length = 32 ∧ t = toHex d

/-- What the reducer sees to: keys of thirty-two bytes, and ids that are digests. -/
structure CuratorRecord.Regular (r : CuratorRecord) : Prop where
  publicKey : IsHex32 r.publicKeyHex
  previous : ∀ k, r.previousKeyHex = some k → IsHex32 k
  registration : IsDigest r.registrationTxid
  latest : ∀ t, r.latestRotationTxid = some t → IsDigest t

structure RegistryState.Regular (s : RegistryState) : Prop where
  version : s.governanceVersion = GOVERNANCE_SCHEMA_VERSION
  keys : ∀ k ∈ s.governanceKeys, IsHex32 k
  records : ∀ r ∈ s.records, r.Regular
  sorted : sortRecords s.records = .ok s.records

/-! ## One field -/

theorem slice_after {front skip x post : Bytes} {k n : Nat} (hk : skip.length = k) (hn : x.length = n) :
    slice (front ++ (skip ++ (x ++ post))) (front.length + k) n = x := by
  rw [← List.append_assoc]
  exact slice_mid (by rw [List.length_append, hk]) hn

/-- The number behind a marker. -/
theorem marked_at (pre post : Bytes) (marker : UInt8) (k n : Nat) :
    (pre ++ (marker :: leBytes k n ++ post))[pre.length]? = some marker ∧
      slice (pre ++ (marker :: leBytes k n ++ post)) (pre.length + 1) k = leBytes k n :=
  ⟨by simp, @slice_after pre [marker] (leBytes k n) post 1 k rfl (leBytes_length _ _)⟩

theorem decodeVarint_reads {n : Nat} {b : Bytes} (h : encodeVarint n = .ok b) : Reads decodeVarint b n := by
  intro pre post
  unfold encodeVarint at h
  unfold decodeVarint
  split_ifs at h with h₁ h₂ h₃ h₄
  · cases h
    have hbyte : (UInt8.ofNat (n % 256)).toNat = n := by
      rw [UInt8.toNat_ofNat']
      omega
    have hat : (pre ++ (leBytes 1 n ++ post))[pre.length]? = some (UInt8.ofNat (n % 256)) := by simp [leBytes]
    have hlt : UInt8.ofNat (n % 256) < 0xFD := by
      rw [UInt8.lt_iff_toNat_lt, hbyte]
      exact h₁
    rw [hat]
    dsimp only
    rw [if_pos hlt, hbyte, leBytes_length]
  · cases h
    obtain ⟨hat, hval⟩ := marked_at pre post 0xFD 2 n
    rw [hat]
    dsimp only
    rw [if_neg (by decide), if_pos rfl, hval, fromLE_leBytes _ _ (by omega), List.length_cons, leBytes_length]
  · cases h
    obtain ⟨hat, hval⟩ := marked_at pre post 0xFE 4 n
    rw [hat]
    dsimp only
    rw [if_neg (by decide), if_neg (by decide), if_pos rfl, hval, fromLE_leBytes _ _ (by omega), List.length_cons,
      leBytes_length]
  · cases h
    obtain ⟨hat, hval⟩ := marked_at pre post 0xFF 8 n
    rw [hat]
    dsimp only
    rw [if_neg (by decide), if_neg (by decide), if_neg (by decide), if_pos rfl, hval, fromLE_leBytes _ _ (by omega),
      List.length_cons, leBytes_length]
  · cases h

theorem decodeBytes_reads {d b : Bytes} (h : encodeBytes d = .ok b) : Reads decodeBytes b d := by
  obtain ⟨n, hn, h⟩ := bind_eq_ok.mp h
  cases h
  intro pre post
  have hvar := (decodeVarint_reads hn).run (show pre.length = pre.length from rfl)
    (show pre ++ ((n ++ d) ++ post) = pre ++ (n ++ (d ++ post)) by simp)
  rw [decodeBytes, hvar, ok_bind]
  dsimp only
  rw [require_of _ (by simp only [List.length_append]; omega), ok_bind, List.append_assoc, slice_after rfl rfl,
    List.length_append, Nat.add_assoc]

theorem decodeStr_reads {s : Str} {b : Bytes} (h : encodeStr s = .ok b) : Reads decodeStr b s := by
  obtain ⟨raw, hraw, h⟩ := bind_eq_ok.mp h
  obtain ⟨hsurr, rfl⟩ := encodeUtf8_eq_ok.mp hraw
  intro pre post
  rw [decodeStr, decodeBytes_reads h pre post, ok_bind]
  dsimp only
  rw [decodeUtf8_utf8 hsurr, ok_bind]

theorem canonicalHash_of {k : Str} {raw : Bytes} (h : fromHex k = some raw) : canonicalHash k = toHex raw := by
  rw [canonicalHash, h, Option.getD_some]

theorem zeroHash_eq : zeroHash = toHex (List.replicate 32 0) := by decide

theorem IsHex32.length_of {k : Str} {raw : Bytes} (hk : IsHex32 k) (h : fromHex k = some raw) : raw.length = 32 := by
  obtain ⟨raw', hraw, hlen⟩ := hk
  rw [h] at hraw
  cases hraw
  exact hlen

theorem IsDigest.isHex32 {t : Str} (h : IsDigest t) : IsHex32 t := by
  obtain ⟨d, hlen, rfl⟩ := h
  exact ⟨d, fromHex_toHex d, hlen⟩

/-- A key or an id that may be absent. -/
theorem hexOrZeros_back {o : Option Str} {raw : Bytes} (ho : ∀ k, o = some k → IsHex32 k) (h : hexOrZeros o = .ok raw) :
    raw.length = 32 ∧
      (if raw = List.replicate 32 0 then none else some (toHex raw)) = (o.map canonicalHash).filter (· ≠ zeroHash) := by
  cases o with
  | none =>
    cases h
    exact ⟨rfl, if_pos rfl⟩
  | some k =>
    obtain ⟨raw', hraw', hlen⟩ := ho k rfl
    have hne : k ≠ [] := by
      rintro rfl
      cases hraw'
      cases hlen
    have hraw : fromHexOrRaise k = .ok raw := by
      cases k with
      | nil => exact absurd rfl hne
      | cons x k => exact h
    rw [fromHexOrRaise_eq_ok, hraw'] at hraw
    cases hraw
    refine ⟨hlen, ?_⟩
    rw [Option.map_some, canonicalHash_of hraw', zeroHash_eq]
    by_cases hzero : raw = List.replicate 32 0
    · rw [if_pos hzero, hzero, Option.filter_some, if_neg (by simp)]
    · rw [if_neg hzero, Option.filter_some, if_pos (by simpa using fun h => hzero (toHex_inj h))]

/-- A number in a field of its own. -/
theorem toBytesLE_back {len n : Nat} {b : Bytes} (h : toBytesLE len n = .ok b) : b.length = len ∧ fromLE b = n := by
  obtain ⟨-, hlt, rfl⟩ := toBytesLE_eq_ok.mp h
  rw [Int.toNat_natCast]
  exact ⟨leBytes_length _ _, fromLE_leBytes _ _ (by exact_mod_cast hlt)⟩

theorem revocation_back {R : Option Nat} {b : Bytes} (h : toBytesLE 8 (R.getD 0xFFFFFFFFFFFFFFFF) = .ok b) :
    b.length = 8 ∧ (if fromLE b = 0xFFFFFFFFFFFFFFFF then none else some (fromLE b)) =
      R.filter (· ≠ 0xFFFFFFFFFFFFFFFF) := by
  obtain ⟨hlen, hback⟩ := toBytesLE_back h
  refine ⟨hlen, ?_⟩
  rw [hback]
  cases R with
  | none => rfl
  | some R =>
    rw [Option.getD_some, Option.filter_some]
    by_cases hR : R = 0xFFFFFFFFFFFFFFFF
    · rw [if_pos hR, if_neg (by simp [hR])]
    · rw [if_neg hR, if_pos (by simp [hR])]

/-! ## A record -/

theorem deserializeRecord_reads {r : CuratorRecord} {b : Bytes} (hr : r.Regular) (h : serializeRecord r = .ok b) :
    Reads deserializeRecord b r.canonical := by
  simp only [serializeRecord, bind_eq_ok] at h
  obtain ⟨v, hv, c, hc, pk, hpk, a, ha, e, he, p, hp, g, hg, t, ht, h⟩ := h
  cases h
  obtain ⟨hvlen, hvback⟩ := toBytesLE_back hv
  obtain ⟨halen, haback⟩ := toBytesLE_back ha
  obtain ⟨helen, heback⟩ := revocation_back he
  obtain ⟨hplen, hpback⟩ := hexOrZeros_back hr.previous hp
  obtain ⟨htlen, htback⟩ := hexOrZeros_back (fun t e => (hr.latest t e).isHex32) ht
  rw [fromHexOrRaise_eq_ok] at hpk hg
  have hpklen := hr.publicKey.length_of hpk
  have hglen := hr.registration.isHex32.length_of hg
  intro pre post
  generalize hdata : pre ++ ((v ++ c ++ pk ++ a ++ e ++ p ++ g ++ t) ++ post) = data
  have hversion : slice data pre.length 4 = v := by
    rw [← hdata]
    simp only [List.append_assoc]
    exact slice_mid rfl hvlen
  have hid : decodeStr data (pre.length + 4) = .ok (r.curatorId, pre.length + 4 + c.length) := by
    have hbehind : data = (pre ++ v) ++ (c ++ (pk ++ (a ++ (e ++ (p ++ (g ++ (t ++ post))))))) := by
      rw [← hdata]
      simp only [List.append_assoc]
    exact (decodeStr_reads hc).run (by rw [List.length_append, hvlen]) hbehind
  obtain ⟨front, hfront, hsplit⟩ : ∃ front : Bytes, front.length = pre.length + 4 + c.length ∧
      data = front ++ (pk ++ (a ++ (e ++ (p ++ (g ++ (t ++ post)))))) := by
    refine ⟨pre ++ v ++ c, by simp only [List.length_append, hvlen], ?_⟩
    rw [← hdata]
    simp only [List.append_assoc]
  -- the fields behind the id, each at its place
  have hkeyAt : slice data front.length 32 = pk := by
    rw [hsplit]
    exact slice_mid rfl hpklen
  have hactivationAt : slice data (front.length + 32) 8 = a := by
    rw [hsplit]
    exact slice_after hpklen halen
  have hrevocationAt : slice data (front.length + 40) 8 = e := by
    rw [hsplit, ← List.append_assoc pk]
    exact slice_after (by simp only [List.length_append, hpklen, halen]) helen
  have hpreviousAt : slice data (front.length + 48) 32 = p := by
    rw [hsplit, ← List.append_assoc pk, ← List.append_assoc (pk ++ _)]
    exact slice_after (by simp only [List.length_append, hpklen, halen, helen]) hplen
  have hregistrationAt : slice data (front.length + 80) 32 = g := by
    rw [hsplit, ← List.append_assoc pk, ← List.append_assoc (pk ++ _), ← List.append_assoc (pk ++ _ ++ _)]
    exact slice_after (by simp only [List.length_append, hpklen, halen, helen, hplen]) hglen
  have hlatestAt : slice data (front.length + 112) 32 = t := by
    rw [hsplit, ← List.append_assoc pk, ← List.append_assoc (pk ++ _), ← List.append_assoc (pk ++ _ ++ _),
      ← List.append_assoc (pk ++ _ ++ _ ++ _)]
    exact slice_after (by simp only [List.length_append, hpklen, halen, helen, hplen, hglen]) htlen
  have hend : pre.length + (v ++ c ++ pk ++ a ++ e ++ p ++ g ++ t).length = front.length + 144 := by
    simp only [List.length_append, hvlen, hpklen, halen, helen, hplen, hglen, htlen, hfront]
    omega
  unfold deserializeRecord
  dsimp only
  rw [hversion, hvback, require_of _ rfl, ok_bind, hid, ok_bind]
  dsimp only
  rw [← hfront, hend]
  simp only [Nat.add_assoc, Nat.reduceAdd, hkeyAt, hactivationAt, hrevocationAt, hpreviousAt, hregistrationAt, hlatestAt,
    haback, heback, hpback, htback, ← canonicalHash_of hpk, ← canonicalHash_of hg]
  rfl

/-! ## A state -/

theorem concatOk_flatten {α : Type} {f : α → Except PyErr Bytes} : ∀ {l : List α} {out : Bytes}, concatOk f l = .ok out →
    ∃ bs : List Bytes, List.Forall₂ (fun a b => f a = .ok b) l bs ∧ out = bs.flatten
  | [], out, h => by
    cases h
    exact ⟨[], .nil, rfl⟩
  | a :: l, out, h => by
    simp only [concatOk, bind_eq_ok] at h
    obtain ⟨b, hb, rest, hrest, h⟩ := h
    cases h
    obtain ⟨bs, hbs, rfl⟩ := concatOk_flatten hrest
    exact ⟨b :: bs, .cons hb hbs, rfl⟩

/-- Pieces of one length, cut out again. -/
theorem slices_flatten {n : Nat} : ∀ {bs : List Bytes} (front post : Bytes), (∀ b ∈ bs, b.length = n) →
    ((List.range bs.length).map fun i => slice (front ++ (bs.flatten ++ post)) (front.length + i * n) n) = bs
  | [], front, post, _ => rfl
  | b :: bs, front, post, h => by
    have hb := h b (.head _)
    have ih := @slices_flatten n bs (front ++ b) post fun x hx => h x (.tail _ hx)
    rw [List.length_cons, List.range_succ_eq_map, List.map_cons, List.map_map]
    congr 1
    · rw [Nat.zero_mul, Nat.add_zero, List.flatten_cons, List.append_assoc]
      exact slice_mid rfl hb
    · conv_rhs => rw [← ih]
      refine List.map_congr_left fun i _ => ?_
      simp only [Function.comp_apply, List.flatten_cons, List.append_assoc, List.length_append, hb]
      congr 1
      rw [Nat.succ_mul]
      omega

theorem keys_back {ks : List Str} {bs : List Bytes} (h : List.Forall₂ (fun k b => fromHexOrRaise k = .ok b) ks bs)
    (hks : ∀ k ∈ ks, IsHex32 k) :
    (∀ b ∈ bs, b.length = 32) ∧ bs.flatten.length = bs.length * 32 ∧ ks.map canonicalHash = bs.map toHex := by
  induction h with
  | nil => exact ⟨nofun, rfl, rfl⟩
  | @cons k b ks bs hk _ ih =>
    rw [fromHexOrRaise_eq_ok] at hk
    obtain ⟨hlen, hflat, hback⟩ := ih fun x hx => hks x (.tail _ hx)
    have hb := (hks k (.head _)).length_of hk
    refine ⟨List.forall_mem_cons.mpr ⟨hb, hlen⟩, ?_, ?_⟩
    · rw [List.flatten_cons, List.length_append, hb, hflat, List.length_cons]
      omega
    · rw [List.map_cons, List.map_cons, canonicalHash_of hk, hback]

theorem records_back {rs : List CuratorRecord} {bs : List Bytes}
    (h : List.Forall₂ (fun r b => serializeRecord r = .ok b) rs bs) (hrs : ∀ r ∈ rs, r.Regular) :
    List.Forall₂ (Reads deserializeRecord) bs (rs.map CuratorRecord.canonical) := by
  induction h with
  | nil => exact .nil
  | @cons r b rs bs hr _ ih =>
    exact .cons (deserializeRecord_reads (hrs r (.head _)) hr) (ih fun x hx => hrs x (.tail _ hx))

/-- **Reading back.** The bytes of a state read as its canonical spelling. -/
theorem deserialize_serialize {s : RegistryState} {b : Bytes} (hs : s.Regular) (h : serializeRegistryState s = .ok b) :
    deserializeRegistryState b = .ok s.canonical := by
  simp only [serializeRegistryState, bind_eq_ok] at h
  obtain ⟨l, hl, v, hv, n, hn, kc, hkc, ks, hks, t, ht, rc, hrc, rs, hrs, h⟩ := h
  cases h
  obtain rfl := Except.ok.inj (hs.sorted.symm.trans hl)
  obtain ⟨hvlen, hvback⟩ := toBytesLE_back hv
  obtain ⟨htlen, htback⟩ := toBytesLE_back ht
  obtain ⟨keys, hkeys, rfl⟩ := concatOk_flatten hks
  obtain ⟨recs, hrecs, rfl⟩ := concatOk_flatten hrs
  obtain ⟨t₀, rfl⟩ := List.length_eq_one_iff.mp htlen
  have hkeyCount := hkeys.length_eq
  obtain ⟨hkeyLen, hkeysLen, hkeysBack⟩ := keys_back hkeys hs.keys
  have hrecsBack := records_back hrecs hs.records
  generalize hdata : v ++ n ++ kc ++ keys.flatten ++ [t₀] ++ rc ++ recs.flatten = data
  have hversion : slice data 0 4 = v := by
    rw [← hdata]
    simp only [List.append_assoc]
    exact @slice_mid [] _ _ _ _ rfl hvlen
  have hnetwork : decodeStr data 4 = .ok (s.networkId, 4 + n.length) := by
    have hbehind : data = v ++ (n ++ (kc ++ (keys.flatten ++ ([t₀] ++ (rc ++ recs.flatten))))) := by
      rw [← hdata]
      simp only [List.append_assoc]
    exact (decodeStr_reads hn).run hvlen hbehind
  have hcount : decodeVarint data (4 + n.length) = .ok (keys.length, 4 + n.length + kc.length) := by
    have hbehind : data = (v ++ n) ++ (kc ++ (keys.flatten ++ ([t₀] ++ (rc ++ recs.flatten)))) := by
      rw [← hdata]
      simp only [List.append_assoc]
    rw [← hkeyCount]
    exact (decodeVarint_reads hkc).run (by rw [List.length_append, hvlen]) hbehind
  obtain ⟨front, hfront, hsplit⟩ : ∃ front : Bytes, front.length = 4 + n.length + kc.length ∧
      data = front ++ (keys.flatten ++ ([t₀] ++ (rc ++ recs.flatten))) := by
    refine ⟨v ++ n ++ kc, by simp only [List.length_append, hvlen], ?_⟩
    rw [← hdata]
    simp only [List.append_assoc]
  have hkeysAt : ((List.range keys.length).map fun i => toHex (slice data (front.length + i * 32) 32)) =
      s.governanceKeys.map canonicalHash := by
    rw [hkeysBack, hsplit]
    conv_rhs => rw [← slices_flatten front ([t₀] ++ (rc ++ recs.flatten)) hkeyLen]
    rw [List.map_map]
    rfl
  have hthreshold : data[front.length + keys.length * 32]? = some t₀ := by
    rw [hsplit, ← List.append_assoc, ← hkeysLen, ← List.length_append]
    simp
  have hrecordCount : decodeVarint data (front.length + keys.length * 32 + 1) =
      .ok (s.records.length, front.length + keys.length * 32 + 1 + rc.length) := by
    have hbehind : data = (front ++ keys.flatten ++ [t₀]) ++ (rc ++ recs.flatten) := by
      rw [hsplit]
      simp only [List.append_assoc]
    exact (decodeVarint_reads hrc).run (by simp only [List.length_append, hkeysLen, List.length_singleton]) hbehind
  have hrecords : times deserializeRecord s.records.length data (front.length + keys.length * 32 + 1 + rc.length) =
      .ok (s.records.map CuratorRecord.canonical, data.length) := by
    have hbehind : data = (front ++ keys.flatten ++ [t₀] ++ rc) ++ (recs.flatten ++ []) := by
      rw [hsplit]
      simp only [List.append_assoc, List.append_nil]
    have hat : (front ++ keys.flatten ++ [t₀] ++ rc).length = front.length + keys.length * 32 + 1 + rc.length := by
      simp only [List.length_append, hkeysLen, List.length_singleton]
    have hread := (times_reads hrecsBack).run hat hbehind
    rw [List.length_map] at hread
    rw [hread, hbehind]
    simp only [List.length_append, hkeysLen, List.length_singleton, List.length_nil, Nat.add_zero]
  have hlong : 4 ≤ data.length := by
    rw [hsplit, List.length_append]
    omega
  have hkeysFit : front.length + keys.length * 32 ≤ data.length := by
    rw [hsplit, ← hkeysLen]
    simp only [List.length_append]
    omega
  have hthresholdBack : t₀.toNat = s.threshold := by
    rw [← htback]
    simp [fromLE]
  unfold deserializeRegistryState
  rw [require_of _ hlong, ok_bind, hversion, hvback, hs.version]
  dsimp only
  rw [require_of _ rfl, ok_bind, hnetwork, ok_bind]
  dsimp only
  rw [hcount, ok_bind]
  dsimp only
  rw [← hfront, require_of _ hkeysFit, ok_bind, hkeysAt, hthreshold]
  simp only [orRaise, ok_bind, hrecordCount, hrecords, require, if_true, hthresholdBack]
  rw [RegistryState.canonical, hs.version]

/-! ## States of a chain are regular -/

section
variable {s s' : RegistryState} {height : Nat} {txid : Str} {tx : GovernanceTx}

theorem sortRecords_again {l l' : List CuratorRecord} (h : sortRecords l = .ok l') : sortRecords l' = .ok l' := by
  obtain ⟨rfl, hclean⟩ := sortRecords_ok h
  obtain ⟨l'', h''⟩ := sortRecords_ok_iff.mpr fun r hr => hclean r (Lex.mem_sortOn.mp hr)
  rw [h'', (sortRecords_ok h'').1, Lex.sortOn_sortOn]

theorem apply_sorted {E : Primitives} {ctx : GovernanceContext}
    (h : applyRegistryTransaction E s tx height txid ctx = .ok s') : sortRecords s'.records = .ok s'.records := by
  cases tx with
  | register tx =>
    simp only [applyRegistryTransaction, applyRegister, bind_eq_ok] at h
    obtain ⟨_, -, _, -, _, -, _, -, _, -, l, hsort, h⟩ := h
    cases h
    exact sortRecords_again hsort
  | rotate tx =>
    simp only [applyRegistryTransaction, applyRotate, bind_eq_ok] at h
    obtain ⟨_, -, _, -, _, -, _, -, _, -, _, -, _, -, _, -, l, hsort, h⟩ := h
    cases h
    exact sortRecords_again hsort
  | revoke tx =>
    simp only [applyRegistryTransaction, applyRevoke, bind_eq_ok] at h
    obtain ⟨_, -, _, -, _, -, _, -, _, -, _, -, _, -, _, -, l, hsort, h⟩ := h
    cases h
    exact sortRecords_again hsort

theorem regular_of_frame (hf : s'.frame = s.frame) (h : s.Regular) (hrec : ∀ r ∈ s'.records, r.Regular)
    (hsorted : sortRecords s'.records = .ok s'.records) : s'.Regular := by
  simp only [RegistryState.frame, Prod.mk.injEq] at hf
  obtain ⟨hv, -, hk, -⟩ := hf
  exact ⟨hv.trans h.version, hk ▸ h.keys, hrec, hsorted⟩

/-- **Step.** An accepted transaction leaves a regular state. -/
theorem regular_step {E : Primitives} {ctx : GovernanceContext} (h : s.Regular) (hc : tx.Clean) (ht : IsDigest txid)
    (happly : applyRegistryTransaction E s tx height txid ctx = .ok s') : s'.Regular := by
  have hsorted := apply_sorted happly
  have hsome : ∀ t, some txid = some t → IsDigest t := fun t e => by cases e; exact ht
  cases applyRegistryTransaction_ok E happly with
  | register tx _ _ _ hw hf =>
    refine regular_of_frame hf h ((Rewrote.forall_iff hw h.records).mpr (List.forall_mem_singleton.mpr ?_)) hsorted
    exact ⟨hc.key, by rintro _ ⟨⟩, ht, by rintro _ ⟨⟩⟩
  | rotate tx old _ hid _ _ hw hf =>
    have hold := h.records old (byId_records hid)
    refine regular_of_frame hf h ((Rewrote.forall_iff hw h.records).mpr (List.forall_mem_cons.mpr
      ⟨?_, List.forall_mem_singleton.mpr ?_⟩)) hsorted
    · exact { hold with latest := hsome }
    · have hprevious : ∀ k, some old.publicKeyHex = some k → IsHex32 k := fun k e => by cases e; exact hold.publicKey
      exact ⟨hc.key, hprevious, hold.registration, hsome⟩
  | revoke tx old _ hid _ _ _ hw hf =>
    have hold := h.records old (byId_records hid)
    have hrec := (Rewrote.forall_iff hw h.records).mpr (List.forall_mem_singleton.mpr { hold with latest := hsome })
    simp only [RegistryState.frame, Prod.mk.injEq] at hf
    obtain ⟨hv, -, hk, -⟩ := hf
    exact ⟨hv, by rw [hk]; rintro _ ⟨⟩, hrec, hsorted⟩

theorem genesisKeys_hex : ∀ {keys : List Str} {u : Unit}, RegistryState.checkGenesisKeys keys = .ok u →
    ∀ k ∈ keys, IsHex32 k
  | [], _, _ => nofun
  | key :: rest, u, h => by
    simp only [RegistryState.checkGenesisKeys, bind_eq_ok, require_eq_ok, fromHexOrRaise_eq_ok] at h
    obtain ⟨raw, hraw, _, hlen, h⟩ := h
    exact List.forall_mem_cons.mpr ⟨⟨raw, hraw, hlen⟩, genesisKeys_hex h⟩

theorem genesisState_regular {l : Ledger} (h : l.genesisState = .ok s) : s.Regular := by
  obtain ⟨g, hg, h⟩ := bind_eq_ok.mp h
  obtain ⟨hnil, hversion, -, hkeys, -⟩ := genesis_ok hg
  have hregular : g.Regular := by
    simp only [RegistryState.genesis, bind_eq_ok] at hg
    obtain ⟨_, -, _, -, _, hcheck, -⟩ := hg
    refine ⟨hversion, fun k hk => ?_, by rw [hnil]; nofun, by rw [hnil]; rfl⟩
    rw [hkeys] at hk
    exact genesisKeys_hex hcheck k (Lex.mem_sortOn.mp hk)
  split at h <;> cases h
  · exact { hregular with }
  · exact hregular

theorem canonicalTxid_digest {E : Primitives} {body : Fields} (h : canonicalTxid E body = .ok txid) : IsDigest txid := by
  obtain ⟨m, -, rfl⟩ := canonicalTxid_ok_iff.mp h
  exact ⟨_, E.sha256_length m, rfl⟩

/-- **Run.** -/
theorem visits_regular {E : Primitives} {l : Ledger} {pre : List (Json × Nat)} (h : l.Visits E pre s) : s.Regular := by
  obtain ⟨g, hg, hrun⟩ := h
  refine run_inv _ (fun p _ u u' hu hstep => ?_) (genesisState_regular hg) hrun
  rcases applyTransaction_ok hstep with ⟨-, rfl⟩ | ⟨tx, txid, hparse, htxid, happly⟩
  · exact hu
  · exact regular_step hu (parse_clean hparse) (canonicalTxid_digest htxid) happly

end

/-! ## States that come back -/

/-- What the format cannot tell apart does not occur: keys are 64 lowercase
digits, no curator leaves at the greatest height of eight bytes, and no key
replaced or rotation id is zero. -/
structure CuratorRecord.Canonical (r : CuratorRecord) : Prop where
  publicKey : isLowerHash r.publicKeyHex = true
  revocation : r.revocationHeight ≠ some 0xFFFFFFFFFFFFFFFF
  previous : ∀ k, r.previousKeyHex = some k → isLowerHash k = true ∧ k ≠ zeroHash
  latest : r.latestRotationTxid ≠ some zeroHash

structure RegistryState.Canonical (s : RegistryState) : Prop where
  keys : ∀ k ∈ s.governanceKeys, isLowerHash k = true
  records : ∀ r ∈ s.records, r.Canonical

theorem lowerDigit_back {x : CodePoint} (h : isLowerHex x = true) :
    isSpace x = false ∧ ∃ n, hexVal x = some n ∧ n < 16 ∧ hexDigit n = x := by
  simp only [isLowerHex, Bool.or_eq_true, Bool.and_eq_true, decide_eq_true_eq] at h
  have hspace : isSpace x = false := by
    simp only [isSpace, Bool.or_eq_false_iff, Bool.and_eq_false_iff, decide_eq_false_iff_not, beq_eq_false_iff_ne]
    omega
  have hval : ∀ n, n = x.val → Fin.ofNat 0x110000 n = x := by
    rintro n rfl
    exact Fin.ext (Nat.mod_eq_of_lt x.isLt)
  refine ⟨hspace, ?_⟩
  unfold hexVal hexDigit
  rcases h with h | h
  · exact ⟨x.val - 48, if_pos h, by omega, hval _ (by rw [if_pos (by omega)]; omega)⟩
  · refine ⟨x.val - 87, ?_, by omega, hval _ (by rw [if_neg (by omega)]; omega)⟩
    rw [if_neg (by omega), if_pos h]

theorem toHex_lowerHex (k : Str) : (∀ x ∈ k, isLowerHex x = true) → ∀ raw, fromHex k = some raw → toHex raw = k := by
  induction k using fromHex.induct with
  | case1 =>
    intro _ raw h
    cases h
    rfl
  | case2 x hx =>
    intro hall
    exact absurd hx (by rw [(lowerDigit_back (hall x (.head _))).1]; decide)
  | case3 x hx =>
    intro _ raw h
    rw [fromHex, if_neg hx] at h
    cases h
  | case4 x y rest hx ih =>
    intro hall
    exact absurd hx (by rw [(lowerDigit_back (hall x (.head _))).1]; decide)
  | case5 x y rest hx a b hb ha ih =>
    intro hall raw h
    obtain ⟨-, a', ha', halt, hadigit⟩ := lowerDigit_back (hall x (.head _))
    obtain ⟨-, b', hb', hblt, hbdigit⟩ := lowerDigit_back (hall y (.tail _ (.head _)))
    rw [ha] at ha'
    rw [hb] at hb'
    cases ha'
    cases hb'
    simp only [fromHex, if_neg hx, ha, hb, Option.map_eq_some_iff] at h
    obtain ⟨raw', hraw', rfl⟩ := h
    have hbyte : (UInt8.ofNat (16 * a + b)).toNat = 16 * a + b := by
      rw [UInt8.toNat_ofNat']
      omega
    have hhigh : (16 * a + b) / 16 = a := by omega
    have hlow : (16 * a + b) % 16 = b := by omega
    rw [toHex, hbyte, hhigh, hlow, hadigit, hbdigit, ih (fun z hz => hall z (.tail _ (.tail _ hz))) raw' hraw']
  | case6 x y rest hx hnone =>
    intro hall
    obtain ⟨-, a, ha, -⟩ := lowerDigit_back (hall x (.head _))
    obtain ⟨-, b, hb, -⟩ := lowerDigit_back (hall y (.tail _ (.head _)))
    exact absurd hb (hnone a b ha)

theorem canonicalHash_eq_iff {k : Str} (hk : IsHex32 k) : canonicalHash k = k ↔ isLowerHash k = true := by
  obtain ⟨raw, hraw, hlen⟩ := hk
  rw [canonicalHash_of hraw]
  constructor
  · rintro rfl
    exact isLowerHash_toHex hlen
  · intro h
    exact toHex_lowerHex k (lowerHash_chars h).2 raw hraw

theorem filter_eq_some_iff {o : Option Str} (ho : ∀ k, o = some k → IsHex32 k) :
    (o.map canonicalHash).filter (· ≠ zeroHash) = o ↔ ∀ k, o = some k → isLowerHash k = true ∧ k ≠ zeroHash := by
  cases o with
  | none => exact iff_of_true rfl nofun
  | some k =>
    have hback := canonicalHash_eq_iff (ho k rfl)
    simp only [Option.map_some, Option.filter_some, Option.some.injEq, forall_eq']
    rw [← hback]
    constructor
    · intro h
      split at h
      · rename_i hne
        rw [Option.some.injEq] at h
        rw [h] at hne
        exact ⟨h, by simpa using hne⟩
      · cases h
    · rintro ⟨hk, hne⟩
      rw [hk, if_pos (by simpa using hne)]

theorem record_canonical_iff {r : CuratorRecord} (hr : r.Regular) : r.canonical = r ↔ r.Canonical := by
  have hrevocation : r.revocationHeight.filter (· ≠ 0xFFFFFFFFFFFFFFFF) = r.revocationHeight ↔
      r.revocationHeight ≠ some 0xFFFFFFFFFFFFFFFF := by
    cases r.revocationHeight with
    | none => exact iff_of_true rfl nofun
    | some R => by_cases hR : R = 0xFFFFFFFFFFFFFFFF <;> simp [Option.filter_some, hR]
  have hregistration : canonicalHash r.registrationTxid = r.registrationTxid := by
    obtain ⟨d, -, hd⟩ := hr.registration
    rw [hd, canonicalHash_toHex]
  have hlatest : (r.latestRotationTxid.map canonicalHash).filter (· ≠ zeroHash) = r.latestRotationTxid ↔
      r.latestRotationTxid ≠ some zeroHash := by
    rw [filter_eq_some_iff fun t e => (hr.latest t e).isHex32]
    constructor
    · exact fun h e => (h _ e).2 rfl
    · rintro h t e
      obtain ⟨d, hlen, hd⟩ := hr.latest t e
      exact ⟨hd ▸ isLowerHash_toHex hlen, fun hzero => h (hzero ▸ e)⟩
  constructor
  · intro h
    exact ⟨(canonicalHash_eq_iff hr.publicKey).mp (congrArg CuratorRecord.publicKeyHex h),
      hrevocation.mp (congrArg CuratorRecord.revocationHeight h),
      (filter_eq_some_iff hr.previous).mp (congrArg CuratorRecord.previousKeyHex h),
      hlatest.mp (congrArg CuratorRecord.latestRotationTxid h)⟩
  · intro h
    rw [CuratorRecord.canonical, (canonicalHash_eq_iff hr.publicKey).mpr h.publicKey, hrevocation.mpr h.revocation,
      (filter_eq_some_iff hr.previous).mpr h.previous, hregistration, hlatest.mpr h.latest]

theorem map_eq_self_iff {α : Type} {f : α → α} : ∀ {l : List α}, l.map f = l ↔ ∀ a ∈ l, f a = a
  | [] => by simp
  | a :: l => by simp [map_eq_self_iff (l := l)]

theorem canonical_iff {s : RegistryState} (hs : s.Regular) : s.canonical = s ↔ s.Canonical := by
  have hkeys : s.governanceKeys.map canonicalHash = s.governanceKeys ↔ ∀ k ∈ s.governanceKeys, isLowerHash k = true := by
    rw [map_eq_self_iff]
    exact forall₂_congr fun k hk => canonicalHash_eq_iff (hs.keys k hk)
  have hrecords : s.records.map CuratorRecord.canonical = s.records ↔ ∀ r ∈ s.records, r.Canonical := by
    rw [map_eq_self_iff]
    exact forall₂_congr fun r hr => record_canonical_iff (hs.records r hr)
  constructor
  · intro h
    exact ⟨hkeys.mp (congrArg RegistryState.governanceKeys h), hrecords.mp (congrArg RegistryState.records h)⟩
  · intro h
    rw [RegistryState.canonical, hkeys.mpr h.keys, hrecords.mpr h.records]

section
variable {E : Primitives} {l : Ledger} {pre : List (Json × Nat)} {s : RegistryState} {b : Bytes}

/-- A state of a chain reads back as itself exactly when it is canonical. -/
theorem visits_back (hs : l.Visits E pre s) (hb : serializeRegistryState s = .ok b) :
    deserializeRegistryState b = .ok s ↔ s.Canonical := by
  rw [deserialize_serialize (visits_regular hs) hb, Except.ok.injEq, canonical_iff (visits_regular hs)]

/-- **Round trip.** A state of a chain that has bytes reads back as itself
exactly when it is canonical, and no other canonical state of any chain has
its bytes or, where hashing is free of collisions on the two, its root. -/
theorem registry_round_trip_iff (hs : l.Visits E pre s) (hb : serializeRegistryState s = .ok b) :
    (deserializeRegistryState b = .ok s ↔ s.Canonical) ∧
      ∀ {l' : Ledger} {pre' : List (Json × Nat)} {s' : RegistryState} {b' : Bytes}, l'.Visits E pre' s' →
        serializeRegistryState s' = .ok b' → s.Canonical → s'.Canonical →
          (b' = b → s' = s) ∧
          (CollisionFree E (fun m => m = b ∨ m = b') → registryRoot E s' = registryRoot E s → s' = s) := by
  refine ⟨visits_back hs hb, fun {l' pre' s' b'} hs' hb' hcanon hcanon' => ?_⟩
  have hsame : b' = b → s' = s := by
    rintro rfl
    exact Except.ok.inj (((visits_back hs' hb').mpr hcanon').symm.trans ((visits_back hs hb).mpr hcanon))
  refine ⟨hsame, fun hfree hroot => hsame ?_⟩
  have hdigest : E.sha256 b' = E.sha256 b := by
    have hraw := hroot
    simp only [registryRoot, hb, hb', ok_bind, hashSingleHex, Except.ok.injEq] at hraw
    exact toHex_inj hraw
  exact hfree _ _ (.inr rfl) (.inl rfl) hdigest

end

/-! ## Alice's chain, and a key with a line feed -/

theorem aliceRotated_visited : aliceLedger.Visits alicePrimitives [registerPlaced, rotatePlaced] aliceRotated :=
  ⟨_, aliceLedger_genesis, (run_cons_ok _).mpr ⟨_, registerPlaced_step, (run_cons_ok _).mpr ⟨_, rotatePlaced_step, rfl⟩⟩⟩

theorem aliceRotated_canonical : aliceRotated.Canonical where
  keys := by decide
  records := by
    intro r hr
    rcases List.mem_cons.mp hr with rfl | hr
    · exact ⟨by decide, by decide, nofun, by decide⟩
    · rcases List.mem_singleton.mp hr with rfl
      exact ⟨by decide, nofun, by decide, by decide⟩

theorem aliceRotated_bytes : ∃ b, serializeRegistryState aliceRotated = .ok b ∧ true = true :=
  of_okAnd (by decide +kernel)

theorem registry_round_trip_alice : ∃ b, serializeRegistryState aliceRotated = .ok b ∧
    deserializeRegistryState b = .ok aliceRotated := by
  obtain ⟨b, hb, -⟩ := aliceRotated_bytes
  exact ⟨b, hb, (registry_round_trip_iff aliceRotated_visited hb).1.mpr aliceRotated_canonical⟩

/-- The state that gives bob a key with a line feed reads back without it. -/
theorem registry_key_changed : ¬ ∀ (E : Primitives) (args : LedgerArgs) (l : Ledger) (calls : List (AnyBlock × Int))
    (i : Nat) (s : RegistryState) (b : Bytes), Ledger.init E args = .ok l → (l.offers E calls).stateAt E i = .ok s →
      serializeRegistryState s = .ok b → deserializeRegistryState b = .ok s := by
  intro h
  obtain ⟨l₀, s, b, hl₀, hstate, howners, hb⟩ := sharedBlock_state
  have hback := h sharedPrimitives _ _ [(.v2 sharedBlock, 1704090439)] 1 s b hl₀ hstate hb
  obtain ⟨p, -, hvisits⟩ := stateAt_visits hstate
  have hbob : (str "bob", sharedKey ++ [10]) ∈ s.records.map CuratorRecord.owner := by
    rw [howners]
    exact .tail _ (.head _)
  obtain ⟨r, hr, howner⟩ := List.mem_map.mp hbob
  have hlower := (((visits_back hvisits hb).mp hback).records r hr).publicKey
  rw [(Prod.mk.inj howner).2] at hlower
  exact absurd hlower (by decide)

end ChainBreaker
