import ChainBreaker.Identity
import ChainBreaker.KeyOrder
import ChainBreaker.RegistryRead
import ChainBreaker.RustJson

/-!
# The genesis of the Rust verifier

The verifier reads an identity document, encodes the registry of its genesis
and searches the nonce of its own. On every document that both implementations
accept, the bytes, the root, the header found and its hash are those of Python,
and the one search is exhausted if the other is (`same_genesis`).
-/

namespace ChainBreaker

open Fallible

/-- `[u8; HASH_LEN]`. -/
abbrev Hash32 := { b : Bytes // b.length = HASH_LEN }

inductive VerifyError where
  | hex
  | protocol (text : String) (args : List Json)
  | length (expected got : Nat)
  | expectFailed (text : String)

/-- `ok_or_else`. -/
def okOrElse {α : Type} (o : Option α) (e : VerifyError) : Except VerifyError α :=
  match o with
  | some a => .ok a
  | none => .error e

theorem okOrElse_eq_ok {α : Type} {o : Option α} {e : VerifyError} {a : α} : okOrElse o e = .ok a ↔ o = some a := by
  cases o <;> simp [okOrElse]

/-- Pairs of digits, and nothing between them. -/
def hexPairs : Str → Option Bytes
  | [] => some []
  | [_] => none
  | c :: d :: rest =>
    match hexVal c, hexVal d with
    | some a, some b => (hexPairs rest).map (UInt8.ofNat (16 * a + b) :: ·)
    | _, _ => none

/-- What the verifier takes from the crate `hex`. -/
structure HexCrate where
  decode : RustString → Option Bytes
  decode_eq : ∀ s, decode s = hexPairs s.chars

/-! ## Documents -/

/-- `value[name]`. -/
def Value.field (v : Value) (name : String) : Value :=
  match v with
  | .object fields => ((fields.find? fun f => f.1.chars = str name).map Prod.snd).getD .null
  | _ => .null

def Value.asStr : Value → Option RustString
  | .string s => some s
  | _ => none

def Value.asArray : Value → Option (List Value)
  | .array xs => some xs
  | _ => none

def Value.asU64 : Value → Option UInt64
  | .number n => if 0 ≤ n.val then some (UInt64.ofNat n.val.toNat) else none
  | _ => none

/-- `NetworkIdentity` of the verifier. -/
structure RustIdentity where
  networkId : RustString
  kind : RustString
  governanceKeys : List RustString
  governanceThreshold : UInt8
  genesisTimestamp : UInt64

def missing (text : String) : VerifyError := .protocol text []

namespace HexCrate

variable (H : HexCrate)

def checkKeys : List RustString → Except VerifyError Unit
  | [] => .ok ()
  | key :: rest => do
    require (key.bytes.length = 64) (.protocol "governance key must be 64 hex characters: %" [.str key.chars])
    let decoded ← okOrElse (H.decode key) .hex
    require (decoded.length = 32) (.protocol "governance key must decode to 32 bytes: %" [.str key.chars])
    checkKeys rest

def fromJson (value : Value) : Except VerifyError RustIdentity := do
  let networkId ← okOrElse (value.field "network_id").asStr (missing "missing network_id")
  let kind := (value.field "kind").asStr.getD ⟨str "test", by decide⟩
  let array ← okOrElse (value.field "governance_keys").asArray (missing "missing governance_keys")
  let governanceKeys ← collect (fun v => okOrElse v.asStr (missing "governance key must be string")) array
  require (governanceKeys ≠ []) (missing "governance_keys must contain at least one key")
  H.checkKeys governanceKeys
  let thresholdU64 ← okOrElse (value.field "governance_threshold").asU64 (missing "missing governance_threshold")
  require (thresholdU64.toNat ≤ 255) (missing "governance_threshold does not fit in one byte")
  let governanceThreshold := UInt8.ofNat thresholdU64.toNat
  require (governanceThreshold ≠ 0 ∧ governanceThreshold.toNat ≤ governanceKeys.length)
    (.protocol "governance_threshold must satisfy 1 <= threshold <= %" [.int governanceKeys.length])
  let genesisTimestamp ← okOrElse (value.field "genesis_timestamp").asU64 (missing "missing genesis_timestamp")
  .ok ⟨networkId, kind, Lex.sortOn utf8Key RustString.bytes governanceKeys, governanceThreshold, genesisTimestamp⟩

/-! ## Derivation -/

/-- `encode_varint` of the verifier. -/
def encodeVarint (n : UInt64) : Bytes :=
  if n.toNat < 0xFD then leBytes 1 n.toNat
  else if n.toNat ≤ 0xFFFF then 0xFD :: leBytes 2 n.toNat
  else if n.toNat ≤ 0xFFFFFFFF then 0xFE :: leBytes 4 n.toNat
  else 0xFF :: leBytes 8 n.toNat

def encodeStr (s : RustString) : Bytes := encodeVarint (UInt64.ofNat s.bytes.length) ++ s.bytes

def serializeGenesisRegistryState (identity : RustIdentity) : Except VerifyError Bytes := do
  let keys ← collect (fun key => okOrElse (H.decode key) (.expectFailed "validated governance key hex"))
    identity.governanceKeys
  .ok (leBytes 4 1 ++ encodeStr identity.networkId ++ encodeVarint (UInt64.ofNat identity.governanceKeys.length) ++
    keys.flatten ++ [identity.governanceThreshold] ++ encodeVarint 0)

/-- `hex_target_to_bytes`. -/
def hexTargetToBytes (hex : RustString) : Except VerifyError Hash32 :=
  match H.decode hex with
  | some raw =>
    if h : raw.length = HASH_LEN then .ok ⟨raw, h⟩ else .error (.expectFailed "hard-coded target must be valid hex")
  | none => .error (.expectFailed "hard-coded target must be valid hex")

end HexCrate

def GENESIS_TARGET_HEX : RustString :=
  ⟨str "0000ffff00000000000000000000000000000000000000000000000000000000", by decide⟩

/-- `HeaderV2` of the verifier. -/
structure RustHeaderV2 where
  version : UInt32
  prevHash : Hash32
  merkleRoot : Hash32
  registryRoot : Hash32
  timestamp : UInt64
  target : Hash32
  nonce : UInt64

def RustHeaderV2.encode (h : RustHeaderV2) : Bytes :=
  TYPE_HEADER :: (leBytes 4 h.version.toNat ++ (h.prevHash.val ++ (h.merkleRoot.val ++ (h.registryRoot.val ++
    (leBytes 8 h.timestamp.toNat ++ (h.target.val ++ leBytes 8 h.nonce.toNat))))))

def zeros32 : Hash32 := ⟨List.replicate 32 0, rfl⟩

/-- Both are big-endian. -/
def headerSatisfiesPow (hash target : Hash32) : Bool := Lex.lexLe utf8Key hash.val target.val

section
variable (E : Primitives)

def sha256Single (data : Bytes) : Hash32 := ⟨E.sha256 data, E.sha256_length data⟩

def RustHeaderV2.hash (h : RustHeaderV2) : Hash32 := sha256Single E (sha256Single E h.encode).val

/-- The loop of `mine_genesis_header`. -/
def mineLoop (target : Hash32) : Nat → RustHeaderV2 → Option RustHeaderV2
  | 0, _ => none
  | n + 1, header =>
    if headerSatisfiesPow (header.hash E) target then some header
    else mineLoop target n { header with nonce := header.nonce + 1 }

namespace HexCrate

variable (H : HexCrate)

def registryRoot (identity : RustIdentity) : Except VerifyError Hash32 := do
  let data ← H.serializeGenesisRegistryState identity
  .ok (sha256Single E data)

def mineGenesisHeader (identity : RustIdentity) (maxIterations : Nat) : Except VerifyError RustHeaderV2 := do
  let target ← H.hexTargetToBytes GENESIS_TARGET_HEX
  let root ← H.registryRoot E identity
  okOrElse (mineLoop E target maxIterations ⟨2, zeros32, zeros32, root, identity.genesisTimestamp, target, 0⟩)
    (.protocol "failed to mine genesis header for % within % iterations"
      [.str identity.networkId.chars, .int maxIterations])

def MINING_ITERATIONS : Nat := 10000000

def deriveGenesis (identity : RustIdentity) : Except VerifyError (RustHeaderV2 × Hash32) := do
  let header ← H.mineGenesisHeader E identity MINING_ITERATIONS
  .ok (header, header.hash E)

end HexCrate

end

/-! ## The same document in Python -/

/-- The arguments of `derive_network_identity` in a document. -/
structure IdentityDocument where
  networkId : Str
  governanceKeys : List Str
  governanceThreshold : Nat
  kind : NetworkKind
  genesisTimestamp : Int
  deriving DecidableEq

def NetworkKind.ofStr (s : Str) : NetworkKind :=
  if s = str "alpha" then .alpha
  else if s = str "dev" then .dev
  else if s = str "test" then .test
  else if s = str "production" then .production
  else .other s

def strings : List Json → Option (List Str)
  | [] => some []
  | .str s :: rest => (strings rest).map (s :: ·)
  | _ => none

/-- A threshold below zero is refused as zero is, and fields of other types by one side or the other. -/
def identityDocument : Json → Option IdentityDocument
  | .dict v =>
    match Fields.get v "network_id", Fields.get v "governance_keys", Fields.get v "governance_threshold",
        Fields.get v "kind", Fields.get v "genesis_timestamp" with
    | some (.str networkId), some (.list keys), some (.int threshold), some (.str kind), some (.int timestamp) =>
      (strings keys).map fun keys => ⟨networkId, keys, threshold.toNat, .ofStr kind, timestamp⟩
    | _, _, _, _, _ => none
  | _ => none

namespace IdentityDocument

/-- The registry of the genesis of `derive_network_identity`. -/
def genesisState (d : IdentityDocument) : RegistryState :=
  { records := [], governanceVersion := 1, networkId := d.networkId, governanceKeys := sortedKeys d.governanceKeys,
    threshold := d.governanceThreshold }

def derive (E : Primitives) (d : IdentityDocument) : Except PyErr NetworkIdentity :=
  deriveNetworkIdentity E d.networkId d.governanceKeys d.governanceThreshold d.kind d.genesisTimestamp
    HexCrate.MINING_ITERATIONS

/-- Python refuses nothing before the search. -/
structure Accepted (E : Primitives) (d : IdentityDocument) : Prop where
  kind : d.kind.valid = true
  keys : ∃ sorted, validateGovernanceKeysForIdentity E d.governanceKeys d.governanceThreshold d.kind.isAlphaKind =
    .ok sorted
  root : ∃ root, ChainBreaker.registryRoot E d.genesisState = .ok root

end IdentityDocument

/-! ## One header -/

/-- The header as Python holds it. -/
def RustHeaderV2.toPython (h : RustHeaderV2) : BlockHeaderV2 where
  version := h.version.toNat
  prevHash := toHex h.prevHash.val
  merkleRoot := toHex h.merkleRoot.val
  registryRoot := toHex h.registryRoot.val
  timestamp := h.timestamp.toNat
  target := fromBE h.target.val
  nonce := h.nonce.toNat

theorem toPython_bytes (h : RustHeaderV2) : h.toPython.bytes = .ok h.encode := by
  have hversion : structPack 4 (h.version.toNat : Int) = .ok (leBytes 4 h.version.toNat) :=
    structPack_nat.mpr ⟨h.version.toNat_lt, rfl⟩
  have htimestamp : structPack 8 (h.timestamp.toNat : Int) = .ok (leBytes 8 h.timestamp.toNat) :=
    structPack_nat.mpr ⟨h.timestamp.toNat_lt, rfl⟩
  have hnonce : structPack 8 (h.nonce.toNat : Int) = .ok (leBytes 8 h.nonce.toNat) :=
    structPack_nat.mpr ⟨h.nonce.toNat_lt, rfl⟩
  rw [BlockHeaderV2.bytes, BlockHeaderV2.toDict, RustHeaderV2.toPython, targetToHex_fromBE h.target.property, ok_bind,
    ok_bind, encodeHeaderV2, asCodecError_eq_ok]
  simp only [bind_eq_ok]
  exact ⟨_, hversion, _, encodeHash_toHex h.prevHash.property, _, encodeHash_toHex h.merkleRoot.property,
    _, encodeHash_toHex h.registryRoot.property, _, htimestamp, _, encodeHash_toHex h.target.property, _, hnonce, rfl⟩

theorem foldl_digits (acc : Nat) : ∀ b : Bytes,
    (toHex b).foldl (fun acc c => 16 * acc + (hexVal c).getD 0) acc = b.foldl (fun acc x => 256 * acc + x.toNat) acc
  | [] => rfl
  | x :: b => by
    have hx := x.toNat_lt
    rw [toHex, List.foldl_cons, List.foldl_cons, List.foldl_cons, (hexVal_hexDigit _ (by omega)).1,
      (hexVal_hexDigit _ (by omega)).1, Option.getD_some, Option.getD_some, foldl_digits _ b]
    congr 1
    omega

theorem hexNat_toHex (b : Bytes) : hexNat (toHex b) = fromBE b := foldl_digits 0 b

/-- Numbers written with as many bytes are in the order of their bytes. -/
theorem lexLe_iff_fromBE : ∀ {a b : Bytes}, a.length = b.length →
    (Lex.lexLe utf8Key a b = true ↔ fromBE a ≤ fromBE b)
  | [], [], _ => iff_of_true rfl (Nat.le_refl _)
  | x :: a, y :: b, h => by
    have hlen : a.length = b.length := Nat.succ.inj h
    have ha : fromBE a < 256 ^ a.length := by
      have hlt := fromLE_lt a.reverse
      rwa [← fromBE_reverse, List.reverse_reverse, List.length_reverse] at hlt
    have hb : fromBE b < 256 ^ a.length := by
      have hlt := fromLE_lt b.reverse
      rwa [← fromBE_reverse, List.reverse_reverse, List.length_reverse, ← hlen] at hlt
    have hcons : ∀ (z : UInt8) (d : Bytes), fromBE (z :: d) = z.toNat * 256 ^ d.length + fromBE d := by
      intro z d
      rw [← List.singleton_append, fromBE_append]
      simp [fromBE]
    have ih := lexLe_iff_fromBE hlen
    rw [hcons, hcons, ← hlen, Lex.lexLe, Bool.or_eq_true, Bool.and_eq_true, decide_eq_true_eq, beq_iff_eq, ih, utf8Key,
      utf8Key]
    rcases Nat.lt_trichotomy x.toNat y.toNat with hxy | hxy | hxy
    · have hmul : (x.toNat + 1) * 256 ^ a.length ≤ y.toNat * 256 ^ a.length := Nat.mul_le_mul_right _ hxy
      rw [Nat.succ_mul] at hmul
      exact iff_of_true (.inl hxy) (by omega)
    · rw [hxy]
      omega
    · have hmul : (y.toNat + 1) * 256 ^ a.length ≤ x.toNat * 256 ^ a.length := Nat.mul_le_mul_right _ hxy
      rw [Nat.succ_mul] at hmul
      exact iff_of_false (by omega) (by omega)

theorem headerSatisfiesPow_eq (hash target : Hash32) :
    satisfiesPow (toHex hash.val) (fromBE target.val : Nat) = headerSatisfiesPow hash target := by
  rw [satisfiesPow, hexNat_toHex, headerSatisfiesPow, Bool.eq_iff_iff, decide_eq_true_eq, Int.ofNat_le]
  exact (lexLe_iff_fromBE (hash.property.trans target.property.symm)).symm

section
variable {E : Primitives}

theorem toPython_hash (h : RustHeaderV2) : h.toPython.hash E = .ok (toHex (h.hash E).val) := by
  rw [BlockHeaderV2.hash, toPython_bytes, ok_bind]
  rfl

/-! ## One search -/

theorem toPython_next (h : RustHeaderV2) :
    { h.toPython with nonce := (h.toPython.nonce + 1) % NONCE_LIMIT } =
      ({ h with nonce := h.nonce + 1 } : RustHeaderV2).toPython := by
  have hnonce : ((h.nonce + 1).toNat : Int) = ((h.nonce.toNat : Int) + 1) % NONCE_LIMIT := by
    rw [UInt64.toNat_add, NONCE_LIMIT]
    push_cast
    rfl
  simp only [RustHeaderV2.toPython, hnonce]

/-- From one header both searches find one header, or none. -/
theorem searchNonce_eq (target : Hash32) : ∀ (n : Nat) (h : RustHeaderV2), h.target = target →
    searchNonce E n h.toPython = .ok ((mineLoop E target n h).map RustHeaderV2.toPython)
  | 0, _, _ => rfl
  | n + 1, h, htarget => by
    have hpow : satisfiesPow (toHex (h.hash E).val) h.toPython.target = headerSatisfiesPow (h.hash E) target := by
      rw [← htarget]
      exact headerSatisfiesPow_eq _ _
    rw [searchNonce, toPython_hash, ok_bind, hpow, mineLoop]
    by_cases hfound : headerSatisfiesPow (h.hash E) target = true
    · rw [if_pos hfound, if_pos hfound]
      rfl
    · rw [if_neg hfound, if_neg hfound, toPython_next]
      exact searchNonce_eq target n _ htarget

/-- The frozen genesis header has another nonce than the one the search starts from. -/
theorem encode_ne_alpha {h : RustHeaderV2} (hnonce : h.nonce = 0) : h.encode ≠ GENESIS_HEADER_BYTES := by
  intro he
  have hbytes := toPython_bytes h
  rw [he] at hbytes
  obtain ⟨d, hd, henc⟩ := bind_eq_ok.mp hbytes
  obtain ⟨d', hd', henc'⟩ := bind_eq_ok.mp alphaGenesis_bytes
  obtain ⟨_, -, hd⟩ := bind_eq_ok.mp hd
  obtain ⟨_, -, hd'⟩ := bind_eq_ok.mp hd'
  cases hd
  cases hd'
  have hinj := encodeHeaderV2_inj henc henc'
  simp only [HeaderDictV2.canonical, HeaderDictV2.mk.injEq] at hinj
  have hzero : h.toPython.nonce = 0 := by rw [RustHeaderV2.toPython, hnonce]; rfl
  rw [hzero] at hinj
  exact absurd hinj.2.2.2.2.2.2 (by decide)

theorem mineHeader_eq {target : Hash32} {n : Nat} {h : RustHeaderV2} (htarget : h.target = target) (hnonce : h.nonce = 0) :
    mineHeaderV2 E h.toPython n = .ok ((mineLoop E target n h).map RustHeaderV2.toPython) := by
  rw [mineHeaderV2, toPython_bytes, ok_bind, if_neg (encode_ne_alpha hnonce), searchNonce_eq target n h htarget, ite_self]

end

/-! ## One document -/

theorem hexPairs_reads {s : Str} : ∀ {b : Bytes}, hexPairs s = some b → fromHex s = some b ∧ asciiStr s = true := by
  have hdigit : ∀ {c : CodePoint} {n : Nat}, hexVal c = some n → isSpace c = false ∧ c.val < 127 := by
    intro c n h
    unfold hexVal at h
    simp only at h
    simp only [isSpace, Bool.or_eq_false_iff, Bool.and_eq_false_iff, decide_eq_false_iff_not, beq_eq_false_iff_ne]
    split_ifs at h <;> omega
  induction s using hexPairs.induct with
  | case1 =>
    intro b h
    cases h
    exact ⟨rfl, rfl⟩
  | case2 c =>
    intro b h
    cases h
  | case3 c d rest x y hy hx ih =>
    intro b h
    simp only [hexPairs, hx, hy, Option.map_eq_some_iff] at h
    obtain ⟨bs, hbs, rfl⟩ := h
    obtain ⟨hread, hascii⟩ := ih hbs
    obtain ⟨hspace, hc⟩ := hdigit hx
    obtain ⟨-, hd⟩ := hdigit hy
    refine ⟨?_, ?_⟩
    · rw [fromHex, hspace, hx, hy, hread]
      rfl
    · rw [asciiStr, List.all_cons, List.all_cons, decide_eq_true hc, decide_eq_true hd]
      exact hascii
  | case4 c d rest hnone =>
    intro b h
    unfold hexPairs at h
    split at h
    · rename_i x y hx hy
      exact absurd hy (hnone x y hx)
    · cases h

/-- One document, as Python and as the verifier read it. -/
structure IdentityDocument.Matches (d : IdentityDocument) (i : RustIdentity) : Prop where
  networkId : d.networkId = i.networkId.chars
  keys : sortedKeys d.governanceKeys = i.governanceKeys.map RustString.chars
  hex : ∀ key ∈ i.governanceKeys, ∃ raw, hexPairs key.chars = some raw
  threshold : d.governanceThreshold = i.governanceThreshold.toNat
  timestamp : d.genesisTimestamp = i.genesisTimestamp.toNat

section
variable {H : HexCrate}

theorem verifierKeys_hex : ∀ {keys : List RustString} {u : Unit}, H.checkKeys keys = .ok u →
    ∀ key ∈ keys, ∃ raw, hexPairs key.chars = some raw
  | [], _, _ => nofun
  | key :: rest, u, h => by
    simp only [HexCrate.checkKeys, bind_eq_ok, okOrElse_eq_ok] at h
    obtain ⟨_, -, raw, hraw, _, -, h⟩ := h
    rw [H.decode_eq] at hraw
    exact List.forall_mem_cons.mpr ⟨⟨raw, hraw⟩, verifierKeys_hex h⟩

theorem asStr_eq_some {v : Value} {s : RustString} : v.asStr = some s ↔ v = .string s := by
  cases v <;> simp [Value.asStr]

theorem asArray_eq_some {v : Value} {xs : List Value} : v.asArray = some xs ↔ v = .array xs := by
  cases v <;> simp [Value.asArray]

theorem asU64_some {v : Value} {n : UInt64} (h : v.asU64 = some n) : v.toJson = .int n.toNat := by
  cases v with
  | number m =>
    rw [Value.asU64] at h
    split at h
    · rename_i hm
      cases h
      have hlt := m.range.2
      rw [Value.toJson, UInt64.toNat_ofNat_of_lt' (by rw [UInt64.size]; omega), Int.toNat_of_nonneg hm]
    · cases h
  | _ => cases h

theorem strings_ok : ∀ {array : List Value} {keys : List RustString},
    collect (fun v => okOrElse v.asStr (missing "governance key must be string")) array = .ok keys →
    strings (array.map Value.toJson) = some (keys.map RustString.chars)
  | [], keys, h => by
    cases h
    rfl
  | v :: array, keys, h => by
    simp only [collect, bind_eq_ok, okOrElse_eq_ok, asStr_eq_some] at h
    obtain ⟨key, rfl, rest, hrest, h⟩ := h
    cases h
    rw [List.map_cons, Value.toJson, strings, strings_ok hrest]
    rfl

theorem get_field (name : String) : ∀ {fields : List (RustString × Value)} {j : Json},
    Fields.get (fields.map fun f => (f.1.chars, f.2.toJson)) name = some j →
    (Value.field (.object fields) name).toJson = j
  | [], _, h => by cases h
  | f :: fields, j, h => by
    rw [Fields.get, List.map_cons, List.lookup_cons] at h
    rw [Value.field]
    by_cases hf : f.1.chars = str name
    · rw [hf, beq_self_eq_true] at h
      cases h
      rw [List.find?_cons_of_pos (by simpa using hf)]
      rfl
    · rw [beq_eq_false_iff_ne.mpr (Ne.symm hf)] at h
      rw [List.find?_cons_of_neg (by simpa using hf)]
      exact get_field name h

theorem sortedKeys_chars {keys : List RustString} (h : ∀ key ∈ keys, asciiStr key.chars = true) :
    (Lex.sortOn utf8Key RustString.bytes keys).map RustString.chars = sortedKeys (keys.map RustString.chars) := by
  refine List.map_insertionSort _ _ _ _ fun a ha b hb => ?_
  change Lex.lexLe utf8Key (utf8 a.chars) (utf8 b.chars) = true ↔ Lex.lexLe charKey a.chars b.chars = true
  rw [lexLe_plain (h a ha) (h b hb)]

/-- Both implementations read the same identity. -/
theorem fromJson_matches {v : Value} {i : RustIdentity} {d : IdentityDocument} (h : H.fromJson v = .ok i)
    (hd : identityDocument v.toJson = some d) : d.Matches i := by
  simp only [HexCrate.fromJson, bind_eq_ok, okOrElse_eq_ok, require_eq_ok, asStr_eq_some, asArray_eq_some] at h
  obtain ⟨networkId, hnetworkId, array, harray, keys, hkeys, _, -, _, hcheck, n, hn, _, hfits, _, -, timestamp,
    htimestamp, h⟩ := h
  cases h
  have hhex := verifierKeys_hex hcheck
  cases v with
  | object fields =>
    rw [Value.toJson, fieldsToJson_eq, identityDocument] at hd
    split at hd
    · rename_i networkId' keys' threshold' kind' timestamp' hget₁ hget₂ hget₃ hget₄ hget₅
      obtain ⟨strs, hstrs, rfl⟩ := Option.map_eq_some_iff.mp hd
      have h₁ := get_field _ hget₁
      have h₂ := get_field _ hget₂
      have h₃ := get_field _ hget₃
      have h₅ := get_field _ hget₅
      rw [hnetworkId, Value.toJson, Json.str.injEq] at h₁
      rw [harray, Value.toJson, valuesToJson_eq, Json.list.injEq] at h₂
      rw [asU64_some hn, Json.int.injEq] at h₃
      rw [asU64_some htimestamp, Json.int.injEq] at h₅
      rw [← h₂, strings_ok hkeys, Option.some.injEq] at hstrs
      refine ⟨h₁.symm, ?_, fun key hkey => hhex key (Lex.mem_sortOn.mp hkey), ?_, h₅.symm⟩
      · rw [← hstrs]
        exact (sortedKeys_chars fun key hkey => (hexPairs_reads (hhex key hkey).choose_spec).2).symm
      · change threshold'.toNat = (UInt8.ofNat n.toNat).toNat
        rw [UInt8.toNat_ofNat_of_lt' (by rw [UInt8.size]; omega), ← h₃, Int.toNat_natCast]
    · cases hd
  | _ => rw [Value.toJson] at hd; cases hd

/-! ## One genesis -/

theorem encodeVarint_eq {n : Nat} {b : Bytes} (h : encodeVarint n = .ok b) :
    b = HexCrate.encodeVarint (UInt64.ofNat n) := by
  unfold encodeVarint at h
  have hnat : n ≤ 0xFFFFFFFFFFFFFFFF → (UInt64.ofNat n).toNat = n := fun hn =>
    UInt64.toNat_ofNat_of_lt' (by rw [UInt64.size]; omega)
  rw [HexCrate.encodeVarint]
  split at h
  · cases h
    rw [hnat (by omega), if_pos ‹_›]
  split at h
  · cases h
    rw [hnat (by omega), if_neg ‹_›, if_pos ‹_›]
  split at h
  · cases h
    rw [hnat (by omega), if_neg ‹_›, if_neg ‹_›, if_pos ‹_›]
  split at h
  · cases h
    rw [hnat ‹_›, if_neg ‹_›, if_neg ‹_›, if_neg ‹_›]
  · cases h

theorem encodeStr_eq {s : RustString} {b : Bytes} (h : encodeStr s.chars = .ok b) : b = HexCrate.encodeStr s := by
  simp only [encodeStr, bind_eq_ok, encodeUtf8_eq_ok, encodeBytes] at h
  obtain ⟨_, ⟨-, rfl⟩, n, hn, h⟩ := h
  cases h
  rw [encodeVarint_eq hn]
  rfl

theorem keys_eq : ∀ {keys : List RustString} {out : Bytes}, (∀ key ∈ keys, ∃ raw, hexPairs key.chars = some raw) →
    concatOk fromHexOrRaise (keys.map RustString.chars) = .ok out →
    ∃ raws, collect (fun key => okOrElse (H.decode key) (.expectFailed "validated governance key hex")) keys = .ok raws ∧
      raws.flatten = out
  | [], out, _, h => by
    cases h
    exact ⟨[], rfl, rfl⟩
  | key :: keys, out, hhex, h => by
    rw [List.forall_mem_cons] at hhex
    obtain ⟨raw, hraw⟩ := hhex.1
    simp only [List.map_cons, concatOk, bind_eq_ok, fromHexOrRaise_eq_ok] at h
    obtain ⟨raw', hraw', rest, hrest, h⟩ := h
    cases h
    obtain ⟨raws, hraws, rfl⟩ := keys_eq hhex.2 hrest
    rw [(hexPairs_reads hraw).1, Option.some.injEq] at hraw'
    subst hraw'
    refine ⟨raw :: raws, ?_, rfl⟩
    rw [collect, H.decode_eq, hraw, okOrElse, ok_bind, hraws]
    rfl

/-- The verifier writes the registry of the genesis as Python does. -/
theorem serialize_eq {d : IdentityDocument} {i : RustIdentity} {data : Bytes} (hm : d.Matches i)
    (h : serializeRegistryState d.genesisState = .ok data) : H.serializeGenesisRegistryState i = .ok data := by
  simp only [serializeRegistryState, IdentityDocument.genesisState, bind_eq_ok, toBytesLE_eq_ok] at h
  obtain ⟨records, hrecords, version, ⟨-, -, rfl⟩, networkId, hnetworkId, count, hcount, keys, hkeys, threshold,
    ⟨-, -, rfl⟩, recordCount, hrecordCount, recordBytes, hrecordBytes, h⟩ := h
  cases h
  cases hrecords
  cases hrecordBytes
  rw [hm.networkId] at hnetworkId
  rw [hm.keys] at hcount hkeys
  rw [List.length_map] at hcount
  obtain ⟨raws, hraws, rfl⟩ := @keys_eq H _ _ hm.hex hkeys
  have hthreshold : leBytes 1 (d.governanceThreshold : Int).toNat = [i.governanceThreshold] := by
    have hlt := i.governanceThreshold.toNat_lt
    rw [hm.threshold, Int.toNat_natCast, leBytes, leBytes, Nat.mod_eq_of_lt hlt, UInt8.ofNat_toNat]
  rw [HexCrate.serializeGenesisRegistryState, hraws, ok_bind, hthreshold, encodeStr_eq hnetworkId, encodeVarint_eq hcount,
    encodeVarint_eq hrecordCount, List.append_nil]
  rfl

theorem genesisTarget_ok : ∃ target : Hash32, H.hexTargetToBytes GENESIS_TARGET_HEX = .ok target ∧
    (fromBE target.val : Int) = MAX_TARGET := by
  have hdecoded : hexPairs GENESIS_TARGET_HEX.chars = some ([0, 0, 255, 255] ++ List.replicate 28 0) := by decide +kernel
  refine ⟨⟨[0, 0, 255, 255] ++ List.replicate 28 0, rfl⟩, ?_, rfl⟩
  rw [HexCrate.hexTargetToBytes, H.decode_eq, hdecoded]
  rfl

section
variable {E : Primitives}

/-- What the two derivations come to: one header over the same root, or two searches without one. -/
def SameGenesis (H : HexCrate) (E : Primitives) (d : IdentityDocument) (i : RustIdentity) (root : Hash32) : Prop :=
  (∃ header hash identity, H.deriveGenesis E i = .ok (header, hash) ∧ d.derive E = .ok identity ∧
    mineHeaderV2 E (genesisHeader (toHex root.val) d.genesisTimestamp) HexCrate.MINING_ITERATIONS =
      .ok (some header.toPython) ∧
    identity.genesisRegistryRoot = toHex root.val ∧ identity.genesisHeaderBytes = header.encode ∧
    identity.genesisHash = toHex hash.val) ∨
  (H.deriveGenesis E i = .error (.protocol "failed to mine genesis header for % within % iterations"
      [.str i.networkId.chars, .int HexCrate.MINING_ITERATIONS]) ∧
    d.derive E = .error ⟨.networkIdentityError, "failed to mine genesis header for network % within iteration limit",
      [.str d.networkId]⟩)

theorem derive_eq {d : IdentityDocument} (ha : d.Accepted E) {root : Str} (hroot : registryRoot E d.genesisState = .ok root)
    {mined : Option BlockHeaderV2}
    (hmined : mineHeaderV2 E (genesisHeader root d.genesisTimestamp) HexCrate.MINING_ITERATIONS = .ok mined) :
    d.derive E = (do
      let header ← orRaise mined
        ⟨.networkIdentityError, "failed to mine genesis header for network % within iteration limit", [.str d.networkId]⟩
      let genesisHash ← header.hash E
      let bytes ← header.bytes
      .ok { networkId := d.networkId, kind := d.kind, genesisHash := genesisHash, genesisRegistryRoot := root,
            governanceKeys := sortedKeys d.governanceKeys, governanceThreshold := d.governanceThreshold,
            genesisHeaderBytes := bytes, genesisTimestamp := d.genesisTimestamp }) := by
  obtain ⟨sorted, hsorted⟩ := ha.keys
  obtain rfl := validateGovernanceKeys_sorted hsorted
  rw [IdentityDocument.genesisState] at hroot
  rw [IdentityDocument.derive, deriveNetworkIdentity, ha.kind, require_of _ rfl, ok_bind, hsorted, ok_bind]
  dsimp only
  rw [hroot, ok_bind, hmined, ok_bind]

end

/-- One document has one genesis in both implementations, if it has one at all. -/
theorem same_genesis (H : HexCrate) (E : Primitives) (v : Value) (i : RustIdentity) (d : IdentityDocument)
    (hrust : H.fromJson v = .ok i) (hpython : identityDocument v.toJson = some d) (ha : d.Accepted E) :
    ∃ data root, H.serializeGenesisRegistryState i = .ok data ∧ serializeRegistryState d.genesisState = .ok data ∧
      H.registryRoot E i = .ok root ∧ registryRoot E d.genesisState = .ok (toHex root.val) ∧
      SameGenesis H E d i root := by
  have hm := fromJson_matches hrust hpython
  obtain ⟨rootHex, hroot⟩ := ha.root
  obtain ⟨data, hdata, hroot'⟩ := bind_eq_ok.mp hroot
  cases hroot'
  have hserialize := @serialize_eq H _ _ _ hm hdata
  have hregistry : H.registryRoot E i = .ok (sha256Single E data) := by
    rw [HexCrate.registryRoot, hserialize]
    rfl
  refine ⟨data, _, hserialize, hdata, hregistry, hroot, ?_⟩
  obtain ⟨target, htarget, hmax⟩ := @genesisTarget_ok H
  let start : RustHeaderV2 := ⟨2, zeros32, zeros32, sha256Single E data, i.genesisTimestamp, target, 0⟩
  have hstart : genesisHeader (toHex (sha256Single E data).val) d.genesisTimestamp = start.toPython := by
    simp only [genesisHeader, start, RustHeaderV2.toPython, hmax, hm.timestamp, zeroHash_eq]
    rfl
  have hmined : mineHeaderV2 E (genesisHeader (toHex (sha256Single E data).val) d.genesisTimestamp)
      HexCrate.MINING_ITERATIONS =
        .ok ((mineLoop E target HexCrate.MINING_ITERATIONS start).map RustHeaderV2.toPython) := by
    rw [hstart]
    exact mineHeader_eq rfl rfl
  have hderive := derive_eq ha hroot hmined
  have hrustDerive : H.deriveGenesis E i = (do
      let header ← okOrElse (mineLoop E target HexCrate.MINING_ITERATIONS start)
        (.protocol "failed to mine genesis header for % within % iterations"
          [.str i.networkId.chars, .int HexCrate.MINING_ITERATIONS])
      .ok (header, header.hash E)) := by
    rw [HexCrate.deriveGenesis, HexCrate.mineGenesisHeader, htarget, ok_bind, hregistry, ok_bind]
  cases hloop : mineLoop E target HexCrate.MINING_ITERATIONS start with
  | none =>
    rw [hloop] at hderive hrustDerive
    exact .inr ⟨hrustDerive, hderive⟩
  | some header =>
    rw [hloop] at hmined hderive hrustDerive
    rw [Option.map_some, orRaise, ok_bind, toPython_hash, ok_bind, toPython_bytes, ok_bind] at hderive
    exact .inl ⟨header, _, _, hrustDerive, hderive, hmined, rfl, rfl, rfl⟩

/-- The crate as documented. -/
def hexCrate : HexCrate := ⟨fun s => hexPairs s.chars, fun _ => rfl⟩

def onesKey : Str := List.replicate 64 49

def testDocument : Value := .object
  [(⟨str "network_id", by decide⟩, .string ⟨str "net", by decide⟩),
    (⟨str "kind", by decide⟩, .string ⟨str "test", by decide⟩),
    (⟨str "governance_keys", by decide⟩, .array [.string ⟨onesKey, by decide⟩]),
    (⟨str "governance_threshold", by decide⟩, .number ⟨1, by decide⟩),
    (⟨str "genesis_timestamp", by decide⟩, .number ⟨1704067200, by decide⟩)]

def testArguments : IdentityDocument := ⟨str "net", [onesKey], 1, .test, 1704067200⟩

theorem same_genesis_test : ∃ i data root, hexCrate.fromJson testDocument = .ok i ∧
    hexCrate.serializeGenesisRegistryState i = .ok data ∧ serializeRegistryState testArguments.genesisState = .ok data ∧
    SameGenesis hexCrate (recorded []) testArguments i root := by
  obtain ⟨i, hi, -⟩ := of_okAnd (p := fun _ => true) (x := hexCrate.fromJson testDocument) (by decide +kernel)
  obtain ⟨sorted, hsorted, -⟩ := of_okAnd (p := fun _ => true) (x := validateGovernanceKeysForIdentity (recorded [])
    testArguments.governanceKeys testArguments.governanceThreshold testArguments.kind.isAlphaKind) (by decide +kernel)
  obtain ⟨root, hroot, -⟩ := of_okAnd (p := fun _ => true) (x := registryRoot (recorded []) testArguments.genesisState)
    (by decide +kernel)
  obtain ⟨data, r, hdata, hdata', -, -, hsame⟩ := same_genesis hexCrate (recorded []) testDocument i testArguments hi
    (by decide +kernel) ⟨rfl, ⟨sorted, hsorted⟩, root, hroot⟩
  exact ⟨i, data, r, hi, hdata, hdata', hsame⟩

end

end ChainBreaker
