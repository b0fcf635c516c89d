import ChainBreaker.JsonBack
import ChainBreaker.Registry

/-!
# The canonical JSON of the Rust verifier

The verifier writes a string as `serde_json` does, with every character from
U+007F on as it stands, where Python escapes it. So the two agree on a value
exactly if all its strings and keys are printable ASCII or control characters
below U+0020 (`canonical_json_agrees_iff`).
-/

namespace ChainBreaker

open Fallible

/-! ## Values -/

/-- A `String`: Unicode scalar values, in memory their UTF-8 bytes. -/
structure RustString where
  chars : Str
  scalar : chars.any isSurrogate = false

def RustString.bytes (s : RustString) : Bytes := utf8 s.chars

/-- A `serde_json` number that is no float. -/
structure RustNumber where
  val : Int
  range : -2 ^ 63 ≤ val ∧ val < 2 ^ 64

inductive Value where
  | null
  | bool (b : Bool)
  | number (n : RustNumber)
  | string (s : RustString)
  | array (xs : List Value)
  | object (fields : List (RustString × Value))

mutual
/-- The same value in Python. -/
def Value.toJson : Value → Json
  | .null => .null
  | .bool b => .bool b
  | .number n => .int n.val
  | .string s => .str s.chars
  | .array xs => .list (valuesToJson xs)
  | .object fields => .dict (fieldsToJson fields)
def valuesToJson : List Value → List Json
  | [] => []
  | x :: xs => x.toJson :: valuesToJson xs
def fieldsToJson : List (RustString × Value) → Fields
  | [] => []
  | (k, v) :: fields => (k.chars, v.toJson) :: fieldsToJson fields
end

mutual
/-- No string and no key goes beyond U+007E. -/
def Value.plain : Value → Bool
  | .string s => asciiStr s.chars
  | .array xs => valuesPlain xs
  | .object fields => fieldsPlain fields
  | _ => true
def valuesPlain : List Value → Bool
  | [] => true
  | x :: xs => x.plain && valuesPlain xs
def fieldsPlain : List (RustString × Value) → Bool
  | [] => true
  | (k, v) :: fields => asciiStr k.chars && v.plain && fieldsPlain fields
end

/-! ## Writing -/

/-- A character in `serde_json`: the escapes of JSON for quotes and control characters,
anything else as it stands. -/
def serdeChar (c : CodePoint) : Bytes :=
  let n := c.val
  if n = 34 then [92, 34]
  else if n = 92 then [92, 92]
  else if n = 8 then [92, 98]
  else if n = 9 then [92, 116]
  else if n = 10 then [92, 110]
  else if n = 12 then [92, 102]
  else if n = 13 then [92, 114]
  else if n < 32 then unicodeEscape n
  else utf8Char c

/-- What the verifier takes from `serde_json`. -/
structure SerdeJson where
  strText : RustString → Except PyErr Bytes
  numberText : RustNumber → Bytes
  strText_eq : ∀ s, strText s = .ok (34 :: s.chars.flatMap serdeChar ++ [34])
  numberText_eq : ∀ n, numberText n = intRepr n.val

namespace SerdeJson

variable (R : SerdeJson)

def escapeJson (s : RustString) : Bytes :=
  match R.strText s with
  | .ok text => text
  | .error _ => 34 :: s.bytes ++ [34]

mutual
def canonicalJson : Value → Bytes
  -- the pairs are sorted by their keys alone, so it is no difference to write the values first
  | .object fields => 123 :: joinComma ((Lex.sortOn utf8Key (fun p => p.1.bytes) (canonicalFields fields)).map
      fun p => R.escapeJson p.1 ++ 58 :: p.2) ++ [125]
  | .array xs => 91 :: joinComma (canonicalValues xs) ++ [93]
  | .string s => R.escapeJson s
  | .number n => R.numberText n
  | .bool b => ascii (if b then "true" else "false")
  | .null => ascii "null"
def canonicalValues : List Value → List Bytes
  | [] => []
  | x :: xs => canonicalJson x :: canonicalValues xs
def canonicalFields : List (RustString × Value) → List (RustString × Bytes)
  | [] => []
  | (k, v) :: fields => (k, canonicalJson v) :: canonicalFields fields
end

def hashObject (E : Primitives) (v : Value) : Bytes := E.sha256 (R.canonicalJson v)

end SerdeJson

/-- Induction over a value: through the elements of an array and the values of an object. -/
theorem Value.induct {P : Value → Prop}
    (null : P .null) (bool : ∀ b, P (.bool b)) (number : ∀ n, P (.number n))
    (string : ∀ s, P (.string s)) (array : ∀ xs, (∀ x ∈ xs, P x) → P (.array xs))
    (object : ∀ fields, (∀ f ∈ fields, P f.2) → P (.object fields)) (v : Value) : P v := by
  apply @Value.rec P (fun xs => ∀ x ∈ xs, P x) (fun fields => ∀ f ∈ fields, P f.2) (fun f => P f.2)
    null bool number string array object
  · exact fun x h => by cases h
  · exact fun x xs hx hxs y hy => (List.mem_cons.mp hy).elim (fun h => h ▸ hx) (hxs y)
  · exact fun x h => by cases h
  · exact fun f fields hf hfields g hg => (List.mem_cons.mp hg).elim (fun h => h ▸ hf) (hfields g)
  · exact fun _ _ h => h

theorem valuesToJson_eq : ∀ xs, valuesToJson xs = xs.map Value.toJson
  | [] => rfl
  | x :: xs => by rw [valuesToJson, valuesToJson_eq xs, List.map_cons]

theorem fieldsToJson_eq : ∀ fields, fieldsToJson fields = fields.map fun f => (f.1.chars, f.2.toJson)
  | [] => rfl
  | (k, v) :: fields => by rw [fieldsToJson, fieldsToJson_eq fields, List.map_cons]

theorem valuesPlain_iff : ∀ {xs}, valuesPlain xs = true ↔ ∀ x ∈ xs, x.plain = true
  | [] => by simp [valuesPlain]
  | x :: xs => by simp [valuesPlain, @valuesPlain_iff xs]

theorem fieldsPlain_iff : ∀ {fields},
    fieldsPlain fields = true ↔ ∀ f ∈ fields, asciiStr f.1.chars = true ∧ f.2.plain = true
  | [] => by simp [fieldsPlain]
  | (k, v) :: fields => by simp [fieldsPlain, @fieldsPlain_iff fields, and_assoc]

section
variable {R : SerdeJson} {fl : UInt64 → Bytes}

theorem canonicalValues_eq : ∀ xs, R.canonicalValues xs = xs.map R.canonicalJson
  | [] => rfl
  | x :: xs => by rw [SerdeJson.canonicalValues, canonicalValues_eq xs, List.map_cons]

theorem canonicalFields_eq : ∀ fields, R.canonicalFields fields = fields.map fun f => (f.1, R.canonicalJson f.2)
  | [] => rfl
  | (k, v) :: fields => by rw [SerdeJson.canonicalFields, canonicalFields_eq fields, List.map_cons]

theorem escapeJson_eq (s : RustString) : R.escapeJson s = 34 :: s.chars.flatMap serdeChar ++ [34] := by
  rw [SerdeJson.escapeJson, R.strText_eq]

/-! ## Plain values -/

theorem serdeChar_plain {c : CodePoint} (h : c.val < 127) : serdeChar c = escapeChar c := by
  have hall : ∀ n < 127, serdeChar (Fin.ofNat _ n) = escapeChar (Fin.ofNat _ n) := by decide
  have hc := hall c.val h
  rwa [ofNat_val] at hc

theorem utf8_plain {s : Str} (h : asciiStr s = true) : utf8 s = s.map fun c => UInt8.ofNat c.val := by
  rw [asciiStr, List.all_eq_true] at h
  have hchar : ∀ c ∈ s, utf8Char c = [UInt8.ofNat c.val] := by
    intro c hc
    have hlt := of_decide_eq_true (h c hc)
    rw [utf8Char]
    exact if_pos (by omega)
  rw [utf8, List.flatMap_congr hchar, ← List.map_eq_flatMap]

theorem escapeJson_plain {s : RustString} (h : asciiStr s.chars = true) : R.escapeJson s = jsonStr s.chars := by
  rw [escapeJson_eq, jsonStr]
  rw [asciiStr, List.all_eq_true] at h
  rw [List.flatMap_congr fun c hc => serdeChar_plain (of_decide_eq_true (h c hc))]

/-- Plain keys have the order of their bytes. -/
theorem lexLe_plain : ∀ {s t : Str}, asciiStr s = true → asciiStr t = true →
    Lex.lexLe utf8Key (utf8 s) (utf8 t) = Lex.lexLe charKey s t := by
  intro s t hs ht
  rw [utf8_plain hs, utf8_plain ht]
  induction s generalizing t with
  | nil => rfl
  | cons c s ih =>
    cases t with
    | nil => rfl
    | cons d t =>
      rw [asciiStr, List.all_cons, Bool.and_eq_true, decide_eq_true_eq] at hs ht
      have hkey : ∀ c : CodePoint, c.val < 127 → utf8Key (UInt8.ofNat c.val) = charKey c := fun c hc => by
        rw [utf8Key, charKey, UInt8.toNat_ofNat', Nat.mod_eq_of_lt (by omega)]
      rw [List.map_cons, List.map_cons, Lex.lexLe, Lex.lexLe, hkey c hs.1, hkey d ht.1, ih hs.2 ht.2]

theorem dumps_plain {v : Value} : v.plain = true → dumps fl v.toJson = .ok (R.canonicalJson v) := by
  induction v using Value.induct with
  | null => exact fun _ => rfl
  | bool b => exact fun _ => rfl
  | number n =>
    intro _
    rw [Value.toJson, dumps, SerdeJson.canonicalJson, R.numberText_eq]
  | string s =>
    intro h
    rw [Value.toJson, dumps, SerdeJson.canonicalJson, escapeJson_plain h]
  | array xs ih =>
    rw [Value.plain, valuesPlain_iff]
    intro h
    have hlist : ∀ ys : List Value, (∀ y ∈ ys, dumps fl y.toJson = .ok (R.canonicalJson y)) →
        dumpsList fl (ys.map Value.toJson) = .ok (ys.map R.canonicalJson) := by
      intro ys hys
      induction ys with
      | nil => rfl
      | cons y ys ihs =>
        rw [List.map_cons, dumpsList, hys y (.head _), ok_bind, ihs fun z hz => hys z (.tail _ hz)]
        rfl
    rw [Value.toJson, valuesToJson_eq, dumps, hlist xs fun x hx => ih x hx (h x hx), ok_bind,
      SerdeJson.canonicalJson,
      canonicalValues_eq]
  | object fields ih =>
    rw [Value.plain, fieldsPlain_iff]
    intro h
    have hfields : ∀ gs : List (RustString × Value), (∀ g ∈ gs, dumps fl g.2.toJson = .ok (R.canonicalJson g.2)) →
        dumpsFields fl (gs.map fun g => (g.1.chars, g.2.toJson)) =
          .ok (gs.map fun g => (g.1.chars, jsonStr g.1.chars ++ 58 :: R.canonicalJson g.2)) := by
      intro gs hgs
      induction gs with
      | nil => rfl
      | cons g gs ihs =>
        rw [List.map_cons, dumpsFields, hgs g (.head _), ok_bind, ihs fun z hz => hgs z (.tail _ hz)]
        rfl
    -- both sort by the keys, the one before the values are joined to them and the other after
    have hsort : (Lex.sortOn utf8Key (fun p => p.1.bytes) (fields.map fun f => (f.1, R.canonicalJson f.2))).map
          (fun p => (p.1.chars, R.escapeJson p.1 ++ 58 :: p.2)) =
        Lex.sortOn charKey Prod.fst (fields.map fun f => (f.1.chars, jsonStr f.1.chars ++ 58 :: R.canonicalJson f.2)) := by
      have hmapped : (fields.map fun f => (f.1, R.canonicalJson f.2)).map
            (fun p => (p.1.chars, R.escapeJson p.1 ++ 58 :: p.2)) =
          fields.map fun f => (f.1.chars, jsonStr f.1.chars ++ 58 :: R.canonicalJson f.2) := by
        rw [List.map_map]
        exact List.map_congr_left fun f hf => by rw [Function.comp_apply, escapeJson_plain (h f hf).1]
      rw [← hmapped]
      refine List.map_insertionSort _ _ _ _ fun p hp q hq => ?_
      obtain ⟨f, hf, rfl⟩ := List.mem_map.mp hp
      obtain ⟨g, hg, rfl⟩ := List.mem_map.mp hq
      change Lex.lexLe utf8Key (utf8 f.1.chars) (utf8 g.1.chars) = true ↔ Lex.lexLe charKey f.1.chars g.1.chars = true
      rw [lexLe_plain (h f hf).1 (h g hg).1]
    rw [Value.toJson, fieldsToJson_eq, dumps, hfields fields fun f hf => ih f hf (h f hf).2, ok_bind,
      SerdeJson.canonicalJson, canonicalFields_eq, ← hsort, List.map_map]
    rfl

/-! ## Other values -/

theorem mem_joinComma {p : Bytes} {x : UInt8} (hx : x ∈ p) : ∀ {ps : List Bytes}, p ∈ ps → x ∈ joinComma ps
  | [q], h => by
    rw [List.mem_singleton] at h
    exact h ▸ hx
  | q :: r :: ps, h => by
    rw [joinComma, List.mem_append, List.mem_cons]
    · rcases List.mem_cons.mp h with rfl | h
      · exact .inl hx
      · exact .inr (.inr (mem_joinComma hx h))
    · simp

theorem toJson_floats {P : UInt64 → Prop} (v : Value) : v.toJson.Floats P := by
  induction v using Value.induct with
  | null => exact trivial
  | bool b => exact trivial
  | number n => exact trivial
  | string s => exact trivial
  | array xs ih =>
    rw [Value.toJson, valuesToJson_eq, Json.Floats, floatsList_iff, List.forall_mem_map]
    exact ih
  | object fields ih =>
    rw [Value.toJson, fieldsToJson_eq, Json.Floats, floatsFields_iff, List.forall_mem_map]
    exact ih

/-- Python writes printable ASCII. -/
theorem dumps_printable {v : Value} {b : Bytes} (h : dumps fl v.toJson = .ok b) : Printable b := by
  rw [dumps_eq h]
  exact text_printable (norm_floats (toJson_floats v))

theorem serdeChar_wide {c : CodePoint} (h : 127 ≤ c.val) : ∃ x ∈ serdeChar c, 127 ≤ x.toNat := by
  have hraw : serdeChar c = utf8Char c := by
    unfold serdeChar
    simp only
    rw [if_neg (by omega), if_neg (by omega), if_neg (by omega), if_neg (by omega), if_neg (by omega), if_neg (by omega),
      if_neg (by omega), if_neg (by omega)]
  have hlt := c.isLt
  rw [hraw]
  simp only [utf8Char]
  split_ifs with h₁ h₂ h₃
  · exact ⟨_, .head _, by rw [UInt8.toNat_ofNat']; omega⟩
  · exact ⟨_, .head _, by rw [UInt8.toNat_ofNat']; omega⟩
  · exact ⟨_, .head _, by rw [UInt8.toNat_ofNat']; omega⟩
  · exact ⟨_, .head _, by rw [UInt8.toNat_ofNat']; omega⟩

theorem escapeJson_wide {s : RustString} (h : asciiStr s.chars = false) : ∃ x ∈ R.escapeJson s, 127 ≤ x.toNat := by
  obtain ⟨c, hc, hwide⟩ := List.all_eq_false.mp h
  obtain ⟨x, hx, hle⟩ := serdeChar_wide (c := c) (by simpa using hwide)
  refine ⟨x, ?_, hle⟩
  rw [escapeJson_eq, List.cons_append, List.mem_cons, List.mem_append]
  exact .inr (.inl (List.mem_flatMap.mpr ⟨c, hc, hx⟩))

/-- The verifier writes what is not plain as it stands. -/
theorem canonicalJson_wide {v : Value} : v.plain ≠ true → ∃ x ∈ R.canonicalJson v, 127 ≤ x.toNat := by
  induction v using Value.induct with
  | null => exact fun h => absurd rfl h
  | bool b => exact fun h => absurd rfl h
  | number n => exact fun h => absurd rfl h
  | string s =>
    intro h
    exact escapeJson_wide (Bool.eq_false_iff.mpr h)
  | array xs ih =>
    rw [Value.plain, Ne, valuesPlain_iff]
    intro h
    push Not at h
    obtain ⟨y, hy, hplain⟩ := h
    obtain ⟨x, hx, hle⟩ := ih y hy hplain
    refine ⟨x, ?_, hle⟩
    rw [SerdeJson.canonicalJson, canonicalValues_eq, List.cons_append, List.mem_cons, List.mem_append]
    exact .inr (.inl (mem_joinComma hx (List.mem_map_of_mem hy)))
  | object fields ih =>
    rw [Value.plain, Ne, fieldsPlain_iff]
    intro h
    push Not at h
    obtain ⟨f, hf, hplain⟩ := h
    obtain ⟨x, hx, hle⟩ : ∃ x ∈ R.escapeJson f.1 ++ 58 :: R.canonicalJson f.2, 127 ≤ x.toNat := by
      by_cases hkey : asciiStr f.1.chars = true
      · obtain ⟨x, hx, hle⟩ := ih f hf (hplain hkey)
        exact ⟨x, List.mem_append_right _ (.tail _ hx), hle⟩
      · obtain ⟨x, hx, hle⟩ := @escapeJson_wide R f.1 (Bool.eq_false_iff.mpr hkey)
        exact ⟨x, List.mem_append_left _ hx, hle⟩
    refine ⟨x, ?_, hle⟩
    rw [SerdeJson.canonicalJson, canonicalFields_eq, List.cons_append, List.mem_cons, List.mem_append]
    refine .inr (.inl (mem_joinComma hx (List.mem_map.mpr ⟨(f.1, R.canonicalJson f.2), Lex.mem_sortOn.mpr ?_, rfl⟩)))
    exact List.mem_map_of_mem (f := fun f => (f.1, R.canonicalJson f.2)) hf

end

/-- Both implementations write the same bytes, and so hash alike, exactly on plain values. -/
theorem canonical_json_agrees_iff (R : SerdeJson) (E : Primitives) (v : Value) :
    (canonicalJson E v.toJson = .ok (R.canonicalJson v) ↔ v.plain = true) ∧
    (v.plain = true → hashObject E v.toJson = .ok (R.hashObject E v)) := by
  refine ⟨⟨fun h => ?_, dumps_plain⟩, fun h => ?_⟩
  · by_contra hplain
    obtain ⟨x, hx, hle⟩ := @canonicalJson_wide R v hplain
    have hlt := dumps_printable h x hx
    omega
  · have hbytes : canonicalJson E v.toJson = .ok (R.canonicalJson v) := dumps_plain h
    rw [hashObject, hbytes]
    rfl

/-- `serde_json` as documented. -/
def serdeJson : SerdeJson where
  strText s := .ok (34 :: s.chars.flatMap serdeChar ++ [34])
  numberText n := intRepr n.val
  strText_eq _ := rfl
  numberText_eq _ := rfl

/-- The string `é`. -/
def eAcute : Value := .string ⟨[233], by decide⟩

theorem eAcute_differs : ¬ ∀ (R : SerdeJson) (E : Primitives) (v : Value),
    canonicalJson E v.toJson = .ok (R.canonicalJson v) := by
  intro h
  obtain ⟨x, hx, hle⟩ := @canonicalJson_wide serdeJson eAcute (by decide)
  have hlt := dumps_printable (h serdeJson (recorded []) eAcute) x hx
  omega

end ChainBreaker
