import ChainBreaker.Crypto
import ChainBreaker.Lib.PrefixCode

/-!
# Canonical JSON determines the value

`json.dumps` with sorted keys forgets the order of the keys and nothing else
(`canonicalJson_inj`), on numbers that can be written and strings as a JSON
decoder makes them.
-/

namespace ChainBreaker

open Fallible PrefixCode

/-! ## Values up to the order of their keys -/

mutual
/-- The value with every dictionary sorted by its keys. -/
def Json.norm : Json → Json
  | .list xs => .list (normList xs)
  | .dict fs => .dict (Lex.sortOn charKey Prod.fst (normFields fs))
  | v => v
def normList : List Json → List Json
  | [] => []
  | x :: xs => x.norm :: normList xs
def normFields : List (Str × Json) → List (Str × Json)
  | [] => []
  | (k, v) :: fs => (k, v.norm) :: normFields fs
end

def isHigh (n : Nat) : Bool := 0xD800 ≤ n && n < 0xDC00
def isLow (n : Nat) : Bool := 0xDC00 ≤ n && n < 0xE000

/-- A decoder joins a high surrogate and the low one after it to one character. -/
def decodedStr : Str → Bool
  | c :: d :: rest => !(isHigh c.val && isLow d.val) && decodedStr (d :: rest)
  | _ => true

mutual
/-- Every string in the value, keys included, is one that a JSON decoder yields. -/
def Json.decoded : Json → Bool
  | .str s => decodedStr s
  | .list xs => decodedList xs
  | .dict fs => decodedFields fs
  | _ => true
def decodedList : List Json → Bool
  | [] => true
  | x :: xs => x.decoded && decodedList xs
def decodedFields : List (Str × Json) → Bool
  | [] => true
  | (k, v) :: fs => decodedStr k && v.decoded && decodedFields fs
end

/-- Induction over a value: through the elements of a list and the values of a dictionary. -/
theorem Json.induct {P : Json → Prop} (null : P .null) (bool : ∀ b, P (.bool b)) (int : ∀ n, P (.int n))
    (float : ∀ x, P (.float x)) (str : ∀ s, P (.str s)) (list : ∀ xs, (∀ x ∈ xs, P x) → P (.list xs))
    (dict : ∀ fs, (∀ f ∈ fs, P f.2) → P (.dict fs)) (v : Json) : P v := by
  apply @Json.rec P (fun xs => ∀ x ∈ xs, P x) (fun fs => ∀ f ∈ fs, P f.2) (fun f => P f.2)
    null bool int float str list dict
  · exact fun x h => by cases h
  · exact fun x xs hx hxs y hy => (List.mem_cons.mp hy).elim (fun h => h ▸ hx) (hxs y)
  · exact fun x h => by cases h
  · exact fun f fs hf hfs g hg => (List.mem_cons.mp hg).elim (fun h => h ▸ hf) (hfs g)
  · exact fun _ _ h => h

theorem normList_eq : ∀ xs, normList xs = xs.map Json.norm := by
  intro xs
  induction xs with
  | nil => rfl
  | cons x xs ih => rw [normList, ih, List.map_cons]

theorem normFields_eq : ∀ fs, normFields fs = fs.map fun f => (f.1, f.2.norm) := by
  intro fs
  induction fs with
  | nil => rfl
  | cons f fs ih =>
    obtain ⟨k, v⟩ := f
    rw [normFields, ih, List.map_cons]

theorem decodedList_iff : ∀ {xs}, decodedList xs = true ↔ ∀ x ∈ xs, x.decoded = true := by
  intro xs
  induction xs with
  | nil => simp [decodedList]
  | cons x xs ih => simp [decodedList, ih]

theorem decodedFields_iff : ∀ {fs}, decodedFields fs = true ↔ ∀ f ∈ fs, decodedStr f.1 = true ∧ f.2.decoded = true := by
  intro fs
  induction fs with
  | nil => simp [decodedFields]
  | cons f fs ih =>
    obtain ⟨k, v⟩ := f
    simp [decodedFields, ih, and_assoc]

/-- What JSON can write and read back: finite numbers, joined surrogates. -/
def Json.Plain (v : Json) : Prop := v.finite = true ∧ v.decoded = true

theorem plain_list {xs : List Json} : (Json.list xs).Plain ↔ ∀ x ∈ xs, x.Plain := by
  simp only [Json.Plain, Json.finite, Json.decoded, finiteList_iff, decodedList_iff]
  exact ⟨fun h x hx => ⟨h.1 x hx, h.2 x hx⟩, fun h => ⟨fun x hx => (h x hx).1, fun x hx => (h x hx).2⟩⟩

theorem plain_dict {fs : List (Str × Json)} :
    (Json.dict fs).Plain ↔ ∀ f ∈ fs, decodedStr f.1 = true ∧ f.2.Plain := by
  simp only [Json.Plain, Json.finite, Json.decoded, finiteFields_iff, decodedFields_iff]
  exact ⟨fun h f hf => ⟨(h.2 f hf).1, h.1 f hf, (h.2 f hf).2⟩,
    fun h => ⟨fun f hf => (h f hf).2.1, fun f hf => ⟨(h f hf).1, (h f hf).2.2⟩⟩⟩

theorem norm_plain {v : Json} : v.Plain → v.norm.Plain := by
  induction v using Json.induct with
  | null => exact id
  | bool b => exact id
  | int n => exact id
  | float x => exact id
  | str s => exact id
  | list xs ih =>
    intro h
    rw [Json.norm, normList_eq, plain_list]
    intro y hy
    obtain ⟨x, hx, rfl⟩ := List.mem_map.mp hy
    exact ih x hx (plain_list.mp h x hx)
  | dict fs ih =>
    intro h
    rw [Json.norm, normFields_eq, plain_dict]
    intro g hg
    obtain ⟨f, hf, rfl⟩ := List.mem_map.mp (Lex.mem_sortOn.mp hg)
    exact ⟨(plain_dict.mp h f hf).1, ih f hf (plain_dict.mp h f hf).2⟩

/-! ## The text of a sorted value -/

mutual
/-- What `dumps` writes, with the keys as they stand. -/
def text (fl : UInt64 → Bytes) : Json → Bytes
  | .null => ascii "null"
  | .bool b => ascii (if b then "true" else "false")
  | .int n => intRepr n
  | .float bits => fl bits
  | .str s => jsonStr s
  | .list xs => 91 :: (joinComma (texts fl xs) ++ [93])
  | .dict fs => 123 :: (joinComma (fieldTexts fl fs) ++ [125])
def texts (fl : UInt64 → Bytes) : List Json → List Bytes
  | [] => []
  | x :: xs => text fl x :: texts fl xs
def fieldTexts (fl : UInt64 → Bytes) : List (Str × Json) → List Bytes
  | [] => []
  | (k, v) :: fs => (jsonStr k ++ 58 :: text fl v) :: fieldTexts fl fs
end

def fieldText (fl : UInt64 → Bytes) (f : Str × Json) : Bytes := jsonStr f.1 ++ 58 :: text fl f.2

variable {fl : UInt64 → Bytes}

theorem texts_eq : ∀ xs, texts fl xs = xs.map (text fl) := by
  intro xs
  induction xs with
  | nil => rfl
  | cons x xs ih => rw [texts, ih, List.map_cons]

theorem fieldTexts_eq : ∀ fs, fieldTexts fl fs = fs.map (fieldText fl) := by
  intro fs
  induction fs with
  | nil => rfl
  | cons f fs ih =>
    obtain ⟨k, v⟩ := f
    rw [fieldTexts, ih, List.map_cons, fieldText]

theorem dumpsList_ok : ∀ {xs : List Json} {ps : List Bytes},
    (∀ x ∈ xs, ∀ b, dumps fl x = .ok b → b = text fl x.norm) → dumpsList fl xs = .ok ps →
    ps = (normList xs).map (text fl)
  | [], ps, _, h => by cases h; rfl
  | x :: xs, ps, hx, h => by
    simp only [dumpsList, bind_eq_ok] at h
    obtain ⟨p, hp, qs, hqs, h⟩ := h
    cases h
    rw [normList, List.map_cons, hx x (.head _) p hp, dumpsList_ok (fun y hy => hx y (.tail _ hy)) hqs]

theorem dumpsFields_ok : ∀ {fs : List (Str × Json)} {ps : List (Str × Bytes)},
    (∀ f ∈ fs, ∀ b, dumps fl f.2 = .ok b → b = text fl f.2.norm) → dumpsFields fl fs = .ok ps →
    ps = (normFields fs).map fun f => (f.1, fieldText fl f)
  | [], ps, _, h => by cases h; rfl
  | (k, v) :: fs, ps, hf, h => by
    simp only [dumpsFields, bind_eq_ok] at h
    obtain ⟨p, hp, qs, hqs, h⟩ := h
    cases h
    rw [normFields, List.map_cons, hf _ (.head _) p hp, dumpsFields_ok (fun g hg => hf g (.tail _ hg)) hqs]
    rfl

/-- `dumps` writes the text of the sorted value. -/
theorem dumps_eq {v : Json} : ∀ {b : Bytes}, dumps fl v = .ok b → b = text fl v.norm := by
  induction v using Json.induct with
  | null => intro b h; cases h; rfl
  | bool x => intro b h; cases h; rfl
  | int n => intro b h; cases h; rfl
  | str s => intro b h; cases h; rfl
  | float x =>
    intro b h
    simp only [dumps, raise] at h
    split at h
    · cases h; rfl
    · cases h
  | list xs ih =>
    intro b h
    simp only [dumps, bind_eq_ok] at h
    obtain ⟨ps, hps, h⟩ := h
    cases h
    rw [Json.norm, text, texts_eq, dumpsList_ok (fun x hx _ => ih x hx) hps, List.cons_append]
  | dict fs ih =>
    intro b h
    simp only [dumps, bind_eq_ok] at h
    obtain ⟨ps, hps, h⟩ := h
    cases h
    -- the keys are the same before and after the values are written, so both are sorted alike
    have hsort : (Lex.sortOn charKey Prod.fst (normFields fs)).map (fun f => (f.1, fieldText fl f)) =
        Lex.sortOn charKey Prod.fst ((normFields fs).map fun f => (f.1, fieldText fl f)) :=
      List.map_insertionSort _ _ _ _ fun _ _ _ _ => Iff.rfl
    rw [Json.norm, text, fieldTexts_eq, dumpsFields_ok (fun f hf _ => ih f hf) hps, ← hsort, List.map_map,
      List.cons_append]
    rfl

/-! ## Numbers -/

def isNumeric (b : UInt8) : Bool := (48 ≤ b && b ≤ 57) || b == 43 || b == 45 || b == 46 || b == 101

/-- What `float.__repr__` gives for finite floats: the shortest decimal that
reads back as the float, with a point or an exponent. -/
structure FloatRepr (fl : UInt64 → Bytes) : Prop where
  numeric : ∀ x, floatFinite x = true → ∀ b ∈ fl x, isNumeric b = true
  marked : ∀ x, floatFinite x = true → 46 ∈ fl x ∨ 101 ∈ fl x
  inj : ∀ x y, floatFinite x = true → floatFinite y = true → fl x = fl y → x = y

theorem digit_range {d : Char} (hd : d.isDigit = true) : 48 ≤ d.toNat ∧ d.toNat ≤ 57 := by
  simp only [Char.isDigit, Bool.and_eq_true, decide_eq_true_eq] at hd
  exact ⟨hd.1, hd.2⟩

theorem natRepr_digit {n : Nat} {b : UInt8} (h : b ∈ natRepr n) : 48 ≤ b.toNat ∧ b.toNat ≤ 57 := by
  obtain ⟨d, hd, rfl⟩ := List.mem_map.mp h
  have hrange := digit_range (Nat.isDigit_of_mem_toDigits (by decide) (by decide) hd)
  rw [UInt8.toNat_ofNat']
  omega

theorem natRepr_ne_nil (n : Nat) : natRepr n ≠ [] := by
  intro h
  exact Nat.toDigits_ne_nil (List.map_eq_nil_iff.mp h)

theorem natRepr_inj {n m : Nat} (h : natRepr n = natRepr m) : n = m := by
  have back : ∀ k, (natRepr k).map (fun b => Char.ofNat b.toNat) = Nat.toDigits 10 k := by
    intro k
    rw [natRepr, List.map_map]
    conv_rhs => rw [← List.map_id (Nat.toDigits 10 k)]
    apply List.map_congr_left
    intro d hd
    have hrange := digit_range (Nat.isDigit_of_mem_toDigits (by decide) (by decide) hd)
    simp only [Function.comp_apply, UInt8.toNat_ofNat', id]
    rw [Nat.mod_eq_of_lt (by omega), Char.ofNat_toNat]
  have hdigits : Nat.toDigits 10 n = Nat.toDigits 10 m := by rw [← back n, ← back m, h]
  rw [← @Nat.ofDigitChars_ten_toDigits n, ← @Nat.ofDigitChars_ten_toDigits m, hdigits]

theorem intRepr_inj {n m : Int} (h : intRepr n = intRepr m) : n = m := by
  have sign : ∀ k j : Nat, 45 :: natRepr k ≠ natRepr j := by
    intro k j h
    have := natRepr_digit (h ▸ List.mem_cons_self : (45 : UInt8) ∈ natRepr j)
    simp at this
  unfold intRepr at h
  split at h <;> split at h
  · have := natRepr_inj (List.cons.inj h).2
    omega
  · exact absurd h (sign _ _)
  · exact absurd h.symm (sign _ _)
  · have := natRepr_inj h
    omega

theorem intRepr_char {n : Int} {b : UInt8} (h : b ∈ intRepr n) : b = 45 ∨ (48 ≤ b.toNat ∧ b.toNat ≤ 57) := by
  unfold intRepr at h
  split at h
  · exact (List.mem_cons.mp h).imp_right natRepr_digit
  · exact .inr (natRepr_digit h)

theorem intRepr_numeric {n : Int} {b : UInt8} (h : b ∈ intRepr n) : isNumeric b = true := by
  rcases intRepr_char h with rfl | ⟨hlo, hhi⟩
  · rfl
  · have hlo : 48 ≤ b := UInt8.le_iff_toNat_le.mpr hlo
    have hhi : b ≤ 57 := UInt8.le_iff_toNat_le.mpr hhi
    simp [isNumeric, hlo, hhi]

theorem intRepr_ne_float (hfl : FloatRepr fl) {n : Int} {x : UInt64} (hx : floatFinite x = true) :
    intRepr n ≠ fl x := by
  intro h
  rcases hfl.marked x hx with hm | hm <;> rw [← h] at hm <;> have := intRepr_char hm <;> simp at this

/-! ## Strings -/

/-- The UTF-16 units of a character. -/
def units (c : CodePoint) : List Nat :=
  if c.val < 0x10000 then [c.val] else [0xD800 + (c.val - 0x10000) / 1024, 0xDC00 + (c.val - 0x10000) % 1024]

/-- How one unit is written. -/
def escapeUnit (n : Nat) : Bytes :=
  if n = 34 then [92, 34]
  else if n = 92 then [92, 92]
  else if n = 10 then [92, 110]
  else if n = 13 then [92, 114]
  else if n = 9 then [92, 116]
  else if n = 12 then [92, 102]
  else if n = 8 then [92, 98]
  else if 32 ≤ n ∧ n ≤ 126 then [UInt8.ofNat n]
  else unicodeEscape n

theorem escapeChar_units (c : CodePoint) : escapeChar c = (units c).flatMap escapeUnit := by
  unfold units
  split
  · rename_i h
    simp only [escapeChar, h, if_true, List.flatMap_cons, List.flatMap_nil, List.append_nil]
    rfl
  · rename_i h
    have hc := c.isLt
    have hwide : ∀ n, 0xD800 ≤ n → escapeUnit n = unicodeEscape n := by
      intro n hn
      unfold escapeUnit
      split_ifs <;> first | omega | rfl
    have hchar : escapeChar c = unicodeEscape (0xD800 + (c.val - 0x10000) / 1024) ++
        unicodeEscape (0xDC00 + (c.val - 0x10000) % 1024) := by
      unfold escapeChar
      simp only
      split_ifs <;> first | omega | rfl
    rw [hchar, List.flatMap_cons, List.flatMap_cons, List.flatMap_nil, List.append_nil, hwide _ (by omega),
      hwide _ (by omega)]

def hexByte (b : UInt8) : Nat := (hexVal (Fin.ofNat _ b.toNat)).getD 0

/-- Takes one unit off the front. -/
def readUnit : Bytes → Option (Nat × Bytes)
  | 92 :: 117 :: a :: b :: c :: d :: r =>
    some (4096 * hexByte a + 256 * hexByte b + 16 * hexByte c + hexByte d, r)
  | 92 :: 110 :: r => some (10, r)
  | 92 :: 114 :: r => some (13, r)
  | 92 :: 116 :: r => some (9, r)
  | 92 :: 102 :: r => some (12, r)
  | 92 :: 98 :: r => some (8, r)
  | 92 :: b :: r => some (b.toNat, r)
  | b :: r => some (b.toNat, r)
  | [] => none

theorem hexByte_digit : ∀ n < 16, hexByte (UInt8.ofNat (hexDigit n).val) = n := by decide

theorem readUnit_plain {b : UInt8} (hb : b ≠ 92) (r : Bytes) : readUnit (b :: r) = some (b.toNat, r) := by
  unfold readUnit
  split <;> simp_all

theorem readUnit_escape {n : Nat} (hn : n < 0x10000) (r : Bytes) : readUnit (escapeUnit n ++ r) = some (n, r) := by
  unfold escapeUnit
  split_ifs with h₁ h₂ h₃ h₄ h₅ h₆ h₇ h₈
  · subst h₁; rfl
  · subst h₂; rfl
  · subst h₃; rfl
  · subst h₄; rfl
  · subst h₅; rfl
  · subst h₆; rfl
  · subst h₇; rfl
  · have hval : (UInt8.ofNat n).toNat = n := by
      rw [UInt8.toNat_ofNat']
      omega
    have hb : UInt8.ofNat n ≠ 92 := by
      intro h
      rw [h] at hval
      exact h₂ hval.symm
    rw [List.singleton_append, readUnit_plain hb, hval]
  · simp only [unicodeEscape, hex4, List.map_cons, List.map_nil, List.cons_append, List.nil_append, readUnit,
      hexByte_digit _ (Nat.mod_lt _ (by decide : 0 < 16))]
    rw [Option.some.injEq, Prod.mk.injEq]
    exact ⟨by omega, rfl⟩

theorem units_lt {c : CodePoint} {n : Nat} (h : n ∈ units c) : n < 0x10000 := by
  have hc := c.isLt
  unfold units at h
  split at h <;> simp at h <;> omega

theorem escapeUnit_head (n : Nat) (r : Bytes) : (escapeUnit n ++ r).head? ≠ some 34 := by
  unfold escapeUnit
  split_ifs with h₁ h₂ h₃ h₄ h₅ h₆ h₇ h₈ <;> intro h <;> try exact absurd (Option.some.inj h) (by decide)
  have hval : (UInt8.ofNat n).toNat = n := by
    rw [UInt8.toNat_ofNat']
    omega
  rw [Option.some.inj h] at hval
  exact h₁ hval.symm

/-- The characters of a list of UTF-16 units. -/
def joinUnits : List Nat → Str
  | a :: b :: r =>
    if isHigh a && isLow b then Fin.ofNat _ (0x10000 + 1024 * (a - 0xD800) + (b - 0xDC00)) :: joinUnits r
    else Fin.ofNat _ a :: joinUnits (b :: r)
  | [a] => [Fin.ofNat _ a]
  | [] => []

theorem ofNat_val (c : CodePoint) : Fin.ofNat 0x110000 c.val = c := Fin.ext (Nat.mod_eq_of_lt c.isLt)

theorem joinUnits_wide {c : CodePoint} (hc : ¬ c.val < 0x10000) (r : List Nat) :
    joinUnits (units c ++ r) = c :: joinUnits r := by
  have hlt := c.isLt
  have hhigh : isHigh (0xD800 + (c.val - 0x10000) / 1024) = true := by
    simp only [isHigh, Bool.and_eq_true, decide_eq_true_eq]
    omega
  have hlow : isLow (0xDC00 + (c.val - 0x10000) % 1024) = true := by
    simp only [isLow, Bool.and_eq_true, decide_eq_true_eq]
    omega
  have hval : 0x10000 + 1024 * (0xD800 + (c.val - 0x10000) / 1024 - 0xD800) +
      (0xDC00 + (c.val - 0x10000) % 1024 - 0xDC00) = c.val := by omega
  rw [units, if_neg hc, List.cons_append, List.cons_append, List.nil_append, joinUnits, hhigh, hlow, hval, ofNat_val]
  rfl

/-- The unit after a character of one unit does not complete a surrogate pair. -/
theorem next_not_low {c d : CodePoint} {s : Str} (h : decodedStr (c :: d :: s) = true) :
    ∃ b r, units d = b :: r ∧ (isHigh c.val && isLow b) = false := by
  by_cases hd : d.val < 0x10000
  · simp only [decodedStr, Bool.and_eq_true, Bool.not_eq_true'] at h
    exact ⟨d.val, [], by rw [units, if_pos hd], h.1⟩
  · have hlt := d.isLt
    refine ⟨_, _, by rw [units, if_neg hd], ?_⟩
    have : isLow (0xD800 + (d.val - 0x10000) / 1024) = false := by
      simp only [isLow, Bool.and_eq_false_iff, decide_eq_false_iff_not]
      omega
    rw [this, Bool.and_false]

theorem decodedStr_tail {c : CodePoint} {s : Str} (h : decodedStr (c :: s) = true) : decodedStr s = true := by
  cases s with
  | nil => rfl
  | cons d s =>
    simp only [decodedStr, Bool.and_eq_true] at h
    exact h.2

/-- A decoded string is read back from its units. -/
theorem joinUnits_units {s : Str} : decodedStr s = true → joinUnits (s.flatMap units) = s := by
  induction s with
  | nil => intro _; rfl
  | cons c s ih =>
    intro h
    have ih := ih (decodedStr_tail h)
    rw [List.flatMap_cons]
    by_cases hc : c.val < 0x10000
    · rw [units, if_pos hc, List.singleton_append]
      cases s with
      | nil => rw [List.flatMap_nil, joinUnits, ofNat_val]
      | cons d s =>
        obtain ⟨b, r, hunits, hpair⟩ := next_not_low h
        rw [List.flatMap_cons, hunits, List.cons_append] at ih ⊢
        rw [joinUnits, hpair, ofNat_val, ih]
        rfl
    · rw [joinUnits_wide hc, ih]

theorem jsonStr_eq (s : Str) : jsonStr s = 34 :: block escapeUnit 34 (s.flatMap units) := by
  have hchar : escapeChar = fun c => (units c).flatMap escapeUnit := funext escapeChar_units
  rw [jsonStr, hchar, block, List.flatMap_assoc, List.cons_append]

theorem str_apart {s t : Str} (hs : decodedStr s = true) (ht : decodedStr t = true) : Apart jsonStr always s t := by
  intro r r' _ _ h
  rw [jsonStr_eq, jsonStr_eq, List.cons_append, List.cons_append] at h
  have lt : ∀ {u : Str} {n : Nat}, n ∈ u.flatMap units → n < 0x10000 := by
    intro u n hn
    obtain ⟨c, -, hc⟩ := List.mem_flatMap.mp hn
    exact units_lt hc
  have hblock := @block_apart _ _ escapeUnit always 34 _ _
    (fun a ha b hb => apart_of_reads (fun r _ => readUnit_escape (lt ha) r) (fun r _ => readUnit_escape (lt hb) r))
    (fun a r _ => escapeUnit_head a r) (fun _ _ => trivial) r r' trivial trivial (List.cons.inj h).2
  refine ⟨?_, hblock.2⟩
  rw [← joinUnits_units hs, hblock.1, joinUnits_units ht]

/-! ## Values -/

/-- What the first byte of a text says about the value. -/
def leadKind (b : UInt8) : Nat :=
  if b = 34 then 0
  else if b = 91 then 1
  else if b = 123 then 2
  else if b = 110 then 3
  else if b = 116 then 4
  else if b = 102 then 4
  else if isNumeric b then 5
  else 6

def Json.kind : Json → Nat
  | .str _ => 0
  | .list _ => 1
  | .dict _ => 2
  | .null => 3
  | .bool _ => 4
  | .int _ => 5
  | .float _ => 5

theorem leadKind_numeric {b : UInt8} (h : isNumeric b = true) : leadKind b = 5 := by
  unfold leadKind
  split_ifs <;> first | rfl | (subst_vars; exact absurd h (by decide))

/-- The text of a number. -/
def IsNumber (w : Bytes) : Prop := w ≠ [] ∧ ∀ b ∈ w, isNumeric b = true

theorem intRepr_number (n : Int) : IsNumber (intRepr n) := by
  refine ⟨?_, fun b hb => intRepr_numeric hb⟩
  unfold intRepr
  split
  · simp
  · exact natRepr_ne_nil _

theorem FloatRepr.number (hfl : FloatRepr fl) {x : UInt64} (hx : floatFinite x = true) : IsNumber (fl x) := by
  refine ⟨?_, hfl.numeric x hx⟩
  intro h
  rcases hfl.marked x hx with hm | hm <;> rw [h] at hm <;> cases hm

theorem number_lead {w : Bytes} (h : IsNumber w) : ∃ b t, w = b :: t ∧ leadKind b = 5 := by
  obtain ⟨hne, hall⟩ := h
  cases w with
  | nil => exact absurd rfl hne
  | cons b t => exact ⟨b, t, rfl, leadKind_numeric (hall b (.head _))⟩

theorem text_lead (hfl : FloatRepr fl) {v : Json} (hv : v.Plain) : ∃ b t, text fl v = b :: t ∧ leadKind b = v.kind := by
  cases v with
  | null => exact ⟨_, _, rfl, rfl⟩
  | bool b => cases b <;> exact ⟨_, _, rfl, rfl⟩
  | int n => exact number_lead (intRepr_number n)
  | float x => exact number_lead (hfl.number hv.1)
  | str s => exact ⟨_, _, rfl, rfl⟩
  | list xs => exact ⟨_, _, rfl, rfl⟩
  | dict fs => exact ⟨_, _, rfl, rfl⟩

theorem joinComma_eq (p : α → Bytes) : ∀ xs : List α, joinComma (xs.map p) = separated p 44 xs
  | [] => rfl
  | [a] => by simp [joinComma, separated]
  | a :: b :: xs => by
    have ih := joinComma_eq p (b :: xs)
    simp only [List.map_cons, separated, joinComma, List.flatMap_cons, List.cons_append] at ih ⊢
    rw [ih]

theorem text_list (xs : List Json) : text fl (.list xs) = 91 :: (separated (text fl) 44 xs ++ [93]) := by
  rw [text, texts_eq, joinComma_eq]

theorem text_dict (fs : List (Str × Json)) :
    text fl (.dict fs) = 123 :: (separated (fieldText fl) 44 fs ++ [125]) := by
  rw [text, fieldTexts_eq, joinComma_eq]

/-- What follows a value in a text: not the rest of a number. -/
abbrev Ends (r : Bytes) : Prop := Stops isNumeric r

theorem number_apart {v w : Json} (hv : IsNumber (text fl v)) (hw : IsNumber (text fl w))
    (h : text fl v = text fl w → v = w) : Apart (text fl) Ends v w := by
  intro r s hr hs heq
  obtain ⟨htext, hrest⟩ := word_inj hv.2 hw.2 hr hs heq
  exact ⟨h htext, hrest⟩

theorem field_apart {f g : Str × Json} (hf : decodedStr f.1 = true) (hg : decodedStr g.1 = true)
    (h : Apart (text fl) Ends f.2 g.2) : Apart (fieldText fl) Ends f g := by
  intro r s hr hs heq
  simp only [fieldText, List.append_assoc, List.cons_append] at heq
  obtain ⟨hkey, hrest⟩ := str_apart hf hg _ _ trivial trivial heq
  obtain ⟨hvalue, hrest⟩ := h r s hr hs (List.cons.inj hrest).2
  exact ⟨Prod.ext hkey hvalue, hrest⟩

theorem same_kind (hfl : FloatRepr fl) {v w : Json} (hv : v.Plain) (hw : w.Plain) {r s : Bytes}
    (h : text fl v ++ r = text fl w ++ s) : v.kind = w.kind := by
  obtain ⟨b, t, hb, hkv⟩ := text_lead hfl hv
  obtain ⟨b', t', hb', hkw⟩ := text_lead hfl hw
  rw [hb, hb'] at h
  rw [← hkv, ← hkw, (List.cons.inj h).1]

theorem text_head (hfl : FloatRepr fl) {v : Json} (hv : v.Plain) {close : UInt8} (hclose : leadKind close = 6)
    (r : Bytes) : (text fl v ++ r).head? ≠ some close := by
  obtain ⟨b, t, hb, hk⟩ := text_lead hfl hv
  rw [hb]
  intro h
  rw [Option.some.inj h, hclose] at hk
  cases v <;> cases hk

theorem bool_apart {a b : Bool} : Apart (text fl) Ends (.bool a) (.bool b) := by
  intro r s _ _ h
  have hlead : (116 : UInt8) ≠ 102 := by decide
  cases a <;> cases b
  · exact ⟨rfl, List.append_cancel_left h⟩
  · exact absurd (List.cons.inj h).1.symm hlead
  · exact absurd (List.cons.inj h).1 hlead
  · exact ⟨rfl, List.append_cancel_left h⟩

theorem list_apart (hfl : FloatRepr fl) {xs ys : List Json} (hxs : ∀ x ∈ xs, x.Plain) (hys : ∀ y ∈ ys, y.Plain)
    (hap : ∀ x ∈ xs, ∀ y ∈ ys, Apart (text fl) Ends x y) : Apart (text fl) Ends (.list xs) (.list ys) := by
  intro r s _ _ h
  rw [text_list, text_list] at h
  have hsep := separated_apart (by decide : (44 : UInt8) ≠ 93) hap
    (fun a r h => text_head hfl (h.elim (hxs a) (hys a)) rfl r) (stops_cons rfl) (stops_cons rfl)
  obtain ⟨rfl, hrest⟩ := hsep r s trivial trivial (List.cons.inj h).2
  exact ⟨rfl, hrest⟩

theorem dict_apart {fs gs : List (Str × Json)} (hap : ∀ f ∈ fs, ∀ g ∈ gs, Apart (fieldText fl) Ends f g) :
    Apart (text fl) Ends (.dict fs) (.dict gs) := by
  intro r s _ _ h
  rw [text_dict, text_dict] at h
  -- a field starts with the quote of its key
  have hsep := separated_apart (by decide : (44 : UInt8) ≠ 125) hap
    (fun a r _ h => absurd (Option.some.inj h) (by decide : (34 : UInt8) ≠ 125)) (stops_cons rfl) (stops_cons rfl)
  obtain ⟨rfl, hrest⟩ := hsep r s trivial trivial (List.cons.inj h).2
  exact ⟨rfl, hrest⟩

/-- Values that start alike are told apart, if the values inside them are. -/
theorem kind_apart (hfl : FloatRepr fl) {v : Json} : ∀ {w : Json}, v.Plain → w.Plain → v.kind = w.kind →
    Apart (text fl) Ends v w := by
  induction v using Json.induct with
  | null =>
    intro w _ _ hk
    cases w <;> cases hk
    exact fun r s _ _ h => ⟨rfl, List.append_cancel_left h⟩
  | bool a =>
    intro w _ _ hk
    cases w <;> cases hk
    exact bool_apart
  | int n =>
    intro w _ hw hk
    cases w with
    | int m => exact number_apart (intRepr_number n) (intRepr_number m) fun h => by rw [intRepr_inj h]
    | float x => exact number_apart (intRepr_number n) (hfl.number hw.1) fun h => absurd h (intRepr_ne_float hfl hw.1)
    | _ => cases hk
  | float x =>
    intro w hv hw hk
    cases w with
    | int m =>
      exact number_apart (hfl.number hv.1) (intRepr_number m) fun h => absurd h.symm (intRepr_ne_float hfl hv.1)
    | float y =>
      exact number_apart (hfl.number hv.1) (hfl.number hw.1) fun h => by rw [hfl.inj x y hv.1 hw.1 h]
    | _ => cases hk
  | str s =>
    intro w hv hw hk
    cases w <;> cases hk
    intro r r' _ _ h
    obtain ⟨rfl, hrest⟩ := str_apart hv.2 hw.2 r r' trivial trivial h
    exact ⟨rfl, hrest⟩
  | list xs ih =>
    intro w hv hw hk
    cases w <;> cases hk
    have hxs := plain_list.mp hv
    have hys := plain_list.mp hw
    refine list_apart hfl hxs hys fun x hx y hy r s hr hs h => ?_
    exact ih x hx (hxs x hx) (hys y hy) (same_kind hfl (hxs x hx) (hys y hy) h) r s hr hs h
  | dict fs ih =>
    intro w hv hw hk
    cases w <;> cases hk
    have hfs := plain_dict.mp hv
    have hgs := plain_dict.mp hw
    refine dict_apart fun f hf g hg => field_apart (hfs f hf).1 (hgs g hg).1 fun r s hr hs h => ?_
    exact ih f hf (hfs f hf).2 (hgs g hg).2 (same_kind hfl (hfs f hf).2 (hgs g hg).2 h) r s hr hs h

/-- The text of a value shows where it ends and which value it is. -/
theorem text_apart (hfl : FloatRepr fl) {v w : Json} (hv : v.Plain) (hw : w.Plain) : Apart (text fl) Ends v w :=
  fun r s hr hs h => kind_apart hfl hv hw (same_kind hfl hv hw h) r s hr hs h

theorem text_inj (hfl : FloatRepr fl) {v w : Json} (hv : v.Plain) (hw : w.Plain) (h : text fl v = text fl w) :
    v = w := by
  have hnil : Ends [] := fun _ hb => by cases hb
  exact (text_apart hfl hv hw [] [] hnil hnil (by rw [h])).1

/-- **Canonical JSON determines the value up to the order of its keys.** -/
theorem canonicalJson_inj {E : Primitives} (hfl : FloatRepr E.floatRepr) {v w : Json} {b : Bytes}
    (hv : v.decoded = true) (hw : w.decoded = true) (h : canonicalJson E v = .ok b) (h' : canonicalJson E w = .ok b) :
    v.norm = w.norm := by
  have plain : ∀ {u : Json}, u.decoded = true → canonicalJson E u = .ok b → u.Plain :=
    fun hu hb => ⟨(dumps_ok_iff _ _).mp ⟨b, hb⟩, hu⟩
  apply text_inj hfl (norm_plain (plain hv h)) (norm_plain (plain hw h'))
  rw [← dumps_eq h, ← dumps_eq h']

end ChainBreaker
