import ChainBreaker.JsonBack

/-!
# Canonical JSON read back

`json.loads` of what `canonical_json` wrote. A string comes back from its
UTF-16 units, so a high surrogate and the low one behind it come back as one
character, and as they were only if the string had no such pair
(`loads_canonical`, `parsed_norm_iff`).
-/

namespace ChainBreaker

open Fallible

/-! ## Strings -/

theorem unicodeEscape_text (n : Nat) (t : Str) :
    asciiText (unicodeEscape n) ++ t = 92 :: 117 :: (asciiText (hex4 n) ++ t) := rfl

/-- What follows does not complete the unit to a pair. -/
def Apart16 (a : Nat) (t : Str) : Prop :=
  isHigh a = true → ∀ t', t = 92 :: 117 :: t' → ∃ u r, readHex4 t' = some (u, r) ∧ isLow u = false

theorem readUnicode_one {a : Nat} (ha : a < 0x10000) {t : Str} (h : Apart16 a t) :
    readUnicode (asciiText (hex4 a) ++ t) = some (Fin.ofNat _ a, t) := by
  rw [readUnicode, readHex4_escape ha]
  simp only [Option.bind_eq_bind, Option.bind_some]
  split
  · rename_i b c t'
    split
    · rename_i hpair
      obtain ⟨hhigh, hb, hc⟩ := hpair
      obtain rfl : b = 92 := Fin.ext hb
      obtain rfl : c = 117 := Fin.ext hc
      obtain ⟨u, r, hread, hlow⟩ := h hhigh t' rfl
      rw [hread, Option.bind_some, if_neg (by rw [hlow]; exact Bool.false_ne_true)]
    · rfl
  · rfl

theorem readUnicode_pair {a b : Nat} (ha : isHigh a = true) (hb : isLow b = true) (t : Str) :
    readUnicode (asciiText (hex4 a) ++ 92 :: 117 :: (asciiText (hex4 b) ++ t)) =
      some (Fin.ofNat _ (0x10000 + 1024 * (a - 0xD800) + (b - 0xDC00)), t) := by
  have halt : a < 0x10000 := by
    simp only [isHigh, Bool.and_eq_true, decide_eq_true_eq] at ha
    omega
  have hblt : b < 0x10000 := by
    simp only [isLow, Bool.and_eq_true, decide_eq_true_eq] at hb
    omega
  rw [readUnicode, readHex4_escape halt]
  simp only [Option.bind_eq_bind, Option.bind_some]
  rw [if_pos ⟨ha, rfl, rfl⟩, readHex4_escape hblt, Option.bind_some, if_pos hb]

theorem readEscape_unicode (t : Str) : readEscape (117 :: t) = readUnicode t := by
  rw [readEscape, if_neg (by decide), if_neg (by decide), if_neg (by decide), if_neg (by decide), if_neg (by decide),
    if_neg (by decide), if_pos (by decide)]

theorem readChars_escape {n : Nat} {t r : Str} {c : CodePoint} (h : readEscape t = some (c, r)) :
    readChars (n + 1) (92 :: t) = (readChars n r).map fun x => (c :: x.1, x.2) := by
  rw [readChars, if_neg (by decide), if_pos (by decide), h]
  cases hn : readChars n r <;> simp [hn]

/-- A unit by itself is read as a character. -/
theorem readChars_unit {a : Nat} (ha : a < 0x10000) {t : Str} (h : Apart16 a t) (n : Nat) :
    readChars (n + 1) (asciiText (escapeUnit a) ++ t) = (readChars n t).map fun x => (Fin.ofNat _ a :: x.1, x.2) := by
  unfold escapeUnit
  split_ifs with h₁ h₂ h₃ h₄ h₅ h₆ h₇ h₈
  · subst h₁
    exact readChars_escape (t := 34 :: t) rfl
  · subst h₂
    exact readChars_escape (t := 92 :: t) rfl
  · subst h₃
    exact readChars_escape (t := 110 :: t) rfl
  · subst h₄
    exact readChars_escape (t := 114 :: t) rfl
  · subst h₅
    exact readChars_escape (t := 116 :: t) rfl
  · subst h₆
    exact readChars_escape (t := 102 :: t) rfl
  · subst h₇
    exact readChars_escape (t := 98 :: t) rfl
  · have hval : (UInt8.ofNat a).toNat = a := by
      rw [UInt8.toNat_ofNat']
      omega
    have hchar : (Fin.ofNat 0x110000 a).val = a := Nat.mod_eq_of_lt (by omega)
    rw [asciiText, List.map_cons, List.map_nil, hval, List.singleton_append, readChars, if_neg (by omega),
      if_neg (by omega), if_neg (by omega)]
    cases readChars n t <;> rfl
  · rw [unicodeEscape_text]
    exact readChars_escape (by rw [readEscape_unicode, readUnicode_one ha h])

/-- A unit is written behind `\\u` if it is a surrogate. -/
theorem escapeUnit_surrogate {a : Nat} (h : isHigh a = true ∨ isLow a = true) : escapeUnit a = unicodeEscape a := by
  simp only [isHigh, isLow, Bool.and_eq_true, decide_eq_true_eq] at h
  unfold escapeUnit
  split_ifs <;> first | omega | rfl

/-- A unit that is written behind `\\u` is read behind it. -/
theorem escapeUnit_opens {b : Nat} (hb : b < 0x10000) {t t' : Str} (h : asciiText (escapeUnit b) ++ t = 92 :: 117 :: t') :
    readHex4 t' = some (b, t) := by
  unfold escapeUnit at h
  split_ifs at h with h₁ h₂ h₃ h₄ h₅ h₆ h₇ h₈
  all_goals try exact absurd (List.cons.inj (List.cons.inj h).2).1 (by decide)
  · have hval : (UInt8.ofNat b).toNat = b := by
      rw [UInt8.toNat_ofNat']
      omega
    rw [asciiText, List.map_cons, List.map_nil, hval, List.singleton_append] at h
    have hchar : (Fin.ofNat 0x110000 b).val = b := Nat.mod_eq_of_lt (by omega)
    have hhead := congrArg Fin.val (List.cons.inj h).1
    rw [hchar] at hhead
    exact absurd hhead h₂
  · rw [unicodeEscape_text] at h
    rw [← (List.cons.inj (List.cons.inj h).2).2, readHex4_escape hb]

def parsedStr (s : Str) : Str := joinUnits (s.flatMap units)

/-- **Reading back.** Units are read as the characters they make. -/
theorem readChars_units (us : List Nat) : ∀ {n : Nat} (r : Str), (∀ a ∈ us, a < 0x10000) → us.length < n →
    readChars n (asciiText (us.flatMap escapeUnit) ++ 34 :: r) = some (joinUnits us, r) := by
  induction us using joinUnits.induct with
  | case1 a b us hpair ih =>
    intro n r hlt hn
    obtain ⟨n, rfl⟩ : ∃ m, n = m + 1 := ⟨n - 1, by omega⟩
    rw [Bool.and_eq_true] at hpair
    have hrest := ih (n := n) r (fun x hx => hlt x (.tail _ (.tail _ hx))) (by simp only [List.length_cons] at hn; omega)
    rw [List.flatMap_cons, List.flatMap_cons, escapeUnit_surrogate (.inl hpair.1), escapeUnit_surrogate (.inr hpair.2),
      asciiText_append, asciiText_append, List.append_assoc, List.append_assoc, unicodeEscape_text, unicodeEscape_text,
      readChars_escape (by rw [readEscape_unicode, readUnicode_pair hpair.1 hpair.2]), hrest, joinUnits,
      if_pos (by rw [hpair.1, hpair.2]; rfl)]
    rfl
  | case2 a b us hpair ih =>
    intro n r hlt hn
    obtain ⟨n, rfl⟩ : ∃ m, n = m + 1 := ⟨n - 1, by omega⟩
    have hrest := ih (n := n) r (fun x hx => hlt x (.tail _ hx)) (by simp only [List.length_cons] at hn ⊢; omega)
    have happart : Apart16 a (asciiText ((b :: us).flatMap escapeUnit) ++ 34 :: r) := by
      intro hhigh t' ht
      rw [List.flatMap_cons, asciiText_append, List.append_assoc] at ht
      refine ⟨b, _, escapeUnit_opens (hlt b (.tail _ (.head _))) ht, ?_⟩
      rw [hhigh, Bool.true_and] at hpair
      exact Bool.eq_false_iff.mpr hpair
    rw [List.flatMap_cons, asciiText_append, List.append_assoc, readChars_unit (hlt a (.head _)) happart, hrest,
      joinUnits, if_neg hpair]
    rfl
  | case3 a =>
    intro n r hlt hn
    obtain ⟨n, rfl⟩ : ∃ m, n = m + 2 := ⟨n - 2, by simp only [List.length_singleton] at hn; omega⟩
    have happart : Apart16 a (34 :: r) := fun _ t' ht => absurd (List.cons.inj ht).1 (by decide)
    rw [List.flatMap_cons, List.flatMap_nil, List.append_nil, readChars_unit (hlt a (.head _)) happart, readChars,
      if_pos (by decide)]
    rfl
  | case4 =>
    intro n r _ hn
    obtain ⟨n, rfl⟩ : ∃ m, n = m + 1 := ⟨n - 1, by simp only [List.length_nil] at hn; omega⟩
    rfl

theorem escapeUnit_ne_nil (a : Nat) : escapeUnit a ≠ [] := by
  unfold escapeUnit unicodeEscape
  split_ifs <;> simp

theorem length_le_units (us : List Nat) : us.length ≤ (us.flatMap escapeUnit).length := by
  induction us with
  | nil => exact Nat.zero_le _
  | cons a us ih =>
    have hpos := List.length_pos_iff.mpr (escapeUnit_ne_nil a)
    rw [List.flatMap_cons, List.length_append, List.length_cons]
    omega

theorem jsonStr_text (s : Str) (t : Str) :
    asciiText (jsonStr s) ++ t = 34 :: (asciiText ((s.flatMap units).flatMap escapeUnit) ++ 34 :: t) := by
  have hchar : escapeChar = fun c => (units c).flatMap escapeUnit := funext escapeChar_units
  have hchars : s.flatMap escapeChar = (s.flatMap units).flatMap escapeUnit := by rw [hchar, List.flatMap_assoc]
  rw [jsonStr, hchars, List.cons_append, asciiText, List.map_cons, List.map_append, List.cons_append, List.append_assoc]
  rfl

theorem length_le_jsonStr (s : Str) : (s.flatMap units).length + 2 ≤ (asciiText (jsonStr s)).length := by
  have hlen := congrArg List.length (jsonStr_text s [])
  have hle := length_le_units (s.flatMap units)
  simp only [List.append_nil, List.length_cons, List.length_append, List.length_nil, asciiText, List.length_map] at hlen ⊢
  omega

/-- A string is read from behind its opening quote. -/
theorem readChars_jsonStr (s : Str) {n : Nat} (r : Str) (hn : (asciiText (jsonStr s)).length ≤ n) :
    readChars n (asciiText ((s.flatMap units).flatMap escapeUnit) ++ 34 :: r) = some (parsedStr s, r) := by
  have hlen := length_le_jsonStr s
  refine readChars_units _ r (fun a ha => ?_) (by omega)
  obtain ⟨c, -, hc⟩ := List.mem_flatMap.mp ha
  exact units_lt hc

/-! ## Lists and dictionaries -/

/-- Texts with commas between them. -/
def commas : List Str → Str
  | [] => []
  | [t] => t
  | t :: ts => t ++ 44 :: commas ts

theorem commas_cons (t : Str) {ts : List Str} (h : ts ≠ []) : commas (t :: ts) = t ++ 44 :: commas ts := by
  cases ts with
  | nil => exact absurd rfl h
  | cons u ts => rfl

theorem asciiText_joinComma : ∀ bs : List Bytes, asciiText (joinComma bs) = commas (bs.map asciiText)
  | [] => rfl
  | [b] => rfl
  | b :: c :: bs => by
    rw [asciiText_join b (List.cons_ne_nil c bs), asciiText_joinComma (c :: bs)]
    rfl

section
variable {floatOf : Str → UInt64} {fl : UInt64 → Bytes}

theorem commas_leads {ts : List Str} (hne : ts ≠ []) (h : ∀ t ∈ ts, Leads t) : Leads (commas ts) := by
  obtain ⟨t, ts, rfl⟩ := List.exists_cons_of_ne_nil hne
  cases ts with
  | nil => exact h t (.head _)
  | cons u ts => exact (h t (.head _)).append _

/-- The elements of an array, from their texts. -/
theorem items_read : ∀ {ts : List Str} {ws : List Json} {n : Nat} {r : Str}, ts ≠ [] → (∀ t ∈ ts, Leads t) →
    List.Forall₂ (ReadsAs floatOf) ts ws → 3 * (commas ts).length + 1 ≤ n →
    readItems floatOf n (commas ts ++ 93 :: r) = some (ws, r) := by
  intro ts
  induction ts with
  | nil => exact fun h => absurd rfl h
  | cons t ts ih =>
    intro ws n r _ hlead hws hn
    obtain ⟨n, rfl⟩ : ∃ m, n = m + 1 := ⟨n - 1, by omega⟩
    cases hws with
    | cons hw hws =>
      cases ts with
      | nil =>
        cases hws
        rw [commas, readItems, hw n (93 :: r) (by simpa [commas] using hn) (follows_cons (by decide) _)]
        rfl
      | cons u ts =>
        rw [commas_cons t (by simp), List.length_append, List.length_cons] at hn
        have htail : ∀ t ∈ u :: ts, Leads t := fun t ht => hlead t (.tail _ ht)
        have hrest := ih (n := n) (r := r) (by simp) htail hws (by omega : 3 * (commas (u :: ts)).length + 1 ≤ n)
        rw [commas_cons t (by simp), List.append_assoc, List.cons_append, readItems,
          hw n (44 :: (commas (u :: ts) ++ 93 :: r)) (by omega) (follows_cons (by decide) _)]
        simp only [Option.bind_eq_bind, Option.bind_some]
        rw [skipBlanks_of_not (by decide)]
        simp only
        rw [if_neg (by decide), if_pos (by decide), skipBlanks_leads (commas_leads (by simp) htail), hrest]
        rfl

/-- A field as it is written. -/
def escapedField (f : Str × Str) : Str := asciiText (jsonStr f.1) ++ 58 :: f.2

/-- A field of an object, up to what follows its value. -/
theorem escapedField_read {k t : Str} {w : Json} {n : Nat} {r : Str} (hlead : Leads t) (h : ReadsAs floatOf t w)
    (hn : 3 * (escapedField (k, t)).length ≤ n) (hr : Follows r) :
    readPairs floatOf (n + 1) (escapedField (k, t) ++ r) =
      match skipBlanks r with
      | c :: r =>
        if c.val = 125 then some ([(parsedStr k, w)], r)
        else if c.val = 44 then do
          let (fs, r) ← readPairs floatOf n (skipBlanks r)
          some ((parsedStr k, w) :: fs, r)
        else none
      | [] => none := by
  simp only [escapedField, List.length_append, List.length_cons] at hn
  rw [escapedField, List.append_assoc, List.cons_append, jsonStr_text, readPairs, if_neg (by decide),
    readChars_jsonStr k _ (by omega)]
  simp only [Option.bind_eq_bind, Option.bind_some]
  rw [skipBlanks_of_not (by decide)]
  simp only
  rw [if_neg (by decide), skipBlanks_leads hlead, h n r (by omega) hr]
  rfl

theorem escapedFields_quote {fs : List (Str × Str)} (h : fs ≠ []) : ∃ u, commas (fs.map escapedField) = 34 :: u := by
  obtain ⟨f, fs, rfl⟩ := List.exists_cons_of_ne_nil h
  cases fs with
  | nil => exact ⟨_, jsonStr_text f.1 (58 :: f.2)⟩
  | cons g fs =>
    rw [List.map_cons, commas_cons _ (by simp), escapedField, List.append_assoc, jsonStr_text]
    exact ⟨_, rfl⟩

theorem fields_read : ∀ {fs : List (Str × Str)} {ws : Fields} {n : Nat} {r : Str}, fs ≠ [] → (∀ f ∈ fs, Leads f.2) →
    List.Forall₂ (fun f w => parsedStr f.1 = w.1 ∧ ReadsAs floatOf f.2 w.2) fs ws →
    3 * (commas (fs.map escapedField)).length + 1 ≤ n →
    readPairs floatOf n (commas (fs.map escapedField) ++ 125 :: r) = some (ws, r)
  | [(k, t)], [(_, w)], n, r, _, hlead, .cons ⟨rfl, hw⟩ .nil, hn => by
    obtain ⟨n, rfl⟩ : ∃ m, n = m + 1 := ⟨n - 1, by omega⟩
    change ReadsAs floatOf t w at hw
    have ht : Leads t := hlead (k, t) (.head _)
    rw [List.map_cons, List.map_nil, commas] at hn ⊢
    rw [escapedField_read ht hw (by omega) (follows_cons (by decide) _), skipBlanks_of_not (by decide)]
    rfl
  | (k, t) :: f :: fs, (_, w) :: ws, n, r, _, hlead, .cons ⟨rfl, hw⟩ hws, hn => by
    obtain ⟨n, rfl⟩ : ∃ m, n = m + 1 := ⟨n - 1, by omega⟩
    change ReadsAs floatOf t w at hw
    have ht : Leads t := hlead (k, t) (.head _)
    rw [List.map_cons, commas_cons _ (by simp)] at hn ⊢
    rw [List.length_append, List.length_cons] at hn
    have hrest := fields_read (n := n) (r := r) (by simp) (fun g hg => hlead g (.tail _ hg)) hws
      (by omega : 3 * (commas ((f :: fs).map escapedField)).length + 1 ≤ n)
    have hblank : skipBlanks (commas ((f :: fs).map escapedField) ++ 125 :: r) =
        commas ((f :: fs).map escapedField) ++ 125 :: r := by
      obtain ⟨u, hu⟩ := escapedFields_quote (List.cons_ne_nil f fs)
      rw [hu]
      exact skipBlanks_of_not (by decide) _
    rw [List.append_assoc, List.cons_append,
      escapedField_read ht hw (by omega) (follows_cons (by decide) _), skipBlanks_of_not (by decide)]
    simp only
    rw [if_neg (by decide), if_pos (by decide), hblank, hrest]
    rfl

/-! ## Values -/

end

mutual
/-- The value that comes back. -/
def Json.parsed : Json → Json
  | .str s => .str (parsedStr s)
  | .list xs => .list (parsedList xs)
  | .dict fs => .dict ((parsedFields fs).foldl (fun d f => Fields.put d f.1 f.2) [])
  | v => v
def parsedList : List Json → List Json
  | [] => []
  | x :: xs => x.parsed :: parsedList xs
def parsedFields : List (Str × Json) → List (Str × Json)
  | [] => []
  | (k, v) :: fs => (parsedStr k, v.parsed) :: parsedFields fs
end

theorem parsedList_eq : ∀ xs, parsedList xs = xs.map Json.parsed := by
  intro xs
  induction xs with
  | nil => rfl
  | cons x xs ih => rw [parsedList, ih, List.map_cons]

theorem parsedFields_eq : ∀ fs, parsedFields fs = fs.map fun f => (parsedStr f.1, f.2.parsed) := by
  intro fs
  induction fs with
  | nil => rfl
  | cons f fs ih =>
    obtain ⟨k, v⟩ := f
    rw [parsedFields, ih, List.map_cons]

/-- `float(repr(x))` is `x`, for finite floats, and `repr` writes JSON. -/
structure FloatsRead (M : Runtime) : Prop where
  text : FloatText M.floatRepr
  back : ∀ x, floatFinite x = true → readNumber M.floatOf (asciiText (M.floatRepr x)) = some (.float x, [])

/-- The same of the floats in `P`. -/
structure FloatsBack (M : Runtime) (P : UInt64 → Prop) : Prop where
  text : ∀ x, P x → JsonNumber (asciiText (M.floatRepr x))
  back : ∀ x, P x → readNumber M.floatOf (asciiText (M.floatRepr x)) = some (.float x, [])

/-- The floats in `P` are read as they were, wherever they stand in a text. -/
structure FloatsReread (floatOf : Str → UInt64) (fl : UInt64 → Bytes) (P : UInt64 → Prop) : Prop where
  leads : ∀ x, P x → Leads (asciiText (fl x))
  reads : ∀ x, P x → ReadsAs floatOf (asciiText (fl x)) (.float x)

section
variable {M : Runtime} {P : UInt64 → Prop}

theorem FloatsRead.finite (hM : FloatsRead M) : FloatsBack M fun x => floatFinite x = true := ⟨hM.text, hM.back⟩

theorem floatsBack_none : FloatsBack M fun _ => False := ⟨nofun, nofun⟩

theorem FloatsBack.reread (hM : FloatsBack M P) : FloatsReread M.floatOf M.floatRepr P := by
  refine ⟨fun x hx => leads_number (hM.text x hx), fun x hx n r hn hr => ?_⟩
  obtain ⟨w, hw⟩ := @readNumber_number M.floatOf _ (hM.text x hx)
  have hself := hw [] follows_nil
  rw [List.append_nil, hM.back x hx, Option.some.injEq, Prod.mk.injEq] at hself
  have hpos := jsonNumber_pos (hM.text x hx)
  obtain rfl := hself.1
  exact readValue_numeral (hM.text x hx) (by omega) r (hw r hr)

theorem text_leads (hM : FloatsReread floatOf fl P) {v : Json} (h : v.Floats P) : Leads (asciiText (text fl v)) := by
  cases v with
  | null => exact ⟨_, _, rfl, by decide, by decide⟩
  | bool b => cases b <;> exact ⟨_, _, rfl, by decide, by decide⟩
  | int n => exact leads_number (intRepr_jsonNumber n)
  | float x => exact hM.leads x h
  | str s => exact ⟨_, _, rfl, by decide, by decide⟩
  | list xs => exact ⟨_, _, rfl, by decide, by decide⟩
  | dict fs => exact ⟨_, _, rfl, by decide, by decide⟩

theorem text_back (hM : FloatsReread floatOf fl P) (v : Json) : v.Floats P →
    ReadsAs floatOf (asciiText (text fl v)) v.parsed := by
  induction v using Json.induct with
  | null => exact fun _ => word_reads (fun _ r => readWord_word (str "null") .null r) (Nat.zero_lt_succ 3)
  | bool b =>
    cases b
    · exact fun _ => word_reads (fun _ r => readWord_word (str "false") (.bool false) r) (Nat.zero_lt_succ 4)
    · exact fun _ => word_reads (fun _ r => readWord_word (str "true") (.bool true) r) (Nat.zero_lt_succ 3)
  | int k =>
    intro _ n r hn hr
    have hpos := jsonNumber_pos (intRepr_jsonNumber k)
    rw [text] at hn
    exact readValue_numeral (intRepr_jsonNumber k) (by omega) r (readNumber_intRepr k hr)
  | float x => exact hM.reads x
  | str s =>
    intro _ n r hn _
    have hlen := length_le_jsonStr s
    rw [text] at hn
    obtain ⟨n, rfl⟩ : ∃ m, n = m + 1 := ⟨n - 1, by omega⟩
    rw [text, jsonStr_text, readValue, if_pos (by decide), readChars_jsonStr s _ (by omega)]
    rfl
  | list xs ih =>
    intro h n r hn _
    rw [Json.Floats, floatsList_iff] at h
    have htext : asciiText (text fl (.list xs)) =
        91 :: (commas (xs.map fun x => asciiText (text fl x)) ++ [93]) := by
      rw [text, asciiText, List.map_cons, ← asciiText, asciiText_append, asciiText_joinComma, texts_eq, List.map_map]
      rfl
    rw [htext] at hn ⊢
    simp only [List.length_cons, List.length_append, List.length_nil] at hn
    obtain ⟨n, rfl⟩ : ∃ m, n = m + 2 := ⟨n - 2, by omega⟩
    by_cases hxs : xs = []
    · subst hxs
      rfl
    · have hne : (xs.map fun x => asciiText (text fl x)) ≠ [] := by simpa using hxs
      have hlead : ∀ t ∈ xs.map fun x => asciiText (text fl x), Leads t := by
        intro t ht
        obtain ⟨x, hx, rfl⟩ := List.mem_map.mp ht
        exact text_leads hM (h x hx)
      have hws := items_read (n := n) (r := r) hne hlead (List.forall₂_map_left_iff.mpr
        (List.forall₂_map_right_iff.mpr (List.forall₂_same.mpr fun x hx => ih x hx (h x hx)))) (by omega)
      obtain ⟨c, u, hcu, -, hc⟩ := (commas_leads hne hlead).append (93 :: r)
      rw [List.cons_append, List.append_assoc, List.singleton_append, readValue, if_neg (by decide),
        if_neg (by decide), if_pos (by decide), skipBlanks_leads (commas_leads hne hlead)]
      rw [hcu] at hws ⊢
      rw [readArray, if_neg hc, hws, Json.parsed, parsedList_eq]
      rfl
  | dict fs ih =>
    intro h n r hn _
    rw [Json.Floats, floatsFields_iff] at h
    have htext : asciiText (text fl (.dict fs)) =
        123 :: (commas ((fs.map fun f => (f.1, asciiText (text fl f.2))).map escapedField) ++ [125]) := by
      rw [text, asciiText, List.map_cons, ← asciiText, asciiText_append, asciiText_joinComma, fieldTexts_eq, List.map_map,
        List.map_map]
      congr 3
      refine List.map_congr_left fun f _ => ?_
      rw [Function.comp_apply, Function.comp_apply, fieldText, asciiText_append]
      rfl
    rw [htext] at hn ⊢
    simp only [List.length_cons, List.length_append, List.length_nil] at hn
    obtain ⟨n, rfl⟩ : ∃ m, n = m + 2 := ⟨n - 2, by omega⟩
    by_cases hfs : fs = []
    · subst hfs
      rfl
    · have hne : (fs.map fun f => (f.1, asciiText (text fl f.2))) ≠ [] := by simpa using hfs
      have hlead : ∀ f ∈ fs.map fun f => (f.1, asciiText (text fl f.2)), Leads f.2 := by
        intro g hg
        obtain ⟨f, hf, rfl⟩ := List.mem_map.mp hg
        exact text_leads hM (h f hf)
      have hws := @fields_read floatOf _ (fs.map fun f => (parsedStr f.1, f.2.parsed)) n r hne hlead
        (List.forall₂_map_left_iff.mpr (List.forall₂_map_right_iff.mpr (List.forall₂_same.mpr
          fun f hf => ⟨rfl, ih f hf (h f hf)⟩))) (by omega)
      obtain ⟨u, hu⟩ := escapedFields_quote hne
      rw [List.cons_append, List.append_assoc, List.singleton_append, readValue, if_neg (by decide),
        if_pos (by decide)]
      rw [hu, List.cons_append] at hws ⊢
      rw [skipBlanks_of_not (by decide), readObject, if_neg (by decide), hws, Json.parsed, parsedFields_eq]
      rfl

/-- **Reading back.** -/
theorem loads_escaped (hM : FloatsReread floatOf fl P) {v : Json} (h : v.Floats P) :
    loads floatOf (asciiText (text fl v)) = .ok v.parsed := by
  have hread := text_back hM v h _ [] (Nat.le_refl _) follows_nil
  have hblank := skipBlanks_leads (text_leads hM h) []
  rw [List.append_nil] at hread hblank
  rw [loads, hblank, hread]
  rfl

end

/-! ## What comes back as it was -/

theorem isHigh_lt {a : Nat} (h : isHigh a = true) : a < 0x10000 := by
  simp only [isHigh, Bool.and_eq_true, decide_eq_true_eq] at h
  omega

/-- What is read has no pair left to join. -/
theorem decodedStr_joinUnits (us : List Nat) : (∀ a ∈ us, a < 0x10000) → decodedStr (joinUnits us) = true := by
  induction us using joinUnits.induct with
  | case1 a b us hpair ih =>
    intro hlt
    have hrest := ih fun x hx => hlt x (.tail _ (.tail _ hx))
    have hwide : isHigh (Fin.ofNat 0x110000 (0x10000 + 1024 * (a - 0xD800) + (b - 0xDC00))).val = false := by
      simp only [Bool.and_eq_true, isHigh, isLow, decide_eq_true_eq] at hpair
      have hval : (Fin.ofNat 0x110000 (0x10000 + 1024 * (a - 0xD800) + (b - 0xDC00))).val =
        0x10000 + 1024 * (a - 0xD800) + (b - 0xDC00) := Nat.mod_eq_of_lt (by omega)
      simp only [hval, isHigh, Bool.and_eq_false_iff, decide_eq_false_iff_not]
      omega
    rw [joinUnits, if_pos hpair]
    cases hj : joinUnits us with
    | nil => rfl
    | cons d s => rw [decodedStr, hwide, ← hj, hrest]; rfl
  | case2 a b us hpair ih =>
    intro hlt
    have hrest := ih fun x hx => hlt x (.tail _ hx)
    have ha : (Fin.ofNat 0x110000 a).val = a := Nat.mod_eq_of_lt (by have := hlt a (.head _); omega)
    have hb : (Fin.ofNat 0x110000 b).val = b := Nat.mod_eq_of_lt (by have := hlt b (.tail _ (.head _)); omega)
    -- the next character is the next unit, or beyond the surrogates
    obtain ⟨d, s, hd, hnext⟩ : ∃ d s, joinUnits (b :: us) = d :: s ∧ (isHigh a && isLow d.val) = false := by
      cases us with
      | nil => exact ⟨_, _, rfl, by rw [hb]; exact Bool.eq_false_iff.mpr hpair⟩
      | cons e us =>
        by_cases hjoin : (isHigh b && isLow e) = true
        · refine ⟨_, _, by rw [joinUnits, if_pos hjoin], ?_⟩
          simp only [Bool.and_eq_true, isHigh, isLow, decide_eq_true_eq] at hjoin
          have hval : (Fin.ofNat 0x110000 (0x10000 + 1024 * (b - 0xD800) + (e - 0xDC00))).val =
            0x10000 + 1024 * (b - 0xD800) + (e - 0xDC00) := Nat.mod_eq_of_lt (by omega)
          rw [hval, Bool.and_eq_false_iff, isLow, Bool.and_eq_false_iff, decide_eq_false_iff_not, decide_eq_false_iff_not]
          omega
        · exact ⟨_, _, by rw [joinUnits, if_neg hjoin], by rw [hb]; exact Bool.eq_false_iff.mpr hpair⟩
    rw [joinUnits, if_neg hpair, hd, decodedStr, ha, hnext, ← hd, hrest]
    rfl
  | case3 a => exact fun _ => rfl
  | case4 => exact fun _ => rfl

theorem parsedStr_decoded (s : Str) : decodedStr (parsedStr s) = true :=
  decodedStr_joinUnits _ fun a ha => by
    obtain ⟨c, -, hc⟩ := List.mem_flatMap.mp ha
    exact units_lt hc

theorem put_decoded {d : Fields} {k : Str} {v : Json} (hd : (Json.dict d).decoded = true) (hk : decodedStr k = true)
    (hv : v.decoded = true) : (Json.dict (Fields.put d k v)).decoded = true := by
  rw [Json.decoded, decodedFields_iff] at hd ⊢
  intro f hf
  rw [Fields.put] at hf
  split at hf
  · obtain ⟨g, hg, rfl⟩ := List.mem_map.mp hf
    split
    · exact ⟨hk, hv⟩
    · exact hd g hg
  · rcases List.mem_append.mp hf with hf | hf
    · exact hd f hf
    · rw [List.mem_singleton.mp hf]
      exact ⟨hk, hv⟩

theorem foldl_put_decoded : ∀ {fs d : Fields}, (∀ f ∈ fs, decodedStr f.1 = true ∧ f.2.decoded = true) →
    (Json.dict d).decoded = true → (Json.dict (fs.foldl (fun d f => Fields.put d f.1 f.2) d)).decoded = true
  | [], _, _, hd => hd
  | f :: fs, d, hfs, hd => by
    rw [List.forall_mem_cons] at hfs
    rw [List.foldl_cons]
    exact foldl_put_decoded hfs.2 (put_decoded hd hfs.1.1 hfs.1.2)

theorem parsed_decoded (v : Json) : v.parsed.decoded = true := by
  induction v using Json.induct with
  | null => rfl
  | bool b => rfl
  | int n => rfl
  | float x => rfl
  | str s => exact parsedStr_decoded s
  | list xs ih =>
    rw [Json.parsed, parsedList_eq, Json.decoded, decodedList_iff]
    intro y hy
    obtain ⟨x, hx, rfl⟩ := List.mem_map.mp hy
    exact ih x hx
  | dict fs ih =>
    rw [Json.parsed, parsedFields_eq]
    refine foldl_put_decoded (fun g hg => ?_) rfl
    obtain ⟨f, hf, rfl⟩ := List.mem_map.mp hg
    exact ⟨parsedStr_decoded f.1, ih f hf⟩

theorem norm_decoded {v : Json} : v.norm.decoded = v.decoded := by
  induction v using Json.induct with
  | null => rfl
  | bool b => rfl
  | int n => rfl
  | float x => rfl
  | str s => rfl
  | list xs ih =>
    rw [Bool.eq_iff_iff, Json.norm, normList_eq, Json.decoded, Json.decoded, decodedList_iff, decodedList_iff]
    simp only [List.forall_mem_map]
    exact forall₂_congr fun x hx => by rw [ih x hx]
  | dict fs ih =>
    rw [Bool.eq_iff_iff, Json.norm, normFields_eq, Json.decoded, Json.decoded, decodedFields_iff, decodedFields_iff]
    simp only [Lex.mem_sortOn, List.forall_mem_map]
    exact forall₂_congr fun f hf => by rw [ih f hf]

mutual
/-- No dictionary has a key twice, as none in Python has. -/
def Json.distinct : Json → Bool
  | .list xs => distinctList xs
  | .dict fs => decide (fs.map Prod.fst).Nodup && distinctFields fs
  | _ => true
def distinctList : List Json → Bool
  | [] => true
  | x :: xs => x.distinct && distinctList xs
def distinctFields : List (Str × Json) → Bool
  | [] => true
  | (_, v) :: fs => v.distinct && distinctFields fs
end

theorem distinctList_iff : ∀ {xs}, distinctList xs = true ↔ ∀ x ∈ xs, x.distinct = true := by
  intro xs
  induction xs with
  | nil => simp [distinctList]
  | cons x xs ih => simp [distinctList, ih]

theorem distinctFields_iff : ∀ {fs}, distinctFields fs = true ↔ ∀ f ∈ fs, f.2.distinct = true := by
  intro fs
  induction fs with
  | nil => simp [distinctFields]
  | cons f fs ih =>
    obtain ⟨k, v⟩ := f
    simp [distinctFields, ih]

theorem distinct_dict {fs : Fields} : (Json.dict fs).distinct = true ↔
    (fs.map Prod.fst).Nodup ∧ ∀ f ∈ fs, f.2.distinct = true := by
  rw [Json.distinct, Bool.and_eq_true, decide_eq_true_eq, distinctFields_iff]

theorem put_distinct {d : Fields} {k : Str} {v : Json} (hd : (Json.dict d).distinct = true) (hv : v.distinct = true) :
    (Json.dict (Fields.put d k v)).distinct = true := by
  rw [distinct_dict] at hd ⊢
  obtain ⟨hkeys, hvalues⟩ := hd
  rw [Fields.put]
  split
  · have hsame : (d.map fun f => if f.1 = k then (k, v) else f).map Prod.fst = d.map Prod.fst := by
      rw [List.map_map]
      refine List.map_congr_left fun f _ => ?_
      rw [Function.comp_apply]
      split
      · rename_i hk
        exact hk.symm
      · rfl
    refine ⟨hsame ▸ hkeys, fun f hf => ?_⟩
    obtain ⟨g, hg, rfl⟩ := List.mem_map.mp hf
    split
    · exact hv
    · exact hvalues g hg
  · rename_i hnew
    rw [List.any_eq_true, not_exists] at hnew
    rw [List.map_append, List.map_singleton]
    refine ⟨List.nodup_append.mpr ⟨hkeys, List.nodup_singleton k, fun a ha b hb => ?_⟩, fun f hf => ?_⟩
    · obtain ⟨g, hg, rfl⟩ := List.mem_map.mp ha
      rw [List.mem_singleton.mp hb]
      exact fun hk => hnew g ⟨hg, decide_eq_true hk⟩
    · rcases List.mem_append.mp hf with hf | hf
      · exact hvalues f hf
      · rw [List.mem_singleton.mp hf]
        exact hv

theorem foldl_put_distinct : ∀ {fs d : Fields}, (∀ f ∈ fs, f.2.distinct = true) → (Json.dict d).distinct = true →
    (Json.dict (fs.foldl (fun d f => Fields.put d f.1 f.2) d)).distinct = true
  | [], _, _, hd => hd
  | f :: fs, d, hfs, hd => by
    rw [List.forall_mem_cons] at hfs
    rw [List.foldl_cons]
    exact foldl_put_distinct hfs.2 (put_distinct hd hfs.1)

/-- The last value of a key is the one that stays. -/
theorem parsed_distinct (v : Json) : v.parsed.distinct = true := by
  induction v using Json.induct with
  | null => rfl
  | bool b => rfl
  | int n => rfl
  | float x => rfl
  | str s => rfl
  | list xs ih =>
    rw [Json.parsed, parsedList_eq, Json.distinct, distinctList_iff]
    intro y hy
    obtain ⟨x, hx, rfl⟩ := List.mem_map.mp hy
    exact ih x hx
  | dict fs ih =>
    rw [Json.parsed, parsedFields_eq]
    refine foldl_put_distinct (fun g hg => ?_) rfl
    obtain ⟨f, hf, rfl⟩ := List.mem_map.mp hg
    exact ih f hf

theorem parsed_eq {v : Json} : v.decoded = true → v.distinct = true → v.parsed = v := by
  induction v using Json.induct with
  | null => exact fun _ _ => rfl
  | bool b => exact fun _ _ => rfl
  | int n => exact fun _ _ => rfl
  | float x => exact fun _ _ => rfl
  | str s =>
    intro h _
    rw [Json.parsed, parsedStr, joinUnits_units h]
  | list xs ih =>
    rw [Json.decoded, decodedList_iff, Json.distinct, distinctList_iff]
    intro h h'
    rw [Json.parsed, parsedList_eq, List.map_congr_left fun x hx => ih x hx (h x hx) (h' x hx), List.map_id']
  | dict fs ih =>
    rw [Json.decoded, decodedFields_iff, distinct_dict]
    intro h h'
    have hsame : parsedFields fs = fs := by
      rw [parsedFields_eq, List.map_congr_left fun f hf => by
        rw [ih f hf (h f hf).2 (h'.2 f hf), parsedStr, joinUnits_units (h f hf).1], List.map_id']
    rw [Json.parsed, hsame, foldl_put (by rw [List.nil_append]; exact h'.1)]
    rfl

theorem norm_distinct {v : Json} : v.distinct = true → v.norm.distinct = true := by
  induction v using Json.induct with
  | null => exact id
  | bool b => exact id
  | int n => exact id
  | float x => exact id
  | str s => exact id
  | list xs ih =>
    simp only [Json.norm, normList_eq, Json.distinct, distinctList_iff, List.forall_mem_map]
    exact fun h x hx => ih x hx (h x hx)
  | dict fs ih =>
    simp only [Json.norm, normFields_eq, distinct_dict, Lex.mem_sortOn, List.forall_mem_map]
    rintro ⟨hkeys, h⟩
    constructor
    · rw [((Lex.sortOn_perm _ _ _).map Prod.fst).nodup_iff, List.map_map]
      exact hkeys
    · exact fun f hf => ih f hf (h f hf)

theorem norm_finite {v : Json} : v.norm.finite = v.finite := by
  induction v using Json.induct with
  | null => rfl
  | bool b => rfl
  | int n => rfl
  | float x => rfl
  | str s => rfl
  | list xs ih =>
    rw [Bool.eq_iff_iff, Json.norm, normList_eq, Json.finite, Json.finite, finiteList_iff, finiteList_iff]
    simp only [List.forall_mem_map]
    exact forall₂_congr fun x hx => by rw [ih x hx]
  | dict fs ih =>
    rw [Bool.eq_iff_iff, Json.norm, normFields_eq, Json.finite, Json.finite, finiteFields_iff, finiteFields_iff]
    simp only [Lex.mem_sortOn, List.forall_mem_map]
    exact forall₂_congr fun f hf => by rw [ih f hf]

/-- Sorting a sorted value changes nothing. -/
theorem norm_norm (v : Json) : v.norm.norm = v.norm := by
  induction v using Json.induct with
  | null => rfl
  | bool b => rfl
  | int n => rfl
  | float x => rfl
  | str s => rfl
  | list xs ih =>
    rw [Json.norm, Json.norm, normList_eq, normList_eq, List.map_map]
    exact congrArg Json.list (List.map_congr_left ih)
  | dict fs ih =>
    have hfields : normFields (Lex.sortOn charKey Prod.fst (normFields fs)) =
        Lex.sortOn charKey Prod.fst (normFields fs) := by
      rw [normFields_eq]
      conv_rhs => rw [← List.map_id (Lex.sortOn charKey Prod.fst (normFields fs))]
      refine List.map_congr_left fun g hg => ?_
      obtain ⟨f, hf, rfl⟩ := List.mem_map.mp (normFields_eq fs ▸ Lex.mem_sortOn.mp hg)
      rw [ih f hf]
      rfl
    rw [Json.norm, Json.norm, hfields, Lex.sortOn_sortOn]

theorem jsonNumber_printable {b : Bytes} (h : JsonNumber (asciiText b)) : Printable b := by
  obtain ⟨sign, int, fraction, exponent, htext, hsign, hint, hfraction, hexponent⟩ := h.parts
  have hdigits : ∀ {ds : Str}, AllDigits ds → ∀ c ∈ ds, c.val < 127 := fun hds c hc => by
    have := isDigit_iff.mp (hds c hc)
    omega
  have hsmall : ∀ c ∈ asciiText b, c.val < 127 := by
    rw [htext]
    simp only [List.mem_append]
    rintro c (hc | hc | hc | hc)
    · rcases hsign with rfl | rfl
      · cases hc
      · exact List.mem_singleton.mp hc ▸ by decide
    · rcases hint with rfl | ⟨d, ds, -, -, hall⟩
      · exact List.mem_singleton.mp hc ▸ by decide
      · exact hdigits hall c hc
    · rcases hfraction with rfl | ⟨ds, -, hall, rfl⟩
      · cases hc
      · rcases List.mem_cons.mp hc with rfl | hc
        · decide
        · exact hdigits hall c hc
    · rcases hexponent with rfl | ⟨e, s, ds, he, hs, -, hall, rfl⟩
      · cases hc
      · rcases List.mem_cons.mp hc with rfl | hc
        · rcases he with rfl | rfl <;> decide
        · rcases List.mem_append.mp hc with hc | hc
          · rcases hs with rfl | rfl | rfl
            · cases hc
            · exact List.mem_singleton.mp hc ▸ by decide
            · exact List.mem_singleton.mp hc ▸ by decide
          · exact hdigits hall c hc
  intro x hx
  have hval : (Fin.ofNat 0x110000 x.toNat).val = x.toNat := Nat.mod_eq_of_lt (by have := x.toNat_lt; omega)
  have hlt := hsmall _ (List.mem_map_of_mem hx)
  rwa [hval] at hlt

section
variable {M : Runtime}

/-- What `json.loads` makes of the canonical JSON of a value with such floats. -/
theorem loads_floats {P : UInt64 → Prop} (hM : FloatsBack M P) {v : Json} {b : Bytes} (hv : v.Floats P)
    (h : canonicalJson M.toPrimitives v = .ok b) : (decodeUtf8 b >>= loads M.floatOf) = .ok v.norm.parsed := by
  have hnorm := norm_floats hv
  have hprintable : v.norm.Floats fun x => Printable (M.floatRepr x) :=
    floats_imp (fun x hx => jsonNumber_printable (hM.text x hx)) hnorm
  rw [dumps_eq h, decodeUtf8_ascii (text_printable hprintable).ascii, ok_bind, loads_escaped hM.reread hnorm]

/-- What `json.loads` makes of the canonical JSON of a value. -/
theorem loads_canonical (hM : FloatsRead M) {v : Json} {b : Bytes} (h : canonicalJson M.toPrimitives v = .ok b) :
    (decodeUtf8 b >>= loads M.floatOf) = .ok v.norm.parsed :=
  loads_floats hM.finite (floats_of_finite (fun _ hx => hx) ((dumps_ok_iff _ v).mp ⟨b, h⟩)) h

/-- It is the value, up to the order of its keys, exactly if no string has a pair to join. -/
theorem parsed_norm_iff {v : Json} (h : v.distinct = true) : v.norm.parsed.norm = v.norm ↔ v.decoded = true := by
  constructor
  · intro heq
    rw [← norm_decoded, ← heq, norm_decoded]
    exact parsed_decoded _
  · intro hdecoded
    rw [parsed_eq (by rw [norm_decoded]; exact hdecoded) (norm_distinct h), norm_norm]

end

/-! ## Dictionaries up to the order of their keys -/

/-- Canonical JSON does not see the order of the keys. -/
theorem canonicalJson_norm {E : Primitives} {v w : Json} {b : Bytes} (h : v.norm = w.norm) (hv : canonicalJson E v = .ok b) :
    canonicalJson E w = .ok b := by
  have hfinite : w.finite = true := by
    rw [← norm_finite, ← h, norm_finite]
    exact (dumps_ok_iff _ v).mp ⟨b, hv⟩
  obtain ⟨b', hb'⟩ := (dumps_ok_iff E.floatRepr w).mpr hfinite
  rw [canonicalJson, hb', dumps_eq hb', ← h, ← dumps_eq hv]

theorem lookup_normFields (k : Str) : ∀ fs : Fields, (normFields fs).lookup k = (fs.lookup k).map Json.norm
  | [] => rfl
  | (k', v) :: fs => by
    rw [normFields, List.lookup_cons, List.lookup_cons]
    cases k == k' with
    | true => rfl
    | false => exact lookup_normFields k fs

theorem normFields_keys (fs : Fields) : (normFields fs).map Prod.fst = fs.map Prod.fst := by
  rw [normFields_eq, List.map_map]
  rfl

/-- Dictionaries are the same if their keys have the same values. -/
theorem norm_dict_iff {d e : Fields} (hd : (d.map Prod.fst).Nodup) (he : (e.map Prod.fst).Nodup) :
    (Json.dict d).norm = (Json.dict e).norm ↔ ∀ k, (d.lookup k).map Json.norm = (e.lookup k).map Json.norm := by
  have hd' : ((normFields d).map Prod.fst).Nodup := by rwa [normFields_keys]
  have he' : ((normFields e).map Prod.fst).Nodup := by rwa [normFields_keys]
  have hmem : (∀ k, (d.lookup k).map Json.norm = (e.lookup k).map Json.norm) ↔
      ∀ f, f ∈ normFields d ↔ f ∈ normFields e := by
    constructor
    · rintro h ⟨k, v⟩
      rw [← lookup_iff_mem hd', ← lookup_iff_mem he', lookup_normFields, lookup_normFields, h]
    · intro h k
      rw [← lookup_normFields, ← lookup_normFields]
      refine Option.ext fun v => ?_
      rw [lookup_iff_mem hd', lookup_iff_mem he', h]
  rw [hmem, Json.norm, Json.norm, Json.dict.injEq]
  constructor
  · intro h f
    rw [← @Lex.mem_sortOn _ _ charKey Prod.fst (normFields d), h, Lex.mem_sortOn]
  · intro h
    have hperm : (normFields d).Perm (normFields e) :=
      (List.perm_ext_iff_of_nodup (List.Nodup.of_map _ hd') (List.Nodup.of_map _ he')).mpr h
    exact Lex.sortOn_eq_of_perm_on Fin.val_injective (fun a ha b hb hab => List.inj_on_of_nodup_map hd' ha hb hab) hperm

end ChainBreaker
