import ChainBreaker.CanonicalJson
import ChainBreaker.Text

/-!
# JSON text as stored in files

`json.dumps` with sorted keys and raw Unicode, and the scanner of `json.loads`.
Whatever was dumped is read to its end (`loads_dumpsText`), an array with as
many elements as it had.
-/

namespace ChainBreaker

open Fallible PrefixCode

/-- The primitives, and `float(s)` for the text of a JSON number. -/
structure Runtime extends Primitives where
  floatOf : Str → UInt64

/-! ## Writing -/

/-- The characters of an ASCII text. -/
def asciiText (b : Bytes) : Str := b.map fun x => Fin.ofNat _ x.toNat

/-- One character of a string with `ensure_ascii=False`. -/
def rawChar (c : CodePoint) : Str := if 127 ≤ c.val then [c] else asciiText (escapeChar c)

def rawStr (s : Str) : Str := 34 :: (s.flatMap rawChar ++ [34])

/-- With `allow_nan`. -/
def rawFloat (fl : UInt64 → Bytes) (bits : UInt64) : Str :=
  if floatFinite bits then asciiText (fl bits)
  else if bits.toNat % 2 ^ 52 ≠ 0 then str "NaN"
  else if bits.toNat < 2 ^ 63 then str "Infinity"
  else str "-Infinity"

mutual
/-- The text of a value whose keys are sorted. -/
def rawText (fl : UInt64 → Bytes) : Json → Str
  | .null => str "null"
  | .bool b => str (if b then "true" else "false")
  | .int n => asciiText (intRepr n)
  | .float bits => rawFloat fl bits
  | .str s => rawStr s
  | .list xs => 91 :: (rawItems fl xs ++ [93])
  | .dict fs => 123 :: (rawFields fl fs ++ [125])
def rawItems (fl : UInt64 → Bytes) : List Json → Str
  | [] => []
  | [x] => rawText fl x
  | x :: xs => rawText fl x ++ 44 :: rawItems fl xs
def rawFields (fl : UInt64 → Bytes) : List (Str × Json) → Str
  | [] => []
  | [(k, v)] => rawStr k ++ 58 :: rawText fl v
  | (k, v) :: fs => rawStr k ++ 58 :: (rawText fl v ++ 44 :: rawFields fl fs)
end

/-- `json.dumps(v, sort_keys=True, separators=(",", ":"), ensure_ascii=False)`. -/
def dumpsText (fl : UInt64 → Bytes) (v : Json) : Str := rawText fl v.norm

/-- The fields of a dictionary of plain values, one a line. -/
def indentedFields (fl : UInt64 → Bytes) : Fields → Bytes
  | [] => []
  | [(k, v)] => jsonStr k ++ 58 :: 32 :: text fl v
  | (k, v) :: fs => jsonStr k ++ 58 :: 32 :: (text fl v ++ 44 :: 10 :: 32 :: 32 :: indentedFields fl fs)

/-- `json.dumps(d, sort_keys=True, indent=2).encode()` of a dictionary of plain values. -/
def dumpsIndented (fl : UInt64 → Bytes) (d : Fields) : Bytes :=
  if d.isEmpty then [123, 125]
  else 123 :: 10 :: 32 :: 32 :: (indentedFields fl (Lex.sortOn charKey Prod.fst d) ++ [10, 125])

/-! ## Reading -/

def isJsonBlank (c : CodePoint) : Bool := c.val == 32 || c.val == 9 || c.val == 10 || c.val == 13

def skipBlanks (s : Str) : Str := s.dropWhile isJsonBlank

def readHex4 : Str → Option (Nat × Str)
  | a :: b :: c :: d :: r => do
    let a ← hexVal a
    let b ← hexVal b
    let c ← hexVal c
    let d ← hexVal d
    some (4096 * a + 256 * b + 16 * c + d, r)
  | _ => none

/-- After `\\u`: a high surrogate is joined to a low one that follows. -/
def readUnicode (s : Str) : Option (CodePoint × Str) := do
  let (u, r) ← readHex4 s
  match r with
  | b :: c :: r' =>
    if isHigh u ∧ b.val = 92 ∧ c.val = 117 then do
      let (u', r'') ← readHex4 r'
      if isLow u' then some (Fin.ofNat _ (0x10000 + 1024 * (u - 0xD800) + (u' - 0xDC00)), r'')
      else some (Fin.ofNat _ u, r)
    else some (Fin.ofNat _ u, r)
  | _ => some (Fin.ofNat _ u, r)

/-- After a backslash. -/
def readEscape : Str → Option (CodePoint × Str)
  | [] => none
  | e :: r =>
    if e.val = 34 ∨ e.val = 92 ∨ e.val = 47 then some (e, r)
    else if e.val = 98 then some (8, r)
    else if e.val = 102 then some (12, r)
    else if e.val = 110 then some (10, r)
    else if e.val = 114 then some (13, r)
    else if e.val = 116 then some (9, r)
    else if e.val = 117 then readUnicode r
    else none

/-- The rest of a string up to its closing quote, at most `n` characters. -/
def readChars : Nat → Str → Option (Str × Str)
  | 0, _ => none
  | _ + 1, [] => none
  | n + 1, c :: r =>
    if c.val = 34 then some ([], r)
    else if c.val = 92 then do
      let (c, r) ← readEscape r
      let (s, r) ← readChars n r
      some (c :: s, r)
    else if c.val < 32 then none
    else do
      let (s, r) ← readChars n r
      some (c :: s, r)

/-- `\\.[0-9]+`, if it is there. -/
def readFraction : Str → Str × Str
  | c :: d :: r => if c.val = 46 ∧ isDigit d then (c :: (d :: r).takeWhile isDigit, (d :: r).dropWhile isDigit) else ([], c :: d :: r)
  | r => ([], r)

/-- `[eE][-+]?[0-9]+`, if it is there. -/
def readExponent : Str → Str × Str
  | [] => ([], [])
  | c :: r =>
    if c.val = 69 ∨ c.val = 101 then
      let sign := r.takeWhile fun c => c.val == 43 || c.val == 45
      let digits := r.drop sign.length
      if sign.length ≤ 1 ∧ (digits.takeWhile isDigit) ≠ [] then
        (c :: (sign ++ digits.takeWhile isDigit), digits.dropWhile isDigit)
      else ([], c :: r)
    else ([], c :: r)

/-- `-?(0|[1-9][0-9]*)`. -/
def readInteger (s : Str) : Option (Str × Str) :=
  let sign := s.take (if (s.head?.any fun c => c.val == 45) then 1 else 0)
  match s.drop sign.length with
  | [] => none
  | c :: r =>
    if ¬ isDigit c then none
    else if c.val = 48 then some (sign ++ [c], r)
    else some (sign ++ (c :: r).takeWhile isDigit, (c :: r).dropWhile isDigit)

def signedNat (s : Str) : Int :=
  match s with
  | c :: r => if c.val = 45 then -(digitsNat r : Int) else digitsNat (c :: r)
  | [] => 0

section
variable (floatOf : Str → UInt64)

def readNumber (s : Str) : Option (Json × Str) := do
  let (int, r) ← readInteger s
  let (fraction, r) := readFraction r
  let (exponent, r) := readExponent r
  if fraction = [] ∧ exponent = [] then some (.int (signedNat int), r)
  else some (.float (floatOf (int ++ fraction ++ exponent)), r)

def readWord (word : Str) (v : Json) (s : Str) : Option (Json × Str) :=
  if word.isPrefixOf s then some (v, s.drop word.length) else none

def nanBits : UInt64 := 0x7FF8000000000000
def infBits : UInt64 := 0x7FF0000000000000
def negInfBits : UInt64 := 0xFFF0000000000000

/-- `d[k] = v`: a key that is there keeps its place. -/
def Fields.put (d : Fields) (k : Str) (v : Json) : Fields :=
  if d.any (·.1 = k) then d.map fun f => if f.1 = k then (k, v) else f else d ++ [(k, v)]

mutual
/-- `scan_once`, with at most `n` nested or consecutive steps. -/
def readValue : Nat → Str → Option (Json × Str)
  | 0, _ => none
  | _ + 1, [] => none
  | n + 1, c :: r =>
    if c.val = 34 then do
      let (s, r) ← readChars n r
      some (.str s, r)
    else if c.val = 123 then readObject n (skipBlanks r)
    else if c.val = 91 then readArray n (skipBlanks r)
    else if c.val = 110 then readWord (str "null") .null (c :: r)
    else if c.val = 116 then readWord (str "true") (.bool true) (c :: r)
    else if c.val = 102 then readWord (str "false") (.bool false) (c :: r)
    else if c.val = 78 then readWord (str "NaN") (.float nanBits) (c :: r)
    else if c.val = 73 then readWord (str "Infinity") (.float infBits) (c :: r)
    else
      match readNumber floatOf (c :: r) with
      | some x => some x
      | none => readWord (str "-Infinity") (.float negInfBits) (c :: r)
/-- After the opening bracket and its blanks. -/
def readArray : Nat → Str → Option (Json × Str)
  | 0, _ => none
  | _ + 1, [] => none
  | n + 1, c :: r =>
    if c.val = 93 then some (.list [], r)
    else do
      let (xs, r) ← readItems n (c :: r)
      some (.list xs, r)
def readItems : Nat → Str → Option (List Json × Str)
  | 0, _ => none
  | n + 1, s => do
    let (x, r) ← readValue n s
    match skipBlanks r with
    | c :: r =>
      if c.val = 93 then some ([x], r)
      else if c.val = 44 then do
        let (xs, r) ← readItems n (skipBlanks r)
        some (x :: xs, r)
      else none
    | [] => none
def readObject : Nat → Str → Option (Json × Str)
  | 0, _ => none
  | _ + 1, [] => none
  | n + 1, c :: r =>
    if c.val = 125 then some (.dict [], r)
    else do
      let (fs, r) ← readPairs n (c :: r)
      some (.dict (fs.foldl (fun d f => Fields.put d f.1 f.2) []), r)
def readPairs : Nat → Str → Option (Fields × Str)
  | 0, _ => none
  | _ + 1, [] => none
  | n + 1, c :: r =>
    if c.val ≠ 34 then none
    else do
      let (k, r) ← readChars n r
      match skipBlanks r with
      | c :: r =>
        if c.val ≠ 58 then none
        else do
          let (v, r) ← readValue n (skipBlanks r)
          match skipBlanks r with
          | c :: r =>
            if c.val = 125 then some ([(k, v)], r)
            else if c.val = 44 then do
              let (fs, r) ← readPairs n (skipBlanks r)
              some ((k, v) :: fs, r)
            else none
          | [] => none
      | [] => none
end

/-- `json.loads(s)`. -/
def loads (s : Str) : Except PyErr Json :=
  match readValue floatOf (3 * s.length) (skipBlanks s) with
  | some (v, r) => if skipBlanks r = [] then .ok v else raise .jsonDecodeError "Extra data" []
  | none => raise .jsonDecodeError "Expecting value" []

end

/-! ## What was dumped is read to its end -/

/-- What follows a value inside a dumped text. -/
def Follows (r : Str) : Prop := ∀ c, r.head? = some c → c.val = 44 ∨ c.val = 93 ∨ c.val = 125

theorem follows_nil : Follows [] := fun _ h => by cases h

theorem follows_cons {c : CodePoint} (hc : c.val = 44 ∨ c.val = 93 ∨ c.val = 125) (r : Str) : Follows (c :: r) := by
  intro d h
  cases h
  exact hc

theorem skipBlanks_of_not {c : CodePoint} (h : isJsonBlank c = false) (r : Str) : skipBlanks (c :: r) = c :: r := by
  rw [skipBlanks, List.dropWhile_cons, h]
  rfl

theorem ofNat_eq {c : CodePoint} {n : Nat} (h : c.val = n) : Fin.ofNat 0x110000 n = c := by
  subst h
  exact ofNat_val c

theorem hexVal_digit : ∀ n < 16, hexVal (Fin.ofNat _ (UInt8.ofNat (hexDigit n).val).toNat) = some n := by decide

theorem readHex4_escape {n : Nat} (hn : n < 0x10000) (r : Str) : readHex4 (asciiText (hex4 n) ++ r) = some (n, r) := by
  have hdigit : ∀ k, hexVal (Fin.ofNat _ (UInt8.ofNat (hexDigit (k % 16)).val).toNat) = some (k % 16) :=
    fun k => hexVal_digit _ (Nat.mod_lt _ (by decide))
  simp only [asciiText, hex4, List.map_cons, List.map_nil, List.cons_append, List.nil_append, readHex4, hdigit,
    Option.bind_eq_bind, Option.bind_some, Option.some.injEq, Prod.mk.injEq, and_true]
  omega

theorem readUnicode_low {n : Nat} (hn : n < 32) (r : Str) :
    readUnicode (asciiText (hex4 n) ++ r) = some (Fin.ofNat _ n, r) := by
  have hhigh : isHigh n = false := by
    simp only [isHigh, Bool.and_eq_false_iff, decide_eq_false_iff_not]
    omega
  rw [readUnicode, readHex4_escape (by omega)]
  simp only [Option.bind_eq_bind, Option.bind_some, hhigh]
  rcases r with _ | ⟨b, _ | ⟨c, r⟩⟩ <;> rfl

/-- A character of a dumped string is read back. -/
theorem readChars_char (c : CodePoint) (n : Nat) (r : Str) :
    readChars (n + 1) (rawChar c ++ r) = (readChars n r).map fun x => (c :: x.1, x.2) := by
  have hesc : ∀ {e : CodePoint} {d : CodePoint}, readEscape (e :: r) = some (d, r) → d = c →
      readChars (n + 1) (92 :: e :: r) = (readChars n r).map fun x => (c :: x.1, x.2) := by
    intro e d he hd
    subst hd
    rw [readChars, if_neg (by decide), if_pos (by decide), he]
    cases hn : readChars n r <;> simp [hn]
  have hplain : ¬ c.val = 34 → ¬ c.val = 92 → ¬ c.val < 32 →
      readChars (n + 1) (c :: r) = (readChars n r).map fun x => (c :: x.1, x.2) := by
    intro h₁ h₂ h₃
    rw [readChars, if_neg h₁, if_neg h₂, if_neg h₃]
    cases readChars n r <;> rfl
  unfold rawChar
  split
  · rename_i h
    exact hplain (by omega) (by omega) (by omega)
  · rename_i h
    unfold escapeChar
    simp only
    split_ifs with h₁ h₂ h₃ h₄ h₅ h₆ h₇ h₈ h₉
    · exact hesc (e := 34) (d := 34) rfl (Fin.ext h₁.symm)
    · exact hesc (e := 92) (d := 92) rfl (Fin.ext h₂.symm)
    · exact hesc (e := 110) (d := 10) rfl (Fin.ext h₃.symm)
    · exact hesc (e := 114) (d := 13) rfl (Fin.ext h₄.symm)
    · exact hesc (e := 116) (d := 9) rfl (Fin.ext h₅.symm)
    · exact hesc (e := 102) (d := 12) rfl (Fin.ext h₆.symm)
    · exact hesc (e := 98) (d := 8) rfl (Fin.ext h₇.symm)
    · have hval : Fin.ofNat 0x110000 (UInt8.ofNat c.val).toNat = c := by
        rw [UInt8.toNat_ofNat']
        exact ofNat_eq (by omega)
      rw [asciiText, List.map_cons, List.map_nil, hval]
      exact hplain h₁ h₂ (by omega)
    · have hlow : c.val < 32 := by omega
      have hread : readEscape (117 :: (asciiText (hex4 c.val) ++ r)) = some (c, r) := by
        rw [readEscape, if_neg (by decide), if_neg (by decide), if_neg (by decide), if_neg (by decide),
          if_neg (by decide), if_neg (by decide), if_pos (by decide), readUnicode_low hlow, ofNat_val]
      change readChars (n + 1) (92 :: 117 :: (asciiText (hex4 c.val) ++ r)) = _
      rw [readChars, if_neg (by decide), if_pos (by decide), hread]
      cases hn : readChars n r <;> simp [hn]
    · omega

theorem readChars_str : ∀ (s : Str) {n : Nat} (r : Str), s.length < n →
    readChars n (s.flatMap rawChar ++ 34 :: r) = some (s, r)
  | [], n, r, h => by
    obtain ⟨n, rfl⟩ : ∃ m, n = m + 1 := ⟨n - 1, by omega⟩
    rfl
  | c :: s, n, r, h => by
    obtain ⟨n, rfl⟩ : ∃ m, n = m + 1 := ⟨n - 1, by omega⟩
    rw [List.flatMap_cons, List.append_assoc, readChars_char, readChars_str s r (by simpa using h)]
    rfl

theorem rawChar_ne_nil (c : CodePoint) : rawChar c ≠ [] := by
  have hesc : escapeChar c ≠ [] := by
    unfold escapeChar unicodeEscape
    simp only
    split_ifs <;> simp
  unfold rawChar
  split
  · simp
  · simpa [asciiText] using hesc

theorem length_le_rawStr (s : Str) : s.length + 2 ≤ (rawStr s).length := by
  have hchars : s.length ≤ (s.flatMap rawChar).length := by
    induction s with
    | nil => exact Nat.zero_le _
    | cons c s ih =>
      have hpos := List.length_pos_iff.mpr (rawChar_ne_nil c)
      rw [List.flatMap_cons, List.length_append, List.length_cons]
      omega
  simp only [rawStr, List.length_cons, List.length_append, List.length_nil]
  omega

/-! ### Numbers -/

theorem natText_lead (n : Nat) : natText n = [48] ∨ ∃ d ds, natText n = d :: ds ∧ d.val ≠ 48 := by
  induction n using Nat.strong_induction_on with
  | _ n ih =>
    by_cases hn : n < 10
    · have hsmall : ∀ k < 10, natText k = [48] ∨ ∃ d ds, natText k = d :: ds ∧ d.val ≠ 48 := by
        intro k hk
        rw [natText, Nat.toDigits_of_lt_base hk]
        rcases Nat.eq_zero_or_pos k with rfl | hpos
        · exact .inl rfl
        · have hlead : ∀ k < 10, 0 < k → (Fin.ofNat 0x110000 k.digitChar.toNat).val ≠ 48 := by decide
          exact .inr ⟨_, _, rfl, hlead k hk hpos⟩
      exact hsmall n hn
    · have hsplit : natText n = natText (n / 10) ++ [Fin.ofNat _ (n % 10).digitChar.toNat] := by
        rw [natText, Nat.toDigits_of_base_le (by decide) (by omega), List.map_append]
        rfl
      rcases ih (n / 10) (by omega) with h | ⟨d, ds, h, hd⟩
      · have hzero := natText_value (n / 10)
        rw [h] at hzero
        have : digitsNat [48] = 0 := rfl
        omega
      · exact .inr ⟨d, ds ++ _, by rw [hsplit, h, List.cons_append], hd⟩

def AllDigits (s : Str) : Prop := ∀ c ∈ s, isDigit c = true

/-- A JSON number: a sign, an integer without leading zeros, a fraction and an
exponent, of which all but the integer may be missing. -/
structure JsonNumber (t : Str) : Prop where
  parts : ∃ sign int fraction exponent : Str, t = sign ++ (int ++ (fraction ++ exponent)) ∧
    (sign = [] ∨ sign = [45]) ∧ (int = [48] ∨ ∃ d ds, int = d :: ds ∧ d.val ≠ 48 ∧ AllDigits int) ∧
    (fraction = [] ∨ ∃ ds, ds ≠ [] ∧ AllDigits ds ∧ fraction = 46 :: ds) ∧
    (exponent = [] ∨ ∃ e sign ds, (e = 69 ∨ e = 101) ∧ (sign = [] ∨ sign = [43] ∨ sign = [45]) ∧ ds ≠ [] ∧
      AllDigits ds ∧ exponent = e :: (sign ++ ds))

theorem digits_split {ds r : Str} (hd : AllDigits ds) (hr : Stops isDigit r) :
    (ds ++ r).takeWhile isDigit = ds ∧ (ds ++ r).dropWhile isDigit = r := by
  have htake := takeWhile_word hd hr
  refine ⟨htake, ?_⟩
  have hall := @List.takeWhile_append_dropWhile _ isDigit (ds ++ r)
  rw [htake] at hall
  exact List.append_cancel_left hall

theorem readExponent_exponent {exponent r : Str} (hr : Follows r)
    (h : exponent = [] ∨ ∃ e sign ds, (e = 69 ∨ e = 101) ∧ (sign = [] ∨ sign = [43] ∨ sign = [45]) ∧ ds ≠ [] ∧
      AllDigits ds ∧ exponent = e :: (sign ++ ds)) : readExponent (exponent ++ r) = (exponent, r) := by
  rcases h with rfl | ⟨e, sign, ds, he, hsign, hne, hds, rfl⟩
  · cases r with
    | nil => rfl
    | cons c r =>
      have hc := hr c rfl
      rw [List.nil_append, readExponent, if_neg (by omega)]
  · have hstop : Stops isDigit r := by
      intro c hc
      have := hr c hc
      simp only [isDigit, Bool.and_eq_false_iff, decide_eq_false_iff_not]
      omega
    have heval : e.val = 69 ∨ e.val = 101 := by rcases he with rfl | rfl <;> simp
    have hsignStop : Stops (fun c : CodePoint => c.val == 43 || c.val == 45) (ds ++ r) := by
      obtain ⟨d, ds, rfl⟩ := List.exists_cons_of_ne_nil hne
      intro c hc
      cases hc
      have := isDigit_iff.mp (hds d (.head _))
      simp only [Bool.or_eq_false_iff, beq_eq_false_iff_ne]
      omega
    have hsignTake : (sign ++ (ds ++ r)).takeWhile (fun c : CodePoint => c.val == 43 || c.val == 45) = sign := by
      apply takeWhile_word _ hsignStop
      rcases hsign with rfl | rfl | rfl <;> simp
    have hsignLen : sign.length ≤ 1 := by rcases hsign with rfl | rfl | rfl <;> simp
    obtain ⟨htake, hdrop⟩ := digits_split hds hstop
    rw [List.cons_append, List.append_assoc, readExponent, if_pos heval]
    simp only [hsignTake, List.drop_left, htake, hdrop]
    rw [if_pos ⟨hsignLen, hne⟩]

theorem readFraction_fraction {fraction r : Str} (hr : Stops (fun c => isDigit c || c.val == 46) r)
    (h : fraction = [] ∨ ∃ ds, ds ≠ [] ∧ AllDigits ds ∧ fraction = 46 :: ds) :
    readFraction (fraction ++ r) = (fraction, r) := by
  rcases h with rfl | ⟨ds, hne, hds, rfl⟩
  · rcases r with _ | ⟨c, _ | ⟨d, r⟩⟩
    · rfl
    · rfl
    · have hc := hr c rfl
      simp only [Bool.or_eq_false_iff, beq_eq_false_iff_ne] at hc
      rw [List.nil_append, readFraction, if_neg (fun h => hc.2 h.1)]
  · obtain ⟨d, ds, rfl⟩ := List.exists_cons_of_ne_nil hne
    have hstop : Stops isDigit r := fun c hc => by
      have := hr c hc
      rw [Bool.or_eq_false_iff] at this
      exact this.1
    obtain ⟨htake, hdrop⟩ := digits_split hds hstop
    rw [List.cons_append] at htake hdrop
    rw [List.cons_append, List.cons_append, readFraction, if_pos ⟨rfl, hds d (.head _)⟩, htake, hdrop]

theorem readInteger_integer {sign int r : Str} (hr : Stops isDigit r) (hsign : sign = [] ∨ sign = [45])
    (hint : int = [48] ∨ ∃ d ds, int = d :: ds ∧ d.val ≠ 48 ∧ AllDigits int) :
    readInteger (sign ++ (int ++ r)) = some (sign ++ int, r) := by
  obtain ⟨c, t, hc, hdigit⟩ : ∃ c t, int = c :: t ∧ isDigit c = true := by
    rcases hint with rfl | ⟨d, ds, rfl, -, hall⟩
    · exact ⟨_, _, rfl, rfl⟩
    · exact ⟨_, _, rfl, hall d (.head _)⟩
  have hrange := isDigit_iff.mp hdigit
  have hsignTake : (sign ++ (int ++ r)).take (if ((sign ++ (int ++ r)).head?.any fun c => c.val == 45) then 1 else 0) = sign := by
    rcases hsign with rfl | rfl
    · have : ((int ++ r).head?.any fun c => c.val == 45) = false := by
        rw [hc]
        simp only [List.cons_append, List.head?_cons, Option.any_some, beq_eq_false_iff_ne]
        omega
      rw [List.nil_append, this]
      rfl
    · rfl
  rw [readInteger]
  simp only [hsignTake, List.drop_left]
  rw [hc, List.cons_append]
  simp only [hdigit, not_true, if_false]
  rcases hint with rfl | ⟨d, ds, rfl, hd, hall⟩
  · cases hc
    rfl
  · cases hc
    obtain ⟨htake, hdrop⟩ := digits_split hall hr
    rw [List.cons_append] at htake hdrop
    rw [if_neg hd, htake, hdrop]

section
variable {floatOf : Str → UInt64}

theorem readNumber_number {t : Str} (ht : JsonNumber t) :
    ∃ w, ∀ r, Follows r → readNumber floatOf (t ++ r) = some (w, r) := by
  obtain ⟨sign, int, fraction, exponent, rfl, hsign, hint, hfraction, hexponent⟩ := ht.parts
  refine ⟨if fraction = [] ∧ exponent = [] then .int (signedNat (sign ++ int))
    else .float (floatOf (sign ++ int ++ fraction ++ exponent)), fun r hr => ?_⟩
  have hstopExp : Stops (fun c => isDigit c || c.val == 46) (exponent ++ r) := by
    intro c hc
    have hval : c.val = 44 ∨ c.val = 93 ∨ c.val = 125 ∨ c.val = 69 ∨ c.val = 101 := by
      rcases hexponent with rfl | ⟨e, s, ds, he, -, -, -, rfl⟩
      · have := hr c hc
        omega
      · cases hc
        rcases he with rfl | rfl <;> simp
    simp only [isDigit, Bool.or_eq_false_iff, Bool.and_eq_false_iff, decide_eq_false_iff_not, beq_eq_false_iff_ne]
    omega
  have hstopFrac : Stops isDigit (fraction ++ (exponent ++ r)) := by
    intro c hc
    rcases hfraction with rfl | ⟨ds, -, -, rfl⟩
    · have := hstopExp c hc
      rw [Bool.or_eq_false_iff] at this
      exact this.1
    · cases hc
      rfl
  have htext : sign ++ (int ++ (fraction ++ exponent)) ++ r = sign ++ (int ++ (fraction ++ (exponent ++ r))) := by
    simp only [List.append_assoc]
  rw [htext, readNumber, readInteger_integer hstopFrac hsign hint]
  simp only [Option.bind_eq_bind, Option.bind_some, readFraction_fraction hstopExp hfraction,
    readExponent_exponent hr hexponent]
  split
  · rfl
  · rfl

theorem asciiText_natRepr (n : Nat) : asciiText (natRepr n) = natText n := by
  rw [asciiText, natRepr, natText, List.map_map]
  apply List.map_congr_left
  intro c hc
  have hchar := Nat.isDigit_of_mem_toDigits (by decide) (by decide) hc
  simp only [Char.isDigit, Bool.and_eq_true, decide_eq_true_eq] at hchar
  have hhi : c.toNat ≤ 57 := hchar.2
  simp only [Function.comp_apply, UInt8.toNat_ofNat']
  rw [Nat.mod_eq_of_lt (by omega)]

theorem intRepr_jsonNumber (n : Int) : JsonNumber (asciiText (intRepr n)) := by
  have hlead : ∀ k, natText k = [48] ∨ ∃ d ds, natText k = d :: ds ∧ d.val ≠ 48 ∧ AllDigits (natText k) := fun k =>
    (natText_lead k).imp id fun ⟨d, ds, h, hd⟩ => ⟨d, ds, h, hd, fun c hc => natText_digit hc⟩
  unfold intRepr
  split
  · refine ⟨[45], natText n.natAbs, [], [], ?_, .inr rfl, hlead _, .inl rfl, .inl rfl⟩
    rw [← asciiText_natRepr]
    simp only [asciiText, List.map_cons, List.append_nil, List.singleton_append]
    rfl
  · refine ⟨[], natText n.natAbs, [], [], ?_, .inl rfl, hlead _, .inl rfl, .inl rfl⟩
    rw [← asciiText_natRepr]
    simp

theorem signedNat_intRepr (n : Int) : signedNat (asciiText (intRepr n)) = n := by
  unfold intRepr
  split
  · rename_i h
    have htext : asciiText (45 :: natRepr n.natAbs) = 45 :: natText n.natAbs := by
      rw [← asciiText_natRepr]
      rfl
    rw [htext, signedNat, if_pos (by decide), natText_value]
    omega
  · rename_i h
    rw [asciiText_natRepr]
    obtain ⟨c, t, hct⟩ := List.exists_cons_of_ne_nil (natText_ne_nil n.natAbs)
    have hc := isDigit_iff.mp (natText_digit (n := n.natAbs) (hct ▸ List.mem_cons_self))
    rw [hct, signedNat, if_neg (by omega), ← hct, natText_value]
    omega

/-- An integer is read up to what cannot go on with it. -/
theorem readNumber_stops (n : Int) {r : Str} (hstop : Stops (fun c => isDigit c || c.val == 46) r)
    (hexponent : readExponent r = ([], r)) : readNumber floatOf (asciiText (intRepr n) ++ r) = some (.int n, r) := by
  have hlead : ∀ k, natText k = [48] ∨ ∃ d ds, natText k = d :: ds ∧ d.val ≠ 48 ∧ AllDigits (natText k) := fun k =>
    (natText_lead k).imp id fun ⟨d, ds, h, hd⟩ => ⟨d, ds, h, hd, fun c hc => natText_digit hc⟩
  obtain ⟨sign, hsign, hrepr⟩ : ∃ sign, (sign = [] ∨ sign = [45]) ∧ asciiText (intRepr n) = sign ++ natText n.natAbs := by
    unfold intRepr
    split
    · exact ⟨[45], .inr rfl, by rw [← asciiText_natRepr]; rfl⟩
    · exact ⟨[], .inl rfl, by rw [asciiText_natRepr]; rfl⟩
  have hdigit : Stops isDigit r := fun c hc => ((Bool.or_eq_false_iff.mp (hstop c hc)).1)
  have hfraction := readFraction_fraction hstop (.inl rfl)
  rw [List.nil_append] at hfraction
  rw [readNumber, hrepr, List.append_assoc, readInteger_integer hdigit hsign (hlead _)]
  simp only [Option.bind_eq_bind, Option.bind_some, hfraction, hexponent, and_self, if_true]
  rw [← hrepr, signedNat_intRepr]

/-- An integer is read back. -/
theorem readNumber_intRepr (n : Int) {r : Str} (hr : Follows r) :
    readNumber floatOf (asciiText (intRepr n) ++ r) = some (.int n, r) := by
  have hstop : Stops (fun c => isDigit c || c.val == 46) r := by
    intro c hc
    have := hr c hc
    simp only [isDigit, Bool.or_eq_false_iff, Bool.and_eq_false_iff, decide_eq_false_iff_not, beq_eq_false_iff_ne]
    omega
  have hexponent := readExponent_exponent hr (.inl rfl)
  rw [List.nil_append] at hexponent
  exact readNumber_stops n hstop hexponent

/-! ### Values -/

/-- What `float.__repr__` gives for finite floats is a JSON number. -/
def FloatText (fl : UInt64 → Bytes) : Prop := ∀ x, floatFinite x = true → JsonNumber (asciiText (fl x))

theorem jsonNumber_lead {t : Str} (h : JsonNumber t) : ∃ c r, t = c :: r ∧ (c.val = 45 ∨ isDigit c = true) := by
  obtain ⟨sign, int, fraction, exponent, rfl, hsign, hint, -⟩ := h.parts
  rcases hsign with rfl | rfl
  · rcases hint with rfl | ⟨d, ds, rfl, -, hall⟩
    · exact ⟨_, _, rfl, .inr rfl⟩
    · exact ⟨_, _, rfl, .inr (hall d (.head _))⟩
  · exact ⟨_, _, rfl, .inl rfl⟩

/-- A number is read from its first character on. -/
theorem readValue_numeral {t : Str} (ht : JsonNumber t) {n : Nat} (hn : 0 < n) (r : Str) {w : Json}
    (hw : readNumber floatOf (t ++ r) = some (w, r)) : readValue floatOf n (t ++ r) = some (w, r) := by
  obtain ⟨n, rfl⟩ : ∃ m, n = m + 1 := ⟨n - 1, by omega⟩
  obtain ⟨c, u, rfl, hc⟩ := jsonNumber_lead ht
  have hrange : c.val = 45 ∨ 48 ≤ c.val ∧ c.val ≤ 57 := hc.imp id isDigit_iff.mp
  rw [List.cons_append] at hw ⊢
  rw [readValue, if_neg (by omega), if_neg (by omega), if_neg (by omega), if_neg (by omega), if_neg (by omega),
    if_neg (by omega), if_neg (by omega), if_neg (by omega), hw]

theorem readWord_word (word : Str) (v : Json) (r : Str) : readWord word v (word ++ r) = some (v, r) := by
  rw [readWord, if_pos (List.isPrefixOf_iff_prefix.mpr (List.prefix_append _ _)), List.drop_left]

/-- Reading the text of `v` with enough fuel ends where the text does. -/
def ReadsOn (floatOf : Str → UInt64) (t : Str) : Prop :=
  ∀ n r, 3 * t.length ≤ n → Follows r → ∃ w, readValue floatOf n (t ++ r) = some (w, r)

/-- What is read, whatever follows. -/
def ReadsAs (floatOf : Str → UInt64) (t : Str) (w : Json) : Prop :=
  ∀ n r, 3 * t.length ≤ n → Follows r → readValue floatOf n (t ++ r) = some (w, r)

theorem jsonNumber_pos {t : Str} (ht : JsonNumber t) : 0 < t.length := by
  obtain ⟨c, u, rfl, -⟩ := jsonNumber_lead ht
  exact Nat.zero_lt_succ _

theorem number_reads {t : Str} (ht : JsonNumber t) : ∃ w, ReadsAs floatOf t w := by
  obtain ⟨w, hw⟩ := @readNumber_number floatOf t ht
  have hpos := jsonNumber_pos ht
  exact ⟨w, fun n r hn hr => readValue_numeral ht (by omega) r (hw r hr)⟩

theorem word_reads {word : Str} {w : Json} (h : ∀ n r, readValue floatOf (n + 1) (word ++ r) = some (w, r))
    (hpos : 0 < word.length) : ReadsAs floatOf word w := by
  intro n r hn _
  obtain ⟨n, rfl⟩ : ∃ m, n = m + 1 := ⟨n - 1, by omega⟩
  exact h n r

theorem rawFloat_reads {fl : UInt64 → Bytes} (hfl : FloatText fl) (x : UInt64) :
    ∃ w, ReadsAs floatOf (rawFloat fl x) w := by
  unfold rawFloat
  split_ifs with hfin
  · exact number_reads (hfl x hfin)
  · exact ⟨_, word_reads (fun _ r => readWord_word (str "NaN") (.float nanBits) r) (by decide)⟩
  · exact ⟨_, word_reads (fun _ r => readWord_word (str "Infinity") (.float infBits) r) (by decide)⟩
  · exact ⟨_, word_reads (fun _ r => readWord_word (str "-Infinity") (.float negInfBits) r) (by decide)⟩

/-- The text does not start with a blank or a closing bracket. -/
def Leads (t : Str) : Prop := ∃ c u, t = c :: u ∧ isJsonBlank c = false ∧ c.val ≠ 93

theorem leads_number {t : Str} (h : JsonNumber t) : Leads t := by
  obtain ⟨c, u, rfl, hc⟩ := jsonNumber_lead h
  have hrange : c.val = 45 ∨ 48 ≤ c.val ∧ c.val ≤ 57 := hc.imp id isDigit_iff.mp
  refine ⟨c, u, rfl, ?_, by omega⟩
  simp only [isJsonBlank, Bool.or_eq_false_iff, beq_eq_false_iff_ne]
  omega

theorem rawText_leads {fl : UInt64 → Bytes} (hfl : FloatText fl) (v : Json) : Leads (rawText fl v) := by
  cases v with
  | null => exact ⟨_, _, rfl, by decide, by decide⟩
  | bool b => cases b <;> exact ⟨_, _, rfl, by decide, by decide⟩
  | int n => exact leads_number (intRepr_jsonNumber n)
  | float x =>
    rw [rawText, rawFloat]
    split
    · rename_i hfin
      exact leads_number (hfl x hfin)
    · split_ifs <;> exact ⟨_, _, rfl, by decide, by decide⟩
  | str s => exact ⟨_, _, rfl, by decide, by decide⟩
  | list xs => exact ⟨_, _, rfl, by decide, by decide⟩
  | dict fs => exact ⟨_, _, rfl, by decide, by decide⟩

theorem skipBlanks_leads {t : Str} (h : Leads t) (r : Str) : skipBlanks (t ++ r) = t ++ r := by
  obtain ⟨c, u, rfl, hc, -⟩ := h
  exact skipBlanks_of_not hc _

theorem skipBlanks_follows {r : Str} (h : Follows r) : skipBlanks r = r := by
  cases r with
  | nil => rfl
  | cons c r =>
    apply skipBlanks_of_not
    have := h c rfl
    simp only [isJsonBlank, Bool.or_eq_false_iff, beq_eq_false_iff_ne]
    omega

variable {fl : UInt64 → Bytes}

theorem rawItems_cons (x : Json) {xs : List Json} (h : xs ≠ []) :
    rawItems fl (x :: xs) = rawText fl x ++ 44 :: rawItems fl xs := by
  cases xs with
  | nil => exact absurd rfl h
  | cons y ys => rfl

theorem Leads.append {t : Str} (h : Leads t) (r : Str) : Leads (t ++ r) := by
  obtain ⟨c, u, rfl, hc⟩ := h
  exact ⟨c, u ++ r, rfl, hc⟩

theorem rawItems_leads (hfl : FloatText fl) {xs : List Json} (h : xs ≠ []) : Leads (rawItems fl xs) := by
  cases xs with
  | nil => exact absurd rfl h
  | cons x xs =>
    by_cases hxs : xs = []
    · subst hxs
      exact rawText_leads hfl x
    · rw [rawItems_cons x hxs]
      exact (rawText_leads hfl x).append _

theorem rawFields_leads {fs : Fields} (h : fs ≠ []) : ∃ u, rawFields fl fs = 34 :: u := by
  rcases fs with _ | ⟨⟨k, v⟩, _ | ⟨f, fs⟩⟩
  · exact absurd rfl h
  · exact ⟨_, rfl⟩
  · exact ⟨_, rfl⟩

theorem rawItems_read (hfl : FloatText fl) : ∀ {xs ws : List Json} {n : Nat} {r : Str}, xs ≠ [] →
    List.Forall₂ (fun x w => ReadsAs floatOf (rawText fl x) w) xs ws → 3 * (rawItems fl xs).length + 1 ≤ n →
    readItems floatOf n (rawItems fl xs ++ 93 :: r) = some (ws, r)
  | [x], [w], n, r, _, .cons hw .nil, hn => by
    obtain ⟨n, rfl⟩ : ∃ m, n = m + 1 := ⟨n - 1, by omega⟩
    rw [rawItems, readItems, hw n (93 :: r) (by simpa [rawItems] using hn) (follows_cons (by decide) _)]
    rfl
  | x :: y :: xs, w :: ws, n, r, _, .cons hw hws, hn => by
    obtain ⟨n, rfl⟩ : ∃ m, n = m + 1 := ⟨n - 1, by omega⟩
    rw [rawItems_cons x (by simp), List.length_append, List.length_cons] at hn
    have hrest := rawItems_read hfl (n := n) (r := r) (by simp) hws (by omega : 3 * (rawItems fl (y :: xs)).length + 1 ≤ n)
    rw [rawItems_cons x (by simp), List.append_assoc, List.cons_append, readItems,
      hw n (44 :: (rawItems fl (y :: xs) ++ 93 :: r)) (by omega) (follows_cons (by decide) _)]
    simp only [Option.bind_eq_bind, Option.bind_some]
    rw [skipBlanks_of_not (by decide)]
    simp only
    rw [if_neg (by decide), if_pos (by decide), skipBlanks_leads (rawItems_leads hfl (by simp)), hrest]
    rfl

theorem rawFields_cons (k : Str) (v : Json) {fs : Fields} (h : fs ≠ []) :
    rawFields fl ((k, v) :: fs) = rawStr k ++ 58 :: (rawText fl v ++ 44 :: rawFields fl fs) := by
  cases fs with
  | nil => exact absurd rfl h
  | cons f fs => rfl

/-- A field of an object, up to what follows its value. -/
theorem rawField_read {k : Str} {v w : Json} {n : Nat} {r : Str} (hfl : FloatText fl) (h : ReadsAs floatOf (rawText fl v) w)
    (hk : k.length < n) (hv : 3 * (rawText fl v).length ≤ n) (hr : Follows r) :
    readPairs floatOf (n + 1) (rawStr k ++ 58 :: (rawText fl v ++ r)) =
      match skipBlanks r with
      | c :: r =>
        if c.val = 125 then some ([(k, w)], r)
        else if c.val = 44 then do
          let (fs, r) ← readPairs floatOf n (skipBlanks r)
          some ((k, w) :: fs, r)
        else none
      | [] => none := by
  rw [rawStr, List.cons_append, List.append_assoc, List.singleton_append, readPairs, if_neg (by decide),
    readChars_str k _ hk]
  simp only [Option.bind_eq_bind, Option.bind_some]
  rw [skipBlanks_of_not (by decide)]
  simp only
  rw [if_neg (by decide), skipBlanks_leads (rawText_leads hfl v), h n r hv hr]
  rfl

theorem rawFields_read (hfl : FloatText fl) : ∀ {fs ws : Fields} {n : Nat} {r : Str}, fs ≠ [] →
    List.Forall₂ (fun f w => f.1 = w.1 ∧ ReadsAs floatOf (rawText fl f.2) w.2) fs ws →
    3 * (rawFields fl fs).length + 1 ≤ n → readPairs floatOf n (rawFields fl fs ++ 125 :: r) = some (ws, r)
  | [(k, v)], [(_, w)], n, r, _, .cons ⟨rfl, hw⟩ .nil, hn => by
    obtain ⟨n, rfl⟩ : ∃ m, n = m + 1 := ⟨n - 1, by omega⟩
    have hklen := length_le_rawStr k
    change ReadsAs floatOf (rawText fl v) w at hw
    simp only [rawFields, List.length_append, List.length_cons] at hn
    rw [rawFields, List.append_assoc, List.cons_append,
      rawField_read hfl hw (by omega) (by omega) (follows_cons (by decide) _), skipBlanks_of_not (by decide)]
    rfl
  | (k, v) :: f :: fs, (_, w) :: ws, n, r, _, .cons ⟨rfl, hw⟩ hws, hn => by
    obtain ⟨n, rfl⟩ : ∃ m, n = m + 1 := ⟨n - 1, by omega⟩
    have hklen := length_le_rawStr k
    change ReadsAs floatOf (rawText fl v) w at hw
    rw [rawFields_cons k v (by simp)] at hn ⊢
    simp only [List.length_append, List.length_cons] at hn
    have hrest := rawFields_read hfl (n := n) (r := r) (by simp) hws
      (by omega : 3 * (rawFields fl (f :: fs)).length + 1 ≤ n)
    have hblank : skipBlanks (rawFields fl (f :: fs) ++ 125 :: r) = rawFields fl (f :: fs) ++ 125 :: r := by
      obtain ⟨u, hu⟩ := @rawFields_leads fl (f :: fs) (by simp)
      rw [hu]
      exact skipBlanks_of_not (by decide) _
    simp only [List.append_assoc, List.cons_append]
    rw [rawField_read hfl hw (by omega) (by omega) (follows_cons (by decide) _), skipBlanks_of_not (by decide)]
    simp only
    rw [if_neg (by decide), if_pos (by decide), hblank, hrest]
    rfl

/-! ### What a text is read back as -/

section
variable (floatOf) (fl)

mutual
/-- The value that is read from the text of a value. -/
def Json.reread : Json → Json
  | .float x => ((readValue floatOf (3 * (rawFloat fl x).length) (rawFloat fl x)).map Prod.fst).getD .null
  | .list xs => .list (rereadList xs)
  | .dict fs => .dict ((rereadFields fs).foldl (fun d f => Fields.put d f.1 f.2) [])
  | v => v
def rereadList : List Json → List Json
  | [] => []
  | x :: xs => x.reread :: rereadList xs
def rereadFields : List (Str × Json) → List (Str × Json)
  | [] => []
  | (k, v) :: fs => (k, v.reread) :: rereadFields fs
end

end

theorem rereadList_eq : ∀ xs, rereadList floatOf fl xs = xs.map (Json.reread floatOf fl) := by
  intro xs
  induction xs with
  | nil => rfl
  | cons x xs ih => rw [rereadList, ih, List.map_cons]

theorem rereadFields_eq : ∀ fs, rereadFields floatOf fl fs = fs.map fun f => (f.1, f.2.reread floatOf fl) := by
  intro fs
  induction fs with
  | nil => rfl
  | cons f fs ih =>
    obtain ⟨k, v⟩ := f
    rw [rereadFields, ih, List.map_cons]

theorem rawText_back (hfl : FloatText fl) (v : Json) : ReadsAs floatOf (rawText fl v) (v.reread floatOf fl) := by
  induction v using Json.induct with
  | null => exact word_reads (fun _ r => readWord_word (str "null") .null r) (Nat.zero_lt_succ 3)
  | bool b =>
    cases b
    · exact word_reads (fun _ r => readWord_word (str "false") (.bool false) r) (Nat.zero_lt_succ 4)
    · exact word_reads (fun _ r => readWord_word (str "true") (.bool true) r) (Nat.zero_lt_succ 3)
  | int k =>
    intro n r hn hr
    have hpos := jsonNumber_pos (intRepr_jsonNumber k)
    rw [rawText] at hn
    exact readValue_numeral (intRepr_jsonNumber k) (by omega) r (readNumber_intRepr k hr)
  | float x =>
    obtain ⟨w, hw⟩ := @rawFloat_reads floatOf fl hfl x
    have hself := hw (3 * (rawFloat fl x).length) [] (Nat.le_refl _) follows_nil
    rw [List.append_nil] at hself
    rw [rawText, Json.reread, hself]
    exact hw
  | str s =>
    intro n r hn _
    have hslen := length_le_rawStr s
    rw [rawText] at hn
    obtain ⟨n, rfl⟩ : ∃ m, n = m + 1 := ⟨n - 1, by omega⟩
    rw [rawText, rawStr, List.cons_append, List.append_assoc, List.singleton_append, readValue, if_pos (by decide),
      readChars_str s _ (by omega)]
    rfl
  | list xs ih =>
    intro n r hn _
    simp only [rawText, List.length_cons, List.length_append, List.length_nil] at hn
    obtain ⟨n, rfl⟩ : ∃ m, n = m + 2 := ⟨n - 2, by omega⟩
    by_cases hxs : xs = []
    · subst hxs
      rfl
    · have hws := rawItems_read (n := n) (r := r) hfl hxs
        (List.forall₂_map_right_iff.mpr (List.forall₂_same.mpr ih)) (by omega)
      obtain ⟨c, u, hcu, -, hc⟩ := (rawItems_leads hfl hxs).append (93 :: r)
      rw [rawText, List.cons_append, List.append_assoc, List.singleton_append, readValue, if_neg (by decide),
        if_neg (by decide), if_pos (by decide), skipBlanks_leads (rawItems_leads hfl hxs)]
      rw [hcu] at hws ⊢
      rw [readArray, if_neg hc, hws, Json.reread, rereadList_eq]
      rfl
  | dict fs ih =>
    intro n r hn _
    simp only [rawText, List.length_cons, List.length_append, List.length_nil] at hn
    obtain ⟨n, rfl⟩ : ∃ m, n = m + 2 := ⟨n - 2, by omega⟩
    by_cases hfs : fs = []
    · subst hfs
      rfl
    · have hws := @rawFields_read floatOf fl hfl fs (fs.map fun f => (f.1, f.2.reread floatOf fl)) n r hfs
        (List.forall₂_map_right_iff.mpr (List.forall₂_same.mpr fun f hf => ⟨rfl, ih f hf⟩)) (by omega)
      obtain ⟨u, hu⟩ := @rawFields_leads fl _ hfs
      rw [rawText, List.cons_append, List.append_assoc, List.singleton_append, readValue, if_neg (by decide),
        if_pos (by decide)]
      rw [hu, List.cons_append] at hws ⊢
      rw [skipBlanks_of_not (by decide), readObject, if_neg (by decide), hws, Json.reread, rereadFields_eq]
      rfl

theorem rawText_reads (hfl : FloatText fl) (v : Json) : ReadsOn floatOf (rawText fl v) := fun n r hn hr =>
  ⟨_, rawText_back hfl v n r hn hr⟩

theorem loads_rawText (hfl : FloatText fl) (v : Json) : loads floatOf (rawText fl v) = .ok (v.reread floatOf fl) := by
  have hread := @rawText_back floatOf fl hfl v _ [] (Nat.le_refl _) follows_nil
  have hblank := skipBlanks_leads (rawText_leads hfl v) []
  rw [List.append_nil] at hread hblank
  rw [loads, hblank, hread]
  rfl

/-- **Reading back.** The text of an array is read as an array of as many elements. -/
theorem loads_dumpsText (hfl : FloatText fl) (xs : List Json) :
    ∃ ws, loads floatOf (dumpsText fl (.list xs)) = .ok (.list ws) ∧ ws.length = xs.length := by
  refine ⟨_, by rw [dumpsText, Json.norm, loads_rawText hfl, Json.reread], ?_⟩
  rw [rereadList_eq, normList_eq, List.length_map, List.length_map]

end

end ChainBreaker
