import ChainBreaker.Crypto
import ChainBreaker.Lib.PrefixCode

/-!
# Text as Python reads and writes it

`bytes.decode("utf-8")`, `str.strip`, `int` of a string and the zero-padded
form of an integer. Decoding undoes encoding (`decodeUtf8_utf8`), and `int`
reads back what the padding wrote (`parseInt_padInt`).
-/

namespace ChainBreaker

open Fallible PrefixCode

/-! ## UTF-8 -/

def isTail (b : UInt8) : Bool := 0x80 ≤ b.toNat && b.toNat ≤ 0xBF

/-- Takes one character off the front: the shortest form only, and no surrogates. -/
def readUtf8 : Bytes → Option (CodePoint × Bytes)
  | a :: r =>
    if a.toNat < 0x80 then some (Fin.ofNat _ a.toNat, r)
    else
      match r with
      | b :: r =>
        if ¬ isTail b then none
        else if 0xC2 ≤ a.toNat ∧ a.toNat ≤ 0xDF then some (Fin.ofNat _ (a.toNat % 32 * 64 + b.toNat % 64), r)
        else
          match r with
          | c :: r =>
            let n := a.toNat % 16 * 4096 + b.toNat % 64 * 64 + c.toNat % 64
            if ¬ isTail c then none
            else if 0xE0 ≤ a.toNat ∧ a.toNat ≤ 0xEF then
              if 0x800 ≤ n ∧ ¬ (0xD800 ≤ n ∧ n ≤ 0xDFFF) then some (Fin.ofNat _ n, r) else none
            else
              match r with
              | d :: r =>
                let n := a.toNat % 8 * 262144 + b.toNat % 64 * 4096 + c.toNat % 64 * 64 + d.toNat % 64
                if ¬ isTail d then none
                else if 0xF0 ≤ a.toNat ∧ a.toNat ≤ 0xF4 ∧ 0x10000 ≤ n ∧ n ≤ 0x10FFFF then some (Fin.ofNat _ n, r)
                else none
              | [] => none
          | [] => none
      | [] => none
  | [] => none

/-- At most `n` characters. -/
def readUtf8s : Nat → Bytes → Option Str
  | _, [] => some []
  | 0, _ :: _ => none
  | n + 1, data =>
    match readUtf8 data with
    | some (c, rest) => (readUtf8s n rest).map (c :: ·)
    | none => none

def decodeUtf8 (data : Bytes) : Except PyErr Str :=
  match readUtf8s data.length data with
  | some s => .ok s
  | none => raise .unicodeDecodeError "invalid start or continuation byte" []

theorem readUtf8_char {c : CodePoint} (hc : isSurrogate c = false) (rest : Bytes) :
    readUtf8 (utf8Char c ++ rest) = some (c, rest) := by
  have hlt := c.isLt
  have hval : ∀ n, n = c.val → Fin.ofNat 0x110000 n = c := by
    intro n hn
    subst hn
    exact Fin.ext (Nat.mod_eq_of_lt c.isLt)
  have hbyte : ∀ n, n < 256 → (UInt8.ofNat n).toNat = n := by
    intro n hn
    rw [UInt8.toNat_ofNat', Nat.mod_eq_of_lt hn]
  have htail : ∀ n, n < 64 → isTail (UInt8.ofNat (0x80 + n)) = true := by
    intro n hn
    simp only [isTail, hbyte _ (show 0x80 + n < 256 by omega), Bool.and_eq_true, decide_eq_true_eq]
    omega
  simp only [isSurrogate, Bool.and_eq_false_iff, decide_eq_false_iff_not] at hc
  unfold utf8Char
  simp only
  split_ifs with h₁ h₂ h₃
  · simp only [List.cons_append, List.nil_append, readUtf8, hbyte _ (show c.val < 256 by omega), h₁, if_true, hval]
  · simp only [List.cons_append, List.nil_append, readUtf8, hbyte _ (show 0xC0 + c.val / 64 < 256 by omega),
      hbyte _ (show 0x80 + c.val % 64 < 256 by omega), htail _ (show c.val % 64 < 64 by omega), not_true, if_false]
    rw [if_neg (by omega), if_pos (by omega), hval _ (by omega)]
  · simp only [List.cons_append, List.nil_append, readUtf8, hbyte _ (show 0xE0 + c.val / 4096 < 256 by omega),
      hbyte _ (show 0x80 + c.val / 64 % 64 < 256 by omega), hbyte _ (show 0x80 + c.val % 64 < 256 by omega),
      htail _ (show c.val % 64 < 64 by omega), htail _ (show c.val / 64 % 64 < 64 by omega), not_true, if_false]
    rw [if_neg (by omega), if_neg (by omega), if_pos (by omega), if_pos (by omega), hval _ (by omega)]
  · simp only [List.cons_append, List.nil_append, readUtf8, hbyte _ (show 0xF0 + c.val / 262144 < 256 by omega),
      hbyte _ (show 0x80 + c.val / 4096 % 64 < 256 by omega), hbyte _ (show 0x80 + c.val / 64 % 64 < 256 by omega),
      hbyte _ (show 0x80 + c.val % 64 < 256 by omega), htail _ (show c.val % 64 < 64 by omega),
      htail _ (show c.val / 64 % 64 < 64 by omega), htail _ (show c.val / 4096 % 64 < 64 by omega), not_true, if_false]
    rw [if_neg (by omega), if_neg (by omega), if_neg (by omega), if_pos (by omega), hval _ (by omega)]

theorem utf8Char_ne_nil (c : CodePoint) : utf8Char c ≠ [] := by
  unfold utf8Char
  simp only
  split_ifs <;> simp

theorem readUtf8s_utf8 : ∀ {s : Str} {n : Nat}, s.any isSurrogate = false → s.length ≤ n →
    readUtf8s n (utf8 s) = some s
  | [], n, _, _ => by cases n <;> rfl
  | c :: s, n, hs, hn => by
    obtain ⟨n, rfl⟩ : ∃ m, n = m + 1 := ⟨n - 1, by simp only [List.length_cons] at hn; omega⟩
    rw [List.any_cons, Bool.or_eq_false_iff] at hs
    have ih := readUtf8s_utf8 hs.2 (Nat.le_of_succ_le_succ hn)
    have hchar := readUtf8_char hs.1 (utf8 s)
    obtain ⟨b, t, hb⟩ := List.exists_cons_of_ne_nil (utf8Char_ne_nil c)
    rw [utf8, List.flatMap_cons]
    change readUtf8s (n + 1) (utf8Char c ++ utf8 s) = _
    rw [hb, List.cons_append] at hchar ⊢
    simp only [readUtf8s, hchar, ih, Option.map_some]

theorem length_le_utf8 : ∀ s : Str, s.length ≤ (utf8 s).length
  | [] => Nat.zero_le _
  | c :: s => by
    have hpos := List.length_pos_iff.mpr (utf8Char_ne_nil c)
    have ih := length_le_utf8 s
    rw [utf8, List.flatMap_cons, List.length_append, List.length_cons]
    change s.length + 1 ≤ _ + (utf8 s).length
    omega

/-- Decoding undoes encoding. -/
theorem decodeUtf8_utf8 {s : Str} (h : s.any isSurrogate = false) : decodeUtf8 (utf8 s) = .ok s := by
  rw [decodeUtf8, readUtf8s_utf8 h (length_le_utf8 s)]

theorem ofNat_toNat_eq {b : UInt8} {n : Nat} (h : n = b.toNat) : UInt8.ofNat n = b := by
  subst h
  exact UInt8.ofNat_toNat

/-- What is read is the shortest form of a character. -/
theorem readUtf8_inv {data rest : Bytes} {c : CodePoint} (h : readUtf8 data = some (c, rest)) :
    isSurrogate c = false ∧ data = utf8Char c ++ rest := by
  have hval : ∀ n, n < 0x110000 → (Fin.ofNat 0x110000 n).val = n := fun n hn => Nat.mod_eq_of_lt hn
  cases data with
  | nil => cases h
  | cons a r =>
    have ha := a.toNat_lt
    simp only [readUtf8] at h
    by_cases h₁ : a.toNat < 0x80
    · rw [if_pos h₁] at h
      cases h
      have hc := hval a.toNat (by omega)
      refine ⟨by simp only [isSurrogate, hc, Bool.and_eq_false_iff, decide_eq_false_iff_not]; omega, ?_⟩
      rw [utf8Char]
      simp only [hc, if_pos h₁, ofNat_toNat_eq rfl, List.singleton_append]
    rw [if_neg h₁] at h
    cases r with
    | nil => cases h
    | cons b r =>
      simp only at h
      by_cases hb : isTail b = true
      · have hb' := hb
        simp only [isTail, Bool.and_eq_true, decide_eq_true_eq] at hb'
        rw [if_neg (by simpa using hb)] at h
        by_cases h₂ : 0xC2 ≤ a.toNat ∧ a.toNat ≤ 0xDF
        · rw [if_pos h₂] at h
          cases h
          have hc := hval (a.toNat % 32 * 64 + b.toNat % 64) (by omega)
          refine ⟨by simp only [isSurrogate, hc, Bool.and_eq_false_iff, decide_eq_false_iff_not]; omega, ?_⟩
          rw [utf8Char]
          simp only [hc]
          rw [if_neg (by omega), if_pos (by omega), ofNat_toNat_eq (b := a) (by omega), ofNat_toNat_eq (b := b) (by omega)]
          rfl
        rw [if_neg h₂] at h
        cases r with
        | nil => cases h
        | cons d r =>
          simp only at h
          by_cases hd : isTail d = true
          · have hd' := hd
            simp only [isTail, Bool.and_eq_true, decide_eq_true_eq] at hd'
            rw [if_neg (by simpa using hd)] at h
            by_cases h₃ : 0xE0 ≤ a.toNat ∧ a.toNat ≤ 0xEF
            · rw [if_pos h₃] at h
              split_ifs at h with hn
              cases h
              have hc := hval (a.toNat % 16 * 4096 + b.toNat % 64 * 64 + d.toNat % 64) (by omega)
              refine ⟨by simp only [isSurrogate, hc, Bool.and_eq_false_iff, decide_eq_false_iff_not]; omega, ?_⟩
              rw [utf8Char]
              simp only [hc]
              rw [if_neg (by omega), if_neg (by omega), if_pos (by omega), ofNat_toNat_eq (b := a) (by omega),
                ofNat_toNat_eq (b := b) (by omega), ofNat_toNat_eq (b := d) (by omega)]
              rfl
            rw [if_neg h₃] at h
            cases r with
            | nil => cases h
            | cons e r =>
              simp only at h
              by_cases he : isTail e = true
              · have he' := he
                simp only [isTail, Bool.and_eq_true, decide_eq_true_eq] at he'
                rw [if_neg (by simpa using he)] at h
                split_ifs at h with hn
                cases h
                have hc := hval (a.toNat % 8 * 262144 + b.toNat % 64 * 4096 + d.toNat % 64 * 64 + e.toNat % 64) (by omega)
                refine ⟨by simp only [isSurrogate, hc, Bool.and_eq_false_iff, decide_eq_false_iff_not]; omega, ?_⟩
                rw [utf8Char]
                simp only [hc]
                rw [if_neg (by omega), if_neg (by omega), if_neg (by omega), ofNat_toNat_eq (b := a) (by omega),
                  ofNat_toNat_eq (b := b) (by omega), ofNat_toNat_eq (b := d) (by omega), ofNat_toNat_eq (b := e) (by omega)]
                rfl
              · rw [if_pos (by simpa using he)] at h
                cases h
          · rw [if_pos (by simpa using hd)] at h
            cases h
      · rw [if_pos (by simpa using hb)] at h
        cases h

theorem readUtf8s_inv : ∀ {n : Nat} {data : Bytes} {s : Str}, readUtf8s n data = some s →
    s.any isSurrogate = false ∧ data = utf8 s
  | n, [], s, h => by
    have hs : s = [] := by cases n <;> exact (Option.some.inj h).symm
    subst hs
    exact ⟨rfl, rfl⟩
  | n + 1, b :: data, s, h => by
    simp only [readUtf8s] at h
    cases hread : readUtf8 (b :: data) with
    | none =>
      rw [hread] at h
      cases h
    | some p =>
      obtain ⟨c, rest⟩ := p
      rw [hread] at h
      obtain ⟨t, ht, rfl⟩ := Option.map_eq_some_iff.mp h
      obtain ⟨hc, hdata⟩ := readUtf8_inv hread
      obtain ⟨hs, rfl⟩ := readUtf8s_inv ht
      exact ⟨by rw [List.any_cons, hc, hs, Bool.or_false], hdata⟩

theorem decodeUtf8_eq_ok {data : Bytes} {s : Str} : decodeUtf8 data = .ok s ↔ s.any isSurrogate = false ∧ data = utf8 s := by
  constructor
  · intro h
    unfold decodeUtf8 at h
    split at h
    · cases h
      exact readUtf8s_inv ‹_›
    · cases h
  · rintro ⟨hs, rfl⟩
    exact decodeUtf8_utf8 hs

/-! ## Stripping and splitting -/

/-- `str.isspace` for one character. -/
def isUniSpace (c : CodePoint) : Bool :=
  let n := c.val
  (9 ≤ n && n ≤ 13) || (28 ≤ n && n ≤ 32) || n == 0x85 || n == 0xA0 || n == 0x1680 || (0x2000 ≤ n && n ≤ 0x200A) ||
    n == 0x2028 || n == 0x2029 || n == 0x202F || n == 0x205F || n == 0x3000

/-- Without the characters of `p` at either end. -/
def stripOf (p : CodePoint → Bool) (s : Str) : Str := ((s.dropWhile p).reverse.dropWhile p).reverse

def strip (s : Str) : Str := stripOf isUniSpace s

theorem stripOf_eq {p : CodePoint → Bool} {s t : Str} (hs : ∀ c, s.head? = some c → p c = false)
    (hlast : ∀ c, s.getLast? = some c → p c = false) (hne : s ≠ []) (ht : ∀ c ∈ t, p c = true) : stripOf p (s ++ t) = s := by
  have hfront : (s ++ t).dropWhile p = s ++ t := by
    cases s with
    | nil => exact absurd rfl hne
    | cons c s => rw [List.cons_append, List.dropWhile_cons, hs c rfl]; rfl
  have hback : (t.reverse ++ s.reverse).dropWhile p = s.reverse := by
    rw [List.dropWhile_append_of_pos (fun c hc => ht c (List.mem_reverse.mp hc))]
    cases hr : s.reverse with
    | nil => rfl
    | cons c r =>
      have hc : s.getLast? = some c := by rw [List.getLast?_eq_head?_reverse, hr]; rfl
      rw [List.dropWhile_cons, hlast c hc]
      rfl
  rw [stripOf, hfront, List.reverse_append, hback, List.reverse_reverse]

/-! ## Integers -/

/-- The zeros of the decimal digits of Unicode; nine more digits follow each. -/
def digitZeros : List Nat :=
  [0x30, 0x660, 0x6F0, 0x7C0, 0x966, 0x9E6, 0xA66, 0xAE6, 0xB66, 0xBE6, 0xC66, 0xCE6, 0xD66, 0xDE6, 0xE50, 0xED0, 0xF20,
    0x1040, 0x1090, 0x17E0, 0x1810, 0x1946, 0x19D0, 0x1A80, 0x1A90, 0x1B50, 0x1BB0, 0x1C40, 0x1C50, 0xA620, 0xA8D0, 0xA900,
    0xA9D0, 0xA9F0, 0xAA50, 0xABF0, 0xFF10, 0x104A0, 0x10D30, 0x11066, 0x110F0, 0x11136, 0x111D0, 0x112F0, 0x11450,
    0x114D0, 0x11650, 0x116C0, 0x11730, 0x118E0, 0x11950, 0x11C50, 0x11D50, 0x11DA0, 0x16A60, 0x16AC0, 0x16B50, 0x1D7CE,
    0x1D7D8, 0x1D7E2, 0x1D7EC, 0x1D7F6, 0x1E140, 0x1E2F0, 0x1E950, 0x1FBF0]

def digitVal (c : CodePoint) : Option Nat :=
  (digitZeros.find? fun z => decide (z ≤ c.val ∧ c.val < z + 10)).map (c.val - ·)

/-- Digits with single underscores between them; `first` where a digit must come. -/
def readDigits (first : Bool) : Str → Option (List Nat)
  | [] => if first then none else some []
  | c :: rest =>
    if c.val = 95 then if first then none else readDigits true rest
    else
      match digitVal c with
      | some d => (readDigits false rest).map (d :: ·)
      | none => none

/-- The limit on the digits of an integer in a string. -/
def MAX_STR_DIGITS : Nat := 4300

/-- `int(s)`; the ASCII separators 28 to 31 are not blanks to it. -/
def parseInt (s : Str) : Except PyErr Int :=
  let t := stripOf (fun c => isSpace c || (decide (127 ≤ c.val) && isUniSpace c)) s
  let (negative, t) := match t with
    | c :: r => if c.val = 45 then (true, r) else if c.val = 43 then (false, r) else (false, c :: r)
    | [] => (false, [])
  match readDigits true t with
  | none => raise .valueError "invalid literal for int() with base 10: %" [.str s]
  | some ds =>
    if MAX_STR_DIGITS < ds.length then raise .valueError "Exceeds the limit (4300 digits) for integer string conversion" []
    else
      let n : Int := (ds.foldl (fun acc d => 10 * acc + d) 0 : Nat)
      .ok (if negative then -n else n)

def natText (n : Nat) : Str := (Nat.toDigits 10 n).map fun c => Fin.ofNat _ c.toNat

/-- `f"{n:0{width}d}"`. -/
def padInt (width : Nat) (n : Int) : Except PyErr Str :=
  let digits := natText n.natAbs
  if MAX_STR_DIGITS < digits.length then raise .valueError "Exceeds the limit (4300 digits) for integer string conversion" []
  else if n < 0 then .ok (45 :: (List.replicate (width - 1 - digits.length) 48 ++ digits))
  else .ok (List.replicate (width - digits.length) 48 ++ digits)

/-! ## `int` reads back what the padding wrote -/

def isDigit (c : CodePoint) : Bool := 48 ≤ c.val && c.val ≤ 57

theorem isDigit_iff {c : CodePoint} : isDigit c = true ↔ 48 ≤ c.val ∧ c.val ≤ 57 := by
  simp [isDigit]

theorem natText_digit {n : Nat} {c : CodePoint} (h : c ∈ natText n) : isDigit c = true := by
  obtain ⟨d, hd, rfl⟩ := List.mem_map.mp h
  have hchar := Nat.isDigit_of_mem_toDigits (by decide) (by decide) hd
  simp only [Char.isDigit, Bool.and_eq_true, decide_eq_true_eq] at hchar
  have hlo : 48 ≤ d.toNat := hchar.1
  have hhi : d.toNat ≤ 57 := hchar.2
  rw [isDigit_iff, Fin.val_ofNat, Nat.mod_eq_of_lt (by omega)]
  exact ⟨hlo, hhi⟩

theorem natText_ne_nil (n : Nat) : natText n ≠ [] := fun h => Nat.toDigits_ne_nil (List.map_eq_nil_iff.mp h)

theorem digitVal_digit {c : CodePoint} (h : isDigit c = true) : digitVal c = some (c.val - 48) := by
  rw [isDigit_iff] at h
  rw [digitVal, digitZeros, List.find?_cons_of_pos (by simp; omega)]
  rfl

theorem readDigits_digits : ∀ {s : Str} {first : Bool}, (s = [] → first = false) → (∀ c ∈ s, isDigit c = true) →
    readDigits first s = some (s.map (·.val - 48))
  | [], first, h, _ => by rw [readDigits, h rfl]; rfl
  | c :: s, first, _, h => by
    have hc := isDigit_iff.mp (h c (.head _))
    rw [readDigits, if_neg (by omega), digitVal_digit (h c (.head _))]
    simp only [@readDigits_digits s false (fun _ => rfl) fun d hd => h d (.tail _ hd), Option.map_some, List.map_cons]

/-- The number that a string of digits stands for. -/
def digitsNat (s : Str) : Nat := (s.map (·.val - 48)).foldl (fun acc d => 10 * acc + d) 0

theorem natText_value (n : Nat) : digitsNat (natText n) = n := by
  have hvals : (natText n).map (·.val - 48) = (Nat.toDigits 10 n).map fun c => c.toNat - 48 := by
    rw [natText, List.map_map]
    apply List.map_congr_left
    intro c hc
    have hchar := Nat.isDigit_of_mem_toDigits (by decide) (by decide) hc
    simp only [Char.isDigit, Bool.and_eq_true, decide_eq_true_eq] at hchar
    have hhi : c.toNat ≤ 57 := hchar.2
    simp only [Function.comp_apply, Fin.val_ofNat]
    rw [Nat.mod_eq_of_lt (by omega)]
  rw [digitsNat, hvals, List.foldl_map]
  exact Nat.ofDigitChars_ten_toDigits

theorem zeros_value (k : Nat) (s : Str) : digitsNat (List.replicate k 48 ++ s) = digitsNat s := by
  induction k with
  | zero => rfl
  | succ k ih =>
    rw [List.replicate_succ, List.cons_append]
    exact ih

/-- The digits of a number behind zeros. -/
structure Padded (n : Nat) (s : Str) : Prop where
  ne_nil : s ≠ []
  digits : ∀ c ∈ s, isDigit c = true
  value : digitsNat s = n
  length : s.length ≤ MAX_STR_DIGITS

theorem padded_zeros {n k : Nat} (h : k + (natText n).length ≤ MAX_STR_DIGITS) :
    Padded n (List.replicate k 48 ++ natText n) where
  ne_nil h := natText_ne_nil n (List.append_eq_nil_iff.mp h).2
  digits c hc := (List.mem_append.mp hc).elim (fun hc => by rw [List.eq_of_mem_replicate hc]; rfl) natText_digit
  value := by rw [zeros_value, natText_value]
  length := by simpa using h

/-- The form of a padded integer: digits, behind a sign if it is negative. -/
theorem padInt_ok {width : Nat} {n : Int} {s : Str} (hw : width ≤ MAX_STR_DIGITS) (h : padInt width n = .ok s) :
    ∃ ds, Padded n.natAbs ds ∧ s = if n < 0 then 45 :: ds else ds := by
  unfold padInt raise at h
  simp only at h
  split at h
  · cases h
  · rename_i hlen
    split at h <;> cases h <;> rename_i hneg
    · exact ⟨_, padded_zeros (by omega), (if_pos hneg).symm⟩
    · exact ⟨_, padded_zeros (by omega), (if_neg hneg).symm⟩

theorem digit_not_blank {c : CodePoint} (h : isDigit c = true ∨ c = 45) :
    (isSpace c || (decide (127 ≤ c.val) && isUniSpace c)) = false := by
  have hval : c.val = 45 ∨ 48 ≤ c.val ∧ c.val ≤ 57 := h.elim (fun h => .inr (isDigit_iff.mp h)) fun h => .inl (h ▸ rfl)
  simp only [isSpace, Bool.or_eq_false_iff, Bool.and_eq_false_iff, decide_eq_false_iff_not, beq_eq_false_iff_ne]
  omega

/-- `int` reads back a padded integer. -/
theorem parseInt_padInt {width : Nat} {n : Int} {s : Str} (hw : width ≤ MAX_STR_DIGITS) (h : padInt width n = .ok s) :
    parseInt s = .ok n := by
  obtain ⟨ds, hds, rfl⟩ := padInt_ok hw h
  have hread := @readDigits_digits ds true (fun h => absurd h hds.ne_nil) hds.digits
  have hchars : ∀ c ∈ (if n < 0 then 45 :: ds else ds), isDigit c = true ∨ c = 45 := by
    intro c hc
    split at hc
    · exact (List.mem_cons.mp hc).elim .inr fun hc => .inl (hds.digits c hc)
    · exact .inl (hds.digits c hc)
  have hne : (if n < 0 then 45 :: ds else ds) ≠ [] := by
    split
    · simp
    · exact hds.ne_nil
  have hstrip := @stripOf_eq (fun c => isSpace c || (decide (127 ≤ c.val) && isUniSpace c)) _ []
    (fun c hc => digit_not_blank (hchars c (List.mem_of_mem_head? hc)))
    (fun c hc => digit_not_blank (hchars c (List.mem_of_getLast? hc))) hne (fun c hc => by cases hc)
  rw [List.append_nil] at hstrip
  unfold parseInt
  simp only [hstrip]
  have hvalue : ((ds.map (·.val - 48)).foldl (fun acc d => 10 * acc + d) 0 : Nat) = n.natAbs := hds.value
  have hlen : ¬ MAX_STR_DIGITS < (ds.map (·.val - 48)).length := by
    rw [List.length_map]
    exact Nat.not_lt.mpr hds.length
  by_cases hneg : n < 0
  · have hsign : (45 : CodePoint).val = 45 := rfl
    simp only [hneg, if_true, hsign, hread]
    rw [if_neg hlen, hvalue]
    exact congrArg Except.ok (by omega)
  · obtain ⟨d, ds', rfl⟩ := List.exists_cons_of_ne_nil hds.ne_nil
    have hd := isDigit_iff.mp (hds.digits d (.head _))
    simp only [hneg, if_false]
    rw [if_neg (by omega), if_neg (by omega)]
    simp only [hread]
    rw [if_neg hlen, hvalue]
    exact congrArg Except.ok (by simp; omega)

end ChainBreaker
