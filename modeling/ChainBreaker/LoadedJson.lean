import ChainBreaker.EscapedJson

/-!
# What a JSON decoder yields

Whatever the text: a string that was read has no high surrogate directly before a low
one (such a pair of escapes is joined), and a dictionary has no key twice. So
what was loaded once is written and loaded again without a change (`loads_sound`).
-/

namespace ChainBreaker

open Fallible

/-! ## Strings -/

/-- No character of the text is a surrogate by itself. -/
def Scalars (s : Str) : Prop := ∀ c ∈ s, isSurrogate c = false

theorem Scalars.suffix {s t : Str} (h : Scalars s) (ht : t <:+ s) : Scalars t := fun c hc => h c (ht.subset hc)

theorem Scalars.decoded : ∀ {s : Str}, Scalars s → decodedStr s = true
  | [], _ => rfl
  | [_], _ => rfl
  | c :: d :: s, h => by
    have hc := h c (.head _)
    have hhigh : isHigh c.val = false := by
      simp only [isSurrogate, Bool.and_eq_false_iff, decide_eq_false_iff_not] at hc
      simp only [isHigh, Bool.and_eq_false_iff, decide_eq_false_iff_not]
      omega
    rw [decodedStr, hhigh, @Scalars.decoded (d :: s) (h.suffix (List.suffix_cons c _))]
    rfl

/-- The text does not go on with the escape of a low surrogate. -/
def NoLowNext (s : Str) : Prop := ∀ t u r, s = 92 :: 117 :: t → readHex4 t = some (u, r) → isLow u = false

theorem hexVal_lt {c : CodePoint} {n : Nat} (h : hexVal c = some n) : n < 16 := by
  unfold hexVal at h
  dsimp only at h
  split_ifs at h
  all_goals
    cases h
    omega

theorem readHex4_some {s r : Str} {u : Nat} (h : readHex4 s = some (u, r)) : r <:+ s ∧ u < 0x10000 := by
  unfold readHex4 at h
  split at h
  · rename_i a b c d t
    simp only [Option.bind_eq_bind, Option.bind_eq_some_iff, Option.some.injEq, Prod.mk.injEq] at h
    obtain ⟨a', ha, b', hb, c', hc, d', hd, rfl, rfl⟩ := h
    have ha := hexVal_lt ha
    have hb := hexVal_lt hb
    have hc := hexVal_lt hc
    have hd := hexVal_lt hd
    exact ⟨⟨[a, b, c, d], rfl⟩, by omega⟩
  · cases h

theorem ofNat_unit {u : Nat} (h : u < 0x10000) : (Fin.ofNat 0x110000 u).val = u := Nat.mod_eq_of_lt (by omega)

/-- A character read behind `\\u`: a unit, not followed by its other half, or two units together. -/
theorem readUnicode_some {s r : Str} {c : CodePoint} (h : readUnicode s = some (c, r)) :
    r <:+ s ∧ (isHigh c.val = true → NoLowNext r) ∧
      (isLow c.val = true → ∃ u r', readHex4 s = some (u, r') ∧ isLow u = true) := by
  rw [readUnicode, Option.bind_eq_bind, Option.bind_eq_some_iff] at h
  obtain ⟨⟨u, t⟩, hu, h⟩ := h
  obtain ⟨hsuffix, hlt⟩ := readHex4_some hu
  dsimp only at h
  -- a unit by itself
  have hunit : (isHigh u = true → NoLowNext t) → some (Fin.ofNat 0x110000 u, t) = some (c, r) →
      r <:+ s ∧ (isHigh c.val = true → NoLowNext r) ∧
        (isLow c.val = true → ∃ u r', readHex4 s = some (u, r') ∧ isLow u = true) := by
    intro hnext h
    cases h
    rw [ofNat_unit hlt]
    exact ⟨hsuffix, hnext, fun hlow => ⟨u, _, hu, hlow⟩⟩
  split at h
  · rename_i b d t'
    split at h
    · rename_i hpair
      rw [Option.bind_eq_some_iff] at h
      obtain ⟨⟨u', t''⟩, hu', h⟩ := h
      dsimp only at h
      split at h
      · rename_i hlow
        rw [Option.some.injEq, Prod.mk.injEq] at h
        obtain ⟨rfl, rfl⟩ := h
        obtain ⟨hsuffix', -⟩ := readHex4_some hu'
        have hhigh := hpair.1
        simp only [isHigh, isLow, Bool.and_eq_true, decide_eq_true_eq] at hhigh hlow
        have hval : (Fin.ofNat 0x110000 (0x10000 + 1024 * (u - 0xD800) + (u' - 0xDC00))).val =
            0x10000 + 1024 * (u - 0xD800) + (u' - 0xDC00) := Nat.mod_eq_of_lt (by omega)
        refine ⟨(hsuffix'.trans ((List.suffix_cons d t').trans (List.suffix_cons b _))).trans hsuffix, ?_, ?_⟩
        all_goals
          rw [hval]
          simp only [isHigh, isLow, Bool.and_eq_true, decide_eq_true_eq]
          omega
      · rename_i hlow
        refine hunit (fun _ t₁ u₁ r₁ ht₁ hu₁ => ?_) h
        obtain ⟨-, rfl⟩ : d = 117 ∧ t' = t₁ := List.cons.inj (List.cons.inj ht₁).2
        rw [hu'] at hu₁
        cases hu₁
        exact Bool.eq_false_iff.mpr hlow
    · rename_i hpair
      refine hunit (fun hhigh t₁ _ _ ht₁ _ => ?_) h
      obtain ⟨rfl, htail⟩ := List.cons.inj ht₁
      obtain ⟨hd, -⟩ := List.cons.inj htail
      exact absurd ⟨hhigh, rfl, congrArg Fin.val hd⟩ hpair
  · rename_i hshort
    exact hunit (fun _ t₁ _ _ ht₁ _ => absurd ht₁ (hshort _ _ _)) h

theorem readEscape_some {s r : Str} {c : CodePoint} (h : readEscape s = some (c, r)) :
    r <:+ s ∧ (isHigh c.val = true → NoLowNext r) ∧ (isLow c.val = true → ¬ NoLowNext (92 :: s)) := by
  unfold readEscape at h
  split at h
  · cases h
  · rename_i e t
    -- an escape of one letter stands for no surrogate
    have hplain : ∀ {c' : CodePoint}, c'.val < 0xD800 → some (c', t) = some (c, r) →
        r <:+ e :: t ∧ (isHigh c.val = true → NoLowNext r) ∧ (isLow c.val = true → ¬ NoLowNext (92 :: e :: t)) := by
      intro c' hc' h
      cases h
      refine ⟨List.suffix_cons e _, fun hhigh => ?_, fun hlow => ?_⟩
      · simp only [isHigh, Bool.and_eq_true, decide_eq_true_eq] at hhigh
        omega
      · simp only [isLow, Bool.and_eq_true, decide_eq_true_eq] at hlow
        omega
    split_ifs at h with h₁ h₂ h₃ h₄ h₅ h₆ h₇
    · exact hplain (by omega) h
    · exact hplain (by decide) h
    · exact hplain (by decide) h
    · exact hplain (by decide) h
    · exact hplain (by decide) h
    · exact hplain (by decide) h
    · obtain ⟨hsuffix, hhigh, hlow⟩ := readUnicode_some h
      obtain rfl : e = 117 := Fin.ext h₇
      refine ⟨hsuffix.trans (List.suffix_cons _ t), hhigh, fun hc hnext => ?_⟩
      obtain ⟨u, r', hu, hlow⟩ := hlow hc
      rw [hnext t u r' rfl hu] at hlow
      cases hlow

theorem decodedStr_cons {c : CodePoint} {s : Str} (hs : decodedStr s = true)
    (h : isHigh c.val = true → ∀ d, s.head? = some d → isLow d.val = false) : decodedStr (c :: s) = true := by
  cases s with
  | nil => rfl
  | cons d s =>
    rw [decodedStr, hs, Bool.and_true, Bool.not_eq_true', Bool.and_eq_false_iff]
    by_cases hc : isHigh c.val = true
    · exact .inr (h hc d rfl)
    · exact .inl (Bool.eq_false_iff.mpr hc)

/-- A string read from a text without surrogates. -/
theorem readChars_decoded : ∀ {n : Nat} {s x r : Str}, Scalars s → readChars n s = some (x, r) →
    r <:+ s ∧ decodedStr x = true ∧ (NoLowNext s → ∀ c, x.head? = some c → isLow c.val = false) := by
  intro n
  induction n with
  | zero => rintro s x r hs ⟨⟩
  | succ n ih =>
    intro s x r hs h
    rcases s with _ | ⟨c, t⟩
    · cases h
    have ht : Scalars t := hs.suffix (List.suffix_cons c t)
    rw [readChars] at h
    split_ifs at h with h₁ h₂ h₃
    · cases h
      exact ⟨List.suffix_cons c _, rfl, by rintro _ _ ⟨⟩⟩
    · simp only [Option.bind_eq_bind, Option.bind_eq_some_iff, Option.some.injEq, Prod.mk.injEq, Prod.exists] at h
      obtain ⟨c', t', hc', y, _, hy, rfl, rfl⟩ := h
      obtain ⟨hsuffix, hhigh, hlow⟩ := readEscape_some hc'
      obtain ⟨hrest, hdecoded, hnext⟩ := ih (ht.suffix hsuffix) hy
      refine ⟨(hrest.trans hsuffix).trans (List.suffix_cons c t), decodedStr_cons hdecoded fun hc => hnext (hhigh hc), ?_⟩
      intro hfirst d hd
      cases hd
      obtain rfl : c = 92 := Fin.ext h₂
      exact Bool.eq_false_iff.mpr fun hc => hlow hc hfirst
    · simp only [Option.bind_eq_bind, Option.bind_eq_some_iff, Option.some.injEq, Prod.mk.injEq, Prod.exists] at h
      obtain ⟨y, _, hy, rfl, rfl⟩ := h
      obtain ⟨hrest, hdecoded, -⟩ := ih ht hy
      have hc := hs c (.head _)
      simp only [isSurrogate, Bool.and_eq_false_iff, decide_eq_false_iff_not] at hc
      refine ⟨hrest.trans (List.suffix_cons c t), decodedStr_cons hdecoded fun hhigh => ?_, fun _ d hd => ?_⟩
      · simp only [isHigh, Bool.and_eq_true, decide_eq_true_eq] at hhigh
        omega
      · cases hd
        simp only [isLow, Bool.and_eq_false_iff, decide_eq_false_iff_not]
        omega

/-! ## Numbers -/

theorem readInteger_suffix {s t r : Str} (h : readInteger s = some (t, r)) : r <:+ s := by
  unfold readInteger at h
  dsimp only at h
  generalize s.take _ = sign at h
  generalize sign.length = k at h
  split at h
  · cases h
  · rename_i c u hdrop
    have hsuffix : c :: u <:+ s := hdrop ▸ List.drop_suffix k s
    split_ifs at h
    · cases h
      exact (List.suffix_cons c _).trans hsuffix
    · cases h
      exact (List.dropWhile_suffix _).trans hsuffix

theorem readFraction_suffix (s : Str) : (readFraction s).2 <:+ s := by
  unfold readFraction
  split
  · split_ifs
    · exact (List.dropWhile_suffix _).trans (List.suffix_cons _ _)
    · exact List.suffix_rfl
  · exact List.suffix_rfl

theorem readExponent_suffix (s : Str) : (readExponent s).2 <:+ s := by
  unfold readExponent
  split
  · exact List.suffix_rfl
  · dsimp only
    split_ifs
    · exact (List.dropWhile_suffix _).trans ((List.drop_suffix _ _).trans (List.suffix_cons _ _))
    · exact List.suffix_rfl
    · exact List.suffix_rfl

/-! ## Values -/

/-- As a decoder yields it. -/
def Json.Loaded (v : Json) : Prop := v.decoded = true ∧ v.distinct = true

theorem loaded_list {xs : List Json} : (Json.list xs).Loaded ↔ ∀ x ∈ xs, x.Loaded := by
  rw [Json.Loaded, Json.decoded, decodedList_iff, Json.distinct, distinctList_iff]
  exact ⟨fun h x hx => ⟨h.1 x hx, h.2 x hx⟩, fun h => ⟨fun x hx => (h x hx).1, fun x hx => (h x hx).2⟩⟩

theorem loaded_dict {fs : Fields} : (Json.dict fs).Loaded ↔
    (fs.map Prod.fst).Nodup ∧ ∀ f ∈ fs, decodedStr f.1 = true ∧ f.2.Loaded := by
  rw [Json.Loaded, Json.decoded, decodedFields_iff, distinct_dict]
  exact ⟨fun h => ⟨h.2.1, fun f hf => ⟨(h.1 f hf).1, (h.1 f hf).2, h.2.2 f hf⟩⟩,
    fun h => ⟨fun f hf => ⟨(h.2 f hf).1, (h.2 f hf).2.1⟩, h.1, fun f hf => (h.2 f hf).2.2⟩⟩

section
variable {floatOf : Str → UInt64}

theorem readNumber_loaded {s r : Str} {v : Json} (h : readNumber floatOf s = some (v, r)) : v.Loaded ∧ r <:+ s := by
  rw [readNumber, Option.bind_eq_bind, Option.bind_eq_some_iff] at h
  obtain ⟨⟨t, r₁⟩, ht, h⟩ := h
  have hsuffix := (readExponent_suffix (readFraction r₁).2).trans ((readFraction_suffix r₁).trans (readInteger_suffix ht))
  dsimp only at h
  split_ifs at h
  all_goals
    cases h
    exact ⟨⟨rfl, rfl⟩, hsuffix⟩

theorem readWord_loaded {word s r : Str} {v w : Json} (hv : v.Loaded) (h : readWord word v s = some (w, r)) :
    w.Loaded ∧ r <:+ s := by
  unfold readWord at h
  split_ifs at h
  cases h
  exact ⟨hv, List.drop_suffix _ _⟩

/-- What the readers with `n` steps left take from a text without surrogates. -/
structure ReadsLoaded (floatOf : Str → UInt64) (n : Nat) : Prop where
  value : ∀ {s v r}, Scalars s → readValue floatOf n s = some (v, r) → v.Loaded ∧ r <:+ s
  array : ∀ {s v r}, Scalars s → readArray floatOf n s = some (v, r) → v.Loaded ∧ r <:+ s
  items : ∀ {s vs r}, Scalars s → readItems floatOf n s = some (vs, r) → (∀ v ∈ vs, v.Loaded) ∧ r <:+ s
  object : ∀ {s v r}, Scalars s → readObject floatOf n s = some (v, r) → v.Loaded ∧ r <:+ s
  pairs : ∀ {s fs r}, Scalars s → readPairs floatOf n s = some (fs, r) →
    (∀ f ∈ fs, decodedStr f.1 = true ∧ f.2.Loaded) ∧ r <:+ s

theorem skipBlanks_suffix (s : Str) : skipBlanks s <:+ s := List.dropWhile_suffix _

section
variable {n : Nat}

theorem readValue_loaded (ih : ReadsLoaded floatOf n) {s r : Str} {v : Json} (hs : Scalars s)
    (h : readValue floatOf (n + 1) s = some (v, r)) : v.Loaded ∧ r <:+ s := by
  cases s with
  | nil => cases h
  | cons c t =>
    have ht : Scalars t := hs.suffix (List.suffix_cons c t)
    have hcons := List.suffix_cons c t
    have hblank := (skipBlanks_suffix t).trans hcons
    rw [readValue] at h
    split_ifs at h
    · rw [Option.bind_eq_bind, Option.bind_eq_some_iff] at h
      obtain ⟨⟨x, r'⟩, hx, h⟩ := h
      cases h
      obtain ⟨hsuffix, hdecoded, -⟩ := readChars_decoded ht hx
      exact ⟨⟨hdecoded, rfl⟩, hsuffix.trans hcons⟩
    · obtain ⟨hv, hsuffix⟩ := ih.object (hs.suffix hblank) h
      exact ⟨hv, hsuffix.trans hblank⟩
    · obtain ⟨hv, hsuffix⟩ := ih.array (hs.suffix hblank) h
      exact ⟨hv, hsuffix.trans hblank⟩
    · exact readWord_loaded ⟨rfl, rfl⟩ h
    · exact readWord_loaded ⟨rfl, rfl⟩ h
    · exact readWord_loaded ⟨rfl, rfl⟩ h
    · exact readWord_loaded ⟨rfl, rfl⟩ h
    · exact readWord_loaded ⟨rfl, rfl⟩ h
    · split at h
      · rename_i x hx
        cases h
        exact readNumber_loaded hx
      · exact readWord_loaded ⟨rfl, rfl⟩ h

theorem readArray_loaded (ih : ReadsLoaded floatOf n) {s r : Str} {v : Json} (hs : Scalars s)
    (h : readArray floatOf (n + 1) s = some (v, r)) : v.Loaded ∧ r <:+ s := by
  cases s with
  | nil => cases h
  | cons c t =>
    rw [readArray] at h
    split_ifs at h
    · cases h
      exact ⟨⟨rfl, rfl⟩, List.suffix_cons c _⟩
    · rw [Option.bind_eq_bind, Option.bind_eq_some_iff] at h
      obtain ⟨⟨xs, r'⟩, hxs, h⟩ := h
      cases h
      obtain ⟨hxs, hsuffix⟩ := ih.items hs hxs
      exact ⟨loaded_list.mpr hxs, hsuffix⟩

theorem readItems_loaded (ih : ReadsLoaded floatOf n) {s r : Str} {vs : List Json} (hs : Scalars s)
    (h : readItems floatOf (n + 1) s = some (vs, r)) : (∀ v ∈ vs, v.Loaded) ∧ r <:+ s := by
  rw [readItems, Option.bind_eq_bind, Option.bind_eq_some_iff] at h
  obtain ⟨⟨x, r₁⟩, hx, h⟩ := h
  obtain ⟨hx, hsuffix⟩ := ih.value hs hx
  have hblank := (skipBlanks_suffix r₁).trans hsuffix
  dsimp only at h
  split at h
  · rename_i c r₂ hr₂
    rw [hr₂] at hblank
    have htail := (List.suffix_cons c r₂).trans hblank
    split_ifs at h
    · cases h
      exact ⟨List.forall_mem_singleton.mpr hx, htail⟩
    · rw [Option.bind_eq_bind, Option.bind_eq_some_iff] at h
      obtain ⟨⟨xs, r₃⟩, hxs, h⟩ := h
      cases h
      have hrest := (skipBlanks_suffix r₂).trans htail
      obtain ⟨hxs, hsuffix'⟩ := ih.items (hs.suffix hrest) hxs
      exact ⟨List.forall_mem_cons.mpr ⟨hx, hxs⟩, hsuffix'.trans hrest⟩
  · cases h

theorem readObject_loaded (ih : ReadsLoaded floatOf n) {s r : Str} {v : Json} (hs : Scalars s)
    (h : readObject floatOf (n + 1) s = some (v, r)) : v.Loaded ∧ r <:+ s := by
  cases s with
  | nil => cases h
  | cons c t =>
    rw [readObject] at h
    split_ifs at h
    · cases h
      exact ⟨⟨rfl, rfl⟩, List.suffix_cons c _⟩
    · rw [Option.bind_eq_bind, Option.bind_eq_some_iff] at h
      obtain ⟨⟨fs, r'⟩, hfs, h⟩ := h
      cases h
      obtain ⟨hfs, hsuffix⟩ := ih.pairs hs hfs
      exact ⟨⟨foldl_put_decoded (fun f hf => ⟨(hfs f hf).1, (hfs f hf).2.1⟩) rfl,
        foldl_put_distinct (fun f hf => (hfs f hf).2.2) rfl⟩, hsuffix⟩

theorem readPairs_loaded (ih : ReadsLoaded floatOf n) {s r : Str} {fs : Fields} (hs : Scalars s)
    (h : readPairs floatOf (n + 1) s = some (fs, r)) : (∀ f ∈ fs, decodedStr f.1 = true ∧ f.2.Loaded) ∧ r <:+ s := by
  cases s with
  | nil => cases h
  | cons c t =>
    rw [readPairs] at h
    split_ifs at h
    rw [Option.bind_eq_bind, Option.bind_eq_some_iff] at h
    obtain ⟨⟨k, r₁⟩, hk, h⟩ := h
    obtain ⟨hr₁, hk, -⟩ := readChars_decoded (hs.suffix (List.suffix_cons c t)) hk
    have hcolon := (skipBlanks_suffix r₁).trans (hr₁.trans (List.suffix_cons c t))
    dsimp only at h
    split at h
    · rename_i d r₂ hr₂
      rw [hr₂] at hcolon
      have hvalue := (skipBlanks_suffix r₂).trans ((List.suffix_cons d r₂).trans hcolon)
      split_ifs at h
      rw [Option.bind_eq_bind, Option.bind_eq_some_iff] at h
      obtain ⟨⟨v, r₃⟩, hv, h⟩ := h
      obtain ⟨hv, hr₃⟩ := ih.value (hs.suffix hvalue) hv
      have hcomma := (skipBlanks_suffix r₃).trans (hr₃.trans hvalue)
      dsimp only at h
      split at h
      · rename_i e r₄ hr₄
        rw [hr₄] at hcomma
        have htail := (List.suffix_cons e r₄).trans hcomma
        split_ifs at h
        · cases h
          exact ⟨List.forall_mem_singleton.mpr ⟨hk, hv⟩, htail⟩
        · rw [Option.bind_eq_bind, Option.bind_eq_some_iff] at h
          obtain ⟨⟨gs, r₅⟩, hgs, h⟩ := h
          cases h
          have hrest := (skipBlanks_suffix r₄).trans htail
          obtain ⟨hgs, hsuffix⟩ := ih.pairs (hs.suffix hrest) hgs
          exact ⟨List.forall_mem_cons.mpr ⟨⟨hk, hv⟩, hgs⟩, hsuffix.trans hrest⟩
      · cases h
    · cases h

end

theorem readsLoaded : ∀ n, ReadsLoaded floatOf n
  | 0 => ⟨nofun, nofun, nofun, nofun, nofun⟩
  | n + 1 =>
    have ih := readsLoaded n
    ⟨readValue_loaded ih, readArray_loaded ih, readItems_loaded ih, readObject_loaded ih, readPairs_loaded ih⟩

end

theorem loads_sound {floatOf : Str → UInt64} {raw : Bytes} {v : Json} (h : (decodeUtf8 raw >>= loads floatOf) = .ok v) :
    v.Loaded := by
  obtain ⟨s, hs, h⟩ := bind_eq_ok.mp h
  have hscalars : Scalars s := fun c hc =>
    Bool.eq_false_iff.mpr (List.any_eq_false.mp (decodeUtf8_eq_ok.mp hs).1 c hc)
  unfold loads at h
  split at h
  · rename_i w r hread
    split_ifs at h
    · cases h
      exact ((readsLoaded _).value (hscalars.suffix (skipBlanks_suffix s)) hread).1
    · cases h
  · cases h

end ChainBreaker
