import ChainBreaker.Gossip
import ChainBreaker.LoadedJson

/-!
# What a forwarded payload reads as

`json.dumps` writes every NaN alike and the infinities by their names, and
`json.loads` takes the encoding of its bytes from their first ones. What was
dumped from an object is ASCII and read as UTF-8, as the object with its keys
sorted (`loadsBytes_text`).
-/

namespace ChainBreaker

open Fallible

/-! ## Floats with their names -/

/-- The float that is read back: there is one NaN. -/
def namedFloat (bits : UInt64) : UInt64 :=
  if floatFinite bits then bits
  else if bits.toNat % 2 ^ 52 ≠ 0 then nanBits
  else if bits.toNat < 2 ^ 63 then infBits
  else negInfBits

mutual
def Json.named : Json → Json
  | .float bits => .float (namedFloat bits)
  | .list xs => .list (namedList xs)
  | .dict fs => .dict (namedFields fs)
  | v => v
def namedList : List Json → List Json
  | [] => []
  | x :: xs => x.named :: namedList xs
def namedFields : List (Str × Json) → List (Str × Json)
  | [] => []
  | (k, v) :: fs => (k, v.named) :: namedFields fs
end

theorem namedList_eq : ∀ xs, namedList xs = xs.map Json.named := by
  intro xs
  induction xs with
  | nil => rfl
  | cons x xs ih => rw [namedList, ih, List.map_cons]

theorem namedFields_eq : ∀ fs, namedFields fs = fs.map fun f => (f.1, f.2.named) := by
  intro fs
  induction fs with
  | nil => rfl
  | cons f fs ih =>
    obtain ⟨k, v⟩ := f
    rw [namedFields, ih, List.map_cons]

theorem namedFloat_cases (bits : UInt64) : (floatFinite bits = true ∧ namedFloat bits = bits) ∨
    (namedFloat bits = nanBits ∧ ∀ fl, nanText fl bits = ascii "NaN") ∨
    (namedFloat bits = infBits ∧ ∀ fl, nanText fl bits = ascii "Infinity") ∨
    (namedFloat bits = negInfBits ∧ ∀ fl, nanText fl bits = ascii "-Infinity") := by
  unfold namedFloat nanText
  by_cases hfin : floatFinite bits = true
  · exact .inl ⟨hfin, if_pos hfin⟩
  · simp only [if_neg hfin]
    split_ifs
    · exact .inr (.inl ⟨rfl, fun _ => rfl⟩)
    · exact .inr (.inr (.inl ⟨rfl, fun _ => rfl⟩))
    · exact .inr (.inr (.inr ⟨rfl, fun _ => rfl⟩))

theorem namedFloat_idem (bits : UInt64) : namedFloat (namedFloat bits) = namedFloat bits := by
  obtain ⟨-, h⟩ | ⟨h, -⟩ | ⟨h, -⟩ | ⟨h, -⟩ := namedFloat_cases bits
  · rw [h, h]
  · rw [h]
    decide
  · rw [h]
    decide
  · rw [h]
    decide

section
variable {fl : UInt64 → Bytes} {floatOf : Str → UInt64}

theorem nanText_named (bits : UInt64) : nanText fl (namedFloat bits) = nanText fl bits := by
  obtain ⟨-, h⟩ | ⟨h, htext⟩ | ⟨h, htext⟩ | ⟨h, htext⟩ := namedFloat_cases bits
  · rw [h]
  all_goals
    rw [h, htext]
    rfl

theorem named_floats (v : Json) : v.named.Floats fun x => namedFloat x = x := by
  induction v using Json.induct with
  | null => trivial
  | bool b => trivial
  | int n => trivial
  | float x => exact namedFloat_idem x
  | str s => trivial
  | list xs ih =>
    rw [Json.named, namedList_eq, Json.Floats, floatsList_iff, List.forall_mem_map]
    exact ih
  | dict fs ih =>
    rw [Json.named, namedFields_eq, Json.Floats, floatsFields_iff, List.forall_mem_map]
    exact ih

theorem text_named (v : Json) : text (nanText fl) v.named = text (nanText fl) v := by
  induction v using Json.induct with
  | null => rfl
  | bool b => rfl
  | int n => rfl
  | float x => exact nanText_named x
  | str s => rfl
  | list xs ih =>
    rw [Json.named, namedList_eq, text, text, texts_eq, texts_eq, List.map_map]
    congr 3
    exact List.map_congr_left ih
  | dict fs ih =>
    rw [Json.named, namedFields_eq, text, text, fieldTexts_eq, fieldTexts_eq, List.map_map]
    congr 3
    exact List.map_congr_left fun f hf => by rw [Function.comp_apply, fieldText, fieldText, ih f hf]

theorem norm_named (v : Json) : v.norm.named = v.named.norm := by
  induction v using Json.induct with
  | null => rfl
  | bool b => rfl
  | int n => rfl
  | float x => rfl
  | str s => rfl
  | list xs ih =>
    rw [Json.norm, Json.named, Json.named, Json.norm, normList_eq, normList_eq, namedList_eq, namedList_eq, List.map_map,
      List.map_map]
    exact congrArg Json.list (List.map_congr_left ih)
  | dict fs ih =>
    rw [Json.norm, Json.named, Json.named, Json.norm, normFields_eq, normFields_eq, namedFields_eq, namedFields_eq]
    have hsort := Lex.map_sortOn charKey Prod.fst (fun f : Str × Json => (f.1, f.2.named)) (fs.map fun f => (f.1, f.2.norm))
    rw [hsort, List.map_map, List.map_map]
    exact congrArg (fun l => Json.dict (Lex.sortOn charKey Prod.fst l))
      (List.map_congr_left fun f hf => congrArg (Prod.mk f.1) (ih f hf))

/-! ## Dumped text -/

/-- The writer with `allow_nan` is read back, with one NaN. -/
theorem nanText_reread {M : Runtime} (hM : FloatsRead M) :
    FloatsReread M.floatOf (nanText M.floatRepr) fun x => namedFloat x = x := by
  have hread : ∀ x, namedFloat x = x → Leads (asciiText (nanText M.floatRepr x)) ∧
      ReadsAs M.floatOf (asciiText (nanText M.floatRepr x)) (.float x) := by
    intro x hx
    obtain ⟨hfin, -⟩ | ⟨h, htext⟩ | ⟨h, htext⟩ | ⟨h, htext⟩ := namedFloat_cases x
    · have htext : nanText M.floatRepr x = M.floatRepr x := if_pos hfin
      rw [htext]
      exact ⟨hM.finite.reread.leads x hfin, hM.finite.reread.reads x hfin⟩
    · rw [htext, ← hx, h]
      exact ⟨⟨_, _, rfl, by decide, by decide⟩,
        word_reads (fun _ r => readWord_word (str "NaN") (.float nanBits) r) (Nat.zero_lt_succ 2)⟩
    · rw [htext, ← hx, h]
      exact ⟨⟨_, _, rfl, by decide, by decide⟩,
        word_reads (fun _ r => readWord_word (str "Infinity") (.float infBits) r) (Nat.zero_lt_succ 7)⟩
    · rw [htext, ← hx, h]
      exact ⟨⟨_, _, rfl, by decide, by decide⟩,
        word_reads (fun _ r => readWord_word (str "-Infinity") (.float negInfBits) r) (Nat.zero_lt_succ 8)⟩
  exact ⟨fun x hx => (hread x hx).1, fun x hx => (hread x hx).2⟩

theorem nanText_printable {M : Runtime} (hM : FloatsRead M) (x : UInt64) : Printable (nanText M.floatRepr x) := by
  obtain ⟨hfin, -⟩ | ⟨-, htext⟩ | ⟨-, htext⟩ | ⟨-, htext⟩ := namedFloat_cases x
  · have htext : nanText M.floatRepr x = M.floatRepr x := if_pos hfin
    rw [htext]
    exact jsonNumber_printable (hM.text x hfin)
  all_goals
    rw [htext]
    exact printable_of (by decide)

/-- **A dumped object is decoded**, its keys sorted and its floats named. -/
theorem decodePayload_text {M : Runtime} (hM : FloatsRead M) (v : Json) :
    decodePayload M (text (nanText M.floatRepr) v.norm) = .ok v.norm.named.parsed := by
  have hfloats := named_floats v.norm
  have hprintable : Printable (text (nanText M.floatRepr) v.norm.named) :=
    text_printable (floats_imp (fun x _ => nanText_printable hM x) hfloats)
  have hread := loads_escaped (nanText_reread hM) hfloats
  rw [text_named] at hprintable hread
  rw [decodePayload, decodeUtf8_ascii hprintable.ascii, ok_bind, hread]

end

/-! ## Reading in bytes -/

section
variable {floatOf : Str → UInt64}

theorem readWord_value {word s r : Str} {v w : Json} (h : readWord word v s = some (w, r)) : w = v := by
  unfold readWord at h
  split at h
  · exact (congrArg Prod.fst (Option.some.inj h)).symm
  · cases h

theorem readNumber_other {s r : Str} {d : Fields} : readNumber floatOf s ≠ some (.dict d, r) := by
  intro h
  simp only [readNumber, Option.bind_eq_bind, Option.bind_eq_some_iff] at h
  obtain ⟨_, -, h⟩ := h
  split at h <;> cases h

/-- An object starts with its brace, then a quote or the other brace. -/
theorem readValue_dict {n : Nat} {s r : Str} {d : Fields} (h : readValue floatOf n s = some (.dict d, r)) :
    ∃ s', s = 123 :: s' ∧ ∃ a t, skipBlanks s' = a :: t ∧ (a.val = 34 ∨ a.val = 125) := by
  cases n with
  | zero => cases h
  | succ n =>
    cases s with
    | nil => cases h
    | cons a s =>
      rw [readValue] at h
      split_ifs at h with hquote hbrace
      · obtain ⟨_, -, h⟩ := Option.bind_eq_some_iff.mp h
        cases h
      · refine ⟨s, congrArg (· :: s) (Fin.ext hbrace), ?_⟩
        generalize skipBlanks s = u at h ⊢
        cases n with
        | zero => cases h
        | succ n =>
          cases u with
          | nil => cases h
          | cons b t =>
            refine ⟨b, t, rfl, ?_⟩
            rw [readObject] at h
            by_cases hend : b.val = 125
            · exact .inr hend
            · rw [if_neg hend] at h
              obtain ⟨_, hpairs, -⟩ := Option.bind_eq_some_iff.mp h
              by_contra hname
              rw [not_or] at hname
              cases n <;> simp [readPairs, hname.1] at hpairs
      · generalize skipBlanks s = u at h
        cases n with
        | zero => cases h
        | succ n =>
          cases u with
          | nil => cases h
          | cons b t =>
            rw [readArray] at h
            split_ifs at h
            · cases h
            · obtain ⟨_, -, h⟩ := Option.bind_eq_some_iff.mp h
              cases h
      all_goals first
        | cases readWord_value h
        | skip
      split at h
      · rename_i x hnumber
        rw [h] at hnumber
        exact absurd hnumber readNumber_other
      · cases readWord_value h

theorem skipBlanks_cons {s t : Str} {a : CodePoint} (h : skipBlanks s = a :: t) (ha : 0 < a.val ∧ a.val < 128) :
    ∃ x r, s = x :: r ∧ (0 < x.val ∧ x.val < 128) ∧ (x = a ∧ r = t ∨ skipBlanks r = a :: t) := by
  cases s with
  | nil => cases h
  | cons x r =>
    refine ⟨x, r, rfl, ?_⟩
    rw [skipBlanks, List.dropWhile_cons] at h
    split at h
    · rename_i hblank
      simp only [isJsonBlank, Bool.or_eq_true, beq_iff_eq] at hblank
      exact ⟨by omega, .inr h⟩
    · cases h
      exact ⟨ha, .inl ⟨rfl, rfl⟩⟩

theorem readUtf8sPass_of : ∀ {n : Nat} {b : Bytes} {s : Str}, readUtf8s n b = some s → readUtf8sPass n b = some s
  | n, [], s, h => by cases n <;> exact h
  | 0, _ :: _, s, h => nomatch h
  | n + 1, x :: b, s, h => by
    simp only [readUtf8s] at h
    cases hread : readUtf8 (x :: b) with
    | none =>
      rw [hread] at h
      cases h
    | some r =>
      obtain ⟨a, rest⟩ := r
      have hpass : readUtf8Pass (x :: b) = some (a, rest) := by
        unfold readUtf8Pass
        rw [hread]
      rw [hread] at h
      obtain ⟨t, ht, rfl⟩ := Option.map_eq_some_iff.mp h
      simp only [readUtf8sPass, hpass, readUtf8sPass_of ht, Option.map_some]

/-- Text that starts with two ASCII characters is UTF-8. -/
theorem detectEncoding_ascii {x y : UInt8} {b : Bytes} (hsmall : x.toNat < 128) (hx : x ≠ 0) (hy : y ≠ 0) :
    detectEncoding (x :: y :: b) = .utf8 := by
  have hne : ∀ n : UInt8, 128 ≤ n.toNat → (n == x) = false := by
    intro n hn
    rw [beq_eq_false_iff_ne]
    rintro rfl
    omega
  have hzero : ((0 : UInt8) == x) = false := beq_eq_false_iff_ne.mpr (Ne.symm hx)
  unfold detectEncoding
  simp only [List.isPrefixOf, hne 0xFF (by decide), hne 0xFE (by decide), hne 0xEF (by decide), hzero, Bool.false_and,
    Bool.or_self, Bool.false_eq_true, if_false]
  split
  · rename_i heq
    cases heq
    rw [if_neg hx, if_neg hy]
  · rename_i heq
    cases heq
    rw [if_neg hx, if_neg hy]
  · rfl

/-- A payload that is decoded is read alike in bytes, if it is an object. -/
theorem loadsBytes_decoded {M : Runtime} {payload : Bytes} {d : Fields} (h : decodePayload M payload = .ok (.dict d)) :
    loadsBytes M payload = .ok (.dict d) := by
  obtain ⟨s, hs, hloads⟩ := bind_eq_ok.mp h
  have hread : ∃ n r, readValue M.floatOf n (skipBlanks s) = some (.dict d, r) := by
    unfold loads at hloads
    split at hloads
    · rename_i v r hread
      split_ifs at hloads
      · cases hloads
        exact ⟨_, r, hread⟩
      · cases hloads
    · cases hloads
  obtain ⟨n, r, hread⟩ := hread
  obtain ⟨s', hbrace, a, t, hnext, ha⟩ := readValue_dict hread
  have hstart : ∃ x y r, s = x :: y :: r ∧ (0 < x.val ∧ x.val < 128) ∧ 0 < y.val ∧ y.val < 128 := by
    obtain ⟨x, r, rfl, hx, ⟨rfl, rfl⟩ | hr⟩ := skipBlanks_cons hbrace (by decide)
    · obtain ⟨y, r', rfl, hy, -⟩ := skipBlanks_cons hnext (by omega)
      exact ⟨_, _, _, rfl, hx, hy⟩
    · obtain ⟨y, r', rfl, hy, -⟩ := skipBlanks_cons hr (by decide)
      exact ⟨_, _, _, rfl, hx, hy⟩
  obtain ⟨x, y, r', rfl, hx, hy⟩ := hstart
  have hutf8 : detectEncoding payload = .utf8 := by
    have hbyte : ∀ c : CodePoint, c.val < 128 → utf8Char c = [UInt8.ofNat c.val] := fun c hc => by rw [utf8Char, if_pos hc]
    have hval : ∀ c : CodePoint, c.val < 128 → (UInt8.ofNat c.val).toNat = c.val := fun c hc =>
      UInt8.toNat_ofNat_of_lt' (by rw [UInt8.size]; omega)
    rw [(decodeUtf8_eq_ok.mp hs).2, utf8, List.flatMap_cons, List.flatMap_cons, hbyte x hx.2, hbyte y hy.2]
    refine detectEncoding_ascii ?_ ?_ ?_
    · rw [hval x hx.2]
      exact hx.2
    · intro hzero
      have hnat := congrArg UInt8.toNat hzero
      rw [hval x hx.2, UInt8.toNat_zero] at hnat
      omega
    · intro hzero
      have hnat := congrArg UInt8.toNat hzero
      rw [hval y hy.2, UInt8.toNat_zero] at hnat
      omega
  have hpass : readUtf8sPass payload.length payload = some (x :: y :: r') := by
    unfold decodeUtf8 at hs
    split at hs
    · rename_i hread
      cases hs
      exact readUtf8sPass_of hread
    · cases hs
  rw [loadsBytes, hutf8, decodePass, hpass]
  exact hloads

theorem loadsBytes_text {M : Runtime} (hM : FloatsRead M) (d : Fields) :
    loadsBytes M (text (nanText M.floatRepr) (Json.dict d).norm) = .ok (Json.dict d).norm.named.parsed :=
  loadsBytes_decoded (decodePayload_text hM (.dict d))

end

/-! ## Fields that stay -/

/-- Under the key there is this value, and no other. -/
structure Carries (d : Fields) (k : Str) (w : Json) : Prop where
  there : ∃ f ∈ d, f.1 = k
  only : ∀ f ∈ d, f.1 = k → f.2 = w

section
variable {d : Fields} {k k' : Str} {w w' : Json}

theorem Carries.get {key : String} (h : Carries d (str key) w) : Fields.get d key = some w := by
  obtain ⟨⟨f, hf, hk⟩, honly⟩ := h
  cases hget : List.lookup (str key) d with
  | none =>
    have hnot := List.lookup_eq_none_iff.mp hget f hf
    rw [hk] at hnot
    simp at hnot
  | some v =>
    obtain ⟨l, r, rfl, -⟩ := List.lookup_eq_some_iff.mp hget
    exact congrArg some (honly (str key, v) (List.mem_append_right _ List.mem_cons_self) rfl) ▸ hget

theorem mem_put {f : Str × Json} (h : f ∈ Fields.put d k w) : f = (k, w) ∨ (f ∈ d ∧ f.1 ≠ k) := by
  unfold Fields.put at h
  split at h
  · obtain ⟨g, hg, rfl⟩ := List.mem_map.mp h
    split
    · exact .inl rfl
    · rename_i hne
      exact .inr ⟨hg, hne⟩
  · rename_i hnew
    rcases List.mem_append.mp h with hf | hf
    · refine .inr ⟨hf, fun hk => ?_⟩
      exact hnew (List.any_eq_true.mpr ⟨f, hf, decide_eq_true hk⟩)
    · exact .inl (List.mem_singleton.mp hf)

theorem put_mem (d : Fields) (k : Str) (w : Json) : (k, w) ∈ Fields.put d k w := by
  unfold Fields.put
  split
  · rename_i hthere
    obtain ⟨f, hf, hk⟩ := List.any_eq_true.mp hthere
    exact List.mem_map.mpr ⟨f, hf, if_pos (of_decide_eq_true hk)⟩
  · exact List.mem_append_right _ List.mem_cons_self

theorem put_mem_other {f : Str × Json} (hf : f ∈ d) (hne : f.1 ≠ k) : f ∈ Fields.put d k w := by
  unfold Fields.put
  split
  · exact List.mem_map.mpr ⟨f, hf, if_neg hne⟩
  · exact List.mem_append_left _ hf

theorem carries_put (d : Fields) (k : Str) (w : Json) : Carries (Fields.put d k w) k w := by
  refine ⟨⟨_, put_mem d k w, rfl⟩, fun f hf hk => ?_⟩
  rcases mem_put hf with rfl | ⟨-, hne⟩
  · rfl
  · exact absurd hk hne

theorem Carries.put (h : Carries d k w) (hne : k' ≠ k) (w' : Json) : Carries (Fields.put d k' w') k w := by
  obtain ⟨⟨f, hf, hk⟩, honly⟩ := h
  refine ⟨⟨f, put_mem_other hf (hk ▸ hne.symm), hk⟩, fun g hg hgk => ?_⟩
  rcases mem_put hg with rfl | ⟨hgd, -⟩
  · exact absurd hgk hne
  · exact honly g hgd hgk

theorem carries_foldl : ∀ {fs d : Fields}, (∀ f ∈ fs, f.1 = k → f.2 = w) → (Carries d k w ∨ ((∃ f ∈ fs, f.1 = k) ∧ ∀ f ∈ d, f.1 ≠ k)) →
    Carries (fs.foldl (fun d f => Fields.put d f.1 f.2) d) k w
  | [], d, _, h => by
    rcases h with h | ⟨⟨f, hf, -⟩, -⟩
    · exact h
    · cases hf
  | g :: fs, d, honly, h => by
    obtain ⟨hg, hfs⟩ := List.forall_mem_cons.mp honly
    rw [List.foldl_cons]
    apply carries_foldl hfs
    by_cases hk : g.1 = k
    · rw [hk, hg hk]
      exact .inl (carries_put d k w)
    · rcases h with h | ⟨⟨f, hf, hfk⟩, hd⟩
      · exact .inl (h.put hk g.2)
      · rcases List.mem_cons.mp hf with rfl | hf
        · exact absurd hfk hk
        · refine .inr ⟨⟨f, hf, hfk⟩, fun e he => ?_⟩
          rcases mem_put he with rfl | ⟨hed, -⟩
          · exact hk
          · exact hd e hed

end

/-! ## Plain keys -/

/-- Below the surrogates. -/
def PlainStr (s : Str) : Prop := ∀ a ∈ s, a.val < 0xD800

theorem plainStr_ascii {s : Str} (h : asciiStr s = true) : PlainStr s := by
  rw [asciiStr, List.all_eq_true] at h
  intro a ha
  have hval := of_decide_eq_true (h a ha)
  omega

/-- Units that are joined to plain characters are those characters. -/
theorem joinUnits_plain (us : List Nat) : (∀ a ∈ us, a < 0x10000) → PlainStr (joinUnits us) → (joinUnits us).map Fin.val = us := by
  induction us using joinUnits.induct with
  | case1 a b r hpair ih =>
    intro _ hplain
    rw [joinUnits, if_pos hpair] at hplain
    have hval := hplain _ List.mem_cons_self
    simp only [isHigh, isLow, Bool.and_eq_true, decide_eq_true_eq] at hpair
    rw [Fin.val_ofNat, Nat.mod_eq_of_lt (by omega)] at hval
    omega
  | case2 a b r hpair ih =>
    intro hlt hplain
    rw [joinUnits, if_neg hpair] at hplain ⊢
    have ha := hlt a List.mem_cons_self
    rw [List.map_cons, ih (fun x hx => hlt x (.tail _ hx)) (fun x hx => hplain x (.tail _ hx)), Fin.val_ofNat,
      Nat.mod_eq_of_lt (by omega)]
  | case3 a =>
    intro hlt _
    have ha := hlt a List.mem_cons_self
    rw [joinUnits, List.map_cons, Fin.val_ofNat, Nat.mod_eq_of_lt (by omega)]
    rfl
  | case4 => exact fun _ _ => rfl

theorem units_plain : ∀ {s : Str}, (∀ a ∈ s.flatMap units, a < 0xD800) → s.flatMap units = s.map Fin.val
  | [], _ => rfl
  | a :: s, h => by
    rw [List.flatMap_cons, List.forall_mem_append] at h
    have hone : units a = [a.val] := by
      by_cases ha : a.val < 0x10000
      · exact if_pos ha
      · have hpair : units a = [0xD800 + (a.val - 0x10000) / 1024, 0xDC00 + (a.val - 0x10000) % 1024] := if_neg ha
        have hfirst := h.1 _ (hpair ▸ List.mem_cons_self)
        omega
    rw [List.flatMap_cons, List.map_cons, units_plain h.2, hone]
    rfl

/-- Only a plain key is read as one. -/
theorem parsedStr_plain {s k : Str} (hk : PlainStr k) : parsedStr s = k ↔ s = k := by
  constructor
  · rintro rfl
    have hlt : ∀ a ∈ s.flatMap units, a < 0x10000 := fun a ha => by
      obtain ⟨x, -, hx⟩ := List.mem_flatMap.mp ha
      exact units_lt hx
    have hunits : (parsedStr s).map Fin.val = s.flatMap units := joinUnits_plain _ hlt hk
    have hsmall : ∀ a ∈ s.flatMap units, a < 0xD800 := fun a ha => by
      rw [← hunits] at ha
      obtain ⟨x, hx, rfl⟩ := List.mem_map.mp ha
      exact hk x hx
    rw [units_plain hsmall] at hunits
    exact (List.map_injective_iff.mpr Fin.val_injective hunits).symm
  · rintro rfl
    refine joinUnits_units (Scalars.decoded fun a ha => ?_)
    have hval := hk a ha
    rw [isSurrogate, Bool.and_eq_false_iff, decide_eq_false_iff_not]
    omega

/-- A plain key keeps its value in what is read back. -/
theorem Carries.reread {d : Fields} {k : Str} {w : Json} (h : Carries d k w) (hk : PlainStr k) :
    ∃ d', (Json.dict d).norm.named.parsed = .dict d' ∧ Carries d' k w.norm.named.parsed := by
  refine ⟨_, by rw [Json.norm, Json.named, Json.parsed], ?_⟩
  have hmem : ∀ f, f ∈ parsedFields (namedFields (Lex.sortOn charKey Prod.fst (normFields d))) ↔
      ∃ g ∈ d, (parsedStr g.1, g.2.norm.named.parsed) = f := by
    intro f
    rw [parsedFields_eq, namedFields_eq, normFields_eq, List.map_map, List.mem_map]
    simp only [Lex.mem_sortOn, List.mem_map, exists_exists_and_eq_and]
    exact Iff.rfl
  apply carries_foldl
  · intro f hf hfk
    obtain ⟨g, hg, rfl⟩ := (hmem f).mp hf
    rw [h.only g hg ((parsedStr_plain hk).mp hfk)]
  · obtain ⟨g, hg, hgk⟩ := h.there
    exact .inr ⟨⟨_, (hmem _).mpr ⟨g, hg, rfl⟩, (parsedStr_plain hk).mpr hgk⟩, List.forall_mem_nil _⟩

/-! ## Loaded objects -/

theorem named_loaded {v : Json} : v.Loaded → v.named.Loaded := by
  induction v using Json.induct with
  | list xs ih =>
    intro h
    rw [Json.named, namedList_eq, loaded_list, List.forall_mem_map]
    exact fun x hx => ih x hx (loaded_list.mp h x hx)
  | dict fs ih =>
    intro h
    obtain ⟨hkeys, hfs⟩ := loaded_dict.mp h
    rw [Json.named, namedFields_eq, loaded_dict, List.map_map, List.forall_mem_map]
    exact ⟨hkeys, fun f hf => ⟨(hfs f hf).1, ih f hf (hfs f hf).2⟩⟩
  | _ => exact id

theorem norm_loaded {v : Json} (h : v.Loaded) : v.norm.Loaded := ⟨norm_decoded.trans h.1, norm_distinct h.2⟩

/-- What a loaded value is read back as. -/
theorem reread_loaded {v : Json} (h : v.Loaded) : v.norm.named.parsed = v.norm.named :=
  parsed_eq (named_loaded (norm_loaded h)).1 (named_loaded (norm_loaded h)).2

theorem mem_put_other {d : Fields} {k k' : Str} {v w : Json} (hne : k' ≠ k) :
    (k', v) ∈ Fields.put d k w ↔ (k', v) ∈ d := by
  constructor
  · intro h
    rcases mem_put h with heq | ⟨hd, -⟩
    · exact absurd (congrArg Prod.fst heq) hne
    · exact hd
  · exact fun h => put_mem_other h hne

theorem lookup_put_other {d : Fields} {k k' : Str} {w : Json} (hd : (d.map Prod.fst).Nodup)
    (hput : ((Fields.put d k w).map Prod.fst).Nodup) (hne : k' ≠ k) : (Fields.put d k w).lookup k' = d.lookup k' := by
  refine Option.ext fun v => ?_
  rw [lookup_iff_mem hput, lookup_iff_mem hd, mem_put_other hne]

theorem put_loaded {d : Fields} {k : Str} {w : Json} (hd : (Json.dict d).Loaded) (hk : decodedStr k = true) (hw : w.Loaded) :
    (Json.dict (Fields.put d k w)).Loaded := by
  refine loaded_dict.mpr ⟨(distinct_dict.mp (put_distinct hd.2 hw.2)).1, fun f hf => ?_⟩
  rcases mem_put hf with rfl | ⟨hfd, -⟩
  · exact ⟨hk, hw⟩
  · exact (loaded_dict.mp hd).2 f hfd

/-- A loaded object is read back with its values under their keys. -/
theorem dict_reread {d : Fields} (h : (Json.dict d).Loaded) : ∃ d', (Json.dict d).norm.named.parsed = .dict d' ∧
    ∀ k, d'.lookup k = (d.lookup k).map fun v => v.norm.named := by
  refine ⟨_, by rw [reread_loaded h, Json.norm, Json.named], fun k => ?_⟩
  have hd := (loaded_dict.mp h).1
  have hfields : namedFields (Lex.sortOn charKey Prod.fst (normFields d)) =
      Lex.sortOn charKey Prod.fst (d.map fun f => (f.1, f.2.norm.named)) := by
    rw [namedFields_eq, normFields_eq]
    have hsort := Lex.map_sortOn charKey Prod.fst (fun f : Str × Json => (f.1, f.2.named)) (d.map fun f => (f.1, f.2.norm))
    rw [hsort, List.map_map]
    rfl
  rw [hfields]
  refine Option.ext fun v => ?_
  rw [lookup_iff_mem, Lex.mem_sortOn, List.mem_map, Option.map_eq_some_iff]
  · constructor
    · rintro ⟨f, hf, heq⟩
      cases heq
      exact ⟨f.2, (lookup_iff_mem hd).mpr hf, rfl⟩
    · rintro ⟨w, hw, rfl⟩
      exact ⟨(k, w), (lookup_iff_mem hd).mp hw, rfl⟩
  · rw [((Lex.sortOn_perm charKey Prod.fst _).map Prod.fst).nodup_iff, List.map_map]
    exact hd

end ChainBreaker
