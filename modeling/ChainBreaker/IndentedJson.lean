import ChainBreaker.ForwardedJson

/-!
# Indented objects

The index files and the description of a snapshot are objects of strings and
integers, written with an indent of two. `json.loads` gives back what was written
(`loads_indented`), and the order in which keys were put does not show
(`dumpsIndented_put`).
-/

namespace ChainBreaker

open Fallible

section
variable {floatOf : Str → UInt64} {fl : UInt64 → Bytes}

/-! ## Blanks -/

theorem skipBlanks_blank {c : CodePoint} (h : isJsonBlank c = true) (r : Str) : skipBlanks (c :: r) = skipBlanks r := by
  rw [skipBlanks, List.dropWhile_cons, if_pos h]
  rfl

/-- The line break and the indent before a field. -/
theorem skipBlanks_indent (r : Str) : skipBlanks (10 :: 32 :: 32 :: r) = skipBlanks r := by
  rw [skipBlanks_blank (by decide), skipBlanks_blank (by decide), skipBlanks_blank (by decide)]

/-! ## Values on one line -/

/-- Strings and integers. -/
def Json.OneLine : Json → Prop
  | .str _ | .int _ => True
  | _ => False

/-- What stands behind a value on its line. -/
def LineGoesOn (r : Str) : Prop := Follows r ∨ ∃ u, r = 10 :: u

theorem oneLine_leads {v : Json} (h : v.OneLine) : Leads (asciiText (text fl v)) := by
  cases v with
  | int n => exact leads_number (intRepr_jsonNumber n)
  | str s => exact ⟨_, _, rfl, by decide, by decide⟩
  | _ => exact absurd h id

theorem oneLine_read {v : Json} (h : v.OneLine) {n : Nat} {r : Str} (hn : 3 * (asciiText (text fl v)).length ≤ n)
    (hr : LineGoesOn r) : readValue floatOf n (asciiText (text fl v) ++ r) = some (v.parsed, r) := by
  cases v with
  | int k =>
    have hpos := jsonNumber_pos (intRepr_jsonNumber k)
    rw [text] at hn
    refine readValue_numeral (intRepr_jsonNumber k) (by omega) r ?_
    rcases hr with hr | ⟨u, rfl⟩
    · exact readNumber_intRepr k hr
    · exact readNumber_stops k (fun c hc => by cases hc; rfl) rfl
  | str s =>
    have hlen := length_le_jsonStr s
    rw [text] at hn
    obtain ⟨n, rfl⟩ : ∃ m, n = m + 1 := ⟨n - 1, by omega⟩
    rw [text, jsonStr_text, readValue, if_pos (by decide), readChars_jsonStr s _ (by omega)]
    rfl
  | _ => exact absurd h id

theorem oneLine_distinct {v : Json} (h : v.OneLine) : v.distinct = true := by
  cases v with
  | int n => rfl
  | str s => rfl
  | _ => exact absurd h id

/-! ## Fields -/

/-- A field as it is written, with a blank after the colon. -/
def indentedField (fl : UInt64 → Bytes) (f : Str × Json) : Str :=
  asciiText (jsonStr f.1) ++ 58 :: 32 :: asciiText (text fl f.2)

theorem indentedFields_one (f : Str × Json) : asciiText (indentedFields fl [f]) = indentedField fl f := by
  rw [indentedFields, asciiText_append]
  rfl

theorem indentedFields_cons (f g : Str × Json) (fs : Fields) : asciiText (indentedFields fl (f :: g :: fs)) =
    indentedField fl f ++ 44 :: 10 :: 32 :: 32 :: asciiText (indentedFields fl (g :: fs)) := by
  rw [indentedFields, indentedField, asciiText_append, List.append_assoc, List.cons_append, List.cons_append]
  · rw [asciiText, asciiText, List.map_cons, List.map_cons, List.map_append]
    rfl
  · exact List.cons_ne_nil g fs

theorem indentedField_quote (f : Str × Json) (r : Str) : ∃ u, indentedField fl f ++ r = 34 :: u := by
  rw [indentedField, List.append_assoc, jsonStr_text]
  exact ⟨_, rfl⟩

theorem indentedFields_quote {fs : Fields} (h : fs ≠ []) (r : Str) :
    ∃ u, asciiText (indentedFields fl fs) ++ r = 34 :: u := by
  match fs with
  | [f] =>
    rw [indentedFields_one]
    exact indentedField_quote f r
  | f :: g :: fs =>
    rw [indentedFields_cons, List.append_assoc]
    exact indentedField_quote f _

/-- A field, up to what follows its value. -/
theorem indentedField_read {f : Str × Json} (hf : f.2.OneLine) {n : Nat} {r : Str}
    (hn : 3 * (indentedField fl f).length ≤ n) (hr : LineGoesOn r) :
    readPairs floatOf (n + 1) (indentedField fl f ++ r) =
      match skipBlanks r with
      | c :: r =>
        if c.val = 125 then some ([(parsedStr f.1, f.2.parsed)], r)
        else if c.val = 44 then do
          let (fs, r) ← readPairs floatOf n (skipBlanks r)
          some ((parsedStr f.1, f.2.parsed) :: fs, r)
        else none
      | [] => none := by
  simp only [indentedField, List.length_append, List.length_cons] at hn
  rw [indentedField, List.append_assoc, List.cons_append, List.cons_append, jsonStr_text, readPairs, if_neg (by decide),
    readChars_jsonStr f.1 _ (by omega)]
  simp only [Option.bind_eq_bind, Option.bind_some]
  rw [skipBlanks_of_not (by decide)]
  simp only
  rw [if_neg (by decide), skipBlanks_blank (by decide), skipBlanks_leads (oneLine_leads hf),
    oneLine_read hf (by omega) hr]
  rfl

/-- The fields of an object, up to its closing brace on a line of its own. -/
theorem indentedFields_read : ∀ {fs : Fields} {n : Nat} {r : Str}, fs ≠ [] → (∀ f ∈ fs, f.2.OneLine) →
    3 * (asciiText (indentedFields fl fs)).length + 1 ≤ n →
    readPairs floatOf n (asciiText (indentedFields fl fs) ++ 10 :: 125 :: r) = some (parsedFields fs, r)
  | [f], n, r, _, hline, hn => by
    obtain ⟨n, rfl⟩ : ∃ m, n = m + 1 := ⟨n - 1, by omega⟩
    rw [indentedFields_one] at hn ⊢
    rw [indentedField_read (hline f (.head _)) (by omega) (.inr ⟨_, rfl⟩), skipBlanks_blank (by decide),
      skipBlanks_of_not (by decide)]
    rfl
  | f :: g :: fs, n, r, _, hline, hn => by
    obtain ⟨n, rfl⟩ : ∃ m, n = m + 1 := ⟨n - 1, by omega⟩
    rw [indentedFields_cons] at hn ⊢
    simp only [List.length_append, List.length_cons] at hn
    have hrest := @indentedFields_read (g :: fs) n r (by simp) (fun h hh => hline h (.tail _ hh)) (by omega)
    have hblank : skipBlanks (10 :: 32 :: 32 :: (asciiText (indentedFields fl (g :: fs)) ++ 10 :: 125 :: r)) =
        asciiText (indentedFields fl (g :: fs)) ++ 10 :: 125 :: r := by
      obtain ⟨u, hu⟩ := @indentedFields_quote fl _ (List.cons_ne_nil g fs) (10 :: 125 :: r)
      rw [skipBlanks_indent, hu]
      exact skipBlanks_of_not (by decide) _
    simp only [List.append_assoc, List.cons_append]
    rw [indentedField_read (hline f (.head _)) (by omega) (.inl (follows_cons (by decide) _)),
      skipBlanks_of_not (by decide)]
    simp only
    rw [if_neg (by decide), if_pos (by decide), hblank, hrest]
    rfl

/-! ## Objects -/

theorem oneLine_printable {v : Json} (h : v.OneLine) : Printable (text fl v) := by
  cases v with
  | int n => exact printable_intRepr n
  | str s => exact printable_jsonStr s
  | _ => exact absurd h id

theorem indentedFields_printable : ∀ {fs : Fields}, (∀ f ∈ fs, f.2.OneLine) → Printable (indentedFields fl fs)
  | [], _ => fun _ hx => by cases hx
  | [(k, v)], h => printable_append.mpr ⟨printable_jsonStr k, printable_cons.mpr ⟨by decide,
      printable_cons.mpr ⟨by decide, oneLine_printable (h _ (.head _))⟩⟩⟩
  | (k, v) :: g :: fs, h => by
    have hrest : Printable (indentedFields fl (g :: fs)) := indentedFields_printable fun f hf => h f (.tail _ hf)
    rw [indentedFields]
    · refine printable_append.mpr ⟨printable_jsonStr k, ?_⟩
      simp only [printable_cons, printable_append]
      exact ⟨by decide, by decide, oneLine_printable (h _ (.head _)), by decide, by decide, by decide, by decide, hrest⟩
    · exact List.cons_ne_nil g fs

/-- **Reading back.** -/
theorem loads_indented {d : Fields} (h : ∀ f ∈ d, f.2.OneLine) :
    (decodeUtf8 (dumpsIndented fl d) >>= loads floatOf) = .ok (Json.dict (Lex.sortOn charKey Prod.fst d)).parsed := by
  by_cases hd : d = []
  · subst hd
    rfl
  have hline : ∀ f ∈ Lex.sortOn charKey Prod.fst d, f.2.OneLine := fun f hf => h f (Lex.mem_sortOn.mp hf)
  have hne : Lex.sortOn charKey Prod.fst d ≠ [] := fun hnil => hd (by
    have hlen := (Lex.sortOn_perm charKey Prod.fst d).length_eq
    rw [hnil] at hlen
    exact List.length_eq_zero_iff.mp hlen.symm)
  have hdump : dumpsIndented fl d =
      123 :: 10 :: 32 :: 32 :: (indentedFields fl (Lex.sortOn charKey Prod.fst d) ++ [10, 125]) := by
    rw [dumpsIndented, if_neg (by rw [List.isEmpty_iff]; exact hd)]
  generalize Lex.sortOn charKey Prod.fst d = fs at *
  have hprintable : Printable (dumpsIndented fl d) := by
    rw [hdump]
    simp only [printable_append, printable_cons]
    exact ⟨by decide, by decide, by decide, by decide, indentedFields_printable hline, by decide, by decide, nofun⟩
  have htext : asciiText (dumpsIndented fl d) =
      123 :: 10 :: 32 :: 32 :: (asciiText (indentedFields fl fs) ++ [10, 125]) := by
    rw [hdump, asciiText, asciiText, List.map_cons, List.map_cons, List.map_cons, List.map_cons, List.map_append]
    rfl
  rw [decodeUtf8_ascii hprintable.ascii, ok_bind, htext, loads, skipBlanks_of_not (by decide)]
  simp only [List.length_cons, List.length_append, List.length_nil]
  obtain ⟨n, hn⟩ : ∃ n, 3 * ((asciiText (indentedFields fl fs)).length + (0 + 1 + 1) + 1 + 1 + 1 + 1) = n + 2 :=
    ⟨_, rfl⟩
  have hread := @indentedFields_read floatOf fl fs n [] hne hline (by omega)
  obtain ⟨u, hu⟩ := @indentedFields_quote fl _ hne [10, 125]
  rw [hu] at hread
  rw [hn, hu, readValue, if_neg (by decide), if_pos (by decide), skipBlanks_indent, skipBlanks_of_not (by decide),
    readObject, if_neg (by decide), hread, Json.parsed]
  rfl

/-! ## Putting fields -/

theorem put_perm {d d' : Fields} (h : d.Perm d') (k : Str) (v : Json) :
    (Fields.put d k v).Perm (Fields.put d' k v) := by
  have hany : (d.any fun f => f.1 = k) = d'.any fun f => f.1 = k := h.any_eq
  rw [Fields.put, Fields.put, hany]
  split
  · exact h.map _
  · exact h.append_right _

/-- Objects of strings and integers, without a key twice. -/
structure Lines (d : Fields) : Prop where
  keys : (d.map Prod.fst).Nodup
  oneLine : ∀ f ∈ d, f.2.OneLine

theorem lines_nil : Lines [] := ⟨List.nodup_nil, nofun⟩

theorem Lines.put {d : Fields} (hd : Lines d) (k : Str) {v : Json} (hv : v.OneLine) : Lines (Fields.put d k v) := by
  have hdistinct := put_distinct (k := k) (distinct_dict.mpr ⟨hd.keys, fun f hf => oneLine_distinct (hd.oneLine f hf)⟩)
    (oneLine_distinct hv)
  refine ⟨(distinct_dict.mp hdistinct).1, fun f hf => ?_⟩
  rcases mem_put hf with rfl | ⟨hf, -⟩
  · exact hv
  · exact hd.oneLine f hf

theorem Lines.sortOn {d : Fields} (hd : Lines d) : Lines (Lex.sortOn charKey Prod.fst d) :=
  ⟨((Lex.sortOn_perm _ _ d).map Prod.fst).nodup_iff.mpr hd.keys, fun f hf => hd.oneLine f (Lex.mem_sortOn.mp hf)⟩

/-- The order of the fields does not show. -/
theorem Lines.dumps_eq {d d' : Fields} (hd : Lines d) (h : d.Perm d') : dumpsIndented fl d = dumpsIndented fl d' := by
  have hempty : d.isEmpty = d'.isEmpty := by
    rw [Bool.eq_iff_iff, List.isEmpty_iff, List.isEmpty_iff]
    exact ⟨fun hnil => (hnil ▸ h).nil_eq.symm, fun hnil => (hnil ▸ h).eq_nil⟩
  have hsort := @Lex.sortOn_eq_of_perm_on _ _ charKey Fin.val_injective Prod.fst _ _
    (List.inj_on_of_nodup_map hd.keys) h
  rw [dumpsIndented, dumpsIndented, hempty, hsort]

/-- A field put into what was read back is written as one put into the object. -/
theorem Lines.dumps_put {d : Fields} (hd : Lines d) (k : Str) {v : Json} (hv : v.OneLine) :
    dumpsIndented fl (Fields.put (Lex.sortOn charKey Prod.fst d) k v) = dumpsIndented fl (Fields.put d k v) :=
  (hd.sortOn.put k hv).dumps_eq (put_perm (Lex.sortOn_perm _ _ d) k v)

/-- What an index reads back as. -/
theorem Lines.read {d : Fields} (hd : Lines d) (hplain : ∀ f ∈ d, decodedStr f.1 = true ∧ f.2.decoded = true) :
    (decodeUtf8 (dumpsIndented fl d) >>= loads floatOf) = .ok (.dict (Lex.sortOn charKey Prod.fst d)) := by
  rw [loads_indented hd.oneLine, parsed_eq]
  · rw [Json.decoded, decodedFields_iff]
    exact fun f hf => hplain f (Lex.mem_sortOn.mp hf)
  · rw [distinct_dict]
    exact ⟨hd.sortOn.keys, fun f hf => oneLine_distinct (hd.sortOn.oneLine f hf)⟩

end

end ChainBreaker
