import ChainBreaker.JsonText

/-!
# JSON read back as it was written

A value whose floats read back and whose dictionaries name no key twice is read
from its text as it is, its keys sorted (`loads_dumpsText_back`). Canonical JSON
is printable ASCII, and without floats and with ASCII strings it is that text.
-/

namespace ChainBreaker

open Fallible

/-! ## Faithful values -/

section
variable (fl : UInt64 → Bytes) (floatOf : Str → UInt64)

mutual
/-- Every float reads back, and no dictionary has a key twice. -/
def Json.Faithful : Json → Prop
  | .float x => floatFinite x = true ∧ readNumber floatOf (asciiText (fl x)) = some (.float x, [])
  | .list xs => FaithfulList xs
  | .dict fs => (fs.map Prod.fst).Nodup ∧ FaithfulFields fs
  | _ => True
def FaithfulList : List Json → Prop
  | [] => True
  | x :: xs => x.Faithful ∧ FaithfulList xs
def FaithfulFields : List (Str × Json) → Prop
  | [] => True
  | (_, v) :: fs => v.Faithful ∧ FaithfulFields fs
end

end

section
variable {fl : UInt64 → Bytes} {floatOf : Str → UInt64}

theorem faithfulList_iff : ∀ {xs}, FaithfulList fl floatOf xs ↔ ∀ x ∈ xs, x.Faithful fl floatOf := by
  intro xs
  induction xs with
  | nil => simp [FaithfulList]
  | cons x xs ih => simp [FaithfulList, ih]

theorem faithfulFields_iff : ∀ {fs}, FaithfulFields fl floatOf fs ↔ ∀ f ∈ fs, f.2.Faithful fl floatOf := by
  intro fs
  induction fs with
  | nil => simp [FaithfulFields]
  | cons f fs ih =>
    obtain ⟨k, v⟩ := f
    simp [FaithfulFields, ih]

theorem norm_faithful {v : Json} : v.Faithful fl floatOf → v.norm.Faithful fl floatOf := by
  induction v using Json.induct with
  | null => exact id
  | bool b => exact id
  | int n => exact id
  | float x => exact id
  | str s => exact id
  | list xs ih =>
    simp only [Json.norm, normList_eq, Json.Faithful, faithfulList_iff]
    intro h y hy
    obtain ⟨x, hx, rfl⟩ := List.mem_map.mp hy
    exact ih x hx (h x hx)
  | dict fs ih =>
    simp only [Json.norm, normFields_eq, Json.Faithful, faithfulFields_iff]
    rintro ⟨hkeys, h⟩
    constructor
    · rw [((Lex.sortOn_perm _ _ _).map Prod.fst).nodup_iff, List.map_map]
      exact hkeys
    · intro g hg
      obtain ⟨f, hf, rfl⟩ := List.mem_map.mp (Lex.mem_sortOn.mp hg)
      exact ih f hf (h f hf)

theorem lookup_iff_mem {β : Type} {l : List (Str × β)} (h : (l.map Prod.fst).Nodup) {id : Str} {k : β} :
    l.lookup id = some k ↔ (id, k) ∈ l := by
  induction l with
  | nil => simp
  | cons f l ih =>
    obtain ⟨hf, hl⟩ := List.nodup_cons.mp h
    rw [List.lookup_cons, List.mem_cons]
    by_cases hid : id = f.1
    · subst hid
      have hnot : ∀ j, (f.1, j) ∉ l := fun j hj => hf (List.mem_map.mpr ⟨_, hj, rfl⟩)
      simp [Prod.ext_iff, hnot, eq_comm]
    · have hne : (id == f.1) = false := by simpa using hid
      rw [hne, ih hl]
      simp [Prod.ext_iff, hid]

/-- Distinct keys are put one after the other. -/
theorem foldl_put : ∀ {fs d : Fields}, ((d ++ fs).map Prod.fst).Nodup →
    fs.foldl (fun d f => Fields.put d f.1 f.2) d = d ++ fs
  | [], d, _ => (List.append_nil d).symm
  | (k, v) :: fs, d, h => by
    have hnew : (d.any (·.1 = k)) = false := by
      rw [List.any_eq_false]
      intro f hf heq
      rw [List.map_append, List.map_cons] at h
      exact (List.nodup_append.mp h).2.2 _ (List.mem_map_of_mem hf) _ (.head _) (of_decide_eq_true heq)
    rw [List.foldl_cons, Fields.put, hnew, if_neg Bool.false_ne_true, foldl_put (by rwa [List.append_assoc]),
      List.append_assoc]
    rfl

theorem reread_eq (hfl : FloatText fl) {v : Json} : v.Faithful fl floatOf → v.reread floatOf fl = v := by
  induction v using Json.induct with
  | null => exact fun _ => rfl
  | bool b => exact fun _ => rfl
  | int n => exact fun _ => rfl
  | str s => exact fun _ => rfl
  | float x =>
    rintro ⟨hfin, hback⟩
    have hraw : rawFloat fl x = asciiText (fl x) := if_pos hfin
    have hpos := jsonNumber_pos (hfl x hfin)
    have hread := readValue_numeral (n := 3 * (asciiText (fl x)).length) (hfl x hfin) (by omega) []
      (by rw [List.append_nil]; exact hback)
    rw [List.append_nil] at hread
    rw [Json.reread, hraw, hread]
    rfl
  | list xs ih =>
    intro h
    rw [Json.Faithful, faithfulList_iff] at h
    rw [Json.reread, rereadList_eq, List.map_congr_left fun x hx => ih x hx (h x hx), List.map_id']
  | dict fs ih =>
    rintro ⟨hkeys, h⟩
    rw [faithfulFields_iff] at h
    have hsame : rereadFields floatOf fl fs = fs := by
      rw [rereadFields_eq, List.map_congr_left fun f hf => by rw [ih f hf (h f hf)], List.map_id']
    rw [Json.reread, hsame, foldl_put (by rwa [List.nil_append])]
    rfl

/-- **Reading back.** -/
theorem loads_dumpsText_back (hfl : FloatText fl) {v : Json} (h : v.Faithful fl floatOf) :
    loads floatOf (dumpsText fl v) = .ok v.norm := by
  rw [dumpsText, loads_rawText hfl, reread_eq hfl (norm_faithful h)]

end

/-! ## Values as messages carry them -/

/-- Printable in `ensure_ascii`, or escaped alike. -/
def asciiStr (s : Str) : Bool := s.all fun c => c.val < 127

mutual
/-- ASCII strings, no floats, and no dictionary with a key twice. -/
def Json.wire : Json → Bool
  | .float _ => false
  | .str s => asciiStr s
  | .list xs => wireList xs
  | .dict fs => decide (fs.map Prod.fst).Nodup && wireFields fs
  | _ => true
def wireList : List Json → Bool
  | [] => true
  | x :: xs => x.wire && wireList xs
def wireFields : List (Str × Json) → Bool
  | [] => true
  | (k, v) :: fs => asciiStr k && v.wire && wireFields fs
end

theorem wireList_iff : ∀ {xs}, wireList xs = true ↔ ∀ x ∈ xs, x.wire = true := by
  intro xs
  induction xs with
  | nil => simp [wireList]
  | cons x xs ih => simp [wireList, ih]

theorem wireFields_iff : ∀ {fs}, wireFields fs = true ↔ ∀ f ∈ fs, asciiStr f.1 = true ∧ f.2.wire = true := by
  intro fs
  induction fs with
  | nil => simp [wireFields]
  | cons f fs ih =>
    obtain ⟨k, v⟩ := f
    simp [wireFields, ih, and_assoc]

theorem wire_dict {fs : Fields} : (Json.dict fs).wire = true ↔
    (fs.map Prod.fst).Nodup ∧ ∀ f ∈ fs, asciiStr f.1 = true ∧ f.2.wire = true := by
  rw [Json.wire, Bool.and_eq_true, decide_eq_true_eq, wireFields_iff]

section
variable {fl : UInt64 → Bytes} {floatOf : Str → UInt64}

theorem wire_faithful {v : Json} : v.wire = true → v.Faithful fl floatOf := by
  induction v using Json.induct with
  | null => exact fun _ => trivial
  | bool b => exact fun _ => trivial
  | int n => exact fun _ => trivial
  | float x => exact fun h => nomatch h
  | str s => exact fun _ => trivial
  | list xs ih =>
    rw [Json.wire, wireList_iff, Json.Faithful, faithfulList_iff]
    exact fun h x hx => ih x hx (h x hx)
  | dict fs ih =>
    rw [wire_dict, Json.Faithful, faithfulFields_iff]
    exact fun h => ⟨h.1, fun f hf => ih f hf (h.2 f hf).2⟩

theorem norm_wire {v : Json} : v.wire = true → v.norm.wire = true := by
  induction v using Json.induct with
  | null => exact id
  | bool b => exact id
  | int n => exact id
  | float x => exact id
  | str s => exact id
  | list xs ih =>
    simp only [Json.norm, normList_eq, Json.wire, wireList_iff]
    intro h y hy
    obtain ⟨x, hx, rfl⟩ := List.mem_map.mp hy
    exact ih x hx (h x hx)
  | dict fs ih =>
    simp only [Json.norm, normFields_eq, wire_dict]
    rintro ⟨hkeys, h⟩
    constructor
    · rw [((Lex.sortOn_perm _ _ _).map Prod.fst).nodup_iff, List.map_map]
      exact hkeys
    · intro g hg
      obtain ⟨f, hf, rfl⟩ := List.mem_map.mp (Lex.mem_sortOn.mp hg)
      exact ⟨(h f hf).1, ih f hf (h f hf).2⟩

theorem asciiText_append (a b : Bytes) : asciiText (a ++ b) = asciiText a ++ asciiText b := List.map_append

theorem asciiText_jsonStr {s : Str} (h : asciiStr s = true) : asciiText (jsonStr s) = rawStr s := by
  have hchars : asciiText (s.flatMap escapeChar) = s.flatMap rawChar := by
    rw [asciiStr, List.all_eq_true] at h
    rw [asciiText, List.map_flatMap]
    refine List.flatMap_congr fun c hc => ?_
    have := of_decide_eq_true (h c hc)
    rw [rawChar, if_neg (by omega), asciiText]
  rw [jsonStr, List.cons_append, asciiText, List.map_cons, ← asciiText, asciiText_append, hchars]
  rfl

/-- A comma between two texts, and after the last of them nothing. -/
theorem asciiText_join (a : Bytes) {bs : List Bytes} (h : bs ≠ []) :
    asciiText (joinComma (a :: bs)) = asciiText a ++ 44 :: asciiText (joinComma bs) := by
  obtain ⟨b, bs, rfl⟩ := List.exists_cons_of_ne_nil h
  rw [joinComma, asciiText_append]
  · rfl
  · simp

theorem asciiText_items : ∀ {xs : List Json}, (∀ x ∈ xs, asciiText (text fl x) = rawText fl x) →
    asciiText (joinComma (texts fl xs)) = rawItems fl xs
  | [], _ => rfl
  | [x], h => h x (.head _)
  | x :: y :: xs, h => by
    have hrest : asciiText (joinComma (texts fl (y :: xs))) = rawItems fl (y :: xs) :=
      asciiText_items fun z hz => h z (.tail _ hz)
    rw [texts, asciiText_join _ (by simp [texts]), h x (.head _), hrest, rawItems_cons x (by simp)]

theorem asciiText_field {k : Str} {v : Json} (hk : asciiStr k = true) (hv : asciiText (text fl v) = rawText fl v) :
    asciiText (jsonStr k ++ 58 :: text fl v) = rawStr k ++ 58 :: rawText fl v := by
  rw [asciiText_append, asciiText_jsonStr hk, asciiText, List.map_cons, ← asciiText, hv]
  rfl

theorem asciiText_fields : ∀ {fs : Fields}, (∀ f ∈ fs, asciiStr f.1 = true ∧ asciiText (text fl f.2) = rawText fl f.2) →
    asciiText (joinComma (fieldTexts fl fs)) = rawFields fl fs
  | [], _ => rfl
  | [(k, v)], h => asciiText_field (h _ (.head _)).1 (h _ (.head _)).2
  | (k, v) :: f :: fs, h => by
    have hrest : asciiText (joinComma (fieldTexts fl (f :: fs))) = rawFields fl (f :: fs) :=
      asciiText_fields fun g hg => h g (.tail _ hg)
    rw [fieldTexts, asciiText_join _ (by simp [fieldTexts]), asciiText_field (h _ (.head _)).1 (h _ (.head _)).2, hrest,
      rawFields_cons k v (by simp), List.append_assoc, List.cons_append]

/-- Escaped or not, the text is the same. -/
theorem asciiText_text {v : Json} : v.wire = true → asciiText (text fl v) = rawText fl v := by
  induction v using Json.induct with
  | null => exact fun _ => rfl
  | bool b => intro _; cases b <;> rfl
  | int n => exact fun _ => rfl
  | float x => exact fun h => nomatch h
  | str s => exact asciiText_jsonStr
  | list xs ih =>
    rw [Json.wire, wireList_iff]
    intro h
    rw [text, asciiText, List.map_cons, ← asciiText, asciiText_append, asciiText_items fun x hx => ih x hx (h x hx)]
    rfl
  | dict fs ih =>
    rw [wire_dict]
    intro h
    rw [text, asciiText, List.map_cons, ← asciiText, asciiText_append,
      asciiText_fields fun f hf => ⟨(h.2 f hf).1, ih f hf (h.2 f hf).2⟩]
    rfl

/-! ## ASCII bytes -/

def AsciiBytes (b : Bytes) : Prop := ∀ x ∈ b, x.toNat < 128

theorem utf8_asciiText {b : Bytes} (h : AsciiBytes b) : utf8 (asciiText b) = b ∧ (asciiText b).any isSurrogate = false := by
  induction b with
  | nil => exact ⟨rfl, rfl⟩
  | cons x b ih =>
    obtain ⟨hback, hplain⟩ := ih fun y hy => h y (.tail _ hy)
    have hx := h x (.head _)
    have hval : (Fin.ofNat 0x110000 x.toNat).val = x.toNat := Nat.mod_eq_of_lt (by omega)
    constructor
    · rw [asciiText, List.map_cons, ← asciiText, utf8, List.flatMap_cons, ← utf8, hback, utf8Char, hval, if_pos hx,
        UInt8.ofNat_toNat]
      rfl
    · rw [asciiText, List.map_cons, ← asciiText, List.any_cons, hplain, isSurrogate, hval, Bool.or_false,
        Bool.and_eq_false_iff]
      exact .inl (decide_eq_false (by omega))

theorem decodeUtf8_ascii {b : Bytes} (h : AsciiBytes b) : decodeUtf8 b = .ok (asciiText b) := by
  obtain ⟨hback, hplain⟩ := utf8_asciiText h
  have hread := decodeUtf8_utf8 hplain
  rwa [hback] at hread

/-- What `ensure_ascii` writes. -/
def Printable (b : Bytes) : Prop := ∀ x ∈ b, x.toNat < 127

theorem printable_of {b : Bytes} (h : b.all (fun x => x.toNat < 127) = true) : Printable b := fun x hx =>
  of_decide_eq_true (List.all_eq_true.mp h x hx)

theorem Printable.ascii {b : Bytes} (h : Printable b) : AsciiBytes b := fun x hx => Nat.lt_succ_of_lt (h x hx)

theorem printable_append {a b : Bytes} : Printable (a ++ b) ↔ Printable a ∧ Printable b := List.forall_mem_append

theorem printable_cons {x : UInt8} {b : Bytes} : Printable (x :: b) ↔ x.toNat < 127 ∧ Printable b := List.forall_mem_cons

theorem printable_nil : Printable [] := List.forall_mem_nil _

theorem printable_hex4 (n : Nat) : Printable (hex4 n) := by
  have hdigit : ∀ k < 16, (UInt8.ofNat (hexDigit k).val).toNat < 127 := by decide
  intro x hx
  obtain ⟨k, hk, rfl⟩ := List.mem_map.mp hx
  simp only [List.mem_cons, List.not_mem_nil, or_false] at hk
  exact hdigit k (by omega)

theorem printable_escapeChar (c : CodePoint) : Printable (escapeChar c) := by
  have hescape : ∀ n, Printable (unicodeEscape n) := fun n =>
    printable_cons.mpr ⟨by decide, printable_cons.mpr ⟨by decide, printable_hex4 n⟩⟩
  have hshort : ∀ x : UInt8, x.toNat < 127 → Printable [92, x] := fun x hx =>
    printable_cons.mpr ⟨by decide, printable_cons.mpr ⟨hx, nofun⟩⟩
  unfold escapeChar
  simp only
  split_ifs
  · exact hshort 34 (by decide)
  · exact hshort 92 (by decide)
  · exact hshort 110 (by decide)
  · exact hshort 114 (by decide)
  · exact hshort 116 (by decide)
  · exact hshort 102 (by decide)
  · exact hshort 98 (by decide)
  · refine printable_cons.mpr ⟨?_, nofun⟩
    rw [UInt8.toNat_ofNat']
    omega
  · exact hescape _
  · exact printable_append.mpr ⟨hescape _, hescape _⟩

theorem printable_jsonStr (s : Str) : Printable (jsonStr s) := by
  rw [jsonStr, List.cons_append]
  refine printable_cons.mpr ⟨by decide, printable_append.mpr ⟨fun x hx => ?_, printable_cons.mpr ⟨by decide, printable_nil⟩⟩⟩
  obtain ⟨c, -, hc⟩ := List.mem_flatMap.mp hx
  exact printable_escapeChar c x hc

theorem printable_intRepr (n : Int) : Printable (intRepr n) := fun b hb => by
  rcases intRepr_char hb with rfl | h
  · decide
  · omega

theorem printable_joinComma : ∀ {ps : List Bytes}, (∀ p ∈ ps, Printable p) → Printable (joinComma ps)
  | [], _ => nofun
  | [p], h => h p (.head _)
  | p :: q :: ps, h => printable_append.mpr ⟨h p (.head _), printable_cons.mpr ⟨by decide,
      @printable_joinComma (q :: ps) fun r hr => h r (.tail _ hr)⟩⟩

mutual
/-- Every float in the value. -/
def Json.Floats (P : UInt64 → Prop) : Json → Prop
  | .float x => P x
  | .list xs => FloatsList P xs
  | .dict fs => FloatsFields P fs
  | _ => True
def FloatsList (P : UInt64 → Prop) : List Json → Prop
  | [] => True
  | x :: xs => x.Floats P ∧ FloatsList P xs
def FloatsFields (P : UInt64 → Prop) : List (Str × Json) → Prop
  | [] => True
  | (_, v) :: fs => v.Floats P ∧ FloatsFields P fs
end

section
variable {P : UInt64 → Prop}

theorem floatsList_iff : ∀ {xs}, FloatsList P xs ↔ ∀ x ∈ xs, x.Floats P := by
  intro xs
  induction xs with
  | nil => simp [FloatsList]
  | cons x xs ih => simp [FloatsList, ih]

theorem floatsFields_iff : ∀ {fs}, FloatsFields P fs ↔ ∀ f ∈ fs, f.2.Floats P := by
  intro fs
  induction fs with
  | nil => simp [FloatsFields]
  | cons f fs ih =>
    obtain ⟨k, v⟩ := f
    simp [FloatsFields, ih]

theorem floats_imp {Q : UInt64 → Prop} (h : ∀ x, P x → Q x) {v : Json} : v.Floats P → v.Floats Q := by
  induction v using Json.induct with
  | null => exact id
  | bool b => exact id
  | int n => exact id
  | float x => exact h x
  | str s => exact id
  | list xs ih =>
    rw [Json.Floats, Json.Floats, floatsList_iff, floatsList_iff]
    exact fun hxs x hx => ih x hx (hxs x hx)
  | dict fs ih =>
    rw [Json.Floats, Json.Floats, floatsFields_iff, floatsFields_iff]
    exact fun hfs f hf => ih f hf (hfs f hf)

theorem floats_of_finite (hP : ∀ x, floatFinite x = true → P x) {v : Json} : v.finite = true → v.Floats P := by
  induction v using Json.induct with
  | null => exact fun _ => trivial
  | bool b => exact fun _ => trivial
  | int n => exact fun _ => trivial
  | float x => exact hP x
  | str s => exact fun _ => trivial
  | list xs ih =>
    rw [Json.finite, finiteList_iff, Json.Floats, floatsList_iff]
    exact fun h x hx => ih x hx (h x hx)
  | dict fs ih =>
    rw [Json.finite, finiteFields_iff, Json.Floats, floatsFields_iff]
    exact fun h f hf => ih f hf (h f hf)

theorem floats_of_wire {v : Json} : v.wire = true → v.Floats P := by
  induction v using Json.induct with
  | null => exact fun _ => trivial
  | bool b => exact fun _ => trivial
  | int n => exact fun _ => trivial
  | float x => exact fun h => nomatch h
  | str s => exact fun _ => trivial
  | list xs ih =>
    rw [Json.wire, wireList_iff, Json.Floats, floatsList_iff]
    exact fun h x hx => ih x hx (h x hx)
  | dict fs ih =>
    rw [wire_dict, Json.Floats, floatsFields_iff]
    exact fun h f hf => ih f hf (h.2 f hf).2

theorem norm_floats {v : Json} : v.Floats P → v.norm.Floats P := by
  induction v using Json.induct with
  | null => exact id
  | bool b => exact id
  | int n => exact id
  | float x => exact id
  | str s => exact id
  | list xs ih =>
    simp only [Json.norm, normList_eq, Json.Floats, floatsList_iff, List.forall_mem_map]
    exact fun h x hx => ih x hx (h x hx)
  | dict fs ih =>
    simp only [Json.norm, normFields_eq, Json.Floats, floatsFields_iff, Lex.mem_sortOn, List.forall_mem_map]
    exact fun h f hf => ih f hf (h f hf)

end

/-- Only floats could be written otherwise. -/
theorem text_printable {v : Json} : v.Floats (fun x => Printable (fl x)) → Printable (text fl v) := by
  induction v using Json.induct with
  | null => exact fun _ => printable_of (by rw [text]; decide)
  | bool b => exact fun _ => printable_of (by cases b <;> (rw [text]; decide))
  | int n => exact fun _ => printable_intRepr n
  | float x => exact id
  | str s => exact fun _ => printable_jsonStr s
  | list xs ih =>
    rw [Json.Floats, floatsList_iff]
    intro h
    rw [text, texts_eq]
    refine printable_cons.mpr ⟨by decide, printable_append.mpr ⟨printable_joinComma fun p hp => ?_,
      printable_cons.mpr ⟨by decide, printable_nil⟩⟩⟩
    obtain ⟨x, hx, rfl⟩ := List.mem_map.mp hp
    exact ih x hx (h x hx)
  | dict fs ih =>
    rw [Json.Floats, floatsFields_iff]
    intro h
    rw [text, fieldTexts_eq]
    refine printable_cons.mpr ⟨by decide, printable_append.mpr ⟨printable_joinComma fun p hp => ?_,
      printable_cons.mpr ⟨by decide, printable_nil⟩⟩⟩
    obtain ⟨f, hf, rfl⟩ := List.mem_map.mp hp
    exact printable_append.mpr ⟨printable_jsonStr f.1, printable_cons.mpr ⟨by decide, ih f hf (h f hf)⟩⟩

/-! ## Payloads -/

mutual
/-- Without floats the writer of floats does not matter. -/
theorem rawText_wire (fl' : UInt64 → Bytes) : ∀ {v : Json}, v.wire = true → rawText fl v = rawText fl' v
  | .null, _ => rfl
  | .bool _, _ => rfl
  | .int _, _ => rfl
  | .float _, h => nomatch h
  | .str _, _ => rfl
  | .list xs, h => by rw [rawText, rawText, rawItems_wire fl' (wireList_iff.mp h)]
  | .dict fs, h => by rw [rawText, rawText, rawFields_wire fl' (wire_dict.mp h).2]
theorem rawItems_wire (fl' : UInt64 → Bytes) : ∀ {xs : List Json}, (∀ x ∈ xs, x.wire = true) → rawItems fl xs = rawItems fl' xs
  | [], _ => rfl
  | [x], h => rawText_wire fl' (h x (.head _))
  | x :: y :: xs, h => by
    rw [rawItems_cons x (by simp), rawItems_cons x (by simp), rawText_wire fl' (h x (.head _)),
      @rawItems_wire fl' (y :: xs) fun z hz => h z (.tail _ hz)]
theorem rawFields_wire (fl' : UInt64 → Bytes) : ∀ {fs : Fields}, (∀ f ∈ fs, asciiStr f.1 = true ∧ f.2.wire = true) →
    rawFields fl fs = rawFields fl' fs
  | [], _ => rfl
  | [(k, v)], h => by rw [rawFields, rawFields, rawText_wire fl' (h _ (.head _)).2]
  | (k, v) :: f :: fs, h => by
    rw [rawFields_cons k v (by simp), rawFields_cons k v (by simp), rawText_wire fl' (h _ (.head _)).2,
      @rawFields_wire fl' (f :: fs) fun g hg => h g (.tail _ hg)]
end

/-- A number for every float. -/
def zeroPointZero : UInt64 → Bytes := fun _ => [48, 46, 48]

theorem zeroPointZero_text : FloatText zeroPointZero := by
  have htext : asciiText [48, 46, 48] = [48, 46, 48] := by decide +kernel
  exact fun _ _ => ⟨[], [48], [46, 48], [], htext, .inl rfl, .inl rfl,
    .inr ⟨[48], by decide, List.forall_mem_singleton.mpr rfl, rfl⟩, .inl rfl⟩

/-- What the text of a value without floats is read back as. -/
theorem loads_text {v : Json} (hv : v.wire = true) : (decodeUtf8 (text fl v.norm) >>= loads floatOf) = .ok v.norm := by
  rw [decodeUtf8_ascii (text_printable (floats_of_wire (norm_wire hv))).ascii, ok_bind, asciiText_text (norm_wire hv),
    rawText_wire zeroPointZero (norm_wire hv), loads_rawText zeroPointZero_text,
    reread_eq zeroPointZero_text (norm_faithful (wire_faithful hv))]

theorem loads_canonicalJson {E : Primitives} {v : Json} {b : Bytes} (h : canonicalJson E v = .ok b) (hv : v.wire = true) :
    (decodeUtf8 b >>= loads floatOf) = .ok v.norm := by
  rw [dumps_eq h, loads_text hv]

end

end ChainBreaker
