import ChainBreaker.Envelope
import ChainBreaker.Lib.Marker

/-!
# Frames out of a byte stream

`EnvelopeFraming` collects what is read from a connection and takes the whole
envelopes off its front. Behind garbage free of the magic it finds every frame
of the stream (`consumeAll_frames`), whatever the cuts.
-/

namespace ChainBreaker

open Fallible Marker

structure SocketLimits where
  maxFrameBufferBytes : Nat := 8388608
  maxMessageSize : Nat := 2097152
  recvBufferSize : Nat := 65536

variable (E : Primitives) (limits : SocketLimits)

/-- The envelope at the front of the buffer, if it is complete, and the buffer
that is left. -/
def tryParseOne (buf : Bytes) : Except PyErr (Option NetworkEnvelope) × Bytes :=
  if buf.length < MAGIC_SIZE then (.ok none, buf)
  else if slice buf 0 MAGIC_SIZE ≠ CBN1_MAGIC then
    match find CBN1_MAGIC buf with
    -- the last bytes may be the beginning of a magic
    | none => (.ok none, buf.drop (buf.length - min buf.length (MAGIC_SIZE - 1)))
    | some magicPos => (.ok none, buf.drop magicPos)
  else if buf.length < MAGIC_SIZE + 2 + NETWORK_ID_LENGTH_SIZE then (.ok none, buf)
  else
    let networkIdLen := byteAt buf (MAGIC_SIZE + 2)
    if networkIdLen = 0 ∨ networkIdLen > 64 then (.ok none, buf.drop 1)
    else
      let headerOverhead := MAGIC_SIZE + 2 + NETWORK_ID_LENGTH_SIZE + networkIdLen + MESSAGE_TYPE_SIZE + FLAGS_SIZE
        + PAYLOAD_LENGTH_SIZE + PAYLOAD_HASH_SIZE
      if buf.length < headerOverhead then (.ok none, buf)
      else
        let payloadLengthOffset := MAGIC_SIZE + 2 + NETWORK_ID_LENGTH_SIZE + networkIdLen + MESSAGE_TYPE_SIZE + FLAGS_SIZE
        let payloadLength := fromBE (slice buf payloadLengthOffset PAYLOAD_LENGTH_SIZE)
        if payloadLength > limits.maxMessageSize then
          (raise .transportLimitError "declared payload length % exceeds max %"
            [.int payloadLength, .int limits.maxMessageSize], buf)
        else
          let totalSize := headerOverhead + payloadLength
          if totalSize > limits.maxMessageSize then
            (raise .transportLimitError "declared message size % exceeds max %"
              [.int totalSize, .int limits.maxMessageSize], buf)
          else if buf.length < totalSize then (.ok none, buf)
          else ((parseEnvelope E (buf.take totalSize)).map some, buf.drop totalSize)

/-- The loop of `consume`, with fuel. -/
def consumeLoop : Nat → Bytes → Except PyErr (List NetworkEnvelope) × Bytes
  | 0, buf => (.ok [], buf)
  | fuel + 1, buf =>
    match tryParseOne E limits buf with
    | (.error e, left) => (.error e, left)
    | (.ok (some envelope), left) =>
      let (more, left) := consumeLoop fuel left
      (more.map (envelope :: ·), left)
    | (.ok none, left) => if left.length < buf.length then consumeLoop fuel left else (.ok [], left)

/-- The envelopes completed by `data`, and the buffer that is left; a round of the
loop that goes on has shortened the buffer. -/
def consume (buf data : Bytes) : Except PyErr (List NetworkEnvelope) × Bytes :=
  if data.isEmpty then (.ok [], buf)
  else if buf.length + data.length > limits.maxFrameBufferBytes then
    (raise .transportLimitError "frame buffer exceeded % bytes" [.int limits.maxFrameBufferBytes], buf)
  else consumeLoop E limits ((buf ++ data).length + 1) (buf ++ data)

/-- Successive `consume` calls until one raises. -/
def consumeAll : Bytes → List Bytes → Except PyErr (List NetworkEnvelope) × Bytes
  | buf, [] => (.ok [], buf)
  | buf, data :: more =>
    match consume E limits buf data with
    | (.error e, left) => (.error e, left)
    | (.ok envelopes, left) =>
      let (later, left) := consumeAll left more
      (later.map (envelopes ++ ·), left)

/-- Every chunk fits into the accumulator when it comes. -/
def BufferWithin : Bytes → List Bytes → Prop
  | _, [] => True
  | buf, data :: more =>
    buf.length + data.length ≤ limits.maxFrameBufferBytes ∧ BufferWithin (consume E limits buf data).2 more

/-! ## One attempt -/

theorem tryParseOne_shrinks (buf : Bytes) : (tryParseOne E limits buf).2.length ≤ buf.length ∧
    ∀ e, (tryParseOne E limits buf).1 = .ok (some e) → (tryParseOne E limits buf).2.length < buf.length := by
  have hdrop : ∀ n, (buf.drop n).length ≤ buf.length := fun n => by
    rw [List.length_drop]
    omega
  have hmagic : MAGIC_SIZE = 4 := rfl
  unfold tryParseOne raise
  by_cases h₁ : buf.length < MAGIC_SIZE
  · rw [if_pos h₁]
    exact ⟨le_rfl, nofun⟩
  rw [if_neg h₁]
  by_cases h₂ : slice buf 0 MAGIC_SIZE ≠ CBN1_MAGIC
  · rw [if_pos h₂]
    cases find CBN1_MAGIC buf with
    | none => exact ⟨hdrop _, nofun⟩
    | some i => exact ⟨hdrop _, nofun⟩
  rw [if_neg h₂]
  dsimp only
  split_ifs
  · exact ⟨le_rfl, nofun⟩
  · exact ⟨hdrop _, nofun⟩
  · exact ⟨le_rfl, nofun⟩
  · exact ⟨le_rfl, nofun⟩
  · exact ⟨le_rfl, nofun⟩
  · exact ⟨le_rfl, nofun⟩
  · refine ⟨hdrop _, fun _ _ => ?_⟩
    rw [List.length_drop]
    omega

/-- Any two amounts of fuel that exceed the buffer do the same. -/
theorem consumeLoop_fuel : ∀ {n m : Nat} {buf : Bytes}, buf.length < n → buf.length < m →
    consumeLoop E limits n buf = consumeLoop E limits m buf
  | n + 1, m + 1, buf, hn, hm => by
    have hshrinks := tryParseOne_shrinks E limits buf
    unfold consumeLoop
    rcases htry : tryParseOne E limits buf with ⟨_ | _ | envelope, left⟩
    · rfl
    · rw [htry] at hshrinks
      by_cases hless : left.length < buf.length
      · simp only [if_pos hless]
        exact consumeLoop_fuel (by omega) (by omega)
      · simp only [if_neg hless]
    · rw [htry] at hshrinks
      have hless := hshrinks.2 envelope rfl
      simp only at hless ⊢
      rw [consumeLoop_fuel (n := n) (m := m) (by omega) (by omega)]

/-! ## A stream of frames behind garbage -/

/-- The frames of the envelopes, one after the other. -/
def frames (es : List NetworkEnvelope) : Bytes := es.flatMap (frame E)

/-- `buf` is read and `rest` is to come: what is left of the garbage, and the
frames of the envelopes not taken yet. -/
structure Unread (buf rest g : Bytes) (es : List NetworkEnvelope) : Prop where
  stream : buf ++ rest = g ++ frames E es
  garbage : Free CBN1_MAGIC g
  valid : ∀ e ∈ es, e.Valid
  fits : ∀ e ∈ es, (frame E e).length ≤ limits.maxMessageSize

/-- Nothing can be taken off the buffer before more is read. -/
structure Waits (buf : Bytes) (es : List NetworkEnvelope) : Prop where
  part : ∀ e more, es = e :: more → buf.length < (frame E e).length
  short : es = [] → buf.length ≤ 3

/-- What happens to garbage: without a frame to come its last three bytes are kept. -/
structure Kept (g : Bytes) (es : List NetworkEnvelope) (g' : Bytes) (es' : List NetworkEnvelope) : Prop where
  tail : es = [] → g' <:+ g ∧ (g' = g ∨ 3 ≤ g'.length)
  gone : es ≠ [] → es' = [] → g' = []
  clean : g = [] → g' = []

theorem Kept.refl (g : Bytes) (es : List NetworkEnvelope) : Kept g es g es :=
  ⟨fun _ => ⟨List.suffix_refl g, Or.inl rfl⟩, fun h h' => absurd h' h, id⟩

theorem Kept.trans {g g₁ g₂ : Bytes} {es es₁ es₂ : List NetworkEnvelope} (h : Kept g es g₁ es₁) (h' : Kept g₁ es₁ g₂ es₂)
    (hes : es = [] → es₁ = []) : Kept g es g₂ es₂ := by
  constructor
  · intro hnil
    obtain ⟨hs, hlen⟩ := h.tail hnil
    obtain ⟨hs', hlen'⟩ := h'.tail (hes hnil)
    refine ⟨hs'.trans hs, ?_⟩
    rcases hlen' with rfl | hlen'
    · exact hlen
    · exact Or.inr hlen'
  · intro hne hnil
    by_cases h₁ : es₁ = []
    · have hg := h.gone hne h₁
      subst hg
      exact h'.clean rfl
    · exact h'.gone h₁ hnil
  · exact fun hg => h'.clean (h.clean hg)

theorem magic_borderless : Borderless CBN1_MAGIC := by decide

theorem magic_prefix_frame (e : NetworkEnvelope) (rest : Bytes) : ∃ r, frame E e ++ rest = CBN1_MAGIC ++ r :=
  ⟨_, by rw [frame, prelude]; simp only [List.append_assoc]; rfl⟩

theorem slice_magic {buf : Bytes} : slice buf 0 MAGIC_SIZE = CBN1_MAGIC ↔ CBN1_MAGIC <+: buf := by
  rw [List.prefix_iff_eq_take, slice, List.drop_zero]
  exact eq_comm

variable {E limits} {buf rest g : Bytes} {es : List NetworkEnvelope}

theorem frames_cons (e : NetworkEnvelope) (es : List NetworkEnvelope) : frames E (e :: es) = frame E e ++ frames E es :=
  List.flatMap_cons

/-- The magic stands in the unread stream only where the garbage ends, with a frame behind it. -/
theorem Unread.magic_place (h : Unread E limits buf rest g es) {i : Nat} (hi : CBN1_MAGIC <+: buf.drop i) :
    es ≠ [] ∧ g.length ≤ i := by
  obtain ⟨t, ht⟩ := hi
  have hin : CBN1_MAGIC <+: (buf ++ rest).drop i := by
    by_cases hlen : i ≤ buf.length
    · rw [List.drop_append_of_le_length hlen, ← ht, List.append_assoc]
      exact List.prefix_append _ _
    · rw [List.drop_eq_nil_of_le (by omega)] at ht
      cases ht
  rw [h.stream] at hin
  cases es with
  | nil =>
    rw [frames, List.flatMap_nil, List.append_nil] at hin
    exact absurd (hin.isInfix.trans (List.drop_suffix i g).isInfix) h.garbage
  | cons e more =>
    obtain ⟨r, hr⟩ := magic_prefix_frame E e (frames E more)
    rw [frames, List.flatMap_cons] at hin
    rw [← frames, hr] at hin
    exact ⟨nofun, place_of_marker magic_borderless h.garbage hin⟩

/-- With a frame to come, the first magic is found where the garbage ends. -/
theorem Unread.magic_at (h : Unread E limits buf rest g es) (hes : es ≠ []) (hlen : g.length + 4 ≤ buf.length) :
    CBN1_MAGIC <+: buf.drop g.length := by
  cases es with
  | nil => exact absurd rfl hes
  | cons e more =>
    obtain ⟨r, hr⟩ := magic_prefix_frame E e (frames E more)
    have hstream := h.stream
    rw [frames, List.flatMap_cons] at hstream
    rw [← frames, hr] at hstream
    have hdrop := congrArg (List.drop g.length) hstream
    rw [List.drop_append_of_le_length (by omega), List.drop_left] at hdrop
    exact List.prefix_of_prefix_length_le ⟨r, hdrop.symm⟩ (List.prefix_append _ _)
      (by rw [List.length_drop]; simp only [CBN1_MAGIC, List.length_cons, List.length_nil]; omega)

/-- Dropping garbage off the front. -/
theorem Unread.drop (h : Unread E limits buf rest g es) {k : Nat} (hk : k ≤ g.length) (hbuf : k ≤ buf.length) :
    Unread E limits (buf.drop k) rest (g.drop k) es where
  stream := by
    rw [← List.drop_append_of_le_length hbuf, h.stream, List.drop_append_of_le_length hk]
  garbage := h.garbage.drop k
  valid := h.valid
  fits := h.fits

/-- What one attempt does on an unread stream. -/
inductive TryOutcome (E : Primitives) (limits : SocketLimits) (buf rest g : Bytes) (es : List NetworkEnvelope) :
    Except PyErr (Option NetworkEnvelope) × Bytes → Prop
  | taken (e : NetworkEnvelope) (more : List NetworkEnvelope) (left : Bytes) (hes : es = e :: more)
      (unread : Unread E limits left rest [] more) (shorter : left.length < buf.length) :
      TryOutcome E limits buf rest g es (.ok (some e), left)
  | dropped (g' left : Bytes) (unread : Unread E limits left rest g' es) (shorter : left.length < buf.length)
      (kept : Kept g es g' es) : TryOutcome E limits buf rest g es (.ok none, left)
  | waits (h : Waits E buf es) : TryOutcome E limits buf rest g es (.ok none, buf)

/-- Without a magic at the front: all but the last three bytes are garbage, or all up to the first magic. -/
theorem Unread.attempt_garbage (h : Unread E limits buf rest g es) (hlen : 4 ≤ buf.length)
    (hfront : ¬ CBN1_MAGIC <+: buf) :
    TryOutcome E limits buf rest g es (match find CBN1_MAGIC buf with
      | none => (.ok none, buf.drop (buf.length - min buf.length (MAGIC_SIZE - 1)))
      | some magicPos => (.ok none, buf.drop magicPos)) := by
  have hstream := congrArg List.length h.stream
  simp only [List.length_append] at hstream
  cases hfind : find CBN1_MAGIC buf with
  | none =>
    have hfree : Free CBN1_MAGIC buf := (find_eq_none (by decide)).mp hfind
    have hkeep : buf.length - min buf.length (MAGIC_SIZE - 1) = buf.length - 3 := by
      simp only [MAGIC_SIZE]; omega
    have hg : buf.length - 3 ≤ g.length := by
      by_cases hes : es = []
      · rw [hes, frames, List.flatMap_nil, List.length_nil] at hstream
        omega
      · by_contra hlt
        have hat := h.magic_at hes (by omega)
        exact hfree (hat.isInfix.trans (List.drop_suffix _ _).isInfix)
    rw [hkeep]
    refine .dropped _ _ (h.drop hg (by omega)) (by rw [List.length_drop]; omega)
      ⟨fun hes => ?_, fun hne hnil => absurd hnil hne, fun hg => by rw [hg, List.drop_nil]⟩
    rw [hes, frames, List.flatMap_nil, List.length_nil] at hstream
    exact ⟨List.drop_suffix _ _, Or.inr (by rw [List.length_drop]; omega)⟩
  | some i =>
    obtain ⟨hat, hfirst⟩ := find_spec hfind
    obtain ⟨hes, hgi⟩ := h.magic_place hat
    have hroom : i + 4 ≤ buf.length := by
      have hle := hat.length_le
      rw [List.length_drop] at hle
      simp only [CBN1_MAGIC, List.length_cons, List.length_nil] at hle
      omega
    have hi : i = g.length := by
      by_contra hne
      exact hfirst g.length (by omega) (h.magic_at hes (by omega))
    have hpos : 0 < i := by
      by_contra hzero
      rw [Nat.eq_zero_of_not_pos hzero, List.drop_zero] at hat
      exact hfront hat
    subst hi
    exact .dropped _ _ (h.drop le_rfl (by omega)) (by rw [List.length_drop]; omega)
      ⟨fun hnil => absurd hnil hes, fun _ hnil => absurd hnil hes, fun hg => by rw [hg, List.drop_nil]⟩

theorem slice_left {a b : Bytes} {i n : Nat} (h : i + n ≤ a.length) : slice (a ++ b) i n = slice a i n := by
  rw [slice, slice, List.drop_append_of_le_length (by omega), List.take_append_of_le_length (by rw [List.length_drop]; omega)]

theorem byteAt_left {a b : Bytes} {i : Nat} (h : i < a.length) : byteAt (a ++ b) i = byteAt a i := by
  rw [byteAt, byteAt, List.getD_eq_getElem?_getD, List.getD_eq_getElem?_getD, List.getElem?_append_left h]

/-- What a buffer that holds a whole header says of the first frame. -/
theorem header_fields {e : NetworkEnvelope} {post : Bytes} (h : buf ++ rest = frame E e ++ post) :
    (7 ≤ buf.length → byteAt buf 6 = 25) ∧
      (70 ≤ buf.length → slice buf 34 4 = (leBytes 4 e.payload.length).reverse) := by
  have hfields := frame_fields E e post
  rw [← h] at hfields
  constructor
  · intro hlen
    rw [← byteAt_left hlen, hfields.networkIdLen]
  · intro hlen
    rw [← slice_left (by omega), hfields.length]

/-- Where a frame stands at the front of the stream, the buffer is a part of it or holds it. -/
theorem tryParseOne_front {e : NetworkEnvelope} {post : Bytes} (hvalid : e.Valid)
    (hfits : (frame E e).length ≤ limits.maxMessageSize) (hstream : buf ++ rest = frame E e ++ post) :
    tryParseOne E limits buf =
      if buf.length < (frame E e).length then (.ok none, buf) else (.ok (some e), buf.drop (frame E e).length) := by
  have hframe := frame_length E e
  obtain ⟨hid, hsize⟩ := header_fields hstream
  have hsix : MAGIC_SIZE + 2 = 6 := rfl
  have hseven : 6 + NETWORK_ID_LENGTH_SIZE = 7 := rfl
  have hheader : 7 + 25 + MESSAGE_TYPE_SIZE + FLAGS_SIZE + PAYLOAD_LENGTH_SIZE + PAYLOAD_HASH_SIZE = 70 := rfl
  have hoffset : 7 + 25 + MESSAGE_TYPE_SIZE + FLAGS_SIZE = 34 := rfl
  have hfour : PAYLOAD_LENGTH_SIZE = 4 := rfl
  have hmagicSize : MAGIC_SIZE = 4 := rfl
  unfold tryParseOne
  by_cases h₄ : buf.length < MAGIC_SIZE
  · rw [if_pos h₄, if_pos (by omega)]
  have hmagic : slice buf 0 MAGIC_SIZE = CBN1_MAGIC := by
    rw [← slice_left (b := rest) (by omega), hstream]
    exact (frame_fields E e post).magic
  rw [if_neg h₄, if_neg (not_not.mpr hmagic), hsix, hseven]
  by_cases h₇ : buf.length < 7
  · rw [if_pos h₇, if_pos (by omega)]
  rw [if_neg h₇, hid (by omega)]
  dsimp only
  rw [if_neg (by decide), hheader, hfour]
  by_cases h₇₀ : buf.length < 70
  · rw [if_pos h₇₀, if_pos (by omega)]
  rw [if_neg h₇₀, hoffset, hsize (by omega), fromBE_length hvalid.size, if_neg (by omega), if_neg (by omega), hframe]
  by_cases hwhole : buf.length < 70 + e.payload.length
  · rw [if_pos hwhole, if_pos hwhole]
  have htake : buf.take (70 + e.payload.length) = frame E e := by
    have := congrArg (List.take (frame E e).length) hstream
    rwa [List.take_left, List.take_append_of_le_length (by omega), hframe] at this
  rw [if_neg hwhole, if_neg hwhole, htake, parseEnvelope_frame E hvalid]
  rfl

/-- The stream behind the first frame, once the buffer holds it. -/
theorem behind_frame {a post : Bytes} (hstream : buf ++ rest = a ++ post) (hlen : a.length ≤ buf.length) :
    buf.drop a.length ++ rest = post := by
  have := congrArg (List.drop a.length) hstream
  rwa [List.drop_left, List.drop_append_of_le_length hlen] at this

/-- With a frame at the front, the buffer is a part of it or holds it. -/
theorem Unread.attempt_frame {e : NetworkEnvelope} {more : List NetworkEnvelope}
    (h : Unread E limits buf rest [] (e :: more)) :
    TryOutcome E limits buf rest [] (e :: more) (tryParseOne E limits buf) := by
  have hstream : buf ++ rest = frame E e ++ frames E more := h.stream
  have hpos := frame_length E e
  rw [tryParseOne_front (h.valid e (.head _)) (h.fits e (.head _)) hstream]
  by_cases hpart : buf.length < (frame E e).length
  · rw [if_pos hpart]
    exact .waits ⟨fun e' more' heq => by cases heq; exact hpart, nofun⟩
  · rw [if_neg hpart]
    exact .taken e more _ rfl ⟨behind_frame hstream (by omega), free_nil (by decide),
      fun e he => h.valid e (.tail _ he), fun e he => h.fits e (.tail _ he)⟩ (by rw [List.length_drop]; omega)

theorem Unread.attempt (h : Unread E limits buf rest g es) :
    TryOutcome E limits buf rest g es (tryParseOne E limits buf) := by
  have hfour : MAGIC_SIZE = 4 := rfl
  by_cases hlen : buf.length < MAGIC_SIZE
  · have htry : tryParseOne E limits buf = (.ok none, buf) := if_pos hlen
    rw [htry]
    exact .waits ⟨fun e _ _ => by rw [frame_length]; omega, fun _ => by omega⟩
  by_cases hmagic : slice buf 0 MAGIC_SIZE = CBN1_MAGIC
  · obtain ⟨hes, hg⟩ := h.magic_place (i := 0) (slice_magic.mp hmagic)
    cases es with
    | nil => exact absurd rfl hes
    | cons e more =>
      obtain rfl := List.eq_nil_of_length_eq_zero (Nat.le_zero.mp hg)
      exact h.attempt_frame
  · have hgarbage := h.attempt_garbage (by omega) (fun hp => hmagic (slice_magic.mpr hp))
    unfold tryParseOne
    rwa [if_neg hlen, if_pos hmagic]

/-- What a run of the loop has taken, and where it stopped. -/
structure Consumed (E : Primitives) (limits : SocketLimits) (rest g : Bytes) (es out : List NetworkEnvelope)
    (left g' : Bytes) (es' : List NetworkEnvelope) : Prop where
  split : es = out ++ es'
  unread : Unread E limits left rest g' es'
  waits : Waits E left es'
  kept : Kept g es g' es'

theorem consumeLoop_frames : ∀ {n : Nat} {buf g : Bytes} {es : List NetworkEnvelope}, Unread E limits buf rest g es →
    buf.length < n → ∃ out left g' es', consumeLoop E limits n buf = (.ok out, left) ∧
      Consumed E limits rest g es out left g' es'
  | n + 1, buf, g, es, h, hn => by
    have hattempt := h.attempt
    unfold consumeLoop
    generalize tryParseOne E limits buf = r at hattempt
    cases hattempt with
    | taken e more left hes unread shorter =>
      obtain ⟨out, left', g', es', hrun, hc⟩ := consumeLoop_frames unread (n := n) (by omega)
      subst hes
      refine ⟨e :: out, left', g', es', by simp only [hrun]; rfl, ?_⟩
      exact ⟨by rw [hc.split]; rfl, hc.unread, hc.waits, nofun, fun _ _ => hc.kept.clean rfl,
        fun _ => hc.kept.clean rfl⟩
    | dropped g₁ left unread shorter kept =>
      obtain ⟨out, left', g', es', hrun, hc⟩ := consumeLoop_frames unread (n := n) (by omega)
      refine ⟨out, left', g', es', by simp only [if_pos shorter, hrun], hc.split, hc.unread, hc.waits, ?_⟩
      exact kept.trans hc.kept id
    | waits hw => exact ⟨[], buf, g, es, by simp only [Nat.lt_irrefl, if_false], rfl, h, hw, Kept.refl g es⟩

theorem Unread.consume {data : Bytes} (h : Unread E limits buf (data ++ rest) g es) (hdata : data ≠ [])
    (hroom : buf.length + data.length ≤ limits.maxFrameBufferBytes) : ∃ out left g' es',
      consume E limits buf data = (.ok out, left) ∧ Consumed E limits rest g es out left g' es' := by
  have hread : Unread E limits (buf ++ data) rest g es :=
    ⟨by rw [List.append_assoc, h.stream], h.garbage, h.valid, h.fits⟩
  have hnonempty : ¬ data.isEmpty = true := by simpa using hdata
  rw [ChainBreaker.consume, if_neg hnonempty, if_neg (by omega)]
  exact consumeLoop_frames hread (Nat.lt_succ_self _)

theorem Waits.last (hw : Waits E buf es) (h : Unread E limits buf [] g es) : es = [] ∧ buf = g ∧ buf.length ≤ 3 := by
  have hstream := h.stream
  rw [List.append_nil] at hstream
  cases es with
  | nil =>
    rw [frames, List.flatMap_nil, List.append_nil] at hstream
    exact ⟨rfl, hstream, hw.short rfl⟩
  | cons e more =>
    have hpart := hw.part e more rfl
    rw [frames, List.flatMap_cons] at hstream
    have hlen := congrArg List.length hstream
    simp only [List.length_append] at hlen
    omega

/-- Read to its end, the stream gives its envelopes, whatever the cuts. -/
theorem consumeAll_frames : ∀ {chunks : List Bytes} {buf g : Bytes} {es : List NetworkEnvelope},
    Unread E limits buf chunks.flatten g es → Waits E buf es → (∀ data ∈ chunks, data ≠ []) →
    BufferWithin E limits buf chunks →
    ∃ left, consumeAll E limits buf chunks = (.ok es, left) ∧ Kept g es left [] ∧ left.length ≤ 3
  | [], buf, g, es, h, hw, _, _ => by
    obtain ⟨rfl, rfl, hlen⟩ := hw.last h
    exact ⟨buf, rfl, Kept.refl buf [], hlen⟩
  | data :: chunks, buf, g, es, h, _, hne, hroom => by
    rw [List.flatten_cons] at h
    obtain ⟨out, left, g', es', hrun, hc⟩ := h.consume (hne data (.head _)) hroom.1
    have hmore := hroom.2
    rw [hrun] at hmore
    obtain ⟨left', hlater, hkept, hlen⟩ :=
      consumeAll_frames hc.unread hc.waits (fun d hd => hne d (.tail _ hd)) hmore
    refine ⟨left', ?_, hc.kept.trans hkept fun hnil => ?_, hlen⟩
    · simp only [consumeAll, hrun, hlater, hc.split]
      rfl
    · exact (List.append_eq_nil_iff.mp (hc.split.symm.trans hnil)).2

/-- The bytes of garbage that may be the beginning of a magic: at most three, the last ones. -/
def possibleMagic (g : Bytes) : Bytes := g.drop (g.length - min g.length (MAGIC_SIZE - 1))

theorem Kept.last {left : Bytes} (h : Kept g es left []) (hlen : left.length ≤ 3) :
    left = if es = [] then possibleMagic g else [] := by
  by_cases hes : es = []
  · rw [if_pos hes]
    obtain ⟨hs, hkept⟩ := h.tail hes
    have hmin : min g.length (MAGIC_SIZE - 1) = left.length := by
      have hle := hs.length_le
      simp only [MAGIC_SIZE]
      rcases hkept with rfl | hthree <;> omega
    rw [possibleMagic, hmin]
    exact List.suffix_iff_eq_drop.mp hs
  · rw [if_neg hes]
    exact h.gone hes rfl

/-- The serialized envelopes of a list. -/
def serializeAll (E : Primitives) (es : List NetworkEnvelope) : Except PyErr (List Bytes) :=
  collect (fun e => serializeEnvelope E e.messageType e.flags e.payload) es

theorem serializeAll_ok {raws : List Bytes} : serializeAll E es = .ok raws ↔
    (∀ e ∈ es, e.Valid) ∧ raws = es.map (frame E) := by
  rw [serializeAll, collect_eq_ok]
  induction es generalizing raws with
  | nil => simp
  | cons e es ih =>
    rw [List.forall₂_cons_left_iff]
    constructor
    · rintro ⟨raw, raws', hraw, hmore, rfl⟩
      obtain ⟨hvalid, rfl⟩ := (serializeEnvelope_eq_ok E).mp hraw
      obtain ⟨hvalids, rfl⟩ := ih.mp hmore
      exact ⟨fun x hx => (List.mem_cons.mp hx).elim (fun heq => heq ▸ hvalid) (hvalids x), rfl⟩
    · rintro ⟨hvalid, rfl⟩
      exact ⟨_, _, (serializeEnvelope_eq_ok E).mpr ⟨hvalid e (.head _), rfl⟩,
        ih.mpr ⟨fun x hx => hvalid x (.tail _ hx), rfl⟩, rfl⟩

theorem frames_eq_flatten (E : Primitives) (es : List NetworkEnvelope) : frames E es = (es.map (frame E)).flatten :=
  List.flatMap_def

/-! ## The bytes an envelope takes -/

theorem parseEnvelope_length {E : Primitives} {data : Bytes} {e : NetworkEnvelope} (h : parseEnvelope E data = .ok e) :
    (frame E e).length = data.length := by
  rw [← (parseEnvelope_ok E h).2]

theorem cut_bytes {E : Primitives} {buf left : Bytes} {e : NetworkEnvelope} {size : Nat}
    (h : ((parseEnvelope E (buf.take size)).map some, buf.drop size) = (.ok (some e), left)) (hsize : size ≤ buf.length) :
    (frame E e).length = size ∧ left.length = buf.length - size := by
  obtain ⟨hparse, rfl⟩ := Prod.mk.inj h
  cases hframe : parseEnvelope E (buf.take size) with
  | error err =>
    rw [hframe] at hparse
    cases hparse
  | ok e' =>
    rw [hframe] at hparse
    cases hparse
    rw [parseEnvelope_length hframe, List.length_take, List.length_drop]
    omega

theorem tryParseOne_bytes {E : Primitives} {limits : SocketLimits} {buf left : Bytes} {e : NetworkEnvelope}
    (h : tryParseOne E limits buf = (.ok (some e), left)) :
    (frame E e).length + left.length = buf.length ∧ (frame E e).length ≤ limits.maxMessageSize := by
  unfold tryParseOne raise at h
  by_cases h₁ : buf.length < MAGIC_SIZE
  · rw [if_pos h₁] at h
    cases h
  rw [if_neg h₁] at h
  by_cases h₂ : slice buf 0 MAGIC_SIZE ≠ CBN1_MAGIC
  · rw [if_pos h₂] at h
    cases hfind : find CBN1_MAGIC buf with
    | none => rw [hfind] at h; cases h
    | some i => rw [hfind] at h; cases h
  rw [if_neg h₂] at h
  dsimp only at h
  split_ifs at h with h₃ h₄ h₅ h₆ h₇ h₈
  · cases h
  · cases h
  · cases h
  · cases h
  · cases h
  · cases h
  · obtain ⟨hframe, hleft⟩ := cut_bytes h (Nat.not_lt.mp h₈)
    omega

/-- The envelopes of a run were in the buffer, one behind the other. -/
theorem consumeLoop_bytes {E : Primitives} {limits : SocketLimits} : ∀ {n : Nat} {buf left : Bytes}
    {r : Except PyErr (List NetworkEnvelope)}, consumeLoop E limits n buf = (r, left) → left.length ≤ buf.length ∧
      ∀ out, r = .ok out → (frames E out).length + left.length ≤ buf.length ∧
        ∀ e ∈ out, (frame E e).length ≤ limits.maxMessageSize
  | 0, buf, left, r, h => by
    cases h
    exact ⟨le_rfl, fun out hout => by cases hout; exact ⟨by simp [frames], nofun⟩⟩
  | n + 1, buf, left, r, h => by
    have hshrinks := tryParseOne_shrinks E limits buf
    unfold consumeLoop at h
    rcases htry : tryParseOne E limits buf with ⟨err | _ | envelope, left₁⟩
    · rw [htry] at h hshrinks
      cases h
      exact ⟨hshrinks.1, nofun⟩
    · rw [htry] at h hshrinks
      simp only at h hshrinks
      by_cases hless : left₁.length < buf.length
      · rw [if_pos hless] at h
        obtain ⟨hle, hout⟩ := consumeLoop_bytes h
        exact ⟨by omega, fun out ho => ⟨by have := (hout out ho).1; omega, (hout out ho).2⟩⟩
      · rw [if_neg hless] at h
        cases h
        exact ⟨hshrinks.1, fun out ho => by cases ho; exact ⟨by simpa [frames] using hshrinks.1, nofun⟩⟩
    · obtain ⟨hbytes, hfits⟩ := tryParseOne_bytes htry
      rw [htry] at h
      rcases hmore : consumeLoop E limits n left₁ with ⟨r', left'⟩
      simp only [hmore] at h
      obtain ⟨hr, rfl⟩ := Prod.mk.inj h
      obtain ⟨hle, hout⟩ := consumeLoop_bytes hmore
      refine ⟨by omega, fun out ho => ?_⟩
      cases r' with
      | error err => rw [← hr] at ho; cases ho
      | ok out' =>
        rw [← hr] at ho
        cases ho
        obtain ⟨hsum, hall⟩ := hout out' rfl
        rw [frames, List.flatMap_cons, List.length_append, ← frames]
        exact ⟨by omega, fun e he => (List.mem_cons.mp he).elim (fun heq => heq ▸ hfits) (hall e)⟩

theorem consume_bytes {E : Primitives} {limits : SocketLimits} {buf data left : Bytes}
    {r : Except PyErr (List NetworkEnvelope)} (h : consume E limits buf data = (r, left)) :
    left.length ≤ buf.length + data.length ∧ ∀ out, r = .ok out →
      (frames E out).length + left.length ≤ buf.length + data.length ∧
        ∀ e ∈ out, (frame E e).length ≤ limits.maxMessageSize := by
  unfold consume raise at h
  split_ifs at h with h₁ h₂
  · cases h
    exact ⟨by omega, fun out ho => by cases ho; exact ⟨by simp [frames], nofun⟩⟩
  · cases h
    exact ⟨by omega, nofun⟩
  · rw [← List.length_append]
    exact consumeLoop_bytes h

theorem bufferWithin_of_total {E : Primitives} {limits : SocketLimits} : ∀ {chunks : List Bytes} {buf : Bytes},
    buf.length + chunks.flatten.length ≤ limits.maxFrameBufferBytes → BufferWithin E limits buf chunks
  | [], _, _ => trivial
  | data :: chunks, buf, h => by
    rw [List.flatten_cons, List.length_append] at h
    rcases hrun : consume E limits buf data with ⟨r, left⟩
    have hle := (consume_bytes hrun).1
    refine ⟨by omega, ?_⟩
    rw [hrun]
    exact bufferWithin_of_total (by simp only; omega)

/-! ## Whole streams -/

/-- Every envelope written behind garbage is delivered, in order, for every cut of
the stream; with no envelope the end of the garbage stays in the buffer. -/
theorem stream_reassembled {E : Primitives} {limits : SocketLimits} {garbage : Bytes} {es : List NetworkEnvelope}
    {raws chunks : List Bytes} (hgarbage : Free CBN1_MAGIC garbage) (hraws : serializeAll E es = .ok raws)
    (hchunks : ∀ data ∈ chunks, data ≠ []) (hstream : chunks.flatten = garbage ++ raws.flatten)
    (hframes : ∀ raw ∈ raws, raw.length ≤ limits.maxMessageSize) (hbuffer : BufferWithin E limits [] chunks) :
    consumeAll E limits [] chunks = (.ok es, if es = [] then possibleMagic garbage else []) := by
  obtain ⟨hvalid, rfl⟩ := serializeAll_ok.mp hraws
  have hunread : Unread E limits [] chunks.flatten garbage es :=
    ⟨by rw [List.nil_append, hstream, frames_eq_flatten], hgarbage, hvalid,
      fun e he => hframes _ (List.mem_map_of_mem he)⟩
  have hwaits : Waits E [] es :=
    ⟨fun e _ _ => by rw [frame_length, List.length_nil]; omega, fun _ => Nat.zero_le _⟩
  obtain ⟨left, hrun, hkept, hlen⟩ := consumeAll_frames hunread hwaits hchunks hbuffer
  rw [hrun, hkept.last hlen]

/-- The frame of a ping without payload. -/
def pingFrame : Bytes := frame (recorded []) ⟨3, 0, []⟩

theorem pingFrame_length : pingFrame.length = 70 := by
  rw [pingFrame, frame_length]
  rfl

theorem ping_valid : NetworkEnvelope.Valid ⟨3, 0, []⟩ := ⟨by decide, by decide, by decide⟩

/-- One stray byte in front, a cut in the magic and one in the network id. -/
theorem stream_reassembled_ping :
    consumeAll (recorded []) {} [] [0x43 :: pingFrame.take 2, (pingFrame.drop 2).take 30, pingFrame.drop 32]
      = (.ok [⟨3, 0, []⟩], []) := by
  have hlen := pingFrame_length
  have hraws : serializeAll (recorded []) [⟨3, 0, []⟩] = .ok [pingFrame] :=
    serializeAll_ok.mpr ⟨fun e he => List.mem_singleton.mp he ▸ ping_valid, rfl⟩
  have hjoin : pingFrame.take 2 ++ ((pingFrame.drop 2).take 30 ++ pingFrame.drop 32) = pingFrame := by
    have hcut : pingFrame.drop 32 = (pingFrame.drop 2).drop 30 := by rw [List.drop_drop]
    rw [hcut, List.take_append_drop, List.take_append_drop]
  have hflat : [0x43 :: pingFrame.take 2, (pingFrame.drop 2).take 30, pingFrame.drop 32].flatten =
      [0x43] ++ [pingFrame].flatten := by
    simpa using hjoin
  have hne : ∀ data ∈ [0x43 :: pingFrame.take 2, (pingFrame.drop 2).take 30, pingFrame.drop 32], data ≠ [] := by
    intro data hd
    apply List.ne_nil_of_length_pos
    simp only [List.mem_cons, List.not_mem_nil, or_false] at hd
    rcases hd with rfl | rfl | rfl
    · exact Nat.succ_pos _
    · rw [List.length_take, List.length_drop, hlen]
      decide
    · rw [List.length_drop, hlen]
      decide
  refine stream_reassembled ((find_eq_none (by decide)).mp (by decide)) hraws hne hflat (fun raw hraw => ?_)
    (bufferWithin_of_total ?_)
  · rw [List.mem_singleton.mp hraw, hlen]
    decide
  · rw [hflat]
    simp [hlen]

/-- Without an envelope in the stream, garbage is not all dropped. -/
theorem garbage_stays : ¬ ∀ (E : Primitives) (limits : SocketLimits) (garbage : Bytes) (es : List NetworkEnvelope)
    (raws chunks : List Bytes), Free CBN1_MAGIC garbage → serializeAll E es = .ok raws → (∀ data ∈ chunks, data ≠ []) →
    chunks.flatten = garbage ++ raws.flatten → (∀ raw ∈ raws, raw.length ≤ limits.maxMessageSize) →
    BufferWithin E limits [] chunks → consumeAll E limits [] chunks = (.ok es, []) := by
  intro h
  have hrun := h (recorded []) {} [0] [] [] [[0]] ((find_eq_none (by decide)).mp (by decide)) rfl (by decide) rfl nofun
    ⟨by decide, trivial⟩
  have hleft : (consumeAll (recorded []) {} [] [[0]]).2 = [0] := rfl
  rw [hrun] at hleft
  cases hleft

end ChainBreaker
