import ChainBreaker.Framing

/-!
# Frames before a rejected one

A frame that `consume` rejects ends the stream with an exception, and with it are
lost the envelopes that the same call has completed before. Those of earlier calls
have been handed over: so a stream gives all its good frames exactly if a cut lies
between them and the byte that the bad one is rejected at (`good_frames_handed_iff`).
-/

namespace ChainBreaker

open Fallible

/-! ## Up to the first exception -/

section
variable (E : Primitives) (limits : SocketLimits)

/-- The envelopes that successive `consume` calls return up to the first that raises, and what it raises. -/
def takenBefore : Bytes → List Bytes → List NetworkEnvelope × Option PyErr
  | _, [] => ([], none)
  | buf, data :: more =>
    match consume E limits buf data with
    | (.error e, _) => ([], some e)
    | (.ok envelopes, left) =>
      let (later, exc) := takenBefore left more
      (envelopes ++ later, exc)

/-- Every chunk fits into the accumulator when it comes, as long as nothing has been raised. -/
def RoomBefore : Bytes → List Bytes → Prop
  | _, [] => True
  | buf, data :: more =>
    buf.length + data.length ≤ limits.maxFrameBufferBytes ∧
      ∀ envelopes left, consume E limits buf data = (.ok envelopes, left) → RoomBefore left more

/-- The attempt at the front of the bytes raises. -/
def Rejected (bad : Bytes) : Prop := ∃ e left, tryParseOne E limits bad = (.error e, left)

/-- The length of the header that the bytes declare. -/
def declaredOverhead (bad : Bytes) : Nat :=
  MAGIC_SIZE + 2 + NETWORK_ID_LENGTH_SIZE + byteAt bad (MAGIC_SIZE + 2) + MESSAGE_TYPE_SIZE + FLAGS_SIZE
    + PAYLOAD_LENGTH_SIZE + PAYLOAD_HASH_SIZE

/-- The length of the frame that the bytes declare. -/
def declaredSize (bad : Bytes) : Nat :=
  declaredOverhead bad + fromBE (slice bad
    (MAGIC_SIZE + 2 + NETWORK_ID_LENGTH_SIZE + byteAt bad (MAGIC_SIZE + 2) + MESSAGE_TYPE_SIZE + FLAGS_SIZE) PAYLOAD_LENGTH_SIZE)

/-- How many bytes of a bad frame are read before it is rejected: its header, if it
declares too much, else all of it. -/
def rejectedAt (bad : Bytes) : Nat :=
  if declaredSize bad > limits.maxMessageSize then declaredOverhead bad else declaredSize bad

end

/-! ## One attempt at a bad frame -/

section
variable {E : Primitives} {limits : SocketLimits} {bad buf rest : Bytes}

/-- A bad frame begins with the magic and a network id of a possible length, and its header is whole. -/
structure BadHeader (bad : Bytes) : Prop where
  magic : slice bad 0 MAGIC_SIZE = CBN1_MAGIC
  idLen : ¬ (byteAt bad (MAGIC_SIZE + 2) = 0 ∨ byteAt bad (MAGIC_SIZE + 2) > 64)
  whole : declaredOverhead bad ≤ bad.length

/-- The attempt at a buffer with a good header. -/
theorem tryParseOne_header (h : BadHeader bad) : tryParseOne E limits bad =
    if declaredSize bad > limits.maxMessageSize then
      (if declaredSize bad - declaredOverhead bad > limits.maxMessageSize then
        raise .transportLimitError "declared payload length % exceeds max %"
          [.int (declaredSize bad - declaredOverhead bad : Nat), .int limits.maxMessageSize]
       else raise .transportLimitError "declared message size % exceeds max %"
          [.int (declaredSize bad), .int limits.maxMessageSize], bad)
    else if bad.length < declaredSize bad then (.ok none, bad)
    else ((parseEnvelope E (bad.take (declaredSize bad))).map some, bad.drop (declaredSize bad)) := by
  have hwhole := h.whole
  have hseven : MAGIC_SIZE + 2 + NETWORK_ID_LENGTH_SIZE ≤ declaredOverhead bad := by
    unfold declaredOverhead
    omega
  unfold tryParseOne
  rw [if_neg (by omega), if_neg (not_not.mpr h.magic), if_neg (by omega)]
  dsimp only
  rw [if_neg h.idLen, ← declaredOverhead, if_neg (by omega)]
  generalize hpayload : fromBE (slice bad _ PAYLOAD_LENGTH_SIZE) = payload
  have hsize : declaredSize bad = declaredOverhead bad + payload := by rw [declaredSize, hpayload]
  rw [hsize, Nat.add_sub_cancel_left]
  by_cases hbig : payload > limits.maxMessageSize
  · rw [if_pos hbig, if_pos (by omega), if_pos hbig]
  · rw [if_neg hbig]
    by_cases htotal : declaredOverhead bad + payload > limits.maxMessageSize
    · rw [if_pos htotal, if_pos htotal, if_neg hbig]
    · rw [if_neg htotal, if_neg htotal]

theorem Rejected.header (h : Rejected E limits bad) : BadHeader bad := by
  obtain ⟨e, left, h⟩ := h
  unfold tryParseOne at h
  by_cases h₄ : bad.length < MAGIC_SIZE
  · rw [if_pos h₄] at h
    cases h
  rw [if_neg h₄] at h
  by_cases hmagic : slice bad 0 MAGIC_SIZE = CBN1_MAGIC
  · rw [if_neg (not_not.mpr hmagic)] at h
    by_cases h₇ : bad.length < MAGIC_SIZE + 2 + NETWORK_ID_LENGTH_SIZE
    · rw [if_pos h₇] at h
      cases h
    rw [if_neg h₇] at h
    dsimp only at h
    by_cases hid : byteAt bad (MAGIC_SIZE + 2) = 0 ∨ byteAt bad (MAGIC_SIZE + 2) > 64
    · rw [if_pos hid] at h
      cases h
    rw [if_neg hid, ← declaredOverhead] at h
    by_cases hwhole : bad.length < declaredOverhead bad
    · rw [if_pos hwhole] at h
      cases h
    exact ⟨hmagic, hid, Nat.not_lt.mp hwhole⟩
  · rw [if_pos hmagic] at h
    cases hfind : Marker.find CBN1_MAGIC bad with
    | none => rw [hfind] at h; cases h
    | some i => rw [hfind] at h; cases h

/-- The header that a part of a bad frame declares, once the part holds it. -/
theorem BadHeader.declared (hpart : buf ++ rest = bad) :
    (7 ≤ buf.length → declaredOverhead buf = declaredOverhead bad) ∧
      (declaredOverhead bad ≤ buf.length → declaredSize buf = declaredSize bad) := by
  have hbyte : 7 ≤ buf.length → byteAt buf (MAGIC_SIZE + 2) = byteAt bad (MAGIC_SIZE + 2) := fun h => by
    rw [← hpart, byteAt_left (by simp only [MAGIC_SIZE]; omega)]
  have hoverhead : 7 ≤ buf.length → declaredOverhead buf = declaredOverhead bad := fun h => by
    rw [declaredOverhead, hbyte h, declaredOverhead]
  refine ⟨hoverhead, fun h => ?_⟩
  have hlong := h
  simp only [declaredOverhead, MAGIC_SIZE, NETWORK_ID_LENGTH_SIZE, MESSAGE_TYPE_SIZE, FLAGS_SIZE, PAYLOAD_LENGTH_SIZE,
    PAYLOAD_HASH_SIZE] at hlong
  rw [declaredSize, declaredSize, hoverhead (by omega), hbyte (by omega), ← hpart, slice_left]
  simp only [hpart, MAGIC_SIZE, NETWORK_ID_LENGTH_SIZE, MESSAGE_TYPE_SIZE, FLAGS_SIZE, PAYLOAD_LENGTH_SIZE]
  omega

/-- While the header of a bad frame is incomplete, more is waited for. -/
theorem BadHeader.short (h : BadHeader bad) (hpart : buf ++ rest = bad) (hshort : buf.length < declaredOverhead bad) :
    tryParseOne E limits buf = (.ok none, buf) := by
  have hmagicSize : MAGIC_SIZE = 4 := rfl
  have hseven : MAGIC_SIZE + 2 + NETWORK_ID_LENGTH_SIZE = 7 := rfl
  unfold tryParseOne
  by_cases h₄ : buf.length < MAGIC_SIZE
  · rw [if_pos h₄]
  have hmagic : slice buf 0 MAGIC_SIZE = CBN1_MAGIC := by
    rw [← slice_left (b := rest) (by omega), hpart]
    exact h.magic
  rw [if_neg h₄, if_neg (not_not.mpr hmagic)]
  by_cases h₇ : buf.length < MAGIC_SIZE + 2 + NETWORK_ID_LENGTH_SIZE
  · rw [if_pos h₇]
  have hbyte : byteAt buf (MAGIC_SIZE + 2) = byteAt bad (MAGIC_SIZE + 2) := by
    rw [← hpart, byteAt_left (by omega)]
  rw [if_neg h₇]
  dsimp only
  rw [hbyte, if_neg h.idLen, ← declaredOverhead, if_pos hshort]

/-- A bad frame of a size within the limit is taken off and does not parse. -/
theorem Rejected.unparsed (h : Rejected E limits bad) (hfits : ¬ declaredSize bad > limits.maxMessageSize) :
    declaredSize bad ≤ bad.length ∧ ∃ e, parseEnvelope E (bad.take (declaredSize bad)) = .error e := by
  have hheader := h.header
  obtain ⟨e, left, h⟩ := h
  rw [tryParseOne_header hheader, if_neg hfits] at h
  by_cases hpart : bad.length < declaredSize bad
  · rw [if_pos hpart] at h
    cases h
  · rw [if_neg hpart] at h
    refine ⟨Nat.not_lt.mp hpart, ?_⟩
    cases hparse : parseEnvelope E (bad.take (declaredSize bad)) with
    | error e => exact ⟨e, rfl⟩
    | ok envelope =>
      rw [hparse] at h
      cases h

/-- A bad frame is as long as what it is rejected at. -/
theorem Rejected.length (h : Rejected E limits bad) :
    declaredOverhead bad ≤ rejectedAt limits bad ∧ rejectedAt limits bad ≤ bad.length := by
  unfold rejectedAt
  by_cases hbig : declaredSize bad > limits.maxMessageSize
  · rw [if_pos hbig]
    exact ⟨le_rfl, h.header.whole⟩
  · rw [if_neg hbig]
    exact ⟨Nat.le_add_right _ _, (h.unparsed hbig).1⟩

/-- A part of a bad frame is waited for or raises, as it reaches the byte or not that the frame is rejected at. -/
theorem Rejected.part (h : Rejected E limits bad) (hpart : buf ++ rest = bad) :
    if buf.length < rejectedAt limits bad then tryParseOne E limits buf = (.ok none, buf)
    else Rejected E limits buf := by
  by_cases hshort : buf.length < declaredOverhead bad
  · rw [if_pos (hshort.trans_le h.length.1)]
    exact h.header.short hpart hshort
  have hseven : 7 ≤ declaredOverhead bad := by
    simp only [declaredOverhead, MAGIC_SIZE, NETWORK_ID_LENGTH_SIZE, MESSAGE_TYPE_SIZE, FLAGS_SIZE, PAYLOAD_LENGTH_SIZE,
      PAYLOAD_HASH_SIZE]
    omega
  obtain ⟨hoverhead, hsize⟩ := BadHeader.declared hpart
  rw [Nat.not_lt] at hshort
  have hheader : BadHeader buf := by
    refine ⟨?_, ?_, by rw [hoverhead (by omega)]; exact hshort⟩
    · rw [← slice_left (b := rest) (by simp only [MAGIC_SIZE]; omega), hpart]
      exact h.header.magic
    · rw [← byteAt_left (b := rest) (by simp only [MAGIC_SIZE]; omega), hpart]
      exact h.header.idLen
  have htry := @tryParseOne_header E limits buf hheader
  rw [hoverhead (by omega), hsize hshort] at htry
  unfold rejectedAt
  by_cases hbig : declaredSize bad > limits.maxMessageSize
  · rw [if_pos hbig, if_neg (Nat.not_lt.mpr hshort)]
    rw [if_pos hbig] at htry
    unfold raise at htry
    by_cases hpayload : declaredSize bad - declaredOverhead bad > limits.maxMessageSize
    · rw [if_pos hpayload] at htry
      exact ⟨_, _, htry⟩
    · rw [if_neg hpayload] at htry
      exact ⟨_, _, htry⟩
  · obtain ⟨-, e, hparse⟩ := h.unparsed hbig
    rw [if_neg hbig] at htry ⊢
    by_cases hwait : buf.length < declaredSize bad
    · rw [if_pos hwait]
      rw [if_pos hwait] at htry
      exact htry
    · have htake : (buf ++ rest).take (declaredSize bad) = buf.take (declaredSize bad) :=
        List.take_append_of_le_length (Nat.not_lt.mp hwait)
      rw [hpart] at htake
      rw [if_neg hwait] at htry ⊢
      rw [← htake, hparse] at htry
      exact ⟨_, _, htry⟩

/-! ## Good frames before a bad one -/

/-- `buf` is read and `rest` is to come: the frames of the envelopes not taken yet, and the bad one. -/
structure Pending (E : Primitives) (limits : SocketLimits) (bad buf rest : Bytes) (es : List NetworkEnvelope) : Prop where
  stream : buf ++ rest = frames E es ++ bad
  valid : ∀ e ∈ es, e.Valid
  fits : ∀ e ∈ es, (frame E e).length ≤ limits.maxMessageSize
  rejected : Rejected E limits bad

/-- Nothing can be taken off the buffer, and it does not raise. -/
structure Quiet (E : Primitives) (limits : SocketLimits) (bad buf : Bytes) (es : List NetworkEnvelope) : Prop where
  part : es ≠ [] → buf.length < (frames E es).length
  before : buf.length < (frames E es).length + rejectedAt limits bad

theorem Pending.tail {e : NetworkEnvelope} {es : List NetworkEnvelope} (h : Pending E limits bad buf rest (e :: es))
    (hlen : (frame E e).length ≤ buf.length) : Pending E limits bad (buf.drop (frame E e).length) rest es where
  stream := behind_frame (by rw [h.stream, frames_cons, List.append_assoc]) hlen
  valid e' he := h.valid e' (.tail _ he)
  fits e' he := h.fits e' (.tail _ he)
  rejected := h.rejected

/-- The loop raises if the buffer reaches the byte that the bad frame is rejected at,
and else takes the envelopes whose frames are whole. -/
theorem Pending.loop : ∀ {n : Nat} {buf : Bytes} {es : List NetworkEnvelope}, Pending E limits bad buf rest es →
    buf.length < n →
    if buf.length < (frames E es).length + rejectedAt limits bad then
      ∃ out left es', consumeLoop E limits n buf = (.ok out, left) ∧ es = out ++ es' ∧
        buf.length = (frames E out).length + left.length ∧ Pending E limits bad left rest es' ∧ Quiet E limits bad left es'
    else ∃ e left, consumeLoop E limits n buf = (.error e, left) := by
  intro n
  induction n with
  | zero => exact fun _ hn => absurd hn (Nat.not_lt_zero _)
  | succ n ih =>
    intro buf es h hn
    cases es with
    | nil =>
      have hpart := h.rejected.part h.stream
      have hzero : (frames E ([] : List NetworkEnvelope)).length = 0 := rfl
      rw [hzero, Nat.zero_add]
      unfold consumeLoop
      by_cases hbefore : buf.length < rejectedAt limits bad
      · rw [if_pos hbefore] at hpart ⊢
        refine ⟨[], buf, [], ?_, rfl, by rw [hzero, Nat.zero_add], h, ⟨fun hne => absurd rfl hne, ?_⟩⟩
        swap
        · rwa [hzero, Nat.zero_add]
        rw [hpart]
        exact if_neg (Nat.lt_irrefl _)
      · rw [if_neg hbefore] at hpart ⊢
        obtain ⟨e, left, hraise⟩ := hpart
        rw [hraise]
        exact ⟨e, left, rfl⟩
    | cons e es =>
      have hpos := frame_length E e
      have hfront := tryParseOne_front (h.valid e (.head _)) (h.fits e (.head _))
        (by rw [h.stream, frames_cons, List.append_assoc])
      have hsum : (frames E (e :: es)).length = (frame E e).length + (frames E es).length := by
        rw [frames_cons, List.length_append]
      unfold consumeLoop
      rw [hfront]
      by_cases hwait : buf.length < (frame E e).length
      · rw [if_pos hwait, if_pos (by omega)]
        refine ⟨[], buf, e :: es, if_neg (Nat.lt_irrefl _), rfl, ?_, h, ⟨fun _ => by omega, by omega⟩⟩
        exact (Nat.zero_add _).symm
      · have htail := h.tail (Nat.not_lt.mp hwait)
        have hdrop : (buf.drop (frame E e).length).length = buf.length - (frame E e).length := List.length_drop
        have hloop := ih htail (by omega)
        rw [if_neg hwait]
        by_cases hbefore : buf.length < (frames E (e :: es)).length + rejectedAt limits bad
        · rw [if_pos (by omega)] at hloop
          rw [if_pos hbefore]
          obtain ⟨out, left, es', hrun, rfl, hlen, hpending, hquiet⟩ := hloop
          refine ⟨e :: out, left, es', ?_, rfl, ?_, hpending, hquiet⟩
          · simp only [hrun]
            rfl
          · rw [frames_cons, List.length_append]
            omega
        · rw [if_neg (by omega)] at hloop
          rw [if_neg hbefore]
          obtain ⟨err, left, hrun⟩ := hloop
          refine ⟨err, left, ?_⟩
          simp only [hrun]
          rfl

/-- One call: nothing happens for no data, and else the loop runs on all that has been read. -/
theorem Pending.consume {data : Bytes} {es : List NetworkEnvelope} (h : Pending E limits bad buf (data ++ rest) es)
    (hquiet : Quiet E limits bad buf es) (hroom : buf.length + data.length ≤ limits.maxFrameBufferBytes) :
    if buf.length + data.length < (frames E es).length + rejectedAt limits bad then
      ∃ out left es', consume E limits buf data = (.ok out, left) ∧ es = out ++ es' ∧
        buf.length + data.length = (frames E out).length + left.length ∧ Pending E limits bad left rest es' ∧
        Quiet E limits bad left es'
    else ∃ e left, consume E limits buf data = (.error e, left) := by
  by_cases hnil : data = []
  · subst hnil
    rw [List.length_nil, Nat.add_zero, if_pos hquiet.before]
    exact ⟨[], buf, es, rfl, rfl, (Nat.zero_add _).symm, h, hquiet⟩
  · have hread : Pending E limits bad (buf ++ data) rest es :=
      ⟨by rw [List.append_assoc, h.stream], h.valid, h.fits, h.rejected⟩
    have hnonempty : ¬ data.isEmpty = true := by simpa using hnil
    have hloop := hread.loop (Nat.lt_succ_self _)
    have hcall : ChainBreaker.consume E limits buf data =
        consumeLoop E limits ((buf ++ data).length + 1) (buf ++ data) := by
      rw [ChainBreaker.consume, if_neg hnonempty, if_neg (by omega)]
    rwa [← Nat.add_one, ← hcall, List.length_append] at hloop

/-- The calls before the exception have taken all the envelopes if one of them ends between the
good frames and the byte that the bad one is rejected at. -/
theorem Pending.taken : ∀ {chunks : List Bytes} {buf : Bytes} {es : List NetworkEnvelope},
    Pending E limits bad buf chunks.flatten es → Quiet E limits bad buf es → RoomBefore E limits buf chunks →
    (∃ e, (takenBefore E limits buf chunks).2 = some e) ∧ ((takenBefore E limits buf chunks).1 = es ↔
      ∃ pre, pre <+: chunks ∧ (frames E es).length ≤ buf.length + pre.flatten.length ∧
        buf.length + pre.flatten.length < (frames E es).length + rejectedAt limits bad) := by
  intro chunks
  induction chunks with
  | nil =>
    intro buf es h hquiet _
    have hlen := congrArg List.length h.stream
    have hbad := h.rejected.length.2
    have hbefore := hquiet.before
    rw [List.flatten_nil, List.append_nil, List.length_append] at hlen
    omega
  | cons data chunks ih =>
    intro buf es h hquiet hroom
    rw [List.flatten_cons] at h
    have hcall := h.consume hquiet hroom.1
    have hbefore := hquiet.before
    have hpart := hquiet.part
    by_cases hreach : buf.length + data.length < (frames E es).length + rejectedAt limits bad
    · rw [if_pos hreach] at hcall
      obtain ⟨out, left, es', hrun, rfl, hlen, hpending, hquiet'⟩ := hcall
      obtain ⟨hexc, htaken⟩ := ih hpending hquiet' (hroom.2 out left hrun)
      have hframes : (frames E (out ++ es')).length = (frames E out).length + (frames E es').length := by
        rw [frames, List.flatMap_append, List.length_append, frames, frames]
      rw [hframes] at hreach hbefore hpart ⊢
      simp only [takenBefore, hrun, List.append_cancel_left_eq, htaken]
      refine ⟨hexc, fun hwhen => ?_, fun hwhen => ?_⟩ <;> obtain ⟨pre, hpre, hlo, hhi⟩ := hwhen
      · refine ⟨data :: pre, List.cons_prefix_cons.mpr ⟨rfl, hpre⟩, ?_⟩
        rw [List.flatten_cons, List.length_append]
        omega
      · cases pre with
        | nil =>
          -- nothing but the bad frame was to come already
          rw [List.flatten_nil, List.length_nil, Nat.add_zero] at hlo
          have hnone : out ++ es' = [] := by
            by_contra hsome
            exact absurd (hpart hsome) (Nat.not_lt.mpr hlo)
          obtain ⟨rfl, rfl⟩ := List.append_eq_nil_iff.mp hnone
          refine ⟨[], List.nil_prefix, ?_⟩
          simp only [frames, List.flatMap_nil, List.length_nil, List.flatten_nil] at *
          omega
        | cons d pre =>
          obtain ⟨rfl, hrest⟩ := List.cons_prefix_cons.mp hpre
          rw [List.flatten_cons, List.length_append] at hlo hhi
          exact ⟨pre, hrest, by omega, by omega⟩
    · rw [if_neg hreach] at hcall
      obtain ⟨e, left, hrun⟩ := hcall
      simp only [takenBefore, hrun]
      refine ⟨⟨e, rfl⟩, fun hnil => ?_, fun hwhen => ?_⟩
      · subst hnil
        exact ⟨[], List.nil_prefix, Nat.zero_le _, hbefore⟩
      · obtain ⟨pre, hpre, hlo, hhi⟩ := hwhen
        cases pre with
        | nil =>
          rw [List.flatten_nil, List.length_nil, Nat.add_zero] at hlo
          by_contra hsome
          exact absurd (hpart (Ne.symm hsome)) (Nat.not_lt.mpr hlo)
        | cons d pre =>
          obtain ⟨rfl, -⟩ := List.cons_prefix_cons.mp hpre
          rw [List.flatten_cons, List.length_append] at hhi
          omega

/-- A call that reads as far as the byte that the bad frame is rejected at returns nothing. -/
theorem Pending.lost {data : Bytes} {es : List NetworkEnvelope} (h : Pending E limits bad buf (data ++ rest) es)
    (hquiet : Quiet E limits bad buf es) (hroom : buf.length + data.length ≤ limits.maxFrameBufferBytes)
    (hreach : (frames E es).length + rejectedAt limits bad ≤ buf.length + data.length) :
    (takenBefore E limits buf [data]).1 = [] := by
  have hcall := h.consume hquiet hroom
  rw [if_neg (by omega)] at hcall
  obtain ⟨e, left, hrun⟩ := hcall
  simp only [takenBefore, hrun]

theorem roomBefore_of_total : ∀ {chunks : List Bytes} {buf : Bytes},
    buf.length + chunks.flatten.length ≤ limits.maxFrameBufferBytes → RoomBefore E limits buf chunks
  | [], _, _ => trivial
  | data :: chunks, buf, h => by
    rw [List.flatten_cons, List.length_append] at h
    refine ⟨by omega, fun envelopes left hrun => ?_⟩
    have hle := (consume_bytes hrun).1
    exact roomBefore_of_total (by omega)

end

/-! ## Whole streams -/

/-- A bad frame behind good ones ends the stream, and the envelopes of the good ones have been
handed over if and only if some chunks end between them and the byte it is rejected at. -/
theorem good_frames_handed_iff {E : Primitives} {limits : SocketLimits} {es : List NetworkEnvelope} {raws chunks : List Bytes}
    {bad : Bytes} (hraws : serializeAll E es = .ok raws) (hframes : ∀ raw ∈ raws, raw.length ≤ limits.maxMessageSize)
    (hbad : Rejected E limits bad) (hstream : chunks.flatten = raws.flatten ++ bad) (hroom : RoomBefore E limits [] chunks) :
    (∃ e, (takenBefore E limits [] chunks).2 = some e) ∧ ((takenBefore E limits [] chunks).1 = es ↔
      ∃ pre, pre <+: chunks ∧ raws.flatten.length ≤ pre.flatten.length ∧
        pre.flatten.length < raws.flatten.length + rejectedAt limits bad) := by
  obtain ⟨hvalid, rfl⟩ := serializeAll_ok.mp hraws
  rw [← frames_eq_flatten] at hstream ⊢
  have hpending : Pending E limits bad [] chunks.flatten es :=
    ⟨by rw [List.nil_append, hstream], hvalid, fun e he => hframes _ (List.mem_map_of_mem he), hbad⟩
  have hpositive : 0 < rejectedAt limits bad := by
    have hlength := hbad.length.1
    simp only [declaredOverhead, MAGIC_SIZE] at hlength
    omega
  have hquiet : Quiet E limits bad [] es := by
    refine ⟨fun hsome => ?_, by rw [List.length_nil]; omega⟩
    cases es with
    | nil => exact absurd rfl hsome
    | cons e es =>
      rw [frames_cons, List.length_append, frame_length, List.length_nil]
      omega
  have htaken := hpending.taken hquiet hroom
  simpa only [List.length_nil, Nat.zero_add] using htaken

/-- A ping without payload of another protocol version. -/
def laterPing : Bytes :=
  CBN1_MAGIC ++ ([0, 2, 25] ++ NETWORK_ID_BYTES ++ [3, 0, 0, 0, 0, 0]) ++ List.replicate 32 0

theorem laterPing_rejected : Rejected (recorded []) {} laterPing := ⟨_, _, rfl⟩

theorem pings_serialized : serializeAll (recorded []) [⟨3, 0, []⟩] = .ok [pingFrame] :=
  serializeAll_ok.mpr ⟨fun _ he => List.mem_singleton.mp he ▸ ping_valid, rfl⟩

theorem pingFrame_fits : ∀ raw ∈ [pingFrame], raw.length ≤ ({} : SocketLimits).maxMessageSize := by
  intro raw hraw
  rw [List.mem_singleton.mp hraw, pingFrame_length]
  decide

theorem laterPing_length : laterPing.length = 70 ∧ rejectedAt {} laterPing = 70 := by decide

theorem good_frames_handed_ping : (takenBefore (recorded []) {} [] [pingFrame, laterPing]).1 = [⟨3, 0, []⟩] := by
  have hlen := pingFrame_length
  obtain ⟨hlater, hreject⟩ := laterPing_length
  refine (good_frames_handed_iff pings_serialized pingFrame_fits laterPing_rejected (by simp)
    (roomBefore_of_total ?_)).2.mpr ⟨[pingFrame], ⟨[laterPing], rfl⟩, le_rfl, by omega⟩
  simp [hlen, hlater]

/-- In one chunk with a frame of another version, the ping before it is lost. -/
theorem ping_lost : ¬ ∀ (E : Primitives) (limits : SocketLimits) (es : List NetworkEnvelope) (raws chunks : List Bytes)
    (bad : Bytes), serializeAll E es = .ok raws → (∀ raw ∈ raws, raw.length ≤ limits.maxMessageSize) →
    Rejected E limits bad → chunks.flatten = raws.flatten ++ bad → RoomBefore E limits [] chunks →
    (takenBefore E limits [] chunks).1 = es := by
  intro h
  have hlen := pingFrame_length
  obtain ⟨hlater, hreject⟩ := laterPing_length
  have hroom : RoomBefore (recorded []) {} [] [pingFrame ++ laterPing] := roomBefore_of_total (by simp [hlen, hlater])
  have htaken := h (recorded []) {} [⟨3, 0, []⟩] [pingFrame] [pingFrame ++ laterPing] laterPing pings_serialized
    pingFrame_fits laterPing_rejected (by simp) hroom
  have hframes : frames (recorded []) [⟨3, 0, []⟩] = pingFrame := by
    rw [frames_eq_flatten, List.map_singleton, List.flatten_singleton, ← pingFrame]
  have hpending : Pending (recorded []) {} laterPing [] ((pingFrame ++ laterPing) ++ []) [⟨3, 0, []⟩] :=
    ⟨by rw [hframes, List.append_nil, List.nil_append], fun _ he => List.mem_singleton.mp he ▸ ping_valid,
      fun _ he => by rw [List.mem_singleton.mp he, ← pingFrame, hlen]; decide, laterPing_rejected⟩
  have hquiet : Quiet (recorded []) {} laterPing [] [⟨3, 0, []⟩] :=
    ⟨fun _ => by rw [hframes, hlen]; decide, by rw [hframes, hlen]; exact Nat.zero_lt_succ _⟩
  have hnone := hpending.lost hquiet hroom.1 (by
    rw [hframes, hreject, hlen, List.length_append, hlen, hlater]
    decide)
  rw [hnone] at htaken
  cases htaken

end ChainBreaker
