import ChainBreaker.Framing
import Mathlib.Data.List.ReduceOption

/-!
# The TCP transports

`receive` returns the first envelope that a read completes and forgets the
others, so what the successive calls return is what was sent exactly when no
read completes two frames and all the frames fit the limits (`tcp_delivers_iff`).
-/

namespace ChainBreaker

open Fallible

structure StreamWriter where
  closing : Bool
  written : Bytes

/-- What the reads of a stream will return, `none` for one that times out; behind
them the stream is at its end. -/
abbrev StreamReader := List (Option Bytes)

structure TCPClientTransport where
  limits : SocketLimits
  framing : Bytes
  reader : Option StreamReader
  writer : Option StreamWriter

structure TCPServerTransport where
  limits : SocketLimits
  framing : Bytes
  reader : StreamReader
  writer : StreamWriter

def TCPClientTransport.isOpen (t : TCPClientTransport) : Bool :=
  match t.writer with
  | some writer => !writer.closing
  | none => false

def TCPServerTransport.isOpen (t : TCPServerTransport) : Bool := !t.writer.closing

def notOpen : PyErr := err .transportClosedError "transport is not open"

variable (E : Primitives)

/-- The bytes that `send` hands to the writer. -/
def sendBytes (limits : SocketLimits) (envelope : NetworkEnvelope) : Except PyErr Bytes := do
  let raw ← serializeEnvelope E envelope.messageType envelope.flags envelope.payload
  require (raw.length ≤ limits.maxMessageSize)
    ⟨.transportLimitError, "send size % exceeds max %", [.int raw.length, .int limits.maxMessageSize]⟩
  .ok raw

def TCPClientTransport.send (t : TCPClientTransport) (envelope : NetworkEnvelope) : Except PyErr TCPClientTransport := do
  require (t.isOpen = true) notOpen
  match t.writer with
  | none => .error notOpen
  | some writer => do
    let raw ← sendBytes E t.limits envelope
    .ok { t with writer := some { writer with written := writer.written ++ raw } }

def TCPServerTransport.send (t : TCPServerTransport) (envelope : NetworkEnvelope) : Except PyErr TCPServerTransport := do
  require (t.isOpen = true) notOpen
  let raw ← sendBytes E t.limits envelope
  .ok { t with writer := { t.writer with written := t.writer.written ++ raw } }

/-- The loop of `receive`: its result, the buffer and the reads that are left. -/
def receiveLoop (limits : SocketLimits) (buf : Bytes) (reads : StreamReader) :
    Except PyErr NetworkEnvelope × Bytes × StreamReader :=
  match consume E limits buf [] with
  | (.error e, buf) => (.error e, buf, reads)
  | (.ok (envelope :: _), buf) => (.ok envelope, buf, reads)
  | (.ok [], buf) =>
    match reads with
    | [] => (raise .transportClosedError "connection closed by peer" [], buf, [])
    | none :: reads => (raise .transportClosedError "read timed out" [], buf, reads)
    | some data :: reads =>
      if data.isEmpty then (raise .transportClosedError "connection closed by peer" [], buf, reads)
      else
        match consume E limits buf data with
        | (.error e, buf) => (.error e, buf, reads)
        | (.ok (envelope :: _), buf) => (.ok envelope, buf, reads)
        | (.ok [], buf) => receiveLoop limits buf reads

def TCPClientTransport.receive (t : TCPClientTransport) : Except PyErr NetworkEnvelope × TCPClientTransport :=
  if t.isOpen then
    match t.reader with
    | none => (.error notOpen, t)
    | some reads =>
      let (r, buf, reads) := receiveLoop E t.limits t.framing reads
      (r, { t with framing := buf, reader := some reads })
  else (.error notOpen, t)

def TCPServerTransport.receive (t : TCPServerTransport) : Except PyErr NetworkEnvelope × TCPServerTransport :=
  if t.isOpen then
    let (r, buf, reads) := receiveLoop E t.limits t.framing t.reader
    (r, { t with framing := buf, reader := reads })
  else (.error notOpen, t)

/-- What so many calls one after the other return; a call that raises returns nothing. -/
def received {τ : Type} (receive : τ → Except PyErr NetworkEnvelope × τ) : Nat → τ → List NetworkEnvelope
  | 0, _ => []
  | n + 1, t =>
    match receive t with
    | (.ok envelope, t) => envelope :: received receive n t
    | (.error _, t) => received receive n t

/-! ## One envelope a read -/

/-- What the reads deliver: of each read the first envelope it completes. -/
def deliveries (limits : SocketLimits) : Bytes → StreamReader → List NetworkEnvelope
  | _, [] => []
  | buf, none :: reads => deliveries limits buf reads
  | buf, some data :: reads =>
    match consume E limits buf data with
    | (.ok (envelope :: _), left) => envelope :: deliveries limits left reads
    | (_, left) => deliveries limits left reads

variable {E} {limits : SocketLimits}

theorem receiveLoop_nil (buf : Bytes) :
    receiveLoop E limits buf [] = (raise .transportClosedError "connection closed by peer" [], buf, []) := by
  rw [receiveLoop]
  rfl

theorem received_nil : ∀ (n : Nat) (buf : Bytes),
    received (fun s : Bytes × StreamReader => receiveLoop E limits s.1 s.2) n (buf, []) = []
  | 0, _ => rfl
  | n + 1, buf => by
    rw [received]
    simp only [receiveLoop_nil, raise]
    exact received_nil n buf

/-- As many calls as there are reads return everything that is delivered. -/
theorem received_loop : ∀ {reads : StreamReader} {n : Nat} {buf : Bytes}, (∀ data ∈ reads.reduceOption, data ≠ []) →
    reads.length ≤ n →
    received (fun s : Bytes × StreamReader => receiveLoop E limits s.1 s.2) n (buf, reads) = deliveries E limits buf reads
  | [], n, buf, _, _ => received_nil n buf
  | none :: reads, n + 1, buf, hne, hn => by
    have hloop : receiveLoop E limits buf (none :: reads) = (raise .transportClosedError "read timed out" [], buf, reads) := by
      rw [receiveLoop]
      rfl
    rw [received, deliveries]
    simp only [hloop, raise]
    exact received_loop hne (Nat.le_of_succ_le_succ hn)
  | some data :: reads, n + 1, buf, hne, hn => by
    have hdata : ¬ data.isEmpty = true := by
      have := hne data (by simp [List.reduceOption_cons_of_some])
      simpa using this
    have hmore : ∀ d ∈ reads.reduceOption, d ≠ [] := fun d hd => hne d (by
      rw [List.reduceOption_cons_of_some]
      exact .tail _ hd)
    have hn' := Nat.le_of_succ_le_succ hn
    have hloop : receiveLoop E limits buf (some data :: reads) =
        match consume E limits buf data with
        | (.error e, buf) => (.error e, buf, reads)
        | (.ok (envelope :: _), buf) => (.ok envelope, buf, reads)
        | (.ok [], buf) => receiveLoop E limits buf reads := by
      rw [receiveLoop]
      simp only [consume, List.isEmpty_nil, if_true, if_neg hdata]
    rw [deliveries]
    rcases hrun : consume E limits buf data with ⟨err | _ | ⟨envelope, out⟩, left⟩
    · rw [received]
      simp only [hloop, hrun]
      exact received_loop hmore hn'
    · have hsame : received (fun s : Bytes × StreamReader => receiveLoop E limits s.1 s.2) (n + 1) (buf, some data :: reads) =
          received (fun s : Bytes × StreamReader => receiveLoop E limits s.1 s.2) (n + 1) (left, reads) := by
        rw [received, received]
        simp only [hloop, hrun]
      rw [hsame]
      exact received_loop hmore (Nat.le_succ_of_le hn')
    · rw [received]
      simp only [hloop, hrun]
      rw [received_loop hmore hn']

theorem deliveries_bytes : ∀ {reads : StreamReader} {buf : Bytes},
    (frames E (deliveries E limits buf reads)).length ≤ buf.length + reads.reduceOption.flatten.length ∧
      ∀ e ∈ deliveries E limits buf reads, (frame E e).length ≤ limits.maxMessageSize
  | [], buf => ⟨Nat.zero_le _, nofun⟩
  | none :: reads, buf => by
    rw [deliveries, List.reduceOption_cons_of_none]
    exact deliveries_bytes
  | some data :: reads, buf => by
    rw [deliveries, List.reduceOption_cons_of_some, List.flatten_cons, List.length_append]
    rcases hrun : consume E limits buf data with ⟨err | _ | ⟨envelope, out⟩, left⟩
    · obtain ⟨hleft, -⟩ := consume_bytes hrun
      obtain ⟨hsum, hall⟩ := @deliveries_bytes reads left
      exact ⟨by simp only; omega, hall⟩
    · obtain ⟨hleft, -⟩ := consume_bytes hrun
      obtain ⟨hsum, hall⟩ := @deliveries_bytes reads left
      exact ⟨by simp only; omega, hall⟩
    · obtain ⟨-, hout⟩ := consume_bytes hrun
      obtain ⟨hbytes, hfits⟩ := hout _ rfl
      obtain ⟨hsum, hall⟩ := @deliveries_bytes reads left
      rw [frames, List.flatMap_cons, List.length_append] at hbytes
      simp only [frames, List.flatMap_cons, List.length_append] at hsum ⊢
      exact ⟨by omega, fun e he => (List.mem_cons.mp he).elim (fun heq => heq ▸ hfits envelope (.head _)) (hall e)⟩

variable (E limits) in
/-- A read of `m` bytes behind the first `n` of the frames: with the part of a frame
before it, it fits into the accumulator, and it completes no two frames. -/
structure ReadOk (es : List NetworkEnvelope) (n m : Nat) : Prop where
  room : ∃ done, done <+: es ∧ (frames E done).length ≤ n ∧
    n + m ≤ (frames E done).length + limits.maxFrameBufferBytes
  single : ∀ done e₁ e₂ more, es = done ++ e₁ :: e₂ :: more → n < (frames E (done ++ [e₁])).length →
    n + m < (frames E (done ++ [e₁, e₂])).length

variable (E limits) in
/-- Every frame fits the limit, and the reads take the frames one by one. -/
structure OneByOne (es : List NetworkEnvelope) (chunks : List Bytes) : Prop where
  fits : ∀ e ∈ es, (frame E e).length ≤ limits.maxMessageSize
  reads : ∀ pre data post, chunks = pre ++ data :: post → ReadOk E limits es pre.flatten.length data.length

theorem frames_append (as bs : List NetworkEnvelope) : frames E (as ++ bs) = frames E as ++ frames E bs := by
  rw [frames, List.flatMap_append]
  rfl

theorem frames_prefix_le {as bs : List NetworkEnvelope} (h : as <+: bs) :
    (frames E as).length ≤ (frames E bs).length := by
  obtain ⟨t, rfl⟩ := h
  rw [frames_append, List.length_append]
  omega

theorem Unread.left_length {buf rest : Bytes} {es : List NetworkEnvelope} (h : Unread E limits buf rest [] es) :
    buf.length + rest.length = (frames E es).length := by
  simpa using congrArg List.length h.stream

/-- The frames that end within what is read are those already taken. -/
theorem Waits.taken {buf : Bytes} {done es as : List NetworkEnvelope} (hw : Waits E buf es) (has : as <+: done ++ es)
    (hle : (frames E as).length ≤ (frames E done).length + buf.length) : as <+: done := by
  rcases List.prefix_or_prefix_of_prefix has (List.prefix_append done es) with h | ⟨t, rfl⟩
  · exact h
  · cases t with
    | nil => rw [List.append_nil]
    | cons e t =>
      rw [List.prefix_append_right_inj] at has
      obtain ⟨more, hmore⟩ := has
      have hpart := hw.part e (t ++ more) hmore.symm
      rw [frames_append, frames_cons, List.length_append, List.length_append] at hle
      omega

theorem ReadOk.fits_buffer {buf : Bytes} {done es : List NetworkEnvelope} {m : Nat}
    (h : ReadOk E limits (done ++ es) ((frames E done).length + buf.length) m) (hw : Waits E buf es) :
    buf.length + m ≤ limits.maxFrameBufferBytes := by
  obtain ⟨as, has, hle, hroom⟩ := h.room
  have hfewer := frames_prefix_le (E := E) (hw.taken has hle)
  omega

theorem two_of_long {out : List NetworkEnvelope} (h : ¬ out.length ≤ 1) : ∃ e₁ e₂ out', out = e₁ :: e₂ :: out' := by
  rcases out with _ | ⟨e₁, _ | ⟨e₂, out'⟩⟩
  · exact absurd (Nat.zero_le 1) h
  · exact absurd le_rfl h
  · exact ⟨e₁, e₂, out', rfl⟩

/-- The read that comes next is fine exactly when it fits and completes at most one frame. -/
theorem readOk_iff {buf data left : Bytes} {done es out es' : List NetworkEnvelope} (hw : Waits E buf es)
    (hsplit : es = out ++ es') (hw' : Waits E left es')
    (hbytes : buf.length + data.length = (frames E out).length + left.length) :
    ReadOk E limits (done ++ es) ((frames E done).length + buf.length) data.length ↔
      buf.length + data.length ≤ limits.maxFrameBufferBytes ∧ out.length ≤ 1 := by
  constructor
  · intro h
    refine ⟨h.fits_buffer hw, ?_⟩
    by_contra hlong
    obtain ⟨e₁, e₂, out', rfl⟩ := two_of_long hlong
    have hpart := hw.part e₁ (e₂ :: out' ++ es') hsplit
    have hbehind : (frames E done).length + buf.length < (frames E (done ++ [e₁])).length := by
      rw [frames_append, frames_cons, List.length_append, List.length_append]
      omega
    have hlt := h.single done e₁ e₂ (out' ++ es') (by rw [hsplit]; rfl) hbehind
    simp only [frames_append, frames_cons, List.length_append] at hlt hbytes
    have hnil : (frames E []).length = 0 := rfl
    omega
  · rintro ⟨hroom, hone⟩
    refine ⟨⟨done, List.prefix_append _ _, by omega, by omega⟩, fun as e₁ e₂ more heq hlt => ?_⟩
    by_contra hle
    have htwo : as ++ [e₁, e₂] <+: (done ++ out) ++ es' := ⟨more, by rw [List.append_assoc done, ← hsplit, heq]; simp⟩
    have hdone := (hw'.taken htwo (by rw [frames_append done out, List.length_append]; omega)).length_le
    simp only [List.length_append, List.length_cons, List.length_nil] at hdone
    -- so the first of the two was taken before
    have hfirst : as ++ [e₁] <+: done ++ es := ⟨e₂ :: more, by rw [heq]; simp⟩
    have hin : as ++ [e₁] <+: done :=
      List.prefix_of_prefix_length_le hfirst (List.prefix_append _ _) (by simp; omega)
    have hfewer := frames_prefix_le (E := E) hin
    omega

theorem heads_of_short {out : List NetworkEnvelope} (h : out.length ≤ 1) : out.head?.toList = out := by
  match out, h with
  | [], _ => rfl
  | [e], _ => rfl

theorem deliveries_cons {buf data left : Bytes} {reads : StreamReader} {out : List NetworkEnvelope}
    (h : consume E limits buf data = (.ok out, left)) :
    deliveries E limits buf (some data :: reads) = out.head?.toList ++ deliveries E limits left reads := by
  rw [deliveries, h]
  cases out <;> rfl

theorem forall_splits_cons {data : Bytes} {chunks : List Bytes} {P : List Bytes → Bytes → Prop} :
    (∀ pre d post, data :: chunks = pre ++ d :: post → P pre d) ↔
      P [] data ∧ ∀ pre d post, chunks = pre ++ d :: post → P (data :: pre) d := by
  constructor
  · exact fun h => ⟨h [] data chunks rfl, fun pre d post heq => h (data :: pre) d post (by rw [heq]; rfl)⟩
  · rintro ⟨hfirst, hmore⟩ pre d post heq
    cases pre with
    | nil =>
      cases heq
      exact hfirst
    | cons x pre =>
      cases heq
      exact hmore pre d post rfl

theorem deliveries_iff : ∀ {reads : StreamReader} {buf : Bytes} {done es : List NetworkEnvelope},
    Unread E limits buf reads.reduceOption.flatten [] es → Waits E buf es → (∀ data ∈ reads.reduceOption, data ≠ []) →
    (deliveries E limits buf reads = es ↔ ∀ pre data post, reads.reduceOption = pre ++ data :: post →
      ReadOk E limits (done ++ es) ((frames E done).length + buf.length + pre.flatten.length) data.length)
  | [], buf, done, es, h, hw, _ => by
    obtain ⟨rfl, -, -⟩ := hw.last h
    exact iff_of_true rfl fun pre data post heq => by simp at heq
  | none :: reads, buf, done, es, h, hw, hne => @deliveries_iff reads buf done es h hw hne
  | some data :: reads, buf, done, es, h, hw, hne => by
    rw [List.reduceOption_cons_of_some] at h hne ⊢
    have hdata := hne data (.head _)
    have htotal := h.left_length
    rw [List.flatten_cons, List.length_append] at htotal
    have hpos := List.length_pos_iff.mpr hdata
    by_cases hroom : buf.length + data.length ≤ limits.maxFrameBufferBytes
    · rw [List.flatten_cons] at h
      obtain ⟨out, left, g', es', hrun, hc⟩ := h.consume hdata hroom
      obtain rfl := hc.kept.clean rfl
      have hleft := hc.unread.left_length
      have hsum : (frames E es).length = (frames E out).length + (frames E es').length := by
        rw [hc.split, frames_append, List.length_append]
      have hbytes : buf.length + data.length = (frames E out).length + left.length := by omega
      have hread := @readOk_iff _ limits _ _ _ done _ _ _ hw hc.split hc.waits hbytes
      have ih := @deliveries_iff reads left (done ++ out) es' hc.unread hc.waits fun d hd => hne d (.tail _ hd)
      have hbefore : (done ++ out) ++ es' = done ++ es := by rw [List.append_assoc, ← hc.split]
      have hposition : ∀ k, (frames E (done ++ out)).length + left.length + k =
          (frames E done).length + buf.length + (data.length + k) := fun k => by
        rw [frames_append, List.length_append]
        omega
      simp only [hbefore, hposition] at ih
      rw [deliveries_cons hrun, forall_splits_cons, List.flatten_nil, List.length_nil, Nat.add_zero, hread]
      simp only [List.flatten_cons, List.length_append]
      constructor
      · intro heq
        have hone : out.length ≤ 1 := by
          by_contra hlong
          obtain ⟨e₁, e₂, out', rfl⟩ := two_of_long hlong
          -- the second envelope would be lost, and its bytes with it
          have hfew := (@deliveries_bytes E limits reads left).1
          have hcount := congrArg (fun l => (frames E l).length) heq
          simp only [List.head?_cons, Option.toList_some, List.singleton_append, frames_cons, List.length_append,
            frame_length] at hcount hsum
          omega
        rw [heads_of_short hone, hc.split, List.append_cancel_left_eq] at heq
        exact ⟨⟨hroom, hone⟩, ih.mp heq⟩
      · rintro ⟨⟨-, hone⟩, hmore⟩
        rw [heads_of_short hone, ih.mpr hmore, hc.split]
    · refine iff_of_false (fun heq => ?_) fun hall => hroom ?_
      · -- the bytes of the read are lost
        have hlost : consume E limits buf data =
            (raise .transportLimitError "frame buffer exceeded % bytes" [.int limits.maxFrameBufferBytes], buf) := by
          rw [consume, if_neg (by simpa using hdata), if_pos (by omega)]
        rw [deliveries, hlost] at heq
        have hfew := (@deliveries_bytes E limits reads buf).1
        have hsame : deliveries E limits buf reads = es := heq
        rw [hsame] at hfew
        omega
      · exact (hall [] data _ rfl).fits_buffer hw

/-! ## Both ends -/

/-- `reads` cuts the bytes that were written. -/
structure Cuts (reads : StreamReader) (written : Bytes) : Prop where
  nonempty : ∀ data ∈ reads.reduceOption, data ≠ []
  flatten : reads.reduceOption.flatten = written

theorem sendBytes_ok {limits : SocketLimits} {e : NetworkEnvelope} {raw : Bytes} (h : sendBytes E limits e = .ok raw) :
    e.Valid ∧ raw = frame E e := by
  simp only [sendBytes, bind_eq_ok, require_eq_ok, Except.ok.injEq] at h
  obtain ⟨raw', hraw, _, -, rfl⟩ := h
  exact (serializeEnvelope_eq_ok E).mp hraw

def TCPClientTransport.written (t : TCPClientTransport) : Bytes :=
  match t.writer with
  | some writer => writer.written
  | none => []

theorem TCPServerTransport.send_ok {t t' : TCPServerTransport} {e : NetworkEnvelope} (h : t.send E e = .ok t') :
    e.Valid ∧ t'.writer.written = t.writer.written ++ frame E e := by
  simp only [TCPServerTransport.send, bind_eq_ok, Except.ok.injEq] at h
  obtain ⟨_, -, raw, hraw, rfl⟩ := h
  obtain ⟨hvalid, rfl⟩ := sendBytes_ok hraw
  exact ⟨hvalid, rfl⟩

theorem TCPClientTransport.send_ok {t t' : TCPClientTransport} {e : NetworkEnvelope} (h : t.send E e = .ok t') :
    e.Valid ∧ t'.written = t.written ++ frame E e := by
  rw [TCPClientTransport.send, bind_eq_ok] at h
  obtain ⟨_, -, h⟩ := h
  cases hw : t.writer with
  | none => rw [hw] at h; cases h
  | some writer =>
    rw [hw] at h
    simp only [bind_eq_ok, Except.ok.injEq] at h
    obtain ⟨raw, hraw, rfl⟩ := h
    obtain ⟨hvalid, rfl⟩ := sendBytes_ok hraw
    exact ⟨hvalid, by rw [TCPClientTransport.written, TCPClientTransport.written, hw]⟩

/-- What a run of sends has written. -/
theorem sends_written {τ : Type} {send : τ → NetworkEnvelope → Except PyErr τ} {written : τ → Bytes}
    (hsend : ∀ t t' e, send t e = .ok t' → e.Valid ∧ written t' = written t ++ frame E e) :
    ∀ {es : List NetworkEnvelope} {t t' : τ}, run send t es = .ok t' →
      (∀ e ∈ es, e.Valid) ∧ written t' = written t ++ frames E es
  | [], t, t', h => by
    cases h
    exact ⟨nofun, (List.append_nil _).symm⟩
  | e :: es, t, t', h => by
    obtain ⟨t₁, hfirst, hmore⟩ := (run_cons_ok send).mp h
    obtain ⟨hvalid, hw⟩ := hsend _ _ _ hfirst
    obtain ⟨hvalids, hw'⟩ := sends_written hsend hmore
    refine ⟨fun x hx => (List.mem_cons.mp hx).elim (fun heq => heq ▸ hvalid) (hvalids x), ?_⟩
    rw [hw', hw, frames_cons, List.append_assoc]

/-- The loop alone, on a fresh connection. -/
theorem loop_delivers_iff {limits : SocketLimits} {reads : StreamReader} {es : List NetworkEnvelope} {n : Nat}
    (hvalid : ∀ e ∈ es, e.Valid) (hcuts : Cuts reads (frames E es)) (hn : reads.length ≤ n) :
    received (fun s : Bytes × StreamReader => receiveLoop E limits s.1 s.2) n ([], reads) = es ↔
      OneByOne E limits es reads.reduceOption := by
  rw [received_loop hcuts.nonempty hn]
  have hwaits : Waits E [] es :=
    ⟨fun e _ _ => by rw [frame_length, List.length_nil]; omega, fun _ => Nat.zero_le _⟩
  have hunread (hfits : ∀ e ∈ es, (frame E e).length ≤ limits.maxMessageSize) :
      Unread E limits [] reads.reduceOption.flatten [] es :=
    ⟨hcuts.flatten, Marker.free_nil (by decide), hvalid, hfits⟩
  have hiff (hfits) := @deliveries_iff E limits reads [] [] es (hunread hfits) hwaits hcuts.nonempty
  simp only [List.nil_append, List.length_nil, frames, List.flatMap_nil, Nat.zero_add] at hiff
  constructor
  · intro heq
    have hfits : ∀ e ∈ es, (frame E e).length ≤ limits.maxMessageSize := by
      rw [← heq]
      exact deliveries_bytes.2
    exact ⟨hfits, (hiff hfits).mp heq⟩
  · exact fun h => (hiff h.fits).mpr h.reads

theorem TCPClientTransport.received_eq : ∀ (n : Nat) {t : TCPClientTransport} {reads : StreamReader}, t.isOpen = true →
    t.reader = some reads → received (TCPClientTransport.receive E) n t =
      received (fun s : Bytes × StreamReader => receiveLoop E t.limits s.1 s.2) n (t.framing, reads)
  | 0, _, _, _, _ => rfl
  | n + 1, t, reads, hopen, hreader => by
    have ih (buf : Bytes) (left : StreamReader) :=
      @TCPClientTransport.received_eq n { t with framing := buf, reader := some left } left hopen rfl
    have hcall : t.receive E = ((receiveLoop E t.limits t.framing reads).1,
        { t with framing := (receiveLoop E t.limits t.framing reads).2.1,
                 reader := some (receiveLoop E t.limits t.framing reads).2.2 }) := by
      rw [TCPClientTransport.receive, if_pos hopen, hreader]
    rw [received, received, hcall]
    rcases receiveLoop E t.limits t.framing reads with ⟨_ | e, buf, left⟩
    · exact ih buf left
    · exact congrArg (e :: ·) (ih buf left)

theorem TCPServerTransport.received_eq : ∀ (n : Nat) {t : TCPServerTransport}, t.isOpen = true →
    received (TCPServerTransport.receive E) n t =
      received (fun s : Bytes × StreamReader => receiveLoop E t.limits s.1 s.2) n (t.framing, t.reader)
  | 0, _, _ => rfl
  | n + 1, t, hopen => by
    have ih (buf : Bytes) (left : StreamReader) :=
      @TCPServerTransport.received_eq n { t with framing := buf, reader := left } hopen
    have hcall : t.receive E = ((receiveLoop E t.limits t.framing t.reader).1,
        { t with framing := (receiveLoop E t.limits t.framing t.reader).2.1,
                 reader := (receiveLoop E t.limits t.framing t.reader).2.2 }) := by
      rw [TCPServerTransport.receive, if_pos hopen]
    rw [received, received, hcall]
    rcases receiveLoop E t.limits t.framing t.reader with ⟨_ | e, buf, left⟩
    · exact ih buf left
    · exact congrArg (e :: ·) (ih buf left)

/-- On a fresh connection, in either direction, the calls of `receive` return what
was sent exactly when the reads take the frames one by one. -/
theorem tcp_delivers_iff (E : Primitives) (es : List NetworkEnvelope) (n : Nat) (client client' : TCPClientTransport)
    (server server' : TCPServerTransport) (reads : StreamReader) (hn : reads.length ≤ n) :
    (run (TCPServerTransport.send E) server es = .ok server' → server.writer.written = [] →
      Cuts reads server'.writer.written → client.isOpen = true → client.framing = [] → client.reader = some reads →
      (received (TCPClientTransport.receive E) n client = es ↔ OneByOne E client.limits es reads.reduceOption)) ∧
    (run (TCPClientTransport.send E) client es = .ok client' → client.written = [] → Cuts reads client'.written →
      server.isOpen = true → server.framing = [] → server.reader = reads →
      (received (TCPServerTransport.receive E) n server = es ↔ OneByOne E server.limits es reads.reduceOption)) := by
  constructor
  · intro hsent hfresh hcuts hopen hframing hreader
    obtain ⟨hvalid, hwritten⟩ := @sends_written E _ _ (fun t => t.writer.written)
      (fun _ _ _ => TCPServerTransport.send_ok) _ _ _ hsent
    rw [hwritten, hfresh] at hcuts
    rw [TCPClientTransport.received_eq n hopen hreader, hframing]
    exact loop_delivers_iff hvalid hcuts hn
  · intro hsent hfresh hcuts hopen hframing hreader
    obtain ⟨hvalid, hwritten⟩ := @sends_written E _ _ TCPClientTransport.written
      (fun _ _ _ => TCPClientTransport.send_ok) _ _ _ hsent
    rw [hwritten, hfresh] at hcuts
    rw [TCPServerTransport.received_eq n hopen, hframing, hreader]
    exact loop_delivers_iff hvalid hcuts hn

/-! ## Two connections -/

def pingClient (written : Bytes) (reads : StreamReader) : TCPClientTransport := ⟨{}, [], some reads, some ⟨false, written⟩⟩

def pingServer (written : Bytes) (reads : StreamReader) : TCPServerTransport := ⟨{}, [], reads, ⟨false, written⟩⟩

theorem ping_sent (written : Bytes) : (pingServer written []).send (recorded []) ⟨3, 0, []⟩ =
    .ok (pingServer (written ++ pingFrame) []) := by
  have hraw : sendBytes (recorded []) {} ⟨3, 0, []⟩ = .ok pingFrame := by
    rw [sendBytes, (serializeEnvelope_eq_ok (recorded [])).mpr ⟨ping_valid, rfl⟩, ok_bind, require_of]
    · rfl
    · rw [← pingFrame, pingFrame_length]
      decide
  have hopen : (pingServer written []).isOpen = true := rfl
  have hlimits : (pingServer written []).limits = {} := rfl
  rw [TCPServerTransport.send, require_of _ hopen, ok_bind, hlimits, hraw]
  rfl

theorem cuts_one {data : Bytes} (h : data ≠ []) : Cuts [some data] data :=
  ⟨fun _ hd => List.mem_singleton.mp hd ▸ h, List.append_nil data⟩

/-- A ping in one read. -/
theorem tcp_delivers_ping :
    received (TCPClientTransport.receive (recorded [])) 1 (pingClient [] [some pingFrame]) = [⟨3, 0, []⟩] := by
  have hsent : run (TCPServerTransport.send (recorded [])) (pingServer [] []) [⟨3, 0, []⟩] = .ok (pingServer pingFrame []) :=
    (run_cons_ok _).mpr ⟨_, ping_sent [], rfl⟩
  have hne : pingFrame ≠ [] := List.ne_nil_of_length_pos (by rw [pingFrame_length]; decide)
  refine ((tcp_delivers_iff (recorded []) [⟨3, 0, []⟩] 1 (pingClient [] [some pingFrame]) (pingClient [] [])
    (pingServer [] []) (pingServer pingFrame []) [some pingFrame] le_rfl).1 hsent rfl (cuts_one hne) rfl rfl rfl).mpr
    ⟨fun e he => ?_, fun pre data post heq => ⟨⟨[], List.nil_prefix, Nat.zero_le _, ?_⟩, fun done e₁ e₂ more h => ?_⟩⟩
  · rw [List.mem_singleton.mp he, ← pingFrame, pingFrame_length]
    decide
  · have hlen := congrArg (fun l => (List.flatten l).length) heq
    simp only [List.reduceOption_cons_of_some, List.reduceOption_nil, List.flatten_cons, List.flatten_nil,
      List.flatten_append, List.length_append, List.length_nil, pingFrame_length] at hlen
    change _ ≤ 0 + 8388608
    omega
  · have hlen := congrArg List.length h
    simp only [List.length_append, List.length_cons, List.length_nil] at hlen
    omega

/-- Two pings in one read: the second is not returned. -/
theorem second_envelope_lost : ¬ ∀ (E : Primitives) (es : List NetworkEnvelope) (n : Nat)
    (client client' : TCPClientTransport) (server server' : TCPServerTransport) (reads : StreamReader), reads.length ≤ n →
    (run (TCPServerTransport.send E) server es = .ok server' → server.writer.written = [] →
      Cuts reads server'.writer.written → client.isOpen = true → client.framing = [] → client.reader = some reads →
      received (TCPClientTransport.receive E) n client = es) ∧
    (run (TCPClientTransport.send E) client es = .ok client' → client.written = [] → Cuts reads client'.written →
      server.isOpen = true → server.framing = [] → server.reader = reads →
      received (TCPServerTransport.receive E) n server = es) := by
  intro h
  have hsent : run (TCPServerTransport.send (recorded [])) (pingServer [] []) [⟨3, 0, []⟩, ⟨3, 0, []⟩] =
      .ok (pingServer (pingFrame ++ pingFrame) []) :=
    (run_cons_ok _).mpr ⟨_, ping_sent [], (run_cons_ok _).mpr ⟨_, ping_sent pingFrame, rfl⟩⟩
  have hne : pingFrame ++ pingFrame ≠ [] :=
    List.ne_nil_of_length_pos (by rw [List.length_append, pingFrame_length]; decide)
  have hcuts := cuts_one hne
  have hrun := (h (recorded []) [⟨3, 0, []⟩, ⟨3, 0, []⟩] 2 (pingClient [] [some (pingFrame ++ pingFrame)]) (pingClient [] [])
    (pingServer [] []) (pingServer (pingFrame ++ pingFrame) []) [some (pingFrame ++ pingFrame)] (by decide)).1
    hsent rfl hcuts rfl rfl rfl
  have hvalid : ∀ e ∈ [(⟨3, 0, []⟩ : NetworkEnvelope), ⟨3, 0, []⟩], e.Valid := fun e he => by
    rcases List.mem_cons.mp he with rfl | he
    · exact ping_valid
    · exact List.mem_singleton.mp he ▸ ping_valid
  have hflat : frames (recorded []) [⟨3, 0, []⟩, ⟨3, 0, []⟩] = pingFrame ++ pingFrame := by
    simp only [frames, List.flatMap_cons, List.flatMap_nil, List.append_nil, pingFrame]
  rw [TCPClientTransport.received_eq 2 rfl rfl] at hrun
  have hone := (loop_delivers_iff hvalid (by rw [hflat]; exact hcuts) (by decide)).mp hrun
  have hlt := (hone.reads [] _ [] rfl).single [] _ _ [] rfl
    (by simp only [List.nil_append, frames_cons, List.length_append, frame_length]; exact Nat.add_pos_left (by decide) _)
  rw [List.nil_append, hflat] at hlt
  simp at hlt

end ChainBreaker
