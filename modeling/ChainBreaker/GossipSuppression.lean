import ChainBreaker.Gossip

/-!
# Suppression of duplicate gossip

A message that the engine accepts stays in the cache until its time is over, or
until enough other messages have passed the rate check behind it
(`accepted_twice`). The invariant is that all that stands behind the message in
the cache has passed since (`held_run`).
-/

namespace ChainBreaker

open Fallible Recency

/-- One call of `receive`. -/
structure GossipCall where
  envelope : NetworkEnvelope
  fromPeerId : Str
  readings : Readings

/-- The message of a call: its type and its payload. -/
def GossipCall.message (call : GossipCall) : Int × Bytes := (call.envelope.messageType, call.envelope.payload)

/-- The readings in the order in which they are taken. -/
def GossipCall.times (call : GossipCall) : List ℚ :=
  let r := call.readings
  [r.created, r.peer, r.total, r.bytes, r.seen, r.evicted, r.inserted]

namespace GossipEngine

section
variable (E : Primitives)

def answer (e : GossipEngine) (call : GossipCall) : Except PyErr Bool :=
  (e.receive E call.envelope call.fromPeerId call.readings).1

def next (e : GossipEngine) (call : GossipCall) : GossipEngine :=
  (e.receive E call.envelope call.fromPeerId call.readings).2

def after (e : GossipEngine) (calls : List GossipCall) : GossipEngine := calls.foldl (next E) e

/-- The call is one of a gossip message within the rates. -/
def Passes (e : GossipEngine) (call : GossipCall) : Prop :=
  call.envelope.messageType ∈ GOSSIP_MESSAGE_TYPES ∧
    (e.checkRate call.fromPeerId call.envelope.payload.length call.readings).1 = .ok ()

/-- The messages that pass the rate check. -/
def Passed (e : GossipEngine) (calls : List GossipCall) (m : Int × Bytes) : Prop :=
  ∃ before call rest, calls = before ++ call :: rest ∧ (e.after E before).Passes call ∧ call.message = m

end

end GossipEngine

def messageId (E : Primitives) (m : Int × Bytes) : Str := GossipCache.gossipId E m.1 m.2

/-! ## One call -/

namespace GossipCache

variable {E : Primitives} {g : GossipCache} {messageType : Int} {payload : Bytes} {now inserted : ℚ}

theorem seen_known (h : contains (g.evictExpired now).entries (gossipId E messageType payload) = true) :
    g.seen E messageType payload now =
      (true, { g with entries := moveToEnd (gossipId E messageType payload) (g.evictExpired now).entries }) := if_pos h

theorem seen_unknown (h : contains (g.evictExpired now).entries (gossipId E messageType payload) = false) :
    g.seen E messageType payload now = (false, g.evictExpired now) := if_neg (by rw [h]; exact Bool.noConfusion)

theorem add_new (h : contains (g.evictExpired now).entries (gossipId E messageType payload) = false) :
    g.add E messageType payload now inserted = { g with
      entries := makeRoom g.maxEntries (g.evictExpired now).entries ++ [(gossipId E messageType payload, inserted)] } :=
  if_neg (by rw [h]; exact Bool.noConfusion)

end GossipCache

namespace GossipEngine

section
variable {E : Primitives} {e e' : GossipEngine} {call : GossipCall}

theorem checkRate_cache (peerId : Str) (size : Nat) (r : Readings) : (e.checkRate peerId size r).2.cache = e.cache := by
  unfold checkRate
  split
  · rfl
  · dsimp only
    split
    · rfl
    · split
      · rfl
      · split <;> rfl

/-- The cache where a call looks its message up. -/
def fresh (e : GossipEngine) (call : GossipCall) : List (Str × ℚ) := (e.cache.evictExpired call.readings.seen).entries

/-- What a call does to the cache. -/
inductive CacheStep (E : Primitives) (e : GossipEngine) (call : GossipCall) : Except PyErr Bool → GossipCache → Prop
  | refused (x : PyErr) : ¬ e.Passes call → CacheStep E e call (.error x) e.cache
  | known : e.Passes call → contains (e.fresh call) (messageId E call.message) = true →
      CacheStep E e call (.ok false) { e.cache with entries := moveToEnd (messageId E call.message) (e.fresh call) }
  | new : e.Passes call → contains (e.fresh call) (messageId E call.message) = false →
      CacheStep E e call (.ok true) { e.cache with
        entries := makeRoom e.cache.maxEntries ((e.fresh call).filter fun entry =>
          !decide (e.cache.ttlSeconds < call.readings.evicted - entry.2)) ++
            [(messageId E call.message, call.readings.inserted)] }

theorem cacheStep (E : Primitives) (e : GossipEngine) (call : GossipCall) :
    CacheStep E e call (e.answer E call) (e.next E call).cache := by
  unfold answer next receive
  split
  · rename_i htype
    exact .refused _ fun h => htype h.1
  · rename_i htype
    have hcache := e.checkRate_cache call.fromPeerId call.envelope.payload.length call.readings
    cases hrate : e.checkRate call.fromPeerId call.envelope.payload.length call.readings with
    | mk outcome e' =>
      rw [hrate] at hcache
      cases outcome with
      | error x =>
        have hrefused : ¬ e.Passes call := fun h => by
          rw [Passes, hrate] at h
          cases h.2
        dsimp only at hcache ⊢
        rw [hcache]
        exact .refused x hrefused
      | ok u =>
        have hpasses : e.Passes call := ⟨not_not.mp htype, by rw [hrate]⟩
        dsimp only at hcache ⊢
        cases hknown : contains (e.fresh call) (messageId E call.message) with
        | true =>
          rw [GossipCache.seen_known (by rw [hcache]; exact hknown)]
          dsimp only
          rw [if_pos rfl, hcache]
          exact .known hpasses hknown
        | false =>
          rw [GossipCache.seen_unknown (by rw [hcache]; exact hknown)]
          dsimp only
          have hunknown : contains ((e.cache.evictExpired call.readings.seen).evictExpired call.readings.evicted).entries
              (GossipCache.gossipId E call.envelope.messageType call.envelope.payload) = false := contains_filter hknown
          rw [if_neg Bool.noConfusion, hcache, GossipCache.add_new hunknown]
          exact .new hpasses hknown

end

end GossipEngine

/-- The keys differ, and there are no more entries than allowed. -/
structure GossipCache.Sound (g : GossipCache) : Prop where
  keys : (g.entries.map Prod.fst).Nodup
  size : (g.entries.length : Int) ≤ g.maxEntries

namespace GossipEngine

section
variable {E : Primitives} {e : GossipEngine} {call : GossipCall} {k : Str} {t bound : ℚ} {S : Set Str}

theorem next_fixed : (e.next E call).cache.maxEntries = e.cache.maxEntries ∧
    (e.next E call).cache.ttlSeconds = e.cache.ttlSeconds := by
  have h := cacheStep E e call
  generalize e.answer E call = answer, (e.next E call).cache = cache at h
  cases h <;> exact ⟨rfl, rfl⟩

theorem fresh_sublist : (e.fresh call).Sublist e.cache.entries := List.filter_sublist

theorem next_sound (h : e.cache.Sound) : (e.next E call).cache.Sound := by
  have hstep := cacheStep E e call
  have hkeys : ((e.fresh call).map Prod.fst).Nodup := h.keys.sublist (fresh_sublist.map _)
  generalize e.answer E call = answer, (e.next E call).cache = cache at hstep
  cases hstep with
  | refused => exact h
  | known _ _ =>
    have hperm := moveToEnd_perm (messageId E call.message) (e.fresh call)
    refine ⟨(hperm.map Prod.fst).nodup_iff.mpr hkeys, ?_⟩
    have hsize := h.size
    have hlen := (@fresh_sublist e call).length_le
    change ((moveToEnd _ (e.fresh call)).length : Int) ≤ e.cache.maxEntries
    rw [hperm.length_eq]
    omega
  | new _ hunknown =>
    have hroom := (makeRoom_suffix e.cache.maxEntries ((e.fresh call).filter fun entry =>
      !decide (e.cache.ttlSeconds < call.readings.evicted - entry.2))).sublist.trans List.filter_sublist
    refine ⟨?_, ?_⟩
    · refine nodup_push (hkeys.sublist (hroom.map _)) (Bool.eq_false_iff.mpr fun hmem => ?_)
      have hknown := contains_iff.mpr ((hroom.map Prod.fst).subset (contains_iff.mp hmem))
      rw [hunknown] at hknown
      cases hknown
    · change ((makeRoom _ _ ++ [_]).length : Int) ≤ e.cache.maxEntries
      have hlt := length_makeRoom_lt e.cache.maxEntries_pos ((e.fresh call).filter fun entry =>
        !decide (e.cache.ttlSeconds < call.readings.evicted - entry.2))
      rw [List.length_append, List.length_singleton]
      omega

/-- The entry may be gone: its time is over at `bound`, or enough other keys have come. -/
def Outlived (e : GossipEngine) (k : Str) (t bound : ℚ) (S : Set Str) : Prop :=
  e.cache.ttlSeconds < bound - t ∨
    ∃ keys : List Str, keys.Nodup ∧ e.cache.maxEntries ≤ keys.length ∧ ∀ key ∈ keys, key ≠ k ∧ key ∈ S

theorem held_step (h : e.cache.Sound) (hheld : Held e.cache.entries k t S) (hseen : call.readings.seen ≤ bound)
    (hevicted : call.readings.evicted ≤ bound) (hkey : e.Passes call → messageId E call.message ∈ S) :
    e.Outlived k t bound S ∨ Held (e.next E call).cache.entries k t S := by
  have hstep := cacheStep E e call
  by_cases hfresh : e.cache.ttlSeconds < call.readings.seen - t
  · exact .inl (.inl (hfresh.trans_le (sub_le_sub_right hseen t)))
  by_cases hlater : e.cache.ttlSeconds < call.readings.evicted - t
  · exact .inl (.inl (hlater.trans_le (sub_le_sub_right hevicted t)))
  have hkept : Held (e.fresh call) k t S := hheld.filter (by simpa using hfresh)
  have hkeys : ((e.fresh call).map Prod.fst).Nodup := h.keys.sublist (fresh_sublist.map _)
  generalize e.answer E call = answer, (e.next E call).cache = cache at hstep
  cases hstep with
  | refused => exact .inr hheld
  | known hpasses _ => exact .inr (hkept.moveToEnd (hkey hpasses))
  | new hpasses hunknown =>
    have hkept' := hkept.filter (p := fun entry => !decide (e.cache.ttlSeconds < call.readings.evicted - entry.2)) (by simpa using hlater)
    rcases hkept'.makeRoom (n := e.cache.maxEntries) with hstays | ⟨rest, hsuffix, hfull, hrest⟩
    · exact .inr (hstays.push (hkey hpasses))
    · -- all entries behind it and the new one are of other keys
      have hsub := (hsuffix.sublist.trans List.filter_sublist).map Prod.fst
      have hbehind := hkeys.sublist hsub
      rw [List.map_cons, List.nodup_cons] at hbehind
      have hnew : messageId E call.message ∉ (e.fresh call).map Prod.fst := fun hmem => by
        rw [contains_iff.mpr hmem] at hunknown
        cases hunknown
      have hne : messageId E call.message ≠ k := fun heq => hnew (heq ▸ hsub.subset List.mem_cons_self)
      have hnot : messageId E call.message ∉ rest.map Prod.fst := fun hmem => hnew (hsub.subset (.tail _ hmem))
      refine .inl (.inr ⟨messageId E call.message :: rest.map Prod.fst, List.nodup_cons.mpr ⟨hnot, hbehind.2⟩, ?_, ?_⟩)
      · rw [List.length_cons, List.length_map]
        push_cast
        exact hfull
      · refine List.forall_mem_cons.mpr ⟨⟨hne, hkey hpasses⟩, fun key hmem => ⟨?_, ?_⟩⟩
        · rintro rfl
          exact hbehind.1 hmem
        · obtain ⟨entry, hentry, rfl⟩ := List.mem_map.mp hmem
          exact hrest entry hentry

/-! ## A run -/

variable {calls : List GossipCall}

theorem after_append (E : Primitives) (e : GossipEngine) (calls more : List GossipCall) :
    e.after E (calls ++ more) = (e.after E calls).after E more := List.foldl_append

theorem after_fixed : ∀ (calls : List GossipCall) (e : GossipEngine),
    (e.after E calls).cache.maxEntries = e.cache.maxEntries ∧ (e.after E calls).cache.ttlSeconds = e.cache.ttlSeconds
  | [], _ => ⟨rfl, rfl⟩
  | _ :: calls, _ => ⟨(after_fixed calls _).1.trans next_fixed.1, (after_fixed calls _).2.trans next_fixed.2⟩

theorem after_sound : ∀ (calls : List GossipCall) {e : GossipEngine}, e.cache.Sound → (e.after E calls).cache.Sound
  | [], _, h => h
  | _ :: calls, _, h => after_sound calls (next_sound h)

/-- A message accepted before the calls is gone for a reason, or still held. -/
theorem held_run : ∀ {calls : List GossipCall} {e : GossipEngine}, e.cache.Sound → Held e.cache.entries k t S →
    (∀ call ∈ calls, call.readings.seen ≤ bound ∧ call.readings.evicted ≤ bound) →
    (∀ m, e.Passed E calls m → messageId E m ∈ S) →
    e.Outlived k t bound S ∨ Held (e.after E calls).cache.entries k t S
  | [], _, _, hheld, _, _ => .inr hheld
  | call :: calls, e, h, hheld, htimes, hpassed => by
    obtain ⟨⟨hseen, hevicted⟩, hrest⟩ := List.forall_mem_cons.mp htimes
    have hkey : e.Passes call → messageId E call.message ∈ S := fun hpasses =>
      hpassed _ ⟨[], call, calls, rfl, hpasses, rfl⟩
    rcases held_step h hheld hseen hevicted hkey with hout | hnext
    · exact .inl hout
    · have hpassed' : ∀ m, (e.next E call).Passed E calls m → messageId E m ∈ S := by
        rintro m ⟨before, c, rest, rfl, hpasses, hm⟩
        exact hpassed m ⟨call :: before, c, rest, rfl, hpasses, hm⟩
      have hrun := held_run (next_sound h) hnext hrest hpassed'
      rw [Outlived, next_fixed.1, next_fixed.2] at hrun
      exact hrun

theorem new_sound {maxEntries : Int} {ttl : ℚ} {g : GossipCache} (h : GossipCache.new maxEntries ttl = .ok g) :
    g.Sound ∧ g.maxEntries = maxEntries ∧ g.ttlSeconds = ttl := by
  unfold GossipCache.new at h
  split at h
  · rename_i hpos
    cases h
    exact ⟨⟨List.nodup_nil, hpos.le⟩, rfl, rfl⟩
  · cases h

/-- An accepted message is the newest entry. -/
theorem held_accepted (h : e.answer E call = .ok true) :
    Held (e.next E call).cache.entries (messageId E call.message) call.readings.inserted S ∧
      contains (e.fresh call) (messageId E call.message) = false := by
  have hstep := cacheStep E e call
  rw [h] at hstep
  generalize (e.next E call).cache = cache at hstep
  cases hstep with
  | new _ hunknown => exact ⟨held_last _ _ _ S, hunknown⟩

/-- Messages for keys. -/
theorem exists_messages {P : Int × Bytes → Prop} : ∀ {keys : List Str}, (∀ key ∈ keys, ∃ m, P m ∧ messageId E m = key) →
    ∃ ms : List (Int × Bytes), ms.map (messageId E) = keys ∧ ∀ m ∈ ms, P m
  | [], _ => ⟨[], rfl, nofun⟩
  | key :: keys, h => by
    obtain ⟨⟨m, hm, rfl⟩, hrest⟩ := List.forall_mem_cons.mp h
    obtain ⟨ms, rfl, hms⟩ := exists_messages hrest
    exact ⟨m :: ms, rfl, List.forall_mem_cons.mpr ⟨hm, hms⟩⟩

/-- **Duplicates are suppressed.** In any run of calls in order of time, a message
is accepted a second time only when its time was over, or when at least
`max_entries` other messages passed the rate check in between; and the cache
never holds more entries than that. -/
theorem accepted_twice (E : Primitives) {maxEntries : Int} {ttl total bytes : ℚ} {g : GossipCache} {limits : GossipLimits}
    {calls : List GossipCall} (hnew : GossipCache.new maxEntries ttl = .ok g)
    (htimes : (calls.flatMap GossipCall.times).Pairwise (· ≤ ·)) :
    ((((new limits g total bytes).after E calls).cache.entries.length : Int) ≤ maxEntries) ∧
    ∀ before first mid second rest, calls = before ++ first :: mid ++ second :: rest → second.message = first.message →
      ((new limits g total bytes).after E before).answer E first = .ok true →
      ((new limits g total bytes).after E (before ++ first :: mid)).answer E second = .ok true →
      ttl < second.readings.seen - first.readings.inserted ∨
        ∃ others : List (Int × Bytes), others.Nodup ∧ maxEntries ≤ others.length ∧
          ∀ m ∈ others, m ≠ first.message ∧ ((new limits g total bytes).after E (before ++ [first])).Passed E mid m := by
  obtain ⟨hsound, hmax, httl⟩ := new_sound hnew
  have hstart : (new limits g total bytes).cache.Sound := hsound
  refine ⟨?_, ?_⟩
  · have hsize := (after_sound (E := E) calls hstart).size
    rw [(after_fixed calls _).1] at hsize
    exact hmax ▸ hsize
  · rintro before first mid second rest rfl hsame hfirst hsecond
    have htimes' : ∀ call ∈ mid, call.readings.seen ≤ second.readings.seen ∧ call.readings.evicted ≤ second.readings.seen := by
      rw [List.flatMap_append, List.pairwise_append] at htimes
      intro call hcall
      have hmem : ∀ x ∈ call.times, x ≤ second.readings.seen := fun x hx =>
        htimes.2.2 x (List.mem_flatMap.mpr ⟨call, List.mem_append_right _ (.tail _ hcall), hx⟩) _
          (List.mem_flatMap.mpr ⟨second, List.mem_cons_self, by simp [GossipCall.times]⟩)
      exact ⟨hmem _ (by simp [GossipCall.times]), hmem _ (by simp [GossipCall.times])⟩
    rw [after_append] at hsecond
    rw [after_append]
    have hsound₁ := @next_sound E _ first (after_sound (E := E) before hstart)
    generalize he : (new limits g total bytes).after E before = e at hfirst hsecond hsound₁ ⊢
    have hfixed : e.cache.maxEntries = maxEntries ∧ e.cache.ttlSeconds = ttl :=
      ⟨he ▸ (after_fixed before _).1.trans hmax, he ▸ (after_fixed before _).2.trans httl⟩
    have hrun := held_run (S := {key | ∃ m, (e.next E first).Passed E mid m ∧ messageId E m = key}) hsound₁
      (held_accepted hfirst).1 htimes' fun m hm => ⟨m, hm, rfl⟩
    rw [Outlived, next_fixed.1, next_fixed.2, hfixed.1, hfixed.2] at hrun
    rcases hrun with (hover | ⟨keys, hnodup, hlen, hkeys⟩) | hheld
    · exact .inl hover
    · obtain ⟨others, rfl, hothers⟩ := exists_messages (P := fun m => (e.next E first).Passed E mid m) fun key hkey => (hkeys key hkey).2
      refine .inr ⟨others, hnodup.of_map _, by rwa [List.length_map] at hlen, fun m hm => ⟨?_, hothers m hm⟩⟩
      rintro rfl
      exact (hkeys _ (List.mem_map_of_mem hm)).1 rfl
    · -- the entry is looked up, so that its time is over
      by_contra hnot
      have hunknown := (held_accepted (S := ∅) hsecond).2
      have httl' : ((e.next E first).after E mid).cache.ttlSeconds = ttl := ((after_fixed mid _).2.trans next_fixed.2).trans hfixed.2
      have hfresh := (hheld.filter (p := fun entry =>
        !decide (((e.next E first).after E mid).cache.ttlSeconds < second.readings.seen - entry.2)) ?_).contains
      · rw [hsame] at hunknown
        exact Bool.noConfusion (hfresh.symm.trans hunknown)
      · rw [httl']
        simpa using fun hover => hnot (.inl hover)

/-- An empty PING at one reading of the clock. -/
def pingCall (t : ℚ) : GossipCall := ⟨⟨PING, 0, []⟩, str "peer-a", ⟨t, t, t, t, t, t, t⟩⟩

/-- The same PING is accepted again when its time is over. -/
theorem accepted_twice_pings : ∃ g, GossipCache.new 1 300 = .ok g ∧
    (((new {} g 0 0).after (recorded []) [pingCall 0, pingCall 301]).cache.entries.length : Int) ≤ 1 ∧
    ((300 : ℚ) < 301 - 0 ∨ ∃ others : List (Int × Bytes), others.Nodup ∧ (1 : Int) ≤ others.length ∧
      ∀ m ∈ others, m ≠ (pingCall 0).message ∧ ((new {} g 0 0).after (recorded []) ([] ++ [pingCall 0])).Passed (recorded []) [] m) := by
  refine ⟨⟨1, 300, [], by decide⟩, rfl, ?_⟩
  have h := @accepted_twice (recorded []) 1 300 0 0 ⟨1, 300, [], by decide⟩ {} [pingCall 0, pingCall 301] rfl (by decide +kernel)
  exact ⟨h.1, h.2 [] (pingCall 0) [] (pingCall 301) [] rfl rfl (of_okEq (by decide +kernel)) (of_okEq (by decide +kernel))⟩

end

end GossipEngine

end ChainBreaker
