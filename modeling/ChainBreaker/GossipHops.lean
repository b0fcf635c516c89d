import ChainBreaker.ForwardedJson
import ChainBreaker.BlockWire

/-!
# How far gossip is carried

A message moves on while its ttl is positive and its hop count below the limit,
both read from its payload. Each hop lowers the one and raises the other
(`extract_adjusted`), so a message goes no further than both allow
(`Carried.fields`); a hop count that starts below zero is allowed further than
`max_hops` (`hops_bounded_iff`).
-/

namespace ChainBreaker

open Fallible

namespace GossipEngine

section
variable {M : Runtime} {limits : GossipLimits} {injected e : NetworkEnvelope} {payload : Bytes} {n : Nat}

/-- The message behind `n` hops, each over an engine with the limits that selects a
peer for it and rewrites it. -/
inductive Carried (M : Runtime) (limits : GossipLimits) (injected : NetworkEnvelope) : Nat → NetworkEnvelope → Prop
  | injected : Carried M limits injected 0 injected
  | forward {n : Nat} {e : NetworkEnvelope} (node : GossipEngine) (hash : Nat → Str → Int) (fromPeerId : Str)
      (peers : List (Str × Int)) (hlimits : node.limits = limits) (h : Carried M limits injected n e)
      (hselects : node.forwardTargets M hash e fromPeerId peers ≠ []) :
      Carried M limits injected (n + 1) (prepareForward M e)

theorem extract_dict {d : Fields} {ttl hop : Int} (h : loadsBytes M payload = .ok (.dict d))
    (httl : Carries d (str "ttl") (.int ttl)) (hhop : Carries d (str "hop_count") (.int hop)) :
    extractForwardFields M payload = (ttl, hop) := by
  unfold extractForwardFields
  rw [h, ok_bind]
  simp only [httl.get, hhop.get, Option.getD_some, pyInt, ok_bind]

/-- A payload that is no object is not forwarded. -/
theorem extract_other (h : ∀ d, loadsBytes M payload ≠ .ok (.dict d)) : extractForwardFields M payload = (0, 0) := by
  unfold extractForwardFields
  cases hload : loadsBytes M payload with
  | error e => rfl
  | ok v =>
    cases v with
    | dict d => exact absurd hload (h d)
    | _ => rfl

/-- **One hop.** The rewritten payload is read as it was meant. -/
theorem extract_adjusted (hM : FloatsRead M) {d : Fields} (h : loadsBytes M payload = .ok (.dict d)) (ttl hop : Int) :
    extractForwardFields M (adjustFields M payload ttl hop) = (max 0 ttl, hop) := by
  have hplain : PlainStr (str "ttl") ∧ PlainStr (str "hop_count") := ⟨plainStr_ascii (by decide), plainStr_ascii (by decide)⟩
  have httl : Carries (Fields.put (Fields.put d (str "ttl") (.int (max 0 ttl))) (str "hop_count") (.int hop))
      (str "ttl") (.int (max 0 ttl)) := (carries_put d _ _).put (by decide) _
  have hhop := carries_put (Fields.put d (str "ttl") (.int (max 0 ttl))) (str "hop_count") (.int hop)
  have hread := loadsBytes_text hM (Fields.put (Fields.put d (str "ttl") (.int (max 0 ttl))) (str "hop_count") (.int hop))
  obtain ⟨d', hd', httl'⟩ := httl.reread hplain.1
  obtain ⟨d'', hd'', hhop'⟩ := hhop.reread hplain.2
  obtain rfl : d' = d'' := Json.dict.inj (hd'.symm.trans hd'')
  rw [hd'] at hread
  rw [adjustFields, h]
  exact extract_dict hread httl' hhop'

/-- A peer is selected only for a gossip message that may go on, and not without fanout. -/
theorem selected {node : GossipEngine} {hash : Nat → Str → Int} {fromPeerId : Str} {peers : List (Str × Int)}
    (h : node.forwardTargets M hash e fromPeerId peers ≠ []) : e.messageType ∈ GOSSIP_MESSAGE_TYPES ∧
      0 < (extractForwardFields M e.payload).1 ∧ (extractForwardFields M e.payload).2 < node.limits.maxHops ∧
      node.limits.fanout ≠ 0 := by
  unfold forwardTargets at h
  split at h
  · exact absurd rfl h
  · rename_i htype
    dsimp only at h
    split at h
    · exact absurd rfl h
    · rename_i hfields
      rw [not_or, not_le, not_le] at hfields
      refine ⟨not_not.mp htype, hfields.1, hfields.2, fun hzero => h ?_⟩
      rw [hzero, sliceTo, if_pos (Int.le_refl 0)]
      exact List.take_zero

/-- **The path.** Behind `n` hops the ttl is lower by `n` and the hop count higher,
and every hop was allowed. -/
theorem Carried.fields (hM : FloatsRead M) (h : Carried M limits injected n e) :
    e.messageType = injected.messageType ∧
      extractForwardFields M e.payload = ((extractForwardFields M injected.payload).1 - n,
        (extractForwardFields M injected.payload).2 + n) ∧
      (0 < n → injected.messageType ∈ GOSSIP_MESSAGE_TYPES ∧ limits.fanout ≠ 0 ∧
        (n : Int) ≤ (extractForwardFields M injected.payload).1 ∧
        (extractForwardFields M injected.payload).2 + n ≤ limits.maxHops) := by
  induction h with
  | injected => exact ⟨rfl, by simp, fun h => absurd h (Nat.lt_irrefl 0)⟩
  | @forward n e node hash fromPeerId peers hlimits h hselects ih =>
    obtain ⟨htype, hfields, -⟩ := ih
    obtain ⟨hgossip, httl, hhop, hfanout⟩ := selected hselects
    rw [hlimits] at hhop hfanout
    have hdict : ∃ d, loadsBytes M e.payload = .ok (.dict d) := by
      by_contra hnone
      rw [extract_other fun d hd => hnone ⟨d, hd⟩] at httl
      exact absurd httl (lt_irrefl 0)
    obtain ⟨d, hd⟩ := hdict
    have hnext : extractForwardFields M (prepareForward M e).payload = _ :=
      extract_adjusted hM hd ((extractForwardFields M e.payload).1 - 1) ((extractForwardFields M e.payload).2 + 1)
    rw [hfields] at httl hhop hnext
    dsimp only at httl hhop hnext
    refine ⟨htype, ?_, fun _ => ⟨htype ▸ hgossip, hfanout, ?_, ?_⟩⟩
    · rw [hnext]
      push_cast
      exact Prod.ext (by dsimp only; omega) (by dsimp only; omega)
    · push_cast
      omega
    · push_cast
      omega

/-- With enough peers, some are selected. -/
theorem exists_selected (hgossip : e.messageType ∈ GOSSIP_MESSAGE_TYPES) (httl : 0 < (extractForwardFields M e.payload).1)
    (hhop : (extractForwardFields M e.payload).2 < limits.maxHops) (hfanout : limits.fanout ≠ 0)
    {node : GossipEngine} (hlimits : node.limits = limits) (hash : Nat → Str → Int) :
    ∃ peers, node.forwardTargets M hash e (str "a") peers ≠ [] := by
  refine ⟨List.replicate (limits.fanout.natAbs + 1) (str "b", 0), fun hnil => ?_⟩
  have hfields : ¬ ((extractForwardFields M e.payload).1 ≤ 0 ∨ limits.maxHops ≤ (extractForwardFields M e.payload).2) := by
    omega
  have hall : (List.replicate (limits.fanout.natAbs + 1) (str "b", (0 : Int))).filter (fun p => p.1 != str "a") =
      List.replicate (limits.fanout.natAbs + 1) (str "b", 0) := List.filter_replicate_of_pos (by decide)
  unfold forwardTargets at hnil
  rw [if_neg (not_not.mpr hgossip)] at hnil
  dsimp only at hnil
  rw [hlimits, if_neg hfields, hall] at hnil
  have hlen := congrArg List.length hnil
  rw [sliceTo, List.length_take, (Lex.sortOn_perm _ _ _).length_eq, List.length_replicate, List.length_nil] at hlen
  split at hlen <;> omega

/-- A path of any length that the fields allow. -/
theorem exists_carried (hM : FloatsRead M) (hgossip : injected.messageType ∈ GOSSIP_MESSAGE_TYPES)
    (hfanout : limits.fanout ≠ 0) (node : GossipEngine) (hlimits : node.limits = limits) :
    ∀ n : Nat, (n : Int) ≤ (extractForwardFields M injected.payload).1 →
      (extractForwardFields M injected.payload).2 + n ≤ limits.maxHops → ∃ e, Carried M limits injected n e
  | 0, _, _ => ⟨injected, .injected⟩
  | n + 1, httl, hhop => by
    push_cast at httl hhop
    obtain ⟨e, he⟩ := exists_carried hM hgossip hfanout node hlimits n (by omega) (by omega)
    obtain ⟨htype, hfields, -⟩ := he.fields hM
    obtain ⟨peers, hpeers⟩ := @exists_selected M limits e (htype ▸ hgossip)
      (by rw [hfields]; dsimp only; omega) (by rw [hfields]; dsimp only; omega) hfanout node hlimits fun _ _ => 0
    exact ⟨_, .forward node _ _ peers hlimits he hpeers⟩

/-- **Where the hop bound holds.** No path forwards the message more than `max_hops`
times exactly when the limit is no negative number and nothing is forwarded at
all, or the ttl is within the limit, or the hop count starts at zero or above. -/
theorem hops_bounded_iff (hM : FloatsRead M) (limits : GossipLimits) (injected : NetworkEnvelope) :
    (∀ n e, Carried M limits injected n e → (n : Int) ≤ limits.maxHops) ↔
      0 ≤ limits.maxHops ∧ (injected.messageType ∉ GOSSIP_MESSAGE_TYPES ∨ limits.fanout = 0 ∨
        (extractForwardFields M injected.payload).1 ≤ limits.maxHops ∨ 0 ≤ (extractForwardFields M injected.payload).2) := by
  constructor
  · intro h
    have hmax : 0 ≤ limits.maxHops := h 0 injected .injected
    refine ⟨hmax, ?_⟩
    by_contra hnot
    simp only [not_or, not_not, not_le] at hnot
    obtain ⟨hgossip, hfanout, httl, hhop⟩ := hnot
    obtain ⟨e, he⟩ := exists_carried hM hgossip hfanout (.new limits ⟨1, 0, [], Int.one_pos⟩ 0 0) rfl
      (limits.maxHops.toNat + 1) (by omega) (by omega)
    have hle := h _ e he
    omega
  · rintro ⟨hmax, hcases⟩ n e he
    rcases Nat.eq_zero_or_pos n with rfl | hpos
    · exact hmax
    · obtain ⟨hgossip, hfanout, httl, hhop⟩ := (he.fields hM).2.2 hpos
      rcases hcases with hnot | hnone | hfew | hstart
      · exact absurd hgossip hnot
      · exact absurd hnone hfanout
      · exact httl.trans hfew
      · omega

end

/-- A PING whose hop count is negative. -/
def earlyPing : NetworkEnvelope := ⟨PING, 0, ascii "\x7b\"hop_count\":-5,\"nonce\":1,\"ttl\":20\x7d"⟩

theorem earlyPing_fields : extractForwardFields alphaCodec.toRuntime earlyPing.payload = (20, -5) := by decide +kernel

/-- A message with a ttl within the limit is carried no further than that. -/
theorem hops_bounded_ping : FloatsRead alphaCodec.toRuntime ∧
    ∀ n e, Carried alphaCodec.toRuntime {} ⟨PING, 0, ascii "\x7b\"nonce\":1,\"ttl\":8\x7d"⟩ n e → (n : Int) ≤ 8 := by
  refine ⟨bitsCodec_read _, (hops_bounded_iff (bitsCodec_read _) {} _).mpr ⟨by decide, .inr (.inr (.inl ?_))⟩⟩
  decide +kernel

/-- The message with the negative hop count is forwarded nine times. -/
theorem earlyPing_unbounded : ¬ ∀ (M : Runtime) (limits : GossipLimits) (injected e : NetworkEnvelope) (n : Nat),
    FloatsRead M → 0 ≤ limits.maxHops → Carried M limits injected n e → (n : Int) ≤ limits.maxHops := by
  intro h
  obtain ⟨e, he⟩ := @exists_carried alphaCodec.toRuntime {} earlyPing (bitsCodec_read _) (by decide) (by decide)
    (.new {} ⟨1, 0, [], Int.one_pos⟩ 0 0) rfl 9 (by rw [earlyPing_fields]; decide) (by rw [earlyPing_fields]; decide)
  have hle := h _ {} earlyPing e 9 (bitsCodec_read _) (by decide) he
  exact absurd hle (by decide)

end GossipEngine

end ChainBreaker
