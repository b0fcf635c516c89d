import Mathlib.Data.Int.ConditionallyCompleteOrder
import ChainBreaker.Lib.Arrival
import ChainBreaker.Completeness

/-!
# A node and the order of its candidates

A node holds a chain and replaces it whenever the engine reports a switch. On
the default network, among accepted chains that agree on their targets where
they fork, it keeps the heavier of two and, of two alike, the one it holds.
-/

namespace ChainBreaker

open Fallible Measure

section
variable (E : Primitives) (identity : NetworkIdentity)

def nodeStep (chain cand : List BlockV2) : List BlockV2 :=
  match engineOn E identity none chain >>= fun eng => eng.evaluateCandidate E cand with
  | .ok r => if r.switched then cand else chain
  | .error _ => chain

def nodeRun (chain : List BlockV2) (cands : List (List BlockV2)) : List BlockV2 :=
  cands.foldl (nodeStep E identity) chain

/-- The engine reads the targets of `b` right off `a`. -/
def Comparable (a b : List BlockV2) : Prop := ∃ k, ForksAt E a b k ∧ TargetsMatch a b k

def cumulativeWork (chain : List BlockV2) : Int := total workOf (targetsOf chain)

/-- An accepted chain without a second preimage of the frozen genesis hash. -/
structure Valid (validator : Option (Json → Bool)) (clock : Int) (chain : List BlockV2) : Prop where
  accepted : Accepts E identity validator clock chain
  pinned : ∀ b ∈ chain, b.hash E = .ok GENESIS_HASH → b.header.bytes = .ok GENESIS_HEADER_BYTES

variable {E identity} {validator : Option (Json → Bool)} {clock : Int} {a b : List BlockV2}

theorem Valid.work (h : Valid E identity validator clock a) : branchWork a = .ok (cumulativeWork a) :=
  accepts_branchWork h.accepted h.pinned

theorem forks_self (h : Valid E identity validator clock a) : ForksAt E a a (a.length - 1) := by
  have hpos := List.length_pos_iff.mpr (accepts_ne h.accepted)
  refine ⟨by omega, by omega, rfl, fun i hi hash hh => ?_⟩
  obtain ⟨x, hx, -⟩ := hashAt_eq_ok.mp hh
  have := (List.getElem?_eq_some_iff.mp hx).1
  omega

theorem comparable_self (h : Valid E identity validator clock a) : Comparable E a a := by
  refine ⟨a.length - 1, forks_self h, fun i x hi hx => ?_⟩
  have := (List.getElem?_eq_some_iff.mp hx).1
  omega

/-- On the default network a step keeps the heavier chain, and the held one of
two alike. -/
theorem nodeStep_eq (hn : identity.networkId = NETWORK_ID) (ha : Valid E identity validator clock a)
    (hb : Valid E identity validator clock b) (hab : Comparable E a b) :
    nodeStep E identity a b = Arrival.keep cumulativeWork a b := by
  obtain ⟨ctx, hctx⟩ := accepts_ctx ha.accepted
  obtain ⟨k, hfork, htargets⟩ := hab
  obtain ⟨x, y, y', hy, hy', hwa, hwb⟩ := branchWork_suffix hfork ha.work hb.work
  unfold nodeStep Arrival.keep
  rw [engineOn_eq hctx, ok_bind]
  split_ifs with hlt
  · obtain ⟨r, hr, hto⟩ := switches_of_more_work ha.accepted hb.accepted hfork
      (fun d (h : (none : Option Int) = some d) => (by cases h)) htargets (.inl hn) hy hy' (by omega)
    rw [hr]
    dsimp only
    rw [if_pos hto.switched]
  · split
    · rename_i r hr
      rw [if_neg]
      intro hsw
      obtain ⟨k', hs⟩ := evaluateCandidate_switched_iff.mp ⟨hr, hsw⟩
      have hk := findCommonAncestor_fork ha.accepted hb.accepted hfork
      obtain rfl : k = k' := Except.ok.inj (hk.symm.trans hs.ancestor)
      obtain ⟨w, w', hw, hw', hww⟩ := hs.work
      rw [hy'] at hw
      rw [hy] at hw'
      cases hw; cases hw'
      omega
    · rfl

section
variable {start : List BlockV2} {cands : List (List BlockV2)}

theorem nodeRun_eq (hn : identity.networkId = NETWORK_ID)
    (hvalid : ∀ c ∈ start :: cands, Valid E identity validator clock c)
    (hcomp : ∀ c ∈ start :: cands, ∀ d ∈ start :: cands, c ≠ d → Comparable E c d) :
    nodeRun E identity start cands = cands.foldl (Arrival.keep cumulativeWork) start := by
  refine Arrival.foldl_eq_keep cumulativeWork (S := (· ∈ start :: cands)) (fun c d hc hd => ?_) (.head _)
    fun c hc => .tail _ hc
  by_cases hcd : c = d
  · subst hcd
    exact nodeStep_eq hn (hvalid c hc) (hvalid c hc) (comparable_self (hvalid c hc))
  · exact nodeStep_eq hn (hvalid c hc) (hvalid d hd) (hcomp c hc d hd hcd)

/-- **Arrival order.** Whatever the order of the candidates, the node ends on
the first of the heaviest chains, its own among them; any other order gives the
same work, and the same chain if a single one is heaviest. -/
theorem nodeRun_order (hn : identity.networkId = NETWORK_ID)
    (hvalid : ∀ c ∈ start :: cands, Valid E identity validator clock c)
    (hcomp : ∀ c ∈ start :: cands, ∀ d ∈ start :: cands, c ≠ d → Comparable E c d) :
    (∀ c ∈ start :: cands, branchWork c = .ok (cumulativeWork c)) ∧
    (∀ order, order.Perm cands → (start :: order).argmax cumulativeWork = some (nodeRun E identity start order)) ∧
    (∀ order order', order.Perm cands → order'.Perm cands →
      cumulativeWork (nodeRun E identity start order) = cumulativeWork (nodeRun E identity start order') ∧
      ∀ best ∈ start :: cands, (∀ c ∈ start :: cands, c ≠ best → cumulativeWork c < cumulativeWork best) →
        nodeRun E identity start order = best ∧ nodeRun E identity start order' = best) := by
  have hrun : ∀ {order}, order.Perm cands →
      nodeRun E identity start order = order.foldl (Arrival.keep cumulativeWork) start := by
    intro order hp
    have hmem : ∀ c ∈ start :: order, c ∈ start :: cands := fun c hc => (hp.cons start).mem_iff.mp hc
    exact nodeRun_eq hn (fun c hc => hvalid c (hmem c hc)) fun c hc d hd => hcomp c (hmem c hc) d (hmem d hd)
  have hbest : ∀ {order}, order.Perm cands → ∀ best ∈ start :: cands,
      (∀ c ∈ start :: cands, c ≠ best → cumulativeWork c < cumulativeWork best) →
      nodeRun E identity start order = best := by
    intro order hp best hb hmax
    rw [hrun hp]
    have hp' := hp.cons start
    exact Arrival.arrivals_unique (hp'.mem_iff.mpr hb) fun c hc => hmax c (hp'.mem_iff.mp hc)
  refine ⟨fun c hc => (hvalid c hc).work, fun order hp => ?_, fun order order' hp hp' => ⟨?_, fun best hb hmax => ?_⟩⟩
  · rw [hrun hp]
    exact Arrival.argmax_arrivals cumulativeWork order start
  · rw [hrun hp, hrun hp']
    exact Arrival.arrivals_perm (hp.trans hp'.symm) start
  · exact ⟨hbest hp best hb hmax, hbest hp' best hb hmax⟩

end

end

/-- Chains that part above one genesis block, all at the greatest target. -/
theorem comparable_stem {E : Primitives} {g : BlockV2} {p q : List BlockV2}
    (hapart : ∀ a ∈ p, ∀ b ∈ q, ∀ h, a.hash E = .ok h → b.hash E ≠ .ok h)
    (htarget : ∀ x ∈ g :: (p ++ q), x.header.target = MAX_TARGET) : Comparable E (g :: p) (g :: q) := by
  have above : ∀ {l : List BlockV2} {i : Nat} {x : BlockV2}, 0 < i → (g :: l)[i]? = some x → x ∈ l := by
    intro l i x hi hx
    obtain ⟨j, rfl⟩ := Nat.exists_eq_succ_of_ne_zero (Nat.ne_of_gt hi)
    exact List.mem_of_getElem? hx
  refine ⟨0, ⟨by simp, by simp, by simp, fun i hi h ha hb => ?_⟩, fun i b hi hb => ?_⟩
  · obtain ⟨x, hx, hxh⟩ := hashAt_eq_ok.mp ha
    obtain ⟨y, hy, hyh⟩ := hashAt_eq_ok.mp hb
    exact hapart x (above hi hx) y (above hi hy) h hxh hyh
  · have hb' : b ∈ g :: (p ++ q) := .tail _ (List.mem_append_right _ (above hi hb))
    have ha : ∃ a ∈ g :: p, ((g :: p)[i]?.or (g :: p).getLast?) = some a := by
      cases hc : (g :: p)[i]? with
      | some a => exact ⟨a, List.mem_of_getElem? hc, rfl⟩
      | none => exact ⟨_, List.getLast_mem (List.cons_ne_nil g p), by rw [Option.none_or]; exact List.getLast?_eq_some_getLast _⟩
    obtain ⟨a, ha, hget⟩ := ha
    have ha' : a ∈ g :: (p ++ q) := by
      rcases List.mem_cons.mp ha with rfl | ha
      · exact .head _
      · exact .tail _ (List.mem_append_left _ ha)
    exact ⟨a, hget, by rw [htarget a ha', htarget b hb']⟩

/-! ## Two blocks of one height -/

/-- A sibling of the alpha network's first block: as much work, a smaller hash. -/
def alphaSibling : BlockV2 := alphaBlock GENESIS_HASH 1704067801 165200

theorem alphaSibling_hash : alphaSibling.hash (recorded []) =
    .ok (str "00007945ffedb06718621d84037f8cfedd910fd90bc4e782291ea000e5241734") := of_okEq (by decide +kernel)

set_option maxRecDepth 100000 in
theorem alphaSibling_accepted : Accepts (recorded []) alphaNetworkIdentity none 1704067800 [alphaGenesis, alphaSibling] := by
  have h : okAnd (fun L₀ => okAnd (fun _ => true) (run (Ledger.addedStep (recorded []) 1704067800) L₀ [alphaSibling]))
      (ledgerOn (recorded []) alphaNetworkIdentity none [alphaGenesis]) = true := by decide +kernel
  obtain ⟨L₀, hL₀, h⟩ := of_okAnd h
  obtain ⟨L', hL', -⟩ := of_okAnd h
  exact (accepts_iff_added (genesis_verifies .alpha alphaGenesis_eq (by decide)) (by decide)).mpr
    ⟨L₀, L', hL₀, hL'⟩

example : alphaSibling.header.target = alphaChild.header.target := by decide +kernel

/-- The chains of the genesis block alone and under each of its two children. -/
def siblings : List (List BlockV2) := [[], [alphaChild], [alphaSibling]].map (alphaGenesis :: ·)

theorem siblings_valid : ∀ c ∈ siblings, Valid (recorded []) alphaNetworkIdentity none 1704067800 c := by
  intro c hc
  simp only [siblings, List.map_cons, List.map_nil, List.mem_cons, List.not_mem_nil, or_false] at hc
  rcases hc with rfl | rfl | rfl
  · exact ⟨alphaGenesis_accepted, fun b hb => alphaChild_noCollision.genesis b (List.mem_append_left _ hb)⟩
  · exact ⟨alphaChild_accepted, fun b hb => alphaChild_noCollision.genesis b (List.mem_append_right _ hb)⟩
  · refine ⟨alphaSibling_accepted, fun b hb hbh => ?_⟩
    rcases List.mem_cons.mp hb with rfl | hb
    · exact alphaGenesis_bytes
    · obtain rfl := List.mem_singleton.mp hb
      exact absurd (Except.ok.inj (alphaSibling_hash.symm.trans hbh)) (by decide)

theorem siblings_comparable : ∀ c ∈ siblings, ∀ d ∈ siblings, c ≠ d → Comparable (recorded []) c d := by
  have hne : alphaChild.hash (recorded []) ≠ alphaSibling.hash (recorded []) := by
    rw [alphaChild_hash, alphaSibling_hash]
    exact fun h => absurd (Except.ok.inj h) (by decide)
  have hcs : ∀ a ∈ [alphaChild], ∀ b ∈ [alphaSibling], ∀ h, a.hash (recorded []) = .ok h → b.hash (recorded []) ≠ .ok h := by
    intro a ha b hb h hah hbh
    rw [List.mem_singleton.mp ha] at hah
    rw [List.mem_singleton.mp hb] at hbh
    exact hne (hah.trans hbh.symm)
  intro c hc d hd hcd
  simp only [siblings, List.mem_map] at hc hd
  obtain ⟨p, hp, rfl⟩ := hc
  obtain ⟨q, hq, rfl⟩ := hd
  simp only [List.mem_cons, List.not_mem_nil, or_false] at hp hq
  rcases hp with rfl | rfl | rfl <;> rcases hq with rfl | rfl | rfl
  · exact absurd rfl hcd
  · exact comparable_stem (by simp) (by decide)
  · exact comparable_stem (by simp) (by decide)
  · exact comparable_stem (by simp) (by decide)
  · exact absurd rfl hcd
  · exact comparable_stem hcs (by decide)
  · exact comparable_stem (by simp) (by decide)
  · exact comparable_stem (fun a ha b hb h hah hbh => hcs b hb a ha h hbh hah) (by decide)
  · exact absurd rfl hcd

theorem nodeRun_order_siblings : siblings.argmax cumulativeWork =
    some (nodeRun (recorded []) alphaNetworkIdentity [alphaGenesis] siblings.tail) :=
  (nodeRun_order rfl siblings_valid siblings_comparable).2.1 siblings.tail (List.Perm.refl _)

/-- Of two blocks of equal work the node keeps the one it saw first. -/
theorem order_decides : ¬ ∀ (E : Primitives) (identity : NetworkIdentity) (validator : Option (Json → Bool))
    (clock : Int) (start : List BlockV2) (order order' : List (List BlockV2)),
      (∀ c ∈ start :: order, Accepts E identity validator clock c) → order.Perm order' →
      (nodeRun E identity start order).getLast? = (nodeRun E identity start order').getLast? := by
  intro h
  have run : ∀ order, (∀ c ∈ [alphaGenesis] :: order, c ∈ siblings) →
      nodeRun (recorded []) alphaNetworkIdentity [alphaGenesis] order =
        order.foldl (Arrival.keep cumulativeWork) [alphaGenesis] := fun _ hmem =>
    nodeRun_eq rfl (fun c hc => siblings_valid c (hmem c hc))
      fun c hc d hd => siblings_comparable c (hmem c hc) d (hmem d hd)
  have hperm : siblings.tail.Perm siblings.tail.reverse := (List.reverse_perm _).symm
  have htip := h _ _ _ _ [alphaGenesis] siblings.tail siblings.tail.reverse
    (fun c hc => (siblings_valid c hc).accepted) hperm
  rw [run siblings.tail fun c hc => hc,
    run siblings.tail.reverse fun c hc => (hperm.cons [alphaGenesis]).mem_iff.mpr hc] at htip
  have hts := congrArg (Option.map fun b => b.header.timestamp) htip
  exact absurd hts (by decide)

end ChainBreaker
