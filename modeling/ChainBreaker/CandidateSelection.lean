import ChainBreaker.Lib.Quota
import ChainBreaker.PeerTable
import Mathlib.Data.List.Sort
import Mathlib.Data.Rat.Floor

/-!
# The selection of candidates

`select_candidates` goes down the eligible records in their order with one counter
for every source and one for every network. It takes what fits the quotas of these
labels and of the count (`pick_eq_greedy`), so that no source and no network has
more than its share and nothing is left out for another reason (`select_diverse`).
-/

namespace ChainBreaker

open SecondaryIndex Quota

/-! ## Addresses -/

inductive IpAddress where
  | v4 (n : Nat)
  | v6 (n : Nat) (scope : Option Str)

/-- `str.split` at one character. -/
def splitAt (c : Char) (s : Str) : List Str := s.splitOn (Fin.ofNat _ c.toNat)

/-- `IPv4Address._parse_octet`. -/
def parseOctet (s : Str) : Option Nat :=
  if s.isEmpty || !(s.all fun c => 48 ≤ c.val ∧ c.val ≤ 57) then none
  else if 3 < s.length then none
  else if s != str "0" && s.head? == some 48 then none
  else
    let n := s.foldl (fun n c => 10 * n + (c.val - 48)) 0
    if 255 < n then none else some n

/-- `IPv4Address._ip_int_from_string`. -/
def ip4FromString (s : Str) : Option Nat :=
  let octets := splitAt '.' s
  if octets.length ≠ 4 then none
  else (octets.mapM parseOctet).map fun ns => ns.foldl (fun n octet => 256 * n + octet) 0

/-- `IPv6Address._parse_hextet`. -/
def parseHextet (s : Str) : Option Nat :=
  if s.isEmpty || !(s.all fun c => (hexVal c).isSome) then none
  else if 4 < s.length then none
  else some (hexNat s)

/-- An IPv4 address in the last part stands for two hextets. -/
def expandIp4 (parts : List Str) : Option (List Str) :=
  let last := parts.getLastD []
  if last.contains (Fin.ofNat _ '.'.toNat) then
    (ip4FromString last).map fun n =>
      let hex (n : Nat) : Str := (Nat.toDigits 16 n).map fun c => Fin.ofNat _ c.toNat
      parts.dropLast ++ [hex (n / 65536), hex (n % 65536)]
  else some parts

/-- The places of the empty parts between the first and the last. -/
def skips (parts : List Str) : List Nat :=
  (List.range parts.length).filter fun i => 0 < i && i + 1 < parts.length && (parts.getD i []).isEmpty

/-- How many hextets stand before and behind the `::`. -/
def hextetCounts (parts : List Str) : Option (Nat × Nat) :=
  match skips parts with
  | [] => if parts.length ≠ 8 || (parts.headD []).isEmpty || (parts.getLastD []).isEmpty then none else some (8, 0)
  | [skip] =>
    let lo := parts.length - skip - 1
    if (parts.headD []).isEmpty && skip ≠ 1 then none
    else if (parts.getLastD []).isEmpty && lo ≠ 1 then none
    else
      let hi := if (parts.headD []).isEmpty then 0 else skip
      let lo := if (parts.getLastD []).isEmpty then 0 else lo
      if 8 < hi + lo + 1 then none else some (hi, lo)
  | _ => none

/-- `IPv6Address._ip_int_from_string`. -/
def ip6FromString (s : Str) : Option Nat := do
  if (splitAt ':' s).length < 3 then none
  let parts ← expandIp4 (splitAt ':' s)
  if 9 < parts.length then none
  let (hi, lo) ← hextetCounts parts
  let hextets ← (parts.take hi ++ List.replicate (8 - (hi + lo)) (str "0") ++ parts.drop (parts.length - lo)).mapM parseHextet
  some (hextets.foldl (fun n hextet => 65536 * n + hextet) 0)

/-- `IPv6Address._split_scope_id`. -/
def splitScopeId (s : Str) : Option (Str × Option Str) :=
  match splitAt '%' s with
  | [address] => some (address, none)
  | [address, scope] => if scope.isEmpty then none else some (address, some scope)
  | _ => none

/-- `ipaddress.ip_address`. -/
def ipAddress (host : Str) : Option IpAddress :=
  if host.contains (Fin.ofNat _ '/'.toNat) then none
  else
    match ip4FromString host with
    | some n => some (.v4 n)
    | none => do
      let (address, scope) ← splitScopeId host
      let n ← ip6FromString address
      some (.v6 n scope)

/-- An address of `width` bits without all but its first ones. -/
def networkAddress (width bits n : Nat) : Nat := n / 2 ^ (width - bits) * 2 ^ (width - bits)

/-- A network address in place of its text, which tells any two of them apart. -/
inductive NetworkPrefix where
  | v4 (n : Nat)
  | v6 (n : Nat) (scope : Option Str)
  deriving DecidableEq

/-- `_network_prefix`. A scope stays only on an address that is that of its network. -/
def PeerTable.networkPrefix (t : PeerTable) (host : Str) : Option NetworkPrefix :=
  match ipAddress host with
  | none => none
  | some (.v4 n) =>
    if 0 ≤ t.ipv4PrefixBits ∧ t.ipv4PrefixBits ≤ 32 then some (.v4 (networkAddress 32 t.ipv4PrefixBits.toNat n)) else none
  | some (.v6 n scope) =>
    if 0 ≤ t.ipv6PrefixBits ∧ t.ipv6PrefixBits ≤ 128 then
      let network := networkAddress 128 t.ipv6PrefixBits.toNat n
      some (.v6 network (if network = n then scope else none))
    else none

/-- Two IPv4 hosts are of one network when they share the first bits. -/
theorem networkPrefix_v4 {t : PeerTable} {host host' : Str} {n n' : Nat} (h : ipAddress host = some (.v4 n))
    (h' : ipAddress host' = some (.v4 n')) (h0 : 0 ≤ t.ipv4PrefixBits) (h32 : t.ipv4PrefixBits ≤ 32) :
    t.networkPrefix host = t.networkPrefix host' ↔
      n / 2 ^ (32 - t.ipv4PrefixBits.toNat) = n' / 2 ^ (32 - t.ipv4PrefixBits.toNat) := by
  simp only [PeerTable.networkPrefix, h, h', h0, h32, and_self, if_true, Option.some.injEq, NetworkPrefix.v4.injEq,
    networkAddress]
  exact Nat.mul_left_inj (Nat.two_pow_pos _).ne'

example : ipAddress (str "10.0.3.77") = some (.v4 0x0a00034d) := by rfl

/-! ## The cap of a source -/

def twoPow (k : Int) : ℚ := if 0 ≤ k then 2 ^ k.toNat else 1 / 2 ^ (-k).toNat

/-- The binary64 nearest to `q`, which is not negative; ties go to even. -/
def nearestBinary64 (q : ℚ) : ℚ :=
  let guess : Int := Nat.log2 q.num.toNat - Nat.log2 q.den
  let exponent := if twoPow guess ≤ q then guess else guess - 1
  let unit := twoPow (max (exponent - 52) (-1074))
  let whole := ⌊q / unit⌋
  let rest := q / unit - whole
  unit * (if rest < 1 / 2 || (rest == 1 / 2 && whole % 2 == 0) then whole else whole + 1 : Int)

namespace PeerTable

/-- `max(1, int(self._max_same_source_ratio * count))`. -/
def maxPerSource (t : PeerTable) (count : Int) : Except PyErr Int :=
  if 2 ^ 1024 ≤ nearestBinary64 count then raise .overflowError "int too large to convert to float" []
  else .ok (max 1 ⌊nearestBinary64 (t.maxSameSourceRatio * nearestBinary64 count)⌋)

/-! ## The loop -/

structure Picked where
  chosen : List PeerRecord := []
  sourceCounts : List (PeerSource × Int) := []
  prefixCounts : List (NetworkPrefix × Int) := []

/-- The loop of `select_candidates`. -/
def pick (t : PeerTable) (count : Int) (requireSourceDiversity : Bool) (maxPerSource : Int) :
    Picked → List PeerRecord → List PeerRecord
  | p, [] => p.chosen
  | p, rec :: viable =>
    if p.chosen.length ≥ count then p.chosen
    else if requireSourceDiversity then
      let srcTotal := (p.sourceCounts.lookup rec.source).getD 0
      if srcTotal ≥ maxPerSource then pick t count requireSourceDiversity maxPerSource p viable
      else
        match t.networkPrefix rec.host with
        | none =>
          let p := { p with chosen := p.chosen ++ [rec], sourceCounts := put rec.source (srcTotal + 1) p.sourceCounts }
          pick t count requireSourceDiversity maxPerSource p viable
        | some pre =>
          let preTotal := (p.prefixCounts.lookup pre).getD 0
          if preTotal ≥ t.maxSamePrefixPeers then pick t count requireSourceDiversity maxPerSource p viable
          else
            let p :=
              { chosen := p.chosen ++ [rec]
                sourceCounts := put rec.source (srcTotal + 1) p.sourceCounts
                prefixCounts := put pre (preTotal + 1) p.prefixCounts }
            pick t count requireSourceDiversity maxPerSource p viable
    else pick t count requireSourceDiversity maxPerSource { p with chosen := p.chosen ++ [rec] } viable

/-- Score descending, then recency, then `peer_id`. -/
def selectionKey (r : PeerRecord) : Int ×ₗ ℚ ×ₗ Str := toLex (-r.score, toLex (-r.seen, r.peerId))

def viable (t : PeerTable) : List PeerRecord :=
  t.all.filter fun rec => (rec.status = .candidate || rec.status = .failed) && !rec.isBanned

def selectCandidates (t : PeerTable) (count : Int) (requireSourceDiversity : Bool := true) :
    Except PyErr (List PeerRecord) := do
  if count ≤ 0 then return []
  let viable := t.viable.insertionSort fun a b => selectionKey a ≤ selectionKey b
  let maxPerSource ← t.maxPerSource count
  return t.pick count requireSourceDiversity maxPerSource {} viable

end PeerTable

/-! ## Quotas -/

inductive Label where
  | any
  | source (s : PeerSource)
  | network (p : NetworkPrefix)
  deriving DecidableEq

namespace PeerTable

variable {t : PeerTable} {count perSource : Int} {diverse : Bool} {r : PeerRecord}

def labels (t : PeerTable) (diverse : Bool) (r : PeerRecord) : List Label :=
  if diverse then .any :: .source r.source :: (t.networkPrefix r.host).toList.map .network else [.any]

def quota (t : PeerTable) (count perSource : Int) : Label → Int
  | .any => count
  | .source _ => perSource
  | .network _ => t.maxSamePrefixPeers

/-- The counters hold how many of the chosen records carry each label. -/
structure Counts (t : PeerTable) (diverse : Bool) (p : Picked) : Prop where
  source : diverse → ∀ s, (p.sourceCounts.lookup s).getD 0 = used (t.labels diverse) (.source s) p.chosen
  network : diverse → ∀ n, (p.prefixCounts.lookup n).getD 0 = used (t.labels diverse) (.network n) p.chosen

theorem used_any (chosen : List PeerRecord) : used (t.labels diverse) .any chosen = chosen.length := by
  rw [used, List.countP_eq_length]
  intro r _
  cases diverse <;> simp [labels]

theorem used_source (s : PeerSource) (chosen : List PeerRecord) :
    used (t.labels true) (.source s) chosen = chosen.countP fun r => r.source = s := by
  simp [used, labels, eq_comm]

theorem used_network (n : NetworkPrefix) (chosen : List PeerRecord) :
    used (t.labels true) (.network n) chosen = chosen.countP fun r => t.networkPrefix r.host = some n := by
  simp [used, labels, eq_comm]

theorem fits_diverse {chosen : List PeerRecord} : fits (t.labels true) (t.quota count perSource) chosen r = true ↔
    (chosen.length : Int) < count ∧ (used (t.labels true) (.source r.source) chosen : Int) < perSource ∧
      ∀ n, t.networkPrefix r.host = some n → (used (t.labels true) (.network n) chosen : Int) < t.maxSamePrefixPeers := by
  rw [fits_iff]
  constructor
  · intro h
    refine ⟨?_, h (.source r.source) (by simp [labels]), fun n hn => h (.network n) (by simp [labels, hn])⟩
    rw [← @used_any t true]
    exact h .any (by simp [labels])
  · rintro ⟨hany, hsource, hnetwork⟩ s hs
    simp only [labels, if_true, List.mem_cons, List.mem_map, Option.mem_toList] at hs
    rcases hs with rfl | rfl | ⟨n, hn, rfl⟩
    · rw [used_any]
      exact hany
    · exact hsource
    · exact hnetwork n hn

/-- No record fits when the count is reached. -/
theorem not_fits_full {chosen : List PeerRecord} (h : count ≤ chosen.length) (r : PeerRecord) :
    fits (t.labels diverse) (t.quota count perSource) chosen r = false := by
  rw [Bool.eq_false_iff, ne_eq, fits_iff]
  intro hfits
  have hany := hfits .any (by cases diverse <;> simp [labels])
  rw [used_any, quota] at hany
  omega

theorem Counts.start : t.Counts diverse {} := ⟨fun _ _ => rfl, fun _ _ => rfl⟩

/-- The counters after a record is chosen. -/
theorem Counts.choose {p : Picked} (h : t.Counts true p) (r : PeerRecord) {prefixCounts : List (NetworkPrefix × Int)}
    (hnetworks : ∀ n, (prefixCounts.lookup n).getD 0 =
      (p.prefixCounts.lookup n).getD 0 + if t.networkPrefix r.host = some n then 1 else 0) :
    t.Counts true
      { chosen := p.chosen ++ [r]
        sourceCounts := put r.source ((p.sourceCounts.lookup r.source).getD 0 + 1) p.sourceCounts
        prefixCounts } where
  source := by
    intro _ s
    rw [used_snoc, Nat.cast_add, ← h.source rfl s]
    by_cases hs : s = r.source
    · subst hs
      rw [lookup_put_self, if_pos (by simp [labels]), Option.getD_some, Nat.cast_one]
    · rw [lookup_put_other hs, if_neg (by simpa [labels] using hs), Nat.cast_zero, add_zero]
  network := by
    intro _ n
    have hmem : Label.network n ∈ t.labels true r ↔ t.networkPrefix r.host = some n := by simp [labels]
    rw [used_snoc, Nat.cast_add, hnetworks, ← h.network rfl n, if_congr hmem rfl rfl]
    split <;> rfl

theorem prefix_counted {l : List (NetworkPrefix × Int)} {n : NetworkPrefix} (hn : t.networkPrefix r.host = some n) (m : NetworkPrefix) :
    ((put n ((l.lookup n).getD 0 + 1) l).lookup m).getD 0 =
      (l.lookup m).getD 0 + if t.networkPrefix r.host = some m then 1 else 0 := by
  by_cases hm : m = n
  · subst hm
    rw [lookup_put_self, if_pos hn, Option.getD_some]
  · rw [lookup_put_other hm, if_neg (by rw [hn, Option.some.injEq]; exact Ne.symm hm), add_zero]

/-- The loop is the greedy choice under the quotas. -/
theorem pick_eq_greedy {p : Picked} (h : t.Counts diverse p) (viable : List PeerRecord) :
    t.pick count diverse perSource p viable = greedy (t.labels diverse) (t.quota count perSource) p.chosen viable := by
  induction viable generalizing p with
  | nil => rfl
  | cons r viable ih =>
    rw [pick]
    split
    · rename_i hfull
      exact (greedy_full fun r _ => not_fits_full hfull r).symm
    · rename_i hroom
      cases diverse with
      | false =>
        have hfits : fits (t.labels false) (t.quota count perSource) p.chosen r = true := by
          rw [fits_iff]
          intro s hs
          rw [List.mem_singleton.mp hs, used_any]
          exact not_le.mp hroom
        rw [if_neg Bool.noConfusion, greedy, if_pos hfits]
        exact ih ⟨by rintro ⟨⟩, by rintro ⟨⟩⟩
      | true =>
        rw [if_pos rfl, greedy]
        dsimp only
        rw [h.source rfl]
        split
        · -- the source is used up
          rename_i hsource
          rw [if_neg fun hfits => absurd (fits_diverse.mp hfits).2.1 (not_lt.mpr hsource)]
          exact ih h
        · rename_i hsource
          cases hn : t.networkPrefix r.host with
          | none =>
            have hfits := fits_diverse.mpr ⟨not_le.mp hroom, not_le.mp hsource, fun n hn' => by rw [hn] at hn'; cases hn'⟩
            rw [if_pos hfits, ← h.source rfl]
            exact ih (h.choose r fun n => by rw [hn, if_neg (by rintro ⟨⟩), add_zero])
          | some n =>
            dsimp only
            rw [h.network rfl]
            split
            · -- the network is used up
              rename_i hnetwork
              rw [if_neg fun hfits => absurd ((fits_diverse.mp hfits).2.2 n hn) (not_lt.mpr hnetwork)]
              exact ih h
            · rename_i hnetwork
              have hfits := fits_diverse.mpr ⟨not_le.mp hroom, not_le.mp hsource, fun n' hn' => by
                rw [hn, Option.some.injEq] at hn'
                rw [← hn']
                exact not_le.mp hnetwork⟩
              rw [if_pos hfits, ← h.source rfl, ← h.network rfl]
              exact ih (h.choose r (prefix_counted hn))

/-! ## What is selected -/

def Eligible (t : PeerTable) (r : PeerRecord) : Prop :=
  t.get r.peerId = some r ∧ (r.status = .candidate ∨ r.status = .failed)

theorem mem_viable (h : t.Consistent) : r ∈ t.viable ↔ t.Eligible r := by
  rw [viable, List.mem_filter, h.mem_all, Eligible, PeerRecord.isBanned]
  refine and_congr_right fun _ => ?_
  cases r.status <;> simp

/-- With diversity or without it. -/
theorem selectCandidates_eligible (h : t.Consistent) {chosen : List PeerRecord}
    (hchosen : t.selectCandidates count diverse = .ok chosen) (hr : r ∈ chosen) : t.Eligible r := by
  rw [selectCandidates] at hchosen
  split at hchosen
  · rw [← Except.ok.inj hchosen] at hr
    cases hr
  · cases hcap : t.maxPerSource count with
    | error e =>
      rw [hcap] at hchosen
      cases hchosen
    | ok perSource =>
      rw [hcap] at hchosen
      have heq := Except.ok.inj hchosen
      rw [pick_eq_greedy Counts.start] at heq
      rw [← heq] at hr
      exact (mem_viable h).mp ((List.mem_insertionSort _).mp ((greedy_sublist _).subset hr))

/-- A record is chosen when neither the count nor the cap of its source nor that of
its network is used up by those chosen before it. -/
structure Selection (t : PeerTable) (count : Int) (chosen : List PeerRecord) : Prop where
  bounded : (chosen.length : Int) ≤ max 0 count
  distinct : (chosen.map PeerRecord.peerId).Nodup
  eligible : ∀ r ∈ chosen, t.Eligible r
  perSource : ∀ cap, t.maxPerSource count = .ok cap → ∀ s, (chosen.countP (fun r => r.source = s) : Int) ≤ cap
  perPrefix : ∀ n, (chosen.countP (fun r => t.networkPrefix r.host = some n) : Int) ≤ t.maxSamePrefixPeers
  ordered : chosen.Pairwise fun a b => selectionKey a < selectionKey b
  maximal : ∀ r, t.Eligible r → r ∉ chosen →
    let earlier := chosen.filter fun a => selectionKey a < selectionKey r
    count ≤ earlier.length ∨
    (∃ cap, t.maxPerSource count = .ok cap ∧ cap ≤ earlier.countP fun a => a.source = r.source) ∨
    ∃ n, t.networkPrefix r.host = some n ∧
      t.maxSamePrefixPeers ≤ earlier.countP fun a => t.networkPrefix a.host = some n

theorem Consistent.all_peerIds (h : t.Consistent) : t.all.map PeerRecord.peerId = t.records.map Prod.fst := by
  rw [all, List.map_map]
  exact List.map_congr_left fun e he => h.indexed.keyed e he

/-- The records in their order, which is strict: no two have one id. -/
theorem viable_sorted (h : t.Consistent) :
    (t.viable.insertionSort fun a b => selectionKey a ≤ selectionKey b).Pairwise fun a b => selectionKey a < selectionKey b := by
  have htotal : Std.Total fun a b : PeerRecord => selectionKey a ≤ selectionKey b := ⟨fun _ _ => le_total _ _⟩
  have htrans : IsTrans PeerRecord fun a b => selectionKey a ≤ selectionKey b := ⟨fun _ _ _ => le_trans⟩
  have hids : (t.viable.map PeerRecord.peerId).Nodup := by
    refine List.Nodup.sublist (List.filter_sublist.map _) ?_
    rw [h.all_peerIds]
    exact h.indexed.keys
  have hne : (t.viable.insertionSort fun a b => selectionKey a ≤ selectionKey b).Pairwise fun a b => a.peerId ≠ b.peerId :=
    List.pairwise_map.mp ((((List.perm_insertionSort _ t.viable).map _).nodup_iff).mpr hids)
  refine ((List.pairwise_insertionSort _ t.viable).and hne).imp fun {a b} hab => ?_
  refine lt_of_le_of_ne hab.1 fun heq => hab.2 ?_
  exact congrArg (fun k => (ofLex (ofLex k).2).2) heq

theorem select_selection (h : t.Consistent) (hcap : t.maxPerSource count = .ok perSource) :
    t.Selection count (t.pick count true perSource {} (t.viable.insertionSort fun a b => selectionKey a ≤ selectionKey b)) := by
  rw [pick_eq_greedy Counts.start]
  have hsorted := viable_sorted h
  set l := t.viable.insertionSort fun a b => selectionKey a ≤ selectionKey b with hl
  have hmem : ∀ r, r ∈ l ↔ t.Eligible r := fun r => (List.mem_insertionSort _).trans (mem_viable h)
  have hchosen := @greedy_sublist _ _ _ (t.labels true) (t.quota count perSource) l
  have hordered := hsorted.sublist hchosen
  have hone : 1 ≤ perSource := by
    rw [maxPerSource] at hcap
    split at hcap
    · cases hcap
    · rw [← Except.ok.inj hcap]
      exact le_max_left _ _
  have hquota : ∀ s, (used (t.labels true) s (greedy (t.labels true) (t.quota count perSource) [] l) : Int) ≤
      max 0 (t.quota count perSource s) := fun s => used_greedy_le (by simp [used]) l
  refine ⟨?_, ?_, fun r hr => (hmem r).mp (hchosen.subset hr), ?_, ?_, hordered, ?_⟩
  · have hany := hquota .any
    rwa [used_any] at hany
  · refine List.pairwise_map.mpr (hordered.imp_of_mem fun {a b} ha hb hlt heq => ?_)
    have ha := ((hmem a).mp (hchosen.subset ha)).1
    rw [heq, ((hmem b).mp (hchosen.subset hb)).1, Option.some.injEq] at ha
    rw [ha] at hlt
    exact lt_irrefl _ hlt
  · intro cap hcap' s
    rw [hcap, Except.ok.injEq] at hcap'
    subst hcap'
    have hsource := hquota (.source s)
    rwa [used_source, quota, max_eq_right (by omega)] at hsource
  · intro n
    have hnetwork := hquota (.network n)
    rwa [used_network, quota, max_eq_right h.prefixPeers] at hnetwork
  · intro r hr hnot
    obtain ⟨s, hs, hused⟩ := greedy_maximal hsorted ((hmem r).mpr hr) hnot
    simp only [labels, if_true, List.mem_cons, List.mem_map, Option.mem_toList] at hs
    rcases hs with rfl | rfl | ⟨n, hn, rfl⟩
    · rw [used_any] at hused
      exact .inl hused
    · rw [used_source] at hused
      exact .inr (.inl ⟨perSource, hcap, hused⟩)
    · rw [used_network] at hused
      exact .inr (.inr ⟨n, hn, hused⟩)

theorem selection_nil (h : t.Consistent) (hcount : count ≤ 0) : t.Selection count [] where
  bounded := le_max_left _ _
  distinct := List.nodup_nil
  eligible := nofun
  perSource := by
    intro cap hcap s
    rw [maxPerSource] at hcap
    split at hcap
    · cases hcap
    · rw [← Except.ok.inj hcap]
      exact (zero_le_one' Int).trans (le_max_left _ _)
  perPrefix := fun _ => h.prefixPeers
  ordered := List.Pairwise.nil
  maximal := fun _ _ _ => .inl hcount

/-- Selection with source diversity from any table, for any count. A count too large
for a float raises, and nothing else does. -/
theorem select_diverse {maxEntries : Int} {ratio : ℚ} {prefixPeers v4 v6 : Int} {t₀ : PeerTable}
    (h : PeerTable.new maxEntries ratio prefixPeers v4 v6 = .ok t₀) (calls : List TableCall) (count : Int) :
    (∃ chosen, (t₀.run calls).selectCandidates count = .ok chosen ∧ (t₀.run calls).Selection count chosen) ∨
    2 ^ 1024 ≤ nearestBinary64 count ∧
      (t₀.run calls).selectCandidates count = raise .overflowError "int too large to convert to float" [] := by
  have hrun := run_consistent (new_consistent h).1 calls
  generalize t₀.run calls = t at hrun ⊢
  rw [selectCandidates]
  by_cases hcount : count ≤ 0
  · rw [if_pos hcount]
    exact .inl ⟨[], rfl, selection_nil hrun hcount⟩
  · rw [if_neg hcount]
    cases hcap : t.maxPerSource count with
    | ok perSource => exact .inl ⟨_, rfl, select_selection hrun hcap⟩
    | error e =>
      rw [maxPerSource] at hcap
      split at hcap
      · rename_i hlarge
        refine .inr ⟨hlarge, ?_⟩
        rw [raise, Except.error.injEq] at hcap
        rw [← hcap]
        rfl
      · cases hcap

theorem select_diverse_peers : ∃ t, PeerTable.new 4096 (1 / 4) 2 24 48 = .ok t ∧
    ((∃ chosen, (t.run [.add seedPeer, .add exchangedPeer]).selectCandidates 8 = .ok chosen ∧
      (t.run [.add seedPeer, .add exchangedPeer]).Selection 8 chosen) ∨
    2 ^ 1024 ≤ nearestBinary64 (8 : Int) ∧ (t.run [.add seedPeer, .add exchangedPeer]).selectCandidates 8 =
      raise .overflowError "int too large to convert to float" []) :=
  ⟨_, rfl, select_diverse (show PeerTable.new 4096 (1 / 4) 2 24 48 = .ok _ from rfl) [.add seedPeer, .add exchangedPeer] 8⟩

end PeerTable

end ChainBreaker
