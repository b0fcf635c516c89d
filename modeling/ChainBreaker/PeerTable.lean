import ChainBreaker.Py
import ChainBreaker.Lib.SecondaryIndex
import Mathlib.Algebra.Order.Ring.Rat
import Mathlib.Data.List.Lex
import Mathlib.Data.List.MinMax
import Mathlib.Data.Prod.Lex
import Mathlib.Order.Fin.Basic

/-!
# The peer table

The records of the known peers under their ids, with an index from addresses to
ids. A peer may come back under a new address or under the address of another, and
a full table makes room by giving up a record; the index stays the inverse of the
stored addresses (`run_consistent`).
-/

namespace ChainBreaker

open SecondaryIndex

inductive PeerSource where
  | bootstrap | dns | manual | pex | cache
  deriving DecidableEq

inductive PeerStatus where
  | candidate | connecting | active | failed | banned
  deriving DecidableEq

/-- A known peer. Times are finite binary64 values, which are exact rationals. -/
structure PeerRecord where
  peerId : Str
  host : Str
  port : Int
  source : PeerSource
  score : Int := 500
  capabilities : Fields := []
  lastSeen : Option ℚ := none
  lastAttempt : Option ℚ := none
  failureCount : Int := 0
  status : PeerStatus := .candidate

namespace PeerRecord

def address (r : PeerRecord) : Str × Int := (r.host, r.port)

def touchSuccess (r : PeerRecord) (now : ℚ) : PeerRecord :=
  { r with lastSeen := some now, lastAttempt := some now, failureCount := 0 }

def touchFailure (r : PeerRecord) : PeerRecord := { r with failureCount := r.failureCount + 1 }

def isBanned (r : PeerRecord) : Bool := r.status = .banned

/-- `record.last_seen or 0.0`. -/
def seen (r : PeerRecord) : ℚ := r.lastSeen.getD 0

/-- `_update_existing`: what `existing` is after it. -/
def updated (existing record : PeerRecord) : PeerRecord :=
  { existing with
    score := if record.score > existing.score then record.score else existing.score
    capabilities := record.capabilities.foldl (fun d f => put f.1 f.2 d) existing.capabilities
    lastSeen :=
      match record.lastSeen, existing.lastSeen with
      | none, old => old
      | some new, none => some new
      | some new, some old => if new > old then some new else some old }

end PeerRecord

structure PeerTable where
  maxEntries : Int
  maxSameSourceRatio : ℚ
  maxSamePrefixPeers : Int
  ipv4PrefixBits : Int
  ipv6PrefixBits : Int
  records : List (Str × PeerRecord)
  addressIndex : List ((Str × Int) × Str)

namespace PeerTable

/-- `PeerTable.__init__`. -/
def new (maxEntries : Int) (maxSameSourceRatio : ℚ) (maxSamePrefixPeers ipv4PrefixBits ipv6PrefixBits : Int) :
    Except PyErr PeerTable :=
  if maxEntries ≤ 0 then raise .valueError "max_entries must be positive" []
  else .ok
    { maxEntries
      maxSameSourceRatio := max 0 (min 1 maxSameSourceRatio)
      maxSamePrefixPeers := max 0 maxSamePrefixPeers
      ipv4PrefixBits, ipv6PrefixBits, records := [], addressIndex := [] }

def size (t : PeerTable) : Int := t.records.length

def get (t : PeerTable) (peerId : Str) : Option PeerRecord := t.records.lookup peerId

def all (t : PeerTable) : List PeerRecord := t.records.map Prod.snd

/-- A change of the stored record, which the source makes in place. -/
def change (t : PeerTable) (peerId : Str) (f : PeerRecord → PeerRecord) : PeerTable :=
  { t with records := revise peerId f t.records }

def remove (t : PeerTable) (peerId : Str) : Bool × PeerTable :=
  match t.get peerId with
  | none => (false, t)
  | some rec => (true, { t with records := pop peerId t.records, addressIndex := pop rec.address t.addressIndex })

def ban (t : PeerTable) (peerId : Str) : Bool × PeerTable :=
  match t.get peerId with
  | none => (false, t)
  | some _ => (true, t.change peerId fun rec => { rec with status := .banned })

/-- Lowest score, then oldest `last_seen`, then `peer_id`. -/
def evictionKey (r : PeerRecord) : Int ×ₗ ℚ ×ₗ Str := toLex (r.score, toLex (r.seen, r.peerId))

/-- The order of Python's tuples. -/
@[reducible] def evictionOrder : LinearOrder (Int ×ₗ ℚ ×ₗ Str) :=
  @Prod.Lex.instLinearOrder Int (ℚ ×ₗ Str) Int.instLinearOrder inferInstance

/-- The record that `_evict_for` gives up for the candidate. -/
def victim (t : PeerTable) (candidate : PeerRecord) : Option PeerRecord :=
  -- the order is named, since an order on the integers that does not compute may be found first
  @List.argmin _ _ evictionOrder.toPreorder evictionOrder.toDecidableLT evictionKey
    (t.all.filter fun rec =>
      rec.status = .banned || (rec.source = candidate.source && rec.score < candidate.score))

/-- `_evict_for`. -/
def evictFor (t : PeerTable) (candidate : PeerRecord) : Bool × PeerTable :=
  if t.records.isEmpty then (false, t)
  else
    match t.victim candidate with
    | none => (false, t)
    | some victim => t.remove victim.peerId

/-- The end of `add`. -/
def insert (t : PeerTable) (record : PeerRecord) : PeerTable :=
  { t with
    records := put record.peerId record t.records
    addressIndex := put record.address record.peerId t.addressIndex }

def add (t : PeerTable) (record : PeerRecord) : Except PyErr Bool × PeerTable :=
  match t.get record.peerId with
  | some _ => (.ok false, t.change record.peerId (·.updated record))
  | none =>
    match t.addressIndex.lookup record.address with
    | some existingId =>
      -- the same endpoint under a different id
      match t.get existingId with
      | some _ => (.ok false, t.change existingId (·.updated record))
      | none => (raise .keyError "%" [.str existingId], t)
    | none =>
      if t.size ≥ t.maxEntries then
        match t.evictFor record with
        | (false, t) => (raise .peerTableFullError "peer table capacity reached" [], t)
        | (true, t) => (.ok true, t.insert record)
      else (.ok true, t.insert record)

/-! ## One call -/

structure Consistent (t : PeerTable) : Prop where
  indexed : Indexed PeerRecord.peerId PeerRecord.address t.records t.addressIndex
  bounded : t.size ≤ t.maxEntries
  positive : 0 < t.maxEntries
  prefixPeers : 0 ≤ t.maxSamePrefixPeers

variable {t t' : PeerTable} {record r r' : PeerRecord} {peerId peerId' : Str}

theorem Consistent.get_iff (h : t.Consistent) : t.get peerId = some r ↔ (peerId, r) ∈ t.records :=
  lookup_iff_mem h.indexed.keys

theorem Consistent.mem_all (h : t.Consistent) : r ∈ t.all ↔ t.get r.peerId = some r := by
  rw [h.get_iff, all, List.mem_map]
  constructor
  · rintro ⟨e, he, rfl⟩
    rw [h.indexed.keyed e he]
    exact he
  · exact fun he => ⟨_, he, rfl⟩

theorem Consistent.get_peerId (h : t.Consistent) (hget : t.get peerId = some r) : r.peerId = peerId :=
  h.indexed.keyed _ (h.get_iff.mp hget)

theorem Consistent.change (h : t.Consistent) {f : PeerRecord → PeerRecord} (hid : ∀ r, (f r).peerId = r.peerId)
    (haddress : ∀ r, (f r).address = r.address) (peerId : Str) : (t.change peerId f).Consistent where
  indexed := h.indexed.revise hid haddress peerId
  bounded := by
    have hlength : (t.change peerId f).size = t.size := by simp [PeerTable.change, size, SecondaryIndex.revise]
    rw [hlength]
    exact h.bounded
  positive := h.positive
  prefixPeers := h.prefixPeers

theorem Consistent.drop (h : t.Consistent) (hget : t.get peerId = some r) :
    ({ t with records := pop peerId t.records, addressIndex := pop r.address t.addressIndex } : PeerTable).Consistent where
  indexed := h.indexed.pop (h.get_iff.mp hget)
  bounded := by
    have hlength := List.length_filter_le (fun e : Str × PeerRecord => e.1 != peerId) t.records
    have := h.bounded
    simp only [size, pop] at this ⊢
    omega
  positive := h.positive
  prefixPeers := h.prefixPeers

theorem Consistent.insert (h : t.Consistent) (hid : t.get record.peerId = none)
    (haddress : t.addressIndex.lookup record.address = none) (hroom : t.size < t.maxEntries) : (t.insert record).Consistent := by
  have hinsert : t.insert record = { t with
      records := t.records ++ [(record.peerId, record)]
      addressIndex := t.addressIndex ++ [(record.address, record.peerId)] } := by
    rw [PeerTable.insert, put_new hid, put_new haddress]
  rw [hinsert]
  refine ⟨h.indexed.push hid haddress, ?_, h.positive, h.prefixPeers⟩
  simp only [size, List.length_append, List.length_singleton] at hroom ⊢
  omega

theorem Consistent.remove (h : t.Consistent) (peerId : Str) : (t.remove peerId).2.Consistent := by
  rw [PeerTable.remove]
  split
  · exact h
  · rename_i hget
    exact h.drop hget

theorem Consistent.ban (h : t.Consistent) (peerId : Str) : (t.ban peerId).2.Consistent := by
  rw [PeerTable.ban]
  split
  · exact h
  · refine h.change ?_ ?_ peerId
    · exact fun _ => rfl
    · exact fun _ => rfl

theorem victim_spec (h : t.victim record = some r) : r ∈ t.all ∧
    (r.status = .banned ∨ r.source = record.source ∧ r.score < record.score) := by
  have hmem := List.mem_filter.mp (List.argmin_mem (Option.mem_def.mpr h))
  refine ⟨hmem.1, ?_⟩
  simpa using hmem.2

/-- What `_evict_for` does: nothing, or it gives up one record that may go. -/
theorem evictFor_cases (h : t.Consistent) (record : PeerRecord) : t.evictFor record = (false, t) ∨
    ∃ r, t.get r.peerId = some r ∧ (r.status = .banned ∨ r.source = record.source ∧ r.score < record.score) ∧
      t.evictFor record =
        (true, { t with records := pop r.peerId t.records, addressIndex := pop r.address t.addressIndex }) := by
  rw [evictFor]
  split
  · exact .inl rfl
  · cases hv : t.victim record with
    | none => exact .inl rfl
    | some v =>
      obtain ⟨hmem, hmay⟩ := victim_spec hv
      have hget := h.mem_all.mp hmem
      refine .inr ⟨v, hget, hmay, ?_⟩
      simp only [PeerTable.remove, hget]

/-- `insert` met a new id, a new address and a free place. -/
structure Fits (t : PeerTable) (record : PeerRecord) : Prop where
  consistent : t.Consistent
  peerId : t.get record.peerId = none
  address : t.addressIndex.lookup record.address = none
  room : t.size < t.maxEntries

/-- What `add` does. -/
inductive Adds (t : PeerTable) (record : PeerRecord) : Except PyErr Bool × PeerTable → Prop where
  /-- a stored record with the id or the address takes the news in -/
  | updates {peerId : Str} {r : PeerRecord} (hget : t.get peerId = some r) (hsame : peerId = record.peerId ∨ r.address = record.address) :
      Adds t record (.ok false, t.change peerId (·.updated record))
  | refuses (hfull : t.maxEntries ≤ t.size) :
      Adds t record (raise .peerTableFullError "peer table capacity reached" [], t)
  | enters (hfits : t.Fits record) : Adds t record (.ok true, t.insert record)
  /-- a record goes first -/
  | replaces {r : PeerRecord} (hget : t.get r.peerId = some r) (hmay : r.status = .banned ∨ r.source = record.source ∧ r.score < record.score)
      (hnew : t.get record.peerId = none)
      (hfits : Fits { t with records := pop r.peerId t.records, addressIndex := pop r.address t.addressIndex } record) :
      Adds t record (.ok true, insert
        { t with records := pop r.peerId t.records, addressIndex := pop r.address t.addressIndex } record)

theorem add_spec (h : t.Consistent) (record : PeerRecord) : t.Adds record (t.add record) := by
  rw [add]
  cases hid : t.get record.peerId with
  | some old => exact .updates hid (.inl rfl)
  | none =>
    cases haddress : t.addressIndex.lookup record.address with
    | some existingId =>
      obtain ⟨old, hold, hsame⟩ := (h.indexed.exact _ _).mp ((lookup_iff_mem h.indexed.addresses).mp haddress)
      have hget := h.get_iff.mpr hold
      simp only [hget]
      exact .updates hget (.inr hsame)
    | none =>
      dsimp only
      split
      · rename_i hfull
        rcases evictFor_cases h record with heq | ⟨v, hget, hmay, heq⟩
        · simp only [heq]
          exact .refuses hfull
        · simp only [heq]
          refine .replaces hget hmay hid ⟨h.drop hget, lookup_pop_none hid, lookup_pop_none haddress, ?_⟩
          have hshorter : (pop v.peerId t.records).length < t.records.length :=
            length_pop_lt (List.mem_map.mpr ⟨_, h.get_iff.mp hget, rfl⟩)
          have := h.bounded
          simp only [size] at this ⊢
          omega
      · rename_i hroom
        exact .enters ⟨h, hid, haddress, not_le.mp hroom⟩

theorem Fits.insert (h : t.Fits record) : (t.insert record).Consistent := h.consistent.insert h.peerId h.address h.room

theorem Consistent.add (h : t.Consistent) (record : PeerRecord) : (t.add record).2.Consistent := by
  have hspec := add_spec h record
  generalize t.add record = out at hspec ⊢
  cases hspec with
  | updates hget hsame =>
    refine h.change ?_ ?_ _
    · exact fun _ => rfl
    · exact fun _ => rfl
  | refuses hfull => exact h
  | enters hfits => exact hfits.insert
  | replaces hget hmay hnew hfits => exact hfits.insert

/-! ## Runs -/

end PeerTable

inductive TableCall where
  | add (record : PeerRecord)
  | remove (peerId : Str)
  | ban (peerId : Str)

/-- A peer of the bootstrap list. -/
def seedPeer : PeerRecord :=
  { peerId := str "seed", host := str "10.0.0.1", port := 8333, source := .bootstrap, score := 600 }

/-- Another id at the same address. -/
def exchangedPeer : PeerRecord := { peerId := str "late", host := str "10.0.0.1", port := 8333, source := .pex }

namespace PeerTable

def call (t : PeerTable) : TableCall → PeerTable
  | .add record => (t.add record).2
  | .remove peerId => (t.remove peerId).2
  | .ban peerId => (t.ban peerId).2

def run (t : PeerTable) (calls : List TableCall) : PeerTable := calls.foldl call t

variable {t : PeerTable} {record : PeerRecord}

theorem new_consistent {maxEntries : Int} {ratio : ℚ} {prefixPeers v4 v6 : Int}
    (h : PeerTable.new maxEntries ratio prefixPeers v4 v6 = .ok t) : t.Consistent ∧ t.maxEntries = maxEntries := by
  rw [new] at h
  split at h
  · cases h
  · rename_i hpositive
    cases h
    have hpositive : 0 < maxEntries := not_le.mp hpositive
    exact ⟨⟨.empty, hpositive.le, hpositive, le_max_left _ _⟩, rfl⟩

theorem Consistent.call (h : t.Consistent) : ∀ c, (t.call c).Consistent
  | .add record => h.add record
  | .remove peerId => h.remove peerId
  | .ban peerId => h.ban peerId

theorem run_consistent (h : t.Consistent) (calls : List TableCall) : (t.run calls).Consistent := by
  induction calls generalizing t with
  | nil => exact h
  | cons c calls ih => exact ih (h.call c)

/-- No call changes the limits. -/
theorem maxEntries_add (h : t.Consistent) (record : PeerRecord) : (t.add record).2.maxEntries = t.maxEntries := by
  have hspec := add_spec h record
  generalize t.add record = out at hspec ⊢
  cases hspec <;> rfl

theorem maxEntries_run (h : t.Consistent) (calls : List TableCall) : (t.run calls).maxEntries = t.maxEntries := by
  induction calls generalizing t with
  | nil => rfl
  | cons c calls ih =>
    refine (ih (h.call c)).trans ?_
    cases c with
    | add record => exact maxEntries_add h record
    | remove peerId =>
      rw [call, remove]
      split <;> rfl
    | ban peerId =>
      rw [call, ban]
      split <;> rfl

/-- After any calls the index gives the ids of the stored addresses and nothing
else, no address is stored twice, and the table is no larger than it may be. -/
theorem run_indexed {maxEntries : Int} {ratio : ℚ} {prefixPeers v4 v6 : Int}
    (h : PeerTable.new maxEntries ratio prefixPeers v4 v6 = .ok t) (calls : List TableCall) :
    (∀ address peerId, (t.run calls).addressIndex.lookup address = some peerId ↔
      ∃ r, (t.run calls).get peerId = some r ∧ r.peerId = peerId ∧ r.address = address) ∧
    (∀ peerId peerId' r r', (t.run calls).get peerId = some r → (t.run calls).get peerId' = some r' →
      r.address = r'.address → peerId = peerId') ∧
    (t.run calls).size ≤ maxEntries := by
  obtain ⟨hnew, hmax⟩ := new_consistent h
  have hrun := run_consistent hnew calls
  refine ⟨fun address peerId => ?_, fun peerId peerId' r r' hr hr' heq => ?_, ?_⟩
  · rw [lookup_iff_mem hrun.indexed.addresses, hrun.indexed.exact]
    refine exists_congr fun r => ⟨fun hr => ?_, fun hr => ⟨hrun.get_iff.mp hr.1, hr.2.2⟩⟩
    have hget := hrun.get_iff.mpr hr.1
    exact ⟨hget, hrun.get_peerId hget, hr.2⟩
  · exact (hrun.indexed.unique (hrun.get_iff.mp hr) (hrun.get_iff.mp hr') heq).1
  · rw [← hmax, ← maxEntries_run hnew calls]
    exact hrun.bounded

theorem run_indexed_peers : ∃ t, PeerTable.new 1 (1 / 4) 2 24 48 = .ok t ∧
    (∀ address peerId,
      (t.run [.add seedPeer, .add exchangedPeer, .ban (str "seed")]).addressIndex.lookup address = some peerId ↔
      ∃ r, (t.run [.add seedPeer, .add exchangedPeer, .ban (str "seed")]).get peerId = some r ∧
        r.peerId = peerId ∧ r.address = address) ∧
    (∀ peerId peerId' r r', (t.run [.add seedPeer, .add exchangedPeer, .ban (str "seed")]).get peerId = some r →
      (t.run [.add seedPeer, .add exchangedPeer, .ban (str "seed")]).get peerId' = some r' →
      r.address = r'.address → peerId = peerId') ∧
    (t.run [.add seedPeer, .add exchangedPeer, .ban (str "seed")]).size ≤ 1 :=
  ⟨_, rfl, run_indexed rfl [.add seedPeer, .add exchangedPeer, .ban (str "seed")]⟩

end PeerTable

end ChainBreaker
