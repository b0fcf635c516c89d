import ChainBreaker.CandidateSelection

/-!
# Bans of the discovery manager

The ban of a peer is the status of its record, which a report of a handshake
overwrites: a success that is reported after the ban lifts it. Where no success is
reported for a banned peer, a ban holds as long as the record stays (`bans_hold`).
-/

namespace ChainBreaker

open SecondaryIndex

/-- What `source.load()` gives at a call. -/
abbrev SourceLoad := Except PyErr (List PeerRecord)

structure DiscoveryManager where
  table : PeerTable
  maxOutbound : Int
  loaded : Bool

namespace DiscoveryManager

def new (table : PeerTable) (maxOutbound : Int) : DiscoveryManager := ⟨table, max 0 maxOutbound, false⟩

/-- The records of one source. A full table ends them, another exception is passed over. -/
def loadRecords (t : PeerTable) (added : Int) : List PeerRecord → Int × PeerTable
  | [] => (added, t)
  | rec :: records =>
    match t.add rec with
    | (.ok _, t) => loadRecords t (added + 1) records
    | (.error e, t) => if e.kind = .peerTableFullError then (added, t) else loadRecords t added records

def loadSources (t : PeerTable) (added : Int) : List SourceLoad → Except PyErr Int × PeerTable
  | [] => (.ok added, t)
  | .error e :: _ => (.error e, t)
  | .ok records :: loads =>
    let (added, t) := loadRecords t added records
    loadSources t added loads

def loadBootstrap (m : DiscoveryManager) (loads : List SourceLoad) : Except PyErr Int × DiscoveryManager :=
  match loadSources m.table 0 loads with
  | (.error e, t) => (.error e, { m with table := t })
  | (.ok added, t) => (.ok added, { m with table := t, loaded := true })

def addDiscovered (m : DiscoveryManager) (record : PeerRecord) : Except PyErr Bool × DiscoveryManager :=
  match m.table.add record with
  | (.ok added, t) => (.ok added, { m with table := t })
  | (.error e, t) => (if e.kind = .peerTableFullError then .ok false else .error e, { m with table := t })

def selectCandidates (m : DiscoveryManager) (loads : List SourceLoad) :
    Except PyErr (List PeerRecord) × DiscoveryManager :=
  if m.loaded then (m.table.selectCandidates m.maxOutbound, m)
  else
    match m.loadBootstrap loads with
    | (.error e, m) => (.error e, m)
    | (.ok _, m) => (m.table.selectCandidates m.maxOutbound, m)

def succeeded (now : ℚ) (rec : PeerRecord) : PeerRecord :=
  let touched := rec.touchSuccess now
  { touched with status := .active, score := min 1000 (touched.score + 50) }

def failed (rec : PeerRecord) : PeerRecord :=
  let touched := { rec.touchFailure with score := max 0 (rec.score - 100) }
  if touched.failureCount ≥ 3 then { touched with status := .banned, score := 0 }
  else if touched.status ≠ .banned then { touched with status := .failed }
  else touched

def reportHandshakeSuccess (m : DiscoveryManager) (peerId : Str) (now : ℚ) : Bool × DiscoveryManager :=
  match m.table.get peerId with
  | none => (false, m)
  | some _ => (true, { m with table := m.table.change peerId (succeeded now) })

def reportHandshakeFailure (m : DiscoveryManager) (peerId : Str) : Bool × DiscoveryManager :=
  match m.table.get peerId with
  | none => (false, m)
  | some _ => (true, { m with table := m.table.change peerId failed })

def ban (m : DiscoveryManager) (peerId : Str) : Bool × DiscoveryManager :=
  let (banned, t) := m.table.ban peerId
  (banned, { m with table := t })

end DiscoveryManager

/-! ## Runs -/

inductive DiscoveryCall where
  /-- `peer_table.add` and `peer_table.remove` -/
  | add (record : PeerRecord)
  | remove (peerId : Str)
  | loadBootstrap (loads : List SourceLoad)
  | addDiscovered (record : PeerRecord)
  | selectCandidates (loads : List SourceLoad)
  | reportHandshakeSuccess (peerId : Str) (now : ℚ)
  | reportHandshakeFailure (peerId : Str)
  | ban (peerId : Str)

namespace DiscoveryManager

def call (m : DiscoveryManager) : DiscoveryCall → DiscoveryManager
  | .add record => { m with table := (m.table.add record).2 }
  | .remove peerId => { m with table := (m.table.remove peerId).2 }
  | .loadBootstrap loads => (m.loadBootstrap loads).2
  | .addDiscovered record => (m.addDiscovered record).2
  | .selectCandidates loads => (m.selectCandidates loads).2
  | .reportHandshakeSuccess peerId now => (m.reportHandshakeSuccess peerId now).2
  | .reportHandshakeFailure peerId => (m.reportHandshakeFailure peerId).2
  | .ban peerId => (m.ban peerId).2

def run (m : DiscoveryManager) (calls : List DiscoveryCall) : DiscoveryManager := calls.foldl call m

/-- Every call of the run meets `P` where it is made. -/
def Along (P : DiscoveryManager → DiscoveryCall → Prop) (m : DiscoveryManager) : List DiscoveryCall → Prop
  | [] => True
  | c :: calls => P m c ∧ Along P (m.call c) calls

/-- The tables between the records of one load. -/
def recordTables (t : PeerTable) : List PeerRecord → List PeerTable
  | [] => []
  | rec :: records => (t.add rec).2 ::
    match t.add rec with
    | (.ok _, t) => recordTables t records
    | (.error e, t) => if e.kind = .peerTableFullError then [] else recordTables t records

def sourceTables (t : PeerTable) : List SourceLoad → List PeerTable
  | [] => []
  | .error _ :: _ => []
  | .ok records :: loads => recordTables t records ++ sourceTables (loadRecords t 0 records).2 loads

/-- The tables that a call passes through. -/
def tables (m : DiscoveryManager) : DiscoveryCall → List PeerTable
  | .loadBootstrap loads => sourceTables m.table loads
  | .selectCandidates loads => if m.loaded then [] else sourceTables m.table loads
  | c => [(m.call c).table]

/-- The call neither removes nor evicts the record of the peer. -/
def Keeps (peerId : Str) (m : DiscoveryManager) (c : DiscoveryCall) : Prop :=
  ∀ t ∈ m.tables c, (t.get peerId).isSome

/-- No success is reported for a banned peer. -/
def LeavesBans (m : DiscoveryManager) : DiscoveryCall → Prop
  | .reportHandshakeSuccess peerId _ => ∀ rec, m.table.get peerId = some rec → rec.status ≠ .banned
  | _ => True

/-- What is selected after a ban, while the record stays, is neither the peer nor
another one at its address. -/
def BansHold (m : DiscoveryManager) (calls : List DiscoveryCall) : Prop :=
  ∀ before peerId between loads after rec chosen,
    calls = before ++ .ban peerId :: (between ++ .selectCandidates loads :: after) →
    (m.run (before ++ [.ban peerId])).table.get peerId = some rec →
    Along (Keeps peerId) (m.run (before ++ [.ban peerId])) (between ++ [.selectCandidates loads]) →
    ((m.run (before ++ .ban peerId :: between)).selectCandidates loads).1 = .ok chosen →
    ∀ r ∈ chosen, r.peerId ≠ peerId ∧ r.address ≠ rec.address

end DiscoveryManager

/-! ## A banned record -/

namespace PeerTable

variable {t : PeerTable} {record : PeerRecord} {peerId : Str} {address : Str × Int}

/-- The record of the peer is banned. -/
def BannedAt (t : PeerTable) (peerId : Str) (address : Str × Int) : Prop :=
  ∃ rec, t.get peerId = some rec ∧ rec.status = .banned ∧ rec.address = address

theorem BannedAt.isSome (h : t.BannedAt peerId address) : (t.get peerId).isSome := by
  obtain ⟨rec, hget, -⟩ := h
  rw [hget]
  rfl

/-- A change of one record leaves the ban when it does so where the peer is the one changed. -/
theorem BannedAt.change (h : t.BannedAt peerId address) {changed : Str} {f : PeerRecord → PeerRecord}
    (hstatus : ∀ rec, t.get peerId = some rec → changed = peerId → rec.status = .banned → (f rec).status = .banned)
    (haddress : ∀ rec, (f rec).address = rec.address) : (t.change changed f).BannedAt peerId address := by
  obtain ⟨rec, hget, hbanned, rfl⟩ := h
  by_cases hid : peerId = changed
  · subst hid
    refine ⟨f rec, ?_, hstatus rec hget rfl hbanned, haddress rec⟩
    rw [PeerTable.get, PeerTable.change, lookup_revise_self, ← PeerTable.get, hget, Option.map_some]
  · refine ⟨rec, ?_, hbanned, rfl⟩
    rw [PeerTable.get, PeerTable.change, lookup_revise_other hid, ← PeerTable.get, hget]

theorem get_insert_other (h : peerId ≠ record.peerId) : (t.insert record).get peerId = t.get peerId :=
  lookup_put_other h _ _

/-- `add` leaves a ban in place unless it evicts the record. -/
theorem BannedAt.add (h : t.Consistent) (hbanned : t.BannedAt peerId address)
    (hkept : ((t.add record).2.get peerId).isSome) : (t.add record).2.BannedAt peerId address := by
  have hspec := add_spec h record
  generalize t.add record = out at hspec hkept ⊢
  cases hspec with
  | updates hget hsame =>
    refine hbanned.change (fun rec _ _ hrec => hrec) ?_
    exact fun _ => rfl
  | refuses hfull => exact hbanned
  | enters hfits =>
    have hne : peerId ≠ record.peerId := by
      rintro rfl
      have hsome := hbanned.isSome
      rw [hfits.peerId] at hsome
      cases hsome
    obtain ⟨rec, hget, hrec⟩ := hbanned
    exact ⟨rec, (get_insert_other hne).trans hget, hrec⟩
  | @replaces v hget hmay hnew hfits =>
    have hne : peerId ≠ record.peerId := by
      rintro rfl
      have hsome := hbanned.isSome
      rw [hnew] at hsome
      cases hsome
    by_cases hv : peerId = v.peerId
    · -- it is the one that goes
      subst hv
      rw [get_insert_other hne, PeerTable.get, lookup_pop_self] at hkept
      cases hkept
    · obtain ⟨rec, hrec, hstatus⟩ := hbanned
      refine ⟨rec, (get_insert_other hne).trans ?_, hstatus⟩
      rw [PeerTable.get, lookup_pop_other hv]
      exact hrec

theorem BannedAt.remove (hbanned : t.BannedAt peerId address) {removed : Str}
    (hkept : ((t.remove removed).2.get peerId).isSome) : (t.remove removed).2.BannedAt peerId address := by
  rw [PeerTable.remove] at hkept ⊢
  split at hkept
  · exact hbanned
  · by_cases hid : peerId = removed
    · subst hid
      rw [PeerTable.get, lookup_pop_self] at hkept
      cases hkept
    · obtain ⟨rec, hget, hrec⟩ := hbanned
      exact ⟨rec, (lookup_pop_other hid).trans hget, hrec⟩

/-- The record that is found after `ban` is banned. -/
theorem ban_banned {rec : PeerRecord} (hget : (t.ban peerId).2.get peerId = some rec) : rec.status = .banned := by
  rw [ban] at hget
  split at hget
  · rename_i hnone
    rw [hnone] at hget
    cases hget
  · rename_i old hold
    rw [PeerTable.get, PeerTable.change, lookup_revise_self, ← PeerTable.get, hold, Option.map_some, Option.some.injEq] at hget
    rw [← hget]

/-- What is eligible is neither the banned peer nor at its address. -/
theorem BannedAt.not_eligible (h : t.Consistent) (hbanned : t.BannedAt peerId address) {r : PeerRecord}
    (hr : t.Eligible r) : r.peerId ≠ peerId ∧ r.address ≠ address := by
  obtain ⟨rec, hget, hstatus, rfl⟩ := hbanned
  have hne : r ≠ rec := by
    rintro rfl
    rcases hr.2 with h | h
    · rw [hstatus] at h
      cases h
    · rw [hstatus] at h
      cases h
  constructor
  · rintro rfl
    have hsame := hr.1
    rw [hget, Option.some.injEq] at hsame
    exact hne hsame.symm
  · exact fun heq => hne (h.indexed.unique (h.get_iff.mp hr.1) (h.get_iff.mp hget) heq).2

end PeerTable

namespace DiscoveryManager

variable {m : DiscoveryManager} {t : PeerTable} {peerId : Str} {address : Str × Int} {c : DiscoveryCall}

/-! ## Loading -/

theorem loadRecords_table (t : PeerTable) (added : Int) (records : List PeerRecord) :
    (loadRecords t added records).2 = (loadRecords t 0 records).2 := by
  suffices h : ∀ added added', (loadRecords t added records).2 = (loadRecords t added' records).2 from h added 0
  induction records generalizing t with
  | nil => exact fun _ _ => rfl
  | cons rec records ih =>
    intro added added'
    rw [loadRecords, loadRecords]
    rcases t.add rec with ⟨e | b, t'⟩
    · dsimp only
      split
      · rfl
      · exact ih t' _ _
    · exact ih t' _ _

theorem loadRecords_consistent (h : t.Consistent) (added : Int) (records : List PeerRecord) :
    (loadRecords t added records).2.Consistent := by
  induction records generalizing t added with
  | nil => exact h
  | cons rec records ih =>
    have hadd := h.add rec
    rw [loadRecords]
    generalize t.add rec = out at hadd ⊢
    rcases out with ⟨e | b, t'⟩
    · dsimp only
      split
      · exact hadd
      · exact ih hadd _
    · exact ih hadd _

theorem loadSources_consistent (h : t.Consistent) (added : Int) (loads : List SourceLoad) :
    (loadSources t added loads).2.Consistent := by
  induction loads generalizing t added with
  | nil => exact h
  | cons load loads ih =>
    cases load with
    | error e => exact h
    | ok records => exact ih (loadRecords_consistent h added records) _

theorem loadRecords_banned (h : t.Consistent) (hbanned : t.BannedAt peerId address) (added : Int) {records : List PeerRecord}
    (hkept : ∀ t' ∈ recordTables t records, (t'.get peerId).isSome) :
    (loadRecords t added records).2.BannedAt peerId address := by
  induction records generalizing t added with
  | nil => exact hbanned
  | cons rec records ih =>
    rw [recordTables, List.forall_mem_cons] at hkept
    obtain ⟨hfirst, hrest⟩ := hkept
    have hadd := h.add rec
    have hban := hbanned.add h hfirst
    rw [loadRecords]
    generalize t.add rec = out at hadd hban hrest ⊢
    rcases out with ⟨e | b, t'⟩
    · dsimp only at hrest ⊢
      split
      · exact hban
      · rename_i hfull
        rw [if_neg hfull] at hrest
        exact ih hadd hban _ hrest
    · exact ih hadd hban _ hrest

theorem loadSources_banned (h : t.Consistent) (hbanned : t.BannedAt peerId address) (added : Int) {loads : List SourceLoad}
    (hkept : ∀ t' ∈ sourceTables t loads, (t'.get peerId).isSome) :
    (loadSources t added loads).2.BannedAt peerId address := by
  induction loads generalizing t added with
  | nil => exact hbanned
  | cons load loads ih =>
    cases load with
    | error e => exact hbanned
    | ok records =>
      rw [sourceTables, List.forall_mem_append, ← loadRecords_table t added] at hkept
      exact ih (loadRecords_consistent h added records) (loadRecords_banned h hbanned added hkept.1) _ hkept.2

theorem loadBootstrap_table (m : DiscoveryManager) (loads : List SourceLoad) :
    (m.loadBootstrap loads).2.table = (loadSources m.table 0 loads).2 := by
  rw [loadBootstrap]
  rcases loadSources m.table 0 loads with ⟨e | n, t⟩ <;> rfl

theorem addDiscovered_table (m : DiscoveryManager) (record : PeerRecord) :
    (m.addDiscovered record).2.table = (m.table.add record).2 := by
  rw [addDiscovered]
  rcases m.table.add record with ⟨e | b, t⟩ <;> rfl

theorem selectCandidates_table (m : DiscoveryManager) (loads : List SourceLoad) :
    (m.selectCandidates loads).2.table = if m.loaded then m.table else (loadSources m.table 0 loads).2 := by
  rw [selectCandidates, ← loadBootstrap_table]
  split
  · rfl
  · rcases m.loadBootstrap loads with ⟨e | n, m'⟩ <;> rfl

/-! ## Calls and runs -/

theorem call_consistent (h : m.table.Consistent) (c : DiscoveryCall) : (m.call c).table.Consistent := by
  cases c with
  | add record => exact h.add record
  | remove peerId => exact h.remove peerId
  | loadBootstrap loads =>
    rw [call, loadBootstrap_table]
    exact loadSources_consistent h 0 loads
  | addDiscovered record =>
    rw [call, addDiscovered_table]
    exact h.add record
  | selectCandidates loads =>
    rw [call, selectCandidates_table]
    split
    · exact h
    · exact loadSources_consistent h 0 loads
  | reportHandshakeSuccess peerId now =>
    rw [call, reportHandshakeSuccess]
    split
    · exact h
    · refine h.change ?_ ?_ peerId
      · exact fun _ => rfl
      · exact fun _ => rfl
  | reportHandshakeFailure peerId =>
    rw [call, reportHandshakeFailure]
    split
    · exact h
    · refine h.change ?_ ?_ peerId
      · intro rec
        simp only [failed]
        split
        · rfl
        · split <;> rfl
      · intro rec
        simp only [failed]
        split
        · rfl
        · split <;> rfl
  | ban peerId => exact h.ban peerId

theorem run_table (h : m.table.Consistent) (calls : List DiscoveryCall) : (m.run calls).table.Consistent := by
  induction calls generalizing m with
  | nil => exact h
  | cons c calls ih => exact ih (call_consistent h c)

theorem failed_address (rec : PeerRecord) : (failed rec).address = rec.address := by
  simp only [failed]
  split
  · rfl
  · split <;> rfl

theorem failed_banned {rec : PeerRecord} (h : rec.status = .banned) : (failed rec).status = .banned := by
  simp only [failed]
  split
  · rfl
  · split
    · rename_i hnot
      exact absurd h hnot
    · exact h

/-- A ban outlives every call that keeps the record and reports no success for it. -/
theorem call_banned (h : m.table.Consistent) (hbanned : m.table.BannedAt peerId address) (hleaves : LeavesBans m c)
    (hkeeps : Keeps peerId m c) : (m.call c).table.BannedAt peerId address := by
  cases c with
  | add record => exact hbanned.add h (hkeeps _ List.mem_cons_self)
  | remove removed => exact hbanned.remove (hkeeps _ List.mem_cons_self)
  | loadBootstrap loads =>
    rw [call, loadBootstrap_table]
    exact loadSources_banned h hbanned 0 hkeeps
  | addDiscovered record =>
    have hkept := hkeeps _ List.mem_cons_self
    rw [call, addDiscovered_table] at hkept ⊢
    exact hbanned.add h hkept
  | selectCandidates loads =>
    rw [call, selectCandidates_table]
    rw [Keeps, tables] at hkeeps
    split
    · exact hbanned
    · rename_i hloaded
      rw [if_neg hloaded] at hkeeps
      exact loadSources_banned h hbanned 0 hkeeps
  | reportHandshakeSuccess reported now =>
    rw [call, reportHandshakeSuccess]
    split
    · exact hbanned
    · refine hbanned.change ?_ ?_
      · -- not for the banned peer
        rintro rec hget rfl hrec
        exact absurd hrec (hleaves rec hget)
      · exact fun _ => rfl
  | reportHandshakeFailure reported =>
    rw [call, reportHandshakeFailure]
    split
    · exact hbanned
    · exact hbanned.change (fun _ _ _ => failed_banned) failed_address
  | ban banned =>
    have htable : (m.call (.ban banned)).table = (m.table.ban banned).2 := rfl
    rw [htable, PeerTable.ban]
    split
    · exact hbanned
    · refine hbanned.change (fun _ _ _ _ => rfl) ?_
      exact fun _ => rfl

theorem along_append {P : DiscoveryManager → DiscoveryCall → Prop} {calls calls' : List DiscoveryCall} :
    Along P m (calls ++ calls') ↔ Along P m calls ∧ Along P (m.run calls) calls' := by
  induction calls generalizing m with
  | nil => exact (and_iff_right trivial).symm
  | cons c calls ih =>
    rw [List.cons_append, Along, Along, ih, and_assoc]
    rfl

theorem run_append (m : DiscoveryManager) (calls calls' : List DiscoveryCall) :
    m.run (calls ++ calls') = (m.run calls).run calls' := List.foldl_append

theorem run_banned (h : m.table.Consistent) (hbanned : m.table.BannedAt peerId address) {calls : List DiscoveryCall}
    (hleaves : Along LeavesBans m calls) (hkeeps : Along (Keeps peerId) m calls) :
    (m.run calls).table.BannedAt peerId address := by
  induction calls generalizing m with
  | nil => exact hbanned
  | cons c calls ih => exact ih (call_consistent h c) (call_banned h hbanned hleaves.1 hkeeps.1) hleaves.2 hkeeps.2

/-- What is selected is eligible in the table it is selected from. -/
theorem selected_eligible (h : m.table.Consistent) {loads : List SourceLoad} {chosen : List PeerRecord}
    (hchosen : (m.selectCandidates loads).1 = .ok chosen) {r : PeerRecord} (hr : r ∈ chosen) :
    (m.selectCandidates loads).2.table.Eligible r := by
  have hafter := call_consistent h (.selectCandidates loads)
  rw [call] at hafter
  rw [selectCandidates] at hchosen hafter ⊢
  split at hchosen
  · rename_i hloaded
    rw [if_pos hloaded]
    exact PeerTable.selectCandidates_eligible h hchosen hr
  · rename_i hloaded
    rw [if_neg hloaded] at hafter ⊢
    generalize m.loadBootstrap loads = out at hchosen hafter ⊢
    rcases out with ⟨e | n, m'⟩
    · cases hchosen
    · exact PeerTable.selectCandidates_eligible hafter hchosen hr

/-- Where no success is reported for a banned peer, bans hold. -/
theorem bans_hold {maxEntries : Int} {ratio : ℚ} {prefixPeers v4 v6 : Int}
    (hnew : PeerTable.new maxEntries ratio prefixPeers v4 v6 = .ok t) (maxOutbound : Int) (calls : List DiscoveryCall)
    (hleaves : Along LeavesBans (new t maxOutbound) calls) : (new t maxOutbound).BansHold calls := by
  intro before peerId between loads after rec chosen hcalls hget hkeeps hchosen r hr
  have hfresh : (new t maxOutbound).table.Consistent := (PeerTable.new_consistent hnew).1
  have hsplit : calls = (before ++ [.ban peerId]) ++ ((between ++ [.selectCandidates loads]) ++ after) := by simp [hcalls]
  rw [hsplit] at hleaves
  obtain ⟨hleaves, -⟩ := along_append.mp (along_append.mp hleaves).2
  have hbefore := run_table hfresh before
  have hbanned : ((new t maxOutbound).run (before ++ [.ban peerId])).table.BannedAt peerId rec.address := by
    refine ⟨rec, hget, ?_, rfl⟩
    rw [run_append] at hget
    exact PeerTable.ban_banned hget
  have hselect := run_banned (run_table hfresh _) hbanned hleaves hkeeps
  have hrun : (new t maxOutbound).run (before ++ .ban peerId :: between) =
      ((new t maxOutbound).run (before ++ [.ban peerId])).run between := by
    rw [← run_append, List.append_assoc, List.singleton_append]
  rw [hrun] at hchosen
  rw [run_append] at hselect
  have hready := run_table (run_table hfresh (before ++ [.ban peerId])) between
  exact PeerTable.BannedAt.not_eligible (call_consistent hready (.selectCandidates loads)) hselect
    (selected_eligible hready hchosen hr)

/-- The success of a handshake that was under way when the peer was banned. -/
def lateReports : List DiscoveryCall := [.reportHandshakeSuccess (str "seed") 0, .reportHandshakeFailure (str "seed")]

def selectedIds (m : DiscoveryManager) : List Str :=
  match (m.selectCandidates []).1 with
  | .ok chosen => chosen.map PeerRecord.peerId
  | .error _ => []

theorem ban_lifted : ¬ ∀ (maxEntries : Int) (ratio : ℚ) (prefixPeers v4 v6 : Int) (t : PeerTable),
    PeerTable.new maxEntries ratio prefixPeers v4 v6 = .ok t →
    ∀ (maxOutbound : Int) (calls : List DiscoveryCall), (new t maxOutbound).BansHold calls := by
  intro h
  obtain ⟨t, hnew, hids⟩ : ∃ t, PeerTable.new 4096 (1 / 4) 2 24 48 = .ok t ∧
      selectedIds ((new t 8).run (.add seedPeer :: .ban (str "seed") :: lateReports)) = [str "seed"] :=
    ⟨_, rfl, by decide +kernel⟩
  have hhold := h _ _ _ _ _ t hnew 8 ([.add seedPeer] ++ .ban (str "seed") :: (lateReports ++ .selectCandidates [] :: []))
    [.add seedPeer] (str "seed") lateReports [] []
  rw [selectedIds] at hids
  split at hids
  · rename_i chosen hchosen
    obtain ⟨r, hr, hid⟩ : ∃ r ∈ chosen, r.peerId = str "seed" := List.mem_map.mp (by rw [hids]; exact List.mem_cons_self)
    cases hnew
    refine (hhold _ chosen rfl rfl ?_ hchosen r hr).1 hid
    refine ⟨?_, ?_, ?_, trivial⟩
    · rintro t ht
      rw [List.mem_singleton.mp ht]
      rfl
    · rintro t ht
      rw [List.mem_singleton.mp ht]
      rfl
    · exact nofun
  · cases hids

theorem bans_hold_seed : ∃ t, PeerTable.new 4096 (1 / 4) 2 24 48 = .ok t ∧
    (new t 8).BansHold [.add seedPeer, .ban (str "seed"), .reportHandshakeFailure (str "seed"), .selectCandidates []] :=
  ⟨_, rfl, bans_hold (show PeerTable.new 4096 (1 / 4) 2 24 48 = .ok _ from rfl) 8
    [.add seedPeer, .ban (str "seed"), .reportHandshakeFailure (str "seed"), .selectCandidates []]
    ⟨trivial, trivial, trivial, trivial, trivial⟩⟩

end DiscoveryManager

end ChainBreaker
