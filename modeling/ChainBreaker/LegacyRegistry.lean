import ChainBreaker.Py
import ChainBreaker.Lib.Fallible

/-!
# The registry of witnesses

The registry that attestations of version 1 are checked against. It changes its
entries in place, and a call that raises midway keeps the changes it has made.
What a transaction should do to it is `Registry.Sound`, which a rotation never is
(`applyRegistryTransaction_sound_iff`).
-/

namespace ChainBreaker

open Fallible

structure Curator where
  curatorId : Str
  publicKeyHex : Str
  activationHeight : Int := 0
  revocationHeight : Option Int := none
  previousKeyHex : Option Str := none
  deriving DecidableEq

def Curator.isActiveAt (c : Curator) (height : Int) : Bool :=
  decide (c.activationHeight ≤ height) && c.revocationHeight.all fun r => decide (height < r)

/-- The curators, in the order of the dictionary. -/
structure Registry where
  byId : List Curator
  deriving DecidableEq

/-- The body of a registry transaction; a key that is missing is `none`. -/
structure RegistryBody where
  action : Str
  curatorId : Str
  publicKeyHex : Str
  activationHeight : Option Int := none
  revocationHeight : Option Int := none
  previousKeyHex : Option Str := none

namespace Registry

def get (r : Registry) (curatorId : Str) : Option Curator := r.byId.find? fun c => c.curatorId = curatorId

def register (r : Registry) (curator : Curator) : Except PyErr Registry := do
  require (curator.curatorId ≠ []) (err .valueError "curator_id must not be empty")
  require ((r.get curator.curatorId).isNone = true)
    ⟨.valueError, "curator_id % already registered", [.str curator.curatorId]⟩
  require (∀ h ∈ curator.revocationHeight, curator.activationHeight ≤ h)
    (err .valueError "revocation_height must be >= activation_height")
  .ok ⟨r.byId ++ [curator]⟩

/-- `existing.revocation_height = height`, of the entry with the id. -/
def setRevocation (r : Registry) (curatorId : Str) (height : Int) : Registry :=
  ⟨r.byId.map fun c => if c.curatorId = curatorId then { c with revocationHeight := some height } else c⟩

/-- `a or b`, where zero is false. -/
def orHeight (a : Option Int) (b : Int) : Int :=
  match a with
  | some a => if a ≠ 0 then a else b
  | none => b

/-- A call of `register`, which changes nothing when it raises. -/
def registering (r : Registry) (curator : Curator) : Except PyErr Unit × Registry :=
  match r.register curator with
  | .ok r' => (.ok (), r')
  | .error e => (.error e, r)

def applyRegistryTransaction (r : Registry) (txBody : RegistryBody) (height : Int) : Except PyErr Unit × Registry :=
  if txBody.action = str "add" then
    match txBody.activationHeight with
    | none => (raise .keyError "activation_height" [], r)
    | some activationHeight =>
      r.registering
        ⟨txBody.curatorId, txBody.publicKeyHex, activationHeight, txBody.revocationHeight, txBody.previousKeyHex⟩
  else if txBody.action = str "revoke" then
    match r.get txBody.curatorId with
    | none => (.error ⟨.valueError, "cannot revoke unknown curator %", [.str txBody.curatorId]⟩, r)
    | some existing => (.ok (), r.setRevocation txBody.curatorId (min (orHeight existing.revocationHeight height) height))
  else if txBody.action = str "rotate" then
    match r.get txBody.curatorId with
    | none => (.error ⟨.valueError, "cannot rotate unknown curator %", [.str txBody.curatorId]⟩, r)
    | some existing =>
      (r.setRevocation txBody.curatorId height).registering
        ⟨txBody.curatorId, txBody.publicKeyHex, height, txBody.revocationHeight, some existing.publicKeyHex⟩
  else (.ok (), r)

/-- A registry that is built and changed by its own methods. -/
inductive Reachable : Registry → Prop
  | new : Reachable ⟨[]⟩
  | register {r r' : Registry} (curator : Curator) : Reachable r → r.register curator = .ok r' → Reachable r'
  | apply {r : Registry} (txBody : RegistryBody) (height : Int) :
      Reachable r → Reachable (r.applyRegistryTransaction txBody height).2

/-! ## What a transaction should do -/

/-- The key is a valid one of the curator at a height. -/
def ValidKey (r : Registry) (curatorId key : Str) (height : Int) : Prop :=
  ∃ c ∈ r.byId, c.curatorId = curatorId ∧ c.publicKeyHex = key ∧ c.isActiveAt height = true

/-- A rotation at `height` has put the new key in the place of the old one. -/
structure Rotated (r r' : Registry) (txBody : RegistryBody) (existing : Curator) (height : Int) : Prop where
  new : ∀ x, height ≤ x → txBody.revocationHeight.all (fun h => decide (x < h)) = true →
    r'.ValidKey txBody.curatorId txBody.publicKeyHex x
  old : txBody.publicKeyHex ≠ existing.publicKeyHex → ∀ x, r'.ValidKey txBody.curatorId existing.publicKeyHex x → x < height

/-- What the call should do. -/
structure Sound (r : Registry) (txBody : RegistryBody) (height : Int) : Prop where
  rotates : ∀ existing, txBody.action = str "rotate" → r.get txBody.curatorId = some existing →
    (r.applyRegistryTransaction txBody height).1 = .ok () ∧
      r.Rotated (r.applyRegistryTransaction txBody height).2 txBody existing height
  revokes : ∀ existing h, txBody.action = str "revoke" → r.get txBody.curatorId = some existing →
    existing.revocationHeight = some h → ∃ c h', (r.applyRegistryTransaction txBody height).2.get txBody.curatorId = some c ∧
      c.revocationHeight = some h' ∧ h' ≤ h
  refuses : ∀ e, (r.applyRegistryTransaction txBody height).1 = .error e → e.kind = .valueError →
    (r.applyRegistryTransaction txBody height).2 = r

/-! ## What it does -/

section
variable {r : Registry} {txBody : RegistryBody} {existing : Curator} {id : Str} {height : Int}

theorem get_setRevocation : (r.setRevocation id height).get id =
    (r.get id).map fun c => { c with revocationHeight := some height } := by
  unfold get setRevocation
  rw [List.find?_map]
  have hsame : (fun c : Curator => decide (c.curatorId = id)) ∘
      (fun c => if c.curatorId = id then { c with revocationHeight := some height } else c) = fun c => decide (c.curatorId = id) := by
    funext c
    dsimp only [Function.comp]
    split <;> rfl
  rw [hsame]
  cases h : r.byId.find? fun c => decide (c.curatorId = id) with
  | none => rfl
  | some c =>
    have hid := List.find?_some h
    exact congrArg some (if_pos (of_decide_eq_true hid))

/-- A curator whose id is taken is not registered again. -/
theorem registering_taken {curator : Curator} (h : (r.get curator.curatorId).isSome = true) :
    ∃ e, r.registering curator = (.error e, r) ∧ e.kind = .valueError := by
  unfold registering register
  by_cases hid : curator.curatorId ≠ []
  · have htaken : ¬ (r.get curator.curatorId).isNone = true := by
      rw [Option.isNone_iff_eq_none]
      exact fun hn => by rw [hn] at h; cases h
    rw [require_of _ hid, ok_bind, require, if_neg htaken]
    exact ⟨_, rfl, rfl⟩
  · rw [require, if_neg hid]
    exact ⟨_, rfl, rfl⟩

theorem registering_error {curator : Curator} {e : PyErr} (h : (r.registering curator).1 = .error e) :
    (r.registering curator).2 = r := by
  unfold registering at h ⊢
  cases hr : r.register curator with
  | ok r' => rw [hr] at h; cases h
  | error e' => rfl

theorem orHeight_le {h height : Int} (hh : ¬ (h = 0 ∧ 0 < height)) : min (orHeight (some h) height) height ≤ h := by
  dsimp only [orHeight]
  split_ifs <;> omega

/-- A rotation of a known curator raises. -/
theorem rotate_raises (height : Int) (hrotate : txBody.action = str "rotate") (hget : r.get txBody.curatorId = some existing) :
    ∃ e, (r.applyRegistryTransaction txBody height).1 = .error e ∧ e.kind = .valueError := by
  have htaken : ((r.setRevocation txBody.curatorId height).get txBody.curatorId).isSome = true := by
    rw [get_setRevocation, hget]
    rfl
  obtain ⟨e, he, hkind⟩ := @registering_taken _ ⟨txBody.curatorId, txBody.publicKeyHex, height, txBody.revocationHeight,
    some existing.publicKeyHex⟩ htaken
  refine ⟨e, ?_, hkind⟩
  unfold applyRegistryTransaction
  rw [hrotate, if_neg (by decide), if_neg (by decide), if_pos rfl, hget]
  dsimp only
  rw [he]

theorem applied_revoke (hrevoke : txBody.action = str "revoke") (hget : r.get txBody.curatorId = some existing) :
    r.applyRegistryTransaction txBody height =
      (.ok (), r.setRevocation txBody.curatorId (min (orHeight existing.revocationHeight height) height)) := by
  unfold applyRegistryTransaction
  rw [hrevoke, if_neg (by decide), if_pos rfl, hget]

/-- Only a rotation changes the registry before it raises. -/
theorem apply_error {e : PyErr} (h : (r.applyRegistryTransaction txBody height).1 = .error e)
    (hrotate : ¬ (txBody.action = str "rotate" ∧ (r.get txBody.curatorId).isSome = true)) :
    (r.applyRegistryTransaction txBody height).2 = r := by
  unfold applyRegistryTransaction at h ⊢
  split_ifs at h ⊢ with hadd hrevoke hrot
  · cases hactivation : txBody.activationHeight with
    | none => rfl
    | some activationHeight =>
      rw [hactivation] at h
      exact registering_error h
  · cases hget : r.get txBody.curatorId with
    | none => rfl
    | some existing =>
      rw [hget] at h
      cases h
  · cases hget : r.get txBody.curatorId with
    | none => rfl
    | some existing => exact absurd ⟨hrot, by rw [hget]; rfl⟩ hrotate

/-- **Where the registry of witnesses does what it should.** A call is sound unless
it rotates a known curator, or revokes at a positive height one whose revocation
height is zero. -/
theorem applyRegistryTransaction_sound_iff (r : Registry) (txBody : RegistryBody) (height : Int) :
    r.Sound txBody height ↔ ¬ (txBody.action = str "rotate" ∧ (r.get txBody.curatorId).isSome = true) ∧
      ¬ (txBody.action = str "revoke" ∧ 0 < height ∧
        ∃ existing, r.get txBody.curatorId = some existing ∧ existing.revocationHeight = some 0) := by
  constructor
  · intro h
    refine ⟨?_, ?_⟩
    · rintro ⟨hrotate, hsome⟩
      obtain ⟨existing, hget⟩ := Option.isSome_iff_exists.mp hsome
      obtain ⟨e, he, -⟩ := rotate_raises height hrotate hget
      rw [(h.rotates existing hrotate hget).1] at he
      cases he
    · rintro ⟨hrevoke, hpos, existing, hget, hzero⟩
      obtain ⟨c, h', hc, hrevocation, hle⟩ := h.revokes existing 0 hrevoke hget hzero
      rw [applied_revoke hrevoke hget, get_setRevocation, hget, hzero] at hc
      cases hc
      cases hrevocation
      rw [orHeight, if_neg (not_not.mpr rfl), min_self] at hle
      omega
  · rintro ⟨hrotate, hrevoke⟩
    refine ⟨fun existing hr hget => absurd ⟨hr, by rw [hget]; rfl⟩ hrotate, ?_, fun e he _ => apply_error he hrotate⟩
    intro existing h hr hget hheight
    have hle : min (orHeight (some h) height) height ≤ h := orHeight_le fun hz =>
      hrevoke ⟨hr, hz.2, existing, hget, by rw [hheight, hz.1]⟩
    refine ⟨{ existing with revocationHeight := some (min (orHeight (some h) height) height) }, _, ?_, rfl, hle⟩
    rw [applied_revoke hr hget, get_setRevocation, hget, hheight]
    rfl

end

/-! ## A rotation -/

/-- A registry with one curator. -/
def oneCurator : Registry := ⟨[⟨str "alice", str "k1", 0, none, none⟩]⟩

def rotation : RegistryBody := ⟨str "rotate", str "alice", str "k2", some 5, none, some (str "k1")⟩

/-- The rotation of a registered curator raises, and has revoked the curator. -/
example : (oneCurator.applyRegistryTransaction rotation 5).2.byId = [⟨str "alice", str "k1", 0, some 5, none⟩] := by decide

theorem rotation_unsound : ¬ ∀ (r : Registry) (txBody : RegistryBody) (height : Int), r.Reachable → r.Sound txBody height := by
  intro h
  have hreach : oneCurator.Reachable := .register ⟨str "alice", str "k1", 0, none, none⟩ .new (of_okEq (by decide))
  have hget : oneCurator.get rotation.curatorId = some ⟨str "alice", str "k1", 0, none, none⟩ := by decide
  obtain ⟨e, he, -⟩ := rotate_raises 5 rfl hget
  rw [((h oneCurator rotation 5 hreach).rotates _ rfl hget).1] at he
  cases he

end Registry

end ChainBreaker
