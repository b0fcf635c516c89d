import ChainBreaker.Batch

/-!
# Empty blocks of the alpha network

An empty block leaves the registry as the genesis block has it. Below the first
retarget it follows the chain if it names the tip, has done its work and lies
above the median past time, so that a run of such blocks is checked by its
hashes alone (`linked`).
-/

namespace ChainBreaker

open Fallible

section
variable (E : Primitives)

/-- The blocks have done their work, above the block with the hash. -/
def linked : List AnyBlock → Str → List BlockV2 → Bool
  | _, _, [] => true
  | c, hash, b :: bs =>
    b.header.prevHash == hash && decide (medianPastTime c c.length 11 < b.header.timestamp) &&
      okAnd (fun hash => satisfiesPow hash MAX_TARGET && linked (c ++ [.v2 b]) hash bs) (b.hash E)

/-- An empty block on the registry of the genesis block. -/
def BlockV2.Blank (b : BlockV2) : Prop :=
  ∃ prevHash timestamp nonce, 0 < timestamp ∧ b = alphaBlock prevHash timestamp nonce

end

section
variable {E : Primitives} {l : Ledger} {c : List AnyBlock} {s : RegistryState} {b : BlockV2} {hash : Str}

theorem BlockV2.Blank.intact {validator : Option (Json → Bool)} (hb : b.Blank) (hhash : b.hash E = .ok hash)
    (hpow : satisfiesPow hash MAX_TARGET = true) : b.Intact E validator := by
  obtain ⟨prevHash, timestamp, nonce, hpos, rfl⟩ := hb
  refine ⟨rfl, ⟨(by decide : MIN_TARGET ≤ MAX_TARGET), le_refl _⟩, rfl, ⟨hash, hhash, hpow⟩, hpos, ?_⟩
  cases validator <;> rfl

theorem followAll_linked (hroot : registryRoot E s = .ok GENESIS_REGISTRY_ROOT) :
    ∀ {bs : List BlockV2} {blocks : List AnyBlock} {hash : Str} {last : AnyBlock}, blocks[0]? = some (.v2 alphaGenesis) →
      blocks.length + bs.length ≤ DIFFICULTY_RETARGET_INTERVAL → blocks.getLast? = some last → last.hash E = .ok hash →
      l.replay E blocks = .ok s → (∀ b ∈ bs, b.Blank) → linked E blocks hash bs = true → l.FollowAll E blocks bs
  | [], _, _, _, _, _, _, _, _, _, _ => trivial
  | b :: bs, blocks, hash, last, hfirst, hlen, hlast, hhash, hreplay, hall, hlinked => by
    obtain ⟨hb, hbs⟩ := List.forall_mem_cons.mp hall
    simp only [linked, Bool.and_eq_true, beq_iff_eq, decide_eq_true_eq] at hlinked
    obtain ⟨⟨rfl, hmedian⟩, hown⟩ := hlinked
    obtain ⟨own, hownHash, hown⟩ := of_okAnd hown
    rw [Bool.and_eq_true] at hown
    have hne : blocks ≠ [] := by
      rintro rfl
      cases hfirst
    have hpos := List.length_pos_iff.mpr hne
    rw [List.length_cons] at hlen
    have hintact : b.Intact E l.transactionValidator := hb.intact hownHash hown.1
    obtain ⟨prevHash, timestamp, nonce, -, rfl⟩ := hb
    have htarget : expectedTargetAt blocks blocks.length = .ok MAX_TARGET := by
      rw [expectedTargetAt, if_neg (by omega), if_pos (by omega), blockAt_eq_ok.mpr hfirst]
      rfl
    have hfollows : l.Follows E blocks (alphaBlock prevHash timestamp nonce) s s :=
      ⟨⟨last, hlast, hhash⟩, htarget, hreplay, hroot, hmedian, hintact, rfl⟩
    refine ⟨⟨s, s, hfollows⟩, followAll_linked hroot ?_ ?_ List.getLast?_concat hownHash
      (hfollows.replay_append hne) hbs hown.2⟩
    · rwa [List.getElem?_append_left hpos]
    · rw [List.length_append, List.length_singleton]
      omega

theorem alphaGenesis_hash : alphaGenesis.hash (recorded []) = .ok GENESIS_HASH := of_okEq (by decide +kernel)

/-- A run of empty blocks on the genesis block is a chain of the network. -/
theorem accepts_linked {clock : Int} {bs : List BlockV2} (hlen : bs.length < DIFFICULTY_RETARGET_INTERVAL)
    (hall : ∀ b ∈ bs, b.Blank) (hlinked : linked (recorded []) [.v2 alphaGenesis] GENESIS_HASH bs = true) :
    Accepts (recorded []) alphaNetworkIdentity none clock (alphaGenesis :: bs) := by
  obtain ⟨ctx, hctx, hval, hok, -⟩ := accepts_iff.mp alphaChild_accepted
  obtain ⟨-, s, hreplay, hroot⟩ := validateGenesisIdentity_ok hval
  refine accepts_iff.mpr ⟨ctx, hctx, hval, hok, ?_⟩
  refine followAll_linked hroot rfl ?_ rfl alphaGenesis_hash hreplay hall hlinked
  rw [List.length_singleton]
  omega

end

end ChainBreaker
