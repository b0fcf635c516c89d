import ChainBreaker.HeaderSync
import ChainBreaker.Answers
import ChainBreaker.Lib.Descent

/-!
# The block locator

`build_locator` walks down from the tip one block at a time, and after eleven
blocks in steps that double. The hashes it returns are those of a sparse descent
(`buildLocator_eq`), whose depths have the closed form `locatorDepth`.
-/

namespace ChainBreaker

open Fallible Descent

/-! ## The depths -/

/-- The depth below the tip that `build_locator` reaches at its turn `i`. -/
def locatorDepth (i : Nat) : Nat := if i ≤ 10 then i else 9 + 2 ^ (i - 10)

/-- The step that it takes from there. -/
def locatorStep (i : Nat) : Nat := if i ≤ 10 then 1 else 2 ^ (i - 10)

theorem locatorDepth_succ (i : Nat) : locatorDepth (i + 1) = locatorDepth i + locatorStep i := by
  unfold locatorDepth locatorStep
  rcases Nat.lt_trichotomy i 10 with h | rfl | h
  · rw [if_pos (by omega), if_pos (by omega), if_pos (by omega)]
  · rfl
  · rw [if_neg (by omega), if_neg (by omega), if_neg (by omega), show i + 1 - 10 = i - 10 + 1 by omega, Nat.pow_succ]
    omega

theorem locatorStep_succ (i : Nat) :
    locatorStep (i + 1) = if 10 < i + 1 then locatorStep i * 2 else locatorStep i := by
  unfold locatorStep
  rcases Nat.lt_trichotomy i 10 with h | rfl | h
  · rw [if_pos (by omega), if_neg (by omega), if_pos (by omega)]
  · rfl
  · rw [if_neg (by omega), if_pos (by omega), if_neg (by omega), show i + 1 - 10 = i - 10 + 1 by omega, Nat.pow_succ]

theorem locatorDepth_strictMono : StrictMono locatorDepth := by
  apply strictMono_nat_of_lt_succ
  intro i
  have hpos : 0 < locatorStep i := by
    unfold locatorStep
    split
    · exact Nat.one_pos
    · exact Nat.two_pow_pos _
  rw [locatorDepth_succ]
  omega

theorem locatorDepth_double (i : Nat) : locatorDepth (i + 1) ≤ 2 * (locatorDepth i + 1) := by
  rw [locatorDepth_succ]
  unfold locatorDepth locatorStep
  split <;> omega

/-! ## The loop -/

section
variable {E : Primitives} {l : Ledger}

def Ledger.hashAt (E : Primitives) (l : Ledger) (height : Nat) : Except PyErr Str :=
  blockAt l.chain height >>= (·.hash E)

/-- The heights whose hashes are in the locator, of a chain with the tip at `top`. -/
def locatorHeights (top : Nat) : List Nat := heights locatorDepth top (MAX_LOCATOR_SIZE - 1) 0

/-- From its turn `i` on, the loop adds the hashes of the rest of the descent. -/
theorem locatorFrom_heights {top : Nat} : ∀ {n i : Nat} {locator : List Str}, locator.length = i → n + 1 + i = MAX_LOCATOR_SIZE →
    (locatorFrom E l.chain (n + 1) (top - locatorDepth i) (locatorStep i) locator >>= fun locator =>
      l.hashAt E 0 >>= fun genesis => .ok (locator ++ [genesis])) =
      (collect (l.hashAt E) (heights locatorDepth top n i)).map (locator ++ ·)
  | 0, i, locator, hlen, hn => by
    have hfull : ¬ locator.length < MAX_LOCATOR_SIZE - 1 := by omega
    rw [locatorFrom, if_neg (fun h => hfull h.2), ok_bind, heights, collect, collect]
    cases l.hashAt E 0 <;> rfl
  | n + 1, i, locator, hlen, hn => by
    have hroom : locator.length < MAX_LOCATOR_SIZE - 1 := by omega
    rcases Nat.lt_or_ge (locatorDepth i) top with hlt | hle
    · have hnext : top - locatorDepth i - locatorStep i = top - locatorDepth (i + 1) := by
        rw [locatorDepth_succ, Nat.sub_sub]
      rw [locatorFrom, if_pos ⟨Nat.sub_pos_of_lt hlt, hroom⟩, heights_of_lt hlt, collect, ← bind_assoc]
      cases hhash : l.hashAt E (top - locatorDepth i) with
      | error e =>
        rw [← Ledger.hashAt, hhash]
        rfl
      | ok hash =>
        have hlen' : (locator ++ [hash]).length = i + 1 := by rw [List.length_append, hlen, List.length_singleton]
        have hrest := @locatorFrom_heights top n _ _ hlen' (by omega)
        have hstep : (if 10 < (locator ++ [hash]).length then locatorStep i * 2 else locatorStep i) = locatorStep (i + 1) := by
          rw [hlen', locatorStep_succ]
        rw [← Ledger.hashAt, hhash, ok_bind, ok_bind, hnext]
        dsimp only
        rw [hstep, hrest]
        cases collect (l.hashAt E) (heights locatorDepth top n (i + 1)) with
        | error e => rfl
        | ok hashes => exact congrArg Except.ok (List.append_assoc locator [hash] hashes)
    · rw [Nat.sub_eq_zero_of_le hle, locatorFrom, if_neg (fun h => absurd h.1 (Nat.lt_irrefl 0)), ok_bind, heights_of_le hle,
        collect, collect]
      cases l.hashAt E 0 <;> rfl

/-- The locator is the hashes of a sparse descent from the tip. -/
theorem buildLocator_eq : buildLocator E l = collect (l.hashAt E) (locatorHeights (l.chain.length - 1)) := by
  have h := @locatorFrom_heights E l (l.chain.length - 1) (MAX_LOCATOR_SIZE - 1) 0 [] rfl rfl
  simp only [List.nil_append] at h
  have hid : ∀ x : Except PyErr (List Str), x.map (fun hashes => hashes) = x := by
    rintro (_ | _) <;> rfl
  rw [hid] at h
  rw [locatorHeights, ← h, buildLocator, Ledger.hashAt]
  simp only [bind_assoc]
  rfl

/-! ## The shape -/

/-- What a locator says about a chain with the tip at `top`. -/
structure LocatorShape (top : Nat) (listed : List Nat) : Prop where
  length_le : listed.length ≤ MAX_LOCATOR_SIZE
  descending : listed.Pairwise (· > ·)
  tip : listed.head? = some top
  genesis : listed.getLast? = some 0
  once : listed.count 0 = 1
  recent : ∀ a ≤ top, top < a + 11 → a ∈ listed
  within : top ≤ 2 ^ 20 → ∀ a ≤ top, ∃ e ∈ listed, e ≤ a ∧ top - e ≤ 2 * (top - a)

theorem locatorHeights_shape (top : Nat) : LocatorShape top (locatorHeights top) where
  length_le := length_heights_le
  descending := pairwise_heights locatorDepth_strictMono
  tip := by
    rcases Nat.eq_zero_or_pos top with rfl | hpos
    · rfl
    · rw [locatorHeights, show MAX_LOCATOR_SIZE - 1 = 30 + 1 from rfl, heights_of_lt (show locatorDepth 0 < top from hpos)]
      rfl
  genesis := getLast?_heights
  once := by
    have hnodup : (locatorHeights top).Nodup := (pairwise_heights locatorDepth_strictMono).imp fun h => Nat.ne_of_gt h
    exact List.count_eq_one_of_mem hnodup (List.mem_of_getLast? getLast?_heights)
  recent := by
    intro a ha hrecent
    have hdepth : locatorDepth (top - a) = top - a := if_pos (by omega)
    have hmem : top - locatorDepth (top - a) ∈ locatorHeights top :=
      depth_mem_heights locatorDepth_strictMono (Nat.zero_le _) (show top - a < 0 + 31 by omega)
    rwa [hdepth, Nat.sub_sub_self ha] at hmem
  within := by
    intro htop a ha
    have hreach : locatorDepth (0 + (MAX_LOCATOR_SIZE - 1)) = 9 + 2 ^ 21 := rfl
    exact exists_within_twice locatorDepth_double ha (by omega) (Nat.zero_le _)

theorem hashAt_ok (hhash : ∀ b ∈ l.chain, ∃ hash, b.hash E = .ok hash) {height : Nat} (h : height < l.chain.length) :
    ∃ hash, l.hashAt E height = .ok hash := by
  obtain ⟨b, hb⟩ := blockAt_ok h
  obtain ⟨hash, hh⟩ := hhash b (List.mem_of_getElem? (blockAt_eq_ok.mp hb))
  exact ⟨hash, bind_eq_ok.mpr ⟨b, hb, hh⟩⟩

/-- **Locators are sparse and complete.** Of any chain, `build_locator` returns the
hashes of at most `MAX_LOCATOR_SIZE` blocks, from the tip down to the genesis
block, whenever the blocks of the chain have hashes. -/
theorem buildLocator_shape (E : Primitives) (l : Ledger) : ∃ listed, LocatorShape (l.chain.length - 1) listed ∧
    (∀ locator, buildLocator E l = .ok locator ↔
      List.Forall₂ (fun height hash => ∃ b, blockAt l.chain height = .ok b ∧ b.hash E = .ok hash) listed locator) ∧
    (l.chain ≠ [] → (∀ b ∈ l.chain, ∃ hash, b.hash E = .ok hash) → ∃ locator, buildLocator E l = .ok locator) := by
  refine ⟨locatorHeights (l.chain.length - 1), locatorHeights_shape _, fun locator => ?_, fun hne hhash => ?_⟩
  · rw [buildLocator_eq, collect_eq_ok]
    simp only [Ledger.hashAt, bind_eq_ok]
  · have hpos := List.length_pos_iff.mpr hne
    rw [buildLocator_eq]
    apply collect_of_forall
    intro height hheight
    obtain rfl | ⟨j, -, -, rfl⟩ := mem_heights hheight
    · exact hashAt_ok hhash hpos
    · exact hashAt_ok hhash (by omega)

end

end ChainBreaker
