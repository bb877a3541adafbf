import MentorsMind.Staking.Lockups
import MentorsMind.Lib.DenseIndex
import MentorsMind.Lib.Table
import MentorsMind.Shared.Pagination

/-! The index of stakers: what it lists in any run, and how the list that an older version of
the contract kept is merged into it. -/
namespace Staking
open Outcome Soroban Shared

/-- The positions below the count and the stakers are in bijection, and the total is what they
staked together. -/
structure StakersIndexed {Addr : Type} (r : Registry Addr) : Prop where
  inverse : ∀ i staker, r.stakerAt i = some staker ↔ r.stakerIndex staker = some i
  dense : ∀ i, (r.stakerAt i).isSome ↔ i < r.stakerCount
  range : ∀ staker, (∃ i, i < r.stakerCount ∧ r.stakerAt i = some staker) ↔
    ∃ record, r.stake staker = some record
  finite : {staker | r.stake staker ≠ none}.Finite
  total : r.totalStaked = ∑ᶠ staker, (r.stake staker).elim 0 StakeRecord.amount

theorem Registry.Sound.stakersIndexed {Addr : Type} {r : Registry Addr} (h : r.Sound) :
    StakersIndexed r where
  inverse := h.index.entry_iff
  dense := h.index.isSome_iff
  range staker := by
    rw [← Option.isSome_iff_exists, ← h.listed, Option.isSome_iff_exists]
    constructor
    · rintro ⟨i, -, hi⟩
      exact ⟨i, (h.index.entry_iff i staker).mp hi⟩
    · rintro ⟨i, hi⟩
      exact ⟨i, h.index.lt_count hi, (h.index.entry_iff i staker).mpr hi⟩
  finite := by
    apply h.finite.subset
    intro staker hstaker
    obtain ⟨record, hrecord⟩ := Option.ne_none_iff_exists'.mp hstaker
    have hpos := (h.record staker record hrecord).2.1
    show stakedAmount (r.stake staker) ≠ 0
    rw [hrecord]
    exact hpos.ne'
  total := h.total

section Migration

variable {Addr : Type}

/-- A registry where some stakers still stand on the list of the older version only. -/
structure Registry.Listing (r : Registry Addr) (list : List Addr) : Prop where
  index : r.index.Sound
  listed : ∀ staker, (r.stakerIndex staker).isSome ∨ staker ∈ list ↔ (r.stake staker).isSome
  record : ∀ staker record, r.stake staker = some record →
    record.mentor = staker ∧ 0 < record.amount ∧ record.amount ≤ maxFinancialAmount
  finite : PointSum.Finite stakedAmount r.stake
  total : r.totalStaked = PointSum.total stakedAmount r.stake

theorem Registry.Listing.sound {r : Registry Addr} (h : r.Listing []) : r.Sound where
  index := h.index
  listed staker := by simpa using h.listed staker
  record := h.record
  finite := h.finite
  total := h.total

variable [DecidableEq Addr]

/-- The merge appends to the index whoever it does not list yet. -/
theorem migrateList_sound {list : List Addr} {r r' : Registry Addr} (hr : r.Listing list)
    (h : migrateList list r = .ok r') : r'.Sound ∧ r'.stake = r.stake := by
  induction list generalizing r with
  | nil =>
    obtain rfl := pure_eq_ok.mp h
    exact ⟨hr.sound, rfl⟩
  | cons staker rest ih =>
    unfold migrateList at h
    by_cases hlisted : (r.stakerIndex staker).isSome
    · rw [if_pos hlisted] at h
      simp only [bind_eq_ok, pure_eq_ok] at h
      obtain ⟨next, rfl, hrest⟩ := h
      refine ih ⟨hr.index, fun other => ?_, hr.record, hr.finite, hr.total⟩ hrest
      rw [← hr.listed other, List.mem_cons]
      constructor
      · rintro (hin | hin)
        · exact .inl hin
        · exact .inr (.inr hin)
      · rintro (hin | rfl | hin)
        · exact .inl hin
        · exact .inl hlisted
        · exact .inr hin
    · rw [if_neg hlisted] at h
      simp only [bind_eq_ok, u32_eq_ok, pure_eq_ok] at h
      obtain ⟨count, ⟨-, rfl⟩, next, hnext, hrest⟩ := h
      have hfresh : r.index.position staker = none := Option.not_isSome_iff_eq_none.mp hlisted
      have hlisting : next.Listing rest := by
        subst hnext
        refine ⟨hr.index.push hfresh, fun other => ?_, hr.record, hr.finite, hr.total⟩
        have hpush : (Function.update r.stakerIndex staker (some r.stakerCount) other).isSome ↔
            other = staker ∨ (r.stakerIndex other).isSome := DenseIndex.push_isSome (d := r.index)
        show (Function.update r.stakerIndex staker (some r.stakerCount) other).isSome ∨
          other ∈ rest ↔ (r.stake other).isSome
        rw [hpush, ← hr.listed other, List.mem_cons]
        tauto
      obtain ⟨hsound, hstake⟩ := ih hlisting hrest
      exact ⟨hsound, by rw [hstake, ← hnext]⟩

/-- A migration of the old list leaves an index that lists exactly the stakers. -/
theorem migrateStakers_sound {c : Config Addr} {r r' : Registry Addr}
    (hr : r.Listing (r.stakers.getD [])) (h : migrateStakers c r = .ok r') :
    r'.Sound ∧ r'.stake = r.stake ∧ r'.stakers = none := by
  simp only [migrateStakers, bind_eq_ok] at h
  obtain ⟨-, -, h⟩ := h
  cases hlist : r.stakers with
  | none =>
    simp only [hlist, Option.getD_none] at h hr
    obtain rfl := pure_eq_ok.mp h
    exact ⟨hr.sound, rfl, hlist⟩
  | some list =>
    simp only [hlist, Option.getD_some, bind_eq_ok, pure_eq_ok] at h hr
    obtain ⟨migrated, hmigrated, rfl⟩ := h
    obtain ⟨hsound, hstake⟩ := migrateList_sound hr hmigrated
    exact ⟨⟨hsound.index, hsound.listed, hsound.record, hsound.finite, hsound.total⟩, hstake, rfl⟩

end Migration

section Runs

variable {Addr : Type} [DecidableEq Addr] {home : Addr}

/-- The index lists the stakers after every run, and after a migration of the stakers of an older
version, some of whom stand on its list only. -/
theorem stakerIndex_bijective (checksum : ℕ → ℤ → Hash) (balance : Addr → Addr → ℕ)
    (steps : List (Step Addr home)) :
    StakersIndexed ((machine home checksum).run (deployed balance) steps).registry ∧
      ∀ (c : Config Addr) (r r' : Registry Addr), r.Listing (r.stakers.getD []) →
        migrateStakers c r = .ok r' →
        StakersIndexed r' ∧ r'.stake = r.stake ∧ r'.stakers = none := by
  constructor
  · have hreachable := (run_consistent checksum balance steps).reachable
    exact hreachable.registry.stakersIndexed
  · intro c r r' hr h
    obtain ⟨hsound, hstake, hlist⟩ := migrateStakers_sound hr h
    exact ⟨hsound.stakersIndexed, hstake, hlist⟩

end Runs

def listedRecord : StakeRecord ℕ := ⟨5, 1000, 0, 1209600, none, 2⟩

/-- One staker of an older version, who stands on its list only. -/
def listedRegistry : Registry ℕ :=
  ⟨Function.update (fun _ => none) 5 (some listedRecord), fun _ => none, 0, fun _ => none,
    some [5], 1000⟩

theorem listedRegistry_listing : listedRegistry.Listing [5] := by
  have hnobody : PointSum.Finite (@stakedAmount ℕ) (fun _ : ℕ => none) :=
    PointSum.finite_const rfl
  constructor
  · exact DenseIndex.empty_sound
  · intro staker
    by_cases hstaker : staker = 5
    · simp [listedRegistry, hstaker]
    · simp [listedRegistry, hstaker]
  · intro staker record hrecord
    have hstored : Function.update (fun _ => none) 5 (some listedRecord) staker = some record :=
      hrecord
    rcases Table.update_eq_some_iff.mp hstored with ⟨rfl, rfl⟩ | ⟨-, hold⟩
    · exact ⟨rfl, by decide, by decide⟩
    · cases hold
  · exact hnobody.update 5 _
  · have htotal := hnobody.total_update 5 (some listedRecord)
    rw [PointSum.total_const (w := stakedAmount) (v := none) rfl] at htotal
    exact htotal.symm

theorem stakerIndex_bijective_listedRegistry :
    ∃ r, migrateStakers { (deployed fun _ _ => 0 : State ℕ).config with admin := some 1 }
        listedRegistry = .ok r ∧
      StakersIndexed r ∧ r.stakerAt 0 = some 5 := by
  have hmigrated : (migrateStakers
      { (deployed fun _ _ => 0 : State ℕ).config with admin := some 1 } listedRegistry).isOk =
        true := by decide +kernel
  cases h : migrateStakers { (deployed fun _ _ => 0 : State ℕ).config with admin := some 1 }
      listedRegistry with
  | error e =>
    rw [h] at hmigrated
    cases hmigrated
  | ok r =>
    have hindexed := (stakerIndex_bijective (fun _ _ => 0) (fun _ _ => 0)
      ([] : List (Step ℕ 0))).2 _ _ r listedRegistry_listing h
    exact ⟨r, rfl, hindexed.1, by cases h; rfl⟩

end Staking

/-! The index over the rewards that are not claimed yet, and the view that pages through it. -/
namespace Staking
open Outcome Soroban Shared

section Pages

variable {Addr : Type}

/-- What the view shows for an entry of the index. -/
def shownLockup (r : Rewards Addr) (entry : Addr × ℕ) : Option (Addr × RewardLockup) :=
  match r.stakerRewardLockup (entry.1, entry.2) with
  | none => none
  | some lockup => if lockup.claimed then none else some (entry.1, lockup)

def getPendingDistributionsPage (r : Rewards Addr) (offset limit : ℕ) :
    List (Addr × RewardLockup) :=
  let bounds := Pagination.bounds r.pendingDistributionCount offset limit
  (List.range' bounds.1 (bounds.2 - bounds.1)).filterMap fun index =>
    match r.pendingDistributionIndex index with
    | none => none
    | some entry => shownLockup r entry

def Rewards.pending (r : Rewards Addr) : DenseIndex (Addr × ℕ) where
  entry := r.pendingDistributionIndex
  position := r.pendingDistributionPosition
  count := r.pendingDistributionCount

/-- A page shows the entries of its part of the index. -/
theorem getPendingDistributionsPage_eq (r : Rewards Addr) (offset limit : ℕ) :
    getPendingDistributionsPage r offset limit =
      (r.pending.slice (min offset r.pendingDistributionCount)
        (min (offset + Pagination.clampLimit limit) r.pendingDistributionCount)).filterMap
          (shownLockup r) := by
  unfold getPendingDistributionsPage DenseIndex.slice
  rw [Pagination.bounds_eq, List.filterMap_filterMap]
  apply List.filterMap_congr
  intro i _
  show (match r.pendingDistributionIndex i with
    | none => none
    | some entry => shownLockup r entry) = (r.pendingDistributionIndex i).bind (shownLockup r)
  cases r.pendingDistributionIndex i <;> rfl

end Pages

section Index

variable {Addr : Type}

/-- There is a reward that was not paid yet. -/
def Unclaimed (o : Option RewardLockup) : Prop := ∃ l, o = some l ∧ l.claimed = false

/-- The index lists the rewards that were not paid yet, under the epochs that they name. -/
structure Rewards.PendingSound (r : Rewards Addr) : Prop where
  index : r.pending.Sound
  listed : ∀ key, (r.pendingDistributionPosition key).isSome ↔
    Unclaimed (r.stakerRewardLockup key)
  epochId : ∀ staker e l, r.stakerRewardLockup (staker, e) = some l → l.epochId = e

theorem Rewards.PendingSound.congr {r r' : Rewards Addr} (h : r.PendingSound)
    (hpending : r'.pending = r.pending)
    (hlockups : r'.stakerRewardLockup = r.stakerRewardLockup) : r'.PendingSound where
  index := hpending ▸ h.index
  listed key := by
    have hposition : r'.pendingDistributionPosition = r.pendingDistributionPosition :=
      congrArg DenseIndex.position hpending
    rw [hposition, hlockups]
    exact h.listed key
  epochId staker e l hl := h.epochId staker e l (hlockups ▸ hl)

/-- What the pages show of an entry. -/
theorem shownLockup_eq_some {r : Rewards Addr} {entry : Addr × ℕ} {x : Addr × RewardLockup} :
    shownLockup r entry = some x ↔
      x.1 = entry.1 ∧ r.stakerRewardLockup entry = some x.2 ∧ x.2.claimed = false := by
  unfold shownLockup
  cases hl : r.stakerRewardLockup (entry.1, entry.2) with
  | none =>
    simp
  | some lockup =>
    show (if lockup.claimed then none else some (entry.1, lockup)) = some x ↔ _
    cases hclaimed : lockup.claimed with
    | true =>
      simp only [if_true, reduceCtorEq, Option.some.injEq, false_iff]
      rintro ⟨-, rfl, hfalse⟩
      rw [hclaimed] at hfalse
      cases hfalse
    | false =>
      obtain ⟨staker, l⟩ := x
      simp only [Bool.false_eq_true, if_false, Option.some.injEq, Prod.mk.injEq]
      constructor
      · rintro ⟨rfl, rfl⟩
        exact ⟨rfl, rfl, hclaimed⟩
      · rintro ⟨rfl, rfl, -⟩
        exact ⟨rfl, rfl⟩

/-- As many pages as it takes show each reward that was not paid yet, and none twice. -/
theorem Rewards.PendingSound.pages {r : Rewards Addr} (h : r.PendingSound) {limit n : ℕ}
    (hn : r.pendingDistributionCount ≤ n * Pagination.clampLimit limit) :
    ((List.range n).flatMap fun k =>
        getPendingDistributionsPage r (k * Pagination.clampLimit limit) limit).Nodup ∧
      ∀ staker l, (staker, l) ∈ ((List.range n).flatMap fun k =>
          getPendingDistributionsPage r (k * Pagination.clampLimit limit) limit) ↔
        ∃ e, r.stakerRewardLockup (staker, e) = some l ∧ l.claimed = false := by
  have hpages : ((List.range n).flatMap fun k =>
        getPendingDistributionsPage r (k * Pagination.clampLimit limit) limit) =
      (r.pending.slice 0 r.pending.count).filterMap (shownLockup r) := by
    have hflat := DenseIndex.flatMap_pages r.pending (Pagination.clampLimit limit) n
    have hall : min (n * Pagination.clampLimit limit) r.pending.count = r.pending.count := min_eq_right hn
    rw [hall] at hflat
    rw [← hflat, List.filterMap_flatMap]
    exact congrArg (fun f => (List.range n).flatMap f)
      (funext fun k => getPendingDistributionsPage_eq r (k * Pagination.clampLimit limit) limit)
  rw [hpages]
  constructor
  · refine List.Nodup.filterMap ?_ (h.index.slice_nodup 0 _)
    rintro ⟨staker, e⟩ ⟨staker', e'⟩ x hx hx'
    obtain ⟨hstaker, hl, -⟩ := shownLockup_eq_some.mp hx
    obtain ⟨hstaker', hl', -⟩ := shownLockup_eq_some.mp hx'
    have hepoch := h.epochId staker e x.2 hl
    rw [h.epochId staker' e' x.2 hl'] at hepoch
    exact Prod.ext (hstaker.symm.trans hstaker') hepoch.symm
  · intro staker l
    simp only [List.mem_filterMap, h.index.mem_slice_count]
    constructor
    · rintro ⟨⟨other, e⟩, -, hshown⟩
      obtain ⟨hstaker, hl, hunclaimed⟩ := shownLockup_eq_some.mp hshown
      have heq : staker = other := hstaker
      subst heq
      exact ⟨e, hl, hunclaimed⟩
    · rintro ⟨e, hl, hunclaimed⟩
      refine ⟨(staker, e), ?_, shownLockup_eq_some.mpr ⟨rfl, hl, hunclaimed⟩⟩
      exact (h.listed (staker, e)).mpr ⟨l, hl, hunclaimed⟩

end Index

section Updates

variable {Addr : Type} [DecidableEq Addr] {r r' : Rewards Addr} {staker : Addr} {e : ℕ}

/-- A new lockup is appended to the index. -/
theorem Rewards.PendingSound.lockShare {lockup : RewardLockup} (h : r.PendingSound)
    (hfresh : r.stakerRewardLockup (staker, e) = none) (hepoch : lockup.epochId = e)
    (hunclaimed : lockup.claimed = false) (hlock : lockShare r staker e lockup = .ok r') :
    r'.PendingSound := by
  obtain ⟨-, hlockups⟩ := lockShare_spec hlock
  have hpush : r'.pending = r.pending.push (staker, e) := by
    unfold Staking.lockShare at hlock
    rw [hfresh] at hlock
    simp only [Option.isSome_none, Bool.false_eq_true, if_false, addPendingDistribution,
      bind_eq_ok, checkedU32_eq_ok, pure_eq_ok] at hlock
    obtain ⟨indexed, ⟨next, ⟨-, rfl⟩, rfl⟩, rfl⟩ := hlock
    rfl
  have hposition : r'.pendingDistributionPosition = (r.pending.push (staker, e)).position :=
    congrArg DenseIndex.position hpush
  have hunlisted : r.pending.position (staker, e) = none := by
    rw [← Option.not_isSome_iff_eq_none]
    intro hsome
    obtain ⟨l, hl, -⟩ := (h.listed (staker, e)).mp hsome
    rw [hfresh] at hl
    cases hl
  refine ⟨hpush ▸ h.index.push hunlisted, fun key => ?_, fun other e' l hl => ?_⟩
  · rw [hposition, DenseIndex.push_isSome, hlockups]
    by_cases hkey : key = (staker, e)
    · subst hkey
      simp [Unclaimed, hunclaimed]
    · rw [Function.update_of_ne hkey, or_iff_right hkey]
      exact h.listed key
  · rw [hlockups] at hl
    obtain ⟨hkey, rfl⟩ | ⟨-, hold⟩ := Table.update_eq_some_iff.mp hl
    · obtain ⟨-, rfl⟩ := Prod.mk.inj hkey
      exact hepoch
    · exact h.epochId other e' l hold

/-- The removal of an entry that is listed. -/
theorem removePendingDistribution_pending {k : ℕ} (h : r.pending.Sound)
    (hk : r.pendingDistributionPosition (staker, e) = some k) :
    ∃ last, r.pending.entry (r.pending.count - 1) = some last ∧
      (removePendingDistribution r staker e).pending =
        r.pending.swapRemove (staker, e) last k := by
  have hlt : k < r.pendingDistributionCount := h.lt_count hk
  have hentry : r.pendingDistributionIndex k = some (staker, e) := (h.entry_iff k _).mpr hk
  unfold removePendingDistribution
  simp only [hk]
  rw [if_neg (by omega)]
  by_cases hlast : k = r.pendingDistributionCount - 1
  · refine ⟨(staker, e), by rw [← hentry, hlast]; rfl, ?_⟩
    rw [if_pos hlast]
    simp only [Rewards.pending, DenseIndex.swapRemove, ← hlast, Function.update_idem]
  · have htaken : (r.pending.entry (r.pending.count - 1)).isSome :=
      (h.isSome_iff _).mpr (Nat.sub_lt (Nat.zero_lt_of_lt hlt) Nat.one_pos)
    obtain ⟨last, hlastEntry⟩ := Option.isSome_iff_exists.mp htaken
    refine ⟨last, hlastEntry, ?_⟩
    have hfound : r.pendingDistributionIndex (r.pendingDistributionCount - 1) = some last :=
      hlastEntry
    rw [if_neg hlast, hfound]
    rfl

/-- A reward leaves the index when it is claimed. -/
theorem Rewards.PendingSound.claim {marked : Rewards Addr} {l : RewardLockup}
    (h : r.PendingSound) (hl : r.stakerRewardLockup (staker, e) = some l)
    (hunclaimed : l.claimed = false) (hindex : marked.pending = r.pending)
    (hmarks : marked.stakerRewardLockup = Function.update r.stakerRewardLockup (staker, e)
      (some { l with claimed := true })) :
    (removePendingDistribution marked staker e).PendingSound := by
  have hlisted := (h.listed (staker, e)).mpr ⟨l, hl, hunclaimed⟩
  obtain ⟨k, hk⟩ := Option.isSome_iff_exists.mp hlisted
  have hk' : marked.pendingDistributionPosition (staker, e) = some k := by
    rw [← hk]
    exact congrFun (congrArg DenseIndex.position hindex) _
  obtain ⟨last, hlast, hremoved⟩ := removePendingDistribution_pending (hindex ▸ h.index) hk'
  obtain ⟨-, hlockups⟩ := removePendingDistribution_eq marked staker e
  rw [hindex] at hlast hremoved
  rw [hmarks] at hlockups
  have hposition : (removePendingDistribution marked staker e).pendingDistributionPosition =
      (r.pending.swapRemove (staker, e) last k).position := congrArg DenseIndex.position hremoved
  refine ⟨hremoved ▸ h.index.swapRemove hk hlast, fun key => ?_, fun other e' x hx => ?_⟩
  · rw [hposition, h.index.swapRemove_isSome hlast, hlockups]
    by_cases hkey : key = (staker, e)
    · subst hkey
      simp [Unclaimed]
    · rw [Function.update_of_ne hkey, and_iff_right hkey]
      exact h.listed key
  · rw [hlockups] at hx
    obtain ⟨hkey, rfl⟩ | ⟨-, hold⟩ := Table.update_eq_some_iff.mp hx
    · obtain ⟨-, rfl⟩ := Prod.mk.inj hkey
      exact h.epochId staker e' l hl
    · exact h.epochId other e' x hold

end Updates

section Calls

variable {Addr : Type} [DecidableEq Addr] {home : Addr} {inv : Invocation Addr home}
  {s t : State Addr} {call : Call Addr} {now : ℕ} {staker : Addr}

/-- The rounds of a settlement index what they lock, as nothing is locked there yet. -/
theorem settleEpochs_pendingSound {ep : Epochs Addr} {record : Option (StakeRecord Addr)}
    {start n : ℕ} {r r' : Rewards Addr} (hr : r.PendingSound)
    (hfresh : ∀ e, start ≤ e → r.stakerRewardLockup (staker, e) = none)
    (h : settleEpochs now ep record staker start n r = .ok r') : r'.PendingSound := by
  induction n generalizing r' with
  | zero =>
    obtain rfl := pure_eq_ok.mp h
    exact hr
  | succ n ih =>
    simp only [settleEpochs, bind_eq_ok] at h
    obtain ⟨mid, hmid, hlast⟩ := h
    have hmidSound := ih hmid
    have hmidFresh : mid.stakerRewardLockup (staker, start + n) = none := by
      obtain ⟨-, hlockups⟩ := settleEpochs_spec hmid
      rw [hlockups, if_neg (by omega)]
      exact hfresh _ (Nat.le_add_right _ _)
    obtain ⟨-, hround⟩ := settleEpoch_eq_ok_iff.mp hlast
    cases hlockup : settledLockup now ep record staker (start + n) with
    | none =>
      simp only [hlockup] at hround
      exact hround ▸ hmidSound
    | some lockup =>
      simp only [hlockup] at hround
      obtain ⟨-, -, -, -, -, hunclaimed⟩ := settledLockup_eq_some hlockup
      have hepoch : lockup.epochId = start + n := by
        unfold settledLockup at hlockup
        split_ifs at hlockup
        obtain rfl := Option.some.inj hlockup
        rfl
      exact hmidSound.lockShare hmidFresh hepoch hunclaimed hround

theorem settleEpochRewards_pendingSound {reg : Registry Addr} {ep : Epochs Addr}
    {r r' : Rewards Addr} (hr : r.PendingSound) (hbooked : Booked r)
    (h : settleEpochRewards now reg ep r staker = .ok r') : r'.PendingSound := by
  simp only [settleEpochRewards, bind_eq_ok, pure_eq_ok] at h
  obtain ⟨settled, hsettled, rfl⟩ := h
  have hsound := settleEpochs_pendingSound hr (fun e he => hbooked.fresh ep he) hsettled
  exact hsound.congr rfl rfl

theorem claimEpochs_pendingSound {n : ℕ} {scan scan' : ClaimScan Addr}
    (hr : scan.rewards.PendingSound) (h : claimEpochs now staker n scan = .ok scan') :
    scan'.rewards.PendingSound := by
  induction n generalizing scan' with
  | zero =>
    obtain rfl := pure_eq_ok.mp h
    exact hr
  | succ e ih =>
    simp only [claimEpochs, bind_eq_ok] at h
    obtain ⟨mid, hmid, hlast⟩ := h
    have hmidSound := ih hmid
    unfold claimEpoch at hlast
    split_ifs at hlast with hlimit
    · exact pure_eq_ok.mp hlast ▸ hmidSound
    · split at hlast
      · exact pure_eq_ok.mp hlast ▸ hmidSound
      · rename_i l hl
        split_ifs at hlast with hclaim
        · simp only [bind_eq_ok, checkedI128_eq_ok, pure_eq_ok] at hlast
          obtain ⟨total, -, rfl⟩ := hlast
          exact hmidSound.claim hl hclaim.1 rfl rfl
        · obtain rfl := pure_eq_ok.mp hlast
          exact hmidSound

theorem claimLegacy_pendingSound {scan claim : ClaimScan Addr}
    (hr : scan.rewards.PendingSound) (h : claimLegacy scan staker = .ok claim) :
    claim.rewards.PendingSound := by
  unfold claimLegacy at h
  dsimp only at h
  split_ifs at h with hlegacy
  · simp only [bind_eq_ok, checkedI128_eq_ok, pure_eq_ok] at h
    obtain ⟨total, -, rfl⟩ := h
    exact hr.congr rfl rfl
  · obtain rfl := pure_eq_ok.mp h
    exact hr

theorem Effect.pendingSound (hs : Consistent s) (hr : s.rewards.PendingSound)
    (h : Effect inv s t call) : t.rewards.PendingSound := by
  cases h with
  | idled _ h => exact h.rewards ▸ hr
  | staked h => exact hr.congr (by rw [h.rewards]; rfl) (by rw [h.rewards])
  | unstaked h =>
    have hsettled := settleEpochRewards_pendingSound hr hs.lockups.booked h.settlement
    exact hsettled.congr (by rw [h.rewards]; rfl) (by rw [h.rewards])
  | closed _ h => exact h.rewards ▸ hr
  | batched h =>
    rcases h.credited with ⟨-, hrewards⟩ | ⟨-, updates, pending, -, -, hrewards⟩
    · exact hrewards ▸ hr
    · exact hr.congr (by rw [hrewards]; rfl) (by rw [hrewards])
  | claimed h =>
    have hsettled := settleEpochRewards_pendingSound hr hs.lockups.booked h.settlement
    have hscanned := claimEpochs_pendingSound hsettled h.scanned
    exact h.rewards ▸ claimLegacy_pendingSound hscanned h.legacy
  | funded h => exact h.rewards ▸ hr
  | lpPaid h => exact h.rewards ▸ hr
  | deposited h => exact h.rewards ▸ hr

end Calls

section Runs

variable {Addr : Type} [DecidableEq Addr] {home : Addr}

omit [DecidableEq Addr] in
theorem deployed_pendingSound (balance : Addr → Addr → ℕ) :
    (deployed balance).rewards.PendingSound where
  index := DenseIndex.empty_sound
  listed key := by simp [deployed, Unclaimed]
  epochId _ _ _ hl := nomatch hl

theorem run_pendingSound (checksum : ℕ → ℤ → Hash) (balance : Addr → Addr → ℕ)
    (steps : List (Step Addr home)) :
    ((machine home checksum).run (deployed balance) steps).rewards.PendingSound :=
  run_kept checksum (P := fun s => s.rewards.PendingSound) (deployed_consistent balance)
    (deployed_pendingSound balance) (fun _ _ _ hs hr heffect => heffect.pendingSound hs hr) steps

/-- The positions below the count list the rewards that were not paid yet, each once, and
pages of any size show them all without a repetition. -/
theorem pendingDistributions_listed (checksum : ℕ → ℤ → Hash) (balance : Addr → Addr → ℕ)
    (steps : List (Step Addr home)) :
    let r := ((machine home checksum).run (deployed balance) steps).rewards
    (∀ i key, r.pendingDistributionIndex i = some key ↔
        r.pendingDistributionPosition key = some i) ∧
      (∀ i, (r.pendingDistributionIndex i).isSome ↔ i < r.pendingDistributionCount) ∧
      (∀ key, (∃ i, i < r.pendingDistributionCount ∧ r.pendingDistributionIndex i = some key) ↔
        ∃ l, r.stakerRewardLockup key = some l ∧ l.claimed = false) ∧
      ∀ limit n, r.pendingDistributionCount ≤ n * Pagination.clampLimit limit →
        ((List.range n).flatMap fun k =>
            getPendingDistributionsPage r (k * Pagination.clampLimit limit) limit).Nodup ∧
          ∀ staker l, (staker, l) ∈ ((List.range n).flatMap fun k =>
              getPendingDistributionsPage r (k * Pagination.clampLimit limit) limit) ↔
            ∃ e, r.stakerRewardLockup (staker, e) = some l ∧ l.claimed = false := by
  intro r
  have hsound : r.PendingSound := run_pendingSound checksum balance steps
  refine ⟨hsound.index.entry_iff, hsound.index.isSome_iff, fun key => ?_,
    fun limit n hn => hsound.pages hn⟩
  rw [show (∃ l, r.stakerRewardLockup key = some l ∧ l.claimed = false) ↔
    (r.pendingDistributionPosition key).isSome from (hsound.listed key).symm,
    Option.isSome_iff_exists]
  constructor
  · rintro ⟨i, -, hi⟩
    exact ⟨i, (hsound.index.entry_iff i key).mp hi⟩
  · rintro ⟨i, hi⟩
    exact ⟨i, hsound.index.lt_count hi, (hsound.index.entry_iff i key).mpr hi⟩

end Runs

end Staking
