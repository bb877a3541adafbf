import MentorsMind.Governance.Proposals
import MentorsMind.VotingPower.World

/-! The conservation of voting weight. A vote asks for the delegated power under the ledger at
which the proposal was made and for everything else under the id of the proposal, so that the
weights account for the recorded stakes only as far as the two keys agree. -/
namespace VotingPower
open Outcome Soroban

variable {Addr : Type} [DecidableEq Addr] {snapshotHome delegationHome home : Addr}

/-- The weights of the voters add up to the total stake of the snapshot, and what a staker has at
stake is counted for one voter. -/
def Conserved (inv : Governance.Invocation Addr home)
    (asked : Snapshot.Invocation Addr snapshotHome) (w : World Addr) (g : Governance.State Addr)
    (p : Governance.Proposal Addr) (id : ℕ) : Prop :=
  ∃ weight : Addr → ℤ, (∀ voter, voteWeight inv asked w g p id voter = .ok (weight voter)) ∧
    (∀ voter, weight voter = Poll.tally (fun staker => some (countedFor w id staker))
      (Snapshot.getSnapshotBalance w.snapshot id) voter) ∧
    ∑ᶠ voter, weight voter = Snapshot.getTotalSupplyAt w.snapshot id

/-- The delegated power under a key is what the delegations recorded under the id make of the
recorded stakes. -/
def PowerMatches (w : World Addr) (id key : ℕ) : Prop :=
  ∀ voter, DelegatedPower.getDelegatedPowerAtSnapshot w.delegation voter key =
    Poll.tally (DelegatedPower.getDelegationAtSnapshot w.delegation id)
      (Snapshot.getSnapshotBalance w.snapshot id) voter

/-- What the staking contract answers: each staker once, with a stake that is not negative, and
the sum of the stakes. -/
structure Truthful (inv : Snapshot.Invocation Addr snapshotHome) (stakingContract : Addr) :
    Prop where
  nodup : ((Snapshot.recordedData inv stakingContract).map Prod.fst).Nodup
  nonneg : ∀ entry ∈ Snapshot.recordedData inv stakingContract, 0 ≤ entry.2
  total : inv.totalStaked stakingContract =
    some ((Snapshot.recordedData inv stakingContract).map Prod.snd).sum
  fits : FitsI128 ((Snapshot.recordedData inv stakingContract).map Prod.snd).sum

/-- Nobody but the recorded stakers has a balance under the id. -/
def Unstale (s : Snapshot.State Addr) (id : ℕ) (stakerData : List (Addr × ℤ)) : Prop :=
  ∀ a, a ∉ stakerData.map Prod.fst → Snapshot.getSnapshotBalance s id a = 0

section Weights

variable {inv : Governance.Invocation Addr home} {asked : Snapshot.Invocation Addr snapshotHome}
  {w : World Addr} {g : Governance.State Addr} {p : Governance.Proposal Addr} {id : ℕ}
  {voter : Addr} {stakerData : List (Addr × ℤ)}

/-- Balances under an id: of finitely many, and never negative. -/
structure Balances (s : Snapshot.State Addr) (id : ℕ) : Prop where
  finite : (Function.support (Snapshot.getSnapshotBalance s id)).Finite
  nonneg : ∀ a, 0 ≤ Snapshot.getSnapshotBalance s id a

omit [DecidableEq Addr] in
theorem voteWeight_eq (hsnapshot : g.snapshotContract ≠ none)
    (hdelegation : g.delegationContract ≠ none) (hset : w.snapshot.delegationContract ≠ none) :
    voteWeight inv asked w g p id voter =
      checkedI128 ((if DelegatedPower.getDelegationAtSnapshot w.delegation id voter = none then
          Snapshot.getSnapshotBalance w.snapshot id voter else 0) +
        DelegatedPower.getDelegatedPowerAtSnapshot w.delegation voter p.snapshotLedger)
        (.panic "weight overflow") := by
  obtain ⟨snapshotContract, hsnapshot⟩ := Option.ne_none_iff_exists'.mp hsnapshot
  obtain ⟨delegationContract, hdelegation⟩ := Option.ne_none_iff_exists'.mp hdelegation
  obtain ⟨asks, hset⟩ := Option.ne_none_iff_exists'.mp hset
  have hpower : Snapshot.getVotingPower { asked with
      delegationAtSnapshot := fun _ id delegator =>
        some (DelegatedPower.getDelegationAtSnapshot w.delegation id delegator) }
      w.snapshot id voter =
        .ok (if DelegatedPower.getDelegationAtSnapshot w.delegation id voter = none then
          Snapshot.getSnapshotBalance w.snapshot id voter else 0) := by
    simp only [Snapshot.getVotingPower, hset, expect, ok_bind]
    cases DelegatedPower.getDelegationAtSnapshot w.delegation id voter with
    | none => rfl
    | some delegate => rfl
  rw [voteWeight, Governance.votingWeight, hsnapshot, hdelegation]
  simp only [answering, hpower]
  rfl

theorem conserved_iff (hsnapshot : g.snapshotContract ≠ none)
    (hdelegation : g.delegationContract ≠ none) (hset : w.snapshot.delegationContract ≠ none)
    (hbalances : Balances w.snapshot id) (hentries : Snapshot.Unmodified w.snapshot id stakerData)
    (hnodup : (stakerData.map Prod.fst).Nodup)
    (htotal : w.snapshot.snapshotTotalSupply id = some (stakerData.map Prod.snd).sum)
    (hfits : FitsI128 (stakerData.map Prod.snd).sum) :
    Conserved inv asked w g p id ↔
      Unstale w.snapshot id stakerData ∧ PowerMatches w id p.snapshotLedger := by
  have hlisted : ((stakerData.map Prod.fst).map (Snapshot.getSnapshotBalance w.snapshot id)) =
      stakerData.map Prod.snd := by
    rw [List.map_map]
    apply List.map_congr_left
    intro entry hentry
    show (w.snapshot.snapshot (id, entry.1)).getD 0 = entry.2
    rw [hentries entry hentry, Option.getD_some]
  have hsupply : Snapshot.getTotalSupplyAt w.snapshot id = (stakerData.map Prod.snd).sum := by
    rw [Snapshot.getTotalSupplyAt, htotal, Option.getD_some]
  have hsum := Poll.sum_tally (f := countedFor w id) hbalances.finite
  have hunstale := Poll.sum_eq_listed_iff hbalances.nonneg hbalances.finite hnodup
  rw [hlisted] at hunstale
  have hsplit := Poll.tally_sent (DelegatedPower.getDelegationAtSnapshot w.delegation id)
    hbalances.finite
  constructor
  · intro h
    obtain ⟨weight, hweight, hcounted, hadd⟩ := h
    constructor
    · apply hunstale.mp
      rw [← hsupply, ← hadd, ← hsum]
      exact finsum_congr fun voter => (hcounted voter).symm
    · intro voter
      have heq := hweight voter
      rw [voteWeight_eq hsnapshot hdelegation hset, checkedI128_eq_ok] at heq
      have hboth := heq.2.trans ((hcounted voter).trans (hsplit voter))
      exact add_left_cancel hboth
  · intro h
    obtain ⟨hstale, hmatches⟩ := h
    have htally : ∑ᶠ a, Snapshot.getSnapshotBalance w.snapshot id a =
        (stakerData.map Prod.snd).sum := hunstale.mpr hstale
    refine ⟨_, ?_, fun _ => rfl, ?_⟩
    · intro voter
      have hnonneg : 0 ≤ Poll.tally (fun staker => some (countedFor w id staker))
          (Snapshot.getSnapshotBalance w.snapshot id) voter :=
        Poll.tally_nonneg hbalances.nonneg voter
      have hle : Poll.tally (fun staker => some (countedFor w id staker))
          (Snapshot.getSnapshotBalance w.snapshot id) voter ≤ _ :=
        Poll.tally_le hbalances.nonneg hbalances.finite voter
      rw [htally] at hle
      rw [voteWeight_eq hsnapshot hdelegation hset, checkedI128_eq_ok, hmatches voter, ← hsplit]
      exact ⟨⟨(by decide : (-(2 ^ 127) : ℤ) ≤ 0).trans hnonneg, hle.trans_lt hfits.2⟩, rfl⟩
    · rw [hsum, htally, hsupply]

end Weights

section Recording

variable {digests : Snapshot.Digests Addr} {inv : Snapshot.Invocation Addr snapshotHome}
  {s t : Snapshot.State Addr} {call : Snapshot.Call Addr} {id : ℕ} {caller stakingContract : Addr}
  {stakerData : List (Addr × ℤ)}

/-- The snapshot under the id is stored with its total. -/
structure Recorded (digests : Snapshot.Digests Addr) (stakingContract : Addr) (id : ℕ)
    (stakerData : List (Addr × ℤ)) (s : Snapshot.State Addr) : Prop where
  stored : Snapshot.Stored digests stakingContract id stakerData s
  delegation : s.delegationContract ≠ none
  supply : s.snapshotTotalSupply id = some (stakerData.map Prod.snd).sum

omit [DecidableEq Addr] in
theorem recorded_of_record (h : Snapshot.Effect digests inv s t (.recordSnapshot caller id))
    (hstaking : s.stakingContract = some stakingContract) (htruthful : Truthful inv stakingContract) :
    Recorded digests stakingContract id (Snapshot.recordedData inv stakingContract) t := by
  have hstored := h.stored_of_record hstaking
  cases h with
  | recorded stakingContract' delegationContract auth admin staking delegation _ _ supply _ eq =>
    obtain rfl := Option.some.inj (hstaking.symm.trans staking)
    constructor
    · exact hstored
    · rw [eq]
      show s.delegationContract ≠ none
      rw [delegation]
      exact Option.some_ne_none delegationContract
    · rw [supply, htruthful.total]

omit [DecidableEq Addr] in
theorem recorded_kept (h : Snapshot.Effect digests inv s t call)
    (hother : ∀ caller, call ≠ .recordSnapshot caller id)
    (hs : Recorded digests stakingContract id stakerData s) :
    Recorded digests stakingContract id stakerData t := by
  have hstored := h.stored_kept hother hs.stored
  cases h with
  | initialized fresh _ => exact absurd fresh hs.stored.ready
  | @recorded caller id' stakingContract' delegationContract _ _ _ _ _ _ _ _ eq =>
    have hid : id ≠ id' := by
      rintro rfl
      exact hother caller rfl
    constructor
    · exact hstored
    · rw [eq]
      exact hs.delegation
    · rw [eq]
      exact (Function.update_of_ne hid _ _).trans hs.supply

theorem balances_kept (h : Snapshot.Effect digests inv s t call)
    (htruthful : ∀ caller, call = .recordSnapshot caller id → ∀ stakingContract,
      s.stakingContract = some stakingContract → Truthful inv stakingContract)
    (hs : Balances s id) : Balances t id := by
  cases h with
  | initialized _ eq =>
    rw [eq]
    exact ⟨hs.finite, hs.nonneg⟩
  | @recorded caller id' stakingContract' delegationContract _ _ staking _ entries kept _ _ eq =>
    by_cases hid : id = id'
    · subst hid
      have htrue := htruthful caller rfl stakingContract' staking
      have hlisted : ∀ a ∈ (Snapshot.recordedData inv stakingContract').map Prod.fst,
          0 ≤ Snapshot.getSnapshotBalance t id a := by
        intro a ha
        obtain ⟨entry, hentry, rfl⟩ := List.mem_map.mp ha
        rw [Snapshot.getSnapshotBalance, entries entry hentry, Option.getD_some]
        exact htrue.nonneg entry hentry
      have hothers : ∀ a, a ∉ (Snapshot.recordedData inv stakingContract').map Prod.fst →
          Snapshot.getSnapshotBalance t id a = Snapshot.getSnapshotBalance s id a := by
        intro a ha
        rw [Snapshot.getSnapshotBalance, kept (id, a) fun _ => ha, Snapshot.getSnapshotBalance]
      constructor
      · apply (hs.finite.union (List.finite_toSet
          ((Snapshot.recordedData inv stakingContract').map Prod.fst))).subset
        intro a ha
        by_cases hmem : a ∈ (Snapshot.recordedData inv stakingContract').map Prod.fst
        · exact .inr hmem
        · rw [Function.mem_support, hothers a hmem] at ha
          exact .inl ha
      · intro a
        by_cases hmem : a ∈ (Snapshot.recordedData inv stakingContract').map Prod.fst
        · exact hlisted a hmem
        · rw [hothers a hmem]
          exact hs.nonneg a
    · have hsame : Snapshot.getSnapshotBalance t id = Snapshot.getSnapshotBalance s id := by
        funext a
        rw [Snapshot.getSnapshotBalance, kept (id, a) fun heq => absurd heq hid,
          Snapshot.getSnapshotBalance]
      exact ⟨hsame ▸ hs.finite, hsame ▸ hs.nonneg⟩

end Recording

section Taking

variable {inv : DelegatedPower.Invocation Addr delegationHome} {s : Snapshot.State Addr}
  {d d' : DelegatedPower.State Addr} {id : ℕ}

/-- A first snapshot of the delegations counts the recorded stakes. -/
theorem powerMatches_of_taken {callable : Bool}
    (h : DelegatedPower.exec (asking inv s callable) (.snapshotDelegations id) d = .ok d')
    (hlisted : DelegatedPower.Listed d) (hfresh : DelegatedPower.Unrecorded d id)
    (hbalances : Balances s id) : PowerMatches ⟨s, d'⟩ id id := by
  have hstakes : ∀ a b, (asking inv s callable).snapshotBalance id a = some b → 0 ≤ b := by
    intro a b hb
    simp only [asking] at hb
    split_ifs at hb
    obtain rfl := Option.some.inj hb
    exact hbalances.nonneg a
  obtain ⟨hdelegate, hpower⟩ := DelegatedPower.snapshot_first h hlisted hfresh hstakes
  intro voter
  show d'.delegationSnapshot (id, voter) = _
  rw [hpower]
  apply finsum_congr
  intro a
  by_cases ha : DelegatedPower.getDelegationAtSnapshot d' id a = some voter
  · have hanswered : (asking inv s callable).snapshotBalance id a ≠ none := by
      apply DelegatedPower.answered h hlisted
      rw [← hdelegate a]
      show DelegatedPower.getDelegationAtSnapshot d' id a ≠ none
      rw [ha]
      exact Option.some_ne_none voter
    have hcallable : callable = true := by
      cases callable with
      | true => rfl
      | false => exact absurd rfl hanswered
    rw [if_pos ha, if_pos ha, hcallable]
    rfl
  · rw [if_neg ha, if_neg ha]

end Taking

section Runs

variable {host : Host Addr} {steps pre later : List (WorldCall snapshotHome delegationHome)}
  {step : WorldCall snapshotHome delegationHome} {v : World Addr} {id : ℕ}
  {stakingContract : Addr}

/-- Whenever a snapshot is recorded under the id, the staking contract answers the truth. -/
def TruthfulAt (host : Host Addr) (steps : List (WorldCall snapshotHome delegationHome)) (id : ℕ) :
    Prop :=
  ∀ pre inv balance caller v, (machine snapshotHome delegationHome host).Executes
      (World.deployed Addr) steps pre (.recordSnapshot inv balance caller id) v →
    ∀ stakingContract, (reached host pre).snapshot.stakingContract = some stakingContract →
      Truthful inv stakingContract

theorem run_balances (htruthful : TruthfulAt host steps id) (hsofar : pre <+: steps) :
    Balances (reached host pre).snapshot id := by
  refine Machine.run_invariant_of_executes (M := machine snapshotHome delegationHome host)
    (P := fun w => Balances w.snapshot id) ?_ ?_ pre hsofar
  · constructor
    · have hzero : Snapshot.getSnapshotBalance (World.deployed Addr).snapshot id = 0 := rfl
      rw [hzero, Function.support_zero]
      exact Set.finite_empty
    · intro a
      exact le_rfl
  · intro early step u hx hs
    have hexec : World.exec host step (reached host early) = .ok u := hx.exec_eq
    cases exec_effect hexec with
    | initialized effect _ => exact balances_kept effect nofun hs
    | @recorded inv balance caller id' effect _ =>
      apply balances_kept effect _ hs
      intro caller' heq stakingContract hstaking
      obtain ⟨-, rfl⟩ := Snapshot.Call.recordSnapshot.inj heq
      have htrue := htruthful early inv balance caller u hx stakingContract hstaking
      exact ⟨htrue.nodup, htrue.nonneg, htrue.total, htrue.fits⟩
    | delegated _ snapshot =>
      rw [snapshot]
      exact hs

theorem run_recorded {inv : Snapshot.Invocation Addr snapshotHome} {balance : Addr → ℤ}
    {caller : Addr}
    (hx : (machine snapshotHome delegationHome host).Executes (World.deployed Addr) steps pre
      (.recordSnapshot inv balance caller id) v)
    (hlast : ∀ later step u, (machine snapshotHome delegationHome host).Executes
      (World.deployed Addr) steps later step u → pre.length < later.length → ¬ step.Records id)
    (htruthful : Truthful inv stakingContract)
    (hstaking : (reached host pre).snapshot.stakingContract = some stakingContract) :
    Recorded host.toDigests stakingContract id (Snapshot.recordedData inv stakingContract)
      (reached host steps).snapshot := by
  have hswitched : (machine snapshotHome delegationHome host).SwitchedOnIn
      (fun w step => step = .recordSnapshot inv balance caller id ∧
        w.snapshot.stakingContract = some stakingContract)
      (fun _ step => step.Records id) (World.deployed Addr) steps :=
    ⟨pre, _, v, hx, ⟨rfl, hstaking⟩, hlast⟩
  apply Machine.of_switchedOnIn (P := fun w => Recorded host.toDigests stakingContract id
    (Snapshot.recordedData inv stakingContract) w.snapshot) _ _ hswitched
  · intro step w u h hon
    obtain ⟨rfl, hw⟩ := hon
    have hexec : World.exec host (.recordSnapshot inv balance caller id) w = .ok u := h
    cases exec_effect hexec with
    | recorded effect _ =>
      have htrue : Truthful { inv with snapshotDelegations := fun _ _ => true } stakingContract :=
        ⟨htruthful.nodup, htruthful.nonneg, htruthful.total, htruthful.fits⟩
      have hrecorded := recorded_of_record effect hw htrue
      exact hrecorded
  · intro step w u h hoff hw
    cases exec_effect h with
    | initialized effect _ => exact recorded_kept effect nofun hw
    | @recorded inv' balance' caller' id' effect _ =>
      apply recorded_kept effect _ hw
      intro caller'' heq
      exact hoff (Snapshot.Call.recordSnapshot.inj heq).2
    | delegated _ snapshot =>
      rw [snapshot]
      exact hw

theorem run_listed (steps : List (WorldCall snapshotHome delegationHome)) :
    DelegatedPower.Listed (reached host steps).delegation :=
  Machine.run_invariant (M := machine snapshotHome delegationHome host)
    (P := fun w => DelegatedPower.Listed w.delegation) DelegatedPower.listed_deployed
    (fun _ _ _ hs hx => (exec_effect hx).listed hs) steps

/-- Where one snapshot of the delegations was taken under the id, the power under it matches. -/
theorem run_powerMatches (htruthful : TruthfulAt host steps id)
    (hx : (machine snapshotHome delegationHome host).Executes (World.deployed Addr) steps later
      step v) (htakes : step.TakesDelegations id)
    (hfresh : DelegatedPower.Unrecorded (reached host later).delegation id)
    (hlast : ∀ further step u, (machine snapshotHome delegationHome host).Executes
      (World.deployed Addr) steps further step u → later.length < further.length →
        ¬ step.TakesDelegations id) :
    PowerMatches (reached host steps) id id := by
  have hafter : Balances v.snapshot id := by
    have hbalances := run_balances htruthful hx.snoc_prefix
    rw [reached, hx.run_eq] at hbalances
    exact hbalances
  have hswitched : (machine snapshotHome delegationHome host).SwitchedOnIn
      (fun w b => w = reached host later ∧ b = step) (fun _ step => step.TakesDelegations id)
      (World.deployed Addr) steps := ⟨later, step, v, hx, ⟨rfl, rfl⟩, hlast⟩
  apply Machine.of_switchedOnIn (P := fun w => PowerMatches w id id) _ _ hswitched
  · intro b w u h hon
    obtain ⟨rfl, rfl⟩ := hon
    obtain rfl := Except.ok.inj (hx.exec_eq.symm.trans h)
    have hlisted : DelegatedPower.Listed (reached host later).delegation := run_listed later
    cases exec_effect h with
    | initialized _ _ => exact htakes.elim
    | @recorded inv balance caller id' _ taken =>
      obtain rfl : id' = id := htakes
      exact powerMatches_of_taken taken hlisted hfresh hafter
    | @delegated inv call exec snapshot =>
      cases call with
      | snapshotDelegations id' =>
        obtain rfl : id' = id := htakes
        rw [← snapshot] at exec
        exact powerMatches_of_taken exec hlisted hfresh hafter
      | _ => exact htakes.elim
  · intro b w u h hoff hw
    obtain ⟨hsnapshot, hdelegate, hpower⟩ := (exec_effect h).kept hoff
    have hbalance : Snapshot.getSnapshotBalance u.snapshot id =
        Snapshot.getSnapshotBalance w.snapshot id := by
      funext a
      rw [Snapshot.getSnapshotBalance, hsnapshot, Snapshot.getSnapshotBalance]
    have hdelegates : DelegatedPower.getDelegationAtSnapshot u.delegation id =
        DelegatedPower.getDelegationAtSnapshot w.delegation id := funext hdelegate
    intro voter
    rw [hbalance, hdelegates, ← hw voter]
    exact hpower voter

end Runs

/-- The votes on a proposal account for the snapshot recorded under its id exactly if no balances
of an earlier recording are left there and the delegated power under the ledger of the proposal is
what was delegated under its id. Where the delegations were taken once under the id, this asks
that the ledger has the power that the id has. -/
theorem run_conserved_iff (host : Host Addr)
    (steps pre : List (WorldCall snapshotHome delegationHome))
    (inv : Snapshot.Invocation Addr snapshotHome) (balance : Addr → ℤ) (caller : Addr) (id : ℕ)
    (v : World Addr) (stakingContract : Addr)
    (hx : (machine snapshotHome delegationHome host).Executes (World.deployed Addr) steps pre
      (.recordSnapshot inv balance caller id) v)
    (hlast : ∀ later step u, (machine snapshotHome delegationHome host).Executes
      (World.deployed Addr) steps later step u → pre.length < later.length → ¬ step.Records id)
    (hstaking : (reached host pre).snapshot.stakingContract = some stakingContract)
    (htruthful : TruthfulAt host steps id) (g : Governance.State Addr)
    (hsnapshot : g.snapshotContract ≠ none) (hdelegation : g.delegationContract ≠ none)
    (p : Governance.Proposal Addr) (voting : Governance.Invocation Addr home)
    (asked : Snapshot.Invocation Addr snapshotHome) :
    (Conserved voting asked (reached host steps) g p id ↔
      Unstale (reached host steps).snapshot id (Snapshot.recordedData inv stakingContract) ∧
        PowerMatches (reached host steps) id p.snapshotLedger) ∧
      ∀ later step u, (machine snapshotHome delegationHome host).Executes (World.deployed Addr)
          steps later step u → step.TakesDelegations id →
        DelegatedPower.Unrecorded (reached host later).delegation id →
        (∀ further step u, (machine snapshotHome delegationHome host).Executes
          (World.deployed Addr) steps further step u → later.length < further.length →
            ¬ step.TakesDelegations id) →
        (Conserved voting asked (reached host steps) g p id ↔
          Unstale (reached host steps).snapshot id (Snapshot.recordedData inv stakingContract) ∧
            ∀ voter, DelegatedPower.getDelegatedPowerAtSnapshot (reached host steps).delegation
                voter p.snapshotLedger =
              DelegatedPower.getDelegatedPowerAtSnapshot (reached host steps).delegation voter
                id) := by
  have htrue := htruthful pre inv balance caller v hx stakingContract hstaking
  have hrecorded := run_recorded hx hlast htrue hstaking
  have hconserved : Conserved voting asked (reached host steps) g p id ↔
      Unstale (reached host steps).snapshot id (Snapshot.recordedData inv stakingContract) ∧
        PowerMatches (reached host steps) id p.snapshotLedger :=
    conserved_iff hsnapshot hdelegation hrecorded.delegation
      (run_balances htruthful List.prefix_rfl) hrecorded.stored.entries htrue.nodup
      hrecorded.supply htrue.fits
  constructor
  · exact hconserved
  · intro later step u hu htakes hfresh honly
    have hmatches := run_powerMatches htruthful hu htakes hfresh honly
    rw [hconserved]
    apply and_congr_right
    intro _
    apply forall_congr'
    intro voter
    rw [← hmatches voter]

/-- A host that rules re-entry out. -/
def noReentry : Host ℕ where
  toDigests := Snapshot.byteDigests
  reentry := false

/-- The contracts know each other. -/
def contractsSet : List (WorldCall (0 : ℕ) (0 : ℕ)) :=
  [.initializeSnapshot (Snapshot.stakedBy [5, 6, 7]) 1 2 3,
    .delegation DelegatedPower.hundredEach (.initializeDelegation 9 8),
    .delegation DelegatedPower.hundredEach (.setSnapshotContract 9 4)]

/-- Accounts 5, 6 and 7 stake a hundred each. -/
def recording : WorldCall (0 : ℕ) (0 : ℕ) :=
  .recordSnapshot (Snapshot.stakedBy [5, 6, 7]) (fun _ => 100) 1 1

/-- After a snapshot was recorded 5 delegates to 6 and 6 to 7. Earlier delegations would have had
it fail, as the delegation contract may not ask back. -/
def chainDelegated : List (WorldCall (0 : ℕ) (0 : ℕ)) :=
  contractsSet ++ [recording] ++ [.delegation DelegatedPower.hundredEach (.delegate 5 6),
    .delegation DelegatedPower.hundredEach (.delegate 6 7)]

/-- The delegations are taken under the id. -/
def chainRun : List (WorldCall (0 : ℕ) (0 : ℕ)) :=
  chainDelegated ++ [.delegation DelegatedPower.hundredEach (.snapshotDelegations 1)]

/-- A proposal is made at a ledger. -/
def proposedAt (sequence : ℕ) : Governance.State ℕ :=
  Governance.reached (
    [(Governance.answered 1, .config (.initializeGovernance 1 2 3 none none none none none)),
      ({ Governance.answered 1 with sequence := sequence }, .createProposal 4 (.updateFee 300))] :
      List (Governance.Step ℕ 0))

theorem chainRun_records : (machine 0 0 noReentry).Executes (World.deployed ℕ) chainRun contractsSet
    recording (reached noReentry (contractsSet ++ [recording])) := by
  apply Machine.Executes.append
  apply Machine.Executes.append
  apply Machine.executes_of_run_ne
  intro hsame
  exact absurd (congrArg (fun w => w.snapshot.snapshot (1, 5)) hsame) (by decide)

theorem chainRun_takes : (machine 0 0 noReentry).Executes (World.deployed ℕ) chainRun chainDelegated
    (.delegation DelegatedPower.hundredEach (.snapshotDelegations 1))
    (reached noReentry chainRun) := by
  apply Machine.executes_of_run_ne
  intro hsame
  exact absurd (congrArg (fun w => w.delegation.delegationSnapshot (1, 6)) hsame) (by decide)

theorem chainRun_last (later : List (WorldCall (0 : ℕ) (0 : ℕ))) (step : WorldCall (0 : ℕ) (0 : ℕ))
    (u : World ℕ)
    (hx : (machine 0 0 noReentry).Executes (World.deployed ℕ) chainRun later step u)
    (hlt : contractsSet.length < later.length) : ¬ step.Records 1 := by
  have hlength : later.length < 7 := hx.length_lt
  have hlong : 3 < later.length := hlt
  have hstep := hx.eq_take.2
  generalize later.length = n at hstep hlength hlong
  interval_cases n
  · obtain rfl := Option.some.inj hstep
    exact id
  · obtain rfl := Option.some.inj hstep
    exact id
  · obtain rfl := Option.some.inj hstep
    exact id

theorem chainRun_truthful : TruthfulAt noReentry chainRun 1 := by
  intro pre inv balance caller v hx stakingContract _
  have hinv : inv = Snapshot.stakedBy [5, 6, 7] := by
    have hmem := hx.mem
    simp only [chainRun, chainDelegated, contractsSet, recording, List.mem_append, List.mem_cons,
      List.not_mem_nil, or_false, reduceCtorEq, false_or, WorldCall.recordSnapshot.injEq] at hmem
    exact hmem.1
  have hdata : Snapshot.recordedData (Snapshot.stakedBy [5, 6, 7] : Snapshot.Invocation ℕ 0)
      stakingContract = [(5, 100), (6, 100), (7, 100)] := rfl
  rw [hinv]
  constructor
  · rw [hdata]
    decide
  · rw [hdata]
    decide
  · rfl
  · rw [hdata]
    decide

theorem chainRun_unstale : Unstale (reached noReentry chainRun).snapshot 1
    (Snapshot.recordedData (Snapshot.stakedBy [5, 6, 7] : Snapshot.Invocation ℕ 0) 2) := by
  intro a ha
  have hnot : a ≠ 5 ∧ a ≠ 6 ∧ a ≠ 7 := by
    simpa [Snapshot.recordedData, Snapshot.stakedBy] using ha
  obtain ⟨h5, h6, h7⟩ := hnot
  show (Function.update (Function.update (Function.update (fun _ => none) (1, 5) (some (100 : ℤ)))
    (1, 6) (some 100)) (1, 7) (some 100) (1, a)).getD 0 = 0
  simp [h5, h6, h7]

/-- A proposal made at ledger 1 finds the power. -/
theorem chainRun_conserved : ∃ p, (proposedAt 1).proposal 1 = some p ∧
    Conserved (Governance.answered 1) (Snapshot.stakedBy [5, 6, 7] : Snapshot.Invocation ℕ 0)
      (reached noReentry chainRun) (proposedAt 1) p 1 := by
  have hledger : ((proposedAt 1).proposal 1).map (fun p => p.snapshotLedger) = some 1 := rfl
  obtain ⟨p, hp, hone⟩ := Option.map_eq_some_iff.mp hledger
  refine ⟨p, hp, ?_⟩
  have hconserved := run_conserved_iff noReentry chainRun contractsSet _ _ _ 1 _ 2 chainRun_records
    chainRun_last rfl chainRun_truthful (proposedAt 1) (by decide) (by decide) p
    (Governance.answered 1) (Snapshot.stakedBy [5, 6, 7])
  apply (hconserved.2 _ _ _ chainRun_takes rfl ⟨fun _ => rfl, fun _ => rfl⟩ ?_).mpr
  · rw [hone]
    exact ⟨chainRun_unstale, fun _ => rfl⟩
  · intro further step u hx hlt
    have hlength : further.length < 7 := hx.length_lt
    have hlong : 6 < further.length := hlt
    omega

/-- A proposal made at ledger 40 does not, and of the three hundred units at stake one hundred are
counted. -/
theorem chainRun_lost : ∃ p, (proposedAt 40).proposal 1 = some p ∧
    (∀ voter, voteWeight (Governance.answered 1)
        (Snapshot.stakedBy [5, 6, 7] : Snapshot.Invocation ℕ 0) (reached noReentry chainRun)
        (proposedAt 40) p 1 voter = .ok (if voter = 7 then 100 else 0)) ∧
      Snapshot.getTotalSupplyAt (reached noReentry chainRun).snapshot 1 = 300 ∧
      ¬ Conserved (Governance.answered 1) (Snapshot.stakedBy [5, 6, 7] : Snapshot.Invocation ℕ 0)
        (reached noReentry chainRun) (proposedAt 40) p 1 := by
  have hledger : ((proposedAt 40).proposal 1).map (fun p => p.snapshotLedger) = some 40 := rfl
  obtain ⟨p, hp, hforty⟩ := Option.map_eq_some_iff.mp hledger
  have hweight : ∀ voter, voteWeight (Governance.answered 1)
      (Snapshot.stakedBy [5, 6, 7] : Snapshot.Invocation ℕ 0) (reached noReentry chainRun)
      (proposedAt 40) p 1 voter = .ok (if voter = 7 then 100 else 0) := by
    intro voter
    have hpower : DelegatedPower.getDelegatedPowerAtSnapshot (reached noReentry chainRun).delegation
        voter 40 = 0 := rfl
    have hbalance : (if DelegatedPower.getDelegationAtSnapshot
        (reached noReentry chainRun).delegation 1 voter = none then
          Snapshot.getSnapshotBalance (reached noReentry chainRun).snapshot 1 voter else 0) =
        if voter = 7 then 100 else 0 := by
      by_cases h : voter = 5 ∨ voter = 6 ∨ voter = 7
      · rcases h with rfl | rfl | rfl <;> decide
      · rw [not_or, not_or] at h
        rw [if_neg h.2.2, chainRun_unstale voter (by simpa [Snapshot.recordedData,
          Snapshot.stakedBy] using h), ite_self]
    rw [voteWeight_eq (by decide) (by decide) (by decide), hforty, hpower, hbalance, add_zero]
    split_ifs <;> rfl
  refine ⟨p, hp, hweight, rfl, ?_⟩
  intro hconserved
  obtain ⟨weight, hgiven, -, hsum⟩ := hconserved
  have hsame : weight = fun voter => if voter = 7 then 100 else 0 := by
    funext voter
    exact Except.ok.inj ((hgiven voter).symm.trans (hweight voter))
  have htotal : ∑ᶠ voter, weight voter = 100 := by
    rw [hsame, finsum_eq_single _ 7 fun voter h => if_neg h, if_pos rfl]
  have hsupply : Snapshot.getTotalSupplyAt (reached noReentry chainRun).snapshot 1 = 300 := rfl
  rw [htotal, hsupply] at hsum
  exact absurd hsum (by decide)

end VotingPower
