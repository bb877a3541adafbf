import MentorsMind.Bounty.Contract

/-! What a successful call does to the bounties and what it pays. -/
namespace Bounty
open Outcome Soroban

variable {Addr : Type} {self : Addr} {inv : Invocation Addr self} {s t : State Addr}

section Shares

/-- The part of the reward that a milestone carries. -/
def share (reward : ℤ) (m : Milestone Addr) : ℤ := (reward * m.rewardBps).tdiv 10000

/-- What is still to be paid for a milestone. -/
def owed (reward : ℤ) (m : Milestone Addr) : ℤ := if m.completed then 0 else share reward m

def remaining (reward : ℤ) (ms : List (Milestone Addr)) : ℤ := (ms.map (owed reward)).sum

variable {reward : ℤ} {ms : List (Milestone Addr)}

@[simp] theorem remaining_nil : remaining reward ([] : List (Milestone Addr)) = 0 := rfl

@[simp] theorem remaining_cons (m : Milestone Addr) :
    remaining reward (m :: ms) = owed reward m + remaining reward ms := by
  simp [remaining]

theorem milestoneReward_eq_ok {m : Milestone Addr} {n : ℤ}
    (h : milestoneReward reward m = .ok n) : n = share reward m := by
  simp only [milestoneReward, bind_eq_ok, i128_eq_ok, pure_eq_ok] at h
  obtain ⟨product, ⟨-, rfl⟩, rfl⟩ := h
  rfl

theorem addRemaining_eq_ok {m : Milestone Addr} {total n : ℤ}
    (h : addRemaining reward total m = .ok n) : n = total + owed reward m := by
  unfold addRemaining at h
  unfold owed
  split_ifs at h ⊢ with hcompleted
  · rw [add_zero]
    exact (pure_eq_ok.mp h).symm
  · simp only [bind_eq_ok, i128_eq_ok] at h
    obtain ⟨n, hn, -, rfl⟩ := h
    rw [milestoneReward_eq_ok hn]

theorem remainingReward_eq_ok {n : ℤ} (h : remainingReward reward ms = .ok n) :
    n = remaining reward ms := by
  have hfold : ∀ total, ms.foldlM (addRemaining reward) total = .ok n →
      n = total + remaining reward ms := by
    clear h
    induction ms with
    | nil =>
      intro total h
      rw [List.foldlM_nil, pure_eq_ok] at h
      rw [remaining_nil, add_zero, h]
    | cons m ms ih =>
      intro total h
      rw [List.foldlM_cons, bind_eq_ok] at h
      obtain ⟨next, hnext, hrest⟩ := h
      rw [ih next hrest, addRemaining_eq_ok hnext, remaining_cons, add_assoc]
  rw [hfold 0 h, zero_add]

theorem remaining_nonneg (hreward : 0 ≤ reward) : 0 ≤ remaining reward ms := by
  induction ms with
  | nil => exact le_rfl
  | cons m ms ih =>
    have hshare : 0 ≤ share reward m := Int.tdiv_nonneg (by positivity) (by decide)
    rw [remaining_cons, owed]
    split_ifs
    · rw [zero_add]
      exact ih
    · exact add_nonneg hshare ih

theorem remaining_of_all_completed (h : ∀ m ∈ ms, m.completed = true) :
    remaining reward ms = 0 := by
  induction ms with
  | nil => rfl
  | cons m ms ih =>
    obtain ⟨hm, hms⟩ := List.forall_mem_cons.mp h
    rw [remaining_cons, ih hms, owed, if_pos hm, add_zero]

/-- A milestone that is completed takes its share out of what remains. -/
theorem remaining_set {i : ℕ} {m : Milestone Addr} (learner : Addr) (hm : ms[i]? = some m)
    (hopen : m.completed = false) :
    remaining reward ms = share reward m + remaining reward (ms.set i (complete learner m)) := by
  induction ms generalizing i with
  | nil => simp at hm
  | cons head ms ih =>
    cases i with
    | zero =>
      obtain rfl := Option.some.inj hm
      simp [owed, complete, hopen]
    | succ i =>
      rw [List.getElem?_cons_succ] at hm
      rw [List.set_cons_succ, remaining_cons, remaining_cons, ih hm]
      ring

theorem completeRemaining_completed (learner : Addr) (m : Milestone Addr) :
    (completeRemaining learner m).completed = true := by
  unfold completeRemaining
  split_ifs with hm
  · exact hm
  · rfl

end Shares

/-- Paid out or taken back. -/
def BountyRecord.Closed (b : BountyRecord Addr) : Prop :=
  b.status = .verified ∨ b.status = .refunded

/-- What the contract still holds back for the milestones. -/
def BountyRecord.locked (b : BountyRecord Addr) : ℤ :=
  if b.status = .refunded then 0 else remaining b.reward b.milestones

/-- One if the milestone at `i` is neither completed nor taken back, and zero otherwise. -/
def BountyRecord.unpaid (b : BountyRecord Addr) (i : ℕ) : ℤ :=
  if b.status ≠ .refunded ∧ ∃ m ∈ b.milestones[i]?, m.completed = false then 1 else 0

/-- How often the call pays the milestone at `i` of the bounty `b` that it names. -/
def Call.pays (call : Call Addr) (b : BountyRecord Addr) (i : ℕ) : ℤ :=
  match call with
  | .verifyMilestone _ _ _ index _ => if index = i then 1 else 0
  | .verifyCompletion _ _ _ _ => if ∃ m ∈ b.milestones[i]?, m.completed = false then 1 else 0
  | .refundBounty _ => if ∃ m ∈ b.milestones[i]?, m.completed = false then 1 else 0
  | _ => 0

/-- The bounty that a call names. -/
def Call.subject : Call Addr → Option ℕ
  | .claimBounty _ id _ _ => some id
  | .verifyCompletion _ id _ _ => some id
  | .verifyMilestone _ id _ _ _ => some id
  | .disputeCompletion id _ _ => some id
  | .refundBounty id => some id
  | _ => none

def Call.isInitialize : Call Addr → Bool
  | .initializeBounty _ _ => true
  | _ => false

theorem BountyRecord.locked_of_closed {b : BountyRecord Addr} (hclosed : b.Closed)
    (hverified : b.status = .verified → ∀ m ∈ b.milestones, m.completed = true) :
    b.locked = 0 := by
  unfold BountyRecord.locked
  split_ifs with hrefunded
  · rfl
  · exact remaining_of_all_completed (hverified (hclosed.resolve_right hrefunded))

theorem BountyRecord.locked_nonneg {b : BountyRecord Addr} (hreward : 0 ≤ b.reward) :
    0 ≤ b.locked := by
  unfold BountyRecord.locked
  split_ifs
  · exact le_rfl
  · exact remaining_nonneg hreward

theorem BountyRecord.unpaid_nonneg (b : BountyRecord Addr) (i : ℕ) : 0 ≤ b.unpaid i := by
  unfold BountyRecord.unpaid
  split_ifs
  · exact zero_le_one
  · exact le_rfl

variable [DecidableEq Addr]

/-- What the contract has paid in `token`. -/
def sent (home token : Addr) (s : State Addr) : ℤ :=
  Tokens.paidBy token home (fun _ => True) s.transfers

/-- The call rewrites the bounty `id` from `b` to `b'` and pays `amount`. -/
structure Settles (home : Addr) (s t : State Addr) (call : Call Addr) (id : ℕ)
    (b b' : BountyRecord Addr) (amount : ℤ) : Prop where
  subject : call.subject = some id
  found : s.bounty id = some b
  active : ¬ b.Closed
  bounty : t.bounty = Function.update s.bounty id (some b')
  count : t.bountyCount = s.bountyCount
  reward : b'.reward = b.reward
  token : b'.token = b.token
  sent : ∀ token, sent home token t =
    sent home token s + if token = b.token then amount else 0
  locked : b.locked = amount + b'.locked
  unpaid : ∀ i, b.unpaid i = call.pays b i + b'.unpaid i
  verified : b'.status = .verified → ∀ m ∈ b'.milestones, m.completed = true

/-- What a successful call does. -/
inductive Effect (home : Addr) (s t : State Addr) : Call Addr → Prop where
  | kept {call : Call Addr} (subject : call.subject = none) (bounty : t.bounty = s.bounty)
      (count : call.isInitialize = false → t.bountyCount = s.bountyCount) : Effect home s t call
  | posted {poster : Addr} {terms : Terms Addr} (b : BountyRecord Addr)
      (count : t.bountyCount = s.bountyCount + 1)
      (bounty : t.bounty = Function.update s.bounty (s.bountyCount + 1) (some b)) :
      Effect home s t (.postBounty poster terms)
  | settled {call : Call Addr} (id : ℕ) (b b' : BountyRecord Addr) (amount : ℤ)
      (settles : Settles home s t call id b b' amount) : Effect home s t call

omit [DecidableEq Addr] in
theorem addBps_fold_eq_ok {ms : List (Milestone Addr)} {start total : ℕ}
    (h : ms.foldlM addBps start = .ok total) :
    total = start + (ms.map Milestone.rewardBps).sum := by
  induction ms generalizing start with
  | nil =>
    rw [List.foldlM_nil, pure_eq_ok] at h
    simp [h]
  | cons m ms ih =>
    rw [List.foldlM_cons, bind_eq_ok] at h
    obtain ⟨next, hnext, hrest⟩ := h
    obtain ⟨-, rfl⟩ := checkedU32_eq_ok.mp hnext
    rw [ih hrest, List.map_cons, List.sum_cons, add_assoc]

omit [DecidableEq Addr] in
theorem postBounty_eq_ok {poster : Addr} {terms : Terms Addr}
    (h : postBounty inv s poster terms = .ok t) : 0 < terms.reward ∧
      (terms.milestones.map Milestone.rewardBps).sum = 10000 ∧
      t.bountyCount = s.bountyCount + 1 ∧
      t.bounty = Function.update s.bounty (s.bountyCount + 1) (some
        { terms with
          id := s.bountyCount + 1, poster := poster, status := .opened, winner := none }) := by
  simp only [postBounty, transfer, bind_eq_ok, requireAuth_eq_ok, require_eq_ok, u32_eq_ok,
    pure_eq_ok] at h
  obtain ⟨-, -, -, hreward, -, -, -, -, total, htotal, -, rfl, -, -, paid, ⟨-, -, -, -, rfl⟩,
    count, ⟨-, rfl⟩, -, -, rfl⟩ := h
  have hsum := addBps_fold_eq_ok htotal
  rw [zero_add] at hsum
  exact ⟨hreward, hsum.symm, rfl, rfl⟩

/-- A payment of the contract. -/
theorem sent_transfer {token recipient : Addr} {amount : ℤ}
    (h : transfer inv s token self recipient amount = .ok t) :
    t = { s with transfers := ⟨token, self, recipient, amount⟩ :: s.transfers } ∧
      ∀ other, sent self other t = sent self other s + if other = token then amount else 0 := by
  simp only [transfer, bind_eq_ok, require_eq_ok, pure_eq_ok] at h
  obtain ⟨-, -, -, -, rfl⟩ := h
  constructor
  · rfl
  · intro other
    simp [sent, Tokens.paidBy, eq_comm (a := other)]

/-- A bounty that only changes between statuses that are not closed. -/
theorem Settles.ofStatus {call : Call Addr} {id : ℕ} {b : BountyRecord Addr}
    (status : BountyStatus) (subject : call.subject = some id) (found : s.bounty id = some b)
    (active : ¬ b.Closed) (stays : ¬ (status = .verified ∨ status = .refunded))
    (bounty : t.bounty = Function.update s.bounty id (some { b with status := status }))
    (count : t.bountyCount = s.bountyCount) (transfers : t.transfers = s.transfers)
    (pays : ∀ i, call.pays b i = 0) : Settles self s t call id b { b with status := status } 0 := by
  have hb : b.status ≠ .refunded := fun h => active (.inr h)
  have hstatus : status ≠ .refunded := fun h => stays (.inr h)
  constructor
  · exact subject
  · exact found
  · exact active
  · exact bounty
  · exact count
  · rfl
  · rfl
  · intro token
    simp [Bounty.sent, transfers]
  · simp [BountyRecord.locked, hb, hstatus]
  · intro i
    simp [BountyRecord.unpaid, hb, hstatus, pays]
  · intro h
    exact absurd (.inl h) stays

theorem claimBounty_effect {learner : Addr} {id : ℕ} {submission uri : Hash}
    (h : claimBounty inv s learner id submission uri = .ok t) :
    Effect self s t (.claimBounty learner id submission uri) := by
  simp only [claimBounty, bind_eq_ok, requireAuth_eq_ok, require_eq_ok, expect_eq_ok] at h
  obtain ⟨-, -, -, -, -, -, b, hfound, -, hactive, -, -, -, -, h⟩ := h
  have hactive : ¬ b.Closed := fun hclosed => hactive hclosed.symm
  split_ifs at h with hopened
  · obtain rfl := pure_eq_ok.mp h
    exact .settled id b _ 0 (.ofStatus _ rfl hfound hactive (by decide) rfl rfl rfl fun _ => rfl)
  · obtain rfl := pure_eq_ok.mp h
    refine .settled id b _ 0 (.ofStatus b.status rfl hfound hactive hactive ?_ rfl rfl
      fun _ => rfl)
    exact (Function.update_eq_self_iff.mpr hfound.symm).symm

theorem disputeCompletion_effect {id : ℕ} {learner : Addr} {evidence : Hash}
    (h : disputeCompletion inv s id learner evidence = .ok t) :
    Effect self s t (.disputeCompletion id learner evidence) := by
  simp only [disputeCompletion, bind_eq_ok, requireAuth_eq_ok, require_eq_ok, expect_eq_ok,
    u64_eq_ok, pure_eq_ok] at h
  obtain ⟨b, hfound, -, -, -, -, -, hverified, -, hrefunded, -, -, -, -, -, -, -, -, rfl⟩ := h
  have hactive : ¬ b.Closed := not_or.mpr ⟨hverified, hrefunded⟩
  exact .settled id b _ 0 (.ofStatus _ rfl hfound hactive (by decide) rfl rfl rfl fun _ => rfl)

theorem refundBounty_effect {id : ℕ} (h : refundBounty inv s id = .ok t) :
    Effect self s t (.refundBounty id) := by
  simp only [refundBounty, bind_eq_ok, requireAuth_eq_ok, require_eq_ok, expect_eq_ok,
    pure_eq_ok] at h
  obtain ⟨b, hfound, -, -, -, hverified, -, hrefunded, -, -, amount, hamount, paid, hpaid, rfl⟩ := h
  obtain ⟨rfl, hsent⟩ := sent_transfer hpaid
  refine .settled id b { b with status := .refunded } amount ?_
  constructor
  · rfl
  · exact hfound
  · exact not_or.mpr ⟨hverified, hrefunded⟩
  · rfl
  · rfl
  · rfl
  · rfl
  · exact hsent
  · rw [remainingReward_eq_ok hamount]
    simp [BountyRecord.locked, hrefunded]
  · intro i
    simp [BountyRecord.unpaid, Call.pays, hrefunded]
  · intro hverified
    cases hverified

/-- What the writes of a release change, given the bounty that they store. -/
theorem release_eq_ok {id : ℕ} {learner : Addr} {claim : ClaimRecord Addr}
    {b' : BountyRecord Addr} {amount : ℤ} (h : release inv s id learner claim b' amount = .ok t) :
    t.bounty = Function.update s.bounty id (some b') ∧ t.bountyCount = s.bountyCount ∧
      ∀ token, sent self token t = sent self token s + if token = b'.token then amount else 0 := by
  simp only [release, bind_eq_ok, pure_eq_ok] at h
  obtain ⟨paid, hpaid, rfl⟩ := h
  obtain ⟨rfl, hsent⟩ := sent_transfer hpaid
  exact ⟨rfl, rfl, hsent⟩

theorem verifyCompletion_effect {mentor learner : Addr} {id : ℕ} {notes : Hash}
    (h : verifyCompletion inv s mentor id learner notes = .ok t) :
    Effect self s t (.verifyCompletion mentor id learner notes) := by
  simp only [verifyCompletion, bind_eq_ok, require_eq_ok, expect_eq_ok] at h
  obtain ⟨-, -, b, hfound, -, hverified, -, hrefunded, claim, -, amount, hamount, -, -, h⟩ := h
  obtain ⟨hbounty, hcount, hsent⟩ := release_eq_ok h
  refine .settled id b _ amount ⟨rfl, hfound, not_or.mpr ⟨hverified, hrefunded⟩, hbounty, hcount,
    rfl, rfl, hsent, ?_, ?_, ?_⟩
  · have hall : remaining b.reward (b.milestones.map (completeRemaining learner)) = 0 := by
      apply remaining_of_all_completed
      intro m hm
      obtain ⟨m, -, rfl⟩ := List.mem_map.mp hm
      exact completeRemaining_completed learner m
    rw [remainingReward_eq_ok hamount]
    simp [BountyRecord.locked, hrefunded, hall]
  · intro i
    simp [BountyRecord.unpaid, Call.pays, hrefunded, completeRemaining_completed]
  · intro _ m hm
    obtain ⟨m, -, rfl⟩ := List.mem_map.mp hm
    exact completeRemaining_completed learner m

omit [DecidableEq Addr] in
/-- The statuses that a completed milestone leads to. -/
theorem completeMilestone_status (b : BountyRecord Addr) (learner : Addr) (i : ℕ)
    (m : Milestone Addr) : (completeMilestone b learner i m).status ≠ .refunded ∧
      ((completeMilestone b learner i m).status = .verified →
        ∀ m' ∈ (completeMilestone b learner i m).milestones, m'.completed = true) := by
  unfold completeMilestone
  dsimp only
  split_ifs with hall
  · constructor
    · nofun
    · intro _
      exact List.all_eq_true.mp hall
  · constructor
    · nofun
    · nofun

omit [DecidableEq Addr] in
theorem completeMilestone_terms (b : BountyRecord Addr) (learner : Addr) (i : ℕ)
    (m : Milestone Addr) :
    (completeMilestone b learner i m).milestones = b.milestones.set i (complete learner m) ∧
      (completeMilestone b learner i m).reward = b.reward ∧
      (completeMilestone b learner i m).token = b.token := by
  unfold completeMilestone
  dsimp only
  split_ifs with hall
  · exact ⟨rfl, rfl, rfl⟩
  · exact ⟨rfl, rfl, rfl⟩

theorem verifyMilestone_effect {mentor learner : Addr} {id index : ℕ} {notes : Hash}
    (h : verifyMilestone inv s mentor id learner index notes = .ok t) :
    Effect self s t (.verifyMilestone mentor id learner index notes) := by
  simp only [verifyMilestone, bind_eq_ok, require_eq_ok, expect_eq_ok] at h
  obtain ⟨-, -, b, hfound, -, hverified, -, hrefunded, m, hm, -, hopen, claim, -, amount, hamount,
    h⟩ := h
  obtain ⟨hbounty, hcount, hsent⟩ := release_eq_ok h
  obtain ⟨hstays, hall⟩ := completeMilestone_status b learner index m
  obtain ⟨hmilestones, hreward, htoken⟩ := completeMilestone_terms b learner index m
  rw [htoken] at hsent
  refine .settled id b _ amount ⟨rfl, hfound, not_or.mpr ⟨hverified, hrefunded⟩, hbounty, hcount,
    hreward, htoken, hsent, ?_, ?_, hall⟩
  · rw [milestoneReward_eq_ok hamount, BountyRecord.locked, if_neg hrefunded, BountyRecord.locked,
      if_neg hstays, hmilestones, hreward]
    exact remaining_set learner hm hopen
  · intro i
    unfold BountyRecord.unpaid
    rw [hmilestones]
    by_cases hi : index = i
    · subst hi
      obtain ⟨hlt, rfl⟩ := List.getElem?_eq_some_iff.mp hm
      simp [Call.pays, hrefunded, hopen, hlt, complete]
    · simp [Call.pays, hrefunded, hstays, hi, List.getElem?_set_ne hi]

theorem exec_effect {call : Call Addr} (h : exec inv call s = .ok t) : Effect self s t call := by
  cases call with
  | initializeBounty admin verification =>
    simp only [exec, initializeBounty, bind_eq_ok, require_eq_ok, pure_eq_ok] at h
    obtain ⟨-, -, rfl⟩ := h
    exact .kept rfl rfl (by simp [Call.isInitialize])
  | setHealthDashboard dashboard =>
    simp only [exec, setHealthDashboard, bind_eq_ok, expect_eq_ok, requireAuth_eq_ok,
      pure_eq_ok] at h
    obtain ⟨admin, -, -, -, rfl⟩ := h
    exact .kept rfl rfl fun _ => rfl
  | setPauseGuardian admin guardian =>
    simp only [exec, setPauseGuardian, bind_eq_ok, expect_eq_ok, require_eq_ok, requireAuth_eq_ok,
      pure_eq_ok] at h
    obtain ⟨stored, -, -, -, -, -, rfl⟩ := h
    exact .kept rfl rfl fun _ => rfl
  | postBounty poster terms =>
    obtain ⟨-, -, hcount, hbounty⟩ := postBounty_eq_ok h
    exact .posted _ hcount hbounty
  | claimBounty learner id submission uri => exact claimBounty_effect h
  | verifyCompletion mentor id learner notes => exact verifyCompletion_effect h
  | verifyMilestone mentor id learner index notes => exact verifyMilestone_effect h
  | disputeCompletion id learner evidence => exact disputeCompletion_effect h
  | refundBounty id => exact refundBounty_effect h

end Bounty
