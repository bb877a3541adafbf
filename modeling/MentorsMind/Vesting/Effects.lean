import MentorsMind.Vesting.Contract

/-! What a successful call of the vesting contract does, said once. -/
namespace Vesting
open Outcome Soroban Shared

variable {Addr : Type} [DecidableEq Addr] {home : Addr}

/-- The schedule that `create_schedule` stores. -/
def Grant.schedule (g : Grant Addr) (start : ℕ) : VestingSchedule Addr :=
  ⟨g.beneficiary, g.totalAmount, 0, start + g.cliffSeconds,
    start + g.cliffSeconds + g.vestingSeconds, start⟩

/-- The start that a Merkle claim uses. -/
def Grant.actualStart (g : Grant Addr) (now : ℕ) : ℕ := if g.start = 0 then now else g.start

/-- The schedule that a Merkle claim stores. -/
def Grant.merkleSchedule (g : Grant Addr) (now : ℕ) : VestingSchedule Addr :=
  ⟨g.beneficiary, g.totalAmount, 0, saturatingAddU64 (g.actualStart now) g.cliffSeconds,
    saturatingAddU64 (g.actualStart now) g.vestingSeconds, g.actualStart now⟩

/-- What a revocation sends to the admin. -/
def Refunds (inv : Invocation Addr home) (s t : State Addr) (admin : Addr) (unvested : ℤ) :
    Prop :=
  ∃ token, s.token = some token ∧
    if 0 < unvested then
      s.tokens.transfer inv.accepts token home admin unvested = .ok t.tokens
    else t.tokens = s.tokens

inductive Effect (digests : Digests Addr) (inv : Invocation Addr home) (s t : State Addr) :
    Call Addr → Prop
  | initialized {admin token : Addr} (fresh : s.admin = none)
      (eq : t = { s with admin := some admin, token := some token, nextScheduleId := 0 }) :
      Effect digests inv s t (.initializeVesting admin token)
  | created {g : Grant Addr} {start : ℕ} (initialised : s.admin ≠ none)
      (start_eq : scheduleStart inv.timestamp g.start = .ok start)
      (fits : start + g.cliffSeconds + g.vestingSeconds < 2 ^ 64)
      (eq : t = { s with nextScheduleId := s.nextScheduleId + 1 }.addSchedule
        (s.nextScheduleId + 1) (g.schedule start)) :
      Effect digests inv s t (.createSchedule g)
  | claimed {id : ℕ} {schedule : VestingSchedule Addr} {token : Addr} {amount : ℤ}
      (found : s.schedule id = some schedule) (auth : inv.auth schedule.beneficiary = true)
      (claimable : schedule.claimable inv.timestamp = .ok amount) (pos : 0 < amount)
      (stored : s.token = some token)
      (paid : s.tokens.transfer inv.accepts token home schedule.beneficiary amount =
        .ok t.tokens)
      (eq : t = { s with
        schedule := Function.update s.schedule id
          (some { schedule with claimed := schedule.claimed + amount })
        tokens := t.tokens }) : Effect digests inv s t (.claim id)
  | revoked {id : ℕ} {schedule : VestingSchedule Addr} {admin : Addr} {vested : ℤ}
      (stored : s.admin = some admin) (found : s.schedule id = some schedule)
      (vested_eq : schedule.vestedAmount inv.timestamp = .ok vested)
      (refund_fits : FitsI128 (vested - schedule.claimed))
      (refunds : Refunds inv s t admin (schedule.total - vested))
      (eq : t = { s with
        schedule := Function.update s.schedule id none
        beneficiarySchedules := t.beneficiarySchedules
        tokens := t.tokens }) : Effect digests inv s t (.revoke id)
  | rootSet {merkleRoot : Hash} (initialised : s.admin ≠ none)
      (eq : t = { s with merkleRoot := some merkleRoot }) :
      Effect digests inv s t (.setMerkleRoot merkleRoot)
  | merkleClaimed {g : Grant Addr} {proof : List Hash} {merkleRoot : Hash}
      (stored : s.merkleRoot = some merkleRoot)
      (unclaimed : s.claimedMerkleLeaf (digests.sha256 (g.leafData digests)) = false)
      (proved : MerkleTree.climb digestEncoding digests.sha256 proof
        (digests.sha256 (g.leafData digests)) = merkleRoot)
      (eq : t = { s with
        claimedMerkleLeaf := Function.update s.claimedMerkleLeaf
          (digests.sha256 (g.leafData digests)) true
        nextScheduleId := s.nextScheduleId + 1 }.addSchedule s.nextScheduleId
          (g.merkleSchedule inv.timestamp)) :
      Effect digests inv s t (.claimVestingMerkle g proof)
  | received {token source : Addr} {amount : ℤ} (ne_home : source ≠ home)
      (moved : s.tokens.transfer inv.accepts token source home amount = .ok t.tokens)
      (eq : t = { s with tokens := t.tokens }) :
      Effect digests inv s t (.send token source amount)
  | elsewhere {token holder : Addr} {balance : ℤ}
      (kept : t.tokens.transfers = s.tokens.transfers)
      (eq : t = { s with tokens := t.tokens }) :
      Effect digests inv s t (.tokenActivity token holder balance)

variable {digests : Digests Addr} {inv : Invocation Addr home} {s t : State Addr}

omit [DecidableEq Addr] in
theorem requireAdmin_eq_ok {admin : Addr} :
    requireAdmin inv s = .ok admin ↔ s.admin = some admin ∧ inv.auth admin = true := by
  simp only [requireAdmin, bind_eq_ok, expect_eq_ok, requireAuth_eq_ok, pure_eq_ok]
  constructor
  · rintro ⟨found, hfound, -, hauth, rfl⟩
    exact ⟨hfound, hauth⟩
  · rintro ⟨hfound, hauth⟩
    exact ⟨admin, hfound, (), hauth, rfl⟩

/-- What `create_schedule` stores and returns. -/
theorem createSchedule_spec {g : Grant Addr} {id : ℕ}
    (h : createSchedule inv s g = .ok (t, id)) :
    ∃ start, s.admin ≠ none ∧ 0 < g.totalAmount ∧ minVestingSecs ≤ g.vestingSeconds ∧
      scheduleStart inv.timestamp g.start = .ok start ∧
      start + g.cliffSeconds + g.vestingSeconds < 2 ^ 64 ∧ id = s.nextScheduleId + 1 ∧
      t = { s with nextScheduleId := s.nextScheduleId + 1 }.addSchedule
        (s.nextScheduleId + 1) (g.schedule start) := by
  simp only [createSchedule, bind_eq_ok, requireAdmin_eq_ok, require_eq_ok, u64_eq_ok, u32_eq_ok,
    pure_eq_ok, Prod.mk.injEq] at h
  obtain ⟨admin, ⟨hadmin, -⟩, -, hpos, -, hmin, -, -, -, -, -, -, start, hstart, cliffEnd,
    ⟨-, rfl⟩, vestingEnd, ⟨hfits, rfl⟩, next, ⟨-, rfl⟩, rfl, rfl⟩ := h
  exact ⟨start, by simp [hadmin], hpos, hmin, hstart, hfits, rfl, rfl⟩

/-- What a Merkle claim stores and returns. -/
theorem claimVestingMerkle_spec {g : Grant Addr} {proof : List Hash} {id : ℕ}
    (h : claimVestingMerkle digests inv s g proof = .ok (t, id)) :
    ∃ merkleRoot, s.merkleRoot = some merkleRoot ∧
      s.claimedMerkleLeaf (digests.sha256 (g.leafData digests)) = false ∧
      MerkleTree.climb digestEncoding digests.sha256 proof
        (digests.sha256 (g.leafData digests)) = merkleRoot ∧ id = s.nextScheduleId ∧
      t = { s with
        claimedMerkleLeaf := Function.update s.claimedMerkleLeaf
          (digests.sha256 (g.leafData digests)) true
        nextScheduleId := s.nextScheduleId + 1 }.addSchedule s.nextScheduleId
          (g.merkleSchedule inv.timestamp) := by
  simp only [claimVestingMerkle, bind_eq_ok, requireAuth_eq_ok, expect_eq_ok, require_eq_ok,
    checkedU32_eq_ok, pure_eq_ok, Prod.mk.injEq] at h
  obtain ⟨-, -, root, hroot, -, hunclaimed, -, hproved, next, ⟨-, rfl⟩, rfl, rfl⟩ := h
  exact ⟨root, hroot, hunclaimed, hproved, rfl, rfl⟩

theorem revoke_spec {id : ℕ} (h : revoke inv s id = .ok t) :
    Effect digests inv s t (.revoke id) := by
  simp only [revoke, bind_eq_ok, requireAdmin_eq_ok, expect_eq_ok, checkedI128_eq_ok] at h
  obtain ⟨admin, ⟨hadmin, -⟩, schedule, hfound, vested, hvested, unvested, ⟨-, rfl⟩, -,
    ⟨hrefund, -⟩, token, htoken, htail⟩ := h
  split_ifs at htail with hpos
  · simp only [bind_eq_ok, pure_eq_ok] at htail
    obtain ⟨tokens, hpaid, rfl⟩ := htail
    refine .revoked hadmin hfound hvested hrefund ⟨token, htoken, ?_⟩ rfl
    rw [if_pos hpos]
    exact hpaid
  · simp only [bind_eq_ok, pure_eq_ok] at htail
    obtain ⟨tokens, rfl, rfl⟩ := htail
    refine .revoked hadmin hfound hvested hrefund ⟨token, htoken, ?_⟩ rfl
    rw [if_neg hpos]

/-- What a successful call does. -/
theorem exec_effect {call : Call Addr} (h : exec digests inv call s = .ok t) :
    Effect digests inv s t call := by
  cases call with
  | initializeVesting admin token =>
    simp only [exec, initializeVesting, bind_eq_ok, require_eq_ok, pure_eq_ok] at h
    obtain ⟨-, hfresh, rfl⟩ := h
    exact .initialized hfresh rfl
  | createSchedule g =>
    simp only [exec, bind_eq_ok, pure_eq_ok] at h
    obtain ⟨⟨created, id⟩, hcreated, rfl⟩ := h
    obtain ⟨start, hadmin, -, -, hstart, hfits, -, heq⟩ := createSchedule_spec hcreated
    exact .created hadmin hstart hfits heq
  | claim id =>
    simp only [exec, claim, bind_eq_ok, expect_eq_ok, requireAuth_eq_ok, require_eq_ok, i128_eq_ok,
      pure_eq_ok] at h
    obtain ⟨schedule, hfound, -, hauth, amount, hclaimable, -, hpos, token, htoken, -, -, -,
      ⟨-, rfl⟩, tokens, hpaid, rfl⟩ := h
    exact .claimed hfound hauth hclaimable hpos htoken hpaid rfl
  | revoke id => exact revoke_spec h
  | setMerkleRoot merkleRoot =>
    simp only [exec, setMerkleRoot, bind_eq_ok, requireAdmin_eq_ok, pure_eq_ok] at h
    obtain ⟨admin, ⟨hadmin, -⟩, rfl⟩ := h
    exact .rootSet (by simp [hadmin]) rfl
  | claimVestingMerkle g proof =>
    simp only [exec, bind_eq_ok, pure_eq_ok] at h
    obtain ⟨⟨claimed, id⟩, hclaimed, rfl⟩ := h
    obtain ⟨root, hroot, hunclaimed, hproved, -, heq⟩ := claimVestingMerkle_spec hclaimed
    exact .merkleClaimed hroot hunclaimed hproved heq
  | send token source amount =>
    simp only [exec, bind_eq_ok, requireAuth_eq_ok, pure_eq_ok] at h
    obtain ⟨-, hauth, tokens, hpaid, rfl⟩ := h
    exact .received (Env.ne_self_of_auth hauth) hpaid rfl
  | tokenActivity token holder balance =>
    simp only [exec, bind_eq_ok, pure_eq_ok] at h
    obtain ⟨-, -, rfl⟩ := h
    exact .elsewhere rfl rfl

end Vesting
