import MentorsMind.Isa.Contract

/-! What a successful call does to the table of agreements and to the index by status. -/
namespace Isa
open Outcome Soroban Shared

variable {Addr : Type} {home : Addr} {inv : Invocation Addr home} {s t : State Addr} {isaId : ℕ}
  {isa : ISARecord Addr}

theorem status_of_active (h : isa.active = true) : isa.status = .active := by
  rw [ISARecord.status, if_neg (by simp [h])]

/-- An agreement is added under the next id, an active one is rewritten, or an active one ends;
the index is written when one is added or ends. -/
inductive Turn (s t : State Addr) : Prop where
  | still (table : t.isa = s.isa) (next : t.nextIsaId = s.nextIsaId)
      (index : t.isaByStatus = s.isaByStatus)
  | opened (isa : ISARecord Addr) (count : ℕ) (active : isa.active = true)
      (fits : s.nextIsaId + 1 < 2 ^ 32) (next : t.nextIsaId = s.nextIsaId + 1)
      (table : t.isa = Function.update s.isa s.nextIsaId (some isa))
      (counted : getStatusCount s .active = .ok count)
      (index : t.isaByStatus =
        Function.update s.isaByStatus (.active, count) (some s.nextIsaId))
  | revised (isaId : ℕ) (before after : ISARecord Addr) (found : s.isa isaId = some before)
      (active : before.active = true) (kept : after.active = true)
      (next : t.nextIsaId = s.nextIsaId)
      (table : t.isa = Function.update s.isa isaId (some after))
      (index : t.isaByStatus = s.isaByStatus)
  | ended (isaId : ℕ) (before after : ISARecord Addr) (count : ℕ)
      (found : s.isa isaId = some before) (active : before.active = true)
      (closed : after.status ≠ .active) (next : t.nextIsaId = s.nextIsaId)
      (table : t.isa = Function.update s.isa isaId (some after))
      (counted : getStatusCount s after.status = .ok count)
      (index : t.isaByStatus =
        Function.update s.isaByStatus (after.status, count) (some isaId))

theorem closeIsa_turn {before isa : ISARecord Addr} {reason : CompletionReason}
    {status : IsaStatus} {u : State Addr} (hx : closeIsa u isaId isa reason status = .ok t)
    (htable : u.isa = s.isa) (hnext : u.nextIsaId = s.nextIsaId)
    (hindex : u.isaByStatus = s.isaByStatus) (hfound : s.isa isaId = some before)
    (hactive : before.active = true)
    (hstatus : { isa with active := false, completionReason := reason }.status = status)
    (hclosed : status ≠ .active) : Turn s t := by
  subst hstatus
  simp only [closeIsa, updateStatusIndex, bind_eq_ok, pure_eq_ok] at hx
  obtain ⟨count, hcounted, rfl⟩ := hx
  refine .ended isaId before _ count hfound hactive hclosed hnext ?_ ?_ ?_
  · exact congrArg (fun table => Function.update table isaId _) htable
  · unfold getStatusCount at hcounted ⊢
    rw [← hindex]
    exact hcounted
  · exact congrArg (fun index => Function.update index _ _) hindex

theorem getIsa_eq_ok : getIsa s isaId = .ok isa ↔ s.isa isaId = some isa := by
  simp [getIsa]

theorem checkExpiry_turn {expired : Bool} (hx : checkExpiry inv s isaId = .ok (t, expired)) :
    Turn s t := by
  simp only [checkExpiry, bind_eq_ok, expect_eq_ok] at hx
  obtain ⟨isa, hfound, hx⟩ := hx
  split_ifs at hx with hinactive hlate
  · obtain ⟨rfl, -⟩ := Prod.mk.inj (pure_eq_ok.mp hx)
    exact .still rfl rfl rfl
  · simp only [bind_eq_ok, pure_eq_ok] at hx
    obtain ⟨closed, hclosed, hx⟩ := hx
    obtain ⟨rfl, -⟩ := Prod.mk.inj hx
    exact closeIsa_turn hclosed rfl rfl rfl hfound (by simpa using hinactive) rfl (by simp)
  · obtain ⟨rfl, -⟩ := Prod.mk.inj (pure_eq_ok.mp hx)
    exact .still rfl rfl rfl

theorem createIsa_turn {learner funder : Addr} {fundedAmount : ℤ}
    {sharePct capMultiple durationMonths nextId : ℕ}
    (hx : createIsa inv s learner funder fundedAmount sharePct capMultiple durationMonths =
      .ok (t, nextId)) : Turn s t := by
  simp only [createIsa, updateStatusIndex, bind_eq_ok, pure_eq_ok, u32_eq_ok] at hx
  obtain ⟨-, -, -, -, -, -, -, -, -, -, -, -, next, ⟨hfits, rfl⟩, indexed, ⟨count, hcounted, rfl⟩,
    hx⟩ := hx
  obtain ⟨rfl, -⟩ := Prod.mk.inj hx
  exact .opened _ count rfl hfits rfl rfl hcounted rfl

theorem addShare_active {share : ℤ} {missedPayments : ℕ} {paid : ISARecord Addr}
    (h : addShare isa share missedPayments = .ok paid) : paid.active = isa.active := by
  unfold addShare at h
  split_ifs at h
  · simp only [bind_eq_ok, pure_eq_ok] at h
    obtain ⟨totalShared, -, rfl⟩ := h
    rfl
  · rw [← pure_eq_ok.mp h]

theorem recordEarning_turn {earning : ℤ} (hx : recordEarning inv s isaId earning = .ok t) :
    Turn s t := by
  simp only [recordEarning, bind_eq_ok, require_eq_ok, getIsa_eq_ok] at hx
  obtain ⟨-, -, isa, hfound, -, hactive, hx⟩ := hx
  split_ifs at hx
  · exact closeIsa_turn hx rfl rfl rfl hfound hactive rfl (by simp)
  · rw [bind_eq_ok] at hx
    obtain ⟨cap, -, hx⟩ := hx
    split_ifs at hx
    · exact closeIsa_turn hx rfl rfl rfl hfound hactive rfl (by simp)
    · simp only [bind_eq_ok] at hx
      obtain ⟨due, -, paid, hpaid, hx⟩ := hx
      have hstill := (addShare_active hpaid).trans hactive
      split_ifs at hx
      · exact closeIsa_turn hx rfl rfl rfl hfound hactive rfl (by simp)
      · rw [← pure_eq_ok.mp hx]
        exact .revised isaId isa paid hfound hactive hstill rfl rfl rfl

variable [DecidableEq Addr]

theorem recordPayment_turn {learner : Addr} {periodId : ℕ} {attestedIncome : ℤ}
    {attestationProof : Hash}
    (hx : recordPayment inv s learner isaId periodId attestedIncome attestationProof = .ok t) :
    Turn s t := by
  simp only [recordPayment, bind_eq_ok, require_eq_ok, getIsa_eq_ok] at hx
  obtain ⟨-, -, isa, hfound, -, -, -, hactive, -, -, -, -, oracle, -, verified, -, -, -, hx⟩ := hx
  split_ifs at hx
  · exact closeIsa_turn hx rfl rfl rfl hfound hactive rfl (by simp)
  · rw [bind_eq_ok] at hx
    obtain ⟨cap, -, hx⟩ := hx
    split_ifs at hx
    · exact closeIsa_turn hx rfl rfl rfl hfound hactive rfl (by simp)
    · simp only [bind_eq_ok] at hx
      obtain ⟨due, -, -, -, paid, hpaid, hx⟩ := hx
      have hstill := (addShare_active hpaid).trans hactive
      split_ifs at hx
      · exact closeIsa_turn hx rfl rfl rfl hfound hactive rfl (by simp)
      · rw [← pure_eq_ok.mp hx]
        exact .revised isaId isa paid hfound hactive hstill rfl rfl rfl

theorem checkDefault_turn {admin : Addr} {defaulted : Bool}
    (hx : checkDefault inv s admin isaId = .ok (t, defaulted)) : Turn s t := by
  simp only [checkDefault, bind_eq_ok, getIsa_eq_ok] at hx
  obtain ⟨-, -, isa, hfound, hx⟩ := hx
  split_ifs at hx with hmissed
  · simp only [bind_eq_ok, pure_eq_ok] at hx
    obtain ⟨closed, hclosed, hx⟩ := hx
    obtain ⟨rfl, -⟩ := Prod.mk.inj hx
    exact closeIsa_turn hclosed rfl rfl rfl hfound hmissed.1 rfl (by simp)
  · obtain ⟨rfl, -⟩ := Prod.mk.inj (pure_eq_ok.mp hx)
    exact .still rfl rfl rfl

theorem exec_turn {call : Call Addr} (hx : exec inv call s = .ok t) : Turn s t := by
  cases call with
  | initializeIsa admin incomeOracle =>
    simp only [exec, initializeIsa, bind_eq_ok, pure_eq_ok] at hx
    obtain ⟨-, -, -, -, rfl⟩ := hx
    exact .still rfl rfl rfl
  | setIncomeOracle admin incomeOracle =>
    simp only [exec, setIncomeOracle, bind_eq_ok, pure_eq_ok] at hx
    obtain ⟨-, -, rfl⟩ := hx
    exact .still rfl rfl rfl
  | checkExpiry isaId =>
    rw [exec, map_eq_ok] at hx
    obtain ⟨⟨closed, expired⟩, hclosed, rfl⟩ := hx
    exact checkExpiry_turn hclosed
  | createIsa learner funder fundedAmount sharePct capMultiple durationMonths =>
    rw [exec, map_eq_ok] at hx
    obtain ⟨⟨created, nextId⟩, hcreated, rfl⟩ := hx
    exact createIsa_turn hcreated
  | recordEarning isaId earning => exact recordEarning_turn hx
  | recordPayment learner isaId periodId attestedIncome attestationProof =>
    exact recordPayment_turn hx
  | recordMissedPayment admin isaId =>
    simp only [exec, recordMissedPayment, bind_eq_ok, require_eq_ok, getIsa_eq_ok,
      pure_eq_ok] at hx
    obtain ⟨-, -, isa, hfound, -, hactive, rfl⟩ := hx
    exact .revised isaId isa
      { isa with missedPayments := saturatingAddU32 isa.missedPayments 1 }
      hfound hactive hactive rfl rfl rfl
  | checkDefault admin isaId =>
    rw [exec, map_eq_ok] at hx
    obtain ⟨⟨closed, defaulted⟩, hclosed, rfl⟩ := hx
    exact checkDefault_turn hclosed

end Isa
