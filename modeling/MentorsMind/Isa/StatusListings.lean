import MentorsMind.Isa.Effects
import MentorsMind.Lib.Table
import MentorsMind.Governance.StatusListings

/-! The listings of agreements by status. The index of the active ones holds every agreement
that was ever made, those of the other statuses hold what ended in them. -/
namespace Isa
open Outcome Soroban Shared

variable {Addr : Type} {home : Addr} {s t : State Addr} {listed : IsaStatus → List ℕ}
  {status : IsaStatus}

/-- Counting stops where the entries do, unless the counter overflows before. -/
theorem firstGap_eq {has : ℕ → Bool} {n : ℕ} (hhas : ∀ i, has i = true ↔ i < n)
    (fuel count : ℕ) (hle : count ≤ n) : firstGap has fuel count =
      if n < count + fuel then .ok n else .error .arithmetic := by
  induction fuel generalizing count with
  | zero => rw [if_neg (by omega)]; rfl
  | succ fuel ih =>
    unfold firstGap
    by_cases hcount : count < n
    · rw [if_pos ((hhas count).mpr hcount), ih (count + 1) hcount]
      simp only [show count + 1 + fuel = count + (fuel + 1) by omega]
    · obtain rfl : count = n := by omega
      have hgap : has count = false := by
        rw [← Bool.not_eq_true, hhas count]
        exact hcount
      rw [hgap, if_neg Bool.false_ne_true, if_pos (by omega)]
      rfl

/-- The index lists every agreement as active, and those that ended under what they ended as. -/
structure Indexed (s : State Addr) (listed : IsaStatus → List ℕ) : Prop where
  entries : AppendIndex s.isaByStatus listed
  nodup : ∀ status, (listed status).Nodup
  opened : ∀ id, id ∈ listed .active ↔ (s.isa id).isSome
  ended : ∀ status, status ≠ .active → ∀ id, id ∈ listed status ↔
    ∃ isa, s.isa id = some isa ∧ isa.status = status
  numbered : ∀ id, s.nextIsaId ≤ id → s.isa id = none
  fits : s.nextIsaId < 2 ^ 32

theorem indexed_deployed : Indexed (deployed Addr) fun _ => [] where
  entries := AppendIndex.empty
  nodup _ := List.nodup_nil
  opened id := by simp [deployed]
  ended status _ id := by simp [deployed]
  numbered _ _ := rfl
  fits := by simp [deployed]

/-- Only agreements that exist are listed. -/
theorem Indexed.found (h : Indexed s listed) {id : ℕ} (hmem : id ∈ listed status) :
    ∃ isa, s.isa id = some isa := by
  by_cases hstatus : status = .active
  · subst hstatus
    exact Option.isSome_iff_exists.mp ((h.opened id).mp hmem)
  · obtain ⟨isa, hisa, -⟩ := (h.ended status hstatus id).mp hmem
    exact ⟨isa, hisa⟩

theorem Indexed.length_lt (h : Indexed s listed) (status : IsaStatus) :
    (listed status).length < 2 ^ 32 := by
  have hsub : listed status ⊆ List.range s.nextIsaId := by
    intro id hmem
    obtain ⟨isa, hisa⟩ := h.found hmem
    rw [List.mem_range]
    by_contra hout
    rw [h.numbered id (not_lt.mp hout)] at hisa
    cases hisa
  have hle := ((h.nodup status).subperm hsub).length_le
  rw [List.length_range] at hle
  exact hle.trans_lt h.fits

theorem Indexed.getStatusCount_eq (h : Indexed s listed) (status : IsaStatus) :
    getStatusCount s status = .ok (listed status).length := by
  have hlength := h.length_lt status
  unfold getStatusCount
  rw [firstGap_eq (fun i => h.entries.isSome_iff) _ _ (Nat.zero_le _), Nat.zero_add,
    if_pos hlength]

theorem Indexed.open (h : Indexed s listed) {isa : ISARecord Addr}
    (hactive : isa.active = true) (hfits : s.nextIsaId + 1 < 2 ^ 32)
    (hnext : t.nextIsaId = s.nextIsaId + 1)
    (htable : t.isa = Function.update s.isa s.nextIsaId (some isa))
    (hindex : t.isaByStatus = Function.update s.isaByStatus
      (.active, (listed .active).length) (some s.nextIsaId)) :
    Indexed t (Function.update listed .active (listed .active ++ [s.nextIsaId])) := by
  have hfresh : s.isa s.nextIsaId = none := h.numbered _ le_rfl
  constructor
  · rw [hindex]
    exact h.entries.push .active s.nextIsaId
  · intro status
    by_cases hstatus : status = .active
    · rw [hstatus, Function.update_self]
      apply List.Nodup.append (h.nodup .active) (List.nodup_singleton _)
      rw [List.disjoint_singleton, h.opened, hfresh]
      exact Bool.false_ne_true
    · rw [Function.update_of_ne hstatus]
      exact h.nodup status
  · intro id
    rw [Function.update_self, List.mem_append, List.mem_singleton, h.opened, htable]
    by_cases hid : id = s.nextIsaId
    · rw [hid, Function.update_self]
      simp
    · rw [Function.update_of_ne hid]
      simp [hid]
  · intro status hstatus id
    rw [Function.update_of_ne hstatus, h.ended status hstatus id, htable]
    by_cases hid : id = s.nextIsaId
    · rw [hid, Function.update_self, hfresh]
      simp [status_of_active hactive, Ne.symm hstatus]
    · rw [Function.update_of_ne hid]
  · intro id hid
    rw [hnext] at hid
    rw [htable, Function.update_of_ne (by omega)]
    exact h.numbered id (by omega)
  · rw [hnext]
    exact hfits

/-- An active agreement that is rewritten stays out of the other listings. -/
theorem Indexed.revise (h : Indexed s listed) {isaId : ℕ} {before after : ISARecord Addr}
    (hfound : s.isa isaId = some before) (hactive : before.active = true)
    (hkept : after.active = true) (hnext : t.nextIsaId = s.nextIsaId)
    (htable : t.isa = Function.update s.isa isaId (some after))
    (hindex : t.isaByStatus = s.isaByStatus) : Indexed t listed := by
  constructor
  · rw [hindex]
    exact h.entries
  · exact h.nodup
  · intro id
    rw [h.opened, htable]
    by_cases hid : id = isaId
    · rw [hid, Function.update_self, hfound]
      rfl
    · rw [Function.update_of_ne hid]
  · intro status hstatus id
    rw [h.ended status hstatus id, htable]
    by_cases hid : id = isaId
    · rw [hid, Function.update_self, hfound]
      simp [status_of_active hactive, status_of_active hkept]
    · rw [Function.update_of_ne hid]
  · rw [htable, hnext]
    exact Table.none_update h.numbered hfound
  · rw [hnext]
    exact h.fits

/-- An active agreement that ends is listed once more. -/
theorem Indexed.end (h : Indexed s listed) {isaId : ℕ} {before after : ISARecord Addr}
    (hfound : s.isa isaId = some before) (hactive : before.active = true)
    (hclosed : after.status ≠ .active) (hnext : t.nextIsaId = s.nextIsaId)
    (htable : t.isa = Function.update s.isa isaId (some after))
    (hindex : t.isaByStatus = Function.update s.isaByStatus
      (after.status, (listed after.status).length) (some isaId)) :
    Indexed t (Function.update listed after.status (listed after.status ++ [isaId])) := by
  have hunlisted : ∀ status, status ≠ .active → isaId ∉ listed status := by
    intro status hstatus hmem
    obtain ⟨isa, hisa, rfl⟩ := (h.ended status hstatus isaId).mp hmem
    obtain rfl := Option.some.inj (hfound.symm.trans hisa)
    exact hstatus (status_of_active hactive)
  constructor
  · rw [hindex]
    exact h.entries.push after.status isaId
  · intro status
    by_cases hstatus : status = after.status
    · rw [hstatus, Function.update_self]
      apply List.Nodup.append (h.nodup _) (List.nodup_singleton _)
      rw [List.disjoint_singleton]
      exact hunlisted _ hclosed
    · rw [Function.update_of_ne hstatus]
      exact h.nodup status
  · intro id
    rw [Function.update_of_ne (Ne.symm hclosed), h.opened, htable]
    by_cases hid : id = isaId
    · rw [hid, Function.update_self, hfound]
      rfl
    · rw [Function.update_of_ne hid]
  · intro status hstatus id
    rw [htable]
    by_cases hid : id = isaId
    · subst hid
      rw [Function.update_self]
      by_cases hsame : status = after.status
      · simp [hsame]
      · rw [Function.update_of_ne hsame]
        simp [hunlisted status hstatus, Ne.symm hsame]
    · rw [Function.update_of_ne hid, ← h.ended status hstatus id]
      by_cases hsame : status = after.status
      · rw [hsame, Function.update_self]
        simp [hid]
      · rw [Function.update_of_ne hsame]
  · rw [htable, hnext]
    exact Table.none_update h.numbered hfound
  · rw [hnext]
    exact h.fits

theorem Turn.indexed (hturn : Turn s t) (h : Indexed s listed) :
    ∃ listed', Indexed t listed' := by
  cases hturn with
  | still table next index =>
    refine ⟨listed, ?_, h.nodup, ?_, ?_, ?_, ?_⟩
    · rw [index]
      exact h.entries
    · rw [table]
      exact h.opened
    · rw [table]
      exact h.ended
    · rw [table, next]
      exact h.numbered
    · rw [next]
      exact h.fits
  | opened isa count active fits next table counted index =>
    obtain rfl := Except.ok.inj ((h.getStatusCount_eq .active).symm.trans counted)
    exact ⟨_, h.open active fits next table index⟩
  | revised isaId before after found active kept next table index =>
    exact ⟨_, h.revise found active kept next table index⟩
  | ended isaId before after count found active closed next table counted index =>
    obtain rfl := Except.ok.inj ((h.getStatusCount_eq after.status).symm.trans counted)
    exact ⟨_, h.end found active closed next table index⟩

theorem run_indexed [DecidableEq Addr] (steps : List (Step Addr home)) :
    ∃ listed, Indexed (reached steps) listed := by
  apply Machine.run_invariant (P := fun s => ∃ listed, Indexed s listed)
  · exact ⟨_, indexed_deployed⟩
  · rintro step s t ⟨listed, h⟩ hx
    exact (exec_turn hx).indexed h

/-- The pages of the listing of a status list the agreements that have it. -/
def ListedExactly (s : State Addr) (status : IsaStatus) : Prop :=
  ∃ total, getStatusCount s status = .ok total ∧
    Listings.ListsExactly (getIsasByStatus s status) total fun id =>
      ∃ isa, s.isa id = some isa ∧ isa.status = status

/-- If the status is the active one, then no agreement has left it. -/
def KeepsListing (s : State Addr) (status : IsaStatus) : Prop :=
  status = .active → ∀ id isa, s.isa id = some isa → isa.status = .active

theorem Indexed.getIsasByStatus_eq (h : Indexed s listed) (offset limit : ℕ) :
    getIsasByStatus s status offset limit =
      .ok (((listed status).take (offset + Pagination.clampLimit limit)).drop offset) := by
  rw [← Listings.page_eq h.entries]
  unfold getIsasByStatus
  rw [h.getStatusCount_eq, ok_bind]
  rfl

theorem Indexed.exact_iff (h : Indexed s listed) :
    (∀ id, id ∈ listed status ↔ ∃ isa, s.isa id = some isa ∧ isa.status = status) ↔
      KeepsListing s status := by
  by_cases hstatus : status = .active
  · subst hstatus
    constructor
    · intro hexact _ id isa hfound
      obtain ⟨other, hother, hactive⟩ := (hexact id).mp ((h.opened id).mpr (by simp [hfound]))
      obtain rfl := Option.some.inj (hfound.symm.trans hother)
      exact hactive
    · intro hkeeps id
      rw [h.opened, Option.isSome_iff_exists]
      constructor
      · rintro ⟨isa, hfound⟩
        exact ⟨isa, hfound, hkeeps rfl id isa hfound⟩
      · rintro ⟨isa, hfound, -⟩
        exact ⟨isa, hfound⟩
  · constructor
    · intro _ hactive
      exact absurd hactive hstatus
    · intro _
      exact h.ended status hstatus

variable [DecidableEq Addr]

/-- In every state that a run reaches, the listing of a status is exact if and only if the
status is not active or all agreements still are. -/
theorem listedExactly_iff (steps : List (Step Addr home)) (status : IsaStatus) :
    ListedExactly (reached steps) status ↔ KeepsListing (reached steps) status := by
  obtain ⟨listed, h⟩ := run_indexed steps
  have hexact : Listings.ListsExactly (getIsasByStatus (reached steps) status)
      (listed status).length
        (fun id => ∃ isa, (reached steps).isa id = some isa ∧ isa.status = status) ↔
      ∀ id, id ∈ listed status ↔ ∃ isa, (reached steps).isa id = some isa ∧ isa.status = status :=
    Listings.listsExactly_iff (fun offset limit => h.getIsasByStatus_eq offset limit)
      (h.nodup status)
  unfold ListedExactly
  simp only [h.getStatusCount_eq status, Except.ok.injEq, exists_eq_left', hexact]
  exact h.exact_iff

variable {isaHome : Addr}

/-- Which listings by status are exact, of the proposals of the governance contract and of the
agreements of this one. -/
theorem statusListings_iff (steps : List (Governance.Step Addr home))
    (isaSteps : List (Step Addr isaHome)) :
    (∀ status, Governance.ListedExactly (Governance.reached steps) status ↔
        Governance.KeepsListing (Governance.reached steps) status) ∧
      ∀ status, ListedExactly (reached isaSteps) status ↔
        KeepsListing (reached isaSteps) status :=
  ⟨Governance.listedExactly_iff steps, listedExactly_iff isaSteps⟩

/-- A proposal is made, and nothing else happens. -/
def proposedRun : List (Governance.Step ℕ 0) :=
  [(Governance.answered 1,
      .config (.initializeGovernance 1 2 3 none none none none none)),
    (Governance.answered 1, .createProposal 4 (.updateFee 5))]

/-- An invocation that every account signed, and that the oracle has nothing to answer to. -/
def signed (now : ℕ) : Invocation ℕ 0 where
  toEnv := signedByAll now
  verifyIncomeAttestation _ _ _ _ _ := none

/-- An agreement is made for a month and expires. -/
def expiredRun : List (Step ℕ 0) :=
  [(signed 1, .createIsa 4 5 1000 500 200 1), (signed (1 + monthSecs), .checkExpiry 1)]

/-- The active proposal is not listed as active, and the agreement that ended still is. -/
theorem listings_inexact :
    (Governance.getProposalsByStatus (Governance.reached proposedRun) .active 0 10 = .ok [] ∧
      ¬ Governance.ListedExactly (Governance.reached proposedRun) .active) ∧
    (getIsasByStatus (reached expiredRun) .active 0 10 = .ok [1] ∧
      ¬ ListedExactly (reached expiredRun) .active) := by
  have hproposal : ((Governance.reached proposedRun).proposal 1).map Governance.Proposal.status =
      some .active := by
    decide
  have hisa : ((reached expiredRun).isa 1).map ISARecord.status = some .completed := by
    decide
  refine ⟨⟨by decide, ?_⟩, by decide, ?_⟩
  · rw [Governance.listedExactly_iff]
    intro hkeeps
    obtain ⟨p, hfound, hactive⟩ := Option.map_eq_some_iff.mp hproposal
    exact hkeeps.1 (.inl rfl) 1 p hfound hactive
  · rw [listedExactly_iff]
    intro hkeeps
    obtain ⟨isa, hfound, hcompleted⟩ := Option.map_eq_some_iff.mp hisa
    rw [hkeeps rfl 1 isa hfound] at hcompleted
    cases hcompleted

end Isa
