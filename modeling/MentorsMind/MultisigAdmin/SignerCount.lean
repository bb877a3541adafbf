import MentorsMind.Lib.Ballot
import MentorsMind.MultisigAdmin.Effects

/-! The signers, their number and the threshold. A snapshot keeps the number and the threshold
but not who the signers are, so that a rollback can bring back a number that is not theirs. -/
namespace MultisigAdmin
open Outcome Soroban Shared

variable {Addr Val : Type} [DecidableEq Addr] {home : Addr}

/-- The counter is the number of signers, and they can reach the threshold. -/
structure SignersCounted (s : State Addr Val) : Prop where
  counted : CountsFlags s.signerCount s.signer
  threshold : ∀ threshold, s.threshold = some threshold →
    1 ≤ threshold ∧ threshold ≤ s.signerCount

/-- Every rollback that the run executes finds as many signers as its snapshot has. -/
def RollbacksKeepCount (host : Host Addr Val) (steps : List (Step Addr Val home)) : Prop :=
  ∀ pre inv id t, (machine home host).Executes (deployed Addr Val) steps pre
      (inv, .executeEmergencyRollback id) t →
    ∀ p config, (reached host pre).govRollbackProposal id = some p →
      (reached host pre).govSnapshot p.snapshotId = some config →
      config.signerCount = (reached host pre).signerCount

/-- What holds of the stored thresholds and counters whatever is rolled back. -/
structure Bounded (s : State Addr Val) : Prop where
  threshold : ∀ threshold, s.threshold = some threshold →
    1 ≤ threshold ∧ threshold ≤ s.signerCount
  snapshot : ∀ id config, s.govSnapshot id = some config →
    1 ≤ config.threshold ∧ config.threshold ≤ config.signerCount ∧ s.threshold ≠ none
  blank : s.threshold = none → s.signerCount = 0 ∧ ∀ a, s.signer a = false

variable {host : Host Addr Val} {inv : Invocation Addr Val home} {s t v : State Addr Val}
  {steps : List (Step Addr Val home)}

omit [DecidableEq Addr] in
/-- What a snapshot captures of a multisig that is initialised. -/
theorem Bounded.config (h : Bounded s) (hinitialised : s.threshold ≠ none) :
    1 ≤ s.config.threshold ∧ s.config.threshold ≤ s.config.signerCount := by
  obtain ⟨threshold, hthreshold⟩ := Option.ne_none_iff_exists'.mp hinitialised
  unfold State.config
  rw [hthreshold]
  exact h.threshold threshold hthreshold

omit [DecidableEq Addr] in
theorem dropSnapshot_govSnapshot {kept : State Addr Val} {id : ℕ} {config : GovConfigSnapshot}
    (hkept : kept = s ∨ ∃ oldId, kept = s.dropSnapshot oldId)
    (h : kept.govSnapshot id = some config) : s.govSnapshot id = some config := by
  rcases hkept with rfl | ⟨oldId, rfl⟩
  · exact h
  · by_cases hid : id = oldId
    · simp [State.dropSnapshot, hid] at h
    · simpa [State.dropSnapshot, hid] using h

/-- Every signer of the list is new, and counts. -/
theorem registerSigners_counts {signer registered : Addr → Bool} {signers : List Addr} {n : ℕ}
    (hs : CountsFlags n signer) (h : registerSigners signer signers = .ok registered) :
    CountsFlags (n + signers.length) registered := by
  induction signers generalizing signer n with
  | nil =>
    obtain rfl := pure_eq_ok.mp h
    exact hs
  | cons a signers ih =>
    simp only [registerSigners, bind_eq_ok, require_eq_ok] at h
    obtain ⟨-, hnew, hrest⟩ := h
    have hcount := ih (hs.set hnew) hrest
    rwa [List.length_cons, Nat.add_comm signers.length, ← Nat.add_assoc]

omit [DecidableEq Addr] in
/-- A call keeps the bounds if it writes none of what they are about. -/
theorem Bounded.of_same (hs : Bounded s) (hthreshold : t.threshold = s.threshold)
    (hcount : t.signerCount = s.signerCount) (hsigner : t.signer = s.signer)
    (hsnapshot : t.govSnapshot = s.govSnapshot) : Bounded t := by
  constructor
  · rw [hthreshold, hcount]
    exact hs.threshold
  · rw [hthreshold, hsnapshot]
    exact hs.snapshot
  · rw [hthreshold, hcount, hsigner]
    exact hs.blank

omit [DecidableEq Addr] in
/-- Any threshold can be stored that the counter reaches. -/
theorem Bounded.of_threshold {threshold : ℕ} (hs : Bounded s)
    (hthreshold : t.threshold = some threshold) (hsnapshot : t.govSnapshot = s.govSnapshot)
    (hpos : 1 ≤ threshold) (hle : threshold ≤ t.signerCount) : Bounded t := by
  constructor
  · intro n hn
    obtain rfl : threshold = n := Option.some.inj (hthreshold.symm.trans hn)
    exact ⟨hpos, hle⟩
  · intro id config hfound
    rw [hsnapshot] at hfound
    obtain ⟨hone, hreach, -⟩ := hs.snapshot id config hfound
    exact ⟨hone, hreach, by simp [hthreshold]⟩
  · intro hnone
    rw [hthreshold] at hnone
    cases hnone

theorem Dispatched.bounded {action : Action Addr Val} {threshold : ℕ}
    (h : Dispatched host home s v action) (hs : Bounded s)
    (hstored : s.threshold = some threshold) : Bounded v := by
  obtain ⟨hpos, hle⟩ := hs.threshold threshold hstored
  cases h with
  | added signer requested unregistered eq =>
    subst eq
    exact hs.of_threshold hstored rfl hpos (hle.trans (Nat.le_succ _))
  | removed signer requested registered pos le eq =>
    rw [hstored] at le
    subst eq
    exact hs.of_threshold hstored rfl hpos le
  | rethresholded new target function pos le eq =>
    subst eq
    exact hs.of_threshold rfl rfl pos le
  | called foreign eq =>
    subst eq
    exact hs.of_same rfl rfl rfl rfl

theorem Effect.bounded {call : Call Addr Val} (h : Effect host inv s t call) (hs : Bounded s) :
    Bounded t := by
  cases h with
  | @initialized signers threshold registered fresh pos le registers eq =>
    have hnone : ∀ id config, s.govSnapshot id ≠ some config :=
      fun id config hfound => (hs.snapshot id config hfound).2.2 fresh
    rw [eq]
    refine ⟨?_, ?_, ?_⟩
    · intro n hn
      obtain rfl : threshold = n := Option.some.inj hn
      exact ⟨pos, le⟩
    · intro id config hfound
      exact absurd hfound (hnone id config)
    · exact nofun
  | @executed actionId p threshold v stored found active due enough intact dispatch_eq eq =>
    have hv : Bounded v := (dispatch_spec dispatch_eq).bounded hs stored
    subst eq
    exact hv.of_same rfl rfl rfl rfl
  | @snapshotTaken caller snapshotId kept index record initialised registered auth kept_eq eq =>
    rw [eq]
    refine ⟨hs.threshold, ?_, hs.blank⟩
    intro id config hfound
    by_cases hid : id = snapshotId
    · obtain rfl : s.config = config := by simpa [hid] using hfound
      obtain ⟨hone, hreach⟩ := hs.config initialised
      exact ⟨hone, hreach, initialised⟩
    · have hbefore : kept.govSnapshot id = some config := by simpa [hid] using hfound
      exact hs.snapshot id config (dropSnapshot_govSnapshot kept_eq hbefore)
  | @rolledBack proposalId p config found pending enough stored eq =>
    obtain ⟨hone, hreach, -⟩ := hs.snapshot p.snapshotId config stored
    subst eq
    exact hs.of_threshold rfl rfl hone hreach
  | proposed _ _ _ eq | signed _ _ _ _ _ _ _ _ eq | cancelled _ _ _ _ _ _ eq
  | emergencySignersSet _ _ _ _ _ eq | rollbackProposed _ _ _ _ _ eq
  | rollbackApproved _ _ _ _ _ _ _ _ eq =>
    subst eq
    exact hs.of_same rfl rfl rfl rfl

theorem run_bounded (host : Host Addr Val) (pre : List (Step Addr Val home)) :
    Bounded (reached host pre) := by
  apply Machine.run_invariant
  · exact ⟨nofun, nofun, fun _ => ⟨rfl, fun _ => rfl⟩⟩
  · intro step s t hs hx
    exact Effect.bounded (exec_effect hx) hs

/-- Only a rollback changes the counter without the signers. -/
theorem Effect.countsFlags {call : Call Addr Val} (h : Effect host inv s t call)
    (hbounded : Bounded s) (hs : CountsFlags s.signerCount s.signer)
    (hkeeps : ∀ id p config, call = .executeEmergencyRollback id →
      s.govRollbackProposal id = some p → s.govSnapshot p.snapshotId = some config →
      config.signerCount = s.signerCount) : CountsFlags t.signerCount t.signer := by
  cases h with
  | @initialized signers threshold registered fresh pos le registers eq =>
    have hcount := registerSigners_counts (CountsFlags.empty (hbounded.blank fresh).2) registers
    rw [eq]
    rwa [Nat.zero_add] at hcount
  | @executed actionId p threshold v stored found active due enough intact dispatch_eq eq =>
    rw [eq]
    cases dispatch_spec dispatch_eq with
    | added signer requested unregistered veq =>
      rw [veq]
      exact hs.set unregistered
    | removed signer requested registered pos le veq =>
      rw [veq]
      exact hs.clear registered
    | rethresholded new target function pos le veq =>
      rw [veq]
      exact hs
    | called foreign veq =>
      rw [veq]
      exact hs
  | @rolledBack proposalId p config found pending enough stored eq =>
    rw [eq]
    show CountsFlags config.signerCount s.signer
    rw [hkeeps proposalId p config rfl found stored]
    exact hs
  | proposed _ _ _ eq | signed _ _ _ _ _ _ _ _ eq | cancelled _ _ _ _ _ _ eq
  | emergencySignersSet _ _ _ _ _ eq | snapshotTaken _ _ _ _ _ _ _ eq
  | rollbackProposed _ _ _ _ _ eq | rollbackApproved _ _ _ _ _ _ _ _ eq =>
    rw [eq]
    exact hs

/-- The counter stays the number of signers, and the threshold within its reach, if and only if
no rollback is executed to a snapshot with another number of signers. -/
theorem signersCounted_iff (host : Host Addr Val) (steps : List (Step Addr Val home)) :
    (∀ pre, pre <+: steps → SignersCounted (reached host pre)) ↔
      RollbacksKeepCount host steps := by
  constructor
  · intro h pre inv id t hx p config hfound hstored
    have hbefore := (h pre ((List.prefix_append pre _).trans hx.snoc_prefix)).counted
    have hafter := (h _ hx.snoc_prefix).counted
    rw [reached, hx.run_eq] at hafter
    cases effect_of_executes hx with
    | rolledBack p' config' found pending enough stored eq =>
      obtain rfl : p' = p := Option.some.inj (found.symm.trans hfound)
      obtain rfl : config' = config := Option.some.inj (stored.symm.trans hstored)
      rw [eq] at hafter
      exact hafter.unique hbefore
  · intro h pre hpre
    refine ⟨?_, (run_bounded host pre).threshold⟩
    refine Machine.run_invariant_of_executes (M := machine home host)
      (P := fun s => CountsFlags s.signerCount s.signer) ?_ ?_ pre hpre
    · exact CountsFlags.empty fun _ => rfl
    · intro before step t hx hs
      obtain ⟨inv, call⟩ := step
      refine Effect.countsFlags (exec_effect hx.exec_eq) (run_bounded host before) hs ?_
      rintro id p config rfl hfound hstored
      exact h before inv id t hx p config hfound hstored

/-- Two of three signers add a fourth after a snapshot, to which four of the seven emergency
signers then roll back. -/
def fourthSignerRun : List (Step ℕ ℕ 0) :=
  [(acceptedAt 0, .initializeMultisig [1, 2, 3] 2),
    (acceptedAt 0, .setEmergencySigners 1 [11, 12, 13, 14, 15, 16, 17]),
    (acceptedAt 0, .snapshotState 1 7),
    (acceptedAt 0, .proposeAction 1 0 "add_signer" [4]),
    (acceptedAt 0, .signAction 2 1),
    (acceptedAt 0, .executeAction 1),
    (acceptedAt 0, .proposeEmergencyRollback 11 7 0),
    (acceptedAt 0, .approveEmergencyRollback 12 1),
    (acceptedAt 0, .approveEmergencyRollback 13 1),
    (acceptedAt 0, .approveEmergencyRollback 14 1),
    (acceptedAt 0, .executeEmergencyRollback 1)]

/-- Four accounts are signers and the counter says three. -/
theorem fourthSignerRun_miscounted :
    ¬ ∀ pre, pre <+: fourthSignerRun → SignersCounted (reached byteHost pre) := by
  intro h
  have hcounted := (h fourthSignerRun List.prefix_rfl).counted
  have hcount : (reached byteHost fourthSignerRun).signerCount = 3 := by decide +kernel
  have hsigner : ∀ a ∈ ({1, 2, 3, 4} : Finset ℕ),
      (reached byteHost fourthSignerRun).signer a = true := by decide +kernel
  have hsub : (({1, 2, 3, 4} : Finset ℕ) : Set ℕ) ⊆
      {a | (reached byteHost fourthSignerRun).signer a = true} := hsigner
  have hfour := Set.encard_le_encard hsub
  rw [hcount] at hcounted
  rw [hcounted, Set.encard_coe_eq_coe_finsetCard] at hfour
  exact absurd hfour (by decide)

end MultisigAdmin
