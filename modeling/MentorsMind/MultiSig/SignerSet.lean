import MentorsMind.Lib.Quorum
import MentorsMind.MultiSig.Effects

/-! The signers and the threshold as a quorum. The counter that the wallet keeps is the
number of its signers exactly as long as `initialize` was given no address twice. -/
namespace MultiSig
open Outcome Soroban

variable {Addr : Type}

def State.signers (s : State Addr) : Set Addr := {a | s.signer a = true}

def ThresholdWellFormed (s : State Addr) : Prop :=
  ∃ threshold, s.threshold = some threshold ∧ 1 ≤ threshold ∧
    (threshold : ℕ∞) ≤ s.signers.encard

/-- The storage holds the quorum, and its counter is right. -/
structure Represents (s : State Addr) (q : Quorum Addr) : Prop where
  initialized : s.admin ≠ none
  threshold : s.threshold = some q.needed
  count : s.signerCount = q.members.card
  signers : s.signers = q.members

theorem Represents.thresholdWellFormed {s : State Addr} {q : Quorum Addr}
    (h : Represents s q) : ThresholdWellFormed s := by
  refine ⟨q.needed, h.threshold, q.needed_pos, ?_⟩
  rw [h.signers, Set.encard_coe_eq_coe_finsetCard]
  exact_mod_cast q.needed_le

theorem Represents.mem_iff {s : State Addr} {q : Quorum Addr} (h : Represents s q) {a : Addr} :
    a ∈ q.members ↔ s.signer a = true := by
  rw [← Finset.mem_coe, ← h.signers]
  rfl

/-- The step leaves the signer set alone. -/
structure SameSigners (s t : State Addr) : Prop where
  admin : t.admin = s.admin
  threshold : t.threshold = s.threshold
  count : t.signerCount = s.signerCount
  signer : t.signer = s.signer

theorem SameSigners.represents {s t : State Addr} (h : SameSigners s t) {q : Quorum Addr}
    (hs : Represents s q) : Represents t q where
  initialized := by rw [h.admin]; exact hs.initialized
  threshold := h.threshold.trans hs.threshold
  count := h.count.trans hs.count
  signers := by
    rw [← hs.signers]
    unfold State.signers
    rw [h.signer]

theorem not_thresholdWellFormed {s : State Addr} {threshold : ℕ} {members : Finset Addr}
    (hthreshold : s.threshold = some threshold) (hsigners : s.signers = members)
    (hlt : members.card < threshold) : ¬ ThresholdWellFormed s := by
  rintro ⟨n, hn, -, hreach⟩
  obtain rfl : threshold = n := Option.some.inj (hthreshold.symm.trans hn)
  rw [hsigners, Set.encard_coe_eq_coe_finsetCard] at hreach
  have hle : threshold ≤ members.card := by exact_mod_cast hreach
  omega

variable [DecidableEq Addr] {self : Addr} {step : Step Addr self} {s t : State Addr}

/-- What a step does to the signer set. -/
inductive SignerChange (step : Step Addr self) (s t : State Addr) : Prop
  | same (adds : ∀ admin a, step.2 ≠ .addSigner admin a)
      (removes : ∀ admin a, step.2 ≠ .removeSigner admin a) (same : SameSigners s t)
  | initialized (admin : Addr) (signers : List Addr) (threshold : ℕ)
      (call : step.2 = .initializeMultisig admin signers threshold) (fresh : s.admin = none)
      (initialized : t.admin = some admin) (threshold_eq : t.threshold = some threshold)
      (count : t.signerCount = signers.length)
      (signer : t.signer = registerSigners s.signer signers)
  | added (admin signer : Addr) (call : step.2 = .addSigner admin signer)
      (auth : step.1.auth admin = true) (stored : s.admin = some admin)
      (unregistered : s.signer signer = false)
      (eq : t = { s with
        signer := Function.update s.signer signer true
        signerCount := s.signerCount + 1 })
  | removed (admin signer : Addr) (call : step.2 = .removeSigner admin signer)
      (auth : step.1.auth admin = true) (stored : s.admin = some admin)
      (registered : s.signer signer = true) (le : s.threshold.getD 0 ≤ s.signerCount - 1)
      (eq : t = { s with
        signer := Function.update s.signer signer false
        signerCount := s.signerCount - 1 })
  | rethresholded (admin : Addr) (threshold : ℕ)
      (call : step.2 = .updateThreshold admin threshold) (auth : step.1.auth admin = true)
      (stored : s.admin = some admin) (pos : 1 ≤ threshold) (le : threshold ≤ s.signerCount)
      (eq : t = { s with threshold := some threshold })

theorem Effect.signerChange (h : Effect step s t) : SignerChange step s t := by
  cases h with
  | initialized admin signers threshold call fresh pos le eq =>
    subst eq
    exact .initialized admin signers threshold call fresh rfl rfl rfl rfl
  | proposed _ _ _ _ _ call _ _ eq | approved _ _ _ call _ _ _ _ _ eq
  | executed _ _ _ _ _ call _ _ _ _ _ _ eq | cancelled _ _ _ call _ _ eq =>
    subst eq
    exact .same (by simp [call]) (by simp [call]) ⟨rfl, rfl, rfl, rfl⟩
  | signerAdded admin signer call auth stored unregistered eq =>
    exact .added admin signer call auth stored unregistered eq
  | signerRemoved admin signer call auth stored registered le eq =>
    exact .removed admin signer call auth stored registered le eq
  | thresholdUpdated admin threshold call auth stored pos le eq =>
    exact .rethresholded admin threshold call auth stored pos le eq
  | tokensMoved tokens call eq =>
    subst eq
    rcases call with ⟨token, source, amount, call⟩ | ⟨token, holder, balance, call⟩
    · exact .same (by simp [call]) (by simp [call]) ⟨rfl, rfl, rfl, rfl⟩
    · exact .same (by simp [call]) (by simp [call]) ⟨rfl, rfl, rfl, rfl⟩

/-- The entry points that change the signer set act as the operations of the quorum. -/
theorem SignerChange.represents {q : Quorum Addr} (h : SignerChange step s t)
    (hs : Represents s q) : ∃ q', Represents t q' := by
  cases h with
  | same _ _ same => exact ⟨q, same.represents hs⟩
  | initialized admin signers threshold call fresh => exact absurd fresh hs.initialized
  | added admin signer call auth stored unregistered eq =>
    subst eq
    have hnew : signer ∉ q.members := by
      rw [hs.mem_iff, unregistered]
      simp
    refine ⟨q.enter signer, hs.initialized, hs.threshold, ?_, ?_⟩
    · show s.signerCount + 1 = (insert signer q.members).card
      rw [Finset.card_insert_of_notMem hnew, hs.count]
    · ext a
      show Function.update s.signer signer true a = true ↔ a ∈ insert signer q.members
      rw [Finset.mem_insert, hs.mem_iff]
      by_cases ha : a = signer
      · simp [ha]
      · simp [ha]
  | removed admin signer call auth stored registered le eq =>
    subst eq
    have hmem : signer ∈ q.members := hs.mem_iff.mpr registered
    have hle : q.needed ≤ q.members.card - 1 := by
      rw [hs.threshold, hs.count] at le
      exact le
    refine ⟨q.leave signer hmem hle, hs.initialized, hs.threshold, ?_, ?_⟩
    · show s.signerCount - 1 = (q.members.erase signer).card
      rw [Finset.card_erase_of_mem hmem, hs.count]
    · ext a
      show Function.update s.signer signer false a = true ↔ a ∈ q.members.erase signer
      rw [Finset.mem_erase, hs.mem_iff]
      by_cases ha : a = signer
      · simp [ha]
      · simp [ha]
  | rethresholded admin threshold call auth stored pos le eq =>
    subst eq
    rw [hs.count] at le
    exact ⟨q.withNeeded threshold pos le, hs.initialized, rfl, hs.count, hs.signers⟩

theorem run_represents {q : Quorum Addr} (hs : Represents s q) (post : List (Step Addr self)) :
    ∃ q', Represents ((machine self).run s post) q' :=
  Machine.run_invariant (M := machine self) (P := fun t => ∃ q', Represents t q') ⟨q, hs⟩
    (fun _ _ _ ⟨_, hr⟩ hx => (exec_effect hx).signerChange.represents hr) post

/-- Signers are registered by `initialize` and by the admin that it stores. -/
theorem run_unregistered (balance : Addr → Addr → ℕ) (pre : List (Step Addr self)) :
    (reached balance pre).admin = none →
      ∀ a, (reached balance pre).signer a = false := by
  refine Machine.run_invariant (M := machine self)
    (P := fun t : State Addr => t.admin = none → ∀ a, t.signer a = false) ?_ ?_ pre
  · intro _ _
    rfl
  · intro step s t hs hx hadmin
    cases (exec_effect hx).signerChange with
    | same _ _ same =>
      rw [same.signer]
      exact hs (same.admin.symm.trans hadmin)
    | initialized admin signers threshold call fresh initialized =>
      exact absurd (initialized.symm.trans hadmin) (by simp)
    | added admin signer call auth stored unregistered eq =>
      subst eq
      exact absurd (stored.symm.trans hadmin) (by simp)
    | removed admin signer call auth stored registered le eq =>
      subst eq
      exact absurd (stored.symm.trans hadmin) (by simp)
    | rethresholded admin threshold call auth stored pos le eq =>
      subst eq
      exact absurd (stored.symm.trans hadmin) (by simp)

/-- A wallet that is its own admin has no admin that could sign. -/
theorem run_sameSigners_of_self (hs : s.admin = some self) (post : List (Step Addr self)) :
    SameSigners s ((machine self).run s post) := by
  refine Machine.run_invariant (M := machine self) (P := fun t => SameSigners s t)
    ⟨rfl, rfl, rfl, rfl⟩ ?_ post
  intro step r t hr hx
  have hself : r.admin = some self := hr.admin.trans hs
  have hunsigned : ∀ admin, r.admin = some admin → step.1.auth admin ≠ true := by
    intro admin hadmin hauth
    obtain rfl : self = admin := Option.some.inj (hself.symm.trans hadmin)
    exact step.1.ne_self_of_auth hauth rfl
  cases (exec_effect hx).signerChange with
  | same _ _ same =>
    exact ⟨same.admin.trans hr.admin, same.threshold.trans hr.threshold,
      same.count.trans hr.count, same.signer.trans hr.signer⟩
  | initialized admin signers threshold call fresh =>
    exact absurd (hself.symm.trans fresh) (by simp)
  | added admin signer call auth stored => exact absurd auth (hunsigned admin stored)
  | removed admin signer call auth stored => exact absurd auth (hunsigned admin stored)
  | rethresholded admin threshold call auth stored => exact absurd auth (hunsigned admin stored)

/-- What a successful `initialize` leaves. -/
theorem initializeMultisig_spec {admin : Addr} {signers : List Addr} {threshold : ℕ}
    (h : initializeMultisig s admin signers threshold = .ok t) :
    s.admin = none ∧ 1 ≤ threshold ∧ threshold ≤ signers.length ∧ t = { s with
      admin := some admin
      threshold := some threshold
      transCount := 0
      signerCount := signers.length
      signer := registerSigners s.signer signers } := by
  simp only [initializeMultisig, bind_eq_ok, require_eq_ok, pure_eq_ok] at h
  obtain ⟨-, hfresh, -, ⟨-, hpos, hle⟩, rfl⟩ := h
  exact ⟨hfresh, Nat.one_le_iff_ne_zero.mpr hpos, hle, rfl⟩

/-- From `initialize` on the threshold stays positive and within reach of the registered
signers, whatever is called, if and only if no address was listed twice. The exception is
a wallet that is its own admin, where nobody can change the threshold any more. -/
theorem thresholdWellFormed_iff {balance : Addr → Addr → ℕ} {pre : List (Step Addr self)}
    {inv : Invocation Addr self} {admin : Addr} {signers : List Addr} {threshold : ℕ}
    (h : (machine self).exec (inv, .initializeMultisig admin signers threshold)
      (reached balance pre) = .ok s) :
    (∀ post, ThresholdWellFormed ((machine self).run s post)) ↔
      signers.Nodup ∨ (admin = self ∧ threshold ≤ signers.toFinset.card) := by
  obtain ⟨hfresh, hpos, hle, hs⟩ := initializeMultisig_spec h
  have hnone := run_unregistered balance pre hfresh
  have hsigners : s.signers = signers.toFinset := by
    ext a
    subst hs
    show registerSigners _ signers a = true ↔ a ∈ signers.toFinset
    rw [registerSigners_apply, hnone a, List.mem_toFinset]
    simp
  have hadmin : s.admin = some admin := by rw [hs]
  have hthreshold : s.threshold = some threshold := by rw [hs]
  have hcount : s.signerCount = signers.length := by rw [hs]
  constructor
  · intro hall
    by_contra hnot
    rw [not_or] at hnot
    obtain ⟨hrepeated, hself⟩ := hnot
    have hlt := Quorum.card_toFinset_lt_of_not_nodup hrepeated
    by_cases hhome : admin = self
    · have hover : signers.toFinset.card < threshold := by
        by_contra hwithin
        exact hself ⟨hhome, by omega⟩
      exact not_thresholdWellFormed hthreshold hsigners hover (hall [])
    · -- the counter lets the admin ask for more approvals than there are signers
      have hupdate : (machine self).exec
          (signedByOthers self 0, .updateThreshold admin signers.length) s =
            .ok { s with threshold := some signers.length } := by
        have hnonzero : signers.length ≠ 0 := by omega
        show updateThreshold (signedByOthers self 0) s admin signers.length = _
        simp only [updateThreshold, bind_eq_ok, requireAdmin_eq_ok, require_eq_ok]
        exact ⟨(), ⟨by simpa [signedByOthers] using hhome, hadmin⟩, (),
          ⟨hnonzero, hcount.ge⟩, rfl⟩
      have hrun := hall [(signedByOthers self 0, .updateThreshold admin signers.length)]
      rw [Machine.run_cons, Machine.run_nil, Machine.apply_ok hupdate] at hrun
      exact not_thresholdWellFormed (s := { s with threshold := some signers.length }) rfl
        hsigners hlt hrun
  · rintro (hdistinct | ⟨rfl, hwithin⟩) post
    · have hrepr : Represents s (Quorum.ofList signers threshold hdistinct hpos hle) := by
        refine ⟨by simp [hadmin], hthreshold, ?_, hsigners⟩
        show s.signerCount = signers.toFinset.card
        rw [hcount, List.toFinset_card_of_nodup hdistinct]
      obtain ⟨q, hq⟩ := run_represents hrepr post
      exact hq.thresholdWellFormed
    · have hsame := run_sameSigners_of_self hadmin post
      refine ⟨threshold, hsame.threshold.trans hthreshold, hpos, ?_⟩
      have hset : ((machine admin).run s post).signers = s.signers := by
        unfold State.signers
        rw [hsame.signer]
      rw [hset, hsigners, Set.encard_coe_eq_coe_finsetCard]
      exact_mod_cast hwithin

/-- A wallet of the two signers 1 and 2, where every transaction needs both. -/
theorem thresholdWellFormed_iff_twoSigners :
    ∃ s, (machine 0).exec (signedByOthers 0 0, .initializeMultisig 9 [1, 2] 2)
        (deployed fun _ _ => 0) = .ok s ∧
      ((∀ post, ThresholdWellFormed ((machine 0).run s post)) ↔
        [1, 2].Nodup ∨ (9 = 0 ∧ 2 ≤ [1, 2].toFinset.card)) := by
  refine ⟨_, rfl, ?_⟩
  apply thresholdWellFormed_iff
  show (machine 0).exec (signedByOthers 0 0, .initializeMultisig 9 [1, 2] 2)
    (reached (fun _ _ => 0) []) = _
  rfl

/-- A wallet that lists its one signer twice can never reach its threshold of two. -/
theorem repeatedSigner_unreachable :
    ∃ s, (machine 0).exec (signedByOthers 0 0, .initializeMultisig 9 [1, 1] 2)
        (deployed fun _ _ => 0) = .ok s ∧ ¬ ThresholdWellFormed s := by
  have hsigners : ∀ a : ℕ, registerSigners (fun _ => false) [1, 1] a = true ↔
      a ∈ ({1} : Finset ℕ) := by
    intro a
    rw [registerSigners_apply]
    simp
  exact ⟨_, rfl, not_thresholdWellFormed rfl (Set.ext hsigners) (by decide)⟩

end MultiSig
