import MentorsMind.CrossChain.Sync

/-! The lifecycle of cross-chain operations: which changes of the phase are documented, and which
calls leave the documented ways. -/
namespace CrossChain
open Outcome Soroban

variable {Addr : Type}

/-- The arrows of the documented lifecycle. -/
def XChainPhase.leadsTo : XChainPhase → XChainPhase → Bool
  | .prepared, .committing => true
  | .committing, .committed => true
  | .prepared, .rollingBack => true
  | .committing, .rollingBack => true
  | .prepared, .expired => true
  | .committing, .expired => true
  | .rollingBack, .rolledBack => true
  | _, _ => false

/-- The operation goes through its lifecycle as documented. -/
structure Lifecycle (sha256 : List UInt8 → Hash) (steps : List (Step Addr)) (opId : Hash) :
    Prop where
  edges : ∀ pre step op op', pre ++ [step] <+: steps →
    (reached sha256 pre).op opId = some op →
    (reached sha256 (pre ++ [step])).op opId = some op' →
    op.phase = op'.phase ∨ op.phase.leadsTo op'.phase = true
  abandoned : ∀ pre later op op', pre <+: later → later <+: steps →
    (reached sha256 pre).op opId = some op → op.phase = .rollingBack →
    (reached sha256 later).op opId = some op' →
    op'.phase = .rollingBack ∨ op'.phase = .rolledBack
  terminal : ∀ pre later op, pre <+: later → later <+: steps →
    (reached sha256 pre).op opId = some op → op.phase.isTerminal = true →
    (reached sha256 later).op opId = some op

/-- The calls that leave the documented ways: the last acknowledgement that is missing comes after
a rollback was started, the last confirmation comes before all have acknowledged or after that, or
the deadline is enforced on an operation that is rolling back. -/
def Strays (step : Step Addr) (opId : Hash) (op : AtomicXChainOp Addr) : Prop :=
  match step.call with
  | .acknowledgePrepare target _ =>
      target = opId ∧ op.phase = .rollingBack ∧ step.timestamp ≤ op.expiresAt ∧
        op.chainIds.length ≤ min (op.preparedCount + 1) maxU32
  | .confirmCommit target _ root =>
      target = opId ∧ (op.phase = .prepared ∨ op.phase = .rollingBack) ∧
        root = op.expectedStateRoot ∧ step.timestamp ≤ op.expiresAt ∧
        op.chainIds.length ≤ min (op.committedCount + 1) maxU32
  | .expireXChainOp target =>
      target = opId ∧ op.phase = .rollingBack ∧ op.expiresAt ≤ step.timestamp
  | _ => False

/-- No call of the run strays. -/
def Keeping (sha256 : List UInt8 → Hash) (steps : List (Step Addr)) (opId : Hash) : Prop :=
  ∀ pre step op, pre ++ [step] <+: steps → (reached sha256 pre).op opId = some op →
    ¬ Strays step opId op

section Phases

variable {step : Step Addr} {opId : Hash} {op op' : AtomicXChainOp Addr}
  {log log' : List Message}

theorem leadsTo_committing {φ : XChainPhase} (hrunning : φ.isTerminal = false) :
    (φ = .committing ∨ φ.leadsTo .committing = true) ↔ φ ≠ .rollingBack := by
  cases φ <;> simp_all [XChainPhase.isTerminal, XChainPhase.leadsTo]

theorem leadsTo_committed {φ : XChainPhase} (hrunning : φ.isTerminal = false) :
    (φ = .committed ∨ φ.leadsTo .committed = true) ↔ ¬ (φ = .prepared ∨ φ = .rollingBack) := by
  cases φ <;> simp_all [XChainPhase.isTerminal, XChainPhase.leadsTo]

theorem leadsTo_rollingBack {φ : XChainPhase} (hrunning : φ.isTerminal = false) :
    φ = .rollingBack ∨ φ.leadsTo .rollingBack = true := by
  cases φ <;> simp_all [XChainPhase.isTerminal, XChainPhase.leadsTo]

theorem leadsTo_expired {φ : XChainPhase} (hrunning : φ.isTerminal = false) :
    (φ = .expired ∨ φ.leadsTo .expired = true) ↔ φ ≠ .rollingBack := by
  cases φ <;> simp_all [XChainPhase.isTerminal, XChainPhase.leadsTo]

theorem leadsTo_of_rollingBack {φ : XChainPhase}
    (h : XChainPhase.rollingBack = φ ∨ XChainPhase.rollingBack.leadsTo φ = true) :
    φ = .rollingBack ∨ φ = .rolledBack := by
  cases φ <;> simp_all [XChainPhase.leadsTo]

theorem leadsTo_of_rolledBack {φ : XChainPhase}
    (h : XChainPhase.rolledBack = φ ∨ XChainPhase.rolledBack.leadsTo φ = true) :
    φ = .rolledBack := by
  cases φ <;> simp_all [XChainPhase.leadsTo]

/-- A change is documented unless the call strays. -/
theorem Change.documented (h : Change step opId op log op' log') (hkeeps : ¬ Strays step opId op) :
    op.phase = op'.phase ∨ op.phase.leadsTo op'.phase = true := by
  cases h with
  | acknowledged chainId hcall hactive =>
    rw [AtomicXChainOp.acknowledge_phase]
    split_ifs with hlast
    · rw [leadsTo_committing hactive.running]
      intro hrolling
      apply hkeeps
      rw [Strays, hcall]
      exact ⟨rfl, hrolling, hactive.inTime, hlast⟩
    · exact .inl rfl
  | confirmed chainId hcall hactive =>
    rw [AtomicXChainOp.confirm_phase]
    split_ifs with hlast
    · rw [leadsTo_committed hactive.running]
      intro hearly
      apply hkeeps
      rw [Strays, hcall]
      exact ⟨rfl, hearly, rfl, hactive.inTime, hlast⟩
    · exact .inl rfl
  | mismatched chainId root hcall hactive hne => exact leadsTo_rollingBack hactive.running
  | rollback hcall hrunning => exact leadsTo_rollingBack hrunning
  | rolledBack hcall hrolling =>
    rw [hrolling]
    exact .inr rfl
  | expired hcall hrunning hlate =>
    change op.phase = .expired ∨ op.phase.leadsTo .expired = true
    rw [leadsTo_expired hrunning]
    intro hrolling
    apply hkeeps
    rw [Strays, hcall]
    exact ⟨rfl, hrolling, hlate⟩

/-- A call that strays takes effect, and the change is not documented. -/
theorem Strays.undocumented (sha256 : List UInt8 → Hash) {s : SyncState Addr}
    (hop : s.op opId = some op) (h : Strays step opId op) :
    ∃ op', (exec sha256 step s).op opId = some op' ∧
      ¬ (op.phase = op'.phase ∨ op.phase.leadsTo op'.phase = true) := by
  obtain ⟨now, sequence, call⟩ := step
  cases call with
  | acknowledgePrepare target chainId =>
    obtain ⟨rfl, hrolling, htime, hlast⟩ := h
    have hactive : getActiveOp now s target = .ok op :=
      getActiveOp_eq_ok.mpr ⟨hop, by rw [hrolling]; rfl, htime⟩
    refine ⟨op.acknowledge, ?_, ?_⟩
    · simp only [exec, acknowledgePrepare, hactive, ok_bind]
      exact Function.update_self _ _ _
    · rw [AtomicXChainOp.acknowledge_phase, if_pos hlast, hrolling]
      decide
  | confirmCommit target chainId root =>
    obtain ⟨rfl, hearly, rfl, htime, hlast⟩ := h
    have hrunning : op.phase.isTerminal = false := by
      rcases hearly with hphase | hphase
      · rw [hphase]
        rfl
      · rw [hphase]
        rfl
    refine ⟨op.confirm, ?_, ?_⟩
    · simp only [exec, confirmCommit_match hop ⟨hrunning, htime⟩]
      exact Function.update_self _ _ _
    · rw [AtomicXChainOp.confirm_phase, if_pos hlast, leadsTo_committed hrunning, not_not]
      exact hearly
  | expireXChainOp target =>
    obtain ⟨rfl, hrolling, hlate⟩ := h
    have hexpire : expireXChainOp now s target = .ok (s.setOp target (op.withPhase .expired)) := by
      simp only [expireXChainOp, bind_eq_ok, getOp_eq_ok, checkNotTerminal_eq_ok, require_eq_ok,
        pure_eq_ok]
      exact ⟨op, hop, (), by rw [hrolling]; rfl, (), hlate, rfl⟩
    refine ⟨op.withPhase .expired, ?_, ?_⟩
    · simp only [exec, hexpire]
      exact Function.update_self _ _ _
    · rw [hrolling]
      change ¬ (XChainPhase.rollingBack = .expired ∨
        XChainPhase.rollingBack.leadsTo .expired = true)
      decide
  | beginAtomicXChainOp initiator chains root => exact absurd h id
  | initiateRollback target => exact absurd h id
  | confirmRollback target => exact absurd h id
  | isolateChain chainId reason failureCount isolationDurationSecs => exact absurd h id
  | liftChainIsolation chainId => exact absurd h id

/-- A terminal operation takes no call. -/
theorem Change.running (h : Change step opId op log op' log') : op.phase.isTerminal = false := by
  cases h with
  | acknowledged _ _ hactive => exact hactive.running
  | confirmed _ _ hactive => exact hactive.running
  | mismatched _ _ _ hactive _ => exact hactive.running
  | rollback _ hrunning => exact hrunning
  | rolledBack _ hrolling =>
    rw [hrolling]
    rfl
  | expired _ hrunning _ => exact hrunning

end Phases

section Runs

variable {sha256 : List UInt8 → Hash} {steps : List (Step Addr)} {opId : Hash}

/-- One call more, with the operation before it and after it. -/
theorem exec_phase {step : Step Addr} {s : SyncState Addr} {op op' : AtomicXChainOp Addr}
    (hop : s.op opId = some op) (hop' : (exec sha256 step s).op opId = some op')
    (hkeeps : ¬ Strays step opId op) :
    op.phase = op'.phase ∨ op.phase.leadsTo op'.phase = true := by
  cases exec_effect sha256 step opId s with
  | kept hsame _ =>
    rw [hsame, hop, Option.some.injEq] at hop'
    exact .inl (congrArg AtomicXChainOp.phase hop')
  | opened _ habsent _ _ _ =>
    rw [hop] at habsent
    cases habsent
  | changed op₁ op₂ hbefore hafter hchange =>
    obtain rfl := Option.some.inj (hbefore.symm.trans hop)
    obtain rfl := Option.some.inj (hafter.symm.trans hop')
    exact hchange.documented hkeeps

/-- An operation stays in the store, and as it is once it is terminal. -/
theorem exec_op_isSome (sha256 : List UInt8 → Hash) (step : Step Addr) {s : SyncState Addr}
    {op : AtomicXChainOp Addr} (hop : s.op opId = some op) : ∃ op', (exec sha256 step s).op opId = some op' ∧
      (op.phase.isTerminal = true → op' = op) := by
  cases exec_effect sha256 step opId s with
  | kept hsame _ => exact ⟨op, hsame.trans hop, fun _ => rfl⟩
  | opened _ habsent _ _ _ =>
    rw [hop] at habsent
    cases habsent
  | changed op₁ op₂ hbefore hafter hchange =>
    obtain rfl := Option.some.inj (hbefore.symm.trans hop)
    refine ⟨op₂, hafter, fun hterminal => ?_⟩
    rw [hchange.running] at hterminal
    cases hterminal

/-- What holds of the operation in one state and is kept by the calls after it. -/
theorem later_induction {P : AtomicXChainOp Addr → Prop} {pre : List (Step Addr)}
    {op : AtomicXChainOp Addr} (hop : (reached sha256 pre).op opId = some op) (h0 : P op)
    (hstep : ∀ mid step op op', mid ++ [step] <+: steps →
      (reached sha256 mid).op opId = some op →
      (exec sha256 step (reached sha256 mid)).op opId = some op' → P op → P op') :
    ∀ later, pre <+: later → later <+: steps →
      ∃ op', (reached sha256 later).op opId = some op' ∧ P op' := by
  intro later
  induction later using List.reverseRecOn with
  | nil =>
    intro hpre _
    obtain rfl := List.prefix_nil.mp hpre
    exact ⟨op, hop, h0⟩
  | append_singleton mid step ih =>
    intro hpre hlater
    rcases List.prefix_concat_iff.mp hpre with rfl | hbefore
    · exact ⟨op, hop, h0⟩
    · obtain ⟨op₁, hop₁, h₁⟩ := ih hbefore ((List.prefix_append mid [step]).trans hlater)
      obtain ⟨op₂, hop₂, -⟩ := exec_op_isSome sha256 step hop₁
      refine ⟨op₂, ?_, hstep mid step op₁ op₂ hlater hop₁ hop₂ h₁⟩
      rw [reached_snoc]
      exact hop₂

/-- Every change of the phase is documented exactly if no call strays. -/
theorem lifecycle_iff (sha256 : List UInt8 → Hash) (steps : List (Step Addr)) (opId : Hash) :
    Lifecycle sha256 steps opId ↔ Keeping sha256 steps opId := by
  constructor
  · intro h pre step op hsofar hop hstrays
    obtain ⟨op', hop', hundocumented⟩ := hstrays.undocumented sha256 hop
    rw [← reached_snoc] at hop'
    exact hundocumented (h.edges pre step op op' hsofar hop hop')
  · intro h
    constructor
    · intro pre step op op' hsofar hop hop'
      rw [reached_snoc] at hop'
      exact exec_phase hop hop' (h pre step op hsofar hop)
    · intro pre later op op' hpre hlater hop hrolling hop'
      have hkept : ∀ mid step op op', mid ++ [step] <+: steps →
          (reached sha256 mid).op opId = some op →
          (exec sha256 step (reached sha256 mid)).op opId = some op' →
          (op.phase = .rollingBack ∨ op.phase = .rolledBack) →
          op'.phase = .rollingBack ∨ op'.phase = .rolledBack := by
        intro mid step op op' hsofar hop hop' hphase
        have hdocumented := exec_phase hop hop' (h mid step op hsofar hop)
        rcases hphase with hphase | hphase
        · rw [hphase] at hdocumented
          exact leadsTo_of_rollingBack hdocumented
        · rw [hphase] at hdocumented
          exact .inr (leadsTo_of_rolledBack hdocumented)
      obtain ⟨op₁, hop₁, hphase⟩ := later_induction
        (P := fun op => op.phase = .rollingBack ∨ op.phase = .rolledBack) hop (.inl hrolling) hkept
        later hpre hlater
      obtain rfl := Option.some.inj (hop₁.symm.trans hop')
      exact hphase
    · intro pre later op hpre hlater hop hterminal
      have hkept : ∀ mid step op₁ op₂, mid ++ [step] <+: steps →
          (reached sha256 mid).op opId = some op₁ →
          (exec sha256 step (reached sha256 mid)).op opId = some op₂ → op₁ = op → op₂ = op := by
        intro mid step op₁ op₂ _ hop₁ hop₂ heq
        obtain ⟨op₃, hop₃, hsame⟩ := exec_op_isSome sha256 step hop₁
        obtain rfl := Option.some.inj (hop₃.symm.trans hop₂)
        rw [hsame (heq ▸ hterminal), heq]
      obtain ⟨op', hop', rfl⟩ := later_induction (P := fun op' => op' = op) hop rfl hkept
        later hpre hlater
      exact hop'

end Runs

section LateAcknowledgement

/-- The digest of the payload below. -/
def exampleDigest : Hash := 0x746573b546b3e8352f4387beffdcfd58458c62f74f5744c226b04f743a41d32c

/-- An operation of account 5 over chains 2 and 1, opened at time 1000. -/
def opening : Step ℕ := ⟨1000, 0, .beginAtomicXChainOp 5 [2, 1] 7⟩

/-- Chain 2 has acknowledged when the operation is rolled back; then chain 1 does. -/
def lateAcknowledgement : List (Step ℕ) :=
  [opening, ⟨1001, 1, .acknowledgePrepare exampleDigest 2⟩,
    ⟨1002, 2, .initiateRollback exampleDigest⟩, ⟨1003, 3, .acknowledgePrepare exampleDigest 1⟩]

/-- The operation returns from its rollback. -/
theorem late_acknowledgement_resumes :
    ¬ ∀ (sha256 : List UInt8 → Hash) (steps : List (Step ℕ)) (opId : Hash),
      Lifecycle sha256 steps opId := by
  intro h
  have hlife := h (fun _ => exampleDigest) lateAcknowledgement exampleDigest
  have hback := hlife.abandoned (lateAcknowledgement.take 3) lateAcknowledgement _ _
    (List.take_prefix 3 _) List.prefix_rfl rfl rfl rfl
  exact absurd hback (by decide)

end LateAcknowledgement

end CrossChain
