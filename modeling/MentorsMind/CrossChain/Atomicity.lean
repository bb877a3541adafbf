import MentorsMind.CrossChain.Lifecycle

/-! Atomicity of the two-phase commit: which chains stand behind an operation that is committed,
and when the two counters are enough to tell. -/
namespace CrossChain
open Outcome Soroban

variable {Addr : Type}

section Logs

/-- The chains that confirmations are said to come from, latest first. -/
def confirmations : List Message → List ℕ
  | [] => []
  | .confirmed chainId :: earlier => chainId :: confirmations earlier
  | _ :: earlier => confirmations earlier

/-- Those of them that came after every chain of the list had acknowledged. -/
def readyConfirmations (chains : List ℕ) : List Message → List ℕ
  | [] => []
  | .confirmed chainId :: earlier =>
      if ∀ c ∈ chains, .acknowledged c ∈ earlier then
        chainId :: readyConfirmations chains earlier
      else readyConfirmations chains earlier
  | _ :: earlier => readyConfirmations chains earlier

/-- Every chain has acknowledged, every chain has confirmed after that, and none has reported
another root. -/
structure CommittedByAll (chains : List ℕ) (log : List Message) : Prop where
  prepared : ∀ c ∈ chains, .acknowledged c ∈ log
  confirmed : ∀ c ∈ chains, c ∈ readyConfirmations chains log
  matching : ∀ c, .mismatched c ∉ log

/-- No other root was reported, and unless the list is empty each confirmation came from a chain of
the list, for the first time, after all of them had acknowledged. -/
structure InTurn (chains : List ℕ) (log : List Message) : Prop where
  matching : ∀ c, .mismatched c ∉ log
  once : chains ≠ [] → (confirmations log).Nodup
  listed : chains ≠ [] → ∀ c ∈ confirmations log, c ∈ chains
  ready : chains ≠ [] → readyConfirmations chains log = confirmations log

variable {chains : List ℕ} {log : List Message}

theorem readyConfirmations_sublist (chains : List ℕ) (log : List Message) :
    (readyConfirmations chains log).Sublist (confirmations log) := by
  induction log with
  | nil => exact List.Sublist.refl _
  | cons message earlier ih =>
    cases message with
    | acknowledged chainId => exact ih
    | mismatched chainId => exact ih
    | confirmed chainId =>
      simp only [readyConfirmations, confirmations]
      split_ifs
      · exact ih.cons_cons chainId
      · exact ih.cons chainId

/-- A confirmation that came in its turn shows that all have acknowledged. -/
theorem acknowledged_of_mem_ready {c : ℕ} (h : c ∈ readyConfirmations chains log) :
    ∀ d ∈ chains, .acknowledged d ∈ log := by
  induction log with
  | nil => simp [readyConfirmations] at h
  | cons message earlier ih =>
    have hlater : (∀ d ∈ chains, Message.acknowledged d ∈ earlier) →
        ∀ d ∈ chains, Message.acknowledged d ∈ message :: earlier :=
      fun hall d hd => List.mem_cons_of_mem _ (hall d hd)
    cases message with
    | acknowledged chainId => exact hlater (ih h)
    | mismatched chainId => exact hlater (ih h)
    | confirmed chainId =>
      simp only [readyConfirmations] at h
      split_ifs at h with hall
      · exact hlater hall
      · exact hlater (ih h)

/-- Where there are just as many confirmations as chains, each chain has confirmed in its turn
exactly if each confirmation came in turn. -/
theorem committedByAll_iff (hdistinct : chains.Nodup)
    (hcount : (confirmations log).length = max chains.length 1) :
    CommittedByAll chains log ↔ InTurn chains log := by
  constructor
  · rintro ⟨-, hconfirmed, hmatching⟩
    have hsubset : chains ⊆ readyConfirmations chains log := hconfirmed
    have hsub := hdistinct.subperm hsubset
    have hall : chains ≠ [] → readyConfirmations chains log = confirmations log := by
      intro hsome
      have hpos := List.length_pos_of_ne_nil hsome
      apply (readyConfirmations_sublist chains log).eq_of_length_le
      have hle := hsub.length_le
      omega
    have hperm : chains ≠ [] → chains.Perm (confirmations log) := by
      intro hsome
      have hpos := List.length_pos_of_ne_nil hsome
      rw [hall hsome] at hsub
      exact hsub.perm_of_length_le (by omega)
    constructor
    · exact hmatching
    · intro hsome
      exact (hperm hsome).nodup_iff.mp hdistinct
    · intro hsome c hc
      exact (hperm hsome).mem_iff.mpr hc
    · exact hall
  · rintro ⟨hmatching, honce, hlisted, hready⟩
    by_cases hsome : chains = []
    · subst hsome
      exact ⟨by simp, by simp, hmatching⟩
    · have hpos := List.length_pos_of_ne_nil hsome
      have hsubset : confirmations log ⊆ chains := hlisted hsome
      have hperm : (confirmations log).Perm chains :=
        ((honce hsome).subperm hsubset).perm_of_length_le (by omega)
      have hconfirmed : ∀ c ∈ chains, c ∈ readyConfirmations chains log := by
        intro c hc
        rw [hready hsome]
        exact hperm.mem_iff.mpr hc
      obtain ⟨c, hc⟩ := List.exists_mem_of_ne_nil chains hsome
      exact ⟨acknowledged_of_mem_ready (hconfirmed c hc), hconfirmed, hmatching⟩

end Logs

section Counters

/-- What the commit counter of an operation counts. -/
structure Counted (op : AtomicXChainOp Addr) (log : List Message) : Prop where
  few : op.chainIds.length ≤ maxParticipatingChains
  count : op.phase ≠ .committed → op.committedCount = (confirmations log).length
  missing : op.phase ≠ .committed →
    (confirmations log).length = 0 ∨ (confirmations log).length < op.chainIds.length
  complete : op.phase = .committed → (confirmations log).length = max op.chainIds.length 1

variable {step : Step Addr} {opId : Hash} {op op' : AtomicXChainOp Addr}
  {log log' : List Message}

/-- Messages that are no confirmations and changes of the phase leave the counter alone. -/
theorem Counted.of_eq (h : Counted op log) (hrunning : op.phase ≠ .committed)
    (hids : op'.chainIds = op.chainIds) (hcount : op'.committedCount = op.committedCount)
    (hlog : confirmations log' = confirmations log) (hphase : op'.phase ≠ .committed) :
    Counted op' log' where
  few := hids ▸ h.few
  count _ := by rw [hcount, hlog, h.count hrunning]
  missing _ := by rw [hlog, hids]; exact h.missing hrunning
  complete hcommitted := absurd hcommitted hphase

theorem ne_committed_of_running {φ : XChainPhase} (h : φ.isTerminal = false) : φ ≠ .committed := by
  rintro rfl
  cases h

/-- A confirmation is counted, and the one that completes the count commits the operation. -/
theorem Counted.confirm (h : Counted op log) (hrunning : op.phase ≠ .committed) (chainId : ℕ) :
    Counted op.confirm (.confirmed chainId :: log) := by
  have hlength : (confirmations (.confirmed chainId :: log)).length =
      (confirmations log).length + 1 := rfl
  have hfew := h.few
  have hmissing := h.missing hrunning
  have hcommitted := op.confirm_committedCount
  have hphase := op.confirm_phase
  rw [h.count hrunning] at hphase hcommitted
  unfold maxParticipatingChains at hfew
  unfold maxU32 at hphase hcommitted
  constructor
  · rw [op.confirm_chainIds]
    exact h.few
  · intro _
    rw [hcommitted, hlength]
    omega
  · intro hopen
    rw [op.confirm_chainIds, hlength]
    split_ifs at hphase with hlast
    · exact absurd hphase hopen
    · omega
  · intro hdone
    rw [op.confirm_chainIds, hlength]
    split_ifs at hphase with hlast
    · omega
    · exact absurd (hphase.symm.trans hdone) hrunning

theorem Change.counted (hcounted : Counted op log) (h : Change step opId op log op' log') :
    Counted op' log' := by
  have hrunning := ne_committed_of_running h.running
  cases h with
  | acknowledged chainId hcall hactive =>
    refine hcounted.of_eq hrunning op.acknowledge_chainIds op.acknowledge_committedCount rfl ?_
    rw [AtomicXChainOp.acknowledge_phase]
    split_ifs
    · decide
    · exact hrunning
  | confirmed chainId hcall hactive => exact hcounted.confirm hrunning chainId
  | mismatched chainId root hcall hactive hne =>
    exact hcounted.of_eq hrunning rfl rfl rfl
      (show XChainPhase.rollingBack ≠ .committed by decide)
  | rollback hcall _ =>
    exact hcounted.of_eq hrunning rfl rfl rfl
      (show XChainPhase.rollingBack ≠ .committed by decide)
  | rolledBack hcall _ =>
    exact hcounted.of_eq hrunning rfl rfl rfl
      (show XChainPhase.rolledBack ≠ .committed by decide)
  | expired hcall _ _ =>
    exact hcounted.of_eq hrunning rfl rfl rfl (show XChainPhase.expired ≠ .committed by decide)

/-- An operation gets committed by the confirmation that its counter waits for. -/
theorem Change.completes (h : Change step opId op log op' log')
    (hcommitted : op'.phase = .committed) : ∃ chainId,
      step.call = .confirmCommit opId chainId op.expectedStateRoot ∧ op.Active step.timestamp ∧
        op.chainIds.length ≤ op.committedCount + 1 ∧ op'.chainIds = op.chainIds ∧
        log' = .confirmed chainId :: log := by
  have hrunning := ne_committed_of_running h.running
  cases h with
  | acknowledged chainId hcall hactive =>
    rw [AtomicXChainOp.acknowledge_phase] at hcommitted
    split_ifs at hcommitted
    exact absurd hcommitted hrunning
  | confirmed chainId hcall hactive =>
    rw [AtomicXChainOp.confirm_phase] at hcommitted
    split_ifs at hcommitted with hlast
    · exact ⟨chainId, hcall, hactive, by omega, op.confirm_chainIds, rfl⟩
    · exact absurd hcommitted hrunning
  | mismatched chainId root hcall hactive hne => cases hcommitted
  | rollback hcall _ => cases hcommitted
  | rolledBack hcall _ => cases hcommitted
  | expired hcall _ _ => cases hcommitted

/-- Every operation of a reached state counts its confirmations. -/
structure Bookkept (s : SyncState Addr) (opId : Hash) : Prop where
  silent : s.op opId = none → s.received opId = []
  counted : ∀ op, s.op opId = some op → Counted op (s.received opId)

theorem reached_bookkept (sha256 : List UInt8 → Hash) (steps : List (Step Addr)) (opId : Hash) :
    Bookkept (reached sha256 steps) opId := by
  refine reached_induction (P := fun s => Bookkept s opId) ?_ ?_ steps
  · constructor
    · intro _
      rfl
    · intro op hop
      cases hop
  · intro step s hs
    cases exec_effect sha256 step opId s with
    | kept hop hreceived =>
      constructor
      · intro hnone
        rw [hreceived]
        exact hs.silent (hop ▸ hnone)
      · intro op hsome
        rw [hreceived]
        exact hs.counted op (hop ▸ hsome)
    | opened op habsent hpresent hfresh hreceived =>
      constructor
      · intro hnone
        rw [hpresent] at hnone
        cases hnone
      · intro op' hop'
        obtain rfl := Option.some.inj (hpresent.symm.trans hop')
        have hphase : op.phase ≠ .committed := by
          rw [hfresh.phase]
          decide
        rw [hreceived, hs.silent habsent]
        exact ⟨hfresh.few, fun _ => hfresh.committed, fun _ => .inl rfl,
          fun hcommitted => absurd hcommitted hphase⟩
    | changed op op' hbefore hafter hchange =>
      constructor
      · intro hnone
        rw [hafter] at hnone
        cases hnone
      · intro op₁ hop₁
        obtain rfl := Option.some.inj (hafter.symm.trans hop₁)
        exact hchange.counted (hs.counted op hbefore)

end Counters

section Runs

/-- An operation over distinct chains is committed only by all of them. -/
def Atomic (sha256 : List UInt8 → Hash) (steps : List (Step Addr)) (opId : Hash) : Prop :=
  ∀ pre op, pre <+: steps → (reached sha256 pre).op opId = some op → op.chainIds.Nodup →
    op.phase = .committed → CommittedByAll op.chainIds ((reached sha256 pre).received opId)

/-- When the confirmation comes that the commit counter waits for, all of them came in turn. -/
def Disciplined (sha256 : List UInt8 → Hash) (steps : List (Step Addr)) (opId : Hash) : Prop :=
  ∀ pre step op chainId, pre ++ [step] <+: steps → (reached sha256 pre).op opId = some op →
    op.chainIds.Nodup → step.call = .confirmCommit opId chainId op.expectedStateRoot →
    op.Active step.timestamp → op.chainIds.length ≤ op.committedCount + 1 →
    InTurn op.chainIds (.confirmed chainId :: (reached sha256 pre).received opId)

theorem exec_confirm (sha256 : List UInt8 → Hash) {step : Step Addr} {opId : Hash}
    {s : SyncState Addr} {op : AtomicXChainOp Addr} {chainId : ℕ} (hop : s.op opId = some op)
    (hcall : step.call = .confirmCommit opId chainId op.expectedStateRoot)
    (hactive : op.Active step.timestamp) :
    (exec sha256 step s).op opId = some op.confirm ∧
      (exec sha256 step s).received opId = .confirmed chainId :: s.received opId := by
  simp only [exec, hcall, confirmCommit_match hop hactive]
  exact ⟨Function.update_self _ _ _, Function.update_self _ _ _⟩

theorem atomic_iff (sha256 : List UInt8 → Hash) (steps : List (Step Addr)) (opId : Hash) :
    Atomic sha256 steps opId ↔ Disciplined sha256 steps opId := by
  constructor
  · intro h pre step op chainId hsofar hop hdistinct hcall hactive hlast
    obtain ⟨hconfirmed, hreceived⟩ := exec_confirm sha256 hop hcall hactive
    rw [← reached_snoc] at hconfirmed hreceived
    have hbook := (reached_bookkept sha256 pre opId).counted op hop
    have hfew := hbook.few
    have hphase : op.confirm.phase = .committed := by
      rw [AtomicXChainOp.confirm_phase, if_pos]
      unfold maxParticipatingChains at hfew
      unfold maxU32
      omega
    have hall := h (pre ++ [step]) op.confirm hsofar hconfirmed
      (op.confirm_chainIds ▸ hdistinct) hphase
    have hcomplete :=
      ((reached_bookkept sha256 (pre ++ [step]) opId).counted _ hconfirmed).complete hphase
    rw [op.confirm_chainIds, hreceived] at hall hcomplete
    exact (committedByAll_iff hdistinct hcomplete).mp hall
  · intro h pre
    induction pre using List.reverseRecOn with
    | nil =>
      intro op _ hop
      cases hop
    | append_singleton pre step ih =>
      intro op' hsofar hop' hdistinct hcommitted
      have hbook := (reached_bookkept sha256 (pre ++ [step]) opId).counted op' hop'
      have hcomplete := hbook.complete hcommitted
      rw [reached_snoc] at hop' hcomplete ⊢
      cases exec_effect sha256 step opId (reached sha256 pre) with
      | kept hop hreceived =>
        rw [hreceived]
        exact ih op' ((List.prefix_append pre [step]).trans hsofar) (hop ▸ hop') hdistinct
          hcommitted
      | opened op habsent hpresent hfresh hreceived =>
        obtain rfl := Option.some.inj (hpresent.symm.trans hop')
        rw [hfresh.phase] at hcommitted
        cases hcommitted
      | changed op op₁ hbefore hafter hchange =>
        obtain rfl := Option.some.inj (hafter.symm.trans hop')
        obtain ⟨chainId, hcall, hactive, hlast, hids, hlog⟩ :=
          hchange.completes hcommitted
        rw [hids] at hdistinct hcomplete ⊢
        have hturn := h pre step op chainId hsofar hbefore hdistinct hcall hactive hlast
        rw [← hlog] at hturn
        exact (committedByAll_iff hdistinct hcomplete).mpr hturn

end Runs

section LoneChain

/-- Only chain 2 is heard of, and each of its messages comes twice. -/
def loneChain : List (Step ℕ) :=
  [opening, ⟨1001, 1, .acknowledgePrepare exampleDigest 2⟩,
    ⟨1002, 2, .acknowledgePrepare exampleDigest 2⟩, ⟨1003, 3, .confirmCommit exampleDigest 2 7⟩,
    ⟨1004, 4, .confirmCommit exampleDigest 2 7⟩]

/-- The operation is committed although chain 1 never spoke. -/
theorem lone_chain_commits :
    ¬ ∀ (sha256 : List UInt8 → Hash) (steps : List (Step ℕ)) (opId : Hash),
      Atomic sha256 steps opId := by
  intro h
  have hall := h (fun _ => exampleDigest) loneChain exampleDigest loneChain _ List.prefix_rfl rfl
    (by decide) rfl
  exact absurd (hall.prepared 1 (by decide)) (by decide)

end LoneChain

end CrossChain
