import MentorsMind.EscrowFactory.Effects

/-! The escrows that the factory has deployed, and who let it deploy the large ones. -/
namespace EscrowFactory
open Outcome Soroban Shared

section Law

variable {Addr : Type} {home : Addr}

def State.mapped (s : State Addr) : Set String :=
  {sessionId | (s.escrowMapping sessionId).isSome = true}

/-- The count is that of the sessions with an escrow, and the list holds each of them once. -/
structure State.Listed (s : State Addr) : Prop where
  finite : s.mapped.Finite
  count : s.mapped.ncard = s.escrowCount
  taken : ∀ i, (s.escrowList i).isSome = true ↔ 1 ≤ i ∧ i ≤ s.escrowCount
  stored : ∀ i info, s.escrowList i = some info →
    s.escrowMapping info.sessionId = some info.address
  listed : ∀ sessionId ∈ s.mapped, ∃ i info, s.escrowList i = some info ∧
    info.sessionId = sessionId
  once : ∀ i j info info', s.escrowList i = some info → s.escrowList j = some info' →
    info.sessionId = info'.sessionId → i = j

/-- The admin, or an address that the admin has put into the configuration. -/
def State.Configured (s : State Addr) (account : Addr) : Prop :=
  some account ∈ [s.admin, s.implementation, s.pauseGuardian, s.anomalyDetector,
    s.interfaceRegistry, s.healthDashboard]

/-- The amount of the escrow that a call asks for in the state that it finds. -/
def Call.amount (s : State Addr) : Call Addr → Option ℤ
  | .deployEscrow params => some params.amount
  | .executeMetaTx _ _ params => some params.amount
  | .approveHighValueSession _ sessionId =>
      (s.pendingHighValueSession sessionId).map PendingSession.amount
  | _ => none

variable [DecidableEq Addr]

/-- What a run of the factory is to guarantee: the escrow of a session stays; an amount above the
threshold is deployed only on an approval that a configured address signs in time; an approval of
an expired request deploys nothing and ends it; and the count and the list are right. -/
structure SafeDeployments (escrowAddress : String → Addr → Addr → ℕ → Addr)
    (steps : List (Step Addr home)) : Prop where
  kept : ∀ pre step t sessionId escrow,
    (machine home escrowAddress).Executes (deployed Addr) steps pre step t →
    (reached escrowAddress pre).escrowMapping sessionId = some escrow →
    t.escrowMapping sessionId = some escrow
  approved : ∀ pre step t amount,
    (machine home escrowAddress).Executes (deployed Addr) steps pre step t →
    (reached escrowAddress pre).escrowCount < t.escrowCount →
    step.2.amount (reached escrowAddress pre) = some amount → highValueThreshold < amount →
    ∃ multisig sessionId pending, step.2 = .approveHighValueSession multisig sessionId ∧
      step.1.auth multisig = true ∧ (reached escrowAddress pre).Configured multisig ∧
      (reached escrowAddress pre).pendingHighValueSession sessionId = some pending ∧
      ¬ pending.Expired step.1.timestamp
  expired : ∀ pre inv multisig sessionId pending,
    pre ++ [(inv, .approveHighValueSession multisig sessionId)] <+: steps →
    inv.auth multisig = true →
    (reached escrowAddress pre).pendingHighValueSession sessionId = some pending →
    pending.Expired inv.timestamp →
    let after := reached escrowAddress
      (pre ++ [(inv, .approveHighValueSession multisig sessionId)])
    after.escrowCount = (reached escrowAddress pre).escrowCount ∧
      after.pendingHighValueSession sessionId = none
  listed : ∀ pre, pre <+: steps → (reached escrowAddress pre).Listed

end Law

section Steps

variable {Addr : Type} {home : Addr}
  {inv : Invocation Addr home} {s t : State Addr} {call : Call Addr}

/-- An escrow more, for the session of the given entry. -/
structure Grown (s t : State Addr) (info : EscrowInfo Addr) : Prop where
  mapping : t.escrowMapping = Function.update s.escrowMapping info.sessionId (some info.address)
  list : t.escrowList = Function.update s.escrowList (s.escrowCount + 1) (some info)
  count : t.escrowCount = s.escrowCount + 1

/-- What a call does to the escrows. -/
inductive Turn (inv : Invocation Addr home) (s t : State Addr) (call : Call Addr) : Prop where
  | kept (mapping : t.escrowMapping = s.escrowMapping) (list : t.escrowList = s.escrowList)
      (count : t.escrowCount = s.escrowCount)
  | grown (escrow : Addr) (params : DeployParams Addr)
      (amount : call.amount s = some params.amount)
      (fresh : s.escrowMapping params.sessionId = none ∧ params.amount ≤ highValueThreshold ∨
        ∃ multisig pending, call = .approveHighValueSession multisig params.sessionId ∧
          inv.auth multisig = true ∧
          s.pendingHighValueSession params.sessionId = some pending ∧
          ¬ pending.Expired inv.timestamp)
      (grown : Grown s t
        ⟨escrow, params.sessionId, params.mentor, params.learner, inv.timestamp⟩)

/-- The requests are for amounts above the threshold. -/
def RequestsHigh (s : State Addr) : Prop :=
  ∀ sessionId pending, s.pendingHighValueSession sessionId = some pending →
    highValueThreshold < pending.amount

/-- Before the contract is initialised it has no escrows, and no requests. -/
structure Fresh (s : State Addr) : Prop where
  count : s.admin = none → s.escrowCount = 0
  pending : s.admin = none → ∀ sessionId, s.pendingHighValueSession sessionId = none

theorem fresh_of_started (h : s.admin.isSome = true) : Fresh s := by
  have hsome := Option.isSome_iff_ne_none.mp h
  constructor
  · intro hnone
    exact absurd hnone hsome
  · intro hnone
    exact absurd hnone hsome

theorem Deployment.started {u : State Addr} {now : ℕ} {params : DeployParams Addr}
    (h : Deployment now u t params) : t.admin.isSome = true := by
  cases h with
  | requested depHist started unmapped high eq =>
    rw [eq]
    exact started
  | deployed depHist escrow started unmapped low eq =>
    rw [eq]
    exact started

theorem Deployment.turn {u : State Addr} {now : ℕ} {params : DeployParams Addr}
    (h : Deployment now u t params) (hnow : now = inv.timestamp)
    (hmapping : u.escrowMapping = s.escrowMapping) (hlist : u.escrowList = s.escrowList)
    (hcount : u.escrowCount = s.escrowCount) (hamount : call.amount s = some params.amount) :
    Turn inv s t call := by
  subst hnow
  cases h with
  | requested depHist started unmapped high eq =>
    rw [eq]
    exact .kept hmapping hlist hcount
  | deployed depHist escrow started unmapped low eq =>
    rw [hmapping] at unmapped
    rw [eq]
    refine .grown escrow params hamount (.inl ⟨unmapped, low⟩) ⟨?_, ?_, ?_⟩
    · rw [← hmapping]
      rfl
    · rw [← hlist, ← hcount]
      rfl
    · rw [← hcount]
      rfl

theorem Deployment.requestsHigh {u : State Addr} {now : ℕ} {params : DeployParams Addr}
    (h : Deployment now u t params) (hu : RequestsHigh u) : RequestsHigh t := by
  cases h with
  | requested depHist started unmapped high eq =>
    rw [eq]
    exact Table.forall_update hu high
  | deployed depHist escrow started unmapped low eq =>
    rw [eq]
    exact hu

variable [DecidableEq Addr]

theorem Effect.turn (h : Effect inv s t call) (hs : Fresh s) : Turn inv s t call := by
  cases h with
  | initialized fresh eq =>
    rw [eq]
    exact .kept rfl rfl (hs.count fresh).symm
  | deployed deployment => exact deployment.turn rfl rfl rfl rfl rfl
  | relayed nonces action accepted deployment => exact deployment.turn rfl rfl rfl rfl rfl
  | @approved multisig sessionId pending escrow signed found inTime eq =>
    rw [eq]
    refine .grown escrow (pending.deployParams sessionId) ?_
      (.inr ⟨multisig, pending, rfl, signed, found, inTime⟩) ⟨rfl, rfl, rfl⟩
    rw [Call.amount, found]
    rfl
  | other isOther kept => exact .kept kept.mapping kept.list kept.count

theorem Effect.fresh (h : Effect inv s t call) (hs : Fresh s) : Fresh t := by
  cases h with
  | initialized fresh eq =>
    rw [eq]
    exact fresh_of_started rfl
  | deployed deployment => exact fresh_of_started deployment.started
  | relayed nonces action accepted deployment => exact fresh_of_started deployment.started
  | @approved multisig sessionId pending escrow signed found inTime eq =>
    have hstarted : s.admin ≠ none := by
      intro hnone
      rw [hs.pending hnone sessionId] at found
      cases found
    rw [eq]
    exact fresh_of_started (Option.isSome_iff_ne_none.mpr hstarted)
  | other isOther kept =>
    have hback : t.admin = none → s.admin = none := by
      intro hnone
      by_contra hsome
      have hstarted := kept.started (Option.isSome_iff_ne_none.mpr hsome)
      rw [hnone] at hstarted
      cases hstarted
    constructor
    · intro hnone
      rw [kept.count]
      exact hs.count (hback hnone)
    · intro hnone
      rw [kept.pending]
      exact hs.pending (hback hnone)

theorem Effect.requestsHigh (h : Effect inv s t call) (hs : RequestsHigh s) :
    RequestsHigh t := by
  cases h with
  | initialized fresh eq =>
    rw [eq]
    exact hs
  | deployed deployment => exact deployment.requestsHigh hs
  | relayed nonces action accepted deployment => exact deployment.requestsHigh hs
  | approved pending escrow signed found inTime eq =>
    rw [eq]
    intro sessionId other hother
    exact hs sessionId other (Table.erase_eq_some_iff.mp hother).2
  | other isOther kept =>
    unfold RequestsHigh
    rw [kept.pending]
    exact hs

end Steps

section Lists

variable {Addr : Type} {s t : State Addr}

theorem deployed_listed : (deployed Addr).Listed where
  finite := by simp [State.mapped, deployed]
  count := by simp [State.mapped, deployed]
  taken i := by
    simp only [deployed]
    simp
    omega
  stored i info h := by cases h
  listed sessionId h := by cases h
  once i j info info' h := by cases h

theorem State.Listed.congr (hs : s.Listed) (hmapping : t.escrowMapping = s.escrowMapping)
    (hlist : t.escrowList = s.escrowList) (hcount : t.escrowCount = s.escrowCount) :
    t.Listed := by
  have hmapped : t.mapped = s.mapped := by
    unfold State.mapped
    rw [hmapping]
  constructor
  · rw [hmapped]
    exact hs.finite
  · rw [hmapped, hcount]
    exact hs.count
  · rw [hlist, hcount]
    exact hs.taken
  · rw [hlist, hmapping]
    exact hs.stored
  · rw [hlist, hmapped]
    exact hs.listed
  · rw [hlist]
    exact hs.once

theorem Grown.mapped {info : EscrowInfo Addr} (h : Grown s t info) :
    t.mapped = insert info.sessionId s.mapped := by
  ext sessionId
  rw [Set.mem_insert_iff, State.mapped, State.mapped, Set.mem_ofPred_eq, Set.mem_ofPred_eq,
    h.mapping]
  by_cases hsame : sessionId = info.sessionId
  · rw [hsame, Function.update_self]
    simp
  · rw [Function.update_of_ne hsame]
    simp [hsame]

/-- The new entry is the last one, and the only one of its session. -/
theorem Grown.listed {info : EscrowInfo Addr} (h : Grown s t info) (hs : s.Listed)
    (hfresh : s.escrowMapping info.sessionId = none) : t.Listed := by
  have hunmapped : info.sessionId ∉ s.mapped := by
    rw [State.mapped, Set.mem_ofPred_eq, hfresh]
    simp
  have hother : ∀ i old, s.escrowList i = some old → old.sessionId ≠ info.sessionId := by
    intro i old hold heq
    have hstored := hs.stored i old hold
    rw [heq, hfresh] at hstored
    cases hstored
  have hlast : ∀ {i old}, s.escrowList i = some old → i ≠ s.escrowCount + 1 := by
    intro i old hold
    have htaken := (hs.taken i).mp (by rw [hold]; rfl)
    omega
  constructor
  · rw [h.mapped]
    exact hs.finite.insert _
  · rw [h.mapped, Set.ncard_insert_of_notMem hunmapped hs.finite, hs.count, h.count]
  · intro i
    rw [h.list, h.count]
    by_cases hi : i = s.escrowCount + 1
    · rw [hi, Function.update_self]
      simp
    · rw [Function.update_of_ne hi, hs.taken i]
      omega
  · rw [h.list, h.mapping]
    apply Table.forall_update
    · intro i old hold
      rw [Function.update_of_ne (hother i old hold)]
      exact hs.stored i old hold
    · exact Function.update_self ..
  · intro sessionId hsession
    rw [h.mapped, Set.mem_insert_iff] at hsession
    rw [h.list]
    rcases hsession with rfl | hold
    · exact ⟨_, info, Function.update_self .., rfl⟩
    · obtain ⟨i, old, hi, hsame⟩ := hs.listed sessionId hold
      refine ⟨i, old, ?_, hsame⟩
      rw [Function.update_of_ne (hlast hi)]
      exact hi
  · intro i j old old' hi hj hsame
    rw [h.list] at hi hj
    rcases Table.update_eq_some_iff.mp hi with ⟨rfl, rfl⟩ | ⟨-, hi⟩
    · rcases Table.update_eq_some_iff.mp hj with ⟨rfl, -⟩ | ⟨-, hj⟩
      · rfl
      · exact absurd hsame.symm (hother j old' hj)
    · rcases Table.update_eq_some_iff.mp hj with ⟨rfl, rfl⟩ | ⟨-, hj⟩
      · exact absurd hsame (hother i old hi)
      · exact hs.once i j old old' hi hj hsame

/-- Where the count is right before and after, the session had no escrow. -/
theorem Grown.unmapped {info : EscrowInfo Addr} (h : Grown s t info) (hs : s.Listed)
    (ht : t.Listed) : s.escrowMapping info.sessionId = none := by
  by_contra hsome
  have hmem : info.sessionId ∈ s.mapped := Option.isSome_iff_ne_none.mpr hsome
  have hcount := ht.count
  rw [h.mapped, Set.insert_eq_of_mem hmem, hs.count, h.count] at hcount
  omega

end Lists

section Runs

variable {Addr : Type} [DecidableEq Addr] {home : Addr}
  {escrowAddress : String → Addr → Addr → ℕ → Addr} {steps : List (Step Addr home)}
  {inv : Invocation Addr home} {s t : State Addr} {multisig : Addr} {sessionId : String}

theorem run_fresh (escrowAddress : String → Addr → Addr → ℕ → Addr)
    (steps : List (Step Addr home)) : Fresh (reached escrowAddress steps) := by
  refine Machine.run_invariant ?_ ?_ steps
  · exact ⟨fun _ => rfl, fun _ _ => rfl⟩
  · intro step s t hs hx
    exact (exec_effect hx).fresh hs

theorem run_requestsHigh (escrowAddress : String → Addr → Addr → ℕ → Addr)
    (steps : List (Step Addr home)) : RequestsHigh (reached escrowAddress steps) := by
  refine Machine.run_invariant ?_ ?_ steps
  · intro sessionId pending h
    cases h
  · intro step s t hs hx
    exact (exec_effect hx).requestsHigh hs

/-- What an approval that succeeds finds, and leaves. -/
theorem exec_approve
    (hx : (machine home escrowAddress).exec (inv, .approveHighValueSession multisig sessionId) s =
      .ok t) :
    ∃ pending info, inv.auth multisig = true ∧
      s.pendingHighValueSession sessionId = some pending ∧ ¬ pending.Expired inv.timestamp ∧
      info.sessionId = sessionId ∧ Grown s t info := by
  have hexec : exec escrowAddress inv (.approveHighValueSession multisig sessionId) s = .ok t := hx
  cases exec_effect hexec with
  | approved pending escrow signed found inTime eq =>
    rw [eq]
    exact ⟨pending, ⟨escrow, sessionId, pending.mentor, pending.learner, inv.timestamp⟩, signed,
      found, inTime, rfl, ⟨rfl, rfl, rfl⟩⟩
  | other isOther kept => exact absurd rfl (isOther.2.2 multisig sessionId)

/-- An approval of a request that has expired changes nothing. -/
theorem apply_expired {pending : PendingSession Addr}
    (hfound : s.pendingHighValueSession sessionId = some pending)
    (hexpired : pending.Expired inv.timestamp) :
    (machine home escrowAddress).apply s (inv, .approveHighValueSession multisig sessionId) =
      s := by
  obtain ⟨t, hx, -⟩ | ⟨e, -, hsame⟩ := Machine.apply_cases (machine home escrowAddress) s
    (inv, .approveHighValueSession multisig sessionId)
  · obtain ⟨other, -, -, hother, hinTime, -⟩ := exec_approve hx
    obtain rfl := Option.some.inj (hfound.symm.trans hother)
    exact absurd hexpired hinTime
  · exact hsame

/-- Where approvals meet sessions without an escrow, so does every call that deploys one. -/
theorem unmapped_of_grown {step : Step Addr home} {pre : List (Step Addr home)}
    {params : DeployParams Addr}
    (happroved : ∀ pre inv multisig sessionId t,
      (machine home escrowAddress).Executes (deployed Addr) steps pre
        (inv, .approveHighValueSession multisig sessionId) t →
      (reached escrowAddress pre).escrowMapping sessionId = none)
    (hx : (machine home escrowAddress).Executes (deployed Addr) steps pre step t)
    (hfresh : (reached escrowAddress pre).escrowMapping params.sessionId = none ∧
        params.amount ≤ highValueThreshold ∨
      ∃ multisig pending, step.2 = .approveHighValueSession multisig params.sessionId ∧
        step.1.auth multisig = true ∧
        (reached escrowAddress pre).pendingHighValueSession params.sessionId = some pending ∧
        ¬ pending.Expired step.1.timestamp) :
    (reached escrowAddress pre).escrowMapping params.sessionId = none := by
  rcases hfresh with ⟨hunmapped, -⟩ | ⟨multisig, pending, hcall, -⟩
  · exact hunmapped
  · obtain ⟨inv, call⟩ := step
    obtain rfl : call = _ := hcall
    exact happroved pre inv multisig params.sessionId t hx

/-- The deployments are safe if and only if each approval that succeeds is signed for a configured
address and meets a session without an escrow, and none that is signed meets an expired request. -/
theorem safeDeployments_iff :
    SafeDeployments escrowAddress steps ↔
      (∀ pre inv multisig sessionId t,
        (machine home escrowAddress).Executes (deployed Addr) steps pre
          (inv, .approveHighValueSession multisig sessionId) t →
        (reached escrowAddress pre).Configured multisig ∧
          (reached escrowAddress pre).escrowMapping sessionId = none) ∧
      ∀ pre inv multisig sessionId pending,
        pre ++ [(inv, .approveHighValueSession multisig sessionId)] <+: steps →
        inv.auth multisig = true →
        (reached escrowAddress pre).pendingHighValueSession sessionId = some pending →
        ¬ pending.Expired inv.timestamp := by
  constructor
  · intro h
    constructor
    · intro pre inv multisig sessionId t hx
      obtain ⟨pending, info, -, hfound, -, hsession, hgrown⟩ := exec_approve hx.exec_eq
      have hgrows : (reached escrowAddress pre).escrowCount < t.escrowCount := by
        rw [hgrown.count]
        exact Nat.lt_succ_self _
      have hamount : Call.amount (reached escrowAddress pre)
          (.approveHighValueSession multisig sessionId) = some pending.amount := by
        rw [Call.amount, hfound]
        rfl
      obtain ⟨_, _, _, hcall, -, hconfigured, -, -⟩ := h.approved pre _ t pending.amount hx hgrows
        hamount (run_requestsHigh escrowAddress pre sessionId pending hfound)
      obtain ⟨rfl, rfl⟩ := Call.approveHighValueSession.inj hcall
      have hbefore := h.listed pre ((List.prefix_append pre _).trans hx.snoc_prefix)
      have hafter := h.listed _ hx.snoc_prefix
      rw [reached, hx.run_eq] at hafter
      rw [← hsession]
      exact ⟨hconfigured, hgrown.unmapped hbefore hafter⟩
    · intro pre inv multisig sessionId pending hpre hsigned hfound hexpired
      have hend := (h.expired pre inv multisig sessionId pending hpre hsigned hfound hexpired).2
      rw [reached, Machine.run_snoc, apply_expired hfound hexpired] at hend
      rw [reached, hend] at hfound
      cases hfound
  · rintro ⟨hexecuted, hinTime⟩
    have happroved := fun pre inv multisig sessionId t hx =>
      (hexecuted pre inv multisig sessionId t hx).2
    constructor
    · intro pre step t sessionId escrow hx hmapped
      cases (exec_effect hx.exec_eq).turn (run_fresh escrowAddress pre) with
      | kept mapping list count =>
        rw [mapping]
        exact hmapped
      | grown escrow' params amount fresh grown =>
        have hunmapped := unmapped_of_grown happroved hx fresh
        have hother : sessionId ≠ params.sessionId := by
          rintro rfl
          rw [hunmapped] at hmapped
          cases hmapped
        rw [grown.mapping, Function.update_of_ne hother]
        exact hmapped
    · intro pre step t amount hx hgrows hamount hhigh
      cases (exec_effect hx.exec_eq).turn (run_fresh escrowAddress pre) with
      | kept mapping list count =>
        rw [count] at hgrows
        exact absurd hgrows (lt_irrefl _)
      | grown escrow params asked fresh grown =>
        obtain rfl := Option.some.inj (hamount.symm.trans asked)
        rcases fresh with ⟨-, hlow⟩ | ⟨multisig, pending, hcall, hsigned, hfound, htime⟩
        · exact absurd hhigh (not_lt.mpr hlow)
        · obtain ⟨inv, call⟩ := step
          obtain rfl : call = _ := hcall
          exact ⟨multisig, params.sessionId, pending, rfl, hsigned,
            (hexecuted pre inv multisig params.sessionId t hx).1, hfound, htime⟩
    · intro pre inv multisig sessionId pending hpre hsigned hfound hexpired
      exact absurd hexpired (hinTime pre inv multisig sessionId pending hpre hsigned hfound)
    · refine Machine.run_invariant_of_executes (M := machine home escrowAddress)
        deployed_listed ?_
      intro pre step t hx hlisted
      cases (exec_effect hx.exec_eq).turn (run_fresh escrowAddress pre) with
      | kept mapping list count => exact hlisted.congr mapping list count
      | grown escrow params amount fresh grown =>
        exact grown.listed hlisted (unmapped_of_grown happroved hx fresh)

end Runs

section Approvals

def signedAt (now : ℕ) : Invocation ℕ 0 := obliging now fun _ _ => false

/-- Account 9, whom nobody configured, approves a request for a session that has an escrow. -/
def overwritingRun : List (Step ℕ 0) :=
  [(signedAt 900, .initializeFactory 1 2),
    (signedAt 1000, .deployEscrow ⟨8, 7, 60000000000, 20, "session"⟩),
    (signedAt 1001, .deployEscrow ⟨8, 7, 500, 20, "session"⟩),
    (signedAt 1002, .approveHighValueSession 9 "session")]

/-- The admin approves a request after more than two days. -/
def lateRun : List (Step ℕ 0) :=
  [(signedAt 900, .initializeFactory 1 2),
    (signedAt 1000, .deployEscrow ⟨8, 7, 60000000000, 20, "session"⟩),
    (signedAt 200000, .approveHighValueSession 1 "session")]

theorem overwritten_and_never_removed :
    ¬ SafeDeployments newAddress overwritingRun ∧ ¬ SafeDeployments newAddress lateRun := by
  constructor
  · intro h
    have hx : (machine 0 newAddress).Executes (deployed ℕ) overwritingRun
        (overwritingRun.take 3) (signedAt 1002, .approveHighValueSession 9 "session")
        (reached newAddress overwritingRun) := ⟨[], rfl, rfl⟩
    have hsame := h.kept _ _ _ "session" 101 hx (by decide)
    exact absurd hsame (by decide)
  · intro h
    have hend := h.expired (lateRun.take 2) (signedAt 200000) 1 "session"
      ⟨8, 7, 60000000000, 20, 1000⟩ List.prefix_rfl (by decide) (by decide) (by decide)
    exact absurd hend.2 (by decide)

end Approvals

end EscrowFactory
