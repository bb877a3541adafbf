import MentorsMind.EscrowFactory.Effects

/-! What a relayer can have executed for a signer. -/
namespace EscrowFactory
open Outcome Soroban Shared

section Law

variable {Addr : Type} [DecidableEq Addr] {home : Addr}

/-- The nonce that a call uses up for the signer, if it succeeds. -/
def Call.usedNonce (signer : Addr) : Call Addr → Option ℕ
  | .executeMetaTx signedBy payload _ => if signedBy = signer then some payload.nonce else none
  | _ => none

/-- The accepted nonces of the signer, in the order of the run. -/
def acceptedNonces (escrowAddress : String → Addr → Addr → ℕ → Addr)
    (steps : List (Step Addr home)) (signer : Addr) : List ℕ :=
  (machine home escrowAddress).collect (fun _ step _ => step.2.usedNonce signer) (deployed Addr)
    steps

/-- Only what was signed is executed: an escrow is deployed with the parameters whose hash was
signed for this contract and action, a payload is accepted once and before its deadline, the
nonces of a signer are taken in order, and a rejected call takes none. -/
structure OnlyAsSigned (escrowAddress : String → Addr → Addr → ℕ → Addr)
    (signed : Addr → MetaTxPayload Addr → Prop) (paramsHash : DeployParams Addr → Hash)
    (steps : List (Step Addr home)) : Prop where
  bound : ∀ pre inv signer payload params t,
    (machine home escrowAddress).Executes (deployed Addr) steps pre
      (inv, .executeMetaTx signer payload params) t →
    (reached escrowAddress pre).escrowCount < t.escrowCount →
    signed signer payload ∧ payload.contractId = home ∧ payload.action = .deployEscrow ∧
      payload.paramsHash = paramsHash params
  once : ∀ pre pre' inv inv' signer payload params params' t t',
    (machine home escrowAddress).Executes (deployed Addr) steps pre
      (inv, .executeMetaTx signer payload params) t →
    (machine home escrowAddress).Executes (deployed Addr) steps pre'
      (inv', .executeMetaTx signer payload params') t' → pre = pre'
  inTime : ∀ pre inv signer payload params t,
    (machine home escrowAddress).Executes (deployed Addr) steps pre
      (inv, .executeMetaTx signer payload params) t → inv.timestamp < payload.deadline
  inOrder : ∀ signer, ∃ n, acceptedNonces escrowAddress steps signer = List.range n
  rejected : ∀ pre step e, pre ++ [step] <+: steps →
    (machine home escrowAddress).exec step (reached escrowAddress pre) = .error e →
    (reached escrowAddress (pre ++ [step])).nonces = (reached escrowAddress pre).nonces

end Law

section Steps

variable {Addr : Type} [DecidableEq Addr] {home : Addr}
  {escrowAddress : String → Addr → Addr → ℕ → Addr} {inv : Invocation Addr home}
  {s t : State Addr} {params : DeployParams Addr} {call : Call Addr}

omit [DecidableEq Addr] in
theorem Deployment.nonces {now : ℕ} (h : Deployment now s t params) : t.nonces = s.nonces := by
  cases h with
  | requested depHist started unmapped high eq => rw [eq]; rfl
  | deployed depHist escrow started unmapped low eq => rw [eq]; rfl

omit [DecidableEq Addr] in
/-- An amount up to the threshold is what makes the call deploy. -/
theorem Deployment.grows_iff {now : ℕ} (h : Deployment now s t params) :
    s.escrowCount < t.escrowCount ↔ params.amount ≤ highValueThreshold := by
  cases h with
  | requested depHist started unmapped high eq =>
    rw [eq]
    simp [State.request, high]
  | deployed depHist escrow started unmapped low eq =>
    rw [eq]
    simp [State.recordEscrow, low]

/-- A call takes the next nonce of a signer, or leaves the nonce of that signer. -/
theorem Effect.usedNonce (h : Effect inv s t call) (signer : Addr) :
    (call.usedNonce signer = some (s.nonces signer) ∧
        t.nonces signer = s.nonces signer + 1) ∨
      (call.usedNonce signer = none ∧ t.nonces signer = s.nonces signer) := by
  cases h with
  | initialized fresh eq => exact .inr ⟨rfl, by rw [eq]⟩
  | deployed deployment => exact .inr ⟨rfl, by rw [deployment.nonces]⟩
  | @relayed signedBy payload params nonces action accepted deployment =>
    obtain ⟨hconsumed, rfl⟩ := validateAndConsumeNonce_spec accepted
    rw [deployment.nonces, Call.usedNonce]
    by_cases hsame : signedBy = signer
    · subst hsame
      rw [if_pos rfl, hconsumed.nonce]
      exact .inl ⟨rfl, Function.update_self ..⟩
    · rw [if_neg hsame]
      exact .inr ⟨rfl, Function.update_of_ne (Ne.symm hsame) ..⟩
  | approved pending escrow signed found inTime eq => exact .inr ⟨rfl, by rw [eq]; rfl⟩
  | other isOther kept =>
    refine .inr ⟨?_, by rw [kept.nonces]⟩
    cases call with
    | executeMetaTx signedBy payload params =>
      exact absurd rfl (isOther.2.1 signedBy payload params)
    | _ => rfl

/-- What an accepted payload has passed. -/
theorem exec_consumable {signer : Addr} {payload : MetaTxPayload Addr}
    (hx : (machine home escrowAddress).exec (inv, .executeMetaTx signer payload params) s =
      .ok t) :
    payload.action = .deployEscrow ∧
      Consumable inv.timestamp home inv.authForArgs s.nonces signer payload ∧
      t.nonces signer = payload.nonce + 1 ∧
      (s.escrowCount < t.escrowCount ↔ params.amount ≤ highValueThreshold) := by
  have hexec : exec escrowAddress inv (.executeMetaTx signer payload params) s = .ok t := hx
  cases exec_effect hexec with
  | relayed nonces action accepted deployment =>
    obtain ⟨hconsumed, rfl⟩ := validateAndConsumeNonce_spec accepted
    refine ⟨action, hconsumed, ?_, deployment.grows_iff⟩
    rw [deployment.nonces, hconsumed.nonce]
    exact Function.update_self ..
  | other isOther kept => exact absurd rfl (isOther.2.1 signer payload params)

end Steps

section Runs

variable {Addr : Type} [DecidableEq Addr] {home : Addr}
  {escrowAddress : String → Addr → Addr → ℕ → Addr} {steps : List (Step Addr home)}

/-- The accepted nonces of a signer count up to the one that is stored. -/
theorem acceptedNonces_eq (escrowAddress : String → Addr → Addr → ℕ → Addr)
    (steps : List (Step Addr home)) (signer : Addr) :
    acceptedNonces escrowAddress steps signer =
      List.range ((reached escrowAddress steps).nonces signer) := by
  refine Machine.run_history (M := machine home escrowAddress)
    (P := fun steps s => acceptedNonces escrowAddress steps signer = List.range (s.nonces signer))
    rfl ?_ ?_ steps
  · intro pre step t ih hx
    unfold acceptedNonces at ih ⊢
    rw [Machine.collect_snoc_ok hx, ih]
    rcases (exec_effect hx).usedNonce signer with ⟨hused, hnext⟩ | ⟨hused, hsame⟩
    · rw [hused, hnext, List.range_succ]
      rfl
    · rw [hused, hsame]
      exact List.append_nil _
  · intro pre step e ih herror
    unfold acceptedNonces at ih ⊢
    rw [Machine.collect_snoc_error herror, ih]

theorem nonces_grow {pre : List (Step Addr home)} {step : Step Addr home} {t : State Addr}
    (hx : (machine home escrowAddress).Executes (deployed Addr) steps pre step t) {n : ℕ}
    {signer : Addr} (h : n < (reached escrowAddress pre).nonces signer) : n < t.nonces signer := by
  rcases (exec_effect hx.exec_eq).usedNonce signer with ⟨-, hnext⟩ | ⟨-, hsame⟩
  · rw [hnext]
    exact Nat.lt_succ_of_lt h
  · rw [hsame]
    exact h

/-- An accepted payload is not accepted again. -/
theorem not_accepted_later {pre pre' : List (Step Addr home)} {inv inv' : Invocation Addr home}
    {signer : Addr} {payload : MetaTxPayload Addr} {params params' : DeployParams Addr}
    {t t' : State Addr}
    (hx : (machine home escrowAddress).Executes (deployed Addr) steps pre
      (inv, .executeMetaTx signer payload params) t)
    (hx' : (machine home escrowAddress).Executes (deployed Addr) steps pre'
      (inv', .executeMetaTx signer payload params') t') : pre'.length ≤ pre.length := by
  by_contra hlater
  have hbefore : pre' <+: steps := (List.prefix_append pre' _).trans hx'.snoc_prefix
  have hsince : pre ++ [(inv, .executeMetaTx signer payload params)] <+: pre' := by
    apply List.prefix_of_prefix_length_le hx.snoc_prefix hbefore
    rw [List.length_append, List.length_singleton]
    omega
  obtain ⟨-, -, hnext, -⟩ := exec_consumable hx.exec_eq
  have hpassed : payload.nonce < (reached escrowAddress pre').nonces signer :=
    hx.kept (D := fun s => payload.nonce < s.nonces signer) (by omega)
      (fun mid step u hmid => nonces_grow hmid) pre' hsince hbefore
  obtain ⟨-, hconsumed, -, -⟩ := exec_consumable hx'.exec_eq
  have hnow : payload.nonce = (reached escrowAddress pre').nonces signer := hconsumed.nonce
  omega

/-- Where the host authorises only what a signer signed, only what was signed is executed if and
only if the hash of each payload that is accepted with an amount up to the threshold is that of
the parameters that it is submitted with. -/
theorem onlyAsSigned_iff {signed : Addr → MetaTxPayload Addr → Prop}
    (paramsHash : DeployParams Addr → Hash)
    (hhost : ∀ step ∈ steps, ∀ signer payload,
      step.1.authForArgs signer payload = true → signed signer payload) :
    OnlyAsSigned escrowAddress signed paramsHash steps ↔
      ∀ pre inv signer payload params t,
        (machine home escrowAddress).Executes (deployed Addr) steps pre
          (inv, .executeMetaTx signer payload params) t →
        params.amount ≤ highValueThreshold → payload.paramsHash = paramsHash params := by
  constructor
  · intro h pre inv signer payload params t hx hlow
    obtain ⟨-, -, -, hgrows⟩ := exec_consumable hx.exec_eq
    exact (h.bound pre inv signer payload params t hx (hgrows.mpr hlow)).2.2.2
  · intro hmatch
    constructor
    · intro pre inv signer payload params t hx hcount
      obtain ⟨haction, hconsumed, -, hgrows⟩ := exec_consumable hx.exec_eq
      exact ⟨hhost _ hx.mem signer payload hconsumed.authorized, hconsumed.contract, haction,
        hmatch pre inv signer payload params t hx (hgrows.mp hcount)⟩
    · intro pre pre' inv inv' signer payload params params' t t' hx hx'
      have hlength : pre.length = pre'.length :=
        le_antisymm (not_accepted_later hx' hx) (not_accepted_later hx hx')
      rw [hx.eq_take.1, hx'.eq_take.1, hlength]
    · intro pre inv signer payload params t hx
      obtain ⟨-, hconsumed, -, -⟩ := exec_consumable hx.exec_eq
      exact hconsumed.inTime
    · intro signer
      exact ⟨_, acceptedNonces_eq escrowAddress steps signer⟩
    · intro pre step e hpre herror
      rw [reached, Machine.run_snoc, Machine.apply_error herror]

end Runs

section Relays

/-- The parameters that the account 7 signed, with the account 8 as mentor. -/
def signedParams : DeployParams ℕ := ⟨8, 7, 500, 20, "session"⟩

/-- The mentor alone is hashed, which tells the parameters here apart. -/
def mentorHash (params : DeployParams ℕ) : Hash := BitVec.ofNat 256 params.mentor

def signedPayload : MetaTxPayload ℕ := ⟨0, 0, 4600, .deployEscrow, mentorHash signedParams⟩

/-- The one payload that an account signed. -/
def relayedAt (now : ℕ) : Invocation ℕ 0 :=
  obliging now fun signer payload => decide (signer = 7 ∧ payload = signedPayload)

/-- The relayer submits the payload with these parameters. -/
def relayRun (params : DeployParams ℕ) : List (Step ℕ 0) :=
  [(relayedAt 900, .initializeFactory 1 2),
    (relayedAt 1000, .executeMetaTx 7 signedPayload params)]

theorem relayRun_host (params : DeployParams ℕ) : ∀ step ∈ relayRun params, ∀ signer payload,
    step.1.authForArgs signer payload = true → signer = 7 ∧ payload = signedPayload := by
  intro step hstep signer payload hauth
  simp only [relayRun, List.mem_cons, List.not_mem_nil, or_false] at hstep
  rcases hstep with rfl | rfl
  · exact of_decide_eq_true hauth
  · exact of_decide_eq_true hauth

theorem onlyAsSigned_relayRun : OnlyAsSigned newAddress
    (fun signer payload => signer = 7 ∧ payload = signedPayload) mentorHash
    (relayRun signedParams) := by
  rw [onlyAsSigned_iff mentorHash (relayRun_host signedParams)]
  intro pre inv signer payload params t hx hlow
  have hmem := hx.mem
  simp only [relayRun, List.mem_cons, List.not_mem_nil, or_false] at hmem
  rcases hmem with h | h
  · cases h
  · cases h
    rfl

/-- The relayer puts another mentor in the place of the one that was signed. -/
theorem relayed_with_another_mentor :
    let params : DeployParams ℕ := { signedParams with mentor := 9 }
    (∀ step ∈ relayRun params, ∀ signer payload,
        step.1.authForArgs signer payload = true → signer = 7 ∧ payload = signedPayload) ∧
      mentorHash params ≠ mentorHash signedParams ∧
      ¬ OnlyAsSigned newAddress (fun signer payload => signer = 7 ∧ payload = signedPayload)
        mentorHash (relayRun params) := by
  refine ⟨relayRun_host _, by decide, ?_⟩
  intro h
  have hx : (machine 0 newAddress).Executes (deployed ℕ)
      (relayRun { signedParams with mentor := 9 })
      [(relayedAt 900, .initializeFactory 1 2)]
      (relayedAt 1000, .executeMetaTx 7 signedPayload { signedParams with mentor := 9 })
      (reached newAddress (relayRun { signedParams with mentor := 9 })) := ⟨[], rfl, rfl⟩
  obtain ⟨-, -, -, hmatch⟩ := h.bound _ _ _ _ _ _ hx (by decide)
  exact absurd hmatch (by decide)

end Relays

end EscrowFactory
