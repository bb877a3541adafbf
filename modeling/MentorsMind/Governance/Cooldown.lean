import MentorsMind.Governance.StatusMachine

/-! The cool-down between two cancellations of an admin. It is stored under the action with its
parameters, so that the kinds of two cancelled actions are seven days apart only as long as no
action of the same kind with other parameters was cancelled meanwhile. -/
namespace Governance
open Outcome Soroban

variable {Addr : Type} {home : Addr}

/-- The kinds of actions, without their parameters. -/
inductive ActionVariant where
  | updateFee
  | updateAutoRelease
  | addAsset
  | updateAdmin
  | executeCall
  | approveEmergencyRollback
  deriving DecidableEq

def ProposalAction.variant : ProposalAction Addr → ActionVariant
  | .updateFee _ => .updateFee
  | .updateAutoRelease _ => .updateAutoRelease
  | .addAsset _ => .addAsset
  | .updateAdmin _ => .updateAdmin
  | .executeCall _ _ _ => .executeCall
  | .approveEmergencyRollback _ _ => .approveEmergencyRollback

variable [DecidableEq Addr] {inv : Invocation Addr home} {s t : State Addr} {call : Call Addr}
  {steps pre later : List (Step Addr home)} {a : Step Addr home} {admin : Addr}
  {action : ProposalAction Addr} {now : ℕ}

/-- In the run, the call after `pre` cancels a proposal of the action for the admin. -/
def CancelsAt (steps pre : List (Step Addr home)) (admin : Addr) (action : ProposalAction Addr)
    (now : ℕ) : Prop :=
  ∃ inv id multisigActionId t p, (machine home).Executes (deployed Addr) steps pre
    (inv, .cancelProposal id multisigActionId) t ∧ (reached pre).admin = some admin ∧
      (reached pre).proposal id = some p ∧ p.action = action ∧ inv.timestamp = now

theorem CancelsAt.mono {bs : List (Step Addr home)} (h : CancelsAt steps pre admin action now)
    (hp : steps <+: bs) : CancelsAt bs pre admin action now := by
  obtain ⟨inv, id, multisigActionId, t, p, hx, hrest⟩ := h
  exact ⟨inv, id, multisigActionId, t, p, hx.mono hp, hrest⟩

theorem CancelsAt.before {other : Addr} {action' : ProposalAction Addr} {now' : ℕ}
    (h : CancelsAt steps pre admin action now) (h' : CancelsAt steps later other action' now')
    (hlt : pre.length < later.length) : CancelsAt later pre admin action now := by
  obtain ⟨inv, id, multisigActionId, t, p, hx, hrest⟩ := h
  obtain ⟨inv', id', multisigActionId', t', p', hx', -⟩ := h'
  exact ⟨inv, id, multisigActionId, t, p, hx.before hx' hlt, hrest⟩

theorem CancelsAt.length_lt (h : CancelsAt steps pre admin action now) :
    pre.length < steps.length := by
  obtain ⟨inv, id, multisigActionId, t, p, hx, -⟩ := h
  exact hx.length_lt

/-- What cancellations read and write: the records of the admin who cancels. -/
inductive Recording (inv : Invocation Addr home) (s t : State Addr) (call : Call Addr) : Prop where
  | cancelled (id : ℕ) (multisigActionId : Option ℕ) (p : Proposal Addr) (admin : Addr)
      (call_eq : call = .cancelProposal id multisigActionId) (stored : s.admin = some admin)
      (found : s.proposal id = some p)
      (cooled : ∀ last, s.cancelCooldown (admin, p.action) = some last →
        last + cancelCooldownSecs ≤ inv.timestamp)
      (escalated : cancelEscalationThreshold ≤ countRecentCancels s admin inv.timestamp →
        requireMultisigAction inv s inv.timestamp multisigActionId = .ok ())
      (cooldown : t.cancelCooldown =
        Function.update s.cancelCooldown (admin, p.action) (some inv.timestamp))
      (timestamps : t.cancelTimestamps = Function.update s.cancelTimestamps admin
        (recentCancels (s.cancelTimestamps admin) inv.timestamp ++ [inv.timestamp]))
  | other (call_ne : ∀ id multisigActionId, call ≠ .cancelProposal id multisigActionId)
      (cooldown : t.cancelCooldown = s.cancelCooldown)
      (timestamps : t.cancelTimestamps = s.cancelTimestamps)

theorem Effect.recording (h : Effect inv s t call) : Recording inv s t call := by
  cases h with
  | initialized fresh eq =>
    rw [eq]
    exact .other nofun rfl rfl
  | configured kept eq =>
    rw [eq]
    exact .other nofun rfl rfl
  | created proposer action made _ _ _ _ eq =>
    rw [eq]
    rcases made with rfl | ⟨escrow, rollbackId, rfl, -⟩
    · exact .other nofun rfl rfl
    · exact .other nofun rfl rfl
  | voted p weight _ _ _ _ _ _ _ eq =>
    rw [eq]
    exact .other nofun rfl rfl
  | failed p _ _ _ _ eq =>
    rw [eq]
    exact .other nofun rfl rfl
  | queued p timelock _ _ _ _ _ _ _ eq =>
    rw [eq]
    exact .other nofun rfl rfl
  | enacted p _ _ _ _ _ _ eq =>
    rw [eq]
    exact .other nofun rfl rfl
  | enactedQueued p timelock _ _ _ _ _ eq =>
    rw [eq]
    exact .other nofun rfl rfl
  | cancelled p admin stored _ found _ cooled escalated eq =>
    rw [eq]
    exact .cancelled _ _ p admin rfl stored found cooled escalated rfl rfl

/-- The cancellations of a run that has grown by a call that succeeded. -/
theorem cancelsAt_snoc_iff {early : List (Step Addr home)}
    (hx : (machine home).exec a (reached pre) = .ok t) :
    CancelsAt (pre ++ [a]) early admin action now ↔ CancelsAt pre early admin action now ∨
      early = pre ∧ CancelsAt (pre ++ [a]) pre admin action now := by
  constructor
  · intro h
    obtain ⟨inv, id, multisigActionId, u, p, hu, hrest⟩ := h
    rcases Machine.executes_append_singleton.mp hu with hbefore | ⟨rfl, hstep, hnow⟩
    · exact .inl ⟨inv, id, multisigActionId, u, p, hbefore, hrest⟩
    · exact .inr ⟨rfl, inv, id, multisigActionId, u, p, hu, hrest⟩
  · rintro (hbefore | ⟨rfl, hnow⟩)
    · exact hbefore.mono (List.prefix_append pre [a])
    · exact hnow

/-- The stored time is that of the last cancellation, and no cancellation was later. -/
structure Cooled (pre : List (Step Addr home)) (s : State Addr) : Prop where
  made : ∀ admin action last, s.cancelCooldown (admin, action) = some last →
    ∃ early, CancelsAt pre early admin action last
  last : ∀ early admin action now, CancelsAt pre early admin action now →
    ∃ last, s.cancelCooldown (admin, action) = some last ∧ now ≤ last

theorem Cooled.step (h : Cooled pre (reached pre))
    (hx : (machine home).exec a (reached pre) = .ok t) : Cooled (pre ++ [a]) t := by
  cases (exec_effect hx).recording with
  | other call_ne cooldown timestamps =>
    have hnone : ∀ admin action now, ¬ CancelsAt (pre ++ [a]) pre admin action now := by
      intro admin action now hnow
      obtain ⟨inv, id, multisigActionId, u, p, hu, -⟩ := hnow
      rcases Machine.executes_append_singleton.mp hu with hbefore | ⟨-, hstep, -⟩
      · exact absurd hbefore.length_lt (lt_irrefl _)
      · exact call_ne id multisigActionId (congrArg Prod.snd hstep).symm
    constructor
    · intro admin action last hlast
      rw [cooldown] at hlast
      obtain ⟨early, hearly⟩ := h.made admin action last hlast
      exact ⟨early, hearly.mono (List.prefix_append pre [a])⟩
    · intro early admin action now hearly
      rw [cooldown]
      rcases (cancelsAt_snoc_iff hx).mp hearly with hbefore | ⟨-, hnow⟩
      · exact h.last early admin action now hbefore
      · exact absurd hnow (hnone admin action now)
  | cancelled id multisigActionId p canceller call_eq stored found cooled escalated cooldown _ =>
    have hnow : CancelsAt (pre ++ [a]) pre canceller p.action a.1.timestamp := by
      refine ⟨a.1, id, multisigActionId, t, p, ?_, stored, found, rfl, rfl⟩
      rw [← call_eq]
      exact Machine.executes_snoc hx
    constructor
    · intro admin action last hlast
      rw [cooldown] at hlast
      obtain ⟨hkey, rfl⟩ | ⟨-, hother⟩ := Table.update_eq_some_iff.mp hlast
      · obtain ⟨rfl, rfl⟩ := Prod.mk.inj hkey
        exact ⟨pre, hnow⟩
      · obtain ⟨early, hearly⟩ := h.made admin action last hother
        exact ⟨early, hearly.mono (List.prefix_append pre [a])⟩
    · intro early admin action now hearly
      rw [cooldown]
      rcases (cancelsAt_snoc_iff hx).mp hearly with hbefore | ⟨-, hlast⟩
      · obtain ⟨last, hstored, hle⟩ := h.last early admin action now hbefore
        by_cases hkey : (admin, action) = (canceller, p.action)
        · rw [hkey] at hstored ⊢
          refine ⟨a.1.timestamp, Function.update_self .., ?_⟩
          exact hle.trans ((Nat.le_add_right last _).trans (cooled last hstored))
        · rw [Function.update_of_ne hkey]
          exact ⟨last, hstored, hle⟩
      · obtain ⟨inv, i, a, u, q, hu, hadmin, hfound, rfl, rfl⟩ := hlast
        rcases Machine.executes_append_singleton.mp hu with hbefore | ⟨-, rfl, -⟩
        · exact absurd hbefore.length_lt (lt_irrefl _)
        · obtain ⟨rfl, -⟩ := Call.cancelProposal.inj call_eq
          obtain rfl := Option.some.inj (stored.symm.trans hadmin)
          obtain rfl := Option.some.inj (found.symm.trans hfound)
          exact ⟨_, Function.update_self .., le_rfl⟩

theorem run_cooled (pre : List (Step Addr home)) : Cooled pre (reached pre) := by
  refine Machine.run_history (M := machine home) (P := Cooled) ?_ ?_ ?_ pre
  · constructor
    · intro admin action last hlast
      cases hlast
    · intro early admin action now hearly
      exact absurd hearly.length_lt (Nat.not_lt_zero _)
  · intro pre step t hpre hx
    exact hpre.step hx
  · intro pre step e hpre herror
    constructor
    · intro admin action last hlast
      obtain ⟨early, hearly⟩ := hpre.made admin action last hlast
      exact ⟨early, hearly.mono (List.prefix_append pre [step])⟩
    · intro early admin action now hearly
      obtain ⟨inv, id, multisigActionId, u, p, hu, hrest⟩ := hearly
      rw [Machine.executes_snoc_error herror] at hu
      exact hpre.last early admin action now ⟨inv, id, multisigActionId, u, p, hu, hrest⟩

/-- Two cancellations of an admin that are of the same kind are seven days apart. -/
def Spaced (steps : List (Step Addr home)) : Prop :=
  ∀ pre later admin action action' now now', CancelsAt steps pre admin action now →
    CancelsAt steps later admin action' now' → pre.length < later.length →
      action.variant = action'.variant → now + cancelCooldownSecs ≤ now'

/-- The cancellations of an admin are spaced exactly as long as none of them finds a cool-down
running that was stored for the same kind of action with other parameters. -/
theorem spaced_iff (steps : List (Step Addr home)) :
    Spaced steps ↔ ∀ pre admin action now, CancelsAt steps pre admin action now →
      ∀ other last, other ≠ action → other.variant = action.variant →
        (reached pre).cancelCooldown (admin, other) = some last →
          last + cancelCooldownSecs ≤ now := by
  constructor
  · intro hspaced pre admin action now hnow other last _ hvariant hlast
    obtain ⟨early, hearly⟩ := (run_cooled pre).made admin other last hlast
    have hprefix : pre <+: steps := by
      obtain ⟨inv, id, multisigActionId, t, p, hx, -⟩ := hnow
      exact (List.prefix_append pre [_]).trans hx.snoc_prefix
    exact hspaced early pre admin other action last now (hearly.mono hprefix) hnow
      hearly.length_lt hvariant
  · intro hclear pre later admin action action' now now' hpre hlater hlt hvariant
    obtain ⟨last, hlast, hle⟩ := (run_cooled later).last pre admin action now
      (hpre.before hlater hlt)
    have hcooled : last + cancelCooldownSecs ≤ now' := by
      by_cases hsame : action = action'
      · subst hsame
        obtain ⟨inv, id, multisigActionId, t, p, hx, hadmin, hfound, rfl, rfl⟩ := hlater
        have hexec : exec inv (.cancelProposal id multisigActionId) (reached later) = .ok t :=
          hx.exec_eq
        cases (exec_effect hexec).recording with
        | other call_ne _ _ => exact absurd rfl (call_ne id multisigActionId)
        | cancelled i a q canceller call_eq stored found cooled _ _ _ =>
          obtain ⟨rfl, -⟩ := Call.cancelProposal.inj call_eq
          obtain rfl := Option.some.inj (stored.symm.trans hadmin)
          obtain rfl := Option.some.inj (found.symm.trans hfound)
          exact cooled last hlast
      · exact hclear later admin action' now' hlater action last hsame hvariant hlast
    exact (Nat.add_le_add_right hle _).trans hcooled

/-- Two changes of the fee are proposed, and cancelled at the same moment. -/
def feesProposed : List (Step ℕ 0) :=
  [(answered 1, .config (.initializeGovernance 1 2 3 none none none none none)),
    (answered 1, .createProposal 4 (.updateFee 300)),
    (answered 1, .createProposal 4 (.updateFee 500))]

def feesRun : List (Step ℕ 0) :=
  feesProposed ++ [(answered 10, .cancelProposal 1 none)] ++ [(answered 10, .cancelProposal 2 none)]

theorem feesRun_first : CancelsAt feesRun feesProposed 1 (.updateFee 300) 10 := by
  have hchanged : reached (feesProposed ++ [(answered 10, .cancelProposal 1 none)]) ≠
      reached feesProposed := by
    intro hsame
    exact absurd (congrArg (fun s => s.cancelCount 1) hsame) (by decide)
  have hx := Machine.executes_of_run_ne hchanged
  exact ⟨_, 1, none, _, _, hx.append _, rfl, rfl, rfl, rfl⟩

theorem feesRun_second : CancelsAt feesRun
    (feesProposed ++ [(answered 10, .cancelProposal 1 none)]) 1 (.updateFee 500) 10 := by
  have hchanged : reached feesRun ≠
      reached (feesProposed ++ [(answered 10, .cancelProposal 1 none)]) := by
    intro hsame
    exact absurd (congrArg (fun s => s.cancelCount 1) hsame) (by decide)
  have hx := Machine.executes_of_run_ne hchanged
  exact ⟨_, 2, none, _, _, hx, rfl, rfl, rfl, rfl⟩

theorem feesRun_not_spaced : ¬ Spaced feesRun := by
  intro hspaced
  have hapart := hspaced _ _ 1 _ _ 10 10 feesRun_first feesRun_second (by decide) rfl
  exact absurd hapart (by decide)

end Governance
