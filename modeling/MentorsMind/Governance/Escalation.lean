import MentorsMind.Governance.Cooldown
import MentorsMind.Lib.SlidingWindow
import MentorsMind.MultisigAdmin.Proposals

/-! The escalation of cancellations. The contract runs together with the instances of the multisig
that it asks: beyond three cancellations of an admin in thirty days each takes an action of the
multisig that has its approvals, whatever it is for, and uses it up. -/
namespace Governance
open Outcome Soroban

variable {Addr Val : Type} {home : Addr}

/-- The contract, and the multisigs at the addresses where they are. -/
structure World (Addr Val : Type) where
  governance : State Addr
  multisig : Addr → MultisigAdmin.State Addr Val

def World.deployed (Addr Val : Type) : World Addr Val where
  governance := Governance.deployed Addr
  multisig _ := MultisigAdmin.deployed Addr Val

/-- What `cancel_proposal` reads of a record of the multisig. -/
def recordInfo (p : MultisigAdmin.ProposalRecord Addr Val) : MultisigProposalInfo :=
  ⟨p.approvalCount, p.expiry, p.executed, p.cancelled⟩

/-- The invocation in which `cancel_proposal` calls the multisig. It needs no signatures. -/
def Invocation.visit (inv : Invocation Addr home) (accepts : MultisigAdmin.Action Addr Val → Bool)
    (multisig : Addr) : MultisigAdmin.Invocation Addr Val multisig where
  timestamp := inv.timestamp
  sequence := inv.sequence
  auth _ := false
  auth_home := rfl
  accepts := accepts
  installed _ := false

/-- The action of the multisig that a cancellation beyond the third executes. -/
def escalation (s : State Addr) (now : ℕ) : Call Addr → Option (Addr × ℕ)
  | .cancelProposal _ multisigActionId => do
      let admin ← s.admin
      if cancelEscalationThreshold ≤ countRecentCancels s admin now then do
        let multisig ← s.multisigAdmin
        let actionId ← multisigActionId
        pure (multisig, actionId)
      else none
  | _ => none

variable [DecidableEq Addr]

/-- The invocation with the answers that the multisigs give. -/
def Invocation.asking (host : MultisigAdmin.Host Addr Val) (inv : Invocation Addr home)
    (accepts : MultisigAdmin.Action Addr Val → Bool)
    (multisig : Addr → MultisigAdmin.State Addr Val) : Invocation Addr home :=
  { inv with
    multisigProposal := fun m id => ((multisig m).proposal id).map recordInfo
    multisigThreshold := fun m => (multisig m).threshold
    multisigExecutes := fun m id =>
      (MultisigAdmin.executeAction host (inv.visit accepts m) (multisig m) id).isOk }

inductive WorldCall (Addr Val : Type) (home : Addr) where
  | governance (inv : Invocation Addr home) (accepts : MultisigAdmin.Action Addr Val → Bool)
      (call : Call Addr)
  | multisig (m : Addr) (inv : MultisigAdmin.Invocation Addr Val m)
      (call : MultisigAdmin.Call Addr Val)

omit [DecidableEq Addr] in
def WorldCall.timestamp : WorldCall Addr Val home → ℕ
  | .governance inv _ _ => inv.timestamp
  | .multisig _ inv _ => inv.timestamp

def World.exec (host : MultisigAdmin.Host Addr Val) (call : WorldCall Addr Val home)
    (w : World Addr Val) : Result (World Addr Val) :=
  match call with
  | .governance inv accepts call => do
      let governance ← Governance.exec (inv.asking host accepts w.multisig) call w.governance
      match escalation w.governance inv.timestamp call with
      | none => pure { w with governance := governance }
      | some (m, actionId) => do
          let executed ←
            MultisigAdmin.executeAction host (inv.visit accepts m) (w.multisig m) actionId
          pure ⟨governance, Function.update w.multisig m executed⟩
  | .multisig m inv call => do
      let changed ← MultisigAdmin.exec host inv call (w.multisig m)
      pure { w with multisig := Function.update w.multisig m changed }

/-- The contract with the multisigs. -/
def worldMachine (home : Addr) (host : MultisigAdmin.Host Addr Val) :
    Machine (World Addr Val) (WorldCall Addr Val home) Trap where
  exec := World.exec host

abbrev worldAfter (host : MultisigAdmin.Host Addr Val) (steps : List (WorldCall Addr Val home)) :
    World Addr Val :=
  (worldMachine home host).run (World.deployed Addr Val) steps

/-- The time of a call, if it cancels for `admin`. -/
def cancelTime (admin : Addr) (w : World Addr Val) : WorldCall Addr Val home → Option ℕ
  | .governance inv _ (.cancelProposal _ _) =>
      if w.governance.admin = some admin then some inv.timestamp else none
  | _ => none

/-- The times of the successful `cancel_proposal` calls of `admin`. -/
def cancels (host : MultisigAdmin.Host Addr Val) (admin : Addr)
    (steps : List (WorldCall Addr Val home)) : List ℕ :=
  (worldMachine home host).collect (fun w call _ => cancelTime admin w call)
    (World.deployed Addr Val) steps

/-- Time is positive and does not go back. -/
structure Clocked (steps : List (WorldCall Addr Val home)) : Prop where
  positive : ∀ call ∈ steps, 0 < call.timestamp
  forward : steps.Pairwise fun earlier later => earlier.timestamp ≤ later.timestamp

/-- The interval of thirty days from `start` on. -/
def thirtyDays (start : ℕ) (times : List ℕ) : List ℕ :=
  times.filter fun t => start ≤ t ∧ t < start + cancelEscalationWindowSecs

/-- The action of the multisig behind a cancellation: it has its approvals, and is used up. -/
def Authorised (w v : World Addr Val) (now : ℕ) (multisigActionId : Option ℕ) : Prop :=
  ∃ m actionId p threshold, w.governance.multisigAdmin = some m ∧
    multisigActionId = some actionId ∧ (w.multisig m).proposal actionId = some p ∧
    p.Active ∧ now ≤ p.expiry ∧ (w.multisig m).threshold = some threshold ∧
    threshold ≤ p.approvalCount ∧
    ∃ q, (v.multisig m).proposal actionId = some q ∧ q.executed = true

variable {host : MultisigAdmin.Host Addr Val} {w v : World Addr Val}
  {inv : Invocation Addr home} {accepts : MultisigAdmin.Action Addr Val → Bool} {call : Call Addr}
  {steps pre : List (WorldCall Addr Val home)} {admin m : Addr} {actionId : ℕ}

theorem executeAction_spent {m : Addr} {minv : MultisigAdmin.Invocation Addr Val m}
    {s t : MultisigAdmin.State Addr Val}
    (h : MultisigAdmin.executeAction host minv s actionId = .ok t) :
    ∃ q, t.proposal actionId = some q ∧ q.executed = true := by
  have hexec : MultisigAdmin.exec host minv (.executeAction actionId) s = .ok t := h
  cases MultisigAdmin.exec_effect hexec with
  | executed p threshold u _ _ _ _ _ _ _ eq =>
    rw [eq]
    exact ⟨_, Function.update_self .., rfl⟩

/-- What a call of the contract does in the world. -/
theorem governance_exec_eq_ok
    (h : World.exec host (.governance inv accepts call) w = .ok v) :
    Governance.exec (inv.asking host accepts w.multisig) call w.governance = .ok v.governance ∧
      ((escalation w.governance inv.timestamp call = none ∧ v.multisig = w.multisig) ∨
        ∃ m actionId u, escalation w.governance inv.timestamp call = some (m, actionId) ∧
          MultisigAdmin.executeAction host (inv.visit accepts m) (w.multisig m) actionId = .ok u ∧
          v.multisig = Function.update w.multisig m u) := by
  simp only [World.exec, bind_eq_ok] at h
  obtain ⟨governance, hgovernance, h⟩ := h
  split at h
  · rename_i hnone
    rw [pure_eq_ok] at h
    subst h
    exact ⟨hgovernance, .inl ⟨hnone, rfl⟩⟩
  · rename_i m actionId hsome
    simp only [bind_eq_ok, pure_eq_ok] at h
    obtain ⟨u, hu, rfl⟩ := h
    exact ⟨hgovernance, .inr ⟨m, actionId, u, hsome, hu, rfl⟩⟩

theorem multisig_exec_eq_ok {minv : MultisigAdmin.Invocation Addr Val m}
    {mcall : MultisigAdmin.Call Addr Val}
    (h : World.exec host (.multisig m minv mcall : WorldCall Addr Val home) w = .ok v) :
    v.governance = w.governance ∧ ∃ u, MultisigAdmin.exec host minv mcall (w.multisig m) = .ok u ∧
      v.multisig = Function.update w.multisig m u := by
  simp only [World.exec, bind_eq_ok, pure_eq_ok] at h
  obtain ⟨u, hu, rfl⟩ := h
  exact ⟨rfl, u, hu, rfl⟩

section Window

variable {id : ℕ} {multisigActionId : Option ℕ} {now : ℕ} {kept : List ℕ}

/-- Times that are positive count for the code exactly if they are not older than the window. -/
theorem recentCancels_eq (hpositive : ∀ t ∈ kept, 0 < t) (now : ℕ) :
    recentCancels kept now = SlidingWindow.recent (cancelEscalationWindowSecs - 1) now kept := by
  apply List.filter_congr
  intro t ht
  have hpos := hpositive t ht
  rw [Bool.eq_iff_iff, decide_eq_true_eq, decide_eq_true_eq, cancelEscalationWindowSecs]
  omega

theorem thirtyDays_eq (start : ℕ) (times : List ℕ) :
    thirtyDays start times =
      SlidingWindow.within (cancelEscalationWindowSecs - 1) start times := by
  apply List.filter_congr
  intro t _
  rw [Bool.eq_iff_iff, decide_eq_true_eq, decide_eq_true_eq, cancelEscalationWindowSecs]
  omega

/-- Beyond the third cancellation the multisig has to have agreed to something. -/
theorem authorised_of_cancel
    (h : World.exec host (.governance inv accepts (.cancelProposal id multisigActionId)) w = .ok v)
    (hadmin : w.governance.admin = some admin)
    (hmany : cancelEscalationThreshold ≤ countRecentCancels w.governance admin inv.timestamp) :
    Authorised w v inv.timestamp multisigActionId := by
  obtain ⟨hgovernance, hmultisig⟩ := governance_exec_eq_ok h
  cases (exec_effect hgovernance).recording with
  | other call_ne _ _ => exact absurd rfl (call_ne id multisigActionId)
  | cancelled i a p canceller call_eq stored _ _ escalated _ _ =>
    obtain ⟨rfl, rfl⟩ := Call.cancelProposal.inj call_eq
    obtain rfl := Option.some.inj (hadmin.symm.trans stored)
    have hrequired := escalated hmany
    simp only [requireMultisigAction, bind_eq_ok, expect_eq_ok, require_eq_ok] at hrequired
    obtain ⟨m, hm, actionId, rfl, record, hrecord, -, hexecuted, -, hcancelled, -, hdue, threshold,
      hthreshold, -, henough, -⟩ := hrequired
    obtain ⟨r, hr, rfl⟩ := Option.map_eq_some_iff.mp hrecord
    have hescalation : escalation w.governance inv.timestamp
        (.cancelProposal id (some actionId)) = some (m, actionId) := by
      simp [escalation, hadmin, hmany, hm]
    rw [hescalation] at hmultisig
    obtain ⟨hnone, -⟩ | ⟨m', actionId', u, hsome, hu, hv⟩ := hmultisig
    · cases hnone
    · obtain ⟨rfl, rfl⟩ := Prod.mk.inj (Option.some.inj hsome)
      refine ⟨m, actionId, r, threshold, hm, rfl, hr, ⟨hexecuted, hcancelled⟩, hdue, hthreshold,
        henough, ?_⟩
      rw [hv, Function.update_self]
      exact executeAction_spent hu

theorem mem_cancels {time : ℕ} (h : time ∈ cancels host admin pre) :
    ∃ call ∈ pre, call.timestamp = time := by
  obtain ⟨before, call, t, hx, htime⟩ := Machine.exists_of_mem_collect h
  refine ⟨call, hx.mem, ?_⟩
  unfold cancelTime at htime
  split at htime
  · split_ifs at htime
    exact Option.some.inj htime
  · cases htime

/-- What a call does to the list of an admin: only its own cancellations are added. -/
theorem cancelTimestamps_exec {a : WorldCall Addr Val home} (h : World.exec host a w = .ok v)
    (admin : Addr) :
    (cancelTime admin w a = none ∧
        v.governance.cancelTimestamps admin = w.governance.cancelTimestamps admin) ∨
      (cancelTime admin w a = some a.timestamp ∧
        v.governance.cancelTimestamps admin =
          recentCancels (w.governance.cancelTimestamps admin) a.timestamp ++ [a.timestamp]) := by
  cases a with
  | multisig m minv mcall =>
    left
    rw [(multisig_exec_eq_ok h).1]
    exact ⟨rfl, rfl⟩
  | governance inv accepts call =>
    obtain ⟨hgovernance, -⟩ := governance_exec_eq_ok h
    cases (exec_effect hgovernance).recording with
    | other call_ne _ timestamps =>
      left
      rw [timestamps]
      constructor
      · unfold cancelTime
        split
        · rename_i inv' accepts' i a heq
          obtain ⟨-, -, hcall⟩ := WorldCall.governance.inj heq
          exact absurd hcall (call_ne i a)
        · rfl
      · rfl
    | cancelled i a p canceller call_eq stored _ _ _ _ timestamps =>
      subst call_eq
      rw [timestamps]
      by_cases hadmin : canceller = admin
      · subst hadmin
        right
        rw [Function.update_self]
        constructor
        · exact if_pos stored
        · rfl
      · left
        rw [Function.update_of_ne (Ne.symm hadmin)]
        constructor
        · apply if_neg
          rw [stored]
          exact fun heq => hadmin (Option.some.inj heq)
        · rfl

/-- The list stands for the cancellations of the run, and its times are positive. -/
structure Counts (kept events : List ℕ) : Prop where
  keeps : SlidingWindow.Keeps (cancelEscalationWindowSecs - 1) kept events
  positive : ∀ t ∈ kept, 0 < t

theorem Counts.record {events : List ℕ} (h : Counts kept events) (hnow : 0 < now) :
    Counts (recentCancels kept now ++ [now]) (events ++ [now]) := by
  constructor
  · rw [recentCancels_eq h.positive]
    exact h.keeps.record
  · intro t ht
    rcases List.mem_append.mp ht with hold | hnew
    · exact h.positive t (List.mem_of_mem_filter hold)
    · rw [List.mem_singleton.mp hnew]
      exact hnow

theorem run_counts (host : MultisigAdmin.Host Addr Val) (admin : Addr)
    (steps : List (WorldCall Addr Val home)) (hpositive : ∀ call ∈ steps, 0 < call.timestamp) :
    Counts ((worldAfter host steps).governance.cancelTimestamps admin)
      (cancels host admin steps) := by
  refine Machine.run_history (M := worldMachine home host)
    (P := fun steps w => (∀ call ∈ steps, 0 < call.timestamp) →
      Counts (w.governance.cancelTimestamps admin) (cancels host admin steps)) ?_ ?_ ?_ steps
    hpositive
  · intro _
    exact ⟨SlidingWindow.keeps_nil, nofun⟩
  · intro pre a t hs hx hpositive
    have hbefore := hs fun call hcall => hpositive call (List.mem_append_left [a] hcall)
    have hnow := hpositive a (by simp)
    have hcollect : cancels host admin (pre ++ [a]) = cancels host admin pre ++
        (cancelTime admin (worldAfter host pre) a).toList := Machine.collect_snoc_ok hx
    rw [hcollect]
    rcases cancelTimestamps_exec hx admin with ⟨hnone, hsame⟩ | ⟨htime, hnew⟩
    · rw [hnone, hsame, Option.toList_none, List.append_nil]
      exact hbefore
    · rw [htime, hnew, Option.toList_some]
      exact hbefore.record hnow
  · intro pre a e hs herror hpositive
    have hcollect : cancels host admin (pre ++ [a]) = cancels host admin pre :=
      Machine.collect_snoc_error herror
    rw [hcollect]
    exact hs fun call hcall => hpositive call (List.mem_append_left [a] hcall)

/-- The cancellations in thirty days up to now are all counted. -/
theorem thirtyDays_length_le {v : World Addr Val} {a : WorldCall Addr Val home}
    (hclock : Clocked steps) (hx : (worldMachine home host).Executes (World.deployed Addr Val)
      steps pre a v) {start : ℕ} (hend : a.timestamp < start + cancelEscalationWindowSecs)
    (admin : Addr) : (thirtyDays start (cancels host admin pre)).length ≤
      countRecentCancels (worldAfter host pre).governance admin a.timestamp := by
  obtain ⟨post, rfl, -⟩ := hx
  have hcounts := run_counts host admin pre fun call hcall =>
    hclock.positive call (List.mem_append_left _ hcall)
  have hbefore : ∀ t ∈ cancels host admin pre, t ≤ a.timestamp := by
    intro t ht
    obtain ⟨call, hcall, rfl⟩ := mem_cancels ht
    exact (List.pairwise_append.mp hclock.forward).2.2 call hcall a List.mem_cons_self
  rw [thirtyDays_eq, countRecentCancels, recentCancels_eq hcounts.positive,
    hcounts.keeps a.timestamp hbefore]
  apply SlidingWindow.within_length_le
  omega

end Window

section Once

/-- The action was executed. -/
def Spent (w : World Addr Val) (m : Addr) (actionId : ℕ) : Prop :=
  ∃ p, (w.multisig m).proposal actionId = some p ∧ p.executed = true

/-- The call cancels a proposal and uses the action up. -/
def UsesAction (m : Addr) (actionId : ℕ) (w : World Addr Val) :
    WorldCall Addr Val home → Prop
  | .governance inv _ call => escalation w.governance inv.timestamp call = some (m, actionId)
  | .multisig _ _ _ => False

/-- The call proposes another action under the id. -/
def ProposesAnew (m : Addr) (actionId : ℕ) (w : World Addr Val) :
    WorldCall Addr Val home → Prop
  | .multisig m' _ (.proposeAction _ _ _ _) =>
      m' = m ∧ (w.multisig m).proposalCount + 1 = actionId
  | _ => False

theorem usesAction_exec {a : WorldCall Addr Val home} (h : World.exec host a w = .ok v)
    (huses : UsesAction m actionId w a) : ¬ Spent w m actionId ∧ Spent v m actionId := by
  cases a with
  | multisig m' minv mcall => exact huses.elim
  | governance inv accepts call =>
    have hescalation : escalation w.governance inv.timestamp call = some (m, actionId) := huses
    obtain ⟨-, ⟨hnone, -⟩ | ⟨m', actionId', u, hsome, hu, hv⟩⟩ := governance_exec_eq_ok h
    · rw [hescalation] at hnone
      cases hnone
    · rw [hescalation] at hsome
      obtain ⟨rfl, rfl⟩ := Prod.mk.inj (Option.some.inj hsome)
      constructor
      · rintro ⟨p, hp, hexecuted⟩
        have hexec : MultisigAdmin.exec host (inv.visit accepts m) (.executeAction actionId)
            (w.multisig m) = .ok u := hu
        cases MultisigAdmin.exec_effect hexec with
        | executed q threshold r stored found active _ _ _ _ _ =>
          obtain rfl := Option.some.inj (hp.symm.trans found)
          rw [active.1] at hexecuted
          cases hexecuted
      · obtain ⟨q, hq, hexecuted⟩ := executeAction_spent hu
        refine ⟨q, ?_, hexecuted⟩
        rw [hv, Function.update_self]
        exact hq

/-- An executed action stays so until another is proposed under its id. -/
theorem executed_kept {minv : MultisigAdmin.Invocation Addr Val m}
    {s t : MultisigAdmin.State Addr Val} {mcall : MultisigAdmin.Call Addr Val}
    (h : MultisigAdmin.exec host minv mcall s = .ok t)
    (hother : mcall.Proposes → s.proposalCount + 1 ≠ actionId)
    {p : MultisigAdmin.ProposalRecord Addr Val} (hfound : s.proposal actionId = some p)
    (hexecuted : p.executed = true) : t.proposal actionId = some p := by
  have hne : ∀ {id : ℕ} {q : MultisigAdmin.ProposalRecord Addr Val}, s.proposal id = some q →
      q.Active → actionId ≠ id := by
    rintro id q hq hactive rfl
    obtain rfl := Option.some.inj (hfound.symm.trans hq)
    rw [hactive.1] at hexecuted
    cases hexecuted
  cases (MultisigAdmin.exec_effect h).proposalChange with
  | proposed proposal _ _ =>
    rw [proposal, Function.update_of_ne (hother trivial).symm]
    exact hfound
  | signed q found active _ proposal _ _ =>
    rw [proposal, Function.update_of_ne (hne found active)]
    exact hfound
  | settled id q r _ found active _ _ _ _ proposal _ _ =>
    rw [proposal, Function.update_of_ne (hne found active)]
    exact hfound
  | restarted _ _ proposal _ _ =>
    rw [proposal]
    exact hfound
  | same _ proposal _ _ =>
    rw [proposal]
    exact hfound

theorem spent_kept {a : WorldCall Addr Val home} (h : World.exec host a w = .ok v)
    (hother : ¬ ProposesAnew m actionId w a) (hspent : Spent w m actionId) :
    Spent v m actionId := by
  obtain ⟨p, hp, hexecuted⟩ := hspent
  refine ⟨p, ?_, hexecuted⟩
  cases a with
  | multisig m' minv mcall =>
    obtain ⟨-, u, hu, hv⟩ := multisig_exec_eq_ok h
    rw [hv]
    by_cases hm : m = m'
    · subst hm
      rw [Function.update_self]
      apply executed_kept hu _ hp hexecuted
      intro hproposes heq
      cases mcall with
      | proposeAction _ _ _ _ => exact hother ⟨rfl, heq⟩
      | _ => exact hproposes.elim
    · rw [Function.update_of_ne hm]
      exact hp
  | governance inv accepts call =>
    obtain ⟨-, ⟨-, hv⟩ | ⟨m', actionId', u, -, hu, hv⟩⟩ := governance_exec_eq_ok h
    · rw [hv]
      exact hp
    · rw [hv]
      by_cases hm : m = m'
      · subst hm
        rw [Function.update_self]
        have hexec : MultisigAdmin.exec host (inv.visit accepts m) (.executeAction actionId')
            (w.multisig m) = .ok u := hu
        exact executed_kept hexec (fun hproposes => hproposes.elim) hp hexecuted
      · rw [Function.update_of_ne hm]
        exact hp

end Once

/-- In every run, beyond three cancellations of an admin in thirty days each has an action of the
multisig behind it that has its approvals, and no action stands behind two. -/
theorem run_escalation (host : MultisigAdmin.Host Addr Val)
    (steps : List (WorldCall Addr Val home)) (hclock : Clocked steps) :
    (∀ pre inv accepts id multisigActionId v admin start,
      (worldMachine home host).Executes (World.deployed Addr Val) steps pre
        (.governance inv accepts (.cancelProposal id multisigActionId)) v →
      (worldAfter host pre).governance.admin = some admin →
      inv.timestamp < start + cancelEscalationWindowSecs →
      cancelEscalationThreshold ≤ (thirtyDays start (cancels host admin pre)).length →
      Authorised (worldAfter host pre) v inv.timestamp multisigActionId) ∧
    ∀ pre pre' a a' v v' m actionId,
      (worldMachine home host).Executes (World.deployed Addr Val) steps pre a v →
      UsesAction m actionId (worldAfter host pre) a →
      (worldMachine home host).Executes (World.deployed Addr Val) steps pre' a' v' →
      UsesAction m actionId (worldAfter host pre') a' → pre.length < pre'.length →
      ∃ mid b u, (worldMachine home host).Executes (World.deployed Addr Val) steps mid b u ∧
        pre.length < mid.length ∧ mid.length < pre'.length ∧
        ProposesAnew m actionId (worldAfter host mid) b := by
  constructor
  · intro pre inv accepts id multisigActionId v admin start hx hadmin hend hmany
    exact authorised_of_cancel hx.exec_eq hadmin
      (hmany.trans (thirtyDays_length_le hclock hx hend admin))
  · intro pre pre' a a' v v' m actionId hx huses hx' huses' hlt
    by_contra hnone
    have hon : (worldMachine home host).SwitchedOnIn (UsesAction m actionId)
        (ProposesAnew m actionId) (World.deployed Addr Val) pre' := by
      refine ⟨pre, a, v, hx.before hx' hlt, huses, ?_⟩
      intro mid b u hu hmid hanew
      have hprefix : pre' <+: steps := (List.prefix_append pre' [a']).trans hx'.snoc_prefix
      exact hnone ⟨mid, b, u, hu.mono hprefix, hmid, hu.length_lt, hanew⟩
    have hspent : Spent (worldAfter host pre') m actionId :=
      Machine.of_switchedOnIn (P := fun w => Spent w m actionId)
        (fun _ _ _ h hon => (usesAction_exec h hon).2) (fun _ _ _ h hoff hs => spent_kept h hoff hs)
        hon
    exact (usesAction_exec hx'.exec_eq huses').1 hspent

/-- An invocation of the multisig at address 20 that every account signed. -/
def multisigSigned (now : ℕ) : MultisigAdmin.Invocation ℕ ℕ 20 where
  timestamp := now
  sequence := 0
  auth a := a != 20
  auth_home := rfl
  accepts _ := true
  installed _ := true

def governanceCall (now : ℕ) (call : Call ℕ) : WorldCall ℕ ℕ 0 :=
  .governance (answered now) (fun _ => true) call

/-- The admin cancels three proposals, and the multisig approves of a call that does nothing. -/
def threeCancelled : List (WorldCall ℕ ℕ 0) :=
  [governanceCall 1 (.config (.initializeGovernance 1 2 3 none none none none (some 9))),
    governanceCall 1 (.config (.setMultisigAdmin 1 20)),
    governanceCall 1 (.createProposal 4 (.updateFee 300)),
    governanceCall 1 (.createProposal 4 (.updateAutoRelease 60)),
    governanceCall 1 (.createProposal 4 (.addAsset 7)),
    governanceCall 1 (.createProposal 4 (.updateAdmin 8)),
    governanceCall 10 (.cancelProposal 1 none), governanceCall 10 (.cancelProposal 2 none),
    governanceCall 10 (.cancelProposal 3 none),
    .multisig 20 (multisigSigned 10) (.initializeMultisig [1, 2] 2),
    .multisig 20 (multisigSigned 10) (.proposeAction 1 9 "no_op" []),
    .multisig 20 (multisigSigned 10) (.signAction 2 1)]

/-- With that it cancels a fourth. -/
def noOpRun : List (WorldCall ℕ ℕ 0) :=
  threeCancelled ++ [governanceCall 10 (.cancelProposal 4 (some 1))]

theorem noOpRun_clocked : Clocked noOpRun where
  positive := by decide
  forward := by decide

theorem noOpRun_executes : (worldMachine 0 MultisigAdmin.byteHost).Executes
    (World.deployed ℕ ℕ) noOpRun threeCancelled (governanceCall 10 (.cancelProposal 4 (some 1)))
    (worldAfter MultisigAdmin.byteHost noOpRun) := by
  apply Machine.executes_of_run_ne
  intro hsame
  exact absurd (congrArg (fun w => w.governance.cancelCount 1) hsame) (by decide +kernel)

theorem noOpRun_authorised : Authorised (worldAfter MultisigAdmin.byteHost threeCancelled)
    (worldAfter MultisigAdmin.byteHost noOpRun) 10 (some 1) :=
  (run_escalation MultisigAdmin.byteHost noOpRun noOpRun_clocked).1 _ _ _ _ _ _ 1 10
    noOpRun_executes rfl (by decide) (by decide +kernel)

/-- The action is one that the multisig approved for cancelling a proposal of the contract. -/
def ApprovedForCancel (home : Addr) (w : World Addr Val) (multisigActionId : Option ℕ) : Prop :=
  ∃ m actionId p, w.governance.multisigAdmin = some m ∧ multisigActionId = some actionId ∧
    (w.multisig m).proposal actionId = some p ∧ p.target = home ∧ p.function = "cancel_proposal"

theorem noOpRun_not_approvedForCancel :
    ¬ ∀ pre inv accepts id multisigActionId v admin start,
      (worldMachine 0 MultisigAdmin.byteHost).Executes (World.deployed ℕ ℕ) noOpRun pre
        (.governance inv accepts (.cancelProposal id multisigActionId)) v →
      (worldAfter MultisigAdmin.byteHost pre).governance.admin = some admin →
      inv.timestamp < start + cancelEscalationWindowSecs →
      cancelEscalationThreshold ≤
        (thirtyDays start (cancels MultisigAdmin.byteHost admin pre)).length →
      ApprovedForCancel 0 (worldAfter MultisigAdmin.byteHost pre) multisigActionId := by
  intro hclaim
  obtain ⟨m, actionId, p, hm, hactionId, hp, htarget, -⟩ :=
    hclaim _ _ _ _ _ _ 1 10 noOpRun_executes rfl (by decide) (by decide +kernel)
  obtain rfl := Option.some.inj hactionId
  have hm' : (worldAfter MultisigAdmin.byteHost threeCancelled).governance.multisigAdmin =
      some 20 := by decide +kernel
  obtain rfl := Option.some.inj (hm'.symm.trans hm)
  have hrecord : (((worldAfter MultisigAdmin.byteHost threeCancelled).multisig 20).proposal 1).map
      (fun p => p.target) = some 9 := by decide +kernel
  rw [hp] at hrecord
  have hnine : p.target = 9 := Option.some.inj hrecord
  rw [htarget] at hnine
  cases hnine

end Governance
