import MentorsMind.Lib.Trail
import MentorsMind.Escrow.Changes

/-! The transition logs as an audit trail. Regular and milestone escrows are numbered apart
but logged under one key, and a rollback writes statuses that it does not log. -/
namespace Escrow
open Outcome Soroban Shared

section Books

variable {Addr : Type}

/-- The log leads from the pending status to `status`. -/
def LeadsTo (log : List (EscrowTransitionLog Addr)) (status : EscrowStatus) : Prop :=
  Trail EscrowTransitionLog.old EscrowTransitionLog.new .pending log status

/-- The log of every escrow leads to its stored status. -/
structure LogsChained (b : Book Addr) : Prop where
  escrow : ∀ id e, b.escrow id = some e → LeadsTo (b.transitionLog id) e.status
  milestone : ∀ id m, b.milestone id = some m → LeadsTo (b.transitionLog id) m.status

/-- No id is used for both kinds of escrows. -/
def IdsApart (b : Book Addr) : Prop := ∀ id e, b.escrow id = some e → b.milestone id = none

theorem LogChange.log_of_ne {b b' : Book Addr} {id k : ℕ} {old new : EscrowStatus}
    (h : LogChange b b' id old new) (hk : k ≠ id) : b'.transitionLog k = b.transitionLog k := by
  cases h with
  | silent status log => rw [log]
  | logged entry old_eq new_eq valid log =>
    rw [log]
    exact Function.update_of_ne hk _ _

theorem LogChange.leadsTo_iff {b b' : Book Addr} {id : ℕ} {old new : EscrowStatus}
    (h : LogChange b b' id old new) :
    LeadsTo (b'.transitionLog id) new ↔ LeadsTo (b.transitionLog id) old := by
  cases h with
  | silent status log => rw [status, log]
  | logged entry old_eq new_eq valid log =>
    have hlog : b'.transitionLog id = b.transitionLog id ++ [entry] := by
      rw [log]
      exact Function.update_self id _ _
    rw [hlog, LeadsTo, Trail.snoc_iff, old_eq]
    exact and_iff_left new_eq

section Tables

variable {ε : Type} {table : ℕ → Option ε} {status : ε → EscrowStatus} {b b' : Book Addr}
  {k : ℕ} {old new : EscrowStatus} {x : ε}

/-- A record is written together with the change of its log, and the other logs stay. -/
theorem LogChange.leadsTo_written (h : LogChange b b' k old (status x))
    (hold : LeadsTo (b.transitionLog k) old)
    (hchained : ∀ id y, table id = some y → LeadsTo (b.transitionLog id) (status y)) :
    ∀ id y, Function.update table k (some x) id = some y →
      LeadsTo (b'.transitionLog id) (status y) := by
  intro id y hy
  obtain ⟨rfl, rfl⟩ | ⟨hid, hbefore⟩ := Table.update_eq_some_iff.mp hy
  · exact h.leadsTo_iff.mpr hold
  · rw [h.log_of_ne hid]
    exact hchained id y hbefore

/-- Escrows of the other kind keep their logs if the id is not one of theirs. -/
theorem LogChange.leadsTo_others (h : LogChange b b' k old new) (hnone : table k = none)
    (hchained : ∀ id y, table id = some y → LeadsTo (b.transitionLog id) (status y)) :
    ∀ id y, table id = some y → LeadsTo (b'.transitionLog id) (status y) := by
  intro id y hy
  have hid : id ≠ k := by
    rintro rfl
    rw [hnone] at hy
    cases hy
  rw [h.log_of_ne hid]
  exact hchained id y hy

end Tables

/-- A log that leads to a status which nothing returns to is not the log of a new escrow. -/
theorem not_leadsTo_pending {log : List (EscrowTransitionLog Addr)} {status : EscrowStatus}
    (h : LeadsTo log status) (hne : status ≠ .pending) : ¬ LeadsTo log .pending :=
  fun hpending => hne (h.last_unique hpending)

theorem restoreRecords_log (b : Book Addr) (records : List (EscrowRecord Addr)) :
    (restoreRecords b records).transitionLog = b.transitionLog := by
  induction records generalizing b with
  | nil => rfl
  | cons r records ih => exact ih (b.setEscrow r.id r)

/-- What the logs of any run satisfy: there is none before there is an escrow. -/
structure LogBasics (s : State Addr) : Prop where
  wellFormed : s.WellFormed
  milestone_id : ∀ id m, s.custody.book.milestone id = some m → m.id = id
  fresh : ∀ id, s.custody.book.escrow id = none → s.custody.book.milestone id = none →
    s.custody.book.transitionLog id = []
  snapshot : ∀ k records, s.recovery.snapshot k = some records → ∀ r ∈ records,
    ∃ e, s.custody.book.escrow r.id = some e

/-- A rollback only rewrites escrows that are there. -/
theorem LogBasics.restored {s : State Addr} (hs : LogBasics s) {k : ℕ}
    {records : List (EscrowRecord Addr)} (hrecords : s.recovery.snapshot k = some records)
    {id : ℕ} {e' : EscrowRecord Addr}
    (he' : (restoreRecords s.custody.book records).escrow id = some e') :
    ∃ e, s.custody.book.escrow id = some e := by
  rcases restoreRecords_escrow s.custody.book records id with hsame | ⟨r, hr, rfl, -⟩
  · exact ⟨e', hsame ▸ he'⟩
  · exact hs.snapshot k records hrecords r hr

end Books

section Steps

variable {Addr : Type} [DecidableEq Addr] {self : Addr} {digests : Digests} {s t : State Addr}
  {step : Step Addr self}

/-- The step numbers a new escrow apart from those of the other kind, and rolls no status
back. -/
structure KeepsLogs {home : Addr} (step : Step Addr home) (s : State Addr) : Prop where
  escrow : ∀ sessionId, step.2.opensSession = some sessionId →
    s.custody.book.milestone (s.custody.book.escrowCount + 1) = none
  milestone : step.2.createsMilestone = true →
    s.custody.book.escrow (s.custody.book.milestoneCount + 1) = none
  restored : ∀ records, Restores step s records → ∀ id e e',
    s.custody.book.escrow id = some e →
    (restoreRecords s.custody.book records).escrow id = some e' → e'.status = e.status

/-- An escrow is never removed. -/
theorem BookChange.escrow_kept (h : BookChange digests step s t) {id : ℕ}
    {e : EscrowRecord Addr} (he : s.custody.book.escrow id = some e) :
    ∃ e', t.custody.book.escrow id = some e' := by
  cases h with
  | unchanged same => exact ⟨e, by rw [same.escrows.escrow, he]⟩
  | initialized fresh book => exact ⟨e, by rw [book]; exact he⟩
  | created sessionId new opens opening =>
    by_cases hid : id = s.custody.book.escrowCount + 1
    · exact ⟨new, by rw [opening.escrow, hid, Function.update_self]⟩
    · exact ⟨e, by rw [opening.escrow, Function.update_of_ne hid, he]⟩
  | rewritten k old new call rewrites =>
    by_cases hid : id = k
    · exact ⟨new, by rw [rewrites.escrow, hid, Function.update_self]⟩
    · exact ⟨e, by rw [rewrites.escrow, Function.update_of_ne hid, he]⟩
  | milestoneCreated m creates opening => exact ⟨e, by rw [opening.escrow, he]⟩
  | milestoneRewritten k m m' rewrites => exact ⟨e, by rw [rewrites.escrow, he]⟩
  | restored records restores book =>
    rw [book]
    rcases restoreRecords_escrow s.custody.book records id with hsame | ⟨r, -, -, hr⟩
    · exact ⟨e, by rw [hsame, he]⟩
    · exact ⟨r, hr⟩

theorem BookChange.fresh (hs : LogBasics s) (h : BookChange digests step s t) (id : ℕ)
    (hescrow : t.custody.book.escrow id = none)
    (hmilestone : t.custody.book.milestone id = none) :
    t.custody.book.transitionLog id = [] := by
  cases h with
  | unchanged same =>
    rw [same.log]
    exact hs.fresh id (by rw [← same.escrows.escrow, hescrow])
      (by rw [← same.escrows.milestone, hmilestone])
  | initialized fresh book =>
    rw [book] at hescrow hmilestone ⊢
    exact hs.fresh id hescrow hmilestone
  | created sessionId new opens opening _ session =>
    rw [opening.escrow] at hescrow
    obtain ⟨hid, hold⟩ := Table.update_eq_none_iff.mp hescrow
    rw [session.log.log_of_ne (by rw [opening.id_eq]; exact hid)]
    exact hs.fresh id hold (by rw [← opening.milestone, hmilestone])
  | rewritten k old new call rewrites =>
    rw [rewrites.escrow] at hescrow
    obtain ⟨hid, hold⟩ := Table.update_eq_none_iff.mp hescrow
    rw [rewrites.log.log_of_ne (by
      rw [hs.wellFormed.book.record_id k old rewrites.found]
      exact hid)]
    exact hs.fresh id hold (by rw [← rewrites.milestone, hmilestone])
  | milestoneCreated m creates opening new =>
    rw [opening.milestone] at hmilestone
    obtain ⟨hid, hold⟩ := Table.update_eq_none_iff.mp hmilestone
    rw [new.log.log_of_ne (by rw [new.id_eq]; exact hid)]
    exact hs.fresh id (by rw [← opening.escrow, hescrow]) hold
  | milestoneRewritten k m m' rewrites =>
    rw [rewrites.milestone] at hmilestone
    obtain ⟨hid, hold⟩ := Table.update_eq_none_iff.mp hmilestone
    rw [rewrites.log.log_of_ne (by
      rw [hs.milestone_id k m rewrites.found]
      exact hid)]
    exact hs.fresh id (by rw [← rewrites.escrow, hescrow]) hold
  | restored records restores book =>
    rw [book] at hescrow hmilestone ⊢
    rw [restoreRecords_log]
    rw [(restoreRecords_counts _ _).1] at hmilestone
    refine hs.fresh id ?_ hmilestone
    rcases restoreRecords_escrow s.custody.book records id with hsame | ⟨r, -, -, hr⟩
    · rw [← hsame, hescrow]
    · rw [hescrow] at hr
      cases hr

omit [DecidableEq Addr] in
theorem MilestoneChange.id_eq {m m' : MilestoneEscrow Addr} (h : MilestoneChange m m') :
    m'.id = m.id := by
  cases h with
  | completed index spec fee active listed pending isFee => rfl
  | disputed index active pending => rfl

theorem BookChange.milestone_id (hs : LogBasics s) (h : BookChange digests step s t) (id : ℕ)
    (m : MilestoneEscrow Addr) (hm : t.custody.book.milestone id = some m) : m.id = id := by
  cases h with
  | unchanged same => exact hs.milestone_id id m (by rw [← same.escrows.milestone, hm])
  | initialized fresh book =>
    rw [book] at hm
    exact hs.milestone_id id m hm
  | created sessionId new opens opening =>
    exact hs.milestone_id id m (by rw [← opening.milestone, hm])
  | rewritten k old new call rewrites =>
    exact hs.milestone_id id m (by rw [← rewrites.milestone, hm])
  | milestoneCreated new creates opening isNew =>
    rw [opening.milestone] at hm
    obtain ⟨rfl, rfl⟩ | ⟨-, hold⟩ := Table.update_eq_some_iff.mp hm
    · exact isNew.id_eq
    · exact hs.milestone_id id m hold
  | milestoneRewritten k old new rewrites =>
    rw [rewrites.milestone] at hm
    obtain ⟨rfl, rfl⟩ | ⟨-, hold⟩ := Table.update_eq_some_iff.mp hm
    · exact rewrites.change.id_eq.trans (hs.milestone_id id old rewrites.found)
    · exact hs.milestone_id id m hold
  | restored records restores book =>
    rw [book, (restoreRecords_counts _ _).1] at hm
    exact hs.milestone_id id m hm

theorem LogBasics.exec (hs : LogBasics s) (h : exec digests step.1 step.2 s = .ok t) :
    LogBasics t := by
  have hchange := exec_bookChange hs.wellFormed h
  refine ⟨exec_wellFormed hs.wellFormed h, hchange.milestone_id hs, hchange.fresh hs, ?_⟩
  intro k records hrecords r hr
  rcases exec_snapshot h hrecords with hold | ⟨-, rfl⟩
  · obtain ⟨e, he⟩ := hs.snapshot k records hold r hr
    exact hchange.escrow_kept he
  · obtain ⟨j, hj⟩ := mem_collectRecords hr
    rw [hs.wellFormed.book.record_id j r hj]
    exact hchange.escrow_kept hj

/-- A step under the condition keeps the logs chained and the ids apart. -/
theorem BookChange.logsChained (hs : LogBasics s) (hapart : IdsApart s.custody.book)
    (hchained : LogsChained s.custody.book) (hkeeps : KeepsLogs step s)
    (h : BookChange digests step s t) : LogsChained t.custody.book := by
  have hb := hs.wellFormed.book
  cases h with
  | unchanged same =>
    exact ⟨by rw [same.escrows.escrow, same.log]; exact hchained.escrow,
      by rw [same.escrows.milestone, same.log]; exact hchained.milestone⟩
  | initialized fresh book =>
    rw [book]
    exact ⟨hchained.escrow, hchained.milestone⟩
  | created sessionId e opens opening new session =>
    have hnone := hkeeps.escrow sessionId opens
    have hlog : LogChange s.custody.book t.custody.book (s.custody.book.escrowCount + 1)
        .pending e.status := by
      rw [← opening.id_eq, opening.status]
      exact session.log
    have hempty : LeadsTo (s.custody.book.transitionLog (s.custody.book.escrowCount + 1))
        .pending := by
      rw [hs.fresh _ (hb.escrow_gt _ (Nat.lt_succ_self _)) hnone]
      rfl
    constructor
    · rw [opening.escrow]
      exact hlog.leadsTo_written hempty hchained.escrow
    · rw [opening.milestone]
      exact hlog.leadsTo_others hnone hchained.milestone
  | rewritten k e e' call rewrites =>
    have hlog := rewrites.log
    rw [hb.record_id k e rewrites.found] at hlog
    constructor
    · rw [rewrites.escrow]
      exact hlog.leadsTo_written (hchained.escrow k e rewrites.found) hchained.escrow
    · rw [rewrites.milestone]
      exact hlog.leadsTo_others (hapart k e rewrites.found) hchained.milestone
  | milestoneCreated m creates opening new =>
    have hnone := hkeeps.milestone creates
    have hlog : LogChange s.custody.book t.custody.book (s.custody.book.milestoneCount + 1)
        .pending m.status := by
      rw [← new.id_eq, new.status]
      exact new.log
    have hempty : LeadsTo (s.custody.book.transitionLog (s.custody.book.milestoneCount + 1))
        .pending := by
      rw [hs.fresh _ hnone (hb.milestone_gt _ (Nat.lt_succ_self _))]
      rfl
    constructor
    · rw [opening.escrow]
      exact hlog.leadsTo_others hnone hchained.escrow
    · rw [opening.milestone]
      exact hlog.leadsTo_written hempty hchained.milestone
  | milestoneRewritten k m m' rewrites =>
    have hlog := rewrites.log
    rw [hs.milestone_id k m rewrites.found] at hlog
    have hnone : s.custody.book.escrow k = none := by
      by_contra hsome
      obtain ⟨e, he⟩ := Option.ne_none_iff_exists'.mp hsome
      have hapart_k := hapart k e he
      rw [rewrites.found] at hapart_k
      cases hapart_k
    constructor
    · rw [rewrites.escrow]
      exact hlog.leadsTo_others hnone hchained.escrow
    · rw [rewrites.milestone]
      exact hlog.leadsTo_written (hchained.milestone k m rewrites.found) hchained.milestone
  | restored records restores book =>
    obtain ⟨-, rollback, -, -, -, hrecords⟩ := id restores
    rw [book]
    refine ⟨fun id e' he' => ?_, fun id m hm => ?_⟩
    · rw [restoreRecords_log]
      obtain ⟨e, he⟩ := hs.restored hrecords he'
      rw [hkeeps.restored records restores id e e' he he']
      exact hchained.escrow id e he
    · rw [restoreRecords_log]
      rw [(restoreRecords_counts _ _).1] at hm
      exact hchained.milestone id m hm

theorem BookChange.idsApart (hs : LogBasics s) (hapart : IdsApart s.custody.book)
    (hkeeps : KeepsLogs step s) (h : BookChange digests step s t) :
    IdsApart t.custody.book := by
  intro id e he
  cases h with
  | unchanged same =>
    rw [same.escrows.escrow] at he
    rw [same.escrows.milestone]
    exact hapart id e he
  | initialized fresh book =>
    rw [book] at he ⊢
    exact hapart id e he
  | created sessionId new opens opening =>
    rw [opening.escrow] at he
    rw [opening.milestone]
    obtain ⟨rfl, -⟩ | ⟨-, hold⟩ := Table.update_eq_some_iff.mp he
    · exact hkeeps.escrow sessionId opens
    · exact hapart id e hold
  | rewritten k old new call rewrites =>
    rw [rewrites.escrow] at he
    rw [rewrites.milestone]
    obtain ⟨rfl, -⟩ | ⟨-, hold⟩ := Table.update_eq_some_iff.mp he
    · exact hapart id old rewrites.found
    · exact hapart id e hold
  | milestoneCreated m creates opening new =>
    rw [opening.escrow] at he
    have hid : id ≠ s.custody.book.milestoneCount + 1 := by
      rintro rfl
      rw [hkeeps.milestone creates] at he
      cases he
    rw [opening.milestone, Function.update_of_ne hid]
    exact hapart id e he
  | milestoneRewritten k m m' rewrites =>
    rw [rewrites.escrow] at he
    have hid : id ≠ k := by
      rintro rfl
      have hnone := hapart id e he
      rw [rewrites.found] at hnone
      cases hnone
    rw [rewrites.milestone, Function.update_of_ne hid]
    exact hapart id e he
  | restored records restores book =>
    obtain ⟨-, rollback, -, -, -, hrecords⟩ := restores
    rw [book] at he ⊢
    obtain ⟨e₀, he₀⟩ := hs.restored hrecords he
    rw [(restoreRecords_counts _ _).1]
    exact hapart id e₀ he₀

/-- A step that leaves the logs chained has met the condition. -/
theorem exec_keepsLogs (hs : LogBasics s) (hchained : LogsChained s.custody.book)
    (h : exec digests step.1 step.2 s = .ok t) (hafter : LogsChained t.custody.book) :
    KeepsLogs step s := by
  have hb := hs.wellFormed.book
  constructor
  · intro sessionId hcall
    obtain ⟨e, hopening, -, hsession⟩ := exec_opensSession hcall h
    have hleads := hsession.log.leadsTo_iff
    rw [hopening.id_eq] at hleads
    have hnew := hafter.escrow (s.custody.book.escrowCount + 1) e
      (by rw [hopening.escrow, Function.update_self])
    rw [hopening.status, hleads] at hnew
    cases hm : s.custody.book.milestone (s.custody.book.escrowCount + 1) with
    | none => rfl
    | some m =>
      have hold := hchained.milestone _ m hm
      exact absurd hnew (not_leadsTo_pending hold (hb.milestone _ m hm).not_pending)
  · intro hcall
    obtain ⟨m, hopening, hnew⟩ := exec_createsMilestone hcall h
    have hleads := hnew.log.leadsTo_iff
    rw [hnew.id_eq] at hleads
    have hlog := hafter.milestone (s.custody.book.milestoneCount + 1) m
      (by rw [hopening.milestone, Function.update_self])
    rw [hnew.status, hleads] at hlog
    cases he : s.custody.book.escrow (s.custody.book.milestoneCount + 1) with
    | none => rfl
    | some e =>
      have hold := hchained.escrow _ e he
      exact absurd hlog (not_leadsTo_pending hold (hb.record _ e he).not_pending)
  · intro records hrestores id e e' he he'
    have hbook := exec_restores hrestores h
    have hnew := hafter.escrow id e' (by rw [hbook, he'])
    rw [hbook, restoreRecords_log] at hnew
    exact hnew.last_unique (hchained.escrow id e he)

end Steps

section Runs

variable {Addr : Type} [DecidableEq Addr] {self : Addr}

omit [DecidableEq Addr] in
theorem deployed_logBasics (balance : Addr → Addr → ℤ) : LogBasics (deployed balance) :=
  ⟨deployed_wellFormed balance, fun _ _ h => (nomatch h), fun _ _ _ => rfl,
    fun _ _ h => (nomatch h)⟩

theorem run_logBasics (digests : Digests) (balance : Addr → Addr → ℤ)
    (steps : List (Step Addr self)) :
    LogBasics ((machine self digests).run (deployed balance) steps) :=
  Machine.run_invariant (deployed_logBasics balance) (fun _ _ _ hs h => hs.exec h) steps

/-- Every log of every state reached is a chain to the stored status exactly when no new
escrow shares its number with one of the other kind and no rollback changes a status. -/
theorem logsChained_run_iff (digests : Digests) (balance : Addr → Addr → ℤ)
    (steps : List (Step Addr self)) :
    (∀ pre, pre <+: steps →
      LogsChained ((machine self digests).run (deployed balance) pre).custody.book) ↔
    ∀ pre step t, (machine self digests).Executes (deployed balance) steps pre step t →
      KeepsLogs step ((machine self digests).run (deployed balance) pre) := by
  constructor
  · intro hchained pre step t hx
    have hafter := hchained (pre ++ [step]) hx.snoc_prefix
    rw [hx.run_eq] at hafter
    exact exec_keepsLogs (run_logBasics digests balance pre)
      (hchained pre ((List.prefix_append pre [step]).trans hx.snoc_prefix)) hx.exec_eq hafter
  · intro hkeeps pre hpre
    have hboth := Machine.run_invariant_of_executes (M := machine self digests)
      (P := fun s => IdsApart s.custody.book ∧ LogsChained s.custody.book)
      (s := deployed balance) ?_ ?_ pre hpre
    · exact hboth.2
    · exact ⟨fun _ _ h => (nomatch h), fun _ _ h => (nomatch h), fun _ _ h => (nomatch h)⟩
    · intro pre step t hx hbefore
      have hs := run_logBasics digests balance pre
      have hchange := exec_bookChange hs.wellFormed hx.exec_eq
      have hcondition := hkeeps pre step t hx
      exact ⟨hchange.idsApart hs hbefore.1 hcondition,
        hchange.logsChained hs hbefore.1 hbefore.2 hcondition⟩

end Runs

/-- The learner 3 opens a regular escrow and a milestone escrow, both with the number 1. -/
def sharedNumber : List (Step ℕ 0) :=
  [(grantedByAll 0, .initializeEscrow 1 2 500 [9] 0),
    (grantedByAll 0, .custody (.createEscrow 4 3 40 "session" 9 0 1)),
    (grantedByAll 0, .custody (.createMilestoneEscrow 4 3 [⟨0, 40⟩] 9))]

/-- Their common log goes from pending to active twice. -/
theorem sharedNumber_not_chained : ¬ LogsChained
    ((machine 0 lengthDigests).run (deployed learnerFunds) sharedNumber).custody.book := by
  intro h
  have hlog : (((machine 0 lengthDigests).run (deployed learnerFunds)
      sharedNumber).custody.book.transitionLog 1).map (fun entry => (entry.old, entry.new)) =
      [(.pending, .active), (.pending, .active)] := by
    decide
  have hstatus : (((machine 0 lengthDigests).run (deployed learnerFunds)
      sharedNumber).custody.book.escrow 1).map EscrowRecord.status = some .active := by
    decide
  obtain ⟨e, he, -⟩ := Option.map_eq_some_iff.mp hstatus
  have hleads := h.escrow 1 e he
  obtain ⟨first, second, hsplit⟩ : ∃ first second, ((machine 0 lengthDigests).run
      (deployed learnerFunds) sharedNumber).custody.book.transitionLog 1 = [first, second] := by
    exact ⟨_, _, rfl⟩
  rw [hsplit] at hleads hlog
  obtain ⟨-, hsecond, -⟩ := hleads
  simp only [List.map_cons, List.map_nil, List.cons.injEq, Prod.mk.injEq] at hlog
  rw [hlog.1.2, hlog.2.1.1] at hsecond
  cases hsecond

end Escrow
