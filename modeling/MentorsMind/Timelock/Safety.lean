import MentorsMind.Lib.Table
import MentorsMind.Timelock.Effects

/-! When and what the timelock executes. Every operation that is stored was scheduled by the
run, the number in its payload keeps it apart from all others, and once it is done it stays
done. -/
namespace Timelock
open Outcome Soroban Shared

variable {Addr Val : Type} [DecidableEq Addr] {self : Addr}

omit [DecidableEq Addr] in
/-- The operation that a call executes or cancels. -/
def Call.closes : Call Addr Val → Option Hash
  | .execute operationId => some operationId
  | .cancel operationId => some operationId
  | .emergencyCancel _ operationId _ => some operationId
  | _ => none

/-- The step schedules the payload `p`. -/
def SchedulesAs (s : State Addr Val) (step : Step Addr Val self) (p : Payload Addr Val) : Prop :=
  ∃ delay, step.2 = .schedule p.caller p.target p.function p.args delay p.salt ∧
    p = payload s step.1.timestamp p.caller p.target p.function p.args delay p.salt

/-- No two payloads that the run schedules have the same digest. -/
def CollisionFree (digests : Digests Addr Val) (steps : List (Step Addr Val self)) : Prop :=
  ∀ pre step t p pre' step' t' p',
    (machine self digests).Executes (deployed Addr Val) steps pre step t →
    SchedulesAs (reached digests pre) step p →
    (machine self digests).Executes (deployed Addr Val) steps pre' step' t' →
    SchedulesAs (reached digests pre') step' p' →
    digests.operation p = digests.operation p' → p = p'

/-- What the storage knows about the operations of the run. -/
structure Tracked {home : Addr} (digests : Digests Addr Val) (steps : List (Step Addr Val home))
    (s : State Addr Val) : Prop where
  scheduled : ∀ id op, s.op id = some op → ∃ pre step t p,
    (machine home digests).Executes (deployed Addr Val) steps pre step t ∧
      SchedulesAs (reached digests pre) step p ∧ digests.operation p = id ∧
      step.1.timestamp + minDelay ≤ p.readyAt ∧ op = { p.operation with done := op.done }
  numbered : ∀ pre step t p,
    (machine home digests).Executes (deployed Addr Val) steps pre step t →
      SchedulesAs (reached digests pre) step p → s.admin ≠ none ∧ p.count ≤ s.opCount
  closed : ∀ pre step t id,
    (machine home digests).Executes (deployed Addr Val) steps pre step t →
      step.2.closes = some id → ∃ op, s.op id = some op ∧ op.done = true

variable {digests : Digests Addr Val} {pre steps : List (Step Addr Val self)}
  {step : Step Addr Val self} {s t : State Addr Val}

/-- What a step does to the operations. -/
inductive OperationChange (digests : Digests Addr Val) (step : Step Addr Val self)
    (s t : State Addr Val) : Prop
  | same (closes : step.2.closes = none) (schedules : ∀ p, ¬ SchedulesAs s step p)
      (op : t.op = s.op) (admin : s.admin ≠ none → t.admin ≠ none ∧ t.opCount = s.opCount)
      (invoked : t.invoked = s.invoked)
  | scheduled (p : Payload Addr Val) (schedules : SchedulesAs s step p)
      (closes : step.2.closes = none) (le : step.1.timestamp + minDelay ≤ p.readyAt)
      (op : t.op = Function.update s.op (digests.operation p) (some p.operation))
      (admin : t.admin ≠ none) (count : t.opCount = s.opCount + 1)
      (invoked : t.invoked = s.invoked)
  | closed (id : Hash) (old : Operation Addr Val) (closes : step.2.closes = some id)
      (found : s.op id = some old) (pending : old.done = false)
      (op : t.op = Function.update s.op id (some { old with done := true }))
      (admin : t.admin = s.admin) (count : t.opCount = s.opCount)
      (invoked : (∀ id, step.2 ≠ .execute id) → t.invoked = s.invoked)

theorem Effect.operationChange (h : Effect digests step s t) :
    OperationChange digests step s t := by
  cases h with
  | initialized admin call fresh eq =>
    subst eq
    refine .same (by simp [call, Call.closes]) (by simp [SchedulesAs, call]) rfl ?_ rfl
    intro hadmin
    exact absurd fresh hadmin
  | scheduled caller target function args delay salt p call initialized le ge auth payload eq =>
    subst eq
    subst payload
    refine .scheduled _ ⟨delay, call, rfl⟩ (by simp [call, Call.closes]) ?_ rfl initialized rfl rfl
    exact Nat.add_le_add_left le _
  | executed operationId op call found pending window eq =>
    subst eq
    exact .closed operationId op (by simp [call, Call.closes]) found pending rfl rfl rfl
      (fun hcall => absurd call (hcall operationId))
  | cancelled operationId op admin call found pending stored auth eq =>
    subst eq
    exact .closed operationId op (by simp [call, Call.closes]) found pending rfl rfl rfl
      (fun _ => rfl)
  | overridden guardian operationId reasonHash op audit call registered auth found pending recent
      eq =>
    subst eq
    exact .closed operationId op (by simp [call, Call.closes]) found pending rfl rfl rfl
      (fun _ => rfl)
  | guardianSet admin newGuardian call initialized eq =>
    subst eq
    exact .same (by simp [call, Call.closes]) (by simp [SchedulesAs, call]) rfl
      (fun hadmin => ⟨hadmin, rfl⟩) rfl
  | adminTransferred admin newAdmin call stored auth eq =>
    subst eq
    exact .same (by simp [call, Call.closes]) (by simp [SchedulesAs, call]) rfl
      (fun _ => ⟨by simp, rfl⟩) rfl

omit [DecidableEq Addr] in
theorem SchedulesAs.count_eq {p : Payload Addr Val} (h : SchedulesAs s step p) :
    p.count = s.opCount + 1 := by
  obtain ⟨delay, -, hp⟩ := h
  rw [hp]
  rfl

omit [DecidableEq Addr] in
theorem SchedulesAs.closes {p : Payload Addr Val} (h : SchedulesAs s step p) :
    step.2.closes = none := by
  obtain ⟨delay, hcall, -⟩ := h
  rw [hcall]
  rfl

section Step

variable (hs : Tracked digests pre (reached digests pre))
  (h : (machine self digests).exec step (reached digests pre) = .ok t)
include hs h

theorem OperationChange.scheduled_step
    (hchange : OperationChange digests step (reached digests pre) t)
    (id : Hash) (op : Operation Addr Val) (hop : t.op id = some op) :
    ∃ origin first u p,
      (machine self digests).Executes (deployed Addr Val) (pre ++ [step]) origin first u ∧
        SchedulesAs (reached digests origin) first p ∧ digests.operation p = id ∧
        first.1.timestamp + minDelay ≤ p.readyAt ∧ op = { p.operation with done := op.done } := by
  have hold : ∀ old done, (reached digests pre).op id = some old →
      op = { old with done := done } → ∃ origin first u p,
      (machine self digests).Executes (deployed Addr Val) (pre ++ [step]) origin first u ∧
        SchedulesAs (reached digests origin) first p ∧ digests.operation p = id ∧
        first.1.timestamp + minDelay ≤ p.readyAt ∧ op = { p.operation with done := op.done } := by
    intro old done hfound hsame
    obtain ⟨origin, first, u, p, hx, hschedules, hid, hdelay, hterms⟩ := hs.scheduled id old hfound
    refine ⟨origin, first, u, p, hx.append [step], hschedules, hid, hdelay, ?_⟩
    rw [hsame, hterms]
  cases hchange with
  | same closes schedules hops admin invoked =>
    rw [hops] at hop
    exact hold op op.done hop rfl
  | scheduled p schedules closes le hops admin count invoked =>
    rw [hops] at hop
    obtain ⟨rfl, rfl⟩ | ⟨-, hop⟩ := Table.update_eq_some_iff.mp hop
    · exact ⟨pre, step, t, p, Machine.executes_snoc h, schedules, rfl, le, rfl⟩
    · exact hold op op.done hop rfl
  | closed id' old closes found pending hops admin count invoked =>
    rw [hops] at hop
    obtain ⟨rfl, rfl⟩ | ⟨-, hop⟩ := Table.update_eq_some_iff.mp hop
    · exact hold old true found rfl
    · exact hold op op.done hop rfl

theorem OperationChange.numbered_step
    (hchange : OperationChange digests step (reached digests pre) t)
    (origin : List (Step Addr Val self)) (first : Step Addr Val self) (u : State Addr Val)
    (p : Payload Addr Val)
    (hx : (machine self digests).Executes (deployed Addr Val) (pre ++ [step]) origin first u)
    (hp : SchedulesAs (reached digests origin) first p) :
    t.admin ≠ none ∧ p.count ≤ t.opCount := by
  rcases Machine.executes_append_singleton.mp hx with hbefore | ⟨rfl, rfl, -⟩
  · obtain ⟨hadmin, hle⟩ := hs.numbered origin first u p hbefore hp
    cases hchange with
    | same closes schedules hops admin invoked =>
      obtain ⟨hstays, hcount⟩ := admin hadmin
      exact ⟨hstays, by omega⟩
    | scheduled p' schedules closes le hops admin count invoked => exact ⟨admin, by omega⟩
    | closed id old closes found pending hops admin count invoked =>
      rw [admin]
      exact ⟨hadmin, by omega⟩
  · cases hchange with
    | same closes schedules hops admin invoked => exact absurd hp (schedules p)
    | scheduled p' schedules closes le hops admin count invoked =>
      have hcount := hp.count_eq
      exact ⟨admin, by omega⟩
    | closed id old closes found pending hops admin count invoked =>
      rw [hp.closes] at closes
      exact absurd closes (by simp)

/-- A done operation stays done: its id cannot be scheduled again without a collision. -/
theorem OperationChange.closed_step
    (hcollision : ∀ origin first u p p', (machine self digests).Executes (deployed Addr Val) pre
      origin first u → SchedulesAs (reached digests origin) first p →
      SchedulesAs (reached digests pre) step p' →
      digests.operation p = digests.operation p' → p = p')
    (hchange : OperationChange digests step (reached digests pre) t)
    (origin : List (Step Addr Val self)) (call : Step Addr Val self) (u : State Addr Val)
    (id : Hash)
    (hx : (machine self digests).Executes (deployed Addr Val) (pre ++ [step]) origin call u)
    (hcall : call.2.closes = some id) : ∃ op, t.op id = some op ∧ op.done = true := by
  rcases Machine.executes_append_singleton.mp hx with hbefore | ⟨rfl, rfl, -⟩
  · obtain ⟨op, hfound, hdone⟩ := hs.closed origin call u id hbefore hcall
    cases hchange with
    | same closes schedules hops admin invoked => exact ⟨op, by rw [hops, hfound], hdone⟩
    | scheduled p schedules closes le hops admin count invoked =>
      have hne : id ≠ digests.operation p := by
        intro heq
        obtain ⟨place, first, v, p₀, hy, hp₀, hid, -, -⟩ := hs.scheduled id op hfound
        have hsame := hcollision place first v p₀ p hy hp₀ schedules (hid.trans heq)
        have hle := (hs.numbered place first v p₀ hy hp₀).2
        have hcount := schedules.count_eq
        rw [hsame] at hle
        omega
      exact ⟨op, by rw [hops, Function.update_of_ne hne, hfound], hdone⟩
    | closed id' old closes found pending hops admin count invoked =>
      have hne : id ≠ id' := by
        rintro rfl
        obtain rfl : op = old := Option.some.inj (hfound.symm.trans found)
        rw [pending] at hdone
        exact absurd hdone (by simp)
      exact ⟨op, by rw [hops, Function.update_of_ne hne, hfound], hdone⟩
  · cases hchange with
    | same closes => simp [closes] at hcall
    | scheduled p schedules closes => simp [closes] at hcall
    | closed id' old closes found pending hops =>
      obtain rfl : id' = id := Option.some.inj (closes.symm.trans hcall)
      exact ⟨{ old with done := true }, by rw [hops, Function.update_self], rfl⟩

end Step

theorem run_tracked (hcollision : CollisionFree digests steps) :
    ∀ pre, pre <+: steps → Tracked digests pre (reached digests pre) := by
  refine Machine.run_history_of_executes (M := machine self digests)
    (P := fun pre s => Tracked digests pre s) ?_ ?_ ?_
  · exact ⟨fun _ _ hop => (nomatch hop), fun _ _ _ _ hx => absurd hx Machine.not_executes_nil,
      fun _ _ _ _ hx => absurd hx Machine.not_executes_nil⟩
  · intro pre step t hx hs
    have hchange := (exec_effect hx.exec_eq).operationChange
    have hprefix : pre <+: steps := (List.prefix_append pre [step]).trans hx.snoc_prefix
    refine ⟨hchange.scheduled_step hs hx.exec_eq, hchange.numbered_step hs hx.exec_eq,
      hchange.closed_step hs hx.exec_eq ?_⟩
    intro origin first u p p' hy hp hp' heq
    exact hcollision origin first u p pre step t p' (hy.mono hprefix) hp hx hp' heq
  · intro pre step e hs herror
    refine ⟨?_, ?_, ?_⟩
    · simpa only [Machine.executes_snoc_error herror] using hs.scheduled
    · simpa only [Machine.executes_snoc_error herror] using hs.numbered
    · simpa only [Machine.executes_snoc_error herror] using hs.closed

/-- What the run executed or cancelled is reported done from then on. -/
theorem isOperationDone_of_closes {id : Hash} (hcollision : CollisionFree digests steps)
    (hx : (machine self digests).Executes (deployed Addr Val) steps pre step t)
    (hcall : step.2.closes = some id) : isOperationDone (reached digests steps) id = true := by
  have htracked := run_tracked hcollision steps List.prefix_rfl
  obtain ⟨op, hfound, hdone⟩ := htracked.closed pre step t id hx hcall
  unfold isOperationDone
  rw [hfound]
  exact hdone

/-- A run keeps its operations: nothing is executed after it was executed or cancelled, what
is executed was scheduled long enough ago and is called as it was scheduled, and nothing but
an execution calls another contract. The views tell what can be executed and what is closed, and
an operation can be scheduled wherever its delay and its ready time are valid. -/
structure OperationsKept {home : Addr} (digests : Digests Addr Val)
    (steps : List (Step Addr Val home)) : Prop where
  once : ∀ pre inv id t, (machine home digests).Executes (deployed Addr Val) steps pre
      (inv, .execute id) t →
    ∀ earlier step u, (machine home digests).Executes (deployed Addr Val) steps earlier step u →
      earlier.length < pre.length → step.2.closes ≠ some id
  scheduled : ∀ pre inv id t, (machine home digests).Executes (deployed Addr Val) steps pre
      (inv, .execute id) t →
    ∃ origin step u p, (machine home digests).Executes (deployed Addr Val) pre origin step u ∧
      SchedulesAs (reached digests origin) step p ∧ digests.operation p = id ∧
      step.1.timestamp + minDelay ≤ p.readyAt ∧
      p.readyAt + timestampToleranceSecs ≤ inv.timestamp ∧
      inv.timestamp < p.readyAt + operationExpirySecs ∧
      t.invoked = ⟨p.target, p.function, p.args⟩ :: (reached digests pre).invoked
  only : ∀ pre step t, (machine home digests).Executes (deployed Addr Val) steps pre step t →
    (∀ id, step.2 ≠ .execute id) → t.invoked = (reached digests pre).invoked
  done : ∀ pre step t id, (machine home digests).Executes (deployed Addr Val) steps pre step t →
    step.2.closes = some id → isOperationDone (reached digests steps) id = true
  ready : ∀ pre, pre <+: steps → ∀ (inv : Invocation Addr Val home) id,
    (∃ t, execute inv (reached digests pre) id = .ok t) ↔
      isOperationReady inv.timestamp (reached digests pre) id = .ok true ∧
        ∀ op, (reached digests pre).op id = some op →
          inv.accepts ⟨op.target, op.function, op.args⟩ = true
  admitted : ∀ pre, pre <+: steps →
    ∀ (inv : Invocation Addr Val home) caller target function args delay salt,
    (∃ r, schedule digests inv (reached digests pre) caller target function args delay salt =
        .ok r) ↔
      (reached digests pre).admin ≠ none ∧ isValidDelay delay = true ∧ inv.auth caller = true ∧
        (computeReadyAt inv.timestamp delay).isSome = true ∧
        (reached digests pre).opCount + 1 < 2 ^ 64 ∧
        (reached digests pre).operationCount + 1 < 2 ^ 32

theorem operations_kept (hcollision : CollisionFree digests steps) :
    OperationsKept digests steps := by
  have htracked := run_tracked hcollision
  refine ⟨?_, ?_, ?_, fun _ _ _ _ => isOperationDone_of_closes hcollision,
    fun _ _ _ _ => execute_isOk_iff, fun _ _ _ _ _ _ _ _ _ => schedule_isOk_iff⟩
  · intro pre inv id t hx earlier step u hearlier hlt hcall
    have hpre := htracked pre ((List.prefix_append pre [_]).trans hx.snoc_prefix)
    obtain ⟨op, hfound, hdone⟩ := hpre.closed earlier step u id (hearlier.before hx hlt) hcall
    obtain ⟨op', hfound', hpending, -⟩ := execute_spec hx.exec_eq
    obtain rfl : op = op' := Option.some.inj (hfound.symm.trans hfound')
    rw [hpending] at hdone
    exact absurd hdone (by simp)
  · intro pre inv id t hx
    have hpre := htracked pre ((List.prefix_append pre [_]).trans hx.snoc_prefix)
    obtain ⟨op, hfound, hpending, hwindow, rfl⟩ := execute_spec hx.exec_eq
    obtain ⟨origin, step, u, p, horigin, hschedules, hid, hdelay, hterms⟩ :=
      hpre.scheduled id op hfound
    rw [hterms] at hwindow
    refine ⟨origin, step, u, p, horigin, hschedules, hid, hdelay, hwindow.1, hwindow.2, ?_⟩
    show (⟨op.target, op.function, op.args⟩ : ContractCall Addr Val) :: _ = _
    rw [hterms]
    rfl
  · intro pre step t hx hcall
    cases (exec_effect hx.exec_eq).operationChange with
    | same closes schedules hops admin invoked => exact invoked
    | scheduled p schedules closes le hops admin count invoked => exact invoked
    | closed id old closes found pending hops admin count invoked => exact invoked hcall

omit [DecidableEq Addr] in
theorem SchedulesAs.unique {p p' : Payload Addr Val} (h : SchedulesAs s step p)
    (h' : SchedulesAs s step p') : p = p' := by
  obtain ⟨delay, hcall, hp⟩ := h
  obtain ⟨delay', hcall', hp'⟩ := h'
  rw [hcall] at hcall'
  obtain ⟨hcaller, htarget, hfunction, hargs, hdelay, hsalt⟩ := Call.schedule.inj hcall'
  rw [hp, hp', hcaller, htarget, hfunction, hargs, hdelay, hsalt]

/-- The only schedule of a run collides with nothing. -/
theorem collisionFree_of_once {before after : List (Step Addr Val self)} {only : Step Addr Val self}
    (hbefore : ∀ step ∈ before, ∀ s p, ¬ SchedulesAs s step p)
    (hafter : ∀ step ∈ after, ∀ s p, ¬ SchedulesAs s step p) :
    CollisionFree digests (before ++ only :: after) := by
  have hplace : ∀ pre step t p, (machine self digests).Executes (deployed Addr Val)
      (before ++ only :: after) pre step t → SchedulesAs (reached digests pre) step p →
      pre = before ∧ step = only := by
    rintro pre step t p ⟨post, hsteps, -⟩ hp
    rcases List.append_eq_append_iff.mp hsteps with ⟨mid, hpre, hrest⟩ | ⟨mid, hpre, hrest⟩
    · cases mid with
      | nil =>
        obtain ⟨rfl, -⟩ := List.cons.inj hrest
        exact ⟨by simpa using hpre, rfl⟩
      | cons first mid =>
        obtain ⟨-, hrest⟩ := List.cons.inj hrest
        exact absurd hp (hafter step (by rw [hrest]; simp) _ p)
    · cases mid with
      | nil =>
        obtain ⟨rfl, -⟩ := List.cons.inj hrest
        exact ⟨by simpa using hpre.symm, rfl⟩
      | cons first mid =>
        obtain ⟨rfl, -⟩ := List.cons.inj hrest
        exact absurd hp (hbefore step (by rw [hpre]; simp) _ p)
  intro pre step t p pre' step' t' p' hx hp hx' hp' _
  obtain ⟨rfl, rfl⟩ := hplace pre step t p hx hp
  obtain ⟨rfl, rfl⟩ := hplace pre' step' t' p' hx' hp'
  exact hp.unique hp'

/-- Account 1 has the fee set after two days and a minute, and can neither be early nor
repeat it. -/
def feeRun : List (Step ℕ ℕ 0) :=
  [(grantedBy 0 0 [9], .initializeTimelock 9)] ++
    (grantedBy 0 100 [1], .schedule 1 7 "set_fee" [25] minDelay 0) ::
    [(grantedBy 0 172900 [], .execute 1), (grantedBy 0 172960 [], .execute 1),
      (grantedBy 0 172961 [], .execute 1), (grantedBy 0 172962 [9], .cancel 1)]

theorem operations_kept_feeRun :
    OperationsKept countingDigests feeRun ∧
      (reached countingDigests feeRun).invoked = [⟨7, "set_fee", [25]⟩] := by
  refine ⟨operations_kept (collisionFree_of_once ?_ ?_), by decide +kernel⟩
  · rintro step hstep s p ⟨delay, hcall, -⟩
    simp only [List.mem_singleton] at hstep
    rw [hstep] at hcall
    exact absurd hcall (by simp)
  · rintro step hstep s p ⟨delay, hcall, -⟩
    simp only [List.mem_cons, List.not_mem_nil, or_false] at hstep
    rcases hstep with rfl | rfl | rfl | rfl <;> exact absurd hcall (by simp)

end Timelock

/-! Who may cancel an operation: `logic::can_cancel` admits the proposer or the admin, the
entry point asks for the signature of the admin in either case. -/
namespace Timelock
open Outcome Soroban Shared

variable {Addr Val : Type} {self : Addr}

/-- The specification of `cancel`: the operation is there and not done, and its proposer or
the current admin signed. -/
def MayCancel (inv : Invocation Addr Val self) (s : State Addr Val) (operationId : Hash) : Prop :=
  ∃ op, s.op operationId = some op ∧ canTransition op.done = true ∧
    canCancel (inv.auth op.proposer) (s.admin.any inv.auth) = true

/-- The operation is open and its proposer signed, but the admin did not. -/
def ProposerAlone (inv : Invocation Addr Val self) (s : State Addr Val) (operationId : Hash) :
    Prop :=
  ∃ op, s.op operationId = some op ∧ op.done = false ∧ inv.auth op.proposer = true ∧
    s.admin.any inv.auth = false

variable [DecidableEq Addr]

/-- Operations are scheduled after `initialize`, and the admin is only ever replaced. -/
theorem run_admin_of_op (digests : Digests Addr Val) (steps : List (Step Addr Val self)) :
    ∀ id op, (reached digests steps).op id = some op → (reached digests steps).admin ≠ none := by
  refine Machine.run_invariant (M := machine self digests)
    (P := fun s : State Addr Val => ∀ id op, s.op id = some op → s.admin ≠ none) ?_ ?_ steps
  · intro id op hop
    exact (nomatch hop)
  · intro step s t hs hx id op hop
    cases (exec_effect hx).operationChange with
    | same closes schedules hops admin invoked =>
      rw [hops] at hop
      exact (admin (hs id op hop)).1
    | scheduled p schedules closes le hops admin count invoked => exact admin
    | closed id' old closes found pending hops admin count invoked =>
      rw [admin]
      exact hs id' old found

/-- `cancel` meets its specification on exactly the inputs where the proposer is not left
alone: it refuses a proposer who is not the admin. -/
theorem cancel_refines_iff (digests : Digests Addr Val) (steps : List (Step Addr Val self))
    (inv : Invocation Addr Val self) (id : Hash) :
    ((∃ t, cancel inv (reached digests steps) id = .ok t) ↔
      MayCancel inv (reached digests steps) id) ↔
        ¬ ProposerAlone inv (reached digests steps) id := by
  have hadmin := run_admin_of_op digests steps
  generalize reached digests steps = s at hadmin
  have hsucceeds : (∃ t, cancel inv s id = .ok t) ↔
      ∃ op, s.op id = some op ∧ op.done = false ∧ s.admin.any inv.auth = true := by
    constructor
    · rintro ⟨t, h⟩
      obtain ⟨op, admin, hfound, hdone, hstored, hsigned, -⟩ := cancel_eq_ok.mp h
      exact ⟨op, hfound, hdone, by simpa [hstored] using hsigned⟩
    · rintro ⟨op, hfound, hdone, hsigned⟩
      obtain ⟨admin, hstored⟩ := Option.ne_none_iff_exists'.mp (hadmin id op hfound)
      rw [hstored] at hsigned
      exact ⟨_, cancel_eq_ok.mpr ⟨op, admin, hfound, hdone, hstored, hsigned, rfl⟩⟩
  rw [hsucceeds]
  constructor
  · rintro hiff ⟨op, hfound, hdone, hproposer, hunsigned⟩
    obtain ⟨op', -, -, hsigned⟩ := hiff.mpr
      ⟨op, hfound, by simp [canTransition, hdone], by simp [canCancel, hproposer]⟩
    rw [hunsigned] at hsigned
    exact absurd hsigned (by simp)
  · intro hnot
    constructor
    · rintro ⟨op, hfound, hdone, hsigned⟩
      exact ⟨op, hfound, by simp [canTransition, hdone], by simp [canCancel, hsigned]⟩
    · rintro ⟨op, hfound, hdone, hsigned⟩
      have hpending : op.done = false := by simpa [canTransition] using hdone
      refine ⟨op, hfound, hpending, ?_⟩
      by_contra hunsigned
      have hany : s.admin.any inv.auth = false := by simpa using hunsigned
      have hproposer : inv.auth op.proposer = true := by simpa [canCancel, hany] using hsigned
      exact hnot ⟨op, hfound, hpending, hproposer, hany⟩

/-- Account 1 schedules an operation under the admin 9. -/
def proposedRun : List (Step ℕ ℕ 0) :=
  [(grantedBy 0 0 [9], .initializeTimelock 9),
    (grantedBy 0 0 [1], .schedule 1 7 "set_fee" [25] minDelay 0)]

/-- The proposer signs the cancellation of its own operation and is refused. -/
theorem proposer_cannot_cancel :
    ¬ ((∃ t, cancel (grantedBy 0 10 [1]) (reached countingDigests proposedRun) 1 = .ok t) ↔
      MayCancel (grantedBy 0 10 [1]) (reached countingDigests proposedRun) 1) := by
  intro h
  have hmay : MayCancel (grantedBy 0 10 [1]) (reached countingDigests proposedRun) 1 :=
    ⟨⟨1, 7, "set_fee", [25], minDelay, false⟩, by decide +kernel, by decide, by decide +kernel⟩
  obtain ⟨t, ht⟩ := h.mpr hmay
  obtain ⟨op, admin, -, -, hadmin, hsigned, -⟩ := cancel_eq_ok.mp ht
  obtain rfl : 9 = admin := Option.some.inj hadmin
  exact absurd hsigned (by decide)

end Timelock
