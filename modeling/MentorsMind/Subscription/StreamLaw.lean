import MentorsMind.Lib.Table
import MentorsMind.Subscription.Streams

/-! The law of a stream: the mentor has what was earned at the last settlement, and a cancelled
deposit is paid out whole. -/
namespace Subscription
open Outcome Soroban Shared

variable {Addr : Type} [DecidableEq Addr] {home : Addr} {s t : State Addr}

/-- Plans are numbered below the counter and have a positive rate. -/
def PlansSound (s : State Addr) : Prop :=
  ∀ i plan, s.streamPlan i = some plan → i < s.streamPlanCounter ∧ 0 < plan.ratePerSecond

theorem plansSound_reached (steps : List (Step Addr home)) : PlansSound (reached steps) := by
  apply Machine.run_invariant (M := machine home) (P := PlansSound)
  · nofun
  · intro step s t hs hx
    obtain ⟨inv, call⟩ := step
    have hkept : t.streamPlan = s.streamPlan → t.streamPlanCounter = s.streamPlanCounter →
        PlansSound t := by
      intro hplans hcounter
      rw [PlansSound, hplans, hcounter]
      exact hs
    cases exec_streamEffect hx with
    | kept stream subs plans planCounter => exact hkept plans planCounter
    | planned positive plans planCounter =>
      rw [PlansSound, plans, planCounter]
      apply Table.forall_update
      · intro i plan hi
        obtain ⟨hlt, hrate⟩ := hs i plan hi
        exact ⟨hlt.trans (Nat.lt_succ_self _), hrate⟩
      · exact ⟨Nat.lt_succ_self _, positive⟩
    | opened plan opens => exact hkept opens.plans opens.planCounter
    | withdrawn r plan now time due settles => exact hkept settles.plans settles.planCounter
    | cancelled r plan active settles => exact hkept settles.plans settles.planCounter

/-- What a call on the stream `id` brings to the addresses that satisfy `p`. -/
def receipt (id : ℕ) (token : Addr) (p : Addr → Prop) [DecidablePred p] (s : State Addr)
    (step : Step Addr home) (t : State Addr) : ℤ :=
  if step.2.stream = some id then receivedBy token p t.transfers - receivedBy token p s.transfers
  else 0

def settlementTime (id : ℕ) (_ : State Addr) (step : Step Addr home) (_ : State Addr) : Option ℕ :=
  if step.2.stream = some id then some step.1.timestamp else none

/-- A run from deployment in which a stream is opened, with a clock that does not go back. -/
structure Stream (Addr : Type) [DecidableEq Addr] (home : Addr) where
  early : List (Step Addr home)
  inv : Invocation Addr home
  learner : Addr
  planId : ℕ
  deposit : ℤ
  plan : StreamPlan Addr
  planned : (reached early).streamPlan planId = some plan
  opened : State Addr
  accepted : exec inv (.subscribeStreaming learner planId deposit) (reached early) = .ok opened
  /-- The deposit is an `i128`. -/
  representable : FitsI128 deposit
  late : List (Step Addr home)
  clock : (inv.timestamp :: late.map fun step => step.1.timestamp).Pairwise (· ≤ ·)

namespace Stream

variable (c : Stream Addr home)

def id : ℕ := (reached c.early).streamSubCounter

/-- The state at the end. -/
def state : State Addr := (machine home).run c.opened c.late

/-- The ledger time at the end. -/
def lastTime (late : List (Step Addr home)) : ℕ :=
  (late.map fun step => step.1.timestamp).getLast?.getD c.inv.timestamp

/-- When the stream was settled last; the opening counts as a settlement. -/
def lastSettlement (late : List (Step Addr home)) : ℕ :=
  ((machine home).collect (settlementTime c.id) c.opened late).getLast?.getD c.inv.timestamp

def earned (now : ℕ) : ℤ := min ((now - c.inv.timestamp : ℕ) * c.plan.ratePerSecond) c.deposit

/-- What the addresses that satisfy `p` have received from the stream. -/
def received (p : Addr → Prop) [DecidablePred p] (late : List (Step Addr home)) : ℤ :=
  (machine home).tally (receipt c.id c.plan.token p) c.opened late

def Active : Prop := ∃ r, c.state.streamSub c.id = some r ∧ r.isActive = true

def Cancelled : Prop := ∃ r, c.state.streamSub c.id = some r ∧ r.isActive = false

/-- What a stream promises. Where learner and mentor are one account its receipts from a cancelled
stream are both shares. -/
structure Lawful : Prop where
  earned : c.Active ∨ c.learner ≠ c.plan.mentor →
    c.received (fun a => a = c.plan.mentor) c.late = c.earned (c.lastSettlement c.late)
  whole : c.Cancelled →
    c.received (fun a => a = c.plan.mentor ∨ a = c.learner) c.late = c.deposit
  finished : c.Cancelled → ∀ (inv : Invocation Addr home) call t, call.stream = some c.id →
    exec inv call c.state ≠ .ok t
  cancels : c.Active → ∀ inv : Invocation Addr home, c.lastTime c.late ≤ inv.timestamp →
    inv.timestamp < 2 ^ 64 → inv.auth c.learner = true →
    (∀ x, c.state.escrow = some x.source → inv.accepts x = true) →
    ∃ t, exec inv (.cancelStreaming c.learner c.id) c.state = .ok t

/-- What a run after the opening keeps, where `t` is its last state. -/
structure Books (late : List (Step Addr home)) (t : State Addr) : Prop where
  counter : c.id < t.streamSubCounter
  planCounter : c.planId < t.streamPlanCounter
  planned : t.streamPlan c.planId = some c.plan
  escrow : t.escrow ≠ none
  kept : ∃ r, t.streamSub c.id = some r ∧ r.learner = c.learner ∧ r.mentor = c.plan.mentor ∧
    r.planId = c.planId ∧ r.start = c.inv.timestamp ∧ r.balanceDeposited = c.deposit ∧
    r.withdrawnByMentor = c.earned (c.lastSettlement late) ∧
    (r.isActive = false → r.endedAt = c.lastSettlement late) ∧
    ∀ (p : Addr → Prop) [DecidablePred p], c.received p late =
      (if p c.plan.mentor then r.withdrawnByMentor else 0) +
      (if p c.learner then (if r.isActive then 0 else c.deposit - r.withdrawnByMentor) else 0)

variable {c}

theorem rate_pos : 0 < c.plan.ratePerSecond :=
  (plansSound_reached c.early c.planId c.plan c.planned).2

theorem earned_mono {now later : ℕ} (h : now ≤ later) : c.earned now ≤ c.earned later := by
  have helapsed : now - c.inv.timestamp ≤ later - c.inv.timestamp := Nat.sub_le_sub_right h _
  apply min_le_min_right
  exact mul_le_mul_of_nonneg_right (by exact_mod_cast helapsed) rate_pos.le

theorem earnedBy_eq {r : StreamingSubscription Addr} (hstart : r.start = c.inv.timestamp)
    (hdeposit : r.balanceDeposited = c.deposit) (now : ℕ) :
    earnedBy r c.plan.ratePerSecond now = c.earned now := by
  rw [earnedBy, hstart, hdeposit, earned]

theorem Books.start : Books c [] c.opened := by
  obtain ⟨plan, hopens⟩ := subscribeStreaming_opens c.accepted
  obtain rfl := Option.some.inj (hopens.found.symm.trans c.planned)
  constructor
  · rw [hopens.subCounter]
    exact Nat.lt_succ_self _
  · rw [hopens.planCounter]
    exact (plansSound_reached c.early c.planId c.plan c.planned).1
  · rw [hopens.plans]
    exact c.planned
  · exact (exec_effect c.accepted).escrow hopens.escrow
  · refine ⟨_, by rw [hopens.subs, id, Function.update_self], rfl, rfl, rfl, rfl, rfl, ?_, ?_,
      ?_⟩
    · simp only [earned, lastSettlement, Machine.collect_nil, List.getLast?_nil, Option.getD_none,
        Nat.sub_self, Nat.cast_zero, zero_mul]
      exact (min_eq_left hopens.positive.le).symm
    · intro hinactive
      cases hinactive
    · intro p _
      simp [received]

theorem lastSettlement_mem (late : List (Step Addr home)) :
    c.lastSettlement late ∈ c.inv.timestamp :: late.map fun step => step.1.timestamp := by
  unfold lastSettlement
  cases hlast : ((machine home).collect (settlementTime c.id) c.opened late).getLast? with
  | none => simp
  | some time =>
    obtain ⟨pre, step, t, hx, htime⟩ :=
      Machine.exists_of_mem_collect (List.mem_of_getLast? hlast)
    unfold settlementTime at htime
    split_ifs at htime
    obtain rfl := Option.some.inj htime
    exact List.mem_cons_of_mem _ (List.mem_map_of_mem hx.mem)

/-- The clock does not go back behind a settlement. -/
theorem lastSettlement_le {late rest : List (Step Addr home)} {step : Step Addr home}
    (hlate : late ++ step :: rest = c.late) : c.lastSettlement late ≤ step.1.timestamp := by
  have hclock := c.clock
  rw [← hlate, List.map_append, ← List.cons_append, List.map_cons] at hclock
  exact (List.pairwise_append.mp hclock).2.2 _ (lastSettlement_mem late) _ List.mem_cons_self

/-- A call that does not settle the stream leaves the books as they are. -/
theorem Books.other {late : List (Step Addr home)} {step : Step Addr home} {t : State Addr}
    (hx : (machine home).exec step ((machine home).run c.opened late) = .ok t)
    (h : Books c late ((machine home).run c.opened late)) (hstream : step.2.stream ≠ some c.id)
    (hsub : t.streamSub c.id = ((machine home).run c.opened late).streamSub c.id)
    (hplan : t.streamPlan c.planId = ((machine home).run c.opened late).streamPlan c.planId)
    (hcounter : c.id < t.streamSubCounter) (hplanCounter : c.planId < t.streamPlanCounter) :
    Books c (late ++ [step]) t := by
  obtain ⟨-, -, hplanned, hescrow, r, hr, hlearner, hmentor, hplanId, hstart, hdeposit, hwithdrawn,
    hended, hreceived⟩ := h
  have hlast : c.lastSettlement (late ++ [step]) = c.lastSettlement late := by
    rw [lastSettlement, Machine.collect_snoc_ok hx, settlementTime, if_neg hstream]
    simp [lastSettlement]
  constructor
  · exact hcounter
  · exact hplanCounter
  · rw [hplan]
    exact hplanned
  · exact (step_effect hx).escrow hescrow
  · rw [hlast]
    refine ⟨r, hsub.trans hr, hlearner, hmentor, hplanId, hstart, hdeposit, hwithdrawn, hended, ?_⟩
    intro p _
    rw [received, Machine.tally_snoc_ok hx, receipt, if_neg hstream, add_zero]
    exact hreceived p

/-- A settlement at the time of the call. -/
theorem Books.settled {late : List (Step Addr home)} {step : Step Addr home} {t : State Addr}
    {r r' : StreamingSubscription Addr} {refund : ℤ}
    (hx : (machine home).exec step ((machine home).run c.opened late) = .ok t)
    (h : Books c late ((machine home).run c.opened late)) (hstream : step.2.stream = some c.id)
    (hle : c.lastSettlement late ≤ step.1.timestamp) (hactive : r.isActive = true)
    (hsettles : Settles ((machine home).run c.opened late) t c.id r r' c.plan step.1.timestamp
      refund)
    (hsame : r'.learner = r.learner ∧ r'.mentor = r.mentor ∧ r'.planId = r.planId ∧
      r'.start = r.start ∧ r'.balanceDeposited = r.balanceDeposited)
    (hwithdrawn' : r'.withdrawnByMentor = earnedBy r c.plan.ratePerSecond step.1.timestamp)
    (hended' : r'.isActive = false → r'.endedAt = step.1.timestamp)
    (hrefund : refund = if r'.isActive then 0 else r.balanceDeposited - r'.withdrawnByMentor) :
    Books c (late ++ [step]) t := by
  obtain ⟨hcounter, hplanCounter, hplanned, hescrow, r₀, hr, hlearner, hmentor, hplanId, hstart,
    hdeposit, hwithdrawn, hended, hreceived⟩ := h
  obtain rfl := Option.some.inj (hsettles.found.symm.trans hr)
  have hlast : c.lastSettlement (late ++ [step]) = step.1.timestamp := by
    rw [lastSettlement, Machine.collect_snoc_ok hx, settlementTime, if_pos hstream]
    simp
  have hgrown := earned_mono (c := c) hle
  rw [earnedBy_eq hstart hdeposit] at hwithdrawn'
  constructor
  · rw [hsettles.subCounter]
    exact hcounter
  · rw [hsettles.planCounter]
    exact hplanCounter
  · rw [hsettles.plans]
    exact hplanned
  · exact (step_effect hx).escrow hescrow
  · rw [hlast]
    refine ⟨r', by rw [hsettles.subs, Function.update_self], hsame.1.trans hlearner,
      hsame.2.1.trans hmentor, hsame.2.2.1.trans hplanId, hsame.2.2.2.1.trans hstart,
      hsame.2.2.2.2.trans hdeposit, hwithdrawn', hended', ?_⟩
    intro p _
    have hbefore := hreceived p
    rw [hactive, if_pos rfl, ite_self, add_zero] at hbefore
    have hreceipt : received c p (late ++ [step]) = received c p late +
        (receivedBy c.plan.token p t.transfers -
          receivedBy c.plan.token p ((machine home).run c.opened late).transfers) := by
      rw [received, Machine.tally_snoc_ok hx, receipt, if_pos hstream]
      rfl
    rw [hreceipt, hsettles.receipts p, hbefore, hmentor, hlearner, hrefund, hwithdrawn',
      earnedBy_eq hstart hdeposit, hwithdrawn, hdeposit, max_eq_left (sub_nonneg.mpr hgrown)]
    split_ifs <;> ring

/-- One call keeps the books. -/
theorem Books.step {late rest : List (Step Addr home)} {step : Step Addr home} {t : State Addr}
    (hlate : late ++ step :: rest = c.late)
    (hx : (machine home).exec step ((machine home).run c.opened late) = .ok t)
    (h : Books c late ((machine home).run c.opened late)) : Books c (late ++ [step]) t := by
  have hle := lastSettlement_le hlate
  obtain ⟨inv, call⟩ := step
  have hkept := h
  obtain ⟨hcounter, hplanCounter, hplanned, -, r₀, hr, -, -, hplanId, hstart, hdeposit, hwithdrawn,
    hended, -⟩ := hkept
  -- a settlement of another stream
  have hothers : ∀ {id now refund r r' plan}, id ≠ c.id → call.stream = some id →
      Settles ((machine home).run c.opened late) t id r r' plan now refund →
        Books c (late ++ [(inv, call)]) t := by
    intro id now refund r r' plan hid hcall hsettles
    apply h.other hx
    · intro heq
      exact hid (Option.some.inj (hcall.symm.trans heq))
    · rw [hsettles.subs, Function.update_of_ne (Ne.symm hid)]
    · rw [hsettles.plans]
    · rw [hsettles.subCounter]
      exact hcounter
    · rw [hsettles.planCounter]
      exact hplanCounter
  have heffect : StreamEffect inv ((machine home).run c.opened late) t call := exec_streamEffect hx
  cases heffect with
  | kept stream subs plans planCounter subCounter =>
    apply h.other hx
    · intro heq
      rw [stream] at heq
      cases heq
    · rw [subs]
    · rw [plans]
    · rw [subCounter]
      exact hcounter
    · rw [planCounter]
      exact hplanCounter
  | planned positive plans planCounter subs subCounter =>
    apply h.other hx
    · nofun
    · rw [subs]
    · rw [plans, Function.update_of_ne hplanCounter.ne]
    · rw [subCounter]
      exact hcounter
    · rw [planCounter]
      exact hplanCounter.trans (Nat.lt_succ_self _)
  | opened plan opens =>
    apply h.other hx
    · nofun
    · rw [opens.subs, Function.update_of_ne hcounter.ne]
    · rw [opens.plans]
    · rw [opens.subCounter]
      exact hcounter.trans (Nat.lt_succ_self _)
    · rw [opens.planCounter]
      exact hplanCounter
  | @withdrawn mentor id r plan now time due settles =>
    by_cases hid : id = c.id
    · subst hid
      obtain rfl := Option.some.inj (settles.found.symm.trans hr)
      have hplan := settles.planned
      rw [hplanId, hplanned] at hplan
      obtain rfl := Option.some.inj hplan
      rw [earnedBy_eq hstart hdeposit] at due
      by_cases hactive : r.isActive = true
      · rw [if_pos hactive] at time
        subst time
        exact h.settled hx rfl hle hactive settles ⟨rfl, rfl, rfl, rfl, rfl⟩ rfl
          (fun hinactive => absurd (hactive.symm.trans hinactive) (by decide)) (by simp [hactive])
      · -- a cancelled stream has been settled in full
        have hinactive := Bool.eq_false_iff.mpr hactive
        rw [if_neg hactive, hended hinactive] at time
        rw [time, ← hwithdrawn] at due
        exact absurd due (lt_irrefl _)
    · exact hothers hid rfl settles
  | @cancelled learner id r plan active settles =>
    by_cases hid : id = c.id
    · subst hid
      obtain rfl := Option.some.inj (settles.found.symm.trans hr)
      have hplan := settles.planned
      rw [hplanId, hplanned] at hplan
      obtain rfl := Option.some.inj hplan
      exact h.settled hx rfl hle active settles ⟨rfl, rfl, rfl, rfl, rfl⟩ rfl (fun _ => rfl) rfl
    · exact hothers hid rfl settles

theorem books (c : Stream Addr home) : Books c c.late c.state := by
  have hprefix : ∀ late, late <+: c.late → Books c late ((machine home).run c.opened late) := by
    apply Machine.run_history_of_executes (M := machine home) (P := fun late t => Books c late t)
    · exact Books.start
    · intro late step t hx hlate
      obtain ⟨rest, hrest, hexec⟩ := hx
      exact hlate.step hrest.symm hexec
    · intro late step e hlate herror
      have hlast : c.lastSettlement (late ++ [step]) = c.lastSettlement late := by
        rw [lastSettlement, Machine.collect_snoc_error herror, lastSettlement]
      have hreceived : ∀ (p : Addr → Prop) [DecidablePred p],
          c.received p (late ++ [step]) = c.received p late := fun p _ =>
        Machine.tally_snoc_error herror
      obtain ⟨hcounter, hplanCounter, hplanned, hescrow, hkept⟩ := hlate
      constructor
      · exact hcounter
      · exact hplanCounter
      · exact hplanned
      · exact hescrow
      · simpa only [hlast, hreceived] using hkept
  exact hprefix c.late List.prefix_rfl

/-- Every later time at which the learner may cancel: the product that is not checked fits. -/
def Affordable (c : Stream Addr home) : Prop :=
  c.Active → ∀ now, c.lastTime c.late ≤ now → now < 2 ^ 64 →
    FitsI128 ((now - c.inv.timestamp : ℕ) * c.plan.ratePerSecond)

omit [DecidableEq Addr] in
theorem transferPositive_isOk {inv : Invocation Addr home} {token source recipient : Addr}
    {amount : ℤ} (haccepts : inv.accepts ⟨token, source, recipient, max amount 0⟩ = true) :
    ∃ t, transferPositive inv s token source recipient amount = .ok t := by
  unfold transferPositive
  split_ifs with hpos
  · rw [max_eq_left hpos.le] at haccepts
    exact ⟨_, transfer_eq_ok.mpr ⟨hpos.le, haccepts, rfl⟩⟩
  · exact ⟨s, rfl⟩

theorem Books.cancels {inv : Invocation Addr home} (h : Books c c.late c.state)
    (hactive : c.Active) (hfits : FitsI128 ((inv.timestamp - c.inv.timestamp : ℕ) *
      c.plan.ratePerSecond)) (hle : c.lastSettlement c.late ≤ inv.timestamp)
    (hauth : inv.auth c.learner = true)
    (haccepts : ∀ x, c.state.escrow = some x.source → inv.accepts x = true) :
    ∃ t, exec inv (.cancelStreaming c.learner c.id) c.state = .ok t := by
  obtain ⟨-, -, hplanned, hescrow, r, hr, hlearner, hmentor, hplanId, hstart, hdeposit, hwithdrawn,
    -, -⟩ := h
  obtain ⟨r', hr', hactive⟩ := hactive
  obtain rfl := Option.some.inj (hr.symm.trans hr')
  obtain ⟨escrow, hescrow⟩ := Option.ne_none_iff_exists'.mp hescrow
  have hgrown := earned_mono (c := c) hle
  have hcap : c.earned inv.timestamp ≤ c.deposit := min_le_right _ _
  have hpos : 0 ≤ c.earned (c.lastSettlement c.late) := by
    apply le_min
    · exact mul_nonneg (Int.natCast_nonneg _) rate_pos.le
    · obtain ⟨plan, hopens⟩ := subscribeStreaming_opens c.accepted
      exact hopens.positive.le
  have hdepositFits := c.representable
  unfold FitsI128 at hdepositFits
  obtain ⟨settled, hsettled⟩ := transferPositive_isOk (s := { c.state with
      streamSub := Function.update c.state.streamSub c.id (some { r with
        isActive := false
        endedAt := inv.timestamp
        withdrawnByMentor := c.earned inv.timestamp }) })
    (haccepts ⟨c.plan.token, escrow, r.mentor,
      max (c.earned inv.timestamp - r.withdrawnByMentor) 0⟩ hescrow)
  obtain ⟨t, ht⟩ := transferPositive_isOk (s := settled)
    (haccepts ⟨c.plan.token, escrow, c.learner, max (c.deposit - c.earned inv.timestamp) 0⟩ hescrow)
  refine ⟨t, ?_⟩
  simp only [exec, cancelStreaming, bind_eq_ok, requireAuth_eq_ok, expect_eq_ok, require_eq_ok,
    totalEarned_eq_ok, i128_eq_ok]
  refine ⟨(), hauth, r, hr, (), hlearner, (), hactive, c.plan, by rw [hplanId]; exact hplanned,
    c.earned inv.timestamp, ⟨by rw [hstart]; exact hfits, earnedBy_eq hstart hdeposit _⟩,
    _, ⟨?_, rfl⟩, _, ⟨?_, rfl⟩, escrow, hescrow, settled, hsettled, ?_⟩
  · rw [hwithdrawn]
    constructor
    · omega
    · omega
  · rw [hdeposit]
    constructor
    · omega
    · omega
  · rw [hdeposit]
    exact ht

theorem lastSettlement_le_lastTime (c : Stream Addr home) :
    c.lastSettlement c.late ≤ c.lastTime c.late := by
  rcases List.eq_nil_or_concat c.late with hnil | ⟨early, last, hlast⟩
  · rw [hnil]
    exact le_rfl
  · have hclock := c.clock
    have hmem := lastSettlement_mem (c := c) c.late
    have hend : c.lastTime c.late = last.1.timestamp := by
      rw [lastTime, hlast]
      simp
    rw [hlast, List.concat_eq_append, List.map_append, ← List.cons_append] at hclock hmem
    rw [hend, hlast, List.concat_eq_append]
    rcases List.mem_append.mp hmem with hbefore | hlastMem
    · exact (List.pairwise_append.mp hclock).2.2 _ hbefore _ List.mem_cons_self
    · exact (List.mem_singleton.mp hlastMem).le

/-- A cancellation that goes through has computed the product. -/
theorem Books.fits {inv : Invocation Addr home} (h : Books c c.late c.state)
    (hexec : exec inv (.cancelStreaming c.learner c.id) c.state = .ok t) :
    FitsI128 ((inv.timestamp - c.inv.timestamp : ℕ) * c.plan.ratePerSecond) := by
  obtain ⟨-, -, hplanned, -, r, hr, -, -, hplanId, hstart, -⟩ := h
  cases exec_streamEffect hexec with
  | kept stream => cases stream
  | cancelled r' plan' active settles =>
    obtain rfl := Option.some.inj (settles.found.symm.trans hr)
    have hplan := settles.planned
    rw [hplanId, hplanned] at hplan
    obtain rfl := Option.some.inj hplan
    have hfits := settles.fits
    rw [hstart] at hfits
    exact hfits

/-- No call on a cancelled stream goes through. -/
theorem Books.finished {inv : Invocation Addr home} {call : Call Addr}
    (h : Books c c.late c.state) (hcancelled : c.Cancelled) (hstream : call.stream = some c.id) :
    exec inv call c.state ≠ .ok t := by
  obtain ⟨-, -, hplanned, -, r, hr, -, -, hplanId, hstart, hdeposit, hwithdrawn, hended, -⟩ := h
  obtain ⟨r', hr', hinactive⟩ := hcancelled
  obtain rfl := Option.some.inj (hr.symm.trans hr')
  intro hexec
  cases exec_streamEffect hexec with
  | kept stream =>
    rw [stream] at hstream
    cases hstream
  | planned => cases hstream
  | opened => cases hstream
  | withdrawn r' plan now time due settles =>
    obtain rfl := Option.some.inj hstream
    obtain rfl := Option.some.inj (settles.found.symm.trans hr)
    have hplan := settles.planned
    rw [hplanId, hplanned] at hplan
    obtain rfl := Option.some.inj hplan
    rw [hinactive, hended hinactive] at time
    rw [earnedBy_eq hstart hdeposit, time, hwithdrawn] at due
    exact absurd due (lt_irrefl _)
  | cancelled r' plan active settles =>
    obtain rfl := Option.some.inj hstream
    obtain rfl := Option.some.inj (settles.found.symm.trans hr)
    exact absurd (active.symm.trans hinactive) (by decide)

/-- A stream keeps its law exactly if, while it is active, the product fits at every time at which
the learner may cancel. -/
theorem lawful_iff (c : Stream Addr home) : c.Lawful ↔ c.Affordable := by
  have hbooks := books c
  constructor
  · intro h hactive now hlast hbound
    obtain ⟨plan, hopens⟩ := subscribeStreaming_opens c.accepted
    -- the learner cancels at that time and the token lets every payment pass
    let inv : Invocation Addr home := {
      timestamp := now
      sequence := 0
      auth a := a ≠ home
      auth_home := by simp
      accepts _ := true
      balance _ _ := none }
    obtain ⟨t, ht⟩ := h.cancels hactive inv hlast hbound
      (decide_eq_true (Env.ne_self_of_auth hopens.auth)) fun _ _ => rfl
    exact hbooks.fits ht
  · intro haffordable
    have hkept := hbooks
    obtain ⟨-, -, -, -, r, hr, -, -, -, -, -, hwithdrawn, -, hreceived⟩ := hkept
    constructor
    · intro hshares
      rw [hreceived, if_pos rfl, hwithdrawn]
      rcases hshares with hactive | hne
      · obtain ⟨r', hr', hactive⟩ := hactive
        obtain rfl := Option.some.inj (hr.symm.trans hr')
        rw [hactive, if_pos rfl, ite_self, add_zero]
      · rw [if_neg hne, add_zero]
    · intro hcancelled
      obtain ⟨r', hr', hinactive⟩ := hcancelled
      obtain rfl := Option.some.inj (hr.symm.trans hr')
      rw [hreceived, if_pos (.inl rfl), if_pos (.inr rfl), hinactive]
      simp
    · intro hcancelled inv call t hstream
      exact hbooks.finished hcancelled hstream
    · intro hactive inv hlast hbound hauth haccepts
      exact hbooks.cancels hactive (haffordable hactive inv.timestamp hlast hbound)
        ((lastSettlement_le_lastTime c).trans hlast) hauth haccepts

end Stream

section Overflow

/-- An invocation at time `now` that every account signed; the contract is address 0. -/
def calm (now : ℕ) : Invocation ℕ 0 where
  toEnv := signedByAll now
  accepts _ := true
  balance _ _ := none

def streamPrelude : List (Step ℕ 0) :=
  [(calm 100, .initializeSubscription 1 2), (calm 100, .createStreamingPlan 4 (2 ^ 126) 9)]

def streamOpening : Step ℕ 0 := (calm 100, .subscribeStreaming 5 0 10)

/-- A deposit of 10 at a rate of `2 ^ 126`. -/
def steepStream : Stream ℕ 0 where
  early := streamPrelude
  inv := calm 100
  learner := 5
  planId := 0
  deposit := 10
  plan := ⟨4, 2 ^ 126, 9⟩
  planned := rfl
  opened := reached (streamPrelude ++ [streamOpening])
  accepted := by
    have hx : (machine 0).Executes deployed (streamPrelude ++ [streamOpening]) streamPrelude
        streamOpening (reached (streamPrelude ++ [streamOpening])) := by
      apply Machine.executes_of_run_ne
      intro heq
      exact absurd (congrArg (fun u : State ℕ => u.streamSubCounter) heq) (by decide)
    exact hx.exec_eq
  representable := by decide
  late := []
  clock := by decide

/-- Two seconds later the learner cannot cancel any more. -/
theorem steepStream_stuck : ¬ ∀ c : Stream ℕ 0, c.Lawful := by
  intro h
  obtain ⟨t, ht⟩ := (h steepStream).cancels ⟨_, rfl, rfl⟩ (calm 102) (by decide) (by decide) rfl
    fun _ _ => rfl
  have hstuck : (exec (calm 102) (.cancelStreaming steepStream.learner steepStream.id)
      steepStream.state).isOk = false := by decide
  rw [ht] at hstuck
  cases hstuck

end Overflow

end Subscription
