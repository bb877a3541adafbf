import MentorsMind.Escrow.Custody
import MentorsMind.PaymentRouter.Effects

/-! Whether routed payments are independent of each other. -/
namespace PaymentRouter
open Outcome Soroban

variable {Addr : Type} [DecidableEq Addr]

section Books

variable {self : Addr} {inv : Escrow.Invocation Addr self} {digests : Escrow.Digests}
  {c : Escrow.Config Addr} {s : Escrow.Custody Addr}

/-- What the escrow contract of this repository keeps of its sessions. -/
def escrowBook (b : Escrow.Book Addr) : EscrowBook := ⟨b.usedSessionNonce, b.escrowCount⟩

/-- The escrow contract of this repository takes each session once. -/
theorem createEscrow_escrowBook {mentor learner token : Addr} {amount : ℤ} {sessionId : String}
    {sessionEndTime totalSessions : ℕ} {x : Escrow.Custody Addr × ℕ}
    (h : Escrow.createEscrow inv digests c s mentor learner amount sessionId token sessionEndTime
      totalSessions = .ok x) :
    (escrowBook s.book).create digests.session true sessionId = .ok (escrowBook x.1.book, x.2) := by
  simp only [Escrow.createEscrow, Escrow.createEscrowInternal, bind_eq_ok, require_eq_ok,
    u64_eq_ok, Escrow.transitionStatus_eq_ok, pure_eq_ok] at h
  obtain ⟨-, -, -, -, -, -, -, -, -, -, -, -, -, -, -, -, -, -, -, hnonce, -, -, -, -, _,
    ⟨hcount, rfl⟩, tokens, -, _, ⟨-, rfl⟩, rfl⟩ := h
  have hunused : s.book.usedSessionNonce (digests.session sessionId) = false := by
    simpa [Shared.validateSessionNonce] using hnonce
  exact EscrowBook.create_eq_ok.mpr ⟨rfl, hunused, hcount, rfl⟩

end Books

section Runs

variable {home : Addr} {digest : String → Hash} {escrows : Addr → EscrowBook}
  {steps : List (Step Addr home)}

omit [DecidableEq Addr] in
/-- No transaction was routed twice, and what was routed has session and escrow ids of its own. -/
structure Distinct (s : State Addr) : Prop where
  transactions : (s.routed.map Routing.sourceTxHash).Nodup
  sessions : (s.routed.map Routing.sessionId).Nodup
  escrowIds : (s.routed.map Routing.escrowId).Nodup

/-- The payment is routed into the next escrow of the contract. -/
structure Creates (s t : State Addr) (p : Payment Addr) (escrowContract : Addr) : Prop where
  count : (t.escrows escrowContract).escrowCount = (s.escrows escrowContract).escrowCount + 1
  routed : ∃ r, t.routed = r :: s.routed ∧ r.sourceTxHash = p.sourceTxHash ∧
    r.escrowContract = escrowContract ∧ r.escrowId = (t.escrows escrowContract).escrowCount

/-- Every payment that the run routes with good inputs gets an escrow, whatever was routed before,
and nothing that was routed shares an id. -/
structure Independent (digest : String → Hash) (escrows : Addr → EscrowBook)
    (steps : List (Step Addr home)) : Prop where
  succeeds : ∀ pre inv p config, pre ++ [(inv, .routePayment p)] <+: steps →
    Admissible inv (reached digest escrows pre) p config →
      ∃ t, routePayment digest inv (reached digest escrows pre) p = .ok t ∧
        Creates (reached digest escrows pre) t p config.escrowContract
  distinct : ∀ pre, pre <+: steps → Distinct (reached digest escrows pre)

/-- Nothing is routed with good inputs once a payment was, and the escrow contract has not seen the
session of the first one. -/
def RoutesOnce (digest : String → Hash) (escrows : Addr → EscrowBook)
    (steps : List (Step Addr home)) : Prop :=
  ∀ pre inv p config, pre ++ [(inv, .routePayment p)] <+: steps →
    Admissible inv (reached digest escrows pre) p config →
      (reached digest escrows pre).routed = [] ∧
        SessionUnused digest (reached digest escrows pre) config.escrowContract p

/-- What the records of the router say of what was routed. -/
structure Recorded (s : State Addr) : Prop where
  configured : s.config = none → s.routed = []
  counted : s.escrowIdCounter = s.routed.length
  processed : ∀ r ∈ s.routed, s.processedTx r.sourceTxHash = true
  once : (s.routed.map Routing.sourceTxHash).Nodup
  session : ∀ r ∈ s.routed, r.sessionId = "RT_ROUT"

omit [DecidableEq Addr] in
theorem Recorded.start : Recorded (deployed escrows) := by
  constructor
  · intro _
    rfl
  · rfl
  · nofun
  · exact List.nodup_nil
  · nofun

omit [DecidableEq Addr] in
theorem Routes.recorded {s t : State Addr} {p : Payment Addr} {config : RouterConfig Addr}
    (h : Routes digest s t p config) (hconfig : s.config = some config)
    (hunrouted : s.processedTx p.sourceTxHash = false) (hs : Recorded s) : Recorded t := by
  constructor
  · intro hnone
    rw [h.config_eq, hconfig] at hnone
    cases hnone
  · rw [h.counter, hs.counted, h.routed, List.length_cons]
  · rw [h.routed, h.processedTx, List.forall_mem_cons]
    constructor
    · exact Function.update_self ..
    · intro r hr
      by_cases heq : r.sourceTxHash = p.sourceTxHash
      · rw [heq, Function.update_self]
      · rw [Function.update_of_ne heq]
        exact hs.processed r hr
  · rw [h.routed, List.map_cons, List.nodup_cons]
    constructor
    · intro hmem
      obtain ⟨r, hr, heq⟩ := List.mem_map.mp hmem
      have hrouted := hs.processed r hr
      rw [heq, hunrouted] at hrouted
      cases hrouted
    · exact hs.once
  · rw [h.routed, List.forall_mem_cons]
    exact ⟨rfl, hs.session⟩

theorem exec_recorded {inv : Invocation Addr home} {call : Call Addr} {s t : State Addr}
    (h : exec digest inv call s = .ok t) (hs : Recorded s) : Recorded t := by
  cases exec_effect h with
  | kept config counter processedTx routed =>
    constructor
    · intro hnone
      rw [routed]
      exact hs.configured (config hnone)
    · rw [routed]
      rcases counter with hkept | ⟨hnone, hzero⟩
      · rw [hkept, hs.counted]
      · rw [hzero, hs.configured hnone, List.length_nil]
    · rw [routed, processedTx]
      exact hs.processed
    · rw [routed]
      exact hs.once
    · rw [routed]
      exact hs.session
  | paid config admissible unused routes =>
    exact routes.recorded admissible.configured admissible.unrouted hs

/-- In every run each transaction is routed at most once, and every session has the same id. -/
theorem reached_recorded (digest : String → Hash) (escrows : Addr → EscrowBook)
    (steps : List (Step Addr home)) : Recorded (reached digest escrows steps) := by
  apply Machine.run_invariant
  · exact .start
  · intro step s t hs hx
    have hexec : exec digest step.1 step.2 s = .ok t := hx
    exact exec_recorded hexec hs

omit [DecidableEq Addr] in
theorem Routes.creates {s t : State Addr} {p : Payment Addr} {config : RouterConfig Addr}
    (h : Routes digest s t p config) : Creates s t p config.escrowContract := by
  constructor
  · rw [h.escrow]
  · rw [h.routed, h.escrow]
    exact ⟨_, rfl, rfl, rfl, rfl⟩

omit [DecidableEq Addr] in
/-- Two routed payments would share the session id. -/
theorem Recorded.length_le {s : State Addr} (hs : Recorded s)
    (h : (s.routed.map Routing.sessionId).Nodup) : s.routed.length ≤ 1 := by
  match hrouted : s.routed with
  | [] => simp
  | [_] => simp
  | r :: r' :: rest =>
    rw [hrouted, List.map_cons, List.map_cons, hs.session r (by simp [hrouted]),
      hs.session r' (by simp [hrouted])] at h
    simp at h

omit [DecidableEq Addr] in
theorem Distinct.of_length_le {s : State Addr} (h : s.routed.length ≤ 1) : Distinct s := by
  match hrouted : s.routed with
  | [] => constructor <;> simp [hrouted]
  | [_] => constructor <;> simp [hrouted]
  | _ :: _ :: _ =>
    rw [hrouted] at h
    simp at h

theorem RoutesOnce.length_le (h : RoutesOnce digest escrows steps) :
    ∀ pre, pre <+: steps → (reached digest escrows pre).routed.length ≤ 1 := by
  apply Machine.run_invariant_of_executes (M := machine digest home)
    (P := fun s => s.routed.length ≤ 1)
  · exact Nat.zero_le 1
  · intro pre step t hx hpre
    obtain ⟨inv, call⟩ := step
    have hexec : exec digest inv call (reached digest escrows pre) = .ok t := hx.exec_eq
    cases exec_effect hexec with
    | kept config counter processedTx routed =>
      rw [routed]
      exact hpre
    | @paid p config admissible unused routes =>
      obtain ⟨hnone, -⟩ := h pre inv p config hx.snoc_prefix admissible
      rw [routes.routed, hnone, List.length_singleton]

/-- Routed payments are independent exactly as long as there is one of them, and nobody took its
session before. -/
theorem independent_iff (digest : String → Hash) (escrows : Addr → EscrowBook)
    (steps : List (Step Addr home)) :
    Independent digest escrows steps ↔ RoutesOnce digest escrows steps := by
  constructor
  · intro h pre inv p config hp hadmissible
    obtain ⟨t, hroute, -⟩ := h.succeeds pre inv p config hp hadmissible
    obtain ⟨config', hadmissible', hunused, hroutes⟩ := routePayment_eq_ok hroute
    obtain rfl := Option.some.inj (hadmissible.configured.symm.trans hadmissible'.configured)
    have hrun : reached digest escrows (pre ++ [(inv, .routePayment p)]) = t := by
      rw [reached, Machine.run_snoc]
      exact Machine.apply_ok hroute
    have hlength := (reached_recorded digest escrows _).length_le (h.distinct _ hp).sessions
    rw [hrun, hroutes.routed, List.length_cons] at hlength
    exact ⟨List.length_eq_zero_iff.mp (by omega), hunused⟩
  · intro h
    constructor
    · intro pre inv p config hp hadmissible
      obtain ⟨hnone, hunused⟩ := h pre inv p config hp hadmissible
      have hcounter : (reached digest escrows pre).escrowIdCounter + 1 < 2 ^ 64 := by
        rw [(reached_recorded digest escrows pre).counted, hnone]
        norm_num
      obtain ⟨t, hroute⟩ := routePayment_isOk hadmissible hunused hcounter
      obtain ⟨config', hadmissible', -, hroutes⟩ := routePayment_eq_ok hroute
      obtain rfl := Option.some.inj (hadmissible.configured.symm.trans hadmissible'.configured)
      exact ⟨t, hroute, hroutes.creates⟩
    · intro pre hp
      exact .of_length_le (h.length_le pre hp)

end Runs

section Second

/-- An invocation that every account signed; the router is address 0. -/
def calm (now : ℕ) : Invocation ℕ 0 where
  toEnv := signedByAll now
  accepts _ := true
  balance _ _ := some 1000
  isVaaProcessed _ _ := some true
  getAssetForToken _ _ := some none
  isPriceManipulated _ _ _ := some false
  escrowAllows _ _ := true
  schedules _ _ _ _ := true

/-- A learner pays mentor 6 in token 9. -/
def paying (learner : ℕ) (sourceTxHash : Hash) : Payment ℕ :=
  ⟨chainStellar, sourceTxHash, learner, 6, 100, 9⟩

def lengthDigest (sessionId : String) : Hash := BitVec.ofNat 256 sessionId.length

/-- An escrow contract without sessions. -/
def emptyBook : EscrowBook := ⟨fun _ => false, 0⟩

/-- Learner 5 routes a payment, and then learner 7 does. -/
def firstRouted : List (Step ℕ 0) :=
  [(calm 0, .init 1 2 3), (calm 0, .setApprovedToken 9 true), (calm 0, .routePayment (paying 5 1))]

def secondRouting : Step ℕ 0 := (calm 0, .routePayment (paying 7 2))

/-- The second payment is refused, although its inputs pass every check. -/
theorem secondRouting_refused : ¬ ∀ steps : List (Step ℕ 0),
    Independent lengthDigest (fun _ => emptyBook) steps := by
  intro h
  have hadmissible : Admissible (calm 0)
      (reached lengthDigest (fun _ => emptyBook) firstRouted) (paying 7 2) ⟨1, 2, 3, none⟩ := by
    constructor
    · rfl
    · rfl
    · decide
    · decide
    · intro hbridged
      exact absurd rfl hbridged
    · decide
    · decide
    · intro _
      rfl
    · nofun
    · intro _
      exact ⟨1000, rfl, by decide⟩
    · intro _ hfee
      exact absurd hfee (by decide)
    · decide
    · rfl
    · decide
  obtain ⟨t, hroute, -⟩ := (h (firstRouted ++ [secondRouting])).succeeds firstRouted (calm 0)
    (paying 7 2) _ List.prefix_rfl hadmissible
  have hrefused : (routePayment lengthDigest (calm 0)
      (reached lengthDigest (fun _ => emptyBook) firstRouted) (paying 7 2)).isOk = false := by
    decide
  rw [hroute] at hrefused
  cases hrefused

end Second

end PaymentRouter
