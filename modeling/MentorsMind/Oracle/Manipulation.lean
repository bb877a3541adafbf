import MentorsMind.Oracle.Readings

/-! How far a single feeder can move the price. -/
namespace Oracle
open Outcome Soroban Shared

variable {Addr Asset : Type} [DecidableEq Addr] [DecidableEq Asset] {self : Addr}

section Law

/-- The readings of everybody but `f` lie in the interval. -/
def OthersWithin (f : Addr) (readings : List (PricePoint Addr)) (a b : ℤ) : Prop :=
  ∀ q ∈ readings, q.feeder ≠ f → a ≤ q.price ∧ q.price ≤ b

instance (f : Addr) (readings : List (PricePoint Addr)) (a b : ℤ) :
    Decidable (OthersWithin f readings a b) :=
  inferInstanceAs (Decidable (∀ q ∈ readings, _))

/-- How many others have readings. -/
def otherFeeders (f : Addr) (readings : List (PricePoint Addr)) : ℕ :=
  countDistinctFeeders (readings.filter fun p => p.feeder ≠ f)

/-- No feeder moves the price out of the range of the others' fresh readings, when at least two
others have some. -/
def Resists (s : State Addr Asset) : Prop :=
  ∀ asset now ledger price lastUpdated,
    getPrice now ledger (s.prices asset) = .ok (price, lastUpdated) →
    ∀ f, 2 ≤ otherFeeders f (fresh now ledger (s.prices asset)) →
    ∀ a b, OthersWithin f (fresh now ledger (s.prices asset)) a b → a ≤ price ∧ price ≤ b

/-- `get_price` reads the fresh readings only, and a reading is none of them any more when it was
submitted more than the staleness bound ago. -/
def Expires (steps : List (Step Addr Asset self)) : Prop :=
  ∀ pre inv feeder asset price timestamp t,
    (machine Asset self).Executes (deployed Addr Asset) steps pre
      (inv, .submitPrice feeder asset price timestamp) t →
    ∀ later, pre ++ [(inv, .submitPrice feeder asset price timestamp)] <+: later →
      later <+: steps → ∀ now ledger, inv.timestamp + maxStalenessSecs < now →
      ⟨price, timestamp, feeder, inv.sequence⟩ ∉
        fresh now ledger ((reached later).prices asset)

end Law

section Counting

/-- The readings of `f` among the survivors that undercut everybody else's. -/
def undercuts (f : Addr) (readings survivors : List (PricePoint Addr)) : ℕ :=
  survivors.countP fun r => r.feeder = f ∧ ∀ q ∈ readings, q.feeder ≠ f → r.price < q.price

/-- The readings of `f` among the survivors that exceed everybody else's. -/
def exceeds (f : Addr) (readings survivors : List (PricePoint Addr)) : ℕ :=
  survivors.countP fun r => r.feeder = f ∧ ∀ q ∈ readings, q.feeder ≠ f → q.price < r.price

/-- On neither side of the others the feeder has enough readings to hold the middle. -/
def Outnumbered (f : Addr) (readings survivors : List (PricePoint Addr)) : Prop :=
  undercuts f readings survivors ≤ survivors.length / 2 ∧
    survivors.length / 2 + exceeds f readings survivors < survivors.length

variable {readings survivors : List (PricePoint Addr)} {f : Addr} {price : ℤ}

omit [DecidableEq Addr] in
theorem prices_countP (p : ℤ → Prop) [DecidablePred p] :
    (prices survivors).countP p = survivors.countP fun r => p r.price := by
  rw [prices, List.countP_map]
  rfl

omit [DecidableEq Addr] in
theorem median_lt_iff (h : (prices survivors).upperMedian = some price) {a : ℤ} :
    price < a ↔ survivors.length / 2 < survivors.countP fun r => r.price < a := by
  rw [List.upperMedian_lt_iff h, prices_countP, prices, List.length_map]

omit [DecidableEq Addr] in
/-- The survivors that are not at most `b` are those beyond it. -/
theorem median_le_iff (h : (prices survivors).upperMedian = some price) {b : ℤ} :
    price ≤ b ↔
      survivors.length / 2 + (survivors.countP fun r => b < r.price) < survivors.length := by
  have hsplit := List.length_eq_countP_add_countP (fun r : PricePoint Addr => r.price ≤ b)
    (l := survivors)
  simp only [decide_eq_true_eq, not_le] at hsplit
  rw [List.upperMedian_le_iff h, prices_countP, prices, List.length_map]
  omega

omit [DecidableEq Addr] in
theorem exists_price_bound (readings : List (PricePoint Addr)) :
    ∃ bound, ∀ q ∈ readings, -bound ≤ q.price ∧ q.price ≤ bound := by
  obtain ⟨bound, hbound⟩ := Finset.exists_le (readings.map fun q => |q.price|).toFinset
  refine ⟨bound, ?_⟩
  intro q hq
  have hmem := hbound |q.price| (List.mem_toFinset.mpr (List.mem_map.mpr ⟨q, hq, rfl⟩))
  exact abs_le.mp hmem

variable {a b : ℤ}

theorem undercuts_le_countP {q : PricePoint Addr} (hq : q ∈ readings) (hother : q.feeder ≠ f) :
    undercuts f readings survivors ≤ survivors.countP fun r => r.price < q.price := by
  apply List.countP_mono_left
  intro r _ hr
  simp only [decide_eq_true_eq] at hr ⊢
  exact hr.2 q hq hother

theorem exceeds_le_countP {q : PricePoint Addr} (hq : q ∈ readings) (hother : q.feeder ≠ f) :
    exceeds f readings survivors ≤ survivors.countP fun r => q.price < r.price := by
  apply List.countP_mono_left
  intro r _ hr
  simp only [decide_eq_true_eq] at hr ⊢
  exact hr.2 q hq hother

/-- Only the feeder itself is below an interval that the others fill. -/
theorem countP_le_undercuts (hsub : ∀ r ∈ survivors, r ∈ readings)
    (hothers : OthersWithin f readings a b) :
    (survivors.countP fun r => r.price < a) ≤ undercuts f readings survivors := by
  apply List.countP_mono_left
  intro r hr hra
  simp only [decide_eq_true_eq] at hra ⊢
  constructor
  · by_contra hother
    exact absurd (hothers r (hsub r hr) hother).1 (not_le.mpr hra)
  · intro q hq hother
    exact hra.trans_le (hothers q hq hother).1

theorem countP_le_exceeds (hsub : ∀ r ∈ survivors, r ∈ readings)
    (hothers : OthersWithin f readings a b) :
    (survivors.countP fun r => b < r.price) ≤ exceeds f readings survivors := by
  apply List.countP_mono_left
  intro r hr hrb
  simp only [decide_eq_true_eq] at hrb ⊢
  constructor
  · by_contra hother
    exact absurd (hothers r (hsub r hr) hother).2 (not_le.mpr hrb)
  · intro q hq hother
    exact (hothers q hq hother).2.trans_lt hrb

/-- A feeder that is outnumbered leaves the middle to the others, and one that is not can hold
it outside of any interval that they fill. -/
theorem within_iff (hsub : ∀ r ∈ survivors, r ∈ readings)
    (h : (prices survivors).upperMedian = some price) :
    (∀ a b, OthersWithin f readings a b → a ≤ price ∧ price ≤ b) ↔
      Outnumbered f readings survivors := by
  constructor
  · intro hwithin
    obtain ⟨bound, hbound⟩ := exists_price_bound readings
    constructor
    · by_contra hmany
      have hbelow : OthersWithin f readings (price + 1) bound := by
        intro q hq hother
        have hlt : price < q.price := by
          rw [median_lt_iff h]
          exact (not_le.mp hmany).trans_le (undercuts_le_countP hq hother)
        constructor
        · omega
        · exact (hbound q hq).2
      have hcontra := (hwithin _ _ hbelow).1
      omega
    · by_contra hmany
      have habove : OthersWithin f readings (-bound) (price - 1) := by
        intro q hq hother
        have hlt : ¬ price ≤ q.price := by
          have hcount : exceeds f readings survivors ≤
              survivors.countP fun r => q.price < r.price := exceeds_le_countP hq hother
          rw [median_le_iff h]
          omega
        constructor
        · exact (hbound q hq).1
        · omega
      have hcontra := (hwithin _ _ habove).2
      omega
  · intro houtnumbered a b hothers
    obtain ⟨hbelow, habove⟩ := houtnumbered
    constructor
    · by_contra hlt
      rw [not_le, median_lt_iff h] at hlt
      have hcount := countP_le_undercuts hsub hothers
      omega
    · rw [median_le_iff h]
      have hcount := countP_le_exceeds hsub hothers
      omega

end Counting

section Condition

/-- Whenever a price is returned, every feeder with two others beside it is outnumbered among the
readings that outlier rejection leaves. -/
def AllOutnumbered (s : State Addr Asset) : Prop :=
  ∀ asset now ledger price lastUpdated med,
    getPrice now ledger (s.prices asset) = .ok (price, lastUpdated) →
    (prices (fresh now ledger (s.prices asset))).upperMedian = some med →
    ∀ f, 2 ≤ otherFeeders f (fresh now ledger (s.prices asset)) →
    Outnumbered f (fresh now ledger (s.prices asset))
      (inliers med (fresh now ledger (s.prices asset)))

/-- No reading is dated after its submission. -/
def NoneAhead (steps : List (Step Addr Asset self)) : Prop :=
  ∀ pre inv feeder asset price timestamp t,
    (machine Asset self).Executes (deployed Addr Asset) steps pre
      (inv, .submitPrice feeder asset price timestamp) t → timestamp ≤ inv.timestamp

omit [DecidableEq Asset] in
theorem resists_iff (s : State Addr Asset) : Resists s ↔ AllOutnumbered s := by
  have hsub : ∀ med (readings : List (PricePoint Addr)), ∀ r ∈ inliers med readings,
      r ∈ readings := fun med readings r hr => List.mem_of_mem_filter hr
  constructor
  · intro h asset now ledger price lastUpdated med hprice hmed f hothers
    obtain ⟨-, -, med', hmed', hmedian⟩ := getPrice_eq_ok.mp hprice
    obtain rfl := Option.some.inj (hmed.symm.trans hmed')
    rw [← within_iff (hsub med _) hmedian]
    exact h asset now ledger price lastUpdated hprice f hothers
  · intro h asset now ledger price lastUpdated hprice f hothers
    obtain ⟨-, -, med, hmed, hmedian⟩ := getPrice_eq_ok.mp hprice
    rw [within_iff (hsub med _) hmedian]
    exact h asset now ledger price lastUpdated med hprice hmed f hothers

/-- What was submitted last is in the window. -/
theorem submitted_mem {pre steps : List (Step Addr Asset self)} {inv : Invocation Addr self}
    {feeder : Addr} {asset : Asset} {price : ℤ} {timestamp : ℕ} {t : State Addr Asset}
    (hx : (machine Asset self).Executes (deployed Addr Asset) steps pre
      (inv, .submitPrice feeder asset price timestamp) t) :
    ⟨price, timestamp, feeder, inv.sequence⟩ ∈ t.prices asset := by
  have h : exec inv (.submitPrice feeder asset price timestamp) (reached pre) = .ok t := hx.exec_eq
  rcases exec_prices h with ⟨hnone, -⟩ | ⟨_, _, _, _, hcall, -, hprices⟩
  · exact absurd rfl (hnone feeder asset price timestamp)
  · obtain ⟨rfl, rfl, rfl, rfl⟩ := Call.submitPrice.inj hcall
    rw [hprices, Function.update_self, maxPoints, List.rtake_concat_succ]
    simp

theorem expires_iff (steps : List (Step Addr Asset self)) : Expires steps ↔ NoneAhead steps := by
  constructor
  · intro h pre inv feeder asset price timestamp t hx
    by_contra hahead
    -- a reading dated ahead is still fresh one second after the bound
    have hgone := h pre inv feeder asset price timestamp t hx _ List.prefix_rfl hx.snoc_prefix
      (inv.timestamp + maxStalenessSecs + 1) (inv.sequence + oracleReorgSafeDepth)
      (Nat.lt_succ_self _)
    apply hgone
    have hafter : reached (pre ++ [(inv, .submitPrice feeder asset price timestamp)]) = t :=
      hx.run_eq
    rw [mem_fresh, mem_timely, hafter]
    refine ⟨⟨submitted_mem hx, ?_⟩, ?_⟩
    · show inv.timestamp + maxStalenessSecs + 1 - timestamp ≤ maxStalenessSecs
      omega
    · show oracleReorgSafeDepth ≤ inv.sequence + oracleReorgSafeDepth - inv.sequence
      omega
  · intro h pre inv feeder asset price timestamp t hx later _ _ now ledger hlate hmem
    rw [mem_fresh, mem_timely] at hmem
    have hdated := h pre inv feeder asset price timestamp t hx
    have htimely : now - timestamp ≤ maxStalenessSecs := hmem.1.2
    omega

/-- No feeder holds the price and no reading outlives the staleness bound, exactly in the runs in
which every feeder is outnumbered and no reading is dated ahead. -/
theorem manipulationResistant_iff (steps : List (Step Addr Asset self)) :
    ((∀ pre, pre <+: steps → Resists (reached pre)) ∧ Expires steps) ↔
      (∀ pre, pre <+: steps → AllOutnumbered (reached pre)) ∧ NoneAhead steps := by
  rw [expires_iff]
  simp only [resists_iff]

end Condition

section Captured

/-- The feeders 5 and 6 submit 100, and feeder 7 submits 200 three times. -/
def capturedRun : List (Step ℕ ℕ 0) :=
  [(atLedgerOne, .initializeOracle 1),
    (atLedgerOne, .addFeeder 1 5),
    (atLedgerOne, .addFeeder 1 6),
    (atLedgerOne, .addFeeder 1 7),
    (atLedgerOne, .submitPrice 5 0 100 1000),
    (atLedgerOne, .submitPrice 6 0 100 1000),
    (atLedgerOne, .submitPrice 7 0 200 1000),
    (atLedgerOne, .submitPrice 7 0 200 1000),
    (atLedgerOne, .submitPrice 7 0 200 1000)]

theorem capturedRun_moves : ¬ ∀ steps : List (Step ℕ ℕ 0),
    (∀ pre, pre <+: steps → Resists (reached pre)) ∧ Expires steps := by
  intro h
  have hprice : getPrice 1000 20 ((reached capturedRun).prices 0) = .ok (200, 1000) := by decide
  have hresists := (h capturedRun).1 capturedRun List.prefix_rfl 0 1000 20 200 1000 hprice 7
    (by decide) 100 100 (by decide)
  exact absurd hresists.2 (by decide)

end Captured

end Oracle
