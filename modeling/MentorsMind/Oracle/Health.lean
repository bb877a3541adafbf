import MentorsMind.Oracle.Readings

/-! The health of a feed beside its price. -/
namespace Oracle
open Outcome Soroban Shared

variable {Addr Asset : Type} [DecidableEq Addr] [DecidableEq Asset] {self : Addr}
  {now ledger : ℕ} {points : List (PricePoint Addr)}

/-- The health view and the price tell the same. -/
structure Agrees (now ledger : ℕ) (points : List (PricePoint Addr)) : Prop where
  priced : (minFeeders ≤ (getOracleHealth now points).activeFeeders ∧
      (getOracleHealth now points).isStale = false) ↔
    ∃ price lastUpdated, getPrice now ledger points = .ok (price, lastUpdated)
  dated : ∀ price lastUpdated, getPrice now ledger points = .ok (price, lastUpdated) →
    (getOracleHealth now points).lastUpdate = lastUpdated

/-- The timely readings that are too recent for the price make no difference: not to the number of
feeders, and not to the latest timestamp. -/
structure Settled (now ledger : ℕ) (points : List (PricePoint Addr)) : Prop where
  feeders : minFeeders ≤ countDistinctFeeders (timely now points) →
    minFeeders ≤ countDistinctFeeders (fresh now ledger points)
  latest : minFeeders ≤ countDistinctFeeders (fresh now ledger points) →
    ∀ p ∈ timely now points, ∃ q ∈ fresh now ledger points, p.timestamp ≤ q.timestamp

section Timestamps

omit [DecidableEq Addr] in
/-- The loop keeps the largest timestamp, from `start` on. -/
theorem foldl_timestamp (points : List (PricePoint Addr)) (start : ℕ) :
    (start ≤ points.foldl (fun last p => if last < p.timestamp then p.timestamp else last) start ∧
      ∀ p ∈ points, p.timestamp ≤
        points.foldl (fun last p => if last < p.timestamp then p.timestamp else last) start) ∧
    (points.foldl (fun last p => if last < p.timestamp then p.timestamp else last) start = start ∨
      ∃ p ∈ points, p.timestamp =
        points.foldl (fun last p => if last < p.timestamp then p.timestamp else last) start) := by
  induction points generalizing start with
  | nil => exact ⟨⟨le_rfl, nofun⟩, .inl rfl⟩
  | cons p points ih =>
    rw [List.foldl_cons]
    obtain ⟨⟨hstart, hall⟩, hattained⟩ := ih (if start < p.timestamp then p.timestamp else start)
    have hboth : start ≤ (if start < p.timestamp then p.timestamp else start) ∧
        p.timestamp ≤ (if start < p.timestamp then p.timestamp else start) := by
      split_ifs <;> omega
    refine ⟨⟨hboth.1.trans hstart, ?_⟩, ?_⟩
    · intro q hq
      rcases List.mem_cons.mp hq with rfl | hmem
      · exact hboth.2.trans hstart
      · exact hall q hmem
    · rcases hattained with hkept | ⟨q, hq, hlast⟩
      · rw [hkept]
        split_ifs
        · exact .inr ⟨p, List.mem_cons_self, rfl⟩
        · exact .inl rfl
      · exact .inr ⟨q, List.mem_cons_of_mem p hq, hlast⟩

omit [DecidableEq Addr] in
theorem timestamp_le_last {p : PricePoint Addr} (h : p ∈ points) :
    p.timestamp ≤ lastTimestamp points :=
  (foldl_timestamp points 0).1.2 p h

omit [DecidableEq Addr] in
theorem lastTimestamp_le {bound : ℕ} (h : ∀ p ∈ points, p.timestamp ≤ bound) :
    lastTimestamp points ≤ bound := by
  rcases (foldl_timestamp points 0).2 with hzero | ⟨p, hp, hlast⟩
  · rw [lastTimestamp, hzero]
    exact Nat.zero_le _
  · rw [lastTimestamp, ← hlast]
    exact h p hp

omit [DecidableEq Addr] in
theorem exists_timestamp_eq_last (h : points ≠ []) : ∃ p ∈ points,
    lastTimestamp points ≤ p.timestamp := by
  rcases (foldl_timestamp points 0).2 with hzero | ⟨p, hp, hlast⟩
  · obtain ⟨p, hp⟩ := List.exists_mem_of_ne_nil points h
    refine ⟨p, hp, ?_⟩
    rw [lastTimestamp, hzero]
    exact Nat.zero_le _
  · exact ⟨p, hp, hlast.ge⟩

end Timestamps

section Feeders

theorem countDistinctFeeders_mono {readings others : List (PricePoint Addr)}
    (h : ∀ p ∈ readings, p ∈ others) :
    countDistinctFeeders readings ≤ countDistinctFeeders others := by
  unfold countDistinctFeeders
  rw [← List.card_toFinset, ← List.card_toFinset]
  apply Finset.card_le_card
  intro a ha
  obtain ⟨p, hp, rfl⟩ := List.mem_map.mp (List.mem_toFinset.mp ha)
  exact List.mem_toFinset.mpr (List.mem_map.mpr ⟨p, h p hp, rfl⟩)

theorem ne_nil_of_feeders {readings : List (PricePoint Addr)}
    (h : minFeeders ≤ countDistinctFeeders readings) : readings ≠ [] := by
  rintro rfl
  exact absurd h (by simp [countDistinctFeeders, minFeeders])

/-- A feed with enough feeders has no stale latest reading. -/
theorem healthy_iff : (minFeeders ≤ (getOracleHealth now points).activeFeeders ∧
    (getOracleHealth now points).isStale = false) ↔
      minFeeders ≤ countDistinctFeeders (timely now points) := by
  constructor
  · intro h
    exact h.1
  · intro h
    obtain ⟨p, hp⟩ := List.exists_mem_of_ne_nil _ (ne_nil_of_feeders h)
    obtain ⟨hmem, htimely⟩ := mem_timely.mp hp
    have hlast := timestamp_le_last hmem
    refine ⟨h, ?_⟩
    simp only [getOracleHealth, decide_eq_false_iff_not]
    omega

/-- The middle reading is never an outlier. -/
theorem priced_iff (hpos : ∀ p ∈ points, 0 < p.price) :
    (∃ price lastUpdated, getPrice now ledger points = .ok (price, lastUpdated)) ↔
      minFeeders ≤ countDistinctFeeders (fresh now ledger points) := by
  constructor
  · intro h
    obtain ⟨price, lastUpdated, hprice⟩ := h
    exact (getPrice_eq_ok.mp hprice).1
  · intro h
    have hsome : ∀ {readings : List (PricePoint Addr)}, readings ≠ [] →
        ∃ m, (prices readings).upperMedian = some m := by
      intro readings hne
      apply Option.ne_none_iff_exists'.mp
      rw [ne_eq, List.upperMedian_eq_none, prices, List.map_eq_nil_iff]
      exact hne
    obtain ⟨med, hmed⟩ := hsome (ne_nil_of_feeders h)
    obtain ⟨p, hp, hprice⟩ := List.mem_map.mp (List.upperMedian_mem hmed)
    have hinlier : p ∈ inliers med (fresh now ledger points) := by
      have hp0 := hpos p (mem_timely.mp (mem_fresh.mp hp).1).1
      rw [inliers, List.mem_filter, hprice, sub_self]
      refine ⟨hp, ?_⟩
      simp only [abs_zero, decide_eq_true_eq]
      omega
    obtain ⟨price, hmedian⟩ := hsome (List.ne_nil_of_mem hinlier)
    exact ⟨price, _, getPrice_eq_ok.mpr ⟨h, rfl, med, hmed, hmedian⟩⟩

/-- Stale readings are dated before the timely ones. -/
theorem lastTimestamp_eq_iff (hne : fresh now ledger points ≠ []) :
    lastTimestamp points = lastTimestamp (fresh now ledger points) ↔
      ∀ p ∈ timely now points, ∃ q ∈ fresh now ledger points, p.timestamp ≤ q.timestamp := by
  constructor
  · intro heq p hp
    obtain ⟨q, hq, hlast⟩ := exists_timestamp_eq_last hne
    refine ⟨q, hq, ?_⟩
    have hle := timestamp_le_last (mem_timely.mp hp).1
    omega
  · intro h
    apply le_antisymm
    · apply lastTimestamp_le
      intro p hp
      by_cases htimely : p ∈ timely now points
      · obtain ⟨q, hq, hle⟩ := h p htimely
        exact hle.trans (timestamp_le_last hq)
      · obtain ⟨q, hq⟩ := List.exists_mem_of_ne_nil _ hne
        have hstale : ¬ now - p.timestamp ≤ maxStalenessSecs :=
          fun hle => htimely (mem_timely.mpr ⟨hp, hle⟩)
        have hq' := (mem_timely.mp (mem_fresh.mp hq).1).2
        have hle := timestamp_le_last hq
        omega
    · apply lastTimestamp_le
      intro q hq
      exact timestamp_le_last (mem_timely.mp (mem_fresh.mp hq).1).1

end Feeders

/-- Health and price agree exactly where the readings that are too recent for the price make no
difference. -/
theorem agrees_iff (steps : List (Step Addr Asset self)) (asset : Asset) (now ledger : ℕ) :
    Agrees now ledger ((reached steps).prices asset) ↔
      Settled now ledger ((reached steps).prices asset) := by
  have hpriced : (∃ price lastUpdated,
      getPrice now ledger ((reached steps).prices asset) = .ok (price, lastUpdated)) ↔
        minFeeders ≤ countDistinctFeeders (fresh now ledger ((reached steps).prices asset)) :=
    priced_iff (reached_price_pos steps asset)
  have hmono : countDistinctFeeders (fresh now ledger ((reached steps).prices asset)) ≤
      countDistinctFeeders (timely now ((reached steps).prices asset)) :=
    countDistinctFeeders_mono fun p hp => (mem_fresh.mp hp).1
  constructor
  · intro h
    have hfeeders := h.priced
    rw [healthy_iff, hpriced] at hfeeders
    constructor
    · exact hfeeders.mp
    · intro henough
      obtain ⟨price, lastUpdated, hprice⟩ := hpriced.mpr henough
      rw [← lastTimestamp_eq_iff (ne_nil_of_feeders henough)]
      exact (h.dated price lastUpdated hprice).trans (getPrice_eq_ok.mp hprice).2.1
  · intro h
    constructor
    · rw [healthy_iff, hpriced]
      exact ⟨h.feeders, hmono.trans'⟩
    · intro price lastUpdated hprice
      obtain ⟨henough, hlast, -⟩ := getPrice_eq_ok.mp hprice
      rw [hlast]
      exact (lastTimestamp_eq_iff (ne_nil_of_feeders henough)).mpr (h.latest henough)

section Shallow

/-- Three feeders submit in one ledger. -/
def shallowRun : List (Step ℕ ℕ 0) :=
  [(atLedgerOne, .initializeOracle 1),
    (atLedgerOne, .addFeeder 1 5),
    (atLedgerOne, .addFeeder 1 6),
    (atLedgerOne, .addFeeder 1 7),
    (atLedgerOne, .submitPrice 5 0 100 1000),
    (atLedgerOne, .submitPrice 6 0 110 1000),
    (atLedgerOne, .submitPrice 7 0 105 1000)]

/-- The feed is healthy at once, and has no price before twelve ledgers have passed. -/
theorem shallowRun_disagrees : ¬ ∀ (steps : List (Step ℕ ℕ 0)) (asset now ledger : ℕ),
    Agrees now ledger ((reached steps).prices asset) := by
  intro h
  obtain ⟨price, lastUpdated, hprice⟩ := (h shallowRun 0 1000 2).priced.mp (by decide)
  have hfeeders := (getPrice_eq_ok.mp hprice).1
  exact absurd hfeeders (by decide)

end Shallow

end Oracle
