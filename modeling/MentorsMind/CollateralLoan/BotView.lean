import MentorsMind.CollateralLoan.Custody
import MentorsMind.Lib.Strides

/-! The view that liquidation bots page through, next to the health check of a liquidation. The
view takes the principal for the debt where the check takes the debt with its interest, and it sees
no more than fifty positions of each stride. -/
namespace CollateralLoan
open Outcome Soroban Shared

variable {Addr : Type} {self : Addr} {inv : Invocation Addr self} {s : State Addr}

/-- What `liquidate` asks of a loan, and the ratio that it computes for that. -/
def PassesHealthCheck (inv : Invocation Addr self) (s : State Addr) (borrower : Addr) (ratio : ℤ) :
    Prop :=
  ∃ l ratioBps, s.loan borrower = some l ∧ 0 < l.debtAmount ∧
    getHealthFactor inv s borrower = .ok ratioBps ∧ (ratioBps : ℤ) < liquidationThresholdBps ∧
      ratio = ratioBps

/-- The pages that a caller gets who adds the limit to the offset until the index is at its end. -/
def undercollateralizedPages (inv : Invocation Addr self) (s : State Addr)
    (thresholdBps stride : ℕ) : Result (List (CollateralPosition Addr)) := do
  let found ← (List.range (Strides.visits s.collateralCount stride)).mapM fun k =>
    getUndercollateralizedPage inv s thresholdBps (k * stride) stride
  pure found.flatten

/-- The pages list every borrower that `liquidate` would let pass, once, with the ratio that it
would compute, and nobody else. -/
def ViewAgrees (inv : Invocation Addr self) (s : State Addr) (stride : ℕ) : Prop :=
  ∃ found, undercollateralizedPages inv s 12000 stride = .ok found ∧
    (found.map CollateralPosition.owner).Nodup ∧
    ∀ owner ratio, (∃ x ∈ found, x.owner = owner ∧ x.ratioBps = ratio) ↔
      PassesHealthCheck inv s owner ratio

section Ratios

variable {l : Loan} {price : ℤ} {now : ℕ}

/-- What the collateral is worth, in the unit in which a debt of one has a ratio of one. -/
def Loan.value (l : Loan) (price : ℤ) : ℤ :=
  l.collateralAmount * price / priceScale * bpsDenominator

/-- The interest moves nothing: either the collateral covers the debt with it, or it is too little
for the ratio to fall. -/
structure Loan.Undisturbed (l : Loan) (price : ℤ) (now : ℕ) : Prop where
  fits : FitsI128 (l.collateralAmount * price)
  settled : liquidationThresholdBps * l.currentDebt now ≤ l.value price ∨
    l.value price / l.currentDebt now = l.value price / l.debtAmount

/-- No liquidation goes through. -/
def Loan.Sheltered (l : Loan) (price : ℤ) (now : ℕ) : Prop :=
  FitsI128 (l.collateralAmount * price) →
    liquidationThresholdBps * l.currentDebt now ≤ l.value price

theorem computeRatioBps_eq_ok {debt ratio : ℤ} (hcollateral : 0 < l.collateralAmount)
    (hdebt : 0 < debt) (hprice : 0 < price) :
    computeRatioBps l.collateralAmount debt price = .ok ratio ↔
      FitsI128 (l.collateralAmount * price) ∧ l.value price / debt = ratio := by
  have hpos : 0 ≤ l.collateralAmount * price := (mul_pos hcollateral hprice).le
  have hvalue : 0 ≤ l.value price :=
    mul_nonneg (Int.ediv_nonneg hpos (by decide)) (by decide)
  have hle : l.value price ≤ l.collateralAmount * price := Int.ediv_mul_le _ (by decide)
  unfold computeRatioBps
  rw [if_neg (not_le.mpr hdebt)]
  simp only [bind_eq_ok, checkedI128_eq_ok, pure_eq_ok]
  constructor
  · rintro ⟨_, ⟨hfits, rfl⟩, _, ⟨-, rfl⟩, rfl⟩
    rw [Int.tdiv_eq_ediv_of_nonneg hpos]
    refine ⟨hfits, ?_⟩
    exact (Int.tdiv_eq_ediv_of_nonneg hvalue).symm
  · rintro ⟨hfits, rfl⟩
    refine ⟨_, ⟨hfits, rfl⟩, l.value price, ⟨?_, ?_⟩, Int.tdiv_eq_ediv_of_nonneg hvalue⟩
    · rw [Int.tdiv_eq_ediv_of_nonneg hpos]
      unfold FitsI128 at hfits ⊢
      unfold Loan.value at hvalue hle
      omega
    · rw [Int.tdiv_eq_ediv_of_nonneg hpos]
      rfl

theorem getMntPrice_pos {inv : Invocation Addr self} (h : getMntPrice inv s = .ok price) :
    0 < price := by
  simp only [getMntPrice, bind_eq_ok, expect_eq_ok, require_eq_ok, pure_eq_ok] at h
  obtain ⟨oracle, -, asset, -, ⟨answer, lastUpdate⟩, -, -, hpos, -, -, rfl⟩ := h
  exact hpos

theorem Loan.Admissible.currentDebt_pos (hl : l.Admissible) (now : ℕ) : 0 < l.currentDebt now :=
  hl.debt.trans_le (hl.debt_le_currentDebt now)

theorem Loan.Admissible.ratio_nonneg (hl : l.Admissible) (hprice : 0 < price) (now : ℕ) :
    0 ≤ l.value price / l.currentDebt now := by
  apply Int.ediv_nonneg _ (hl.currentDebt_pos now).le
  apply mul_nonneg _ (by decide)
  exact Int.ediv_nonneg (mul_pos hl.collateral hprice).le (by decide)

end Ratios

section Checks

variable {l : Loan} {price : ℤ} {borrower : Addr}

/-- The health factor is the ratio on the debt with its interest, cut off at the largest `u32`. -/
theorem getHealthFactor_eq_ok {ratioBps : ℕ} (hinit : s.admin.isSome)
    (hprice : getMntPrice inv s = .ok price) (hloan : s.loan borrower = some l)
    (hl : l.Admissible) :
    getHealthFactor inv s borrower = .ok ratioBps ↔ FitsI128 (l.collateralAmount * price) ∧
      min (l.value price / l.currentDebt inv.timestamp) maxU32 = ratioBps := by
  have hpos := getMntPrice_pos hprice
  have hdebt := hl.currentDebt_pos inv.timestamp
  have hcurrent : getCurrentDebt inv.timestamp s borrower = l.currentDebt inv.timestamp := by
    rw [getCurrentDebt, hloan]
  have hvalue := hl.ratio_nonneg hpos inv.timestamp
  unfold getHealthFactor
  rw [hloan, hcurrent]
  simp only [requireInitialized, bind_eq_ok, require_eq_ok, hinit, hprice, exists_const, true_and,
    if_neg (not_le.mpr hdebt), Except.ok.injEq, exists_eq_left',
    computeRatioBps_eq_ok hl.collateral hdebt hpos, pure_eq_ok]
  constructor
  · rintro ⟨r, ⟨hfits, rfl⟩, rfl⟩
    refine ⟨hfits, ?_⟩
    split_ifs <;> omega
  · rintro ⟨hfits, hmin⟩
    refine ⟨_, ⟨hfits, rfl⟩, ?_⟩
    split_ifs <;> omega

/-- The health check, put as a condition on what is stored, the price and the time. -/
theorem passesHealthCheck_iff {ratio : ℤ} (hinit : s.admin.isSome)
    (hprice : getMntPrice inv s = .ok price) (hloan : s.loan borrower = some l)
    (hl : l.Admissible) :
    PassesHealthCheck inv s borrower ratio ↔ FitsI128 (l.collateralAmount * price) ∧
      l.value price / l.currentDebt inv.timestamp = ratio ∧ ratio < liquidationThresholdBps := by
  have hvalue := hl.ratio_nonneg (getMntPrice_pos hprice) inv.timestamp
  -- the ratios that are cut off are far above the threshold
  have hmax : liquidationThresholdBps ≤ maxU32 := by decide
  constructor
  · rintro ⟨k, ratioBps, hk, -, hok, hlow, rfl⟩
    obtain ⟨hfits, hmin⟩ := (getHealthFactor_eq_ok hinit hprice hloan hl).mp hok
    refine ⟨hfits, ?_, hlow⟩
    omega
  · rintro ⟨hfits, rfl, hlow⟩
    refine ⟨l, (l.value price / l.currentDebt inv.timestamp).toNat, hloan, hl.debt, ?_, ?_, ?_⟩
    · rw [getHealthFactor_eq_ok hinit hprice hloan hl]
      refine ⟨hfits, ?_⟩
      omega
    · omega
    · omega

end Checks

section Pages

variable {price : ℤ} {thresholdBps stride : ℕ}

/-- What the view shows of a slot, if it can be read. -/
def shownAt (s : State Addr) (price threshold : ℤ) (slot : ℕ) : Option (CollateralPosition Addr) :=
  match undercollateralizedAt s price threshold slot with
  | .ok shown => shown
  | .error _ => none

def Readable (s : State Addr) (price threshold : ℤ) (slot : ℕ) : Prop :=
  ∃ shown, undercollateralizedAt s price threshold slot = .ok shown

theorem Readable.shownAt_eq {threshold : ℤ} {slot : ℕ} (h : Readable s price threshold slot) :
    undercollateralizedAt s price threshold slot = .ok (shownAt s price threshold slot) := by
  obtain ⟨shown, hshown⟩ := h
  unfold shownAt
  rw [hshown]

/-- The slots that a page covers. -/
def slots (s : State Addr) (stride k : ℕ) : List ℕ :=
  Strides.window s.collateralCount stride (Pagination.clampLimit stride) k

/-- The slots that all the pages cover. -/
def seenSlots (s : State Addr) (stride : ℕ) : List ℕ :=
  Strides.seen s.collateralCount stride (Pagination.clampLimit stride)

theorem page_eq (hinit : s.admin.isSome) (hprice : getMntPrice inv s = .ok price) (k : ℕ) :
    getUndercollateralizedPage inv s thresholdBps (k * stride) stride =
      List.filterMap id <$>
        (slots s stride k).mapM (undercollateralizedAt s price thresholdBps) := by
  unfold getUndercollateralizedPage requireInitialized require
  rw [if_pos hinit, Pagination.bounds_eq, hprice]
  rfl

theorem page_of_readable (hinit : s.admin.isSome) (hprice : getMntPrice inv s = .ok price) {k : ℕ}
    (h : ∀ slot ∈ slots s stride k, Readable s price thresholdBps slot) :
    getUndercollateralizedPage inv s thresholdBps (k * stride) stride =
      .ok ((slots s stride k).filterMap (shownAt s price thresholdBps)) := by
  rw [page_eq hinit hprice, mapM_eq_ok_map fun slot hslot => (h slot hslot).shownAt_eq]
  show Except.ok _ = _
  rw [List.filterMap_map]
  rfl

theorem readable_of_page (hinit : s.admin.isSome) (hprice : getMntPrice inv s = .ok price) {k : ℕ}
    {page : List (CollateralPosition Addr)}
    (h : getUndercollateralizedPage inv s thresholdBps (k * stride) stride = .ok page) :
    ∀ slot ∈ slots s stride k, Readable s price thresholdBps slot := by
  rw [page_eq hinit hprice, map_eq_ok] at h
  obtain ⟨shown, hshown, -⟩ := h
  exact isOk_of_mapM_eq_ok hshown

/-- The pages come out if and only if every slot they cover can be read, and then they show these
slots in their order. -/
theorem undercollateralizedPages_eq_ok (hinit : s.admin.isSome)
    (hprice : getMntPrice inv s = .ok price) {found : List (CollateralPosition Addr)} :
    undercollateralizedPages inv s thresholdBps stride = .ok found ↔
      (∀ slot ∈ seenSlots s stride,
        Readable s price thresholdBps slot) ∧
      (seenSlots s stride).filterMap
        (shownAt s price thresholdBps) = found := by
  have hcovered : (∀ slot ∈ seenSlots s stride,
      Readable s price thresholdBps slot) ↔
      ∀ k ∈ List.range (Strides.visits s.collateralCount stride), ∀ slot ∈ slots s stride k,
        Readable s price thresholdBps slot := by
    unfold seenSlots Strides.seen
    rw [List.forall_mem_flatMap]
    rfl
  have hall : (∀ slot ∈ seenSlots s stride,
      Readable s price thresholdBps slot) →
      undercollateralizedPages inv s thresholdBps stride =
        .ok ((seenSlots s stride).filterMap
          (shownAt s price thresholdBps)) := by
    intro hreadable
    rw [hcovered] at hreadable
    unfold undercollateralizedPages
    rw [mapM_eq_ok_map fun k hk => page_of_readable hinit hprice (hreadable k hk)]
    show Except.ok _ = _
    unfold seenSlots Strides.seen
    rw [List.filterMap_flatMap]
    rfl
  constructor
  · intro h
    have hreadable : ∀ slot ∈ seenSlots s stride,
        Readable s price thresholdBps slot := by
      rw [hcovered]
      simp only [undercollateralizedPages, bind_eq_ok] at h
      obtain ⟨pages, hpages, -⟩ := h
      intro k hk
      obtain ⟨page, hpage⟩ := isOk_of_mapM_eq_ok hpages k hk
      exact readable_of_page hinit hprice hpage
    refine ⟨hreadable, ?_⟩
    rw [hall hreadable] at h
    exact Except.ok.inj h
  · rintro ⟨hreadable, rfl⟩
    exact hall hreadable

theorem undercollateralizedAt_eq_ok {threshold : ℤ} {slot : ℕ} {borrower : Addr} {l : Loan}
    {shown : Option (CollateralPosition Addr)} (hprice : 0 < price)
    (hslot : s.collateralIndex slot = some borrower) (hloan : s.loan borrower = some l)
    (hl : l.Admissible) :
    undercollateralizedAt s price threshold slot = .ok shown ↔
      FitsI128 (l.collateralAmount * price) ∧
        (if l.value price / l.debtAmount < threshold then
          some ⟨borrower, l.collateralAmount, l.debtAmount, l.value price / l.debtAmount⟩
        else none) = shown := by
  have hratio : ∀ r, computeRatioBps l.collateralAmount l.debtAmount price = .ok r ↔
      FitsI128 (l.collateralAmount * price) ∧ l.value price / l.debtAmount = r := by
    intro r
    exact computeRatioBps_eq_ok hl.collateral hl.debt hprice
  unfold undercollateralizedAt
  simp only [hslot, hloan, bind_eq_ok, hratio]
  constructor
  · rintro ⟨r, ⟨hfits, rfl⟩, hshown⟩
    refine ⟨hfits, ?_⟩
    split_ifs at hshown ⊢ <;> exact pure_eq_ok.mp hshown
  · rintro ⟨hfits, rfl⟩
    refine ⟨_, ⟨hfits, rfl⟩, ?_⟩
    split_ifs <;> rfl

/-- What is shown of a slot is the position of its borrower, with a ratio below the threshold. -/
theorem shownAt_eq_some {threshold : ℤ} {slot : ℕ} {borrower : Addr} {l : Loan}
    {x : CollateralPosition Addr} (hprice : 0 < price)
    (hslot : s.collateralIndex slot = some borrower) (hloan : s.loan borrower = some l)
    (hl : l.Admissible) (hreadable : Readable s price threshold slot) :
    shownAt s price threshold slot = some x ↔ l.value price / l.debtAmount < threshold ∧
      x = ⟨borrower, l.collateralAmount, l.debtAmount, l.value price / l.debtAmount⟩ := by
  obtain ⟨-, hshown⟩ :=
    (undercollateralizedAt_eq_ok hprice hslot hloan hl).mp hreadable.shownAt_eq
  rw [← hshown]
  split_ifs with hlow
  · rw [and_iff_right hlow, Option.some.injEq, eq_comm]
  · simp [hlow]

end Pages

section Agreement

variable {price : ℤ} {stride thresholdBps : ℕ}

/-- A position that the pages cover is listed as the check would have it if and only if its interest
does not disturb it; one that they skip must not be open to liquidation. -/
def ViewCondition (s : State Addr) (price : ℤ) (now stride : ℕ) : Prop :=
  ∀ slot borrower l, s.collateralIndex slot = some borrower → s.loan borrower = some l →
    if slot % stride < Pagination.maxPageSize then l.Undisturbed price now
    else l.Sheltered price now

theorem mem_seenSlots (hstride : 0 < stride) {slot : ℕ} :
    slot ∈ seenSlots s stride ↔ slot < s.collateralCount ∧
      slot % stride < Pagination.maxPageSize := by
  have hrest := Nat.mod_lt slot hstride
  unfold seenSlots
  rw [Pagination.clampLimit_of_pos hstride, Strides.mem_seen hstride (min_le_left _ _)]
  constructor
  · rintro ⟨hcount, hlt⟩
    exact ⟨hcount, hlt.trans_le (min_le_right _ _)⟩
  · rintro ⟨hcount, hlt⟩
    exact ⟨hcount, lt_min hrest hlt⟩

theorem seenSlots_nodup (hstride : 0 < stride) : (seenSlots s stride).Nodup := by
  unfold seenSlots
  rw [Pagination.clampLimit_of_pos hstride]
  exact Strides.seen_nodup (min_le_left _ _)

theorem Indexed.lt_count (hs : Indexed s) {slot : ℕ} {borrower : Addr}
    (hslot : s.collateralIndex slot = some borrower) : slot < s.collateralCount := by
  apply (hs.sound.isSome_iff slot).mp
  show (s.collateralIndex slot).isSome
  rw [hslot]
  rfl

/-- Every slot below the count holds a borrower with a loan. -/
theorem Indexed.loan_of_lt (hs : Indexed s) {slot : ℕ} (hslot : slot < s.collateralCount) :
    ∃ borrower l, s.collateralIndex slot = some borrower ∧ s.loan borrower = some l := by
  obtain ⟨borrower, hborrower⟩ := Option.isSome_iff_exists.mp ((hs.sound.isSome_iff slot).mpr hslot)
  have hposition : s.collateralSlot borrower = some slot :=
    (hs.sound.entry_iff slot borrower).mp hborrower
  obtain ⟨l, hl⟩ := Option.isSome_iff_exists.mp ((hs.listed borrower).mp (by rw [hposition]; rfl))
  exact ⟨borrower, l, hborrower, hl⟩

/-- Whoever has a loan has a slot. -/
theorem Indexed.slot_of_loan (hs : Indexed s) {borrower : Addr} {l : Loan}
    (hl : s.loan borrower = some l) : ∃ slot, s.collateralIndex slot = some borrower := by
  obtain ⟨slot, hslot⟩ := Option.isSome_iff_exists.mp ((hs.listed borrower).mpr (by rw [hl]; rfl))
  exact ⟨slot, (hs.sound.entry_iff slot borrower).mpr hslot⟩

/-- What is shown of a seen slot belongs to the borrower that holds it. -/
theorem shownAt_of_seen (hs : Indexed s) (hstride : 0 < stride) (hprice : 0 < price)
    (hreadable : ∀ i ∈ seenSlots s stride, Readable s price thresholdBps i) {i : ℕ}
    {x : CollateralPosition Addr} (hi : i ∈ seenSlots s stride)
    (hx : shownAt s price thresholdBps i = some x) :
    s.collateralIndex i = some x.owner ∧ ∃ l, s.loan x.owner = some l ∧
      l.value price / l.debtAmount < thresholdBps ∧ x.ratioBps = l.value price / l.debtAmount := by
  obtain ⟨borrower, l, hborrower, hl⟩ := hs.loan_of_lt ((mem_seenSlots hstride).mp hi).1
  obtain ⟨hlow, rfl⟩ := (shownAt_eq_some hprice hborrower hl (hs.admissible borrower l hl)
    (hreadable i hi)).mp hx
  exact ⟨hborrower, l, hl, hlow, rfl⟩

/-- The pages list a borrower with a ratio if and only if they cover the slot and the ratio, taken
on the principal, is below the threshold. -/
theorem listed_iff (hs : Indexed s) (hstride : 0 < stride) (hprice : 0 < price)
    (hreadable : ∀ i ∈ seenSlots s stride, Readable s price thresholdBps i) {slot : ℕ}
    {borrower : Addr} {l : Loan} (hslot : s.collateralIndex slot = some borrower)
    (hloan : s.loan borrower = some l) (ratio : ℤ) :
    (∃ x ∈ (seenSlots s stride).filterMap (shownAt s price thresholdBps),
      x.owner = borrower ∧ x.ratioBps = ratio) ↔
      slot % stride < Pagination.maxPageSize ∧ l.value price / l.debtAmount < thresholdBps ∧
        l.value price / l.debtAmount = ratio := by
  have hl := hs.admissible borrower l hloan
  constructor
  · rintro ⟨x, hx, rfl, rfl⟩
    obtain ⟨i, hi, hshown⟩ := List.mem_filterMap.mp hx
    obtain ⟨howner, k, hk, hlow, hratio⟩ := shownAt_of_seen hs hstride hprice hreadable hi hshown
    obtain rfl := Option.some.inj (hk.symm.trans hloan)
    obtain rfl := hs.sound.entry_inj howner hslot
    exact ⟨((mem_seenSlots hstride).mp hi).2, hlow, hratio.symm⟩
  · rintro ⟨hmod, hlow, rfl⟩
    have hseen := (mem_seenSlots hstride).mpr ⟨hs.lt_count hslot, hmod⟩
    refine ⟨⟨borrower, l.collateralAmount, l.debtAmount, l.value price / l.debtAmount⟩, ?_, rfl,
      rfl⟩
    rw [List.mem_filterMap]
    refine ⟨slot, hseen, ?_⟩
    exact (shownAt_eq_some hprice hslot hloan hl (hreadable slot hseen)).mpr ⟨hlow, rfl⟩

/-- Nobody is listed twice. -/
theorem owners_nodup (hs : Indexed s) (hstride : 0 < stride) (hprice : 0 < price)
    (hreadable : ∀ i ∈ seenSlots s stride, Readable s price thresholdBps i) :
    (((seenSlots s stride).filterMap (shownAt s price thresholdBps)).map
      CollateralPosition.owner).Nodup := by
  rw [List.Nodup, List.pairwise_map, List.pairwise_filterMap]
  refine (seenSlots_nodup (s := s) hstride).imp_of_mem ?_
  intro i j hi hj hne x hx y hy howner
  obtain ⟨hix, -⟩ := shownAt_of_seen hs hstride hprice hreadable hi hx
  obtain ⟨hjy, -⟩ := shownAt_of_seen hs hstride hprice hreadable hj hy
  rw [← howner] at hjy
  exact hne (hs.sound.entry_inj hix hjy)

/-- The check lets somebody pass below the threshold if and only if the value falls short of it. -/
theorem Loan.ratio_lt_iff {l : Loan} {debt : ℤ} (hdebt : 0 < debt) :
    l.value price / debt < liquidationThresholdBps ↔
      l.value price < liquidationThresholdBps * debt :=
  Int.ediv_lt_iff_lt_mul hdebt

/-- On a position that the pages cover, the two ratios agree where it matters. -/
theorem Loan.Undisturbed.agrees {l : Loan} {now : ℕ} (h : l.Undisturbed price now)
    (hl : l.Admissible) (ratio : ℤ) :
    (l.value price / l.debtAmount < liquidationThresholdBps ∧
        l.value price / l.debtAmount = ratio) ↔
      l.value price / l.currentDebt now = ratio ∧ ratio < liquidationThresholdBps := by
  have hle := hl.debt_le_currentDebt now
  obtain ⟨-, hcovered | hsame⟩ := h
  · have hcurrent : ¬ l.value price / l.currentDebt now < liquidationThresholdBps := by
      rw [Loan.ratio_lt_iff (hl.currentDebt_pos now)]
      exact not_lt.mpr hcovered
    have hprincipal : ¬ l.value price / l.debtAmount < liquidationThresholdBps := by
      rw [Loan.ratio_lt_iff hl.debt]
      have hscaled := mul_le_mul_of_nonneg_left hle (show 0 ≤ liquidationThresholdBps by decide)
      omega
    constructor
    · rintro ⟨hlow, -⟩
      exact absurd hlow hprincipal
    · rintro ⟨rfl, hlow⟩
      exact absurd hlow hcurrent
  · rw [hsame]
    constructor
    · rintro ⟨hlow, rfl⟩
      exact ⟨rfl, hlow⟩
    · rintro ⟨rfl, hlow⟩
      exact ⟨hlow, rfl⟩

theorem ViewAgrees.condition (hs : Indexed s) (hinit : s.admin.isSome)
    (hprice : getMntPrice inv s = .ok price) (hstride : 0 < stride)
    (h : ViewAgrees inv s stride) : ViewCondition s price inv.timestamp stride := by
  have hpos := getMntPrice_pos hprice
  obtain ⟨found, hpages, -, hlisted⟩ := h
  obtain ⟨hreadable, rfl⟩ := (undercollateralizedPages_eq_ok hinit hprice).mp hpages
  intro slot borrower l hslot hloan
  have hl := hs.admissible borrower l hloan
  have hdebt := hl.currentDebt_pos inv.timestamp
  -- whoever could be liquidated is listed, with the same ratio
  have hshown : FitsI128 (l.collateralAmount * price) →
      l.value price / l.currentDebt inv.timestamp < liquidationThresholdBps →
        slot % stride < Pagination.maxPageSize ∧
          l.value price / l.debtAmount = l.value price / l.currentDebt inv.timestamp := by
    intro hfits hlow
    have hpasses := (passesHealthCheck_iff hinit hprice hloan hl).mpr ⟨hfits, rfl, hlow⟩
    obtain ⟨hmod, -, hsame⟩ := (listed_iff hs hstride hpos hreadable hslot hloan _).mp
      ((hlisted borrower _).mpr hpasses)
    exact ⟨hmod, hsame⟩
  split_ifs with hmod
  · have hseen := (mem_seenSlots hstride).mpr ⟨hs.lt_count hslot, hmod⟩
    obtain ⟨hfits, -⟩ := (undercollateralizedAt_eq_ok hpos hslot hloan hl).mp
      (hreadable slot hseen).shownAt_eq
    refine ⟨hfits, ?_⟩
    by_cases hlow : l.value price / l.currentDebt inv.timestamp < liquidationThresholdBps
    · exact .inr (hshown hfits hlow).2.symm
    · rw [Loan.ratio_lt_iff hdebt, not_lt] at hlow
      exact .inl hlow
  · intro hfits
    by_contra hlow
    rw [not_le, ← Loan.ratio_lt_iff hdebt] at hlow
    exact hmod (hshown hfits hlow).1

theorem ViewCondition.agrees (hs : Indexed s) (hinit : s.admin.isSome)
    (hprice : getMntPrice inv s = .ok price) (hstride : 0 < stride)
    (h : ViewCondition s price inv.timestamp stride) : ViewAgrees inv s stride := by
  have hpos := getMntPrice_pos hprice
  have hreadable : ∀ i ∈ seenSlots s stride, Readable s price (12000 : ℕ) i := by
    intro i hi
    obtain ⟨hlt, hmod⟩ := (mem_seenSlots hstride).mp hi
    obtain ⟨borrower, l, hborrower, hl⟩ := hs.loan_of_lt hlt
    have hposition := h i borrower l hborrower hl
    rw [if_pos hmod] at hposition
    exact ⟨_, (undercollateralizedAt_eq_ok hpos hborrower hl (hs.admissible borrower l hl)).mpr
      ⟨hposition.fits, rfl⟩⟩
  refine ⟨_, (undercollateralizedPages_eq_ok hinit hprice).mpr ⟨hreadable, rfl⟩,
    owners_nodup hs hstride hpos hreadable, ?_⟩
  intro owner ratio
  cases hloan : s.loan owner with
  | none =>
    constructor
    · rintro ⟨x, hx, rfl, -⟩
      obtain ⟨i, hi, hshown⟩ := List.mem_filterMap.mp hx
      obtain ⟨-, l, hl, -⟩ := shownAt_of_seen hs hstride hpos hreadable hi hshown
      rw [hloan] at hl
      cases hl
    · rintro ⟨l, -, hl, -⟩
      rw [hloan] at hl
      cases hl
  | some l =>
    obtain ⟨slot, hslot⟩ := hs.slot_of_loan hloan
    have hl := hs.admissible owner l hloan
    have hposition := h slot owner l hslot hloan
    rw [listed_iff hs hstride hpos hreadable hslot hloan,
      passesHealthCheck_iff hinit hprice hloan hl]
    split_ifs at hposition with hmod
    · rw [and_iff_right hmod, and_iff_right hposition.fits]
      exact hposition.agrees hl ratio
    · constructor
      · rintro ⟨hseen, -⟩
        exact absurd hseen hmod
      · rintro ⟨hfits, rfl, hlow⟩
        rw [Loan.ratio_lt_iff (hl.currentDebt_pos inv.timestamp)] at hlow
        exact absurd (hposition hfits) (not_le.mpr hlow)

variable [DecidableEq Addr]

/-- The view agrees with liquidation exactly where neither interest nor the page size comes between
them. -/
theorem viewAgrees_iff (d : Deployment Addr self) (steps : List (Step Addr self))
    (hprice : getMntPrice inv (d.reached steps) = .ok price) (hstride : 0 < stride) :
    ViewAgrees inv (d.reached steps) stride ↔
      ViewCondition (d.reached steps) price inv.timestamp stride := by
  have hkept := d.reached_kept steps
  constructor
  · intro h
    exact h.condition hkept.indexed hkept.initialized hprice hstride
  · intro h
    exact h.agrees hkept.indexed hkept.initialized hprice hstride

def firstLoan : List (Step ℕ 0) := [(quoted 0 20000, .openLoan 7 1200 1000)]

theorem viewAgrees_iff_fresh_loan : ∃ d : Deployment ℕ 0,
    getMntPrice (quoted 60 10000) (d.reached firstLoan) = .ok 10000 ∧
      (ViewAgrees (quoted 60 10000) (d.reached firstLoan) 10 ↔
        ViewCondition (d.reached firstLoan) 10000 60 10) := by
  let d : Deployment ℕ 0 := ⟨funded, quoted 0 20000, 1, 2, 3, 4, "MNT", _, rfl⟩
  have hprice : getMntPrice (quoted 60 10000) (d.reached firstLoan) = .ok 10000 := rfl
  exact ⟨d, hprice, viewAgrees_iff d firstLoan hprice (by decide)⟩

/-- A year after the loan was opened its borrower can be liquidated, and no page shows it. -/
theorem mature_loan_unlisted : ∃ d : Deployment ℕ 0,
    getMntPrice (quoted 31536000 10000) (d.reached firstLoan) = .ok 10000 ∧
      PassesHealthCheck (quoted 31536000 10000) (d.reached firstLoan) 7 10909 ∧
        ¬ ViewAgrees (quoted 31536000 10000) (d.reached firstLoan) 10 := by
  let d : Deployment ℕ 0 := ⟨funded, quoted 0 20000, 1, 2, 3, 4, "MNT", _, rfl⟩
  have hpasses : PassesHealthCheck (quoted 31536000 10000) (d.reached firstLoan) 7 10909 :=
    ⟨⟨1200, 1000, 0, 1000⟩, 10909, rfl, by decide, by decide +kernel, by decide, rfl⟩
  have hpages : undercollateralizedPages (quoted 31536000 10000) (d.reached firstLoan) 12000 10 =
      .ok [] := by decide +kernel
  refine ⟨d, by decide +kernel, hpasses, ?_⟩
  rintro ⟨found, hfound, -, hlisted⟩
  obtain rfl := Except.ok.inj (hpages.symm.trans hfound)
  obtain ⟨x, hx, -⟩ := (hlisted 7 10909).mpr hpasses
  cases hx

end Agreement

end CollateralLoan
