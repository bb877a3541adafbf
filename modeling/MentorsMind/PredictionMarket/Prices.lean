import MentorsMind.PredictionMarket.Solvency

/-! The price that a market quotes. The exponential is only computed for small arguments, and is
set to a constant from five on; between the two it overflows. For which pools and parameters the
prices are defined, in order, and no obstacle to a bet. -/
namespace PredictionMarket
open Outcome Soroban Shared

/-- A cast of an `i128` with `as u32`. -/
def asU32 (n : ℤ) : ℕ := (n % 2 ^ 32).toNat

def getYesPriceBps (qYes qNo b : ℤ) : Result ℕ := do
  let expYes ← expShare qYes b
  let expNo ← expShare qNo b
  let sum ← safeAdd expYes expNo
  let price ←
    if sum = 0 then pure (fixedPointScale.tdiv 2)
    else do
      let product ← safeMul expYes fixedPointScale
      safeDiv product sum
  let product ← safeMul price 10000
  let bps ← safeDiv product fixedPointScale
  pure (min (asU32 bps) 10000)

/-- The prices of the two outcomes. -/
def MarketRecord.currentPrice {Addr : Type} (r : MarketRecord Addr) : Result (ℕ × ℕ) := do
  let yesBps ← getYesPriceBps r.yesPool r.noPool r.liquidityParameter
  pure (yesBps, 10000 - yesBps)

def getCurrentPrice {Addr : Type} (s : State Addr) (marketId : ℕ) : Result (ℕ × ℕ) := do
  let r ← expect (s.market marketId) (.panic "market not found")
  r.currentPrice

/-- The largest argument for which the series of the exponential stays in its type. -/
def seriesLimit : ℤ := 1595147542108380669

/-- What the exponential is above five. -/
def saturatedExp : ℤ := (2 ^ 127 - 1) / 2

/-- What Newton's method finds where one of the two exponentials is saturated. -/
def saturatedLn : ℤ := 85070591730234615865

section Series

theorem fixedPointScale_pos : 0 < fixedPointScale := by decide

theorem safeDiv_nonneg {a b : ℤ} (ha : 0 ≤ a ∧ a < 2 ^ 127) (hb : 0 < b) :
    safeDiv a b = .ok (a / b) := by
  have hnonneg := Int.ediv_nonneg ha.1 hb.le
  have hle := Int.ediv_le_self b ha.1
  rw [safeDiv_eq_ok, Int.tdiv_eq_ediv_of_nonneg ha.1]
  exact ⟨⟨hb.ne', by omega, by omega⟩, rfl⟩

theorem safeAdd_nonneg {a b c : ℤ} (ha : 0 ≤ a) (hb : 0 ≤ b) :
    safeAdd a b = .ok c ↔ a + b < 2 ^ 127 ∧ a + b = c := by
  rw [safeAdd_eq_ok]
  refine and_congr_left fun _ => ⟨fun h => h.2, fun h => ⟨?_, h⟩⟩
  omega

theorem safeMul_nonneg {a b c : ℤ} (ha : 0 ≤ a) (hb : 0 ≤ b) :
    safeMul a b = .ok c ↔ a * b < 2 ^ 127 ∧ a * b = c := by
  have hproduct := mul_nonneg ha hb
  rw [safeMul_eq_ok]
  refine and_congr_left fun _ => ⟨fun h => h.2, fun h => ⟨?_, h⟩⟩
  omega

/-- A round of the series, for operands that are not negative. -/
theorem expTerms_succ_eq_ok {x n result xPower value : ℤ} {rounds : ℕ} (hx : 0 ≤ x) (hn : 0 < n)
    (hresult : 0 ≤ result) (hpower : 0 ≤ xPower ∧ xPower < 2 ^ 127) :
    expTerms x (rounds + 1) n result xPower = .ok value ↔
      (xPower / n / fixedPointScale = 0 ∧ result = value) ∨
      (xPower / n / fixedPointScale ≠ 0 ∧ result + xPower / n / fixedPointScale < 2 ^ 127 ∧
        xPower * x < 2 ^ 127 ∧ expTerms x rounds (n + 1)
          (result + xPower / n / fixedPointScale) (xPower * x / fixedPointScale) = .ok value) := by
  have hquotient : 0 ≤ xPower / n := Int.ediv_nonneg hpower.1 hn.le
  have hquotientLt : xPower / n < 2 ^ 127 := (Int.ediv_le_self n hpower.1).trans_lt hpower.2
  have hterm : 0 ≤ xPower / n / fixedPointScale :=
    Int.ediv_nonneg hquotient fixedPointScale_pos.le
  have hproduct : 0 ≤ xPower * x := mul_nonneg hpower.1 hx
  rw [expTerms, safeDiv_nonneg hpower hn, ok_bind,
    safeDiv_nonneg ⟨hquotient, hquotientLt⟩ fixedPointScale_pos, ok_bind]
  by_cases hzero : xPower / n / fixedPointScale = 0
  · rw [if_pos hzero, pure_eq_ok]
    simp [hzero]
  · simp only [if_neg hzero, bind_eq_ok, safeAdd_nonneg hresult hterm,
      safeMul_nonneg hpower.1 hx]
    constructor
    · rintro ⟨sum, ⟨hsum, rfl⟩, product, ⟨hfits, rfl⟩, next, hnext, hvalue⟩
      rw [safeDiv_nonneg ⟨hproduct, hfits⟩ fixedPointScale_pos] at hnext
      obtain rfl := Except.ok.inj hnext
      exact .inr ⟨hzero, hsum, hfits, hvalue⟩
    · rintro (⟨hnone, -⟩ | ⟨-, hsum, hfits, hvalue⟩)
      · exact absurd hnone hzero
      · exact ⟨_, ⟨hsum, rfl⟩, _, ⟨hfits, rfl⟩, _,
          safeDiv_nonneg ⟨hproduct, hfits⟩ fixedPointScale_pos, hvalue⟩

/-- What the series computes for an argument it computes, to nothing more, for smaller ones. -/
theorem expTerms_mono {x x' n result result' xPower xPower' value' : ℤ} {rounds : ℕ} (hx : 0 ≤ x)
    (hle : x ≤ x') (hn : 0 < n) (hresult : 0 ≤ result) (hresults : result ≤ result')
    (hpower : 0 ≤ xPower) (hpowers : xPower ≤ xPower') (hfits : xPower' < 2 ^ 127)
    (h : expTerms x' rounds n result' xPower' = .ok value') :
    ∃ value, expTerms x rounds n result xPower = .ok value ∧ result ≤ value ∧ value ≤ value' := by
  induction rounds generalizing n result result' xPower xPower' with
  | zero =>
    rw [expTerms, pure_eq_ok] at h
    exact ⟨result, rfl, le_rfl, by omega⟩
  | succ rounds ih =>
    rw [expTerms_succ_eq_ok (hx.trans hle) hn (hresult.trans hresults)
      ⟨hpower.trans hpowers, hfits⟩] at h
    have hterm : 0 ≤ xPower / n / fixedPointScale :=
      Int.ediv_nonneg (Int.ediv_nonneg hpower hn.le) fixedPointScale_pos.le
    have hterms : xPower / n / fixedPointScale ≤ xPower' / n / fixedPointScale :=
      Int.ediv_le_ediv fixedPointScale_pos (Int.ediv_le_ediv hn hpowers)
    have hproducts : xPower * x ≤ xPower' * x' :=
      mul_le_mul hpowers hle hx (hpower.trans hpowers)
    simp only [expTerms_succ_eq_ok hx hn hresult ⟨hpower, hpowers.trans_lt hfits⟩]
    rcases h with ⟨hnone, rfl⟩ | ⟨-, hsum, hproduct, hvalue⟩
    · exact ⟨result, .inl ⟨by omega, rfl⟩, le_rfl, hresults⟩
    · have hnext : 0 ≤ xPower * x / fixedPointScale :=
        Int.ediv_nonneg (mul_nonneg hpower hx) fixedPointScale_pos.le
      have hnextFits : xPower' * x' / fixedPointScale < 2 ^ 127 :=
        (Int.ediv_le_self _ (mul_nonneg (hpower.trans hpowers) (hx.trans hle))).trans_lt hproduct
      obtain ⟨value, hsame, hge, hvalues⟩ := ih (by omega) (add_nonneg hresult hterm)
        (add_le_add hresults hterms) hnext (Int.ediv_le_ediv fixedPointScale_pos hproducts)
        hnextFits hvalue
      by_cases hzero : xPower / n / fixedPointScale = 0
      · exact ⟨result, .inl ⟨hzero, rfl⟩, le_rfl, by omega⟩
      · exact ⟨value, .inr ⟨hzero, by omega, hproducts.trans_lt hproduct, hsame⟩, by omega, hvalues⟩

theorem expFixedPoint_series {x : ℤ} (hx : 0 ≤ x) (hfive : x ≤ 5 * fixedPointScale) :
    expFixedPoint x = expTerms x 10 1 fixedPointScale x := by
  unfold expFixedPoint
  by_cases hzero : x = 0
  · rw [if_pos hzero, hzero]
    rfl
  · rw [if_neg hzero, if_neg (not_lt.mpr hfive), if_neg]
    have hscale := fixedPointScale_pos
    omega

theorem expFixedPoint_seriesLimit : expFixedPoint seriesLimit = .ok (fixedPointScale + 33) := by
  decide +kernel

/-- Up to the limit, the exponential is the scale and a little more, and grows with its
argument. -/
theorem expFixedPoint_mono {x x' : ℤ} (hx : 0 ≤ x) (hle : x ≤ x') (hlimit : x' ≤ seriesLimit) :
    ∃ e e', expFixedPoint x = .ok e ∧ expFixedPoint x' = .ok e' ∧ fixedPointScale ≤ e ∧ e ≤ e' ∧
      e' ≤ fixedPointScale + 33 := by
  have hfive : seriesLimit ≤ 5 * fixedPointScale := by decide
  have hscale := fixedPointScale_pos
  have hsmall : seriesLimit < 2 ^ 127 := by decide
  have hx' : 0 ≤ x' := hx.trans hle
  have hat := expFixedPoint_seriesLimit
  rw [expFixedPoint_series (hx'.trans hlimit) hfive] at hat
  rw [expFixedPoint_series hx (by omega), expFixedPoint_series hx' (by omega)]
  obtain ⟨e', he', -, htop⟩ :=
    expTerms_mono hx' hlimit one_pos hscale.le le_rfl hx' hlimit hsmall hat
  obtain ⟨e, he, hge, hee⟩ :=
    expTerms_mono hx hle one_pos hscale.le le_rfl hx hle (hlimit.trans_lt hsmall) he'
  exact ⟨e, e', he, he', hge, hee, htop⟩

theorem expFixedPoint_range {x : ℤ} (hx : 0 ≤ x) (hlimit : x ≤ seriesLimit) :
    ∃ e, expFixedPoint x = .ok e ∧ fixedPointScale ≤ e ∧ e ≤ fixedPointScale + 33 := by
  obtain ⟨e, e', he, -, hge, hee, htop⟩ := expFixedPoint_mono hx le_rfl hlimit
  exact ⟨e, he, hge, hee.trans htop⟩

/-- Beyond the limit, up to five, the exponential overflows. -/
theorem expFixedPoint_overflows {x : ℤ} (hlimit : seriesLimit < x) (hfive : x ≤ 5 * fixedPointScale)
    (value : ℤ) : expFixedPoint x ≠ .ok value := by
  have hnext : ∀ e, expTerms (seriesLimit + 1) 10 1 fixedPointScale (seriesLimit + 1) ≠ .ok e := by
    have herror : (expTerms (seriesLimit + 1) 10 1 fixedPointScale (seriesLimit + 1)).toOption =
        none := by
      decide +kernel
    intro e he
    rw [he] at herror
    cases herror
  have hpos : (0 : ℤ) ≤ seriesLimit + 1 := by decide
  have hsmall : 5 * fixedPointScale < 2 ^ 127 := by decide
  intro hvalue
  rw [expFixedPoint_series (by omega) hfive] at hvalue
  obtain ⟨e, he, -, -⟩ := expTerms_mono hpos (show seriesLimit + 1 ≤ x by omega) one_pos
    fixedPointScale_pos.le le_rfl hpos (by omega) (by omega) hvalue
  exact hnext e he

end Series

section Shares

variable {b q yes no : ℤ}

/-- Arguments of less than one do not reach the first term. -/
theorem expFixedPoint_unit {x : ℤ} (hlow : -fixedPointScale < x) (hhigh : x < fixedPointScale) :
    expFixedPoint x = .ok fixedPointScale := by
  have hscale : fixedPointScale = 1000000000000000000 := rfl
  have hterm : x.tdiv fixedPointScale = 0 := by
    rcases le_total 0 x with hpos | hneg
    · exact Int.tdiv_eq_zero_of_lt hpos hhigh
    · rw [← neg_neg x, Int.neg_tdiv, Int.tdiv_eq_zero_of_lt (by omega) (by omega), neg_zero]
  have hone : safeDiv x 1 = .ok x := by
    rw [safeDiv_eq_ok, Int.tdiv_one]
    exact ⟨⟨one_ne_zero, by omega, by omega⟩, rfl⟩
  have hzero : safeDiv x fixedPointScale = .ok 0 := by
    rw [safeDiv_eq_ok, hterm]
    exact ⟨⟨by decide, by decide⟩, rfl⟩
  unfold expFixedPoint
  split_ifs
  · rfl
  · omega
  · omega
  · rw [expTerms, hone, ok_bind, hzero, ok_bind, if_pos rfl]
    rfl

/-- Pools that are not negative, and that bets left room to scale. -/
structure Stocked (yes no : ℤ) : Prop where
  yesNonneg : 0 ≤ yes
  noNonneg : 0 ≤ no
  yesFits : yes * fixedPointScale < 2 ^ 127
  noFits : no * fixedPointScale < 2 ^ 127

theorem stocked_empty : Stocked 0 0 := ⟨by decide, by decide, by decide, by decide⟩

theorem expShare_pos (hb : 0 < b) (hq : 0 ≤ q) (hfits : q * fixedPointScale < 2 ^ 127) :
    expShare q b = expFixedPoint (q * fixedPointScale / b) := by
  have hproduct : 0 ≤ q * fixedPointScale := mul_nonneg hq fixedPointScale_pos.le
  have hmul : safeMul q fixedPointScale = .ok (q * fixedPointScale) :=
    (safeMul_nonneg hq fixedPointScale_pos.le).mpr ⟨hfits, rfl⟩
  rw [expShare, hmul, ok_bind, safeDiv_nonneg ⟨hproduct, hfits⟩ hb, ok_bind]

theorem expShare_neg (hq : 0 ≤ q) (hfits : q * fixedPointScale < 2 ^ 127) (hsmall : q < -b) :
    expShare q b = .ok fixedPointScale := by
  have hproduct : 0 ≤ q * fixedPointScale := mul_nonneg hq fixedPointScale_pos.le
  have hmul : safeMul q fixedPointScale = .ok (q * fixedPointScale) :=
    (safeMul_nonneg hq fixedPointScale_pos.le).mpr ⟨hfits, rfl⟩
  have hquotient : (q * fixedPointScale).tdiv b = -(q * fixedPointScale / -b) := by
    rw [← neg_neg b, Int.tdiv_neg, neg_neg, Int.tdiv_eq_ediv_of_nonneg hproduct]
  have hlow : 0 ≤ q * fixedPointScale / -b := Int.ediv_nonneg hproduct (by omega)
  have hhigh : q * fixedPointScale / -b < fixedPointScale := by
    rw [Int.ediv_lt_iff_lt_mul (by omega), mul_comm]
    exact mul_lt_mul_of_pos_left hsmall fixedPointScale_pos
  have hscale : fixedPointScale = 1000000000000000000 := rfl
  have hdiv : safeDiv (q * fixedPointScale) b = .ok (-(q * fixedPointScale / -b)) := by
    rw [safeDiv_eq_ok, hquotient]
    exact ⟨⟨by omega, by omega, by omega⟩, rfl⟩
  rw [expShare, hmul, ok_bind, hdiv, ok_bind]
  exact expFixedPoint_unit (by omega) (by omega)

/-- Where the price is computed and costs are: both exponentials are small, or only that of the
other pool is saturated, or the parameter is negative and larger than the pools. -/
inductive Priced (b yes no : ℤ) : Prop
  | series (pos : 0 < b) (cost : b * 10 < 2 ^ 127)
      (yesSmall : yes * fixedPointScale / b ≤ seriesLimit)
      (noSmall : no * fixedPointScale / b ≤ seriesLimit)
  | saturated (pos : 0 < b) (cost : b * saturatedLn < 2 ^ 127)
      (yesSmall : yes * fixedPointScale / b ≤ seriesLimit)
      (noLarge : 5 * fixedPointScale < no * fixedPointScale / b)
  | inverse (cost : -(2 ^ 127) ≤ b * 10) (yesSmall : yes < -b) (noSmall : no < -b)

/-- The exponentials of two pools, and what the cost is computed from. -/
inductive Exponentials (b e f : ℤ) : Prop
  | small (one : fixedPointScale ≤ e ∧ e ≤ fixedPointScale + 33)
      (other : fixedPointScale ≤ f ∧ f ≤ fixedPointScale + 33) (cost : FitsI128 (b * 10))
  | saturated (one : fixedPointScale ≤ e ∧ e ≤ fixedPointScale + 33) (other : f = saturatedExp)
      (pos : 0 < b) (cost : FitsI128 (b * saturatedLn))

theorem expFixedPoint_saturated {x : ℤ} (hx : 5 * fixedPointScale < x) :
    expFixedPoint x = .ok saturatedExp := by
  have hscale := fixedPointScale_pos
  unfold expFixedPoint
  rw [if_neg (by omega), if_pos hx]
  rfl

theorem Priced.exponentials (h : Priced b yes no) (hpools : Stocked yes no) :
    ∃ e f, expShare yes b = .ok e ∧ expShare no b = .ok f ∧ Exponentials b e f := by
  have hyes : 0 ≤ yes * fixedPointScale := mul_nonneg hpools.yesNonneg fixedPointScale_pos.le
  have hno : 0 ≤ no * fixedPointScale := mul_nonneg hpools.noNonneg fixedPointScale_pos.le
  cases h with
  | series hb hcost hyesSmall hnoSmall =>
    rw [expShare_pos hb hpools.yesNonneg hpools.yesFits,
      expShare_pos hb hpools.noNonneg hpools.noFits]
    obtain ⟨e, he, hone⟩ := expFixedPoint_range (Int.ediv_nonneg hyes hb.le) hyesSmall
    obtain ⟨f, hf, hother⟩ := expFixedPoint_range (Int.ediv_nonneg hno hb.le) hnoSmall
    exact ⟨e, f, he, hf, .small hone hother ⟨by omega, hcost⟩⟩
  | saturated hb hcost hyesSmall hnoLarge =>
    rw [expShare_pos hb hpools.yesNonneg hpools.yesFits,
      expShare_pos hb hpools.noNonneg hpools.noFits]
    obtain ⟨e, he, hone⟩ := expFixedPoint_range (Int.ediv_nonneg hyes hb.le) hyesSmall
    have hpos : 0 < b * saturatedLn := mul_pos hb (by decide)
    exact ⟨e, _, he, expFixedPoint_saturated hnoLarge,
      .saturated hone rfl hb ⟨by omega, hcost⟩⟩
  | inverse hcost hyesSmall hnoSmall =>
    have hb := hpools.yesNonneg
    have hbounds : fixedPointScale ≤ fixedPointScale ∧ fixedPointScale ≤ fixedPointScale + 33 :=
      ⟨le_rfl, by omega⟩
    exact ⟨_, _, expShare_neg hpools.yesNonneg hpools.yesFits hyesSmall,
      expShare_neg hpools.noNonneg hpools.noFits hnoSmall,
      .small hbounds hbounds ⟨hcost, by omega⟩⟩

end Shares

section Costs

variable {b yes no e f : ℤ}

/-- Where both exponentials are small, every round of Newton's method adds one. -/
theorem lnRounds_small {x y prevY : ℤ} {rounds : ℕ}
    (hx : 2 * fixedPointScale ≤ x ∧ x < 3 * fixedPointScale) (hy : 0 ≤ y)
    (hshort : y + rounds ≤ 1000) (hprev : prevY < y ∧ y - prevY ≤ fixedPointScale) :
    lnRounds x rounds y prevY = .ok (y + rounds) := by
  have hscale : fixedPointScale = 1000000000000000000 := rfl
  induction rounds generalizing y prevY with
  | zero => simp [lnRounds]
  | succ rounds ih =>
    have hdifference : i128 (y - prevY) = .ok (y - prevY) :=
      i128_eq_ok.mpr ⟨⟨by omega, by omega⟩, rfl⟩
    have hdistance : i128 |y - prevY| = .ok (y - prevY) := by
      rw [abs_of_pos (by omega)]
      exact hdifference
    have hgap : i128 (x - fixedPointScale) = .ok (x - fixedPointScale) :=
      i128_eq_ok.mpr ⟨⟨by omega, by omega⟩, rfl⟩
    have hone : (x - fixedPointScale) / fixedPointScale = 1 := by
      rw [hscale] at hx ⊢
      omega
    have hdelta : safeDiv (x - fixedPointScale) fixedPointScale = .ok 1 := by
      rw [safeDiv_nonneg ⟨by omega, by omega⟩ fixedPointScale_pos, hone]
    have hnext : safeAdd y 1 = .ok (y + 1) := safeAdd_eq_ok.mpr ⟨⟨by omega, by omega⟩, rfl⟩
    rw [lnRounds, hdifference, ok_bind, hdistance, ok_bind, if_neg (by omega),
      expFixedPoint_unit (by omega) (by omega), ok_bind, hgap, ok_bind, hdelta, ok_bind, hnext,
      ok_bind, ih (by omega) (by push_cast at hshort ⊢; omega) ⟨by omega, by omega⟩]
    exact congrArg Except.ok (by push_cast; omega)

theorem lnFixedPoint_eq {x : ℤ} (hx : fixedPointScale < x) :
    lnFixedPoint x = lnRounds x 10 0 (-fixedPointScale) := by
  have hscale := fixedPointScale_pos
  rw [lnFixedPoint, require, if_pos (by omega), ok_bind, if_neg (by omega)]

theorem lnFixedPoint_small {x : ℤ} (hx : 2 * fixedPointScale ≤ x ∧ x < 3 * fixedPointScale) :
    lnFixedPoint x = .ok 10 := by
  have hscale := fixedPointScale_pos
  rw [lnFixedPoint_eq (by omega), lnRounds_small hx le_rfl (by norm_num) ⟨by omega, by omega⟩]
  rfl

/-- Where one exponential is saturated, the first round finds the value and the others stay. -/
theorem lnFixedPoint_saturated (he : fixedPointScale ≤ e ∧ e ≤ fixedPointScale + 33) :
    lnFixedPoint (e + saturatedExp) = .ok saturatedLn := by
  have hscale : fixedPointScale = 1000000000000000000 := rfl
  have hexp : saturatedExp = 85070591730234615865843651857942052863 := by decide
  have hln : saturatedLn = 85070591730234615865 := rfl
  have hfirst : i128 (0 - -fixedPointScale) = .ok fixedPointScale := by decide
  have hdistance : i128 |fixedPointScale| = .ok fixedPointScale := by decide
  have hgap : i128 (e + saturatedExp - fixedPointScale) =
      .ok (e + saturatedExp - fixedPointScale) :=
    i128_eq_ok.mpr ⟨⟨by omega, by omega⟩, rfl⟩
  have hquotient : (e + saturatedExp - fixedPointScale) / fixedPointScale = saturatedLn := by
    rw [hexp, hln]
    rw [hscale] at he ⊢
    omega
  have hdelta : safeDiv (e + saturatedExp - fixedPointScale) fixedPointScale = .ok saturatedLn := by
    rw [safeDiv_nonneg ⟨by omega, by omega⟩ fixedPointScale_pos, hquotient]
  have hnext : safeAdd 0 saturatedLn = .ok saturatedLn := by decide
  have hsecond : i128 (saturatedLn - 0) = .ok saturatedLn := by decide
  have hdistance' : i128 |saturatedLn| = .ok saturatedLn := by decide
  have hgap' : i128 (e + saturatedExp - saturatedExp) = .ok e :=
    i128_eq_ok.mpr ⟨⟨by omega, by omega⟩, by omega⟩
  have hdelta' : safeDiv e saturatedExp = .ok 0 := by
    rw [safeDiv_nonneg ⟨by omega, by omega⟩ (by omega),
      Int.ediv_eq_zero_of_lt (by omega) (by omega)]
  have hnext' : safeAdd saturatedLn 0 = .ok saturatedLn := by decide
  have hthird : i128 (saturatedLn - saturatedLn) = .ok 0 := by decide
  rw [lnFixedPoint_eq (by omega), lnRounds, hfirst, ok_bind, hdistance, ok_bind, if_neg (by omega),
    expFixedPoint_unit (by omega) (by omega), ok_bind, hgap, ok_bind, hdelta, ok_bind, hnext,
    ok_bind, lnRounds, hsecond, ok_bind, hdistance', ok_bind, if_neg (by omega),
    expFixedPoint_saturated (by omega), ok_bind, hgap', ok_bind, hdelta', ok_bind, hnext', ok_bind,
    lnRounds, hthird, ok_bind]
  rfl

theorem fitsI128_tdiv {a d : ℤ} (h : FitsI128 a) (hd : 0 < d) : FitsI128 (a.tdiv d) := by
  rcases le_total 0 a with ha | ha
  · have hnonneg := Int.tdiv_nonneg ha hd.le
    have hle := Int.tdiv_le_self d ha
    exact ⟨by omega, hle.trans_lt h.2⟩
  · have hneg : a.tdiv d = -((-a).tdiv d) := by rw [Int.neg_tdiv, neg_neg]
    have hnonneg := Int.tdiv_nonneg (neg_nonneg.mpr ha) hd.le
    have hle := Int.tdiv_le_self d (neg_nonneg.mpr ha)
    have hlow := h.1
    exact ⟨by omega, by omega⟩

/-- The last two steps of the cost. -/
theorem scaleCost_eq_ok {ln c : ℤ} :
    (do let product ← safeMul b ln
        safeDiv product fixedPointScale) = .ok c ↔
      FitsI128 (b * ln) ∧ (b * ln).tdiv fixedPointScale = c := by
  simp only [bind_eq_ok, safeMul_eq_ok, safeDiv_eq_ok]
  constructor
  · rintro ⟨product, ⟨hfits, rfl⟩, -, hc⟩
    exact ⟨hfits, hc⟩
  · rintro ⟨hfits, hc⟩
    exact ⟨_, ⟨hfits, rfl⟩, ⟨fixedPointScale_pos.ne', fitsI128_tdiv hfits fixedPointScale_pos⟩, hc⟩

/-- The cost where both exponentials are small. -/
theorem lmsrCost_small {c : ℤ} (hyes : expShare yes b = .ok e) (hno : expShare no b = .ok f)
    (he : fixedPointScale ≤ e ∧ e ≤ fixedPointScale + 33)
    (hf : fixedPointScale ≤ f ∧ f ≤ fixedPointScale + 33) :
    lmsrCost yes no b = .ok c ↔ FitsI128 (b * 10) ∧ (b * 10).tdiv fixedPointScale = c := by
  have hscale : fixedPointScale = 1000000000000000000 := rfl
  have hsum : safeAdd e f = .ok (e + f) := safeAdd_eq_ok.mpr ⟨⟨by omega, by omega⟩, rfl⟩
  rw [lmsrCost, hyes, ok_bind, hno, ok_bind, hsum, ok_bind,
    lnFixedPoint_small ⟨by omega, by omega⟩, ok_bind, scaleCost_eq_ok]

/-- The cost where the exponential of one pool is saturated. -/
theorem lmsrCost_saturated {c : ℤ} (hyes : expShare yes b = .ok e)
    (hno : expShare no b = .ok saturatedExp)
    (he : fixedPointScale ≤ e ∧ e ≤ fixedPointScale + 33) :
    lmsrCost yes no b = .ok c ↔
      FitsI128 (b * saturatedLn) ∧ (b * saturatedLn).tdiv fixedPointScale = c := by
  have hscale : fixedPointScale = 1000000000000000000 := rfl
  have hexp : saturatedExp = 85070591730234615865843651857942052863 := by decide
  have hsum : safeAdd e saturatedExp = .ok (e + saturatedExp) :=
    safeAdd_eq_ok.mpr ⟨⟨by omega, by omega⟩, rfl⟩
  rw [lmsrCost, hyes, ok_bind, hno, ok_bind, hsum, ok_bind, lnFixedPoint_saturated he, ok_bind,
    scaleCost_eq_ok]

/-- The cost of pools in range is computed. It has the sign of the parameter, and a negative one
leaves it the same for all pools. -/
theorem Priced.lmsrCost_ok (h : Priced b yes no) (hpools : Stocked yes no) :
    ∃ c, lmsrCost yes no b = .ok c ∧ FitsI128 c ∧ (0 ≤ b → 0 ≤ c) ∧
      (b < 0 → c = (b * 10).tdiv fixedPointScale) := by
  obtain ⟨e, f, he, hf, ⟨hone, hother, hcost⟩ | ⟨hone, rfl, hb, hcost⟩⟩ := h.exponentials hpools
  · refine ⟨_, (lmsrCost_small he hf hone hother).mpr ⟨hcost, rfl⟩,
      fitsI128_tdiv hcost fixedPointScale_pos, ?_, fun _ => rfl⟩
    intro hb
    exact Int.tdiv_nonneg (by omega) fixedPointScale_pos.le
  · refine ⟨_, (lmsrCost_saturated he hf hone).mpr ⟨hcost, rfl⟩,
      fitsI128_tdiv hcost fixedPointScale_pos, ?_, by omega⟩
    intro _
    exact Int.tdiv_nonneg (mul_nonneg hb.le (by decide)) fixedPointScale_pos.le

/-- What a bet costs, where the pools before it and after it are in range. -/
theorem bet_cost_ok {yes' no' : ℤ} (h : Priced b yes no) (hpools : Stocked yes no)
    (h' : Priced b yes' no') (hpools' : Stocked yes' no') :
    ∃ c c' cost, lmsrCost yes no b = .ok c ∧ lmsrCost yes' no' b = .ok c' ∧
      i128 (if c ≤ c' then c' - c else 0) = .ok cost := by
  obtain ⟨c, hc, hfits, hpos, hneg⟩ := h.lmsrCost_ok hpools
  obtain ⟨c', hc', hfits', hpos', hneg'⟩ := h'.lmsrCost_ok hpools'
  refine ⟨c, c', _, hc, hc', i128_eq_ok.mpr ⟨?_, rfl⟩⟩
  have hlow := hfits.1
  have hhigh := hfits'.2
  rcases lt_or_ge b 0 with hb | hb
  · rw [hneg hb, hneg' hb, if_pos le_rfl, sub_self]
    exact ⟨by decide, by decide⟩
  · have hc₀ := hpos hb
    split_ifs with hle
    · exact ⟨by omega, by omega⟩
    · exact ⟨by decide, by decide⟩

end Costs

section Quotes

variable {b yes no yes' e e' f : ℤ}

/-- The share of one of two exponentials, on the scale of prices. -/
def quotedShare (e f : ℤ) : ℤ := e * fixedPointScale / (e + f) * 10000 / fixedPointScale

theorem quotedShare_mono (he : 0 < e) (hee : e ≤ e') (hf : 0 < f) :
    quotedShare e f ≤ quotedShare e' f := by
  have hsum : 0 < e + f := by omega
  have hshare := Int.ediv_mul_le (e * fixedPointScale) hsum.ne'
  have hcross : e * fixedPointScale * (e' + f) ≤ e' * fixedPointScale * (e + f) := by
    have hscaled : e * f * fixedPointScale ≤ e' * f * fixedPointScale :=
      mul_le_mul_of_nonneg_right (mul_le_mul_of_nonneg_right hee hf.le) fixedPointScale_pos.le
    linarith [mul_comm e e']
  have hshares : e * fixedPointScale / (e + f) ≤ e' * fixedPointScale / (e' + f) := by
    rw [Int.le_ediv_iff_mul_le (by omega)]
    refine le_of_mul_le_mul_right ?_ hsum
    calc e * fixedPointScale / (e + f) * (e' + f) * (e + f)
        = e * fixedPointScale / (e + f) * (e + f) * (e' + f) := by ring
      _ ≤ e * fixedPointScale * (e' + f) := mul_le_mul_of_nonneg_right hshare (by omega)
      _ ≤ e' * fixedPointScale * (e + f) := hcross
  exact Int.ediv_le_ediv fixedPointScale_pos (by omega)

theorem share_nonneg (he : 0 < e) (hf : 0 < f) : 0 ≤ e * fixedPointScale / (e + f) :=
  Int.ediv_nonneg (mul_nonneg he.le fixedPointScale_pos.le) (by omega)

theorem share_le (he : 0 < e) (hf : 0 < f) : e * fixedPointScale / (e + f) ≤ fixedPointScale := by
  refine Int.ediv_le_of_le_mul (by omega) ?_
  rw [mul_comm]
  exact mul_le_mul_of_nonneg_left (by omega) fixedPointScale_pos.le

theorem quotedShare_nonneg (he : 0 < e) (hf : 0 < f) : 0 ≤ quotedShare e f := by
  have hshare := share_nonneg he hf
  exact Int.ediv_nonneg (by omega) fixedPointScale_pos.le

theorem quotedShare_le (he : 0 < e) (hf : 0 < f) : quotedShare e f ≤ 10000 := by
  have hshare := share_le he hf
  refine Int.ediv_le_of_le_mul fixedPointScale_pos ?_
  omega

/-- The larger exponential has at least half. -/
theorem half_le_quotedShare (he : 0 < e) (hf : 0 < f) (hfe : f ≤ e) : 5000 ≤ quotedShare e f := by
  have hscale : fixedPointScale = 2 * 500000000000000000 := by decide
  have hhalf : 500000000000000000 ≤ e * fixedPointScale / (e + f) := by
    rw [Int.le_ediv_iff_mul_le (by omega), hscale]
    omega
  rw [quotedShare, Int.le_ediv_iff_mul_le fixedPointScale_pos]
  omega

theorem Exponentials.pos (h : Exponentials b e f) : 0 < e ∧ 0 < f := by
  have hscale := fixedPointScale_pos
  have hexp : 0 < saturatedExp := by decide
  cases h
  · omega
  · omega

/-- The price that two exponentials quote. -/
theorem Exponentials.price_eq (h : Exponentials b e f) (hyes : expShare yes b = .ok e)
    (hno : expShare no b = .ok f) :
    getYesPriceBps yes no b = .ok (quotedShare e f).toNat := by
  have hscale : fixedPointScale = 1000000000000000000 := rfl
  have hexp : saturatedExp = 85070591730234615865843651857942052863 := by decide
  have hone : fixedPointScale ≤ e ∧ e ≤ fixedPointScale + 33 := by
    cases h <;> assumption
  have hother : 0 < f ∧ f ≤ saturatedExp := by
    cases h
    · omega
    · omega
  have he : 0 < e := by omega
  have hnonneg := quotedShare_nonneg he hother.1
  have hle := quotedShare_le he hother.1
  have hsum : safeAdd e f = .ok (e + f) := safeAdd_eq_ok.mpr ⟨⟨by omega, by omega⟩, rfl⟩
  have hfits : 0 ≤ e * fixedPointScale ∧ e * fixedPointScale < 2 ^ 127 := by
    rw [hscale] at hone ⊢
    omega
  have hproduct : safeMul e fixedPointScale = .ok (e * fixedPointScale) :=
    (safeMul_nonneg he.le fixedPointScale_pos.le).mpr ⟨hfits.2, rfl⟩
  have hshareNonneg := share_nonneg he hother.1
  have hshare := share_le he hother.1
  have hdiv : safeDiv (e * fixedPointScale) (e + f) = .ok (e * fixedPointScale / (e + f)) :=
    safeDiv_nonneg hfits (by omega)
  have hscaled : safeMul (e * fixedPointScale / (e + f)) 10000 =
      .ok (e * fixedPointScale / (e + f) * 10000) :=
    (safeMul_nonneg hshareNonneg (by norm_num)).mpr ⟨by omega, rfl⟩
  have hbps : safeDiv (e * fixedPointScale / (e + f) * 10000) fixedPointScale =
      .ok (quotedShare e f) :=
    safeDiv_nonneg ⟨by omega, by omega⟩ fixedPointScale_pos
  have hu32 : min (asU32 (quotedShare e f)) 10000 = (quotedShare e f).toNat := by
    rw [asU32, Int.emod_eq_of_lt hnonneg (by omega)]
    omega
  rw [getYesPriceBps, hyes, ok_bind, hno, ok_bind, hsum, ok_bind, if_neg (by omega), hproduct,
    ok_bind, hdiv, ok_bind]
  beta_reduce
  rw [hscaled, ok_bind, hbps, ok_bind, hu32]
  rfl

/-- The two ways in which the exponential of an argument that is not negative is computed. -/
theorem expFixedPoint_eq_ok {x : ℤ} (hx : 0 ≤ x) (h : expFixedPoint x = .ok e) :
    (x ≤ seriesLimit ∧ fixedPointScale ≤ e ∧ e ≤ fixedPointScale + 33) ∨
      (5 * fixedPointScale < x ∧ e = saturatedExp) := by
  rcases le_or_gt x seriesLimit with hsmall | hlarge
  · obtain ⟨value, hvalue, hrange⟩ := expFixedPoint_range hx hsmall
    rw [hvalue] at h
    obtain rfl := Except.ok.inj h
    exact .inl ⟨hsmall, hrange⟩
  · rcases le_or_gt x (5 * fixedPointScale) with hfive | hfive
    · exact absurd h (expFixedPoint_overflows hlarge hfive e)
    · rw [expFixedPoint_saturated hfive] at h
      exact .inr ⟨hfive, (Except.ok.inj h).symm⟩

theorem expShare_eq_ok {q : ℤ} (hb : 0 ≤ b) (hq : 0 ≤ q) (hfits : q * fixedPointScale < 2 ^ 127)
    (h : expShare q b = .ok e) :
    0 < b ∧ ((q * fixedPointScale / b ≤ seriesLimit ∧ fixedPointScale ≤ e ∧
      e ≤ fixedPointScale + 33) ∨
      (5 * fixedPointScale < q * fixedPointScale / b ∧ e = saturatedExp)) := by
  rcases hb.lt_or_eq with hpos | rfl
  · rw [expShare_pos hpos hq hfits] at h
    exact ⟨hpos, expFixedPoint_eq_ok
      (Int.ediv_nonneg (mul_nonneg hq fixedPointScale_pos.le) hpos.le) h⟩
  · simp only [expShare, bind_eq_ok, safeDiv_eq_ok] at h
    obtain ⟨-, -, -, ⟨⟨hzero, -⟩, -⟩, -⟩ := h
    exact absurd rfl hzero

/-- With a parameter that is not negative, the price and the cost are computed for pools in range
and no others. -/
theorem priced_iff (hb : 0 ≤ b) (hpools : Stocked yes no) :
    ((∃ p, getYesPriceBps yes no b = .ok p) ∧ ∃ c, lmsrCost yes no b = .ok c) ↔
      Priced b yes no := by
  constructor
  · rintro ⟨⟨p, hp⟩, c, hc⟩
    have hscale : fixedPointScale = 1000000000000000000 := rfl
    have hexp : saturatedExp = 85070591730234615865843651857942052863 := by decide
    simp only [getYesPriceBps, bind_eq_ok] at hp
    obtain ⟨e, he, f, hf, sum, hsum, hp⟩ := hp
    obtain ⟨hpos, heCases⟩ := expShare_eq_ok hb hpools.yesNonneg hpools.yesFits he
    obtain ⟨-, hfCases⟩ := expShare_eq_ok hb hpools.noNonneg hpools.noFits hf
    obtain ⟨-, rfl⟩ := safeAdd_eq_ok.mp hsum
    rw [if_neg (by omega)] at hp
    simp only [bind_eq_ok, safeMul_eq_ok] at hp
    obtain ⟨product, ⟨hproduct, -⟩, -⟩ := hp
    rcases heCases with ⟨hyesSmall, hone⟩ | ⟨-, rfl⟩
    · rcases hfCases with ⟨hnoSmall, hother⟩ | ⟨hnoLarge, rfl⟩
      · exact .series hpos ((lmsrCost_small he hf hone hother).mp hc).1.2 hyesSmall hnoSmall
      · exact .saturated hpos ((lmsrCost_saturated he hf hone).mp hc).1.2 hyesSmall hnoLarge
    · have hlarge : ¬ FitsI128 (saturatedExp * fixedPointScale) := by decide
      exact absurd hproduct hlarge
  · intro h
    obtain ⟨e, f, he, hf, hexps⟩ := h.exponentials hpools
    obtain ⟨c, hc, -⟩ := h.lmsrCost_ok hpools
    exact ⟨⟨_, hexps.price_eq he hf⟩, c, hc⟩

/-- The exponential of the larger of two pools is the larger. -/
theorem expShare_mono {q q' : ℤ} (hb : 0 < b) (hq : 0 ≤ q) (hle : q ≤ q')
    (hfits : q' * fixedPointScale < 2 ^ 127) (hlimit : q' * fixedPointScale / b ≤ seriesLimit)
    (h : expShare q b = .ok e) (h' : expShare q' b = .ok e') : e ≤ e' := by
  have hscaled : q * fixedPointScale ≤ q' * fixedPointScale :=
    mul_le_mul_of_nonneg_right hle fixedPointScale_pos.le
  obtain ⟨d, d', hd, hd', -, hdd, -⟩ := expFixedPoint_mono
    (Int.ediv_nonneg (mul_nonneg hq fixedPointScale_pos.le) hb.le)
    (Int.ediv_le_ediv hb hscaled) hlimit
  rw [expShare_pos hb hq (hscaled.trans_lt hfits), hd] at h
  rw [expShare_pos hb (hq.trans hle) hfits, hd'] at h'
  obtain rfl := Except.ok.inj h
  obtain rfl := Except.ok.inj h'
  exact hdd

theorem Priced.expShare_le (h : Priced b yes' no) (hpools : Stocked yes' no) (hyes : 0 ≤ yes)
    (hle : yes ≤ yes') (he : expShare yes b = .ok e) (he' : expShare yes' b = .ok e') :
    e ≤ e' := by
  cases h with
  | series hb _ hyesSmall _ => exact expShare_mono hb hyes hle hpools.yesFits hyesSmall he he'
  | saturated hb _ hyesSmall _ => exact expShare_mono hb hyes hle hpools.yesFits hyesSmall he he'
  | inverse _ hyesSmall _ =>
    have hfits : yes * fixedPointScale < 2 ^ 127 :=
      (mul_le_mul_of_nonneg_right hle fixedPointScale_pos.le).trans_lt hpools.yesFits
    rw [expShare_neg hyes hfits (hle.trans_lt hyesSmall)] at he
    rw [expShare_neg hpools.yesNonneg hpools.yesFits hyesSmall] at he'
    exact (Except.ok.inj he).symm.le.trans (Except.ok.inj he').le

/-- The larger pool has the larger exponential. -/
theorem Priced.exponentials_le (h : Priced b yes no) (hpools : Stocked yes no) (hlarger : no ≤ yes)
    (he : expShare yes b = .ok e) (hf : expShare no b = .ok f) : f ≤ e := by
  cases h with
  | series hb _ hyesSmall _ =>
    exact expShare_mono hb hpools.noNonneg hlarger hpools.yesFits hyesSmall hf he
  | saturated hb _ hyesSmall hnoLarge =>
    have hscaled : no * fixedPointScale / b ≤ yes * fixedPointScale / b :=
      Int.ediv_le_ediv hb (mul_le_mul_of_nonneg_right hlarger fixedPointScale_pos.le)
    have hlimit : seriesLimit < 5 * fixedPointScale := by decide
    omega
  | inverse _ hyesSmall hnoSmall =>
    rw [expShare_neg hpools.yesNonneg hpools.yesFits hyesSmall] at he
    rw [expShare_neg hpools.noNonneg hpools.noFits hnoSmall] at hf
    exact (Except.ok.inj hf).symm.le.trans (Except.ok.inj he).le

end Quotes

section Runs

variable {Addr : Type} [DecidableEq Addr] {home : Addr} {s t : State Addr}

/-- The pools of a market are in range for its parameter. -/
structure MarketRecord.InRange (r : MarketRecord Addr) : Prop where
  stocked : Stocked r.yesPool r.noPool
  priced : Priced r.liquidityParameter r.yesPool r.noPool

omit [DecidableEq Addr] in
theorem MarketRecord.InRange.currentPrice_ok {r : MarketRecord Addr} (h : r.InRange) :
    ∃ yes no, r.currentPrice = .ok (yes, no) ∧ yes + no = 10000 ∧
      (r.noPool < r.yesPool → 5000 ≤ yes) := by
  obtain ⟨e, f, he, hf, hexps⟩ := h.priced.exponentials h.stocked
  have hpos : 0 < e ∧ 0 < f := hexps.pos
  have hle := quotedShare_le hpos.1 hpos.2
  refine ⟨_, _, ?_, Nat.add_sub_cancel' (show (quotedShare e f).toNat ≤ 10000 by omega), ?_⟩
  · rw [currentPrice, hexps.price_eq he hf]
    rfl
  · intro hlarger
    have hhalf := half_le_quotedShare hpos.1 hpos.2
      (h.priced.exponentials_le h.stocked hlarger.le he hf)
    omega

omit [DecidableEq Addr] in
/-- The market with the larger pool quotes no lower price. -/
theorem MarketRecord.InRange.currentPrice_mono {r r' : MarketRecord Addr} (h : r.InRange)
    (h' : r'.InRange) (hb : r'.liquidityParameter = r.liquidityParameter)
    (hno : r'.noPool = r.noPool) (hle : r.yesPool ≤ r'.yesPool) :
    ∃ p p', r.currentPrice = .ok p ∧ r'.currentPrice = .ok p' ∧ p.1 ≤ p'.1 := by
  obtain ⟨e, f, he, hf, hexps⟩ := h.priced.exponentials h.stocked
  obtain ⟨e', f', he', hf', hexps'⟩ := h'.priced.exponentials h'.stocked
  have hee : e ≤ e' := by
    have hpriced := h'.priced
    rw [hb] at hpriced he'
    exact hpriced.expShare_le h'.stocked h.stocked.yesNonneg hle he he'
  have hff : f' = f := by
    rw [hb, hno, hf] at hf'
    exact (Except.ok.inj hf').symm
  refine ⟨((quotedShare e f).toNat, 10000 - (quotedShare e f).toNat),
    ((quotedShare e' f).toNat, 10000 - (quotedShare e' f).toNat), ?_, ?_,
    Int.toNat_le_toNat (quotedShare_mono hexps.pos.1 hee hexps.pos.2)⟩
  · rw [currentPrice, hexps.price_eq he hf]
    rfl
  · rw [currentPrice, hexps'.price_eq he' hf', hff]
    rfl

/-- The call leaves the pools of the market it makes or bets on in range. -/
def KeepsRange (s : State Addr) : Call Addr home → Prop
  | .createMarket _ terms =>
      Priced (terms.liquidityParameter.getD defaultLiquidityParameter) 0 0
  | .placeBet _ marketId outcome amount => ∀ r, s.market marketId = some r →
      Priced r.liquidityParameter (r.grow outcome amount).yesPool (r.grow outcome amount).noPool
  | _ => True

/-- A market of a run that kept its pools in range. -/
def ReachedInRange (home : Addr) (s : State Addr) (marketId : ℕ) (r : MarketRecord Addr) : Prop :=
  ∃ tokens admin steps, s = (machine home).run (launched tokens admin) steps ∧
    (∀ pre step t, (machine home).Executes (launched tokens admin) steps pre step t →
      KeepsRange ((machine home).run (launched tokens admin) pre) step.2) ∧
    s.market marketId = some r

omit [DecidableEq Addr] in
/-- A change of one market keeps the others. -/
theorem inRange_update {market : ℕ → Option (MarketRecord Addr)} {m : ℕ} {r : MarketRecord Addr}
    (hall : ∀ i x, market i = some x → x.InRange) (hr : r.InRange) :
    ∀ i x, Function.update market m (some r) i = some x → x.InRange := by
  intro i x hx
  rcases eq_or_ne i m with rfl | hne
  · rw [Function.update_self] at hx
    obtain rfl := Option.some.inj hx
    exact hr
  · rw [Function.update_of_ne hne] at hx
    exact hall i x hx

omit [DecidableEq Addr] in
theorem MarketRecord.InRange.grow {r : MarketRecord Addr} {outcome : Bool} {amount : ℤ}
    (h : r.InRange) (hpos : 0 < amount)
    (hyes : FitsI128 ((r.grow outcome amount).yesPool * fixedPointScale))
    (hno : FitsI128 ((r.grow outcome amount).noPool * fixedPointScale))
    (hpriced : Priced r.liquidityParameter (r.grow outcome amount).yesPool
      (r.grow outcome amount).noPool) : (r.grow outcome amount).InRange := by
  have hyesNonneg := h.stocked.yesNonneg
  have hnoNonneg := h.stocked.noNonneg
  cases outcome with
  | true => exact ⟨⟨add_nonneg hyesNonneg hpos.le, hnoNonneg, hyes.2, hno.2⟩, hpriced⟩
  | false => exact ⟨⟨hyesNonneg, add_nonneg hnoNonneg hpos.le, hyes.2, hno.2⟩, hpriced⟩

/-- A call that keeps its pools in range keeps all. -/
theorem inRange_step {inv : Invocation Addr home} {call : Call Addr home}
    (h : exec inv call s = .ok t) (hkeeps : KeepsRange s call)
    (hall : ∀ i x, s.market i = some x → x.InRange) :
    ∀ i x, t.market i = some x → x.InRange := by
  cases call with
  | createMarket creator terms =>
    simp only [exec, createMarket, bind_eq_ok, pure_eq_ok] at h
    obtain ⟨-, -, -, -, marketId, -, rfl⟩ := h
    exact inRange_update hall ⟨stocked_empty, hkeeps⟩
  | placeBet bettor marketId outcome amount =>
    obtain ⟨r, tokens, hr, -, hpos, hyes, hno, -, -, rfl⟩ := placeBet_eq_ok h
    exact inRange_update hall ((hall _ _ hr).grow hpos hyes hno (hkeeps r hr))
  | setPauseGuardian admin guardian =>
    simp only [exec, setPauseGuardian, bind_eq_ok, pure_eq_ok] at h
    obtain ⟨stored, -, -, -, -, -, rfl⟩ := h
    exact hall
  | resolveMarket marketId outcome outcomeProof =>
    simp only [exec, resolveMarket, bind_eq_ok, expect_eq_ok, pure_eq_ok] at h
    obtain ⟨-, -, r, hr, -, -, -, -, oracle, -, -, -, verified, hverified, rfl⟩ := h
    obtain ⟨votes, rfl⟩ := verifyOracles_eq_ok hverified
    have hrange := hall _ _ hr
    exact inRange_update hall ⟨hrange.stocked, hrange.priced⟩
  | cancelMarket marketId =>
    simp only [exec, cancelMarket, bind_eq_ok, expect_eq_ok, pure_eq_ok] at h
    obtain ⟨admin, -, -, -, r, hr, -, -, rfl⟩ := h
    have hrange := hall _ _ hr
    exact inRange_update hall ⟨hrange.stocked, hrange.priced⟩
  | claimWinnings bettor marketId =>
    simp only [exec, claimWinnings, transfer, bind_eq_ok, pure_eq_ok] at h
    obtain ⟨-, -, r, -, -, -, b, -, -, -, winning, -, -, -, payout, -, paid, ⟨tokens, -, rfl⟩,
      rfl⟩ := h
    exact hall
  | elsewhere e =>
    simp only [exec, pure_eq_ok] at h
    obtain rfl := h
    exact hall

theorem ReachedInRange.inRange {marketId : ℕ} {r : MarketRecord Addr}
    (h : ReachedInRange home s marketId r) : r.InRange := by
  obtain ⟨tokens, admin, steps, rfl, hkeeps, hr⟩ := h
  have hall := Machine.run_invariant_of_executes (M := machine home)
    (P := fun s => ∀ i x, s.market i = some x → x.InRange) (s := launched tokens admin)
    (by simp [launched])
    (fun pre step t hx hpre => inRange_step hx.exec_eq (hkeeps pre step t hx) hpre) steps
    List.prefix_rfl
  exact hall marketId r hr

/-- The prices of the markets that kept their pools in range are defined and in order, and the cost
of a bet that keeps them in range is computed. With a parameter that is not negative, out of range
one of these fails. -/
theorem prices_inRange (home : Addr) :
    (∀ s m r, ReachedInRange home s m r → ∃ yes no, getCurrentPrice s m = .ok (yes, no) ∧
      yes + no = 10000 ∧ (r.noPool < r.yesPool → 5000 ≤ yes)) ∧
    (∀ s m r s' m' r', ReachedInRange home s m r → ReachedInRange home s' m' r' →
      r'.liquidityParameter = r.liquidityParameter → r'.noPool = r.noPool →
      r.yesPool ≤ r'.yesPool → ∃ p p', getCurrentPrice s m = .ok p ∧
        getCurrentPrice s' m' = .ok p' ∧ p.1 ≤ p'.1) ∧
    (∀ s m r outcome amount, ReachedInRange home s m r → 0 < amount →
      FitsI128 ((r.grow outcome amount).yesPool * fixedPointScale) →
      FitsI128 ((r.grow outcome amount).noPool * fixedPointScale) →
      Priced r.liquidityParameter (r.grow outcome amount).yesPool
        (r.grow outcome amount).noPool →
      ∃ oldCost newCost cost,
        lmsrCost r.yesPool r.noPool r.liquidityParameter = .ok oldCost ∧
        lmsrCost (r.grow outcome amount).yesPool (r.grow outcome amount).noPool
          r.liquidityParameter = .ok newCost ∧
        i128 (if oldCost ≤ newCost then newCost - oldCost else 0) = .ok cost) ∧
    (∀ b yes no, 0 ≤ b → Stocked yes no →
      (((∃ p, getYesPriceBps yes no b = .ok p) ∧ ∃ c, lmsrCost yes no b = .ok c) ↔
        Priced b yes no)) := by
  have hprice : ∀ s m r, ReachedInRange home s m r → getCurrentPrice s m = r.currentPrice := by
    rintro s m r ⟨tokens, admin, steps, -, -, hr⟩
    rw [getCurrentPrice, hr]
    rfl
  refine ⟨?_, ?_, ?_, fun b yes no hb hpools => priced_iff hb hpools⟩
  · intro s m r h
    rw [hprice s m r h]
    exact h.inRange.currentPrice_ok
  · intro s m r s' m' r' h h' hb hno hle
    rw [hprice s m r h, hprice s' m' r' h']
    exact h.inRange.currentPrice_mono h'.inRange hb hno hle
  · intro s m r outcome amount h hpos hyes hno hpriced
    exact bet_cost_ok h.inRange.priced h.inRange.stocked hpriced
      (h.inRange.grow hpos hyes hno hpriced).stocked

section Example
open Launch

def wealthy : State ℕ := launched ⟨fun _ a => if a = 0 then 0 else 10 ^ 20, []⟩ (some 1)

def opening (b : Option ℤ) : Step ℕ 0 :=
  (atTime 5, .createMarket 4 { goalTerms with liquidityParameter := b })

def betting (amount : ℤ) : Step ℕ 0 := (atTime 6, .placeBet 2 1 true amount)

def goalMarket : MarketRecord ℕ where
  id := 1
  creator := 4
  learner := 1
  goalDescriptionHash := 0
  resolutionDate := 100
  token := 9
  yesPool := 15 * 10 ^ 16
  noPool := 0
  resolved := false
  outcome := none
  liquidityParameter := defaultLiquidityParameter
  resolutionOracle := 5
  resolutionRequiresMulti := false

/-- A bet of one and a half times the parameter. -/
theorem prices_inRange_oneBet :
    ∃ yes no, getCurrentPrice
      ((machine 0).run wealthy [opening none, betting (15 * 10 ^ 16)]) 1 = .ok (yes, no) ∧
      yes + no = 10000 ∧ ((0 : ℤ) < 15 * 10 ^ 16 → 5000 ≤ yes) := by
  refine (prices_inRange 0).1 _ 1 goalMarket ⟨_, some 1, _, rfl, ?_, rfl⟩
  intro pre step t hx
  rcases Machine.executes_append_singleton.mp
    (show (machine 0).Executes wealthy ([opening none] ++ [betting (15 * 10 ^ 16)]) pre step t
      from hx) with hfirst | ⟨rfl, rfl, -⟩
  · rcases Machine.executes_append_singleton.mp
      (show (machine 0).Executes wealthy ([] ++ [opening none]) pre step t from hfirst) with
      hnone | ⟨rfl, rfl, -⟩
    · exact absurd hnone Machine.not_executes_nil
    · exact .series (by decide) (by decide) (by decide) (by decide)
  · intro r hr
    obtain rfl := Option.some.inj hr
    exact .series (by decide) (by decide) (by decide) (by decide)

/-- The parameter zero leaves no price. With the default, a bet of twice the parameter overflows,
and one that saturates the exponential leaves no price. With a negative parameter the larger pool
has the lower price. -/
theorem prices_fail_outOfRange :
    ((machine 0).run wealthy [opening (some 0)]).marketCount = 1 ∧
    (getCurrentPrice ((machine 0).run wealthy [opening (some 0)]) 1).toOption = none ∧
    (lmsrCost (2 * 10 ^ 17) 0 defaultLiquidityParameter).toOption = none ∧
    (placeBet (atTime 6) ((machine 0).run wealthy [opening none]) 2 1 true
      (2 * 10 ^ 17)).toOption.isNone ∧
    (((machine 0).run wealthy [opening none, betting (10 ^ 19)]).market 1).map
      MarketRecord.yesPool = some (10 ^ 19) ∧
    (getCurrentPrice ((machine 0).run wealthy [opening none, betting (10 ^ 19)]) 1).toOption =
      none ∧
    (getCurrentPrice ((machine 0).run wealthy [opening (some (-100)), betting 120]) 1).toOption =
      some (4999, 5001) := by
  refine ⟨?_, ?_, ?_, ?_, ?_, ?_, ?_⟩ <;> decide +kernel

end Example

end Runs

end PredictionMarket
