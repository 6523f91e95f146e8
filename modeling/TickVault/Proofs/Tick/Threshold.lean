import TickVault.Proofs.Settlement

namespace TickVault

section Floor

variable {ratio ratio' tick tick' : Int}

theorem floorTick_fst_below {r : Nat} (below : r < 1 <<< 48) :
    (floorTick r).1 = -((divideOut tickPowers ((1 <<< 48) * powerScale / r)).1 : Int) - 1 := by
  rw [floorTick_below below Prod.mk.eta.symm]

theorem floorTick_fst_above {r : Nat} (above : ¬ r < 1 <<< 48) :
    (floorTick r).1 = ((divideOut tickPowers ((r * powerScale) >>> 48)).1 : Int) := by
  rw [floorTick_above above Prod.mk.eta.symm]

theorem floorTick_mono (low : minRatio ≤ ratio) (less : ratio ≤ ratio') :
    (floorTick ratio).1 ≤ (floorTick ratio').1 := by
  have positive : 0 < ratio := Int.lt_of_lt_of_le (by decide) low
  obtain ⟨r, rfl⟩ := Int.eq_ofNat_of_zero_le (Int.le_of_lt positive)
  obtain ⟨r', rfl⟩ := Int.eq_ofNat_of_zero_le (Int.le_trans (Int.le_of_lt positive) less)
  have order : r ≤ r' := Int.ofNat_le.mp less
  by_cases below : r < 1 <<< 48
  · rw [floorTick_fst_below below]
    by_cases below' : r' < 1 <<< 48
    · -- Below one the ticks are counted downwards.
      have fewer : (divideOut tickPowers ((1 <<< 48) * powerScale / r')).1 ≤
          (divideOut tickPowers ((1 <<< 48) * powerScale / r)).1 :=
        divideOut_ticks_mono graded_tickPowers
          (Nat.div_le_div_left order (Int.natCast_pos.mp positive))
      rw [floorTick_fst_below below']
      exact Int.sub_le_sub_right (Int.neg_le_neg (Int.ofNat_le.mpr fewer)) 1
    · rw [floorTick_fst_above below']
      omega
  · have above : ¬ r' < 1 <<< 48 := fun less' => below (Nat.lt_of_le_of_lt order less')
    have more : (divideOut tickPowers ((r * powerScale) >>> 48)).1 ≤
        (divideOut tickPowers ((r' * powerScale) >>> 48)).1 := by
      apply divideOut_ticks_mono graded_tickPowers
      simp only [Nat.shiftRight_eq_div_pow]
      exact Nat.div_le_div_right (Nat.mul_le_mul_right _ order)
    rw [floorTick_fst_above below, floorTick_fst_above above]
    exact Int.ofNat_le.mpr more

theorem clampedTickForRatio_mono (less : ratio ≤ ratio')
    (drawn : clampedTickForRatio ratio = .ok tick)
    (drawn' : clampedTickForRatio ratio' = .ok tick') : tick ≤ tick' := by
  rw [clampedTickForRatio_eq, Except.ok.injEq] at drawn drawn'
  have ticks : minTick ≤ maxTick := by decide
  subst drawn drawn'
  by_cases low : ratio < minRatio
  · rw [if_pos low]
    split
    · exact Int.le_refl _
    split
    · exact ticks
    · exact Int.le_max_right _ _
  have low' : ¬ ratio' < minRatio := by omega
  rw [if_neg low, if_neg low']
  by_cases high' : ratio' > maxRatio
  · rw [if_pos high']
    split
    · exact Int.le_refl _
    · rename_i high
      have below := (floorTick_range (Int.not_lt.mp low) (Int.not_lt.mp high)).2.1
      exact Int.max_le.mpr ⟨Int.le_of_lt below, ticks⟩
  · have high : ¬ ratio > maxRatio := by omega
    rw [if_neg high, if_neg high']
    exact max_le_max (floorTick_mono (Int.not_lt.mp low) less) (Int.le_refl _)

end Floor

section Draw

variable {rawRate rawRate' threshold threshold' tick tick' : Int}

def thresholdRatio (rawRate threshold : Int) : Int :=
  rawRate * ratioScale / rateScale * threshold / riskScale

theorem thresholdTick_eq {rate : Int} {prices : ExchangePrices} (borrow : 0 < prices.borrow) :
    thresholdTick rate prices threshold =
      clampedTickForRatio (thresholdRatio (rate * prices.supply / prices.borrow) threshold) := by
  rw [thresholdTick, floorDiv_of_pos borrow]
  rfl

theorem thresholdRatio_mono (rated : 0 ≤ rawRate) (rates : rawRate ≤ rawRate')
    (nonneg : 0 ≤ threshold) (thresholds : threshold ≤ threshold') :
    thresholdRatio rawRate threshold ≤ thresholdRatio rawRate' threshold' := by
  have scales : (0 : Int) ≤ ratioScale ∧ (0 : Int) < rateScale ∧ (0 : Int) < riskScale := by decide
  obtain ⟨ratio_scale, rate_scale, risk_scale⟩ := scales
  have ratio : 0 ≤ rawRate * ratioScale / rateScale :=
    Int.ediv_nonneg (Int.mul_nonneg rated ratio_scale) (Int.le_of_lt rate_scale)
  have ratios : rawRate * ratioScale / rateScale ≤ rawRate' * ratioScale / rateScale :=
    Int.ediv_le_ediv rate_scale (Int.mul_le_mul_of_nonneg_right rates ratio_scale)
  refine Int.ediv_le_ediv risk_scale ?_
  calc rawRate * ratioScale / rateScale * threshold
      ≤ rawRate' * ratioScale / rateScale * threshold :=
        Int.mul_le_mul_of_nonneg_right ratios nonneg
    _ ≤ rawRate' * ratioScale / rateScale * threshold' :=
        Int.mul_le_mul_of_nonneg_left thresholds (Int.le_trans ratio ratios)

theorem thresholdRatio_nonpos (rated : rawRate < 0) (nonneg : 0 ≤ threshold) :
    thresholdRatio rawRate threshold ≤ 0 := by
  have ratio : rawRate * ratioScale / rateScale ≤ 0 := by
    simp only [ratioScale, rateScale]
    omega
  exact Int.ediv_nonpos_of_nonpos_of_neg (Int.mul_nonpos_of_nonpos_of_nonneg ratio nonneg)
    (by decide)

/-- A better raw rate or a higher threshold draws no lower tick. Below zero the rates need no order,
as every threshold draws the lowest tick there. -/
theorem thresholdRatio_drawn_mono (rates : 0 ≤ rawRate → rawRate ≤ rawRate')
    (nonneg : 0 ≤ threshold) (thresholds : threshold ≤ threshold')
    (drawn : clampedTickForRatio (thresholdRatio rawRate threshold) = .ok tick)
    (drawn' : clampedTickForRatio (thresholdRatio rawRate' threshold') = .ok tick') :
    tick ≤ tick' := by
  by_cases rated : 0 ≤ rawRate
  · exact clampedTickForRatio_mono (thresholdRatio_mono rated (rates rated) nonneg thresholds)
      drawn drawn'
  · have low : thresholdRatio rawRate threshold < minRatio :=
      Int.lt_of_le_of_lt (thresholdRatio_nonpos (Int.not_le.mp rated) nonneg) (by decide)
    rw [clampedTickForRatio, if_pos low, Except.ok.injEq] at drawn
    rw [← drawn]
    exact (clampedTickForRatio_range drawn').1

theorem rawRate_mono {rate rate' : Int} {prices prices' : ExchangePrices} (rates : rate ≤ rate')
    (supply : 0 < prices.supply) (supplies : prices.supply ≤ prices'.supply)
    (borrow : 0 < prices'.borrow) (borrows : prices'.borrow ≤ prices.borrow)
    (rated : 0 ≤ rate * prices.supply / prices.borrow) :
    rate * prices.supply / prices.borrow ≤ rate' * prices'.supply / prices'.borrow := by
  have before : 0 < prices.borrow := Int.lt_of_lt_of_le borrow borrows
  have product : 0 ≤ rate * prices.supply := by
    by_contra negative
    have fell := Int.ediv_neg_of_neg_of_pos (Int.not_le.mp negative) before
    omega
  have nonneg : 0 ≤ rate := nonneg_of_mul_nonneg_left product supply
  rw [Int.le_ediv_iff_mul_le borrow]
  calc rate * prices.supply / prices.borrow * prices'.borrow
      ≤ rate * prices.supply / prices.borrow * prices.borrow :=
        Int.mul_le_mul_of_nonneg_left borrows rated
    _ ≤ rate * prices.supply := Int.ediv_mul_le _ (Int.ne_of_gt before)
    _ ≤ rate * prices'.supply := Int.mul_le_mul_of_nonneg_left supplies nonneg
    _ ≤ rate' * prices'.supply :=
        Int.mul_le_mul_of_nonneg_right rates (Int.le_trans (Int.le_of_lt supply) supplies)

end Draw

def Host.rawRate (host : Host) : Int :=
  host.oracle * host.liquidity.prices.supply / host.liquidity.prices.borrow

variable {host host' : Host} {threshold threshold' limit limit' : Int}

theorem Host.limit_ok (borrow : 0 < host.liquidity.prices.borrow)
    (limited : host.limit threshold = .ok limit) :
    clampedTickForRatio (thresholdRatio host.rawRate threshold) = .ok limit := by
  simp only [Host.limit, checkOracleRate, thresholdTick, bind_eq_ok, ensure_eq_ok_iff, pure_eq_ok,
    Except.ok.injEq, floorDiv_of_pos borrow, exists_eq_left'] at limited
  obtain ⟨_, ⟨_, -, rfl⟩, drawn⟩ := limited
  exact drawn

theorem Host.limit_mono (borrow : 0 < host.liquidity.prices.borrow)
    (borrow' : 0 < host'.liquidity.prices.borrow) (rates : host.rawRate ≤ host'.rawRate)
    (nonneg : 0 ≤ threshold) (thresholds : threshold ≤ threshold')
    (limited : host.limit threshold = .ok limit)
    (limited' : host'.limit threshold' = .ok limit') : limit ≤ limit' :=
  thresholdRatio_drawn_mono (fun _ => rates) nonneg thresholds (limit_ok borrow limited)
    (limit_ok borrow' limited')

structure Config.Ordered (config : Config Int) : Prop where
  positive : 0 < config.collateralFactor
  liquidated : config.collateralFactor ≤ config.liquidationThreshold
  absorbed : config.liquidationThreshold ≤ config.liquidationMaxLimit

theorem Config.validate_ordered {config validated : Config Int}
    (valid : config.validate = .ok validated) : validated.Ordered := by
  simp only [Config.validate, bind_eq_ok, toInt_int, Except.ok.injEq, exists_eq_left',
    ensure_eq_ok_iff] at valid
  obtain ⟨_, positive, _, liquidated, _, ⟨absorbed, -⟩, _, -, valid⟩ := valid
  have ordered : config.Ordered := ⟨positive, liquidated, Int.le_of_lt absorbed⟩
  split at valid
  · simp only [bind_eq_ok, pure_eq_ok, Except.ok.injEq] at valid
    obtain ⟨_, -, _, -, rfl⟩ := valid
    exact ordered
  · cases valid
    exact ordered

/-- The floor tick of a ratio is found. It lies at most one below the range, and its own ratio is
positive and does not exceed the given one. -/
def Floors (ratio tick : Int) : Prop :=
  ∃ perfect, tickAtRatio ratio = .ok (tick, perfect) ∧ minTick - 1 ≤ tick ∧ tick ≤ maxTick ∧
    0 < perfect ∧ perfect ≤ ratio

def DrawsTick (rate : Int) (prices : ExchangePrices) (threshold tick : Int) : Prop :=
  thresholdTick rate prices threshold = .ok tick ∧ minTick ≤ tick ∧ tick ≤ maxTick

theorem floors_floorTick {ratio : Int} (low : minRatio ≤ ratio) (high : ratio ≤ maxRatio) :
    Floors ratio (floorTick ratio).1 := by
  obtain ⟨above, below, perfect⟩ := floorTick_range low high
  exact ⟨(floorTick ratio).2, tickAtRatio_ok low high, above, Int.le_of_lt below,
    floorTick_pos low, perfect⟩

theorem exists_drawsTick (rate : Int) {prices : ExchangePrices} (threshold : Int)
    (borrow : 0 < prices.borrow) : ∃ tick, DrawsTick rate prices threshold tick := by
  obtain ⟨tick, drawn⟩ := thresholdTick_ok rate threshold borrow
  exact ⟨tick, drawn, thresholdTick_range drawn⟩

theorem DrawsTick.mono {rate rate' threshold threshold' tick tick' : Int}
    {prices prices' : ExchangePrices} (draws : DrawsTick rate prices threshold tick)
    (draws' : DrawsTick rate' prices' threshold' tick') (rates : rate ≤ rate')
    (supply : 0 < prices.supply) (supplies : prices.supply ≤ prices'.supply)
    (borrow : 0 < prices'.borrow) (borrows : prices'.borrow ≤ prices.borrow)
    (nonneg : 0 ≤ threshold) (thresholds : threshold ≤ threshold') : tick ≤ tick' := by
  have drawn := draws.1
  have drawn' := draws'.1
  rw [thresholdTick_eq (Int.lt_of_lt_of_le borrow borrows)] at drawn
  rw [thresholdTick_eq borrow] at drawn'
  exact thresholdRatio_drawn_mono (rawRate_mono rates supply supplies borrow borrows) nonneg
    thresholds drawn drawn'

/-- Every ratio in range has a floor tick, and every threshold a tick, in the order of ratios,
rates, prices and thresholds. So at any rate the three thresholds of a valid configuration draw
their ticks in order. -/
theorem ticks_ordered :
    (∀ ratio ratio', minRatio ≤ ratio → ratio ≤ ratio' → ratio' ≤ maxRatio →
      ∃ tick tick', Floors ratio tick ∧ Floors ratio' tick' ∧ tick ≤ tick') ∧
    (∀ rate rate' (prices prices' : ExchangePrices) threshold threshold', rate ≤ rate' →
      0 < prices.supply → prices.supply ≤ prices'.supply →
      0 < prices'.borrow → prices'.borrow ≤ prices.borrow →
      0 ≤ threshold → threshold ≤ threshold' →
      ∃ tick tick', DrawsTick rate prices threshold tick ∧
        DrawsTick rate' prices' threshold' tick' ∧ tick ≤ tick') ∧
    (∀ rate (prices : ExchangePrices) (config validated : Config Int),
      config.validate = .ok validated → 0 < prices.supply → 0 < prices.borrow →
      ∃ factor limit most, DrawsTick rate prices validated.collateralFactor factor ∧
        DrawsTick rate prices validated.liquidationThreshold limit ∧
        DrawsTick rate prices validated.liquidationMaxLimit most ∧
        factor ≤ limit ∧ limit ≤ most) := by
  refine ⟨?_, ?_, ?_⟩
  · intro ratio ratio' low less high
    exact ⟨_, _, floors_floorTick low (Int.le_trans less high),
      floors_floorTick (Int.le_trans low less) high, floorTick_mono low less⟩
  · intro rate rate' prices prices' threshold threshold' rates supply supplies borrow borrows
      nonneg thresholds
    obtain ⟨tick, drawn⟩ := exists_drawsTick rate threshold (Int.lt_of_lt_of_le borrow borrows)
    obtain ⟨tick', drawn'⟩ := exists_drawsTick rate' threshold' borrow
    exact ⟨tick, tick', drawn, drawn', drawn.mono drawn' rates supply supplies borrow borrows
      nonneg thresholds⟩
  · intro rate prices config validated valid supply borrow
    have ordered := Config.validate_ordered valid
    have positive := Int.le_of_lt ordered.positive
    obtain ⟨factor, first⟩ := exists_drawsTick rate validated.collateralFactor borrow
    obtain ⟨limit, second⟩ := exists_drawsTick rate validated.liquidationThreshold borrow
    obtain ⟨most, third⟩ := exists_drawsTick rate validated.liquidationMaxLimit borrow
    refine ⟨factor, limit, most, first, second, third, ?_, ?_⟩
    · exact first.mono second (Int.le_refl _) supply (Int.le_refl _) borrow (Int.le_refl _)
        positive ordered.liquidated
    · exact second.mono third (Int.le_refl _) supply (Int.le_refl _) borrow (Int.le_refl _)
        (Int.le_trans positive ordered.liquidated) ordered.absorbed

theorem usual_ticks_ordered :
    (∃ tick tick', Floors minRatio tick ∧ Floors maxRatio tick' ∧ tick ≤ tick') ∧
    (∃ tick tick', DrawsTick (10 ^ 15) {} 800 tick ∧ DrawsTick (2 * 10 ^ 15) {} 900 tick' ∧
      tick ≤ tick') ∧
    ∃ factor limit most, DrawsTick (10 ^ 15) {} 800 factor ∧ DrawsTick (10 ^ 15) {} 900 limit ∧
      DrawsTick (10 ^ 15) {} 950 most ∧ factor ≤ limit ∧ limit ≤ most := by
  obtain ⟨ratios, rates, thresholds⟩ := ticks_ordered
  refine ⟨ratios minRatio maxRatio (Int.le_refl _) (by decide) (Int.le_refl _), ?_, ?_⟩
  · exact rates (10 ^ 15) (2 * 10 ^ 15) {} {} 800 900 (by decide) (by decide) (Int.le_refl _)
      (by decide) (Int.le_refl _) (by decide) (by decide)
  · exact thresholds (10 ^ 15) {} .usual .usual rfl (by decide) (by decide)

end TickVault
