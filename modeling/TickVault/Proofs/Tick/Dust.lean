import TickVault.Operate
import TickVault.Proofs.Tick.Cover

namespace TickVault

section Dust

variable {debt collateral tick raised : Int}

theorem maxPositionRatio_le : maxPositionRatio ≤ maxRatio := by decide

/-- Each of the roundings on the way up is a rounding down. -/
theorem raised_le {perfect ratio : Int} (below : perfect ≤ ratio) (backed : 0 < collateral) :
    perfect * tickSpacing / 10000 * collateral / ratioScale ≤
      ratio * tickSpacing / 10000 * collateral / ratioScale := by
  apply Int.ediv_le_ediv (by decide)
  apply Int.mul_le_mul_of_nonneg_right _ (Int.le_of_lt backed)
  apply Int.ediv_le_ediv (by decide)
  exact Int.mul_le_mul_of_nonneg_right below (by decide)

theorem tick_up_le (backed : 0 < collateral) :
    10000 * (debt * ratioScale / collateral * tickSpacing / 10000 * collateral / ratioScale) ≤
      tickSpacing * debt := by
  have scale : (0 : Int) < ratioScale := by decide
  have owed : debt * ratioScale / collateral * collateral ≤ debt * ratioScale :=
    Int.ediv_mul_le _ (Int.ne_of_gt backed)
  generalize debt * ratioScale / collateral = ratio at *
  have stepped : ratio * tickSpacing / 10000 * 10000 ≤ ratio * tickSpacing :=
    Int.ediv_mul_le _ (by decide)
  generalize ratio * tickSpacing / 10000 = next at *
  have rounded : next * collateral / ratioScale * ratioScale ≤ next * collateral :=
    Int.ediv_mul_le _ (Int.ne_of_gt scale)
  generalize next * collateral / ratioScale = tickDebt at *
  refine Int.le_of_mul_le_mul_right ?_ scale
  calc 10000 * tickDebt * ratioScale = 10000 * (tickDebt * ratioScale) := Int.mul_assoc ..
    _ ≤ 10000 * (next * collateral) := Int.mul_le_mul_of_nonneg_left rounded (by decide)
    _ = next * 10000 * collateral := by ring
    _ ≤ ratio * tickSpacing * collateral :=
        Int.mul_le_mul_of_nonneg_right stepped (Int.le_of_lt backed)
    _ = tickSpacing * (ratio * collateral) := by ring
    _ ≤ tickSpacing * (debt * ratioScale) := Int.mul_le_mul_of_nonneg_left owed (by decide)
    _ = tickSpacing * debt * ratioScale := (Int.mul_assoc ..).symm

/-- Every position up to the ratio that an operation allows has a tick. On it its debt is raised by
at most one tick; a position below the least ratio lies on the lowest tick, and its debt is raised
to at most the ratio one tick above the least. -/
theorem positionTick_dust (owed : 0 < debt) (backed : 0 < collateral) :
    (debt * ratioScale / collateral ≤ maxPositionRatio →
      ∃ tick raised, positionTick debt collateral = .ok (tick, raised)) ∧
    ∀ tick raised, positionTick debt collateral = .ok (tick, raised) →
      minTick ≤ tick ∧ tick ≤ maxTick ∧ debt ≤ raised ∧
      (minRatio ≤ debt * ratioScale / collateral → 10000 * raised ≤ tickSpacing * debt) ∧
      (debt * ratioScale / collateral < minRatio →
        tick = minTick ∧ raised ≤ max debt (6102 * collateral / ratioScale)) := by
  constructor
  · intro allowed
    have bounded : (debt * ratioScale).fdiv collateral ≤ maxRatio := by
      rw [Int.fdiv_eq_ediv_of_nonneg _ (Int.le_of_lt backed)]
      exact Int.le_trans allowed maxPositionRatio_le
    obtain ⟨tick, raised, placed, -⟩ := positionTick_of_le (Int.ne_of_gt backed) bounded
    exact ⟨tick, raised, placed⟩
  · intro tick raised placed
    obtain ⟨⟨low, high⟩, -⟩ := positionTick_le_highest backed placed
    obtain ⟨most, rfl, rfl⟩ := positionTick_floor backed placed
    refine ⟨low, high, Int.le_max_right _ _, ?_, ?_⟩
    · intro least
      rw [max_eq_left least] at most ⊢
      have up := raised_le (floorTick_range least most).2.2 backed
      rw [mul_max_of_nonneg _ _ (by decide)]
      apply Int.max_le.mpr
      constructor
      · exact Int.le_trans (Int.mul_le_mul_of_nonneg_left up (by decide)) (tick_up_le backed)
      · exact Int.mul_le_mul_of_nonneg_right (by decide) (Int.le_of_lt owed)
    · intro below
      rw [max_eq_right (Int.le_of_lt below)] at most ⊢
      have up := raised_le (floorTick_range (Int.le_refl minRatio) most).2.2 backed
      refine ⟨by decide +kernel, ?_⟩
      rw [max_comm]
      exact max_le_max (Int.le_refl _) up

theorem positionTick_dust_unit :
    0 < (1 : Int) ∧ 0 < (10 ^ 18 : Int) ∧ 1 * ratioScale / 10 ^ 18 < minRatio ∧
      ∃ raised, positionTick 1 (10 ^ 18) = .ok (minTick, raised) ∧
        1 ≤ raised ∧ raised ≤ 21678658 := by
  have below : 1 * ratioScale / 10 ^ 18 < minRatio := by decide
  obtain ⟨places, dusty⟩ :=
    positionTick_dust (show 0 < (1 : Int) by decide) (show 0 < (10 ^ 18 : Int) by decide)
  obtain ⟨tick, raised, placed⟩ := places (by decide)
  obtain ⟨-, -, least, -, low⟩ := dusty tick raised placed
  obtain ⟨rfl, most⟩ := low below
  exact ⟨by decide, by decide, below, raised, placed, least, Int.le_trans most (by decide)⟩

end Dust

end TickVault
