import TickVault.Proofs.Run

/-!
What a partial liquidation does to the positions on its tick. The factor shrinks with the debt and
is rounded down, so a position that entered at a positive factor owes no more than its part of what
is left, rounded up. A position that entered at a factor of zero is out of reach: its debt stays as
it was stored.
-/

namespace TickVault

theorem le_ceil_mul_whole (owed left : Int) {whole : Int} (positive : 0 < whole) :
    owed * left ≤ ⌈((owed * left : Int) : ℚ) / (whole : ℚ)⌉ * whole := by
  have positive' : (0 : ℚ) < whole := by exact_mod_cast positive
  have above := (div_le_iff₀ positive').mp (Int.le_ceil (((owed * left : Int) : ℚ) / (whole : ℚ)))
  exact_mod_cast above

theorem le_ceil_part_iff {owed taken whole : Int} (positive : 0 < whole) :
    owed ≤ ⌈((owed * (whole - taken) : Int) : ℚ) / (whole : ℚ)⌉ ↔ owed * taken < whole := by
  have positive' : (0 : ℚ) < whole := by exact_mod_cast positive
  rw [Int.le_ceil_iff, lt_div_iff₀ positive']
  norm_cast
  constructor
  · intro less
    linarith
  · intro less
    linarith

namespace TickRecord

theorem reduced_debtFactor_mul_le {record : TickRecord Int} (held : 0 < record.rawDebt)
    (debt collateral branch : Int) :
    (record.reduced debt collateral branch).debtFactor * record.rawDebt ≤
      record.debtFactor * (record.rawDebt - debt) := by
  simp only [reduced, Int.fdiv_eq_ediv_of_nonneg _ (Int.le_of_lt held)]
  exact Int.ediv_mul_le _ (Int.ne_of_gt held)

end TickRecord

namespace Position

variable {position : Position Int} {record : TickRecord Int} {debt collateral branch : Int}

theorem debt_reduced_le
    (alive : ¬ (0 < position.tickSlot ∧ position.tickSlot ≤ record.liquidatedSlot))
    (owed : 0 ≤ position.debt) (entered : 0 < position.debtFactor) (positive : 0 < debt)
    (partly : debt < record.rawDebt) :
    (position.shareOf (record.reduced debt collateral branch)).debt ≤
      ⌈(((position.shareOf record).debt * (record.rawDebt - debt) : Int) : ℚ) /
        (record.rawDebt : ℚ)⌉ := by
  have held : 0 < record.rawDebt := Int.lt_trans positive partly
  have left : 0 ≤ record.rawDebt - debt := by omega
  have before := (shareOf_scaled entered alive).2
  have alive' : ¬ (0 < position.tickSlot ∧
      position.tickSlot ≤ (record.reduced debt collateral branch).liquidatedSlot) := alive
  have after := (shareOf_scaled entered alive').2
  have shrunk := TickRecord.reduced_debtFactor_mul_le held debt collateral branch
  have rounded : position.debt * record.debtFactor ≤
      (position.shareOf record).debt * position.debtFactor := by
    rw [before]
    exact le_ceil_mul entered
  have part := le_ceil_mul_whole (position.shareOf record).debt (record.rawDebt - debt) held
  rw [after]
  apply (ceil_le_iff entered).mpr
  apply Int.le_of_mul_le_mul_right _ held
  calc
    position.debt * (record.reduced debt collateral branch).debtFactor * record.rawDebt
        = position.debt *
          ((record.reduced debt collateral branch).debtFactor * record.rawDebt) :=
      Int.mul_assoc _ _ _
    _ ≤ position.debt * (record.debtFactor * (record.rawDebt - debt)) :=
      Int.mul_le_mul_of_nonneg_left shrunk owed
    _ = position.debt * record.debtFactor * (record.rawDebt - debt) :=
      (Int.mul_assoc _ _ _).symm
    _ ≤ (position.shareOf record).debt * position.debtFactor * (record.rawDebt - debt) :=
      Int.mul_le_mul_of_nonneg_right rounded left
    _ = (position.shareOf record).debt * (record.rawDebt - debt) * position.debtFactor :=
      Int.mul_right_comm _ _ _
    _ ≤ _ * record.rawDebt * position.debtFactor :=
      Int.mul_le_mul_of_nonneg_right part (Int.le_of_lt entered)
    _ = _ := Int.mul_right_comm _ _ _

/-- At a factor of zero nothing can be taken from a position that entered at it. -/
theorem shareOf_reduced_exhausted
    (alive : ¬ (0 < position.tickSlot ∧ position.tickSlot ≤ record.liquidatedSlot))
    (entered : position.debtFactor = 0) (factor : record.debtFactor = 0) :
    position.shareOf (record.reduced debt collateral branch) = position.shareOf record := by
  have alive' : ¬ (0 < position.tickSlot ∧
      position.tickSlot ≤ (record.reduced debt collateral branch).liquidatedSlot) := alive
  have factor' : (record.reduced debt collateral branch).debtFactor = 0 := by
    simp [TickRecord.reduced, factor]
  rw [shareOf_entry (factor.trans entered.symm) alive,
    shareOf_entry (factor'.trans entered.symm) alive']

/-- A partial liquidation spares a position just when it entered at a factor of zero and its part
of what is taken is a unit or more. -/
theorem debt_reduced_le_iff
    (alive : ¬ (0 < position.tickSlot ∧ position.tickSlot ≤ record.liquidatedSlot))
    (owed : 0 ≤ position.debt) (factor : 0 ≤ record.debtFactor)
    (falls : record.debtFactor ≤ position.debtFactor) (positive : 0 < debt)
    (partly : debt < record.rawDebt) :
    (position.shareOf (record.reduced debt collateral branch)).debt ≤
        ⌈(((position.shareOf record).debt * (record.rawDebt - debt) : Int) : ℚ) /
          (record.rawDebt : ℚ)⌉ ↔
      position.debtFactor ≠ 0 ∨ (position.shareOf record).debt * debt < record.rawDebt := by
  by_cases exhausted : position.debtFactor = 0
  · have spent : record.debtFactor = 0 := by omega
    rw [shareOf_reduced_exhausted alive exhausted spent,
      le_ceil_part_iff (Int.lt_trans positive partly)]
    simp [exhausted]
  · have entered : 0 < position.debtFactor := by omega
    exact iff_of_true (debt_reduced_le alive owed entered positive partly) (.inl exhausted)

end Position

namespace Vault

theorem share_of_occupies {vault : Vault Int} {position : Position Int} {tick : Int}
    {record : TickRecord Int} (recorded : vault.ledger.ticks.get? tick = some record)
    (here : position.tick = some tick) :
    position.share vault.ledger = position.shareOf record := by
  simp only [Position.share, here, Ledger.tickAt_of_get? recorded]

end Vault

namespace Engine

variable {start : Engine Int}

theorem liquidate_debt_le_iff (new : start.New) (calls : List Call) (request : LiquidateRequest)
    (budget : Budget) {tick id : Int} {record record' : TickRecord Int} {position : Position Int}
    (recorded : (start.run calls).vault.ledger.ticks.get? tick = some record)
    (recorded' : ((start.run calls).perform (.liquidate request budget)).engine.vault.ledger.ticks.get?
      tick = some record')
    (remains : 0 < record'.rawDebt) (less : record'.rawDebt < record.rawDebt)
    (known : (start.run calls).vault.positions.get? id = some position)
    (occupies : position.Occupies (start.run calls).vault.ledger tick) :
    ∃ held held' : Holdings Int,
      (start.run calls).vault.holdings position = .ok held ∧
      ((start.run calls).perform (.liquidate request budget)).engine.vault.positions.get? id =
        some position ∧
      ((start.run calls).perform (.liquidate request budget)).engine.vault.holdings position =
        .ok held' ∧
      (held'.debt ≤ ⌈((held.debt * record'.rawDebt : Int) : ℚ) / (record.rawDebt : ℚ)⌉ ↔
        position.debtFactor ≠ 0 ∨
          held.debt * (record.rawDebt - record'.rawDebt) < record.rawDebt) := by
  have orderly := new.run_orderly calls
  have after := (orderly.perform (.liquidate request budget)).vault.peopled
  have peopled := orderly.vault.peopled
  rcases orderly.liquidate request budget with same | ⟨takes, -⟩
  · rw [same, recorded] at recorded'
    cases recorded'
    exact absurd less (Int.lt_irrefl _)
  have known' : ((start.run calls).perform (.liquidate request budget)).engine.vault.positions.get?
      id = some position := by
    rw [takes.positions]
    exact known
  refine ⟨_, _, Vault.holdings_eq (peopled.settled known), known',
    Vault.holdings_eq (after.settled known'), ?_⟩
  have change := takes.records tick
  rw [Ledger.tickAt_of_get? recorded, Ledger.tickAt_of_get? recorded'] at change
  obtain ⟨debt, collateral, branch, positive, -, rfl⟩ := change.partly remains less
  have seated := peopled.seated id position known
  have stored := Ledger.tickAt_of_get? recorded
  have alive := occupies.2
  rw [stored] at alive
  rw [Vault.share_of_occupies recorded occupies.1, Vault.share_of_occupies recorded' occupies.1]
  have owed : 0 ≤ position.debt := by
    have least := seated.debt (Option.isSome_iff_exists.mpr ⟨_, occupies.1⟩)
    simp only [minDebt] at least
    omega
  have taken : record.rawDebt - (record.reduced debt collateral branch).rawDebt = debt := by
    rw [TickRecord.reduced_rawDebt]
    omega
  rw [taken]
  rw [TickRecord.reduced_rawDebt] at remains ⊢
  apply Position.debt_reduced_le_iff alive owed _ _ positive
  · omega
  · rw [← stored]
    exact peopled.factor tick
  · rw [← stored]
    exact seated.factor tick occupies

def firstBorrower : Position Int :=
  ⟨1, .text "a", 2000000000000000000, 1000666633494986967, 666633494986967, some (-462), 1, 1,
    factorScale⟩

theorem first_borrower_debt_le :
    ∃ held held' : Holdings Int,
      (standard.run (exhaustion.take 2)).vault.holdings firstBorrower = .ok held ∧
      ((standard.run (exhaustion.take 2)).perform
        (.liquidate { debt := 1000666633494986867 } .unlimited)).engine.vault.holdings
          firstBorrower = .ok held' ∧
      held'.debt ≤ ⌈((held.debt * 100 : Int) : ℚ) / ((1000666633494986967 : Int) : ℚ)⌉ := by
  obtain ⟨held, held', before, -, after, bound⟩ := @liquidate_debt_le_iff standard standard_new
    (exhaustion.take 2) { debt := 1000666633494986867 } .unlimited (-462) 1
    ⟨-462, 1000666633494986967, 2000000000000000000, 1, 1, factorScale, 0, 1, 0, 0, 0⟩
    ⟨-462, 100, 752876, 1, 1, 99933381060, 0, 1, 1, 100, 752876⟩ firstBorrower
    (by decide +kernel) (by decide +kernel) (by decide) (by decide) (by decide +kernel)
    (by decide +kernel)
  exact ⟨held, held', before, after, bound.mpr (.inl (by decide))⟩

/-- The third borrower entered at a factor of zero, and keeps all its debt when half of the debt of
its tick is liquidated. -/
theorem third_borrower_escapes :
    ¬ ∀ (start : Engine Int) (calls : List Call) (request : LiquidateRequest) (budget : Budget)
        (tick id : Int) (record record' : TickRecord Int) (position : Position Int)
        (held held' : Holdings Int), start.New → request.absorb = false →
      ((start.run calls).perform (.liquidate request budget)).reply.isOk = true →
      (start.run calls).vault.ledger.ticks.get? tick = some record →
      ((start.run calls).perform (.liquidate request budget)).engine.vault.ledger.ticks.get? tick =
        some record' →
      0 < record'.rawDebt → record'.rawDebt < record.rawDebt →
      (start.run calls).vault.positions.get? id = some position →
      position.Occupies (start.run calls).vault.ledger tick →
      (start.run calls).vault.holdings position = .ok held →
      ((start.run calls).perform (.liquidate request budget)).engine.vault.holdings position =
        .ok held' →
      held'.debt ≤ ⌈((held.debt * record'.rawDebt : Int) : ℚ) / (record.rawDebt : ℚ)⌉ := by
  intro bounded
  have bound := bounded standard exhaustion { debt := 500000000000000000 } .unlimited (-462) 3
    ⟨-462, 1000666633494987067, 2000000000001505552, 3, 1, 0, 0, 3, 1, 100, 1505552⟩
    ⟨-462, 500666633494987067, 1000666189392706678, 3, 1, 0, 0, 3, 1, 500666633494987067,
      1000666189392706678⟩
    ⟨3, .text "c", 2000000000000000000, 1000666633494986967, 666633494986967, some (-462), 3, 1, 0⟩
    ⟨2000000000000000000, 1000666633494986967, 666633494986967⟩
    ⟨2000000000000000000, 1000666633494986967, 666633494986967⟩
    standard_new rfl (by decide +kernel) (by decide +kernel) (by decide +kernel) (by decide)
    (by decide) (by decide +kernel) (by decide +kernel) (by decide +kernel) (by decide +kernel)
  rw [Int.le_ceil_iff] at bound
  norm_num at bound

end Engine

end TickVault
