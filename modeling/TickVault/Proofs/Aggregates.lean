import TickVault.Proofs.Lifecycle

namespace TickVault

namespace Vault

variable {vault : Vault Int}

/-- The branches have every liquidation on record, and can take up any further one. -/
structure Audited (vault : Vault Int) : Prop where
  liquidated : ∀ id branch side, vault.ledger.branches.get? id = some branch →
    0 ≤ (branch.flow side).liquidated ∧
      (branch.flow side).liquidated ≤ (branch.flow side).entered
  left : ∀ id branch side, vault.ledger.branches.get? id = some branch →
    vault.ledger.leftUnder id side ≤ (branch.flow side).entered - (branch.flow side).liquidated
  share : ∀ id branch side, vault.ledger.branches.get? id = some branch →
    branch.share side =
      if 0 < (branch.flow side).entered then
        (factorScale * ((branch.flow side).entered - (branch.flow side).liquidated)).fdiv
          (branch.flow side).entered
      else factorScale
  recordable : ∀ tick debt collateral, 0 < (vault.ledger.tickAt tick).rawDebt →
    debt ≤ (vault.ledger.tickAt tick).rawDebt →
    collateral ≤ (vault.ledger.tickAt tick).rawCollateral →
    ∃ after, attempt vault.ledger (Ledger.recordLiquidation (vault.ledger.tickAt tick).branch
      (vault.ledger.liquidation tick debt collateral)) = .ok ((), after)

theorem leftUnder_nonneg (sound : vault.Sound) (governed : vault.Governed) (id : Int)
    (side : Side) : 0 ≤ vault.ledger.leftUnder id side := by
  have bound := governed.accounted.leftUnder_le sound.ledger 0 id side
  exact Int.le_trans bound.1 bound.2

theorem Governed.audited (sound : vault.Sound) (governed : vault.Governed) : vault.Audited where
  liquidated id branch side known := by
    have settles := governed.accounted.flows id branch side known
    have covered := settles.covered
    have nonneg := leftUnder_nonneg sound governed id side
    exact ⟨settles.nonneg, by omega⟩
  left id branch side known := by
    have covered := (governed.accounted.flows id branch side known).covered
    omega
  share id branch side known := by
    have settles := governed.accounted.flows id branch side known
    have covered := settles.covered
    have liquidated := settles.nonneg
    have nonneg := leftUnder_nonneg sound governed id side
    rw [settles.share, Flow.share]
    by_cases entered : 0 < (branch.flow side).entered
    · rw [if_pos entered, if_neg (Int.ne_of_gt entered)]
    · rw [if_neg entered, if_pos (by omega)]
  recordable tick debt collateral occupied debt_covered collateral_covered := by
    obtain ⟨branch, known, -⟩ := governed.owned.owner_known occupied
    have amount (side : Side) : (vault.ledger.liquidation tick debt collateral).amount side ≤
        (vault.ledger.tickAt tick).held side := by
      cases side with
      | debt => exact debt_covered
      | collateral => exact collateral_covered
    obtain ⟨minTick, maxTick, recorded⟩ := Ledger.attempt_recordLiquidation known
      (governed.accounted.liquidation_covered sound.ledger known amount)
    exact ⟨_, recorded⟩

end Vault

namespace Engine

variable {start : Engine Int}

theorem New.branches_sum (new : start.New) :
    start.vault.ledger.branches.sum Branch.debtLiquidated = 0 := by
  obtain ⟨id, config, validated, host, -, rfl⟩ := new.created
  rfl

theorem Governed.records {engine : Engine Int} {call : Call} {fault : Fault}
    (governed : engine.Governed) (refused : (engine.perform call).reply = .error fault)
    (id : Document) : fault ≠ .branchDebtExceeded id ∧ fault ≠ .branchCollateralExceeded id := by
  by_cases accrues : ∃ prices, call = .accrue prices
  · obtain ⟨prices, rfl⟩ := accrues
    rw [accrue_refused refused]
    exact ⟨nofun, nofun⟩
  · have excuses := (governed.performs call fun prices same => accrues ⟨prices, same⟩).2
    rcases excuses fault refused with awaited | ⟨rfl, -⟩
    · constructor
      · rintro rfl
        obtain ⟨held, taken, same⟩ := awaited.underflow rfl
        cases same
      · rintro rfl
        obtain ⟨held, taken, same⟩ := awaited.underflow rfl
        cases same
    · exact ⟨nofun, nofun⟩

/-- In every run the aggregates of each branch are sound, those of all branches add up to what the
calls have taken off the ticks, and no call ever fails to record a liquidation. -/
theorem run_audited (new : start.New) (calls : List Call) :
    (start.run calls).vault.Audited ∧
      (start.run calls).vault.ledger.branches.sum Branch.debtLiquidated = start.taken calls ∧
      ∀ call fault, ((start.run calls).perform call).reply = .error fault → ∀ id,
        fault ≠ .branchDebtExceeded id ∧ fault ≠ .branchCollateralExceeded id := by
  obtain ⟨governed, upholds⟩ := new.governed.run calls
  refine ⟨governed.governed.audited governed.vault.toSound, ?_, ?_⟩
  · rw [upholds.advances.liquidated, new.branches_sum, Int.zero_add]
  · intro call fault refused id
    exact governed.records refused id

theorem exhaustion_audited :
    standard.New ∧ (standard.run exhaustion).vault.Audited ∧
      (standard.run exhaustion).vault.ledger.branches.sum Branch.debtLiquidated =
        standard.taken exhaustion ∧
      standard.taken exhaustion = 2001333266989973834 ∧
      (standard.run exhaustion).vault.ledger.leftUnder 1 .debt = 100 := by
  obtain ⟨audited, sum, -⟩ := run_audited standard_new exhaustion
  refine ⟨standard_new, audited, sum, ?_, ?_⟩
  · rw [← sum]
    decide +kernel
  · decide +kernel

end Engine

end TickVault
