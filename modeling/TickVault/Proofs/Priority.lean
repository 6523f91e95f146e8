import TickVault.Proofs.Resumption
import TickVault.Proofs.Safety
import TickVault.Proofs.Walk.Drain

namespace TickVault

namespace Vault

variable {vault after settled : Vault Int}

theorem Takes.topmost_le (coherent : vault.Coherent) (coherent' : after.Coherent)
    (takes : vault.Takes TickRecord.Liquidated after) :
    writeTick after.state.topmost ≤ writeTick vault.state.topmost := by
  rw [coherent.topmost, coherent'.topmost]
  cases last : after.ledger.bitmap.highest? with
  | none =>
    change coldTick ≤ _
    cases first : vault.ledger.bitmap.highest? with
    | none => exact Int.le_refl _
    | some top =>
      have low : coldTick ≤ minTick := by decide
      exact Int.le_trans low (TickBitmap.holds_highest first).range.1
  | some tick =>
    have occupied := (coherent'.ledger.bits tick).mp (TickBitmap.holds_highest last)
    have less := (takes.records tick).rawDebt_le (coherent.ledger.debt tick)
    have held := (coherent.ledger.bits tick).mpr (Int.lt_of_lt_of_le occupied less)
    cases first : vault.ledger.bitmap.highest? with
    | none => exact absurd held (TickBitmap.highest?_eq_none_iff.mp first tick)
    | some top => exact TickBitmap.le_highest first held

theorem Liquidates.drains {host : Host} {request : LiquidateRequest} {budget left : Budget}
    {taken : Liquidation Int} {settlement : Settlement Int (LiquidationReceipt Int)}
    (coherent : vault.Coherent) (governed : vault.Governed) (mode : request.absorb = false)
    (liquidates : vault.Liquidates host request budget left taken settlement) :
    ∃ ticks emptied rest part pass, vault.Riskiest settlement.receipt.liquidationTick ticks ∧
      Pass.Drains { vault } ticks request.debt budget emptied rest part pass ∧
      settlement.vault.ledger = pass.vault.ledger ∧ settlement.receipt.debtRaw = pass.debt ∧
      settlement.receipt.collateralRaw = pass.collateral ∧
      settlement.receipt.completed = pass.completed := by
  obtain ⟨limit, limited, took⟩ := liquidates.took
  cases liquidates.limited.symm.trans limited
  have nonneg : 0 ≤ request.debt := by
    have asked := liquidates.asked
    omega
  simp only [Vault.take, mode, Bool.false_eq_true, if_false] at took
  obtain ⟨ticks, emptied, rest, part, pass, riskiest, drains, ledger, debt, collateral, ended⟩ :=
    fillAbove_drains coherent governed nonneg took
  exact ⟨ticks, emptied, rest, part, pass, riskiest, drains, liquidates.ledger.trans ledger,
    liquidates.debt.trans debt, liquidates.collateral.trans collateral,
    liquidates.completed.trans ended⟩

end Vault

namespace Engine

variable {engine start : Engine Int} {request : LiquidateRequest} {budget : Budget}
  {receipt : LiquidationReceipt Int}

theorem liquidate_answered
    (answered : (engine.perform (.liquidate request budget)).reply = .ok (.liquidated receipt)) :
    ∃ settlement left, attempt budget (engine.vault.liquidate engine.host request) =
        .ok (settlement, left) ∧ settlement.receipt = receipt ∧
      (engine.perform (.liquidate request budget)).engine.vault = settlement.vault ∧
      engine.host.Carried settlement.actions
        (engine.perform (.liquidate request budget)).engine.host := by
  obtain ⟨settlement, done, told, same, carried⟩ := conclude_answered answered
  cases told
  exact ⟨settlement, _, attempt_eq_ok_iff.mpr (Prod.ext done rfl), rfl, same, carried⟩

theorem absorb_answered {debt collateral : Int}
    (answered : (engine.perform (.absorb budget)).reply = .ok (.absorbed debt collateral)) :
    ∃ settlement left, attempt budget (engine.vault.absorb engine.host) = .ok (settlement, left) ∧
      settlement.receipt = (debt, collateral) ∧
      (engine.perform (.absorb budget)).engine.vault = settlement.vault ∧
      engine.host.Carried settlement.actions (engine.perform (.absorb budget)).engine.host := by
  obtain ⟨settlement, done, told, same, carried⟩ := conclude_answered answered
  cases told
  exact ⟨settlement, _, attempt_eq_ok_iff.mpr (Prod.ext done rfl), rfl, same, carried⟩

/-- In every state of a run a liquidation that fills drains the riskiest ticks above its limit: of
all with debt there it wipes the first ones and may reduce the next, and it leaves all other ticks
alone. It takes what it is asked for up to less than a tick's least debt, or all there is, unless its
budget ends it before; a budget also bounds the ticks that change. -/
theorem run_greedy (new : start.New) (calls : List Call) (mode : request.absorb = false)
    (answered : ((start.run calls).perform (.liquidate request budget)).reply =
      .ok (.liquidated receipt)) :
    let before := (start.run calls).vault
    let after := ((start.run calls).perform (.liquidate request budget)).engine.vault
    (start.run calls).host.limit before.config.liquidationThreshold =
        .ok receipt.liquidationTick ∧
      (∃ emptied rest part, before.Riskiest receipt.liquidationTick (emptied ++ rest) ∧
        before.ledger.Drained emptied rest part after.ledger ∧
        receipt.debtRaw = before.ledger.across TickRecord.rawDebt emptied + part ∧
        receipt.collateralRaw = before.ledger.across TickRecord.rawCollateral emptied +
          before.ledger.headBacking rest part ∧
        receipt.debtRaw ≤ request.debt ∧
        (receipt.completed = true ∨ budget = .unlimited →
          rest = [] ∨ request.debt - receipt.debtRaw < minTickDebt) ∧
        ∀ limit used, budget = .fixed limit used →
          emptied.length + (if part = 0 then 0 else 1) ≤ max (limit - used) 0) ∧
      (∀ id position, before.positions.get? id = some position →
        (∀ t, position.tick = some t → t ≤ receipt.liquidationTick) →
        after.positions.get? id = some position ∧
          ∃ held, before.holdings position = .ok held ∧ after.holdings position = .ok held) ∧
      receipt.startTick = before.state.topmost ∧ receipt.endTick = after.state.topmost ∧
      writeTick receipt.endTick ≤ writeTick receipt.startTick := by
  intro before after
  have standing := new.standing.run calls
  have orderly : before.Orderly := standing.vault
  have orderly' : after.Orderly := (standing.perform (.liquidate request budget)).vault
  obtain ⟨settlement, left, done, rfl, same, -⟩ := liquidate_answered answered
  obtain ⟨taken, liquidates⟩ := Vault.liquidate_ok done
  have takes : before.Takes TickRecord.Liquidated after := by
    rw [show after = settlement.vault from same]
    exact (Vault.liquidate_takes orderly.toCoherent done).1
  have limited := liquidates.limited
  refine ⟨limited, ?_, ?_, liquidates.startTick, ?_, ?_⟩
  · obtain ⟨ticks, emptied, rest, part, pass, riskiest, drains, ledger, debt, collateral, ended⟩ :=
      liquidates.drains orderly.toCoherent standing.governed mode
    have last : after.ledger = pass.vault.ledger := (congrArg Vault.ledger same).trans ledger
    rw [debt, collateral, ended]
    refine ⟨emptied, rest, part, drains.split ▸ riskiest, last ▸ drains.ledger, ?_, ?_, ?_, ?_,
      drains.steps⟩
    · simpa using drains.debt
    · simpa using drains.collateral
    · simpa using drains.within
    · intro finished
      rcases drains.ends with all | little | ⟨cut, bounded⟩
      · exact .inl all
      · right
        simpa using little
      · rcases finished with whole | free
        · cases whole.symm.trans cut
        · exact absurd free bounded
  · intro id position known below
    obtain ⟨limit, limited', stays⟩ :=
      Vault.liquidate_staysAbove orderly.toCoherent standing.governed done
    cases limited.symm.trans limited'
    rw [← same] at stays
    exact stays.holdings orderly.peopled orderly'.peopled takes.positions known below
  · rw [liquidates.endTick, ← same]
  · rw [liquidates.endTick, liquidates.startTick, ← same]
    exact takes.topmost_le orderly.toCoherent orderly'.toCoherent

theorem crisis_greedy :
    let before := (standard.run crisis).vault
    let after := ((standard.run crisis).perform (.liquidate raid .unlimited)).engine.vault
    standard.New ∧
      (∃ emptied rest part, before.Riskiest (-604) (emptied ++ rest) ∧
        before.ledger.Drained emptied rest part after.ledger ∧
        before.ledger.across TickRecord.rawDebt emptied + part = 1500000000000000000) ∧
      (before.ledger.tickAt (-462)).rawDebt = 1000666633494986967 ∧
      (after.ledger.tickAt (-462)).rawDebt = 0 ∧
      (before.ledger.tickAt (-532)).rawDebt = 900995588810360459 ∧
      (after.ledger.tickAt (-532)).rawDebt = 401662222305347426 := by
  intro before after
  have answered : ((standard.run crisis).perform (.liquidate raid .unlimited)).reply =
      .ok (.liquidated {
        collateralRaw := 3108403576457511458, debtRaw := 1500000000000000000
        collateralAmount := 3108403576457511458, debtAmount := 1500000000000000000
        absorbedCollateral := 0, absorbedDebt := 0, startTick := some (-462)
        endTick := some (-532), liquidationTick := -604, completed := true }) := by
    decide +kernel
  obtain ⟨-, ⟨emptied, rest, part, riskiest, drained, debt, -⟩, -⟩ :=
    run_greedy standard_new crisis rfl answered
  exact ⟨standard_new, ⟨emptied, rest, part, riskiest, drained, debt.symm⟩, by decide +kernel,
    by decide +kernel, by decide +kernel, by decide +kernel⟩

end Engine

end TickVault
