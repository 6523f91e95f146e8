import TickVault.Proofs.Settlement

namespace TickVault

namespace Vault

variable {vault middle after : Vault Int} {limit requested debt collateral : Int}
  {budget left : Budget} {taken : Liquidation Int} {host : Host}

structure Pooled (vault : Vault Int) : Prop where
  debt : 0 ≤ vault.state.absorbedDebt
  collateral : 0 ≤ vault.state.absorbedCollateral

/-- Debt and collateral that have left a vault, off its ticks or out of its pool. -/
structure Pays (vault : Vault Int) (debt collateral : Int) (after : Vault Int) : Prop where
  paid : 0 ≤ debt
  received : 0 ≤ collateral
  debt : after.state.totalBorrow + after.state.absorbedDebt + debt =
    vault.state.totalBorrow + vault.state.absorbedDebt
  collateral : after.state.totalSupply + after.state.absorbedCollateral + collateral =
    vault.state.totalSupply + vault.state.absorbedCollateral
  dust : after.state.absorbedDust = vault.state.absorbedDust
  vaultId : after.state.vaultId = vault.state.vaultId
  nextPosition : after.state.nextPosition = vault.state.nextPosition
  config : after.config = vault.config
  positions : after.positions = vault.positions
  pooled : after.Pooled

theorem Pays.settle {start : Option Int} (pays : vault.Pays debt collateral middle)
    (settled : middle.settleTopmost start = .ok after) (events : List (Event Int)) :
    vault.Pays debt collateral { after with events } := by
  cases start with
  | none =>
    cases settled
    exact { pays with pooled := ⟨pays.pooled.debt, pays.pooled.collateral⟩ }
  | some tick =>
    cases settled
    exact { pays with pooled := ⟨pays.pooled.debt, pays.pooled.collateral⟩ }

theorem sellAbsorbed_bounds {state state' : VaultState Int} (nonneg : 0 ≤ requested)
    (pooled : 0 ≤ state.absorbedDebt) (backed : 0 ≤ state.absorbedCollateral)
    (sold : state.sellAbsorbed requested = .ok (debt, collateral, state')) :
    0 ≤ debt ∧ debt ≤ state.absorbedDebt ∧ 0 ≤ collateral ∧
      collateral ≤ state.absorbedCollateral ∧ state' = { state with
        absorbedDebt := state.absorbedDebt - debt
        absorbedCollateral := state.absorbedCollateral - collateral } := by
  simp only [VaultState.sellAbsorbed, toInt_int, ok_bind] at sold
  split at sold
  · cases sold
    exact ⟨Int.le_refl 0, pooled, Int.le_refl 0, backed, by simp⟩
  · rename_i something
    have positive : 0 < state.absorbedDebt := by omega
    simp only [floorDiv_of_pos positive, ok_bind, pure_eq_ok, Except.ok.injEq,
      Prod.mk.injEq] at sold
    obtain ⟨rfl, rfl, rfl⟩ := sold
    have some_debt : 0 ≤ min requested state.absorbedDebt := by omega
    have most : min requested state.absorbedDebt ≤ state.absorbedDebt := by omega
    refine ⟨some_debt, most, ?_, ?_, rfl⟩
    · exact Int.ediv_nonneg (Int.mul_nonneg backed some_debt) (Int.le_of_lt positive)
    · apply Int.ediv_le_of_le_mul positive
      exact Int.mul_le_mul_of_nonneg_left most backed

theorem fillAbove_pays (orderly : vault.Orderly) (governed : vault.Governed)
    (pooled : vault.Pooled)
    (done : attempt budget (vault.fillAbove limit requested) = .ok (taken, left)) :
    vault.Pays taken.debt taken.collateral taken.vault := by
  obtain ⟨ticks, pass, booked, -, filled, books, rfl⟩ := fillAbove_iff.mp done
  have gains := (Pass.proceeds_start orderly.toSound governed).fill_gains filled
  have nonneg : 0 ≤ pass.debt := gains.debt_le
  obtain ⟨-, -, rfl⟩ := (book_iff nonneg gains.collateral).mp books
  obtain ⟨_, _, _, state⟩ := gains.state
  have pool := pooled.debt
  have pool' := pooled.collateral
  refine ⟨nonneg, gains.collateral, ?_, ?_, ?_, ?_, ?_, gains.config, gains.positions, ⟨?_, ?_⟩⟩ <;>
    simp only [state] <;> omega

theorem sweep_pays {swept : Pass Int} {booked : Vault Int} (orderly : vault.Orderly)
    (governed : vault.Governed) (pooled : vault.Pooled)
    (done : attempt budget (vault.sweep limit) = .ok (swept, left))
    (books : swept.book = .ok booked) : vault.Pays 0 0 booked := by
  obtain ⟨ticks, pass, -, filled, rfl⟩ :=
    sweep_fills orderly.toCoherent governed (Int.le_refl _) done
  have gains := (Pass.proceeds_start orderly.toSound governed).fill_gains filled
  have nonneg : 0 ≤ pass.debt := gains.debt_le
  have backed : 0 ≤ pass.collateral := gains.collateral
  obtain ⟨-, -, rfl⟩ := (book_iff (by exact nonneg) (by exact backed)).mp books
  obtain ⟨_, _, _, state⟩ := gains.state
  have pool := pooled.debt
  have pool' := pooled.collateral
  refine ⟨Int.le_refl 0, Int.le_refl 0, ?_, ?_, ?_, ?_, ?_, gains.config, gains.positions,
    ⟨?_, ?_⟩⟩ <;> simp only [Pass.pooled, state] <;> omega

theorem absorbAbove_pays (orderly : vault.Orderly) (governed : vault.Governed)
    (pooled : vault.Pooled) (nonneg : 0 ≤ requested)
    (done : attempt budget (vault.absorbAbove limit requested) = .ok (taken, left)) :
    vault.Pays taken.debt taken.collateral taken.vault := by
  obtain ⟨pass, booked, debt, collateral, state, swept, books, sold, rfl⟩ :=
    absorbAbove_iff.mp done
  have pays := sweep_pays orderly governed pooled swept books
  obtain ⟨some_debt, most, received, backed, rfl⟩ :=
    sellAbsorbed_bounds nonneg pays.pooled.debt pays.pooled.collateral sold
  have before := pays.debt
  have before' := pays.collateral
  refine ⟨some_debt, received, ?_, ?_, pays.dust, pays.vaultId, pays.nextPosition, pays.config,
    pays.positions, ⟨?_, ?_⟩⟩ <;> dsimp only <;> omega

theorem liquidate_pays {request : LiquidateRequest}
    {settlement : Settlement Int (LiquidationReceipt Int)} (orderly : vault.Orderly)
    (governed : vault.Governed) (pooled : vault.Pooled)
    (done : attempt budget (vault.liquidate host request) = .ok (settlement, left)) :
    vault.Pays settlement.receipt.debtRaw settlement.receipt.collateralRaw settlement.vault := by
  obtain ⟨taken, liquidates⟩ := liquidate_ok done
  obtain ⟨limit, -, took⟩ := liquidates.took
  obtain ⟨settled, events, settles, after⟩ := liquidates.settled
  have nonneg : 0 ≤ request.debt := by
    have asked := liquidates.asked
    omega
  rw [liquidates.debt, liquidates.collateral, after]
  unfold take at took
  split at took
  · exact (absorbAbove_pays orderly governed pooled nonneg took).settle settles events
  · exact (fillAbove_pays orderly governed pooled took).settle settles events

theorem absorb_pays {settlement : Settlement Int (Int × Int)} (orderly : vault.Orderly)
    (governed : vault.Governed) (pooled : vault.Pooled)
    (done : attempt budget (vault.absorb host) = .ok (settlement, left)) :
    vault.Pays 0 0 settlement.vault := by
  obtain ⟨pass, absorbs⟩ := absorb_ok done
  obtain ⟨limit, -, swept⟩ := absorbs.swept
  obtain ⟨booked, settled, events, books, settles, after⟩ := absorbs.settled
  rw [after]
  exact (sweep_pays orderly governed pooled swept books).settle settles events

/-- The state of a vault as users find and leave it: the pool and the name of the vault stay. -/
structure Spared (vault after : Vault Int) : Prop where
  debt : after.state.absorbedDebt = vault.state.absorbedDebt
  collateral : after.state.absorbedCollateral = vault.state.absorbedCollateral
  vaultId : after.state.vaultId = vault.state.vaultId
  config : after.config = vault.config

theorem Opens.spared {position : Position Int} (opens : vault.Opens position after) :
    vault.Spared after := by
  obtain ⟨_, _, state⟩ := opens.counts
  obtain ⟨_, same, -⟩ := opens.after
  refine ⟨?_, ?_, ?_, by rw [same]; rfl⟩ <;> rw [state]

theorem Locates.spared {position : Position Int} (locates : vault.Locates position after) :
    vault.Spared after := by
  cases locates with
  | found _ => exact ⟨rfl, rfl, rfl, rfl⟩
  | opened opens => exact opens.spared

theorem Books.spared {prices : ExchangePrices} {position : Position Int}
    {request : OperateRequest} {departure : Departure Int} {departed : Vault Int}
    {amount netDebt debt : Int} {outcome : Rebalance Int}
    (books : vault.Books prices position request departure departed amount netDebt debt outcome) :
    vault.Spared outcome.vault := by
  obtain ⟨_, _, _, _, state⟩ := books.state
  refine ⟨?_, ?_, ?_, books.config⟩ <;> rw [state]

theorem Spared.trans (first : vault.Spared middle) (second : middle.Spared after) :
    vault.Spared after :=
  ⟨second.debt.trans first.debt, second.collateral.trans first.collateral,
    second.vaultId.trans first.vaultId, second.config.trans first.config⟩

theorem Pooled.spared (pooled : vault.Pooled) (spared : vault.Spared after) : after.Pooled :=
  ⟨spared.debt ▸ pooled.debt, spared.collateral ▸ pooled.collateral⟩

theorem liquidate_sweeps {request : LiquidateRequest}
    {settlement : Settlement Int (LiquidationReceipt Int)} (orderly : vault.Orderly)
    (mode : request.absorb = true)
    (done : attempt budget (vault.liquidate host request) = .ok (settlement, left)) :
    vault.Takes TickRecord.Cleared settlement.vault := by
  obtain ⟨taken, liquidates⟩ := liquidate_ok done
  obtain ⟨limit, -, took⟩ := liquidates.took
  obtain ⟨settled, events, settles, after⟩ := liquidates.settled
  rw [take, if_pos mode] at took
  obtain ⟨takes, topmost⟩ := absorbAbove_takes orderly.toCoherent took
  rw [after]
  exact (takes.settle orderly.toCoherent (fun _ _ => TickRecord.Cleared.rawDebt_le) topmost
    settles).1.withEvents events

end Vault

end TickVault
