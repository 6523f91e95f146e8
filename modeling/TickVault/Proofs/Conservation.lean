import TickVault.Proofs.Priority

namespace TickVault

namespace Vault

def SoldOut (vault : Vault Int) : Prop :=
  vault.state.absorbedDebt = 0 → vault.state.absorbedCollateral = 0

/-- Debt and collateral have left a vault, off its ticks or out of its pool; everything that is not
a tick, a branch, a total or the pool is as before. -/
structure Conserves (before : Vault Int) (debt collateral : Int) (after : Vault Int) : Prop where
  debt : before.state.totalBorrow + before.state.absorbedDebt =
    after.state.totalBorrow + after.state.absorbedDebt + debt
  collateral : before.state.totalSupply + before.state.absorbedCollateral =
    after.state.totalSupply + after.state.absorbedCollateral + collateral
  ticksDebt : before.ledger.debt - after.ledger.debt =
    before.state.totalBorrow - after.state.totalBorrow
  ticksCollateral : before.ledger.collateral - after.ledger.collateral =
    before.state.totalSupply - after.state.totalSupply
  positions : after.positions = before.positions
  nextPosition : after.state.nextPosition = before.state.nextPosition
  dust : after.state.absorbedDust = before.state.absorbedDust
  pooled : after.Pooled
  soldOut : after.SoldOut

variable {vault middle after : Vault Int} {limit requested debt collateral : Int}
  {budget left : Budget} {taken : Liquidation Int} {host : Host}
  {change : TickRecord Int → TickRecord Int → Prop}

theorem SoldOut.congr (soldOut : vault.SoldOut)
    (debt : after.state.absorbedDebt = vault.state.absorbedDebt)
    (collateral : after.state.absorbedCollateral = vault.state.absorbedCollateral) :
    after.SoldOut := by
  intro empty
  rw [collateral]
  exact soldOut (debt.symm.trans empty)

theorem SoldOut.spared (soldOut : vault.SoldOut) (spared : vault.Spared after) : after.SoldOut :=
  soldOut.congr spared.debt spared.collateral

/-- Whoever buys the last debt of the pool is paid all its collateral. -/
theorem SoldOut.sell {state : VaultState Int} (soldOut : vault.SoldOut) (pooled : vault.Pooled)
    (nonneg : 0 ≤ requested)
    (sold : vault.state.sellAbsorbed requested = .ok (debt, collateral, state)) :
    SoldOut { vault with state } := by
  simp only [VaultState.sellAbsorbed, toInt_int, ok_bind] at sold
  split at sold
  · cases sold
    exact soldOut
  · rename_i something
    have held := pooled.debt
    have positive : 0 < vault.state.absorbedDebt := by omega
    simp only [floorDiv_of_pos positive, ok_bind, pure_eq_ok, Except.ok.injEq,
      Prod.mk.injEq] at sold
    obtain ⟨rfl, rfl, rfl⟩ := sold
    intro empty
    have whole : min requested vault.state.absorbedDebt = vault.state.absorbedDebt :=
      (Int.eq_of_sub_eq_zero empty).symm
    change vault.state.absorbedCollateral - _ = 0
    rw [whole, Int.mul_ediv_cancel _ (Int.ne_of_gt positive), Int.sub_self]

theorem fillAbove_soldOut (orderly : vault.Orderly) (governed : vault.Governed)
    (soldOut : vault.SoldOut)
    (done : attempt budget (vault.fillAbove limit requested) = .ok (taken, left)) :
    taken.vault.SoldOut := by
  obtain ⟨ticks, pass, booked, -, filled, books, rfl⟩ := fillAbove_iff.mp done
  have walked := governed.walked orderly filled
  obtain ⟨-, -, rfl⟩ := (book_iff walked.debt walked.collateral).mp books
  obtain ⟨_, _, _, state⟩ := walked.gains.state
  exact soldOut.congr (by simp only [state]) (by simp only [state])

theorem sweep_soldOut {swept : Pass Int} {booked : Vault Int} (orderly : vault.Orderly)
    (governed : vault.Governed) (pooled : vault.Pooled) (soldOut : vault.SoldOut)
    (done : attempt budget (vault.sweep limit) = .ok (swept, left))
    (books : swept.book = .ok booked) : booked.SoldOut := by
  obtain ⟨ticks, pass, -, filled, rfl⟩ :=
    sweep_fills orderly.toCoherent governed (Int.le_refl _) done
  have walked := governed.walked orderly filled
  obtain ⟨-, -, rfl⟩ := (book_iff (by exact walked.debt) (by exact walked.collateral)).mp books
  obtain ⟨_, _, _, state⟩ := walked.gains.state
  have held := pooled.debt
  have found := walked.debt
  intro empty
  simp only [Pass.pooled, state] at empty ⊢
  have nothing : pass.debt = 0 := by omega
  have idle := (walked.gains.idle nothing).collateral
  rw [soldOut (by omega)]
  dsimp only at idle
  omega

theorem absorbAbove_soldOut (orderly : vault.Orderly) (governed : vault.Governed)
    (pooled : vault.Pooled) (soldOut : vault.SoldOut) (nonneg : 0 ≤ requested)
    (done : attempt budget (vault.absorbAbove limit requested) = .ok (taken, left)) :
    taken.vault.SoldOut := by
  obtain ⟨pass, booked, _, _, state, swept, books, sold, rfl⟩ := absorbAbove_iff.mp done
  have pays := sweep_pays orderly governed pooled swept books
  exact (sweep_soldOut orderly governed pooled soldOut swept books).sell pays.pooled nonneg sold

theorem SoldOut.settle {start : Option Int} (soldOut : middle.SoldOut)
    (settled : middle.settleTopmost start = .ok after) (events : List (Event Int)) :
    SoldOut { after with events } := by
  obtain ⟨topmost, rfl⟩ := settleTopmost_eq settled
  exact soldOut.congr rfl rfl

theorem liquidate_soldOut {request : LiquidateRequest}
    {settlement : Settlement Int (LiquidationReceipt Int)} (orderly : vault.Orderly)
    (governed : vault.Governed) (pooled : vault.Pooled) (soldOut : vault.SoldOut)
    (done : attempt budget (vault.liquidate host request) = .ok (settlement, left)) :
    settlement.vault.SoldOut := by
  obtain ⟨taken, liquidates⟩ := liquidate_ok done
  obtain ⟨limit, -, took⟩ := liquidates.took
  obtain ⟨settled, events, settles, after⟩ := liquidates.settled
  have nonneg : 0 ≤ request.debt := by
    have asked := liquidates.asked
    omega
  rw [after]
  unfold take at took
  split at took
  · exact (absorbAbove_soldOut orderly governed pooled soldOut nonneg took).settle settles events
  · exact (fillAbove_soldOut orderly governed soldOut took).settle settles events

theorem absorb_soldOut {settlement : Settlement Int (Int × Int)} (orderly : vault.Orderly)
    (governed : vault.Governed) (pooled : vault.Pooled) (soldOut : vault.SoldOut)
    (done : attempt budget (vault.absorb host) = .ok (settlement, left)) :
    settlement.vault.SoldOut := by
  obtain ⟨pass, absorbs⟩ := absorb_ok done
  obtain ⟨limit, -, swept⟩ := absorbs.swept
  obtain ⟨booked, settled, events, books, settles, after⟩ := absorbs.settled
  rw [after]
  exact (sweep_soldOut orderly governed pooled soldOut swept books).settle settles events

theorem Pays.conserves (pays : vault.Pays debt collateral after)
    (takes : vault.Takes change after) (soldOut : after.SoldOut) :
    vault.Conserves debt collateral after where
  debt := pays.debt.symm
  collateral := pays.collateral.symm
  ticksDebt := by
    have borrow := takes.borrow
    omega
  ticksCollateral := by
    have supply := takes.supply
    omega
  positions := pays.positions
  nextPosition := pays.nextPosition
  dust := pays.dust
  pooled := pays.pooled
  soldOut := soldOut

end Vault

namespace Engine

variable {engine start : Engine Int} {call : Call} {after : Vault Int} {actions : List Action}

theorem Works.soldOut (standing : engine.Standing) (works : engine.Works call after actions)
    (soldOut : engine.vault.SoldOut) : after.SoldOut := by
  have orderly := standing.vault
  cases works with
  | idle => exact soldOut
  | opened created => exact soldOut.spared (Vault.createPosition_opens created).spared
  | operated done =>
    obtain ⟨position, located, outcome, operates⟩ := Vault.operate_ok orderly done
    obtain ⟨located_orderly, known⟩ := orderly.locates operates.locates
    obtain ⟨_, _, _, _, _, books⟩ := operates.rebalances.books located_orderly.toCoherent
      located_orderly.peopled standing.supply known
    obtain ⟨events, same⟩ := operates.vault
    rw [same]
    exact (soldOut.spared (operates.locates.spared.trans books.spared)).congr rfl rfl
  | liquidated done =>
    exact Vault.liquidate_soldOut orderly standing.governed standing.pooled soldOut done
  | absorbed done =>
    exact Vault.absorb_soldOut orderly standing.governed standing.pooled soldOut done

/-- A run never leaves collateral in a pool without debt. -/
theorem New.run_soldOut (new : start.New) (calls : List Call) :
    (start.run calls).vault.SoldOut := by
  apply new.standing.run_keeps fun engine => engine.vault.SoldOut
  · intro engine call standing soldOut
    obtain ⟨actions, works, -⟩ := perform_works engine call
    exact works.soldOut standing soldOut
  · obtain ⟨id, config, validated, host, -, rfl⟩ := new.created
    exact fun _ => rfl

/-- In every state of a run a liquidation, in either mode, conserves debt and collateral: the totals
and the pool together lose what the receipt says, and the ticks lose what the totals do. Nothing is
lost by an absorption. -/
theorem run_conserves (new : start.New) (calls : List Call) (budget : Budget) :
    (∀ (request : LiquidateRequest) (receipt : LiquidationReceipt Int),
      ((start.run calls).perform (.liquidate request budget)).reply = .ok (.liquidated receipt) →
      (start.run calls).vault.Conserves receipt.debtRaw receipt.collateralRaw
        ((start.run calls).perform (.liquidate request budget)).engine.vault) ∧
    ∀ debt collateral, ((start.run calls).perform (.absorb budget)).reply =
        .ok (.absorbed debt collateral) →
      (start.run calls).vault.Conserves 0 0
        ((start.run calls).perform (.absorb budget)).engine.vault := by
  have standing := new.standing.run calls
  have orderly := standing.vault
  have soldOut := new.run_soldOut calls
  constructor
  · intro request receipt answered
    obtain ⟨settlement, left, done, rfl, same, -⟩ := liquidate_answered answered
    rw [same]
    exact (Vault.liquidate_pays orderly standing.governed standing.pooled done).conserves
      (Vault.liquidate_takes orderly.toCoherent done).1
      (Vault.liquidate_soldOut orderly standing.governed standing.pooled soldOut done)
  · intro debt collateral answered
    obtain ⟨settlement, left, done, -, same, -⟩ := absorb_answered answered
    rw [same]
    exact (Vault.absorb_pays orderly standing.governed standing.pooled done).conserves
      (Vault.absorb_takes orderly.toCoherent done).1
      (Vault.absorb_soldOut orderly standing.governed standing.pooled soldOut done)

def buyout : LiquidateRequest := { debt := 400000000000000000, absorb := true }

theorem crisis_conserves :
    standard.New ∧
      (standard.run crisis).vault.Conserves 1500000000000000000 3108403576457511458
        ((standard.run crisis).perform (.liquidate raid .unlimited)).engine.vault ∧
      (standard.run crisis).vault.Conserves 400000000000000000 841369188088698374
        ((standard.run crisis).perform (.liquidate buyout .unlimited)).engine.vault ∧
      (standard.run crisis).vault.Conserves 0 0
        ((standard.run crisis).perform (.absorb .unlimited)).engine.vault := by
  obtain ⟨liquidates, absorbs⟩ := run_conserves standard_new crisis .unlimited
  have filled : ((standard.run crisis).perform (.liquidate raid .unlimited)).reply =
      .ok (.liquidated {
        collateralRaw := 3108403576457511458, debtRaw := 1500000000000000000
        collateralAmount := 3108403576457511458, debtAmount := 1500000000000000000
        absorbedCollateral := 0, absorbedDebt := 0, startTick := some (-462)
        endTick := some (-532), liquidationTick := -604, completed := true }) := by
    decide +kernel
  have sold : ((standard.run crisis).perform (.liquidate buyout .unlimited)).reply =
      .ok (.liquidated {
        collateralRaw := 841369188088698374, debtRaw := 400000000000000000
        collateralAmount := 841369188088698374, debtAmount := 400000000000000000
        absorbedCollateral := 4000000000000000000, absorbedDebt := 1901662222305347426
        startTick := some (-462), endTick := none, liquidationTick := -604
        completed := true }) := by
    decide +kernel
  have absorbed : ((standard.run crisis).perform (.absorb .unlimited)).reply =
      .ok (.absorbed 1901662222305347426 4000000000000000000) := by decide +kernel
  exact ⟨standard_new, liquidates raid _ filled, liquidates buyout _ sold, absorbs _ _ absorbed⟩

end Engine

end TickVault
