import TickVault.Binary64
import TickVault.Engine

namespace TickVault

structure TickRow (ν : Type) where
  record : TickRecord ν
  ratio : Float
  fullyLiquidated : Bool

structure PositionRow (ν : Type) where
  position : Position ν
  /-- Held now, as are debt and dust. -/
  collateral : ν
  /-- Net of dust. -/
  debt : Int
  dustDebt : ν
  liquidated : Bool
  deriving DecidableEq

structure Summary (ν : Type) where
  vault : ν
  /-- In tokens, rounded down. -/
  totalSupply : Int
  /-- In tokens, rounded up. -/
  totalBorrow : Int
  totalPositions : ν
  topmost : Option ν
  collateralFactorTick : Int
  liquidationTick : Int
  absorbedDebt : ν
  absorbedCollateral : ν
  absorbedDust : ν
  currentBranch : ν
  loanToValue : Float

variable {ν : Type} [Numeric ν]

def TickRecord.row? (record : TickRecord ν) : Except Fault (Option (TickRow ν)) := do
  let shown ← if ← record.hasDebt then pure true else record.fullyLiquidated
  if !shown then return none
  let ratio ← Binary64.ofQuotient (← ratioAtTick (← toInt record.tick)) ratioScale
  return some { record, ratio, fullyLiquidated := ← record.fullyLiquidated }

namespace Vault

def tickRows (vault : Vault ν) : Except Fault (List (TickRow ν)) := do
  (← vault.ledger.records).filterMapM TickRecord.row?

variable [DecidableEq ν]

def positionRow (vault : Vault ν) (position : Position ν) : Except Fault (PositionRow ν) := do
  let record ← position.record? vault.ledger
  let holdings ← position.realize record
  let debt ← holdings.netDebt
  let liquidated ← match record with
    | some record => record.slotLiquidated position.tickSlot
    | none => pure false
  return {
    position, collateral := holdings.collateral, debt, dustDebt := holdings.dustDebt, liquidated }

def positionRows (vault : Vault ν) : Except Fault (List (PositionRow ν)) := do
  (← vault.positionList).mapM vault.positionRow

end Vault

def loanToValue (totalBorrow totalSupply rate : Int) : Except Fault Float := do
  if totalSupply = 0 then return 0
  let value ← Binary64.ofQuotient (totalSupply * rate) rateScale
  Binary64.divide (← Binary64.ofInt totalBorrow) value

def Engine.summary (engine : Engine ν) : Except Fault (Summary ν) := do
  let state := engine.vault.state
  let config := engine.vault.config
  let prices := engine.host.liquidity.prices
  let rate ← checkOracleRate engine.host.oracle
  let totalSupply ← readAmountDown state.totalSupply prices.supply
  let totalBorrow := toAmountUp (← toInt state.totalBorrow) prices.borrow
  return {
    vault := state.vaultId, totalSupply, totalBorrow, totalPositions := state.totalPositions
    topmost := state.topmost
    collateralFactorTick := ← thresholdTick rate prices (← toInt config.collateralFactor)
    liquidationTick := ← thresholdTick rate prices (← toInt config.liquidationThreshold)
    absorbedDebt := state.absorbedDebt, absorbedCollateral := state.absorbedCollateral
    absorbedDust := state.absorbedDust, currentBranch := state.currentBranch
    loanToValue := ← loanToValue totalBorrow totalSupply rate }

end TickVault
