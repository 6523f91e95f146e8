import TickVault.Operate
import TickVault.Walk

/-!
Liquidation. A liquidator pays debt rounded up and receives collateral rounded down, either from
the riskiest ticks or, in absorb mode, from the pool of absorbed debt, after every tick in range
was moved there. Ticks above the max limit may be absorbed by anybody.
-/

namespace TickVault

structure LiquidateRequest where
  /-- Raw debt to take. -/
  debt : Int
  /-- Least collateral tokens per debt token, over `rateScale`. -/
  minimum : Int := 0
  absorb : Bool := false
  signer : String := "liquidator"
  recipient : Option String := none

structure LiquidationReceipt (ν : Type) where
  collateralRaw : Int
  debtRaw : Int
  /-- Tokens to the liquidator. -/
  collateralAmount : Int
  /-- Tokens from the liquidator. -/
  debtAmount : Int
  /-- Moved into the absorbed pool by this call. -/
  absorbedCollateral : Int
  absorbedDebt : Int
  startTick : Option ν
  /-- The topmost tick after the call. -/
  endTick : Option ν
  liquidationTick : Int
  /-- The budget lasted. -/
  completed : Bool
  deriving DecidableEq

structure Liquidation (ν : Type) where
  vault : Vault ν
  debt : Int
  collateral : Int
  absorbedDebt : Int
  absorbedCollateral : Int
  completed : Bool

variable {ν : Type} [Numeric ν]

/-- Debt and collateral sold from the absorbed pool, at the pool's collateral per debt. -/
def VaultState.sellAbsorbed (state : VaultState ν) (requested : Int) :
    Except Fault (Int × Int × VaultState ν) := do
  let pooled ← toInt state.absorbedDebt
  let debt := min requested pooled
  if debt = 0 then return (0, 0, state)
  else
    let backing ← toInt state.absorbedCollateral
    let collateral ← floorDiv (backing * debt) pooled
    return (debt, collateral,
      { state with
        absorbedDebt := ofInt (pooled - debt)
        absorbedCollateral := ofInt (backing - collateral) })

namespace Vault

/-- Finds the topmost tick anew. Ticks only lose debt in a walk, so it is not above the start. -/
def settleTopmost (vault : Vault ν) (start : Option ν) : Except Fault (Vault ν) :=
  match start with
  | none => return vault
  | some tick => do
    let topmost := (vault.ledger.bitmap.below? ((← toInt tick) + 1)).map ofInt
    return { vault with state.topmost := topmost }

def liquidateActions (vault : Vault ν) (request : LiquidateRequest)
    (debtAmount collateralAmount : Int) : List Action :=
  let recipient := recipientOr request.signer request.recipient
  (if debtAmount > 0 then
    [.transfer ⟨request.signer, liquidityAddress, debtAmount, vault.config.borrowMint⟩,
     .settleBorrow (-debtAmount)]
  else []) ++
  (if collateralAmount > 0 then
    [.transfer ⟨vault.address, recipient, collateralAmount, vault.config.supplyMint⟩]
  else [])

def checkSlippage (debtAmount collateralAmount minimum : Int) : Except Fault Unit :=
  let paid := collateralAmount * rateScale / debtAmount
  ensure (debtAmount ≤ 0 ∨ minimum ≤ paid) (.slippage paid minimum)

variable [DecidableEq ν]

def sweep (vault : Vault ν) (limit : Int) : Spending (Pass ν) := do
  let pass ← Pass.absorb { vault } (← vault.ticksAbove limit)
  let state ← pass.vault.state.addAbsorbed pass.debt pass.collateral
  return { pass with vault := { pass.vault with state } }

def fillAbove (vault : Vault ν) (limit requested : Int) : Spending (Liquidation ν) := do
  let pass ← Pass.fill { vault } (← vault.ticksAbove limit) requested
  return ⟨← pass.book, pass.debt, pass.collateral, 0, 0, pass.completed⟩

def absorbAbove (vault : Vault ν) (limit requested : Int) : Spending (Liquidation ν) := do
  let pass ← vault.sweep limit
  let vault ← pass.book
  let (debt, collateral, state) ← vault.state.sellAbsorbed requested
  return ⟨{ vault with state }, debt, collateral, pass.debt, pass.collateral, pass.completed⟩

def take (vault : Vault ν) (limit : Int) (request : LiquidateRequest) :
    Spending (Liquidation ν) :=
  if request.absorb then vault.absorbAbove limit request.debt
  else vault.fillAbove limit request.debt

def liquidate (vault : Vault ν) (host : Host) (request : LiquidateRequest) :
    Spending (Settlement ν (LiquidationReceipt ν)) := do
  ensure (0 < request.debt ∨ request.debt = 0 ∧ request.absorb) (.debtNotPositive request.debt)
  let rate ← checkOracleRate host.oracle
  let prices := host.liquidity.prices
  let limit ← thresholdTick rate prices (← toInt vault.config.liquidationThreshold)
  let start := vault.state.topmost
  let taken ← vault.take limit request
  ensure (taken.debt ≠ 0 ∨ taken.absorbedDebt ≠ 0) (.nothingAboveLiquidationTick limit)
  let vault ← taken.vault.settleTopmost start
  let debtAmount := toAmountUp taken.debt prices.borrow
  let collateralAmount := toAmountDown taken.collateral prices.supply
  checkSlippage debtAmount collateralAmount request.minimum
  let actions := vault.liquidateActions request debtAmount collateralAmount
  let recipient := recipientOr request.signer request.recipient
  let vault :=
    if taken.absorbedDebt = 0 then vault
    else vault.emit (.absorbed taken.absorbedCollateral taken.absorbedDebt)
  let vault := vault.emit (.liquidated request.signer collateralAmount debtAmount recipient)
  let vault := vault.emit (.walked vault.state.vaultId start vault.state.topmost)
  return {
    vault, actions
    receipt := {
      collateralRaw := taken.collateral, debtRaw := taken.debt
      collateralAmount, debtAmount
      absorbedCollateral := taken.absorbedCollateral, absorbedDebt := taken.absorbedDebt
      startTick := start, endTick := vault.state.topmost, liquidationTick := limit
      completed := taken.completed } }

def absorb (vault : Vault ν) (host : Host) : Spending (Settlement ν (Int × Int)) := do
  let rate ← checkOracleRate host.oracle
  let prices := host.liquidity.prices
  let limit ← thresholdTick rate prices (← toInt vault.config.liquidationMaxLimit)
  let start := vault.state.topmost
  let pass ← vault.sweep limit
  ensure (pass.debt ≠ 0) (.nothingAboveMaxLimitTick limit)
  let vault ← (← pass.book).settleTopmost start
  let vault := vault.emit (.absorbed pass.collateral pass.debt)
  let vault := vault.emit (.walked vault.state.vaultId start vault.state.topmost)
  return { vault, actions := [], receipt := (pass.debt, pass.collateral) }

end Vault

end TickVault
