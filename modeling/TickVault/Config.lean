import TickVault.Tick.Ratio

namespace TickVault

structure Config (ν : Type) where
  /-- The name of a token; a stored one may be any value, as nothing hangs on it. -/
  supplyMint : Document
  borrowMint : Document
  /-- Highest ratio to borrow up to, over `riskScale`. -/
  collateralFactor : ν
  /-- Liquidated above. -/
  liquidationThreshold : ν
  /-- Absorbed above. -/
  liquidationMaxLimit : ν
  /-- Over `bpsScale`. -/
  borrowFee : ν
  /-- In token units; no limit if absent. -/
  borrowLimit : Option ν
  deriving DecidableEq

namespace Config

variable {ν : Type} [Numeric ν]

def usual : Config ν where
  supplyMint := .text "collateral"
  borrowMint := .text "debt"
  collateralFactor := ofInt 800
  liquidationThreshold := ofInt 900
  liquidationMaxLimit := ofInt 950
  borrowFee := ofInt 0
  borrowLimit := none

def validate (config : Config ν) : Except Fault (Config ν) := do
  let factor ← toInt config.collateralFactor
  ensure (0 < factor) .collateralFactorRange
  let threshold ← toInt config.liquidationThreshold
  ensure (factor ≤ threshold) .collateralFactorRange
  let maxLimit ← toInt config.liquidationMaxLimit
  ensure (threshold < maxLimit ∧ maxLimit ≤ riskScale) .maxLimitRange
  let fee ← toInt config.borrowFee
  ensure (0 ≤ fee ∧ fee < bpsScale) .borrowFeeRange
  match config.borrowLimit with
  | some limit => ensure (0 ≤ (← toInt limit)) .borrowLimitRange
  | none => pure ()
  return config

def checkLimit (config : Config ν) (owed : Int) : Except Fault Unit :=
  match config.borrowLimit with
  | some limit => do ensure (owed ≤ (← toInt limit)) (.borrowLimitReached (store limit))
  | none => .ok ()

end Config

def checkOracleRate (rate : Int) : Except Fault Int := do
  ensure (minOracleRate ≤ rate ∧ rate ≤ maxOracleRate) (.oracleRate rate)
  return rate

structure ExchangePrices where
  supply : Int := priceScale
  borrow : Int := priceScale
  deriving DecidableEq

/-- The highest tick at which a position stays within a risk threshold. Rates are per token and
ticks per raw unit. -/
def thresholdTick (rate : Int) (prices : ExchangePrices) (threshold : Int) : Except Fault Int := do
  let rawRate ← floorDiv (rate * prices.supply) prices.borrow
  clampedTickForRatio (rawRate * ratioScale / rateScale * threshold / riskScale)

end TickVault
