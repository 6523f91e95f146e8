import TickVault.View

/-!
A price walk over one vault. Positions open with their loan to value spread up to the collateral
factor; then, step by step, the price moves at random, with one crash, and whatever can be absorbed
or liquidated is. All randomness comes from two lists of draws, used over and over.
-/

namespace TickVault

structure SimulationParams where
  initialPrice : Float := 1
  priceVolatility : Float := 0.01
  crashStep : Option Int := some 120
  crashSize : Float := 0.25
  steps : Int := 240
  positions : Int := 50
  ticksPerLiquidation : Int := 25
  collateralFactor : Int := 800
  liquidationThreshold : Int := 850
  liquidationMaxLimit : Int := 920

/-- Token amounts are shown in multiples of this. -/
def token : Int := 1000000

structure HistoryRow where
  step : Int
  price : Float
  totalSupply : Float
  totalBorrow : Float
  topmost : Option Int
  liquidationTick : Int
  liquidatedDebt : Float
  liquidatedCollateral : Float
  absorbedDebt : Float

/-- Draws that start over when they run out. -/
structure Draws where
  values : Array Document
  used : Nat := 0

def Draws.next (draws : Draws) (unit : Int) : Except Fault (Float × Draws) := do
  ensure (!draws.values.isEmpty) .divisionByZero
  let value ← (draws.values.getD (draws.used % draws.values.size) .null).toNumber
  return (← Binary64.ofQuotient value unit, { draws with used := draws.used + 1 })

structure Simulation where
  params : SimulationParams
  engine : Engine Int
  uniforms : Draws
  normals : Draws
  history : List HistoryRow := []
  /-- Positions that could not be opened. -/
  rejected : List (Nat × Fault) := []

/-- Stages of a simulation. A fault ends it and leaves what was reached. -/
abbrev SimulationM := ExceptT Fault (StateM Simulation)

namespace Simulation

def rateOf (price : Float) : Except Fault Int := do
  Binary64.truncate (price * (← Binary64.ofInt rateScale))

def create (params : SimulationParams) (uniforms normals : Array Document) :
    Except Fault Simulation := do
  let rate ← rateOf params.initialPrice
  let config : Config Int :=
    { Config.usual with
      collateralFactor := params.collateralFactor
      liquidationThreshold := params.liquidationThreshold
      liquidationMaxLimit := params.liquidationMaxLimit }
  let engine ← Engine.create 1 config { oracle := rate }
  return { params, engine, uniforms := { values := uniforms }, normals := { values := normals } }

def uniform (low high : Float) : SimulationM Float := do
  let (draw, uniforms) ← (← get).uniforms.next 4294967296
  modify fun simulation => { simulation with uniforms }
  return low + (high - low) * draw

def normal (scale : Float) : SimulationM Float := do
  let (draw, normals) ← (← get).normals.next 1048576
  modify fun simulation => { simulation with normals }
  return 0 + scale * draw

def call (call : Call) : SimulationM (Except Fault (Reply Int)) :=
  modifyGet fun simulation =>
    let outcome := simulation.engine.perform call
    (outcome.reply, { simulation with engine := outcome.engine })

def openOne (maxRatio : Float) (index : Nat) : SimulationM Unit := do
  let params := (← get).params
  let collateral := (← Binary64.truncate (← uniform 100 10000)) * token
  let ratio ← uniform 0.2 (maxRatio * 0.98)
  let debt ← Binary64.truncate ((← Binary64.ofInt collateral) * ratio * params.initialPrice)
  match ← call (.operate { position := none, collateral, debt, signer := s!"user-{index}" }) with
  | .ok _ => return
  | .error fault =>
    if fault.kind?.isNone then throw fault
    modify fun simulation =>
      { simulation with rejected := simulation.rejected ++ [(index, fault)] }

def openPositions : SimulationM Unit := do
  let params := (← get).params
  let maxRatio ← Binary64.ofQuotient params.collateralFactor 1000
  (List.range params.positions.toNat).forM (openOne maxRatio)

/-- The price after one step. It does not fall below a hundredth. -/
def stepPrice (price : Float) (step : Int) : SimulationM Float := do
  let params := (← get).params
  let moved := price * (1 + (← normal params.priceVolatility))
  let moved := if params.crashStep = some step then moved * (1 - params.crashSize) else moved
  return if moved < 0.01 then 0.01 else moved

def unlessNothing (reply : Except Fault (Reply Int)) : SimulationM (Option (Reply Int)) :=
  match reply with
  | .ok reply => return some reply
  | .error fault => if fault.kind? = some .nothingToLiquidate then return none else throw fault

def tokens (amount : Int) : Except Fault Float :=
  Binary64.ofQuotient amount token

def note (step : Int) (price : Float) (absorbed liquidated : Option (Reply Int)) :
    SimulationM Unit := do
  let absorbedDebt := match absorbed with
    | some (.absorbed debt _) => debt
    | _ => 0
  let (debt, collateral) := match liquidated with
    | some (.liquidated receipt) => (receipt.debtAmount, receipt.collateralAmount)
    | _ => (0, 0)
  let summary ← (← get).engine.summary
  let row : HistoryRow := {
    step, price
    totalSupply := ← tokens summary.totalSupply
    totalBorrow := ← tokens summary.totalBorrow
    topmost := summary.topmost, liquidationTick := summary.liquidationTick
    liquidatedDebt := ← tokens debt
    liquidatedCollateral := ← tokens collateral
    absorbedDebt := ← tokens absorbedDebt }
  modify fun simulation => { simulation with history := simulation.history ++ [row] }

def advance (price : Float) (step : Int) : SimulationM Float := do
  let price ← stepPrice price step
  let _ ← call (.setOracle (← rateOf price))
  let absorbed ← unlessNothing (← call (.absorb .unlimited))
  let simulation ← get
  let owed := simulation.engine.vault.state.totalBorrow
  let liquidated ←
    if owed > 0 then
      unlessNothing (← call
        (.liquidate { debt := owed } (.fixed simulation.params.ticksPerLiquidation 0)))
    else pure none
  note step price absorbed liquidated
  return price

def simulate : SimulationM Nat := do
  openPositions
  let params := (← get).params
  let _ ← (List.range params.steps.toNat).foldlM (fun price (step : Nat) => advance price step)
    params.initialPrice
  return (← get).history.length

def closeOne (position : Position Int) : SimulationM Nat := do
  if position.tick.isNone then return 0
  let (_, debt) ← (← get).engine.vault.snapshot position.id
  if debt = 0 then return 0
  match ← call (.operate
      { position := some position.id, collateral := 0, debt := wholeAmount
        signer := position.owner.wording }) with
  | .ok _ => return 1
  | .error fault => throw fault

def closeAll : SimulationM Nat := do
  let positions ← (← get).engine.vault.positionList
  let closed ← positions.mapM closeOne
  return closed.foldl (· + ·) 0

def rejectionText (index : Nat) (fault : Fault) : String :=
  let message := fault.message?.getD ""
  s!"Position {index} rejected: {message}"

end Simulation

end TickVault
