import TickVault.Vault

/-!
Operating on a position: depositing or withdrawing collateral, borrowing or paying back debt. The
position is taken off its tick at what it holds now, changed, and put on the tick of its new ratio.
All checks come before the first token moves.
-/

namespace TickVault

/-- Signed changes in token units; without a position id a new position is opened. -/
structure OperateRequest where
  position : Option Int
  collateral : Int
  debt : Int
  signer : String
  recipient : Option String := none

def recipientOr (signer : String) : Option String → String
  | some recipient => if recipient.isEmpty then signer else recipient
  | none => signer

/-- The change that stands for all collateral, or for all debt. -/
def wholeAmount : Int := -170141183460469231731687303715884105728

/-- One tick above the floor tick of a higher ratio would leave the tick range. -/
def maxPositionRatio : Int := maxRatio * 10000 / tickSpacing

/-- A vault after a call, what it asks of its host, and the answer to the caller. -/
structure Settlement (ν α : Type) where
  vault : Vault ν
  actions : List Action
  receipt : α

structure PositionSnapshot (ν : Type) where
  position : ν
  owner : Document
  tick : Option ν
  tickSlot : ν
  collateralRaw : ν
  /-- Net of dust. -/
  debtRaw : Int
  collateral : Int
  debt : Int
  /-- Tokens moved, positive into the vault. -/
  collateralTransfer : Int
  /-- Tokens moved, positive when borrowed. -/
  debtTransfer : Int
  deriving DecidableEq

def checkOperateAmount (amount : Int) : Except Fault Unit :=
  if amount = 0 ∨ amount = wholeAmount then .ok ()
  else do
    ensure (minOperate ≤ amount.natAbs) (.operateTooSmall amount)
    ensure (amount.natAbs ≤ maxOperate) (.operateTooLarge amount)

def OperateRequest.check (request : OperateRequest) : Except Fault Unit := do
  ensure (request.collateral ≠ 0 ∨ request.debt ≠ 0) .nothingToOperate
  checkOperateAmount request.collateral
  checkOperateAmount request.debt

/-- A position off its tick: what it held there, whether it had been wiped, and the debt that left
the tick with it. -/
structure Departure (ν : Type) where
  holdings : Holdings ν
  wiped : Bool
  removed : Int

structure Rebalance (ν : Type) where
  vault : Vault ν
  position : Position ν
  collateralTransfer : Int
  debtTransfer : Int

variable {ν : Type} [Numeric ν]

def OperateRequest.authorize (request : OperateRequest) (position : Position ν) :
    Except Fault Unit :=
  ensure (position.owner = .text request.signer ∨ 0 ≤ request.collateral ∧ request.debt ≤ 0)
    (.notOwner request.signer (store position.id))

def applyCollateral (held : ν) (change price : Int) : Except Fault (ν × Int) := do
  if change > 0 then
    let added ← toRawDown change price
    ensure (added ≠ 0) .depositRoundsToZero
    return (ofInt ((← toInt held) + added), change)
  else if change = wholeAmount then return (ofInt 0, -(← readAmountDown held price))
  else if change < 0 then
    let withdrawn ← toRawUp (-change) price
    let amount ← toInt held
    ensure (withdrawn ≤ amount) (.withdrawalTooLarge withdrawn (store held))
    return (ofInt (amount - withdrawn), change)
  else return (held, 0)

/-- The new raw net debt and the tokens moved. A payback counts for one raw unit less than was
sent, a borrow for its fee on top. -/
def applyDebt (owed change price fee : Int) : Except Fault (Int × Int) := do
  if change > 0 then
    let borrowed ← toRawUp change price
    return (owed + borrowed + -(-(borrowed * fee) / bpsScale), change)
  else if change = wholeAmount then return (0, -toAmountUp owed price)
  else if change < 0 then
    let paid := max ((← toRawDown (-change) price) - 1) 0
    ensure (paid ≤ owed) (.paybackTooLarge paid owed)
    return (owed - paid, change)
  else return (owed, 0)

def VaultState.reach (state : VaultState ν) (tick : Int) : Except Fault (VaultState ν) := do
  if (← toInt (writeTick state.topmost)) < tick then
    return { state with topmost := some (ofInt tick) }
  else return state

namespace Vault

def checkBorrow (vault : Vault ν) (host : Host) (amount : Int) : Except Fault Unit := do
  if amount > 0 then
    let owed := toAmountUp (← toInt vault.state.totalBorrow) host.liquidity.prices.borrow
    vault.config.checkLimit owed
    host.liquidity.checkBorrow amount

/-- A position that took on risk has to be within the collateral factor, any other one within the
liquidation threshold. -/
def checkSafety (vault : Vault ν) (host : Host) (position : Position ν) (riskier : Bool) :
    Except Fault Unit :=
  match position.tick with
  | none => .ok ()
  | some tick => do
    let tick ← toInt tick
    let rate ← checkOracleRate host.oracle
    let prices := host.liquidity.prices
    if riskier then
      let limit ← thresholdTick rate prices (← toInt vault.config.collateralFactor)
      ensure (tick ≤ limit) (.aboveCollateralFactor tick limit)
    else
      let limit ← thresholdTick rate prices (← toInt vault.config.liquidationThreshold)
      ensure (tick ≤ limit) (.aboveLiquidationThreshold tick limit)

def operateActions (vault : Vault ν) (request : OperateRequest)
    (collateralTransfer debtTransfer : Int) : List Action :=
  let recipient := recipientOr request.signer request.recipient
  let config := vault.config
  (if collateralTransfer > 0 then
    [.transfer ⟨request.signer, vault.address, collateralTransfer, config.supplyMint⟩]
  else if collateralTransfer < 0 then
    [.transfer ⟨vault.address, recipient, -collateralTransfer, config.supplyMint⟩]
  else []) ++
  (if debtTransfer > 0 then
    [.transfer ⟨liquidityAddress, recipient, debtTransfer, config.borrowMint⟩,
     .settleBorrow debtTransfer]
  else if debtTransfer < 0 then
    [.transfer ⟨request.signer, liquidityAddress, -debtTransfer, config.borrowMint⟩,
     .settleBorrow debtTransfer]
  else [])

/-- The slot that a position keeps when it comes back to the tick it was just on, unless it was
wiped there. -/
def keptSlot (position : Position ν) (wiped : Bool) (tick : Int) : Except Fault (Option ν) := do
  if position.tick.any (same (ofInt tick)) && !wiped then
    return if 0 < (← toInt position.tickSlot) then some position.tickSlot else none
  else return none

variable [DecidableEq ν]

def locate (vault : Vault ν) (request : OperateRequest) : Except Fault (Position ν × Vault ν) :=
  match request.position with
  | some id => return (← vault.position id, vault)
  | none => do
    ensure (0 < request.collateral) .depositRequired
    vault.createPosition request.signer

/-- Takes an occupant's share out of its tick. The last occupant sweeps the rounding remainder off
the tick, an earlier one leaves at least one raw unit for those who stay. -/
def vacate (vault : Vault ν) (tick : ν) (record : TickRecord ν) (holdings : Holdings ν) :
    Except Fault (Int × Vault ν) := do
  let occupants := (← toInt record.occupants) - 1
  let last := occupants = 0
  let held ← toInt record.rawDebt
  let debt ← toInt holdings.debt
  let removed := if last then held else max (min debt (held - 1)) 0
  let state ←
    if last then vault.state.absorbDust (ofInt (removed - min debt removed))
    else pure vault.state
  let (left, vault) ← { vault with state }.onLedger do
    Ledger.putRecord tick { record with occupants := ofInt occupants }
    Ledger.removeDebt tick removed holdings.collateral
  if same left.rawDebt (ofInt 0) && state.topmost.any (same tick) then
    let topmost := (vault.ledger.bitmap.below? (← toInt tick)).map ofInt
    return (removed, { vault with state.topmost := topmost })
  else return (removed, vault)

def depart (vault : Vault ν) (position : Position ν) :
    Except Fault (Departure ν × Vault ν) := do
  let holdings ← vault.holdings position
  match position.tick, ← position.record? vault.ledger with
  | some tick, some record =>
    if ← record.slotLiquidated position.tickSlot then
      let state ← vault.state.absorbDust position.dustDebt
      return (⟨holdings, true, 0⟩, { vault with state })
    else
      let (removed, vault) ← vault.vacate tick record holdings
      return (⟨holdings, false, removed⟩, vault)
  | _, _ => return (⟨holdings, false, 0⟩, vault)

def occupy (position : Position ν) (wiped : Bool) (tick debt collateral : Int) (branch : ν) :
    LedgerM ν (ν × ν) := do
  let record ← Ledger.addDebt (ofInt tick) debt collateral branch
  let occupants := (← toInt record.occupants) + 1
  Ledger.putRecord (ofInt tick) { record with occupants := ofInt occupants }
  match ← keptSlot position wiped tick with
  | some slot => return (slot, record.debtFactor)
  | none => return (ofInt (← Ledger.allocateSlot (ofInt tick)), record.debtFactor)

def enter (vault : Vault ν) (position : Position ν) (wiped : Bool) (collateral : ν)
    (netDebt : Int) : Except Fault (Position ν × Vault ν) := do
  ensure (minDebt ≤ netDebt) (.positionDebtTooLow netDebt)
  let collateral ← toInt collateral
  ensure (collateral ≠ 0) .debtWithoutCollateral
  let ratio ← floorDiv (netDebt * ratioScale) collateral
  ensure (ratio ≤ maxPositionRatio) .positionRatioTooHigh
  let (tick, debt) ← positionTick netDebt collateral
  let (branch, vault) ← vault.ensureBranch
  let ((tickSlot, debtFactor), vault) ←
    vault.onLedger (occupy position wiped tick debt collateral branch)
  let state ← vault.state.reach tick
  let position :=
    { position with
      tick := some (ofInt tick), tickSlot, branch, debtFactor
      debt := ofInt debt, dustDebt := ofInt (debt - netDebt) }
  return (position, { vault with state })

def place (vault : Vault ν) (position : Position ν) (wiped : Bool) (collateral : ν)
    (netDebt : Int) : Except Fault (Position ν × Vault ν) :=
  if netDebt = 0 then .ok (position.cleared, vault)
  else vault.enter position wiped collateral netDebt

def rebalance (vault : Vault ν) (prices : ExchangePrices) (position : Position ν)
    (request : OperateRequest) : Except Fault (Rebalance ν) := do
  let (departure, vault) ← vault.depart position
  let holdings := departure.holdings
  let (collateral, collateralTransfer) ←
    applyCollateral holdings.collateral request.collateral prices.supply
  let (netDebt, debtTransfer) ←
    applyDebt (← holdings.netDebt) request.debt prices.borrow (← toInt vault.config.borrowFee)
  let (position, vault) ← vault.place position departure.wiped collateral netDebt
  let position := { position with collateral }
  let state ← vault.state.shiftTotals ((← toInt collateral) - (← toInt holdings.collateral))
    ((← toInt position.debt) - departure.removed)
  let vault ← { vault with state }.putPosition position
  return ⟨vault, position, collateralTransfer, debtTransfer⟩

def operate (vault : Vault ν) (host : Host) (request : OperateRequest) :
    Except Fault (Settlement ν (PositionSnapshot ν)) := do
  request.check
  let (position, vault) ← vault.locate request
  request.authorize position
  let prices := host.liquidity.prices
  let ⟨vault, position, collateralTransfer, debtTransfer⟩ ←
    vault.rebalance prices position request
  vault.checkSafety host position (request.debt > 0 || request.collateral < 0)
  vault.checkBorrow host debtTransfer
  let recipient := recipientOr request.signer request.recipient
  let actions := vault.operateActions request collateralTransfer debtTransfer
  let debtRaw ← position.netDebt
  let vault := vault.emit
    (.operated request.signer position.id collateralTransfer debtTransfer recipient)
  let vault := vault.emit
    (.positionMoved position.id position.tick position.tickSlot position.collateral debtRaw)
  return {
    vault, actions
    receipt := {
      position := position.id, owner := position.owner, tick := position.tick
      tickSlot := position.tickSlot, collateralRaw := position.collateral, debtRaw
      collateral := toAmountDown (← toInt position.collateral) prices.supply
      debt := toAmountUp debtRaw prices.borrow
      collateralTransfer, debtTransfer } }

end Vault

end TickVault
