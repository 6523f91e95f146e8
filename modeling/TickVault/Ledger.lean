import TickVault.Branch
import TickVault.Table
import TickVault.Tick.Search

/-!
The tick ledger: a record per tick, the set of ticks that hold debt, and the branches that own
them. A step of the ledger may fail halfway and then keeps what it had done; whole calls on a vault
are all or nothing, and are built on top.
-/

namespace TickVault

structure TickRecord (ν : Type) where
  tick : ν
  rawDebt : ν
  rawCollateral : ν
  /-- Slots handed out so far; none is used twice. -/
  totalIds : ν
  /-- The branch that owns the current occupancy. -/
  branch : ν
  /-- The share of the entry debt still owed; every partial liquidation shrinks it. -/
  debtFactor : ν
  /-- Slots up to this one were wiped. -/
  liquidatedSlot : ν
  /-- Positions that hold a share of the debt. -/
  occupants : ν
  /-- The branch under which the tick was last liquidated. -/
  liquidationBranch : ν
  /-- The debt right after that liquidation. -/
  liquidatedDebtLeft : ν
  liquidatedCollateralLeft : ν
  deriving DecidableEq

variable {ν : Type} [Numeric ν]

namespace TickRecord

def fresh (tick : ν) : TickRecord ν where
  tick := tick
  rawDebt := ofInt 0
  rawCollateral := ofInt 0
  totalIds := ofInt 0
  branch := ofInt 0
  debtFactor := ofInt factorScale
  liquidatedSlot := ofInt 0
  occupants := ofInt 0
  liquidationBranch := ofInt 0
  liquidatedDebtLeft := ofInt 0
  liquidatedCollateralLeft := ofInt 0

def hasDebt (record : TickRecord ν) : Except Fault Bool := do
  return decide (0 < (← toInt record.rawDebt))

/-- Every slot handed out so far was wiped, and there was one. -/
def fullyLiquidated (record : TickRecord ν) : Except Fault Bool := do
  return decide (0 < (← toInt record.liquidatedSlot)) &&
    same record.liquidatedSlot record.totalIds

def slotLiquidated (record : TickRecord ν) (slot : ν) : Except Fault Bool := do
  let slot ← toInt slot
  if 0 < slot then return decide (slot ≤ (← toInt record.liquidatedSlot))
  else return false

/-- The record after its last debt was taken out: residue of the collateral belongs to nobody. -/
def vacated (record : TickRecord ν) : TickRecord ν :=
  { record with
    rawCollateral := ofInt 0, liquidatedDebtLeft := ofInt 0, liquidatedCollateralLeft := ofInt 0 }

/-- Debt and collateral that come under liquidation by `branch`: on a second visit by the same
branch only what has joined since the first. -/
def entering (record : TickRecord ν) (branch : ν) : Except Fault (ν × ν) := do
  if same record.liquidationBranch branch then
    let debt := (← toInt record.rawDebt) - (← toInt record.liquidatedDebtLeft)
    let collateral := (← toInt record.rawCollateral) - (← toInt record.liquidatedCollateralLeft)
    return (ofInt (max debt 0), ofInt (max collateral 0))
  else return (record.rawDebt, record.rawCollateral)

def wiped (record : TickRecord ν) (branch : ν) : TickRecord ν :=
  { record with
    rawDebt := ofInt 0, rawCollateral := ofInt 0, liquidatedSlot := record.totalIds
    occupants := ofInt 0, liquidationBranch := branch, liquidatedDebtLeft := ofInt 0
    liquidatedCollateralLeft := ofInt 0, debtFactor := ofInt factorScale }

end TickRecord

structure Ledger (ν : Type) where
  ticks : Table ν (TickRecord ν)
  bitmap : TickBitmap
  branches : BranchLedger ν
  deriving DecidableEq

/-- Steps of a ledger. A failed step leaves behind what it did before it failed. -/
abbrev LedgerM (ν : Type) := ExceptT Fault (StateM (Ledger ν))

variable [DecidableEq ν]

namespace Ledger

def empty : Ledger ν := ⟨∅, .empty, .root⟩

def peek? (ledger : Ledger ν) (tick : ν) : Except Fault (Option (TickRecord ν)) := do
  return ledger.ticks.get? (← key tick)

def totalRawDebt (ledger : Ledger ν) : Except Fault Int :=
  sumOf (ledger.ticks.values.map TickRecord.rawDebt)

def records (ledger : Ledger ν) : Except Fault (List (TickRecord ν)) := do
  let le ← order ledger.ticks.keys
  return ledger.ticks.sortedBy fun a b => le b a

def highest? (ledger : Ledger ν) : Option Int :=
  if ledger.ticks.entries.isEmpty then none else ledger.bitmap.highest?

def putRecord (tick : ν) (record : TickRecord ν) : LedgerM ν Unit := do
  let place ← key tick
  modify fun ledger => { ledger with ticks := ledger.ticks.insert place record }

/-- The record of a tick, created empty on first use. -/
def record (tick : ν) : LedgerM ν (TickRecord ν) := do
  match ← (← get).peek? tick with
  | some record => return record
  | none =>
    putRecord tick (.fresh tick)
    return .fresh tick

def onBranches (step : BranchLedger ν → Except Fault (BranchLedger ν)) : LedgerM ν Unit := do
  let branches ← step (← get).branches
  modify fun ledger => { ledger with branches }

def onBitmap (step : TickBitmap → Except Fault TickBitmap) : LedgerM ν Unit := do
  let bitmap ← step (← get).bitmap
  modify fun ledger => { ledger with bitmap }

def setBit (tick : ν) : LedgerM ν Unit := do
  let tick ← toInt tick
  onBitmap (·.set tick)

def clearBit (tick : ν) : LedgerM ν Unit := do
  let tick ← toInt tick
  onBitmap (·.clear tick)

def releaseTick (branch : ν) (liquidated : Bool) : LedgerM ν Bool := do
  let (closed, branches) ← (← get).branches.release branch liquidated
  modify fun ledger => { ledger with branches }
  return closed

def recordLiquidation (branch : ν) (taken : TickLiquidation ν) : LedgerM ν Unit := do
  onBranches (·.update branch (·.raise branch taken))
  onBranches (·.update branch (·.fold taken))

def allocateSlot (tick : ν) : LedgerM ν Int := do
  let record ← record tick
  let slot := (← toInt record.totalIds) + 1
  putRecord tick { record with totalIds := ofInt slot }
  return slot

/-- Adds raw debt and its collateral to a tick. The first debt sets the tick's bit and gives the
new occupancy to `branch`. -/
def addDebt (tick : ν) (amount collateral : Int) (branch : ν) : LedgerM ν (TickRecord ν) := do
  let before ← record tick
  let held ← toInt before.rawDebt
  let rawDebt ← checkedAdd held amount
  let record := { before with rawDebt := ofInt rawDebt }
  putRecord tick record
  let rawCollateral ← checkedAdd (← toInt before.rawCollateral) collateral
  let record := { record with rawCollateral := ofInt rawCollateral }
  putRecord tick record
  if held = 0 ∧ 0 < rawDebt then
    let record := { record with branch }
    putRecord tick record
    onBranches (·.claim branch)
    setBit tick
    return record
  else return record

/-- Takes raw debt, and as much of the collateral as is there, out of a tick. -/
def removeDebt (tick : ν) (amount : Int) (collateral : ν) : LedgerM ν (TickRecord ν) := do
  let before ← record tick
  let held ← toInt before.rawDebt
  ensure (amount ≤ held) (.tickDebtUnderflow amount (store tick) (store before.rawDebt))
  let record := { before with rawDebt := ofInt (held - amount) }
  putRecord tick record
  let heldCollateral ← toInt before.rawCollateral
  let left := heldCollateral - min (← toInt collateral) heldCollateral
  let record := { record with rawCollateral := ofInt left }
  putRecord tick record
  if 0 < held ∧ amount = held then
    putRecord tick record.vacated
    clearBit tick
    let _ ← releaseTick record.branch false
    return record.vacated
  else return record

def liquidationEntry (tick branch : ν) : LedgerM ν (ν × ν) := do
  (← record tick).entering branch

/-- Partial liquidation: less debt and collateral, and the shared factor shrinks with the debt. -/
def reduce (tick : ν) (debt collateral : Int) (branch : ν) : LedgerM ν (TickRecord ν) := do
  let before ← record tick
  let held ← toInt before.rawDebt
  ensure (debt < held) (.partialWouldEmpty debt (store tick))
  let rawDebt := ofInt (held - debt)
  let debtFactor ← floorDiv (← times before.debtFactor rawDebt) held
  let record := { before with debtFactor := ofInt debtFactor, rawDebt }
  putRecord tick record
  let rawCollateral ← ofInt <$> checkedSub .tickCollateral before.rawCollateral collateral
  let record :=
    { record with
      rawCollateral, liquidationBranch := branch
      liquidatedDebtLeft := rawDebt, liquidatedCollateralLeft := rawCollateral }
  putRecord tick record
  return record

def wipe (tick branch : ν) : LedgerM ν (ν × ν) := do
  let before ← record tick
  putRecord tick (before.wiped branch)
  if ← before.hasDebt then
    clearBit tick
    let _ ← releaseTick before.branch true
  return (before.rawDebt, before.rawCollateral)

def checkRecord (ledger : Ledger ν) (record : TickRecord ν) : Except Fault Unit := do
  let bit ← ledger.bitmap.isSet (← toInt record.tick)
  ensure (bit = (← record.hasDebt)) (.bitMismatch (store record.tick) (store record.rawDebt) bit)

def checkBit (ledger : Ledger ν) (tick : Int) : Except Fault Unit := do
  match ← ledger.peek? (ofInt tick) with
  | some record => ensure (← record.hasDebt) (.bitWithoutDebt tick)
  | none => refuse (.bitWithoutDebt tick)

def checkSync (ledger : Ledger ν) : Except Fault Unit := do
  ledger.ticks.values.forM ledger.checkRecord
  ledger.bitmap.ticks.forM ledger.checkBit

end Ledger

end TickVault
