import TickVault.Dump
import TickVault.View

namespace TickVault

inductive Cells where
  | values (cells : List Document)
  | ratios (cells : List Float)

structure Column where
  name : String
  cells : Cells

def fitWord (numbers : List Int) : Bool :=
  numbers.all (fun n => -wordBound ≤ n ∧ n < 2 * wordBound) &&
    !(numbers.any (· < 0) && numbers.any (wordBound ≤ ·))

namespace Document

def isNumber : Document → Bool
  | number _ => true
  | _ => false

def isFlag : Document → Bool
  | flag _ => true
  | _ => false

/-- Reads cells from the top for as long as they may be numbers of one type; answers whether all of
them may. Every number that is read has to have a place in binary64, and those before the first
blank have to fit an integer type. -/
def mayBeNumbers (blank : Bool) (before : List Int) : List Document → Except Fault Bool
  | [] => return true
  | number value :: rest => do
    let _ ← Binary64.ofInt value
    if blank || fitWord (value :: before) then mayBeNumbers blank (value :: before) rest
    else return false
  | flag _ :: rest => mayBeNumbers blank before rest
  | null :: rest => mayBeNumbers true before rest
  | _ :: _ => return false

def areRounded (cells : List Document) : Except Fault Bool := do
  return (← mayBeNumbers false [] cells) && cells.contains null && !cells.any isFlag

def rounded : Document → Except Fault Document
  | number value => do return number (← Binary64.truncate (← Binary64.ofInt value))
  | other => .ok other

end Document

namespace Column

def ofValues {α : Type} (rows : List α) (name : String) (cell : α → Document) :
    Except Fault Column := do
  let cells := rows.map cell
  return ⟨name, .values (← if ← Document.areRounded cells then cells.mapM Document.rounded
    else pure cells)⟩

def ofRatios {α : Type} (rows : List α) (name : String) (cell : α → Float) : Column :=
  ⟨name, .ratios (rows.map cell)⟩

end Column

variable {ν : Type} [Numeric ν]

def storeTick (tick : Option ν) : Document :=
  match tick with
  | some tick => store tick
  | none => .null

def tickColumns (rows : List (TickRow ν)) : Except Fault (List Column) := do
  let value := Column.ofValues rows
  return [
    ← value "tick" (store ·.record.tick),
    ← value "raw_debt" (store ·.record.rawDebt),
    ← value "raw_collateral" (store ·.record.rawCollateral),
    .ofRatios rows "ratio" (·.ratio),
    ← value "total_ids" (store ·.record.totalIds),
    ← value "branch_id" (store ·.record.branch),
    ← value "debt_factor" (store ·.record.debtFactor),
    ← value "occupants" (store ·.record.occupants),
    ← value "fully_liquidated" (.flag ·.fullyLiquidated)]

def positionColumns (rows : List (PositionRow ν)) : Except Fault (List Column) := do
  let value := Column.ofValues rows
  return [
    ← value "position_id" (store ·.position.id),
    ← value "owner" (·.position.owner),
    ← value "tick" (storeTick ·.position.tick),
    ← value "tick_slot" (store ·.position.tickSlot),
    ← value "branch_id" (store ·.position.branch),
    ← value "collateral" (store ·.collateral),
    ← value "debt" (.number ·.debt),
    ← value "dust_debt" (store ·.dustDebt),
    ← value "liquidated" (.flag ·.liquidated)]

def branchColumns (branches : List (Branch ν)) : Except Fault (List Column) := do
  let value := Column.ofValues branches
  return [
    ← value "branch_id" (store ·.id),
    ← value "connected_branch_id" (store ·.connected),
    ← value "status" (.text ·.status.name),
    ← value "min_tick" (storeTick ·.minTick),
    ← value "max_tick" (storeTick ·.maxTick),
    ← value "debt_liquidated" (store ·.debtLiquidated),
    ← value "collateral_liquidated" (store ·.collateralLiquidated),
    ← value "debt_entered" (store ·.debtEntered),
    ← value "collateral_entered" (store ·.collateralEntered),
    ← value "base_debt_factor" (store ·.baseDebtFactor),
    ← value "base_collateral_factor" (store ·.baseCollateralFactor),
    ← value "owned_ticks" (store ·.ownedTicks)]

end TickVault
