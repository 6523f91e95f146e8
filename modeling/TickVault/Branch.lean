import TickVault.Amount

/-!
Branches are liquidation epochs. Each is linked to the branch it was forked from, and is looked up
by its place in the ledger. Branch 0 is the root: it is never liquidated, and every sound chain of
links ends there.
-/

namespace TickVault

inductive BranchStatus where
  | active
  | liquidated
  deriving DecidableEq

structure Branch (ν : Type) where
  id : ν
  connected : ν
  status : BranchStatus
  /-- Lowest tick liquidated under the branch. -/
  minTick : Option ν
  /-- Highest tick liquidated under the branch. -/
  maxTick : Option ν
  /-- Outstanding share of the debt that entered. -/
  baseDebtFactor : ν
  baseCollateralFactor : ν
  debtEntered : ν
  debtLiquidated : ν
  collateralEntered : ν
  collateralLiquidated : ν
  /-- Ticks with debt whose occupancy the branch owns. -/
  ownedTicks : ν
  deriving DecidableEq

structure TickLiquidation (ν : Type) where
  tick : ν
  debtEntering : ν
  debtTaken : ν
  collateralEntering : ν
  collateralTaken : ν

structure Flow (ν : Type) where
  entered : ν
  liquidated : ν
  deriving DecidableEq

variable {ν : Type} [Numeric ν]

def Flow.outstandingShare (flow : Flow ν) (before : ν) : Except Fault ν := do
  if isZero flow.entered then return before
  else
    let entered ← toInt flow.entered
    return ofInt ((factorScale * (entered - (← toInt flow.liquidated))).fdiv entered)

def higherTick (highest : Option ν) (tick : ν) : Except Fault (Option ν) :=
  match highest with
  | none => return readTick tick
  | some known => do
    let raises := (← toInt known) < (← toInt tick)
    return if raises then readTick tick else highest

def lowerTick (lowest : Option ν) (tick : ν) : Except Fault (Option ν) :=
  match lowest with
  | none => return readTick tick
  | some known => do
    let lowers := (← toInt tick) < (← toInt known)
    return if lowers then readTick tick else lowest

namespace Branch

def fresh (id connected : ν) : Branch ν where
  id := id
  connected := connected
  status := .active
  minTick := none
  maxTick := none
  baseDebtFactor := ofInt factorScale
  baseCollateralFactor := ofInt factorScale
  debtEntered := ofInt 0
  debtLiquidated := ofInt 0
  collateralEntered := ofInt 0
  collateralLiquidated := ofInt 0
  ownedTicks := ofInt 0

def isLiquidated (branch : Branch ν) : Bool :=
  branch.status = .liquidated

def isOpen (branch : Branch ν) : Except Fault Bool :=
  if branch.isLiquidated then return false
  else return decide (0 < (← toInt branch.ownedTicks))

def debtWith (branch : Branch ν) (taken : TickLiquidation ν) : Except Fault (Flow ν) := do
  return {
    entered := ← plus branch.debtEntered taken.debtEntering
    liquidated := ← plus branch.debtLiquidated taken.debtTaken }

def collateralWith (branch : Branch ν) (taken : TickLiquidation ν) : Except Fault (Flow ν) := do
  return {
    entered := ← plus branch.collateralEntered taken.collateralEntering
    liquidated := ← plus branch.collateralLiquidated taken.collateralTaken }

/-- Notes the highest tick, unless more would be liquidated than has entered. -/
def raise (branch : Branch ν) (id : ν) (taken : TickLiquidation ν) : Except Fault (Branch ν) := do
  let debt ← branch.debtWith taken
  ensure (!(← exceeds debt.liquidated debt.entered)) (.branchDebtExceeded (store id))
  let collateral ← branch.collateralWith taken
  ensure (!(← exceeds collateral.liquidated collateral.entered))
    (.branchCollateralExceeded (store id))
  return { branch with maxTick := ← higherTick branch.maxTick taken.tick }

def fold (branch : Branch ν) (taken : TickLiquidation ν) : Except Fault (Branch ν) := do
  let minTick ← lowerTick branch.minTick taken.tick
  let debt ← branch.debtWith taken
  let collateral ← branch.collateralWith taken
  return { branch with
    minTick
    debtEntered := debt.entered
    debtLiquidated := debt.liquidated
    collateralEntered := collateral.entered
    collateralLiquidated := collateral.liquidated
    baseDebtFactor := ← debt.outstandingShare branch.baseDebtFactor
    baseCollateralFactor := ← collateral.outstandingShare branch.baseCollateralFactor }

def claim (branch : Branch ν) : Except Fault (Branch ν) := do
  return { branch with ownedTicks := ofInt ((← toInt branch.ownedTicks) + 1) }

end Branch

def follow (link : ν → Except Fault ν) (start : ν) :
    Nat → List Int → ν → Except Fault (List ν)
  | steps, visited, branch => do
    let id ← toInt branch
    if id = 0 then return [ofInt 0]
    else match steps with
      | 0 => refuse (.branchCycle (store start) (store branch))
      | steps + 1 =>
        if id ∈ visited then refuse (.branchCycle (store start) (store branch))
        else return branch :: (← follow link start steps (id :: visited) (← link branch))

structure BranchLedger (ν : Type) where
  records : List (Branch ν)
  deriving DecidableEq

namespace BranchLedger

def root : BranchLedger ν := ⟨[.fresh (ofInt 0) (ofInt 0)]⟩

/-- A ledger of the given branches; the root alone when there are none. -/
def ofList (records : List (Branch ν)) : BranchLedger ν :=
  if records.isEmpty then root else ⟨records⟩

/-- The id of the newest branch. -/
def total (ledger : BranchLedger ν) : Int :=
  ledger.records.length - 1

def get? (ledger : BranchLedger ν) (id : Int) : Option (Branch ν) :=
  if id < 0 then none else ledger.records[id.toNat]?

def get (ledger : BranchLedger ν) (id : ν) : Except Fault (Branch ν) := do
  match ledger.get? (← toInt id) with
  | some branch => return branch
  | none => refuse (.unknownBranch (store id))

def update (ledger : BranchLedger ν) (id : ν) (change : Branch ν → Except Fault (Branch ν)) :
    Except Fault (BranchLedger ν) := do
  let branch ← change (← ledger.get id)
  return ⟨ledger.records.set (← toInt id).toNat branch⟩

def fork (ledger : BranchLedger ν) (source : ν) : Except Fault (Int × BranchLedger ν) := do
  let _ ← ledger.get source
  let id := ledger.total + 1
  return (id, ⟨ledger.records ++ [.fresh (ofInt id) source]⟩)

def link (ledger : BranchLedger ν) (id : ν) : Except Fault ν := do
  return (← ledger.get id).connected

/-- The branches from `start` down the links to the root. A chain is never longer than the ledger,
so a walk of that many steps has found a branch that it visits again. -/
def chain (ledger : BranchLedger ν) (start : ν) : Except Fault (List ν) :=
  follow ledger.link start ledger.records.length [] start

def firstOpen (ledger : BranchLedger ν) : List ν → Except Fault (Option ν)
  | [] => return none
  | id :: rest => do
    if ← (← ledger.get id).isOpen then return some id
    else ledger.firstOpen rest

def nearestActiveAncestor (ledger : BranchLedger ν) (id : ν) : Except Fault (Option ν) := do
  let chain ← ledger.chain id
  ledger.firstOpen chain.tail.dropLast

def claim (ledger : BranchLedger ν) (id : ν) : Except Fault (BranchLedger ν) :=
  ledger.update id Branch.claim

/-- Gives up one owned tick. A branch whose last tick is liquidated is liquidated itself; the
answer says whether that happened just now. -/
def release (ledger : BranchLedger ν) (id : ν) (liquidated : Bool) :
    Except Fault (Bool × BranchLedger ν) := do
  let branch ← ledger.get id
  let owned ← toInt branch.ownedTicks
  ensure (owned ≠ 0) (.branchOwnsNothing (store id))
  let closes := liquidated && owned = 1 && (← toInt id) ≠ 0 && !branch.isLiquidated
  let status := if closes then .liquidated else branch.status
  let ledger ← ledger.update id fun branch =>
    return { branch with ownedTicks := ofInt (owned - 1), status }
  return (closes, ledger)

end BranchLedger

end TickVault
