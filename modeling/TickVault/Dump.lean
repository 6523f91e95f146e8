import TickVault.Document.Reading
import TickVault.Vault

namespace TickVault

structure SegmentEntry where
  array : Int
  map : Int
  bits : String
  deriving DecidableEq

structure Dump (ν : Type) where
  config : Config ν
  state : VaultState ν
  /-- By id. -/
  positions : List (Position ν)
  /-- Highest first. -/
  ticks : List (TickRecord ν)
  branches : List (Branch ν)
  bitmap : List SegmentEntry
  deriving DecidableEq

namespace BranchStatus

def name : BranchStatus → String
  | active => "active"
  | liquidated => "liquidated"

def ofDocument (document : Document) : Except Fault BranchStatus :=
  if document = .text "active" then .ok .active
  else if document = .text "liquidated" then .ok .liquidated
  else .error .unknownBranchStatus

theorem ofDocument_name (status : BranchStatus) : ofDocument (.text status.name) = .ok status := by
  cases status <;> rfl

end BranchStatus

variable {ν : Type} [Numeric ν]

def Vault.dump (vault : Vault ν) : Except Fault (Dump ν) := do
  return {
    config := vault.config
    state := vault.state
    positions := ← vault.positionList
    ticks := ← vault.ledger.records
    branches := vault.ledger.branches.records
    bitmap := vault.ledger.bitmap.segments.map fun (array, map, bytes) =>
      ⟨array, map, Hex.encode bytes⟩ }

namespace Document

def ofTick (tick : Option ν) : Document :=
  store (writeTick tick)

def valueD (document : Document) (name : String) (usual : ν) : Except Fault ν :=
  match document.field? name with
  | some value => restore value
  | none => .ok usual

def tickD (document : Document) (name : String) (usual : Option ν) : Except Fault (Option ν) := do
  return readTick (← document.valueD name (writeTick usual))

def optionD (document : Document) (name : String) (usual : Option ν) :
    Except Fault (Option ν) :=
  match document.field? name with
  | some null => return none
  | some value => some <$> restore value
  | none => return usual

def ofConfig (config : Config ν) : Document :=
  record [
    ("supply_mint", config.supplyMint),
    ("borrow_mint", config.borrowMint),
    ("collateral_factor", store config.collateralFactor),
    ("liquidation_threshold", store config.liquidationThreshold),
    ("liquidation_max_limit", store config.liquidationMaxLimit),
    ("borrow_fee", store config.borrowFee),
    ("borrow_limit", config.borrowLimit.elim null store)]

def toConfig (document : Document) : Except Fault (Config ν) := do
  let usual : Config ν := .usual
  document.conform (ofConfig usual) []
  return {
    supplyMint := document.fieldD "supply_mint" usual.supplyMint
    borrowMint := document.fieldD "borrow_mint" usual.borrowMint
    collateralFactor := ← document.valueD "collateral_factor" usual.collateralFactor
    liquidationThreshold := ← document.valueD "liquidation_threshold" usual.liquidationThreshold
    liquidationMaxLimit := ← document.valueD "liquidation_max_limit" usual.liquidationMaxLimit
    borrowFee := ← document.valueD "borrow_fee" usual.borrowFee
    borrowLimit := ← document.optionD "borrow_limit" usual.borrowLimit }

def ofState (state : VaultState ν) : Document :=
  record [
    ("vault_id", store state.vaultId),
    ("topmost_tick", ofTick state.topmost),
    ("current_branch_id", store state.currentBranch),
    ("total_branch_id", store state.totalBranch),
    ("branch_liquidated", state.branchLiquidated),
    ("next_position_id", store state.nextPosition),
    ("total_positions", store state.totalPositions),
    ("total_supply", store state.totalSupply),
    ("total_borrow", store state.totalBorrow),
    ("absorbed_debt", store state.absorbedDebt),
    ("absorbed_collateral", store state.absorbedCollateral),
    ("absorbed_dust_debt", store state.absorbedDust)]

def toState (document : Document) : Except Fault (VaultState ν) := do
  let usual : VaultState ν := .fresh (ofInt 0)
  document.conform (ofState usual) ["vault_id"]
  return {
    vaultId := ← document.valueD "vault_id" usual.vaultId
    topmost := ← document.tickD "topmost_tick" usual.topmost
    currentBranch := ← document.valueD "current_branch_id" usual.currentBranch
    totalBranch := ← document.valueD "total_branch_id" usual.totalBranch
    branchLiquidated := document.fieldD "branch_liquidated" usual.branchLiquidated
    nextPosition := ← document.valueD "next_position_id" usual.nextPosition
    totalPositions := ← document.valueD "total_positions" usual.totalPositions
    totalSupply := ← document.valueD "total_supply" usual.totalSupply
    totalBorrow := ← document.valueD "total_borrow" usual.totalBorrow
    absorbedDebt := ← document.valueD "absorbed_debt" usual.absorbedDebt
    absorbedCollateral := ← document.valueD "absorbed_collateral" usual.absorbedCollateral
    absorbedDust := ← document.valueD "absorbed_dust_debt" usual.absorbedDust }

def ofPosition (position : Position ν) : Document :=
  record [
    ("position_id", store position.id),
    ("owner", position.owner),
    ("collateral", store position.collateral),
    ("debt", store position.debt),
    ("dust_debt", store position.dustDebt),
    ("tick", ofTick position.tick),
    ("tick_slot", store position.tickSlot),
    ("branch_id", store position.branch),
    ("debt_factor", store position.debtFactor)]

def overPosition (usual : Position ν) (document : Document) : Except Fault (Position ν) := do
  return {
    id := ← document.valueD "position_id" usual.id
    owner := document.fieldD "owner" usual.owner
    collateral := ← document.valueD "collateral" usual.collateral
    debt := ← document.valueD "debt" usual.debt
    dustDebt := ← document.valueD "dust_debt" usual.dustDebt
    tick := ← document.tickD "tick" usual.tick
    tickSlot := ← document.valueD "tick_slot" usual.tickSlot
    branch := ← document.valueD "branch_id" usual.branch
    debtFactor := ← document.valueD "debt_factor" usual.debtFactor }

def toPosition (document : Document) : Except Fault (Position ν) := do
  let usual : Position ν := .fresh (ofInt 0) null
  document.conform (ofPosition usual) ["position_id", "owner"]
  document.overPosition usual

def ofTickRecord (tick : TickRecord ν) : Document :=
  record [
    ("tick", store tick.tick),
    ("raw_debt", store tick.rawDebt),
    ("raw_collateral", store tick.rawCollateral),
    ("total_ids", store tick.totalIds),
    ("branch_id", store tick.branch),
    ("debt_factor", store tick.debtFactor),
    ("liquidated_slot", store tick.liquidatedSlot),
    ("occupants", store tick.occupants),
    ("liquidation_branch_id", store tick.liquidationBranch),
    ("liquidated_debt_left", store tick.liquidatedDebtLeft),
    ("liquidated_collateral_left", store tick.liquidatedCollateralLeft)]

def overTick (usual : TickRecord ν) (document : Document) : Except Fault (TickRecord ν) := do
  return {
    tick := ← document.valueD "tick" usual.tick
    rawDebt := ← document.valueD "raw_debt" usual.rawDebt
    rawCollateral := ← document.valueD "raw_collateral" usual.rawCollateral
    totalIds := ← document.valueD "total_ids" usual.totalIds
    branch := ← document.valueD "branch_id" usual.branch
    debtFactor := ← document.valueD "debt_factor" usual.debtFactor
    liquidatedSlot := ← document.valueD "liquidated_slot" usual.liquidatedSlot
    occupants := ← document.valueD "occupants" usual.occupants
    liquidationBranch := ← document.valueD "liquidation_branch_id" usual.liquidationBranch
    liquidatedDebtLeft := ← document.valueD "liquidated_debt_left" usual.liquidatedDebtLeft
    liquidatedCollateralLeft :=
      ← document.valueD "liquidated_collateral_left" usual.liquidatedCollateralLeft }

def toTickRecord (document : Document) : Except Fault (TickRecord ν) := do
  let usual : TickRecord ν := .fresh (ofInt 0)
  document.conform (ofTickRecord usual) ["tick"]
  document.overTick usual

def ofBranch (branch : Branch ν) : Document :=
  record [
    ("branch_id", store branch.id),
    ("connected_branch_id", store branch.connected),
    ("status", text branch.status.name),
    ("min_tick", ofTick branch.minTick),
    ("max_tick", ofTick branch.maxTick),
    ("base_debt_factor", store branch.baseDebtFactor),
    ("base_collateral_factor", store branch.baseCollateralFactor),
    ("debt_entered", store branch.debtEntered),
    ("debt_liquidated", store branch.debtLiquidated),
    ("collateral_entered", store branch.collateralEntered),
    ("collateral_liquidated", store branch.collateralLiquidated),
    ("owned_ticks", store branch.ownedTicks)]

def overBranch (usual : Branch ν) (document : Document) : Except Fault (Branch ν) := do
  return {
    id := ← document.valueD "branch_id" usual.id
    connected := ← document.valueD "connected_branch_id" usual.connected
    status := usual.status
    minTick := ← document.tickD "min_tick" usual.minTick
    maxTick := ← document.tickD "max_tick" usual.maxTick
    baseDebtFactor := ← document.valueD "base_debt_factor" usual.baseDebtFactor
    baseCollateralFactor := ← document.valueD "base_collateral_factor" usual.baseCollateralFactor
    debtEntered := ← document.valueD "debt_entered" usual.debtEntered
    debtLiquidated := ← document.valueD "debt_liquidated" usual.debtLiquidated
    collateralEntered := ← document.valueD "collateral_entered" usual.collateralEntered
    collateralLiquidated := ← document.valueD "collateral_liquidated" usual.collateralLiquidated
    ownedTicks := ← document.valueD "owned_ticks" usual.ownedTicks }

def ofSegment (entry : SegmentEntry) : Document :=
  record [("array", number entry.array), ("map", number entry.map), ("bits", text entry.bits)]

def formatVersion : Int := 1

def ofDump (dump : Dump ν) : Document :=
  record [
    ("version", number formatVersion),
    ("config", ofConfig dump.config),
    ("state", ofState dump.state),
    ("positions", list (dump.positions.map ofPosition)),
    ("ticks", list (dump.ticks.map ofTickRecord)),
    ("branches", list (dump.branches.map ofBranch)),
    ("bitmap", list (dump.bitmap.map ofSegment))]

end Document

end TickVault
