import TickVault.Host
import TickVault.Position

namespace TickVault

structure VaultState (ν : Type) where
  vaultId : ν
  /-- The highest tick with debt. -/
  topmost : Option ν
  currentBranch : ν
  totalBranch : ν
  /-- A flag: the current branch is liquidated, and the next debt forks a fresh one. -/
  branchLiquidated : Document
  nextPosition : ν
  totalPositions : ν
  /-- Raw collateral. -/
  totalSupply : ν
  /-- Raw debt on all ticks. -/
  totalBorrow : ν
  /-- Debt of absorbed ticks that nobody has bought back. -/
  absorbedDebt : ν
  absorbedCollateral : ν
  /-- Dust of wiped positions, and remainders swept off emptied ticks. -/
  absorbedDust : ν
  deriving DecidableEq

inductive Event (ν : Type) where
  | operated (signer : String) (position : ν) (collateral debt : Int) (recipient : String)
  | positionMoved (position : ν) (tick : Option ν) (slot collateral : ν) (debt : Int)
  | liquidated (signer : String) (collateral debt : Int) (recipient : String)
  | absorbed (collateral debt : Int)
  | walked (vault : ν) (first last : Option ν)
  | branchCreated (branch : Int) (connected : ν)
  deriving DecidableEq

structure Vault (ν : Type) where
  config : Config ν
  state : VaultState ν
  ledger : Ledger ν
  positions : Table ν (Position ν)
  events : List (Event ν)
  deriving DecidableEq

variable {ν : Type} [Numeric ν]

def shiftTotal (account : Account) (total : ν) (change : Int) : Except Fault ν :=
  if change > 0 then do return ofInt (← checkedAdd (← toInt total) change)
  else do return ofInt (← checkedSub account total (-change))

namespace VaultState

def fresh (vaultId : ν) : VaultState ν where
  vaultId := vaultId
  topmost := none
  currentBranch := ofInt 1
  totalBranch := ofInt 1
  branchLiquidated := .flag false
  nextPosition := ofInt 1
  totalPositions := ofInt 0
  totalSupply := ofInt 0
  totalBorrow := ofInt 0
  absorbedDebt := ofInt 0
  absorbedCollateral := ofInt 0
  absorbedDust := ofInt 0

def shiftTotals (state : VaultState ν) (supplyChange borrowChange : Int) :
    Except Fault (VaultState ν) := do
  let totalSupply ← shiftTotal .totalSupply state.totalSupply supplyChange
  let totalBorrow ← shiftTotal .totalBorrow state.totalBorrow borrowChange
  return { state with totalSupply, totalBorrow }

def absorbDust (state : VaultState ν) (dust : ν) : Except Fault (VaultState ν) := do
  return { state with absorbedDust := ← gather state.absorbedDust dust }

def addAbsorbed (state : VaultState ν) (debt collateral : Int) : Except Fault (VaultState ν) := do
  return { state with
    absorbedDebt := ofInt ((← toInt state.absorbedDebt) + debt)
    absorbedCollateral := ofInt ((← toInt state.absorbedCollateral) + collateral) }

end VaultState

namespace Vault

def liquidityAddress : String := "liquidity"

def address (vault : Vault ν) : String :=
  "vault-" ++ (store vault.state.vaultId).wording

def create (id : Int) (config : Config ν) : Except Fault (Vault ν) := do
  let config ← config.validate
  return {
    config
    state := .fresh (ofInt id)
    ledger := {
      ticks := ∅, bitmap := .empty
      branches := ⟨[.fresh (ofInt 0) (ofInt 0), .fresh (ofInt 1) (ofInt 0)]⟩ }
    positions := ∅
    events := [] }

def emit (vault : Vault ν) (event : Event ν) : Vault ν :=
  { vault with events := vault.events ++ [event] }

def onLedger {α : Type} (vault : Vault ν) (step : LedgerM ν α) : Except Fault (α × Vault ν) :=
  match step.run.run vault.ledger with
  | (.ok answer, ledger) => .ok (answer, { vault with ledger })
  | (.error fault, _) => .error fault

def forkBranch (vault : Vault ν) : Except Fault (ν × Vault ν) := do
  let parent := vault.state.currentBranch
  let (id, branches) ← vault.ledger.branches.fork parent
  let state :=
    { vault.state with
      currentBranch := ofInt id, totalBranch := ofInt branches.total
      branchLiquidated := .flag false }
  let vault := { vault with state, ledger := { vault.ledger with branches } }
  return (ofInt id, vault.emit (.branchCreated id parent))

def ensureBranch (vault : Vault ν) : Except Fault (ν × Vault ν) := do
  if vault.state.branchLiquidated.toFlag then vault.forkBranch
  else
    let branch ← vault.ledger.branches.get vault.state.currentBranch
    if branch.isLiquidated then vault.forkBranch
    else return (vault.state.currentBranch, vault)

def totalCollateral (vault : Vault ν) : Except Fault Int :=
  sumOf (vault.positions.values.map Position.collateral)

def positionList (vault : Vault ν) : Except Fault (List (Position ν)) := do
  return vault.positions.sortedBy (← order vault.positions.keys)

variable [DecidableEq ν]

def hasPosition (vault : Vault ν) (id : ν) : Except Fault Bool := do
  return vault.positions.contains (← key id)

def position (vault : Vault ν) (id : Int) : Except Fault (Position ν) := do
  match vault.positions.get? (← key (ofInt id)) with
  | some position => return position
  | none => refuse (.unknownPosition id)

def putPosition (vault : Vault ν) (position : Position ν) : Except Fault (Vault ν) := do
  return { vault with positions := vault.positions.insert (← key position.id) position }

def createPosition (vault : Vault ν) (owner : String) : Except Fault (Position ν × Vault ν) := do
  let id := vault.state.nextPosition
  let state :=
    { vault.state with
      nextPosition := ofInt ((← toInt id) + 1)
      totalPositions := ofInt ((← toInt vault.state.totalPositions) + 1) }
  ensure (!(← vault.hasPosition id)) (.positionExists (store id))
  let position := .fresh id (.text owner)
  return (position, ← { vault with state }.putPosition position)

def holdings (vault : Vault ν) (position : Position ν) : Except Fault (Holdings ν) := do
  position.realize (← position.record? vault.ledger)

def snapshot (vault : Vault ν) (id : Int) : Except Fault (ν × Int) := do
  let holdings ← vault.holdings (← vault.position id)
  return (holdings.collateral, ← holdings.netDebt)

/-- The ledger agrees with itself and with the state: every bit with its tick, the ticks' debt with
the total, and the highest bit with the topmost tick. The chain from the current branch ends at the
root. -/
def check (vault : Vault ν) : Except Fault Unit := do
  let state := vault.state
  vault.ledger.checkSync
  let total ← vault.ledger.totalRawDebt
  ensure (same (ofInt total) state.totalBorrow)
    (.totalBorrowMismatch total (store state.totalBorrow))
  let highest := writeTick vault.ledger.bitmap.highest?
  let topmost := writeTick state.topmost
  ensure (same (ofInt highest) topmost) (.topmostMismatch (store topmost) highest)
  let _ ← vault.ledger.branches.chain state.currentBranch

end Vault

end TickVault
