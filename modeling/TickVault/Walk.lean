import TickVault.Vault

/-!
A walk down the ticks with debt, from the topmost one to the last above a limit. Each tick costs
one step of a budget. A fill takes a requested debt tick by tick and may end inside a tick; an
absorption takes whole ticks only.
-/

namespace TickVault

inductive Budget where
  | unlimited
  | fixed (limit used : Int)
  deriving DecidableEq

def Budget.charge : Budget → Bool × Budget
  | .unlimited => (true, .unlimited)
  | .fixed limit used =>
    if used ≥ limit then (false, .fixed limit used) else (true, .fixed limit (used + 1))

/-- Work that spends a budget. What was spent stays spent when the work fails. -/
abbrev Spending := ExceptT Fault (StateM Budget)

def charge : Spending Bool :=
  modifyGet Budget.charge

/-- The debt to take from a tick: what is asked for, all there is, or all but the minimum when
less than that would stay. -/
def takeFrom (held asked : Int) : Int :=
  let take := min asked held
  if take < held ∧ held - take < minTickDebt then held - minTickDebt else take

structure Pass (ν : Type) where
  vault : Vault ν
  debt : Int := 0
  collateral : Int := 0
  /-- The budget lasted. -/
  completed : Bool := true
  /-- A branch was forked; a walk forks at most one. -/
  forked : Bool := false

variable {ν : Type} [Numeric ν]

/-- The ticks to visit: the topmost one and all set ticks below it, as far as the limit. -/
def Vault.ticksAbove (vault : Vault ν) (limit : Int) : Except Fault (List ν) :=
  match vault.state.topmost with
  | none => return []
  | some top => do
    let highest ← toInt top
    let below := vault.ledger.bitmap.ticksBelow highest
    if limit < highest then
      return top :: (below.takeWhile fun tick => decide (limit < tick)).map ofInt
    else return []

variable [DecidableEq ν]

def Ledger.recordD (ledger : Ledger ν) (tick : ν) : Except Fault (TickRecord ν) := do
  return (← ledger.peek? tick).getD (.fresh tick)

namespace Pass

/-- Looks after the current branch when the wipe of one of its ticks has liquidated it. With more
ticks to come the walk goes on under the nearest active ancestor, or a forked branch; otherwise a
branch is forked with the next debt. -/
def handOver (pass : Pass ν) (owner : ν) (more : Bool) : Except Fault (Pass ν) := do
  let vault := pass.vault
  if !same owner vault.state.currentBranch then return pass
  let branch ← vault.ledger.branches.get owner
  if !branch.isLiquidated then return pass
  if !more then
    return { pass with vault := { vault with state.branchLiquidated := .flag true } }
  match ← vault.ledger.branches.nearestActiveAncestor owner with
  | some ancestor =>
    let state :=
      { vault.state with currentBranch := ancestor, branchLiquidated := .flag false }
    return { pass with vault := { vault with state } }
  | none =>
    if pass.forked then return pass
    let (_, vault) ← vault.forkBranch
    return { pass with vault, forked := true }

def wipe (pass : Pass ν) (tick : ν) (more : Bool) : Except Fault (Pass ν) := do
  let ((owner, debt, collateral), vault) ← pass.vault.onLedger do
    let owner := (← Ledger.record tick).branch
    let (debtEntering, collateralEntering) ← Ledger.liquidationEntry tick owner
    let (debt, collateral) ← Ledger.wipe tick owner
    Ledger.recordLiquidation owner ⟨tick, debtEntering, debt, collateralEntering, collateral⟩
    return (owner, debt, collateral)
  let pass ← { pass with vault }.handOver owner more
  return { pass with
    debt := pass.debt + (← toInt debt), collateral := pass.collateral + (← toInt collateral) }

def reduce (pass : Pass ν) (tick : ν) (take : Int) : Except Fault (Pass ν) := do
  let record ← pass.vault.ledger.recordD tick
  let ratio ← ratioAtTick (← toInt tick)
  let priced ← floorDiv (take * ratioScale) ratio
  let collateral := min priced (← toInt record.rawCollateral)
  let owner := record.branch
  let (_, vault) ← pass.vault.onLedger do
    let (debtEntering, collateralEntering) ← Ledger.liquidationEntry tick owner
    Ledger.recordLiquidation owner
      ⟨tick, debtEntering, ofInt take, collateralEntering, ofInt collateral⟩
    Ledger.reduce tick take collateral owner
  return { pass with
    vault, debt := pass.debt + take, collateral := pass.collateral + collateral }

/-- Takes up to `asked` off the ticks. A tick that is left with the minimum ends the walk; when
something is still asked for then, the walk looks at the tick once more and pays for it. -/
def fill (pass : Pass ν) : List ν → Int → Spending (Pass ν)
  | [], _ => return pass
  | tick :: rest, asked =>
    if asked ≤ 0 then return pass
    else do
      if !(← charge) then return { pass with completed := false }
      let record ← pass.vault.ledger.recordD tick
      let held ← toInt record.rawDebt
      let take := takeFrom held asked
      if take ≤ 0 then return pass
      if take = held then
        let pass ← pass.wipe tick (!rest.isEmpty)
        pass.fill rest (asked - take)
      else
        let pass ← pass.reduce tick take
        if asked - take ≤ 0 then return pass
        return { pass with completed := ← charge }

def absorb (pass : Pass ν) : List ν → Spending (Pass ν)
  | [] => return pass
  | tick :: rest => do
    if !(← charge) then return { pass with completed := false }
    let pass ← pass.wipe tick (!rest.isEmpty)
    pass.absorb rest

def book (pass : Pass ν) : Except Fault (Vault ν) := do
  let state ← pass.vault.state.shiftTotals (-pass.collateral) (-pass.debt)
  return { pass.vault with state }

end Pass

end TickVault
