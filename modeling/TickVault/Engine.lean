import TickVault.Liquidate

/-!
A vault with its host, and the calls on it. A call that fails leaves the vault as it was; of what
it had asked of the host, the actions before the refused one stay done.
-/

namespace TickVault

structure Engine (ν : Type) where
  vault : Vault ν
  host : Host
  deriving DecidableEq

inductive Call where
  | openPosition (owner : String)
  | operate (request : OperateRequest)
  | liquidate (request : LiquidateRequest) (budget : Budget)
  | absorb (budget : Budget)
  | setOracle (rate : Int)
  | accrue (prices : ExchangePrices)

inductive Reply (ν : Type) where
  | opened (position : ν)
  | operated (snapshot : PositionSnapshot ν)
  | liquidated (receipt : LiquidationReceipt ν)
  | absorbed (debt collateral : Int)
  | done
  deriving DecidableEq

structure Outcome (ν : Type) where
  reply : Except Fault (Reply ν)
  engine : Engine ν
  budget : Budget := .unlimited

namespace Engine

variable {ν : Type} [Numeric ν]

def create (id : Int) (config : Config ν) (host : Host) : Except Fault (Engine ν) := do
  return ⟨← Vault.create id config, host⟩

/-- Lets the host act on a settlement, and takes over its vault unless an action is refused. -/
def commit {α : Type} (engine : Engine ν) (settlement : Settlement ν α) :
    Except Fault α × Engine ν :=
  match engine.host.actAll settlement.actions with
  | (.ok (), host) => (.ok settlement.receipt, ⟨settlement.vault, host⟩)
  | (.error fault, host) => (.error fault, { engine with host })

def conclude {α : Type} (engine : Engine ν) (worked : Except Fault (Settlement ν α))
    (reply : α → Reply ν) (budget : Budget) : Outcome ν :=
  match worked with
  | .error fault => ⟨.error fault, engine, budget⟩
  | .ok settlement =>
    let (answer, engine) := engine.commit settlement
    ⟨answer.map reply, engine, budget⟩

def accrue (engine : Engine ν) (prices : ExchangePrices) : Except Fault (Engine ν) := do
  let liquidity ← engine.host.liquidity.accrue prices
  return { engine with host.liquidity := liquidity }

variable [DecidableEq ν]

def openPosition (vault : Vault ν) (owner : String) : Except Fault (Settlement ν ν) := do
  let (position, vault) ← vault.createPosition owner
  return ⟨vault, [], position.id⟩

def perform (engine : Engine ν) : Call → Outcome ν
  | .openPosition owner =>
    engine.conclude (openPosition engine.vault owner) .opened .unlimited
  | .operate request =>
    engine.conclude (engine.vault.operate engine.host request) .operated .unlimited
  | .liquidate request budget =>
    let (worked, budget) := (engine.vault.liquidate engine.host request).run.run budget
    engine.conclude worked .liquidated budget
  | .absorb budget =>
    let (worked, budget) := (engine.vault.absorb engine.host).run.run budget
    engine.conclude worked (fun taken => .absorbed taken.1 taken.2) budget
  | .setOracle rate => ⟨.ok .done, { engine with host.oracle := rate }, .unlimited⟩
  | .accrue prices =>
    match engine.accrue prices with
    | .error fault => ⟨.error fault, engine, .unlimited⟩
    | .ok engine => ⟨.ok .done, engine, .unlimited⟩

/-- The engine after a list of calls, failed ones included. -/
def run (engine : Engine ν) (calls : List Call) : Engine ν :=
  calls.foldl (fun engine call => (engine.perform call).engine) engine

end Engine

end TickVault
