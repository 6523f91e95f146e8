import TickVault.Engine
import TickVault.Load

namespace TickVault

/-- Where the budget of a call comes from. Only a named one outlives the call. -/
inductive BudgetChoice where
  | unlimited
  | fresh (limit : Int)
  | named (name : String)

structure Entry (ν : Type) where
  vault : Vault ν
  /-- The place of its host. -/
  place : Nat

structure Registry (ν : Type) where
  hosts : List Host := []
  vaults : Table ν (Entry ν) := ∅
  current : Option ν := none
  budgets : Table String Budget := ∅

structure Report (ν : Type) where
  reply : Except Fault (Reply ν)
  events : List (Event ν)
  transfers : List Transfer

namespace Registry

variable {ν : Type} [Numeric ν]

def hostAt (registry : Registry ν) (place : Nat) : Host :=
  registry.hosts[place]?.getD {}

def currentId (registry : Registry ν) : ν :=
  registry.current.getD (ofInt 0)

def nameBudget (registry : Registry ν) (name : String) (limit : Int) : Registry ν :=
  { registry with budgets := registry.budgets.insert name (.fixed limit 0) }

def budget (registry : Registry ν) : BudgetChoice → Budget
  | .unlimited => .unlimited
  | .fresh limit => .fixed limit 0
  | .named name => (registry.budgets.get? name).getD .unlimited

def keepBudget (registry : Registry ν) (choice : BudgetChoice) (budget : Budget) : Registry ν :=
  match choice with
  | .named name => { registry with budgets := registry.budgets.insert name budget }
  | _ => registry

variable [DecidableEq ν]

def entry (registry : Registry ν) (id : ν) : Except Fault (Entry ν) := do
  match registry.vaults.get? (← key id) with
  | some entry => return entry
  | none => refuse (.unknownVault (store id))

def engine (registry : Registry ν) (id : ν) : Except Fault (Engine ν) := do
  let entry ← registry.entry id
  return ⟨entry.vault, registry.hostAt entry.place⟩

def update (registry : Registry ν) (id : ν) (engine : Engine ν) : Except Fault (Registry ν) := do
  let entry ← registry.entry id
  return { registry with
    hosts := registry.hosts.set entry.place engine.host
    vaults := registry.vaults.insert (← key id) { entry with vault := engine.vault } }

def create (registry : Registry ν) (id : Int) (config : Config ν) (host : Host) :
    Except Fault (String × Registry ν) := do
  let place ← key (ofInt id)
  ensure (!registry.vaults.contains place) (.vaultExists id)
  let vault ← Vault.create id config
  return (vault.address,
    { registry with
      hosts := registry.hosts ++ [host]
      vaults := registry.vaults.insert place { vault, place := registry.hosts.length }
      current := some place })

def select (registry : Registry ν) (id : ν) : Except Fault (ν × Registry ν) := do
  let engine ← registry.engine id
  return (engine.vault.state.vaultId, { registry with current := some id })

def perform (registry : Registry ν) (target : Option ν) (choice : BudgetChoice)
    (call : Budget → Call) : Except Fault (Report ν × Registry ν) := do
  let id := target.getD registry.currentId
  let before ← registry.engine id
  let outcome := before.perform (call (registry.budget choice))
  let report : Report ν := {
    reply := outcome.reply
    events := outcome.engine.vault.events.drop before.vault.events.length
    transfers := outcome.engine.host.transfers.drop before.host.transfers.length }
  let registry ← registry.update id outcome.engine
  return (report, registry.keepBudget choice outcome.budget)

def withHost (registry : Registry ν) (change : Host → Host) : Except Fault (Registry ν) := do
  let engine ← registry.engine registry.currentId
  registry.update registry.currentId { engine with host := change engine.host }

/-- Stores the current vault, edits what was stored, and goes on with the vault loaded from it,
under the id of the vault that was stored. -/
def reload (registry : Registry ν) (edits : List (List Step × Edit)) :
    Except Fault (Registry ν) := do
  let entry ← registry.entry registry.currentId
  let stored ← (Document.ofDump (← entry.vault.dump)).editAll edits
  let vault ← Vault.load stored
  let id ← key entry.vault.state.vaultId
  return { registry with
    vaults := registry.vaults.insert id { vault, place := entry.place }
    current := some id }

end Registry

end TickVault
