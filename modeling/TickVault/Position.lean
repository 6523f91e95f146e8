import TickVault.Ledger

/-!
Positions, and what they are worth. A position stores what it held when it was last operated on,
together with the factor of its tick at that time; what it holds now follows from the tick's
current factor, collateral rounded down and debt rounded up. At the factor of its entry it holds
what was stored, also where that factor is zero.
-/

namespace TickVault

/-- All amounts raw. -/
structure Position (ν : Type) where
  id : ν
  /-- The name of the owner; where a stored position has another value, nobody owns it. -/
  owner : Document
  collateral : ν
  /-- Debt booked on the tick, dust included. -/
  debt : ν
  /-- What rounding up to the tick's ratio added to the debt. -/
  dustDebt : ν
  /-- No tick for a position without debt. -/
  tick : Option ν
  tickSlot : ν
  branch : ν
  /-- The factor of the tick at entry. -/
  debtFactor : ν
  deriving DecidableEq

structure Holdings (ν : Type) where
  collateral : ν
  debt : ν
  dustDebt : ν
  deriving DecidableEq

variable {ν : Type} [Numeric ν]

def Holdings.netDebt (holdings : Holdings ν) : Except Fault Int := do
  return (← toInt holdings.debt) - (← toInt holdings.dustDebt)

namespace Position

def fresh (id : ν) (owner : Document) : Position ν where
  id := id
  owner := owner
  collateral := ofInt 0
  debt := ofInt 0
  dustDebt := ofInt 0
  tick := none
  tickSlot := ofInt 0
  branch := ofInt 0
  debtFactor := ofInt factorScale

def netDebt (position : Position ν) : Except Fault Int := do
  return (← toInt position.debt) - (← toInt position.dustDebt)

def cleared (position : Position ν) : Position ν :=
  { position with
    tick := none, tickSlot := ofInt 0, branch := ofInt 0, debtFactor := ofInt factorScale
    debt := ofInt 0, dustDebt := ofInt 0 }

/-- What a position holds at another factor of its tick than at entry. -/
def scale (position : Position ν) (factor : ν) : Except Fault (Holdings ν) := do
  let collateral ← floorDiv (← times position.collateral factor) (← toInt position.debtFactor)
  let debt ← ceilDiv (← times position.debt factor) (← toInt position.debtFactor)
  let dust ← floorDiv (← times position.dustDebt factor) (← toInt position.debtFactor)
  return ⟨ofInt collateral, ofInt debt, ofInt (min dust debt)⟩

def realize (position : Position ν) (record : Option (TickRecord ν)) :
    Except Fault (Holdings ν) :=
  match position.tick, record with
  | some _, some record => do
    if ← record.slotLiquidated position.tickSlot then return ⟨ofInt 0, ofInt 0, ofInt 0⟩
    else if same record.debtFactor position.debtFactor then
      return ⟨position.collateral, position.debt, position.dustDebt⟩
    else position.scale record.debtFactor
  | _, _ => .ok ⟨position.collateral, ofInt 0, ofInt 0⟩

def record? [DecidableEq ν] (position : Position ν) (ledger : Ledger ν) :
    Except Fault (Option (TickRecord ν)) :=
  match position.tick with
  | some tick => ledger.peek? tick
  | none => .ok none

end Position

end TickVault
