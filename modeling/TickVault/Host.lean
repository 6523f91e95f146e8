import TickVault.Config

/-!
What a vault is connected to: a price oracle, the layer it borrows from, and the executor that
moves tokens. The vault reads oracle and layer while it works and hands the moves over at the end,
one action after the other.
-/

namespace TickVault

structure Transfer where
  source : String
  destination : String
  amount : Int
  mint : Document
  deriving DecidableEq

structure Liquidity where
  prices : ExchangePrices := {}
  /-- What may still be borrowed; everything if absent. -/
  available : Option Int := none
  borrowed : Int := 0
  deriving DecidableEq

namespace Liquidity

def accrue (liquidity : Liquidity) (prices : ExchangePrices) : Except Fault Liquidity := do
  ensure (liquidity.prices.supply ≤ prices.supply ∧ liquidity.prices.borrow ≤ prices.borrow)
    .exchangePriceDecrease
  return { liquidity with prices }

def checkBorrow (liquidity : Liquidity) (amount : Int) : Except Fault Unit :=
  match liquidity.available with
  | some available => ensure (amount ≤ available) (.borrowUnavailable amount available)
  | none => .ok ()

def settle (liquidity : Liquidity) (amount : Int) : Liquidity :=
  { liquidity with
    borrowed := liquidity.borrowed + amount
    available := liquidity.available.map (· - amount) }

end Liquidity

/-- What a vault asks of its surroundings once a call has passed all its checks. -/
inductive Action where
  | transfer (transfer : Transfer)
  | settleBorrow (amount : Int)
  deriving DecidableEq

structure Host where
  oracle : Int := rateScale
  liquidity : Liquidity := {}
  transfers : List Transfer := []
  /-- The executor refuses to hold more transfers than this. -/
  capacity : Option Int := none
  deriving DecidableEq

namespace Host

def isFull (host : Host) : Bool :=
  host.capacity.any (· ≤ (host.transfers.length : Int))

def act (host : Host) : Action → Except Fault Host
  | .transfer transfer => do
    ensure (!host.isFull) .transferRefused
    return { host with transfers := host.transfers ++ [transfer] }
  | .settleBorrow amount => .ok { host with liquidity := host.liquidity.settle amount }

/-- Carries out actions up to the first that is refused. What was done before it stays done. -/
def actAll (host : Host) : List Action → Except Fault Unit × Host
  | [] => (.ok (), host)
  | action :: rest =>
    match host.act action with
    | .error fault => (.error fault, host)
    | .ok host => host.actAll rest

end Host

end TickVault
