import TickVault.Amount

/-!
Ticks are powers of 1.0015: the ratio of a tick is `1.0015 ^ tick`, debt over collateral, as a
multiple of `1 / ratioScale`. From tick to ratio a table of inverse powers is multiplied out; from
ratio to tick a table of powers is divided out, the largest first.
-/

namespace TickVault

/-- One tick up multiplies a ratio by `tickSpacing / 10000`. -/
def tickSpacing : Int := 10015

def checkTick (tick : Int) : Except Fault Unit :=
  ensure (minTick ≤ tick ∧ tick ≤ maxTick) (.tickOutOfRange tick)

/-- `2 ^ 64 / 1.0015 ^ (2 ^ i)`, for `i` from 0. -/
def inversePowers : List Nat :=
  [0xff9dd7de423466c2, 0xff3bd55f4488ad27, 0xfe78410fd6498b74, 0xfcf2d9987c9be179,
   0xf9ef02c4529258b0, 0xf402d288133a85a1, 0xe895615b5beb6386, 0xd34f17a00ffa00a8,
   0xae6b7961714e2055, 0x76d6461f27082d75, 0x372a3bfe0745d8b7, 0xbe32cbee4897976,
   0x8d4f70c9ff4925, 0x4e009ae55194]

def powerScale : Nat := 10000000000000

/-- Powers of 1.0015 times `powerScale`, each with the number of ticks it stands for. -/
def tickPowers : List (Nat × Nat) :=
  [(0x2000, 2150859953785115391), (0x1000, 4637736467054931), (0x800, 215354044936586),
   (0x400, 46406254420777), (0x200, 21542110950596), (0x100, 14677230989051),
   (0x80, 12114962232319), (0x40, 11006798913544), (0x20, 10491329235871),
   (0x10, 10242718992470), (0x8, 10120631893548), (0x4, 10060135135051),
   (0x2, 10030022500000), (0x1, 10015000000000)]

/-- `factor / 1.0015 ^ distance`, where the table starts at the lowest bit of `distance`. -/
def scaleDown : List Nat → Nat → Nat → Nat
  | [], _, factor => factor
  | power :: powers, distance, factor =>
    scaleDown powers (distance / 2)
      (if distance % 2 = 1 then (factor * power) >>> 64 else factor)

def inverseFactor (distance : Nat) : Nat :=
  scaleDown inversePowers distance (1 <<< 64)

/-- A positive tick inverts the factor of its distance from zero and rounds the ratio up. -/
def ratioOf (tick : Int) : Int :=
  let factor := inverseFactor tick.natAbs
  if 0 < tick then
    let inverted := ((1 <<< 128) - 1) / factor
    Int.ofNat (inverted >>> 16 + if inverted % (1 <<< 16) = 0 then 0 else 1)
  else Int.ofNat (factor >>> 16)

def ratioAtTick (tick : Int) : Except Fault Int := do
  checkTick tick
  return ratioOf tick

/-- Divides the powers out of a factor: the ticks they stand for, and what is left of it. -/
def divideOut : List (Nat × Nat) → Nat → Nat × Nat
  | [], factor => (0, factor)
  | (ticks, power) :: powers, factor =>
    if power ≤ factor then
      let (below, rest) := divideOut powers (factor * powerScale / power)
      (ticks + below, rest)
    else divideOut powers factor

def floorTick (ratio : Int) : Int × Int :=
  let r := ratio.toNat
  if r < 1 <<< 48 then
    let (ticks, rest) := divideOut tickPowers ((1 <<< 48) * powerScale / r)
    (-(ticks : Int) - 1, ratio * rest / (tickSpacing * 1000000000))
  else
    let (ticks, rest) := divideOut tickPowers ((r * powerScale) >>> 48)
    (ticks, ratio * powerScale / rest)

def tickAtRatio (ratio : Int) : Except Fault (Int × Int) := do
  ensure (minRatio ≤ ratio ∧ ratio ≤ maxRatio) (.ratioOutOfRange ratio)
  let (tick, perfect) := floorTick ratio
  ensure (perfect ≤ ratio) .perfectRatioTooHigh
  return (tick, perfect)

/-- The floor tick; the lowest ratio floors to one below the range and is lifted into it. -/
def tickForRatio (ratio : Int) : Except Fault Int := do
  let (tick, _) ← tickAtRatio ratio
  return max tick minTick

def clampedTickForRatio (ratio : Int) : Except Fault Int :=
  if ratio < minRatio then .ok minTick
  else if ratio > maxRatio then .ok maxTick
  else tickForRatio ratio

/-- The tick of a position, one above the floor tick of its ratio, and its debt rounded up to the
ratio of the floor tick, one tick up. `ratioAtTick` reads another table, and what it gives for the
tick may lie a little below the ratio of the position. -/
def positionTick (debt collateral : Int) : Except Fault (Int × Int) := do
  let ratio := max (← floorDiv (debt * ratioScale) collateral) minRatio
  ensure (ratio ≤ maxRatio) (.positionRatioOutOfRange ratio)
  let (below, perfect) ← tickAtRatio ratio
  let tick := below + 1
  ensure (tick ≤ maxTick) (.positionTickOutOfRange tick)
  let tickDebt := perfect * tickSpacing / 10000 * collateral / ratioScale
  return (tick, max tickDebt debt)

end TickVault
