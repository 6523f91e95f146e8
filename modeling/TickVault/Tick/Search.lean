import TickVault.Tick.Segment

/-!
The search for the next tick with debt, as it goes over the bytes: down the map of its start with
all bits above the start cleared, then down the maps of the same array, then down the arrays below,
where an array without debt is left out as a whole.
-/

namespace TickVault

namespace TickBitmap

def scanMap (array map : Nat) (bytes : List UInt8) : Option Int :=
  bytes.zipIdx.reverse.findSome? fun (byte, index) =>
    if byte = 0 then none
    else some (firstTickOfMap array map + (index * 8 : Nat) + byte.toNat.log2)

def clearAbove (bytes : List UInt8) (byte bit : Nat) : List UInt8 :=
  bytes.mapIdx fun index value =>
    if index < byte then value
    else if index = byte then value &&& UInt8.ofNat (1 <<< (bit + 1) - 1)
    else 0

def above? (lower : Option Int) (tick : Int) : Option Int :=
  if lower.any fun bound => decide (tick ≤ bound) then none else some tick

/-- One map on the way down, with the answer if the search ends there: it gives up at a map that is
at or below the lower bound as a whole, or at a tick that is. -/
def visitMap (lower : Option Int) (array map : Nat) (bytes : List UInt8) : Option (Option Int) :=
  if lower.any fun bound => decide (firstTickOfMap array map + 255 ≤ bound) then some none
  else (scanMap array map bytes).map (above? lower)

def searchMaps (bitmap : TickBitmap) (lower : Option Int) (array : Nat) :
    Nat → Option (Option Int)
  | 0 => none
  | map + 1 =>
    (visitMap lower array map (bitmap.map array map)).or (bitmap.searchMaps lower array map)

def searchArrays (bitmap : TickBitmap) (lower : Option Int) : Nat → Option (Option Int)
  | 0 => none
  | array + 1 =>
    if bitmap.arrayHasDebt array then
      (bitmap.searchMaps lower array 8).or (bitmap.searchArrays lower array)
    else bitmap.searchArrays lower array

/-- The highest set tick strictly below `start`, unless it is at or below the lower bound. -/
def next? (bitmap : TickBitmap) (start : Int) (lower : Option Int) : Option Int :=
  let top := min (start - 1) maxTick
  if top < minTick then none
  else
    let array := place top / 2048
    let map := place top % 2048 / 256
    let bytes := clearAbove (bitmap.map array map) (place top % 256 / 8) (place top % 8)
    let answer :=
      (visitMap lower array map bytes).or
        ((bitmap.searchMaps lower array map).or (bitmap.searchArrays lower array))
    answer.getD none

end TickBitmap

end TickVault
