import TickVault.Tick.Ratio

/-!
The set of ticks that hold debt, as one bit per tick: bit `tick - minTick` of a number of 4096
bytes. The one bit that no tick owns may be set by raw bytes; it is never found.
-/

namespace TickVault

def bitmapBits : Nat := 8 * bitmapBytes

def tickCount : Nat := 32767

structure TickBitmap where
  bits : Nat
  bounded : bits < 1 <<< bitmapBits
  deriving DecidableEq

namespace TickBitmap

def empty : TickBitmap := ⟨0, Nat.one_shiftLeft _ ▸ Nat.two_pow_pos _⟩

def place (tick : Int) : Nat := (tick - minTick).toNat

theorem place_lt {tick : Int} (checked : checkTick tick = .ok ()) : place tick < bitmapBits := by
  have range := ensure_eq_ok_iff.mp checked
  simp only [place, bitmapBits, bitmapBytes, minTick, maxTick] at *
  omega

theorem or_place_lt {bits : Nat} {tick : Int} (bounded : bits < 1 <<< bitmapBits)
    (checked : checkTick tick = .ok ()) : bits ||| 1 <<< place tick < 1 <<< bitmapBits := by
  rw [Nat.one_shiftLeft] at *
  rw [Nat.one_shiftLeft]
  apply Nat.or_lt_two_pow bounded
  exact Nat.pow_lt_pow_right (by decide) (place_lt checked)

/-- Whether the tick's bit is set, for a tick in range. -/
def Holds (bitmap : TickBitmap) (tick : Int) : Prop :=
  minTick ≤ tick ∧ tick ≤ maxTick ∧ bitmap.bits.testBit (place tick) = true

instance (bitmap : TickBitmap) (tick : Int) : Decidable (bitmap.Holds tick) :=
  inferInstanceAs (Decidable (_ ∧ _ ∧ _))

def isSet (bitmap : TickBitmap) (tick : Int) : Except Fault Bool := do
  checkTick tick
  return bitmap.bits.testBit (place tick)

def set (bitmap : TickBitmap) (tick : Int) : Except Fault TickBitmap :=
  match checked : checkTick tick with
  | .error fault => .error fault
  | .ok () => .ok ⟨bitmap.bits ||| 1 <<< place tick, or_place_lt bitmap.bounded checked⟩

def clear (bitmap : TickBitmap) (tick : Int) : Except Fault TickBitmap := do
  checkTick tick
  if bitmap.bits.testBit (place tick) then
    return ⟨bitmap.bits - 1 <<< place tick,
      Nat.lt_of_le_of_lt (Nat.sub_le _ _) bitmap.bounded⟩
  else return bitmap

/-- The highest set tick strictly below `start`. -/
def below? (bitmap : TickBitmap) (start : Int) : Option Int :=
  let top := min (start - 1) maxTick
  if top < minTick then none
  else
    let window := bitmap.bits % (1 <<< (place top + 1))
    if window = 0 then none else some (minTick + window.log2)

def highest? (bitmap : TickBitmap) : Option Int :=
  bitmap.below? (maxTick + 1)

/-- At most `count` set ticks strictly below `start`, each found from the one before. -/
def descend (bitmap : TickBitmap) : Nat → Int → List Int
  | 0, _ => []
  | count + 1, start =>
    match bitmap.below? start with
    | none => []
    | some tick => tick :: bitmap.descend count tick

def ticksBelow (bitmap : TickBitmap) (start : Int) : List Int :=
  bitmap.descend tickCount start

def ticks (bitmap : TickBitmap) : List Int :=
  bitmap.ticksBelow (maxTick + 1)

end TickBitmap

end TickVault
