import TickVault.Tick.Bitmap

/-!
The bitmap as bytes. Its 4096 bytes form 16 arrays of 8 maps of 32 bytes; a map is written as hex
text, lowest byte first. A segment is a map that is not all zero.
-/

namespace TickVault

def arrayBytes : Nat := 256

def arrayIndex (tick : Int) : Int :=
  (tick - minTick) / 2048

def firstTickOfArray (array : Int) : Int :=
  minTick + array * 2048

def firstTickOfMap (array map : Int) : Int :=
  firstTickOfArray array + map * 256

def tickIndices (tick : Int) : Except Fault (List Int) := do
  checkTick tick
  let offset := tick - minTick
  return [offset / 2048, offset % 2048 / 256, offset % 256 / 8, offset % 8]

def toBytes : Nat → Nat → List UInt8
  | 0, _ => []
  | count + 1, value => UInt8.ofNat value :: toBytes count (value / 256)

def ofBytes : List UInt8 → Nat
  | [] => 0
  | byte :: rest => byte.toNat + 256 * ofBytes rest

theorem ofBytes_lt (bytes : List UInt8) : ofBytes bytes < 1 <<< (8 * bytes.length) := by
  rw [Nat.one_shiftLeft]
  induction bytes with
  | nil => simp [ofBytes]
  | cons byte rest ih =>
    have small := byte.toNat_lt
    have scaled : 2 ^ (8 * (byte :: rest).length) = 256 * 2 ^ (8 * rest.length) := by
      rw [List.length_cons, Nat.mul_succ, Nat.pow_add, Nat.mul_comm]
    rw [scaled, ofBytes]
    omega

namespace Hex

def digit (n : Nat) : Char :=
  Nat.digitChar n

def encode (bytes : List UInt8) : String :=
  String.ofList (bytes.flatMap fun byte => [digit (byte.toNat / 16), digit (byte.toNat % 16)])

def value? (c : Char) : Option Nat :=
  if '0' ≤ c ∧ c ≤ '9' then some (c.toNat - '0'.toNat)
  else if 'a' ≤ c ∧ c ≤ 'f' then some (c.toNat - 'a'.toNat + 10)
  else if 'A' ≤ c ∧ c ≤ 'F' then some (c.toNat - 'A'.toNat + 10)
  else none

def isBlank (c : Char) : Bool :=
  c = ' ' || (9 ≤ c.toNat && c.toNat ≤ 13)

/-- Pairs of digits in either case; blanks may stand between pairs, not inside one. -/
def decodeChars : List Char → Option (List UInt8)
  | [] => some []
  | [c] => if isBlank c then some [] else none
  | high :: low :: rest =>
    if isBlank high then decodeChars (low :: rest)
    else do
      let upper ← value? high
      let lower ← value? low
      let bytes ← decodeChars rest
      return UInt8.ofNat (16 * upper + lower) :: bytes

def decode (text : String) : Except Fault (List UInt8) :=
  match decodeChars text.toList with
  | some bytes => .ok bytes
  | none => .error .notHex

end Hex

structure ByteRun where
  size : Nat
  bits : Nat
  deriving DecidableEq

namespace ByteRun

/-- A position held inside the run; a negative one counts from the end. -/
def clamp (run : ByteRun) (position : Int) : Nat :=
  if position < 0 then (position + run.size).toNat else min position.toNat run.size

/-- Puts bytes in place of those from `first` up to `last`, or in between where there are none. -/
def splice (run : ByteRun) (first last : Nat) (bytes : List UInt8) : ByteRun :=
  let low := run.bits % (1 <<< (8 * first))
  let high := run.bits >>> (8 * last)
  { size := first + bytes.length + (run.size - last)
    bits := low + (ofBytes bytes + high <<< (8 * bytes.length)) <<< (8 * first) }

/-- Puts a map at its place. A place past the end is appended. A place that starts below zero but
does not end there starts near the end of the run and ends near its front: the map is put in at its
start, and nothing is replaced. -/
def loadSegment (run : ByteRun) (array map : Int) (bytes : List UInt8) : Except Fault ByteRun :=
  if bytes.length ≠ mapBytes then .error .segmentSize
  else
    let place := array * arrayBytes + map * mapBytes
    let first := run.clamp place
    .ok (run.splice first (max first (run.clamp (place + mapBytes))) bytes)

end ByteRun

namespace TickBitmap

def ofBytes? (bytes : List UInt8) : Except Fault TickBitmap :=
  if size : bytes.length = bitmapBytes then
    .ok ⟨ofBytes bytes, by rw [bitmapBits, ← size]; exact ofBytes_lt bytes⟩
  else refuse (.bitmapSize bytes.length)

def map (bitmap : TickBitmap) (array map : Nat) : List UInt8 :=
  toBytes mapBytes (bitmap.bits >>> (8 * (array * arrayBytes + map * mapBytes)))

def arrayHasDebt (bitmap : TickBitmap) (array : Nat) : Bool :=
  (bitmap.bits >>> (8 * (array * arrayBytes))) % (1 <<< (8 * arrayBytes)) != 0

def segments (bitmap : TickBitmap) : List (Nat × Nat × List UInt8) :=
  (List.range 16).flatMap fun array =>
    ((List.range 8).map fun index => (array, index, bitmap.map array index)).filter
      fun segment => segment.2.2.any (· != 0)

def run (bitmap : TickBitmap) : ByteRun := ⟨bitmapBytes, bitmap.bits⟩

def ofRun (run : ByteRun) : TickBitmap :=
  ⟨run.bits % (1 <<< bitmapBits), Nat.mod_lt _ (Nat.one_shiftLeft _ ▸ Nat.two_pow_pos _)⟩

def loadSegment (bitmap : TickBitmap) (array map : Int) (bytes : List UInt8) :
    Except Fault TickBitmap :=
  ofRun <$> bitmap.run.loadSegment array map bytes

end TickBitmap

end TickVault
