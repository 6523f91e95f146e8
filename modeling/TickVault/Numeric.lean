import TickVault.Document.Arithmetic

/-!
The values that records are made of. Most of what a vault does with a value is to keep it, copy it
and compare it; only arithmetic asks which integer it is. So records are written for any type of
values. There are two: integers, and documents as somebody stored them, where a flag counts as its
number, and anything else is refused by most of what computes with it.
-/

namespace TickVault

class Numeric (ν : Type) where
  ofInt : Int → ν
  /-- The integer to compute with. -/
  toInt : ν → Except Fault Int
  /-- Whether two values are the same. -/
  same : ν → ν → Bool
  /-- Whether a value counts as zero. -/
  isZero : ν → Bool
  plus : ν → ν → Except Fault ν
  /-- A running total with one more value. -/
  gather : ν → ν → Except Fault ν
  /-- The product of two values, as an integer to compute with. -/
  times : ν → ν → Except Fault Int
  /-- Whether the first of two values is greater. -/
  exceeds : ν → ν → Except Fault Bool
  /-- A value as the key of a record. -/
  key : ν → Except Fault ν
  /-- Some keys in order. -/
  order : List ν → Except Fault (ν → ν → Bool)
  store : ν → Document
  restore : Document → Except Fault ν

export Numeric (ofInt toInt same isZero plus gather times exceeds key order store restore)

instance : Numeric Int where
  ofInt value := value
  toInt := .ok
  same a b := a = b
  isZero value := value = 0
  plus a b := .ok (a + b)
  gather total more := .ok (total + more)
  times a b := .ok (a * b)
  exceeds a b := .ok (b < a)
  key := .ok
  order _ := .ok fun a b => a ≤ b
  store := .number
  restore := Document.toNumber

namespace Document

def isText : Document → Bool
  | text _ => true
  | _ => false

def textLe : Document → Document → Bool
  | text a, text b => a ≤ b
  | _, _ => true

/-- Keys are ordered if they are all numbers, or all text; one alone needs no order. -/
def orderOf (keys : List Document) : Except Fault (Document → Document → Bool) :=
  if keys.all fun key => key.toNumber?.isSome then
    .ok fun a b => a.toNumber?.getD 0 ≤ b.toNumber?.getD 0
  else if keys.all isText ∨ keys.length ≤ 1 then .ok textLe
  else .error .malformedRecord

end Document

instance : Numeric Document where
  ofInt := .number
  toInt := Document.toNumber
  same := Document.alike
  isZero document := !document.toFlag
  plus := Document.plus
  gather := Document.gather
  times := Document.times
  exceeds := Document.exceeds
  key := Document.toKey
  order := Document.orderOf
  store document := document
  restore := .ok

@[simp] theorem ofInt_int (value : Int) : (ofInt value : Int) = value := rfl

@[simp] theorem toInt_int (value : Int) : toInt value = .ok value := rfl

@[simp] theorem same_int (a b : Int) : same a b = decide (a = b) := rfl

@[simp] theorem isZero_int (value : Int) : isZero value = decide (value = 0) := rfl

@[simp] theorem plus_int (a b : Int) : plus a b = .ok (a + b) := rfl

@[simp] theorem gather_int (total more : Int) : gather total more = .ok (total + more) := rfl

@[simp] theorem times_int (a b : Int) : times a b = .ok (a * b) := rfl

@[simp] theorem exceeds_int (a b : Int) : exceeds a b = .ok (decide (b < a)) := rfl

@[simp] theorem key_int (value : Int) : key value = .ok value := rfl

@[simp] theorem order_int (keys : List Int) : order keys = .ok fun a b => decide (a ≤ b) := rfl

@[simp] theorem store_int (value : Int) : store value = .number value := rfl

@[simp] theorem restore_number (value : Int) : (restore (.number value) : Except Fault Int) =
    .ok value := rfl

/-- How the absence of a tick is written. -/
def coldTick : Int := -2147483648

variable {ν : Type} [Numeric ν]

def readTick (written : ν) : Option ν :=
  if same written (ofInt coldTick) then none else some written

def writeTick (tick : Option ν) : ν :=
  tick.getD (ofInt coldTick)

def sumOf : List ν → Except Fault Int
  | [] => .ok 0
  | value :: rest => do
    let value ← toInt value
    return value + (← sumOf rest)

end TickVault
