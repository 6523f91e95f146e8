import TickVault.Numeric

/-!
Amounts are integers: raw amounts inside the vault, token amounts at its border. A token amount is
a raw amount times an exchange price over `priceScale`. Every conversion rounds against the
position: what comes in rounds down, what is owed rounds up.
-/

namespace TickVault

def priceScale : Int := 1000000000000

/-- Oracle rates, debt per collateral, are multiples of `1 / rateScale`. -/
def rateScale : Int := 1000000000000000

/-- Shared factors of ticks and branches are multiples of `1 / factorScale`. -/
def factorScale : Int := 1000000000000000000000000000

def ratioScale : Int := 281474976710656

def checkedAdd (a b : Int) : Except Fault Int :=
  if a + b > maxAmount then .error .additionOverflow else .ok (a + b)

def checkedSub {ν : Type} [Numeric ν] (account : Account) (held : ν) (taken : Int) :
    Except Fault Int := do
  let amount ← toInt held
  ensure (taken ≤ amount) (.subtractionUnderflow account (store held) taken)
  return amount - taken

def floorDiv (a b : Int) : Except Fault Int :=
  if b = 0 then .error .divisionByZero else .ok (a.fdiv b)

def ceilDiv (a b : Int) : Except Fault Int :=
  if b = 0 then .error .zeroDivisor else .ok (-((-a).fdiv b))

def toRawDown (amount price : Int) : Except Fault Int :=
  floorDiv (amount * priceScale) price

def toRawUp (amount price : Int) : Except Fault Int :=
  ceilDiv (amount * priceScale) price

def toAmountDown (raw price : Int) : Int :=
  raw * price / priceScale

def toAmountUp (raw price : Int) : Int :=
  -(-(raw * price) / priceScale)

def readAmountDown {ν : Type} [Numeric ν] (raw : ν) (price : Int) : Except Fault Int := do
  return (← times raw (ofInt price)) / priceScale

@[simp] theorem readAmountDown_int (raw price : Int) :
    readAmountDown raw price = .ok (toAmountDown raw price) := rfl

theorem checkedAdd_ok {a b sum : Int} (done : checkedAdd a b = .ok sum) :
    a + b ≤ maxAmount ∧ sum = a + b := by
  unfold checkedAdd at done
  split at done <;> cases done
  exact ⟨Int.not_lt.mp ‹_›, rfl⟩

theorem checkedSub_eq_ok {account : Account} {held taken : Int} (covered : taken ≤ held) :
    checkedSub account held taken = .ok (held - taken) := by
  simp [checkedSub, ensure, covered, Functor.map, Except.map]

theorem checkedSub_ok {account : Account} {held taken left : Int}
    (done : checkedSub account held taken = .ok left) : taken ≤ held ∧ left = held - taken := by
  by_cases covered : taken ≤ held
  · rw [checkedSub_eq_ok covered] at done
    exact ⟨covered, (Except.ok.inj done).symm⟩
  · simp [checkedSub, ensure, covered, refuse, Functor.map, Except.map] at done

theorem floorDiv_ok {a b quotient : Int} (done : floorDiv a b = .ok quotient) :
    b ≠ 0 ∧ quotient = a.fdiv b := by
  unfold floorDiv at done
  split at done <;> cases done
  exact ⟨‹_›, rfl⟩

theorem floorDiv_of_pos {a b : Int} (positive : 0 < b) : floorDiv a b = .ok (a / b) := by
  simp [floorDiv, Int.ne_of_gt positive, Int.fdiv_eq_ediv_of_nonneg a (Int.le_of_lt positive)]

theorem ceilDiv_of_pos {a b : Int} (positive : 0 < b) : ceilDiv a b = .ok (-(-a / b)) := by
  simp [ceilDiv, Int.ne_of_gt positive, Int.fdiv_eq_ediv_of_nonneg (-a) (Int.le_of_lt positive)]

end TickVault
