import TickVault.Fault

namespace TickVault.Binary64

/-- The quotient rounded to the nearest integer, a tie to the even one. -/
def roundQuotient (n d : Nat) : Nat :=
  let quotient := n / d
  let twice := 2 * (n % d)
  if twice > d ∨ (twice = d ∧ quotient % 2 = 1) then quotient + 1 else quotient

def roundScaled (n d : Nat) (exponent : Int) : Nat :=
  if exponent < 0 then roundQuotient (n <<< exponent.natAbs) d
  else roundQuotient n (d <<< exponent.natAbs)

/-- The largest exponent with `2 ^ exponent ≤ n / d`, for positive `n` and `d`. -/
def magnitude (n d : Nat) : Int :=
  let guess : Int := n.log2 - d.log2
  let reached :=
    if guess < 0 then d ≤ n <<< guess.natAbs else d <<< guess.natAbs ≤ n
  if reached then guess else guess - 1

/-- The bits of `n / d` for positive `n` and `d`. A significand that rounds up to a power of two
carries into the exponent. -/
def quotientBits (n d : Nat) : Nat :=
  let exponent := max (magnitude n d - 52) (-1074)
  (exponent + 1074).toNat <<< 52 + roundScaled n d exponent

def infinityBits : Nat := 0x7ff <<< 52

def signBit : Nat := 1 <<< 63

def ofBits (bits : Nat) : Float :=
  Float.ofBits (UInt64.ofNat bits)

def ofQuotient? (n d : Int) : Option Float :=
  if n = 0 then some (ofBits 0)
  else
    let bits := quotientBits n.natAbs d.natAbs
    if bits ≥ infinityBits then none
    else some (ofBits (if decide (n < 0) = decide (d < 0) then bits else signBit + bits))

def ofQuotient (n d : Int) : Except Fault Float :=
  if d = 0 then .error .divisionByZero
  else
    match ofQuotient? n d with
    | some number => .ok number
    | none => .error .quotientTooLarge

def ofInt (n : Int) : Except Fault Float :=
  match ofQuotient? n 1 with
  | some number => .ok number
  | none => .error .integerTooLarge

def truncate (number : Float) : Except Fault Int :=
  let bits := number.toBits.toNat
  let field := (bits >>> 52) % (1 <<< 11)
  let fraction := bits % (1 <<< 52)
  if field = 0x7ff then .error (if fraction = 0 then .infinityToInteger else .nanToInteger)
  else
    let significand := if field = 0 then fraction else (1 <<< 52) + fraction
    let exponent : Int := (max field 1 : Nat) - 1075
    let whole : Nat :=
      if exponent < 0 then significand >>> exponent.natAbs
      else significand <<< exponent.natAbs
    .ok (if bits ≥ signBit then -(whole : Int) else whole)

def divide (a b : Float) : Except Fault Float :=
  if b == 0 then .error .divisionByZero else .ok (a / b)

end TickVault.Binary64
