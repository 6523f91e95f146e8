import TickVault.Document.Basic
import TickVault.Limits
import TickVault.Text.Printable

namespace TickVault

namespace Text

def singleMark : Char := '\x27'

def doubleMark : Char := '\x22'

def backslash : Char := '\x5c'

def hexDigits : Nat → Nat → List Char
  | 0, _ => []
  | count + 1, n => hexDigits count (n / 16) ++ [Nat.digitChar (n % 16)]

def byNumber (c : Char) : List Char :=
  let n := c.toNat
  if n < 0x100 then 'x' :: hexDigits 2 n
  else if n < 0x10000 then 'u' :: hexDigits 4 n
  else 'U' :: hexDigits 8 n

def escape (mark c : Char) : List Char :=
  if c = mark || c = backslash then [backslash, c]
  else if c = '\n' then [backslash, 'n']
  else if c = '\r' then [backslash, 'r']
  else if c = '\t' then [backslash, 't']
  else if isPrintable c then [c]
  else backslash :: byNumber c

/-- The mark that saves escapes; a single one where that makes no difference. -/
def markFor (text : List Char) : Char :=
  if singleMark ∈ text ∧ doubleMark ∉ text then doubleMark else singleMark

def quote (text : String) : String :=
  let mark := markFor text.toList
  String.ofList (mark :: text.toList.flatMap (escape mark) ++ [mark])

end Text

-- Irreducible, so that no unification works the power out.
@[irreducible] def isWritable (n : Int) : Bool :=
  decide (n.natAbs < Nat.pow 10 maxDigits)

theorem isWritable_iff {n : Int} : isWritable n ↔ n.natAbs < Nat.pow 10 maxDigits := by
  unfold isWritable
  exact decide_eq_true_iff

theorem isWritable_tick {tick : Int} (low : minTick ≤ tick) (high : tick ≤ maxTick) :
    isWritable tick := by
  have small : tick.natAbs < 10 ^ 5 := by
    simp only [minTick, maxTick] at low high
    omega
  have enough : 5 ≤ maxDigits := by decide
  rw [isWritable_iff]
  -- Only the order of the exponents matters, and the power is not to be worked out.
  generalize maxDigits = digits at enough ⊢
  exact Nat.lt_of_lt_of_le small (Nat.pow_le_pow_right (by decide) enough)

def flagText (flag : Bool) : String :=
  if flag then "True" else "False"

namespace Document

mutual

def innerWording : Document → String
  | null => "None"
  | flag value => flagText value
  | number value => toString value
  | text value => Text.quote value
  | list items => "[" ++ String.intercalate ", " (itemWordings items) ++ "]"
  | record fields => "\x7b" ++ String.intercalate ", " (fieldWordings fields) ++ "\x7d"

def itemWordings : List Document → List String
  | [] => []
  | item :: rest => innerWording item :: itemWordings rest

def fieldWordings : List (String × Document) → List String
  | [] => []
  | (key, value) :: rest => (Text.quote key ++ ": " ++ innerWording value) :: fieldWordings rest

end

def wording : Document → String
  | text value => value
  | document => document.innerWording

mutual

def integers : Document → List Int
  | null => []
  | flag _ => []
  | number value => [value]
  | text _ => []
  | list items => itemIntegers items
  | record fields => fieldIntegers fields

def itemIntegers : List Document → List Int
  | [] => []
  | item :: rest => integers item ++ itemIntegers rest

def fieldIntegers : List (String × Document) → List Int
  | [] => []
  | (_, value) :: rest => integers value ++ fieldIntegers rest

end

end Document

end TickVault
