import TickVault.Document.Reading

/-!
Computing with stored documents. Numbers and flags are added, multiplied and compared as integers.
Text goes with text and a list with a list: their sum is the one followed by the other, and they are
compared from the front. Everything else is refused.
-/

namespace TickVault.Document

def plus : Document → Document → Except Fault Document
  | text a, text b => .ok (text (a ++ b))
  | list a, list b => .ok (list (a ++ b))
  | a, b => do return number ((← a.toNumber) + (← b.toNumber))

/-- A running total with one more value. A total that is a list takes in the items of whatever has
items. -/
def gather : Document → Document → Except Fault Document
  | list items, more => do return list (items ++ (← more.items))
  | total, more => total.plus more

mutual

def exceeds : Document → Document → Except Fault Bool
  | text a, text b => .ok (b < a)
  | list items, list others => itemsExceed items others
  | a, b => do return decide ((← b.toNumber) < (← a.toNumber))

def itemsExceed : List Document → List Document → Except Fault Bool
  | [], _ => .ok false
  | _ :: _, [] => .ok true
  | item :: rest, other :: others =>
    if alike item other then itemsExceed rest others else exceeds item other

end

def maxItems : Int := 0x1000000000

/-- What is wrong with a document a number of times, when it is no number itself. Copies of text or
of a list are no number either, and there may be too many of them to be counted by a signed integer
of 64 bits, or to be made. -/
def copiesFault (document : Document) (count : Int) : Fault :=
  let counted := -wordBound ≤ count ∧ count < wordBound
  match document with
  | text value =>
    let length := value.length * count
    if !counted ∨ wordBound ≤ length then .tooManyCopies
    else if maxItems < length then .outOfMemory
    else .malformedRecord
  | list items =>
    if !counted then .tooManyCopies
    else if maxItems < items.length * count then .outOfMemory
    else .malformedRecord
  | _ => .malformedRecord

def times (a b : Document) : Except Fault Int :=
  match a.toNumber?, b.toNumber? with
  | some m, some n => .ok (m * n)
  | none, some count => .error (a.copiesFault count)
  | some count, none => .error (b.copiesFault count)
  | none, none => .error .malformedRecord

end TickVault.Document
