import TickVault.Fault

/-!
Taking documents apart: the steps down into one, edits at the end of a path, and the values that
its fields hold. A number may be stored as a flag, which counts as one or zero, and a flag as
anything, of which only nothing, zero and what is empty count as false.
-/

namespace TickVault

inductive Step where
  | key (name : String)
  | index (place : Int)

inductive Edit where
  | put (value : Document)
  | delete

def placeOf (length : Nat) (index : Int) : Except Fault Nat :=
  let place := if index < 0 then index + length else index
  if 0 ≤ place ∧ place < length then .ok place.toNat else .error .indexOutOfRange

namespace Document

def field (document : Document) (name : String) : Except Fault Document :=
  match document with
  | record fields =>
    match findField name fields with
    | some value => .ok value
    | none => .error (.missingKey name)
  | _ => .error .malformedRecord

def item (document : Document) (index : Int) : Except Fault Document :=
  match document with
  | list items => do return items.getD (← placeOf items.length index) null
  | text value => do
    let place ← placeOf value.length index
    return text ((value.toList.drop place).take 1 |> String.ofList)
  | record _ => .error (.missingKey (toString index))
  | _ => .error .malformedRecord

def child (document : Document) : Step → Except Fault Document
  | .key name => document.field name
  | .index place => document.item place

def putChild (document : Document) (step : Step) (value : Document) : Except Fault Document :=
  match document, step with
  | record fields, .key name => .ok (record (putField name value fields))
  | record fields, .index place => .ok (record (putField (toString place) value fields))
  | list items, .index place =>
    if place = items.length then .ok (list (items ++ [value]))
    else do return list (items.set (← placeOf items.length place) value)
  | _, _ => .error .malformedRecord

def deleteChild (document : Document) (step : Step) : Except Fault Document :=
  match document, step with
  | record fields, .key name => do
    let _ ← document.field name
    return record (fields.filter fun field => field.1 ≠ name)
  | record _, .index place => .error (.missingKey (toString place))
  | list items, .index place => do return list (items.eraseIdx (← placeOf items.length place))
  | _, _ => .error .malformedRecord

def edit (change : Edit) : List Step → Document → Except Fault Document
  | [], _ =>
    match change with
    | .put value => .ok value
    | .delete => .error .malformedRecord
  | [step], document =>
    match change with
    | .put value => document.putChild step value
    | .delete => document.deleteChild step
  | step :: path, document => do
    document.putChild step (← edit change path (← document.child step))

def editAll (document : Document) (edits : List (List Step × Edit)) : Except Fault Document :=
  edits.foldlM (fun document (path, change) => document.edit change path) document

def items : Document → Except Fault (List Document)
  | list items => .ok items
  | record fields => .ok (fields.map fun field => text field.1)
  | text value => .ok (value.toList.map fun c => text (String.ofList [c]))
  | _ => .error .malformedRecord

def toNumber? : Document → Option Int
  | number value => some value
  | flag value => some (if value then 1 else 0)
  | _ => none

def toNumber (document : Document) : Except Fault Int :=
  match document.toNumber? with
  | some value => .ok value
  | none => .error .malformedRecord

def toText : Document → Except Fault String
  | text value => .ok value
  | _ => .error .malformedRecord

def toFlag : Document → Bool
  | null => false
  | flag value => value
  | number value => value ≠ 0
  | text value => !value.isEmpty
  | list items => !items.isEmpty
  | record fields => !fields.isEmpty

mutual

/-- Whether two documents have the same value: a flag that of its number, and a record that of its
fields in any order. -/
def alike : Document → Document → Bool
  | null, null => true
  | flag a, other => other.toNumber? = some (if a then 1 else 0)
  | number a, other => other.toNumber? = some a
  | text a, text b => a = b
  | list items, list others => alikeItems items others
  | record fields, record others => fields.length = others.length && alikeFields fields others
  | _, _ => false

def alikeItems : List Document → List Document → Bool
  | [], [] => true
  | item :: rest, other :: others => alike item other && alikeItems rest others
  | _, _ => false

def alikeFields : List (String × Document) → List (String × Document) → Bool
  | [], _ => true
  | (name, value) :: rest, others =>
    (match findField name others with
    | some other => alike value other
    | none => false) && alikeFields rest others

end

/-- The document as a key: a flag is the same key as its number, and neither a list nor a record is
one. -/
def toKey : Document → Except Fault Document
  | flag value => .ok (number (if value then 1 else 0))
  | list _ | record _ => .error .malformedRecord
  | document => .ok document

def fieldD (document : Document) (name : String) (default : Document) : Document :=
  (document.field? name).getD default

def conform (document sample : Document) (required : List String) : Except Fault Unit :=
  match document with
  | record fields =>
    let keys := fields.map Prod.fst
    ensure ((∀ key ∈ keys, key ∈ sample.keys) ∧ ∀ key ∈ required, key ∈ keys) .malformedRecord
  | _ => .error .malformedRecord

end Document

end TickVault
