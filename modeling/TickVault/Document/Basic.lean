namespace TickVault

inductive Document where
  | null
  | flag (value : Bool)
  | number (value : Int)
  | text (value : String)
  | list (items : List Document)
  | record (fields : List (String × Document))

namespace Document

mutual

def decEq : (a b : Document) → Decidable (a = b)
  | null, null => isTrue rfl
  | flag a, flag b => decidable_of_iff (a = b) (by simp)
  | number a, number b => decidable_of_iff (a = b) (by simp)
  | text a, text b => decidable_of_iff (a = b) (by simp)
  | list a, list b =>
    match decEqItems a b with
    | isTrue same => isTrue (congrArg list same)
    | isFalse differ => isFalse fun same => differ (list.inj same)
  | record a, record b =>
    match decEqFields a b with
    | isTrue same => isTrue (congrArg record same)
    | isFalse differ => isFalse fun same => differ (record.inj same)
  | null, flag _ | null, number _ | null, text _ | null, list _ | null, record _
  | flag _, null | flag _, number _ | flag _, text _ | flag _, list _ | flag _, record _
  | number _, null | number _, flag _ | number _, text _ | number _, list _ | number _, record _
  | text _, null | text _, flag _ | text _, number _ | text _, list _ | text _, record _
  | list _, null | list _, flag _ | list _, number _ | list _, text _ | list _, record _
  | record _, null | record _, flag _ | record _, number _ | record _, text _
  | record _, list _ => isFalse (by simp)

def decEqItems : (a b : List Document) → Decidable (a = b)
  | [], [] => isTrue rfl
  | [], _ :: _ | _ :: _, [] => isFalse (by simp)
  | a :: as, b :: bs =>
    match decEq a b, decEqItems as bs with
    | isTrue head, isTrue tail => isTrue (by rw [head, tail])
    | isFalse differ, _ => isFalse fun same => differ (List.cons.inj same).1
    | _, isFalse differ => isFalse fun same => differ (List.cons.inj same).2

def decEqFields : (a b : List (String × Document)) → Decidable (a = b)
  | [], [] => isTrue rfl
  | [], _ :: _ | _ :: _, [] => isFalse (by simp)
  | (key, a) :: as, (other, b) :: bs =>
    if name : key = other then
      match decEq a b, decEqFields as bs with
      | isTrue head, isTrue tail => isTrue (by rw [name, head, tail])
      | isFalse differ, _ => isFalse fun same => differ (Prod.mk.inj (List.cons.inj same).1).2
      | _, isFalse differ => isFalse fun same => differ (List.cons.inj same).2
    else isFalse fun same => name (Prod.mk.inj (List.cons.inj same).1).1

end

instance : DecidableEq Document := decEq

def findField (name : String) : List (String × Document) → Option Document
  | [] => none
  | (key, value) :: rest => if key = name then some value else findField name rest

def putField (name : String) (value : Document) :
    List (String × Document) → List (String × Document)
  | [] => [(name, value)]
  | (key, old) :: rest =>
    if key = name then (key, value) :: rest else (key, old) :: putField name value rest

def keys : Document → List String
  | record fields => fields.map Prod.fst
  | _ => []

def field? (document : Document) (name : String) : Option Document :=
  match document with
  | record fields => findField name fields
  | _ => none

end Document

end TickVault
