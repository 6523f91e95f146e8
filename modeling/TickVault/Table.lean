namespace TickVault

structure Table (κ : Type) (α : Type) where
  entries : List (κ × α)
  deriving DecidableEq

namespace Table

variable {κ α : Type} [DecidableEq κ]

def empty : Table κ α := ⟨[]⟩

instance : EmptyCollection (Table κ α) := ⟨empty⟩

def find (key : κ) : List (κ × α) → Option α
  | [] => none
  | (k, a) :: rest => if k = key then some a else find key rest

def put (key : κ) (a : α) : List (κ × α) → List (κ × α)
  | [] => [(key, a)]
  | (k, b) :: rest => if k = key then (k, a) :: rest else (k, b) :: put key a rest

def get? (table : Table κ α) (key : κ) : Option α :=
  find key table.entries

def insert (table : Table κ α) (key : κ) (a : α) : Table κ α :=
  ⟨put key a table.entries⟩

def contains (table : Table κ α) (key : κ) : Bool :=
  (table.get? key).isSome

def values (table : Table κ α) : List α :=
  table.entries.map Prod.snd

def keys (table : Table κ α) : List κ :=
  table.entries.map Prod.fst

def size (table : Table κ α) : Nat :=
  table.entries.length

def sortedBy (le : κ → κ → Bool) (table : Table κ α) : List α :=
  (table.entries.mergeSort fun a b => le a.1 b.1).map Prod.snd

theorem find_put (key other : κ) (a : α) (entries : List (κ × α)) :
    find other (put key a entries) = if key = other then some a else find other entries := by
  induction entries with
  | nil => simp [put, find]
  | cons entry rest ih =>
    obtain ⟨k, b⟩ := entry
    by_cases known : k = key
    · subst known
      by_cases same : k = other <;> simp [put, find, same]
    · by_cases same : k = other
      · subst same
        simp [put, find, known, Ne.symm known]
      · simp [put, find, known, same, ih]

@[simp] theorem get?_insert (table : Table κ α) (key other : κ) (a : α) :
    (table.insert key a).get? other = if key = other then some a else table.get? other :=
  find_put key other a table.entries

@[simp] theorem get?_empty (key : κ) : (empty : Table κ α).get? key = none := rfl

end Table

end TickVault
