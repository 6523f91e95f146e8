import TickVault.Operate
import TickVault.Walk
import TickVault.Proofs.Table

/-!
Work on a state that may fail halfway, taken as part of a call that is all or nothing. `attempt`
reads work that way, and each step of the ledger is worked out here to the checks it makes and the
one ledger it ends in. Amounts are integers from here on.
-/

namespace TickVault

theorem bind_eq_ok {α β : Type} {first : Except Fault α} {next : α → Except Fault β} {b : β} :
    first >>= next = .ok b ↔ ∃ a, first = .ok a ∧ next a = .ok b := by
  cases first <;> simp [bind, Except.bind]

theorem ensure_of {condition : Prop} [Decidable condition] (holds : condition) (fault : Fault) :
    ensure condition fault = .ok () := if_pos holds

theorem ensure_of_not {condition : Prop} [Decidable condition] (fails : ¬ condition)
    (cause : Fault) : ensure condition cause = refuse cause := if_neg fails

theorem map_eq_ok {α β : Type} {first : Except Fault α} {change : α → β} {b : β} :
    first.map change = .ok b ↔ ∃ a, first = .ok a ∧ change a = b := by
  cases first <;> simp [Except.map]

@[simp] theorem map_ok {α β : Type} (change : α → β) (a : α) :
    (Except.ok a : Except Fault α).map change = .ok (change a) := rfl

@[simp] theorem map_error {α β : Type} (change : α → β) (fault : Fault) :
    (Except.error fault : Except Fault α).map change = .error fault := rfl

@[simp] theorem error_bind {α β : Type} (fault : Fault) (next : α → Except Fault β) :
    (Except.error fault >>= next) = .error fault := rfl

@[simp] theorem map_refuse {α β : Type} (change : α → β) (cause : Fault) :
    (refuse cause : Except Fault α).map change = refuse cause := rfl

@[simp] theorem map_ofInt_int (written : Option Int) : written.map ofInt = written := by
  cases written <;> rfl

@[simp] theorem pure_eq_ok {α : Type} (a : α) : (pure a : Except Fault α) = .ok a := rfl

section Steps

variable {σ α β : Type} (state : σ)

/-- Work on a state as part of a call: it answers and leaves a state behind, or nothing at all. -/
def attempt (state : σ) (work : ExceptT Fault (StateM σ) α) : Except Fault (α × σ) :=
  match work.run.run state with
  | (.ok answer, after) => .ok (answer, after)
  | (.error fault, _) => .error fault

@[simp] theorem attempt_pure (a : α) : attempt state (pure a) = .ok (a, state) := rfl

@[simp] theorem attempt_bind (first : ExceptT Fault (StateM σ) α)
    (next : α → ExceptT Fault (StateM σ) β) :
    attempt state (first >>= next) =
      attempt state first >>= fun done => attempt done.2 (next done.1) := by
  simp only [attempt, bind, ExceptT.bind, ExceptT.run, ExceptT.mk, StateT.run, StateT.bind,
    ExceptT.bindCont, Except.bind]
  cases run : first state with
  | mk answer after => cases answer <;> rfl

@[simp] theorem attempt_map (change : α → β) (work : ExceptT Fault (StateM σ) α) :
    attempt state (change <$> work) =
      (attempt state work).map fun done => (change done.1, done.2) := by
  rw [← bind_pure_comp, attempt_bind]
  cases attempt state work <;> rfl

@[simp] theorem attempt_get :
    attempt state (get : ExceptT Fault (StateM σ) σ) = .ok (state, state) := rfl

@[simp] theorem attempt_modify (change : σ → σ) :
    attempt state (modify change : ExceptT Fault (StateM σ) Unit) = .ok ((), change state) := rfl

@[simp] theorem attempt_lift (work : Except Fault α) :
    attempt state (liftM work : ExceptT Fault (StateM σ) α) = work.map fun a => (a, state) := by
  cases work <;> rfl

@[simp] theorem attempt_ite (condition : Prop) [Decidable condition]
    (first second : ExceptT Fault (StateM σ) α) :
    attempt state (if condition then first else second) =
      if condition then attempt state first else attempt state second := by
  split <;> rfl

theorem attempt_eq_ok_iff {state after : σ} {work : ExceptT Fault (StateM σ) α} {a : α} :
    attempt state work = .ok (a, after) ↔ work.run.run state = (.ok a, after) := by
  unfold attempt
  split <;> rename_i run <;> rw [run] <;> constructor <;> intro same <;> cases same <;> rfl

end Steps

namespace Ledger

/-- The record of a tick; an empty one for a tick that was never used. -/
def tickAt (ledger : Ledger Int) (tick : Int) : TickRecord Int :=
  (ledger.ticks.get? tick).getD (.fresh tick)

def put (ledger : Ledger Int) (tick : Int) (record : TickRecord Int) : Ledger Int :=
  { ledger with ticks := ledger.ticks.insert tick record }

@[simp] theorem peek?_int (ledger : Ledger Int) (tick : Int) :
    ledger.peek? tick = .ok (ledger.ticks.get? tick) := rfl

@[simp] theorem recordD_int (ledger : Ledger Int) (tick : Int) :
    ledger.recordD tick = .ok (ledger.tickAt tick) := rfl

@[simp] theorem tickAt_put (ledger : Ledger Int) (tick t : Int) (record : TickRecord Int) :
    (ledger.put tick record).tickAt t = if tick = t then record else ledger.tickAt t := by
  simp only [tickAt, put, Table.get?_insert]
  split <;> rfl

@[simp] theorem put_put (ledger : Ledger Int) (tick : Int) (a b : TickRecord Int) :
    (ledger.put tick a).put tick b = ledger.put tick b := by
  simp [put, Table.insert_insert]

@[simp] theorem put_bitmap (ledger : Ledger Int) (tick : Int) (record : TickRecord Int) :
    (ledger.put tick record).bitmap = ledger.bitmap := rfl

@[simp] theorem put_branches (ledger : Ledger Int) (tick : Int) (record : TickRecord Int) :
    (ledger.put tick record).branches = ledger.branches := rfl

theorem tickAt_of_get? {ledger : Ledger Int} {tick : Int} {record : TickRecord Int}
    (known : ledger.ticks.get? tick = some record) : ledger.tickAt tick = record := by
  simp [tickAt, known]

variable (ledger : Ledger Int) (tick : Int)

@[simp] theorem attempt_putRecord (record : TickRecord Int) :
    attempt ledger (putRecord tick record) = .ok ((), ledger.put tick record) := rfl

@[simp] theorem attempt_record :
    attempt ledger (record tick) =
      .ok (ledger.tickAt tick, ledger.put tick (ledger.tickAt tick)) := by
  simp only [record, attempt_bind, attempt_get, ok_bind, peek?_int, attempt_lift]
  cases known : ledger.ticks.get? tick with
  | none => simp [known, tickAt]
  | some found =>
    have kept : ledger.put tick found = ledger := by
      simp [put, Table.insert_of_get? known]
    simp [tickAt, known, kept]

@[simp] theorem attempt_onBranches (step : BranchLedger Int → Except Fault (BranchLedger Int)) :
    attempt ledger (onBranches step) =
      (step ledger.branches).map fun branches => ((), { ledger with branches }) := by
  simp only [onBranches, attempt_bind, attempt_get, ok_bind, attempt_lift]
  cases step ledger.branches <;> rfl

@[simp] theorem attempt_setBit :
    attempt ledger (setBit tick) =
      (ledger.bitmap.set tick).map fun bitmap => ((), { ledger with bitmap }) := by
  simp only [setBit, onBitmap, toInt_int, attempt_bind, attempt_get, ok_bind, attempt_lift,
    map_ok]
  cases ledger.bitmap.set tick <;> rfl

@[simp] theorem attempt_clearBit :
    attempt ledger (clearBit tick) =
      (ledger.bitmap.clear tick).map fun bitmap => ((), { ledger with bitmap }) := by
  simp only [clearBit, onBitmap, toInt_int, attempt_bind, attempt_get, ok_bind, attempt_lift,
    map_ok]
  cases ledger.bitmap.clear tick <;> rfl

@[simp] theorem attempt_releaseTick (branch : Int) (liquidated : Bool) :
    attempt ledger (releaseTick branch liquidated) =
      (ledger.branches.release branch liquidated).map fun released =>
        (released.1, { ledger with branches := released.2 }) := by
  simp only [releaseTick, attempt_bind, attempt_get, ok_bind, attempt_lift]
  cases ledger.branches.release branch liquidated <;> rfl

end Ledger

theorem Vault.onLedger_eq {α : Type} (vault : Vault Int) (step : LedgerM Int α) :
    vault.onLedger step =
      (attempt vault.ledger step).map fun done => (done.1, { vault with ledger := done.2 }) := by
  unfold onLedger attempt
  split <;> rename_i run <;> simp [run]

end TickVault
