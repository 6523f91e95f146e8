import TickVault.Proofs.Ledger.Attempt

namespace TickVault

namespace TickRecord

def grown (record : TickRecord Int) (debt collateral branch : Int) : TickRecord Int :=
  { record with
    rawDebt := record.rawDebt + debt
    rawCollateral := record.rawCollateral + collateral
    branch := if record.rawDebt = 0 ∧ 0 < record.rawDebt + debt then branch else record.branch }

def shrunk (record : TickRecord Int) (debt collateral : Int) : TickRecord Int :=
  let left :=
    { record with
      rawDebt := record.rawDebt - debt
      rawCollateral := record.rawCollateral - min collateral record.rawCollateral }
  if 0 < record.rawDebt ∧ debt = record.rawDebt then left.vacated else left

def reduced (record : TickRecord Int) (debt collateral branch : Int) : TickRecord Int :=
  { record with
    debtFactor := (record.debtFactor * (record.rawDebt - debt)).fdiv record.rawDebt
    rawDebt := record.rawDebt - debt
    rawCollateral := record.rawCollateral - collateral
    liquidationBranch := branch
    liquidatedDebtLeft := record.rawDebt - debt
    liquidatedCollateralLeft := record.rawCollateral - collateral }

def entry (record : TickRecord Int) (branch : Int) : Int × Int :=
  if record.liquidationBranch = branch then
    (max (record.rawDebt - record.liquidatedDebtLeft) 0,
      max (record.rawCollateral - record.liquidatedCollateralLeft) 0)
  else (record.rawDebt, record.rawCollateral)

section Fields

variable (record : TickRecord Int) (debt collateral branch : Int)

@[simp] theorem shrunk_rawDebt :
    (record.shrunk debt collateral).rawDebt = record.rawDebt - debt := by
  simp only [shrunk]
  split <;> rfl

@[simp] theorem shrunk_tick : (record.shrunk debt collateral).tick = record.tick := by
  simp only [shrunk]
  split <;> rfl

@[simp] theorem shrunk_debtFactor :
    (record.shrunk debt collateral).debtFactor = record.debtFactor := by
  simp only [shrunk]
  split <;> rfl

@[simp] theorem shrunk_totalIds : (record.shrunk debt collateral).totalIds = record.totalIds := by
  simp only [shrunk]
  split <;> rfl

@[simp] theorem shrunk_liquidatedSlot :
    (record.shrunk debt collateral).liquidatedSlot = record.liquidatedSlot := by
  simp only [shrunk]
  split <;> rfl

@[simp] theorem shrunk_occupants :
    (record.shrunk debt collateral).occupants = record.occupants := by
  simp only [shrunk]
  split <;> rfl

@[simp] theorem grown_rawDebt :
    (record.grown debt collateral branch).rawDebt = record.rawDebt + debt := rfl

@[simp] theorem reduced_rawDebt :
    (record.reduced debt collateral branch).rawDebt = record.rawDebt - debt := rfl

@[simp] theorem wiped_rawDebt : (record.wiped branch).rawDebt = 0 := rfl

end Fields

@[simp] theorem entering_int (record : TickRecord Int) (branch : Int) :
    record.entering branch = .ok (record.entry branch) := by
  simp only [entering, entry, same_int, decide_eq_true_eq, toInt_int, ok_bind, ofInt_int]
  split <;> rfl

@[simp] theorem hasDebt_int (record : TickRecord Int) :
    record.hasDebt = .ok (decide (0 < record.rawDebt)) := rfl

@[simp] theorem slotLiquidated_int (record : TickRecord Int) (slot : Int) :
    record.slotLiquidated slot = .ok (decide (0 < slot ∧ slot ≤ record.liquidatedSlot)) := by
  simp only [slotLiquidated, toInt_int, ok_bind]
  split <;> simp_all [pure, Except.pure]

end TickRecord

namespace Ledger

variable (ledger : Ledger Int) (tick : Int)

theorem attempt_allocateSlot :
    attempt ledger (allocateSlot tick) =
      .ok ((ledger.tickAt tick).totalIds + 1, ledger.put tick { ledger.tickAt tick with
        totalIds := (ledger.tickAt tick).totalIds + 1 }) := by
  simp [allocateSlot]

theorem attempt_addDebt (debt collateral branch : Int) :
    attempt ledger (addDebt tick debt collateral branch) = (do
      let before := ledger.tickAt tick
      let rawDebt ← checkedAdd before.rawDebt debt
      let _ ← checkedAdd before.rawCollateral collateral
      let record := before.grown debt collateral branch
      if before.rawDebt = 0 ∧ 0 < rawDebt then
        let branches ← ledger.branches.claim branch
        let bitmap ← ledger.bitmap.set tick
        return (record, { ledger.put tick record with branches, bitmap })
      else return (record, ledger.put tick record)) := by
  unfold addDebt
  cases first : checkedAdd (ledger.tickAt tick).rawDebt debt with
  | error fault => simp [first]
  | ok rawDebt =>
    cases second : checkedAdd (ledger.tickAt tick).rawCollateral collateral with
    | error fault => simp [first, second]
    | ok rawCollateral =>
      obtain ⟨-, rfl⟩ := checkedAdd_ok first
      obtain ⟨-, rfl⟩ := checkedAdd_ok second
      by_cases opens : (ledger.tickAt tick).rawDebt = 0 ∧ 0 < (ledger.tickAt tick).rawDebt + debt
      · simp only [TickRecord.grown, if_pos opens]
        cases claimed : ledger.branches.claim branch with
        | error fault => simp [first, second, if_pos opens, claimed]
        | ok branches =>
          cases marked : ledger.bitmap.set tick <;>
            simp [first, second, if_pos opens, claimed, marked]
      · simp [first, second, if_neg opens, TickRecord.grown]

theorem attempt_removeDebt (debt collateral : Int) :
    attempt ledger (removeDebt tick debt collateral) = (do
      let before := ledger.tickAt tick
      ensure (debt ≤ before.rawDebt) (.tickDebtUnderflow debt (store tick) (store before.rawDebt))
      let record := before.shrunk debt collateral
      if 0 < before.rawDebt ∧ debt = before.rawDebt then
        let bitmap ← ledger.bitmap.clear tick
        let (_, branches) ← ledger.branches.release before.branch false
        return (record, { ledger.put tick record with branches, bitmap })
      else return (record, ledger.put tick record)) := by
  unfold removeDebt
  by_cases covered : debt ≤ (ledger.tickAt tick).rawDebt
  · have passed := ensure_of covered
    by_cases empties : 0 < (ledger.tickAt tick).rawDebt ∧ debt = (ledger.tickAt tick).rawDebt
    · simp only [TickRecord.shrunk, if_pos empties]
      cases cleared : ledger.bitmap.clear tick with
      | error fault => simp [passed, if_pos empties, cleared]
      | ok bitmap =>
        cases released : ledger.branches.release (ledger.tickAt tick).branch false <;>
          simp [passed, if_pos empties, cleared, released]
    · simp [passed, if_neg empties, TickRecord.shrunk]
  · simp [ensure_of_not covered]

theorem attempt_wipe (branch : Int) :
    attempt ledger (wipe tick branch) = (do
      let before := ledger.tickAt tick
      let record := before.wiped branch
      if 0 < before.rawDebt then
        let bitmap ← ledger.bitmap.clear tick
        let (_, branches) ← ledger.branches.release before.branch true
        return ((before.rawDebt, before.rawCollateral),
          { ledger.put tick record with branches, bitmap })
      else return ((before.rawDebt, before.rawCollateral), ledger.put tick record)) := by
  unfold wipe
  by_cases occupied : 0 < (ledger.tickAt tick).rawDebt
  · cases cleared : ledger.bitmap.clear tick with
    | error fault => simp [occupied, cleared]
    | ok bitmap =>
      cases released : ledger.branches.release (ledger.tickAt tick).branch true <;>
        simp [occupied, cleared, released]
  · simp [occupied]

theorem attempt_reduce (debt collateral branch : Int) :
    attempt ledger (reduce tick debt collateral branch) = (do
      let before := ledger.tickAt tick
      ensure (debt < before.rawDebt) (.partialWouldEmpty debt (store tick))
      let _ ← floorDiv (before.debtFactor * (before.rawDebt - debt)) before.rawDebt
      let _ ← checkedSub .tickCollateral before.rawCollateral collateral
      let record := before.reduced debt collateral branch
      return (record, ledger.put tick record)) := by
  unfold reduce
  by_cases partly : debt < (ledger.tickAt tick).rawDebt
  · have passed := ensure_of partly
    cases scaled : floorDiv ((ledger.tickAt tick).debtFactor *
        ((ledger.tickAt tick).rawDebt - debt)) (ledger.tickAt tick).rawDebt with
    | error fault => simp [passed, scaled]
    | ok factor =>
      cases taken : checkedSub .tickCollateral (ledger.tickAt tick).rawCollateral collateral with
      | error fault => simp [passed, scaled, taken]
      | ok left =>
        obtain ⟨-, rfl⟩ := floorDiv_ok scaled
        obtain ⟨-, rfl⟩ := checkedSub_ok taken
        simp [passed, scaled, taken, TickRecord.reduced]
  · simp [ensure_of_not partly]

end Ledger

end TickVault
