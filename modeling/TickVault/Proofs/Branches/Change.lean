import TickVault.Proofs.Branches
import TickVault.Proofs.Ledger.Attempt

namespace TickVault

inductive Side where
  | debt
  | collateral

namespace Flow

def add (flow : Flow Int) (entering taken : Int) : Flow Int :=
  ⟨flow.entered + entering, flow.liquidated + taken⟩

/-- The share that is outstanding, and the share before as long as nothing has entered. -/
def share (flow : Flow Int) (before : Int) : Int :=
  if flow.entered = 0 then before
  else (factorScale * (flow.entered - flow.liquidated)).fdiv flow.entered

theorem outstandingShare_int (flow : Flow Int) (before : Int) :
    flow.outstandingShare before = .ok (flow.share before) := by
  simp only [outstandingShare, share, isZero_int, decide_eq_true_eq, toInt_int, ok_bind]
  split <;> rfl

end Flow

namespace TickLiquidation

def entering (taken : TickLiquidation Int) : Side → Int
  | .debt => taken.debtEntering
  | .collateral => taken.collateralEntering

def amount (taken : TickLiquidation Int) : Side → Int
  | .debt => taken.debtTaken
  | .collateral => taken.collateralTaken

end TickLiquidation

theorem higherTick_ok (highest : Option Int) (tick : Int) :
    ∃ tick', higherTick highest tick = .ok tick' := by
  cases highest <;> exact ⟨_, rfl⟩

theorem lowerTick_ok (lowest : Option Int) (tick : Int) :
    ∃ tick', lowerTick lowest tick = .ok tick' := by
  cases lowest <;> exact ⟨_, rfl⟩

namespace Branch

def flow (branch : Branch Int) : Side → Flow Int
  | .debt => ⟨branch.debtEntered, branch.debtLiquidated⟩
  | .collateral => ⟨branch.collateralEntered, branch.collateralLiquidated⟩

def share (branch : Branch Int) : Side → Int
  | .debt => branch.baseDebtFactor
  | .collateral => branch.baseCollateralFactor

def claimed (branch : Branch Int) : Branch Int :=
  { branch with ownedTicks := branch.ownedTicks + 1 }

def released (branch : Branch Int) (closes : Bool) : Branch Int :=
  { branch with
    ownedTicks := branch.ownedTicks - 1
    status := if closes then .liquidated else branch.status }

def folded (branch : Branch Int) (minTick maxTick : Option Int) (taken : TickLiquidation Int) :
    Branch Int :=
  let debt := (branch.flow .debt).add taken.debtEntering taken.debtTaken
  let collateral := (branch.flow .collateral).add taken.collateralEntering taken.collateralTaken
  { branch with
    minTick, maxTick
    debtEntered := debt.entered
    debtLiquidated := debt.liquidated
    collateralEntered := collateral.entered
    collateralLiquidated := collateral.liquidated
    baseDebtFactor := debt.share branch.baseDebtFactor
    baseCollateralFactor := collateral.share branch.baseCollateralFactor }

section Fields

variable (branch : Branch Int) (minTick maxTick : Option Int) (taken : TickLiquidation Int)
  (closes : Bool) (side : Side)

theorem folded_flow : (branch.folded minTick maxTick taken).flow side =
    (branch.flow side).add (taken.entering side) (taken.amount side) := by
  cases side <;> rfl

theorem folded_share : (branch.folded minTick maxTick taken).share side =
    ((branch.folded minTick maxTick taken).flow side).share (branch.share side) := by
  cases side <;> rfl

@[simp] theorem claimed_flow : branch.claimed.flow side = branch.flow side := by
  cases side <;> rfl

@[simp] theorem claimed_share : branch.claimed.share side = branch.share side := by
  cases side <;> rfl

@[simp] theorem released_flow : (branch.released closes).flow side = branch.flow side := by
  cases side <;> rfl

@[simp] theorem released_share : (branch.released closes).share side = branch.share side := by
  cases side <;> rfl

end Fields

theorem raise_ok {branch : Branch Int} {taken : TickLiquidation Int} (id : Int)
    (covered : ∀ side, (branch.flow side).liquidated + taken.amount side ≤
      (branch.flow side).entered + taken.entering side) :
    ∃ maxTick, branch.raise id taken = .ok { branch with maxTick } := by
  obtain ⟨highest, raised⟩ := higherTick_ok branch.maxTick taken.tick
  have debt : decide (branch.debtEntered + taken.debtEntering <
      branch.debtLiquidated + taken.debtTaken) = false :=
    decide_eq_false (Int.not_lt.mpr (covered .debt))
  have collateral : decide (branch.collateralEntered + taken.collateralEntering <
      branch.collateralLiquidated + taken.collateralTaken) = false :=
    decide_eq_false (Int.not_lt.mpr (covered .collateral))
  refine ⟨highest, ?_⟩
  simp only [raise, debtWith, collateralWith, plus_int, exceeds_int, ok_bind, pure_eq_ok, raised,
    debt, collateral, Bool.not_false, ensure_of]

theorem fold_ok (branch : Branch Int) (taken : TickLiquidation Int) :
    ∃ minTick, branch.fold taken = .ok (branch.folded minTick branch.maxTick taken) := by
  obtain ⟨lowest, lowered⟩ := lowerTick_ok branch.minTick taken.tick
  refine ⟨lowest, ?_⟩
  simp only [fold, debtWith, collateralWith, lowered, plus_int, ok_bind, pure_eq_ok,
    Flow.outstandingShare_int]
  rfl

end Branch

namespace BranchLedger

variable {ledger : BranchLedger Int} {id : Int} {branch branch' : Branch Int}

def put (ledger : BranchLedger Int) (id : Int) (branch : Branch Int) : BranchLedger Int :=
  ⟨ledger.records.set id.toNat branch⟩

def sum (ledger : BranchLedger Int) (weight : Branch Int → Int) : Int :=
  (ledger.records.map weight).sum

theorem get?_some_iff : ledger.get? id = some branch ↔
    0 ≤ id ∧ ledger.records[id.toNat]? = some branch := by
  unfold get?
  split
  · rename_i negative
    exact iff_of_false (by simp) fun known => Int.not_lt.mpr known.1 negative
  · rename_i nonneg
    exact ⟨fun known => ⟨Int.not_lt.mp nonneg, known⟩, fun known => known.2⟩

theorem known_range (known : ledger.get? id = some branch) :
    0 ≤ id ∧ id < ledger.records.length :=
  get?_isSome_iff.mp (Option.isSome_iff_exists.mpr ⟨branch, known⟩)

theorem exists_of_range (low : 0 ≤ id) (high : id < ledger.records.length) :
    ∃ branch, ledger.get? id = some branch :=
  Option.isSome_iff_exists.mp (get?_isSome_iff.mpr ⟨low, high⟩)

@[simp] theorem put_length (ledger : BranchLedger Int) (id : Int) (branch : Branch Int) :
    (ledger.put id branch).records.length = ledger.records.length :=
  List.length_set

theorem get?_put (known : ledger.get? id = some branch) (branch' : Branch Int) (other : Int) :
    (ledger.put id branch').get? other = if other = id then some branch' else ledger.get? other := by
  have range := known_range known
  unfold get? put
  by_cases negative : other < 0
  · rw [if_pos negative, if_pos negative, if_neg (by omega)]
  · rw [if_neg negative, if_neg negative, List.getElem?_set]
    by_cases same : other = id
    · rw [if_pos (by omega), if_pos (by omega), if_pos same]
    · rw [if_neg (by omega), if_neg same]

theorem put_same (known : ledger.get? id = some branch) : ledger.put id branch = ledger := by
  obtain ⟨records⟩ := ledger
  have here := (get?_some_iff.mp known).2
  obtain ⟨bound, found⟩ := List.getElem?_eq_some_iff.mp here
  simp only [put, ← found, List.set_getElem_self]

@[simp] theorem put_put (ledger : BranchLedger Int) (id : Int) (first second : Branch Int) :
    (ledger.put id first).put id second = ledger.put id second := by
  simp [put]

theorem sum_put (known : ledger.get? id = some branch) (branch' : Branch Int)
    (weight : Branch Int → Int) :
    (ledger.put id branch').sum weight = ledger.sum weight - weight branch + weight branch' := by
  have here := (get?_some_iff.mp known).2
  clear known
  obtain ⟨records⟩ := ledger
  simp only [put, sum] at *
  generalize id.toNat = place at *
  induction records generalizing place with
  | nil => cases here
  | cons first rest ih =>
    cases place with
    | zero =>
      cases here
      simp only [List.set_cons_zero, List.map_cons, List.sum_cons]
      omega
    | succ place =>
      have later := ih place here
      simp only [List.set_cons_succ, List.map_cons, List.sum_cons]
      omega

theorem update_eq (known : ledger.get? id = some branch)
    (change : Branch Int → Except Fault (Branch Int)) :
    ledger.update id change = (change branch).map (ledger.put id) := by
  simp only [update, get_eq_ok_iff.mpr known, ok_bind, toInt_int]
  cases change branch <;> rfl

theorem claim_eq (known : ledger.get? id = some branch) :
    ledger.claim id = .ok (ledger.put id branch.claimed) := by
  rw [claim, update_eq known]
  rfl

theorem release_eq (known : ledger.get? id = some branch) (owns : branch.ownedTicks ≠ 0)
    (liquidated : Bool) :
    ∃ closes, closes = (liquidated && decide (branch.ownedTicks = 1) && decide (id ≠ 0) &&
        !branch.isLiquidated) ∧
      ledger.release id liquidated = .ok (closes, ledger.put id (branch.released closes)) := by
  refine ⟨_, rfl, ?_⟩
  simp only [release, get_eq_ok_iff.mpr known, ok_bind, toInt_int, ensure_of owns,
    update_eq known]
  rfl

end BranchLedger

namespace Ledger

theorem attempt_recordLiquidation {ledger : Ledger Int} {id : Int} {branch : Branch Int}
    {taken : TickLiquidation Int} (known : ledger.branches.get? id = some branch)
    (covered : ∀ side, (branch.flow side).liquidated + taken.amount side ≤
      (branch.flow side).entered + taken.entering side) :
    ∃ minTick maxTick, attempt ledger (recordLiquidation id taken) =
      .ok ((), { ledger with
        branches := ledger.branches.put id (branch.folded minTick maxTick taken) }) := by
  obtain ⟨maxTick, raised⟩ := Branch.raise_ok id covered
  obtain ⟨minTick, done⟩ := Branch.fold_ok { branch with maxTick } taken
  refine ⟨minTick, maxTick, ?_⟩
  have again : (ledger.branches.put id { branch with maxTick }).get? id =
      some { branch with maxTick } := by
    rw [BranchLedger.get?_put known, if_pos rfl]
  simp only [recordLiquidation, attempt_bind, attempt_onBranches, BranchLedger.update_eq known,
    raised, map_ok, ok_bind, BranchLedger.update_eq again, done, BranchLedger.put_put]
  rfl

end Ledger

end TickVault
