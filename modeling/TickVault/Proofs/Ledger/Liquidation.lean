import TickVault.Proofs.Ledger.Aggregates

namespace TickVault

namespace Ledger

variable {before middle after : Ledger Int} {tick debt collateral id : Int}
  {branch branch' : Branch Int} {record : TickRecord Int} {minTick maxTick : Option Int}

def liquidation (ledger : Ledger Int) (tick debt collateral : Int) : TickLiquidation Int :=
  (ledger.tickAt tick).liquidation tick (ledger.tickAt tick).branch debt collateral

theorem Accounted.liquidation_covered (sound : before.Sound) (accounted : before.Accounted)
    (known : before.branches.get? (before.tickAt tick).branch = some branch)
    (amount : ∀ side, (before.liquidation tick debt collateral).amount side ≤
      (before.tickAt tick).held side) (side : Side) :
    (branch.flow side).liquidated + (before.liquidation tick debt collateral).amount side ≤
      (branch.flow side).entered + (before.liquidation tick debt collateral).entering side :=
  accounted.covers sound known (TickRecord.held_le_entering ..) (amount side)

theorem Accounted.fold (sound : before.Sound) (accounted : before.Accounted)
    (rewritten : before.Rewritten after tick record (before.tickAt tick).branch branch
      (branch'.folded minTick maxTick (before.liquidation tick debt collateral)))
    (flow : branch'.flow = branch.flow) (share : branch'.share = branch.share)
    (amount : ∀ side, 0 ≤ (before.liquidation tick debt collateral).amount side ∧
      (before.liquidation tick debt collateral).amount side + record.held side =
        (before.tickAt tick).held side)
    (held : ∀ side, 0 ≤ record.held side) (left : record.left = record.held)
    (visited : record.liquidationBranch = (before.tickAt tick).branch) : after.Accounted := by
  apply accounted.liquidate sound rewritten (fun side => ?_) amount held left visited
  · intro side
    rw [Branch.folded_flow, flow]
  · intro side
    rw [Branch.folded_share, share]
  · exact ⟨TickRecord.entering_nonneg _ _ _ _ _ _ (accounted.held tick side),
      TickRecord.held_le_entering ..⟩

/-- The branch that loses its last tick to a liquidation is liquidated, and owns nothing. -/
theorem Owned.wiped {closes : Bool} (owned : before.Owned)
    (rewritten : before.Rewritten after tick
      ((before.tickAt tick).wiped (before.tickAt tick).branch) (before.tickAt tick).branch branch
      ((branch.released closes).folded minTick maxTick
        (before.liquidation tick debt collateral)))
    (active : branch.isLiquidated = false) (last : closes = true → branch.ownedTicks = 1)
    (occupied : 0 < (before.tickAt tick).rawDebt) : after.Owned := by
  apply owned.release rewritten rfl rfl _ occupied (Int.lt_irrefl 0)
  intro liquidated
  cases closes with
  | true =>
    have one := last rfl
    change branch.ownedTicks - 1 = 0
    omega
  | false =>
    change branch.isLiquidated = true at liquidated
    rw [active] at liquidated
    cases liquidated

/-- A liquidation that is covered is folded into its branch, whatever else the branch has been
through in the same step. -/
theorem attempt_fold {taken : TickLiquidation Int}
    (known : before.branches.get? id = some branch)
    (branches : middle.branches = before.branches.put id branch')
    (flow : branch'.flow = branch.flow)
    (covered : ∀ side, (branch.flow side).liquidated + taken.amount side ≤
      (branch.flow side).entered + taken.entering side) :
    ∃ minTick maxTick after, attempt middle (recordLiquidation id taken) = .ok ((), after) ∧
      after.ticks = middle.ticks ∧
      after.branches = before.branches.put id (branch'.folded minTick maxTick taken) := by
  have there : middle.branches.get? id = some branch' := by
    rw [branches, BranchLedger.get?_put known, if_pos rfl]
  obtain ⟨minTick, maxTick, recorded⟩ := attempt_recordLiquidation there (flow ▸ covered)
  refine ⟨minTick, maxTick, _, recorded, rfl, ?_⟩
  rw [branches, BranchLedger.put_put]

theorem attempt_wipe_ok (sound : before.Sound) (occupied : 0 < (before.tickAt tick).rawDebt)
    (known : before.branches.get? (before.tickAt tick).branch = some branch)
    (owns : 1 ≤ branch.ownedTicks) :
    ∃ closes after, (closes = true → branch.ownedTicks = 1) ∧
      attempt (before.put tick (before.tickAt tick)) (wipe tick (before.tickAt tick).branch) =
        .ok (((before.tickAt tick).rawDebt, (before.tickAt tick).rawCollateral), after) ∧
      after.ticks =
        before.ticks.insert tick ((before.tickAt tick).wiped (before.tickAt tick).branch) ∧
      after.branches =
        before.branches.put (before.tickAt tick).branch (branch.released closes) := by
  obtain ⟨bitmap, cleared⟩ := before.bitmap.clear_ok (sound.range occupied)
  obtain ⟨closes, closed, released⟩ := BranchLedger.release_eq known (by omega) true
  simp only [attempt_wipe, tickAt_put, if_true, if_pos occupied, put_put, put_bitmap, put_branches,
    cleared, released, ok_bind, pure_eq_ok]
  refine ⟨closes, _, fun last => ?_, rfl, rfl, rfl⟩
  simp only [last, Bool.true_and, eq_comm (a := true), Bool.and_eq_true, decide_eq_true_eq]
    at closed
  exact closed.1.1

theorem attempt_wiped (sound : before.Sound) (owned : before.Owned) (accounted : before.Accounted)
    (occupied : 0 < (before.tickAt tick).rawDebt) :
    ∃ emptied after branch branch',
      attempt (before.put tick (before.tickAt tick)) (wipe tick (before.tickAt tick).branch) =
        .ok (((before.tickAt tick).rawDebt, (before.tickAt tick).rawCollateral), emptied) ∧
      attempt emptied (recordLiquidation (before.tickAt tick).branch (before.liquidation tick
        (before.tickAt tick).rawDebt (before.tickAt tick).rawCollateral)) = .ok ((), after) ∧
      before.Rewritten after tick ((before.tickAt tick).wiped (before.tickAt tick).branch)
        (before.tickAt tick).branch branch branch' ∧
      branch.isLiquidated = false ∧ 1 ≤ branch.ownedTicks ∧
      branch'.debtLiquidated = branch.debtLiquidated + (before.tickAt tick).rawDebt ∧
      after.Owned ∧ after.Accounted := by
  obtain ⟨branch, known, owns, active⟩ := owned.owner_known occupied
  obtain ⟨closes, emptied, last, wiped, ticks, branches⟩ :=
    attempt_wipe_ok sound occupied known owns
  have amount (side : Side) : (before.liquidation tick (before.tickAt tick).rawDebt
      (before.tickAt tick).rawCollateral).amount side = (before.tickAt tick).held side := by
    cases side <;> rfl
  have flow : (branch.released closes).flow = branch.flow :=
    funext fun side => Branch.released_flow branch closes side
  have share : (branch.released closes).share = branch.share :=
    funext fun side => Branch.released_share branch closes side
  obtain ⟨minTick, maxTick, after, recorded, same, folded⟩ := attempt_fold known branches flow
    (accounted.liquidation_covered sound known fun side => Int.le_of_eq (amount side))
  have rewritten := Rewritten.mk (same.trans ticks) known folded
  refine ⟨emptied, after, branch, _, wiped, recorded, rewritten, active, owns, rfl,
    owned.wiped rewritten active last occupied, ?_⟩
  apply accounted.fold sound rewritten flow share _ _ _ rfl
  · intro side
    rw [amount]
    refine ⟨accounted.held tick side, ?_⟩
    cases side <;> exact Int.add_zero _
  · intro side
    cases side <;> exact Int.le_refl 0
  · exact funext fun side => by cases side <;> rfl

theorem attempt_reduce_ok (stored : before.tickAt tick = record) (positive : 0 < debt)
    (partly : debt < record.rawDebt) (covered : collateral ≤ record.rawCollateral) (id : Int) :
    attempt before (reduce tick debt collateral id) =
      .ok (record.reduced debt collateral id,
        before.put tick (record.reduced debt collateral id)) := by
  subst stored
  have occupied : 0 < (before.tickAt tick).rawDebt := Int.lt_trans positive partly
  simp only [attempt_reduce, ensure_of partly, floorDiv_of_pos occupied, checkedSub_eq_ok covered,
    ok_bind, pure_eq_ok]

theorem attempt_reduced (sound : before.Sound) (owned : before.Owned)
    (accounted : before.Accounted) (positive : 0 < debt)
    (partly : debt < (before.tickAt tick).rawDebt) (funded : 0 ≤ collateral)
    (covered : collateral ≤ (before.tickAt tick).rawCollateral) :
    ∃ noted after branch branch',
      attempt (before.put tick (before.tickAt tick)) (recordLiquidation (before.tickAt tick).branch
        (before.liquidation tick debt collateral)) = .ok ((), noted) ∧
      attempt noted (reduce tick debt collateral (before.tickAt tick).branch) =
        .ok ((before.tickAt tick).reduced debt collateral (before.tickAt tick).branch, after) ∧
      before.Rewritten after tick
        ((before.tickAt tick).reduced debt collateral (before.tickAt tick).branch)
        (before.tickAt tick).branch branch branch' ∧
      1 ≤ branch.ownedTicks ∧ branch'.isLiquidated = branch.isLiquidated ∧
      branch'.debtLiquidated = branch.debtLiquidated + debt ∧ after.Owned ∧ after.Accounted := by
  have occupied : 0 < (before.tickAt tick).rawDebt := Int.lt_trans positive partly
  obtain ⟨branch, known, owns, -⟩ := owned.owner_known occupied
  have amount (side : Side) : 0 ≤ (before.liquidation tick debt collateral).amount side ∧
      (before.liquidation tick debt collateral).amount side ≤ (before.tickAt tick).held side := by
    cases side with
    | debt => exact ⟨Int.le_of_lt positive, Int.le_of_lt partly⟩
    | collateral => exact ⟨funded, covered⟩
  have looked : (before.put tick (before.tickAt tick)).branches =
      before.branches.put (before.tickAt tick).branch branch :=
    (BranchLedger.put_same known).symm
  obtain ⟨minTick, maxTick, noted, recorded, ticks, folded⟩ := attempt_fold known looked rfl
    (accounted.liquidation_covered sound known fun side => (amount side).2)
  have stored : noted.tickAt tick = before.tickAt tick :=
    (tickAt_insert ticks tick).trans (if_pos rfl)
  have reduced := attempt_reduce_ok stored positive partly covered (before.tickAt tick).branch
  have rewritten : before.Rewritten (noted.put tick _) tick
      ((before.tickAt tick).reduced debt collateral (before.tickAt tick).branch)
      (before.tickAt tick).branch branch _ :=
    ⟨by rw [put, ticks, put, Table.insert_insert], known, folded⟩
  refine ⟨noted, _, branch, _, recorded, reduced, rewritten, owns, rfl, rfl, ?_, ?_⟩
  · apply owned.keep rewritten (owned.owner tick occupied).1 rfl rfl rfl _ rfl
    rw [TickRecord.reduced_rawDebt]
    omega
  · apply accounted.fold sound rewritten rfl rfl _ _ _ rfl
    · intro side
      refine ⟨(amount side).1, ?_⟩
      cases side <;> exact add_sub_cancel _ _
    · intro side
      cases side with
      | debt => exact Int.sub_nonneg_of_le (Int.le_of_lt partly)
      | collateral => exact Int.sub_nonneg_of_le covered
    · exact funext fun side => by cases side <;> rfl

end Ledger

end TickVault
