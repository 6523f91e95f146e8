import TickVault.Proofs.Ledger.Ownership

/-!
The liquidation aggregates of the branches. On a second visit a tick enters only what it has gained
since the first, so what entered a branch covers what it liquidated only together with what it left
behind on its ticks: whoever leaves takes some of that along, and nothing else is lost.
-/

namespace TickVault

namespace Flow

variable {flow : Flow Int} {left left' before entering taken : Int}

/-- What was liquidated and what is left of it never exceed what has entered, and the share tells
how much of that is outstanding. -/
structure Settles (flow : Flow Int) (left share : Int) : Prop where
  nonneg : 0 ≤ flow.liquidated
  covered : flow.liquidated + left ≤ flow.entered
  share : share = flow.share factorScale

theorem Settles.less (settles : flow.Settles left before) (less : left' ≤ left) :
    flow.Settles left' before :=
  { settles with covered := Int.le_trans (Int.add_le_add_left less _) settles.covered }

theorem Settles.add (settles : flow.Settles left before) (nonneg : 0 ≤ left)
    (entering_nonneg : 0 ≤ entering) (taken_nonneg : 0 ≤ taken)
    (covers : taken + left' ≤ left + entering) :
    (flow.add entering taken).Settles left' ((flow.add entering taken).share before) where
  nonneg := Int.add_nonneg settles.nonneg taken_nonneg
  covered := by
    have covered := settles.covered
    simp only [Flow.add]
    omega
  share := by
    have before_nonneg := settles.nonneg
    have covered := settles.covered
    unfold Flow.share
    split
    · rename_i nothing
      have earlier : flow.entered = 0 := by
        simp only [Flow.add] at nothing
        omega
      rw [settles.share, Flow.share, if_pos earlier]
    · rfl

end Flow

namespace TickRecord

def held (record : TickRecord Int) : Side → Int
  | .debt => record.rawDebt
  | .collateral => record.rawCollateral

def left (record : TickRecord Int) : Side → Int
  | .debt => record.liquidatedDebtLeft
  | .collateral => record.liquidatedCollateralLeft

def leftUnder (id : Int) (side : Side) (record : TickRecord Int) : Int :=
  if record.liquidationBranch = id then record.left side else 0

def liquidation (record : TickRecord Int) (tick id debt collateral : Int) : TickLiquidation Int :=
  ⟨tick, (record.entry id).1, debt, (record.entry id).2, collateral⟩

section Entering

variable (record : TickRecord Int) (tick id debt collateral : Int) (side : Side)

theorem entering_liquidation : (record.liquidation tick id debt collateral).entering side =
    if record.liquidationBranch = id then max (record.held side - record.left side) 0
    else record.held side := by
  cases side <;>
  · simp only [liquidation, TickLiquidation.entering, entry, held, left]
    split <;> rfl

/-- What is on a tick was left there under the branch, or it enters. -/
theorem held_le_entering : record.held side ≤
    record.leftUnder id side + (record.liquidation tick id debt collateral).entering side := by
  rw [entering_liquidation, leftUnder]
  split <;> omega

theorem entering_nonneg (nonneg : 0 ≤ record.held side) :
    0 ≤ (record.liquidation tick id debt collateral).entering side := by
  rw [entering_liquidation]
  split
  · exact Int.le_max_right _ _
  · exact nonneg

end Entering

variable {record record' : TickRecord Int} {id : Int} {side : Side}

theorem leftUnder_nonneg (nonneg : 0 ≤ record.left side) : 0 ≤ record.leftUnder id side := by
  unfold leftUnder
  split
  · exact nonneg
  · exact Int.le_refl 0

theorem leftUnder_le (branch : record'.liquidationBranch = record.liquidationBranch)
    (less : record'.left side ≤ record.left side) (id : Int) :
    record'.leftUnder id side ≤ record.leftUnder id side := by
  unfold leftUnder
  rw [branch]
  split
  · exact less
  · exact Int.le_refl 0

end TickRecord

namespace Ledger

/-- What is left under a branch on all ticks. -/
def leftUnder (ledger : Ledger Int) (id : Int) (side : Side) : Int :=
  ledger.ticks.total (TickRecord.leftUnder id side)

structure Accounted (ledger : Ledger Int) : Prop where
  held : ∀ t side, 0 ≤ (ledger.tickAt t).held side
  left : ∀ t side, 0 ≤ (ledger.tickAt t).left side
  visited : ∀ t, (ledger.tickAt t).liquidationBranch < ledger.branches.records.length
  flows : ∀ id branch side, ledger.branches.get? id = some branch →
    (branch.flow side).Settles (ledger.leftUnder id side) (branch.share side)

variable {before after : Ledger Int} {tick id : Int} {record : TickRecord Int}
  {branch branch' : Branch Int}

theorem leftUnder_insert (ticks : after.ticks = before.ticks.insert tick record) (id : Int)
    (side : Side) :
    after.leftUnder id side = before.leftUnder id side - (before.tickAt tick).leftUnder id side +
      record.leftUnder id side := by
  apply total_insert ticks
  cases side <;> exact ite_self 0

theorem Accounted.leftUnder_le (sound : before.Sound) (accounted : before.Accounted)
    (tick id : Int) (side : Side) :
    0 ≤ (before.tickAt tick).leftUnder id side ∧
      (before.tickAt tick).leftUnder id side ≤ before.leftUnder id side := by
  have each (record : TickRecord Int) (member : record ∈ before.ticks.values) :
      0 ≤ record.leftUnder id side := by
    obtain ⟨t, known⟩ := (Table.mem_values_iff sound.distinct).mp member
    rw [← tickAt_of_get? known]
    exact TickRecord.leftUnder_nonneg (accounted.left t side)
  refine ⟨TickRecord.leftUnder_nonneg (accounted.left tick side), ?_⟩
  cases known : before.ticks.get? tick with
  | none =>
    have nothing : (before.tickAt tick).leftUnder id side = 0 := by
      simp only [Ledger.tickAt, known, Option.getD_none]
      cases side <;> exact ite_self 0
    rw [nothing]
    exact Table.total_nonneg each
  | some record =>
    rw [tickAt_of_get? known]
    exact Table.weight_le_total known each

theorem Accounted.covers (sound : before.Sound) (accounted : before.Accounted)
    (known : before.branches.get? id = some branch) {taken : TickLiquidation Int} {side : Side}
    (entering : (before.tickAt tick).held side ≤
      (before.tickAt tick).leftUnder id side + taken.entering side)
    (covered : taken.amount side ≤ (before.tickAt tick).held side) :
    (branch.flow side).liquidated + taken.amount side ≤
      (branch.flow side).entered + taken.entering side := by
  have flow := (accounted.flows id branch side known).covered
  have bound := (accounted.leftUnder_le sound tick id side).2
  omega

theorem Accounted.rewritten (accounted : before.Accounted)
    (rewritten : before.Rewritten after tick record id branch branch')
    (held : ∀ side, 0 ≤ record.held side) (left : ∀ side, 0 ≤ record.left side)
    (visited : record.liquidationBranch < before.branches.records.length)
    (others : ∀ other side, other ≠ id →
      record.leftUnder other side ≤ (before.tickAt tick).leftUnder other side)
    (flows : ∀ side, (branch'.flow side).Settles (after.leftUnder id side)
      (branch'.share side)) : after.Accounted where
  held t side := by
    rw [tickAt_insert rewritten.ticks]
    split
    · exact held side
    · exact accounted.held t side
  left t side := by
    rw [tickAt_insert rewritten.ticks]
    split
    · exact left side
    · exact accounted.left t side
  visited t := by
    rw [tickAt_insert rewritten.ticks, rewritten.length]
    split
    · exact visited
    · exact accounted.visited t
  flows other found side known := by
    rw [rewritten.get?] at known
    split at known
    · rename_i same
      cases known
      rw [same]
      exact flows side
    · rename_i different
      have less := others other side different
      apply (accounted.flows other found side known).less
      rw [leftUnder_insert rewritten.ticks]
      omega

theorem Accounted.ease (accounted : before.Accounted)
    (rewritten : before.Rewritten after tick record id branch branch')
    (held : ∀ side, 0 ≤ record.held side) (left : ∀ side, 0 ≤ record.left side)
    (less : ∀ side, record.left side ≤ (before.tickAt tick).left side)
    (visited : record.liquidationBranch = (before.tickAt tick).liquidationBranch)
    (flow : branch'.flow = branch.flow) (share : branch'.share = branch.share) :
    after.Accounted := by
  have eased (other : Int) (side : Side) := TickRecord.leftUnder_le visited (less side) other
  apply accounted.rewritten rewritten held left
  · rw [visited]
    exact accounted.visited tick
  · exact fun other side _ => eased other side
  · intro side
    rw [flow, share]
    apply (accounted.flows id branch side rewritten.known).less
    rw [leftUnder_insert rewritten.ticks]
    have bound := eased id side
    omega

theorem Accounted.liquidate {taken : TickLiquidation Int} (sound : before.Sound)
    (accounted : before.Accounted)
    (rewritten : before.Rewritten after tick record id branch branch')
    (entering : ∀ side, 0 ≤ taken.entering side ∧ (before.tickAt tick).held side ≤
      (before.tickAt tick).leftUnder id side + taken.entering side)
    (amount : ∀ side, 0 ≤ taken.amount side ∧
      taken.amount side + record.held side = (before.tickAt tick).held side)
    (held : ∀ side, 0 ≤ record.held side) (left : record.left = record.held)
    (visited : record.liquidationBranch = id)
    (flow : ∀ side, branch'.flow side =
      (branch.flow side).add (taken.entering side) (taken.amount side))
    (share : ∀ side, branch'.share side = (branch'.flow side).share (branch.share side)) :
    after.Accounted := by
  apply accounted.rewritten rewritten held (fun side => left ▸ held side)
  · rw [visited]
    exact (BranchLedger.known_range rewritten.known).2
  · intro other side different
    have gone : record.leftUnder other side = 0 := if_neg (visited ▸ different.symm)
    rw [gone]
    exact (accounted.leftUnder_le sound tick other side).1
  · intro side
    have before_left := accounted.leftUnder_le sound tick id side
    have here : record.leftUnder id side = record.held side := by
      rw [TickRecord.leftUnder, if_pos visited, left]
    have total := leftUnder_insert rewritten.ticks id side
    have enters := entering side
    have takes := amount side
    rw [share, flow]
    apply (accounted.flows id branch side rewritten.known).add
    · omega
    · exact enters.1
    · exact takes.1
    · omega

theorem Accounted.fork {source : Int} (sound : before.Sound) (accounted : before.Accounted)
    (ticks : after.ticks = before.ticks)
    (forked : before.branches.fork source = .ok (id, after.branches)) : after.Accounted := by
  have lookup := BranchLedger.get?_fork sound.rooted forked
  obtain ⟨-, rfl, records, -⟩ := sound.rooted.fork forked
  have same (other : Int) (side : Side) : after.leftUnder other side =
      before.leftUnder other side := by
    simp only [leftUnder, ticks]
  constructor
  · intro t side
    rw [tickAt_congr ticks]
    exact accounted.held t side
  · intro t side
    rw [tickAt_congr ticks]
    exact accounted.left t side
  · intro t
    have visited := accounted.visited t
    rw [tickAt_congr ticks, records, List.length_append]
    simp only [List.length_singleton]
    omega
  · intro other found side known
    rw [same]
    rw [lookup] at known
    split at known
    · rename_i new
      cases known
      have nothing : before.leftUnder other side = 0 := by
        apply Table.total_eq_zero
        intro record member
        obtain ⟨t, known⟩ := (Table.mem_values_iff sound.distinct).mp member
        have visited := accounted.visited t
        rw [tickAt_of_get? known] at visited
        exact if_neg (by omega)
      rw [nothing]
      cases side <;> exact ⟨Int.le_refl 0, Int.le_refl 0, rfl⟩
    · exact accounted.flows other found side known

end Ledger

end TickVault
