import TickVault.Proofs.Ledger.Sound

/-!
What a position holds, as a function of its own record and the terms of its tick: the shared factor
and the slots that were wiped. Nothing else of a ledger enters into it.
-/

namespace TickVault

theorem le_ceil_mul {a b : Int} (positive : 0 < b) : a ≤ -(-a / b) * b := by
  have below := Int.ediv_mul_le (-a) (Int.ne_of_gt positive)
  rw [Int.neg_mul]
  omega

theorem ceil_le_iff {a b bound : Int} (positive : 0 < b) : -(-a / b) ≤ bound ↔ a ≤ bound * b := by
  have flipped : -(-a / b) ≤ bound ↔ -bound ≤ -a / b := by omega
  rw [flipped, Int.le_ediv_iff_mul_le positive, Int.neg_mul]
  omega

namespace Ledger

/-- A ledger in which every tick stands on the same terms as before; slots may have been added. -/
structure Extends (before after : Ledger Int) : Prop where
  factor : ∀ t, (after.tickAt t).debtFactor = (before.tickAt t).debtFactor
  liquidatedSlot : ∀ t, (after.tickAt t).liquidatedSlot = (before.tickAt t).liquidatedSlot
  totalIds : ∀ t, (before.tickAt t).totalIds ≤ (after.tickAt t).totalIds
  known : ∀ t, (before.ticks.get? t).isSome → (after.ticks.get? t).isSome

theorem Extends.refl (ledger : Ledger Int) : Extends ledger ledger :=
  ⟨fun _ => rfl, fun _ => rfl, fun _ => Int.le_refl _, fun _ => id⟩

theorem Extends.trans {before middle after : Ledger Int} (first : before.Extends middle)
    (second : middle.Extends after) : before.Extends after where
  factor t := (second.factor t).trans (first.factor t)
  liquidatedSlot t := (second.liquidatedSlot t).trans (first.liquidatedSlot t)
  totalIds t := Int.le_trans (first.totalIds t) (second.totalIds t)
  known t := second.known t ∘ first.known t

theorem extends_insert {before after : Ledger Int} {tick : Int} {record : TickRecord Int}
    (ticks : after.ticks = before.ticks.insert tick record)
    (factor : record.debtFactor = (before.tickAt tick).debtFactor)
    (liquidatedSlot : record.liquidatedSlot = (before.tickAt tick).liquidatedSlot)
    (totalIds : (before.tickAt tick).totalIds ≤ record.totalIds) : Extends before after := by
  constructor
  · intro t
    rw [tickAt_insert ticks]
    split
    · rename_i here
      rw [factor, here]
    · rfl
  · intro t
    rw [tickAt_insert ticks]
    split
    · rename_i here
      rw [liquidatedSlot, here]
    · rfl
  · intro t
    rw [tickAt_insert ticks]
    split
    · rename_i here
      exact here ▸ totalIds
    · exact Int.le_refl _
  · intro t known
    rw [ticks, Table.get?_insert]
    split
    · rfl
    · exact known

end Ledger

namespace Position

/-- The position holds a share of a tick: it is there, and its slot was not wiped. -/
def Occupies (position : Position Int) (ledger : Ledger Int) (tick : Int) : Prop :=
  position.tick = some tick ∧
    ¬ (0 < position.tickSlot ∧ position.tickSlot ≤ (ledger.tickAt tick).liquidatedSlot)

instance (position : Position Int) (ledger : Ledger Int) (tick : Int) :
    Decidable (position.Occupies ledger tick) :=
  inferInstanceAs (Decidable (_ ∧ _))

def scaled (position : Position Int) (factor : Int) : Holdings Int :=
  let debt := -(-(position.debt * factor) / position.debtFactor)
  { collateral := position.collateral * factor / position.debtFactor
    debt
    dustDebt := min (position.dustDebt * factor / position.debtFactor) debt }

def shareOf (position : Position Int) (record : TickRecord Int) : Holdings Int :=
  if 0 < position.tickSlot ∧ position.tickSlot ≤ record.liquidatedSlot then ⟨0, 0, 0⟩
  else if record.debtFactor = position.debtFactor then
    ⟨position.collateral, position.debt, position.dustDebt⟩
  else position.scaled record.debtFactor

def share (position : Position Int) (ledger : Ledger Int) : Holdings Int :=
  match position.tick with
  | some tick => position.shareOf (ledger.tickAt tick)
  | none => ⟨position.collateral, 0, 0⟩

/-- The tick of a position was used before, and where the position holds a share the tick's factor
has not risen since. -/
structure Settled (position : Position Int) (ledger : Ledger Int) : Prop where
  known : ∀ tick, position.tick = some tick → (ledger.ticks.get? tick).isSome
  factor : ∀ tick, position.Occupies ledger tick →
    0 ≤ (ledger.tickAt tick).debtFactor ∧ (ledger.tickAt tick).debtFactor ≤ position.debtFactor

variable {position : Position Int} {ledger ledger' : Ledger Int} {tick : Int}

theorem Occupies.isSome (occupies : position.Occupies ledger tick) : position.tick.isSome :=
  Option.isSome_iff_exists.mpr ⟨tick, occupies.1⟩

theorem scale_int {factor : Int} (positive : 0 < position.debtFactor) :
    position.scale factor = .ok (position.scaled factor) := by
  simp [scale, floorDiv_of_pos positive, ceilDiv_of_pos positive, scaled]

theorem realize_int (position : Position Int) (record : TickRecord Int)
    (here : position.tick = some tick)
    (factor : ¬ (0 < position.tickSlot ∧ position.tickSlot ≤ record.liquidatedSlot) →
      0 ≤ record.debtFactor ∧ record.debtFactor ≤ position.debtFactor) :
    position.realize (some record) = .ok (position.shareOf record) := by
  simp only [realize, here, TickRecord.slotLiquidated_int, ok_bind, same_int, shareOf]
  by_cases wiped : 0 < position.tickSlot ∧ position.tickSlot ≤ record.liquidatedSlot
  · simp [wiped]
  · by_cases same : record.debtFactor = position.debtFactor
    · simp [wiped, same]
    · have bounds := factor wiped
      have positive : 0 < position.debtFactor := by omega
      simp [wiped, same, scale_int positive]

theorem Settled.realize (settled : position.Settled ledger) :
    position.record? ledger >>= position.realize = .ok (position.share ledger) := by
  unfold record? share
  cases here : position.tick with
  | none => simp [Position.realize, here]
  | some tick =>
    obtain ⟨record, found⟩ := Option.isSome_iff_exists.mp (settled.known tick here)
    have stored := Ledger.tickAt_of_get? found
    simp only [Ledger.peek?_int, found, ok_bind, stored]
    refine realize_int position record here fun alive => ?_
    rw [← stored]
    exact settled.factor tick ⟨here, stored ▸ alive⟩

theorem occupies_congr
    (same : (ledger'.tickAt tick).liquidatedSlot = (ledger.tickAt tick).liquidatedSlot) :
    position.Occupies ledger' tick ↔ position.Occupies ledger tick := by
  unfold Occupies
  rw [same]

theorem share_extends (same : ledger.Extends ledger') :
    position.share ledger' = position.share ledger := by
  unfold share shareOf
  cases position.tick with
  | none => rfl
  | some tick => simp only [same.factor, same.liquidatedSlot]

theorem share_congr
    (same : ∀ t, position.tick = some t → ledger'.tickAt t = ledger.tickAt t) :
    position.share ledger' = position.share ledger := by
  unfold share
  cases here : position.tick with
  | none => rfl
  | some tick => simp only [same tick here]

theorem shareOf_wiped {record : TickRecord Int}
    (wiped : 0 < position.tickSlot ∧ position.tickSlot ≤ record.liquidatedSlot) :
    position.shareOf record = ⟨0, 0, 0⟩ := if_pos wiped

theorem shareOf_entry {record : TickRecord Int} (factor : record.debtFactor = position.debtFactor)
    (alive : ¬ (0 < position.tickSlot ∧ position.tickSlot ≤ record.liquidatedSlot)) :
    position.shareOf record = ⟨position.collateral, position.debt, position.dustDebt⟩ := by
  simp [shareOf, alive, factor]

/-- Where the factor at entry is positive, the amounts at entry are a case of scaling. -/
theorem shareOf_scaled {record : TickRecord Int} (positive : 0 < position.debtFactor)
    (alive : ¬ (0 < position.tickSlot ∧ position.tickSlot ≤ record.liquidatedSlot)) :
    (position.shareOf record).collateral = (position.scaled record.debtFactor).collateral ∧
      (position.shareOf record).debt = (position.scaled record.debtFactor).debt := by
  simp only [shareOf, if_neg alive]
  split
  · rename_i same
    have exact_collateral := Int.mul_ediv_cancel position.collateral (Int.ne_of_gt positive)
    have exact_debt := Int.mul_ediv_cancel (-position.debt) (Int.ne_of_gt positive)
    simp only [scaled, same]
    refine ⟨exact_collateral.symm, ?_⟩
    rw [← Int.neg_mul, exact_debt, Int.neg_neg]
  · exact ⟨rfl, rfl⟩

end Position

namespace Vault

theorem holdings_eq {vault : Vault Int} {position : Position Int}
    (settled : position.Settled vault.ledger) :
    vault.holdings position = .ok (position.share vault.ledger) :=
  settled.realize

end Vault

end TickVault
