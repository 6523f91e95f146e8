import TickVault.Proofs.Run

namespace TickVault

namespace Vault

/-- The records of the ticks and those of the positions agree on who sits where. -/
structure Seating (vault : Vault Int) : Prop where
  counted : ∀ tick record, vault.ledger.ticks.get? tick = some record →
    record.occupants = vault.positions.values.countP fun position =>
      position.tick = some tick ∧ record.slotLiquidated position.tickSlot = .ok false
  inhabited : ∀ tick record, vault.ledger.ticks.get? tick = some record →
    (0 < record.rawDebt ↔ 0 < record.occupants)
  wiped : ∀ tick record, vault.ledger.ticks.get? tick = some record →
    0 ≤ record.liquidatedSlot ∧ record.liquidatedSlot ≤ record.totalIds
  given : ∀ id position tick, vault.positions.get? id = some position →
    position.tick = some tick → ∃ record, vault.ledger.ticks.get? tick = some record ∧
      0 < position.tickSlot ∧ position.tickSlot ≤ record.totalIds
  apart : ∀ id other position neighbour tick, id ≠ other →
    vault.positions.get? id = some position → vault.positions.get? other = some neighbour →
    position.tick = some tick → neighbour.tick = some tick →
    position.tickSlot ≠ neighbour.tickSlot

variable {vault : Vault Int}

theorem occupies_iff {tick : Int} {record : TickRecord Int} {position : Position Int}
    (recorded : vault.ledger.ticks.get? tick = some record) :
    position.Occupies vault.ledger tick ↔
      position.tick = some tick ∧ record.slotLiquidated position.tickSlot = .ok false := by
  simp only [Position.Occupies, Ledger.tickAt_of_get? recorded, TickRecord.slotLiquidated_int,
    Except.ok.injEq, decide_eq_false_iff_not]

theorem Peopled.seating (peopled : vault.Peopled) : vault.Seating where
  counted tick record recorded := by
    have counted := peopled.occupants tick
    rw [Ledger.tickAt_of_get? recorded] at counted
    have number := Table.total_indicator vault.positions fun position =>
      position.Occupies vault.ledger tick
    rw [counted]
    refine number.trans ?_
    simp only [occupies_iff recorded]
  inhabited tick record recorded := by
    rw [← Ledger.tickAt_of_get? recorded]
    exact peopled.inhabited tick
  wiped tick record recorded := by
    rw [← Ledger.tickAt_of_get? recorded]
    exact peopled.slots tick
  given id position tick known here := by
    have seated := peopled.seated id position known
    obtain ⟨record, recorded⟩ := Option.isSome_iff_exists.mp (seated.known tick here)
    refine ⟨record, recorded, ?_⟩
    rw [← Ledger.tickAt_of_get? recorded]
    exact seated.slot tick here
  apart id other position neighbour tick different known known' here here' := by
    intro same
    exact different (peopled.apart id other position neighbour tick known known' here here' same)

end Vault

namespace Engine

/-- Every run keeps ticks and positions in agreement on who sits where. -/
theorem run_seating {start : Engine Int} (new : start.New) (calls : List Call) :
    (start.run calls).vault.Seating :=
  (new.run_orderly calls).vault.peopled.seating

theorem exhaustion_seating :
    standard.New ∧ (standard.run exhaustion).vault.Seating ∧
      ((standard.run exhaustion).vault.ledger.tickAt (-462)).occupants = 3 := by
  refine ⟨standard_new, run_seating standard_new exhaustion, ?_⟩
  decide +kernel

end Engine

end TickVault
