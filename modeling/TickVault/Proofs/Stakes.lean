import TickVault.Proofs.Run

namespace TickVault

namespace Position

/-- A part of what a position holds on a tick. -/
def stake (part : Holdings Int → Int) (ledger : Ledger Int) (tick : Int) (position : Position Int) :
    Int :=
  if position.Occupies ledger tick then part (position.share ledger) else 0

variable {part : Holdings Int → Int} {position : Position Int} {ledger ledger' : Ledger Int}
  {tick : Int}

theorem stake_of_occupies (occupies : position.Occupies ledger tick) :
    stake part ledger tick position = part (position.shareOf (ledger.tickAt tick)) := by
  simp only [stake, if_pos occupies, share, occupies.1]

theorem stake_congr (same : ledger'.tickAt tick = ledger.tickAt tick) :
    stake part ledger' tick = stake part ledger tick := by
  funext position
  by_cases occupies : position.Occupies ledger tick
  · have occupies' : position.Occupies ledger' tick :=
      (occupies_congr (congrArg TickRecord.liquidatedSlot same)).mpr occupies
    rw [stake_of_occupies occupies, stake_of_occupies occupies', same]
  · have elsewhere : ¬ position.Occupies ledger' tick := fun occupies' =>
      occupies ((occupies_congr (congrArg TickRecord.liquidatedSlot same)).mp occupies')
    simp only [stake, if_neg occupies, if_neg elsewhere]

theorem stake_terms (same : ledger.Extends ledger') (tick : Int) :
    stake part ledger' tick = stake part ledger tick := by
  funext position
  simp only [stake, share_extends same, occupies_congr (same.liquidatedSlot tick)]

theorem stake_untied (free : position.tick = none) (ledger : Ledger Int) (tick : Int) :
    stake part ledger tick position = 0 :=
  if_neg (not_occupies_untied free tick)

end Position

namespace Vault

def staked (vault : Vault Int) (part : Holdings Int → Int) (tick : Int) : Int :=
  vault.positions.total (Position.stake part vault.ledger tick)

/-- The same sum if the debt of the tick were reduced to `left`. -/
def stakedAfter (vault : Vault Int) (part : Holdings Int → Int) (tick left : Int) : Int :=
  let record := vault.ledger.tickAt tick
  vault.positions.total fun position =>
    if position.Occupies vault.ledger tick then
      part (position.shareOf
        { record with debtFactor := (record.debtFactor * left).fdiv record.rawDebt })
    else 0

variable {part : Holdings Int → Int} {vault after : Vault Int} {position : Position Int}

theorem staked_congr (ledger : after.ledger = vault.ledger)
    (positions : after.positions = vault.positions) : after.staked part = vault.staked part := by
  funext tick
  unfold staked
  rw [ledger, positions]

theorem staked_putAt (terms : vault.ledger.Extends after.ledger)
    (positions : after.positions = vault.positions) (position : Position Int) (tick : Int) :
    (after.putAt position).staked part tick =
      vault.staked part tick -
        ((vault.positions.get? position.id).map (Position.stake part vault.ledger tick)).getD 0 +
        Position.stake part after.ledger tick position :=
  total_putAt (fun ledger => Position.stake part ledger tick) (Position.stake_terms terms tick)
    positions position

theorem Opens.staked (opens : vault.Opens position after) (tick : Int) :
    after.staked part tick = vault.staked part tick := by
  obtain ⟨state, rfl, -⟩ := opens.after
  have terms : vault.ledger.Extends ({ vault with state } : Vault Int).ledger := .refl _
  rw [staked_putAt terms rfl, opens.unknown, Position.stake_untied opens.free]
  change _ - 0 + 0 = _
  omega

theorem Leaves.staked {departure : Departure Int} {departed : Vault Int}
    (known : vault.positions.get? position.id = some position)
    (leaves : vault.Leaves position departure departed) (amount tick : Int) :
    (departed.putAt (unseat position amount)).staked part tick =
      vault.staked part tick - Position.stake part vault.ledger tick position := by
  rw [staked_putAt leaves.terms leaves.positions, unseat_id, known,
    Position.stake_untied (unseat_tick ..)]
  exact Int.add_zero _

theorem Joins.staked {tick debt collateral branch dust amount : Int} {kept : Bool}
    (joins : vault.Joins tick debt collateral branch kept after)
    (free : ∀ old, vault.positions.get? position.id = some old → old.tick = none)
    (slots : (vault.ledger.tickAt tick).liquidatedSlot ≤ (vault.ledger.tickAt tick).totalIds)
    (returns : kept = true → vault.Owns position tick) (t : Int) :
    (after.putAt (seat vault.ledger position kept tick debt branch dust amount)).staked part t =
      vault.staked part t + if t = tick then part ⟨amount, debt, dust⟩ else 0 := by
  have empty : ((vault.positions.get? position.id).map
      (Position.stake part vault.ledger t)).getD 0 = 0 := by
    cases found : vault.positions.get? position.id with
    | none => rfl
    | some old => exact Position.stake_untied (free old found) _ t
  have occupies : (seat vault.ledger position kept tick debt branch dust amount).Occupies
      after.ledger tick := joins.occupies slots returns
  rw [staked_putAt joins.terms joins.positions]
  change _ - ((vault.positions.get? position.id).map _).getD 0 + _ = _
  rw [empty, Int.sub_zero]
  split
  · rename_i here
    subst here
    rw [Position.stake_of_occupies occupies,
      Position.shareOf_entry (joins.terms.factor t) occupies.2]
    rfl
  · rename_i elsewhere
    have nothing : Position.stake part after.ledger t
        (seat vault.ledger position kept tick debt branch dust amount) = 0 :=
      if_neg fun occupies => elsewhere (Option.some.inj occupies.1).symm
    rw [nothing]

theorem Peopled.staked_vacant {tick : Int} (peopled : vault.Peopled)
    (vacant : (vault.ledger.tickAt tick).rawDebt = 0) : vault.staked part tick = 0 := by
  apply Table.total_eq_zero
  intro position member
  obtain ⟨id, known⟩ := (Table.mem_values_iff peopled.distinct).mp member
  refine if_neg fun occupies => ?_
  have inhabited := (peopled.inhabited tick).mpr (peopled.occupants_pos known occupies)
  omega

theorem Takes.staked_kept {tick : Int} (takes : vault.Takes TickRecord.Liquidated after)
    (kept : after.ledger.tickAt tick = vault.ledger.tickAt tick) :
    after.staked part tick = vault.staked part tick := by
  unfold staked
  rw [takes.positions, Position.stake_congr kept]

theorem Takes.staked_reduced {tick debt collateral branch : Int}
    (takes : vault.Takes TickRecord.Liquidated after)
    (reduced : after.ledger.tickAt tick =
      (vault.ledger.tickAt tick).reduced debt collateral branch) :
    after.staked part tick = vault.stakedAfter part tick (after.ledger.tickAt tick).rawDebt := by
  simp only [staked, stakedAfter, takes.positions]
  apply Table.total_congr
  intro position _
  have slots : (after.ledger.tickAt tick).liquidatedSlot =
      (vault.ledger.tickAt tick).liquidatedSlot := by
    rw [reduced]
    rfl
  by_cases occupies : position.Occupies vault.ledger tick
  · rw [Position.stake_of_occupies ((Position.occupies_congr slots).mpr occupies), if_pos occupies,
      reduced]
    rfl
  · rw [if_neg occupies]
    exact if_neg fun occupies' => occupies ((Position.occupies_congr slots).mp occupies')

end Vault

end TickVault
