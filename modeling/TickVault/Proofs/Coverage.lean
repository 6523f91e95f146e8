import TickVault.Proofs.Stakes

/-!
The debt booked on a tick against what its holders owe. Whoever comes or goes leaves the tick
covered; only a partial liquidation, which rounds the shared factor down, may not. A run keeps every
tick covered just when each of its partial liquidations leaves the tick covered that it reduced.
-/

namespace TickVault

namespace Position

variable {position : Position Int} {ledger : Ledger Int} {tick : Int}

theorem presence_le_stake (seated : position.Seated ledger)
    (positive : 0 < (ledger.tickAt tick).debtFactor) :
    presence ledger tick position ≤ stake Holdings.debt ledger tick position := by
  by_cases occupies : position.Occupies ledger tick
  · have least := seated.debt occupies.isSome
    have falls := seated.factor tick occupies
    simp only [minDebt] at least
    rw [presence, if_pos occupies, stake_of_occupies occupies,
      (shareOf_scaled (by omega) occupies.2).2]
    by_contra small
    have owed : 0 < position.debt * (ledger.tickAt tick).debtFactor :=
      Int.mul_pos (by omega) positive
    have nothing : (position.scaled (ledger.tickAt tick).debtFactor).debt ≤ 0 := by omega
    have none_owed := (ceil_le_iff (Int.lt_of_lt_of_le positive falls)).mp nothing
    omega
  · rw [presence, stake, if_neg occupies, if_neg occupies]

end Position

namespace Vault

/-- On every tick the holders owe at least the debt that is booked there. -/
def Covered (vault : Vault Int) : Prop :=
  ∀ tick, (vault.ledger.tickAt tick).rawDebt ≤ vault.staked Holdings.debt tick

/-- A covered vault in which every factor can still shrink. -/
structure Solvent (vault : Vault Int) : Prop where
  covered : vault.Covered
  factor : ∀ t, 0 < (vault.ledger.tickAt t).debtFactor

variable {vault after : Vault Int} {position : Position Int}

theorem Solvent.congr (solvent : vault.Solvent) (ledger : after.ledger = vault.ledger)
    (positions : after.positions = vault.positions) : after.Solvent := by
  cases after
  cases ledger
  cases positions
  exact ⟨solvent.covered, solvent.factor⟩

theorem Solvent.opens (solvent : vault.Solvent) (opens : vault.Opens position after) :
    after.Solvent := by
  have staked (t : Int) : after.staked Holdings.debt t = vault.staked Holdings.debt t :=
    opens.staked t
  obtain ⟨state, rfl, -⟩ := opens.after
  refine ⟨fun t => ?_, solvent.factor⟩
  rw [staked]
  exact solvent.covered t

theorem Peopled.others_owe {id tick : Int} (peopled : vault.Peopled)
    (factor : ∀ t, 0 < (vault.ledger.tickAt t).debtFactor)
    (known : vault.positions.get? id = some position)
    (occupies : position.Occupies vault.ledger tick) :
    (vault.ledger.tickAt tick).occupants - 1 ≤
        vault.staked Holdings.debt tick -
          Position.stake Holdings.debt vault.ledger tick position ∧
      1 ≤ (vault.ledger.tickAt tick).occupants := by
  have one : Position.presence vault.ledger tick position = 1 := if_pos occupies
  have more (other : Position Int) (member : other ∈ vault.positions.values) :
      0 ≤ Position.stake Holdings.debt vault.ledger tick other -
        Position.presence vault.ledger tick other := by
    obtain ⟨key, found⟩ := (Table.mem_values_iff peopled.distinct).mp member
    have least := Position.presence_le_stake (peopled.seated key other found) (factor tick)
    omega
  have excess := Table.weight_le_total known more
  have sum := Table.total_add vault.positions (Position.presence vault.ledger tick)
    (fun other => Position.stake Holdings.debt vault.ledger tick other -
      Position.presence vault.ledger tick other)
  have regrouped : (fun other => Position.presence vault.ledger tick other +
      (Position.stake Holdings.debt vault.ledger tick other -
        Position.presence vault.ledger tick other)) =
      Position.stake Holdings.debt vault.ledger tick := by
    funext other
    omega
  rw [regrouped] at sum
  have counted := peopled.occupants tick
  refine ⟨?_, peopled.occupants_pos known occupies⟩
  simp only [staked, present] at *
  omega

theorem Solvent.leave {departed : Vault Int} {departure : Departure Int}
    (orderly : vault.Orderly) (solvent : vault.Solvent)
    (known : vault.positions.get? position.id = some position)
    (leaves : vault.Leaves position departure departed) (amount : Int) :
    (departed.putAt (unseat position amount)).Solvent := by
  refine ⟨fun t => ?_, fun t => ?_⟩
  · have before := solvent.covered t
    rw [leaves.staked known]
    change (departed.ledger.tickAt t).rawDebt ≤ _
    rw [leaves.records t]
    split
    · rename_i here
      have owing : Position.stake Holdings.debt vault.ledger t position =
          (position.share vault.ledger).debt := if_pos here
      have others := orderly.peopled.others_owe solvent.factor known here
      rw [TickRecord.vacatedBy_rawDebt, leaves.removal t here, leaves.holdings, owing]
      rw [owing] at others
      unfold TickRecord.removal
      split <;> omega
    · rename_i elsewhere
      have nothing : Position.stake Holdings.debt vault.ledger t position = 0 := if_neg elsewhere
      omega
  · change 0 < (departed.ledger.tickAt t).debtFactor
    rw [leaves.terms.factor]
    exact solvent.factor t

theorem Solvent.join {tick debt collateral branch dust amount : Int} {kept : Bool}
    (solvent : vault.Solvent)
    (free : ∀ old, vault.positions.get? position.id = some old → old.tick = none)
    (joins : vault.Joins tick debt collateral branch kept after)
    (slots : (vault.ledger.tickAt tick).liquidatedSlot ≤ (vault.ledger.tickAt tick).totalIds)
    (returns : kept = true → vault.Owns position tick) :
    (after.putAt (seat vault.ledger position kept tick debt branch dust amount)).Solvent := by
  refine ⟨fun t => ?_, fun t => ?_⟩
  · have before := solvent.covered t
    rw [joins.staked free slots returns]
    change (after.ledger.tickAt t).rawDebt ≤ _
    rw [Ledger.tickAt_insert joins.ticks]
    split
    · rename_i here
      subst here
      change (vault.ledger.tickAt t).rawDebt + debt ≤ vault.staked Holdings.debt t + debt
      omega
    · omega
  · change 0 < (after.ledger.tickAt t).debtFactor
    rw [joins.terms.factor]
    exact solvent.factor t

theorem Solvent.reseats (orderly : vault.Orderly) (solvent : vault.Solvent)
    (known : vault.positions.get? position.id = some position)
    (reseats : vault.Reseats position after) : after.Solvent := by
  cases reseats with
  | off leaves funded ledger positions supply =>
    exact (solvent.leave orderly known leaves _).congr ledger positions
  | @on _ _ _ _ tick _ _ _ amount _ leaves funded coherent joins enough returns ledger positions =>
    have vacant := solvent.leave orderly known leaves amount
    have slots := orderly.peopled.slots_le leaves.terms tick
    exact (vacant.join unseat_free joins slots returns).congr ledger positions

theorem Solvent.trades (orderly : vault.Orderly) (solvent : vault.Solvent)
    (trades : vault.Trades after) : after.Solvent := by
  apply trades.keeps orderly solvent
  · exact fun _ _ _ solvent opens => solvent.opens opens
  · exact fun _ _ _ orderly solvent known reseats => solvent.reseats orderly known reseats
  · exact fun _ _ solvent => solvent.congr rfl rfl

/-- What is left of the debt of a tick is owed by its holders, at the factor that they are left
with. -/
def Sustains (vault after : Vault Int) (tick : Int) : Prop :=
  (after.ledger.tickAt tick).rawDebt ≤
    vault.stakedAfter Holdings.debt tick (after.ledger.tickAt tick).rawDebt

theorem stake_of_exhausted {ledger : Ledger Int} {tick : Int}
    (exhausted : (ledger.tickAt tick).debtFactor = 0)
    (entered : position.Occupies ledger tick → 0 < position.debtFactor) :
    Position.stake Holdings.debt ledger tick position = 0 := by
  by_cases occupies : position.Occupies ledger tick
  · rw [Position.stake_of_occupies occupies,
      (Position.shareOf_scaled (entered occupies) occupies.2).2]
    simp [Position.scaled, exhausted]
  · exact if_neg occupies

/-- A factor of zero would let every holder off. -/
theorem Solvent.factor_pos (orderly : vault.Orderly) (solvent : vault.Solvent)
    (takes : vault.Takes TickRecord.Liquidated after)
    (sustains : vault.EachReduced after (vault.Sustains after))
    (tick : Int) : 0 < (after.ledger.tickAt tick).debtFactor := by
  have change := takes.records tick
  generalize stored : after.ledger.tickAt tick = record at change ⊢
  cases change with
  | cleared cleared =>
    cases cleared with
    | kept => exact solvent.factor tick
    | wiped branch =>
      change 0 < factorScale
      decide
  | @reduced debt collateral branch positive partly covered =>
    by_contra spent
    have bounds := TickRecord.reduced_debtFactor_le (orderly.peopled.factor tick) positive partly
      collateral branch
    have exhausted : (after.ledger.tickAt tick).debtFactor = 0 := by
      rw [stored]
      omega
    have nothing : after.staked Holdings.debt tick = 0 := by
      apply Table.total_eq_zero
      intro position member
      apply stake_of_exhausted exhausted
      intro occupies
      rw [takes.positions] at member
      obtain ⟨id, known⟩ := (Table.mem_values_iff orderly.peopled.distinct).mp member
      have slots : (after.ledger.tickAt tick).liquidatedSlot =
          (vault.ledger.tickAt tick).liquidatedSlot := by
        rw [stored]
        rfl
      have before := (Position.occupies_congr slots).mp occupies
      exact Int.lt_of_lt_of_le (solvent.factor tick)
        ((orderly.peopled.seated id position known).factor tick before)
    have left : (after.ledger.tickAt tick).rawDebt =
        (vault.ledger.tickAt tick).rawDebt - debt := by
      rw [stored, TickRecord.reduced_rawDebt]
    have bound := sustains tick (by omega) (by omega)
    rw [Sustains, ← takes.staked_reduced stored, nothing] at bound
    omega

/-- A walk keeps a vault solvent if the tick that it reduces stays covered. -/
theorem Solvent.takes (orderly : vault.Orderly) (solvent : vault.Solvent)
    (takes : vault.Takes TickRecord.Liquidated after)
    (sustains : vault.EachReduced after (vault.Sustains after)) :
    after.Solvent := by
  have factor := solvent.factor_pos orderly takes sustains
  refine ⟨fun t => ?_, factor⟩
  have change := takes.records t
  generalize stored : after.ledger.tickAt t = record at change
  cases change with
  | cleared cleared =>
    cases cleared with
    | kept =>
      rw [takes.staked_kept stored]
      exact solvent.covered t
    | wiped branch =>
      rw [(orderly.peopled.takes takes).staked_vacant (by rw [stored, TickRecord.wiped_rawDebt])]
      exact Int.le_refl 0
  | @reduced debt collateral branch positive partly covered =>
    have left : (after.ledger.tickAt t).rawDebt = (vault.ledger.tickAt t).rawDebt - debt := by
      rw [stored, TickRecord.reduced_rawDebt]
    rw [← stored, takes.staked_reduced stored]
    exact sustains t (by omega) (by omega)

theorem Covered.sustains (covered : after.Covered)
    (takes : vault.Takes TickRecord.Liquidated after) :
    vault.EachReduced after (vault.Sustains after) := by
  intro t remains less
  obtain ⟨debt, collateral, branch, -, -, reduced⟩ := (takes.records t).partly remains less
  rw [Sustains, ← takes.staked_reduced reduced]
  exact covered t

end Vault

namespace Engine

variable {start engine : Engine Int}

theorem New.solvent (new : start.New) : start.vault.Solvent := by
  obtain ⟨id, config, validated, host, -, rfl⟩ := new.created
  refine ⟨fun t => Int.le_refl 0, fun t => ?_⟩
  change 0 < factorScale
  decide

/-- Shares are what the vault realizes, and every state of a run is covered just when each
liquidation of the run leaves the ticks covered that it reduces. -/
theorem run_covered_iff (new : start.New) (calls : List Call) :
    (∀ n id position, (start.run (calls.take n)).vault.positions.get? id = some position →
      (start.run (calls.take n)).vault.holdings position =
        .ok (position.share (start.run (calls.take n)).vault.ledger)) ∧
    ((∀ n, (start.run (calls.take n)).vault.Covered) ↔
      ∀ n request budget, calls[n]? = some (.liquidate request budget) →
        (start.run (calls.take n)).vault.EachReduced (start.run (calls.take (n + 1))).vault
          ((start.run (calls.take n)).vault.Sustains (start.run (calls.take (n + 1))).vault)) := by
  refine ⟨fun n id position known => ?_, ?_⟩
  · exact Vault.holdings_eq ((new.run_orderly (calls.take n)).vault.peopled.settled known)
  constructor
  · intro covered n request budget next
    have after := covered (n + 1)
    rw [run_take_succ start next] at after ⊢
    rcases (new.run_orderly (calls.take n)).liquidate request budget with same | ⟨takes, -⟩
    · rw [same]
      intro t _ less
      exact absurd less (Int.lt_irrefl _)
    · exact after.sustains takes
  · intro sustains n
    have solvent := new.run_keeps calls new.solvent (fun _ _ orderly => .trades orderly)
      (fun _ _ orderly => .takes orderly) sustains n
    exact solvent.covered

theorem first_borrower_covered :
    (standard.run ((exhaustion.take 3).take 3)).vault.Covered := by
  refine (run_covered_iff standard_new (exhaustion.take 3)).2.mpr ?_ 3
  intro n request budget next
  rcases n with _ | _ | _ | n <;> cases next
  intro tick remains _
  have ticks : (standard.run (exhaustion.take 3)).vault.ledger.ticks =
      ⟨[(-462, ⟨-462, 100, 752876, 1, 1, 99933381060, 0, 1, 1, 100, 752876⟩)]⟩ := by
    decide +kernel
  have here : tick = -462 := by
    by_contra elsewhere
    have vacant : ((standard.run (exhaustion.take 3)).vault.ledger.tickAt tick).rawDebt = 0 := by
      simp only [Ledger.tickAt, ticks, Table.get?, Table.find, if_neg (Ne.symm elsewhere)]
      rfl
    exact absurd remains (Int.not_lt.mpr (Int.le_of_eq vacant))
  subst here
  change (_ : Int) ≤ _
  decide +kernel

/-- After the second one two borrowers are left on a tick with debt, and owe nothing. -/
theorem second_borrower_uncovered :
    ¬ ∀ (start : Engine Int) (calls : List Call), start.New →
      (start.run calls).vault.Covered := by
  intro covered
  have bound := covered standard (exhaustion.take 7) standard_new (-462)
  have booked : ((standard.run (exhaustion.take 7)).vault.ledger.tickAt (-462)).rawDebt = 100 := by
    decide +kernel
  have owed : (standard.run (exhaustion.take 7)).vault.staked Holdings.debt (-462) = 0 := by
    decide +kernel
  rw [booked, owed] at bound
  exact absurd bound (by decide)

end Engine

end TickVault
