import TickVault.Proofs.Backing
import TickVault.Proofs.Coverage
import TickVault.Proofs.Deals

/-!
A vault that liquidates no tick in part keeps exact books. All factors stay where they started, so a
position owes and claims just what was stored with it, and a tick has just what is stored with its
holders. The last holder to leave takes what is on the record and not what it owes; here the two are
the same.
-/

namespace TickVault

namespace Position

variable {part : Holdings Int → Int} {position : Position Int} {ledger : Ledger Int} {tick : Int}

theorem stake_entry
    (factor : position.tick.isSome → (ledger.tickAt tick).debtFactor = position.debtFactor) :
    stake part ledger tick position = if position.Occupies ledger tick then
      part ⟨position.collateral, position.debt, position.dustDebt⟩ else 0 := by
  by_cases occupies : position.Occupies ledger tick
  · rw [stake_of_occupies occupies, if_pos occupies,
      shareOf_entry (factor occupies.isSome) occupies.2]
  · rw [if_neg occupies]
    exact if_neg occupies

end Position

namespace Vault

def stored (vault : Vault Int) (amount : Position Int → Int) (tick : Int) : Int :=
  vault.positions.total fun position =>
    if position.Occupies vault.ledger tick then amount position else 0

/-- The ticks have just what their holders have there, at factors that never moved. -/
structure Matched (vault : Vault Int) : Prop where
  factor : ∀ t, (vault.ledger.tickAt t).debtFactor = factorScale
  entry : ∀ id position, vault.positions.get? id = some position →
    position.tick.isSome → position.debtFactor = factorScale
  debt : ∀ t, (vault.ledger.tickAt t).rawDebt = vault.staked Holdings.debt t
  collateral : ∀ t, (vault.ledger.tickAt t).rawCollateral = vault.staked Holdings.collateral t

variable {vault after departed : Vault Int} {position : Position Int} {departure : Departure Int}
  {amount : Int}

theorem Matched.congr (matched : vault.Matched) (ledger : after.ledger = vault.ledger)
    (positions : after.positions = vault.positions) : after.Matched := by
  cases after
  cases ledger
  cases positions
  exact ⟨matched.factor, matched.entry, matched.debt, matched.collateral⟩

theorem Matched.opens (matched : vault.Matched) (opens : vault.Opens position after) :
    after.Matched := by
  have debt (t : Int) : after.staked Holdings.debt t = vault.staked Holdings.debt t :=
    opens.staked t
  have collateral (t : Int) :
      after.staked Holdings.collateral t = vault.staked Holdings.collateral t := opens.staked t
  obtain ⟨state, rfl, -⟩ := opens.after
  refine ⟨matched.factor, forall_putAt matched.entry rfl ?_, fun t => ?_, fun t => ?_⟩
  · intro somewhere
    rw [opens.free] at somewhere
    cases somewhere
  · rw [debt]
    exact matched.debt t
  · rw [collateral]
    exact matched.collateral t

/-- The last holder of a tick has all that is on its record. -/
theorem Matched.last_holds {t : Int} (orderly : vault.Orderly) (matched : vault.Matched)
    (known : vault.positions.get? position.id = some position)
    (leaves : vault.Leaves position departure departed)
    (occupies : position.Occupies vault.ledger t)
    (last : (vault.ledger.tickAt t).occupants = 1) :
    Position.stake Holdings.debt vault.ledger t position = (vault.ledger.tickAt t).rawDebt ∧
      Position.stake Holdings.collateral vault.ledger t position =
        (vault.ledger.tickAt t).rawCollateral := by
  have peopled := orderly.peopled.leave orderly.toCoherent known leaves (unseat_id ..)
    (unseat_tick ..) (Int.le_refl 0)
  have vacant : (departed.ledger.tickAt t).rawDebt = 0 := by
    rw [leaves.records t, if_pos occupies, leaves.removal t occupies, TickRecord.vacatedBy_rawDebt,
      TickRecord.removal, if_pos last, Int.sub_self]
  -- What the others have there is what is left once the last one has gone.
  have others (part : Holdings Int → Int) :
      (departed.putAt (unseat position 0)).staked part t = 0 := peopled.staked_vacant vacant
  have debt := others Holdings.debt
  have collateral := others Holdings.collateral
  rw [leaves.staked known] at debt collateral
  rw [matched.debt, matched.collateral]
  omega

theorem Matched.vacated (orderly : vault.Orderly) (sized : position.Sized)
    (matched : vault.Matched) (known : vault.positions.get? position.id = some position)
    (leaves : vault.Leaves position departure departed) (t : Int) :
    (departed.ledger.tickAt t).rawDebt =
        (vault.ledger.tickAt t).rawDebt - Position.stake Holdings.debt vault.ledger t position ∧
      (departed.ledger.tickAt t).rawCollateral = (vault.ledger.tickAt t).rawCollateral -
        Position.stake Holdings.collateral vault.ledger t position := by
  have here := leaves.records t
  by_cases occupies : position.Occupies vault.ledger t
  · have owing : Position.stake Holdings.debt vault.ledger t position =
        (position.share vault.ledger).debt := if_pos occupies
    have claiming : Position.stake Holdings.collateral vault.ledger t position =
        (position.share vault.ledger).collateral := if_pos occupies
    have positive (t : Int) : 0 < (vault.ledger.tickAt t).debtFactor := by
      rw [matched.factor]
      decide
    have others := orderly.peopled.others_owe positive known occupies
    rw [if_pos occupies, leaves.removal t occupies, leaves.holdings] at here
    rw [here, TickRecord.vacatedBy_rawDebt, TickRecord.vacatedBy_rawCollateral]
    unfold TickRecord.removal
    by_cases last : (vault.ledger.tickAt t).occupants = 1
    · have whole := matched.last_holds orderly known leaves occupies last
      have occupied := (orderly.peopled.inhabited t).mpr (by omega)
      rw [if_pos last, if_pos ⟨occupied, rfl⟩]
      omega
    · have owed := orderly.peopled.owed_nonneg sized known
      have booked := orderly.peopled.share_le_staked known occupies
      have debt := matched.debt t
      have collateral := matched.collateral t
      rw [if_neg last]
      split <;> omega
  · have nothing (part : Holdings Int → Int) : Position.stake part vault.ledger t position = 0 :=
      if_neg occupies
    rw [here, if_neg occupies, nothing, nothing]
    omega

theorem Matched.leave (orderly : vault.Orderly) (sized : position.Sized)
    (matched : vault.Matched) (known : vault.positions.get? position.id = some position)
    (leaves : vault.Leaves position departure departed) (amount : Int) :
    (departed.putAt (unseat position amount)).Matched := by
  have vacated := matched.vacated orderly sized known leaves
  refine ⟨fun t => ?_, forall_putAt matched.entry leaves.positions ?_, fun t => ?_, fun t => ?_⟩
  · change (departed.ledger.tickAt t).debtFactor = _
    rw [leaves.terms.factor]
    exact matched.factor t
  · intro somewhere
    rw [unseat_tick] at somewhere
    cases somewhere
  · rw [leaves.staked known, ← matched.debt]
    exact (vacated t).1
  · rw [leaves.staked known, ← matched.collateral]
    exact (vacated t).2

theorem Matched.join {tick debt branch dust : Int} {kept : Bool}
    (matched : vault.Matched)
    (free : ∀ old, vault.positions.get? position.id = some old → old.tick = none)
    (joins : vault.Joins tick debt amount branch kept after)
    (slots : (vault.ledger.tickAt tick).liquidatedSlot ≤ (vault.ledger.tickAt tick).totalIds)
    (returns : kept = true → vault.Owns position tick) :
    (after.putAt (seat vault.ledger position kept tick debt branch dust amount)).Matched := by
  refine ⟨fun t => ?_, forall_putAt matched.entry joins.positions ?_, fun t => ?_, fun t => ?_⟩
  · change (after.ledger.tickAt t).debtFactor = _
    rw [joins.terms.factor]
    exact matched.factor t
  · exact fun _ => matched.factor tick
  · rw [joins.staked free slots returns, ← matched.debt]
    change (after.ledger.tickAt t).rawDebt = _
    rw [Ledger.tickAt_insert joins.ticks]
    split
    · rename_i here
      subst here
      rfl
    · exact (Int.add_zero _).symm
  · rw [joins.staked free slots returns, ← matched.collateral]
    change (after.ledger.tickAt t).rawCollateral = _
    rw [Ledger.tickAt_insert joins.ticks]
    split
    · rename_i here
      subst here
      rfl
    · exact (Int.add_zero _).symm

theorem Matched.reseats (orderly : vault.Orderly) (sized : position.Sized)
    (matched : vault.Matched) (known : vault.positions.get? position.id = some position)
    (reseats : vault.Reseats position after) : after.Matched := by
  cases reseats with
  | off leaves funded ledger positions supply =>
    exact (matched.leave orderly sized known leaves _).congr ledger positions
  | @on _ _ _ _ tick _ _ _ amount _ leaves funded coherent joins enough returns ledger positions =>
    have vacant := matched.leave orderly sized known leaves amount
    have slots := orderly.peopled.slots_le leaves.terms tick
    exact (vacant.join unseat_free joins slots returns).congr ledger positions

theorem Matched.takes (orderly : vault.Orderly) (matched : vault.Matched)
    (takes : vault.Takes TickRecord.Cleared after) : after.Matched := by
  have weaker := takes.weaken fun _ _ => TickRecord.Liquidated.cleared
  have peopled := orderly.peopled.takes weaker
  have records (t : Int) : (after.ledger.tickAt t).debtFactor = factorScale ∧
      (after.ledger.tickAt t).rawDebt = after.staked Holdings.debt t ∧
      (after.ledger.tickAt t).rawCollateral = after.staked Holdings.collateral t := by
    have change := takes.records t
    generalize stored : after.ledger.tickAt t = record at change
    cases change with
    | kept =>
      rw [weaker.staked_kept stored, weaker.staked_kept stored]
      exact ⟨matched.factor t, matched.debt t, matched.collateral t⟩
    | wiped branch =>
      have vacant : (after.ledger.tickAt t).rawDebt = 0 := by
        rw [stored, TickRecord.wiped_rawDebt]
      rw [peopled.staked_vacant vacant, peopled.staked_vacant vacant]
      exact ⟨rfl, rfl, rfl⟩
  refine ⟨fun t => (records t).1, ?_, fun t => (records t).2.1, fun t => (records t).2.2⟩
  rw [takes.positions]
  exact matched.entry

theorem total_staked {part : Holdings Int → Int} {booked : TickRecord Int → Int}
    (sound : vault.ledger.Sound)
    (same : ∀ t, booked (vault.ledger.tickAt t) = vault.staked part t) :
    vault.ledger.ticks.total booked =
      vault.ledger.ticks.total fun record => vault.staked part record.tick := by
  apply Table.total_congr
  intro record member
  obtain ⟨tick, found⟩ := (Table.mem_values_iff sound.distinct).mp member
  rw [(sound.keyed tick record found).1, ← same, Ledger.tickAt_of_get? found]

theorem Matched.surplus (orderly : vault.Orderly) (matched : vault.Matched) :
    vault.surplus = vault.state.totalSupply - (vault.idle + vault.ledger.collateral) := by
  rw [Vault.surplus, claimed_eq orderly.ledger orderly.peopled,
    ← total_staked orderly.ledger matched.collateral]
  rfl

theorem Matched.takes_surplus (orderly : vault.Orderly) (matched : vault.Matched)
    (takes : vault.Takes TickRecord.Cleared after) (orderly' : after.Orderly) :
    after.surplus = vault.surplus := by
  have supply := takes.supply
  rw [matched.surplus orderly, (matched.takes orderly takes).surplus orderly',
    idle_congr takes.positions]
  omega

structure Exact (vault : Vault Int) : Prop where
  factor : ∀ t, (vault.ledger.tickAt t).debtFactor = factorScale
  debt : ∀ t, (vault.ledger.tickAt t).rawDebt = vault.stored Position.debt t
  collateral : ∀ t, (vault.ledger.tickAt t).rawCollateral = vault.stored Position.collateral t
  borrow : vault.state.totalBorrow = vault.realized Holdings.debt
  supply : vault.state.totalSupply = vault.realized Holdings.collateral
  least : ∀ id position t, vault.positions.get? id = some position →
    position.Occupies vault.ledger t →
      minDebt ≤ position.debt - position.dustDebt ∧ 0 < position.collateral

theorem Matched.staked_eq (peopled : vault.Peopled) (matched : vault.Matched)
    (part : Holdings Int → Int) (t : Int) : vault.staked part t = vault.stored
      (fun position => part ⟨position.collateral, position.debt, position.dustDebt⟩) t := by
  apply Table.total_congr
  intro position member
  obtain ⟨id, known⟩ := (Table.mem_values_iff peopled.distinct).mp member
  apply Position.stake_entry
  intro somewhere
  rw [matched.factor, matched.entry id position known somewhere]

theorem Matched.borrow (orderly : vault.Orderly) (matched : vault.Matched) :
    vault.state.totalBorrow = vault.realized Holdings.debt := by
  have idle : (vault.positions.total fun position =>
      if position.tick = none then (0 : Int) else 0) = 0 :=
    Table.total_eq_zero fun _ _ => ite_self _
  rw [realized_eq rfl orderly.ledger orderly.peopled, idle, Int.zero_add,
    ← total_staked orderly.ledger matched.debt]
  exact orderly.debt.symm

theorem Matched.exact (orderly : vault.Orderly) (sized : vault.Sized) (matched : vault.Matched)
    (surplus : vault.surplus = 0) : vault.Exact where
  factor := matched.factor
  debt t := (matched.debt t).trans (matched.staked_eq orderly.peopled Holdings.debt t)
  collateral t :=
    (matched.collateral t).trans (matched.staked_eq orderly.peopled Holdings.collateral t)
  borrow := matched.borrow orderly
  supply := Int.eq_of_sub_eq_zero surplus
  least id position _ known occupies :=
    ⟨(sized id position known).debt occupies.isSome,
      (sized id position known).backed occupies.isSome⟩

end Vault

/-- Liquidations that only wipe ticks, and everything else. -/
def Call.sweeps : Call → Bool
  | .liquidate request _ => request.absorb
  | _ => true

namespace Engine

variable {engine start : Engine Int} {call : Call} {after : Vault Int} {actions : List Action}

theorem Deals.matched (standing : engine.Standing) (sweeps : call.sweeps)
    (deals : engine.Deals call after actions) (matched : engine.vault.Matched)
    (orderly : after.Orderly) : after.Matched ∧ after.surplus = engine.vault.surplus := by
  cases deals with
  | idle => exact ⟨matched, rfl⟩
  | opened opens => exact ⟨matched.opens opens, opens.surplus⟩
  | @operated _ position located _ _ _ _ _ _ _ locates orderly' known books same =>
    obtain ⟨events, rfl⟩ := same
    have found : located.Matched ∧ located.surplus = engine.vault.surplus := by
      cases locates with
      | found _ => exact ⟨matched, rfl⟩
      | opened opens => exact ⟨matched.opens opens, opens.surplus⟩
    have sized := locates.sized standing.sized _ _ known
    have reseated := found.1.reseats orderly' sized known books.reseats
    exact ⟨reseated.congr rfl rfl, (books.reseats.surplus orderly' known).trans found.2⟩
  | liquidated _ cleared _ =>
    have takes := cleared sweeps
    exact ⟨matched.takes standing.vault takes,
      matched.takes_surplus standing.vault takes orderly⟩
  | absorbed takes _ =>
    exact ⟨matched.takes standing.vault takes,
      matched.takes_surplus standing.vault takes orderly⟩

theorem Standing.run_matched (standing : engine.Standing) {calls : List Call}
    (sweeps : ∀ call ∈ calls, call.sweeps) (matched : engine.vault.Matched)
    (surplus : engine.vault.surplus = 0) :
    (engine.run calls).vault.Matched ∧ (engine.run calls).vault.surplus = 0 := by
  induction calls generalizing engine with
  | nil => exact ⟨matched, surplus⟩
  | cons call rest ih =>
    obtain ⟨actions, deals, -⟩ := standing.performs call
    have after := standing.perform call
    obtain ⟨matched', same⟩ :=
      deals.matched standing (sweeps call List.mem_cons_self) matched after.vault
    exact ih after (fun later member => sweeps later (List.mem_cons_of_mem _ member)) matched'
      (same.trans surplus)

theorem New.matched (new : start.New) : start.vault.Matched := by
  obtain ⟨id, config, validated, host, -, rfl⟩ := new.created
  refine ⟨fun t => rfl, ?_, fun t => rfl, fun t => rfl⟩
  intro id position known
  cases known

/-- Shares are what the vault realizes, and as long as no liquidation reduces a tick in part the
books of a vault stay exact, whatever else is called. -/
theorem run_exact (new : start.New) {calls : List Call} (sweeps : ∀ call ∈ calls, call.sweeps) :
    (∀ id position, (start.run calls).vault.positions.get? id = some position →
      (start.run calls).vault.holdings position =
        .ok (position.share (start.run calls).vault.ledger)) ∧
    (start.run calls).vault.Exact := by
  have standing := new.standing.run calls
  obtain ⟨matched, surplus⟩ := new.standing.run_matched sweeps new.matched new.surplus
  refine ⟨fun id position known => ?_, matched.exact standing.vault standing.sized surplus⟩
  exact Vault.holdings_eq (standing.vault.peopled.settled known)

/-- The riskier of two borrowers is seized and part of the pool is sold, and somebody else takes the
place on the wiped tick. -/
def relief : List Call :=
  [borrower "a",
    .operate {
      position := none
      collateral := 2000000000000000000
      debt := 500000000000000000
      signer := "b" },
    .setOracle 450000000000000, .absorb .unlimited,
    .liquidate { debt := 400000000000000000, absorb := true } .unlimited,
    .setOracle 1000000000000000, borrower "c"]

theorem relief_exact :
    standard.New ∧ (∀ call ∈ relief, call.sweeps) ∧ (standard.run relief).vault.Exact ∧
      (standard.run relief).vault.state.totalBorrow = 1501333489190230351 ∧
      0 < (standard.run relief).vault.state.absorbedDebt := by
  have sweeps : ∀ call ∈ relief, call.sweeps := by decide
  refine ⟨standard_new, sweeps, (run_exact standard_new sweeps).2, ?_, ?_⟩
  · decide +kernel
  · decide +kernel

end Engine

end TickVault
