import TickVault.Proofs.Share

namespace TickVault

@[simp] theorem any_same_int (tick : Int) (written : Option Int) :
    written.any (same tick) = decide (written = some tick) := by
  cases written <;> simp [eq_comm]

namespace TickRecord

def removal (record : TickRecord Int) (debt : Int) : Int :=
  if record.occupants = 1 then record.rawDebt else max (min debt (record.rawDebt - 1)) 0

def vacatedBy (record : TickRecord Int) (debt collateral : Int) : TickRecord Int :=
  ({ record with occupants := record.occupants - 1 } : TickRecord Int).shrunk debt collateral

def joinedBy (record : TickRecord Int) (debt collateral branch : Int) (keeps : Bool) :
    TickRecord Int :=
  { record.grown debt collateral branch with
    occupants := record.occupants + 1
    totalIds := if keeps then record.totalIds else record.totalIds + 1 }

end TickRecord

namespace Vault

theorem vacate_eq (vault : Vault Int) (tick : Int) (record : TickRecord Int)
    (holdings : Holdings Int) :
    vault.vacate tick record holdings = (do
      let removed := record.removal holdings.debt
      let (left, ledger) ←
        attempt (vault.ledger.put tick { record with occupants := record.occupants - 1 })
          (Ledger.removeDebt tick removed holdings.collateral)
      let swept := if record.occupants = 1 then removed - min holdings.debt removed else 0
      let topmost :=
        if left.rawDebt = 0 ∧ vault.state.topmost = some tick then ledger.bitmap.below? tick
        else vault.state.topmost
      let absorbedDust := vault.state.absorbedDust + swept
      return (removed, { vault with
        ledger, state := { vault.state with absorbedDust, topmost } })) := by
  simp only [vacate, toInt_int, ofInt_int, same_int, ok_bind, pure_eq_ok, onLedger_eq,
    attempt_bind, Ledger.attempt_putRecord, VaultState.absorbDust, gather_int, any_same_int,
    TickRecord.removal]
  by_cases alone : record.occupants = 1
  · have empty : record.occupants - 1 = 0 := by omega
    simp only [if_pos alone, if_pos empty]
    cases attempt (vault.ledger.put tick { record with occupants := record.occupants - 1 })
        (Ledger.removeDebt tick record.rawDebt holdings.collateral) with
    | error fault => rfl
    | ok done =>
      by_cases top : done.1.rawDebt = 0 ∧ vault.state.topmost = some tick
      · simp [top.1, top.2]
      · simp [if_neg top]
  · have others : ¬ record.occupants - 1 = 0 := by omega
    simp only [if_neg alone, if_neg others]
    cases attempt (vault.ledger.put tick { record with occupants := record.occupants - 1 })
        (Ledger.removeDebt tick (max (min holdings.debt (record.rawDebt - 1)) 0)
          holdings.collateral) with
    | error fault => rfl
    | ok done =>
      by_cases top : done.1.rawDebt = 0 ∧ vault.state.topmost = some tick
      · simp [top.1, top.2]
      · simp [if_neg top]

inductive Departs (vault : Vault Int) (position : Position Int) :
    Departure Int → Vault Int → Prop
  | untied (free : position.tick = none) :
      Departs vault position ⟨position.share vault.ledger, false, 0⟩ vault
  | wiped {tick : Int} (here : position.tick = some tick)
      (gone : ¬ position.Occupies vault.ledger tick) :
      Departs vault position ⟨position.share vault.ledger, true, 0⟩
        { vault with
          state := { vault.state with
            absorbedDust := vault.state.absorbedDust + position.dustDebt } }
  | left {tick removed : Int} {after : Vault Int} (occupies : position.Occupies vault.ledger tick)
      (vacated : vault.vacate tick (vault.ledger.tickAt tick) (position.share vault.ledger) =
        .ok (removed, after)) :
      Departs vault position ⟨position.share vault.ledger, false, removed⟩ after

theorem depart_ok {vault after : Vault Int} {position : Position Int} {departure : Departure Int}
    (settled : position.Settled vault.ledger)
    (departed : vault.depart position = .ok (departure, after)) :
    vault.Departs position departure after := by
  simp only [depart, holdings_eq settled, ok_bind] at departed
  cases here : position.tick with
  | none =>
    simp only [Position.record?, here, ok_bind, pure_eq_ok, Except.ok.injEq, Prod.mk.injEq]
      at departed
    obtain ⟨rfl, rfl⟩ := departed
    exact .untied here
  | some tick =>
    obtain ⟨record, found⟩ := Option.isSome_iff_exists.mp (settled.known tick here)
    have stored := Ledger.tickAt_of_get? found
    simp only [Position.record?, here, Ledger.peek?_int, found, ok_bind,
      TickRecord.slotLiquidated_int, decide_eq_true_eq] at departed
    split at departed
    · rename_i wiped
      cases departed
      exact .wiped here fun occupies => occupies.2 (stored ▸ wiped)
    · rename_i alive
      simp only [bind_eq_ok, pure_eq_ok, Except.ok.injEq, Prod.mk.injEq] at departed
      obtain ⟨⟨removed, left⟩, vacated, rfl, rfl⟩ := departed
      exact .left ⟨here, stored ▸ alive⟩ (stored ▸ vacated)

/-- Whether a position that comes back to a tick keeps the slot it has there. -/
def keeps (position : Position Int) (wiped : Bool) (tick : Int) : Bool :=
  decide (position.tick = some tick) && !wiped && decide (0 < position.tickSlot)

theorem attempt_occupy (ledger : Ledger Int) (position : Position Int) (wiped : Bool)
    (tick debt collateral branch : Int) :
    attempt ledger (occupy position wiped tick debt collateral branch) = (do
      let (record, ledger) ← attempt ledger (Ledger.addDebt tick debt collateral branch)
      let kept := keeps position wiped tick
      let record :=
        { record with
          occupants := record.occupants + 1
          totalIds := if kept then record.totalIds else record.totalIds + 1 }
      return ((if kept then position.tickSlot else record.totalIds, record.debtFactor),
        ledger.put tick record)) := by
  simp only [occupy, attempt_bind, ofInt_int, toInt_int]
  cases attempt ledger (Ledger.addDebt tick debt collateral branch) with
  | error fault => rfl
  | ok done =>
    obtain ⟨record, after⟩ := done
    have slot : keptSlot position wiped tick =
        .ok (if keeps position wiped tick then some position.tickSlot else none) := by
      simp only [keptSlot, ofInt_int, any_same_int, toInt_int, ok_bind, keeps]
      by_cases back : position.tick = some tick <;> by_cases positive : 0 < position.tickSlot <;>
        cases wiped <;> simp [back, positive]
    by_cases kept : keeps position wiped tick = true
    · simp [slot, kept]
    · simp [slot, kept, Ledger.attempt_allocateSlot]

/-- How a vault comes to an active current branch: it has one, or it forks one. -/
inductive Branches (vault : Vault Int) : Int → Vault Int → Prop
  | current : Branches vault vault.state.currentBranch vault
  | forked {branch : Int} {after : Vault Int} (done : vault.forkBranch = .ok (branch, after)) :
      Branches vault branch after

theorem ensureBranch_ok {vault after : Vault Int} {branch : Int}
    (ensured : vault.ensureBranch = .ok (branch, after)) : vault.Branches branch after := by
  simp only [ensureBranch] at ensured
  split at ensured
  · exact .forked ensured
  · obtain ⟨found, -, ensured⟩ := bind_eq_ok.mp ensured
    split at ensured
    · exact .forked ensured
    · cases ensured
      exact .current

theorem forkBranch_ok {vault after : Vault Int} {branch : Int}
    (forked : vault.forkBranch = .ok (branch, after)) :
    ∃ branches, vault.ledger.branches.fork vault.state.currentBranch = .ok (branch, branches) ∧
      after = { vault with
        ledger := { vault.ledger with branches }
        state := { vault.state with
          currentBranch := branch, totalBranch := branches.total, branchLiquidated := .flag false }
        events := vault.events ++ [.branchCreated branch vault.state.currentBranch] } := by
  simp only [forkBranch, bind_eq_ok, pure_eq_ok, Except.ok.injEq, Prod.mk.injEq] at forked
  obtain ⟨⟨id, branches⟩, forked, rfl, rfl⟩ := forked
  exact ⟨branches, forked, rfl⟩

theorem reach_int (state : VaultState Int) (tick : Int) :
    state.reach tick = .ok { state with
      topmost := if writeTick state.topmost < tick then some tick else state.topmost } := by
  simp only [VaultState.reach, toInt_int, ok_bind, pure_eq_ok, ofInt_int]
  by_cases higher : writeTick state.topmost < tick
  · simp [higher]
  · simp [if_neg higher]

structure Enters (vault : Vault Int) (position : Position Int) (wiped : Bool)
    (collateral netDebt : Int) (position' : Position Int) (after : Vault Int) : Prop where
  enough : minDebt ≤ netDebt
  backed : collateral ≠ 0
  placed : ∃ (tick debt branch slot factor : Int) (middle : Vault Int) (ledger : Ledger Int),
    positionTick netDebt collateral = .ok (tick, debt) ∧ vault.Branches branch middle ∧
    attempt middle.ledger (occupy position wiped tick debt collateral branch) =
      .ok ((slot, factor), ledger) ∧
    position' = { position with
      tick := some tick, tickSlot := slot, branch, debtFactor := factor, debt
      dustDebt := debt - netDebt } ∧
    after = { middle with
      ledger
      state := { middle.state with
        topmost := if writeTick middle.state.topmost < tick then some tick
          else middle.state.topmost } }

theorem enter_ok {vault after : Vault Int} {position position' : Position Int} {wiped : Bool}
    {collateral netDebt : Int}
    (entered : vault.enter position wiped collateral netDebt = .ok (position', after)) :
    vault.Enters position wiped collateral netDebt position' after := by
  simp only [enter, bind_eq_ok, ensure_eq_ok_iff, toInt_int, Except.ok.injEq, exists_eq_left',
    onLedger_eq, map_eq_ok] at entered
  obtain ⟨_, enough, _, backed, ratio, divided, _, bounded, ⟨tick, debt⟩, ticked, ⟨branch, middle⟩,
    ensured, _, ⟨⟨⟨slot, factor⟩, ledger⟩, occupied, rfl⟩, state, reached, entered⟩ := entered
  cases entered
  refine ⟨enough, backed, tick, debt, branch, _, _, middle, _, ticked, ensureBranch_ok ensured,
    occupied, rfl, ?_⟩
  rw [reach_int] at reached
  cases reached
  rfl

theorem place_ok {vault after : Vault Int} {position position' : Position Int} {wiped : Bool}
    {collateral netDebt : Int}
    (placed : vault.place position wiped collateral netDebt = .ok (position', after)) :
    netDebt = 0 ∧ position' = position.cleared ∧ after = vault ∨
      netDebt ≠ 0 ∧ vault.Enters position wiped collateral netDebt position' after := by
  unfold place at placed
  split at placed
  · cases placed
    exact .inl ⟨‹_›, rfl, rfl⟩
  · exact .inr ⟨‹_›, enter_ok placed⟩

structure Rebalances (vault : Vault Int) (prices : ExchangePrices) (position : Position Int)
    (request : OperateRequest) (outcome : Rebalance Int) : Prop where
  parts : ∃ (departure : Departure Int) (departed placed : Vault Int) (collateral netDebt : Int)
    (position' : Position Int) (state : VaultState Int),
    vault.Departs position departure departed ∧
    applyCollateral departure.holdings.collateral request.collateral prices.supply =
      .ok (collateral, outcome.collateralTransfer) ∧
    applyDebt (departure.holdings.debt - departure.holdings.dustDebt) request.debt prices.borrow
      departed.config.borrowFee = .ok (netDebt, outcome.debtTransfer) ∧
    (netDebt = 0 ∧ position' = position.cleared ∧ placed = departed ∨
      netDebt ≠ 0 ∧
        departed.Enters position departure.wiped collateral netDebt position' placed) ∧
    outcome.position = { position' with collateral } ∧
    placed.state.shiftTotals (collateral - departure.holdings.collateral)
      (position'.debt - departure.removed) = .ok state ∧
    outcome.vault = { placed with
      state, positions := placed.positions.insert position'.id { position' with collateral } }

theorem rebalance_ok {vault : Vault Int} {prices : ExchangePrices} {position : Position Int}
    {request : OperateRequest} {outcome : Rebalance Int} (settled : position.Settled vault.ledger)
    (done : vault.rebalance prices position request = .ok outcome) :
    vault.Rebalances prices position request outcome := by
  simp only [rebalance, bind_eq_ok, toInt_int, Except.ok.injEq, exists_eq_left', pure_eq_ok,
    Holdings.netDebt, putPosition, key_int] at done
  obtain ⟨⟨departure, departed⟩, left, ⟨collateral, moved⟩, applied, ⟨netDebt, owed⟩, applied',
    ⟨position', placed⟩, entered, state, shifted, _, rfl, rfl⟩ := done
  exact ⟨departure, departed, placed, collateral, netDebt, position', state, depart_ok settled left,
    applied, applied', place_ok entered, rfl, shifted, rfl⟩

end Vault

end TickVault
