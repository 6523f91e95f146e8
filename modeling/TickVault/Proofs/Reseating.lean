import TickVault.Proofs.Occupancy

namespace TickVault

namespace Vault

variable {vault after : Vault Int} {id : Int} {position position' : Position Int}

theorem get?_unseat (departed : Vault Int) (position : Position Int) (amount : Int) :
    (departed.putAt (unseat position amount)).positions.get? position.id =
      some (unseat position amount) := by
  rw [get?_putAt, unseat_id, if_pos rfl]

theorem unseat_free {departed : Vault Int} {position : Position Int} {amount : Int} :
    ∀ old, (departed.putAt (unseat position amount)).positions.get? position.id = some old →
      old.tick = none := by
  intro old found
  rw [get?_unseat] at found
  cases found
  rfl

theorem applyCollateral_nonneg {held change price collateral moved : Int} (funded : 0 ≤ held)
    (positive : 0 < price)
    (applied : applyCollateral held change price = .ok (collateral, moved)) : 0 ≤ collateral := by
  unfold applyCollateral at applied
  split at applied
  · rename_i deposit
    simp only [toRawDown, floorDiv_of_pos positive, ok_bind, toInt_int, bind_eq_ok, pure_eq_ok,
      Except.ok.injEq, Prod.mk.injEq, ofInt_int] at applied
    obtain ⟨_, -, _, rfl, rfl, -⟩ := applied
    have added : 0 ≤ change * priceScale / price := by
      apply Int.ediv_nonneg
      · exact Int.mul_nonneg (Int.le_of_lt deposit) (by decide)
      · exact Int.le_of_lt positive
    omega
  split at applied
  · cases applied
    exact Int.le_refl 0
  split at applied
  · simp only [bind_eq_ok, toInt_int, Except.ok.injEq, exists_eq_left', ensure_eq_ok_iff,
      pure_eq_ok, Prod.mk.injEq, ofInt_int] at applied
    obtain ⟨withdrawn, -, _, covered, rfl, -⟩ := applied
    omega
  · cases applied
    exact funded

theorem Peopled.share_nonneg (peopled : vault.Peopled)
    (known : vault.positions.get? id = some position) :
    0 ≤ (position.share vault.ledger).collateral := by
  have funded := peopled.funded id position known
  unfold Position.share
  split
  · rename_i tick here
    unfold Position.shareOf
    split
    · exact Int.le_refl 0
    split
    · exact funded
    rename_i alive other
    have factor := peopled.factor tick
    have less := (peopled.seated id position known).factor tick ⟨here, alive⟩
    apply Int.ediv_nonneg
    · exact Int.mul_nonneg funded factor
    · exact Int.le_trans factor less
  · exact funded

/-- Where an operation puts a position down, with its new collateral and net debt: without debt off
every tick, else on the tick of its ratio with that debt rounded up. -/
inductive Lands (position : Position Int) (departed : Vault Int) (amount netDebt : Int) :
    Int → Vault Int → Prop
  | off {after : Vault Int} (free : netDebt = 0) (ledger : after.ledger = departed.ledger)
      (positions : after.positions = (departed.putAt (unseat position amount)).positions) :
      Lands position departed amount netDebt 0 after
  | on {joined after : Vault Int} {tick debt branch : Int} {kept : Bool}
      (enough : minDebt ≤ netDebt) (raised : netDebt ≤ debt) (backed : amount ≠ 0)
      (joins : (departed.putAt (unseat position amount)).Joins
        tick debt amount branch kept joined)
      (returns : kept = true → (departed.putAt (unseat position amount)).Owns position tick)
      (ledger : after.ledger = joined.ledger)
      (positions : after.positions = (joined.putAt (seat departed.ledger position kept tick debt
        branch (debt - netDebt) amount)).positions) :
      Lands position departed amount netDebt debt after

structure Books (vault : Vault Int) (prices : ExchangePrices) (position : Position Int)
    (request : OperateRequest) (departure : Departure Int) (departed : Vault Int)
    (amount netDebt debt : Int) (outcome : Rebalance Int) : Prop where
  departs : vault.Departs position departure departed
  leaves : vault.Leaves position departure departed
  coherent : departed.Coherent
  supplied : applyCollateral (position.share vault.ledger).collateral request.collateral
    prices.supply = .ok (amount, outcome.collateralTransfer)
  borrowed : applyDebt ((position.share vault.ledger).debt - (position.share vault.ledger).dustDebt)
    request.debt prices.borrow vault.config.borrowFee = .ok (netDebt, outcome.debtTransfer)
  funded : 0 ≤ amount
  lands : Lands position departed amount netDebt debt outcome.vault
  config : outcome.vault.config = vault.config
  state : ∃ topmost current total flag, outcome.vault.state = { vault.state with
    topmost, currentBranch := current, totalBranch := total, branchLiquidated := flag
    absorbedDust := departed.state.absorbedDust
    totalSupply := vault.state.totalSupply + (amount - (position.share vault.ledger).collateral)
    totalBorrow := vault.state.totalBorrow + (debt - departure.removed) }

theorem Rebalances.books {prices : ExchangePrices} {request : OperateRequest}
    {outcome : Rebalance Int} (coherent : vault.Coherent) (peopled : vault.Peopled)
    (positive : 0 < prices.supply) (known : vault.positions.get? position.id = some position)
    (done : vault.Rebalances prices position request outcome) :
    ∃ departure departed amount netDebt debt,
      vault.Books prices position request departure departed amount netDebt debt outcome := by
  obtain ⟨departure, departed, placed, collateral, netDebt, position', state, departs, applied,
    applied', placing, -, shifted, after⟩ := done.parts
  have seated := peopled.seated _ _ known
  obtain ⟨leaves, departed_coherent⟩ := coherent.depart seated.known departs
  rw [leaves.holdings] at applied applied' shifted
  rw [leaves.config] at applied'
  have funded := applyCollateral_nonneg (peopled.share_nonneg known) positive applied
  obtain ⟨dust, topmost, cursor⟩ := leaves.state
  have booked := shiftTotals_ok shifted
  rcases placing with ⟨free, rfl, rfl⟩ | ⟨-, entered⟩
  · have lands : Lands position placed collateral netDebt 0 outcome.vault :=
      .off free (by rw [after]) (by rw [after]; rfl)
    refine ⟨departure, placed, collateral, netDebt, 0, departs, leaves, departed_coherent, applied,
      applied', funded, lands, ?_, ?_⟩
    · rw [after]
      exact leaves.config
    · rw [after, booked, cursor]
      exact ⟨_, _, _, _, rfl⟩
  · obtain ⟨tick, debt, branch, more, joins, rfl, -⟩ := departed_coherent.enter entered
    have joins' : (departed.putAt (unseat position collateral)).Joins tick debt collateral
        branch (keeps position departure.wiped tick)
        (placed.putAt (unseat position collateral)) :=
      ⟨joins.range, joins.ticks, joins.config, by rw [putAt, putAt, joins.positions], joins.state⟩
    have returns (kept : keeps position departure.wiped tick = true) :
        (departed.putAt (unseat position collateral)).Owns position tick := by
      have occupies := leaves.returns tick kept
      have slot := seated.slot tick occupies.1
      constructor
      · change (departed.ledger.tickAt tick).liquidatedSlot < _
        rw [leaves.terms.liquidatedSlot]
        by_contra wiped
        exact occupies.2 ⟨slot.1, Int.not_lt.mp wiped⟩
      · exact Int.le_trans slot.2 (leaves.terms.totalIds tick)
      · intro other neighbour different there here same
        rw [get?_putAt, leaves.positions, unseat_id, if_neg (Ne.symm different)] at there
        exact different (peopled.apart _ _ _ _ tick there known here occupies.1 same)
    have lands : Lands position departed collateral netDebt debt outcome.vault := by
      refine .on entered.enough more entered.backed joins' returns (by rw [after]; rfl) ?_
      rw [after]
      exact (Table.insert_insert _ _ _ _).symm
    obtain ⟨_, _, _, _, same⟩ := joins.state
    refine ⟨departure, departed, collateral, netDebt, debt, departs, leaves, departed_coherent,
      applied, applied', funded, lands, ?_, ?_⟩
    · rw [after]
      exact joins.config.trans leaves.config
    · rw [after, booked, same, cursor]
      exact ⟨_, _, _, _, rfl⟩

inductive Reseats (vault : Vault Int) (position : Position Int) : Vault Int → Prop
  | off {departure : Departure Int} {departed after : Vault Int} {amount : Int}
      (leaves : vault.Leaves position departure departed) (funded : 0 ≤ amount)
      (ledger : after.ledger = departed.ledger)
      (positions : after.positions =
        (departed.putAt (unseat position amount)).positions)
      (supply : after.state.totalSupply =
        vault.state.totalSupply + (amount - (position.share vault.ledger).collateral)) :
      Reseats vault position after
  | on {departure : Departure Int} {departed joined after : Vault Int}
      {tick debt branch dust amount : Int} {kept : Bool}
      (leaves : vault.Leaves position departure departed) (funded : 0 ≤ amount)
      (coherent : departed.Coherent)
      (joins : (departed.putAt (unseat position amount)).Joins
        tick debt amount branch kept joined)
      (enough : minDebt ≤ debt)
      (returns : kept = true →
        (departed.putAt (unseat position amount)).Owns position tick)
      (ledger : after.ledger = joined.ledger)
      (positions : after.positions = (joined.putAt (seat departed.ledger position kept tick debt
        branch dust amount)).positions)
      (supply : after.state.totalSupply =
        vault.state.totalSupply + (amount - (position.share vault.ledger).collateral)) :
      Reseats vault position after

theorem Books.reseats {prices : ExchangePrices} {request : OperateRequest}
    {departure : Departure Int} {departed : Vault Int} {amount netDebt debt : Int}
    {outcome : Rebalance Int}
    (books : vault.Books prices position request departure departed amount netDebt debt outcome) :
    vault.Reseats position outcome.vault := by
  obtain ⟨_, _, _, _, state⟩ := books.state
  have supply := congrArg VaultState.totalSupply state
  cases books.lands with
  | off _ ledger positions => exact .off books.leaves books.funded ledger positions supply
  | on enough raised _ joins returns ledger positions =>
    exact .on books.leaves books.funded books.coherent joins (Int.le_trans enough raised) returns
      ledger positions supply

theorem Rebalances.reseats {prices : ExchangePrices} {request : OperateRequest}
    {outcome : Rebalance Int} (coherent : vault.Coherent) (peopled : vault.Peopled)
    (positive : 0 < prices.supply) (known : vault.positions.get? position.id = some position)
    (done : vault.Rebalances prices position request outcome) :
    vault.Reseats position outcome.vault := by
  obtain ⟨_, _, _, _, _, books⟩ := done.books coherent peopled positive known
  exact books.reseats

theorem Peopled.reseats (peopled : vault.Peopled) (coherent : vault.Coherent)
    (known : vault.positions.get? position.id = some position)
    (reseats : vault.Reseats position after) : after.Peopled := by
  cases reseats with
  | off leaves funded ledger positions supply =>
    have vacant := peopled.leave coherent known leaves (unseat_id ..) (unseat_tick ..) funded
    exact vacant.congr ledger positions
  | on leaves funded departed_coherent joins enough returns ledger positions supply =>
    have vacant := peopled.leave coherent known leaves (unseat_id ..) (unseat_tick ..) funded
    refine (vacant.join ?_ unseat_free joins enough returns funded).congr ledger positions
    exact ⟨⟨departed_coherent.ledger, departed_coherent.current⟩, departed_coherent.topmost⟩

end Vault

end TickVault
