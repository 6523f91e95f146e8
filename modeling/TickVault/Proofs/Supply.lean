import TickVault.Proofs.Deals
import TickVault.Proofs.Resumption.Modes

namespace TickVault

theorem shiftTotals_nonneg {state state' : VaultState Int} {supplyChange borrowChange : Int}
    (shifted : state.shiftTotals supplyChange borrowChange = .ok state')
    (nonneg : 0 ≤ state.totalSupply) : 0 ≤ state'.totalSupply := by
  simp only [VaultState.shiftTotals, shiftTotal, bind_eq_ok, pure_eq_ok, Except.ok.injEq]
    at shifted
  obtain ⟨supply, supplied, borrow, -, rfl⟩ := shifted
  change 0 ≤ supply
  split at supplied
  · simp only [bind_eq_ok, toInt_int, Except.ok.injEq, ofInt_int, exists_eq_left'] at supplied
    obtain ⟨sum, added, rfl⟩ := supplied
    have total := (checkedAdd_ok added).2
    omega
  · simp only [bind_eq_ok, Except.ok.injEq, ofInt_int] at supplied
    obtain ⟨left, taken, rfl⟩ := supplied
    have covered := checkedSub_ok taken
    omega

theorem Pass.book_supply {pass : Pass Int} {booked : Vault Int} (books : pass.book = .ok booked)
    (nonneg : 0 ≤ pass.vault.state.totalSupply) : 0 ≤ booked.state.totalSupply := by
  simp only [Pass.book, bind_eq_ok, pure_eq_ok, Except.ok.injEq] at books
  obtain ⟨state, shifted, rfl⟩ := books
  exact shiftTotals_nonneg shifted nonneg

theorem sellAbsorbed_supply {state state' : VaultState Int} {requested debt collateral : Int}
    (sold : state.sellAbsorbed requested = .ok (debt, collateral, state')) :
    state'.totalSupply = state.totalSupply := by
  simp only [VaultState.sellAbsorbed, toInt_int, ok_bind] at sold
  split at sold
  · cases sold
    rfl
  · simp only [bind_eq_ok, pure_eq_ok, Except.ok.injEq, Prod.mk.injEq] at sold
    obtain ⟨_, -, -, -, rfl⟩ := sold
    rfl

namespace Vault

variable {vault middle after located : Vault Int} {position : Position Int} {host : Host}
  {budget left : Budget} {limit requested : Int}

theorem Locates.supply (locates : vault.Locates position located) :
    located.state.totalSupply = vault.state.totalSupply := by
  cases locates with
  | found _ => rfl
  | opened opens =>
    obtain ⟨_, _, state⟩ := opens.counts
    rw [state]

/-- A position comes off its tick and onto another one at the same supply; the change of its
collateral is booked last. -/
theorem Rebalances.supply_nonneg {prices : ExchangePrices} {request : OperateRequest}
    {outcome : Rebalance Int} (coherent : vault.Coherent)
    (known : ∀ tick, position.tick = some tick → (vault.ledger.ticks.get? tick).isSome)
    (done : vault.Rebalances prices position request outcome)
    (nonneg : 0 ≤ vault.state.totalSupply) : 0 ≤ outcome.vault.state.totalSupply := by
  obtain ⟨departure, departed, placed, _, _, _, _, departs, -, -, placing, -, shifted, after⟩ :=
    done.parts
  obtain ⟨leaves, departed_coherent⟩ := coherent.depart known departs
  obtain ⟨_, _, cursor⟩ := leaves.state
  have same : placed.state.totalSupply = vault.state.totalSupply := by
    rcases placing with ⟨-, -, rfl⟩ | ⟨-, entered⟩
    · rw [cursor]
    · obtain ⟨_, _, _, -, joins, -⟩ := departed_coherent.enter entered
      obtain ⟨_, _, _, _, state⟩ := joins.state
      rw [state, cursor]
  rw [after]
  apply shiftTotals_nonneg shifted
  rw [same]
  exact nonneg

theorem settleTopmost_supply {start : Option Int}
    (settled : middle.settleTopmost start = .ok after) :
    after.state.totalSupply = middle.state.totalSupply := by
  obtain ⟨topmost, rfl⟩ := settleTopmost_eq settled
  rfl

theorem sweep_supply {pass : Pass Int} (orderly : vault.Orderly) (governed : vault.Governed)
    (swept : attempt budget (vault.sweep limit) = .ok (pass, left)) :
    pass.vault.state.totalSupply = vault.state.totalSupply := by
  obtain ⟨ticks, walk, -, filled, rfl⟩ :=
    sweep_fills orderly.toCoherent governed (Int.le_refl _) swept
  exact (governed.walked orderly filled).supply

theorem take_supply {request : LiquidateRequest} {taken : Liquidation Int} (orderly : vault.Orderly)
    (governed : vault.Governed)
    (took : attempt budget (vault.take limit request) = .ok (taken, left))
    (nonneg : 0 ≤ vault.state.totalSupply) : 0 ≤ taken.vault.state.totalSupply := by
  unfold take at took
  split at took
  · obtain ⟨pass, booked, _, _, state, swept, books, sold, rfl⟩ := absorbAbove_iff.mp took
    change 0 ≤ state.totalSupply
    rw [sellAbsorbed_supply sold]
    apply Pass.book_supply books
    rw [sweep_supply orderly governed swept]
    exact nonneg
  · obtain ⟨ticks, pass, booked, -, filled, books, rfl⟩ := fillAbove_iff.mp took
    apply Pass.book_supply books
    rw [(governed.walked orderly filled).supply]
    exact nonneg

end Vault

namespace Engine

variable {engine start : Engine Int} {call : Call} {after : Vault Int} {actions : List Action}

theorem Works.supply_nonneg (standing : engine.Standing) (works : engine.Works call after actions)
    (nonneg : 0 ≤ engine.vault.state.totalSupply) : 0 ≤ after.state.totalSupply := by
  have orderly := standing.vault
  cases works with
  | idle => exact nonneg
  | opened created =>
    rw [(Vault.Locates.opened (Vault.createPosition_opens created)).supply]
    exact nonneg
  | operated done =>
    obtain ⟨position, located, outcome, operates⟩ := Vault.operate_ok orderly done
    obtain ⟨located_orderly, known⟩ := orderly.locates operates.locates
    obtain ⟨events, same⟩ := operates.vault
    rw [same]
    apply operates.rebalances.supply_nonneg located_orderly.toCoherent
    · exact (located_orderly.peopled.seated _ _ known).known
    · rw [operates.locates.supply]
      exact nonneg
  | liquidated done =>
    obtain ⟨taken, liquidates⟩ := Vault.liquidate_ok done
    obtain ⟨limit, -, took⟩ := liquidates.took
    obtain ⟨settled, events, settles, same⟩ := liquidates.settled
    rw [same]
    change 0 ≤ settled.state.totalSupply
    rw [Vault.settleTopmost_supply settles]
    exact Vault.take_supply orderly standing.governed took nonneg
  | absorbed done =>
    obtain ⟨pass, absorbs⟩ := Vault.absorb_ok done
    obtain ⟨limit, -, swept⟩ := absorbs.swept
    obtain ⟨booked, settled, events, books, settles, same⟩ := absorbs.settled
    rw [same]
    change 0 ≤ settled.state.totalSupply
    rw [Vault.settleTopmost_supply settles]
    apply Pass.book_supply books
    rw [Vault.sweep_supply orderly standing.governed swept]
    exact nonneg

theorem New.supply (new : start.New) : start.vault.state.totalSupply = 0 := by
  obtain ⟨id, config, validated, host, -, rfl⟩ := new.created
  rfl

theorem New.run_supply_nonneg (new : start.New) (calls : List Call) :
    0 ≤ (start.run calls).vault.state.totalSupply := by
  apply new.standing.run_keeps fun engine => 0 ≤ engine.vault.state.totalSupply
  · intro engine call standing nonneg
    obtain ⟨actions, works, -⟩ := perform_works engine call
    exact works.supply_nonneg standing nonneg
  · exact Int.le_of_eq new.supply.symm

end Engine

end TickVault
