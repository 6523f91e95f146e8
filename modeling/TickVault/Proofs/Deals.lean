import TickVault.Proofs.Realized
import TickVault.Proofs.Served
import TickVault.Proofs.Takings

namespace TickVault

theorem Config.validate_fee {config validated : Config Int}
    (valid : config.validate = .ok validated) : 0 ≤ validated.borrowFee := by
  simp only [Config.validate, bind_eq_ok, toInt_int, Except.ok.injEq, exists_eq_left',
    ensure_eq_ok_iff] at valid
  obtain ⟨_, -, _, -, _, -, _, ⟨fee, -⟩, valid⟩ := valid
  split at valid
  · simp only [bind_eq_ok, pure_eq_ok, Except.ok.injEq] at valid
    obtain ⟨_, -, _, -, rfl⟩ := valid
    exact fee
  · cases valid
    exact fee

namespace Engine

inductive Deals (engine : Engine Int) : Call → Vault Int → List Action → Prop
  | idle {call : Call} : Deals engine call engine.vault []
  | opened {owner : String} {position : Position Int} {after : Vault Int}
      (opens : engine.vault.Opens position after) : Deals engine (.openPosition owner) after []
  | operated {request : OperateRequest} {position : Position Int}
      {located departed after : Vault Int} {departure : Departure Int} {amount netDebt debt : Int}
      {outcome : Rebalance Int}
      (locates : engine.vault.Locates position located) (orderly : located.Orderly)
      (known : located.positions.get? position.id = some position)
      (books : located.Books engine.host.liquidity.prices position request departure departed amount
        netDebt debt outcome)
      (same : ∃ events, after = { outcome.vault with events }) :
      Deals engine (.operate request) after
        (outcome.vault.operateActions request outcome.collateralTransfer outcome.debtTransfer)
  | liquidated {request : LiquidateRequest} {budget : Budget} {debt collateral : Int}
      {after : Vault Int} (takes : engine.vault.Takes TickRecord.Liquidated after)
      (sweeps : request.absorb = true → engine.vault.Takes TickRecord.Cleared after)
      (pays : engine.vault.Pays debt collateral after) :
      Deals engine (.liquidate request budget) after (after.liquidateActions request
        (toAmountUp debt engine.host.liquidity.prices.borrow)
        (toAmountDown collateral engine.host.liquidity.prices.supply))
  | absorbed {budget : Budget} {after : Vault Int}
      (takes : engine.vault.Takes TickRecord.Cleared after) (pays : engine.vault.Pays 0 0 after) :
      Deals engine (.absorb budget) after []

/-- How an engine stands at any point of a run. -/
structure Standing (engine : Engine Int) : Prop extends engine.Governed where
  pooled : engine.vault.Pooled
  sized : engine.vault.Sized
  fee : 0 ≤ engine.vault.config.borrowFee

variable {engine start : Engine Int} {call : Call} {after : Vault Int} {actions : List Action}

theorem Works.deals (standing : engine.Standing) (works : engine.Works call after actions) :
    engine.Deals call after actions := by
  have orderly := standing.vault
  cases works with
  | idle => exact .idle
  | opened created => exact .opened (Vault.createPosition_opens created)
  | operated done =>
    obtain ⟨position, located, outcome, operates⟩ := Vault.operate_ok orderly done
    obtain ⟨orderly', known⟩ := orderly.locates operates.locates
    obtain ⟨_, _, _, _, _, books⟩ := operates.rebalances.books orderly'.toCoherent
      orderly'.peopled standing.supply known
    rw [operates.actions]
    exact .operated operates.locates orderly' known books operates.vault
  | liquidated done =>
    obtain ⟨taken, liquidates⟩ := Vault.liquidate_ok done
    rw [liquidates.actions, ← liquidates.debt, ← liquidates.collateral]
    exact .liquidated (Vault.liquidate_takes orderly.toCoherent done).1
      (fun mode => Vault.liquidate_sweeps orderly mode done)
      (Vault.liquidate_pays orderly standing.governed standing.pooled done)
  | absorbed done =>
    obtain ⟨pass, absorbs⟩ := Vault.absorb_ok done
    rw [absorbs.actions]
    exact .absorbed (Vault.absorb_takes orderly.toCoherent done).1
      (Vault.absorb_pays orderly standing.governed standing.pooled done)

theorem Standing.performs (standing : engine.Standing) (call : Call) :
    ∃ actions, engine.Deals call (engine.perform call).engine.vault actions ∧
      ((engine.perform call).reply ≠ .error .transferRefused →
        engine.host.Booked actions (engine.perform call).engine.host) := by
  obtain ⟨actions, works, booked⟩ := perform_works engine call
  exact ⟨actions, works.deals standing, booked⟩

theorem Deals.keeps (standing : engine.Standing) (deals : engine.Deals call after actions) :
    after.Pooled ∧ after.Sized ∧ after.config = engine.vault.config ∧
      after.state.vaultId = engine.vault.state.vaultId := by
  cases deals with
  | idle => exact ⟨standing.pooled, standing.sized, rfl, rfl⟩
  | opened opens =>
    have spared := opens.spared
    exact ⟨standing.pooled.spared spared, opens.sized standing.sized, spared.config, spared.vaultId⟩
  | operated locates orderly known books same =>
    obtain ⟨events, rfl⟩ := same
    have spared := locates.spared.trans books.spared
    have pooled := standing.pooled.spared spared
    have sized := books.sized (locates.sized standing.sized)
    exact ⟨⟨pooled.debt, pooled.collateral⟩, sized.congr rfl, spared.config, spared.vaultId⟩
  | liquidated takes sweeps pays =>
    exact ⟨pays.pooled, standing.sized.congr pays.positions, pays.config, pays.vaultId⟩
  | absorbed takes pays =>
    exact ⟨pays.pooled, standing.sized.congr pays.positions, pays.config, pays.vaultId⟩

theorem Standing.perform (standing : engine.Standing) (call : Call) :
    (engine.perform call).engine.Standing := by
  obtain ⟨actions, deals, -⟩ := standing.performs call
  obtain ⟨pooled, sized, config, -⟩ := deals.keeps standing
  exact ⟨standing.toGoverned.perform call, pooled, sized, config ▸ standing.fee⟩

theorem New.standing (new : start.New) : start.Standing := by
  have governed := new.governed
  obtain ⟨id, config, validated, host, valid, rfl⟩ := new.created
  refine ⟨governed, ⟨Int.le_refl 0, Int.le_refl 0⟩, ?_, Config.validate_fee valid⟩
  intro id position known
  cases known

theorem Standing.run (standing : engine.Standing) (calls : List Call) :
    (engine.run calls).Standing := by
  induction calls generalizing engine with
  | nil => exact standing
  | cons call rest ih => exact ih (standing.perform call)

theorem Standing.run_keeps (standing : engine.Standing) (promise : Engine Int → Prop)
    (kept : ∀ (engine : Engine Int) (call : Call), engine.Standing → promise engine →
      promise (engine.perform call).engine)
    (holds : promise engine) (calls : List Call) : promise (engine.run calls) := by
  induction calls generalizing engine with
  | nil => exact holds
  | cons call rest ih => exact ih (standing.perform call) (kept engine call standing holds)

theorem run_prices (engine : Engine Int) (calls : List Call) :
    engine.host.liquidity.prices.supply ≤ (engine.run calls).host.liquidity.prices.supply ∧
      engine.host.liquidity.prices.borrow ≤ (engine.run calls).host.liquidity.prices.borrow := by
  induction calls generalizing engine with
  | nil => exact ⟨Int.le_refl _, Int.le_refl _⟩
  | cons call rest ih =>
    have now := perform_prices engine call
    have later := ih (engine.perform call).engine
    exact ⟨Int.le_trans now.1 later.1, Int.le_trans now.2 later.2⟩

end Engine

end TickVault
