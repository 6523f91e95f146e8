import TickVault.Proofs.Deals
import TickVault.Proofs.Rounding

namespace TickVault

def Transfer.brings (address : String) (mint : Document) (sent : Transfer) : Int :=
  if sent.mint = mint then
    (if sent.destination = address then sent.amount else 0) -
      (if sent.source = address then sent.amount else 0)
  else 0

def custody (address : String) (mint : Document) (transfers : List Transfer) : Int :=
  (transfers.map (Transfer.brings address mint)).sum

theorem custody_append (address : String) (mint : Document) (first second : List Transfer) :
    custody address mint (first ++ second) =
      custody address mint first + custody address mint second := by
  simp [custody]

def Call.Apart (address : String) : Call → Prop
  | .operate request => request.signer ≠ address ∧ request.recipient ≠ some address
  | .liquidate request _ => request.signer ≠ address ∧ request.recipient ≠ some address
  | _ => True

theorem recipientOr_ne {address signer : String} {recipient : Option String}
    (apart : signer ≠ address ∧ recipient ≠ some address) :
    recipientOr signer recipient ≠ address := by
  cases recipient with
  | none => exact apart.1
  | some name =>
    simp only [recipientOr]
    split
    · exact apart.1
    · exact fun same => apart.2 (congrArg some same)

namespace Vault

variable {vault after : Vault Int}

theorem liquidityAddress_ne (vault : Vault Int) : liquidityAddress ≠ vault.address := by
  intro same
  have first := congrArg (fun name => name.toList.head?) same
  simp [liquidityAddress, address] at first

theorem operateActions_custody {request : OperateRequest}
    (apart : request.signer ≠ vault.address ∧ request.recipient ≠ some vault.address)
    (collateralTransfer debtTransfer : Int) :
    custody vault.address vault.config.supplyMint
        ((vault.operateActions request collateralTransfer debtTransfer).flatMap Action.moved) =
      collateralTransfer := by
  have recipient := recipientOr_ne apart
  have layer := vault.liquidityAddress_ne
  unfold operateActions
  rcases Int.lt_trichotomy 0 collateralTransfer with up | rfl | down <;>
    rcases Int.lt_trichotomy 0 debtTransfer with more | rfl | less <;>
      simp [custody, Transfer.brings, Action.moved, apart.1, *, Int.not_lt.mpr, Int.le_of_lt]

theorem liquidateActions_custody {request : LiquidateRequest} {collateralAmount : Int}
    (apart : request.signer ≠ vault.address ∧ request.recipient ≠ some vault.address)
    (nonneg : 0 ≤ collateralAmount) (debtAmount : Int) :
    custody vault.address vault.config.supplyMint
        ((vault.liquidateActions request debtAmount collateralAmount).flatMap Action.moved) =
      -collateralAmount := by
  have recipient := recipientOr_ne apart
  have layer := vault.liquidityAddress_ne
  unfold liquidateActions
  rcases Int.lt_or_eq_of_le nonneg with positive | rfl <;>
    rcases Int.lt_or_le 0 debtAmount with more | less <;>
      simp [custody, Transfer.brings, Action.moved, apart.1, *, Int.not_lt.mpr]

/-- Collateral on the books, of the positions and in the pool. -/
def holding (vault : Vault Int) : Int :=
  vault.state.totalSupply + vault.state.absorbedCollateral

theorem Books.holding {prices : ExchangePrices} {position : Position Int}
    {request : OperateRequest} {departure : Departure Int} {departed : Vault Int}
    {amount netDebt debt : Int} {outcome : Rebalance Int}
    (books : vault.Books prices position request departure departed amount netDebt debt outcome) :
    outcome.vault.holding - vault.holding = amount - (position.share vault.ledger).collateral := by
  obtain ⟨_, _, _, _, state⟩ := books.state
  simp only [Vault.holding, state]
  omega

theorem Opens.holding {position : Position Int} (opens : vault.Opens position after) :
    after.holding = vault.holding := by
  obtain ⟨_, _, state⟩ := opens.counts
  simp only [Vault.holding, state]

theorem Locates.holding {position : Position Int} (locates : vault.Locates position after) :
    after.holding = vault.holding := by
  cases locates with
  | found _ => rfl
  | opened opens => exact opens.holding

theorem Pays.holding {paid received : Int} (pays : vault.Pays paid received after) :
    after.holding - vault.holding = -received := by
  have collateral := pays.collateral
  unfold Vault.holding
  omega

end Vault

namespace Engine

variable {engine start : Engine Int} {call : Call} {after : Vault Int} {actions : List Action}

def custody (engine : Engine Int) : Int :=
  TickVault.custody engine.vault.address engine.vault.config.supplyMint engine.host.transfers

/-- No call books more collateral than its transfers bring to the vault. -/
theorem Deals.funds (standing : engine.Standing) (apart : call.Apart engine.vault.address)
    (deals : engine.Deals call after actions) :
    engine.host.liquidity.prices.supply * (after.holding - engine.vault.holding) ≤
      TickVault.custody engine.vault.address engine.vault.config.supplyMint
        (actions.flatMap Action.moved) * priceScale := by
  have nothing {difference : Int} (still : difference = 0) :
      engine.host.liquidity.prices.supply * difference ≤
        TickVault.custody engine.vault.address engine.vault.config.supplyMint
          (([] : List Action).flatMap Action.moved) * priceScale := by
    rw [still, Int.mul_zero]
    exact Int.le_of_eq (Int.zero_mul _).symm
  cases deals with
  | idle => exact nothing (Int.sub_self _)
  | opened opens => exact nothing (by rw [opens.holding, Int.sub_self])
  | @operated request _ _ _ _ _ _ _ _ outcome locates orderly known books same =>
    obtain ⟨events, rfl⟩ := same
    have spared := locates.spared.trans books.spared
    have home : engine.vault.address = outcome.vault.address := by
      simp only [Vault.address, spared.vaultId]
    have gained := books.holding
    rw [locates.holding] at gained
    rw [home] at apart ⊢
    rw [← spared.config, Vault.operateActions_custody apart]
    change _ * (outcome.vault.holding - _) ≤ _
    rw [gained]
    exact applyCollateral_covered standing.supply books.supplied
  | @liquidated _ _ _ collateral _ takes sweeps pays =>
    have home : engine.vault.address = after.address := by
      simp only [Vault.address, pays.vaultId]
    rw [home] at apart ⊢
    rw [← pays.config, Vault.liquidateActions_custody apart
      (toAmountDown_nonneg pays.received standing.supply), pays.holding, Int.neg_mul, Int.mul_neg]
    exact Int.neg_le_neg (toAmountDown_covered collateral _)
  | absorbed takes pays => exact nothing pays.holding

def Funded (engine : Engine Int) : Prop :=
  engine.host.liquidity.prices.supply * engine.vault.holding ≤ engine.custody * priceScale

theorem Standing.run_funds (standing : engine.Standing) {calls : List Call}
    (served : engine.Served calls) (constant : (engine.run calls).host.liquidity.prices.supply =
      engine.host.liquidity.prices.supply)
    (apart : ∀ call ∈ calls, call.Apart engine.vault.address) (funded : engine.Funded) :
    (engine.run calls).Funded := by
  induction calls generalizing engine with
  | nil => exact funded
  | cons call rest ih =>
    have same : (engine.perform call).engine.host.liquidity.prices.supply =
        engine.host.liquidity.prices.supply := by
      have now := (perform_prices engine call).1
      have later := (run_prices (engine.perform call).engine rest).1
      change ((engine.perform call).engine.run rest).host.liquidity.prices.supply = _ at constant
      omega
    obtain ⟨actions, deals, booked⟩ := standing.performs call
    obtain ⟨-, -, config, vaultId⟩ := deals.keeps standing
    have home : (engine.perform call).engine.vault.address = engine.vault.address := by
      simp only [Vault.address, vaultId]
    apply ih (standing.perform call) served.2 (constant.trans same.symm)
    · rw [home]
      exact fun later member => apart later (List.mem_cons_of_mem _ member)
    · have funds := deals.funds standing (apart call List.mem_cons_self)
      rw [Funded, same, custody, home, config, (booked served.1).transfers, custody_append,
        Int.add_mul]
      rw [Int.mul_sub] at funds
      unfold Funded custody at funded
      omega

theorem New.funded_start (new : start.New) (empty : start.host.transfers = []) :
    start.Funded := by
  rw [Funded, custody, empty]
  obtain ⟨id, config, validated, host, -, rfl⟩ := new.created
  exact Int.le_of_eq (Int.mul_zero _)

/-- At a price of collateral that does not move, the tokens in custody of a vault that nobody calls
from its own address are worth at least the collateral of the positions and of the pool. -/
theorem run_custody (new : start.New) {calls : List Call} (served : start.Served calls)
    (empty : start.host.transfers = [])
    (constant : (start.run calls).host.liquidity.prices.supply =
      start.host.liquidity.prices.supply)
    (apart : ∀ call ∈ calls, call.Apart start.vault.address) :
    start.host.liquidity.prices.supply * ((start.run calls).vault.state.totalSupply +
        (start.run calls).vault.state.absorbedCollateral) ≤
      (start.run calls).custody * priceScale := by
  rw [← constant]
  exact new.standing.run_funds served constant apart (new.funded_start empty)

def seizure : List Call :=
  [borrower "a", .setOracle 450000000000000, .absorb .unlimited,
    .liquidate { debt := 400000000000000000, absorb := true } .unlimited]

theorem seizure_custody :
    standard.New ∧ standard.Served seizure ∧
      priceScale * ((standard.run seizure).vault.state.totalSupply +
          (standard.run seizure).vault.state.absorbedCollateral) ≤
        (standard.run seizure).custody * priceScale ∧
      0 < (standard.run seizure).vault.state.absorbedCollateral := by
  have served := standard_new.governed.served rfl seizure
  refine ⟨standard_new, served, ?_, by decide +kernel⟩
  refine run_custody standard_new served rfl (by decide +kernel) ?_
  intro call member
  simp only [seizure, borrower, List.mem_cons, List.not_mem_nil, or_false] at member
  rcases member with rfl | rfl | rfl | rfl
  · exact ⟨by decide, by decide⟩
  · trivial
  · trivial
  · exact ⟨by decide, by decide⟩

end Engine

end TickVault
