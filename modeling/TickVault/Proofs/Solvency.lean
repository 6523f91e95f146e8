import TickVault.Proofs.Deals
import TickVault.Proofs.Rounding
import TickVault.Proofs.Waning

/-!
The tokens borrowed from the liquidity layer against the debt on the books of the vault. Every
conversion between the two rounds so that the books gain at least what is owed: a borrow is booked
rounded up, a payback rounded down and one unit less, and a liquidator pays rounded up. Rounding
within the books goes to the recorded dust.
-/

namespace TickVault

namespace Position

variable {position : Position Int} {ledger : Ledger Int}

def dust (ledger : Ledger Int) (position : Position Int) : Int :=
  match position.tick with
  | some tick => stake Holdings.dustDebt ledger tick position
  | none => 0

theorem dust_eq (ledger : Ledger Int) (position : Position Int) :
    position.dust ledger = (position.share ledger).dustDebt := by
  unfold dust share
  cases here : position.tick with
  | none => rfl
  | some tick =>
    dsimp only
    by_cases occupies : position.Occupies ledger tick
    · exact stake_of_occupies occupies
    · have wiped := not_not.mp (not_and.mp occupies here)
      rw [shareOf_wiped wiped]
      exact if_neg occupies

end Position

namespace Vault

variable {vault after departed : Vault Int} {position : Position Int} {departure : Departure Int}

def dust (vault : Vault Int) : Int :=
  vault.positions.total (Position.dust vault.ledger)

theorem dust_eq (vault : Vault Int) : vault.dust = vault.realized Holdings.dustDebt :=
  Table.total_congr fun position _ => Position.dust_eq vault.ledger position

theorem Takes.dust_le (peopled : vault.Peopled) (sized : vault.Sized)
    (takes : vault.Takes TickRecord.Liquidated after) : after.dust ≤ vault.dust := by
  rw [dust_eq, dust_eq, realized, realized, takes.positions]
  apply Table.total_le_total
  intro position member
  obtain ⟨id, known⟩ := (Table.mem_values_iff peopled.distinct).mp member
  have funded := (sized id position known).funded (peopled.funded id position known)
  exact (Position.share_within funded (peopled.seated id position known) (peopled.settled known)
    (peopled.takes takes).factor (takes.wanes peopled)).dust

/-- What leaves the total with a position, less what is recorded as dust, is no more than the
position owes. -/
theorem Departs.removed_le (departs : vault.Departs position departure departed)
    (sized : position.Sized) (owed : 0 ≤ (position.share vault.ledger).debt) :
    departure.removed + vault.state.absorbedDust ≤
      (position.share vault.ledger).debt + departed.state.absorbedDust := by
  cases departs with
  | untied free =>
    dsimp only
    omega
  | wiped here gone =>
    have dust := sized.dust (by rw [here]; rfl)
    dsimp only
    omega
  | left occupies vacated =>
    simp only [vacate_eq, bind_eq_ok, pure_eq_ok, Except.ok.injEq, Prod.mk.injEq,
      TickRecord.removal] at vacated
    obtain ⟨_, -, rfl, rfl⟩ := vacated
    dsimp only
    split <;> omega

/-- Debt on the ticks, in the pool, or recorded as dust, less the dust that the positions still
hold. -/
def receivable (vault : Vault Int) : Int :=
  vault.state.totalBorrow + vault.state.absorbedDebt + vault.state.absorbedDust - vault.dust

theorem Opens.receivable (opens : vault.Opens position after) :
    after.receivable = vault.receivable := by
  obtain ⟨_, _, state⟩ := opens.counts
  simp only [Vault.receivable, dust_eq, opens.realized, state]
  exact congrArg (_ - ·) (Int.add_zero _)

theorem Locates.receivable (locates : vault.Locates position after) :
    after.receivable = vault.receivable := by
  cases locates with
  | found _ => rfl
  | opened opens => exact opens.receivable

/-- An operation changes what is receivable by no less than the net debt of its position. -/
theorem Books.receivable_le {prices : ExchangePrices} {request : OperateRequest}
    {amount netDebt debt : Int} {outcome : Rebalance Int} (orderly : vault.Orderly)
    (sized : position.Sized) (known : vault.positions.get? position.id = some position)
    (books : vault.Books prices position request departure departed amount netDebt debt outcome) :
    netDebt - ((position.share vault.ledger).debt - (position.share vault.ledger).dustDebt) ≤
      outcome.vault.receivable - vault.receivable := by
  have removed := books.departs.removed_le sized (orderly.peopled.owed_nonneg sized known)
  obtain ⟨_, _, _, _, state⟩ := books.state
  simp only [receivable, dust_eq, books.realized orderly.peopled known, state]
  omega

theorem Pays.receivable_le {paid received : Int} (pays : vault.Pays paid received after)
    (dust : after.dust ≤ vault.dust) : -paid ≤ after.receivable - vault.receivable := by
  have debt := pays.debt
  have recorded := pays.dust
  unfold receivable
  omega

end Vault

namespace Engine

variable {engine start : Engine Int} {call : Call} {after : Vault Int} {actions : List Action}

theorem Deals.covers (standing : engine.Standing) (deals : engine.Deals call after actions) :
    (actions.map Action.booked).sum * priceScale ≤
      engine.host.liquidity.prices.borrow * (after.receivable - engine.vault.receivable) := by
  have price := Int.le_of_lt standing.borrow
  have nothing {difference : Int} (still : 0 ≤ difference) :
      (([] : List Action).map Action.booked).sum * priceScale ≤
        engine.host.liquidity.prices.borrow * difference := by
    rw [List.map_nil, List.sum_nil, Int.zero_mul]
    exact Int.mul_nonneg price still
  have peopled := standing.vault.peopled
  cases deals with
  | idle => exact nothing (Int.le_of_eq (Int.sub_self _).symm)
  | opened opens => exact nothing (by rw [opens.receivable, Int.sub_self])
  | @operated request position located _ _ _ _ _ _ outcome locates orderly known books same =>
    obtain ⟨events, rfl⟩ := same
    have fee : 0 ≤ located.config.borrowFee := locates.spared.config.symm ▸ standing.fee
    have sized := locates.sized standing.sized _ _ known
    have gained := books.receivable_le orderly sized known
    rw [locates.receivable] at gained
    rw [Vault.operateActions_booked]
    calc _ ≤ _ := applyDebt_covers standing.borrow fee books.borrowed
      _ ≤ _ := Int.mul_le_mul_of_nonneg_left gained price
  | @liquidated _ _ debt _ _ takes sweeps pays =>
    have gained := pays.receivable_le (takes.dust_le peopled standing.sized)
    have paid := toAmountUp_covers debt engine.host.liquidity.prices.borrow
    rw [Vault.liquidateActions_booked _ _ (toAmountUp_nonneg pays.paid standing.borrow)]
    calc _ ≤ engine.host.liquidity.prices.borrow * -debt := by
          rw [Int.neg_mul, Int.mul_neg]
          exact Int.neg_le_neg paid
      _ ≤ _ := Int.mul_le_mul_of_nonneg_left gained price
  | absorbed takes pays =>
    have kept := takes.weaken fun _ _ => TickRecord.Liquidated.cleared
    have gained := pays.receivable_le (kept.dust_le peopled standing.sized)
    exact nothing (by omega)

def Solvent (engine : Engine Int) : Prop :=
  engine.host.liquidity.borrowed * priceScale ≤
    engine.host.liquidity.prices.borrow * engine.vault.receivable

theorem Standing.run_covers (standing : engine.Standing) {calls : List Call}
    (served : engine.Served calls) (constant : (engine.run calls).host.liquidity.prices.borrow =
      engine.host.liquidity.prices.borrow) (solvent : engine.Solvent) :
    (engine.run calls).Solvent := by
  induction calls generalizing engine with
  | nil => exact solvent
  | cons call rest ih =>
    -- Prices never fall, so a price that is the same at the end has not moved before.
    have same : (engine.perform call).engine.host.liquidity.prices.borrow =
        engine.host.liquidity.prices.borrow := by
      have now := (perform_prices engine call).2
      have later := (run_prices (engine.perform call).engine rest).2
      change ((engine.perform call).engine.run rest).host.liquidity.prices.borrow = _ at constant
      omega
    obtain ⟨actions, deals, booked⟩ := standing.performs call
    apply ih (standing.perform call) served.2 (constant.trans same.symm)
    have covers := deals.covers standing
    rw [Solvent, same, (booked served.1).borrowed, Int.add_mul]
    rw [Int.mul_sub] at covers
    unfold Solvent at solvent
    omega

theorem New.solvent_start (new : start.New) (nothing : start.host.liquidity.borrowed = 0) :
    start.Solvent := by
  rw [Solvent, nothing, Int.zero_mul]
  obtain ⟨id, config, validated, host, -, rfl⟩ := new.created
  exact Int.le_of_eq (Int.mul_zero _).symm

/-- Shares are what the vault realizes. At a price of debt that does not move, every token that is
still owed to the liquidity layer is matched by debt on the ticks or in the pool, or by dust that
was recorded and that no position holds. -/
theorem run_solvent (new : start.New) {calls : List Call} (served : start.Served calls)
    (nothing : start.host.liquidity.borrowed = 0)
    (constant : (start.run calls).host.liquidity.prices.borrow =
      start.host.liquidity.prices.borrow) :
    let vault := (start.run calls).vault
    (∀ id position, vault.positions.get? id = some position →
      vault.holdings position = .ok (position.share vault.ledger)) ∧
    (start.run calls).host.liquidity.borrowed * priceScale ≤
      start.host.liquidity.prices.borrow * (vault.state.totalBorrow + vault.state.absorbedDebt +
        vault.state.absorbedDust - vault.dust) := by
  refine ⟨fun id position known => ?_, ?_⟩
  · exact Vault.holdings_eq ((new.run_orderly calls).vault.peopled.settled known)
  · rw [← constant]
    exact new.standing.run_covers served constant (new.solvent_start nothing)

theorem exhaustion_solvent :
    standard.New ∧ standard.Served exhaustion ∧
      (standard.run exhaustion).host.liquidity.borrowed * priceScale ≤
        priceScale * ((standard.run exhaustion).vault.state.totalBorrow +
          (standard.run exhaustion).vault.state.absorbedDebt +
          (standard.run exhaustion).vault.state.absorbedDust -
          (standard.run exhaustion).vault.dust) ∧
      0 < (standard.run exhaustion).host.liquidity.borrowed := by
  have served := standard_new.governed.served rfl exhaustion
  refine ⟨standard_new, served, ?_, by decide +kernel⟩
  exact (run_solvent standard_new served rfl (by decide +kernel)).2

end Engine

end TickVault
