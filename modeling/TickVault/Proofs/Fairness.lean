import TickVault.Proofs.Rounding
import TickVault.Proofs.Safety

/-!
Nobody gains by rounding. All tokens that the replies tell of as moved for a position are counted,
and each operation books no more collateral than the tokens are worth that came in, and no less debt
than the tokens are worth that went out. So however the operations on a position and on its neighbours are mixed, as
long as nobody is liquidated, no more collateral comes out than went in, and no debt is gone before
all borrowed tokens are back.
-/

namespace TickVault

structure Tally where
  deposited : Int := 0
  withdrawn : Int := 0
  borrowed : Int := 0
  repaid : Int := 0
  deriving DecidableEq

namespace Tally

/-- The tally after a call with that reply. An answered operation on the position is counted with
what the snapshot in the reply says was moved; the transfers of the host are not looked at. -/
def count (tally : Tally) (id : Int) : Except Fault (Reply Int) → Tally
  | .ok (.operated snapshot) =>
    if snapshot.position = id then
      { deposited := tally.deposited + max snapshot.collateralTransfer 0
        withdrawn := tally.withdrawn + max (-snapshot.collateralTransfer) 0
        borrowed := tally.borrowed + max snapshot.debtTransfer 0
        repaid := tally.repaid + max (-snapshot.debtTransfer) 0 }
    else tally
  | _ => tally

/-- The tokens that have moved for a position are worth what it holds: the collateral left with the
vault no less than its collateral, the debt left with its users no more than its net debt. -/
structure Covers (tally : Tally) (prices : ExchangePrices) (held : Holdings Int) : Prop where
  collateral : prices.supply * held.collateral ≤ (tally.deposited - tally.withdrawn) * priceScale
  debt : (tally.borrowed - tally.repaid) * priceScale ≤
    prices.borrow * (held.debt - held.dustDebt)

variable {tally : Tally} {prices prices' : ExchangePrices} {held held' : Holdings Int}

theorem covers_nothing (prices : ExchangePrices) : Covers {} prices ⟨0, 0, 0⟩ := by
  constructor <;> simp

theorem Covers.accrue (covers : tally.Covers prices held) (dust : held.dustDebt ≤ held.debt)
    (supply : prices'.supply = prices.supply) (borrow : prices.borrow ≤ prices'.borrow) :
    tally.Covers prices' held where
  collateral := supply ▸ covers.collateral
  debt := Int.le_trans covers.debt
    (Int.mul_le_mul_of_nonneg_right borrow (Int.sub_nonneg_of_le dust))

theorem Covers.le_deposited (covers : tally.Covers prices held) (positive : 0 < prices.supply)
    (something : 0 ≤ held.collateral) : tally.withdrawn ≤ tally.deposited := by
  have worth := Int.mul_nonneg (Int.le_of_lt positive) something
  have left : 0 ≤ (tally.deposited - tally.withdrawn) * priceScale :=
    Int.le_trans worth covers.collateral
  exact Int.le_of_sub_nonneg (Int.nonneg_of_mul_nonneg_left left (by decide))

theorem Covers.le_repaid (covers : tally.Covers prices held)
    (free : held.debt - held.dustDebt = 0) : tally.borrowed ≤ tally.repaid := by
  have owed := covers.debt
  rw [free, Int.mul_zero] at owed
  exact Int.le_of_sub_nonpos (Int.nonpos_of_mul_nonpos_left owed (by decide))

theorem count_operated (tally : Tally) (snapshot : PositionSnapshot Int) :
    let after := tally.count snapshot.position (.ok (.operated snapshot))
    after.deposited - after.withdrawn =
        tally.deposited - tally.withdrawn + snapshot.collateralTransfer ∧
      after.borrowed - after.repaid = tally.borrowed - tally.repaid + snapshot.debtTransfer := by
  simp only [count, if_true]
  omega

/-- Holdings stay covered when they change by what the moved tokens are worth, or less. -/
theorem Covers.operated {snapshot : PositionSnapshot Int} (covers : tally.Covers prices held)
    (collateral : prices.supply * (held'.collateral - held.collateral) ≤
      snapshot.collateralTransfer * priceScale)
    (debt : snapshot.debtTransfer * priceScale ≤
      prices.borrow * ((held'.debt - held'.dustDebt) - (held.debt - held.dustDebt))) :
    (tally.count snapshot.position (.ok (.operated snapshot))).Covers prices held' := by
  obtain ⟨supplied, lent⟩ := tally.count_operated snapshot
  have before := covers.collateral
  have before' := covers.debt
  rw [Int.mul_sub] at collateral debt
  constructor
  · rw [supplied, Int.add_mul]
    omega
  · rw [lent, Int.add_mul]
    omega

end Tally

namespace Vault

structure Fair (vault : Vault Int) (prices : ExchangePrices) (id : Int) (tally : Tally) :
    Prop where
  covers : ∀ position, vault.positions.get? id = some position →
    tally.Covers prices (position.share vault.ledger)
  nothing : vault.positions.get? id = none → tally = {}

variable {vault after located : Vault Int} {position : Position Int} {prices : ExchangePrices}
  {host : Host} {request : OperateRequest} {outcome : Rebalance Int} {id other : Int}
  {settlement : Settlement Int (PositionSnapshot Int)} {tally : Tally}

theorem Fair.elsewhere (fair : vault.Fair prices id tally) (confined : vault.Confined other after)
    (away : id ≠ other) : after.Fair prices id tally := by
  have kept := confined.others id away
  constructor
  · intro found known
    rw [Position.share_extends confined.terms]
    exact fair.covers found (kept.symm.trans known)
  · intro unknown
    exact fair.nothing (kept.symm.trans unknown)

theorem Fair.opens (fair : vault.Fair prices id tally) (opens : vault.Opens position after) :
    after.Fair prices id tally := by
  by_cases here : id = position.id
  · subst here
    obtain ⟨state, rfl, -⟩ := opens.after
    rw [fair.nothing opens.unknown]
    refine ⟨fun found known => ?_, fun _ => rfl⟩
    rw [get?_putAt, if_pos rfl] at known
    cases known
    rw [Position.share_untied opens.free, opens.empty]
    exact Tally.covers_nothing prices
  · exact fair.elsewhere opens.confined here

theorem Fair.locates (fair : vault.Fair prices id tally) (locates : vault.Locates position after) :
    after.Fair prices id tally := by
  cases locates with
  | found _ => exact fair
  | opened opens => exact fair.opens opens

theorem Fair.operates (fair : vault.Fair host.liquidity.prices id tally) (orderly : vault.Orderly)
    (supply : 0 < host.liquidity.prices.supply) (borrow : 0 < host.liquidity.prices.borrow)
    (fee : 0 ≤ vault.config.borrowFee)
    (operates : vault.Operates host request position located outcome settlement) :
    settlement.vault.Fair host.liquidity.prices id
      (tally.count id (.ok (.operated settlement.receipt))) := by
  obtain ⟨named, stored, intact, confined⟩ := operates.settles orderly supply
  by_cases here : settlement.receipt.position = id
  · subst here
    refine ⟨fun found known => ?_, fun unknown => ?_⟩
    · rw [named] at known
      cases stored.symm.trans known
      obtain ⟨located_orderly, known⟩ := orderly.locates operates.locates
      obtain ⟨_, _, amount, netDebt, _, books⟩ := operates.rebalances.books
        located_orderly.toCoherent located_orderly.peopled supply known
      obtain ⟨events, after⟩ := operates.vault
      rw [after] at stored
      obtain ⟨-, collateral, debt⟩ := books.seats located_orderly.peopled stored
      have free : 0 ≤ located.config.borrowFee := operates.locates.spared.config.symm ▸ fee
      apply ((fair.locates operates.locates).covers position (named ▸ known)).operated
      · have covered := applyCollateral_covered supply books.supplied
        rw [← collateral] at covered
        rw [intact.share, operates.receipt]
        exact covered
      · have covers := applyDebt_covers borrow free books.borrowed
        rw [← debt] at covers
        rw [intact.share, operates.receipt]
        exact covers
    · rw [named] at unknown
      cases stored.symm.trans unknown
  · have other : id ≠ position.id := fun same => here (named.trans same.symm)
    simp only [Tally.count, if_neg here]
    exact fair.elsewhere confined other

theorem snapshot_eq (settled : position.Settled vault.ledger)
    (known : vault.positions.get? id = some position) :
    vault.snapshot id = .ok ((position.share vault.ledger).collateral,
      (position.share vault.ledger).debt - (position.share vault.ledger).dustDebt) := by
  simp only [snapshot, Vault.position, key_int, ofInt_int, known, holdings_eq settled,
    Holdings.netDebt, toInt_int, ok_bind, pure_eq_ok]

theorem Fair.accrue {prices' : ExchangePrices} (fair : vault.Fair prices id tally)
    (sized : vault.Sized) (supply : prices'.supply = prices.supply)
    (borrow : prices.borrow ≤ prices'.borrow) : vault.Fair prices' id tally where
  covers position known :=
    (fair.covers position known).accrue ((sized id position known).share_dust_le _) supply borrow
  nothing := fair.nothing

end Vault

namespace Engine

variable {engine start : Engine Int} {call : Call} {id : Int} {tally : Tally}

/-- No liquidation and no absorption of a run succeeds. -/
def Quiet (engine : Engine Int) : List Call → Prop
  | [] => True
  | call :: rest =>
    (call.Liquidates → ∃ fault, (engine.perform call).reply = .error fault) ∧
      (engine.perform call).engine.Quiet rest

def tallied (engine : Engine Int) (id : Int) (tally : Tally) : List Call → Tally
  | [] => tally
  | call :: rest =>
    (engine.perform call).engine.tallied id (tally.count id (engine.perform call).reply) rest

theorem conclude_failed {α : Type} {worked : Except Fault (Settlement Int α)}
    {reply : α → Reply Int} {budget : Budget} {fault : Fault}
    (failed : (engine.conclude worked reply budget).reply = .error fault) :
    (engine.conclude worked reply budget).engine.vault = engine.vault := by
  cases worked with
  | error cause => rfl
  | ok settlement =>
    simp only [conclude, commit] at failed ⊢
    cases acted : engine.host.actAll settlement.actions with
    | mk answer host =>
      rw [acted] at failed
      cases answer with
      | ok _ => cases failed
      | error cause => rfl

theorem perform_failed {fault : Fault} (failed : (engine.perform call).reply = .error fault) :
    (engine.perform call).engine.vault = engine.vault := by
  cases call with
  | openPosition owner => exact conclude_failed failed
  | operate request => exact conclude_failed failed
  | liquidate request budget => exact conclude_failed failed
  | absorb budget => exact conclude_failed failed
  | setOracle rate => cases failed
  | accrue prices => exact perform_accrue engine prices

/-- A call that does not liquidate is fair to every position, at the prices that it finds. -/
theorem Standing.fair (standing : engine.Standing)
    (quiet : call.Liquidates → ∃ fault, (engine.perform call).reply = .error fault)
    (fair : engine.vault.Fair engine.host.liquidity.prices id tally) :
    (engine.perform call).engine.vault.Fair engine.host.liquidity.prices id
      (tally.count id (engine.perform call).reply) := by
  cases replied : (engine.perform call).reply with
  | error fault =>
    rw [perform_failed replied]
    exact fair
  | ok answer =>
    have calm (liquidates : call.Liquidates) : False := by
      obtain ⟨fault, failed⟩ := quiet liquidates
      cases replied.symm.trans failed
    cases call with
    | openPosition owner =>
      obtain ⟨settlement, done, rfl, same, -⟩ := conclude_answered replied
      simp only [openPosition, bind_eq_ok, pure_eq_ok, Except.ok.injEq] at done
      obtain ⟨⟨position, opened⟩, created, rfl⟩ := done
      rw [show (engine.perform (.openPosition owner)).engine.vault = opened from same]
      exact fair.opens (Vault.createPosition_opens created)
    | operate request =>
      obtain ⟨settlement, done, rfl, same, -⟩ := conclude_answered replied
      obtain ⟨_, _, _, operates⟩ := Vault.operate_ok standing.vault done
      rw [show (engine.perform (.operate request)).engine.vault = settlement.vault from same]
      exact fair.operates standing.vault standing.supply standing.borrow standing.fee operates
    | liquidate request budget => exact (calm trivial).elim
    | absorb budget => exact (calm trivial).elim
    | setOracle rate =>
      cases replied
      exact fair
    | accrue prices =>
      simp only [Engine.perform] at replied
      split at replied
      · cases replied
      · cases replied
        rw [perform_accrue]
        exact fair

theorem Standing.remains_fair (standing : engine.Standing) {calls : List Call}
    (quiet : engine.Quiet calls) (constant : (engine.run calls).host.liquidity.prices.supply =
      engine.host.liquidity.prices.supply)
    (fair : engine.vault.Fair engine.host.liquidity.prices id tally) :
    (engine.run calls).vault.Fair (engine.run calls).host.liquidity.prices id
      (engine.tallied id tally calls) := by
  induction calls generalizing engine tally with
  | nil => exact fair
  | cons call rest ih =>
    have now := perform_prices engine call
    have later := run_prices (engine.perform call).engine rest
    change ((engine.perform call).engine.run rest).host.liquidity.prices.supply = _ at constant
    -- Prices never fall, so a price that is the same at the end has not moved before.
    have same : (engine.perform call).engine.host.liquidity.prices.supply =
        engine.host.liquidity.prices.supply := by omega
    have standing' := standing.perform call
    apply ih standing' quiet.2 (constant.trans same.symm)
    exact (standing.fair quiet.1 fair).accrue standing'.sized same now.2

theorem New.fair (new : start.New) (id : Int) :
    start.vault.Fair start.host.liquidity.prices id {} := by
  obtain ⟨_, config, validated, host, -, rfl⟩ := new.created
  refine ⟨fun position known => ?_, fun _ => rfl⟩
  cases known

/-- At a constant price of collateral and a price of debt that never falls, no run without
liquidations pays anybody. By the snapshots that the operations on it were answered with, no
position has had more collateral out than in, and where its net debt is nothing it has paid back no
less than it borrowed. -/
theorem run_fair (new : start.New) {calls : List Call} (quiet : start.Quiet calls)
    (constant : (start.run calls).host.liquidity.prices.supply =
      start.host.liquidity.prices.supply) (id : Int) :
    (start.tallied id {} calls).withdrawn ≤ (start.tallied id {} calls).deposited ∧
      ∀ position, (start.run calls).vault.positions.get? id = some position →
        ∃ collateral netDebt, (start.run calls).vault.snapshot id = .ok (collateral, netDebt) ∧
          (netDebt = 0 →
            (start.tallied id {} calls).borrowed ≤ (start.tallied id {} calls).repaid) := by
  have standing := new.standing.run calls
  have fair : (start.run calls).vault.Fair (start.run calls).host.liquidity.prices id
      (start.tallied id {} calls) := new.standing.remains_fair quiet constant (new.fair id)
  constructor
  · cases known : (start.run calls).vault.positions.get? id with
    | none =>
      rw [fair.nothing known]
    | some position =>
      have something := standing.vault.peopled.share_nonneg known
      exact (fair.covers position known).le_deposited standing.supply something
  · intro position known
    exact ⟨_, _, Vault.snapshot_eq (standing.vault.peopled.settled known) known,
      fun free => (fair.covers position known).le_repaid free⟩

def uneven : Engine Int where
  vault := standard.vault
  host := { liquidity := { prices := { supply := 1234567890123, borrow := 1345678901234 } } }

theorem uneven_new : uneven.New :=
  ⟨1, .usual, uneven.host, by decide, by decide, rfl⟩

/-- Two borrowers on one tick. The first one pays back a part and withdraws a part, the other one
pays back for the first, a liquidation is refused, debt gets more expensive, and the first borrower
pays back all that is left and leaves. -/
def closeout : List Call :=
  [borrower "a", borrower "b",
    .operate {
      position := some 1, collateral := -100000000000000003, debt := -200000000000000001
      signer := "a" },
    .operate { position := some 1, collateral := 0, debt := -100000000000000001, signer := "b" },
    .liquidate { debt := 500000000000000000 } .unlimited,
    .accrue { supply := 1234567890123, borrow := 1345678901239 },
    .operate { position := some 1, collateral := 0, debt := wholeAmount, signer := "a" },
    .operate { position := some 1, collateral := wholeAmount, debt := 0, signer := "a" }]

theorem closeout_fair :
    uneven.New ∧ uneven.Quiet closeout ∧
      (uneven.run closeout).vault.snapshot 1 = .ok (0, 0) ∧
      uneven.tallied 1 {} closeout = {
        deposited := 2000000000000000000, withdrawn := 1999999999999999999
        borrowed := 1000000000000000000, repaid := 1000000000002600923 } ∧
      (uneven.tallied 1 {} closeout).withdrawn ≤ (uneven.tallied 1 {} closeout).deposited ∧
      (uneven.tallied 1 {} closeout).borrowed ≤ (uneven.tallied 1 {} closeout).repaid := by
  have spared {call : Call} (spares : ¬ call.Liquidates) {engine : Engine Int} :
      call.Liquidates → ∃ fault, (engine.perform call).reply = .error fault :=
    fun liquidates => absurd liquidates spares
  have refused : ((uneven.run (closeout.take 4)).perform
      (.liquidate { debt := 500000000000000000 } .unlimited)).reply =
        .error (.nothingAboveLiquidationTick (-128)) := by
    decide +kernel
  have quiet : uneven.Quiet closeout :=
    ⟨spared id, spared id, spared id, spared id, fun _ => ⟨_, refused⟩, spared id, spared id,
      spared id, trivial⟩
  have left : (uneven.run closeout).vault.snapshot 1 = .ok (0, 0) := by decide +kernel
  have known : ((uneven.run closeout).vault.positions.get? 1).isSome := by decide +kernel
  obtain ⟨position, known⟩ := Option.isSome_iff_exists.mp known
  obtain ⟨deposited, repaid⟩ := run_fair uneven_new quiet (by decide +kernel) 1
  obtain ⟨collateral, netDebt, now, repaid⟩ := repaid position known
  cases now.symm.trans left
  exact ⟨uneven_new, quiet, left, by decide +kernel, deposited, repaid rfl⟩

end Engine

end TickVault
