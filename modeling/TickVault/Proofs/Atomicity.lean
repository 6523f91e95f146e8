import TickVault.Proofs.Deals
import TickVault.Proofs.Rounding

namespace TickVault

def sent (source destination : String) (amount : Int) (mint : Document) : List Transfer :=
  if amount = 0 then [] else [⟨source, destination, amount, mint⟩]

def Call.OnVault : Call → Prop
  | .setOracle _ | .accrue _ => False
  | _ => True

namespace Vault

/-- Collateral between the signer or the recipient and the vault, and debt between them and the
liquidity layer. -/
def operateTransfers (vault : Vault Int) (request : OperateRequest)
    (collateralTransfer debtTransfer : Int) : List Transfer :=
  let recipient := recipientOr request.signer request.recipient
  sent request.signer vault.address (max collateralTransfer 0) vault.config.supplyMint ++
    sent vault.address recipient (max (-collateralTransfer) 0) vault.config.supplyMint ++
    sent liquidityAddress recipient (max debtTransfer 0) vault.config.borrowMint ++
    sent request.signer liquidityAddress (max (-debtTransfer) 0) vault.config.borrowMint

def liquidateTransfers (vault : Vault Int) (request : LiquidateRequest)
    (debtAmount collateralAmount : Int) : List Transfer :=
  sent request.signer liquidityAddress debtAmount vault.config.borrowMint ++
    sent vault.address (recipientOr request.signer request.recipient) collateralAmount
      vault.config.supplyMint

/-- What the answer to a call stands for: the transfers to be made, and the tokens lent. -/
inductive Answers (vault : Vault Int) : Call → Reply Int → List Transfer → Int → Prop
  | opened {owner : String} {id : Int} : Answers vault (.openPosition owner) (.opened id) [] 0
  | operated {request : OperateRequest} {snapshot : PositionSnapshot Int} :
      Answers vault (.operate request) (.operated snapshot)
        (vault.operateTransfers request snapshot.collateralTransfer snapshot.debtTransfer)
        snapshot.debtTransfer
  | liquidated {request : LiquidateRequest} {budget : Budget} {receipt : LiquidationReceipt Int} :
      Answers vault (.liquidate request budget) (.liquidated receipt)
        (vault.liquidateTransfers request receipt.debtAmount receipt.collateralAmount)
        (-receipt.debtAmount)
  | absorbed {budget : Budget} {debt collateral : Int} :
      Answers vault (.absorb budget) (.absorbed debt collateral) [] 0

variable {vault after : Vault Int}

theorem operateActions_moved (vault : Vault Int) (request : OperateRequest)
    (collateralTransfer debtTransfer : Int) :
    (vault.operateActions request collateralTransfer debtTransfer).flatMap Action.moved =
      vault.operateTransfers request collateralTransfer debtTransfer := by
  unfold operateActions operateTransfers sent
  rcases Int.lt_trichotomy 0 collateralTransfer with up | rfl | down <;>
    rcases Int.lt_trichotomy 0 debtTransfer with more | rfl | less <;>
      simp [Action.moved, *, Int.not_lt.mpr, Int.le_of_lt, Int.ne_of_gt, Int.ne_of_lt]

theorem liquidateActions_moved (vault : Vault Int) (request : LiquidateRequest)
    {debtAmount collateralAmount : Int} (paid : 0 ≤ debtAmount) (received : 0 ≤ collateralAmount) :
    (vault.liquidateActions request debtAmount collateralAmount).flatMap Action.moved =
      vault.liquidateTransfers request debtAmount collateralAmount := by
  unfold liquidateActions liquidateTransfers sent
  rcases Int.lt_or_eq_of_le paid with more | rfl <;>
    rcases Int.lt_or_eq_of_le received with up | rfl <;>
      simp [Action.moved, *, Int.ne_of_gt]

end Vault

namespace Engine

variable {engine start : Engine Int} {call : Call} {host : Host}

theorem Works.home (standing : engine.Standing) {after : Vault Int} {actions : List Action}
    (works : engine.Works call after actions) :
    after.config = engine.vault.config ∧ after.address = engine.vault.address := by
  obtain ⟨-, -, config, vaultId⟩ := (works.deals standing).keeps standing
  exact ⟨config, by simp only [Vault.address, vaultId]⟩

theorem Standing.operate_answers (standing : engine.Standing) {request : OperateRequest}
    {settlement : Settlement Int (PositionSnapshot Int)}
    (done : engine.vault.operate engine.host request = .ok settlement) :
    engine.vault.Answers (.operate request) (.operated settlement.receipt)
      (settlement.actions.flatMap Action.moved) (settlement.actions.map Action.booked).sum := by
  obtain ⟨config, address⟩ := (Works.operated done).home standing
  obtain ⟨position, located, outcome, operates⟩ := Vault.operate_ok standing.vault done
  obtain ⟨events, after⟩ := operates.vault
  have collateral : settlement.receipt.collateralTransfer = outcome.collateralTransfer := by
    rw [operates.receipt]
    rfl
  have debt : settlement.receipt.debtTransfer = outcome.debtTransfer := by
    rw [operates.receipt]
    rfl
  have transfers : outcome.vault.operateTransfers request outcome.collateralTransfer
        outcome.debtTransfer =
      engine.vault.operateTransfers request settlement.receipt.collateralTransfer
        settlement.receipt.debtTransfer := by
    rw [after] at config address
    unfold Vault.operateTransfers
    rw [collateral, debt, ← config, ← address]
    rfl
  rw [operates.actions, Vault.operateActions_booked, Vault.operateActions_moved, transfers, ← debt]
  exact .operated

theorem Standing.liquidate_answers (standing : engine.Standing) {request : LiquidateRequest}
    {budget left : Budget} {settlement : Settlement Int (LiquidationReceipt Int)}
    (done : attempt budget (engine.vault.liquidate engine.host request) = .ok (settlement, left)) :
    engine.vault.Answers (.liquidate request budget) (.liquidated settlement.receipt)
      (settlement.actions.flatMap Action.moved) (settlement.actions.map Action.booked).sum := by
  obtain ⟨config, address⟩ := (Works.liquidated done).home standing
  obtain ⟨taken, liquidates⟩ := Vault.liquidate_ok done
  have pays := Vault.liquidate_pays standing.vault standing.governed standing.pooled done
  have paid : 0 ≤ settlement.receipt.debtAmount := by
    rw [liquidates.debtAmount, ← liquidates.debt]
    exact toAmountUp_nonneg pays.paid standing.borrow
  have received : 0 ≤ settlement.receipt.collateralAmount := by
    rw [liquidates.collateralAmount, ← liquidates.collateral]
    exact toAmountDown_nonneg pays.received standing.supply
  have transfers : settlement.vault.liquidateTransfers request settlement.receipt.debtAmount
        settlement.receipt.collateralAmount =
      engine.vault.liquidateTransfers request settlement.receipt.debtAmount
        settlement.receipt.collateralAmount := by
    unfold Vault.liquidateTransfers
    rw [config, address]
  rw [liquidates.actions, ← liquidates.debtAmount, ← liquidates.collateralAmount,
    Vault.liquidateActions_booked _ _ paid, Vault.liquidateActions_moved _ _ paid received,
    transfers]
  exact .liquidated

theorem Standing.answers (standing : engine.Standing) (onVault : call.OnVault) {answer : Reply Int}
    (answered : (engine.perform call).reply = .ok answer) :
    ∃ transfers lent, engine.vault.Answers call answer transfers lent ∧
      (engine.perform call).engine.host = engine.host.settled transfers lent := by
  cases call with
  | openPosition owner =>
    obtain ⟨settlement, done, rfl, -, carried⟩ := conclude_answered answered
    simp only [openPosition, bind_eq_ok, pure_eq_ok, Except.ok.injEq] at done
    obtain ⟨_, -, rfl⟩ := done
    exact ⟨_, _, .opened, carried.eq⟩
  | operate request =>
    obtain ⟨settlement, done, rfl, -, carried⟩ := conclude_answered answered
    exact ⟨_, _, standing.operate_answers done, carried.eq⟩
  | liquidate request budget =>
    obtain ⟨settlement, done, rfl, -, carried⟩ := conclude_answered answered
    exact ⟨_, _, standing.liquidate_answers (attempt_eq_ok_iff.mpr (Prod.ext done rfl)), carried.eq⟩
  | absorb budget =>
    obtain ⟨settlement, done, rfl, -, carried⟩ := conclude_answered answered
    obtain ⟨pass, absorbs⟩ := Vault.absorb_ok (attempt_eq_ok_iff.mpr (Prod.ext done rfl))
    have still := carried.eq
    rw [absorbs.actions] at still
    exact ⟨_, _, .absorbed, still⟩
  | setOracle rate => exact onVault.elim
  | accrue prices => exact onVault.elim

theorem Standing.rehost (standing : engine.Standing) (supply : 0 < host.liquidity.prices.supply)
    (borrow : 0 < host.liquidity.prices.borrow) : (⟨engine.vault, host⟩ : Engine Int).Standing where
  vault := standing.vault
  supply := supply
  borrow := borrow
  governed := standing.governed
  numbered := standing.numbered
  pooled := standing.pooled
  sized := standing.sized
  fee := standing.fee

def drained : Host where
  liquidity := { available := some 100000000000000000, borrowed := 1000000000000000000 }

def payback : OperateRequest where
  position := some 1
  collateral := -100000000000000000
  debt := -200000000000000000
  signer := "a"
  recipient := some "b"

end Engine

end TickVault
