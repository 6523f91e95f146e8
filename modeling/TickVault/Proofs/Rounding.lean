import TickVault.Proofs.Served
import TickVault.Proofs.Settlement

namespace TickVault

theorem ceil_nonneg {a b : Int} (nonneg : 0 ≤ a) (positive : 0 < b) : 0 ≤ -(-a / b) := by
  have below : -a / b ≤ 0 :=
    Int.ediv_nonpos_of_nonpos_of_neg (Int.neg_nonpos_of_nonneg nonneg) positive
  omega

theorem floor_mul_le (a : Int) {b : Int} (positive : 0 < b) : b * (a / b) ≤ a := by
  rw [Int.mul_comm]
  exact Int.ediv_mul_le a (Int.ne_of_gt positive)

theorem toAmountUp_covers (raw price : Int) : price * raw ≤ toAmountUp raw price * priceScale := by
  rw [Int.mul_comm price]
  exact le_ceil_mul (by decide)

theorem toAmountDown_covered (raw price : Int) :
    toAmountDown raw price * priceScale ≤ price * raw := by
  rw [Int.mul_comm price]
  exact Int.ediv_mul_le _ (by decide)

theorem toAmountUp_nonneg {raw price : Int} (nonneg : 0 ≤ raw) (positive : 0 < price) :
    0 ≤ toAmountUp raw price :=
  ceil_nonneg (Int.mul_nonneg nonneg (Int.le_of_lt positive)) (by decide)

theorem toAmountDown_nonneg {raw price : Int} (nonneg : 0 ≤ raw) (positive : 0 < price) :
    0 ≤ toAmountDown raw price :=
  Int.ediv_nonneg (Int.mul_nonneg nonneg (Int.le_of_lt positive)) (by decide)

/-- The debt that an operation books is worth at least the tokens that it lends. -/
theorem applyDebt_covers {owed change price fee netDebt moved : Int} (positive : 0 < price)
    (free : 0 ≤ fee) (applied : applyDebt owed change price fee = .ok (netDebt, moved)) :
    moved * priceScale ≤ price * (netDebt - owed) := by
  have scale : (0 : Int) ≤ priceScale := by decide
  unfold applyDebt at applied
  split at applied
  · rename_i borrow
    simp only [toRawUp, ceilDiv_of_pos positive, ok_bind, pure_eq_ok, Except.ok.injEq,
      Prod.mk.injEq] at applied
    obtain ⟨rfl, rfl⟩ := applied
    have lent : 0 ≤ change * priceScale := Int.mul_nonneg (Int.le_of_lt borrow) scale
    have booked : change * priceScale ≤ -(-(change * priceScale) / price) * price :=
      le_ceil_mul positive
    have raw := ceil_nonneg lent positive
    generalize -(-(change * priceScale) / price) = borrowed at booked raw ⊢
    have charged : 0 ≤ -(-(borrowed * fee) / bpsScale) :=
      ceil_nonneg (Int.mul_nonneg raw free) (by decide)
    have more : borrowed ≤ owed + borrowed + -(-(borrowed * fee) / bpsScale) - owed := by omega
    calc change * priceScale ≤ borrowed * price := booked
      _ = price * borrowed := Int.mul_comm ..
      _ ≤ _ := Int.mul_le_mul_of_nonneg_left more (Int.le_of_lt positive)
  split at applied
  · simp only [Except.ok.injEq, Prod.mk.injEq, pure_eq_ok] at applied
    obtain ⟨rfl, rfl⟩ := applied
    have paid := toAmountUp_covers owed price
    rw [Int.neg_mul, Int.zero_sub, Int.mul_neg]
    exact Int.neg_le_neg paid
  split at applied
  · rename_i payback
    simp only [toRawDown, floorDiv_of_pos positive, ok_bind, bind_eq_ok, pure_eq_ok,
      Except.ok.injEq, Prod.mk.injEq] at applied
    obtain ⟨_, -, rfl, rfl⟩ := applied
    have sent : 0 ≤ -change * priceScale := Int.mul_nonneg (by omega) scale
    have floored := floor_mul_le (-change * priceScale) positive
    have less : price * max (-change * priceScale / price - 1) 0 ≤ -change * priceScale := by
      rcases max_cases (-change * priceScale / price - 1) 0 with ⟨most, -⟩ | ⟨most, -⟩
      · rw [most]
        have fewer := Int.mul_le_mul_of_nonneg_left
          (Int.sub_le_self (-change * priceScale / price) Int.one_nonneg) (Int.le_of_lt positive)
        exact Int.le_trans fewer floored
      · rw [most, Int.mul_zero]
        exact sent
    generalize max (-change * priceScale / price - 1) 0 = repaid at less ⊢
    have gone : owed - repaid - owed = -repaid := by omega
    rw [gone, Int.mul_neg]
    rw [Int.neg_mul] at less
    omega
  · simp only [Except.ok.injEq, Prod.mk.injEq, pure_eq_ok] at applied
    obtain ⟨rfl, rfl⟩ := applied
    simp

theorem applyCollateral_covered {held change price amount moved : Int} (positive : 0 < price)
    (applied : applyCollateral held change price = .ok (amount, moved)) :
    price * (amount - held) ≤ moved * priceScale := by
  unfold applyCollateral at applied
  split at applied
  · simp only [toRawDown, floorDiv_of_pos positive, ok_bind, toInt_int, bind_eq_ok, pure_eq_ok,
      Except.ok.injEq, Prod.mk.injEq, ofInt_int] at applied
    obtain ⟨_, -, rfl, rfl⟩ := applied
    rw [Int.add_comm, Int.add_sub_cancel]
    exact floor_mul_le _ positive
  split at applied
  · simp only [readAmountDown_int, ok_bind, pure_eq_ok, Except.ok.injEq, Prod.mk.injEq,
      ofInt_int] at applied
    obtain ⟨rfl, rfl⟩ := applied
    have paid := toAmountDown_covered held price
    rw [Int.neg_mul, Int.zero_sub, Int.mul_neg]
    exact Int.neg_le_neg paid
  split at applied
  · simp only [toRawUp, ceilDiv_of_pos positive, ok_bind, toInt_int, bind_eq_ok, pure_eq_ok,
      Except.ok.injEq, Prod.mk.injEq, ofInt_int] at applied
    obtain ⟨_, -, rfl, rfl⟩ := applied
    have booked : -change * priceScale ≤ -(-(-change * priceScale) / price) * price :=
      le_ceil_mul positive
    generalize -(-(-change * priceScale) / price) = withdrawn at booked ⊢
    have gone : held - withdrawn - held = -withdrawn := by omega
    rw [gone, Int.mul_neg, Int.mul_comm]
    rw [Int.neg_mul] at booked
    omega
  · simp only [Except.ok.injEq, Prod.mk.injEq, pure_eq_ok] at applied
    obtain ⟨rfl, rfl⟩ := applied
    simp

namespace Vault

variable {vault : Vault Int}

theorem operateActions_booked (vault : Vault Int) (request : OperateRequest)
    (collateralTransfer debtTransfer : Int) :
    ((vault.operateActions request collateralTransfer debtTransfer).map Action.booked).sum =
      debtTransfer := by
  unfold operateActions
  rcases Int.lt_trichotomy 0 collateralTransfer with up | rfl | down <;>
    rcases Int.lt_trichotomy 0 debtTransfer with more | rfl | less <;>
      simp [Action.booked, *, Int.not_lt.mpr, Int.le_of_lt]

theorem liquidateActions_booked (vault : Vault Int) (request : LiquidateRequest)
    {debtAmount : Int} (nonneg : 0 ≤ debtAmount) (collateralAmount : Int) :
    ((vault.liquidateActions request debtAmount collateralAmount).map Action.booked).sum =
      -debtAmount := by
  unfold liquidateActions
  rcases Int.lt_or_eq_of_le nonneg with positive | rfl <;>
    rcases Int.lt_or_le 0 collateralAmount with more | less <;>
      simp [Action.booked, *, Int.not_lt.mpr]

end Vault

end TickVault
