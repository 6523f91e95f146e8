import TickVault.Proofs.Resumption.Cut
import TickVault.Proofs.Rounding

namespace TickVault

def Reply.haul : Reply Int → Haul
  | .liquidated receipt =>
    ⟨receipt.debtRaw, receipt.collateralRaw, receipt.absorbedDebt, receipt.absorbedCollateral⟩
  | .absorbed debt collateral => ⟨0, 0, debt, collateral⟩
  | _ => 0

namespace Vault

variable {vault middle : Vault Int} {pass : Pass Int} {pools : Bool} {host : Host}
  {request : LiquidateRequest} {budget left : Budget} {limit asked : Int} {ticks : List Int}

theorem settleTopmost_eq {start : Option Int} {after : Vault Int}
    (settled : vault.settleTopmost start = .ok after) :
    ∃ topmost, after = { vault with state := { vault.state with topmost } } := by
  cases start with
  | none =>
    cases settled
    exact ⟨_, rfl⟩
  | some tick =>
    cases settled
    exact ⟨_, rfl⟩

structure Walked (vault : Vault Int) (pass : Pass Int) : Prop where
  gains : Pass.Gains { vault } pass
  debt : 0 ≤ pass.debt
  collateral : 0 ≤ pass.collateral
  covered : pass.debt ≤ pass.vault.state.totalBorrow
  supply : pass.vault.state.totalSupply = vault.state.totalSupply

theorem Governed.walked (orderly : vault.Orderly) (governed : vault.Governed)
    (filled : attempt budget (Pass.fill { vault } ticks asked) = .ok (pass, left)) :
    vault.Walked pass := by
  have gains := (Pass.proceeds_start orderly.toSound governed).fill_gains filled
  have follows := (Pass.follows_start orderly.toSound).fill filled
  obtain ⟨_, _, _, state⟩ := gains.state
  refine ⟨gains, gains.debt_le, gains.collateral, ?_, by rw [state]⟩
  have debt := follows.debt
  have total := orderly.debt
  have left := follows.sound.debt_nonneg
  rw [state]
  dsimp only
  omega

theorem Walked.settles {α : Type} {haul : α → Haul}
    {worked : Except Fault (Settlement Int α × Budget)}
    (walked : vault.Walked pass)
    (settles : ∀ settlement left', worked = .ok (settlement, left') →
      vault.Settles pools haul pass left (.ok (settlement, left')))
    (moves : pass.collateral ≤ vault.state.totalSupply → 0 < pass.debt →
      ∃ answer, worked = .ok answer)
    (rests : pass.collateral ≤ vault.state.totalSupply → pass.debt = 0 →
      ∃ fault, worked = .error fault ∧ fault.kind? = some .nothingToLiquidate) :
    vault.Settles pools haul pass left worked := by
  cases worked with
  | ok answer => exact settles answer.1 answer.2 rfl
  | error fault =>
    by_cases covered : pass.collateral ≤ vault.state.totalSupply
    · rcases Int.lt_or_eq_of_le walked.debt with moved | still
      · obtain ⟨_, settled⟩ := moves covered moved
        cases settled
      · obtain ⟨_, failed, kind⟩ := rests covered still.symm
        cases failed
        exact .idle still.symm kind
    · exact .refused (Int.not_le.mp covered)

theorem alike_closed {start : Option Int} {events : List (Event Int)}
    (gains : Pass.Gains { vault } pass)
    (settled : Vault.settleTopmost { pass.vault with state := { pass.vault.state with
      totalSupply := pass.vault.state.totalSupply - pass.collateral
      totalBorrow := pass.vault.state.totalBorrow - pass.debt
      absorbedDebt := pass.vault.state.absorbedDebt + (pass.haul pools).absorbedDebt
      absorbedCollateral :=
        pass.vault.state.absorbedCollateral + (pass.haul pools).absorbedCollateral } } start =
      .ok middle)
    (coherent : Coherent { middle with events }) :
    ({ middle with events } : Vault Int).Alike (vault.closed pass pools) := by
  have topmost := coherent.topmost
  obtain ⟨found, rfl⟩ := settleTopmost_eq settled
  obtain ⟨current, total, flag, state⟩ := gains.state
  have config := gains.config
  have positions := gains.positions
  dsimp only at *
  refine ⟨config.symm, ?_, rfl, positions.symm⟩
  simp only [closed, topmost, state]

theorem checkSlippage_zero {debtAmount collateralAmount : Int} (nonneg : 0 ≤ collateralAmount) :
    checkSlippage debtAmount collateralAmount 0 = .ok () := by
  apply ensure_of
  by_cases free : debtAmount ≤ 0
  · exact .inl free
  · exact .inr (Int.ediv_nonneg (Int.mul_nonneg nonneg (by decide))
      (Int.le_of_lt (Int.not_le.mp free)))

theorem Governed.fill_settles (orderly : vault.Orderly) (governed : vault.Governed)
    (supply : 0 < host.liquidity.prices.supply) (mode : request.absorb = false)
    (positive : 0 < request.debt) (minimum : request.minimum = 0)
    (limited : host.limit vault.config.liquidationThreshold = .ok limit)
    (ahead : vault.Ahead limit ticks)
    (filled : attempt budget (Pass.fill { vault } ticks request.debt) = .ok (pass, left)) :
    vault.Settles false (fun receipt => Reply.haul (.liquidated receipt)) pass left
      (attempt budget (vault.liquidate host request)) := by
  obtain ⟨_, found, ahead'⟩ := orderly.ticksAbove_ahead limit
  cases ahead'.unique ahead
  have walked := governed.walked orderly filled
  have books (booked : Vault Int) := @book_iff pass booked walked.debt walked.collateral
  rw [walked.supply] at books
  have selected : vault.take limit request = vault.fillAbove limit request.debt := by
    simp [take, mode]
  have takes (covered : pass.collateral ≤ vault.state.totalSupply) :
      ∃ booked, attempt budget (vault.take limit request) =
        .ok (⟨booked, pass.debt, pass.collateral, 0, 0, pass.completed⟩, left) := by
    rw [selected]
    exact ⟨_, fillAbove_iff.mpr ⟨ticks, pass, _, found, filled,
      (books _).mpr ⟨covered, walked.covered, rfl⟩, rfl⟩⟩
  refine walked.settles (fun settlement left' done => ?_) (fun covered moved => ?_)
    fun covered still => ?_
  · obtain ⟨-, coherent⟩ := liquidate_takes orderly.toCoherent done
    obtain ⟨taken, liquidates⟩ := liquidate_ok done
    obtain ⟨_, limited', took⟩ := liquidates.took
    cases limited.symm.trans limited'
    rw [selected] at took
    obtain ⟨_, _, booked, found', filled', booked_done, rfl⟩ := fillAbove_iff.mp took
    cases found.symm.trans found'
    cases filled.symm.trans filled'
    obtain ⟨covered, -, rfl⟩ := (books _).mp booked_done
    obtain ⟨settled, events, settles, after⟩ := liquidates.settled
    have moved : 0 < pass.debt := by
      have some_debt := liquidates.moved
      simp only [ne_eq, not_true_eq_false, or_false] at some_debt
      exact lt_of_le_of_ne walked.debt (Ne.symm some_debt)
    refine .settled moved covered ?_ ?_
    · rw [after] at coherent ⊢
      rw [← walked.supply] at settles
      exact alike_closed walked.gains (by simpa [Pass.haul] using settles) coherent
    · simp only [Reply.haul, liquidates.debt, liquidates.collateral, liquidates.absorbedDebt,
        liquidates.absorbedCollateral]
      rfl
  · obtain ⟨booked, took⟩ := takes covered
    obtain ⟨settlement, settled⟩ := liquidate_of (.inl positive) limited took
      (.inl (Int.ne_of_gt moved)) (by
        rw [minimum]
        exact checkSlippage_zero (toAmountDown_nonneg walked.collateral supply))
    exact ⟨_, settled⟩
  · obtain ⟨booked, took⟩ := takes covered
    exact ⟨_, liquidate_nothing (.inl positive) limited took (by simp [still]), rfl⟩

/-- A sweep is a fill for all the debt there is. -/
theorem Governed.sweep_eq (orderly : vault.Orderly) (governed : vault.Governed)
    (enough : vault.ledger.debt ≤ asked) (ahead : vault.Ahead limit ticks)
    (filled : attempt budget (Pass.fill { vault } ticks asked) = .ok (pass, left)) :
    attempt budget (vault.sweep limit) = .ok (pass.pooled, left) := by
  obtain ⟨_, found, ahead'⟩ := orderly.ticksAbove_ahead limit
  cases ahead'.unique ahead
  have proceeds := Pass.proceeds_start orderly.toSound governed
  exact sweep_iff.mpr
    ⟨ticks, pass, found, (proceeds.absorb_eq_fill ahead enough budget).trans filled, rfl⟩

theorem Walked.pooled_book {booked : Vault Int} (walked : vault.Walked pass) :
    pass.pooled.book = .ok booked ↔ pass.collateral ≤ vault.state.totalSupply ∧
      booked = { pass.vault with state := { pass.vault.state with
        totalSupply := pass.vault.state.totalSupply - pass.collateral
        totalBorrow := pass.vault.state.totalBorrow - pass.debt
        absorbedDebt := pass.vault.state.absorbedDebt + pass.debt
        absorbedCollateral := pass.vault.state.absorbedCollateral + pass.collateral } } := by
  rw [book_iff (by exact walked.debt) (by exact walked.collateral), ← walked.supply]
  exact and_congr_right fun _ => and_iff_right walked.covered

theorem Governed.absorb_settles (orderly : vault.Orderly) (governed : vault.Governed)
    (enough : vault.ledger.debt ≤ asked)
    (limited : host.limit vault.config.liquidationMaxLimit = .ok limit)
    (ahead : vault.Ahead limit ticks)
    (filled : attempt budget (Pass.fill { vault } ticks asked) = .ok (pass, left)) :
    vault.Settles true (fun taken => Reply.haul (.absorbed taken.1 taken.2)) pass left
      (attempt budget (vault.absorb host)) := by
  have walked := governed.walked orderly filled
  have swept := governed.sweep_eq orderly enough ahead filled
  refine walked.settles (fun settlement left' done => ?_) (fun covered moved => ?_)
    fun _ still => ?_
  · obtain ⟨-, coherent⟩ := absorb_takes orderly.toCoherent done
    obtain ⟨_, absorbs⟩ := absorb_ok done
    obtain ⟨_, limited', swept'⟩ := absorbs.swept
    cases limited.symm.trans limited'
    cases swept.symm.trans swept'
    obtain ⟨_, settled, events, books, settles, after⟩ := absorbs.settled
    obtain ⟨covered, rfl⟩ := walked.pooled_book.mp books
    have moved : 0 < pass.debt := lt_of_le_of_ne walked.debt absorbs.moved.symm
    refine .settled moved covered ?_ (by rw [absorbs.receipt]; rfl)
    rw [after] at coherent ⊢
    exact alike_closed walked.gains settles coherent
  · have books := walked.pooled_book.mpr ⟨covered, rfl⟩
    obtain ⟨settlement, settled⟩ := absorb_of limited swept (Int.ne_of_gt moved) books
    exact ⟨_, settled⟩
  · exact ⟨_, absorb_nothing limited swept (not_not.mpr still), rfl⟩

theorem sellAbsorbed_zero {state : VaultState Int} (pooled : 0 ≤ state.absorbedDebt) :
    state.sellAbsorbed 0 = .ok (0, 0, state) := by
  simp only [VaultState.sellAbsorbed, toInt_int, ok_bind, Int.min_eq_left pooled, if_true,
    pure_eq_ok]

theorem toAmountUp_zero (price : Int) : toAmountUp 0 price = 0 := by
  simp [toAmountUp]

theorem Governed.liquidate_settles (orderly : vault.Orderly) (governed : vault.Governed)
    (pooled : vault.Pooled) (mode : request.absorb = true) (nothing : request.debt = 0)
    (enough : vault.ledger.debt ≤ asked)
    (limited : host.limit vault.config.liquidationThreshold = .ok limit)
    (ahead : vault.Ahead limit ticks)
    (filled : attempt budget (Pass.fill { vault } ticks asked) = .ok (pass, left)) :
    vault.Settles true (fun receipt => Reply.haul (.liquidated receipt)) pass left
      (attempt budget (vault.liquidate host request)) := by
  have walked := governed.walked orderly filled
  have swept := governed.sweep_eq orderly enough ahead filled
  have selected : vault.take limit request = vault.absorbAbove limit 0 := by
    simp [take, mode, nothing]
  obtain ⟨_, _, _, state⟩ := walked.gains.state
  have pool : 0 ≤ pass.vault.state.absorbedDebt + pass.debt := by
    rw [state]
    exact Int.add_nonneg pooled.debt walked.debt
  have takes (covered : pass.collateral ≤ vault.state.totalSupply) :
      ∃ booked, attempt budget (vault.take limit request) =
        .ok (⟨booked, 0, 0, pass.debt, pass.collateral, pass.completed⟩, left) := by
    rw [selected]
    exact ⟨_, absorbAbove_iff.mpr ⟨_, _, _, _, _, swept,
      walked.pooled_book.mpr ⟨covered, rfl⟩, sellAbsorbed_zero pool, rfl⟩⟩
  refine walked.settles (fun settlement left' done => ?_) (fun covered moved => ?_)
    fun covered still => ?_
  · obtain ⟨-, coherent⟩ := liquidate_takes orderly.toCoherent done
    obtain ⟨taken, liquidates⟩ := liquidate_ok done
    obtain ⟨_, limited', took⟩ := liquidates.took
    cases limited.symm.trans limited'
    rw [selected] at took
    obtain ⟨_, booked, _, _, _, swept', books, sold, rfl⟩ := absorbAbove_iff.mp took
    cases swept.symm.trans swept'
    obtain ⟨covered, rfl⟩ := walked.pooled_book.mp books
    cases (sellAbsorbed_zero pool).symm.trans sold
    obtain ⟨settled, events, settles, after⟩ := liquidates.settled
    have moved : 0 < pass.debt := by
      have some_debt := liquidates.moved
      simp only [ne_eq, not_true_eq_false, false_or] at some_debt
      exact lt_of_le_of_ne walked.debt (Ne.symm some_debt)
    refine .settled moved covered ?_ ?_
    · rw [after] at coherent ⊢
      exact alike_closed walked.gains settles coherent
    · simp only [Reply.haul, liquidates.debt, liquidates.collateral, liquidates.absorbedDebt,
        liquidates.absorbedCollateral]
      rfl
  · obtain ⟨booked, took⟩ := takes covered
    obtain ⟨settlement, settled⟩ := liquidate_of (.inr ⟨nothing, mode⟩) limited took
      (.inr (Int.ne_of_gt moved)) (ensure_of (.inl (Int.le_of_eq (toAmountUp_zero _))) _)
    exact ⟨_, settled⟩
  · obtain ⟨booked, took⟩ := takes covered
    exact ⟨_, liquidate_nothing (.inr ⟨nothing, mode⟩) limited took (by simp [still]), rfl⟩

end Vault

end TickVault
