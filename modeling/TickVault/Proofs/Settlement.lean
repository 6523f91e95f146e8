import TickVault.Proofs.Walk.Resume

namespace TickVault

/-- The tick that a risk threshold draws at the rates of the host. -/
def Host.limit (host : Host) (threshold : Int) : Except Fault Int := do
  thresholdTick (← checkOracleRate host.oracle) host.liquidity.prices threshold

theorem Host.limit_writable {host : Host} {threshold limit : Int}
    (limited : host.limit threshold = .ok limit) : isWritable limit := by
  simp only [Host.limit, bind_eq_ok] at limited
  obtain ⟨_, -, drawn⟩ := limited
  obtain ⟨low, high⟩ := thresholdTick_range drawn
  exact isWritable_tick low high

def Rebalance.snapshot (outcome : Rebalance Int) (prices : ExchangePrices) :
    PositionSnapshot Int :=
  let position := outcome.position
  { position := position.id, owner := position.owner, tick := position.tick
    tickSlot := position.tickSlot, collateralRaw := position.collateral
    debtRaw := position.debt - position.dustDebt
    collateral := toAmountDown position.collateral prices.supply
    debt := toAmountUp (position.debt - position.dustDebt) prices.borrow
    collateralTransfer := outcome.collateralTransfer, debtTransfer := outcome.debtTransfer }

theorem shiftTotal_neg {account : Account} {total taken : Int} (nonneg : 0 ≤ taken) :
    shiftTotal account total (-taken) = checkedSub account total taken := by
  have less : ¬ -taken > 0 := by omega
  rw [shiftTotal, if_neg less, Int.neg_neg]
  cases checkedSub account total taken <;> rfl

def Pass.pooled (pass : Pass Int) : Pass Int :=
  { pass with vault := { pass.vault with state := { pass.vault.state with
    absorbedDebt := pass.vault.state.absorbedDebt + pass.debt
    absorbedCollateral := pass.vault.state.absorbedCollateral + pass.collateral } } }

namespace Vault

variable {vault : Vault Int} {host : Host} {request : LiquidateRequest} {budget left : Budget}
  {taken : Liquidation Int} {limit : Int}

structure Operates (vault : Vault Int) (host : Host) (request : OperateRequest)
    (position : Position Int) (located : Vault Int) (outcome : Rebalance Int)
    (settlement : Settlement Int (PositionSnapshot Int)) : Prop where
  addressed : ∀ id, request.position = some id → position.id = id
  opens : request.position = none → vault.Opens position located
  locates : vault.Locates position located
  authorized : position.owner = .text request.signer ∨ 0 ≤ request.collateral ∧ request.debt ≤ 0
  rebalances : located.Rebalances host.liquidity.prices position request outcome
  safe : outcome.vault.checkSafety host outcome.position
    (request.debt > 0 || request.collateral < 0) = .ok ()
  vault : ∃ events, settlement.vault = { outcome.vault with events }
  actions : settlement.actions = outcome.vault.operateActions request outcome.collateralTransfer
    outcome.debtTransfer
  receipt : settlement.receipt = outcome.snapshot host.liquidity.prices

theorem locate_addressed {request : OperateRequest} {position : Position Int} {located : Vault Int}
    (orderly : vault.Orderly) (done : vault.locate request = .ok (position, located)) :
    (∀ id, request.position = some id → position.id = id) ∧
      (request.position = none → vault.Opens position located) := by
  constructor
  · intro id named
    simp only [locate, named, Vault.position, key_int, ofInt_int, ok_bind, bind_eq_ok, pure_eq_ok,
      Except.ok.injEq, Prod.mk.injEq] at done
    obtain ⟨found, looked, rfl, -⟩ := done
    split at looked
    · rename_i known
      cases looked
      exact orderly.peopled.named id _ known
    · cases looked
  · intro unnamed
    simp only [locate, unnamed, bind_eq_ok] at done
    obtain ⟨_, -, created⟩ := done
    exact createPosition_opens created

theorem operate_ok {request : OperateRequest}
    {settlement : Settlement Int (PositionSnapshot Int)} (orderly : vault.Orderly)
    (done : vault.operate host request = .ok settlement) :
    ∃ position located outcome,
      vault.Operates host request position located outcome settlement := by
  simp only [operate, OperateRequest.authorize, bind_eq_ok, pure_eq_ok, Except.ok.injEq,
    ensure_eq_ok_iff, Position.netDebt, toInt_int, exists_eq_left'] at done
  obtain ⟨_, -, ⟨position, located⟩, found, _, authorized, outcome, rebalanced, _, safe, _, -,
    rfl⟩ := done
  have locates := locate_locates orderly found
  obtain ⟨orderly', known⟩ := orderly.locates locates
  have rebalances := rebalance_ok (orderly'.peopled.settled known) rebalanced
  obtain ⟨addressed, opens⟩ := locate_addressed orderly found
  exact ⟨position, located, outcome, addressed, opens, locates, authorized, rebalances, safe,
    ⟨_, rfl⟩, rfl, rfl⟩

structure Liquidates (vault : Vault Int) (host : Host) (request : LiquidateRequest)
    (budget left : Budget) (taken : Liquidation Int)
    (settlement : Settlement Int (LiquidationReceipt Int)) : Prop where
  asked : 0 < request.debt ∨ request.debt = 0 ∧ request.absorb = true
  took : ∃ limit, host.limit vault.config.liquidationThreshold = .ok limit ∧
    attempt budget (vault.take limit request) = .ok (taken, left)
  moved : taken.debt ≠ 0 ∨ taken.absorbedDebt ≠ 0
  settled : ∃ middle events, taken.vault.settleTopmost vault.state.topmost = .ok middle ∧
    settlement.vault = { middle with events }
  actions : settlement.actions = settlement.vault.liquidateActions request
    (toAmountUp taken.debt host.liquidity.prices.borrow)
    (toAmountDown taken.collateral host.liquidity.prices.supply)
  debtAmount : settlement.receipt.debtAmount =
    toAmountUp taken.debt host.liquidity.prices.borrow
  collateralAmount : settlement.receipt.collateralAmount =
    toAmountDown taken.collateral host.liquidity.prices.supply
  debt : settlement.receipt.debtRaw = taken.debt
  collateral : settlement.receipt.collateralRaw = taken.collateral
  absorbedDebt : settlement.receipt.absorbedDebt = taken.absorbedDebt
  absorbedCollateral : settlement.receipt.absorbedCollateral = taken.absorbedCollateral
  limited : host.limit vault.config.liquidationThreshold = .ok settlement.receipt.liquidationTick
  startTick : settlement.receipt.startTick = vault.state.topmost
  endTick : settlement.receipt.endTick = settlement.vault.state.topmost
  completed : settlement.receipt.completed = taken.completed

theorem liquidate_ok {settlement : Settlement Int (LiquidationReceipt Int)}
    (done : attempt budget (vault.liquidate host request) = .ok (settlement, left)) :
    ∃ taken, vault.Liquidates host request budget left taken settlement := by
  simp only [liquidate, attempt_bind, attempt_lift, attempt_pure, bind_eq_ok, map_eq_ok,
    toInt_int, Except.ok.injEq, exists_eq_left', ensure_eq_ok_iff] at done
  obtain ⟨_, ⟨_, asked, rfl⟩, _, ⟨rate, rated, rfl⟩, _, ⟨limit, drawn, rfl⟩, ⟨taken, _⟩,
    took, _, ⟨_, moved, rfl⟩, _, ⟨settled, settles, rfl⟩, _, ⟨_, -, rfl⟩, same⟩ := done
  cases same
  have limited : host.limit vault.config.liquidationThreshold = .ok limit := by
    simp only [Host.limit, rated, ok_bind]
    exact drawn
  refine ⟨taken, asked, ⟨limit, limited, took⟩, moved, ?_, ?_, rfl, rfl, rfl, rfl, rfl, rfl,
    limited, rfl, rfl, rfl⟩
  · dsimp only
    split
    · exact ⟨settled, _, settles, rfl⟩
    · exact ⟨settled, _, settles, rfl⟩
  · dsimp only
    split <;> rfl

theorem settleTopmost_ok (vault : Vault Int) (start : Option Int) :
    ∃ after, vault.settleTopmost start = .ok after := by
  cases start with
  | none => exact ⟨_, rfl⟩
  | some tick => exact ⟨_, rfl⟩

theorem liquidate_of (asked : 0 < request.debt ∨ request.debt = 0 ∧ request.absorb = true)
    (limited : host.limit vault.config.liquidationThreshold = .ok limit)
    (took : attempt budget (vault.take limit request) = .ok (taken, left))
    (moved : taken.debt ≠ 0 ∨ taken.absorbedDebt ≠ 0)
    (priced : checkSlippage (toAmountUp taken.debt host.liquidity.prices.borrow)
      (toAmountDown taken.collateral host.liquidity.prices.supply) request.minimum = .ok ()) :
    ∃ settlement, attempt budget (vault.liquidate host request) = .ok (settlement, left) := by
  simp only [Host.limit, bind_eq_ok] at limited
  obtain ⟨rate, rated, drawn⟩ := limited
  obtain ⟨settled, settles⟩ := taken.vault.settleTopmost_ok vault.state.topmost
  simp only [liquidate, attempt_bind, attempt_lift, attempt_pure, toInt_int, ensure_of asked, rated,
    drawn, took, ensure_of moved, settles, priced, map_ok, ok_bind]
  exact ⟨_, rfl⟩

theorem liquidate_nothing (asked : 0 < request.debt ∨ request.debt = 0 ∧ request.absorb = true)
    (limited : host.limit vault.config.liquidationThreshold = .ok limit)
    (took : attempt budget (vault.take limit request) = .ok (taken, left))
    (still : ¬ (taken.debt ≠ 0 ∨ taken.absorbedDebt ≠ 0)) :
    attempt budget (vault.liquidate host request) =
      .error (.nothingAboveLiquidationTick limit) := by
  have worded := Host.limit_writable limited
  simp only [Host.limit, bind_eq_ok] at limited
  obtain ⟨rate, rated, drawn⟩ := limited
  simp only [liquidate, attempt_bind, attempt_lift, toInt_int, ensure_of asked, rated, drawn, took,
    ensure_of_not still, map_ok, ok_bind, map_refuse, refuse_bind]
  exact refuse_of_writable (List.forall_mem_singleton.mpr worded)

structure Absorbs (vault : Vault Int) (host : Host) (budget left : Budget) (pass : Pass Int)
    (settlement : Settlement Int (Int × Int)) : Prop where
  swept : ∃ limit, host.limit vault.config.liquidationMaxLimit = .ok limit ∧
    attempt budget (vault.sweep limit) = .ok (pass, left)
  moved : pass.debt ≠ 0
  settled : ∃ booked middle events, pass.book = .ok booked ∧
    booked.settleTopmost vault.state.topmost = .ok middle ∧
    settlement.vault = { middle with events }
  actions : settlement.actions = []
  receipt : settlement.receipt = (pass.debt, pass.collateral)

theorem absorb_ok {settlement : Settlement Int (Int × Int)}
    (done : attempt budget (vault.absorb host) = .ok (settlement, left)) :
    ∃ pass, vault.Absorbs host budget left pass settlement := by
  simp only [absorb, attempt_bind, attempt_lift, attempt_pure, bind_eq_ok, map_eq_ok, toInt_int,
    Except.ok.injEq, exists_eq_left', ensure_eq_ok_iff] at done
  obtain ⟨_, ⟨rate, rated, rfl⟩, _, ⟨limit, drawn, rfl⟩, ⟨pass, _⟩, swept, _, ⟨_, moved, rfl⟩, _,
    ⟨booked, books, rfl⟩, _, ⟨settled, settles, rfl⟩, same⟩ := done
  cases same
  have limited : host.limit vault.config.liquidationMaxLimit = .ok limit := by
    simp only [Host.limit, rated, ok_bind]
    exact drawn
  exact ⟨pass, ⟨limit, limited, swept⟩, moved, ⟨booked, settled, _, books, settles, rfl⟩, rfl, rfl⟩

theorem absorb_of {pass : Pass Int} {booked : Vault Int}
    (limited : host.limit vault.config.liquidationMaxLimit = .ok limit)
    (swept : attempt budget (vault.sweep limit) = .ok (pass, left)) (moved : pass.debt ≠ 0)
    (books : pass.book = .ok booked) :
    ∃ settlement, attempt budget (vault.absorb host) = .ok (settlement, left) := by
  simp only [Host.limit, bind_eq_ok] at limited
  obtain ⟨rate, rated, drawn⟩ := limited
  obtain ⟨settled, settles⟩ := booked.settleTopmost_ok vault.state.topmost
  simp only [absorb, attempt_bind, attempt_lift, attempt_pure, toInt_int, rated, drawn, swept,
    ensure_of moved, books, settles, map_ok, ok_bind]
  exact ⟨_, rfl⟩

theorem absorb_nothing {pass : Pass Int}
    (limited : host.limit vault.config.liquidationMaxLimit = .ok limit)
    (swept : attempt budget (vault.sweep limit) = .ok (pass, left)) (still : ¬ pass.debt ≠ 0) :
    attempt budget (vault.absorb host) = .error (.nothingAboveMaxLimitTick limit) := by
  have worded := Host.limit_writable limited
  simp only [Host.limit, bind_eq_ok] at limited
  obtain ⟨rate, rated, drawn⟩ := limited
  simp only [absorb, attempt_bind, attempt_lift, toInt_int, rated, drawn, swept,
    ensure_of_not still, map_ok, ok_bind, map_refuse, refuse_bind]
  exact refuse_of_writable (List.forall_mem_singleton.mpr worded)

theorem book_iff {pass : Pass Int} {after : Vault Int} (debt : 0 ≤ pass.debt)
    (collateral : 0 ≤ pass.collateral) :
    pass.book = .ok after ↔ pass.collateral ≤ pass.vault.state.totalSupply ∧
      pass.debt ≤ pass.vault.state.totalBorrow ∧ after = { pass.vault with
        state := { pass.vault.state with
          totalSupply := pass.vault.state.totalSupply - pass.collateral
          totalBorrow := pass.vault.state.totalBorrow - pass.debt } } := by
  simp only [Pass.book, VaultState.shiftTotals, shiftTotal_neg debt, shiftTotal_neg collateral,
    bind_eq_ok, pure_eq_ok, Except.ok.injEq]
  constructor
  · rintro ⟨_, ⟨supply, supplied, borrow, borrowed, rfl⟩, rfl⟩
    obtain ⟨covered, rfl⟩ := checkedSub_ok supplied
    obtain ⟨covered', rfl⟩ := checkedSub_ok borrowed
    exact ⟨covered, covered', rfl⟩
  · rintro ⟨covered, covered', rfl⟩
    exact ⟨_, ⟨_, checkedSub_eq_ok covered, _, checkedSub_eq_ok covered', rfl⟩, rfl⟩

theorem fillAbove_iff {requested : Int} :
    attempt budget (vault.fillAbove limit requested) = .ok (taken, left) ↔
      ∃ ticks pass booked, vault.ticksAbove limit = .ok ticks ∧
        attempt budget (Pass.fill { vault } ticks requested) = .ok (pass, left) ∧
        pass.book = .ok booked ∧
        taken = ⟨booked, pass.debt, pass.collateral, 0, 0, pass.completed⟩ := by
  simp only [fillAbove, attempt_bind, attempt_lift, attempt_pure, bind_eq_ok, map_eq_ok]
  constructor
  · rintro ⟨_, ⟨ticks, found, rfl⟩, ⟨pass, _⟩, filled, _, ⟨booked, books, rfl⟩, same⟩
    cases same
    exact ⟨ticks, pass, booked, found, filled, books, rfl⟩
  · rintro ⟨ticks, pass, booked, found, filled, books, rfl⟩
    exact ⟨_, ⟨ticks, found, rfl⟩, _, filled, _, ⟨booked, books, rfl⟩, rfl⟩

theorem sweep_iff {swept : Pass Int} :
    attempt budget (vault.sweep limit) = .ok (swept, left) ↔
      ∃ ticks pass, vault.ticksAbove limit = .ok ticks ∧
        attempt budget (Pass.absorb { vault } ticks) = .ok (pass, left) ∧ swept = pass.pooled := by
  simp only [sweep, attempt_bind, attempt_lift, attempt_pure, bind_eq_ok, map_eq_ok,
    VaultState.addAbsorbed, toInt_int, Except.ok.injEq, exists_eq_left', pure_eq_ok, ofInt_int]
  constructor
  · rintro ⟨_, ⟨ticks, found, rfl⟩, ⟨pass, _⟩, absorbed, same⟩
    cases same
    exact ⟨ticks, pass, found, absorbed, rfl⟩
  · rintro ⟨ticks, pass, found, absorbed, rfl⟩
    exact ⟨_, ⟨ticks, found, rfl⟩, _, absorbed, rfl⟩

theorem absorbAbove_iff {requested : Int} :
    attempt budget (vault.absorbAbove limit requested) = .ok (taken, left) ↔
      ∃ pass booked debt collateral state,
        attempt budget (vault.sweep limit) = .ok (pass, left) ∧ pass.book = .ok booked ∧
        booked.state.sellAbsorbed requested = .ok (debt, collateral, state) ∧
        taken = ⟨{ booked with state }, debt, collateral, pass.debt, pass.collateral,
          pass.completed⟩ := by
  simp only [absorbAbove, attempt_bind, attempt_lift, attempt_pure, bind_eq_ok, map_eq_ok]
  constructor
  · rintro ⟨⟨pass, _⟩, swept, _, ⟨booked, books, rfl⟩, _, ⟨⟨debt, collateral, state⟩, sold, rfl⟩,
      same⟩
    cases same
    exact ⟨pass, booked, debt, collateral, state, swept, books, sold, rfl⟩
  · rintro ⟨pass, booked, debt, collateral, state, swept, books, sold, rfl⟩
    exact ⟨_, swept, _, ⟨booked, books, rfl⟩, _, ⟨_, sold, rfl⟩, rfl⟩

theorem sweep_fills {asked : Int} {swept : Pass Int} (coherent : vault.Coherent)
    (governed : vault.Governed) (enough : vault.ledger.debt ≤ asked)
    (done : attempt budget (vault.sweep limit) = .ok (swept, left)) :
    ∃ ticks pass, vault.Ahead limit ticks ∧
      attempt budget (Pass.fill { vault } ticks asked) = .ok (pass, left) ∧
      swept = pass.pooled := by
  obtain ⟨ticks, pass, found, absorbed, pools⟩ := sweep_iff.mp done
  obtain ⟨_, found', ahead⟩ := coherent.ticksAbove_ahead limit
  cases found.symm.trans found'
  have proceeds := Pass.proceeds_start coherent.toSound governed
  rw [proceeds.absorb_eq_fill ahead enough] at absorbed
  exact ⟨ticks, pass, ahead, absorbed, pools⟩

end Vault

end TickVault
