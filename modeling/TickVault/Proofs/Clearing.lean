import TickVault.Proofs.Priority

namespace TickVault

namespace Vault

variable {vault after : Vault Int} {host : Host} {limit : Int} {budget left : Budget}

/-- A vault that holds no debt above a limit, where another one did. All else is as it was. -/
structure Clears (vault : Vault Int) (limit : Int) (after : Vault Int) : Prop where
  emptied : ∀ t, limit < t →
    (after.ledger.tickAt t).rawDebt = 0 ∧ ¬ after.ledger.bitmap.Holds t
  wiped : ∀ t, limit < t → 0 < (vault.ledger.tickAt t).rawDebt →
    (after.ledger.tickAt t).liquidatedSlot = (after.ledger.tickAt t).totalIds
  topmost : ∀ t, after.state.topmost = some t → t ≤ limit
  records : ∀ t, t ≤ limit → after.ledger.ticks.get? t = vault.ledger.ticks.get? t
  positions : ∀ id, after.positions.get? id = vault.positions.get? id
  lost : ∀ id position t, vault.positions.get? id = some position → position.tick = some t →
    limit < t → after.holdings position = .ok ⟨0, 0, 0⟩
  kept : ∀ id position, vault.positions.get? id = some position →
    (∀ t, position.tick = some t → t ≤ limit) →
    ∃ held, vault.holdings position = .ok held ∧ after.holdings position = .ok held

theorem sweep_drains {pass : Pass Int} (coherent : vault.Coherent) (governed : vault.Governed)
    (done : attempt .unlimited (vault.sweep limit) = .ok (pass, left)) :
    ∃ ticks, vault.Riskiest limit ticks ∧
      vault.ledger.Drained ticks [] 0 pass.vault.ledger ∧
      pass.debt = vault.ledger.across TickRecord.rawDebt ticks ∧
      pass.collateral = vault.ledger.across TickRecord.rawCollateral ticks := by
  -- As a fill it asks for more than there is, so it cannot end before its ticks do.
  have all : 0 ≤ vault.ledger.debt := coherent.toSound.debt_nonneg
  have more : vault.ledger.debt ≤ vault.ledger.debt + minTickDebt := by
    simp only [minTickDebt]
    omega
  obtain ⟨ticks, walked, ahead, filled, rfl⟩ := sweep_fills coherent governed more done
  obtain ⟨emptied, rest, part, drains⟩ := (Pass.proceeds_start coherent.toSound governed).fill_drains
    ahead (Int.le_trans all more) filled
  have follows := (Pass.follows_start coherent.toSound).fill filled
  have remains := follows.sound.debt_nonneg
  have sum := follows.debt
  have whole : rest = [] := by
    rcases drains.ends with whole | little | ⟨-, bounded⟩
    · exact whole
    · dsimp only at little
      omega
    · exact absurd rfl bounded
  have nothing : part = 0 := by
    by_contra some_part
    have positive : 0 < part := lt_of_le_of_ne drains.ledger.nonneg (Ne.symm some_part)
    obtain ⟨t, owner, first, -⟩ := drains.ledger.reduced positive
    rw [whole] at first
    cases first
  subst whole nothing
  have split := drains.split
  rw [List.append_nil] at split
  subst split
  refine ⟨_, ahead.riskiest coherent.toSound, drains.ledger, ?_, ?_⟩
  · simpa [Pass.pooled] using drains.debt
  · simpa [Pass.pooled, Ledger.headBacking] using drains.collateral

theorem Peopled.holdings_vacant {id tick : Int} {position : Position Int} (peopled : vault.Peopled)
    (known : vault.positions.get? id = some position) (here : position.tick = some tick)
    (vacant : (vault.ledger.tickAt tick).rawDebt = 0) : vault.holdings position = .ok ⟨0, 0, 0⟩ := by
  have gone : 0 < position.tickSlot ∧
      position.tickSlot ≤ (vault.ledger.tickAt tick).liquidatedSlot := by
    by_contra alive
    have counted := peopled.occupants_pos known ⟨here, alive⟩
    have occupied := (peopled.inhabited tick).mpr counted
    omega
  rw [holdings_eq (peopled.settled known)]
  simp only [Position.share, here, Position.shareOf_wiped gone]

theorem drained_clears {ticks : List Int} (orderly : vault.Orderly) (orderly' : after.Orderly)
    (riskiest : vault.Riskiest limit ticks) (drained : vault.ledger.Drained ticks [] 0 after.ledger)
    (positions : after.positions = vault.positions) : vault.Clears limit after := by
  have spared (t : Int) (outside : t ∉ ticks) :
      after.ledger.ticks.get? t = vault.ledger.ticks.get? t := drained.spared t outside (.inl rfl)
  have below (t : Int) (low : t ≤ limit) : t ∉ ticks := fun member =>
    absurd ((riskiest.mem_iff t).mp member).1 (Int.not_lt.mpr low)
  have wiped (t : Int) (member : t ∈ ticks) :
      ∃ owner, after.ledger.tickAt t = (vault.ledger.tickAt t).wiped owner := by
    obtain ⟨owner, there⟩ := drained.wiped t member
    exact ⟨owner, Ledger.tickAt_of_get? there⟩
  have vacant (t : Int) (above : limit < t) : (after.ledger.tickAt t).rawDebt = 0 := by
    by_cases member : t ∈ ticks
    · obtain ⟨owner, record⟩ := wiped t member
      rw [record, TickRecord.wiped_rawDebt]
    · have held := orderly.ledger.debt t
      have none : ¬ 0 < (vault.ledger.tickAt t).rawDebt := fun occupied =>
        member ((riskiest.mem_iff t).mpr ⟨above, occupied⟩)
      rw [Ledger.tickAt_of_get?_eq (spared t member)]
      omega
  have clear (t : Int) (above : limit < t) : ¬ after.ledger.bitmap.Holds t := by
    rw [orderly'.ledger.bits, vacant t above]
    exact Int.lt_irrefl 0
  have stays : vault.StaysAbove limit after := fun t low =>
    Ledger.tickAt_of_get?_eq (spared t (below t low))
  refine ⟨fun t above => ⟨vacant t above, clear t above⟩, ?_, ?_, ?_, ?_, ?_, ?_⟩
  · intro t above occupied
    obtain ⟨owner, record⟩ := wiped t ((riskiest.mem_iff t).mpr ⟨above, occupied⟩)
    rw [record]
    rfl
  · intro t topmost
    rw [orderly'.topmost] at topmost
    by_contra above
    exact clear t (Int.not_le.mp above) (TickBitmap.holds_highest topmost)
  · exact fun t low => spared t (below t low)
  · intro id
    rw [positions]
  · intro id position t known here above
    exact orderly'.peopled.holdings_vacant (positions ▸ known) here (vacant t above)
  · intro id position known low
    exact (stays.holdings orderly.peopled orderly'.peopled positions known low).2

theorem sweep_clears {pass : Pass Int} (orderly : vault.Orderly) (governed : vault.Governed)
    (swept : attempt .unlimited (vault.sweep limit) = .ok (pass, left)) (orderly' : after.Orderly)
    (ledger : after.ledger = pass.vault.ledger) (positions : after.positions = vault.positions) :
    vault.Clears limit after ∧ ∃ ticks, vault.Riskiest limit ticks ∧
      pass.debt = vault.ledger.across TickRecord.rawDebt ticks ∧
      pass.collateral = vault.ledger.across TickRecord.rawCollateral ticks := by
  obtain ⟨ticks, riskiest, drained, owed, seized⟩ :=
    sweep_drains orderly.toCoherent governed swept
  rw [← ledger] at drained
  exact ⟨drained_clears orderly orderly' riskiest drained positions, ticks, riskiest, owed, seized⟩

theorem absorb_vacant (coherent : vault.Coherent)
    (limited : host.limit vault.config.liquidationMaxLimit = .ok limit)
    (clear : ∀ t, limit < t → ¬ vault.ledger.bitmap.Holds t) (budget : Budget) :
    attempt budget (vault.absorb host) = .error (.nothingAboveMaxLimitTick limit) := by
  obtain ⟨ticks, found, ahead⟩ := coherent.ticksAbove_ahead limit
  have none : ticks = [] := by
    apply List.eq_nil_iff_forall_not_mem.mpr
    intro t member
    obtain ⟨held, above⟩ := (ahead.mem_iff t).mp member
    exact clear t above held
  subst none
  have swept : attempt budget (vault.sweep limit) = .ok (Pass.pooled { vault }, budget) :=
    sweep_iff.mpr ⟨[], _, found, rfl, rfl⟩
  exact absorb_nothing limited swept (not_not.mpr rfl)

end Vault

theorem Host.limit_total {host : Host} {threshold limit : Int}
    (borrow : 0 < host.liquidity.prices.borrow) (limited : host.limit threshold = .ok limit)
    (other : Int) : ∃ limit', host.limit other = .ok limit' := by
  simp only [Host.limit, bind_eq_ok] at limited
  obtain ⟨rate, rated, -⟩ := limited
  simp only [Host.limit, rated, ok_bind]
  exact thresholdTick_ok rate other borrow

namespace Engine

variable {engine start : Engine Int} {request : LiquidateRequest}
  {receipt : LiquidationReceipt Int} {call : Call} {limit : Int}

/-- A call that clears the vault down to a limit, and pools the debt and the collateral that the
ticks above it held. After it there is nothing to absorb. -/
structure Clears (engine : Engine Int) (call : Call) (limit debt collateral : Int) : Prop where
  vault : engine.vault.Clears limit (engine.perform call).engine.vault
  amounts : ∃ ticks, engine.vault.Riskiest limit ticks ∧
    debt = engine.vault.ledger.across TickRecord.rawDebt ticks ∧
    collateral = engine.vault.ledger.across TickRecord.rawCollateral ticks
  spent : ∀ budget, ∃ tick, ((engine.perform call).engine.perform (.absorb budget)).reply =
    .error (.nothingAboveMaxLimitTick tick)

theorem absorb_refused (standing : engine.Standing)
    (limited : engine.host.limit engine.vault.config.liquidationMaxLimit = .ok limit)
    (clear : ∀ t, limit < t → ¬ engine.vault.ledger.bitmap.Holds t) (budget : Budget) :
    (engine.perform (.absorb budget)).reply = .error (.nothingAboveMaxLimitTick limit) := by
  have refused := Vault.absorb_vacant standing.vault.toCoherent limited clear budget
  have fails := concludes engine (fun taken : Int × Int => .absorbed taken.1 taken.2)
    (engine.vault.absorb engine.host) budget
  rw [refused] at fails
  exact fails.fails.1

theorem Standing.absorb_clears {debt collateral : Int} (standing : engine.Standing)
    (answered : (engine.perform (.absorb .unlimited)).reply = .ok (.absorbed debt collateral)) :
    ∃ limit, engine.host.limit engine.vault.config.liquidationMaxLimit = .ok limit ∧
      engine.Clears (.absorb .unlimited) limit debt collateral := by
  have orderly := standing.vault
  have later := standing.perform (.absorb .unlimited)
  obtain ⟨settlement, left, done, told, same, carried⟩ := absorb_answered answered
  obtain ⟨pass, absorbs⟩ := Vault.absorb_ok done
  obtain ⟨limit, limited, swept⟩ := absorbs.swept
  have ledger : (engine.perform (.absorb .unlimited)).engine.vault.ledger = pass.vault.ledger := by
    rw [same, absorbs.ledger]
  have positions : (engine.perform (.absorb .unlimited)).engine.vault.positions =
      engine.vault.positions :=
    (congrArg Vault.positions same).trans (Vault.absorb_takes orderly.toCoherent done).1.positions
  obtain ⟨clears, amounts⟩ :=
    Vault.sweep_clears orderly standing.governed swept later.vault ledger positions
  cases absorbs.receipt.symm.trans told
  refine ⟨limit, limited, clears, amounts, fun budget => ⟨limit, ?_⟩⟩
  apply absorb_refused later _ (fun t above => (clears.emptied t above).2)
  rw [carried.limit, standing.perform_config, limited]

theorem Standing.liquidate_clears (standing : engine.Standing)
    (ordered : engine.vault.config.Ordered) (mode : request.absorb = true)
    (answered : (engine.perform (.liquidate request .unlimited)).reply =
      .ok (.liquidated receipt)) :
    engine.host.limit engine.vault.config.liquidationThreshold = .ok receipt.liquidationTick ∧
      engine.Clears (.liquidate request .unlimited) receipt.liquidationTick receipt.absorbedDebt
        receipt.absorbedCollateral := by
  have orderly := standing.vault
  have later := standing.perform (.liquidate request .unlimited)
  obtain ⟨settlement, left, done, rfl, same, carried⟩ := liquidate_answered answered
  obtain ⟨taken, liquidates⟩ := Vault.liquidate_ok done
  obtain ⟨limit, limited, took⟩ := liquidates.took
  have last := liquidates.ledger
  cases liquidates.limited.symm.trans limited
  rw [liquidates.absorbedDebt, liquidates.absorbedCollateral]
  simp only [Vault.take, mode, if_true] at took
  obtain ⟨pass, booked, _, _, state, swept, books, -, rfl⟩ := Vault.absorbAbove_iff.mp took
  have ledger : (engine.perform (.liquidate request .unlimited)).engine.vault.ledger =
      pass.vault.ledger := by
    calc (engine.perform (.liquidate request .unlimited)).engine.vault.ledger
        = settlement.vault.ledger := congrArg Vault.ledger same
      _ = booked.ledger := last
      _ = pass.vault.ledger := Pass.book_ledger books
  have positions : (engine.perform (.liquidate request .unlimited)).engine.vault.positions =
      engine.vault.positions :=
    (congrArg Vault.positions same).trans
      (Vault.liquidate_takes orderly.toCoherent done).1.positions
  obtain ⟨clears, amounts⟩ :=
    Vault.sweep_clears orderly standing.governed swept later.vault ledger positions
  refine ⟨limited, clears, amounts, fun budget => ?_⟩
  -- The max limit draws no lower tick than the liquidation threshold.
  obtain ⟨highest, drawn⟩ :=
    Host.limit_total standing.borrow limited engine.vault.config.liquidationMaxLimit
  have higher : settlement.receipt.liquidationTick ≤ highest :=
    Host.limit_mono standing.borrow standing.borrow (Int.le_refl _)
      (Int.le_trans (Int.le_of_lt ordered.positive) ordered.liquidated) ordered.absorbed limited
      drawn
  refine ⟨highest, absorb_refused later ?_ (fun t above => ?_) budget⟩
  · rw [carried.limit, standing.perform_config, drawn]
  · exact (clears.emptied t (Int.lt_of_le_of_lt higher above)).2

/-- In every state of a run an absorption without a budget clears the ticks above its limit, and only
those: the max limit draws it for an absorption, the liquidation threshold for a liquidation in
absorb mode. -/
theorem run_clears (new : start.New) (calls : List Call) :
    (∀ debt collateral, ((start.run calls).perform (.absorb .unlimited)).reply =
        .ok (.absorbed debt collateral) →
      ∃ limit, (start.run calls).host.limit (start.run calls).vault.config.liquidationMaxLimit =
          .ok limit ∧
        (start.run calls).Clears (.absorb .unlimited) limit debt collateral) ∧
    ∀ (request : LiquidateRequest) (receipt : LiquidationReceipt Int), request.absorb = true →
      ((start.run calls).perform (.liquidate request .unlimited)).reply =
        .ok (.liquidated receipt) →
      (start.run calls).host.limit (start.run calls).vault.config.liquidationThreshold =
          .ok receipt.liquidationTick ∧
        (start.run calls).Clears (.liquidate request .unlimited) receipt.liquidationTick
          receipt.absorbedDebt receipt.absorbedCollateral := by
  have standing := new.standing.run calls
  have ordered : (start.run calls).vault.config.Ordered := by
    rw [new.standing.run_config calls]
    exact new.ordered
  exact ⟨fun debt collateral answered => standing.absorb_clears answered,
    fun request receipt mode answered => standing.liquidate_clears ordered mode answered⟩

def bystander : List Call :=
  crisis ++ [.operate {
    position := none
    collateral := 2000000000000000000
    debt := 100000000000000000
    signer := "c" }]

theorem bystander_clears :
    let engine := standard.run bystander
    standard.New ∧
      (∃ limit, engine.Clears (.absorb .unlimited) limit 1901662222305347426
        4000000000000000000) ∧
      engine.Clears (.liquidate clearance .unlimited) (-604) 1901662222305347426
        4000000000000000000 ∧
      (engine.perform (.absorb .unlimited)).engine.vault.state.topmost = some (-1998) := by
  intro engine
  obtain ⟨absorbs, liquidates⟩ := run_clears standard_new bystander
  have absorbed : (engine.perform (.absorb .unlimited)).reply =
      .ok (.absorbed 1901662222305347426 4000000000000000000) := by decide +kernel
  have swept : (engine.perform (.liquidate clearance .unlimited)).reply = .ok (.liquidated {
      collateralRaw := 0, debtRaw := 0, collateralAmount := 0, debtAmount := 0
      absorbedCollateral := 4000000000000000000, absorbedDebt := 1901662222305347426
      startTick := some (-462), endTick := some (-1998), liquidationTick := -604
      completed := true }) := by
    decide +kernel
  obtain ⟨limit, -, clears⟩ := absorbs _ _ absorbed
  exact ⟨standard_new, ⟨limit, clears⟩, (liquidates clearance _ rfl swept).2, by decide +kernel⟩

end Engine

end TickVault
