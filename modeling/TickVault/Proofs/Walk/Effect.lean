import TickVault.Proofs.Walk.Steps

namespace TickVault

namespace TickRecord

variable {record record' record'' : TickRecord Int}

inductive Cleared (record : TickRecord Int) : TickRecord Int → Prop
  | kept : Cleared record record
  | wiped (branch : Int) : Cleared record (record.wiped branch)

inductive Liquidated (record : TickRecord Int) : TickRecord Int → Prop
  | cleared {record' : TickRecord Int} (cleared : Cleared record record') :
      Liquidated record record'
  | reduced {debt collateral branch : Int} (positive : 0 < debt) (partly : debt < record.rawDebt)
      (covered : collateral ≤ record.rawCollateral) :
      Liquidated record (record.reduced debt collateral branch)

theorem Cleared.wipe (cleared : Cleared record record') (branch : Int) :
    Cleared record (record'.wiped branch) := by
  cases cleared with
  | kept => exact .wiped branch
  | wiped => exact .wiped branch

theorem Cleared.eq_of_debt (cleared : Cleared record record') (occupied : 0 < record'.rawDebt) :
    record' = record := by
  cases cleared with
  | kept => rfl
  | wiped => exact absurd occupied (Int.lt_irrefl 0)

theorem Cleared.rawDebt_le (cleared : Cleared record record') (held : 0 ≤ record.rawDebt) :
    record'.rawDebt ≤ record.rawDebt := by
  cases cleared with
  | kept => exact Int.le_refl _
  | wiped => exact held

theorem Liquidated.rawDebt_le (liquidated : Liquidated record record')
    (held : 0 ≤ record.rawDebt) : record'.rawDebt ≤ record.rawDebt := by
  cases liquidated with
  | cleared cleared => exact cleared.rawDebt_le held
  | reduced positive =>
    rw [reduced_rawDebt]
    omega

theorem Liquidated.partly (liquidated : Liquidated record record') (remains : 0 < record'.rawDebt)
    (less : record'.rawDebt < record.rawDebt) :
    ∃ debt collateral branch, 0 < debt ∧ collateral ≤ record.rawCollateral ∧
      record' = record.reduced debt collateral branch := by
  cases liquidated with
  | cleared cleared =>
    rw [cleared.eq_of_debt remains] at less
    exact absurd less (Int.lt_irrefl _)
  | reduced positive _ covered => exact ⟨_, _, _, positive, covered, rfl⟩

end TickRecord

namespace Pass

structure Follows (change : TickRecord Int → TickRecord Int → Prop) (start : Vault Int)
    (pass : Pass Int) : Prop where
  sound : pass.vault.Sound
  records : ∀ t, change (start.ledger.tickAt t) (pass.vault.ledger.tickAt t)
  known : ∀ t, (start.ledger.ticks.get? t).isSome → (pass.vault.ledger.ticks.get? t).isSome
  debt : pass.vault.ledger.debt + pass.debt = start.ledger.debt
  collateral : pass.vault.ledger.collateral + pass.collateral = start.ledger.collateral
  config : pass.vault.config = start.config
  positions : pass.vault.positions = start.positions
  state : ∃ current total flag pooled backing, pass.vault.state = { start.state with
    currentBranch := current, totalBranch := total, branchLiquidated := flag
    absorbedDebt := pooled, absorbedCollateral := backing }

variable {change change' : TickRecord Int → TickRecord Int → Prop} {start : Vault Int}
  {pass pass' : Pass Int}

theorem follows_start (sound : start.Sound) :
    Follows TickRecord.Cleared start { vault := start } :=
  ⟨sound, fun _ => .kept, fun _ => id, Int.add_zero _, Int.add_zero _, rfl, rfl,
    _, _, _, _, _, rfl⟩

theorem Follows.weaken (follows : Follows change start pass)
    (weaker : ∀ record record', change record record' → change' record record') :
    Follows change' start pass :=
  { follows with records := fun t => weaker _ _ (follows.records t) }

theorem Follows.step {tick : Int} {record : TickRecord Int} (follows : Follows change start pass)
    (steps : pass.Steps tick record pass')
    (here : change' (start.ledger.tickAt tick) record)
    (weaker : ∀ record record', change record record' → change' record record') :
    Follows change' start pass' := by
  have debt := Ledger.total_insert steps.ticks TickRecord.rawDebt rfl
  have collateral := Ledger.total_insert steps.ticks TickRecord.rawCollateral rfl
  have owed := steps.debt
  have seized := steps.collateral
  have before := follows.debt
  have before' := follows.collateral
  obtain ⟨current, total, flag, state⟩ := steps.state
  obtain ⟨_, _, _, pooled, backing, state'⟩ := follows.state
  refine ⟨steps.sound, fun t => ?_, fun t known => ?_, ?_, ?_, steps.config.trans follows.config,
    steps.positions.trans follows.positions, current, total, flag, pooled, backing,
    by rw [state, state']⟩
  · rw [Ledger.tickAt_insert steps.ticks]
    split
    · rename_i same
      exact same ▸ here
    · exact weaker _ _ (follows.records t)
  · rw [steps.ticks, Table.get?_insert]
    split
    · rfl
    · exact follows.known t known
  · simp only [Ledger.debt] at *
    omega
  · simp only [Ledger.collateral] at *
    omega

theorem Follows.wipe {tick : Int} {more : Bool} (follows : Follows TickRecord.Cleared start pass)
    (range : minTick ≤ tick ∧ tick ≤ maxTick) (wiped : pass.wipe tick more = .ok pass') :
    Follows TickRecord.Cleared start pass' := by
  obtain ⟨owner, steps⟩ := wipe_ok follows.sound range wiped
  exact follows.step steps ((follows.records tick).wipe owner) fun _ _ => id

theorem Follows.reduce {tick take : Int} (follows : Follows TickRecord.Cleared start pass)
    (range : minTick ≤ tick ∧ tick ≤ maxTick) (positive : 0 < take)
    (reduced : pass.reduce tick take = .ok pass') :
    Follows TickRecord.Liquidated start pass' := by
  obtain ⟨collateral, owner, partly, covered, steps⟩ :=
    reduce_ok follows.sound range positive reduced
  have same := (follows.records tick).eq_of_debt (Int.lt_trans positive partly)
  rw [same] at steps partly covered
  exact follows.step steps (.reduced positive partly covered) fun _ _ => .cleared

theorem takeFrom_le (held asked : Int) : takeFrom held asked ≤ held := by
  have least : minTickDebt = 100 := rfl
  simp only [takeFrom]
  split <;> omega

theorem Follows.completed {done : Bool} (follows : Follows change start pass) :
    Follows change start { pass with completed := done } :=
  ⟨follows.sound, follows.records, follows.known, follows.debt, follows.collateral, follows.config,
    follows.positions, follows.state⟩

theorem Follows.fill {ticks : List Int} {asked : Int} {budget left : Budget}
    (follows : Follows TickRecord.Cleared start pass)
    (filled : attempt budget (pass.fill ticks asked) = .ok (pass', left)) :
    Follows TickRecord.Liquidated start pass' := by
  have ends {pass : Pass Int} (follows : Follows TickRecord.Cleared start pass) :=
    follows.weaken fun _ _ => TickRecord.Liquidated.cleared
  -- The walk goes on only after a wipe, so the induction is over passes that have wiped.
  induction ticks generalizing pass asked budget with
  | nil =>
    cases filled
    exact ends follows
  | cons tick rest ih =>
    simp only [Pass.fill, attempt_ite, attempt_bind, attempt_pure, attempt_charge, attempt_lift,
      Ledger.recordD_int, toInt_int, ok_bind, map_ok] at filled
    split at filled
    · cases filled
      exact ends follows
    split at filled
    · cases filled
      exact ends follows.completed
    split at filled
    · cases filled
      exact ends follows
    rename_i some_left
    have positive : 0 < takeFrom (pass.vault.ledger.tickAt tick).rawDebt asked :=
      Int.not_le.mp some_left
    have occupied := Int.lt_of_lt_of_le positive (takeFrom_le _ asked)
    have range := follows.sound.ledger.range occupied
    split at filled
    · simp only [bind_eq_ok, map_eq_ok] at filled
      obtain ⟨_, ⟨next, wiped, rfl⟩, filled⟩ := filled
      exact ih (follows.wipe range wiped) filled
    · simp only [bind_eq_ok, map_eq_ok] at filled
      obtain ⟨_, ⟨next, reduced, rfl⟩, filled⟩ := filled
      have reduction := follows.reduce range positive reduced
      split at filled
      · cases filled
        exact reduction
      · cases filled
        exact reduction.completed

theorem Follows.absorb {ticks : List Int} {budget left : Budget}
    (follows : Follows TickRecord.Cleared start pass)
    (range : ∀ tick ∈ ticks, minTick ≤ tick ∧ tick ≤ maxTick)
    (absorbed : attempt budget (pass.absorb ticks) = .ok (pass', left)) :
    Follows TickRecord.Cleared start pass' := by
  induction ticks generalizing pass budget with
  | nil =>
    cases absorbed
    exact follows
  | cons tick rest ih =>
    simp only [Pass.absorb, attempt_ite, attempt_bind, attempt_pure, attempt_charge, attempt_lift,
      ok_bind] at absorbed
    split at absorbed
    · cases absorbed
      exact follows.completed
    · simp only [bind_eq_ok, map_eq_ok] at absorbed
      obtain ⟨_, ⟨next, wiped, rfl⟩, absorbed⟩ := absorbed
      have here := range tick List.mem_cons_self
      exact ih (follows.wipe here wiped)
        (fun t member => range t (List.mem_cons_of_mem _ member)) absorbed

end Pass

namespace Vault

/-- What a liquidation does to a vault, whatever it does to the topmost tick. -/
structure Takes (change : TickRecord Int → TickRecord Int → Prop) (before after : Vault Int) :
    Prop where
  sound : after.Sound
  records : ∀ t, change (before.ledger.tickAt t) (after.ledger.tickAt t)
  known : ∀ t, (before.ledger.ticks.get? t).isSome → (after.ledger.ticks.get? t).isSome
  supply : after.state.totalSupply + before.ledger.collateral =
    before.state.totalSupply + after.ledger.collateral
  borrow : after.state.totalBorrow + before.ledger.debt =
    before.state.totalBorrow + after.ledger.debt
  config : after.config = before.config
  positions : after.positions = before.positions

variable {change change' : TickRecord Int → TickRecord Int → Prop} {before after vault : Vault Int}

theorem Takes.weaken (takes : Takes change before after)
    (weaker : ∀ record record', change record record' → change' record record') :
    Takes change' before after :=
  { takes with records := fun t => weaker _ _ (takes.records t) }

theorem ticksAbove_holds {limit : Int} {ticks : List Int} (coherent : vault.Coherent)
    (found : vault.ticksAbove limit = .ok ticks) {tick : Int} (member : tick ∈ ticks) :
    vault.ledger.bitmap.Holds tick := by
  unfold ticksAbove at found
  split at found
  · cases found
    cases member
  · rename_i top topmost
    simp only [toInt_int, ok_bind] at found
    split at found
    · cases found
      rcases List.mem_cons.mp member with rfl | below
      · apply TickBitmap.holds_highest
        rw [← coherent.topmost]
        exact topmost
      · obtain ⟨t, taken, rfl⟩ := List.mem_map.mp below
        exact TickBitmap.holds_of_mem_descend ((List.takeWhile_prefix _).mem taken)
    · cases found
      cases member

theorem book_takes {pass : Pass Int} (follows : Pass.Follows change before pass)
    (booked : pass.book = .ok after) :
    Takes change before after ∧ after.state.topmost = before.state.topmost := by
  simp only [Pass.book, bind_eq_ok, pure_eq_ok, Except.ok.injEq] at booked
  obtain ⟨state, shifted, rfl⟩ := booked
  have shifted := shiftTotals_ok shifted
  obtain ⟨current, total, flag, pooled, backing, same⟩ := follows.state
  have debt := follows.debt
  have collateral := follows.collateral
  subst shifted
  refine ⟨⟨⟨follows.sound.ledger, follows.sound.current⟩, follows.records, follows.known, ?_, ?_,
    follows.config, follows.positions⟩, ?_⟩
  · rw [same]
    dsimp only
    omega
  · rw [same]
    dsimp only
    omega
  · rw [same]

theorem sweep_follows {limit : Int} {pass : Pass Int} {budget left : Budget}
    (coherent : vault.Coherent) (swept : attempt budget (vault.sweep limit) = .ok (pass, left)) :
    Pass.Follows TickRecord.Cleared vault pass := by
  simp only [sweep, attempt_bind, attempt_lift, attempt_pure, bind_eq_ok, map_eq_ok] at swept
  obtain ⟨_, ⟨ticks, above, rfl⟩, ⟨walked, _⟩, absorbed, _, ⟨state, pooled, rfl⟩, same⟩ := swept
  cases same
  have follows := (Pass.follows_start coherent.toSound).absorb
    (fun tick member => (ticksAbove_holds coherent above member).range) absorbed
  simp only [VaultState.addAbsorbed, toInt_int, ok_bind, pure_eq_ok, Except.ok.injEq,
    ofInt_int] at pooled
  obtain ⟨current, total, flag, _, _, before⟩ := follows.state
  subst pooled
  exact ⟨⟨follows.sound.ledger, follows.sound.current⟩, follows.records, follows.known,
    follows.debt, follows.collateral, follows.config, follows.positions, current, total, flag, _, _,
    by rw [before]⟩

theorem fillAbove_takes {limit requested : Int} {taken : Liquidation Int} {budget left : Budget}
    (coherent : vault.Coherent)
    (filled : attempt budget (vault.fillAbove limit requested) = .ok (taken, left)) :
    Takes TickRecord.Liquidated vault taken.vault ∧
      taken.vault.state.topmost = vault.state.topmost := by
  simp only [fillAbove, attempt_bind, attempt_lift, attempt_pure, bind_eq_ok, map_eq_ok] at filled
  obtain ⟨_, ⟨ticks, -, rfl⟩, ⟨walked, _⟩, filled, _, ⟨booked, done, rfl⟩, same⟩ := filled
  cases same
  exact book_takes ((Pass.follows_start coherent.toSound).fill filled) done

theorem sellAbsorbed_ok {state state' : VaultState Int} {requested debt collateral : Int}
    (sold : state.sellAbsorbed requested = .ok (debt, collateral, state')) :
    ∃ pooled backing, state' = { state with
      absorbedDebt := pooled, absorbedCollateral := backing } := by
  simp only [VaultState.sellAbsorbed, toInt_int, ok_bind] at sold
  split at sold
  · cases sold
    exact ⟨_, _, rfl⟩
  · simp only [bind_eq_ok, pure_eq_ok, Except.ok.injEq, Prod.mk.injEq] at sold
    obtain ⟨_, -, -, -, rfl⟩ := sold
    exact ⟨_, _, rfl⟩

theorem absorbAbove_takes {limit requested : Int} {taken : Liquidation Int} {budget left : Budget}
    (coherent : vault.Coherent)
    (absorbed : attempt budget (vault.absorbAbove limit requested) = .ok (taken, left)) :
    Takes TickRecord.Cleared vault taken.vault ∧
      taken.vault.state.topmost = vault.state.topmost := by
  simp only [absorbAbove, attempt_bind, attempt_lift, attempt_pure, bind_eq_ok, map_eq_ok]
    at absorbed
  obtain ⟨⟨pass, _⟩, swept, _, ⟨booked, done, rfl⟩, _, ⟨⟨debt, collateral, state⟩, sold, rfl⟩,
    same⟩ := absorbed
  cases same
  obtain ⟨takes, topmost⟩ := book_takes (sweep_follows coherent swept) done
  obtain ⟨pooled, backing, rfl⟩ := sellAbsorbed_ok sold
  exact ⟨⟨⟨takes.sound.ledger, takes.sound.current⟩, takes.records, takes.known, takes.supply,
    takes.borrow, takes.config, takes.positions⟩, topmost⟩

/-- A search from the old topmost tick finds the new one, for no tick above it was set. -/
theorem Takes.settle (coherent : before.Coherent) (takes : Takes change before vault)
    (less : ∀ record record', change record record' → 0 ≤ record.rawDebt →
      record'.rawDebt ≤ record.rawDebt)
    (topmost : vault.state.topmost = before.state.topmost)
    (settled : vault.settleTopmost before.state.topmost = .ok after) :
    Takes change before after ∧ after.Coherent := by
  have fewer (t : Int) (held : vault.ledger.bitmap.Holds t) : before.ledger.bitmap.Holds t := by
    rw [takes.sound.ledger.bits] at held
    rw [coherent.ledger.bits]
    have bound := less _ _ (takes.records t) (coherent.ledger.debt t)
    omega
  cases highest : before.ledger.bitmap.highest? with
  | none =>
    rw [coherent.topmost, highest] at settled
    cases settled
    refine ⟨takes, takes.sound, ?_⟩
    rw [topmost, coherent.topmost, highest]
    symm
    apply TickBitmap.highest?_eq_none_iff.mpr
    intro t held
    exact TickBitmap.highest?_eq_none_iff.mp highest t (fewer t held)
  | some top =>
    rw [coherent.topmost, highest] at settled
    simp only [settleTopmost, toInt_int, ok_bind, pure_eq_ok, Except.ok.injEq, map_ofInt_int]
      at settled
    subst settled
    refine ⟨⟨⟨takes.sound.ledger, takes.sound.current⟩, takes.records, takes.known, takes.supply,
      takes.borrow, takes.config, takes.positions⟩, ⟨takes.sound.ledger, takes.sound.current⟩, ?_⟩
    apply TickBitmap.below?_congr
    intro t
    constructor
    · rintro ⟨held, _⟩
      have range := held.range
      exact ⟨held, by omega⟩
    · rintro ⟨held, _⟩
      have bound := TickBitmap.le_highest highest (fewer t held)
      exact ⟨held, by omega⟩

theorem Takes.withEvents (takes : Takes change before after) (events : List (Event Int)) :
    Takes change before { after with events } :=
  ⟨⟨takes.sound.ledger, takes.sound.current⟩, takes.records, takes.known, takes.supply,
    takes.borrow, takes.config, takes.positions⟩

theorem Coherent.withEvents (coherent : vault.Coherent) (events : List (Event Int)) :
    Coherent { vault with events } :=
  ⟨⟨coherent.ledger, coherent.current⟩, coherent.topmost⟩

theorem take_takes {limit : Int} {request : LiquidateRequest} {taken : Liquidation Int}
    {budget left : Budget} (coherent : vault.Coherent)
    (done : attempt budget (vault.take limit request) = .ok (taken, left)) :
    Takes TickRecord.Liquidated vault taken.vault ∧
      taken.vault.state.topmost = vault.state.topmost := by
  unfold take at done
  split at done
  · obtain ⟨takes, topmost⟩ := absorbAbove_takes coherent done
    exact ⟨takes.weaken fun _ _ => .cleared, topmost⟩
  · exact fillAbove_takes coherent done

theorem liquidate_takes {host : Host} {request : LiquidateRequest} {budget left : Budget}
    {settlement : Settlement Int (LiquidationReceipt Int)} (coherent : vault.Coherent)
    (done : attempt budget (vault.liquidate host request) = .ok (settlement, left)) :
    Takes TickRecord.Liquidated vault settlement.vault ∧ settlement.vault.Coherent := by
  simp only [liquidate, attempt_bind, attempt_lift, attempt_pure, bind_eq_ok, map_eq_ok] at done
  obtain ⟨_, ⟨_, -, rfl⟩, _, ⟨rate, -, rfl⟩, _, ⟨threshold, -, rfl⟩, _, ⟨limit, -, rfl⟩, ⟨taken, _⟩,
    took, _, ⟨_, -, rfl⟩, _, ⟨settled, settles, rfl⟩, _, ⟨_, -, rfl⟩, same⟩ := done
  cases same
  obtain ⟨takes, topmost⟩ := take_takes coherent took
  obtain ⟨settled_takes, settled_coherent⟩ := takes.settle coherent
    (fun _ _ => TickRecord.Liquidated.rawDebt_le) topmost settles
  dsimp only
  split
  · exact ⟨settled_takes.withEvents _, settled_coherent.withEvents _⟩
  · exact ⟨settled_takes.withEvents _, settled_coherent.withEvents _⟩

theorem absorb_takes {host : Host} {budget left : Budget}
    {settlement : Settlement Int (Int × Int)} (coherent : vault.Coherent)
    (done : attempt budget (vault.absorb host) = .ok (settlement, left)) :
    Takes TickRecord.Cleared vault settlement.vault ∧ settlement.vault.Coherent := by
  simp only [absorb, attempt_bind, attempt_lift, attempt_pure, bind_eq_ok, map_eq_ok] at done
  obtain ⟨_, ⟨rate, -, rfl⟩, _, ⟨threshold, -, rfl⟩, _, ⟨limit, -, rfl⟩, ⟨pass, _⟩, swept, _,
    ⟨_, -, rfl⟩, _, ⟨booked, done, rfl⟩, _, ⟨settled, settles, rfl⟩, same⟩ := done
  cases same
  obtain ⟨takes, topmost⟩ := book_takes (sweep_follows coherent swept) done
  obtain ⟨settled_takes, settled_coherent⟩ := takes.settle coherent
    (fun _ _ => TickRecord.Cleared.rawDebt_le) topmost settles
  exact ⟨settled_takes.withEvents _, settled_coherent.withEvents _⟩

end Vault

end TickVault
