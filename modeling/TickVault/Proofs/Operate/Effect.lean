import TickVault.Proofs.Operate.Parts

namespace TickVault

namespace TickRecord

variable (record : TickRecord Int) (debt collateral branch : Int) (kept : Bool)

@[simp] theorem vacatedBy_rawDebt :
    (record.vacatedBy debt collateral).rawDebt = record.rawDebt - debt := shrunk_rawDebt ..

@[simp] theorem vacatedBy_tick : (record.vacatedBy debt collateral).tick = record.tick :=
  shrunk_tick ..

@[simp] theorem vacatedBy_debtFactor :
    (record.vacatedBy debt collateral).debtFactor = record.debtFactor := shrunk_debtFactor ..

@[simp] theorem vacatedBy_totalIds :
    (record.vacatedBy debt collateral).totalIds = record.totalIds := shrunk_totalIds ..

@[simp] theorem vacatedBy_liquidatedSlot :
    (record.vacatedBy debt collateral).liquidatedSlot = record.liquidatedSlot :=
  shrunk_liquidatedSlot ..

@[simp] theorem vacatedBy_occupants :
    (record.vacatedBy debt collateral).occupants = record.occupants - 1 := shrunk_occupants ..

theorem removal_nonneg (held : 0 ≤ record.rawDebt) : 0 ≤ record.removal debt := by
  unfold removal
  split <;> omega

end TickRecord

namespace Ledger

theorem Sound.occupy {ledger after : Ledger Int} {position : Position Int} {wiped : Bool}
    {tick debt collateral branch slot factor : Int} (sound : ledger.Sound) (positive : 0 < debt)
    (occupied : attempt ledger (Vault.occupy position wiped tick debt collateral branch) =
      .ok ((slot, factor), after)) :
    slot = (if Vault.keeps position wiped tick then position.tickSlot
        else (ledger.tickAt tick).totalIds + 1) ∧
      factor = (ledger.tickAt tick).debtFactor ∧ minTick ≤ tick ∧ tick ≤ maxTick ∧
      ledger.Moved after tick ((ledger.tickAt tick).joinedBy debt collateral branch
        (Vault.keeps position wiped tick)) := by
  simp only [Vault.attempt_occupy, bind_eq_ok, pure_eq_ok, Except.ok.injEq, Prod.mk.injEq]
    at occupied
  obtain ⟨⟨record, added⟩, grown, ⟨rfl, rfl⟩, rfl⟩ := occupied
  obtain ⟨rfl, moved, low, high⟩ := sound.addDebt positive grown
  have more : 0 < ((ledger.tickAt tick).grown debt collateral branch).rawDebt := by
    have held := sound.debt tick
    simp only [TickRecord.grown_rawDebt]
    omega
  have named : ((ledger.tickAt tick).grown debt collateral branch).tick = tick := sound.named tick
  have grown_sound := sound.moved moved named ⟨low, high⟩ (Int.le_of_lt more)
  refine ⟨?_, rfl, low, high, moved.trans (grown_sound.put ?_)⟩
  · split <;> rfl
  · rw [moved.tickAt, if_pos rfl]

end Ledger

namespace Vault

structure Sound (vault : Vault Int) : Prop where
  ledger : vault.ledger.Sound
  current : 0 ≤ vault.state.currentBranch ∧
    vault.state.currentBranch < vault.ledger.branches.records.length

/-- A sound vault whose topmost tick is the highest tick with debt. -/
structure Coherent (vault : Vault Int) : Prop extends vault.Sound where
  topmost : vault.state.topmost = vault.ledger.bitmap.highest?

structure Vacates (vault : Vault Int) (tick removed collateral : Int) (after : Vault Int) :
    Prop where
  covered : removed ≤ (vault.ledger.tickAt tick).rawDebt
  moved : vault.ledger.Moved after.ledger tick
    ((vault.ledger.tickAt tick).vacatedBy removed collateral)
  config : after.config = vault.config
  positions : after.positions = vault.positions
  state : ∃ dust topmost, after.state = { vault.state with absorbedDust := dust, topmost }

theorem topmost_of_vacated {before after : TickBitmap} {tick : Int} {gone : Prop} [Decidable gone]
    (fewer : ∀ t, after.Holds t → before.Holds t)
    (others : ∀ t, t ≠ tick → before.Holds t → after.Holds t)
    (vacant : gone ↔ ¬ after.Holds tick) :
    (if gone ∧ before.highest? = some tick then after.below? tick else before.highest?) =
      after.highest? := by
  split
  · rename_i top
    apply TickBitmap.below?_congr
    intro t
    constructor
    · rintro ⟨held, -⟩
      have range := held.range
      exact ⟨held, by omega⟩
    · rintro ⟨held, -⟩
      have bound := TickBitmap.le_highest top.2 (fewer t held)
      have other : t ≠ tick := by
        rintro rfl
        exact vacant.mp top.1 held
      exact ⟨held, by omega⟩
  · rename_i below
    symm
    cases highest : before.highest? with
    | none =>
      apply TickBitmap.highest?_eq_none_iff.mpr
      intro t held
      exact TickBitmap.highest?_eq_none_iff.mp highest t (fewer t held)
    | some top =>
      apply TickBitmap.highest?_eq_some_iff.mpr
      refine ⟨?_, fun t held => TickBitmap.le_highest highest (fewer t held)⟩
      by_cases here : top = tick
      · subst here
        by_contra empty
        exact below ⟨vacant.mpr empty, highest⟩
      · exact others top here (TickBitmap.holds_highest highest)

theorem Coherent.vacate {vault after : Vault Int} {tick removed : Int} {holdings : Holdings Int}
    (coherent : vault.Coherent) (known : (vault.ledger.ticks.get? tick).isSome)
    (vacated : vault.vacate tick (vault.ledger.tickAt tick) holdings = .ok (removed, after)) :
    removed = (vault.ledger.tickAt tick).removal holdings.debt ∧
      vault.Vacates tick removed holdings.collateral after ∧ after.Coherent := by
  have sound := coherent.ledger
  have nonneg := TickRecord.removal_nonneg (vault.ledger.tickAt tick) holdings.debt
    (sound.debt tick)
  have range : minTick ≤ tick ∧ tick ≤ maxTick := by
    obtain ⟨record, found⟩ := Option.isSome_iff_exists.mp known
    exact (sound.keyed tick record found).2
  simp only [vacate_eq, bind_eq_ok, pure_eq_ok, Except.ok.injEq, Prod.mk.injEq] at vacated
  obtain ⟨⟨left, ledger⟩, attempted, rfl, rfl⟩ := vacated
  -- The occupant is counted off first, then the debt goes.
  have counted : vault.ledger.Moved (vault.ledger.put tick { vault.ledger.tickAt tick with
      occupants := (vault.ledger.tickAt tick).occupants - 1 }) tick
      { vault.ledger.tickAt tick with occupants := (vault.ledger.tickAt tick).occupants - 1 } :=
    sound.put Iff.rfl
  have counted_sound := sound.moved counted (sound.named tick) range (sound.debt tick)
  obtain ⟨covered, rfl, moved⟩ := counted_sound.removeDebt nonneg attempted
  replace covered : (vault.ledger.tickAt tick).removal holdings.debt ≤
      (vault.ledger.tickAt tick).rawDebt := by
    simpa using covered
  have whole : vault.ledger.Moved ledger tick ((vault.ledger.tickAt tick).vacatedBy
      ((vault.ledger.tickAt tick).removal holdings.debt) holdings.collateral) := by
    rw [Ledger.tickAt_put, if_pos rfl] at moved
    exact counted.trans moved
  refine ⟨rfl, ⟨covered, whole, rfl, rfl, _, _, rfl⟩, ⟨⟨?_, ?_⟩, ?_⟩⟩
  · refine sound.moved whole (by simp [sound.named]) range ?_
    simpa using covered
  · simpa [BranchLedger.links_length whole.links] using coherent.current
  · simp only [Ledger.tickAt_put, if_true, TickRecord.shrunk_rawDebt, coherent.topmost]
    apply topmost_of_vacated
    · exact fun t held => sound.holds_of_moved whole (by simpa using nonneg) held
    · intro t other held
      rw [whole.bits, if_neg other]
      exact held
    · rw [whole.bits, if_pos rfl, TickRecord.vacatedBy_rawDebt]
      omega

structure Rebranched (vault after : Vault Int) : Prop where
  ticks : after.ledger.ticks = vault.ledger.ticks
  bitmap : after.ledger.bitmap = vault.ledger.bitmap
  config : after.config = vault.config
  positions : after.positions = vault.positions
  state : ∃ current total flag, after.state = { vault.state with
    currentBranch := current, totalBranch := total, branchLiquidated := flag }

theorem Sound.fork {vault after : Vault Int} {branch : Int} (sound : vault.Sound)
    (forked : vault.forkBranch = .ok (branch, after)) : vault.Rebranched after ∧ after.Sound := by
  obtain ⟨branches, done, rfl⟩ := forkBranch_ok forked
  obtain ⟨rooted, rfl, records, -⟩ := sound.ledger.rooted.fork done
  have size : branches.records.length = vault.ledger.branches.records.length + 1 := by
    simp [records]
  exact ⟨⟨rfl, rfl, rfl, rfl, _, _, _, rfl⟩,
    { ledger := { sound.ledger with rooted }, current := by dsimp only; omega }⟩

theorem Coherent.branches {vault middle : Vault Int} {branch : Int} (coherent : vault.Coherent)
    (active : vault.Branches branch middle) : vault.Rebranched middle ∧ middle.Coherent := by
  cases active with
  | current => exact ⟨⟨rfl, rfl, rfl, rfl, _, _, _, rfl⟩, coherent⟩
  | forked done =>
    obtain ⟨same, sound⟩ := coherent.toSound.fork done
    obtain ⟨current, total, flag, state⟩ := same.state
    refine ⟨same, sound, ?_⟩
    rw [state, same.bitmap]
    exact coherent.topmost

structure Joins (vault : Vault Int) (tick debt collateral branch : Int) (kept : Bool)
    (after : Vault Int) : Prop where
  range : minTick ≤ tick ∧ tick ≤ maxTick
  ticks : after.ledger.ticks = vault.ledger.ticks.insert tick
    ((vault.ledger.tickAt tick).joinedBy debt collateral branch kept)
  config : after.config = vault.config
  positions : after.positions = vault.positions
  state : ∃ topmost current total flag, after.state = { vault.state with
    topmost, currentBranch := current, totalBranch := total, branchLiquidated := flag }

def unseat (position : Position Int) (collateral : Int) : Position Int :=
  { position.cleared with collateral }

@[simp] theorem unseat_id (position : Position Int) (collateral : Int) :
    (unseat position collateral).id = position.id := rfl

@[simp] theorem unseat_tick (position : Position Int) (collateral : Int) :
    (unseat position collateral).tick = none := rfl

def seat (ledger : Ledger Int) (position : Position Int) (kept : Bool)
    (tick debt branch dust collateral : Int) : Position Int :=
  { position with
    collateral
    tick := some tick
    tickSlot := if kept then position.tickSlot else (ledger.tickAt tick).totalIds + 1
    branch
    debtFactor := (ledger.tickAt tick).debtFactor
    debt
    dustDebt := dust }

theorem positionTick_ok {debt collateral tick raised : Int}
    (ticked : positionTick debt collateral = .ok (tick, raised)) : debt ≤ raised := by
  simp only [positionTick, bind_eq_ok, pure_eq_ok, Except.ok.injEq, Prod.mk.injEq] at ticked
  obtain ⟨_, -, _, -, _, -, _, -, -, rfl⟩ := ticked
  exact Int.le_max_right _ _

theorem topmost_of_set {before after : TickBitmap} {tick : Int}
    (range : minTick ≤ tick ∧ tick ≤ maxTick)
    (bits : ∀ t, after.Holds t ↔ t = tick ∨ before.Holds t) :
    (if writeTick before.highest? < tick then some tick else before.highest?) =
      after.highest? := by
  have here := (bits tick).mpr (.inl rfl)
  cases highest : before.highest? with
  | none =>
    have low : coldTick < tick := by
      simp only [coldTick, minTick] at *
      omega
    rw [if_pos (by simpa [writeTick] using low)]
    refine (TickBitmap.highest?_eq_some_iff.mpr ⟨here, fun t held => ?_⟩).symm
    rcases (bits t).mp held with rfl | old
    · exact Int.le_refl _
    · exact absurd old (TickBitmap.highest?_eq_none_iff.mp highest t)
  | some top =>
    have held := TickBitmap.holds_highest highest
    rw [show writeTick (some top) = top from rfl]
    by_cases above : top < tick
    · rw [if_pos above]
      refine (TickBitmap.highest?_eq_some_iff.mpr ⟨here, fun t held' => ?_⟩).symm
      rcases (bits t).mp held' with rfl | old
      · exact Int.le_refl _
      · have bound := TickBitmap.le_highest highest old
        omega
    · rw [if_neg above]
      refine (TickBitmap.highest?_eq_some_iff.mpr ⟨(bits top).mpr (.inr held),
        fun t held' => ?_⟩).symm
      rcases (bits t).mp held' with rfl | old
      · omega
      · exact TickBitmap.le_highest highest old

theorem Coherent.enter {vault after : Vault Int} {position position' : Position Int}
    {wiped : Bool} {collateral netDebt : Int} (coherent : vault.Coherent)
    (entered : vault.Enters position wiped collateral netDebt position' after) :
    ∃ tick debt branch, netDebt ≤ debt ∧
      vault.Joins tick debt collateral branch (keeps position wiped tick) after ∧
      position' = seat vault.ledger position (keeps position wiped tick) tick debt branch
        (debt - netDebt) position.collateral ∧ after.Coherent := by
  obtain ⟨tick, debt, branch, slot, factor, middle, ledger, ticked, active, occupied, rfl, rfl⟩ :=
    entered.placed
  obtain ⟨same, middle_coherent⟩ := coherent.branches active
  have more := positionTick_ok ticked
  have positive : 0 < debt := by
    have enough := entered.enough
    simp only [minDebt] at enough
    omega
  have held := middle_coherent.ledger.debt tick
  obtain ⟨rfl, rfl, low, high, moved⟩ := middle_coherent.ledger.occupy positive occupied
  have stored := Ledger.tickAt_congr same.ticks tick
  rw [stored] at moved held
  obtain ⟨current, total, flag, state⟩ := same.state
  have occupied_now : 0 < ((vault.ledger.tickAt tick).joinedBy debt collateral branch
      (keeps position wiped tick)).rawDebt := by
    change 0 < (vault.ledger.tickAt tick).rawDebt + debt
    omega
  refine ⟨tick, debt, branch, more, ⟨⟨low, high⟩, same.ticks ▸ moved.ticks, same.config,
    same.positions, _, current, total, flag, by rw [state]⟩, by simp [seat, stored], ?_⟩
  refine ⟨⟨middle_coherent.ledger.moved moved (coherent.ledger.named tick) ⟨low, high⟩
    (Int.le_of_lt occupied_now), ?_⟩, ?_⟩
  · simpa [BranchLedger.links_length moved.links] using middle_coherent.current
  · dsimp only
    rw [middle_coherent.topmost]
    refine topmost_of_set ⟨low, high⟩ fun t => ?_
    rw [moved.bits]
    by_cases here : t = tick <;> simp [here, occupied_now]

structure Balanced (vault : Vault Int) : Prop extends vault.Coherent where
  debt : vault.ledger.debt = vault.state.totalBorrow

structure Leaves (vault : Vault Int) (position : Position Int) (departure : Departure Int)
    (departed : Vault Int) : Prop where
  holdings : departure.holdings = position.share vault.ledger
  returns : ∀ t, keeps position departure.wiped t = true → position.Occupies vault.ledger t
  removal : ∀ t, position.Occupies vault.ledger t →
    departure.removed = (vault.ledger.tickAt t).removal departure.holdings.debt
  records : ∀ t, departed.ledger.tickAt t =
    if position.Occupies vault.ledger t then
      (vault.ledger.tickAt t).vacatedBy departure.removed departure.holdings.collateral
    else vault.ledger.tickAt t
  terms : vault.ledger.Extends departed.ledger
  debt : departed.ledger.debt = vault.ledger.debt - departure.removed
  collateral : ∃ gone, departed.ledger.collateral = vault.ledger.collateral - gone ∧
    ((∀ t, ¬ position.Occupies vault.ledger t) ∧ gone = 0 ∨
      ∃ t, position.Occupies vault.ledger t ∧ gone = (vault.ledger.tickAt t).rawCollateral -
        (departed.ledger.tickAt t).rawCollateral)
  config : departed.config = vault.config
  positions : departed.positions = vault.positions
  state : ∃ dust topmost, departed.state = { vault.state with absorbedDust := dust, topmost }

theorem Coherent.depart {vault departed : Vault Int} {position : Position Int}
    {departure : Departure Int} (coherent : vault.Coherent)
    (known : ∀ tick, position.tick = some tick → (vault.ledger.ticks.get? tick).isSome)
    (departs : vault.Departs position departure departed) :
    vault.Leaves position departure departed ∧ departed.Coherent := by
  cases departs with
  | untied free =>
    have nowhere (t : Int) : ¬ position.Occupies vault.ledger t := by
      intro occupies
      rw [occupies.1] at free
      cases free
    refine ⟨⟨rfl, ?_, ?_, ?_, .refl _, (Int.sub_zero _).symm, ⟨0, (Int.sub_zero _).symm,
      .inl ⟨nowhere, rfl⟩⟩, rfl, rfl, _, _, rfl⟩, coherent⟩
    · intro t kept
      simp [keeps, free] at kept
    · exact fun t occupies => absurd occupies (nowhere t)
    · exact fun t => (if_neg (nowhere t)).symm
  | wiped here gone =>
    have nowhere (t : Int) : ¬ position.Occupies vault.ledger t := by
      intro occupies
      have same := here.symm.trans occupies.1
      cases same
      exact gone occupies
    refine ⟨⟨rfl, ?_, ?_, ?_, .refl _, (Int.sub_zero _).symm, ⟨0, (Int.sub_zero _).symm,
      .inl ⟨nowhere, rfl⟩⟩, rfl, rfl, _, _, rfl⟩, ⟨⟨coherent.ledger, coherent.current⟩, ?_⟩⟩
    · intro t kept
      simp [keeps] at kept
    · exact fun t occupies => absurd occupies (nowhere t)
    · exact fun t => (if_neg (nowhere t)).symm
    · exact coherent.topmost
  | @left tick removed _ occupies vacated =>
    obtain ⟨rfl, vacates, after⟩ := coherent.vacate (known _ occupies.1) vacated
    have there {t : Int} : position.Occupies vault.ledger t ↔ t = tick := by
      constructor
      · intro occupies'
        exact Option.some.inj (occupies'.1.symm.trans occupies.1)
      · rintro rfl
        exact occupies
    refine ⟨⟨rfl, ?_, ?_, ?_, ?_, ?_, ⟨_, ?_, .inr ⟨tick, occupies, rfl⟩⟩, vacates.config,
      vacates.positions, vacates.state⟩, after⟩
    · intro t kept
      simp only [keeps, Bool.not_false, Bool.and_true, Bool.and_eq_true,
        decide_eq_true_eq] at kept
      have same := Option.some.inj (kept.1.symm.trans occupies.1)
      exact same ▸ occupies
    · intro t here
      rw [there.mp here]
    · intro t
      rw [vacates.moved.tickAt]
      by_cases here : t = tick
      · rw [if_pos here, if_pos (there.mpr here), here]
      · rw [if_neg here, if_neg (mt there.mp here)]
    · exact Ledger.extends_insert vacates.moved.ticks (TickRecord.vacatedBy_debtFactor ..)
        (TickRecord.vacatedBy_liquidatedSlot ..)
        (Int.le_of_eq (TickRecord.vacatedBy_totalIds ..).symm)
    · have total := Ledger.total_insert vacates.moved.ticks TickRecord.rawDebt rfl
      rw [TickRecord.vacatedBy_rawDebt] at total
      simp only [Ledger.debt]
      omega
    · have total := Ledger.total_insert vacates.moved.ticks TickRecord.rawCollateral rfl
      rw [vacates.moved.tickAt, if_pos rfl]
      simp only [Ledger.collateral]
      omega

theorem Joins.terms {vault after : Vault Int} {tick debt collateral branch : Int} {kept : Bool}
    (joins : vault.Joins tick debt collateral branch kept after) :
    vault.ledger.Extends after.ledger := by
  apply Ledger.extends_insert joins.ticks
  · rfl
  · rfl
  · change _ ≤ if kept then _ else _
    split
    · exact Int.le_refl _
    · exact Int.le_add_one (Int.le_refl _)

theorem Joins.debt {vault after : Vault Int} {tick debt collateral branch : Int} {kept : Bool}
    (joins : vault.Joins tick debt collateral branch kept after) :
    after.ledger.debt = vault.ledger.debt + debt := by
  have total := Ledger.total_insert joins.ticks TickRecord.rawDebt rfl
  have grown : ((vault.ledger.tickAt tick).joinedBy debt collateral branch kept).rawDebt =
    (vault.ledger.tickAt tick).rawDebt + debt := rfl
  simp only [Ledger.debt]
  omega

theorem Joins.collateral {vault after : Vault Int} {tick debt collateral branch : Int} {kept : Bool}
    (joins : vault.Joins tick debt collateral branch kept after) :
    after.ledger.collateral = vault.ledger.collateral + collateral := by
  have total := Ledger.total_insert joins.ticks TickRecord.rawCollateral rfl
  have grown : ((vault.ledger.tickAt tick).joinedBy debt collateral branch kept).rawCollateral =
    (vault.ledger.tickAt tick).rawCollateral + collateral := rfl
  simp only [Ledger.collateral]
  omega

theorem shiftTotal_ok {account : Account} {total total' change : Int}
    (shifted : shiftTotal account total change = .ok total') : total' = total + change := by
  unfold shiftTotal at shifted
  split at shifted <;>
    simp only [bind_eq_ok, toInt_int, Except.ok.injEq, pure_eq_ok, ofInt_int] at shifted
  · obtain ⟨_, rfl, _, added, rfl⟩ := shifted
    exact (checkedAdd_ok added).2
  · obtain ⟨left, taken, rfl⟩ := shifted
    have rest := (checkedSub_ok taken).2
    omega

theorem shiftTotals_ok {state state' : VaultState Int} {supplyChange borrowChange : Int}
    (shifted : state.shiftTotals supplyChange borrowChange = .ok state') :
    state' = { state with
      totalSupply := state.totalSupply + supplyChange
      totalBorrow := state.totalBorrow + borrowChange } := by
  simp only [VaultState.shiftTotals, bind_eq_ok, pure_eq_ok, Except.ok.injEq] at shifted
  obtain ⟨supply, supplied, borrow, borrowed, rfl⟩ := shifted
  rw [shiftTotal_ok supplied, shiftTotal_ok borrowed]

theorem Balanced.rebalance {vault : Vault Int} {prices : ExchangePrices} {position : Position Int}
    {request : OperateRequest} {outcome : Rebalance Int} (balanced : vault.Balanced)
    (known : ∀ tick, position.tick = some tick → (vault.ledger.ticks.get? tick).isSome)
    (done : vault.Rebalances prices position request outcome) : outcome.vault.Balanced := by
  obtain ⟨departure, departed, placed, collateral, netDebt, position', state, departs, -, -,
    placing, -, shifted, after⟩ := done.parts
  obtain ⟨leaves, coherent⟩ := balanced.toCoherent.depart known departs
  obtain ⟨dust, topmost, cursor⟩ := leaves.state
  have left := leaves.debt
  have before := balanced.debt
  have borrow := congrArg VaultState.totalBorrow cursor
  rw [after]
  rcases placing with ⟨rfl, rfl, rfl⟩ | ⟨-, entered⟩
  · have state_eq := shiftTotals_ok shifted
    subst state_eq
    refine ⟨⟨⟨coherent.ledger, coherent.current⟩, coherent.topmost⟩, ?_⟩
    dsimp only [Position.cleared, ofInt_int] at *
    omega
  · obtain ⟨tick, debt, branch, -, joins, rfl, placed_coherent⟩ := coherent.enter entered
    have state_eq := shiftTotals_ok shifted
    subst state_eq
    obtain ⟨top, current, total, flag, state⟩ := joins.state
    have more := joins.debt
    have same := congrArg VaultState.totalBorrow state
    refine ⟨⟨⟨placed_coherent.ledger, placed_coherent.current⟩, placed_coherent.topmost⟩, ?_⟩
    dsimp only [seat] at *
    omega

end Vault

end TickVault
