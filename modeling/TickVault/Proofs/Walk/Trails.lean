import TickVault.Proofs.Walk.Ahead

/-!
Two walks from the same point. How a walk goes on depends on the ticks and on the branches, but on
nothing that only the walk itself knows, so the two stay together; and what a walk has taken on the
way it never gives back.
-/

namespace TickVault

namespace Pass

variable {start start' : Vault Int} {pass pass' other other' last : Pass Int}
  {debt collateral tick take asked : Int} {record : TickRecord Int} {ticks rest : List Int}
  {more : Bool} {budget left left' : Budget}

/-- The second walk is where the first one is, and has taken that much less on the way. -/
structure Trails (debt collateral : Int) (pass other : Pass Int) : Prop where
  ledger : other.vault.ledger = pass.vault.ledger
  current : other.vault.state.currentBranch = pass.vault.state.currentBranch
  total : other.vault.state.totalBranch = pass.vault.state.totalBranch
  flag : other.vault.state.branchLiquidated = pass.vault.state.branchLiquidated
  debt : pass.debt = debt + other.debt
  collateral : pass.collateral = collateral + other.collateral

theorem Trails.refl (pass : Pass Int) : Trails 0 0 pass pass :=
  ⟨rfl, rfl, rfl, rfl, (Int.zero_add _).symm, (Int.zero_add _).symm⟩

theorem Trails.symm (trails : Trails 0 0 pass other) : Trails 0 0 other pass :=
  ⟨trails.ledger.symm, trails.current.symm, trails.total.symm, trails.flag.symm,
    by rw [trails.debt, Int.zero_add, Int.zero_add],
    by rw [trails.collateral, Int.zero_add, Int.zero_add]⟩

theorem Trails.trans (first : Trails 0 0 pass pass') (second : Trails debt collateral pass' other) :
    Trails debt collateral pass other :=
  ⟨second.ledger.trans first.ledger, second.current.trans first.current,
    second.total.trans first.total, second.flag.trans first.flag,
    by rw [first.debt, Int.zero_add, second.debt],
    by rw [first.collateral, Int.zero_add, second.collateral]⟩

theorem Trails.completed {done : Bool} (trails : Trails debt collateral pass other) :
    Trails debt collateral pass { other with completed := done } :=
  ⟨trails.ledger, trails.current, trails.total, trails.flag, trails.debt, trails.collateral⟩

theorem Trails.of_completed {done : Bool} (trails : Trails debt collateral pass other) :
    Trails debt collateral { pass with completed := done } other :=
  ⟨trails.ledger, trails.current, trails.total, trails.flag, trails.debt, trails.collateral⟩

theorem Trails.fork {id id' : Int} {after after' : Vault Int}
    (trails : Trails debt collateral pass other)
    (forked : pass.vault.forkBranch = .ok (id, after))
    (forked' : other.vault.forkBranch = .ok (id', after')) :
    Trails debt collateral { pass with vault := after, forked := true }
      { other with vault := after', forked := true } := by
  obtain ⟨branches, done, rfl⟩ := Vault.forkBranch_ok forked
  obtain ⟨branches', done', rfl⟩ := Vault.forkBranch_ok forked'
  rw [trails.ledger, trails.current, done] at done'
  cases done'
  exact ⟨by rw [trails.ledger], rfl, rfl, rfl, trails.debt, trails.collateral⟩

/-- Both walks go on under the same branch: where one of them might have forked a branch before,
the current branch is not the one that closes. -/
theorem Trails.handOver {owner : Int} (trails : Trails debt collateral pass other)
    (unforked : owner = pass.vault.state.currentBranch →
      pass.forked = false ∧ other.forked = false)
    (handed : pass.handOver owner more = .ok pass')
    (handed' : other.handOver owner more = .ok other') : Trails debt collateral pass' other' := by
  simp only [Pass.handOver, same_int, Bool.not_eq_true', decide_eq_false_iff_not] at handed handed'
  rw [trails.current, trails.ledger] at handed'
  by_cases current : owner = pass.vault.state.currentBranch
  · rw [if_neg (not_not.mpr current)] at handed handed'
    obtain ⟨branch, known, handed⟩ := bind_eq_ok.mp handed
    rw [known, ok_bind] at handed'
    cases closed : branch.isLiquidated with
    | false =>
      rw [if_pos closed] at handed handed'
      cases handed
      cases handed'
      exact trails
    | true =>
      have open_not : ¬ branch.isLiquidated = false := by simp [closed]
      rw [if_neg open_not] at handed handed'
      cases more with
      | false =>
        cases handed
        cases handed'
        exact ⟨rfl, rfl, trails.total, rfl, trails.debt, trails.collateral⟩
      | true =>
        simp only [Bool.true_eq_false, if_false] at handed handed'
        obtain ⟨found, searched, handed⟩ := bind_eq_ok.mp handed
        rw [searched, ok_bind] at handed'
        cases found with
        | some ancestor =>
          cases handed
          cases handed'
          exact ⟨rfl, rfl, trails.total, rfl, trails.debt, trails.collateral⟩
        | none =>
          obtain ⟨fresh, fresh'⟩ := unforked current
          simp only [fresh, fresh', Bool.false_eq_true, if_false] at handed handed'
          obtain ⟨⟨id, after⟩, forked, handed⟩ := bind_eq_ok.mp handed
          obtain ⟨⟨id', after'⟩, forked', handed'⟩ := bind_eq_ok.mp handed'
          cases handed
          cases handed'
          exact trails.fork forked forked'
  · rw [if_pos current] at handed handed'
    cases handed
    cases handed'
    exact trails

theorem Trails.wipe (trails : Trails debt collateral pass other) (proceeds : Proceeds start pass)
    (proceeds' : Proceeds start' other) (occupied : 0 < (pass.vault.ledger.tickAt tick).rawDebt)
    (wiped : pass.wipe tick more = .ok pass') (wiped' : other.wipe tick more = .ok other') :
    Trails debt collateral pass' other' := by
  obtain ⟨branch, known, owns, -⟩ := proceeds.upholds.governed.owned.owner_known occupied
  simp only [Pass.wipe, Vault.onLedger_eq, attempt_bind, Ledger.attempt_record,
    Ledger.attempt_liquidationEntry, ok_bind, Ledger.tickAt_put, if_true, Ledger.put_put,
    bind_eq_ok, map_eq_ok, attempt_pure, toInt_int, Except.ok.injEq, pure_eq_ok] at wiped wiped'
  rw [trails.ledger] at wiped'
  obtain ⟨_, ⟨_, ⟨⟨removed, emptied⟩, taken, ⟨_, noted⟩, recorded, rfl⟩, rfl⟩, next, handed,
    rfl⟩ := wiped
  obtain ⟨_, ⟨_, ⟨_, taken', _, recorded', rfl⟩, rfl⟩, next', handed', rfl⟩ := wiped'
  cases taken.symm.trans taken'
  cases recorded.symm.trans recorded'
  have liquidated : Trails debt collateral
      { pass with vault := { pass.vault with ledger := noted } }
      { other with vault := { other.vault with ledger := noted } } :=
    ⟨rfl, trails.current, trails.total, trails.flag, trails.debt, trails.collateral⟩
  have together := liquidated.handOver (fun current => ⟨proceeds.unforked known owns current,
    proceeds'.unforked (trails.ledger ▸ known) owns (current.trans trails.current.symm)⟩)
    handed handed'
  refine ⟨together.ledger, together.current, together.total, together.flag, ?_, ?_⟩
  · rw [together.debt]
    exact Int.add_assoc ..
  · rw [together.collateral]
    exact Int.add_assoc ..

theorem reduce_eq (range : minTick ≤ tick ∧ tick ≤ maxTick)
    (reduced : pass.reduce tick take = .ok pass') :
    pass'.debt = pass.debt + take ∧ pass'.collateral = pass.collateral +
      min (take * ratioScale / ratioOf tick) (pass.vault.ledger.tickAt tick).rawCollateral := by
  simp only [Pass.reduce, Ledger.recordD_int, toInt_int, ok_bind, ratioAtTick_ok range,
    floorDiv_of_pos (ratioOf_pos tick), Vault.onLedger_eq, bind_eq_ok, map_eq_ok, pure_eq_ok,
    Except.ok.injEq] at reduced
  obtain ⟨_, ⟨done, -, rfl⟩, rfl⟩ := reduced
  exact ⟨rfl, rfl⟩

theorem Trails.reduce (trails : Trails debt collateral pass other)
    (range : minTick ≤ tick ∧ tick ≤ maxTick)
    (reduced : pass.reduce tick take = .ok pass') (reduced' : other.reduce tick take = .ok other') :
    Trails debt collateral pass' other' := by
  simp only [Pass.reduce, Ledger.recordD_int, toInt_int, ok_bind, ratioAtTick_ok range,
    floorDiv_of_pos (ratioOf_pos tick), Vault.onLedger_eq, bind_eq_ok, map_eq_ok, pure_eq_ok,
    Except.ok.injEq] at reduced reduced'
  rw [trails.ledger] at reduced'
  obtain ⟨_, ⟨done, worked, rfl⟩, rfl⟩ := reduced
  obtain ⟨_, ⟨done', worked', rfl⟩, rfl⟩ := reduced'
  cases worked.symm.trans worked'
  refine ⟨rfl, trails.current, trails.total, trails.flag, ?_, ?_⟩
  · dsimp only
    rw [trails.debt]
    exact Int.add_assoc ..
  · dsimp only
    rw [trails.collateral]
    exact Int.add_assoc ..

/-- What a walk has gained on an earlier point of it: it has come to another tick with more debt, or
has not moved. -/
structure Gains (pass pass' : Pass Int) : Prop where
  debt : Trails 0 0 pass pass' ∨ pass.debt < pass'.debt
  collateral : pass.collateral ≤ pass'.collateral
  config : pass'.vault.config = pass.vault.config
  positions : pass'.vault.positions = pass.vault.positions
  state : ∃ current total flag, pass'.vault.state = { pass.vault.state with
    currentBranch := current, totalBranch := total, branchLiquidated := flag }

theorem Gains.refl (pass : Pass Int) : pass.Gains pass :=
  ⟨.inl (.refl pass), Int.le_refl _, rfl, rfl, _, _, _, rfl⟩

theorem Gains.completed {done : Bool} (gains : pass.Gains pass') :
    pass.Gains { pass' with completed := done } :=
  ⟨gains.debt.imp_left Trails.completed, gains.collateral, gains.config, gains.positions,
    gains.state⟩

theorem Gains.debt_le (gains : pass.Gains pass') : pass.debt ≤ pass'.debt := by
  rcases gains.debt with same | more
  · rw [same.debt, Int.zero_add]
  · exact Int.le_of_lt more

theorem Gains.idle (gains : pass.Gains pass') (nothing : pass'.debt = pass.debt) :
    Trails 0 0 pass pass' := by
  rcases gains.debt with same | more
  · exact same
  · omega

theorem Gains.trans (first : pass.Gains pass') (second : pass'.Gains last) : pass.Gains last := by
  refine ⟨?_, Int.le_trans first.collateral second.collateral, second.config.trans first.config,
    second.positions.trans first.positions, ?_⟩
  · rcases first.debt with same | more
    · rcases second.debt with same' | more
      · exact .inl (same.trans same')
      · have before := same.debt
        exact .inr (by omega)
    · exact .inr (Int.lt_of_lt_of_le more second.debt_le)
  · obtain ⟨_, _, _, state⟩ := first.state
    obtain ⟨_, _, _, state'⟩ := second.state
    exact ⟨_, _, _, by rw [state', state]⟩

theorem Steps.gains (steps : pass.Steps tick record pass') (more : pass.debt < pass'.debt)
    (collateral : pass.collateral ≤ pass'.collateral) : pass.Gains pass' :=
  ⟨.inr more, collateral, steps.config, steps.positions, steps.state⟩

theorem Proceeds.wipe_gains (proceeds : Proceeds start pass)
    (occupied : 0 < (pass.vault.ledger.tickAt tick).rawDebt)
    (wiped : pass.wipe tick more = .ok pass') :
    pass'.debt = pass.debt + (pass.vault.ledger.tickAt tick).rawDebt ∧ pass.Gains pass' := by
  obtain ⟨owner, steps⟩ := wipe_ok proceeds.sound (proceeds.sound.ledger.range occupied) wiped
  have debt := steps.debt
  have collateral := steps.collateral
  have backed : 0 ≤ (pass.vault.ledger.tickAt tick).rawCollateral :=
    proceeds.upholds.governed.accounted.held tick .collateral
  rw [TickRecord.wiped_rawDebt] at debt
  change pass'.collateral + 0 = _ at collateral
  exact ⟨by omega, steps.gains (by omega) (by omega)⟩

theorem Proceeds.reduce_gains (proceeds : Proceeds start pass) (positive : 0 < take)
    (partly : take < (pass.vault.ledger.tickAt tick).rawDebt)
    (reduced : pass.reduce tick take = .ok pass') :
    pass'.debt = pass.debt + take ∧ pass.Gains pass' := by
  have range := proceeds.sound.ledger.range (Int.lt_trans positive partly)
  obtain ⟨_, _, -, -, steps⟩ := reduce_ok proceeds.sound range positive reduced
  obtain ⟨debt, collateral⟩ := reduce_eq range reduced
  have backed : 0 ≤ (pass.vault.ledger.tickAt tick).rawCollateral :=
    proceeds.upholds.governed.accounted.held tick .collateral
  have priced : 0 ≤ take * ratioScale / ratioOf tick :=
    Int.ediv_nonneg (Int.mul_nonneg (Int.le_of_lt positive) (by decide))
      (Int.le_of_lt (ratioOf_pos tick))
  exact ⟨debt, steps.gains (by omega) (by omega)⟩

/-- How the first tick of a fill is gone about: the fill ends there, or it wipes the tick and goes
on, or it reduces the tick and ends. -/
inductive Fills (pass : Pass Int) (tick : Int) (rest : List Int) (asked : Int) (budget : Budget)
    (last : Pass Int) (left : Budget) : Prop
  | satisfied (enough : asked ≤ 0) (same : last = pass) :
      Fills pass tick rest asked budget last left
  | stopped (wanted : 0 < asked) (spent : budget.charge.1 = false)
      (same : last = { pass with completed := false }) : Fills pass tick rest asked budget last left
  | spared (wanted : 0 < asked) (charged : budget.charge.1 = true)
      (little : takeFrom (pass.vault.ledger.tickAt tick).rawDebt asked ≤ 0) (same : last = pass) :
      Fills pass tick rest asked budget last left
  | wiped {next : Pass Int} (wanted : 0 < asked) (charged : budget.charge.1 = true)
      (occupied : 0 < (pass.vault.ledger.tickAt tick).rawDebt)
      (whole : takeFrom (pass.vault.ledger.tickAt tick).rawDebt asked =
        (pass.vault.ledger.tickAt tick).rawDebt)
      (wiped : pass.wipe tick (!rest.isEmpty) = .ok next)
      (filled : attempt budget.charge.2
        (next.fill rest (asked - (pass.vault.ledger.tickAt tick).rawDebt)) = .ok (last, left)) :
      Fills pass tick rest asked budget last left
  | reduced {next : Pass Int} {done : Bool} (wanted : 0 < asked) (charged : budget.charge.1 = true)
      (positive : 0 < takeFrom (pass.vault.ledger.tickAt tick).rawDebt asked)
      (partly : takeFrom (pass.vault.ledger.tickAt tick).rawDebt asked <
        (pass.vault.ledger.tickAt tick).rawDebt)
      (reduced : pass.reduce tick (takeFrom (pass.vault.ledger.tickAt tick).rawDebt asked) =
        .ok next)
      (same : last = { next with completed := done }) : Fills pass tick rest asked budget last left

theorem fill_cons (filled : attempt budget (pass.fill (tick :: rest) asked) = .ok (last, left)) :
    pass.Fills tick rest asked budget last left := by
  simp only [Pass.fill, attempt_ite, attempt_bind, attempt_pure, attempt_charge, attempt_lift,
    Ledger.recordD_int, toInt_int, ok_bind, map_ok] at filled
  split at filled
  · cases filled
    exact .satisfied ‹_› rfl
  rename_i wanted
  split at filled
  · rename_i spent
    cases filled
    exact .stopped (Int.not_le.mp wanted) (by simpa using spent) rfl
  rename_i charged
  replace charged : budget.charge.1 = true := by simpa using charged
  split at filled
  · cases filled
    exact .spared (Int.not_le.mp wanted) charged ‹_› rfl
  rename_i some_left
  have bound := takeFrom_le (pass.vault.ledger.tickAt tick).rawDebt asked
  split at filled
  · rename_i whole
    simp only [bind_eq_ok, map_eq_ok] at filled
    obtain ⟨_, ⟨next, wiped, rfl⟩, filled⟩ := filled
    rw [whole] at some_left filled
    exact .wiped (Int.not_le.mp wanted) charged (Int.not_le.mp some_left) whole wiped filled
  · rename_i part
    simp only [bind_eq_ok, map_eq_ok] at filled
    obtain ⟨_, ⟨next, reduced, rfl⟩, filled⟩ := filled
    have partly := lt_of_le_of_ne bound part
    split at filled
    · cases filled
      exact .reduced (Int.not_le.mp wanted) charged (Int.not_le.mp some_left) partly reduced rfl
    · cases filled
      exact .reduced (Int.not_le.mp wanted) charged (Int.not_le.mp some_left) partly reduced rfl

theorem Proceeds.fill_gains (proceeds : Proceeds start pass)
    (filled : attempt budget (pass.fill ticks asked) = .ok (last, left)) : pass.Gains last := by
  induction ticks generalizing pass asked budget with
  | nil =>
    cases filled
    exact .refl _
  | cons tick rest ih =>
    cases fill_cons filled with
    | satisfied _ same => exact same ▸ .refl pass
    | stopped _ _ same => exact same ▸ (Gains.refl pass).completed
    | spared _ _ _ same => exact same ▸ .refl pass
    | wiped _ _ occupied _ wiped filled =>
      have gains := (proceeds.wipe_gains occupied wiped).2
      exact gains.trans (ih (proceeds.wiped occupied wiped) filled)
    | reduced _ _ positive partly reduced same =>
      exact same ▸ (proceeds.reduce_gains positive partly reduced).2.completed

theorem Trails.fill (trails : Trails debt collateral pass other) (proceeds : Proceeds start pass)
    (proceeds' : Proceeds start' other)
    (filled : attempt budget (pass.fill ticks asked) = .ok (pass', left))
    (filled' : attempt budget (other.fill ticks asked) = .ok (other', left')) :
    Trails debt collateral pass' other' := by
  induction ticks generalizing pass other asked budget with
  | nil =>
    cases filled
    cases filled'
    exact trails
  | cons tick rest ih =>
    -- Both walks look at the same record, so they go about the tick in the same way.
    simp only [Pass.fill, attempt_ite, attempt_bind, attempt_pure, attempt_charge, attempt_lift,
      Ledger.recordD_int, toInt_int, ok_bind, map_ok] at filled'
    rw [trails.ledger] at filled'
    cases fill_cons filled with
    | satisfied enough same =>
      rw [if_pos enough] at filled'
      cases filled'
      exact same ▸ trails
    | stopped wanted spent same =>
      rw [if_neg (Int.not_le.mpr wanted), spent, if_pos (by decide)] at filled'
      cases filled'
      exact same ▸ trails.completed.of_completed
    | spared wanted charged little same =>
      rw [if_neg (Int.not_le.mpr wanted), charged, if_neg (by decide), if_pos little] at filled'
      cases filled'
      exact same ▸ trails
    | wiped wanted charged occupied whole wiped filled =>
      rw [if_neg (Int.not_le.mpr wanted), charged, if_neg (by decide), whole,
        if_neg (Int.not_le.mpr occupied), if_pos rfl] at filled'
      simp only [bind_eq_ok, map_eq_ok] at filled'
      obtain ⟨_, ⟨next', wiped', rfl⟩, filled'⟩ := filled'
      exact ih (trails.wipe proceeds proceeds' occupied wiped wiped')
        (proceeds.wiped occupied wiped)
        (proceeds'.wiped (trails.ledger ▸ occupied) wiped') filled filled'
    | reduced wanted charged positive partly reduced same =>
      have range := proceeds.sound.ledger.range (Int.lt_trans positive partly)
      rw [if_neg (Int.not_le.mpr wanted), charged, if_neg (by decide),
        if_neg (Int.not_le.mpr positive), if_neg (Int.ne_of_lt partly)] at filled'
      simp only [bind_eq_ok, map_eq_ok] at filled'
      obtain ⟨_, ⟨next', reduced', rfl⟩, filled'⟩ := filled'
      have together := trails.reduce range reduced reduced'
      split at filled' <;> cases filled' <;> subst same
      · exact together.of_completed
      · exact together.completed.of_completed

end Pass

end TickVault
