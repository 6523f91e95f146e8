import TickVault.Proofs.Governance
import TickVault.Proofs.Run

namespace TickVault

namespace TickRecord

variable (record : TickRecord Int) {debt : Int} (collateral branch : Int)

@[simp] theorem vacatedBy_branch : (record.vacatedBy debt collateral).branch = record.branch := by
  simp only [vacatedBy, shrunk]
  split <;> rfl

@[simp] theorem vacatedBy_liquidationBranch :
    (record.vacatedBy debt collateral).liquidationBranch = record.liquidationBranch := by
  simp only [vacatedBy, shrunk]
  split <;> rfl

theorem vacatedBy_held (covered : debt ≤ record.rawDebt) (side : Side) :
    0 ≤ (record.vacatedBy debt collateral).held side := by
  cases side with
  | debt =>
    simp only [TickRecord.held, vacatedBy_rawDebt]
    omega
  | collateral =>
    simp only [TickRecord.held, vacatedBy, shrunk]
    split
    · exact Int.le_refl 0
    · dsimp only
      omega

theorem vacatedBy_left (left : ∀ side, 0 ≤ record.left side) (side : Side) :
    0 ≤ (record.vacatedBy debt collateral).left side ∧
      (record.vacatedBy debt collateral).left side ≤ record.left side := by
  have before := left side
  simp only [vacatedBy, shrunk]
  split
  · cases side <;> exact ⟨Int.le_refl 0, before⟩
  · cases side <;> exact ⟨before, Int.le_refl _⟩

theorem joinedBy_held (held : ∀ side, 0 ≤ record.held side) (positive : 0 < debt)
    (funded : 0 ≤ collateral) (kept : Bool) (side : Side) :
    0 ≤ (record.joinedBy debt collateral branch kept).held side := by
  have before := held side
  cases side with
  | debt => exact Int.add_nonneg before (Int.le_of_lt positive)
  | collateral => exact Int.add_nonneg before funded

end TickRecord

namespace Ledger

variable {before after : Ledger Int} {tick debt collateral id : Int}

def Recounted (before after : Ledger Int) (tick : Int) (record : TickRecord Int) : Prop :=
  ∃ id branch ownedTicks, before.Rewritten after tick record id branch { branch with ownedTicks }

theorem Owned.vacate {branch : Branch Int} (owned : before.Owned)
    (occupied : 0 < (before.tickAt tick).rawDebt)
    (known : before.branches.get? (before.tickAt tick).branch = some branch)
    (active : branch.isLiquidated = false)
    (ticks : after.ticks = before.ticks.insert tick ((before.tickAt tick).vacatedBy debt collateral))
    (covered : debt ≤ (before.tickAt tick).rawDebt)
    (branches : after.branches =
      if debt = (before.tickAt tick).rawDebt then
        before.branches.put (before.tickAt tick).branch (branch.released false)
      else before.branches) :
    before.Recounted after tick ((before.tickAt tick).vacatedBy debt collateral) ∧ after.Owned := by
  by_cases whole : debt = (before.tickAt tick).rawDebt
  · rw [if_pos whole] at branches
    have rewritten : before.Rewritten after tick ((before.tickAt tick).vacatedBy debt collateral)
        (before.tickAt tick).branch branch (branch.released false) := ⟨ticks, known, branches⟩
    refine ⟨⟨_, _, _, rewritten⟩, owned.release rewritten rfl rfl ?_ occupied ?_⟩
    · intro liquidated
      change branch.isLiquidated = true at liquidated
      rw [active] at liquidated
      cases liquidated
    · rw [TickRecord.vacatedBy_rawDebt]
      omega
  · rw [if_neg whole] at branches
    have rewritten := rewritten_put known ticks branches
    refine ⟨⟨_, _, _, rewritten⟩, ?_⟩
    apply owned.keep rewritten (owned.owner tick occupied).1 rfl rfl rfl
    · rw [TickRecord.vacatedBy_rawDebt]
      omega
    · exact TickRecord.vacatedBy_branch ..

theorem Owned.join {branch : Branch Int} {kept : Bool} (sound : before.Sound)
    (owned : before.Owned) (first : 1 ≤ id) (known : before.branches.get? id = some branch)
    (active : branch.isLiquidated = false) (positive : 0 < debt)
    (ticks : after.ticks = before.ticks.insert tick
      ((before.tickAt tick).joinedBy debt collateral id kept))
    (branches : after.branches =
      if (before.tickAt tick).rawDebt = 0 then before.branches.put id branch.claimed
      else before.branches) :
    before.Recounted after tick ((before.tickAt tick).joinedBy debt collateral id kept) ∧
      after.Owned := by
  have held := sound.debt tick
  have occupied : 0 < ((before.tickAt tick).joinedBy debt collateral id kept).rawDebt := by
    change 0 < (before.tickAt tick).rawDebt + debt
    omega
  by_cases vacant : (before.tickAt tick).rawDebt = 0
  · rw [if_pos vacant] at branches
    have rewritten : before.Rewritten after tick
        ((before.tickAt tick).joinedBy debt collateral id kept) id branch branch.claimed :=
      ⟨ticks, known, branches⟩
    refine ⟨⟨_, _, _, rewritten⟩, owned.claim rewritten first active ?_ occupied ?_⟩
    · omega
    · exact if_pos ⟨vacant, by omega⟩
  · rw [if_neg vacant] at branches
    have before_occupied : 0 < (before.tickAt tick).rawDebt := by omega
    obtain ⟨found, found_known, -⟩ := owned.owner_known before_occupied
    have rewritten := rewritten_put found_known ticks branches
    refine ⟨⟨_, _, _, rewritten⟩, ?_⟩
    apply owned.keep rewritten (owned.owner tick before_occupied).1 rfl rfl rfl
    · exact iff_of_true occupied before_occupied
    · exact if_neg fun both => vacant both.1

theorem attempt_vacate (sound : before.Sound) (owned : before.Owned)
    (occupied : 0 < (before.tickAt tick).rawDebt) (covered : debt ≤ (before.tickAt tick).rawDebt)
    (collateral : Int) :
    ∃ after, attempt
        (before.put tick { before.tickAt tick with
          occupants := (before.tickAt tick).occupants - 1 })
        (removeDebt tick debt collateral) =
          .ok ((before.tickAt tick).vacatedBy debt collateral, after) ∧
      before.Recounted after tick ((before.tickAt tick).vacatedBy debt collateral) ∧
      after.Owned := by
  obtain ⟨branch, known, owns, active⟩ := owned.owner_known occupied
  simp only [attempt_removeDebt, tickAt_put, if_true, put_put, put_bitmap, put_branches,
    ensure_of covered, ok_bind]
  by_cases whole : debt = (before.tickAt tick).rawDebt
  · obtain ⟨bitmap, cleared⟩ := before.bitmap.clear_ok (sound.range occupied)
    obtain ⟨closes, closed, released⟩ := BranchLedger.release_eq known (by omega) false
    simp only [Bool.false_and] at closed
    subst closed
    simp only [if_pos (And.intro occupied whole), cleared, released, ok_bind, pure_eq_ok]
    exact ⟨_, rfl, owned.vacate occupied known active rfl covered (if_pos whole).symm⟩
  · have partly : ¬ (0 < (before.tickAt tick).rawDebt ∧ debt = (before.tickAt tick).rawDebt) :=
      fun both => whole both.2
    simp only [if_neg partly, pure_eq_ok]
    exact ⟨_, rfl, owned.vacate occupied known active rfl covered (if_neg whole).symm⟩

/-- Nothing but an overflow keeps an occupant off a tick. -/
theorem attempt_occupy_yields {branch : Branch Int} {position : Position Int} {wiped : Bool}
    (sound : before.Sound) (owned : before.Owned) (first : 1 ≤ id)
    (known : before.branches.get? id = some branch) (active : branch.isLiquidated = false)
    (range : minTick ≤ tick ∧ tick ≤ maxTick) (positive : 0 < debt) :
    Yields (attempt before (Vault.occupy position wiped tick debt collateral id)) fun done =>
      before.Recounted done.2 tick
          ((before.tickAt tick).joinedBy debt collateral id (Vault.keeps position wiped tick)) ∧
        done.2.Owned := by
  simp only [Vault.attempt_occupy, attempt_addDebt]
  cases added : checkedAdd (before.tickAt tick).rawDebt debt with
  | error fault => exact (checkedAdd_yields _ _).awaited added
  | ok rawDebt =>
    cases added' : checkedAdd (before.tickAt tick).rawCollateral collateral with
    | error fault => exact (checkedAdd_yields _ _).awaited added'
    | ok rawCollateral =>
      obtain ⟨-, rfl⟩ := checkedAdd_ok added
      by_cases vacant : (before.tickAt tick).rawDebt = 0
      · obtain ⟨bitmap, set⟩ := before.bitmap.set_ok range
        have opens : (before.tickAt tick).rawDebt = 0 ∧
            0 < (before.tickAt tick).rawDebt + debt := ⟨vacant, by omega⟩
        simp only [ok_bind, if_pos opens, BranchLedger.claim_eq known, set, pure_eq_ok]
        apply owned.join sound first known active positive
        · exact Table.insert_insert _ _ _ _
        · exact (if_pos vacant).symm
      · have stays : ¬ ((before.tickAt tick).rawDebt = 0 ∧
            0 < (before.tickAt tick).rawDebt + debt) := fun both => vacant both.1
        simp only [ok_bind, if_neg stays, pure_eq_ok]
        apply owned.join sound first known active positive
        · exact Table.insert_insert _ _ _ _
        · exact (if_neg vacant).symm

end Ledger

namespace Vault

variable {vault before after : Vault Int} {position : Position Int} {tick debt collateral : Int}
  {record : TickRecord Int}

/-- Whoever comes or goes takes nothing away but what was left on the tick. -/
theorem Governed.recounted (governed : before.Governed)
    (recounted : before.ledger.Recounted after.ledger tick record) (owned : after.ledger.Owned)
    (held : ∀ side, 0 ≤ record.held side)
    (left : ∀ side, 0 ≤ record.left side ∧
      record.left side ≤ (before.ledger.tickAt tick).left side)
    (visited : record.liquidationBranch = (before.ledger.tickAt tick).liquidationBranch)
    (keeps : before.Keeps after) : before.Upholds after 0 := by
  obtain ⟨id, branch, ownedTicks, rewritten⟩ := recounted
  refine governed.rewritten rewritten owned ?_ rfl (Int.add_zero _).symm keeps
  apply governed.accounted.ease rewritten held (fun side => (left side).1)
    (fun side => (left side).2) visited
  · rfl
  · rfl

theorem Governed.vacate (sound : vault.Sound) (governed : vault.Governed)
    (occupied : 0 < (vault.ledger.tickAt tick).rawDebt) (holdings : Holdings Int) :
    ∃ removed after, vault.vacate tick (vault.ledger.tickAt tick) holdings =
      .ok (removed, after) ∧ vault.Upholds after 0 := by
  have covered : (vault.ledger.tickAt tick).removal holdings.debt ≤
      (vault.ledger.tickAt tick).rawDebt := by
    unfold TickRecord.removal
    split <;> omega
  obtain ⟨ledger, removed, recounted, owned⟩ := Ledger.attempt_vacate sound.ledger governed.owned
    occupied covered holdings.collateral
  simp only [vacate_eq, removed, ok_bind, pure_eq_ok]
  refine ⟨_, _, rfl, governed.recounted recounted owned ?_ ?_ ?_ ⟨rfl, rfl, rfl, rfl, rfl⟩⟩
  · exact TickRecord.vacatedBy_held _ _ covered
  · exact TickRecord.vacatedBy_left _ _ (governed.accounted.left tick)
  · exact TickRecord.vacatedBy_liquidationBranch ..

theorem Governed.depart (sound : vault.Sound) (governed : vault.Governed)
    (settled : position.Settled vault.ledger)
    (occupied : ∀ t, position.Occupies vault.ledger t → 0 < (vault.ledger.tickAt t).rawDebt) :
    ∃ departure departed, vault.depart position = .ok (departure, departed) ∧
      vault.Upholds departed 0 := by
  simp only [Vault.depart, holdings_eq settled, ok_bind]
  cases here : position.tick with
  | none =>
    simp only [Position.record?, here, ok_bind, pure_eq_ok]
    exact ⟨_, _, rfl, governed.refl⟩
  | some tick =>
    obtain ⟨record, found⟩ := Option.isSome_iff_exists.mp (settled.known tick here)
    have stored := Ledger.tickAt_of_get? found
    simp only [Position.record?, here, Ledger.peek?_int, found, ok_bind,
      TickRecord.slotLiquidated_int, decide_eq_true_eq]
    split
    · simp only [VaultState.absorbDust, gather_int, ok_bind, pure_eq_ok]
      exact ⟨_, _, rfl, governed.keeps ⟨rfl, rfl, rfl, rfl, rfl⟩ rfl⟩
    · rename_i alive
      rw [← stored]
      obtain ⟨removed, after, vacated, upholds⟩ := governed.vacate sound
        (occupied tick ⟨here, stored ▸ alive⟩) (position.share vault.ledger)
      simp only [vacated, ok_bind, pure_eq_ok]
      exact ⟨_, _, rfl, upholds⟩

theorem Governed.enter_yields {wiped : Bool} {netDebt : Int} (coherent : vault.Coherent)
    (governed : vault.Governed) (funded : 0 ≤ collateral) :
    Yields (vault.enter position wiped collateral netDebt) fun done =>
      vault.Upholds done.2 0 := by
  apply (yields_ensure fun _ => .request rfl (by decide)).bind
  intro _ _ enough
  apply (yields_ensure fun _ => .request rfl (by decide)).bind
  intro _ _ backed
  have divided : floorDiv (netDebt * ratioScale) collateral =
      .ok ((netDebt * ratioScale).fdiv collateral) := if_neg backed
  rw [divided, ok_bind]
  apply (yields_ensure fun _ => .request rfl (by decide)).bind
  intro _ _ bounded
  have within : maxPositionRatio ≤ maxRatio := by decide
  obtain ⟨tick, debt, ticked, low, high, more⟩ :=
    positionTick_of_le backed (Int.le_trans bounded within)
  have positive : 0 < debt := by
    simp only [minDebt] at enough
    omega
  obtain ⟨id, middle, branch, ensured, upholds, current, known, active⟩ :=
    governed.ensureBranch coherent.toSound
  have sound := (coherent.branches (ensureBranch_ok ensured)).2.ledger
  have first : 1 ≤ id := current ▸ upholds.governed.first
  simp only [ticked, ok_bind, ensured, onLedger_eq, reach_int, pure_eq_ok]
  refine (?_ : Yields _ fun done => middle.Upholds done.2 0).bind ?_
  · apply Yields.map
    refine (Ledger.attempt_occupy_yields sound upholds.governed.owned first known active
      ⟨low, high⟩ positive).weaken ?_
    rintro ⟨seat, ledger⟩ _ ⟨recounted, owned⟩
    apply upholds.governed.recounted recounted owned
    · exact TickRecord.joinedBy_held _ _ _ (upholds.governed.accounted.held tick) positive funded _
    · exact fun side => ⟨upholds.governed.accounted.left tick side, Int.le_refl _⟩
    · rfl
    · exact ⟨rfl, rfl, rfl, rfl, rfl⟩
  · rintro ⟨⟨slot, factor⟩, joined⟩ _ joins
    change vault.Upholds _ (0 + 0)
    apply upholds.trans
    exact joins.keeps ⟨rfl, rfl, rfl, rfl, rfl⟩ rfl

theorem Governed.place_yields {wiped : Bool} {netDebt : Int} (coherent : vault.Coherent)
    (governed : vault.Governed) (funded : 0 ≤ collateral) :
    Yields (vault.place position wiped collateral netDebt) fun done =>
      vault.Upholds done.2 0 := by
  unfold place
  split
  · exact governed.refl
  · exact governed.enter_yields coherent funded

theorem Upholds.putAt {debt : Int} {old : Position Int} (upholds : before.Upholds after debt)
    (known : before.positions.get? position.id = some old)
    (next : after.state.nextPosition = before.state.nextPosition) :
    before.Upholds (after.putAt position) debt where
  governed := upholds.governed.congr rfl rfl rfl rfl
  advances := upholds.advances
  numbered numbered := by
    intro id found here
    rw [get?_putAt] at here
    split at here
    · rename_i same
      change id < after.state.nextPosition
      rw [next, ← same]
      exact numbered _ _ known
    · exact upholds.numbered numbered id found here

theorem Coherent.placed {position' : Position Int} {wiped : Bool} {netDebt : Int}
    (coherent : vault.Coherent)
    (placed : vault.place position wiped collateral netDebt = .ok (position', after)) :
    position'.id = position.id ∧ 0 ≤ position'.debt ∧
      after.state.totalBorrow = vault.state.totalBorrow ∧
      after.state.nextPosition = vault.state.nextPosition := by
  rcases place_ok placed with ⟨-, rfl, rfl⟩ | ⟨-, entered⟩
  · exact ⟨rfl, Int.le_refl 0, rfl, rfl⟩
  · have enough := entered.enough
    obtain ⟨tick, debt, branch, more, joins, rfl, -⟩ := coherent.enter entered
    obtain ⟨top, current, total, flag, state⟩ := joins.state
    refine ⟨rfl, ?_, by rw [state], by rw [state]⟩
    change 0 ≤ debt
    simp only [minDebt] at enough
    omega

theorem Balanced.removed_le {departure : Departure Int} {departed : Vault Int}
    (balanced : vault.Balanced) (coherent : departed.Coherent)
    (leaves : vault.Leaves position departure departed) :
    departure.removed ≤ departed.state.totalBorrow := by
  obtain ⟨dust, topmost, state⟩ := leaves.state
  have left := coherent.toSound.debt_nonneg
  have before := balanced.debt
  have removed := leaves.debt
  rw [state]
  dsimp only
  omega

theorem Governed.rebalance_yields {prices : ExchangePrices} {request : OperateRequest}
    (orderly : vault.Orderly) (governed : vault.Governed) (supply : 0 < prices.supply)
    (borrow : 0 < prices.borrow) (known : vault.positions.get? position.id = some position) :
    Yields (vault.rebalance prices position request) fun outcome =>
      vault.Upholds outcome.vault 0 := by
  have settled := orderly.peopled.settled known
  have seated := orderly.peopled.seated _ _ known
  obtain ⟨departure, departed, done, upholds⟩ := governed.depart orderly.toSound settled
    fun t occupies => (orderly.peopled.inhabited t).mpr (orderly.peopled.occupants_pos known occupies)
  obtain ⟨leaves, coherent⟩ := orderly.toCoherent.depart seated.known (depart_ok settled done)
  simp only [rebalance, done, ok_bind, toInt_int, Holdings.netDebt, pure_eq_ok]
  apply (applyCollateral_yields supply _ _).bind
  rintro ⟨collateral, collateralTransfer⟩ applied _
  have funded : 0 ≤ collateral := by
    apply applyCollateral_nonneg _ supply applied
    rw [leaves.holdings]
    exact orderly.peopled.share_nonneg known
  apply (applyDebt_yields borrow _ _ _).bind
  rintro ⟨netDebt, debtTransfer⟩ _ _
  apply (upholds.governed.place_yields coherent funded).bind
  rintro ⟨position', placed⟩ placing places
  obtain ⟨named, owing, borrowed, next⟩ := coherent.placed placing
  obtain ⟨dust, topmost, state⟩ := leaves.state
  have covered : 0 ≤ placed.state.totalBorrow + (position'.debt - departure.removed) := by
    have removed := orderly.toBalanced.removed_le coherent leaves
    omega
  apply (shiftTotals_yields covered).bind
  intro state' shifted _
  have same := shiftTotals_ok shifted
  have keeps : placed.Keeps { placed with state := state' } := by
    rw [same]
    exact ⟨rfl, rfl, rfl, rfl, rfl⟩
  have settles := upholds.trans (places.keeps keeps rfl)
  change vault.Upholds (({ placed with state := state' } : Vault Int).putAt
    { position' with collateral }) 0
  apply settles.putAt
  · change vault.positions.get? position'.id = some position
    rw [named]
    exact known
  · rw [keeps.next, next, state]

theorem Governed.create (governed : vault.Governed) (numbered : vault.Numbered) (owner : String) :
    ∃ position after, vault.createPosition owner = .ok (position, after) ∧
      vault.Upholds after 0 := by
  have unused : vault.positions.contains vault.state.nextPosition = false := by
    unfold Table.contains
    cases known : vault.positions.get? vault.state.nextPosition with
    | none => rfl
    | some position => exact absurd (numbered _ _ known) (Int.lt_irrefl _)
  simp only [createPosition, toInt_int, ok_bind, hasPosition, key_int, pure_eq_ok, unused,
    Bool.not_false, ensure_of, putPosition, ofInt_int]
  refine ⟨_, _, rfl, governed.congr rfl rfl rfl rfl, .refl _, fun _ => ?_⟩
  intro id found here
  dsimp only at here ⊢
  rw [Table.get?_insert] at here
  split at here
  · rename_i same
    change vault.state.nextPosition = id at same
    omega
  · have bound := numbered id found here
    omega

theorem Governed.locate_yields (governed : vault.Governed) (numbered : vault.Numbered)
    (request : OperateRequest) :
    Yields (vault.locate request) fun done => vault.Upholds done.2 0 := by
  unfold locate
  split
  · rename_i id _
    simp only [Vault.position, key_int, ofInt_int, ok_bind]
    split
    · exact governed.refl
    · exact yields_refuse (.request rfl (by decide))
  · apply (yields_ensure fun _ => .request rfl (by decide)).bind
    exact fun _ _ _ => yields_of_ok (by simpa using governed.create numbered request.signer)

/-- An operation is refused for a fault of the request or the policy, or for an amount that is too
large, and not for anything that the ledger checks on the way. -/
theorem Governed.operate_yields {host : Host} (request : OperateRequest) (orderly : vault.Orderly)
    (governed : vault.Governed) (numbered : vault.Numbered)
    (supply : 0 < host.liquidity.prices.supply) (borrow : 0 < host.liquidity.prices.borrow) :
    Yields (vault.operate host request) fun settlement => vault.Upholds settlement.vault 0 := by
  apply request.check_yields.bind
  intro _ _ _
  apply (governed.locate_yields numbered request).bind
  rintro ⟨position, located⟩ found upholds
  obtain ⟨located_orderly, known⟩ := orderly.locates (locate_locates orderly found)
  apply (request.authorize_yields position).bind
  intro _ _ _
  apply (upholds.governed.rebalance_yields located_orderly supply borrow known).bind
  intro outcome _ rebalanced
  apply (outcome.vault.checkSafety_yields outcome.position _ borrow).bind
  intro _ _ _
  apply (outcome.vault.checkBorrow_yields host _).bind
  intro _ _ _
  change vault.Upholds _ (0 + 0)
  apply upholds.trans
  exact rebalanced.keeps ⟨rfl, rfl, rfl, rfl, rfl⟩ rfl

end Vault

end TickVault
