import TickVault.Proofs.Deals
import TickVault.Proofs.Waning

namespace TickVault

namespace Position

variable {position : Position Int} {ledger ledger' : Ledger Int}

/-- A position that still holds what it was put down with: on its tick it is not wiped, and the
tick's factor is the one of its entry. -/
structure Intact (position : Position Int) (ledger : Ledger Int) : Prop where
  unburdened : position.Unburdened
  occupies : ∀ t, position.tick = some t → position.Occupies ledger t
  factor : ∀ t, position.tick = some t → (ledger.tickAt t).debtFactor = position.debtFactor

theorem Intact.share (intact : position.Intact ledger) :
    position.share ledger = position.stored := by
  unfold Position.share
  split
  · rename_i tick here
    exact shareOf_entry (intact.factor tick here) (intact.occupies tick here).2
  · rename_i free
    obtain ⟨debt, dust⟩ := intact.unburdened free
    rw [stored, debt, dust]

theorem Intact.keep (intact : position.Intact ledger)
    (same : ∀ t, position.tick = some t →
      (ledger'.tickAt t).debtFactor = (ledger.tickAt t).debtFactor ∧
        (ledger'.tickAt t).liquidatedSlot = (ledger.tickAt t).liquidatedSlot) :
    position.Intact ledger' where
  unburdened := intact.unburdened
  occupies t here := (occupies_congr (same t here).2).mpr (intact.occupies t here)
  factor t here := (same t here).1.trans (intact.factor t here)

theorem intact_untied (free : position.tick = none) (debt : position.debt = 0)
    (dust : position.dustDebt = 0) (ledger : Ledger Int) : position.Intact ledger where
  unburdened _ := ⟨debt, dust⟩
  occupies t here := by rw [free] at here; cases here
  factor t here := by rw [free] at here; cases here

theorem Sized.share_dust_le (sized : position.Sized) (ledger : Ledger Int) :
    (position.share ledger).dustDebt ≤ (position.share ledger).debt := by
  unfold Position.share
  split
  · rename_i tick here
    have least := sized.debt (by rw [here]; rfl)
    simp only [minDebt] at least
    unfold shareOf
    split
    · exact Int.le_refl 0
    split
    · dsimp only
      omega
    · exact Int.min_le_right _ _
  · exact Int.le_refl 0

end Position

def Holdings.Improves (before after : Holdings Int) : Prop :=
  before.collateral ≤ after.collateral ∧
    after.debt - after.dustDebt ≤ before.debt - before.dustDebt

theorem le_applyCollateral {held change price amount moved : Int} (positive : 0 < price)
    (deposit : 0 ≤ change) (applied : applyCollateral held change price = .ok (amount, moved)) :
    held ≤ amount := by
  have not_whole : change ≠ wholeAmount := by
    simp only [wholeAmount]
    omega
  have not_less : ¬ change < 0 := Int.not_lt.mpr deposit
  unfold applyCollateral at applied
  rw [if_neg not_whole, if_neg not_less] at applied
  split at applied
  · simp only [toRawDown, floorDiv_of_pos positive, ok_bind, toInt_int, bind_eq_ok, pure_eq_ok,
      Except.ok.injEq, Prod.mk.injEq, ofInt_int] at applied
    obtain ⟨_, -, rfl, -⟩ := applied
    have added : 0 ≤ change * priceScale / price :=
      Int.ediv_nonneg (Int.mul_nonneg deposit (by decide)) (Int.le_of_lt positive)
    omega
  · cases applied
    exact Int.le_refl _

theorem applyDebt_le {owed change price fee netDebt moved : Int} (owing : 0 ≤ owed)
    (payback : change ≤ 0) (applied : applyDebt owed change price fee = .ok (netDebt, moved)) :
    netDebt ≤ owed := by
  have not_more : ¬ change > 0 := Int.not_lt.mpr payback
  unfold applyDebt at applied
  rw [if_neg not_more] at applied
  split at applied
  · cases applied
    exact owing
  split at applied
  · simp only [bind_eq_ok, pure_eq_ok, Except.ok.injEq, Prod.mk.injEq] at applied
    obtain ⟨paid, -, _, -, rfl, -⟩ := applied
    have some_paid := Int.le_max_right (paid - 1) 0
    omega
  · cases applied
    exact Int.le_refl _

namespace Vault

/-- At most one position was put down anew, and all ticks stand on the same terms as before. -/
structure Confined (vault : Vault Int) (id : Int) (after : Vault Int) : Prop where
  terms : vault.ledger.Extends after.ledger
  others : ∀ other, other ≠ id → after.positions.get? other = vault.positions.get? other

variable {vault middle after departed located : Vault Int} {position position' : Position Int}
  {id amount netDebt debt : Int} {host : Host} {prices : ExchangePrices}
  {request : OperateRequest} {departure : Departure Int} {outcome : Rebalance Int}
  {settlement : Settlement Int (PositionSnapshot Int)}

theorem Confined.trans (first : vault.Confined id middle) (second : middle.Confined id after) :
    vault.Confined id after where
  terms := first.terms.trans second.terms
  others other different := (second.others other different).trans (first.others other different)

theorem confined_putAt (terms : vault.ledger.Extends after.ledger)
    (positions : after.positions = vault.positions) (position : Position Int) :
    vault.Confined position.id (after.putAt position) where
  terms := terms
  others other different := by rw [get?_putAt, if_neg (Ne.symm different), positions]

theorem Confined.congr (confined : vault.Confined id middle) (ledger : after.ledger = middle.ledger)
    (positions : after.positions = middle.positions) : vault.Confined id after where
  terms := ledger ▸ confined.terms
  others other different := positions ▸ confined.others other different

theorem Opens.confined (opens : vault.Opens position after) : vault.Confined position.id after := by
  obtain ⟨state, rfl, -⟩ := opens.after
  have terms : vault.ledger.Extends ({ vault with state } : Vault Int).ledger := .refl _
  exact confined_putAt terms rfl position

theorem Locates.confined (locates : vault.Locates position after) :
    vault.Confined position.id after := by
  cases locates with
  | found _ => exact ⟨.refl _, fun _ _ => rfl⟩
  | opened opens => exact opens.confined

theorem Books.confined
    (books : vault.Books prices position request departure departed amount netDebt debt outcome) :
    vault.Confined position.id outcome.vault := by
  have left : vault.Confined position.id (departed.putAt (unseat position amount)) :=
    confined_putAt books.leaves.terms books.leaves.positions (unseat position amount)
  cases books.lands with
  | off _ ledger positions => exact left.congr (by rw [ledger]; rfl) positions
  | @on joined _ tick _ branch kept _ _ _ joins _ ledger positions =>
    have seated := confined_putAt joins.terms joins.positions
      (seat departed.ledger position kept tick debt branch (debt - netDebt) amount)
    exact (left.trans seated).congr ledger positions

theorem Books.seats (peopled : vault.Peopled)
    (books : vault.Books prices position request departure departed amount netDebt debt outcome)
    (stored : outcome.vault.positions.get? position.id = some position') :
    position'.Intact outcome.vault.ledger ∧ position'.collateral = amount ∧
      position'.debt - position'.dustDebt = netDebt := by
  cases books.lands with
  | off free ledger positions =>
    rw [positions, get?_unseat] at stored
    cases stored
    exact ⟨Position.intact_untied rfl rfl rfl _, rfl, free.symm⟩
  | @on joined _ tick _ branch kept _ _ _ joins returns ledger positions =>
    have slots := peopled.slots_le books.leaves.terms tick
    rw [positions, get?_putAt] at stored
    change (if position.id = position.id then _ else _) = _ at stored
    rw [if_pos rfl] at stored
    cases stored
    refine ⟨⟨fun free => ?_, fun t here => ?_, fun t here => ?_⟩, rfl, Int.sub_sub_self ..⟩
    · cases free
    · cases here
      rw [ledger]
      exact joins.occupies slots returns
    · cases here
      rw [ledger]
      exact joins.terms.factor tick

theorem Rebalances.stored (rebalances : vault.Rebalances prices position request outcome) :
    outcome.position.id = position.id ∧ outcome.position.owner = position.owner ∧
      outcome.vault.positions.get? position.id = some outcome.position := by
  obtain ⟨_, _, _, _, _, position', _, -, -, -, placing, same, -, after⟩ := rebalances.parts
  have kept : position'.id = position.id ∧ position'.owner = position.owner := by
    rcases placing with ⟨-, rfl, -⟩ | ⟨-, entered⟩
    · exact ⟨rfl, rfl⟩
    · obtain ⟨_, _, _, _, _, _, _, -, -, -, rfl, -⟩ := entered.placed
      exact ⟨rfl, rfl⟩
  rw [same, after, Table.get?_insert, if_pos kept.1]
  exact ⟨kept.1, kept.2, rfl⟩

theorem Operates.settles (orderly : vault.Orderly) (positive : 0 < host.liquidity.prices.supply)
    (operates : vault.Operates host request position located outcome settlement) :
    settlement.receipt.position = position.id ∧
      settlement.vault.positions.get? position.id = some outcome.position ∧
      outcome.position.Intact settlement.vault.ledger ∧
      vault.Confined position.id settlement.vault := by
  obtain ⟨located_orderly, known⟩ := orderly.locates operates.locates
  obtain ⟨named, -, stored⟩ := operates.rebalances.stored
  obtain ⟨_, _, _, _, _, books⟩ := operates.rebalances.books located_orderly.toCoherent
    located_orderly.peopled positive known
  obtain ⟨events, after⟩ := operates.vault
  rw [operates.receipt, after]
  exact ⟨named, stored, (books.seats located_orderly.peopled stored).1,
    (operates.locates.confined.trans books.confined).congr rfl rfl⟩

/-- Whoever does not own a position can only improve it. -/
theorem Operates.improves (orderly : vault.Orderly) (sized : vault.Sized)
    (positive : 0 < host.liquidity.prices.supply)
    (operates : vault.Operates host request position located outcome settlement)
    (known : vault.positions.get? position.id = some position)
    (stranger : position.owner ≠ .text request.signer) :
    (position.share vault.ledger).Improves (outcome.position.share settlement.vault.ledger) := by
  obtain ⟨-, stored, intact, -⟩ := operates.settles orderly positive
  obtain ⟨deposit, payback⟩ := operates.authorized.resolve_left stranger
  obtain ⟨events, after⟩ := operates.vault
  cases operates.locates with
  | opened opens => cases opens.unknown.symm.trans known
  | found _ =>
    obtain ⟨_, _, amount, netDebt, _, books⟩ := operates.rebalances.books orderly.toCoherent
      orderly.peopled positive known
    rw [after] at stored
    obtain ⟨-, collateral, debt⟩ := books.seats orderly.peopled stored
    have dust := (sized _ _ known).share_dust_le vault.ledger
    rw [intact.share]
    constructor
    · calc (position.share vault.ledger).collateral ≤ amount :=
          le_applyCollateral positive deposit books.supplied
        _ = outcome.position.collateral := collateral.symm
    · calc outcome.position.debt - outcome.position.dustDebt = netDebt := debt
        _ ≤ _ := applyDebt_le (Int.sub_nonneg_of_le dust) payback books.borrowed

end Vault

namespace Engine

variable {engine start : Engine Int} {request : OperateRequest} {snapshot : PositionSnapshot Int}

/-- In every state of a run an operation touches only its own position, the one that it names or a
new one: all others keep their records and hold what they held. Somebody who does not own the
position leaves it with no less collateral and no more net debt than it had. -/
theorem run_operate_confined (new : start.New) (calls : List Call)
    (answered : ((start.run calls).perform (.operate request)).reply = .ok (.operated snapshot)) :
    let before := (start.run calls).vault
    let after := ((start.run calls).perform (.operate request)).engine.vault
    (∀ id, request.position = some id → snapshot.position = id) ∧
      (request.position = none → before.positions.get? snapshot.position = none) ∧
      (∀ id, id ≠ snapshot.position → after.positions.get? id = before.positions.get? id) ∧
      (∀ id position, id ≠ snapshot.position → before.positions.get? id = some position →
        ∃ held, before.holdings position = .ok held ∧ after.holdings position = .ok held) ∧
      ∀ position, before.positions.get? snapshot.position = some position →
        position.owner ≠ .text request.signer →
        ∃ position' held held', after.positions.get? snapshot.position = some position' ∧
          before.holdings position = .ok held ∧ after.holdings position' = .ok held' ∧
          held.Improves held' := by
  intro before after
  have standing := new.standing.run calls
  have after_orderly : after.Orderly := (standing.perform (.operate request)).vault
  obtain ⟨settlement, done, told, same, -⟩ := conclude_answered answered
  cases told
  obtain ⟨position, located, outcome, operates⟩ := Vault.operate_ok standing.vault done
  obtain ⟨named, stored, intact, confined⟩ := operates.settles standing.vault standing.supply
  rw [← same] at stored confined
  rw [named]
  refine ⟨operates.addressed, fun unnamed => (operates.opens unnamed).unknown, confined.others,
    ?_, ?_⟩
  · intro id other different known
    have known' := (confined.others id different).trans known
    refine ⟨_, Vault.holdings_eq (standing.vault.peopled.settled known), ?_⟩
    rw [← Position.share_extends confined.terms]
    exact Vault.holdings_eq (after_orderly.peopled.settled known')
  · intro found known stranger
    cases operates.locates with
    | opened opens => cases opens.unknown.symm.trans known
    | found known' =>
      cases known'.symm.trans known
      have improves := operates.improves standing.vault standing.sized standing.supply known stranger
      rw [← same] at improves
      exact ⟨_, _, _, stored, Vault.holdings_eq (standing.vault.peopled.settled known),
        Vault.holdings_eq (after_orderly.peopled.settled stored), improves⟩

def plight : List Call :=
  [borrower "a", borrower "b", .setOracle 500000000000000,
    .liquidate { debt := 500000000000000000 } .unlimited, .setOracle 1000000000000000]

def rescue : OperateRequest where
  position := some 1
  collateral := 1000000000000000000
  debt := -200000000000000000
  signer := "c"

theorem rescue_confined :
    standard.New ∧ ∃ snapshot,
      ((standard.run plight).perform (.operate rescue)).reply = .ok (.operated snapshot) ∧
      (∃ position held, (standard.run plight).vault.positions.get? 2 = some position ∧
        (standard.run plight).vault.holdings position = .ok held ∧
        ((standard.run plight).perform (.operate rescue)).engine.vault.holdings position =
          .ok held) ∧
      ∃ (position position' : Position Int) (held held' : Holdings Int),
        (standard.run plight).vault.positions.get? 1 = some position ∧
        (standard.run plight).vault.holdings position = .ok held ∧
        ((standard.run plight).perform (.operate rescue)).engine.vault.positions.get? 1 =
          some position' ∧
        ((standard.run plight).perform (.operate rescue)).engine.vault.holdings position' =
          .ok held' ∧
        held.Improves held' := by
  have owned : ((standard.run plight).vault.positions.get? 1).map Position.owner =
      some (.text "a") := by decide +kernel
  have neighbour : ((standard.run plight).vault.positions.get? 2).isSome := by decide +kernel
  have answered : ((standard.run plight).perform (.operate rescue)).reply = .ok (.operated {
      position := 1, owner := .text "a", tick := some (-1010), tickSlot := 1
      collateralRaw := 2500333094695412519, debtRaw := 550166547347706261
      collateral := 2500333094695412519, debt := 550166547347706261
      collateralTransfer := 1000000000000000000, debtTransfer := -200000000000000000 }) := by
    decide +kernel
  obtain ⟨position, known, owner⟩ := Option.map_eq_some_iff.mp owned
  obtain ⟨other, there⟩ := Option.isSome_iff_exists.mp neighbour
  have stranger : position.owner ≠ .text rescue.signer := by
    rw [owner]
    decide
  obtain ⟨-, -, -, others, strangers⟩ := run_operate_confined standard_new plight answered
  obtain ⟨kept, now, later⟩ := others 2 other (by decide) there
  obtain ⟨position', held, held', known', now', later', improves⟩ :=
    strangers position known stranger
  exact ⟨standard_new, _, answered, ⟨other, kept, there, now, later⟩, position, position', held,
    held', known, now', known', later', improves⟩

end Engine

end TickVault
