import TickVault.Proofs.Stakes

namespace TickVault

namespace Position

def realizedPart (part : Holdings Int → Int) (ledger : Ledger Int) (position : Position Int) :
    Int :=
  part (position.share ledger)

/-- A position on a tick has the least debt net of dust, and collateral for it. -/
structure Sized (position : Position Int) : Prop where
  dust : position.tick.isSome → 0 ≤ position.dustDebt
  debt : position.tick.isSome → minDebt ≤ position.debt - position.dustDebt
  backed : position.tick.isSome → 0 < position.collateral

variable {part : Holdings Int → Int} {position : Position Int} {ledger ledger' : Ledger Int}
  {record : TickRecord Int}

theorem realizedPart_terms (same : ledger.Extends ledger') :
    realizedPart part ledger' = realizedPart part ledger := by
  funext position
  unfold realizedPart
  rw [share_extends same]

theorem share_untied (free : position.tick = none) (ledger : Ledger Int) :
    position.share ledger = ⟨position.collateral, 0, 0⟩ := by
  unfold share
  rw [free]

theorem realizedPart_eq (nothing : part ⟨0, 0, 0⟩ = 0) (sound : ledger.Sound)
    (known : ∀ tick, position.tick = some tick → (ledger.ticks.get? tick).isSome) :
    realizedPart part ledger position =
      (if position.tick = none then part ⟨position.collateral, 0, 0⟩ else 0) +
        ledger.ticks.total fun record => stake part ledger record.tick position := by
  unfold realizedPart
  cases here : position.tick with
  | none =>
    rw [share_untied here, if_pos rfl, Table.total_eq_zero, Int.add_zero]
    exact fun record _ => stake_untied here ledger record.tick
  | some tick =>
    obtain ⟨record, found⟩ := Option.isSome_iff_exists.mp (known tick here)
    have named := (sound.keyed tick record found).1
    rw [Table.total_of_single sound.distinct found, named, if_neg (Option.some_ne_none tick),
      Int.zero_add]
    · by_cases occupies : position.Occupies ledger tick
      · exact (if_pos occupies).symm
      · have wiped := not_not.mp (not_and.mp occupies here)
        simp only [share, here, shareOf_wiped wiped, nothing]
        exact (if_neg occupies).symm
    · intro other neighbour different there
      refine if_neg fun occupies => different ?_
      rw [(sound.keyed other neighbour there).1] at occupies
      exact Option.some.inj (occupies.1.symm.trans here)

theorem Sized.debt_pos (sized : position.Sized) (here : position.tick.isSome) :
    0 < position.debt := by
  have dust := sized.dust here
  have least := sized.debt here
  simp only [minDebt] at least
  omega

theorem sized_untied (free : position.tick = none) : position.Sized := by
  constructor <;> intro somewhere <;> rw [free] at somewhere <;> cases somewhere

theorem scaled_debt_nonneg {factor : Int} (debt : 0 ≤ position.debt) (low : 0 ≤ factor)
    (entry : 0 < position.debtFactor) : 0 ≤ (position.scaled factor).debt := by
  have below : -(position.debt * factor) / position.debtFactor ≤ 0 :=
    Int.ediv_nonpos_of_nonpos_of_neg (Int.neg_nonpos_of_nonneg (Int.mul_nonneg debt low)) entry
  simp only [scaled]
  omega

theorem Sized.shareOf_nonneg (sized : position.Sized) (here : position.tick.isSome)
    (factor : ¬ (0 < position.tickSlot ∧ position.tickSlot ≤ record.liquidatedSlot) →
      0 ≤ record.debtFactor ∧ record.debtFactor ≤ position.debtFactor) :
    0 ≤ (position.shareOf record).debt ∧ 0 ≤ (position.shareOf record).dustDebt := by
  have dust := sized.dust here
  have debt := Int.le_of_lt (sized.debt_pos here)
  unfold shareOf
  split
  · exact ⟨Int.le_refl 0, Int.le_refl 0⟩
  rename_i alive
  split
  · exact ⟨debt, dust⟩
  rename_i other
  obtain ⟨low, high⟩ := factor alive
  have entry : 0 < position.debtFactor := Int.lt_of_le_of_lt low (lt_of_le_of_ne high other)
  have owed := scaled_debt_nonneg debt low entry
  refine ⟨owed, le_min ?_ owed⟩
  exact Int.ediv_nonneg (Int.mul_nonneg dust low) (Int.le_of_lt entry)

end Position

namespace Vault

def realized (vault : Vault Int) (part : Holdings Int → Int) : Int :=
  vault.positions.total (Position.realizedPart part vault.ledger)

def Sized (vault : Vault Int) : Prop :=
  ∀ id position, vault.positions.get? id = some position → position.Sized

variable {vault after departed : Vault Int} {part : Holdings Int → Int} {position : Position Int}
  {prices : ExchangePrices} {request : OperateRequest} {departure : Departure Int}
  {amount netDebt debt : Int} {outcome : Rebalance Int}

theorem realized_congr (ledger : after.ledger = vault.ledger)
    (positions : after.positions = vault.positions) :
    after.realized part = vault.realized part := by
  unfold realized
  rw [ledger, positions]

/-- What all positions hold now is what they have off the ticks and the stakes on all ticks. -/
theorem realized_eq (nothing : part ⟨0, 0, 0⟩ = 0) (sound : vault.ledger.Sound)
    (peopled : vault.Peopled) :
    vault.realized part =
      (vault.positions.total fun position =>
        if position.tick = none then part ⟨position.collateral, 0, 0⟩ else 0) +
      vault.ledger.ticks.total fun record => vault.staked part record.tick := by
  unfold realized staked
  rw [Table.total_comm, ← Table.total_add]
  apply Table.total_congr
  intro position member
  obtain ⟨id, known⟩ := (Table.mem_values_iff peopled.distinct).mp member
  exact Position.realizedPart_eq nothing sound (peopled.seated id position known).known

theorem realized_putAt (terms : vault.ledger.Extends after.ledger)
    (positions : after.positions = vault.positions) (position : Position Int) :
    (after.putAt position).realized part = vault.realized part -
      ((vault.positions.get? position.id).map (Position.realizedPart part vault.ledger)).getD 0 +
        part (position.share after.ledger) :=
  total_putAt (Position.realizedPart part) (Position.realizedPart_terms terms) positions position

theorem Opens.realized (opens : vault.Opens position after) :
    after.realized part = vault.realized part + part ⟨0, 0, 0⟩ := by
  obtain ⟨state, rfl, -⟩ := opens.after
  have terms : vault.ledger.Extends ({ vault with state } : Vault Int).ledger := .refl _
  rw [realized_putAt terms rfl, opens.unknown, Position.share_untied opens.free, opens.empty]
  change _ - 0 + _ = _
  rw [Int.sub_zero]

theorem Leaves.realized (known : vault.positions.get? position.id = some position)
    (leaves : vault.Leaves position departure departed) (amount : Int) :
    (departed.putAt (unseat position amount)).realized part =
      vault.realized part - part (position.share vault.ledger) + part ⟨amount, 0, 0⟩ := by
  rw [realized_putAt leaves.terms leaves.positions, unseat_id, known,
    Position.share_untied (unseat_tick ..)]
  rfl

theorem Joins.share {tick debt collateral branch dust amount : Int} {kept : Bool}
    (joins : vault.Joins tick debt collateral branch kept after)
    (slots : (vault.ledger.tickAt tick).liquidatedSlot ≤ (vault.ledger.tickAt tick).totalIds)
    (returns : kept = true → vault.Owns position tick) :
    (seat vault.ledger position kept tick debt branch dust amount).share after.ledger =
      ⟨amount, debt, dust⟩ := by
  have occupies : (seat vault.ledger position kept tick debt branch dust amount).Occupies
      after.ledger tick := joins.occupies slots returns
  simp only [Position.share, occupies.1]
  rw [Position.shareOf_entry (joins.terms.factor tick) occupies.2]
  rfl

theorem Joins.realized {old : Position Int} {tick debt collateral branch dust amount : Int}
    {kept : Bool} (known : vault.positions.get? position.id = some old) (free : old.tick = none)
    (joins : vault.Joins tick debt collateral branch kept after)
    (slots : (vault.ledger.tickAt tick).liquidatedSlot ≤ (vault.ledger.tickAt tick).totalIds)
    (returns : kept = true → vault.Owns position tick) :
    (after.putAt (seat vault.ledger position kept tick debt branch dust amount)).realized part =
      vault.realized part - part ⟨old.collateral, 0, 0⟩ + part ⟨amount, debt, dust⟩ := by
  rw [realized_putAt joins.terms joins.positions, joins.share slots returns]
  change _ - ((vault.positions.get? position.id).map _).getD 0 + _ = _
  rw [known, Option.map_some, Option.getD_some, Position.realizedPart, Position.share_untied free]

theorem Books.realized (peopled : vault.Peopled)
    (known : vault.positions.get? position.id = some position)
    (books : vault.Books prices position request departure departed amount netDebt debt outcome) :
    outcome.vault.realized part = vault.realized part - part (position.share vault.ledger) +
      part ⟨amount, debt, debt - netDebt⟩ := by
  cases books.lands with
  | off free ledger positions =>
    rw [realized_congr (by exact ledger) positions, books.leaves.realized known, free]
    rfl
  | @on joined _ tick _ branch kept _ _ _ joins returns ledger positions =>
    have slots := peopled.slots_le books.leaves.terms tick
    have same : outcome.vault.realized part = (joined.putAt
        (seat (departed.putAt (unseat position amount)).ledger position kept tick debt branch
          (debt - netDebt) amount)).realized part := realized_congr ledger positions
    rw [same, joins.realized (get?_unseat ..) (unseat_tick ..) slots returns,
      books.leaves.realized known]
    change _ + part ⟨amount, 0, 0⟩ - part ⟨amount, 0, 0⟩ + _ = _
    rw [Int.add_sub_cancel]

theorem Peopled.owed_nonneg {id : Int} (peopled : vault.Peopled) (sized : position.Sized)
    (known : vault.positions.get? id = some position) :
    0 ≤ (position.share vault.ledger).debt := by
  have settled := peopled.settled known
  unfold Position.share
  split
  · rename_i tick here
    exact (sized.shareOf_nonneg (by rw [here]; rfl) fun alive =>
      settled.factor tick ⟨here, alive⟩).1
  · exact Int.le_refl 0

theorem Sized.putAt (sized : vault.Sized) (positions : after.positions = vault.positions)
    (fits : position.Sized) : (after.putAt position).Sized :=
  forall_putAt sized positions fits

theorem Sized.congr (sized : vault.Sized) (positions : after.positions = vault.positions) :
    after.Sized := by
  intro id found known
  rw [positions] at known
  exact sized id found known

theorem Opens.sized (opens : vault.Opens position after) (sized : vault.Sized) : after.Sized := by
  obtain ⟨state, rfl, -⟩ := opens.after
  exact sized.putAt rfl (Position.sized_untied opens.free)

theorem Locates.sized (locates : vault.Locates position after) (sized : vault.Sized) :
    after.Sized := by
  cases locates with
  | found _ => exact sized
  | opened opens => exact opens.sized sized

theorem Books.sized (sized : vault.Sized)
    (books : vault.Books prices position request departure departed amount netDebt debt outcome) :
    outcome.vault.Sized := by
  have funded := books.funded
  have vacant : (departed.putAt (unseat position amount)).Sized :=
    sized.putAt books.leaves.positions (Position.sized_untied (unseat_tick ..))
  cases books.lands with
  | off free ledger positions => exact vacant.congr positions
  | on enough raised backed joins returns ledger positions =>
    refine (vacant.putAt joins.positions ?_).congr positions
    constructor <;> intro _ <;> simp only [seat]
    · omega
    · omega
    · omega

end Vault

end TickVault
