import TickVault.Proofs.Waning

/-!
How what a position holds is rounded. Collateral goes down by less than a unit and debt up by less
than one, dust goes down with the collateral, and so the net debt, a difference of the two, is never
below the exact one and less than two units above it. A position that owes anything net of dust goes
on owing as long as its tick has any factor left.
-/

namespace TickVault

theorem floor_cast_le (a : Int) {b : Int} (positive : 0 < b) :
    ((a / b : Int) : ℚ) ≤ (a : ℚ) / b ∧ (a : ℚ) / b < ((a / b : Int) : ℚ) + 1 := by
  have positive' : (0 : ℚ) < b := by exact_mod_cast positive
  have below : a / b * b ≤ a := Int.ediv_mul_le a (Int.ne_of_gt positive)
  have above : a < (a / b + 1) * b := Int.lt_ediv_add_one_mul_self a positive
  constructor
  · rw [le_div_iff₀ positive']
    exact_mod_cast below
  · rw [div_lt_iff₀ positive']
    exact_mod_cast above

theorem le_ceil_cast (a : Int) {b : Int} (positive : 0 < b) :
    ((-(-a / b) : Int) : ℚ) - 1 < (a : ℚ) / b ∧ (a : ℚ) / b ≤ ((-(-a / b) : Int) : ℚ) := by
  obtain ⟨below, above⟩ := floor_cast_le (-a) positive
  rw [Int.cast_neg, neg_div] at below above
  rw [Int.cast_neg]
  constructor
  · linarith
  · linarith

namespace Position

def unrounded (position : Position Int) (amount factor : Int) : ℚ :=
  amount * factor / position.debtFactor

/-- What is realized at a factor is rounded against the position, and the net debt is less than two
units above the exact one. -/
structure Rounds (position : Position Int) (factor : Int) (held : Holdings Int) : Prop where
  collateral : (held.collateral : ℚ) ≤ position.unrounded position.collateral factor ∧
    position.unrounded position.collateral factor < held.collateral + 1
  debt : (held.debt : ℚ) - 1 < position.unrounded position.debt factor ∧
    position.unrounded position.debt factor ≤ held.debt
  dust : 0 ≤ held.dustDebt ∧ held.dustDebt ≤ held.debt
  net : position.unrounded (position.debt - position.dustDebt) factor ≤
      ((held.debt - held.dustDebt : Int) : ℚ) ∧
    ((held.debt - held.dustDebt : Int) : ℚ) <
      position.unrounded (position.debt - position.dustDebt) factor + 2
  owes : position.dustDebt < position.debt → 0 < factor → held.dustDebt < held.debt

variable {position : Position Int} {record : TickRecord Int} {factor : Int}

theorem unrounded_sub (position : Position Int) (debt dust factor : Int) :
    position.unrounded (debt - dust) factor =
      position.unrounded debt factor - position.unrounded dust factor := by
  simp only [unrounded, Int.cast_sub]
  ring

theorem unrounded_le {amount amount' : Int} (entry : 0 < position.debtFactor) (low : 0 ≤ factor)
    (less : amount ≤ amount') :
    position.unrounded amount factor ≤ position.unrounded amount' factor := by
  have entry' : (0 : ℚ) < position.debtFactor := by exact_mod_cast entry
  have low' : (0 : ℚ) ≤ factor := by exact_mod_cast low
  have less' : (amount : ℚ) ≤ amount' := by exact_mod_cast less
  unfold unrounded
  gcongr

theorem unrounded_pos {amount : Int} (entry : 0 < position.debtFactor) (positive : 0 < factor)
    (some_amount : 0 < amount) : 0 < position.unrounded amount factor := by
  have entry' : (0 : ℚ) < position.debtFactor := by exact_mod_cast entry
  have positive' : (0 : ℚ) < factor := by exact_mod_cast positive
  have amount' : (0 : ℚ) < amount := by exact_mod_cast some_amount
  unfold unrounded
  positivity

theorem unrounded_floor (entry : 0 < position.debtFactor) (amount factor : Int) :
    ((amount * factor / position.debtFactor : Int) : ℚ) ≤ position.unrounded amount factor ∧
      position.unrounded amount factor <
        ((amount * factor / position.debtFactor : Int) : ℚ) + 1 := by
  have bounds := floor_cast_le (amount * factor) entry
  rw [Int.cast_mul] at bounds
  exact bounds

theorem unrounded_ceil (entry : 0 < position.debtFactor) (amount factor : Int) :
    ((-(-(amount * factor) / position.debtFactor) : Int) : ℚ) - 1 <
        position.unrounded amount factor ∧
      position.unrounded amount factor ≤
        ((-(-(amount * factor) / position.debtFactor) : Int) : ℚ) := by
  have bounds := le_ceil_cast (amount * factor) entry
  rw [Int.cast_mul] at bounds
  exact bounds

/-- The cap on the dust never bites: dust that is part of the debt stays below it when the one is
rounded down and the other up. -/
theorem scaled_dustDebt (entry : 0 < position.debtFactor) (low : 0 ≤ factor)
    (covered : position.dustDebt ≤ position.debt) :
    (position.scaled factor).dustDebt = position.dustDebt * factor / position.debtFactor := by
  apply Int.min_eq_left
  have down := (unrounded_floor entry position.dustDebt factor).1
  have part : position.unrounded position.dustDebt factor ≤
      position.unrounded position.debt factor := unrounded_le entry low covered
  have up := (unrounded_ceil entry position.debt factor).2
  exact_mod_cast down.trans (part.trans up)

theorem scaled_rounds (entry : 0 < position.debtFactor) (low : 0 ≤ factor)
    (dust : 0 ≤ position.dustDebt) (covered : position.dustDebt ≤ position.debt) :
    position.Rounds factor (position.scaled factor) := by
  have capped := scaled_dustDebt entry low covered
  have debt := unrounded_ceil entry position.debt factor
  have dusts := unrounded_floor entry position.dustDebt factor
  have net : position.unrounded (position.debt - position.dustDebt) factor ≤
      (((position.scaled factor).debt - (position.scaled factor).dustDebt : Int) : ℚ) := by
    rw [capped, unrounded_sub, Int.cast_sub]
    exact sub_le_sub debt.2 dusts.1
  refine ⟨unrounded_floor entry position.collateral factor, debt, ⟨?_, ?_⟩, ⟨net, ?_⟩, ?_⟩
  · rw [capped]
    exact Int.ediv_nonneg (Int.mul_nonneg dust low) (Int.le_of_lt entry)
  · exact Int.min_le_right _ _
  · have above : ((position.scaled factor).debt : ℚ) <
        position.unrounded position.debt factor + 1 := sub_lt_iff_lt_add.mp debt.1
    have below := dusts.2
    rw [capped, unrounded_sub, Int.cast_sub]
    linarith
  · intro owing positive
    have owed := unrounded_pos entry positive (Int.sub_pos_of_lt owing)
    have left : (0 : ℚ) < (((position.scaled factor).debt -
        (position.scaled factor).dustDebt : Int) : ℚ) := owed.trans_le net
    exact Int.lt_of_sub_pos (by exact_mod_cast left)

theorem shareOf_eq_scaled (entry : 0 < position.debtFactor)
    (covered : position.dustDebt ≤ position.debt)
    (alive : ¬ (0 < position.tickSlot ∧ position.tickSlot ≤ record.liquidatedSlot)) :
    position.shareOf record = position.scaled record.debtFactor := by
  by_cases same : record.debtFactor = position.debtFactor
  · have kept := shareOf_entry same alive
    obtain ⟨collateral, debt⟩ := shareOf_scaled entry alive
    have dust : (position.scaled record.debtFactor).dustDebt = position.dustDebt := by
      rw [same, scaled_dustDebt entry (Int.le_of_lt entry) covered]
      exact Int.mul_ediv_cancel _ (Int.ne_of_gt entry)
    rw [kept] at collateral debt
    calc position.shareOf record
        = ⟨position.collateral, position.debt, position.dustDebt⟩ := kept
      _ = ⟨(position.scaled record.debtFactor).collateral,
          (position.scaled record.debtFactor).debt,
          (position.scaled record.debtFactor).dustDebt⟩ := by
        simp only [← collateral, ← debt, dust]
  · rw [shareOf, if_neg alive, if_neg same]

/-- A position on a tick whose slot was not wiped there realizes amounts that are rounded against
it: collateral down, debt up, and the net debt by less than two units. At a higher factor of its
tick it holds no less collateral and owes no less. -/
theorem realize_rounds (here : position.tick.isSome) (entry : 0 < position.debtFactor)
    (collateral : 0 ≤ position.collateral) (dust : 0 ≤ position.dustDebt)
    (covered : position.dustDebt ≤ position.debt)
    (alive : record.slotLiquidated position.tickSlot = .ok false)
    (low : 0 ≤ record.debtFactor) (high : record.debtFactor ≤ position.debtFactor) :
    ∃ held, position.realize (some record) = .ok held ∧
      position.Rounds record.debtFactor held ∧
      ∀ record' : TickRecord Int, record'.slotLiquidated position.tickSlot = .ok false →
        record.debtFactor ≤ record'.debtFactor → record'.debtFactor ≤ position.debtFactor →
        ∃ held', position.realize (some record') = .ok held' ∧
          held.collateral ≤ held'.collateral ∧ held.debt ≤ held'.debt := by
  obtain ⟨tick, there⟩ := Option.isSome_iff_exists.mp here
  have realized (record : TickRecord Int)
      (alive : record.slotLiquidated position.tickSlot = .ok false) (low : 0 ≤ record.debtFactor)
      (high : record.debtFactor ≤ position.debtFactor) :
      position.realize (some record) = .ok (position.scaled record.debtFactor) := by
    simp only [TickRecord.slotLiquidated_int, Except.ok.injEq, decide_eq_false_iff_not] at alive
    rw [realize_int position record there fun _ => ⟨low, high⟩,
      shareOf_eq_scaled entry covered alive]
  have funded : position.Funded := ⟨collateral, Int.le_trans dust covered, dust⟩
  refine ⟨_, realized record alive low high, scaled_rounds entry low dust covered, ?_⟩
  intro record' alive' more high'
  have within := funded.scaled_within entry more
  exact ⟨_, realized record' alive' (Int.le_trans low more) high', within.collateral, within.debt⟩

def thirds : Position Int where
  id := 1
  owner := .text "a"
  collateral := 10
  debt := 7
  dustDebt := 2
  tick := some 0
  tickSlot := 1
  branch := 1
  debtFactor := 3

theorem thirds_rounds :
    thirds.realize (some { TickRecord.fresh 0 with debtFactor := 2 }) = .ok ⟨6, 5, 1⟩ ∧
      thirds.Rounds 2 ⟨6, 5, 1⟩ ∧
      thirds.realize (some { TickRecord.fresh 0 with debtFactor := 3 }) = .ok ⟨10, 7, 2⟩ := by
  obtain ⟨held, realized, rounds, -⟩ := @realize_rounds thirds
    { TickRecord.fresh 0 with debtFactor := 2 } rfl (by decide) (by decide) (by decide) (by decide)
    rfl (by decide) (by decide)
  have amounts : thirds.realize (some { TickRecord.fresh 0 with debtFactor := 2 }) =
      .ok ⟨6, 5, 1⟩ := rfl
  cases realized.symm.trans amounts
  exact ⟨amounts, rounds, rfl⟩

end Position

end TickVault
