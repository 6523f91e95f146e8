import TickVault.Proofs.Takings

/-!
Purchases from the absorbed pool, one after the other. Each is paid at the pool's collateral per
debt, rounded down, so what it leaves is backed no worse than before; later buyers are paid a little
more for it. All of them together are still paid no more than one buyer of the same debt, and
whoever takes the last of the debt takes the last of the collateral.
-/

namespace TickVault

namespace VaultState

def sellEach (state : VaultState Int) : List Int → Except Fault (Int × Int × VaultState Int)
  | [] => .ok (0, 0, state)
  | requested :: rest => do
    let (debt, collateral, state) ← state.sellAbsorbed requested
    let (more, paid, state) ← state.sellEach rest
    return (debt + more, collateral + paid, state)

def drawn (state : VaultState Int) (debt collateral : Int) : VaultState Int :=
  { state with
    absorbedDebt := state.absorbedDebt - debt
    absorbedCollateral := state.absorbedCollateral - collateral }

/-- What purchases may take from a pool. The rest of it is backed no worse per debt, in products so
that it may be empty. -/
structure Sells (state : VaultState Int) (debt paid : Int) : Prop where
  nonneg : 0 ≤ debt
  debt_le : debt ≤ state.absorbedDebt
  paid_nonneg : 0 ≤ paid
  paid_le : paid ≤ state.absorbedCollateral
  backed : state.absorbedCollateral * (state.absorbedDebt - debt) ≤
    (state.absorbedCollateral - paid) * state.absorbedDebt
  whole : 0 < state.absorbedDebt → debt = state.absorbedDebt → paid = state.absorbedCollateral

variable {state : VaultState Int} {debt paid requested : Int}

theorem sells_nothing (pooled : 0 ≤ state.absorbedDebt) (funded : 0 ≤ state.absorbedCollateral) :
    state.Sells 0 0 where
  nonneg := Int.le_refl 0
  debt_le := pooled
  paid_nonneg := Int.le_refl 0
  paid_le := funded
  backed := by rw [Int.sub_zero, Int.sub_zero]
  whole positive none := absurd none (Int.ne_of_lt positive)

theorem sellAbsorbed_eq (pooled : 0 < state.absorbedDebt) :
    state.sellAbsorbed requested = .ok (min requested state.absorbedDebt,
      state.absorbedCollateral * min requested state.absorbedDebt / state.absorbedDebt,
      state.drawn (min requested state.absorbedDebt)
        (state.absorbedCollateral * min requested state.absorbedDebt / state.absorbedDebt)) := by
  simp only [sellAbsorbed, toInt_int, ok_bind, floorDiv_of_pos pooled, pure_eq_ok, ofInt_int]
  split
  · rename_i nothing
    simp [nothing, drawn]
  · rfl

theorem sells_floor (pooled : 0 < state.absorbedDebt) (funded : 0 ≤ state.absorbedCollateral)
    (nonneg : 0 ≤ debt) (debt_le : debt ≤ state.absorbedDebt) :
    state.Sells debt (state.absorbedCollateral * debt / state.absorbedDebt) := by
  have priced : state.absorbedCollateral * debt / state.absorbedDebt * state.absorbedDebt ≤
      state.absorbedCollateral * debt :=
    Int.ediv_mul_le _ (Int.ne_of_gt pooled)
  refine ⟨nonneg, debt_le, ?_, ?_, ?_, ?_⟩
  · exact Int.ediv_nonneg (Int.mul_nonneg funded nonneg) (Int.le_of_lt pooled)
  · apply Int.ediv_le_of_le_mul pooled
    exact Int.mul_le_mul_of_nonneg_left debt_le funded
  · rw [Int.mul_sub, Int.sub_mul]
    exact Int.sub_le_sub_left priced _
  · rintro - rfl
    exact Int.mul_ediv_cancel _ (Int.ne_of_gt pooled)

theorem sellAbsorbed_empty (positive : 0 < requested) (empty : state.absorbedDebt = 0) :
    state.sellAbsorbed requested = .ok (0, 0, state) := by
  have least : min requested state.absorbedDebt = 0 := by omega
  simp only [sellAbsorbed, toInt_int, ok_bind, if_pos least, pure_eq_ok]

theorem drawn_drawn (state : VaultState Int) (debt paid more later : Int) :
    (state.drawn debt paid).drawn more later = state.drawn (debt + more) (paid + later) := by
  simp only [drawn, Int.sub_sub]

/-- What is left after two sales is backed no worse than what there was before both. -/
theorem Sells.backed_trans {more later : Int} (first : state.Sells debt paid)
    (second : (state.drawn debt paid).Sells more later) :
    state.absorbedCollateral * (state.absorbedDebt - (debt + more)) ≤
      (state.absorbedCollateral - (paid + later)) * state.absorbedDebt := by
  obtain ⟨nonneg, debt_le, -, paid_le, backed, -⟩ := first
  obtain ⟨more_nonneg, more_le, -, later_le, backed', -⟩ := second
  simp only [drawn] at more_le later_le backed'
  rw [← Int.sub_sub, ← Int.sub_sub]
  generalize left : state.absorbedDebt - debt = middle at *
  generalize state.absorbedCollateral - paid = backing at *
  rcases Int.lt_or_eq_of_le (Int.le_trans more_nonneg more_le) with remains | gone
  · -- Both inequalities are scaled so that the middle pool cancels.
    apply Int.le_of_mul_le_mul_right _ remains
    calc state.absorbedCollateral * (middle - more) * middle
        = state.absorbedCollateral * middle * (middle - more) := by ring
      _ ≤ backing * state.absorbedDebt * (middle - more) :=
        Int.mul_le_mul_of_nonneg_right backed (by omega)
      _ = backing * (middle - more) * state.absorbedDebt := by ring
      _ ≤ (backing - later) * middle * state.absorbedDebt :=
        Int.mul_le_mul_of_nonneg_right backed' (by omega)
      _ = (backing - later) * state.absorbedDebt * middle := by ring
  · have nothing : middle - more = 0 := by omega
    rw [nothing, Int.mul_zero]
    exact Int.mul_nonneg (by omega) (by omega)

theorem Sells.trans {more later : Int} (first : state.Sells debt paid)
    (second : (state.drawn debt paid).Sells more later) :
    state.Sells (debt + more) (paid + later) := by
  have debt_le := first.debt_le
  have nonneg := Int.add_nonneg first.nonneg second.nonneg
  have paid_nonneg := Int.add_nonneg first.paid_nonneg second.paid_nonneg
  have more_le := second.debt_le
  have later_le := second.paid_le
  have more_nonneg := second.nonneg
  have later_nonneg := second.paid_nonneg
  have whole := second.whole
  simp only [drawn] at more_le later_le whole
  refine ⟨nonneg, by omega, paid_nonneg, by omega, first.backed_trans second, ?_⟩
  intro pooled all
  rcases Int.lt_or_eq_of_le debt_le with part | rest
  · have last := whole (by omega) (by omega)
    omega
  · have emptied := first.whole pooled rest
    omega

theorem sellEach_sells {requests : List Int} (positive : ∀ request ∈ requests, 0 < request)
    (pooled : 0 ≤ state.absorbedDebt) (funded : 0 ≤ state.absorbedCollateral) :
    ∃ debt paid, state.sellEach requests = .ok (debt, paid, state.drawn debt paid) ∧
      state.Sells debt paid := by
  induction requests generalizing state with
  | nil =>
    refine ⟨0, 0, ?_, sells_nothing pooled funded⟩
    simp only [sellEach, drawn, Int.sub_zero]
  | cons requested rest ih =>
    have asked := positive requested List.mem_cons_self
    have first : ∃ debt paid,
        state.sellAbsorbed requested = .ok (debt, paid, state.drawn debt paid) ∧
          state.Sells debt paid := by
      rcases Int.lt_or_eq_of_le pooled with some_debt | empty
      · exact ⟨_, _, sellAbsorbed_eq some_debt,
          sells_floor some_debt funded (by omega) (by omega)⟩
      · refine ⟨0, 0, ?_, sells_nothing pooled funded⟩
        simp only [sellAbsorbed_empty asked empty.symm, drawn, Int.sub_zero]
    obtain ⟨debt, paid, sold, sells⟩ := first
    have left : 0 ≤ (state.drawn debt paid).absorbedDebt := Int.sub_nonneg_of_le sells.debt_le
    have backing : 0 ≤ (state.drawn debt paid).absorbedCollateral :=
      Int.sub_nonneg_of_le sells.paid_le
    obtain ⟨more, later, sold', sells'⟩ :=
      ih (fun request member => positive request (List.mem_cons_of_mem _ member)) left backing
    refine ⟨debt + more, paid + later, ?_, sells.trans sells'⟩
    simp only [sellEach, sold, sold', ok_bind, pure_eq_ok, drawn_drawn]

/-- A purchase in parts is never paid more than one purchase of the same debt: whatever is asked for
one after the other, all of it is answered, no more debt is taken than there is, the collateral paid
in all is at most what a single buyer would get, the rest is backed no worse, and whoever takes all
of the debt takes all of the collateral. -/
theorem sellEach_le_single {requests : List Int} (positive : ∀ request ∈ requests, 0 < request)
    (pooled : 0 < state.absorbedDebt) (funded : 0 ≤ state.absorbedCollateral) :
    ∃ debt paid, state.sellEach requests = .ok (debt, paid, state.drawn debt paid) ∧
      0 ≤ debt ∧ debt ≤ state.absorbedDebt ∧
      paid ≤ state.absorbedCollateral * debt / state.absorbedDebt ∧
      state.sellAbsorbed debt =
        .ok (debt, state.absorbedCollateral * debt / state.absorbedDebt,
          state.drawn debt (state.absorbedCollateral * debt / state.absorbedDebt)) ∧
      ((state.drawn debt paid).absorbedDebt ≠ 0 →
        (state.absorbedCollateral : ℚ) / state.absorbedDebt ≤
          (state.drawn debt paid).absorbedCollateral / (state.drawn debt paid).absorbedDebt) ∧
      (debt = state.absorbedDebt → paid = state.absorbedCollateral) := by
  obtain ⟨debt, paid, sold, sells⟩ :=
    sellEach_sells positive (Int.le_of_lt pooled) funded
  have backed := sells.backed
  have single := @sellAbsorbed_eq state debt pooled
  rw [Int.min_eq_left sells.debt_le] at single
  refine ⟨debt, paid, sold, sells.nonneg, sells.debt_le, ?_, single, ?_, sells.whole pooled⟩
  · rw [Int.le_ediv_iff_mul_le pooled]
    rw [Int.mul_sub, Int.sub_mul] at backed
    omega
  · intro remains
    have left : 0 < state.absorbedDebt - debt :=
      lt_of_le_of_ne (Int.sub_nonneg_of_le sells.debt_le) (Ne.symm remains)
    rw [div_le_div_iff₀ (by exact_mod_cast pooled) (by exact_mod_cast left)]
    exact_mod_cast backed

def smallPool : VaultState Int :=
  { VaultState.fresh 1 with absorbedDebt := 7, absorbedCollateral := 10 }

/-- Two and then three units of debt are paid six units of collateral, where five at once would be
paid seven; the next buyer empties the pool. -/
theorem smallPool_le_single :
    (∀ request ∈ [2, 3], (0 : Int) < request) ∧
      smallPool.sellEach [2, 3] = .ok (5, 6, smallPool.drawn 5 6) ∧
      (smallPool.absorbedCollateral : ℚ) / smallPool.absorbedDebt ≤
        (smallPool.drawn 5 6).absorbedCollateral / (smallPool.drawn 5 6).absorbedDebt ∧
      smallPool.sellEach [2, 3, 4] = .ok (7, 10, smallPool.drawn 7 10) := by
  have positive : ∀ request ∈ [2, 3], (0 : Int) < request := by decide
  obtain ⟨debt, paid, sold, -, -, -, -, backed, -⟩ :=
    @sellEach_le_single smallPool [2, 3] positive (by decide) (by decide)
  have parts : smallPool.sellEach [2, 3] = .ok (5, 6, smallPool.drawn 5 6) := by rfl
  obtain ⟨rfl, rfl, -⟩ : debt = 5 ∧ paid = 6 ∧ _ = _ := by
    simpa only [Except.ok.injEq, Prod.mk.injEq] using sold.symm.trans parts
  exact ⟨positive, parts, backed (by decide), rfl⟩

end VaultState

end TickVault
