import TickVault.Config
import TickVault.Proofs.Ledger.Attempt

namespace TickVault

/-- Positive powers, each of which stands for more ticks than those after it together. -/
def Graded : List (Nat × Nat) → Prop
  | [] => True
  | (ticks, power) :: powers =>
    0 < power ∧ (powers.map Prod.fst).sum ≤ ticks ∧ Graded powers

theorem graded_tickPowers : Graded tickPowers := by
  norm_num [Graded, tickPowers]

section DivideOut

variable {powers : List (Nat × Nat)} {factor factor' bound : Nat}

theorem divideOut_ticks_le (powers : List (Nat × Nat)) (factor : Nat) :
    (divideOut powers factor).1 ≤ (powers.map Prod.fst).sum := by
  induction powers generalizing factor with
  | nil => exact Nat.le_refl 0
  | cons entry powers ih =>
    obtain ⟨ticks, power⟩ := entry
    simp only [divideOut, List.map_cons, List.sum_cons]
    split
    · exact Nat.add_le_add_left (ih _) ticks
    · exact Nat.le_trans (ih factor) (Nat.le_add_left _ ticks)

theorem divideOut_ticks_mono (graded : Graded powers) (less : factor ≤ factor') :
    (divideOut powers factor).1 ≤ (divideOut powers factor').1 := by
  induction powers generalizing factor factor' with
  | nil => exact Nat.le_refl 0
  | cons entry powers ih =>
    obtain ⟨ticks, power⟩ := entry
    obtain ⟨-, more, graded⟩ := graded
    by_cases first : power ≤ factor
    · have second := Nat.le_trans first less
      simp only [divideOut, if_pos first, if_pos second]
      apply Nat.add_le_add_left
      apply ih graded
      exact Nat.div_le_div_right (Nat.mul_le_mul_right _ less)
    by_cases second : power ≤ factor'
    · simp only [divideOut, if_neg first, if_pos second]
      calc
        (divideOut powers factor).1 ≤ (powers.map Prod.fst).sum := divideOut_ticks_le powers factor
        _ ≤ ticks := more
        _ ≤ _ := Nat.le_add_right _ _
    · simp only [divideOut, if_neg first, if_neg second]
      exact ih graded less

theorem powerScale_le_rest (graded : Graded powers) (least : powerScale ≤ factor) :
    powerScale ≤ (divideOut powers factor).2 := by
  induction powers generalizing factor with
  | nil => exact least
  | cons entry powers ih =>
    obtain ⟨ticks, power⟩ := entry
    obtain ⟨positive, -, graded⟩ := graded
    simp only [divideOut]
    split
    · rename_i divides
      apply ih graded
      rw [Nat.le_div_iff_mul_le positive, Nat.mul_comm]
      exact Nat.mul_le_mul_right _ divides
    · exact ih graded least

theorem rest_le (least : ∀ entry ∈ powers, powerScale ≤ entry.2) :
    (divideOut powers factor).2 ≤ factor := by
  induction powers generalizing factor with
  | nil => exact Nat.le_refl _
  | cons entry powers ih =>
    obtain ⟨ticks, power⟩ := entry
    have here : powerScale ≤ power := least _ List.mem_cons_self
    have later := fun other member => least other (List.mem_cons_of_mem _ member)
    simp only [divideOut]
    split
    · calc (divideOut powers (factor * powerScale / power)).2
          ≤ factor * powerScale / power := ih later
        _ ≤ factor := by
          apply Nat.div_le_of_le_mul
          rw [Nat.mul_comm]
          exact Nat.mul_le_mul_right _ here
    · exact ih later

/-- What may be left of a factor up to `bound`: a power that was not divided out was greater. -/
def restBound : List (Nat × Nat) → Nat → Nat
  | [], bound => bound
  | (_, power) :: powers, bound =>
    restBound powers (max (power - 1) (bound * powerScale / power))

theorem rest_le_restBound (less : factor ≤ bound) :
    (divideOut powers factor).2 ≤ restBound powers bound := by
  induction powers generalizing factor bound with
  | nil => exact less
  | cons entry powers ih =>
    obtain ⟨ticks, power⟩ := entry
    simp only [divideOut, restBound]
    split
    · apply ih
      refine Nat.le_trans ?_ (Nat.le_max_right _ _)
      exact Nat.div_le_div_right (Nat.mul_le_mul_right _ less)
    · apply ih
      refine Nat.le_trans ?_ (Nat.le_max_left _ _)
      omega

end DivideOut

/-- What is left of any factor below one is at most the step of one tick. -/
theorem rest_le_tickSpacing {r : Nat} (least : 6093 ≤ r) :
    (divideOut tickPowers ((1 <<< 48) * powerScale / r)).2 ≤ 10015000000000 := by
  have rest : (divideOut tickPowers ((1 <<< 48) * powerScale / r)).2 ≤
      restBound tickPowers ((1 <<< 48) * powerScale / 6093) := by
    apply rest_le_restBound
    exact Nat.div_le_div_left least (by decide)
  have step : restBound tickPowers ((1 <<< 48) * powerScale / 6093) ≤ 10015000000000 := by
    decide +kernel
  exact Nat.le_trans rest step

/-- The highest ratio lies one tick below the highest. -/
theorem divideOut_ticks_lt {r : Nat} (most : r ≤ 13002088133096036565414295) :
    (divideOut tickPowers ((r * powerScale) >>> 48)).1 < 16383 := by
  have last : (divideOut tickPowers ((13002088133096036565414295 * powerScale) >>> 48)).1 =
      16382 := by decide +kernel
  have ticks : (divideOut tickPowers ((r * powerScale) >>> 48)).1 ≤
      (divideOut tickPowers ((13002088133096036565414295 * powerScale) >>> 48)).1 := by
    apply divideOut_ticks_mono graded_tickPowers
    simp only [Nat.shiftRight_eq_div_pow]
    exact Nat.div_le_div_right (Nat.mul_le_mul_right _ most)
  exact Nat.lt_of_le_of_lt ticks (last ▸ Nat.lt_succ_self 16382)

theorem le_factor_below {r : Nat} (positive : 0 < r) (below : r < 1 <<< 48) :
    powerScale ≤ (1 <<< 48) * powerScale / r := by
  rw [Nat.le_div_iff_mul_le positive, Nat.mul_comm]
  exact Nat.mul_le_mul_right _ (Nat.le_of_lt below)

theorem le_factor_above {r : Nat} (above : ¬ r < 1 <<< 48) :
    powerScale ≤ (r * powerScale) >>> 48 := by
  rw [Nat.shiftRight_eq_div_pow, Nat.le_div_iff_mul_le (by decide), Nat.mul_comm]
  rw [Nat.one_shiftLeft] at above
  exact Nat.mul_le_mul_right _ (Nat.not_lt.mp above)

theorem floorTick_below {r ticks rest : Nat} (below : r < 1 <<< 48)
    (divided : divideOut tickPowers ((1 <<< 48) * powerScale / r) = (ticks, rest)) :
    floorTick r = (-(ticks : Int) - 1, (r : Int) * rest / (tickSpacing * 1000000000)) := by
  unfold floorTick
  rw [Int.toNat_natCast]
  extract_lets r
  rw [if_pos below, divided]

theorem floorTick_above {r ticks rest : Nat} (above : ¬ r < 1 <<< 48)
    (divided : divideOut tickPowers ((r * powerScale) >>> 48) = (ticks, rest)) :
    floorTick r = ((ticks : Int), (r : Int) * powerScale / rest) := by
  unfold floorTick
  rw [Int.toNat_natCast]
  extract_lets r
  rw [if_neg above, divided]

theorem floorTick_range {ratio : Int} (low : minRatio ≤ ratio) (high : ratio ≤ maxRatio) :
    minTick - 1 ≤ (floorTick ratio).1 ∧ (floorTick ratio).1 < maxTick ∧
      (floorTick ratio).2 ≤ ratio := by
  obtain ⟨r, rfl⟩ := Int.eq_ofNat_of_zero_le (Int.le_trans (by decide) low)
  simp only [minRatio, maxRatio] at low high
  simp only [minTick, maxTick]
  by_cases below : r < 1 <<< 48
  · have ticks_le := divideOut_ticks_le tickPowers ((1 <<< 48) * powerScale / r)
    have rest_le := rest_le_tickSpacing (r := r) (by omega)
    have all : (tickPowers.map Prod.fst).sum = 16383 := by decide
    cases divided : divideOut tickPowers ((1 <<< 48) * powerScale / r) with
    | mk ticks rest =>
      simp only [divided] at ticks_le rest_le
      rw [floorTick_below below divided]
      refine ⟨by omega, by omega, ?_⟩
      apply Int.ediv_le_of_le_mul (by decide)
      apply Int.mul_le_mul_of_nonneg_left _ (Int.natCast_nonneg r)
      simp only [tickSpacing]
      omega
  · have ticks_lt := divideOut_ticks_lt (r := r) (by omega)
    have le_rest := powerScale_le_rest graded_tickPowers (le_factor_above below)
    cases divided : divideOut tickPowers ((r * powerScale) >>> 48) with
    | mk ticks rest =>
      simp only [divided] at ticks_lt le_rest
      rw [floorTick_above below divided]
      refine ⟨by omega, by omega, ?_⟩
      apply Int.ediv_le_of_le_mul
      · exact Int.ofNat_lt.mpr (Nat.lt_of_lt_of_le (by decide) le_rest)
      · apply Int.mul_le_mul_of_nonneg_left _ (Int.natCast_nonneg r)
        exact Int.ofNat_le.mpr le_rest

theorem floorTick_pos {ratio : Int} (low : minRatio ≤ ratio) : 0 < (floorTick ratio).2 := by
  obtain ⟨r, rfl⟩ := Int.eq_ofNat_of_zero_le (Int.le_trans (by decide) low)
  simp only [minRatio] at low
  have positive : 0 < r := by omega
  by_cases below : r < 1 <<< 48
  · have le_rest := powerScale_le_rest graded_tickPowers (le_factor_below positive below)
    cases divided : divideOut tickPowers ((1 <<< 48) * powerScale / r) with
    | mk ticks rest =>
      simp only [divided] at le_rest
      rw [floorTick_below below divided]
      have product : 6093 * powerScale ≤ r * rest := Nat.mul_le_mul (by omega) le_rest
      have step : tickSpacing * 1000000000 ≤ 6093 * (powerScale : Int) := by decide
      apply Int.le_ediv_of_mul_le (by decide)
      rw [Int.zero_add, Int.one_mul]
      exact Int.le_trans step (by exact_mod_cast product)
  · have le_rest := powerScale_le_rest graded_tickPowers (le_factor_above below)
    have rest_le : (divideOut tickPowers ((r * powerScale) >>> 48)).2 ≤ r * powerScale := by
      refine Nat.le_trans (rest_le (by decide)) ?_
      rw [Nat.shiftRight_eq_div_pow]
      exact Nat.div_le_self _ _
    cases divided : divideOut tickPowers ((r * powerScale) >>> 48) with
    | mk ticks rest =>
      simp only [divided] at rest_le le_rest
      rw [floorTick_above below divided]
      exact Int.ofNat_lt.mpr (Nat.div_pos rest_le (Nat.lt_of_lt_of_le (by decide) le_rest))

theorem tickAtRatio_ok {ratio : Int} (low : minRatio ≤ ratio) (high : ratio ≤ maxRatio) :
    tickAtRatio ratio = .ok (floorTick ratio) := by
  have perfect := (floorTick_range low high).2.2
  simp only [tickAtRatio, ensure_of (And.intro low high), ok_bind, ensure_of perfect, pure_eq_ok]

theorem clampedTickForRatio_eq (ratio : Int) :
    clampedTickForRatio ratio = .ok (if ratio < minRatio then minTick
      else if ratio > maxRatio then maxTick else max (floorTick ratio).1 minTick) := by
  unfold clampedTickForRatio
  split
  · rfl
  split
  · rfl
  rename_i low high
  rw [tickForRatio, tickAtRatio_ok (Int.not_lt.mp low) (Int.not_lt.mp high)]
  rfl

theorem clampedTickForRatio_range {ratio tick : Int}
    (drawn : clampedTickForRatio ratio = .ok tick) :
    minTick ≤ tick ∧ tick ≤ maxTick := by
  rw [clampedTickForRatio_eq, Except.ok.injEq] at drawn
  subst drawn
  split
  · decide
  split
  · decide
  rename_i low high
  have below := (floorTick_range (Int.not_lt.mp low) (Int.not_lt.mp high)).2.1
  exact ⟨Int.le_max_right _ _, Int.max_le.mpr ⟨Int.le_of_lt below, by decide⟩⟩

theorem thresholdTick_ok (rate : Int) {prices : ExchangePrices} (threshold : Int)
    (positive : 0 < prices.borrow) : ∃ tick, thresholdTick rate prices threshold = .ok tick := by
  simp only [thresholdTick, floorDiv_of_pos positive, ok_bind]
  exact ⟨_, clampedTickForRatio_eq _⟩

theorem thresholdTick_range {rate threshold tick : Int} {prices : ExchangePrices}
    (drawn : thresholdTick rate prices threshold = .ok tick) :
    minTick ≤ tick ∧ tick ≤ maxTick := by
  simp only [thresholdTick, bind_eq_ok] at drawn
  obtain ⟨_, -, drawn⟩ := drawn
  exact clampedTickForRatio_range drawn

theorem positionTick_of_le {debt collateral : Int} (backed : collateral ≠ 0)
    (bounded : (debt * ratioScale).fdiv collateral ≤ maxRatio) :
    ∃ tick raised, positionTick debt collateral = .ok (tick, raised) ∧
      minTick ≤ tick ∧ tick ≤ maxTick ∧ debt ≤ raised := by
  have divided : floorDiv (debt * ratioScale) collateral =
      .ok ((debt * ratioScale).fdiv collateral) := if_neg backed
  have low : minRatio ≤ max ((debt * ratioScale).fdiv collateral) minRatio := Int.le_max_right _ _
  have high : max ((debt * ratioScale).fdiv collateral) minRatio ≤ maxRatio :=
    Int.max_le.mpr ⟨bounded, by decide⟩
  obtain ⟨above, below, -⟩ := floorTick_range low high
  simp only [positionTick, divided, ok_bind, ensure_of high, tickAtRatio_ok low high, pure_eq_ok]
  rw [ensure_of (Int.add_one_le_of_lt below)]
  refine ⟨_, _, rfl, ?_, below, Int.le_max_right _ _⟩
  omega

section ScaleDown

variable {powers : List Nat} {factor least : Nat}

theorem scaleDown_all_le (shrinks : ∀ power ∈ powers, power ≤ 2 ^ 64) (less : least ≤ factor)
    (distance : Nat) :
    scaleDown powers (2 ^ powers.length - 1) least ≤ scaleDown powers distance factor := by
  induction powers generalizing distance factor least with
  | nil => exact less
  | cons power powers ih =>
    have here := shrinks power List.mem_cons_self
    have later (other : Nat) (member : other ∈ powers) := shrinks other (List.mem_cons_of_mem _ member)
    have many := Nat.two_pow_pos powers.length
    have odd : (2 ^ (powers.length + 1) - 1) % 2 = 1 := by
      rw [pow_succ]
      omega
    have half : (2 ^ (powers.length + 1) - 1) / 2 = 2 ^ powers.length - 1 := by
      rw [pow_succ]
      omega
    simp only [scaleDown, List.length_cons, odd, half, if_true]
    apply ih later
    simp only [Nat.shiftRight_eq_div_pow]
    split
    · exact Nat.div_le_div_right (Nat.mul_le_mul_right _ less)
    · calc
        least * power / 2 ^ 64 ≤ least * 2 ^ 64 / 2 ^ 64 :=
          Nat.div_le_div_right (Nat.mul_le_mul_left _ here)
        _ = least := Nat.mul_div_cancel _ (by decide)
        _ ≤ factor := less

theorem scaleDown_le (shrinks : ∀ power ∈ powers, power ≤ 2 ^ 64) (distance : Nat) :
    scaleDown powers distance factor ≤ factor := by
  induction powers generalizing distance factor with
  | nil => exact Nat.le_refl _
  | cons power powers ih =>
    have here := shrinks power List.mem_cons_self
    have later (other : Nat) (member : other ∈ powers) := shrinks other (List.mem_cons_of_mem _ member)
    simp only [scaleDown]
    refine Nat.le_trans (ih later _) ?_
    split
    · rw [Nat.shiftRight_eq_div_pow]
      apply Nat.div_le_of_le_mul
      rw [Nat.mul_comm]
      exact Nat.mul_le_mul_right _ here
    · exact Nat.le_refl _

end ScaleDown

theorem inverseFactor_range (distance : Nat) :
    2 ^ 16 ≤ inverseFactor distance ∧ inverseFactor distance ≤ 2 ^ 64 := by
  have shrinks : ∀ power ∈ inversePowers, power ≤ 2 ^ 64 := by decide
  have lowest : 2 ^ 16 ≤ scaleDown inversePowers (2 ^ inversePowers.length - 1) (1 <<< 64) := by
    decide +kernel
  exact ⟨Nat.le_trans lowest (scaleDown_all_le shrinks (Nat.le_refl _) distance),
    scaleDown_le shrinks distance⟩

theorem ratioOf_pos (tick : Int) : 0 < ratioOf tick := by
  obtain ⟨least, most⟩ := inverseFactor_range tick.natAbs
  simp only [ratioOf]
  generalize inverseFactor tick.natAbs = factor at least most
  split
  · have inverted : 0 < ((1 <<< 128) - 1) / factor := by
      apply Nat.div_pos
      · exact Nat.le_trans most (by decide)
      · exact Nat.lt_of_lt_of_le (by decide) least
    generalize ((1 <<< 128) - 1) / factor = inverted at *
    rw [Nat.shiftRight_eq_div_pow, Nat.one_shiftLeft]
    apply Int.ofNat_lt.mpr
    split <;> omega
  · rw [Nat.shiftRight_eq_div_pow]
    apply Int.ofNat_lt.mpr
    exact Nat.div_pos least (by decide)

theorem ratioAtTick_ok {tick : Int} (range : minTick ≤ tick ∧ tick ≤ maxTick) :
    ratioAtTick tick = .ok (ratioOf tick) := by
  simp only [ratioAtTick, checkTick, ensure_of range, ok_bind, pure_eq_ok]

end TickVault
