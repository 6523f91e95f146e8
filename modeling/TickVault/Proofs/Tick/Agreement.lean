import TickVault.Proofs.Tick.Cover

/-!
The two tables side by side. Every factor in the arithmetic of ticks is a number of at least
`powerScale`, so a rounding changes it by little, and what a chain of steps changes is counted in
roundings. Without any rounding the powers of a distance multiply to an exact factor: dividing the
powers out leaves it within a few roundings, multiplying them out reaches it within a few, and one
tick more is one step more. So the ratio of a floor tick is known within a few roundings, and a
check of all distances says the same of the ratio that the other table gives.
-/

namespace TickVault

/-- What one rounding of a number of at least `powerScale` changes at most, as a factor. -/
def rounding : ℚ := 1 + 1 / powerScale

/-- Two numbers with at most `n` roundings between them. -/
def Near (n : Nat) (a b : ℚ) : Prop :=
  a ≤ rounding ^ n * b ∧ b ≤ rounding ^ n * a

section Near

variable {m n : Nat} {a b c : ℚ}

theorem powerScale_pos : (0 : ℚ) < powerScale := by
  norm_num [powerScale]

theorem one_le_rounding : 1 ≤ rounding := by
  norm_num [rounding, powerScale]

theorem rounding_pow_pos (n : Nat) : 0 < rounding ^ n :=
  pow_pos (lt_of_lt_of_le one_pos one_le_rounding) n

theorem Near.refl (n : Nat) (nonneg : 0 ≤ a) : Near n a a := by
  have grows := le_mul_of_one_le_left nonneg (one_le_pow₀ (n := n) one_le_rounding)
  exact ⟨grows, grows⟩

theorem Near.symm (near : Near n a b) : Near n b a :=
  ⟨near.2, near.1⟩

theorem Near.trans (first : Near m a b) (second : Near n b c) : Near (m + n) a c := by
  have left := (rounding_pow_pos m).le
  have right := (rounding_pow_pos n).le
  constructor
  · calc a ≤ rounding ^ m * b := first.1
      _ ≤ rounding ^ m * (rounding ^ n * c) := mul_le_mul_of_nonneg_left second.1 left
      _ = rounding ^ (m + n) * c := by ring
  · calc c ≤ rounding ^ n * b := second.2
      _ ≤ rounding ^ n * (rounding ^ m * a) := mul_le_mul_of_nonneg_left first.2 right
      _ = rounding ^ (m + n) * a := by ring

theorem Near.weaken (near : Near m a b) (less : m ≤ n) (nonneg : 0 ≤ a) (nonneg' : 0 ≤ b) :
    Near n a b := by
  have more := pow_le_pow_right₀ one_le_rounding less
  exact ⟨near.1.trans (mul_le_mul_of_nonneg_right more nonneg'),
    near.2.trans (mul_le_mul_of_nonneg_right more nonneg)⟩

theorem Near.mul_left (near : Near n a b) (nonneg : 0 ≤ c) : Near n (c * a) (c * b) := by
  constructor
  · calc c * a ≤ c * (rounding ^ n * b) := mul_le_mul_of_nonneg_left near.1 nonneg
      _ = rounding ^ n * (c * b) := by ring
  · calc c * b ≤ c * (rounding ^ n * a) := mul_le_mul_of_nonneg_left near.2 nonneg
      _ = rounding ^ n * (c * a) := by ring

theorem Near.div_left (near : Near n a b) (positive : 0 < a) (positive' : 0 < b) (nonneg : 0 ≤ c) :
    Near n (c / a) (c / b) := by
  have swapped := near.symm.mul_left (c := c / (a * b)) (by positivity)
  have left : c / (a * b) * b = c / a := by field_simp
  have right : c / (a * b) * a = c / b := by field_simp
  rwa [left, right] at swapped

theorem div_le_succ (dividend : Nat) {divisor : Nat} (positive : 0 < divisor) :
    (dividend : ℚ) / divisor ≤ ((dividend / divisor : Nat) : ℚ) + 1 := by
  rw [div_le_iff₀ (Nat.cast_pos.mpr positive)]
  exact_mod_cast (Nat.lt_mul_of_div_lt (Nat.lt_succ_self _) positive).le

theorem near_div {dividend divisor : Nat} (positive : 0 < divisor)
    (large : powerScale * divisor ≤ dividend) :
    Near 1 ((dividend / divisor : Nat) : ℚ) ((dividend : ℚ) / divisor) := by
  have least : (powerScale : ℚ) ≤ ((dividend / divisor : Nat) : ℚ) :=
    Nat.cast_le.mpr ((Nat.le_div_iff_mul_le positive).mpr large)
  have below : ((dividend / divisor : Nat) : ℚ) ≤ (dividend : ℚ) / divisor := Nat.cast_div_le
  have above := div_le_succ dividend positive
  generalize ((dividend / divisor : Nat) : ℚ) = quotient at *
  simp only [Near, rounding, powerScale] at *
  norm_num at *
  constructor <;> linarith

theorem near_stepUp {factor power : Nat} (least : powerScale ≤ factor)
    (least' : powerScale ≤ power) : Near 1 (stepUp factor power) (power / powerScale * factor) := by
  have scale := powerScale_pos
  have large : (powerScale : ℚ) ≤ power / powerScale * factor := by
    rw [div_mul_eq_mul_div, le_div_iff₀ scale]
    exact_mod_cast Nat.mul_le_mul least' least
  have above : (power / powerScale * factor : ℚ) ≤ stepUp factor power := by
    rw [div_mul_eq_mul_div, div_le_iff₀ scale, mul_comm (power : ℚ)]
    exact_mod_cast stepUp_le_iff.mp (Nat.le_refl (stepUp factor power))
  have below : (stepUp factor power : ℚ) ≤ power / powerScale * factor + 1 := by
    have floored : stepUp factor power * powerScale ≤ factor * power + (powerScale - 1) :=
      Nat.div_mul_le_self _ _
    have less : (stepUp factor power : ℚ) * powerScale ≤ factor * power + powerScale := by
      exact_mod_cast Nat.le_trans floored (Nat.add_le_add_left (Nat.sub_le _ _) _)
    rw [← mul_le_mul_iff_left₀ scale]
    field_simp
    linarith
  generalize (power / powerScale * factor : ℚ) = product at *
  generalize (stepUp factor power : ℚ) = stepped at *
  simp only [Near, rounding, powerScale] at *
  norm_num at *
  constructor <;> linarith

end Near

def exactFactor : List (Nat × Nat) → Nat → ℚ
  | [], _ => 1
  | (ticks, power) :: powers, distance =>
    if ticks ≤ distance then power / powerScale * exactFactor powers (distance - ticks)
    else exactFactor powers distance

/-- Powers of which each is a step, in a few roundings, above all the ticks of those after it. -/
def Geometric (step : ℚ) : List (Nat × Nat) → Prop
  | [] => True
  | (ticks, power) :: powers =>
    Near 2 (power / powerScale) (step * exactFactor powers (ticks - 1)) ∧ Geometric step powers

theorem geometric_tickPowers : Geometric (tickSpacing / 10000) tickPowers := by
  simp only [Geometric, tickPowers, Near]
  decide +kernel

section ExactFactor

variable {powers : List (Nat × Nat)} {ticks factor : Nat}

theorem exactFactor_pos (stepped : Stepped powers) (distance : Nat) :
    0 < exactFactor powers distance := by
  induction powers generalizing distance with
  | nil => exact one_pos
  | cons entry powers ih =>
    obtain ⟨ticks, power⟩ := entry
    obtain ⟨-, least, -, stepped⟩ := stepped
    have positive : 0 < power := Nat.lt_of_lt_of_le (by decide) least
    have scale := powerScale_pos
    simp only [exactFactor]
    split
    · have rest := ih stepped (distance - ticks)
      positivity
    · exact ih stepped distance

theorem exactFactor_zero (stepped : Stepped powers) : exactFactor powers 0 = 1 := by
  induction powers with
  | nil => rfl
  | cons entry powers ih =>
    obtain ⟨ticks, power⟩ := entry
    obtain ⟨rfl, -, -, stepped⟩ := stepped
    have many := Nat.two_pow_pos powers.length
    rw [exactFactor, if_neg (by omega), ih stepped]

theorem near_leastFactor (stepped : Stepped powers) (range : ticks < 2 ^ powers.length) :
    Near powers.length (leastFactor powers ticks) (powerScale * exactFactor powers ticks) := by
  have scale := powerScale_pos
  induction powers generalizing ticks with
  | nil =>
    obtain rfl : ticks = 0 := Nat.lt_one_iff.mp range
    simpa [exactFactor, leastFactor, scaleUp] using Near.refl 0 scale.le
  | cons entry powers ih =>
    obtain ⟨ticks', power⟩ := entry
    have positive := exactFactor_pos stepped ticks
    obtain ⟨rfl, least, -, stepped⟩ := stepped
    rw [List.length_cons] at range ⊢
    by_cases low : ticks < 2 ^ powers.length
    · rw [exactFactor, if_neg (Nat.not_le.mpr low)] at positive ⊢
      rw [leastFactor_of_lt low]
      exact (ih stepped low).weaken (Nat.le_succ _) (Nat.cast_nonneg _) (mul_pos scale positive).le
    · obtain ⟨rest, rfl⟩ := Nat.exists_eq_add_of_le (Nat.not_lt.mp low)
      have low' : rest < 2 ^ powers.length := by
        rw [pow_succ] at range
        omega
      have above := (le_divideOut_iff stepped low' (Nat.le_refl _)).1
      rw [exactFactor, if_pos (Nat.le_add_right _ _), Nat.add_sub_cancel_left, leastFactor_add low']
      have product := (ih stepped low').mul_left (c := power / powerScale) (by positivity)
      have chain := (near_stepUp above least).trans product
      rwa [Nat.add_comm 1, mul_left_comm] at chain

theorem near_divideOut (stepped : Stepped powers) (least : powerScale ≤ factor) :
    Near powers.length factor
      ((divideOut powers factor).2 * exactFactor powers (divideOut powers factor).1) := by
  have scale := powerScale_pos
  induction powers generalizing factor with
  | nil => simpa [exactFactor, divideOut] using Near.refl 0 (Nat.cast_nonneg factor)
  | cons entry powers ih =>
    obtain ⟨ticks', power⟩ := entry
    obtain ⟨rfl, least', -, stepped⟩ := stepped
    rw [List.length_cons]
    by_cases divides : power ≤ factor
    · have positive : 0 < power := Nat.lt_of_lt_of_le (by decide) least'
      have large : powerScale * power ≤ factor * powerScale := by
        rw [Nat.mul_comm]
        exact Nat.mul_le_mul_right _ divides
      have left : powerScale ≤ factor * powerScale / power :=
        (Nat.le_div_iff_mul_le positive).mpr large
      simp only [divideOut, if_pos divides, exactFactor, Nat.le_add_right, Nat.add_sub_cancel_left,
        if_true]
      have divided := (near_div positive large).symm.trans (ih stepped left)
      have chain := divided.mul_left (c := power / powerScale) (by positivity)
      have whole : (power / powerScale : ℚ) * ((factor * powerScale : Nat) / power) = factor := by
        push_cast
        field_simp
      rwa [whole, Nat.add_comm 1, mul_left_comm] at chain
    · have few := divideOut_ticks_le powers factor
      have sum := stepped.sum_ticks
      have many := Nat.two_pow_pos powers.length
      have low : ¬ 2 ^ powers.length ≤ (divideOut powers factor).1 := by omega
      have positive := exactFactor_pos stepped (divideOut powers factor).1
      simp only [divideOut, if_neg divides, exactFactor, if_neg low]
      exact (ih stepped least).weaken (Nat.le_succ _) (Nat.cast_nonneg _)
        (mul_nonneg (Nat.cast_nonneg _) positive.le)

theorem Geometric.near_succ {step : ℚ} (geometric : Geometric step powers)
    (stepped : Stepped powers) (range : ticks + 1 < 2 ^ powers.length) :
    Near 2 (exactFactor powers (ticks + 1)) (step * exactFactor powers ticks) := by
  induction powers generalizing ticks with
  | nil => exact absurd range (by simp)
  | cons entry powers ih =>
    obtain ⟨ticks', power⟩ := entry
    obtain ⟨near, geometric⟩ := geometric
    obtain ⟨rfl, -, -, stepped⟩ := stepped
    rw [List.length_cons, pow_succ] at range
    simp only [exactFactor]
    obtain low | carry | high := Nat.lt_trichotomy (ticks + 1) (2 ^ powers.length)
    · rw [if_neg (by omega), if_neg (by omega)]
      exact ih geometric stepped low
    · obtain rfl : ticks = 2 ^ powers.length - 1 := by omega
      rw [if_pos (by omega), if_neg (by omega), carry, Nat.sub_self, exactFactor_zero stepped,
        mul_one]
      exact near
    · rw [if_pos (by omega), if_pos (by omega), Nat.sub_add_comm (by omega), mul_left_comm]
      exact (ih geometric stepped (by omega)).mul_left (by positivity)

end ExactFactor

def aligned (_ up down : Nat) : Bool :=
  ((down >>> 16) * 100000000).ble ((highestBelow up + 1) * 100000001) &&
    (invert down * 100000000).ble ((highestAbove up + 1) * 100000001)

theorem sweep_aligned : sweep aligned powerPairs 1 0 powerScale (1 <<< 64) = true := by
  decide +kernel

theorem aligned_distance {distance : Nat} (range : distance ≤ 16383) :
    aligned distance (leastFactor tickPowers distance) (inverseFactor distance) = true := by
  have swept := sweep_sound sweep_aligned (Nat.lt_succ_of_le range)
  rwa [Nat.zero_add, Nat.one_mul] at swept

theorem ratioOf_le {tick : Int} (range : minTick ≤ tick ∧ tick ≤ maxTick) :
    ratioOf tick * 100000000 ≤ (highestRatio tick + 1) * 100000001 := by
  simp only [minTick, maxTick] at range
  have near : tick.natAbs ≤ 16383 := by omega
  have held := aligned_distance near
  simp only [aligned, Bool.and_eq_true, Nat.ble_eq] at held
  obtain ⟨below, above⟩ := held
  by_cases sign : 0 ≤ tick
  · obtain ⟨ticks, rfl⟩ := Int.eq_ofNat_of_zero_le sign
    rw [Int.natAbs_natCast] at above
    rw [highestRatio_natCast, ratioOf_natCast]
    exact_mod_cast above
  · obtain ⟨ticks, rfl⟩ : ∃ ticks : Nat, tick = -(ticks : Int) := ⟨tick.natAbs, by omega⟩
    rw [Int.natAbs_neg, Int.natAbs_natCast] at below
    rw [highestRatio_neg (by omega), ratioOf_neg]
    exact_mod_cast below

/-- Two whole numbers next to numbers that are near each other. -/
theorem Near.whole {n p q : Nat} {a b : ℚ} (near : Near n a b) (below : (p : ℚ) ≤ a)
    (above : a ≤ p + 1) (below' : (q : ℚ) ≤ b) (above' : b ≤ q + 1) :
    (p : ℚ) ≤ rounding ^ n * (q + 1) ∧ (q : ℚ) ≤ rounding ^ n * (p + 1) := by
  have positive := (rounding_pow_pos n).le
  constructor
  · exact below.trans (near.1.trans (mul_le_mul_of_nonneg_left above' positive))
  · exact below'.trans (near.2.trans (mul_le_mul_of_nonneg_left above positive))

section Floor

variable {r ticks rest : Nat}

theorem near_rest {dividend divisor : Nat} (positive : 0 < divisor)
    (large : powerScale * divisor ≤ dividend)
    (divided : divideOut tickPowers (dividend / divisor) = (ticks, rest)) :
    Near 15 ((dividend : ℚ) / divisor) (rest * exactFactor tickPowers ticks) := by
  have least := (Nat.le_div_iff_mul_le positive).mpr large
  have chain := (near_div positive large).symm.trans (near_divideOut stepped_tickPowers least)
  rwa [divided] at chain

theorem near_above (above : ¬ r < 1 <<< 48)
    (divided : divideOut tickPowers ((r * powerScale) >>> 48) = (ticks, rest)) :
    Near 31 (r * powerScale / rest : ℚ)
      ((1 <<< 48 : Nat) * leastFactor tickPowers ticks / powerScale) := by
  have large : powerScale * (1 <<< 48) ≤ r * powerScale := by
    rw [Nat.mul_comm]
    exact Nat.mul_le_mul_right _ (Nat.not_lt.mp above)
  have few := divideOut_ticks_le tickPowers ((r * powerScale) >>> 48)
  have least := powerScale_le_rest graded_tickPowers (le_factor_above above)
  simp only [divided] at few least
  rw [Nat.shiftRight_eq_div_pow, ← Nat.one_shiftLeft] at divided
  have scale := powerScale_pos
  have one : (0 : ℚ) < (1 <<< 48 : Nat) := by norm_num
  have some : (0 : ℚ) < rest := lt_of_lt_of_le scale (Nat.cast_le.mpr least)
  have found := near_rest (by decide) large divided
  have built := near_leastFactor stepped_tickPowers (Nat.lt_succ_of_le few)
  generalize ((1 <<< 48 : Nat) : ℚ) = unit at *
  have left := found.mul_left (c := unit / rest) (by positivity)
  have right := built.symm.mul_left (c := unit / powerScale) (by positivity)
  have start : unit / rest * ((r * powerScale : Nat) / unit) = r * powerScale / rest := by
    push_cast
    field_simp
  have middle : unit / rest * (rest * exactFactor tickPowers ticks) =
      unit / powerScale * (powerScale * exactFactor tickPowers ticks) := by field_simp
  have finish : unit / powerScale * leastFactor tickPowers ticks =
      unit * leastFactor tickPowers ticks / powerScale := by ring
  rw [start, middle] at left
  rw [finish] at right
  exact (left.trans right).weaken (by decide) (by positivity) (by positivity)

/-- Below one the powers that were divided out are one tick short, and the ratio of the floor tick
takes a step more. -/
theorem near_below (positive : 0 < r) (below : r < 1 <<< 48) (range : ticks + 1 ≤ 16383)
    (divided : divideOut tickPowers ((1 <<< 48) * powerScale / r) = (ticks, rest)) :
    Near 31 (r * rest / (tickSpacing / 10000 * powerScale) : ℚ)
      ((1 <<< 48 : Nat) * powerScale / leastFactor tickPowers (ticks + 1)) := by
  have large : powerScale * r ≤ (1 <<< 48) * powerScale := by
    rw [Nat.mul_comm]
    exact Nat.mul_le_mul_right _ (Nat.le_of_lt below)
  have scale := powerScale_pos
  have one : (0 : ℚ) < (1 <<< 48 : Nat) := by norm_num
  have step : (0 : ℚ) < tickSpacing / 10000 := by norm_num [tickSpacing]
  have some : (0 : ℚ) < r := Nat.cast_pos.mpr positive
  have product := exactFactor_pos stepped_tickPowers ticks
  have least : (0 : ℚ) < leastFactor tickPowers (ticks + 1) :=
    lt_of_lt_of_le scale (Nat.cast_le.mpr (powerScale_le_leastFactor range))
  have found := near_rest positive large divided
  have built := near_leastFactor stepped_tickPowers (Nat.lt_succ_of_le range)
  have next := geometric_tickPowers.near_succ stepped_tickPowers (Nat.lt_succ_of_le range)
  have factor := built.trans (next.mul_left scale.le)
  rw [Nat.cast_mul] at found
  generalize ((1 <<< 48 : Nat) : ℚ) = unit at *
  generalize (tickSpacing / 10000 : ℚ) = spacing at *
  generalize exactFactor tickPowers ticks = whole at *
  have left := found.symm.mul_left (c := r / (spacing * powerScale * whole)) (by positivity)
  have right := factor.symm.div_left (c := unit * powerScale) (by positivity) least (by positivity)
  have start : r / (spacing * powerScale * whole) * (rest * whole) =
      r * rest / (spacing * powerScale) := by field_simp
  have middle : r / (spacing * powerScale * whole) * (unit * powerScale / r) =
      unit * powerScale / (powerScale * (spacing * whole)) := by field_simp
  rw [start, middle] at left
  exact left.trans right

end Floor

section Ratio

variable {ratio : Int}

theorem highestAbove_le (factor : Nat) :
    (highestAbove factor : ℚ) ≤ (1 <<< 48 : Nat) * factor / powerScale := by
  have scale := powerScale_pos
  have floored : highestAbove factor * powerScale ≤ (1 <<< 48) * factor - 1 :=
    Nat.div_mul_le_self _ _
  rw [le_div_iff₀ scale]
  exact_mod_cast Nat.le_trans floored (Nat.sub_le _ _)

theorem le_highestAbove_succ (factor : Nat) :
    ((1 <<< 48 : Nat) * factor / powerScale : ℚ) ≤ highestAbove factor + 1 := by
  have scale := powerScale_pos
  have floored : (1 <<< 48) * factor - 1 < (highestAbove factor + 1) * powerScale :=
    Nat.lt_mul_of_div_lt (Nat.lt_succ_self _) (by decide)
  rw [div_le_iff₀ scale]
  exact_mod_cast Nat.le_of_pred_lt floored

/-- The ratio of a floor tick and the highest ratio of the positions there differ by roundings
only. -/
theorem near_highest (low : minRatio ≤ ratio) (least : minTick ≤ (floorTick ratio).1) :
    ((floorTick ratio).2 : ℚ) ≤
        rounding ^ 31 * (highestRatio (floorTick ratio).1 + 1) ∧
      (highestRatio (floorTick ratio).1 : ℚ) ≤ rounding ^ 31 * ((floorTick ratio).2 + 1) := by
  obtain ⟨r, rfl⟩ := Int.eq_ofNat_of_zero_le (Int.le_trans (by decide) low)
  have positive : 0 < r := Int.natCast_pos.mp (Int.lt_of_lt_of_le (by decide) low)
  by_cases below : r < 1 <<< 48
  · cases divided : divideOut tickPowers ((1 <<< 48) * powerScale / r) with
    | mk ticks rest =>
      rw [floorTick_below below divided] at least ⊢
      simp only [minTick] at least
      have range : ticks + 1 ≤ 16383 := by omega
      have near := near_below positive below range divided
      have some : 0 < leastFactor tickPowers (ticks + 1) :=
        Nat.lt_of_lt_of_le (by decide) (powerScale_le_leastFactor range)
      have perfect : (r : Int) * rest / (tickSpacing * 1000000000) =
          ((r * rest / 10015000000000 : Nat) : Int) := by norm_num [tickSpacing]
      have step : (tickSpacing / 10000 * powerScale : ℚ) = (10015000000000 : Nat) := by
        norm_num [tickSpacing, powerScale]
      have tick : -(ticks : Int) - 1 = -((ticks + 1 : Nat) : Int) := by omega
      rw [step] at near
      rw [perfect, tick, highestRatio_neg (Nat.succ_pos ticks), highestBelow]
      exact_mod_cast near.whole (by exact_mod_cast Nat.cast_div_le)
        (by exact_mod_cast div_le_succ _ (by decide)) (by exact_mod_cast Nat.cast_div_le)
        (by exact_mod_cast div_le_succ _ some)
  · cases divided : divideOut tickPowers ((r * powerScale) >>> 48) with
    | mk ticks rest =>
      rw [floorTick_above below divided]
      have near := near_above below divided
      have some := powerScale_le_rest graded_tickPowers (le_factor_above below)
      simp only [divided] at some
      have perfect : (r : Int) * powerScale / rest = ((r * powerScale / rest : Nat) : Int) := by
        norm_num
      rw [perfect, highestRatio_natCast]
      exact_mod_cast near.whole (by exact_mod_cast Nat.cast_div_le)
        (by exact_mod_cast div_le_succ _ (Nat.lt_of_lt_of_le (by decide) some))
        (highestAbove_le _) (le_highestAbove_succ _)

theorem perfect_near (low : minRatio ≤ ratio) (high : ratio ≤ maxRatio)
    (least : minTick ≤ (floorTick ratio).1) :
    |((floorTick ratio).2 : ℚ) - ratioOf (floorTick ratio).1| ≤
      (ratioOf (floorTick ratio).1 : ℚ) / 10 ^ 7 + 2 := by
  have range := And.intro least (Int.le_of_lt (floorTick_range low high).2.1)
  have few : rounding ^ 31 ≤ 1 + 1 / 10 ^ 11 := by norm_num [rounding, powerScale]
  obtain ⟨above, below⟩ := near_highest low least
  have highest : (highestRatio (floorTick ratio).1 : ℚ) * 1000000000000 ≤
      ratioOf (floorTick ratio).1 * 1000000000001 := by
    exact_mod_cast (highestRatio_le range).1
  have drawn : (ratioOf (floorTick ratio).1 : ℚ) * 100000000 ≤
      (highestRatio (floorTick ratio).1 + 1) * 100000001 := by
    exact_mod_cast ratioOf_le range
  have whole : (1 : ℚ) ≤ ratioOf (floorTick ratio).1 := by
    exact_mod_cast ratioOf_pos (floorTick ratio).1
  have given : (0 : ℚ) < (floorTick ratio).2 := by exact_mod_cast floorTick_pos low
  have above' := above.trans (mul_le_mul_of_nonneg_right few (by linarith))
  have below' := below.trans (mul_le_mul_of_nonneg_right few (by linarith))
  rw [abs_le]
  constructor <;> linarith

theorem drawn_le (low : minRatio ≤ ratio) (high : ratio ≤ maxRatio)
    (least : minTick ≤ (floorTick ratio).1) :
    (ratioOf (floorTick ratio).1 : ℚ) ≤ ratio * (1 + 1 / 10 ^ 7) + 2 := by
  have range := And.intro least (Int.le_of_lt (floorTick_range low high).2.1)
  have positive : 0 < ratio := Int.lt_of_lt_of_le (by decide) low
  have passed : ¬ ratio ≤ highestRatio (floorTick ratio).1 := fun reached =>
    Int.lt_irrefl _ ((floorTick_lt_iff range positive).mpr reached)
  have next := Int.mul_le_mul_of_nonneg_right (Int.not_le.mp passed) (show 0 ≤ 100000001 by decide)
  have drawn : (ratioOf (floorTick ratio).1 : ℚ) * 100000000 ≤ ratio * 100000001 := by
    exact_mod_cast Int.le_trans (ratioOf_le range) next
  have positive' : (0 : ℚ) < ratio := by exact_mod_cast positive
  linarith

theorem le_next (low : minRatio ≤ ratio)
    (range : minTick ≤ (floorTick ratio).1 + 1 ∧ (floorTick ratio).1 + 1 ≤ maxTick) :
    (ratio : ℚ) ≤ ratioOf ((floorTick ratio).1 + 1) * (1 + 1 / 10 ^ 7) + 2 := by
  have positive : 0 < ratio := Int.lt_of_lt_of_le (by decide) low
  have reached := (floorTick_lt_iff range positive).mp (Int.lt_succ _)
  have scaled := Int.mul_le_mul_of_nonneg_right reached (show 0 ≤ 1000000000000 by decide)
  have reached' : (ratio : ℚ) * 1000000000000 ≤
      ratioOf ((floorTick ratio).1 + 1) * 1000000000001 := by
    exact_mod_cast Int.le_trans scaled (highestRatio_le range).1
  have positive' : (0 : ℚ) < ratioOf ((floorTick ratio).1 + 1) := by
    exact_mod_cast ratioOf_pos ((floorTick ratio).1 + 1)
  linarith

/-- The two tables agree. Where the floor tick of a ratio is a tick at all, its two ratios differ by
at most one part in `10 ^ 7` and the roundings to whole ratios; and the ratio lies between the ratio
of the tick and that of the next one, up to the same. -/
theorem tables_agree (low : minRatio ≤ ratio) (high : ratio ≤ maxRatio) :
    ∃ tick perfect, tickAtRatio ratio = .ok (tick, perfect) ∧
      (minTick ≤ tick → ∃ drawn, ratioAtTick tick = .ok drawn ∧
        |(perfect : ℚ) - drawn| ≤ (drawn : ℚ) / 10 ^ 7 + 2 ∧
        (drawn : ℚ) ≤ ratio * (1 + 1 / 10 ^ 7) + 2 ∧
        (tick < maxTick → ∃ next, ratioAtTick (tick + 1) = .ok next ∧
          (ratio : ℚ) ≤ next * (1 + 1 / 10 ^ 7) + 2)) := by
  refine ⟨(floorTick ratio).1, (floorTick ratio).2, tickAtRatio_ok low high, fun least => ?_⟩
  have most := (floorTick_range low high).2.1
  have range : minTick ≤ (floorTick ratio).1 + 1 ∧ (floorTick ratio).1 + 1 ≤ maxTick := by omega
  refine ⟨_, ratioAtTick_ok ⟨least, Int.le_of_lt most⟩, perfect_near low high least,
    drawn_le low high least, fun _ => ⟨_, ratioAtTick_ok range, le_next low range⟩⟩

/-- One half lies on tick `-463`, where one table gives `140620378111899` and the other
`140620378111952`. -/
theorem tables_agree_half :
    minRatio ≤ ratioScale / 2 ∧ ratioScale / 2 ≤ maxRatio ∧
      tickAtRatio (ratioScale / 2) = .ok (-463, 140620378111899) ∧
      ∃ drawn, ratioAtTick (-463) = .ok drawn ∧
        |((140620378111899 : Int) : ℚ) - drawn| ≤ (drawn : ℚ) / 10 ^ 7 + 2 ∧
        (drawn : ℚ) ≤ (ratioScale / 2 : Int) * (1 + 1 / 10 ^ 7) + 2 ∧
        ∃ next, ratioAtTick (-463 + 1) = .ok next ∧
          ((ratioScale / 2 : Int) : ℚ) ≤ next * (1 + 1 / 10 ^ 7) + 2 := by
  have low : minRatio ≤ ratioScale / 2 := by decide
  have high : ratioScale / 2 ≤ maxRatio := by decide
  have found : tickAtRatio (ratioScale / 2) = .ok (-463, 140620378111899) := by decide +kernel
  obtain ⟨tick, perfect, found', agree⟩ := tables_agree low high
  rw [found, Except.ok.injEq, Prod.mk.injEq] at found'
  obtain ⟨rfl, rfl⟩ := found'
  obtain ⟨drawn, given, near, below, next⟩ := agree (by decide)
  exact ⟨low, high, found, drawn, given, near, below, next (by decide)⟩

end Ratio

end TickVault
