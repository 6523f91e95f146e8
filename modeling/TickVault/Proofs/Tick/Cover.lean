import TickVault.Proofs.Tick.Threshold

/-!
How far the ratio of a tick covers the positions on it. A position finds its tick by dividing out
one table, the tick its ratio by multiplying out another. Multiplying the first table out as well,
and rounding up, inverts its division: so the positions on a tick have a highest ratio. One check
of the two tables side by side then bounds that ratio by the ratio of the tick.
-/

namespace TickVault

def stepUp (factor power : Nat) : Nat := (factor * power + (powerScale - 1)) / powerScale

theorem stepUp_le_iff {factor power bound : Nat} :
    stepUp factor power ≤ bound ↔ factor * power ≤ bound * powerScale := by
  have positive : 0 < powerScale := by decide
  rw [stepUp, Nat.div_le_iff_le_mul_add_pred positive, Nat.add_le_add_iff_right, Nat.mul_comm bound]

theorem le_stepUp {factor : Nat} (power : Nat) (least : powerScale ≤ factor) :
    power ≤ stepUp factor power := by
  rw [stepUp, Nat.le_div_iff_mul_le (by decide), Nat.mul_comm power]
  exact Nat.le_add_right_of_le (Nat.mul_le_mul_right power least)

def scaleUp : List Nat → Nat → Nat → Nat
  | [], _, factor => factor
  | power :: powers, distance, factor =>
    scaleUp powers (distance / 2) (if distance % 2 = 1 then stepUp factor power else factor)

/-- The least factor that stands for a number of ticks. -/
def leastFactor (powers : List (Nat × Nat)) (ticks : Nat) : Nat :=
  scaleUp (powers.map Prod.snd).reverse ticks powerScale

section ScaleUp

variable {powers : List Nat} {distance factor : Nat}

theorem scaleUp_concat_of_lt (power : Nat) (less : distance < 2 ^ powers.length) :
    scaleUp (powers ++ [power]) distance factor = scaleUp powers distance factor := by
  induction powers generalizing distance factor with
  | nil =>
    obtain rfl : distance = 0 := Nat.lt_one_iff.mp less
    rfl
  | cons first powers ih =>
    rw [List.length_cons, pow_succ] at less
    exact ih (by omega)

theorem scaleUp_concat_add (power : Nat) (less : distance < 2 ^ powers.length) :
    scaleUp (powers ++ [power]) (2 ^ powers.length + distance) factor =
      stepUp (scaleUp powers distance factor) power := by
  induction powers generalizing distance factor with
  | nil =>
    obtain rfl : distance = 0 := Nat.lt_one_iff.mp less
    simp [scaleUp]
  | cons first powers ih =>
    rw [List.length_cons, pow_succ] at less
    have low : (2 ^ (first :: powers).length + distance) % 2 = distance % 2 := by
      rw [List.length_cons, pow_succ]
      omega
    have rest : (2 ^ (first :: powers).length + distance) / 2 =
        2 ^ powers.length + distance / 2 := by
      rw [List.length_cons, pow_succ]
      omega
    simp only [List.cons_append, scaleUp, low, rest]
    exact ih (by omega)

end ScaleUp

/-- Powers for the bits of a number of ticks, the highest first, none of them below the least factor
that stands for all the ticks of those after it. -/
def Stepped : List (Nat × Nat) → Prop
  | [] => True
  | (ticks, power) :: powers =>
    ticks = 2 ^ powers.length ∧ powerScale ≤ power ∧
      leastFactor powers (2 ^ powers.length - 1) ≤ power ∧ Stepped powers

theorem stepped_tickPowers : Stepped tickPowers := by
  norm_num [Stepped, tickPowers]
  decide +kernel

section LeastFactor

variable {powers : List (Nat × Nat)} {ticks ticks' power factor : Nat}

theorem leastFactor_of_lt (less : ticks < 2 ^ powers.length) :
    leastFactor ((ticks', power) :: powers) ticks = leastFactor powers ticks := by
  simp only [leastFactor, List.map_cons, List.reverse_cons]
  exact scaleUp_concat_of_lt power (by simpa using less)

theorem leastFactor_add (less : ticks < 2 ^ powers.length) :
    leastFactor ((ticks', power) :: powers) (2 ^ powers.length + ticks) =
      stepUp (leastFactor powers ticks) power := by
  have length : (powers.map Prod.snd).reverse.length = powers.length := by simp
  simp only [leastFactor, List.map_cons, List.reverse_cons, ← length]
  exact scaleUp_concat_add power (by rwa [length])

theorem Stepped.sum_ticks (stepped : Stepped powers) :
    (powers.map Prod.fst).sum = 2 ^ powers.length - 1 := by
  induction powers with
  | nil => rfl
  | cons entry powers ih =>
    obtain ⟨ticks, power⟩ := entry
    obtain ⟨rfl, -, -, stepped⟩ := stepped
    have positive := Nat.two_pow_pos powers.length
    rw [List.map_cons, List.sum_cons, ih stepped, List.length_cons, pow_succ]
    omega

/-- Dividing out and multiplying out belong to each other: a factor stands for the ticks whose
least factor it reaches. -/
theorem le_divideOut_iff (stepped : Stepped powers) (range : ticks < 2 ^ powers.length)
    (least : powerScale ≤ factor) :
    powerScale ≤ leastFactor powers ticks ∧
      (ticks ≤ (divideOut powers factor).1 ↔ leastFactor powers ticks ≤ factor) := by
  induction powers generalizing ticks factor with
  | nil =>
    obtain rfl : ticks = 0 := Nat.lt_one_iff.mp range
    exact ⟨Nat.le_refl _, iff_of_true (Nat.le_refl 0) least⟩
  | cons entry powers ih =>
    obtain ⟨ticks', power⟩ := entry
    obtain ⟨rfl, positive, most, stepped⟩ := stepped
    have sum := stepped.sum_ticks
    by_cases low : ticks < 2 ^ powers.length
    · rw [leastFactor_of_lt low]
      refine ⟨(ih stepped low least).1, ?_⟩
      by_cases divides : power ≤ factor
      · -- The power alone stands for more ticks, and none of these needs more than it.
        have reached : leastFactor powers ticks ≤ power := by
          have all := ih stepped (Nat.sub_one_lt (Nat.two_pow_pos _).ne') positive |>.2.mpr most
          exact (ih stepped low positive).2.mp (by omega)
        simp only [divideOut, if_pos divides]
        exact iff_of_true (by omega) (Nat.le_trans reached divides)
      · simp only [divideOut, if_neg divides]
        exact (ih stepped low least).2
    · obtain ⟨rest, rfl⟩ := Nat.exists_eq_add_of_le (Nat.not_lt.mp low)
      rw [List.length_cons, pow_succ] at range
      have low' : rest < 2 ^ powers.length := by omega
      rw [leastFactor_add low']
      have above := (ih stepped low' least).1
      have step := le_stepUp power above
      refine ⟨Nat.le_trans positive step, ?_⟩
      by_cases divides : power ≤ factor
      · have left : powerScale ≤ factor * powerScale / power := by
          rw [Nat.le_div_iff_mul_le (Nat.lt_of_lt_of_le (by decide) positive), Nat.mul_comm]
          exact Nat.mul_le_mul_right _ divides
        simp only [divideOut, if_pos divides, Nat.add_le_add_iff_left]
        rw [(ih stepped low' left).2, stepUp_le_iff,
          Nat.le_div_iff_mul_le (Nat.lt_of_lt_of_le (by decide) positive)]
      · simp only [divideOut, if_neg divides]
        have few := divideOut_ticks_le powers factor
        have many := Nat.two_pow_pos powers.length
        exact iff_of_false (by omega) (by omega)

end LeastFactor

section Floor

variable {r ticks : Nat}

theorem le_divideOut_tickPowers_iff {factor : Nat} (range : ticks ≤ 16383)
    (least : powerScale ≤ factor) :
    ticks ≤ (divideOut tickPowers factor).1 ↔ leastFactor tickPowers ticks ≤ factor :=
  (le_divideOut_iff stepped_tickPowers (Nat.lt_succ_of_le range) least).2

theorem powerScale_le_leastFactor (range : ticks ≤ 16383) :
    powerScale ≤ leastFactor tickPowers ticks :=
  (le_divideOut_iff stepped_tickPowers (Nat.lt_succ_of_le range) (Nat.le_refl _)).1

theorem powerScale_lt_leastFactor (positive : 0 < ticks) (range : ticks ≤ 16383) :
    powerScale < leastFactor tickPowers ticks := by
  have none : (divideOut tickPowers powerScale).1 = 0 := by decide +kernel
  have reached := le_divideOut_tickPowers_iff range (Nat.le_refl powerScale)
  omega

theorem floorTick_lt_natCast_iff (range : ticks ≤ 16383) :
    (floorTick r).1 < ticks ↔ r * powerScale < (1 <<< 48) * leastFactor tickPowers ticks := by
  have least := powerScale_le_leastFactor range
  by_cases below : r < 1 <<< 48
  · rw [floorTick_fst_below below]
    refine iff_of_true (by omega) ?_
    exact Nat.mul_lt_mul_of_lt_of_le below least (Nat.lt_of_lt_of_le (by decide) least)
  · have one : powerScale ≤ (r * powerScale) >>> 48 := by
      rw [Nat.shiftRight_eq_div_pow, Nat.le_div_iff_mul_le (by decide), Nat.mul_comm]
      exact Nat.mul_le_mul_right _ (Nat.not_lt.mp below)
    have reached := le_divideOut_tickPowers_iff range one
    rw [Nat.shiftRight_eq_div_pow, Nat.le_div_iff_mul_le (by decide)] at reached
    rw [floorTick_fst_above below, Int.ofNat_lt, ← Nat.not_le, Nat.shiftRight_eq_div_pow, reached,
      Nat.not_le, Nat.one_shiftLeft, Nat.mul_comm (2 ^ 48)]

theorem floorTick_lt_neg_iff (positive : 0 < r) (distant : 0 < ticks) (range : ticks ≤ 16383) :
    (floorTick r).1 < -(ticks : Int) ↔
      r * leastFactor tickPowers ticks ≤ (1 <<< 48) * powerScale := by
  have more := powerScale_lt_leastFactor distant range
  by_cases below : r < 1 <<< 48
  · have reached := le_divideOut_tickPowers_iff range (le_factor_below positive below)
    rw [Nat.le_div_iff_mul_le positive, Nat.mul_comm _ r] at reached
    rw [floorTick_fst_below below, ← reached]
    omega
  · rw [floorTick_fst_above below]
    refine iff_of_false (by omega) (Nat.not_le.mpr ?_)
    exact Nat.mul_lt_mul_of_le_of_lt (Nat.not_lt.mp below) more positive

end Floor

def highestAbove (factor : Nat) : Nat := ((1 <<< 48) * factor - 1) / powerScale

def highestBelow (factor : Nat) : Nat := (1 <<< 48) * powerScale / factor

/-- The highest ratio of the positions on a tick. -/
def highestRatio (tick : Int) : Int :=
  let factor := leastFactor tickPowers tick.natAbs
  if 0 ≤ tick then highestAbove factor else highestBelow factor

theorem highestRatio_natCast (ticks : Nat) :
    highestRatio ticks = highestAbove (leastFactor tickPowers ticks) := by
  rw [highestRatio, if_pos (Int.natCast_nonneg ticks), Int.natAbs_natCast]

theorem highestRatio_neg {ticks : Nat} (distant : 0 < ticks) :
    highestRatio (-ticks) = highestBelow (leastFactor tickPowers ticks) := by
  rw [highestRatio, if_neg (by omega), Int.natAbs_neg, Int.natAbs_natCast]

section Highest

variable {tick ratio : Int}

theorem floorTick_lt_iff (range : minTick ≤ tick ∧ tick ≤ maxTick) (positive : 0 < ratio) :
    (floorTick ratio).1 < tick ↔ ratio ≤ highestRatio tick := by
  obtain ⟨r, rfl⟩ := Int.eq_ofNat_of_zero_le (Int.le_of_lt positive)
  have more : 0 < r := Int.natCast_pos.mp positive
  simp only [minTick, maxTick] at range
  have scale : 0 < powerScale := by decide
  by_cases sign : 0 ≤ tick
  · obtain ⟨ticks, rfl⟩ := Int.eq_ofNat_of_zero_le sign
    have near : ticks ≤ 16383 := by omega
    have least := powerScale_le_leastFactor near
    have some : 0 < (1 <<< 48) * leastFactor tickPowers ticks :=
      Nat.mul_pos (by decide) (Nat.lt_of_lt_of_le scale least)
    rw [floorTick_lt_natCast_iff near, highestRatio_natCast, Int.ofNat_le, highestAbove,
      Nat.le_div_iff_mul_le scale, Nat.le_sub_one_iff_lt some]
  · obtain ⟨ticks, rfl⟩ : ∃ ticks : Nat, tick = -(ticks : Int) := ⟨tick.natAbs, by omega⟩
    have near : ticks ≤ 16383 := by omega
    have distant : 0 < ticks := by omega
    have least := Nat.lt_of_lt_of_le scale (powerScale_le_leastFactor near)
    rw [floorTick_lt_neg_iff more distant near, highestRatio_neg distant, Int.ofNat_le,
      highestBelow, Nat.le_div_iff_mul_le least]

theorem highestRatio_le_maxRatio (range : minTick ≤ tick ∧ tick ≤ maxTick) (most : tick < maxTick) :
    highestRatio tick ≤ maxRatio := by
  have last : (floorTick maxRatio).1 + 1 = maxTick := by decide +kernel
  by_contra exceeds
  have under := (floorTick_lt_iff range (by decide)).mpr (Int.le_of_lt (Int.not_le.mp exceeds))
  omega

end Highest

def invert (factor : Nat) : Nat :=
  let inverted := ((1 <<< 128) - 1) / factor
  inverted >>> 16 + if inverted % (1 <<< 16) = 0 then 0 else 1

theorem ratioOf_natCast (ticks : Nat) : ratioOf ticks = (invert (inverseFactor ticks) : Nat) := by
  cases ticks with
  | zero => decide +kernel
  | succ ticks =>
    rw [ratioOf, if_pos (Int.natCast_succ_pos ticks)]
    rfl

theorem ratioOf_neg (ticks : Nat) : ratioOf (-ticks) = (inverseFactor ticks >>> 16 : Nat) := by
  rw [ratioOf, if_neg (by omega), Int.natAbs_neg]
  rfl

/-- Checks each distance that two tables have the powers for, the lowest bit first, together with
what the tables make of it. -/
def sweep (check : Nat → Nat → Nat → Bool) : List (Nat × Nat) → Nat → Nat → Nat → Nat → Bool
  | [], _, distance, up, down => check distance up down
  | (power, inverse) :: entries, place, distance, up, down =>
    sweep check entries (2 * place) distance up down &&
      sweep check entries (2 * place) (distance + place) (stepUp up power)
        ((down * inverse) >>> 64)

theorem sweep_sound {check : Nat → Nat → Nat → Bool} {entries : List (Nat × Nat)}
    {place distance up down : Nat} (swept : sweep check entries place distance up down = true)
    {offset : Nat} (less : offset < 2 ^ entries.length) :
    check (distance + place * offset) (scaleUp (entries.map Prod.fst) offset up)
      (scaleDown (entries.map Prod.snd) offset down) = true := by
  induction entries generalizing place distance up down offset with
  | nil =>
    obtain rfl : offset = 0 := Nat.lt_one_iff.mp less
    exact swept
  | cons entry entries ih =>
    obtain ⟨power, inverse⟩ := entry
    rw [sweep, Bool.and_eq_true] at swept
    rw [List.length_cons, pow_succ] at less
    have half : offset / 2 < 2 ^ entries.length := by omega
    have parts : place * offset = place * (offset % 2) + 2 * place * (offset / 2) := by
      conv_lhs => rw [← Nat.mod_add_div offset 2]
      ring
    simp only [List.map_cons, scaleUp, scaleDown, parts, ← Nat.add_assoc]
    by_cases bit : offset % 2 = 1
    · simpa only [bit, if_true, Nat.mul_one] using ih swept.2 half
    · have zero : offset % 2 = 0 := by omega
      simpa only [zero, if_neg Nat.zero_ne_one, Nat.mul_zero, Nat.add_zero] using ih swept.1 half

def powerPairs : List (Nat × Nat) := (tickPowers.map Prod.snd).reverse.zip inversePowers

/-- The ratios of the two ticks at a distance from zero fall short of the highest ratios there by
at most one part in `10 ^ 12`, and from tick `-16` to tick `14319` only. -/
def bounded (distance up down : Nat) : Bool :=
  let low := down >>> 16
  let high := invert down
  let below := highestBelow up
  let above := highestAbove up
  (distance.ble 16 || below.ble low) && (distance.ble 14319 || above.ble high) &&
    (below * 1000000000000).ble (low * 1000000000001) &&
      (above * 1000000000000).ble (high * 1000000000001)

theorem sweep_bounded : sweep bounded powerPairs 1 0 powerScale (1 <<< 64) = true := by
  decide +kernel

theorem bounded_distance {distance : Nat} (range : distance ≤ 16383) :
    bounded distance (leastFactor tickPowers distance) (inverseFactor distance) = true := by
  have swept := sweep_sound sweep_bounded (Nat.lt_succ_of_le range)
  rwa [Nat.zero_add, Nat.one_mul] at swept

section Tick

variable {tick : Int}

/-- No ratio on a tick exceeds the ratio of the tick by one part in `10 ^ 12`, and far enough from
one none exceeds it at all. -/
theorem highestRatio_le (range : minTick ≤ tick ∧ tick ≤ maxTick) :
    highestRatio tick * 1000000000000 ≤ ratioOf tick * 1000000000001 ∧
      (tick < -16 ∨ 14319 < tick → highestRatio tick ≤ ratioOf tick) := by
  simp only [minTick, maxTick] at range
  have near : tick.natAbs ≤ 16383 := by omega
  have held := bounded_distance near
  simp only [bounded, Bool.and_eq_true, Bool.or_eq_true, Nat.ble_eq] at held
  obtain ⟨⟨⟨low, high⟩, below⟩, above⟩ := held
  by_cases sign : 0 ≤ tick
  · obtain ⟨ticks, rfl⟩ := Int.eq_ofNat_of_zero_le sign
    rw [Int.natAbs_natCast] at high above
    rw [highestRatio_natCast, ratioOf_natCast]
    generalize invert (inverseFactor ticks) = given at *
    exact ⟨by exact_mod_cast above, fun far => Int.ofNat_le.mpr (high.resolve_left (by omega))⟩
  · obtain ⟨ticks, rfl⟩ : ∃ ticks : Nat, tick = -(ticks : Int) := ⟨tick.natAbs, by omega⟩
    rw [Int.natAbs_neg, Int.natAbs_natCast] at low below
    rw [highestRatio_neg (by omega), ratioOf_neg]
    generalize inverseFactor ticks >>> 16 = given at *
    exact ⟨by exact_mod_cast below, fun far => Int.ofNat_le.mpr (low.resolve_left (by omega))⟩

-- Both ends are sharp.
example : ratioOf (-16) < highestRatio (-16) ∧ ratioOf 14319 < highestRatio 14319 := by
  decide +kernel

end Tick

section Position

variable {debt collateral tick raised : Int}

/-- A position's tick is found for its ratio, rounded down, and its debt is raised to the ratio of the
floor tick, one tick up. -/
theorem positionTick_floor (backed : 0 < collateral)
    (placed : positionTick debt collateral = .ok (tick, raised)) :
    max (debt * ratioScale / collateral) minRatio ≤ maxRatio ∧
      (floorTick (max (debt * ratioScale / collateral) minRatio)).1 + 1 = tick ∧
      raised = max ((floorTick (max (debt * ratioScale / collateral) minRatio)).2 * tickSpacing /
        10000 * collateral / ratioScale) debt := by
  simp only [positionTick, floorDiv_of_pos backed, ok_bind, bind_eq_ok, ensure_eq_ok_iff,
    pure_eq_ok, Except.ok.injEq, Prod.mk.injEq] at placed
  obtain ⟨-, high, below, drawn, -, -, rfl, rfl⟩ := placed
  rw [tickAtRatio_ok (Int.le_max_right _ _) high, Except.ok.injEq] at drawn
  rw [drawn]
  exact ⟨high, rfl, rfl⟩

theorem positionTick_le_highest (backed : 0 < collateral)
    (placed : positionTick debt collateral = .ok (tick, raised)) :
    (minTick ≤ tick ∧ tick ≤ maxTick) ∧
      max (debt * ratioScale / collateral) minRatio ≤ highestRatio tick := by
  obtain ⟨high, rfl, -⟩ := positionTick_floor backed placed
  have low : minRatio ≤ max (debt * ratioScale / collateral) minRatio := Int.le_max_right _ _
  generalize max (debt * ratioScale / collateral) minRatio = ratio at *
  obtain ⟨above, below, -⟩ := floorTick_range low high
  have range : minTick ≤ (floorTick ratio).1 + 1 ∧ (floorTick ratio).1 + 1 ≤ maxTick := by omega
  have positive : 0 < ratio := Int.lt_of_lt_of_le (by decide) low
  exact ⟨range, (floorTick_lt_iff range positive).mp (Int.lt_succ _)⟩

theorem positionTick_lt (backed : 0 < collateral)
    (placed : positionTick debt collateral = .ok (tick, raised)) :
    debt * ratioScale < (highestRatio tick + 1) * collateral := by
  obtain ⟨-, reached⟩ := positionTick_le_highest backed placed
  apply Int.lt_mul_of_ediv_lt backed
  exact Int.lt_add_one_of_le (Int.le_trans (Int.le_max_left _ _) reached)

/-- The ratio of a tick covers every position on it. -/
def Covers (tick ratio : Int) : Prop :=
  ∀ debt collateral raised, 0 < debt → 0 < collateral →
    positionTick debt collateral = .ok (tick, raised) →
      debt * ratioScale ≤ (ratio + 1) * collateral

theorem halfway_ediv (ratio : Int) :
    (2 * ratio + 1) * ratioScale / (2 * ratioScale) = ratio := by
  have parts : (2 * ratio + 1) * ratioScale = ratioScale + ratio * (2 * ratioScale) := by ring
  rw [parts, Int.add_mul_ediv_right _ _ (by decide)]
  exact Int.zero_add ratio

theorem positionTick_halfway (backed : 0 < collateral)
    (placed : positionTick debt collateral = .ok (tick, raised)) (most : tick < maxTick) :
    0 < highestRatio tick ∧
      ∃ raised', positionTick (2 * highestRatio tick + 1) (2 * ratioScale) =
        .ok (tick, raised') := by
  obtain ⟨range, reached⟩ := positionTick_le_highest backed placed
  obtain ⟨-, floored, -⟩ := positionTick_floor backed placed
  have low : minRatio ≤ max (debt * ratioScale / collateral) minRatio := Int.le_max_right _ _
  generalize max (debt * ratioScale / collateral) minRatio = ratio at *
  have low' : minRatio ≤ highestRatio tick := Int.le_trans low reached
  have positive : 0 < highestRatio tick := Int.lt_of_lt_of_le (by decide) low'
  have scale : (2 : Int) * ratioScale ≠ 0 := by decide
  have bounded : ((2 * highestRatio tick + 1) * ratioScale).fdiv (2 * ratioScale) ≤ maxRatio := by
    rw [Int.fdiv_eq_ediv_of_nonneg _ (by decide), halfway_ediv]
    exact highestRatio_le_maxRatio range most
  obtain ⟨tick', raised', placed', -⟩ := positionTick_of_le scale bounded
  -- Its floor tick lies between that of the given position and the tick.
  have floored' := (positionTick_floor (by decide) placed').2.1
  rw [halfway_ediv, max_eq_left low'] at floored'
  have lower := floorTick_mono low reached
  have upper := (floorTick_lt_iff range positive).mpr (Int.le_refl _)
  obtain rfl : tick' = tick := by omega
  exact ⟨positive, raised', placed'⟩

/-- No position owes more than one part in `10 ^ 12` above what the ratio of its tick allows, and
far enough from one none owes more than that ratio allows. In between, the ratio of a tick covers
its positions just where the tick's highest ratio does not exceed it. -/
theorem positionTick_covers (backed : 0 < collateral)
    (placed : positionTick debt collateral = .ok (tick, raised)) :
    ∃ ratio, ratioAtTick tick = .ok ratio ∧
      debt * ratioScale * 1000000000000 ≤ (ratio + 1) * collateral * 1000000000001 ∧
      (tick < -16 ∨ 14319 < tick → Covers tick ratio) ∧
      (Covers tick ratio ↔ highestRatio tick ≤ ratio) := by
  obtain ⟨range, -⟩ := positionTick_le_highest backed placed
  obtain ⟨near, far⟩ := highestRatio_le range
  have covered (covers : highestRatio tick ≤ ratioOf tick) : Covers tick (ratioOf tick) := by
    intro debt collateral raised _ backed placed
    have next : highestRatio tick + 1 ≤ ratioOf tick + 1 := Int.add_le_add_right covers 1
    exact Int.le_of_lt (Int.lt_of_lt_of_le (positionTick_lt backed placed)
      (Int.mul_le_mul_of_nonneg_right next (Int.le_of_lt backed)))
  refine ⟨ratioOf tick, ratioAtTick_ok range, ?_, fun apart => covered (far apart), ?_, covered⟩
  · have next : (highestRatio tick + 1) * 1000000000000 ≤ (ratioOf tick + 1) * 1000000000001 := by
      omega
    calc debt * ratioScale * 1000000000000
        ≤ (highestRatio tick + 1) * collateral * 1000000000000 :=
          Int.mul_le_mul_of_nonneg_right (Int.le_of_lt (positionTick_lt backed placed)) (by decide)
      _ = (highestRatio tick + 1) * 1000000000000 * collateral := by ring
      _ ≤ (ratioOf tick + 1) * 1000000000001 * collateral :=
          Int.mul_le_mul_of_nonneg_right next (Int.le_of_lt backed)
      _ = (ratioOf tick + 1) * collateral * 1000000000001 := by ring
  · intro covers
    by_cases most : tick < maxTick
    · obtain ⟨positive, raised', halfway⟩ := positionTick_halfway backed placed most
      have scale : (0 : Int) < ratioScale := by decide
      have covered := covers _ _ _ (by omega) (by decide) halfway
      rw [← Int.mul_assoc] at covered
      have halves := Int.le_of_mul_le_mul_right covered scale
      omega
    · exact far (.inr (Int.lt_of_lt_of_le (by decide) (Int.not_lt.mp most)))

theorem positionTick_covers_half :
    0 < (2 * 10 ^ 18 : Int) ∧
      positionTick (10 ^ 18) (2 * 10 ^ 18) = .ok (-462, 1000666633494986967) ∧
      ∃ ratio, ratioAtTick (-462) = .ok ratio ∧
        10 ^ 18 * ratioScale * 1000000000000 ≤ (ratio + 1) * (2 * 10 ^ 18) * 1000000000001 ∧
        ((-462 : Int) < -16 ∨ (14319 : Int) < -462 → Covers (-462) ratio) ∧
        (Covers (-462) ratio ↔ highestRatio (-462) ≤ ratio) := by
  have placed : positionTick (10 ^ 18) (2 * 10 ^ 18) = .ok (-462, 1000666633494986967) := by
    decide +kernel
  exact ⟨by decide, placed, positionTick_covers (by decide) placed⟩

/-- The thresholds of the ticks and the ratios of the ticks come from tables that were rounded
apart: this position has a ratio that the ratio of its tick does not cover. -/
theorem positionTick_uncovered :
    ¬ ∀ debt collateral tick raised ratio : Int, 0 < debt → 0 < collateral →
      positionTick debt collateral = .ok (tick, raised) → ratioAtTick tick = .ok ratio →
        debt * ratioScale ≤ (ratio + 1) * collateral := by
  intro covers
  have placed : positionTick 283167630284453 281474976710656 = .ok (4, 283167630284480) := by
    decide +kernel
  have drawn : ratioAtTick 4 = .ok 283167630284443 := by decide +kernel
  have covered := covers _ _ _ _ _ (by decide) (by decide) placed drawn
  revert covered
  decide

end Position

end TickVault
