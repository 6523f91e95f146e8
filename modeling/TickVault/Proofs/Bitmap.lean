import TickVault.Tick.Bitmap
import Mathlib.Tactic

namespace TickVault

namespace TickBitmap

theorem testBit_sub_two_pow {bits i : Nat} (present : bits.testBit i = true) (j : Nat) :
    (bits - 2 ^ i).testBit j = (bits.testBit j && decide (j ≠ i)) := by
  have odd : bits / 2 ^ i % 2 = 1 := by
    simpa [Nat.testBit_eq_decide_div_mod_eq] using present
  have low : bits % 2 ^ i < 2 ^ i := Nat.mod_lt _ (Nat.two_pow_pos i)
  have split : bits = 2 ^ i * (bits / 2 ^ i) + bits % 2 ^ i := (Nat.div_add_mod bits (2 ^ i)).symm
  have high : bits / 2 ^ i = 2 * (bits / 2 ^ i / 2) + 1 := by omega
  have rest : bits - 2 ^ i = 2 ^ i * (2 * (bits / 2 ^ i / 2)) + bits % 2 ^ i := by
    have stretched : 2 ^ i * (bits / 2 ^ i) = 2 ^ i * (2 * (bits / 2 ^ i / 2)) + 2 ^ i := by
      calc
        2 ^ i * (bits / 2 ^ i) = 2 ^ i * (2 * (bits / 2 ^ i / 2) + 1) := congrArg (2 ^ i * ·) high
        _ = _ := Nat.mul_succ _ _
    omega
  rw [rest]
  conv_rhs => rw [split]
  rw [Nat.testBit_two_pow_mul_add _ low, Nat.testBit_two_pow_mul_add _ low]
  rcases Nat.lt_trichotomy j i with below | rfl | above
  · simp [below, Nat.ne_of_lt below]
  · simp
  · obtain ⟨k, rfl⟩ : ∃ k, j = i + (k + 1) := ⟨j - i - 1, by omega⟩
    simp [Nat.testBit_succ]

theorem place_inj {s t : Int} (low : minTick ≤ s) (low' : minTick ≤ t) :
    place s = place t ↔ s = t := by
  simp only [place]
  omega

theorem Holds.range {bitmap : TickBitmap} {tick : Int} (held : bitmap.Holds tick) :
    minTick ≤ tick ∧ tick ≤ maxTick :=
  ⟨held.1, held.2.1⟩

theorem not_holds_empty (tick : Int) : ¬ empty.Holds tick := by
  simp [Holds, empty]

theorem isSet_eq_ok {bitmap : TickBitmap} {tick : Int} (low : minTick ≤ tick)
    (high : tick ≤ maxTick) : bitmap.isSet tick = .ok (decide (bitmap.Holds tick)) := by
  have checked : checkTick tick = .ok () := ensure_eq_ok_iff.mpr ⟨low, high⟩
  simp [isSet, checked, Holds, low, high, pure, Except.pure]

theorem holds_set {bitmap bitmap' : TickBitmap} {tick : Int}
    (done : bitmap.set tick = .ok bitmap') (t : Int) :
    bitmap'.Holds t ↔ t = tick ∨ bitmap.Holds t := by
  unfold set at done
  split at done
  · cases done
  · rename_i checked
    have range := ensure_eq_ok_iff.mp checked
    cases done
    simp only [Holds, Nat.testBit_or, Nat.one_shiftLeft, Nat.testBit_two_pow, Bool.or_eq_true,
      decide_eq_true_eq]
    constructor
    · rintro ⟨low, high, held | same⟩
      · exact .inr ⟨low, high, held⟩
      · exact .inl ((place_inj range.1 low).mp same).symm
    · rintro (rfl | ⟨low, high, held⟩)
      · exact ⟨range.1, range.2, .inr rfl⟩
      · exact ⟨low, high, .inl held⟩

theorem set_range {bitmap bitmap' : TickBitmap} {tick : Int}
    (done : bitmap.set tick = .ok bitmap') : minTick ≤ tick ∧ tick ≤ maxTick :=
  ((holds_set done tick).mpr (.inl rfl)).range

theorem holds_clear {bitmap bitmap' : TickBitmap} {tick : Int}
    (done : bitmap.clear tick = .ok bitmap') (t : Int) :
    bitmap'.Holds t ↔ t ≠ tick ∧ bitmap.Holds t := by
  unfold clear at done
  cases checked : checkTick tick with
  | error fault => simp [checked, bind, Except.bind] at done
  | ok _ =>
    have range := ensure_eq_ok_iff.mp checked
    simp only [checked, ok_bind] at done
    split at done <;> cases done
    · rename_i present
      simp only [Holds, Nat.one_shiftLeft, testBit_sub_two_pow present, Bool.and_eq_true,
        decide_eq_true_eq]
      constructor
      · rintro ⟨low, high, held, other⟩
        exact ⟨fun same => other (congrArg place same), low, high, held⟩
      · rintro ⟨other, low, high, held⟩
        exact ⟨low, high, held, fun same => other ((place_inj low range.1).mp same)⟩
    · rename_i absent
      constructor
      · intro held
        exact ⟨fun same => absent (same ▸ held.2.2), held⟩
      · exact fun held => held.2

theorem set_ok (bitmap : TickBitmap) {tick : Int} (range : minTick ≤ tick ∧ tick ≤ maxTick) :
    ∃ bitmap', bitmap.set tick = .ok bitmap' := by
  have checked : checkTick tick = .ok () := ensure_eq_ok_iff.mpr range
  unfold set
  split
  · rename_i refused
    cases checked.symm.trans refused
  · exact ⟨_, rfl⟩

theorem clear_ok (bitmap : TickBitmap) {tick : Int} (range : minTick ≤ tick ∧ tick ≤ maxTick) :
    ∃ bitmap', bitmap.clear tick = .ok bitmap' := by
  have checked : checkTick tick = .ok () := ensure_eq_ok_iff.mpr range
  simp only [clear, checked, ok_bind]
  split
  · exact ⟨_, rfl⟩
  · exact ⟨_, rfl⟩

theorem testBit_window (bits : Nat) (top : Int) {t : Int} (low : minTick ≤ t)
    (start : minTick ≤ top) :
    (bits % (1 <<< (place top + 1))).testBit (place t) = true ↔
      t ≤ top ∧ bits.testBit (place t) = true := by
  simp only [Nat.one_shiftLeft, Nat.testBit_mod_two_pow, Bool.and_eq_true, decide_eq_true_eq, place]
  constructor <;> rintro ⟨bound, held⟩ <;> exact ⟨by omega, held⟩

theorem below?_none {bitmap : TickBitmap} {start : Int} (found : bitmap.below? start = none)
    {t : Int} (held : bitmap.Holds t) : start ≤ t := by
  simp only [below?] at found
  by_contra under
  have range := held.range
  split at found
  · omega
  · rename_i top
    split at found
    · rename_i vacant
      have present := (testBit_window bitmap.bits (min (start - 1) maxTick) range.1
        (by omega)).mpr ⟨by omega, held.2.2⟩
      simp [vacant] at present
    · cases found

theorem below?_some {bitmap : TickBitmap} {start tick : Int}
    (found : bitmap.below? start = some tick) :
    bitmap.Holds tick ∧ tick < start ∧ ∀ t, bitmap.Holds t → t < start → t ≤ tick := by
  simp only [below?] at found
  split at found
  · cases found
  · rename_i top
    split at found
    · cases found
    · rename_i occupied
      obtain rfl := Option.some.inj found
      have inside (t : Int) (low : minTick ≤ t) :=
        testBit_window bitmap.bits _ low (Int.not_lt.mp top)
      generalize bitmap.bits % 1 <<< (place (min (start - 1) maxTick) + 1) = window at *
      have lowest : minTick ≤ minTick + (window.log2 : Int) := by omega
      have present : window.testBit (place (minTick + window.log2)) = true := by
        have spot : place (minTick + window.log2) = window.log2 := by simp [place]
        rw [spot]
        exact Nat.testBit_log2 occupied
      obtain ⟨under, held⟩ := (inside _ lowest).mp present
      refine ⟨⟨lowest, by omega, held⟩, by omega, ?_⟩
      intro t held' under'
      have range := held'.range
      have member := (inside t range.1).mpr ⟨by omega, held'.2.2⟩
      have height := (Nat.le_log2 occupied).mpr (Nat.ge_two_pow_of_testBit member)
      simp only [place] at height
      omega

theorem below?_eq_some_iff {bitmap : TickBitmap} {start tick : Int} :
    bitmap.below? start = some tick ↔
      bitmap.Holds tick ∧ tick < start ∧ ∀ t, bitmap.Holds t → t < start → t ≤ tick := by
  constructor
  · exact below?_some
  · rintro ⟨held, under, greatest⟩
    cases found : bitmap.below? start with
    | none =>
      have bound := below?_none found held
      omega
    | some other =>
      obtain ⟨held', under', greatest'⟩ := below?_some found
      have same := Int.le_antisymm (greatest other held' under') (greatest' tick held under)
      exact congrArg some same

theorem below?_eq_none_iff {bitmap : TickBitmap} {start : Int} :
    bitmap.below? start = none ↔ ∀ t, bitmap.Holds t → start ≤ t := by
  constructor
  · exact fun found t held => below?_none found held
  · intro vacant
    cases found : bitmap.below? start with
    | none => rfl
    | some tick =>
      obtain ⟨held, under, -⟩ := below?_some found
      have bound := vacant tick held
      omega

theorem below?_congr {bitmap bitmap' : TickBitmap} {start start' : Int}
    (same : ∀ t, bitmap'.Holds t ∧ t < start' ↔ bitmap.Holds t ∧ t < start) :
    bitmap'.below? start' = bitmap.below? start := by
  cases found : bitmap.below? start with
  | none =>
    refine below?_eq_none_iff.mpr fun t held => ?_
    by_contra under
    have inside := (same t).mp ⟨held, by omega⟩
    have bound := below?_none found inside.1
    omega
  | some tick =>
    obtain ⟨held, under, greatest⟩ := below?_some found
    have inside := (same tick).mpr ⟨held, under⟩
    refine below?_eq_some_iff.mpr ⟨inside.1, inside.2, fun t held' under' => ?_⟩
    have member := (same t).mp ⟨held', under'⟩
    exact greatest t member.1 member.2

theorem le_highest {bitmap : TickBitmap} {top tick : Int} (highest : bitmap.highest? = some top)
    (held : bitmap.Holds tick) : tick ≤ top :=
  (below?_some highest).2.2 tick held (by have range := held.range; omega)

theorem holds_highest {bitmap : TickBitmap} {top : Int} (highest : bitmap.highest? = some top) :
    bitmap.Holds top :=
  (below?_some highest).1

theorem highest?_eq_some_iff {bitmap : TickBitmap} {top : Int} :
    bitmap.highest? = some top ↔ bitmap.Holds top ∧ ∀ t, bitmap.Holds t → t ≤ top := by
  constructor
  · exact fun highest => ⟨holds_highest highest, fun t held => le_highest highest held⟩
  · rintro ⟨held, greatest⟩
    have range := held.range
    exact below?_eq_some_iff.mpr ⟨held, by omega, fun t held' _ => greatest t held'⟩

theorem highest?_eq_none_iff {bitmap : TickBitmap} :
    bitmap.highest? = none ↔ ∀ t, ¬ bitmap.Holds t := by
  refine below?_eq_none_iff.trans ⟨fun vacant t held => ?_, fun vacant t held => ?_⟩
  · have bound := vacant t held
    have range := held.range
    omega
  · exact absurd held (vacant t)

theorem holds_of_mem_descend {bitmap : TickBitmap} {count : Nat} {start tick : Int}
    (member : tick ∈ bitmap.descend count start) : bitmap.Holds tick := by
  induction count generalizing start with
  | zero => cases member
  | succ count ih =>
    simp only [descend] at member
    split at member
    · cases member
    · rename_i first found
      rcases List.mem_cons.mp member with rfl | later
      · exact (below?_some found).1
      · exact ih later

theorem descend_sorted (bitmap : TickBitmap) (count : Nat) (start : Int) :
    (bitmap.descend count start).Pairwise (· > ·) ∧
      ∀ tick ∈ bitmap.descend count start, tick < start := by
  induction count generalizing start with
  | zero => exact ⟨List.Pairwise.nil, fun tick member => by cases member⟩
  | succ count ih =>
    simp only [descend]
    split
    · exact ⟨List.Pairwise.nil, fun tick member => by cases member⟩
    · rename_i first found
      obtain ⟨sorted, below⟩ := ih first
      have under := (below?_some found).2.1
      refine ⟨List.Pairwise.cons below sorted, fun tick member => ?_⟩
      rcases List.mem_cons.mp member with rfl | later
      · exact under
      · exact Int.lt_trans (below tick later) under

theorem holds_of_mem_ticks {bitmap : TickBitmap} {tick : Int} (member : tick ∈ bitmap.ticks) :
    bitmap.Holds tick :=
  holds_of_mem_descend member

theorem mem_descend {bitmap : TickBitmap} {count : Nat} {start tick : Int}
    (held : bitmap.Holds tick) (under : tick < start)
    (enough : min start (maxTick + 1) - minTick ≤ count) : tick ∈ bitmap.descend count start := by
  have range := held.range
  induction count generalizing start with
  | zero => omega
  | succ count ih =>
    simp only [descend]
    split
    · rename_i found
      have bound := below?_none found held
      omega
    · rename_i first found
      obtain ⟨held', under', greatest⟩ := below?_some found
      have range' := held'.range
      have bound := greatest tick held under
      by_cases here : tick = first
      · exact here ▸ List.mem_cons_self
      · exact List.mem_cons_of_mem _ (ih (by omega) (by omega))

theorem mem_ticksBelow_iff {bitmap : TickBitmap} {start tick : Int} :
    tick ∈ bitmap.ticksBelow start ↔ bitmap.Holds tick ∧ tick < start := by
  constructor
  · intro member
    exact ⟨holds_of_mem_descend member, (bitmap.descend_sorted tickCount start).2 tick member⟩
  · rintro ⟨held, under⟩
    apply mem_descend held under
    simp only [minTick, maxTick, tickCount]
    omega

theorem mem_takeWhile_above {ticks : List Int} (sorted : ticks.Pairwise (· > ·))
    {limit tick : Int} :
    tick ∈ ticks.takeWhile (fun t => decide (limit < t)) ↔ tick ∈ ticks ∧ limit < tick := by
  induction ticks with
  | nil => simp
  | cons first rest ih =>
    obtain ⟨below, sorted⟩ := List.pairwise_cons.mp sorted
    by_cases above : limit < first
    · simp only [List.takeWhile_cons, above, decide_true, if_true, List.mem_cons, ih sorted]
      constructor
      · rintro (rfl | ⟨member, higher⟩)
        · exact ⟨.inl rfl, above⟩
        · exact ⟨.inr member, higher⟩
      · rintro ⟨rfl | member, higher⟩
        · exact .inl rfl
        · exact .inr ⟨member, higher⟩
    · simp only [List.takeWhile_cons, above, decide_false, Bool.false_eq_true, if_false,
        List.not_mem_nil, false_iff]
      rintro ⟨member, higher⟩
      rcases List.mem_cons.mp member with rfl | member
      · exact above higher
      · have under := below tick member
        omega

end TickBitmap

end TickVault
