import TickVault.Proofs.Storage.Segments

/-!
The search over maps and arrays. Each of its steps looks at a window of the bits, and what the steps
below it find is the answer of the bits below that window. So the search finds what one look at all
bits below its start finds, unless the lower bound cuts it off.
-/

namespace TickVault

def topBit (n : Nat) : Option Nat := if n = 0 then none else some n.log2

theorem concat_lt {high low width wide : Nat} (most : high < 2 ^ wide) (small : low < 2 ^ width) :
    high * 2 ^ width + low < 2 ^ (wide + width) := by
  rw [Nat.pow_add]
  calc high * 2 ^ width + low < (high + 1) * 2 ^ width := by
        rw [Nat.succ_mul]
        omega
    _ ≤ _ := Nat.mul_le_mul_right _ most

theorem concat_ne_zero {high low width : Nat} (something : high ≠ 0) :
    high * 2 ^ width + low ≠ 0 := by
  have scaled := Nat.mul_pos (Nat.pos_of_ne_zero something) (Nat.two_pow_pos width)
  omega

theorem log2_concat {high low width : Nat} (something : high ≠ 0) (small : low < 2 ^ width) :
    (high * 2 ^ width + low).log2 = high.log2 + width := by
  obtain ⟨least, most⟩ := (Nat.log2_eq_iff something).mp rfl
  refine (Nat.log2_eq_iff (concat_ne_zero something)).mpr ⟨?_, ?_⟩
  · rw [Nat.pow_add]
    exact Nat.le_trans (Nat.mul_le_mul_right _ least) (Nat.le_add_right _ _)
  · rw [Nat.add_right_comm]
    exact concat_lt most small

theorem topBit_concat {low width : Nat} (high : Nat) (small : low < 2 ^ width) :
    topBit (high * 2 ^ width + low) = ((topBit high).map (· + width)).or (topBit low) := by
  by_cases nothing : high = 0
  · simp [nothing, topBit]
  · have something : high * 2 ^ width + low ≠ 0 := concat_ne_zero nothing
    simp [topBit, nothing, log2_concat nothing small]

theorem topBit_lt {n width bit : Nat} (small : n < 2 ^ width) (found : topBit n = some bit) :
    bit < width := by
  unfold topBit at found
  split at found
  · cases found
  · rename_i something
    cases found
    exact (Nat.log2_lt something).mpr small

theorem testBit_ofBytes (bytes : List UInt8) (i : Nat) :
    (ofBytes bytes).testBit i = (bytes.getD (i / 8) 0).toNat.testBit (i % 8) := by
  induction bytes generalizing i with
  | nil => simp [ofBytes]
  | cons byte rest ih =>
    have small : byte.toNat < 2 ^ 8 := byte.toNat_lt
    rw [ofBytes, Nat.add_comm, show 256 = 2 ^ 8 by rfl, Nat.testBit_two_pow_mul_add _ small]
    by_cases first : i < 8
    · rw [if_pos first, Nat.div_eq_of_lt first, Nat.mod_eq_of_lt first]
      rfl
    · obtain ⟨j, rfl⟩ : ∃ j, i = j + 8 := ⟨i - 8, by omega⟩
      rw [if_neg first, Nat.add_sub_cancel, ih, Nat.add_div_right _ (by decide),
        Nat.add_mod_right]
      rfl

namespace TickBitmap

variable {bitmap : TickBitmap} {lower : Option Int} {array map : Nat} {bytes : List UInt8}

theorem scanMap_eq (array map : Nat) (bytes : List UInt8) :
    scanMap array map bytes =
      (topBit (ofBytes bytes)).map fun bit : Nat => firstTickOfMap array map + (bit : Int) := by
  have scan (skipped : Nat) : ((bytes.zipIdx skipped).reverse.findSome? fun entry =>
      if entry.1 = 0 then none
      else some (firstTickOfMap array map + (entry.2 * 8 : Nat) + entry.1.toNat.log2)) =
        (topBit (ofBytes bytes)).map fun bit : Nat =>
          firstTickOfMap array map + (skipped * 8 : Nat) + (bit : Int) := by
    induction bytes generalizing skipped with
    | nil => rfl
    | cons byte rest ih =>
      have small : byte.toNat < 2 ^ 8 := byte.toNat_lt
      have concat : byte.toNat + 256 * ofBytes rest = ofBytes rest * 2 ^ 8 + byte.toNat := by omega
      rw [ofBytes, concat, topBit_concat _ small, List.zipIdx_cons, List.reverse_cons,
        List.findSome?_append, ih]
      cases topBit (ofBytes rest) with
      | some bit =>
        refine congrArg some ?_
        push_cast
        ring
      | none =>
        by_cases zero : byte = 0
        · simp [zero, topBit]
        · have something : byte.toNat ≠ 0 := fun nothing => zero (UInt8.toNat_inj.mp nothing)
          simp [zero, something, topBit]
  have whole := scan 0
  rw [Nat.zero_mul, Int.natCast_zero, Int.add_zero] at whole
  exact whole

theorem ofBytes_clearAbove {byte bit : Nat} (bytes : List UInt8) (inside : byte < bytes.length)
    (small : bit < 8) :
    ofBytes (clearAbove bytes byte bit) = ofBytes bytes % 2 ^ (8 * byte + bit + 1) := by
  apply Nat.eq_of_testBit_eq
  intro i
  rw [testBit_ofBytes, Nat.testBit_mod_two_pow, testBit_ofBytes, clearAbove,
    List.getD_eq_getElem?_getD, List.getD_eq_getElem?_getD, List.getElem?_mapIdx]
  have place := Nat.div_add_mod i 8
  rcases Nat.lt_trichotomy (i / 8) byte with below | here | above
  · have kept : i < 8 * byte + bit + 1 := by omega
    simp [below, kept]
  · have mask : (UInt8.ofNat (1 <<< (bit + 1) - 1)).toNat = 2 ^ (bit + 1) - 1 := by
      have narrow : 2 ^ (bit + 1) ≤ 2 ^ 8 := Nat.pow_le_pow_right (by decide) small
      rw [UInt8.toNat_ofNat', Nat.one_shiftLeft]
      omega
    have kept : i < 8 * byte + bit + 1 ↔ i % 8 < bit + 1 := by omega
    simp only [here, kept, inside, Nat.lt_irrefl, if_false, if_true, List.getElem?_eq_getElem,
      Option.map_some, Option.getD_some, UInt8.toNat_and, Nat.testBit_and, mask,
      Nat.testBit_two_pow_sub_one]
    exact Bool.and_comm ..
  · have gone : ¬ i < 8 * byte + bit + 1 := by omega
    simp only [gone, Nat.not_lt.mpr (Nat.le_of_lt above), Nat.ne_of_gt above, if_false,
      decide_false, Bool.false_and]
    cases bytes[i / 8]? <;> simp

def answer (lower : Option Int) (window : Nat) : Option Int :=
  (topBit window).bind fun bit : Nat => above? lower (minTick + (bit : Int))

theorem firstTickOfMap_eq (array map : Nat) :
    firstTickOfMap array map = minTick + (256 * mapPlace array map : Nat) := by
  simp only [firstTickOfMap, firstTickOfArray, mapPlace]
  push_cast
  ring

theorem answer_zero (lower : Option Int) : answer lower 0 = none := rfl

theorem answer_eq_none {window width : Nat} {bound : Int} (small : window < 2 ^ width)
    (low : minTick + (width : Int) ≤ bound + 1) : answer (some bound) window = none := by
  unfold answer
  cases found : topBit window with
  | none => rfl
  | some bit =>
    have inside := topBit_lt small found
    have cut : minTick + (bit : Int) ≤ bound := by omega
    simp [above?, cut]

theorem answer_concat {low width : Nat} (high : Nat) (small : low < 2 ^ width) :
    answer lower (high * 2 ^ width + low) =
      match topBit high with
      | some bit => above? lower (minTick + (width : Int) + (bit : Int))
      | none => answer lower low := by
  unfold answer
  rw [topBit_concat high small]
  cases topBit high with
  | none => rfl
  | some bit =>
    have same : minTick + ((bit + width : Nat) : Int) = minTick + (width : Int) + (bit : Int) := by
      push_cast
      ring
    simp only [Option.map_some, Option.some_or, Option.bind_some, same]

/-- One map, and the answer of the bits below it, give the answer of all of them. -/
theorem visitMap_getD {low : Nat} (whole : ofBytes bytes < 2 ^ 256)
    (small : low < 2 ^ (256 * mapPlace array map)) :
    (visitMap lower array map bytes).getD (answer lower low) =
      answer lower (ofBytes bytes * 2 ^ (256 * mapPlace array map) + low) := by
  unfold visitMap
  rw [scanMap_eq, firstTickOfMap_eq]
  split
  · rename_i cut
    cases lower with
    | none => cases cut
    | some bound =>
      have below : minTick + (256 * mapPlace array map : Nat) + 255 ≤ bound := by simpa using cut
      refine (answer_eq_none (concat_lt whole small) ?_).symm
      push_cast
      omega
  · rw [answer_concat _ small]
    cases topBit (ofBytes bytes) with
    | none => rfl
    | some bit => rfl

theorem getD_or {α : Type} (first second : Option α) (default : α) :
    (first.or second).getD default = first.getD (second.getD default) := by
  cases first <;> rfl

theorem ofBytes_map (bitmap : TickBitmap) (array map : Nat) :
    ofBytes (bitmap.map array map) = bitmap.bits / 2 ^ (256 * mapPlace array map) % 2 ^ 256 := by
  have place : 8 * (array * arrayBytes + map * mapBytes) = 256 * mapPlace array map := by
    simp only [arrayBytes, mapBytes, mapPlace]
    omega
  have width : (256 : Nat) ^ mapBytes = 2 ^ 256 := by decide
  rw [TickBitmap.map, ofBytes_toBytes, place, width, Nat.shiftRight_eq_div_pow]

theorem window_map (bitmap : TickBitmap) (array map : Nat) {width : Nat} (inside : width ≤ 256) :
    bitmap.bits % 2 ^ (256 * mapPlace array map + width) =
      ofBytes (bitmap.map array map) % 2 ^ width * 2 ^ (256 * mapPlace array map) +
        bitmap.bits % 2 ^ (256 * mapPlace array map) := by
  rw [ofBytes_map, Nat.mod_mod_of_dvd _ (Nat.pow_dvd_pow 2 inside), Nat.pow_add, Nat.mod_mul,
    Nat.mul_comm (2 ^ _) (_ % _), Nat.add_comm]

theorem searchMaps_getD (bitmap : TickBitmap) (lower : Option Int) (array map : Nat) :
    (bitmap.searchMaps lower array map).getD (answer lower (bitmap.bits % 2 ^ (2048 * array))) =
      answer lower (bitmap.bits % 2 ^ (256 * mapPlace array map)) := by
  induction map with
  | zero =>
    have start : 256 * mapPlace array 0 = 2048 * array := by
      rw [mapPlace]
      omega
    rw [start]
    rfl
  | succ map ih =>
    have small : bitmap.bits % 2 ^ (256 * mapPlace array map) < 2 ^ (256 * mapPlace array map) :=
      Nat.mod_lt _ (Nat.two_pow_pos _)
    have whole : ofBytes (bitmap.map array map) < 2 ^ 256 := by
      rw [ofBytes_map]
      exact Nat.mod_lt _ (Nat.two_pow_pos 256)
    have window := bitmap.window_map array map (Nat.le_refl 256)
    rw [Nat.mod_eq_of_lt whole] at window
    rw [searchMaps, getD_or, ih, visitMap_getD whole small, ← window]
    rfl

theorem window_array {array : Nat} (vacant : bitmap.arrayHasDebt array = false) :
    bitmap.bits % 2 ^ (2048 * (array + 1)) = bitmap.bits % 2 ^ (2048 * array) := by
  have place : 8 * (array * arrayBytes) = 2048 * array := by
    rw [arrayBytes]
    omega
  have width : 8 * arrayBytes = 2048 := rfl
  rw [arrayHasDebt, place, width, bne_eq_false_iff_eq, Nat.shiftRight_eq_div_pow,
    Nat.one_shiftLeft] at vacant
  rw [Nat.mul_succ, Nat.pow_add, Nat.mod_mul, vacant, Nat.mul_zero, Nat.add_zero]

theorem searchArrays_getD (bitmap : TickBitmap) (lower : Option Int) (array : Nat) :
    (bitmap.searchArrays lower array).getD none =
      answer lower (bitmap.bits % 2 ^ (2048 * array)) := by
  induction array with
  | zero => simp [searchArrays, Nat.mod_one, answer_zero]
  | succ array ih =>
    rw [searchArrays]
    split
    · have stop : 256 * mapPlace array 8 = 2048 * (array + 1) := by
        rw [mapPlace]
        omega
      rw [getD_or, ih, searchMaps_getD, stop]
    · rename_i vacant
      rw [ih, window_array (Bool.eq_false_iff.mpr vacant)]

/-- The bits up to the start, split where the map of the start begins: of that map they are the bits
that are not cleared. -/
theorem window_start (bitmap : TickBitmap) (offset : Nat) :
    let bytes := clearAbove (bitmap.map (offset / 2048) (offset % 2048 / 256)) (offset % 256 / 8)
      (offset % 8)
    let first := 256 * mapPlace (offset / 2048) (offset % 2048 / 256)
    ofBytes bytes < 2 ^ 256 ∧
      bitmap.bits % 2 ^ (offset + 1) = ofBytes bytes * 2 ^ first + bitmap.bits % 2 ^ first := by
  intro bytes first
  have inside : offset % 256 / 8 < (bitmap.map (offset / 2048) (offset % 2048 / 256)).length := by
    rw [length_map, mapBytes]
    omega
  have left : ofBytes bytes = _ := ofBytes_clearAbove _ inside (Nat.mod_lt offset (by decide))
  have width : 8 * (offset % 256 / 8) + offset % 8 + 1 ≤ 256 := by omega
  have split : offset + 1 = first + (8 * (offset % 256 / 8) + offset % 8 + 1) := by
    simp only [first, mapPlace]
    omega
  rw [left, split, bitmap.window_map _ _ width]
  refine ⟨?_, rfl⟩
  calc _ < 2 ^ (8 * (offset % 256 / 8) + offset % 8 + 1) := Nat.mod_lt _ (Nat.two_pow_pos _)
    _ ≤ 2 ^ 256 := Nat.pow_le_pow_right (by decide) width

/-- The search over maps and arrays finds what there is below its start, unless that is at or below
the lower bound. -/
theorem next?_eq (bitmap : TickBitmap) (start : Int) (lower : Option Int) :
    bitmap.next? start lower = (bitmap.below? start).bind (above? lower) := by
  by_cases outside : min (start - 1) maxTick < minTick
  · simp only [next?, below?, if_pos outside, Option.bind_none]
  simp only [next?, below?, if_neg outside]
  generalize place (min (start - 1) maxTick) = offset
  obtain ⟨whole, split⟩ := bitmap.window_start offset
  have low := Nat.mod_lt bitmap.bits
    (Nat.two_pow_pos (256 * mapPlace (offset / 2048) (offset % 2048 / 256)))
  calc _ = answer lower (bitmap.bits % 2 ^ (offset + 1)) := by
        rw [getD_or, getD_or, searchArrays_getD, searchMaps_getD, visitMap_getD whole low, split]
    _ = _ := by
        rw [Nat.one_shiftLeft, answer, topBit]
        split_ifs <;> rfl

end TickBitmap

end TickVault
