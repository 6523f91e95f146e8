import TickVault.Load
import TickVault.Proofs.Bitmap
import TickVault.Proofs.Ledger.Attempt

namespace TickVault

namespace Hex

theorem value?_digit {n : Nat} (small : n < 16) : value? (digit n) = some n := by
  revert n
  decide

theorem not_isBlank_digit {n : Nat} (small : n < 16) : isBlank (digit n) = false := by
  revert n
  decide

theorem decodeChars_encode (bytes : List UInt8) :
    decodeChars (bytes.flatMap fun byte =>
      [digit (byte.toNat / 16), digit (byte.toNat % 16)]) = some bytes := by
  induction bytes with
  | nil => rfl
  | cons byte rest ih =>
    have bounded := byte.toNat_lt
    have high : byte.toNat / 16 < 16 := by omega
    have low : byte.toNat % 16 < 16 := Nat.mod_lt _ (by decide)
    have whole : 16 * (byte.toNat / 16) + byte.toNat % 16 = byte.toNat := Nat.div_add_mod _ _
    simp only [List.flatMap_cons, List.cons_append, List.nil_append, decodeChars,
      not_isBlank_digit high, value?_digit high, value?_digit low, ih, Option.bind_eq_bind,
      Option.bind_some, whole, UInt8.ofNat_toNat, Bool.false_eq_true, if_false, Option.pure_def]

theorem decode_encode (bytes : List UInt8) : decode (encode bytes) = .ok bytes := by
  simp only [decode, encode, String.toList_ofList, decodeChars_encode]

end Hex

@[simp] theorem length_toBytes (count value : Nat) : (toBytes count value).length = count := by
  induction count generalizing value with
  | zero => rfl
  | succ count ih => simp [toBytes, ih]

theorem ofBytes_toBytes (count value : Nat) :
    ofBytes (toBytes count value) = value % 256 ^ count := by
  induction count generalizing value with
  | zero => simp [toBytes, ofBytes, Nat.mod_one]
  | succ count ih =>
    have lowest : (UInt8.ofNat value).toNat = value % 256 := UInt8.toNat_ofNat'
    rw [toBytes, ofBytes, ih, lowest, Nat.pow_succ', Nat.mod_mul]

theorem ofBytes_eq_zero {bytes : List UInt8} (blank : bytes.any (· != 0) = false) :
    ofBytes bytes = 0 := by
  induction bytes with
  | nil => rfl
  | cons byte rest ih =>
    simp only [List.any_cons, Bool.or_eq_false_iff, bne_eq_false_iff_eq] at blank
    simp [ofBytes, blank.1, ih blank.2]

def mapPlace (array index : Nat) : Nat := 8 * array + index

namespace TickBitmap

theorem length_map (bitmap : TickBitmap) (array index : Nat) :
    (bitmap.map array index).length = mapBytes := length_toBytes _ _

theorem testBit_map (bitmap : TickBitmap) (array index i : Nat) :
    (ofBytes (bitmap.map array index)).testBit i =
      (decide (i < 256) && bitmap.bits.testBit (256 * mapPlace array index + i)) := by
  have width : (256 : Nat) ^ mapBytes = 2 ^ 256 := by decide
  have place : 8 * (array * arrayBytes + index * mapBytes) = 256 * mapPlace array index := by
    simp only [arrayBytes, mapBytes, mapPlace]
    omega
  rw [TickBitmap.map, ofBytes_toBytes, width, Nat.testBit_mod_two_pow, Nat.testBit_shiftRight,
    place]

end TickBitmap

namespace ByteRun

theorem testBit_splice (run : ByteRun) (first : Nat) (bytes : List UInt8) (i : Nat) :
    (run.splice first (first + bytes.length) bytes).bits.testBit i =
      if 8 * first ≤ i ∧ i < 8 * (first + bytes.length) then
        (ofBytes bytes).testBit (i - 8 * first)
      else run.bits.testBit i := by
  have low : run.bits % 2 ^ (8 * first) < 2 ^ (8 * first) := Nat.mod_lt _ (Nat.two_pow_pos _)
  have middle : ofBytes bytes < 2 ^ (8 * bytes.length) := by
    simpa [Nat.one_shiftLeft] using ofBytes_lt bytes
  have bits : (run.splice first (first + bytes.length) bytes).bits =
      2 ^ (8 * first) * (2 ^ (8 * bytes.length) * (run.bits >>> (8 * (first + bytes.length))) +
        ofBytes bytes) + run.bits % 2 ^ (8 * first) := by
    simp only [splice, Nat.shiftLeft_eq, Nat.one_mul]
    ring
  rw [bits, Nat.testBit_two_pow_mul_add _ low, Nat.testBit_two_pow_mul_add _ middle,
    Nat.testBit_mod_two_pow, Nat.testBit_shiftRight]
  by_cases before : i < 8 * first
  · have outside : ¬ (8 * first ≤ i ∧ i < 8 * (first + bytes.length)) := by omega
    simp [before, outside]
  · by_cases here : i < 8 * (first + bytes.length)
    · have inside : i - 8 * first < 8 * bytes.length := by omega
      have held : 8 * first ≤ i ∧ i < 8 * (first + bytes.length) := by omega
      rw [if_neg before, if_pos inside, if_pos held]
    · have beyond : ¬ i - 8 * first < 8 * bytes.length := by omega
      have outside : ¬ (8 * first ≤ i ∧ i < 8 * (first + bytes.length)) := by omega
      have same : 8 * (first + bytes.length) + (i - 8 * first - 8 * bytes.length) = i := by omega
      rw [if_neg before, if_neg beyond, if_neg outside, same]

theorem loadSegment_ok {run : ByteRun} {array index : Nat} {bytes : List UInt8}
    (whole : run.size = bitmapBytes) (inside : array < 16) (inside' : index < 8)
    (size : bytes.length = mapBytes) :
    ∃ after, run.loadSegment array index bytes = .ok after ∧ after.size = bitmapBytes ∧
      ∀ i, after.bits.testBit i =
        if i / 256 = mapPlace array index then (ofBytes bytes).testBit (i % 256)
        else run.bits.testBit i := by
  have start : run.clamp (array * arrayBytes + index * mapBytes : Int) =
      32 * mapPlace array index := by
    simp only [clamp, whole, bitmapBytes, arrayBytes, mapBytes, mapPlace]
    push_cast
    split <;> omega
  have stop : run.clamp (array * arrayBytes + index * mapBytes + mapBytes : Int) =
      32 * mapPlace array index + 32 := by
    simp only [clamp, whole, bitmapBytes, arrayBytes, mapBytes, mapPlace]
    push_cast
    split <;> omega
  have last : max (32 * mapPlace array index) (32 * mapPlace array index + 32) =
      32 * mapPlace array index + bytes.length := by
    rw [size, mapBytes]
    omega
  refine ⟨run.splice (32 * mapPlace array index) (32 * mapPlace array index + bytes.length) bytes,
    ?_, ?_, ?_⟩
  · simp only [loadSegment, size, ne_eq, not_true_eq_false, if_false, start, stop]
    rw [last, size]
  · simp only [splice, whole, size, bitmapBytes, mapBytes, mapPlace]
    omega
  · intro i
    rw [testBit_splice, size]
    have place : 8 * (32 * mapPlace array index) ≤ i ∧
        i < 8 * (32 * mapPlace array index + mapBytes) ↔ i / 256 = mapPlace array index := by
      rw [mapBytes]
      omega
    by_cases here : i / 256 = mapPlace array index
    · have offset : i - 8 * (32 * mapPlace array index) = i % 256 := by omega
      rw [if_pos (place.mpr here), if_pos here, offset]
    · rw [if_neg (place.not.mpr here), if_neg here]

end ByteRun

def SegmentEntry.of (segment : Nat × Nat × List UInt8) : SegmentEntry :=
  ⟨segment.1, segment.2.1, Hex.encode segment.2.2⟩

theorem Document.openSegment_of (run : ByteRun) {segment : Nat × Nat × List UInt8}
    (size : segment.2.2.length = mapBytes) :
    openSegment run (ofSegment (.of segment)) =
      run.loadSegment segment.1 segment.2.1 segment.2.2 := by
  have decoded := Hex.decode_encode segment.2.2
  simp only [openSegment, ofSegment, SegmentEntry.of, field, findField, toText, toNumber, toNumber?,
    String.reduceEq, if_true, if_false, ok_bind, decoded, ensure_of size]

namespace TickBitmap

variable {bitmap : TickBitmap}

theorem ext_bits {other : TickBitmap} (same : bitmap.bits = other.bits) : bitmap = other := by
  cases bitmap
  cases other
  cases same
  rfl

/-- Maps of a bitmap, put into a run one after the other, give the run the bits at their places. -/
theorem open_maps (run : ByteRun) {segments : List (Nat × Nat × List UInt8)}
    (maps : ∀ segment ∈ segments, segment.1 < 16 ∧ segment.2.1 < 8 ∧
      segment.2.2 = bitmap.map segment.1 segment.2.1)
    (whole : run.size = bitmapBytes) :
    ∃ after, (segments.map fun segment => Document.ofSegment (.of segment)).foldlM
        Document.openSegment run = .ok after ∧ after.size = bitmapBytes ∧
      ∀ i, after.bits.testBit i =
        if ∃ segment ∈ segments, i / 256 = mapPlace segment.1 segment.2.1 then
          bitmap.bits.testBit i
        else run.bits.testBit i := by
  induction segments generalizing run with
  | nil => exact ⟨run, rfl, whole, fun i => by simp⟩
  | cons segment rest ih =>
    obtain ⟨inside, inside', map⟩ := maps segment List.mem_cons_self
    have size : segment.2.2.length = mapBytes := by rw [map, length_map]
    obtain ⟨middle, loaded, middle_whole, middle_bits⟩ :=
      ByteRun.loadSegment_ok whole inside inside' size
    obtain ⟨after, opened, after_whole, after_bits⟩ :=
      ih middle (fun other member => maps other (List.mem_cons_of_mem _ member)) middle_whole
    refine ⟨after, ?_, after_whole, ?_⟩
    · rw [List.map_cons, List.foldlM_cons, Document.openSegment_of run size, loaded]
      exact opened
    · intro i
      have held : (ofBytes segment.2.2).testBit (i % 256) =
          bitmap.bits.testBit (256 * mapPlace segment.1 segment.2.1 + i % 256) := by
        rw [map, testBit_map]
        simp [Nat.mod_lt i (show 0 < 256 by decide)]
      rw [after_bits, middle_bits, held]
      by_cases later : ∃ segment ∈ rest, i / 256 = mapPlace segment.1 segment.2.1
      · have found : ∃ other ∈ segment :: rest, i / 256 = mapPlace other.1 other.2.1 := by
          obtain ⟨other, member, here⟩ := later
          exact ⟨other, List.mem_cons_of_mem _ member, here⟩
        rw [if_pos later, if_pos found]
      · by_cases here : i / 256 = mapPlace segment.1 segment.2.1
        · have found : ∃ other ∈ segment :: rest, i / 256 = mapPlace other.1 other.2.1 :=
            ⟨segment, List.mem_cons_self, here⟩
          have same : 256 * mapPlace segment.1 segment.2.1 + i % 256 = i := by omega
          rw [if_neg later, if_pos here, if_pos found, same]
        · have missing : ¬ ∃ other ∈ segment :: rest, i / 256 = mapPlace other.1 other.2.1 := by
            rintro ⟨other, member, found⟩
            rcases List.mem_cons.mp member with rfl | behind
            · exact here found
            · exact later ⟨other, behind, found⟩
          rw [if_neg later, if_neg here, if_neg missing]

theorem mem_segments {segment : Nat × Nat × List UInt8} :
    segment ∈ bitmap.segments ↔ segment.1 < 16 ∧ segment.2.1 < 8 ∧
      segment.2.2 = bitmap.map segment.1 segment.2.1 ∧ segment.2.2.any (· != 0) = true := by
  obtain ⟨array, index, bytes⟩ := segment
  simp only [segments, List.mem_flatMap, List.mem_filter, List.mem_map, List.mem_range,
    Prod.mk.injEq]
  constructor
  · rintro ⟨_, inside, ⟨_, inside', rfl, rfl, rfl⟩, stored⟩
    exact ⟨inside, inside', rfl, stored⟩
  · rintro ⟨inside, inside', rfl, stored⟩
    exact ⟨array, inside, ⟨index, inside', rfl, rfl, rfl⟩, stored⟩

theorem segments_cover {i : Nat} (set : bitmap.bits.testBit i = true) :
    ∃ segment ∈ bitmap.segments, i / 256 = mapPlace segment.1 segment.2.1 := by
  have bounded : i < bitmapBits := by
    by_contra beyond
    have small := bitmap.bounded
    rw [Nat.one_shiftLeft] at small
    have clear := Nat.testBit_lt_two_pow
      (Nat.lt_of_lt_of_le small (Nat.pow_le_pow_right (by decide) (Nat.not_lt.mp beyond)))
    rw [clear] at set
    cases set
  simp only [bitmapBits, bitmapBytes] at bounded
  refine ⟨(i / 2048, i / 256 % 8, bitmap.map (i / 2048) (i / 256 % 8)), ?_, ?_⟩
  · refine mem_segments.mpr ⟨by dsimp only; omega, by dsimp only; omega, rfl, ?_⟩
    by_contra blank
    have zero := ofBytes_eq_zero (Bool.eq_false_iff.mpr blank)
    have held := testBit_map bitmap (i / 2048) (i / 256 % 8) (i % 256)
    have place : 256 * mapPlace (i / 2048) (i / 256 % 8) + i % 256 = i := by
      rw [mapPlace]
      omega
    rw [zero, place, set] at held
    simp [Nat.mod_lt i (show 0 < 256 by decide)] at held
  · dsimp only [mapPlace]
    omega

theorem open_segments (bitmap : TickBitmap) :
    ∃ after, (bitmap.segments.map fun segment => Document.ofSegment (.of segment)).foldlM
        Document.openSegment empty.run = .ok after ∧ ofRun after = bitmap := by
  have maps (segment : Nat × Nat × List UInt8) (member : segment ∈ bitmap.segments) :
      segment.1 < 16 ∧ segment.2.1 < 8 ∧ segment.2.2 = bitmap.map segment.1 segment.2.1 := by
    obtain ⟨inside, inside', map, -⟩ := mem_segments.mp member
    exact ⟨inside, inside', map⟩
  obtain ⟨after, opened, -, bits⟩ := open_maps empty.run maps rfl
  refine ⟨after, opened, ?_⟩
  have same : after.bits = bitmap.bits := by
    apply Nat.eq_of_testBit_eq
    intro i
    rw [bits]
    split
    · rfl
    · rename_i missing
      have clear : bitmap.bits.testBit i = false := by
        by_contra set
        exact missing (segments_cover (Bool.not_eq_false _ ▸ set))
      rw [clear]
      exact Nat.zero_testBit i
  apply ext_bits
  change after.bits % 1 <<< bitmapBits = bitmap.bits
  rw [same, Nat.mod_eq_of_lt bitmap.bounded]

end TickBitmap

end TickVault
