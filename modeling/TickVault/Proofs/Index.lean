import TickVault.Proofs.Search
import Mathlib.Order.Bounds.Basic

namespace TickVault

theorem toBytes_ofBytes (bytes : List UInt8) : toBytes bytes.length (ofBytes bytes) = bytes := by
  induction bytes with
  | nil => rfl
  | cons byte rest ih =>
    have small := byte.toNat_lt
    have higher : (byte.toNat + 256 * ofBytes rest) / 256 = ofBytes rest := by omega
    have lowest : UInt8.ofNat (byte.toNat + 256 * ofBytes rest) = byte := by
      apply UInt8.toNat_inj.mp
      rw [UInt8.toNat_ofNat']
      omega
    rw [List.length_cons, toBytes, ofBytes, higher, lowest, ih]

namespace TickBitmap

variable {bitmap : TickBitmap} {lower : Option Int} {array map : Nat}

def members (bitmap : TickBitmap) : Set Int :=
  {tick | bitmap.isSet tick = .ok true}

/-- Where a search looks: strictly below its start, and strictly above the lower bound. -/
def span (lower : Option Int) (start : Int) : Set Int :=
  {tick | tick < start ∧ ∀ bound ∈ lower, bound < tick}

theorem mem_members {tick : Int} : tick ∈ bitmap.members ↔ bitmap.Holds tick := by
  by_cases range : minTick ≤ tick ∧ tick ≤ maxTick
  · simp [members, isSet_eq_ok range.1 range.2]
  · constructor
    · intro member
      have checked : checkTick tick ≠ .ok () := fun checked => range (ensure_eq_ok_iff.mp checked)
      simp only [members, isSet, Set.mem_ofPred_eq, bind_eq_ok] at member
      obtain ⟨_, passed, -⟩ := member
      exact absurd passed checked
    · exact fun held => absurd held.range range

theorem above?_eq_some_iff {tick found : Int} :
    above? lower found = some tick ↔ found = tick ∧ ∀ bound ∈ lower, bound < found := by
  cases lower with
  | none => simp [above?]
  | some bound =>
    by_cases cut : found ≤ bound
    · simp [above?, cut]
    · simp [above?, cut, Int.not_le.mp cut]

theorem next?_eq_some_iff {start tick : Int} :
    bitmap.next? start lower = some tick ↔
      IsGreatest (bitmap.members ∩ span lower start) tick := by
  rw [next?_eq, Option.bind_eq_some_iff]
  constructor
  · rintro ⟨_, found, kept⟩
    obtain ⟨rfl, clear⟩ := above?_eq_some_iff.mp kept
    obtain ⟨held, under, greatest⟩ := below?_some found
    refine ⟨⟨mem_members.mpr held, under, clear⟩, ?_⟩
    rintro other ⟨member, before, -⟩
    exact greatest other (mem_members.mp member) before
  · rintro ⟨⟨member, under, clear⟩, greatest⟩
    refine ⟨tick, below?_eq_some_iff.mpr ⟨mem_members.mp member, under, ?_⟩,
      above?_eq_some_iff.mpr ⟨rfl, clear⟩⟩
    intro other held before
    by_contra higher
    have clear' : ∀ bound ∈ lower, bound < other := fun bound named =>
      Int.lt_trans (clear bound named) (Int.not_le.mp higher)
    exact higher (greatest ⟨mem_members.mpr held, before, clear'⟩)

theorem next?_eq_none_iff {start : Int} :
    bitmap.next? start lower = none ↔ bitmap.members ∩ span lower start = ∅ := by
  rw [Set.eq_empty_iff_forall_notMem]
  constructor
  · rintro nothing other ⟨member, before, clear⟩
    cases found : bitmap.below? start with
    | none =>
      have bound := below?_none found (mem_members.mp member)
      omega
    | some tick =>
      obtain ⟨-, -, greatest⟩ := below?_some found
      have clear' : ∀ bound ∈ lower, bound < tick := fun bound named =>
        Int.lt_of_lt_of_le (clear bound named) (greatest other (mem_members.mp member) before)
      rw [next?_eq, found, Option.bind_some, above?_eq_some_iff.mpr ⟨rfl, clear'⟩] at nothing
      cases nothing
  · intro nothing
    cases found : bitmap.next? start lower with
    | none => rfl
    | some tick => exact absurd (next?_eq_some_iff.mp found).1 (nothing tick)

/-- Without a lower bound the search finds what the vault finds in one look. -/
theorem next?_unbounded (bitmap : TickBitmap) (start : Int) :
    bitmap.next? start none = bitmap.below? start := by
  rw [next?_eq]
  cases bitmap.below? start <;> rfl

theorem members_set {after : TickBitmap} {tick : Int} (done : bitmap.set tick = .ok after) :
    after.members = insert tick bitmap.members := by
  ext other
  rw [mem_members, holds_set done, Set.mem_insert_iff, mem_members]

theorem members_clear {after : TickBitmap} {tick : Int} (done : bitmap.clear tick = .ok after) :
    after.members = bitmap.members \ {tick} := by
  ext other
  rw [mem_members, holds_clear done, Set.mem_sdiff, mem_members, Set.mem_singleton_iff, and_comm]

theorem testBit_set {after : TickBitmap} {tick : Int} (done : bitmap.set tick = .ok after) {i : Nat}
    (other : i ≠ place tick) : after.bits.testBit i = bitmap.bits.testBit i := by
  unfold set at done
  split at done
  · cases done
  · cases done
    simp [Nat.testBit_or, Nat.one_shiftLeft, Ne.symm other]

theorem testBit_clear {after : TickBitmap} {tick : Int} (done : bitmap.clear tick = .ok after)
    {i : Nat} (other : i ≠ place tick) : after.bits.testBit i = bitmap.bits.testBit i := by
  simp only [clear, bind_eq_ok] at done
  obtain ⟨_, -, done⟩ := done
  split at done <;> cases done
  · rename_i present
    simp [Nat.one_shiftLeft, testBit_sub_two_pow present, other]
  · rfl

theorem ofRun_run (bitmap : TickBitmap) : ofRun bitmap.run = bitmap :=
  ext_bits (Nat.mod_eq_of_lt bitmap.bounded)

theorem run_loadSegment (bitmap : TickBitmap) {segment : List UInt8} (inside : array < 16)
    (inside' : map < 8) (size : segment.length = mapBytes) :
    ∃ after : TickBitmap, bitmap.run.loadSegment array map segment = .ok after.run ∧
      bitmap.loadSegment array map segment = .ok after := by
  have sized : bitmap.run.size = bitmapBytes := rfl
  obtain ⟨run, put, whole, bits⟩ := ByteRun.loadSegment_ok sized inside inside' size
  have small : run.bits < 2 ^ bitmapBits := by
    apply Nat.lt_pow_two_of_testBit
    intro i beyond
    have elsewhere : i / 256 ≠ mapPlace array map := by
      rw [mapPlace]
      simp only [bitmapBits, bitmapBytes] at beyond
      omega
    have bounded := bitmap.bounded
    rw [Nat.one_shiftLeft] at bounded
    rw [bits, if_neg elsewhere]
    exact Nat.testBit_lt_two_pow
      (Nat.lt_of_lt_of_le bounded (Nat.pow_le_pow_right (by decide) beyond))
  have same : (ofRun run).run = run := by
    cases run
    cases whole
    simp only [ofRun, TickBitmap.run, Nat.one_shiftLeft, Nat.mod_eq_of_lt small]
    rfl
  refine ⟨ofRun run, same.symm ▸ put, ?_⟩
  rw [loadSegment, put]
  rfl

theorem load_maps {segments : List (Nat × Nat × List UInt8)} {run : ByteRun}
    (maps : ∀ segment ∈ segments, segment.1 < 16 ∧ segment.2.1 < 8 ∧
      segment.2.2.length = mapBytes)
    (opened : (segments.map fun segment => Document.ofSegment (.of segment)).foldlM
      Document.openSegment bitmap.run = .ok run) :
    segments.foldlM (fun (loaded : TickBitmap) segment =>
      loaded.loadSegment segment.1 segment.2.1 segment.2.2) bitmap = .ok (ofRun run) := by
  induction segments generalizing bitmap with
  | nil =>
    cases opened
    rw [ofRun_run]
    rfl
  | cons segment rest ih =>
    obtain ⟨inside, inside', size⟩ := maps segment List.mem_cons_self
    obtain ⟨middle, put, loaded⟩ := bitmap.run_loadSegment inside inside' size
    rw [List.map_cons, List.foldlM_cons, Document.openSegment_of _ size, put] at opened
    rw [List.foldlM_cons, loaded]
    exact ih (fun other member => maps other (List.mem_cons_of_mem _ member)) opened

theorem load_segments (bitmap : TickBitmap) :
    bitmap.segments.foldlM (fun (loaded : TickBitmap) segment =>
      loaded.loadSegment segment.1 segment.2.1 segment.2.2) empty = .ok bitmap := by
  obtain ⟨run, opened, same⟩ := bitmap.open_segments
  have loaded := load_maps (fun segment member => ?_) opened
  · rw [same] at loaded
    exact loaded
  · obtain ⟨inside, inside', map, -⟩ := mem_segments.mp member
    exact ⟨inside, inside', map ▸ length_map ..⟩

structure Indexes (bitmap : TickBitmap) : Prop where
  set : ∀ tick, minTick ≤ tick → tick ≤ maxTick →
    ∃ after, bitmap.set tick = .ok after ∧
    after.members = insert tick bitmap.members ∧
    ∀ i, i ≠ place tick → after.bits.testBit i = bitmap.bits.testBit i
  clear : ∀ tick, minTick ≤ tick → tick ≤ maxTick →
    ∃ after, bitmap.clear tick = .ok after ∧
    after.members = bitmap.members \ {tick} ∧
    ∀ i, i ≠ place tick → after.bits.testBit i = bitmap.bits.testBit i
  found : ∀ start lower tick, bitmap.next? start lower = some tick ↔
    IsGreatest (bitmap.members ∩ span lower start) tick
  missed : ∀ start lower, bitmap.next? start lower = none ↔
    bitmap.members ∩ span lower start = ∅
  direct : ∀ start, bitmap.below? start = bitmap.next? start none
  sorted : bitmap.ticks.Pairwise (· > ·)
  ticks : ∀ tick, tick ∈ bitmap.ticks ↔ tick ∈ bitmap.members
  segments : bitmap.segments.foldlM (fun (loaded : TickBitmap) segment =>
    loaded.loadSegment segment.1 segment.2.1 segment.2.2) empty = .ok bitmap

theorem indexes (bitmap : TickBitmap) : bitmap.Indexes where
  set tick low high := by
    obtain ⟨after, done⟩ := bitmap.set_ok ⟨low, high⟩
    exact ⟨after, done, members_set done, fun _ other => testBit_set done other⟩
  clear tick low high := by
    obtain ⟨after, done⟩ := bitmap.clear_ok ⟨low, high⟩
    exact ⟨after, done, members_clear done, fun _ other => testBit_clear done other⟩
  found _ _ _ := next?_eq_some_iff
  missed _ _ := next?_eq_none_iff
  direct start := (bitmap.next?_unbounded start).symm
  sorted := (bitmap.descend_sorted tickCount (maxTick + 1)).1
  ticks tick := by
    rw [mem_members, TickBitmap.ticks, mem_ticksBelow_iff]
    constructor
    · exact fun inside => inside.1
    · intro held
      have range := held.range
      exact ⟨held, by omega⟩
  segments := bitmap.load_segments

/-- Any 4096 bytes are a bitmap that reads back as those bytes, and an index of the ticks whose bits
are set in them. -/
theorem ofBytes_indexes {bytes : List UInt8} (size : bytes.length = bitmapBytes) :
    ∃ bitmap, ofBytes? bytes = .ok bitmap ∧ toBytes bitmapBytes bitmap.bits = bytes ∧
      (∀ tick, minTick ≤ tick → tick ≤ maxTick → (tick ∈ bitmap.members ↔
        (bytes.getD (place tick / 8) 0).toNat.testBit (place tick % 8) = true)) ∧
      bitmap.Indexes := by
  refine ⟨_, dif_pos size, ?_, ?_, indexes _⟩
  · rw [← size]
    exact toBytes_ofBytes bytes
  · intro tick low high
    rw [mem_members, ← testBit_ofBytes]
    exact ⟨fun held => held.2.2, fun set => ⟨low, high, set⟩⟩

/-- In a bitmap of ones only the lower bound stops a search. -/
theorem ones_indexes :
    (List.replicate bitmapBytes (255 : UInt8)).length = bitmapBytes ∧
      ∃ bitmap, ofBytes? (List.replicate bitmapBytes 255) = .ok bitmap ∧ bitmap.Indexes ∧
        bitmap.next? 0 (some (-2)) = some (-1) ∧ bitmap.next? 0 (some (-1)) = none := by
  have size : (List.replicate bitmapBytes (255 : UInt8)).length = bitmapBytes :=
    List.length_replicate
  obtain ⟨bitmap, read, -, bits, indexes⟩ := ofBytes_indexes size
  have member : -1 ∈ bitmap.members := by
    rw [bits (-1) (by decide) (by decide), List.getD_eq_getElem?_getD, List.getElem?_replicate]
    decide
  refine ⟨size, bitmap, read, indexes, ?_, ?_⟩
  · refine (indexes.found 0 (some (-2)) (-1)).mpr ⟨⟨member, ?_, ?_⟩, ?_⟩
    · decide
    · intro bound named
      cases named
      decide
    · rintro other ⟨-, before, -⟩
      exact Int.le_sub_one_of_lt before
  · refine (indexes.missed 0 (some (-1))).mpr (Set.eq_empty_of_forall_notMem ?_)
    rintro other ⟨-, before, clear⟩
    have higher : -1 < other := clear (-1) rfl
    change other < 0 at before
    omega

end TickBitmap

end TickVault
