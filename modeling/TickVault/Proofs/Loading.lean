import TickVault.Proofs.Consistency
import TickVault.Proofs.Index
import TickVault.Proofs.Storage.Records

/-!
Which dumps load. A dump says by itself which bits it sets, which ticks it has debt on, what it owes
in total, which tick is the topmost, and how its branches are linked. One that is well formed loads
just when these agree, in whatever order and however often its segments come.
-/

namespace TickVault

namespace SegmentEntry

def bytes (entry : SegmentEntry) : List UInt8 :=
  match Hex.decode entry.bits with
  | .ok bytes => bytes
  | .error _ => []

structure Fits (entry : SegmentEntry) : Prop where
  array : 0 ≤ entry.array ∧ entry.array < 16
  map : 0 ≤ entry.map ∧ entry.map < 8
  hex : Hex.decode entry.bits = .ok entry.bytes
  size : entry.bytes.length = mapBytes

def covers (entry : SegmentEntry) (place : Nat) : Bool :=
  entry.array = place / 2048 ∧ entry.map = place % 2048 / 256

def bit (entry : SegmentEntry) (place : Nat) : Bool :=
  (entry.bytes.getD (place % 256 / 8) 0).toNat.testBit (place % 8)

theorem Fits.covers_iff {entry : SegmentEntry} (fits : entry.Fits) {place : Nat} :
    entry.covers place = true ↔ place / 256 = mapPlace entry.array.toNat entry.map.toNat := by
  have array := fits.array
  have map := fits.map
  simp only [covers, mapPlace, decide_eq_true_eq]
  omega

theorem bytes_encode (array map : Int) (bytes : List UInt8) :
    SegmentEntry.bytes ⟨array, map, Hex.encode bytes⟩ = bytes := by
  rw [SegmentEntry.bytes, Hex.decode_encode]

theorem fits_encode {array map : Int} {bytes : List UInt8} (inside : 0 ≤ array ∧ array < 16)
    (inside' : 0 ≤ map ∧ map < 8) (size : bytes.length = mapBytes) :
    Fits ⟨array, map, Hex.encode bytes⟩ := by
  have same := bytes_encode array map bytes
  exact ⟨inside, inside', by rw [same, Hex.decode_encode], by rw [same, size]⟩

theorem testBit_bytes (entry : SegmentEntry) (place : Nat) :
    (ofBytes entry.bytes).testBit (place % 256) = entry.bit place := by
  have lowest : place % 256 % 8 = place % 8 := by omega
  rw [testBit_ofBytes, lowest, bit]

end SegmentEntry

/-- The bit that segments give for a place: the last of those that cover it counts. -/
def segmentBit (entries : List SegmentEntry) (place : Nat) : Option Bool :=
  (entries.reverse.find? (·.covers place)).map (·.bit place)

theorem segmentBit_cons (entry : SegmentEntry) (entries : List SegmentEntry) (place : Nat) :
    segmentBit (entry :: entries) place = (segmentBit entries place).or
      (if entry.covers place then some (entry.bit place) else none) := by
  simp only [segmentBit, List.reverse_cons, List.find?_append, List.find?_singleton]
  cases entries.reverse.find? (·.covers place) with
  | some later => simp
  | none =>
    by_cases covers : entry.covers place
    · simp [covers]
    · simp [covers]

namespace Document

theorem openSegment_of_toSegment {document : Document} {entry : SegmentEntry}
    (read : document.toSegment = .ok entry) (fits : entry.Fits) (run : ByteRun) :
    openSegment run document = run.loadSegment entry.array entry.map entry.bytes := by
  simp only [toSegment, bind_eq_ok, pure_eq_ok, Except.ok.injEq] at read
  obtain ⟨array, foundArray, _, readArray, map, foundMap, _, readMap, bits, foundBits, text,
    readBits, rfl⟩ := read
  have hex := fits.hex
  simp only [openSegment, foundArray, foundMap, foundBits, readArray, readMap, readBits, ok_bind,
    hex, ensure_of fits.size]

/-- Segments opened one after the other give each place the bit that the segments give it, and leave
a place that none of them covers as it was. -/
theorem foldlM_openSegment {documents : List Document} {entries : List SegmentEntry}
    (read : documents.mapM toSegment = .ok entries) (fits : ∀ entry ∈ entries, entry.Fits)
    {run : ByteRun} (whole : run.size = bitmapBytes) :
    ∃ after, documents.foldlM openSegment run = .ok after ∧
      ∀ place, after.bits.testBit place =
        (segmentBit entries place).getD (run.bits.testBit place) := by
  induction documents generalizing entries run with
  | nil =>
    cases read
    exact ⟨run, rfl, fun _ => rfl⟩
  | cons document rest ih =>
    simp only [List.mapM_cons, bind_eq_ok, pure_eq_ok, Except.ok.injEq] at read
    obtain ⟨entry, here, entries, later, rfl⟩ := read
    have fits' := fits entry List.mem_cons_self
    obtain ⟨lowArray, highArray⟩ := fits'.array
    obtain ⟨lowMap, highMap⟩ := fits'.map
    have inside : entry.array.toNat < 16 := by omega
    have inside' : entry.map.toNat < 8 := by omega
    obtain ⟨middle, put, whole', bits⟩ := ByteRun.loadSegment_ok whole inside inside' fits'.size
    rw [Int.toNat_of_nonneg lowArray, Int.toNat_of_nonneg lowMap] at put
    obtain ⟨after, opened, bits'⟩ :=
      ih later (fun other member => fits other (List.mem_cons_of_mem _ member)) whole'
    refine ⟨after, ?_, fun place => ?_⟩
    · rw [List.foldlM_cons, openSegment_of_toSegment here fits', put]
      exact opened
    · rw [bits', segmentBit_cons, bits, entry.testBit_bytes]
      simp only [← fits'.covers_iff]
      cases segmentBit entries place with
      | some bit => rfl
      | none => by_cases covers : entry.covers place <;> simp [covers]

end Document

namespace Dump

variable {dump : Dump Int}

def marked (dump : Dump Int) : Set Int :=
  {tick | minTick ≤ tick ∧ tick ≤ maxTick ∧
    segmentBit dump.bitmap (TickBitmap.place tick) = some true}

/-- A dump whose parts can each be loaded: a valid config, segments that are maps, ticks that are in
range and recorded once, and at least one branch. -/
structure WellFormed (dump : Dump Int) : Prop where
  config : ∃ validated, dump.config.validate = .ok validated
  segments : ∀ entry ∈ dump.bitmap, entry.Fits
  distinct : (dump.ticks.map TickRecord.tick).Nodup
  range : ∀ record ∈ dump.ticks, minTick ≤ record.tick ∧ record.tick ≤ maxTick
  branches : dump.branches ≠ []

structure Consistent (dump : Dump Int) : Prop where
  bits : ∀ tick, minTick ≤ tick → tick ≤ maxTick →
    (tick ∈ dump.marked ↔ ∃ record ∈ dump.ticks, record.tick = tick ∧ 0 < record.rawDebt)
  debt : (dump.ticks.map TickRecord.rawDebt).sum = dump.state.totalBorrow
  topmost : match dump.state.topmost with
    | some top => IsGreatest dump.marked top
    | none => dump.marked = ∅
  chain : ∃ ids, (⟨dump.branches⟩ : BranchLedger Int).Path dump.state.currentBranch ids ∧ ids.Nodup

theorem holds_ofRun (dump : Dump Int) {run : ByteRun}
    (bits : ∀ place, run.bits.testBit place =
      (segmentBit dump.bitmap place).getD (TickBitmap.empty.run.bits.testBit place)) {tick : Int} :
    (TickBitmap.ofRun run).Holds tick ↔ tick ∈ dump.marked := by
  apply and_congr_right
  intro low
  apply and_congr_right
  intro high
  have inside : TickBitmap.place tick < bitmapBits :=
    TickBitmap.place_lt (ensure_eq_ok_iff.mpr ⟨low, high⟩)
  have clear : TickBitmap.empty.run.bits.testBit (TickBitmap.place tick) = false :=
    Nat.zero_testBit _
  change (run.bits % 1 <<< bitmapBits).testBit _ = true ↔ _
  rw [Nat.one_shiftLeft, Nat.testBit_mod_two_pow, bits, clear]
  cases segmentBit dump.bitmap (TickBitmap.place tick) <;> simp [inside]

theorem WellFormed.filed (formed : dump.WellFormed) (config : Config Int) (run : ByteRun) :
    (dump.vault config run).ledger.Filed where
  distinct := Table.distinct_empty.insertAll
  keyed tick record known := by
    obtain ⟨member, rfl⟩ := (Table.get?_insertAll_eq_some_iff formed.distinct).mp known
    exact ⟨rfl, formed.range record member⟩

/-- The condition on the topmost tick, stated for every tick as it is for a vault. -/
theorem topmost_iff :
    (match dump.state.topmost with
      | some top => IsGreatest dump.marked top
      | none => dump.marked = ∅) ↔
    (∀ top, dump.state.topmost = some top ↔ IsGreatest dump.marked top) ∧
      (dump.state.topmost = none ↔ dump.marked = ∅) := by
  cases dump.state.topmost with
  | some top =>
    constructor
    · intro greatest
      have marked : dump.marked ≠ ∅ := Set.nonempty_iff_ne_empty.mp ⟨top, greatest.1⟩
      refine ⟨fun other => ?_, iff_of_false (by simp) marked⟩
      rw [Option.some_inj]
      exact ⟨fun same => same ▸ greatest, fun greatest' => greatest.unique greatest'⟩
    · exact fun both => (both.1 top).mp rfl
  | none =>
    constructor
    · intro empty
      refine ⟨fun other => iff_of_false (by simp) fun greatest => ?_, iff_of_true rfl empty⟩
      exact Set.eq_empty_iff_forall_notMem.mp empty other greatest.1
    · exact fun both => both.2.mp rfl

theorem WellFormed.consistent_iff (formed : dump.WellFormed) {config : Config Int} {run : ByteRun}
    (holds : ∀ tick, (TickBitmap.ofRun run).Holds tick ↔ tick ∈ dump.marked) :
    (dump.vault config run).Consistent ↔ dump.Consistent := by
  have known (tick : Int) :
      (∃ record, (dump.vault config run).ledger.ticks.get? tick = some record ∧
        0 < record.rawDebt) ↔
          ∃ record ∈ dump.ticks, record.tick = tick ∧ 0 < record.rawDebt := by
    simp only [vault, Table.get?_insertAll_eq_some_iff formed.distinct, and_assoc]
  have values : (dump.vault config run).ledger.ticks.values = dump.ticks :=
    Table.values_insertAll formed.distinct
  have branches : (dump.vault config run).ledger.branches = ⟨dump.branches⟩ :=
    BranchLedger.ofList_of_ne_nil formed.branches
  have set (tick : Int) (low : minTick ≤ tick) (high : tick ≤ maxTick) :
      (dump.vault config run).ledger.bitmap.isSet tick = .ok true ↔ tick ∈ dump.marked := by
    rw [← holds, TickBitmap.isSet_eq_ok low high, Except.ok.injEq, decide_eq_true_iff]
    rfl
  have greatest (top : Int) : ((dump.vault config run).ledger.bitmap.Holds top ∧
      ∀ tick, (dump.vault config run).ledger.bitmap.Holds tick → tick ≤ top) ↔
        IsGreatest dump.marked top := by
    simp only [vault, holds]
    rfl
  have vacant : (∀ tick, ¬ (dump.vault config run).ledger.bitmap.Holds tick) ↔
      dump.marked = ∅ := by
    simp only [vault, holds, Set.eq_empty_iff_forall_notMem]
  constructor
  · intro consistent
    obtain ⟨ids, -, path, -, distinct⟩ := consistent.chain
    rw [branches] at path
    refine ⟨?_, values ▸ consistent.debt, topmost_iff.mpr ⟨?_, ?_⟩, ids, path, distinct⟩
    · intro tick low high
      rw [← set tick low high, consistent.bits tick low high, known]
    · exact fun top => (consistent.highest top).trans (greatest top)
    · exact consistent.cold.trans vacant
  · intro consistent
    obtain ⟨highest, cold⟩ := topmost_iff.mp consistent.topmost
    obtain ⟨ids, path, distinct⟩ := consistent.chain
    rw [← branches] at path
    refine ⟨?_, ?_, ?_, ?_, ids, ?_, path, path.getLast, distinct⟩
    · intro tick low high
      rw [set tick low high, consistent.bits tick low high, known]
    · rw [values]
      exact consistent.debt
    · exact fun top => (highest top).trans (greatest top).symm
    · exact cold.trans vacant.symm
    · exact BranchLedger.chain_eq_ok_iff.mpr ⟨path, distinct⟩

end Dump

section Load

variable {document : Document} {dump : Dump Int}

theorem written_tickD {name : String} {usual tick : Option Int}
    (read : document.tickD name usual = .ok tick) : Written tick := by
  simp only [Document.tickD, bind_eq_ok, pure_eq_ok, Except.ok.injEq] at read
  obtain ⟨written, -, rfl⟩ := read
  exact written_readTick written

theorem written_toState {state : VaultState Int} (read : document.toState = .ok state) :
    Written state.topmost := by
  simp only [Document.toState, bind_eq_ok, pure_eq_ok, Except.ok.injEq] at read
  obtain ⟨_, -, _, -, topmost, found, _, -, _, -, _, -, _, -, _, -, _, -, _, -, _, -, _, -, rfl⟩ :=
    read
  exact written_tickD found

theorem sections_of_toDump (read : document.toDump = .ok dump) :
    Written dump.state.topmost ∧ ∃ items, document.rows "bitmap" = .ok items ∧
      items.mapM Document.toSegment = .ok dump.bitmap := by
  simp only [Document.toDump, bind_eq_ok, pure_eq_ok, Except.ok.injEq] at read
  obtain ⟨_, -, _, -, config, -, _, -, state, readState, _, -, positions, -, _, -, ticks, -,
    _, -, branches, -, items, found, bitmap, readBitmap, rfl⟩ := read
  exact ⟨written_toState readState, items, found, readBitmap⟩

/-- A well-formed dump loads just when it is in order; else loading it fails. -/
theorem load_ok_iff (read : document.toDump = .ok dump) (formed : dump.WellFormed) :
    ((∃ vault : Vault Int, Vault.load document = .ok vault) ↔ dump.Consistent) ∧
      (¬ dump.Consistent →
        ∃ fault, (Vault.load document : Except Fault (Vault Int)) = .error fault) := by
  obtain ⟨validated, valid⟩ := formed.config
  obtain ⟨written, items, found, segments⟩ := sections_of_toDump read
  obtain ⟨run, opened, bits⟩ := Document.foldlM_openSegment segments formed.segments
    (show TickBitmap.empty.run.size = bitmapBytes from rfl)
  have loads := Vault.load_of_toDump read valid (by rw [found, ok_bind, opened])
  have checked := (Vault.check_eq_ok_iff (formed.filed validated run) written).trans
    (formed.consistent_iff fun _ => dump.holds_ofRun bits)
  rw [loads, ← checked]
  cases (dump.vault validated run).check with
  | ok passed => simp
  | error fault => simp

/-- A dump with debt on tick zero and a chain of three branches. There are two segments for the map
of tick zero, and only the last, with just the bit of tick zero, counts. -/
def twofold : Dump Int where
  config := .usual
  state := {
    (.fresh 1 : VaultState Int) with topmost := some 0, currentBranch := 2, totalBorrow := 5 }
  positions := []
  ticks := [{ (.fresh 0 : TickRecord Int) with rawDebt := 5 }, .fresh 3]
  branches := [.fresh 0 0, .fresh 1 0, .fresh 2 1]
  bitmap := [⟨7, 7, Hex.encode (List.replicate 32 255)⟩,
    ⟨7, 7, Hex.encode (List.replicate 31 0 ++ [128])⟩]

theorem twofold_wellFormed : twofold.WellFormed where
  config := ⟨.usual, by decide⟩
  segments := by
    intro entry member
    rcases List.mem_pair.mp member with rfl | rfl
    · exact SegmentEntry.fits_encode (by decide) (by decide) (by decide)
    · exact SegmentEntry.fits_encode (by decide) (by decide) (by decide)
  distinct := by decide
  range := by decide
  branches := by decide

theorem load_twofold :
    (Document.ofDump twofold).toDump = .ok twofold ∧ twofold.WellFormed ∧ twofold.Consistent ∧
      ∃ vault : Vault Int, Vault.load (Document.ofDump twofold) = .ok vault := by
  have read : (Document.ofDump twofold).toDump = .ok twofold := by
    apply Document.toDump_ofDump
    · simp [Written, twofold, coldTick]
    · simp [twofold]
    · simp [twofold, Branch.fresh_kept]
  have loads : ∃ vault : Vault Int, Vault.load (Document.ofDump twofold) = .ok vault := by
    have done : (Vault.load (Document.ofDump twofold) : Except Fault (Vault Int)).isOk = true := by
      decide +kernel
    cases loaded : (Vault.load (Document.ofDump twofold) : Except Fault (Vault Int)) with
    | ok vault => exact ⟨vault, rfl⟩
    | error fault =>
      rw [loaded] at done
      cases done
  exact ⟨read, twofold_wellFormed, (load_ok_iff read twofold_wellFormed).1.mp loads, loads⟩

end Load

end TickVault
