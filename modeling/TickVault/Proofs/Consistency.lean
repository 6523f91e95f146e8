import TickVault.Proofs.Run

namespace TickVault

theorem then_eq_ok_iff {α : Type} {check : Except Fault Unit} {next : Except Fault α} {a : α} :
    (do check; next) = .ok a ↔ check = .ok () ∧ next = .ok a := by
  rw [bind_eq_ok]
  exact ⟨fun ⟨_, passed, rest⟩ => ⟨passed, rest⟩, fun ⟨passed, rest⟩ => ⟨(), passed, rest⟩⟩

theorem forM_eq_ok_iff {α : Type} {check : α → Except Fault Unit} {items : List α} :
    items.forM check = .ok () ↔ ∀ item ∈ items, check item = .ok () := by
  induction items with
  | nil => exact iff_of_true rfl fun _ member => absurd member List.not_mem_nil
  | cons item rest ih =>
    rw [List.forall_mem_cons, ← ih]
    exact then_eq_ok_iff

theorem sumOf_int (values : List Int) : sumOf values = .ok values.sum := by
  induction values with
  | nil => rfl
  | cons value rest ih => simp [sumOf, ih, pure, Except.pure]

theorem writeTick_eq_iff {tick other : Option Int} (kept : tick ≠ some coldTick)
    (kept' : other ≠ some coldTick) : writeTick tick = writeTick other ↔ tick = other := by
  cases tick <;> cases other <;> simp_all [writeTick, eq_comm]

theorem TickBitmap.highest?_ne_cold {bitmap : TickBitmap} : bitmap.highest? ≠ some coldTick := by
  intro cold
  exact absurd (holds_highest cold).range.1 (by decide)

namespace Ledger

variable {ledger : Ledger Int}

theorem exists_record_iff (ledger : Ledger Int) (tick : Int) :
    (∃ record, ledger.ticks.get? tick = some record ∧ 0 < record.rawDebt) ↔
      0 < (ledger.tickAt tick).rawDebt := by
  constructor
  · rintro ⟨record, known, occupied⟩
    rw [tickAt_of_get? known]
    exact occupied
  · intro occupied
    cases known : ledger.ticks.get? tick with
    | none =>
      have idle : (ledger.tickAt tick).rawDebt = 0 := by
        simp [tickAt, known, TickRecord.fresh]
      omega
    | some record =>
      rw [tickAt_of_get? known] at occupied
      exact ⟨record, rfl, occupied⟩

theorem Sound.isSet (sound : ledger.Sound) {tick : Int} (low : minTick ≤ tick)
    (high : tick ≤ maxTick) :
    ledger.bitmap.isSet tick = .ok true ↔
      ∃ record, ledger.ticks.get? tick = some record ∧ 0 < record.rawDebt := by
  rw [TickBitmap.isSet_eq_ok low high, exists_record_iff, ← sound.bits]
  simp

structure Filed (ledger : Ledger Int) : Prop where
  distinct : ledger.ticks.Distinct
  keyed : ∀ tick record, ledger.ticks.get? tick = some record →
    record.tick = tick ∧ minTick ≤ tick ∧ tick ≤ maxTick

theorem Sound.filed (sound : ledger.Sound) : ledger.Filed :=
  ⟨sound.distinct, sound.keyed⟩

theorem Filed.checkRecord_eq_ok_iff (filed : ledger.Filed) {tick : Int} {record : TickRecord Int}
    (known : ledger.ticks.get? tick = some record) :
    ledger.checkRecord record = .ok () ↔ (ledger.bitmap.Holds tick ↔ 0 < record.rawDebt) := by
  obtain ⟨rfl, low, high⟩ := filed.keyed tick record known
  simp only [checkRecord, toInt_int, ok_bind, TickRecord.hasDebt_int,
    TickBitmap.isSet_eq_ok low high, ensure_eq_ok_iff, decide_eq_decide]

theorem checkBit_eq_ok_iff {tick : Int} :
    ledger.checkBit tick = .ok () ↔
      ∃ record, ledger.ticks.get? tick = some record ∧ 0 < record.rawDebt := by
  simp only [checkBit, ofInt_int, peek?_int, ok_bind]
  cases ledger.ticks.get? tick with
  | none => simp
  | some record => simp [TickRecord.hasDebt_int, ensure_eq_ok_iff]

/-- The bits agree with the records: whichever of the two the check goes through, it compares what
the other says of the same tick. -/
theorem Filed.checkSync_eq_ok_iff (filed : ledger.Filed) :
    ledger.checkSync = .ok () ↔ ∀ tick, ledger.bitmap.Holds tick ↔
      ∃ record, ledger.ticks.get? tick = some record ∧ 0 < record.rawDebt := by
  have parts : ledger.checkSync = .ok () ↔
      (∀ record ∈ ledger.ticks.values, ledger.checkRecord record = .ok ()) ∧
        ∀ tick ∈ ledger.bitmap.ticks, ledger.checkBit tick = .ok () := by
    simp only [checkSync, then_eq_ok_iff, forM_eq_ok_iff]
  rw [parts]
  constructor
  · rintro ⟨records, bits⟩ tick
    constructor
    · intro held
      have member : tick ∈ ledger.bitmap.ticks := by
        have range := held.range
        exact TickBitmap.mem_ticksBelow_iff.mpr ⟨held, by omega⟩
      exact checkBit_eq_ok_iff.mp (bits tick member)
    · rintro ⟨record, known, occupied⟩
      have member := (Table.mem_values_iff filed.distinct).mpr ⟨tick, known⟩
      exact ((filed.checkRecord_eq_ok_iff known).mp (records record member)).mpr occupied
  · intro agree
    constructor
    · intro record member
      obtain ⟨tick, known⟩ := (Table.mem_values_iff filed.distinct).mp member
      refine (filed.checkRecord_eq_ok_iff known).mpr ((agree tick).trans ?_)
      constructor
      · rintro ⟨other, known', occupied⟩
        cases known.symm.trans known'
        exact occupied
      · exact fun occupied => ⟨record, known, occupied⟩
    · intro tick member
      exact checkBit_eq_ok_iff.mpr ((agree tick).mp (TickBitmap.holds_of_mem_ticks member))

end Ledger

namespace BranchLedger

theorem Path.getLast {ledger : BranchLedger Int} {id : Int} {ids : List Int}
    (path : ledger.Path id ids) : ids.getLast? = some 0 := by
  induction path with
  | root => rfl
  | link known other tail ih =>
    rw [List.getLast?_cons, ih]
    rfl

end BranchLedger

namespace Vault

/-- The four places where the debt of a vault is written down say the same. -/
structure Consistent (vault : Vault Int) : Prop where
  bits : ∀ tick, minTick ≤ tick → tick ≤ maxTick →
    (vault.ledger.bitmap.isSet tick = .ok true ↔
      ∃ record, vault.ledger.ticks.get? tick = some record ∧ 0 < record.rawDebt)
  debt : (vault.ledger.ticks.values.map TickRecord.rawDebt).sum = vault.state.totalBorrow
  highest : ∀ top, vault.state.topmost = some top ↔
    vault.ledger.bitmap.Holds top ∧ ∀ tick, vault.ledger.bitmap.Holds tick → tick ≤ top
  cold : vault.state.topmost = none ↔ ∀ tick, ¬ vault.ledger.bitmap.Holds tick
  chain : ∃ ids, vault.ledger.branches.chain vault.state.currentBranch = .ok ids ∧
    vault.ledger.branches.Path vault.state.currentBranch ids ∧ ids.getLast? = some 0 ∧ ids.Nodup

variable {vault : Vault Int}

theorem Balanced.consistent (balanced : vault.Balanced) : vault.Consistent where
  bits tick low high := balanced.ledger.isSet low high
  debt := balanced.debt
  highest top := by
    rw [balanced.topmost]
    exact TickBitmap.highest?_eq_some_iff
  cold := by
    rw [balanced.topmost]
    exact TickBitmap.highest?_eq_none_iff
  chain := by
    have current := balanced.current
    obtain ⟨ids, found, path, distinct, -⟩ :=
      balanced.ledger.rooted.chain_ok current.1 current.2
    exact ⟨ids, found, path, path.getLast, distinct⟩

/-- A vault passes the check just when it is in order, where its records are filed under their own
ticks and a missing topmost tick is told from a tick. -/
theorem check_eq_ok_iff (filed : vault.ledger.Filed)
    (written : vault.state.topmost ≠ some coldTick) :
    vault.check = .ok () ↔ vault.Consistent := by
  have total : vault.ledger.totalRawDebt =
      .ok (vault.ledger.ticks.values.map TickRecord.rawDebt).sum := sumOf_int _
  have parts : vault.check = .ok () ↔ vault.ledger.checkSync = .ok () ∧
      (vault.ledger.ticks.values.map TickRecord.rawDebt).sum = vault.state.totalBorrow ∧
      vault.ledger.bitmap.highest? = vault.state.topmost ∧
      ∃ ids, vault.ledger.branches.chain vault.state.currentBranch = .ok ids := by
    simp only [check, then_eq_ok_iff, total, ok_bind, ensure_eq_ok_iff, same_int, ofInt_int,
      decide_eq_true_eq, writeTick_eq_iff TickBitmap.highest?_ne_cold written]
    simp only [bind_eq_ok, pure_eq_ok, and_true]
  rw [parts, filed.checkSync_eq_ok_iff]
  constructor
  · rintro ⟨bits, debt, highest, ids, chained⟩
    obtain ⟨path, distinct⟩ := BranchLedger.chain_eq_ok_iff.mp chained
    refine ⟨?_, debt, ?_, ?_, ids, chained, path, path.getLast, distinct⟩
    · intro tick low high
      simp [TickBitmap.isSet_eq_ok low high, bits]
    · intro top
      rw [← highest]
      exact TickBitmap.highest?_eq_some_iff
    · rw [← highest]
      exact TickBitmap.highest?_eq_none_iff
  · intro consistent
    obtain ⟨ids, chained, -⟩ := consistent.chain
    refine ⟨fun tick => ?_, consistent.debt, ?_, ids, chained⟩
    · by_cases range : minTick ≤ tick ∧ tick ≤ maxTick
      · rw [← consistent.bits tick range.1 range.2, TickBitmap.isSet_eq_ok range.1 range.2]
        simp
      · refine iff_of_false (fun held => range held.range) ?_
        rintro ⟨record, known, -⟩
        exact range (filed.keyed tick record known).2
    · cases topmost : vault.state.topmost with
      | none => exact TickBitmap.highest?_eq_none_iff.mpr (consistent.cold.mp topmost)
      | some top => exact TickBitmap.highest?_eq_some_iff.mpr ((consistent.highest top).mp topmost)

theorem Balanced.check_ok (balanced : vault.Balanced) : vault.check = .ok () := by
  apply (check_eq_ok_iff balanced.ledger.filed ?_).mpr balanced.consistent
  rw [balanced.topmost]
  exact TickBitmap.highest?_ne_cold

end Vault

namespace Engine

/-- Every vault that a run can leave behind passes its check. -/
theorem run_check_ok {start : Engine Int} (new : start.New) (calls : List Call) :
    (start.run calls).vault.check = .ok () ∧ (start.run calls).vault.Consistent := by
  have orderly := (new.run_orderly calls).vault
  constructor
  · exact orderly.toBalanced.check_ok
  · exact orderly.toBalanced.consistent

theorem exhaustion_check_ok :
    (standard.run exhaustion).vault.check = .ok () ∧
      (standard.run exhaustion).vault.Consistent :=
  run_check_ok standard_new exhaustion

end Engine

end TickVault
