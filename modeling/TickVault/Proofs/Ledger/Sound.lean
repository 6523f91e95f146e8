import TickVault.Proofs.Bitmap
import TickVault.Proofs.Branches
import TickVault.Proofs.Ledger.Steps

namespace TickVault

namespace Ledger

structure Sound (ledger : Ledger Int) : Prop where
  distinct : ledger.ticks.Distinct
  keyed : ∀ (tick : Int) (record : TickRecord Int), ledger.ticks.get? tick = some record →
    record.tick = tick ∧ minTick ≤ tick ∧ tick ≤ maxTick
  debt : ∀ tick, 0 ≤ (ledger.tickAt tick).rawDebt
  bits : ∀ tick, ledger.bitmap.Holds tick ↔ 0 < (ledger.tickAt tick).rawDebt
  rooted : ledger.branches.Rooted

structure Moved (before after : Ledger Int) (tick : Int) (record : TickRecord Int) : Prop where
  ticks : after.ticks = before.ticks.insert tick record
  bits : ∀ t, after.bitmap.Holds t ↔ if t = tick then 0 < record.rawDebt else before.bitmap.Holds t
  links : after.branches.links = before.branches.links

variable {before after last : Ledger Int} {tick : Int} {record record' : TickRecord Int}

theorem tickAt_insert (ticks : after.ticks = before.ticks.insert tick record) (t : Int) :
    after.tickAt t = if t = tick then record else before.tickAt t := by
  simp only [Ledger.tickAt, ticks, Table.get?_insert, eq_comm (a := t)]
  split <;> rfl

theorem tickAt_congr (ticks : after.ticks = before.ticks) (t : Int) :
    after.tickAt t = before.tickAt t := by
  simp only [Ledger.tickAt, ticks]

theorem total_insert (ticks : after.ticks = before.ticks.insert tick record)
    (weight : TickRecord Int → Int) (idle : weight (.fresh tick) = 0) :
    after.ticks.total weight =
      before.ticks.total weight - weight (before.tickAt tick) + weight record := by
  rw [ticks, Table.total_insert]
  simp only [Ledger.tickAt]
  cases before.ticks.get? tick <;> simp [idle]

def debt (ledger : Ledger Int) : Int :=
  ledger.ticks.total TickRecord.rawDebt

def collateral (ledger : Ledger Int) : Int :=
  ledger.ticks.total TickRecord.rawCollateral

theorem Moved.tickAt (moved : Moved before after tick record) (t : Int) :
    after.tickAt t = if t = tick then record else before.tickAt t :=
  tickAt_insert moved.ticks t

theorem Moved.trans (first : Moved before after tick record)
    (second : Moved after last tick record') : Moved before last tick record' where
  ticks := by rw [second.ticks, first.ticks, Table.insert_insert]
  bits t := by
    rw [second.bits, first.bits]
    split <;> rfl
  links := second.links.trans first.links

theorem Sound.named (sound : before.Sound) (tick : Int) : (before.tickAt tick).tick = tick := by
  cases known : before.ticks.get? tick with
  | none => simp [Ledger.tickAt, known, TickRecord.fresh]
  | some record => rw [tickAt_of_get? known, (sound.keyed tick record known).1]

theorem Sound.range (sound : before.Sound) (occupied : 0 < (before.tickAt tick).rawDebt) :
    minTick ≤ tick ∧ tick ≤ maxTick :=
  ((sound.bits tick).mpr occupied).range

theorem Sound.moved (sound : before.Sound) (moved : Moved before after tick record)
    (named : record.tick = tick) (range : minTick ≤ tick ∧ tick ≤ maxTick)
    (debt : 0 ≤ record.rawDebt) : after.Sound where
  distinct := moved.ticks ▸ sound.distinct.insert tick record
  keyed t found known := by
    rw [moved.ticks, Table.get?_insert] at known
    split at known
    · rename_i here
      cases known
      exact here ▸ ⟨named, range⟩
    · exact sound.keyed t found known
  debt t := by
    rw [moved.tickAt]
    split
    · exact debt
    · exact sound.debt t
  bits t := by
    rw [moved.bits, moved.tickAt]
    split
    · rfl
    · exact sound.bits t
  rooted := sound.rooted.of_links moved.links

theorem Sound.holds_of_moved (sound : before.Sound) (moved : Moved before after tick record)
    (less : record.rawDebt ≤ (before.tickAt tick).rawDebt) {t : Int} (held : after.bitmap.Holds t) :
    before.bitmap.Holds t := by
  rw [moved.bits] at held
  split at held
  · rename_i here
    rw [here, sound.bits]
    omega
  · exact held

/-- A record with debt just where there was debt leaves the bits alone. -/
theorem Sound.put (sound : before.Sound)
    (same : 0 < record.rawDebt ↔ 0 < (before.tickAt tick).rawDebt) :
    Moved before (before.put tick record) tick record where
  ticks := rfl
  bits t := by
    split
    · rename_i here
      rw [here, same]
      exact sound.bits tick
    · rfl
  links := rfl

theorem moved_of_set {bitmap : TickBitmap} {branches : BranchLedger Int}
    (set : before.bitmap.set tick = .ok bitmap) (occupied : 0 < record.rawDebt)
    (links : branches.links = before.branches.links) :
    Moved before { before.put tick record with branches, bitmap } tick record where
  ticks := rfl
  bits t := by
    change bitmap.Holds t ↔ _
    rw [TickBitmap.holds_set set]
    split <;> simp_all
  links := links

theorem moved_of_clear {bitmap : TickBitmap} {branches : BranchLedger Int}
    (cleared : before.bitmap.clear tick = .ok bitmap) (vacant : record.rawDebt = 0)
    (links : branches.links = before.branches.links) :
    Moved before { before.put tick record with branches, bitmap } tick record where
  ticks := rfl
  bits t := by
    change bitmap.Holds t ↔ _
    rw [TickBitmap.holds_clear cleared]
    split <;> simp_all
  links := links

theorem Sound.addDebt {debt collateral branch : Int} (sound : before.Sound) (positive : 0 < debt)
    (done : attempt before (addDebt tick debt collateral branch) = .ok (record, after)) :
    record = (before.tickAt tick).grown debt collateral branch ∧
      Moved before after tick record ∧ minTick ≤ tick ∧ tick ≤ maxTick := by
  have held := sound.debt tick
  have occupied : 0 < ((before.tickAt tick).grown debt collateral branch).rawDebt := by
    simp only [TickRecord.grown_rawDebt]
    omega
  simp only [attempt_addDebt, bind_eq_ok] at done
  obtain ⟨rawDebt, added, _, -, done⟩ := done
  obtain ⟨-, rfl⟩ := checkedAdd_ok added
  split at done
  · simp only [bind_eq_ok, pure_eq_ok, Except.ok.injEq, Prod.mk.injEq] at done
    obtain ⟨branches, claimed, bitmap, set, rfl, rfl⟩ := done
    exact ⟨rfl, moved_of_set set occupied (BranchLedger.links_claim claimed),
      TickBitmap.set_range set⟩
  · rename_i known
    cases done
    have already : 0 < (before.tickAt tick).rawDebt := by omega
    exact ⟨rfl, sound.put (iff_of_true occupied already), sound.range already⟩

theorem Sound.removeDebt {debt collateral : Int} (sound : before.Sound) (nonneg : 0 ≤ debt)
    (done : attempt before (removeDebt tick debt collateral) = .ok (record, after)) :
    debt ≤ (before.tickAt tick).rawDebt ∧
      record = (before.tickAt tick).shrunk debt collateral ∧ Moved before after tick record := by
  simp only [attempt_removeDebt, bind_eq_ok, ensure_eq_ok_iff] at done
  obtain ⟨_, covered, done⟩ := done
  split at done
  · rename_i empties
    simp only [bind_eq_ok, pure_eq_ok, Except.ok.injEq, Prod.mk.injEq] at done
    obtain ⟨bitmap, cleared, released, release, rfl, rfl⟩ := done
    refine ⟨covered, rfl, moved_of_clear cleared ?_ (BranchLedger.links_release release)⟩
    simp [empties.2]
  · rename_i remains
    cases done
    refine ⟨covered, rfl, sound.put ?_⟩
    have held := sound.debt tick
    simp only [TickRecord.shrunk_rawDebt]
    omega

theorem Sound.wipe {branch : Int} {taken : Int × Int} (sound : before.Sound)
    (done : attempt before (wipe tick branch) = .ok (taken, after)) :
    taken = ((before.tickAt tick).rawDebt, (before.tickAt tick).rawCollateral) ∧
      Moved before after tick ((before.tickAt tick).wiped branch) := by
  simp only [attempt_wipe] at done
  split at done
  · simp only [bind_eq_ok, pure_eq_ok, Except.ok.injEq, Prod.mk.injEq] at done
    obtain ⟨bitmap, cleared, released, release, rfl, rfl⟩ := done
    exact ⟨rfl, moved_of_clear cleared rfl (BranchLedger.links_release release)⟩
  · rename_i vacant
    cases done
    exact ⟨rfl, sound.put (by simpa using vacant)⟩

theorem Sound.reduce {debt collateral branch : Int} (sound : before.Sound) (positive : 0 < debt)
    (done : attempt before (reduce tick debt collateral branch) = .ok (record, after)) :
    debt < (before.tickAt tick).rawDebt ∧ collateral ≤ (before.tickAt tick).rawCollateral ∧
      record = (before.tickAt tick).reduced debt collateral branch ∧
      Moved before after tick record := by
  simp only [attempt_reduce, bind_eq_ok, ensure_eq_ok_iff, pure_eq_ok, Except.ok.injEq,
    Prod.mk.injEq] at done
  obtain ⟨_, partly, _, -, left, taken, rfl, rfl⟩ := done
  refine ⟨partly, (checkedSub_ok taken).1, rfl, sound.put ?_⟩
  simp only [TickRecord.reduced_rawDebt]
  omega

end Ledger

end TickVault
