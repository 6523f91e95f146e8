import TickVault.Liquidate
import TickVault.Proofs.Operate.Effect

namespace TickVault

@[simp] theorem attempt_charge (budget : Budget) :
    attempt budget charge = .ok (budget.charge.1, budget.charge.2) := rfl

namespace Ledger

variable {before after : Ledger Int} {tick branch : Int}

variable {record : TickRecord Int} {branches : BranchLedger Int}

theorem Moved.of_relinked (moved : Moved { before with branches } after tick record)
    (links : branches.links = before.branches.links) : Moved before after tick record :=
  ⟨moved.ticks, moved.bits, moved.links.trans links⟩

theorem Moved.relinked (moved : Moved before after tick record)
    (links : branches.links = after.branches.links) :
    Moved before { after with branches } tick record :=
  ⟨moved.ticks, moved.bits, links.trans moved.links⟩

theorem Sound.looked (sound : before.Sound) (tick : Int) :
    Moved before (before.put tick (before.tickAt tick)) tick (before.tickAt tick) :=
  sound.put Iff.rfl

theorem attempt_liquidationEntry :
    attempt before (liquidationEntry tick branch) =
      .ok ((before.tickAt tick).entry branch, before.put tick (before.tickAt tick)) := by
  simp [liquidationEntry]

theorem recordLiquidation_ok {taken : TickLiquidation Int}
    (done : attempt before (recordLiquidation branch taken) = .ok ((), after)) :
    ∃ branches : BranchLedger Int, branches.links = before.branches.links ∧
      after = { before with branches } := by
  simp only [recordLiquidation, attempt_bind, attempt_onBranches, bind_eq_ok, map_eq_ok] at done
  obtain ⟨_, ⟨raised, first, rfl⟩, folded, second, same⟩ := done
  cases same
  exact ⟨folded, (BranchLedger.links_fold second).trans (BranchLedger.links_raise first), rfl⟩

theorem wiped_sound {emptied : Ledger Int} {removed : Int × Int} {taken : TickLiquidation Int}
    (sound : before.Sound) (range : minTick ≤ tick ∧ tick ≤ maxTick)
    (wiped : attempt (before.put tick (before.tickAt tick)) (wipe tick branch) =
      .ok (removed, emptied))
    (noted : attempt emptied (recordLiquidation branch taken) = .ok ((), after)) :
    removed = ((before.tickAt tick).rawDebt, (before.tickAt tick).rawCollateral) ∧
      Moved before after tick ((before.tickAt tick).wiped branch) ∧ after.Sound := by
  have looked := sound.looked tick
  have looked_sound := sound.moved looked (sound.named tick) range (sound.debt tick)
  obtain ⟨same, moved⟩ := looked_sound.wipe wiped
  rw [looked.tickAt, if_pos rfl] at same moved
  obtain ⟨branches, links, rfl⟩ := recordLiquidation_ok noted
  have whole := (looked.trans moved).relinked links
  exact ⟨same, whole, sound.moved whole (sound.named tick) range
    (Int.le_of_eq (TickRecord.wiped_rawDebt _ _).symm)⟩

end Ledger

namespace Pass

structure Steps (pass : Pass Int) (tick : Int) (record : TickRecord Int) (pass' : Pass Int) :
    Prop where
  sound : pass'.vault.Sound
  ticks : pass'.vault.ledger.ticks = pass.vault.ledger.ticks.insert tick record
  debt : pass'.debt + record.rawDebt = pass.debt + (pass.vault.ledger.tickAt tick).rawDebt
  collateral : pass'.collateral + record.rawCollateral =
    pass.collateral + (pass.vault.ledger.tickAt tick).rawCollateral
  config : pass'.vault.config = pass.vault.config
  positions : pass'.vault.positions = pass.vault.positions
  state : ∃ current total flag, pass'.vault.state = { pass.vault.state with
    currentBranch := current, totalBranch := total, branchLiquidated := flag }

theorem handOver_ok {pass pass' : Pass Int} {owner : Int} {more : Bool}
    (sound : pass.vault.Sound) (handed : pass.handOver owner more = .ok pass') :
    pass.vault.Rebranched pass'.vault ∧ pass'.vault.Sound ∧ pass'.debt = pass.debt ∧
      pass'.collateral = pass.collateral := by
  have same : pass.vault.Rebranched pass.vault := ⟨rfl, rfl, rfl, rfl, _, _, _, rfl⟩
  simp only [handOver, same_int, Bool.not_eq_true', decide_eq_false_iff_not] at handed
  split at handed
  · cases handed
    exact ⟨same, sound, rfl, rfl⟩
  rename_i current
  obtain ⟨branch, -, handed⟩ := bind_eq_ok.mp handed
  split at handed
  · cases handed
    exact ⟨same, sound, rfl, rfl⟩
  split at handed
  · cases handed
    exact ⟨⟨rfl, rfl, rfl, rfl, _, _, _, rfl⟩, ⟨sound.ledger, sound.current⟩, rfl, rfl⟩
  obtain ⟨found, searched, handed⟩ := bind_eq_ok.mp handed
  cases found with
  | some ancestor =>
    cases handed
    have range : 0 ≤ owner ∧ owner < pass.vault.ledger.branches.records.length := by
      rw [not_not.mp current]
      exact sound.current
    exact ⟨⟨rfl, rfl, rfl, rfl, _, _, _, rfl⟩,
      ⟨sound.ledger, sound.ledger.rooted.ancestor_range range.1 range.2 searched⟩, rfl, rfl⟩
  | none =>
    dsimp only at handed
    split at handed
    · cases handed
      exact ⟨same, sound, rfl, rfl⟩
    · obtain ⟨⟨branch, vault⟩, forked, handed⟩ := bind_eq_ok.mp handed
      cases handed
      obtain ⟨rebranched, sound'⟩ := sound.fork forked
      exact ⟨rebranched, sound', rfl, rfl⟩

theorem wipe_ok {pass pass' : Pass Int} {tick : Int} {more : Bool} (sound : pass.vault.Sound)
    (range : minTick ≤ tick ∧ tick ≤ maxTick) (wiped : pass.wipe tick more = .ok pass') :
    ∃ owner, pass.Steps tick ((pass.vault.ledger.tickAt tick).wiped owner) pass' := by
  simp only [wipe, Vault.onLedger_eq, attempt_bind, Ledger.attempt_record,
    Ledger.attempt_liquidationEntry, ok_bind, Ledger.tickAt_put, if_true, Ledger.put_put,
    bind_eq_ok, map_eq_ok, attempt_pure, toInt_int, Except.ok.injEq, pure_eq_ok] at wiped
  obtain ⟨_, ⟨_, ⟨⟨⟨debt, collateral⟩, emptied⟩, taken, ⟨_, recorded⟩, noted, rfl⟩, rfl⟩, handed,
    passed, rfl⟩ := wiped
  obtain ⟨same, whole, emptied_sound⟩ := Ledger.wiped_sound sound.ledger range taken noted
  cases same
  obtain ⟨rebranched, after_sound, paid, seized⟩ := handOver_ok
    ⟨emptied_sound, by simpa [BranchLedger.links_length whole.links] using sound.current⟩ passed
  refine ⟨_, after_sound, rebranched.ticks.trans whole.ticks, ?_, ?_, rebranched.config,
    rebranched.positions, rebranched.state⟩
  · rw [paid]
    exact Int.add_zero _
  · rw [seized]
    exact Int.add_zero _

theorem reduce_ok {pass pass' : Pass Int} {tick take : Int} (sound : pass.vault.Sound)
    (range : minTick ≤ tick ∧ tick ≤ maxTick) (positive : 0 < take)
    (reduced : pass.reduce tick take = .ok pass') :
    ∃ collateral owner, take < (pass.vault.ledger.tickAt tick).rawDebt ∧
      collateral ≤ (pass.vault.ledger.tickAt tick).rawCollateral ∧
      pass.Steps tick ((pass.vault.ledger.tickAt tick).reduced take collateral owner) pass' := by
  simp only [reduce, Ledger.recordD_int, toInt_int, ok_bind, Vault.onLedger_eq, attempt_bind,
    Ledger.attempt_liquidationEntry, bind_eq_ok, map_eq_ok, pure_eq_ok, Except.ok.injEq,
    ofInt_int] at reduced
  obtain ⟨ratio, -, priced, -, _, ⟨⟨record, after⟩, ⟨⟨_, recorded⟩, noted, taken⟩, rfl⟩, rfl⟩ :=
    reduced
  have looked := sound.ledger.looked tick
  have looked_sound := sound.ledger.moved looked (sound.ledger.named tick) range
    (sound.ledger.debt tick)
  obtain ⟨branches, links, rfl⟩ := Ledger.recordLiquidation_ok noted
  have recorded_sound : Ledger.Sound { pass.vault.ledger.put tick
      (pass.vault.ledger.tickAt tick) with branches } :=
    { looked_sound with rooted := looked_sound.rooted.of_links links }
  obtain ⟨partly, covered, rfl, moved⟩ := recorded_sound.reduce positive taken
  have stored := looked.tickAt tick
  rw [if_pos rfl] at stored
  have whole := looked.trans (moved.of_relinked links)
  change take < ((pass.vault.ledger.put tick (pass.vault.ledger.tickAt tick)).tickAt tick).rawDebt
    at partly
  change pass.vault.ledger.Moved after tick (((pass.vault.ledger.put tick
    (pass.vault.ledger.tickAt tick)).tickAt tick).reduced take _ _) at whole
  rw [stored] at partly whole
  have after_sound := sound.ledger.moved whole (sound.ledger.named tick) range
    (by rw [TickRecord.reduced_rawDebt]; omega)
  refine ⟨_, _, partly, Int.min_le_right _ _, ⟨after_sound, ?_⟩, whole.ticks, ?_, ?_, rfl, rfl,
    _, _, _, rfl⟩
  · simpa [BranchLedger.links_length whole.links] using sound.current
  · change pass.debt + take + (_ - take) = _
    omega
  · change pass.collateral + min priced _ + (_ - min priced _) = _
    omega

end Pass

end TickVault
