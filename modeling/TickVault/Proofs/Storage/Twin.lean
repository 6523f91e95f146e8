import TickVault.Proofs.Branches
import TickVault.Proofs.Storage.Agreement

/-!
Ledgers that store the same. Two ledgers are twins when they have the same bits and branches, and
the same record under every tick; only the order in which ticks were first used may differ. Every
step of a ledger does the same on twins, and leaves twins.
-/

namespace TickVault

/-- A tick as it is kept: the value that stands for no tick is none. -/
def Written (tick : Option Int) : Prop := tick ≠ some coldTick

theorem written_readTick (tick : Int) : Written (readTick tick) := by
  unfold Written readTick
  intro cold
  simp only [same_int, ofInt_int, decide_eq_true_eq] at cold
  split at cold
  · cases cold
  · rename_i other
    exact other (Option.some.inj cold)

theorem written_of_range {tick : Option Int} (range : ∀ t, tick = some t → minTick ≤ t) :
    Written tick := by
  intro cold
  have low := range _ cold
  exact absurd low (by decide)

theorem readTick_writeTick {tick : Option Int} (written : Written tick) :
    readTick (writeTick tick) = tick := by
  cases tick with
  | none => rfl
  | some t =>
    have other : t ≠ coldTick := fun cold => written (congrArg some cold)
    simp [writeTick, readTick, other]

namespace Branch

structure Kept (branch : Branch Int) : Prop where
  lowest : Written branch.minTick
  highest : Written branch.maxTick

variable {branch after : Branch Int} {taken : TickLiquidation Int}

theorem fresh_kept (id connected : Int) : (fresh id connected).Kept where
  lowest := by simp [Written, fresh]
  highest := by simp [Written, fresh]

theorem written_higherTick {highest found : Option Int} {tick : Int} (kept : Written highest)
    (done : higherTick highest tick = .ok found) : Written found := by
  cases highest with
  | none =>
    cases done
    exact written_readTick tick
  | some known =>
    simp only [higherTick, toInt_int, ok_bind, pure_eq_ok, Except.ok.injEq] at done
    subst done
    split
    · exact written_readTick tick
    · exact kept

theorem written_lowerTick {lowest found : Option Int} {tick : Int} (kept : Written lowest)
    (done : lowerTick lowest tick = .ok found) : Written found := by
  cases lowest with
  | none =>
    cases done
    exact written_readTick tick
  | some known =>
    simp only [lowerTick, toInt_int, ok_bind, pure_eq_ok, Except.ok.injEq] at done
    subst done
    split
    · exact written_readTick tick
    · exact kept

theorem Kept.raise {id : Int} (kept : branch.Kept) (raised : branch.raise id taken = .ok after) :
    after.Kept := by
  simp only [Branch.raise, bind_eq_ok, pure_eq_ok, Except.ok.injEq] at raised
  obtain ⟨_, -, _, -, _, -, _, -, _, -, _, -, highest, found, rfl⟩ := raised
  exact ⟨kept.lowest, written_higherTick kept.highest found⟩

theorem Kept.fold (kept : branch.Kept) (folded : branch.fold taken = .ok after) : after.Kept := by
  simp only [Branch.fold, bind_eq_ok, pure_eq_ok, Except.ok.injEq] at folded
  obtain ⟨lowest, found, _, -, _, -, _, -, _, -, rfl⟩ := folded
  exact ⟨written_lowerTick kept.lowest found, kept.highest⟩

theorem Kept.claim (kept : branch.Kept) (claimed : branch.claim = .ok after) : after.Kept := by
  cases claimed
  exact ⟨kept.lowest, kept.highest⟩

end Branch

namespace BranchLedger

def Kept (ledger : BranchLedger Int) : Prop :=
  ∀ branch ∈ ledger.records, branch.Kept

variable {ledger after : BranchLedger Int}

theorem mem_of_get? {id : Int} {branch : Branch Int} (known : ledger.get? id = some branch) :
    branch ∈ ledger.records := by
  unfold get? at known
  split at known
  · cases known
  · exact List.mem_of_getElem? known

theorem Kept.update {id : Int} {change : Branch Int → Except Fault (Branch Int)}
    (kept : ledger.Kept) (keeps : ∀ branch changed, branch.Kept → change branch = .ok changed →
      changed.Kept) (updated : ledger.update id change = .ok after) : after.Kept := by
  simp only [BranchLedger.update, bind_eq_ok, toInt_int, pure_eq_ok, get_eq_ok_iff,
    Except.ok.injEq] at updated
  obtain ⟨branch, found, changed, done, _, rfl, rfl⟩ := updated
  intro other member
  rcases List.mem_or_eq_of_mem_set member with old | rfl
  · exact kept other old
  · exact keeps branch _ (kept branch (mem_of_get? found)) done

theorem Kept.claim {id : Int} (kept : ledger.Kept) (claimed : ledger.claim id = .ok after) :
    after.Kept := by
  apply kept.update _ claimed
  intro branch changed kept done
  exact kept.claim done

theorem Kept.release {id : Int} {liquidated closed : Bool} (kept : ledger.Kept)
    (released : ledger.release id liquidated = .ok (closed, after)) : after.Kept := by
  simp only [BranchLedger.release, bind_eq_ok, pure_eq_ok, Except.ok.injEq,
    Prod.mk.injEq] at released
  obtain ⟨branch, -, _, -, _, -, _, -, _, updated, -, rfl⟩ := released
  apply kept.update _ updated
  intro branch changed kept done
  cases done
  exact ⟨kept.lowest, kept.highest⟩

theorem Kept.fork {source id : Int} (kept : ledger.Kept)
    (forked : ledger.fork source = .ok (id, after)) : after.Kept := by
  simp only [BranchLedger.fork, bind_eq_ok, pure_eq_ok, Except.ok.injEq, Prod.mk.injEq] at forked
  obtain ⟨_, -, -, rfl⟩ := forked
  intro branch member
  rcases List.mem_append.mp member with old | new
  · exact kept branch old
  · rw [List.mem_singleton.mp new]
    exact Branch.fresh_kept _ _

end BranchLedger

namespace TickBitmap

def Fitting (bitmap : TickBitmap) : Prop :=
  bitmap.bits < 2 ^ tickCount

variable {bitmap after : TickBitmap} {tick : Int}

theorem Fitting.set (fitting : bitmap.Fitting) (marked : bitmap.set tick = .ok after) :
    after.Fitting := by
  unfold TickBitmap.set at marked
  split at marked
  · cases marked
  · rename_i checked
    cases marked
    have range := ensure_eq_ok_iff.mp checked
    have owned : place tick < tickCount := by
      simp only [place, tickCount, minTick, maxTick] at *
      omega
    apply Nat.or_lt_two_pow fitting
    rw [Nat.one_shiftLeft]
    exact Nat.pow_lt_pow_right Nat.one_lt_two owned

theorem Fitting.clear (fitting : bitmap.Fitting) (cleared : bitmap.clear tick = .ok after) :
    after.Fitting := by
  obtain ⟨_, -, cleared⟩ := bind_eq_ok.mp cleared
  split at cleared
  · cases cleared
    exact Nat.lt_of_le_of_lt (Nat.sub_le _ _) fitting
  · cases cleared
    exact fitting

theorem Fitting.bits_eq_zero (fitting : bitmap.Fitting) (empty : ∀ t, ¬ bitmap.Holds t) :
    bitmap.bits = 0 := by
  apply Nat.eq_of_testBit_eq
  intro i
  rw [Nat.zero_testBit]
  by_cases owned : i < tickCount
  · rw [Bool.eq_false_iff]
    intro set
    have there : place (minTick + i) = i := by
      simp only [place]
      omega
    refine empty (minTick + i) ⟨?_, ?_, there.symm ▸ set⟩
    · omega
    · simp only [tickCount, minTick, maxTick] at *
      omega
  · apply Nat.testBit_lt_two_pow
    exact Nat.lt_of_lt_of_le fitting (Nat.pow_le_pow_right (by decide) (Nat.not_lt.mp owned))

end TickBitmap

namespace Ledger

/-- Two ledgers that are stored alike: only the order in which ticks were first used may differ. -/
structure Twin (ledger other : Ledger Int) : Prop where
  ticks : ledger.ticks.Same other.ticks
  bitmap : other.bitmap = ledger.bitmap
  branches : other.branches = ledger.branches
  fitting : ledger.bitmap.Fitting
  kept : ledger.branches.Kept

/-- Work that does the same on twins, and leaves twins. -/
abbrev Uniform {α : Type} (work : LedgerM Int α) : Prop :=
  Parallel Twin Eq work work

variable (tick branch : Int)

theorem uniform_putRecord (record : TickRecord Int) : Uniform (putRecord tick record) := by
  apply Parallel.after_lift
  intro place _
  apply Parallel.write
  intro ledger other twin
  exact { twin with ticks := twin.ticks.insert place record }

theorem uniform_record : Uniform (record tick) := by
  apply Parallel.bind .read
  intro ledger other twin
  have found : other.peek? tick = ledger.peek? tick := by
    rw [peek?_int, peek?_int, twin.ticks.get?]
  rw [found]
  apply Parallel.after_lift
  intro stored _
  cases stored with
  | some record => exact .pure rfl
  | none =>
    apply Parallel.after (uniform_putRecord tick _)
    intro _
    exact .pure rfl

theorem uniform_onBranches {step : BranchLedger Int → Except Fault (BranchLedger Int)}
    (keeps : ∀ branches after, branches.Kept → step branches = .ok after → after.Kept) :
    Uniform (onBranches step) := by
  apply Parallel.bind .read
  intro ledger other twin
  rw [twin.branches]
  apply Parallel.after_lift
  intro branches done
  apply Parallel.write
  intro ledger' other' twin'
  exact { twin' with branches := rfl, kept := keeps _ _ twin.kept done }

theorem uniform_onBitmap {step : TickBitmap → Except Fault TickBitmap}
    (keeps : ∀ bitmap after, bitmap.Fitting → step bitmap = .ok after → after.Fitting) :
    Uniform (onBitmap step) := by
  apply Parallel.bind .read
  intro ledger other twin
  rw [twin.bitmap]
  apply Parallel.after_lift
  intro bitmap done
  apply Parallel.write
  intro ledger' other' twin'
  exact { twin' with bitmap := rfl, fitting := keeps _ _ twin.fitting done }

theorem uniform_setBit : Uniform (setBit tick) := by
  apply Parallel.after_lift
  intro t _
  apply uniform_onBitmap
  intro bitmap after fitting marked
  exact fitting.set marked

theorem uniform_clearBit : Uniform (clearBit tick) := by
  apply Parallel.after_lift
  intro t _
  apply uniform_onBitmap
  intro bitmap after fitting cleared
  exact fitting.clear cleared

theorem uniform_claim : Uniform (onBranches (·.claim branch)) := by
  apply uniform_onBranches
  intro branches after kept claimed
  exact kept.claim claimed

theorem uniform_releaseTick (liquidated : Bool) : Uniform (releaseTick branch liquidated) := by
  apply Parallel.bind .read
  intro ledger other twin
  rw [twin.branches]
  apply Parallel.after_lift
  rintro ⟨closed, branches⟩ released
  apply Parallel.after
  · apply Parallel.write
    intro ledger' other' twin'
    exact { twin' with branches := rfl, kept := twin.kept.release released }
  · intro _
    exact .pure rfl

theorem uniform_recordLiquidation (taken : TickLiquidation Int) :
    Uniform (recordLiquidation branch taken) := by
  apply Parallel.after
  · apply uniform_onBranches
    intro branches after kept raised
    apply kept.update _ raised
    intro branch changed kept done
    exact kept.raise done
  · intro _
    apply uniform_onBranches
    intro branches after kept folded
    apply kept.update _ folded
    intro branch changed kept done
    exact kept.fold done

theorem uniform_allocateSlot : Uniform (allocateSlot tick) := by
  apply Parallel.after (uniform_record tick)
  intro record
  apply Parallel.after_lift
  intro ids _
  apply Parallel.after (uniform_putRecord tick _)
  intro _
  exact .pure rfl

theorem uniform_addDebt (debt collateral : Int) :
    Uniform (addDebt tick debt collateral branch) := by
  apply Parallel.after (uniform_record tick)
  intro before
  apply Parallel.after_lift
  intro held _
  apply Parallel.after_lift
  intro rawDebt _
  apply Parallel.after (uniform_putRecord tick _)
  intro _
  apply Parallel.after_lift
  intro backing _
  apply Parallel.after_lift
  intro rawCollateral _
  apply Parallel.after (uniform_putRecord tick _)
  intro _
  apply Parallel.ite
  · apply Parallel.after (uniform_putRecord tick _)
    intro _
    apply Parallel.after (uniform_claim branch)
    intro _
    apply Parallel.after (uniform_setBit tick)
    intro _
    exact .pure rfl
  · exact .pure rfl

theorem uniform_removeDebt (debt collateral : Int) :
    Uniform (removeDebt tick debt collateral) := by
  apply Parallel.after (uniform_record tick)
  intro before
  apply Parallel.after_lift
  intro held _
  apply Parallel.after_lift
  intro _ _
  apply Parallel.after (uniform_putRecord tick _)
  intro _
  apply Parallel.after_lift
  intro backing _
  apply Parallel.after_lift
  intro taken _
  apply Parallel.after (uniform_putRecord tick _)
  intro _
  apply Parallel.ite
  · apply Parallel.after (uniform_putRecord tick _)
    intro _
    apply Parallel.after (uniform_clearBit tick)
    intro _
    apply Parallel.after (uniform_releaseTick _ false)
    intro _
    exact .pure rfl
  · exact .pure rfl

theorem uniform_liquidationEntry : Uniform (liquidationEntry tick branch) := by
  apply Parallel.after (uniform_record tick)
  intro record
  exact .lift (.same _)

theorem uniform_reduce (debt collateral : Int) : Uniform (reduce tick debt collateral branch) := by
  apply Parallel.after (uniform_record tick)
  intro before
  apply Parallel.after_lift
  intro held _
  apply Parallel.after_lift
  intro _ _
  apply Parallel.after_lift
  intro scaled _
  apply Parallel.after_lift
  intro factor _
  apply Parallel.after (uniform_putRecord tick _)
  intro _
  rw [map_eq_pure_bind, bind_assoc]
  apply Parallel.after_lift
  intro rawCollateral _
  rw [pure_bind]
  apply Parallel.after (uniform_putRecord tick _)
  intro _
  exact .pure rfl

theorem uniform_wipe : Uniform (wipe tick branch) := by
  apply Parallel.after (uniform_record tick)
  intro before
  apply Parallel.after (uniform_putRecord tick _)
  intro _
  apply Parallel.after_lift
  intro indebted _
  apply Parallel.ite
  · apply Parallel.after (uniform_clearBit tick)
    intro _
    apply Parallel.after (uniform_releaseTick _ true)
    intro _
    exact .pure rfl
  · exact .pure rfl

end Ledger

end TickVault
