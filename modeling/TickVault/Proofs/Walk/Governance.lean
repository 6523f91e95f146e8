import TickVault.Proofs.Governance
import TickVault.Proofs.Ledger.Liquidation
import TickVault.Proofs.Run

/-!
A walk under the branches. Each tick is liquidated under the branch that owns it, and the branch
counts what enters and what is taken. When the current branch is liquidated with its last tick, the
walk goes on under an ancestor that still owns ticks, or under a fork; a fork owns nothing, so no
walk comes to the end of it.
-/

namespace TickVault

namespace Pass

variable {start : Vault Int} {pass : Pass Int} {tick owner debt collateral : Int}

/-- The branch that a walk has forked owns nothing. -/
def Idle (pass : Pass Int) : Prop :=
  pass.forked = true → ∀ branch,
    pass.vault.ledger.branches.get? pass.vault.state.currentBranch = some branch →
      branch.ownedTicks = 0

theorem idle_of_unforked (unforked : pass.forked = false) : pass.Idle :=
  fun forked => absurd (unforked.symm.trans forked) Bool.false_ne_true

structure Proceeds (start : Vault Int) (pass : Pass Int) : Prop where
  sound : pass.vault.Sound
  upholds : start.Upholds pass.vault pass.debt
  idle : pass.Idle

theorem proceeds_start (sound : start.Sound) (governed : start.Governed) :
    Proceeds start { vault := start } :=
  ⟨sound, governed.refl, idle_of_unforked rfl⟩

theorem Proceeds.completed {done : Bool} (proceeds : Proceeds start pass) :
    Proceeds start { pass with completed := done } :=
  ⟨proceeds.sound, proceeds.upholds, proceeds.idle⟩

/-- A walk under the current branch has forked none, for the branch of a tick with debt owns it. -/
theorem Proceeds.unforked {branch : Branch Int} (proceeds : Proceeds start pass)
    (known : pass.vault.ledger.branches.get? owner = some branch) (owns : 1 ≤ branch.ownedTicks)
    (current : owner = pass.vault.state.currentBranch) : pass.forked = false := by
  cases forked : pass.forked with
  | false => rfl
  | true =>
    have nothing := proceeds.idle forked branch (current ▸ known)
    omega

theorem Proceeds.idle_rewritten {after : Ledger Int} {record : TickRecord Int}
    {branch branch' : Branch Int} (proceeds : Proceeds start pass)
    (rewritten : pass.vault.ledger.Rewritten after tick record owner branch branch')
    (owns : 1 ≤ branch.ownedTicks) :
    Idle { pass with vault := { pass.vault with ledger := after } } := by
  intro forked found known
  have unforked := proceeds.unforked rewritten.known owns
  rw [rewritten.get?] at known
  split at known
  · rename_i current
    cases forked.symm.trans (unforked current.symm)
  · exact proceeds.idle forked found known

/-- An ancestor to go on under is not the root, which owns nothing. -/
theorem ancestor_first {ledger : Ledger Int} {ancestor : Int} {branch : Branch Int}
    (sound : ledger.Sound) (owned : ledger.Owned)
    (known : ledger.branches.get? ancestor = some branch) (owns : 0 < branch.ownedTicks) :
    1 ≤ ancestor := by
  by_contra root
  have nothing := owned.unowned sound fun range => root range.1
  rw [← owned.counted ancestor branch known] at nothing
  omega

/-- The walk can always go on, and the state tells under which branch. -/
theorem handOver_upholds {branch : Branch Int} (more : Bool) (sound : pass.vault.Sound)
    (branched : pass.vault.Branched) (idle : pass.Idle)
    (known : pass.vault.ledger.branches.get? owner = some branch)
    (unforked : owner = pass.vault.state.currentBranch → pass.forked = false)
    (flag : (owner = pass.vault.state.currentBranch → branch.isLiquidated = false) →
      pass.vault.Governed) :
    ∃ pass', pass.handOver owner more = .ok pass' ∧ pass.vault.Upholds pass'.vault 0 ∧
      pass'.Idle := by
  simp only [handOver, same_int, Bool.not_eq_true', decide_eq_false_iff_not]
  by_cases current : owner = pass.vault.state.currentBranch
  · rw [if_neg (not_not.mpr current)]
    simp only [BranchLedger.get_eq_ok_iff.mpr known, ok_bind]
    have fresh := unforked current
    cases closed : branch.isLiquidated with
    | false => exact ⟨pass, rfl, (flag fun _ => closed).refl, idle⟩
    | true =>
      cases more with
      | false =>
        have upholds := branched.point (current ▸ known) branched.first
        rw [closed] at upholds
        exact ⟨_, rfl, upholds, idle_of_unforked fresh⟩
      | true =>
        have range := BranchLedger.known_range known
        obtain ⟨found, searched, active_found⟩ :=
          sound.ledger.rooted.ancestor_ok range.1 range.2
        simp only [searched, ok_bind]
        cases found with
        | some ancestor =>
          obtain ⟨found, there, active, owns⟩ := active_found ancestor rfl
          have first := ancestor_first sound.ledger branched.owned there owns
          have upholds := branched.point there first
          rw [active] at upholds
          exact ⟨_, rfl, upholds, idle_of_unforked fresh⟩
        | none =>
          obtain ⟨id, after, forked, upholds, newest, there⟩ := branched.fork sound
          simp only [fresh, forked, ok_bind]
          refine ⟨_, rfl, upholds, fun _ found here => ?_⟩
          rw [newest, there] at here
          cases here
          rfl
  · exact ⟨pass, if_pos current, (flag fun same => absurd same current).refl, idle⟩

theorem wipe_of_steps {emptied after : Ledger Int} {next : Pass Int} {more : Bool}
    (wiped : attempt (pass.vault.ledger.put tick (pass.vault.ledger.tickAt tick))
      (Ledger.wipe tick (pass.vault.ledger.tickAt tick).branch) =
        .ok ((debt, collateral), emptied))
    (noted : attempt emptied (Ledger.recordLiquidation (pass.vault.ledger.tickAt tick).branch
      (pass.vault.ledger.liquidation tick debt collateral)) = .ok ((), after))
    (passed : Pass.handOver { pass with vault := { pass.vault with ledger := after } }
      (pass.vault.ledger.tickAt tick).branch more = .ok next) :
    pass.wipe tick more = .ok { next with
      debt := next.debt + debt, collateral := next.collateral + collateral } := by
  simp only [Ledger.liquidation, TickRecord.liquidation] at noted
  simp only [Pass.wipe, Vault.onLedger_eq, attempt_bind, Ledger.attempt_record,
    Ledger.attempt_liquidationEntry, ok_bind, Ledger.tickAt_put, if_true, Ledger.put_put, wiped,
    noted, attempt_pure, toInt_int, pure_eq_ok, map_ok, passed]

theorem Proceeds.wipe (proceeds : Proceeds start pass)
    (occupied : 0 < (pass.vault.ledger.tickAt tick).rawDebt) (more : Bool) :
    ∃ pass', pass.wipe tick more = .ok pass' ∧ Proceeds start pass' := by
  have governed := proceeds.upholds.governed
  have range := proceeds.sound.ledger.range occupied
  obtain ⟨emptied, after, branch, branch', wiped, noted, rewritten, active, owns, liquidated, owned,
    accounted⟩ := Ledger.attempt_wiped proceeds.sound.ledger governed.owned governed.accounted
      occupied
  have sound : Vault.Sound { pass.vault with ledger := after } :=
    ⟨(Ledger.wiped_sound proceeds.sound.ledger range wiped noted).2.2,
      by simpa [rewritten.length] using proceeds.sound.current⟩
  have keeps : pass.vault.Keeps { pass.vault with ledger := after } := ⟨rfl, rfl, rfl, rfl, rfl⟩
  have branched := governed.toBranched.rewritten rewritten owned accounted keeps
  have here : after.branches.get? (pass.vault.ledger.tickAt tick).branch = some branch' := by
    rw [rewritten.get?, if_pos rfl]
  obtain ⟨next, passed, upholds, idle⟩ := @handOver_upholds
    { pass with vault := { pass.vault with ledger := after } } _ _ more sound branched
    (proceeds.idle_rewritten rewritten owns) here (proceeds.unforked rewritten.known owns)
    fun remains => governed.rewritten_flag rewritten branched keeps fun current =>
      (remains current).trans active.symm
  have done := wipe_of_steps wiped noted passed
  obtain ⟨owner, steps⟩ := wipe_ok proceeds.sound range done
  have emptied_advances := rewritten.advances
    (fun closed => absurd (active.symm.trans closed) Bool.false_ne_true) liquidated
  have advances := proceeds.upholds.advances.trans (emptied_advances.trans upholds.advances)
  have taken := steps.debt
  rw [TickRecord.wiped_rawDebt, Int.add_zero] at taken
  rw [Int.add_zero, ← taken] at advances
  exact ⟨_, done, steps.sound, ⟨upholds.governed, advances, fun numbered =>
    upholds.numbered (proceeds.upholds.numbered numbered)⟩, idle⟩

theorem Proceeds.reduce {take : Int} (proceeds : Proceeds start pass) (positive : 0 < take)
    (partly : take < (pass.vault.ledger.tickAt tick).rawDebt) :
    ∃ pass', pass.reduce tick take = .ok pass' ∧ Proceeds start pass' := by
  have governed := proceeds.upholds.governed
  have occupied := Int.lt_trans positive partly
  have range := proceeds.sound.ledger.range occupied
  have ratio := ratioOf_pos tick
  have backed : 0 ≤ (pass.vault.ledger.tickAt tick).rawCollateral :=
    governed.accounted.held tick .collateral
  have priced : 0 ≤ take * ratioScale / ratioOf tick :=
    Int.ediv_nonneg (Int.mul_nonneg (Int.le_of_lt positive) (by decide)) (Int.le_of_lt ratio)
  obtain ⟨noted, after, branch, branch', recorded, reduced, rewritten, owns, status, liquidated,
    owned, accounted⟩ := Ledger.attempt_reduced proceeds.sound.ledger governed.owned governed.accounted
      positive partly (le_min priced backed) (Int.min_le_right _ _)
  simp only [Ledger.liquidation, TickRecord.liquidation] at recorded
  have upholds : pass.vault.Upholds { pass.vault with ledger := after } take :=
    governed.rewritten rewritten owned accounted status liquidated ⟨rfl, rfl, rfl, rfl, rfl⟩
  have done : pass.reduce tick take = .ok { pass with
      vault := { pass.vault with ledger := after }
      debt := pass.debt + take
      collateral := pass.collateral + min (take * ratioScale / ratioOf tick)
        (pass.vault.ledger.tickAt tick).rawCollateral } := by
    simp only [Pass.reduce, Ledger.recordD_int, toInt_int, ok_bind, ratioAtTick_ok range,
      floorDiv_of_pos ratio, Vault.onLedger_eq, attempt_bind, Ledger.attempt_liquidationEntry,
      ofInt_int, recorded, reduced, map_ok, pure_eq_ok]
  obtain ⟨_, _, -, -, steps⟩ := reduce_ok proceeds.sound range positive done
  exact ⟨_, done, steps.sound, proceeds.upholds.trans upholds,
    proceeds.idle_rewritten rewritten owns⟩

theorem Proceeds.fill (proceeds : Proceeds start pass) (ticks : List Int) (asked : Int)
    (budget : Budget) :
    ∃ pass' left, attempt budget (pass.fill ticks asked) = .ok (pass', left) ∧
      Proceeds start pass' := by
  induction ticks generalizing pass asked budget with
  | nil => exact ⟨pass, budget, rfl, proceeds⟩
  | cons tick rest ih =>
    simp only [Pass.fill, attempt_ite, attempt_bind, attempt_pure, attempt_charge, attempt_lift,
      Ledger.recordD_int, toInt_int, ok_bind, map_ok]
    split
    · exact ⟨_, _, rfl, proceeds⟩
    split
    · exact ⟨_, _, rfl, proceeds.completed⟩
    split
    · exact ⟨_, _, rfl, proceeds⟩
    rename_i some_left
    have positive : 0 < takeFrom (pass.vault.ledger.tickAt tick).rawDebt asked :=
      Int.not_le.mp some_left
    have bound := takeFrom_le (pass.vault.ledger.tickAt tick).rawDebt asked
    split
    · obtain ⟨next, wiped, proceeds'⟩ :=
        proceeds.wipe (Int.lt_of_lt_of_le positive bound) (!rest.isEmpty)
      simp only [wiped, map_ok, ok_bind]
      exact ih proceeds' _ _
    · rename_i rest_left
      obtain ⟨next, reduced, proceeds'⟩ :=
        proceeds.reduce positive (lt_of_le_of_ne bound rest_left)
      simp only [reduced, map_ok, ok_bind]
      split
      · exact ⟨_, _, rfl, proceeds'⟩
      · exact ⟨_, _, rfl, proceeds'.completed⟩

theorem Proceeds.absorb {ticks : List Int} (proceeds : Proceeds start pass)
    (distinct : ticks.Nodup)
    (occupied : ∀ tick ∈ ticks, 0 < (pass.vault.ledger.tickAt tick).rawDebt) (budget : Budget) :
    ∃ pass' left, attempt budget (pass.absorb ticks) = .ok (pass', left) ∧
      Proceeds start pass' := by
  induction ticks generalizing pass budget with
  | nil => exact ⟨pass, budget, rfl, proceeds⟩
  | cons tick rest ih =>
    obtain ⟨apart, distinct⟩ := List.nodup_cons.mp distinct
    have here := occupied tick List.mem_cons_self
    obtain ⟨next, wiped, proceeds'⟩ := proceeds.wipe here (!rest.isEmpty)
    obtain ⟨owner, steps⟩ := wipe_ok proceeds.sound (proceeds.sound.ledger.range here) wiped
    simp only [Pass.absorb, attempt_ite, attempt_bind, attempt_pure, attempt_charge, attempt_lift,
      ok_bind]
    split
    · exact ⟨_, _, rfl, proceeds.completed⟩
    · simp only [wiped, map_ok, ok_bind]
      refine ih proceeds' distinct (fun other member => ?_) _
      have different : other ≠ tick := fun same => apart (same ▸ member)
      rw [Ledger.tickAt_insert steps.ticks, if_neg different]
      exact occupied other (List.mem_cons_of_mem _ member)

end Pass

namespace Vault

variable {change : TickRecord Int → TickRecord Int → Prop} {vault before middle after : Vault Int}

/-- The debt that has left the ticks was liquidated under the branches. -/
def Collects (before after : Vault Int) : Prop :=
  before.Upholds after (before.ledger.debt - after.ledger.debt)

theorem Collects.keeps (collects : before.Collects middle) (keeps : middle.Keeps after)
    (ledger : after.ledger = middle.ledger) : before.Collects after := by
  have upholds := Upholds.keeps collects keeps ledger
  rwa [← ledger] at upholds

/-- The ticks to visit are always found, each of them once, and there is debt on all of them. -/
theorem Coherent.ticksAbove_ok (coherent : vault.Coherent) (limit : Int) :
    ∃ ticks, vault.ticksAbove limit = .ok ticks ∧ ticks.Nodup ∧
      ∀ tick ∈ ticks, 0 < (vault.ledger.tickAt tick).rawDebt := by
  obtain ⟨ticks, found, distinct⟩ : ∃ ticks, vault.ticksAbove limit = .ok ticks ∧ ticks.Nodup := by
    unfold ticksAbove
    split
    · exact ⟨[], rfl, List.nodup_nil⟩
    · rename_i top _
      simp only [toInt_int, ok_bind]
      split
      · obtain ⟨sorted, below⟩ := TickBitmap.descend_sorted vault.ledger.bitmap tickCount top
        refine ⟨_, rfl, List.nodup_cons.mpr ⟨fun again => ?_, ?_⟩⟩
        · obtain ⟨t, taken, rfl⟩ := List.mem_map.mp again
          exact absurd (below t ((List.takeWhile_prefix _).mem taken)) (Int.lt_irrefl t)
        · have falling := sorted.sublist (List.takeWhile_sublist fun tick => decide (limit < tick))
          exact (falling.imp fun above => (Int.ne_of_lt above).symm).map _ fun _ _ => id
      · exact ⟨[], rfl, List.nodup_nil⟩
  exact ⟨ticks, found, distinct, fun tick member =>
    (coherent.ledger.bits tick).mp (ticksAbove_holds coherent found member)⟩

theorem Governed.sweep (coherent : vault.Coherent) (governed : vault.Governed) (limit : Int)
    (budget : Budget) :
    ∃ pass left, attempt budget (vault.sweep limit) = .ok (pass, left) ∧
      vault.Upholds pass.vault pass.debt := by
  obtain ⟨ticks, found, distinct, occupied⟩ := coherent.ticksAbove_ok limit
  obtain ⟨pass, left, absorbed, proceeds⟩ :=
    (Pass.proceeds_start coherent.toSound governed).absorb distinct occupied budget
  simp only [Vault.sweep, attempt_bind, attempt_lift, attempt_pure, found, absorbed, map_ok,
    ok_bind, VaultState.addAbsorbed, toInt_int, pure_eq_ok]
  exact ⟨_, _, rfl, proceeds.upholds.keeps ⟨rfl, rfl, rfl, rfl, rfl⟩ rfl⟩

/-- The debt on the ticks is in the total, so what was taken off them can be booked. -/
theorem book_yields {pass : Pass Int} (orderly : before.Orderly)
    (follows : Pass.Follows change before pass) (upholds : before.Upholds pass.vault pass.debt) :
    Yields pass.book fun after => before.Collects after := by
  have debt := follows.debt
  have balanced := orderly.debt
  have left := follows.sound.debt_nonneg
  obtain ⟨current, total, flag, pooled, backing, state⟩ := follows.state
  have covered : 0 ≤ pass.vault.state.totalBorrow + -pass.debt := by
    rw [state]
    dsimp only
    omega
  apply (shiftTotals_yields covered).bind
  intro state' shifted _
  have same := shiftTotals_ok shifted
  have taken : before.ledger.debt - pass.vault.ledger.debt = pass.debt := by omega
  change before.Upholds { pass.vault with state := state' }
    (before.ledger.debt - pass.vault.ledger.debt)
  rw [taken, same]
  exact upholds.keeps ⟨rfl, rfl, rfl, rfl, rfl⟩ rfl

theorem Governed.fillAbove_yields (orderly : vault.Orderly) (governed : vault.Governed)
    (limit requested : Int) (budget : Budget) :
    Yields (attempt budget (vault.fillAbove limit requested)) fun done =>
      vault.Collects done.1.vault := by
  obtain ⟨ticks, found, -⟩ := orderly.ticksAbove_ok limit
  obtain ⟨pass, left, filled, proceeds⟩ :=
    (Pass.proceeds_start orderly.toSound governed).fill ticks requested budget
  have follows := (Pass.follows_start orderly.toSound).fill filled
  simp only [fillAbove, attempt_bind, attempt_lift, attempt_pure, found, filled, map_ok, ok_bind]
  refine (?_ : Yields _ fun done => vault.Collects done.1).bind ?_
  · exact Yields.map (book_yields orderly follows proceeds.upholds)
  · exact fun done _ collects => collects

theorem Collects.sell {state : VaultState Int} {requested debt collateral : Int}
    (collects : before.Collects middle)
    (sold : middle.state.sellAbsorbed requested = .ok (debt, collateral, state)) :
    before.Collects { middle with state } := by
  obtain ⟨pooled, backing, rfl⟩ := sellAbsorbed_ok sold
  exact collects.keeps ⟨rfl, rfl, rfl, rfl, rfl⟩ rfl

theorem Governed.absorbAbove_yields {requested : Int} (orderly : vault.Orderly)
    (governed : vault.Governed) (nonneg : 0 ≤ requested) (limit : Int) (budget : Budget) :
    Yields (attempt budget (vault.absorbAbove limit requested)) fun done =>
      vault.Collects done.1.vault := by
  obtain ⟨pass, left, swept, upholds⟩ := governed.sweep orderly.toCoherent limit budget
  have follows := sweep_follows orderly.toCoherent swept
  unfold absorbAbove
  rw [attempt_bind, swept, ok_bind]
  apply (book_yields orderly follows upholds).lift
  intro booked _ collects
  apply (booked.state.sellAbsorbed_yields nonneg).lift
  rintro ⟨debt, collateral, state⟩ sold _
  exact collects.sell sold

theorem Governed.take_yields {request : LiquidateRequest} (orderly : vault.Orderly)
    (governed : vault.Governed) (nonneg : 0 ≤ request.debt) (limit : Int) (budget : Budget) :
    Yields (attempt budget (vault.take limit request)) fun done =>
      vault.Collects done.1.vault := by
  unfold take
  split
  · exact governed.absorbAbove_yields orderly nonneg limit budget
  · exact governed.fillAbove_yields orderly limit request.debt budget

theorem Collects.settle (collects : before.Collects middle) (start : Option Int) :
    Yields (middle.settleTopmost start) fun after => before.Collects after := by
  cases start with
  | none => exact collects
  | some tick => exact collects.keeps ⟨rfl, rfl, rfl, rfl, rfl⟩ rfl

theorem Collects.withEvents (collects : before.Collects after) (events : List (Event Int)) :
    before.Collects { after with events } :=
  collects.keeps ⟨rfl, rfl, rfl, rfl, rfl⟩ rfl

theorem Governed.liquidate_yields {host : Host} (request : LiquidateRequest)
    (orderly : vault.Orderly) (governed : vault.Governed) (borrow : 0 < host.liquidity.prices.borrow)
    (budget : Budget) :
    Yields (attempt budget (vault.liquidate host request)) fun done =>
      vault.Collects done.1.vault := by
  apply (yields_ensure fun _ => .request rfl (by decide)).lift
  intro _ _ asked
  have nonneg : 0 ≤ request.debt := by omega
  apply (checkOracleRate_yields host.oracle).lift
  intro rate _ _
  apply (?_ : Yields (toInt vault.config.liquidationThreshold) fun _ => True).lift
  · intro threshold _ _
    apply (thresholdTick_yields rate threshold borrow).lift
    intro limit _ _
    rw [attempt_bind]
    apply (governed.take_yields orderly nonneg limit budget).bind
    rintro ⟨taken, left⟩ _ collects
    apply (yields_ensure fun _ => .request rfl (by decide)).lift
    intro _ _ _
    apply (collects.settle vault.state.topmost).lift
    intro settled _ collects
    apply (checkSlippage_yields _ _ _).lift
    intro _ _ _
    dsimp only
    split
    · exact collects.withEvents _
    · exact collects.withEvents _
  · trivial

theorem Governed.absorb_yields {host : Host} (orderly : vault.Orderly) (governed : vault.Governed)
    (borrow : 0 < host.liquidity.prices.borrow) (budget : Budget) :
    Yields (attempt budget (vault.absorb host)) fun done => vault.Collects done.1.vault := by
  apply (checkOracleRate_yields host.oracle).lift
  intro rate _ _
  apply (?_ : Yields (toInt vault.config.liquidationMaxLimit) fun _ => True).lift
  · intro threshold _ _
    apply (thresholdTick_yields rate threshold borrow).lift
    intro limit _ _
    obtain ⟨pass, left, swept, upholds⟩ := governed.sweep orderly.toCoherent limit budget
    have follows := sweep_follows orderly.toCoherent swept
    rw [attempt_bind, swept, ok_bind]
    apply (yields_ensure fun _ => .request rfl (by decide)).lift
    intro _ _ _
    apply (book_yields orderly follows upholds).lift
    intro booked _ collects
    apply (collects.settle vault.state.topmost).lift
    intro settled _ collects
    exact collects.withEvents _
  · trivial

end Vault

end TickVault
