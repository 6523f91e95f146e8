import TickVault.Proofs.Branches.Change
import TickVault.Proofs.Ledger.Sound

/-!
Who owns the ticks. A branch counts the ticks with debt that it owns. It is liquidated together with
the last of them, and from then on it owns none. A step of a ledger rewrites one tick and one branch,
so all there is to see of a step is what it does to these two.
-/

namespace TickVault

namespace TickRecord

def ownership (id : Int) (record : TickRecord Int) : Int :=
  if 0 < record.rawDebt ∧ record.branch = id then 1 else 0

variable {record record' : TickRecord Int}

theorem ownership_nonneg (id : Int) (record : TickRecord Int) : 0 ≤ record.ownership id := by
  unfold ownership
  split <;> decide

theorem ownership_vacant (vacant : ¬ 0 < record.rawDebt) (id : Int) : record.ownership id = 0 :=
  if_neg fun owned => vacant owned.1

theorem ownership_other {id : Int} (other : record.branch ≠ id) : record.ownership id = 0 :=
  if_neg fun owned => other owned.2

theorem ownership_own (occupied : 0 < record.rawDebt) : record.ownership record.branch = 1 :=
  if_pos ⟨occupied, rfl⟩

theorem ownership_congr (debt : 0 < record'.rawDebt ↔ 0 < record.rawDebt)
    (branch : record'.branch = record.branch) (id : Int) :
    record'.ownership id = record.ownership id := by
  simp only [ownership, debt, branch]

end TickRecord

namespace BranchLedger

/-- Later branches: whatever was liquidated stays liquidated, and `debt` more was. -/
structure Advances (before after : BranchLedger Int) (debt : Int) : Prop where
  lasting : ∀ id branch, before.get? id = some branch → branch.isLiquidated = true →
    ∃ branch', after.get? id = some branch' ∧ branch'.isLiquidated = true
  liquidated : after.sum Branch.debtLiquidated = before.sum Branch.debtLiquidated + debt

variable {before middle after : BranchLedger Int} {debt debt' id : Int}
  {branch branch' : Branch Int}

theorem Advances.refl (ledger : BranchLedger Int) : ledger.Advances ledger 0 :=
  ⟨fun _ branch known liquidated => ⟨branch, known, liquidated⟩, (Int.add_zero _).symm⟩

theorem Advances.trans (first : before.Advances middle debt)
    (second : middle.Advances after debt') : before.Advances after (debt + debt') where
  lasting id branch known liquidated := by
    obtain ⟨branch', known', liquidated'⟩ := first.lasting id branch known liquidated
    exact second.lasting id branch' known' liquidated'
  liquidated := by
    rw [second.liquidated, first.liquidated, Int.add_assoc]

theorem advances_put (known : before.get? id = some branch)
    (lasting : branch.isLiquidated = true → branch'.isLiquidated = true)
    (liquidated : branch'.debtLiquidated = branch.debtLiquidated + debt) :
    before.Advances (before.put id branch') debt where
  lasting other found known' closed := by
    rw [get?_put known]
    split
    · rename_i same
      subst same
      rw [known] at known'
      cases known'
      exact ⟨branch', rfl, lasting closed⟩
    · exact ⟨found, known', closed⟩
  liquidated := by
    rw [sum_put known]
    omega

theorem get?_fork {source : Int} (rooted : before.Rooted)
    (forked : before.fork source = .ok (id, after)) (other : Int) :
    after.get? other = if other = id then some (.fresh id source) else before.get? other := by
  obtain ⟨-, rfl, records, -⟩ := rooted.fork forked
  unfold get?
  rw [records]
  by_cases negative : other < 0
  · rw [if_pos negative, if_pos negative, if_neg (by omega)]
  · rw [if_neg negative, if_neg negative, List.getElem?_append, List.getElem?_singleton]
    by_cases same : other = before.records.length
    · rw [if_neg (by omega), if_pos (by omega), if_pos same]
    · rw [if_neg same]
      split
      · rfl
      · rw [if_neg (by omega), List.getElem?_eq_none (by omega)]

theorem advances_fork {source : Int} (rooted : before.Rooted)
    (forked : before.fork source = .ok (id, after)) : before.Advances after 0 where
  lasting other found known closed := by
    obtain ⟨-, rfl, -⟩ := rooted.fork forked
    have range := known_range known
    rw [get?_fork rooted forked, if_neg (by omega)]
    exact ⟨found, known, closed⟩
  liquidated := by
    obtain ⟨-, -, records, -⟩ := rooted.fork forked
    simp [sum, records, Branch.fresh]

end BranchLedger

namespace Ledger

structure Rewritten (before after : Ledger Int) (tick : Int) (record : TickRecord Int) (id : Int)
    (branch branch' : Branch Int) : Prop where
  ticks : after.ticks = before.ticks.insert tick record
  known : before.branches.get? id = some branch
  branches : after.branches = before.branches.put id branch'

def ownedBy (ledger : Ledger Int) (id : Int) : Int :=
  ledger.ticks.total (TickRecord.ownership id)

structure Owned (ledger : Ledger Int) : Prop where
  named : ∀ id branch, ledger.branches.get? id = some branch → branch.id = id
  counted : ∀ id branch, ledger.branches.get? id = some branch →
    branch.ownedTicks = ledger.ownedBy id
  closed : ∀ id branch, ledger.branches.get? id = some branch → branch.isLiquidated = true →
    branch.ownedTicks = 0
  owner : ∀ t, 0 < (ledger.tickAt t).rawDebt → 1 ≤ (ledger.tickAt t).branch ∧
    (ledger.tickAt t).branch < ledger.branches.records.length
  root : ∀ branch, ledger.branches.get? 0 = some branch → branch.isLiquidated = false

variable {before after : Ledger Int} {tick id : Int} {record : TickRecord Int}
  {branch branch' : Branch Int}

theorem Rewritten.get? (rewritten : before.Rewritten after tick record id branch branch')
    (other : Int) : after.branches.get? other =
      if other = id then some branch' else before.branches.get? other := by
  rw [rewritten.branches, BranchLedger.get?_put rewritten.known]

theorem Rewritten.length (rewritten : before.Rewritten after tick record id branch branch') :
    after.branches.records.length = before.branches.records.length := by
  rw [rewritten.branches, BranchLedger.put_length]

theorem Rewritten.advances {debt : Int}
    (rewritten : before.Rewritten after tick record id branch branch')
    (lasting : branch.isLiquidated = true → branch'.isLiquidated = true)
    (liquidated : branch'.debtLiquidated = branch.debtLiquidated + debt) :
    before.branches.Advances after.branches debt := by
  rw [rewritten.branches]
  exact BranchLedger.advances_put rewritten.known lasting liquidated

theorem rewritten_put (known : before.branches.get? id = some branch)
    (ticks : after.ticks = before.ticks.insert tick record)
    (branches : after.branches = before.branches) :
    before.Rewritten after tick record id branch branch :=
  ⟨ticks, known, branches.trans (BranchLedger.put_same known).symm⟩

theorem Owned.owner_known (owned : before.Owned) (occupied : 0 < (before.tickAt tick).rawDebt) :
    ∃ branch, before.branches.get? (before.tickAt tick).branch = some branch ∧
      1 ≤ branch.ownedTicks ∧ branch.isLiquidated = false := by
  have range := owned.owner tick occupied
  obtain ⟨branch, known⟩ := BranchLedger.exists_of_range (by omega) range.2
  have counted := owned.counted _ branch known
  have some_owned : 1 ≤ before.ownedBy (before.tickAt tick).branch := by
    have one := TickRecord.ownership_own occupied
    cases found : before.ticks.get? tick with
    | none =>
      have vacant : (before.tickAt tick).rawDebt = 0 := by
        simp [Ledger.tickAt, found, TickRecord.fresh]
      omega
    | some record =>
      rw [tickAt_of_get? found] at one ⊢
      rw [← one]
      exact Table.weight_le_total found fun _ _ => TickRecord.ownership_nonneg _ _
  refine ⟨branch, known, by omega, ?_⟩
  by_contra liquidated
  have nothing := owned.closed _ branch known (by simpa using liquidated)
  omega

theorem Owned.rewritten (owned : before.Owned)
    (rewritten : before.Rewritten after tick record id branch branch') (first : 1 ≤ id)
    (named : branch'.id = branch.id)
    (gains : branch'.ownedTicks + (before.tickAt tick).ownership id =
      branch.ownedTicks + record.ownership id)
    (others : ∀ other, other ≠ id → record.ownership other = (before.tickAt tick).ownership other)
    (closed : branch'.isLiquidated = true → branch'.ownedTicks = 0)
    (owner : 0 < record.rawDebt → 1 ≤ record.branch ∧
      record.branch < before.branches.records.length) : after.Owned := by
  have total (other : Int) := total_insert rewritten.ticks (TickRecord.ownership other)
    (TickRecord.ownership_vacant (Int.lt_irrefl 0) other)
  have known (other : Int) (found : Branch Int) (here : after.branches.get? other = some found) :
      other = id ∧ found = branch' ∨ other ≠ id ∧ before.branches.get? other = some found := by
    rw [rewritten.get?] at here
    split at here
    · cases here
      exact .inl ⟨‹_›, rfl⟩
    · exact .inr ⟨‹_›, here⟩
  constructor
  · intro other found here
    rcases known other found here with ⟨rfl, rfl⟩ | ⟨-, before_known⟩
    · rw [named]
      exact owned.named _ _ rewritten.known
    · exact owned.named _ _ before_known
  · intro other found here
    have shifted := total other
    simp only [ownedBy]
    rcases known other found here with ⟨rfl, rfl⟩ | ⟨different, before_known⟩
    · have counted := owned.counted _ _ rewritten.known
      simp only [ownedBy] at counted
      omega
    · have counted := owned.counted _ _ before_known
      have same := others other different
      simp only [ownedBy] at counted
      omega
  · intro other found here liquidated
    rcases known other found here with ⟨rfl, rfl⟩ | ⟨-, before_known⟩
    · exact closed liquidated
    · exact owned.closed _ _ before_known liquidated
  · intro t occupied
    rw [tickAt_insert rewritten.ticks] at occupied ⊢
    rw [rewritten.length]
    split at occupied
    · rename_i here
      rw [if_pos here]
      exact owner occupied
    · rename_i elsewhere
      rw [if_neg elsewhere]
      exact owned.owner t occupied
  · intro found here
    rcases known 0 found here with ⟨rfl, -⟩ | ⟨-, before_known⟩
    · exact absurd first (by decide)
    · exact owned.root _ before_known

theorem Owned.keep (owned : before.Owned)
    (rewritten : before.Rewritten after tick record id branch branch') (first : 1 ≤ id)
    (named : branch'.id = branch.id) (status : branch'.status = branch.status)
    (count : branch'.ownedTicks = branch.ownedTicks)
    (debt : 0 < record.rawDebt ↔ 0 < (before.tickAt tick).rawDebt)
    (same : record.branch = (before.tickAt tick).branch) : after.Owned := by
  have kept (other : Int) := TickRecord.ownership_congr debt same other
  refine owned.rewritten rewritten first named ?_ (fun other _ => kept other) ?_ ?_
  · rw [count, kept]
  · intro liquidated
    rw [count]
    refine owned.closed _ _ rewritten.known ?_
    simpa only [Branch.isLiquidated, status] using liquidated
  · intro occupied
    rw [same]
    exact owned.owner tick (debt.mp occupied)

theorem Owned.claim (owned : before.Owned)
    (rewritten : before.Rewritten after tick record id branch branch.claimed) (first : 1 ≤ id)
    (active : branch.isLiquidated = false) (vacant : ¬ 0 < (before.tickAt tick).rawDebt)
    (occupied : 0 < record.rawDebt) (taken : record.branch = id) : after.Owned := by
  have nothing (other : Int) := TickRecord.ownership_vacant vacant other
  have one := TickRecord.ownership_own occupied
  rw [taken] at one
  refine owned.rewritten rewritten first rfl ?_ (fun other different => ?_) ?_ ?_
  · rw [one, nothing, Int.add_zero]
    rfl
  · rw [nothing]
    exact TickRecord.ownership_other (taken ▸ different.symm)
  · intro liquidated
    change branch.isLiquidated = true at liquidated
    rw [active] at liquidated
    cases liquidated
  · intro _
    have range := BranchLedger.known_range rewritten.known
    omega

theorem Owned.release (owned : before.Owned)
    (rewritten : before.Rewritten after tick record (before.tickAt tick).branch branch branch')
    (named : branch'.id = branch.id) (count : branch'.ownedTicks = branch.ownedTicks - 1)
    (closed : branch'.isLiquidated = true → branch'.ownedTicks = 0)
    (occupied : 0 < (before.tickAt tick).rawDebt) (vacant : ¬ 0 < record.rawDebt) :
    after.Owned := by
  have one := TickRecord.ownership_own occupied
  have nothing (other : Int) := TickRecord.ownership_vacant vacant other
  refine owned.rewritten rewritten (owned.owner tick occupied).1 named ?_
    (fun other different => ?_) closed ?_
  · rw [one, nothing, count]
    omega
  · rw [nothing]
    exact (TickRecord.ownership_other different.symm).symm
  · exact fun occupied' => absurd occupied' vacant

theorem Owned.unowned (sound : before.Sound) (owned : before.Owned)
    (apart : ¬ (1 ≤ id ∧ id < before.branches.records.length)) : before.ownedBy id = 0 := by
  apply Table.total_eq_zero
  intro record member
  obtain ⟨t, known⟩ := (Table.mem_values_iff sound.distinct).mp member
  have owner := owned.owner t
  rw [tickAt_of_get? known] at owner
  refine if_neg fun owns => apart ?_
  rw [← owns.2]
  exact owner owns.1

theorem Owned.fork {source : Int} (sound : before.Sound) (owned : before.Owned)
    (ticks : after.ticks = before.ticks)
    (forked : before.branches.fork source = .ok (id, after.branches)) : after.Owned := by
  have lookup := BranchLedger.get?_fork sound.rooted forked
  obtain ⟨-, rfl, records, -⟩ := sound.rooted.fork forked
  have size : after.branches.records.length = before.branches.records.length + 1 := by
    simp [records]
  have counts (other : Int) : after.ownedBy other = before.ownedBy other := by
    simp only [ownedBy, ticks]
  have nothing : before.ownedBy before.branches.records.length = 0 :=
    owned.unowned sound fun range => Int.lt_irrefl _ range.2
  have known (other : Int) (found : Branch Int) (here : after.branches.get? other = some found) :
      other = before.branches.records.length ∧ found = .fresh other source ∨
        before.branches.get? other = some found := by
    rw [lookup] at here
    split at here
    · rename_i new
      cases here
      exact .inl ⟨new, by rw [new]⟩
    · exact .inr here
  constructor
  · intro other found here
    rcases known other found here with ⟨rfl, rfl⟩ | old
    · rfl
    · exact owned.named other found old
  · intro other found here
    rw [counts]
    rcases known other found here with ⟨rfl, rfl⟩ | old
    · exact nothing.symm
    · exact owned.counted other found old
  · intro other found here liquidated
    rcases known other found here with ⟨rfl, rfl⟩ | old
    · rfl
    · exact owned.closed other found old liquidated
  · intro t occupied
    rw [tickAt_congr ticks] at occupied ⊢
    have range := owned.owner t occupied
    omega
  · intro found here
    rcases known 0 found here with ⟨-, rfl⟩ | old
    · rfl
    · exact owned.root found old

end Ledger

end TickVault
