import TickVault.Proofs.Ledger.Aggregates
import TickVault.Proofs.Operate.Effect
import TickVault.Proofs.Refusal

namespace TickVault

namespace Vault

structure Branched (vault : Vault Int) : Prop where
  owned : vault.ledger.Owned
  accounted : vault.ledger.Accounted
  first : 1 ≤ vault.state.currentBranch
  total : vault.state.totalBranch = vault.ledger.branches.total

structure Governed (vault : Vault Int) : Prop extends vault.Branched where
  flag : ∀ branch, vault.ledger.branches.get? vault.state.currentBranch = some branch →
    vault.state.branchLiquidated = .flag branch.isLiquidated

def Numbered (vault : Vault Int) : Prop :=
  ∀ id position, vault.positions.get? id = some position → id < vault.state.nextPosition

/-- The second vault is governed as well, and numbered if the first is. Branches that are liquidated
in the first are liquidated in the second, and `debt` more was liquidated. -/
structure Upholds (before after : Vault Int) (debt : Int) : Prop where
  governed : after.Governed
  advances : before.ledger.branches.Advances after.ledger.branches debt
  numbered : before.Numbered → after.Numbered

structure Keeps (before after : Vault Int) : Prop where
  current : after.state.currentBranch = before.state.currentBranch
  total : after.state.totalBranch = before.state.totalBranch
  flag : after.state.branchLiquidated = before.state.branchLiquidated
  next : after.state.nextPosition = before.state.nextPosition
  positions : after.positions = before.positions

variable {vault before middle after : Vault Int} {debt debt' tick id : Int}
  {record : TickRecord Int} {branch branch' : Branch Int}

theorem Governed.refl (governed : vault.Governed) : vault.Upholds vault 0 :=
  ⟨governed, .refl _, id⟩

theorem Upholds.trans (first : before.Upholds middle debt) (second : middle.Upholds after debt') :
    before.Upholds after (debt + debt') :=
  ⟨second.governed, first.advances.trans second.advances, fun numbered =>
    second.numbered (first.numbered numbered)⟩

theorem Keeps.numbered (keeps : before.Keeps after) (numbered : before.Numbered) :
    after.Numbered := by
  intro id position known
  rw [keeps.positions] at known
  rw [keeps.next]
  exact numbered id position known

theorem Governed.congr (governed : before.Governed) (ledger : after.ledger = before.ledger)
    (current : after.state.currentBranch = before.state.currentBranch)
    (total : after.state.totalBranch = before.state.totalBranch)
    (flag : after.state.branchLiquidated = before.state.branchLiquidated) : after.Governed where
  owned := ledger ▸ governed.owned
  accounted := ledger ▸ governed.accounted
  first := current ▸ governed.first
  total := by rw [total, ledger, governed.total]
  flag := by
    rw [current, flag, ledger]
    exact governed.flag

theorem Governed.keeps (governed : before.Governed) (keeps : before.Keeps after)
    (ledger : after.ledger = before.ledger) : before.Upholds after 0 where
  governed := governed.congr ledger keeps.current keeps.total keeps.flag
  advances := ledger ▸ .refl _
  numbered := keeps.numbered

theorem Upholds.keeps (upholds : before.Upholds middle debt) (keeps : middle.Keeps after)
    (ledger : after.ledger = middle.ledger) : before.Upholds after debt := by
  have both := upholds.trans (upholds.governed.keeps keeps ledger)
  rwa [Int.add_zero] at both

theorem Branched.rewritten (branched : before.Branched)
    (rewritten : before.ledger.Rewritten after.ledger tick record id branch branch')
    (owned : after.ledger.Owned) (accounted : after.ledger.Accounted)
    (keeps : before.Keeps after) : after.Branched where
  owned := owned
  accounted := accounted
  first := keeps.current ▸ branched.first
  total := by
    rw [keeps.total, branched.total, BranchLedger.total, BranchLedger.total, rewritten.length]

theorem Governed.rewritten_flag (governed : before.Governed)
    (rewritten : before.ledger.Rewritten after.ledger tick record id branch branch')
    (branched : after.Branched) (keeps : before.Keeps after)
    (status : id = before.state.currentBranch → branch'.isLiquidated = branch.isLiquidated) :
    after.Governed where
  toBranched := branched
  flag := by
    rw [keeps.current, keeps.flag, rewritten.get?]
    intro found known
    split at known
    · rename_i here
      cases known
      rw [status here.symm]
      exact governed.flag branch (here ▸ rewritten.known)
    · exact governed.flag found known

theorem Governed.rewritten (governed : before.Governed)
    (rewritten : before.ledger.Rewritten after.ledger tick record id branch branch')
    (owned : after.ledger.Owned) (accounted : after.ledger.Accounted)
    (status : branch'.isLiquidated = branch.isLiquidated)
    (liquidated : branch'.debtLiquidated = branch.debtLiquidated + debt)
    (keeps : before.Keeps after) : before.Upholds after debt where
  governed := by
    have branched := governed.toBranched.rewritten rewritten owned accounted keeps
    exact governed.rewritten_flag rewritten branched keeps fun _ => status
  advances := rewritten.advances (fun closed => status ▸ closed) liquidated
  numbered := keeps.numbered

theorem Branched.point (branched : vault.Branched)
    (known : vault.ledger.branches.get? id = some branch) (first : 1 ≤ id) :
    vault.Upholds { vault with
      state := { vault.state with
        currentBranch := id, branchLiquidated := .flag branch.isLiquidated } } 0 where
  governed := {
    owned := branched.owned
    accounted := branched.accounted
    first
    total := branched.total
    flag := by
      intro found here
      cases known.symm.trans here
      rfl }
  advances := .refl _
  numbered numbered := numbered

theorem Sound.current_known (sound : vault.Sound) :
    ∃ branch, vault.ledger.branches.get? vault.state.currentBranch = some branch :=
  BranchLedger.exists_of_range sound.current.1 sound.current.2

theorem Sound.debt_nonneg (sound : vault.Sound) : 0 ≤ vault.ledger.debt := by
  apply Table.total_nonneg
  intro record member
  obtain ⟨tick, known⟩ := (Table.mem_values_iff sound.ledger.distinct).mp member
  rw [← Ledger.tickAt_of_get? known]
  exact sound.ledger.debt tick

/-- A fork always succeeds. The forked branch is the newest one and the current one, and owns
nothing yet. -/
theorem Branched.fork (sound : vault.Sound) (branched : vault.Branched) :
    ∃ id after, vault.forkBranch = .ok (id, after) ∧ vault.Upholds after 0 ∧
      after.state.currentBranch = id ∧
      after.ledger.branches.get? id = some (.fresh id vault.state.currentBranch) := by
  obtain ⟨parent, known⟩ := sound.current_known
  obtain ⟨id, branches, forked⟩ : ∃ id branches,
      vault.ledger.branches.fork vault.state.currentBranch = .ok (id, branches) := by
    rw [BranchLedger.fork, BranchLedger.get_eq_ok_iff.mpr known]
    exact ⟨_, _, rfl⟩
  have newest : branches.get? id = some (.fresh id vault.state.currentBranch) := by
    rw [BranchLedger.get?_fork sound.ledger.rooted forked, if_pos rfl]
  have place := (sound.ledger.rooted.fork forked).2.1
  refine ⟨id, { vault with
    ledger := { vault.ledger with branches }
    state := { vault.state with
      currentBranch := id, totalBranch := branches.total, branchLiquidated := .flag false }
    events := vault.events ++ [.branchCreated id vault.state.currentBranch] },
    ?_, ⟨?_, ?_, fun numbered => numbered⟩, rfl, newest⟩
  · simp only [forkBranch, forked, ok_bind]
    rfl
  · constructor
    · constructor
      · exact branched.owned.fork sound.ledger rfl forked
      · exact branched.accounted.fork sound.ledger rfl forked
      · have first := branched.first
        have range := sound.current
        dsimp only
        omega
      · rfl
    · intro found known
      cases newest.symm.trans known
      rfl
  · exact BranchLedger.advances_fork sound.ledger.rooted forked

/-- There is always an active branch for the next debt. -/
theorem Governed.ensureBranch (sound : vault.Sound) (governed : vault.Governed) :
    ∃ id after found, vault.ensureBranch = .ok (id, after) ∧ vault.Upholds after 0 ∧
      after.state.currentBranch = id ∧ after.ledger.branches.get? id = some found ∧
      found.isLiquidated = false := by
  obtain ⟨branch, known⟩ := sound.current_known
  have flag := governed.flag branch known
  cases closed : branch.isLiquidated with
  | true =>
    obtain ⟨id, after, forked, upholds, current, newest⟩ := governed.toBranched.fork sound
    rw [closed] at flag
    refine ⟨id, after, _, ?_, upholds, current, newest, rfl⟩
    simp only [Vault.ensureBranch, flag]
    exact forked
  | false =>
    rw [closed] at flag
    refine ⟨_, vault, branch, ?_, governed.refl, rfl, known, closed⟩
    simp only [Vault.ensureBranch, flag, BranchLedger.get_eq_ok_iff.mpr known, ok_bind, closed]
    rfl

theorem get?_of_fresh {id : Int} (known : BranchLedger.get? ⟨[.fresh 0 0, .fresh 1 0]⟩ id =
    some branch) : branch = .fresh id 0 ∧ (id = 0 ∨ id = 1) := by
  have range := BranchLedger.known_range known
  simp only [List.length_cons, List.length_nil] at range
  obtain rfl | rfl : id = 0 ∨ id = 1 := by omega
  · cases known
    exact ⟨rfl, .inl rfl⟩
  · cases known
    exact ⟨rfl, .inr rfl⟩

theorem create_governed {id : Int} {config : Config Int}
    (created : Vault.create id config = .ok vault) : vault.Governed := by
  simp only [create, bind_eq_ok, pure_eq_ok, Except.ok.injEq] at created
  obtain ⟨validated, -, rfl⟩ := created
  refine ⟨⟨?_, ?_, ?_, ?_⟩, ?_⟩
  · constructor
    · intro id branch known
      rw [(get?_of_fresh known).1]
      rfl
    · intro id branch known
      rw [(get?_of_fresh known).1]
      rfl
    · intro id branch known _
      rw [(get?_of_fresh known).1]
      rfl
    · intro t occupied
      exact absurd occupied (Int.lt_irrefl 0)
    · intro branch known
      rw [(get?_of_fresh known).1]
      rfl
  · constructor
    · intro t side
      cases side <;> exact Int.le_refl 0
    · intro t side
      cases side <;> exact Int.le_refl 0
    · intro t
      change (0 : Int) < 2
      decide
    · intro id branch side known
      rw [(get?_of_fresh known).1]
      cases side <;> exact ⟨Int.le_refl 0, Int.le_refl 0, rfl⟩
  · exact Int.le_refl 1
  · rfl
  · intro branch known
    rw [(get?_of_fresh known).1]
    rfl

end Vault

end TickVault
