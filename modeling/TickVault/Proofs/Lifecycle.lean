import TickVault.Proofs.Operate.Governance
import TickVault.Proofs.Walk.Governance

namespace TickVault

theorem Yields.answer {σ α : Type} {state : σ} {work : ExceptT Fault (StateM σ) α}
    {promise : α → Prop} (yields : Yields (attempt state work) fun done => promise done.1) :
    Yields (work.run.run state).1 promise := by
  unfold attempt at yields
  split at yields
  · rename_i done
    rw [done]
    exact yields
  · rename_i refused
    rw [refused]
    exact yields

namespace Host

variable {host host' : Host} {fault : Fault}

theorem act_refused {action : Action} (refused : host.act action = .error fault) :
    fault = .transferRefused ∧ host.capacity ≠ none := by
  cases action with
  | transfer transfer =>
    by_cases full : host.isFull
    · refine ⟨?_, fun unbounded => ?_⟩
      · simp only [act, full, Bool.not_true, Bool.false_eq_true, not_false_eq_true,
          ensure_of_not, refuse_bind] at refused
        cases refused
        rfl
      · simp [isFull, unbounded] at full
    · simp [act, full, ensure_of] at refused
  | settleBorrow amount => cases refused

theorem act_capacity {action : Action} (acted : host.act action = .ok host') :
    host'.capacity = host.capacity := by
  cases action with
  | transfer transfer =>
    simp only [act, bind_eq_ok, pure_eq_ok, Except.ok.injEq] at acted
    obtain ⟨_, -, rfl⟩ := acted
    rfl
  | settleBorrow amount =>
    cases acted
    rfl

theorem actAll_refused {actions : List Action}
    (refused : (host.actAll actions).1 = .error fault) :
    fault = .transferRefused ∧ host.capacity ≠ none := by
  induction actions generalizing host with
  | nil => cases refused
  | cons action rest ih =>
    cases acted : host.act action with
    | error fault' =>
      simp only [actAll, acted, Except.error.injEq] at refused
      exact refused ▸ act_refused acted
    | ok host' =>
      simp only [actAll, acted] at refused
      rw [← act_capacity acted]
      exact ih refused

end Host

namespace Vault

variable {vault : Vault Int}

theorem Governed.collects (governed : vault.Governed) : vault.Collects vault := by
  have upholds := governed.refl
  rwa [← Int.sub_self vault.ledger.debt] at upholds

/-- The branches agree with the ticks on who owns what, and the state tells where the vault
stands. -/
structure Ownership (vault : Vault Int) : Prop where
  counted : ∀ id branch, vault.ledger.branches.get? id = some branch →
    branch.id = id ∧ branch.ownedTicks =
      vault.ledger.ticks.values.countP fun record => 0 < record.rawDebt ∧ record.branch = id
  closed : ∀ id branch, vault.ledger.branches.get? id = some branch →
    branch.isLiquidated = true → branch.ownedTicks = 0
  root : ∃ branch, vault.ledger.branches.get? 0 = some branch ∧ branch.isLiquidated = false ∧
    branch.ownedTicks = 0
  older : ∀ id branch, vault.ledger.branches.get? id = some branch → 1 ≤ id →
    branch.connected < id
  total : ∀ id, (vault.ledger.branches.get? id).isSome ↔ 0 ≤ id ∧ id ≤ vault.state.totalBranch
  current : 1 ≤ vault.state.currentBranch ∧ vault.state.currentBranch ≤ vault.state.totalBranch
  flag : ∃ branch, vault.ledger.branches.get? vault.state.currentBranch = some branch ∧
    vault.state.branchLiquidated = .flag branch.isLiquidated

theorem Governed.ownership (sound : vault.Sound) (governed : vault.Governed) :
    vault.Ownership where
  counted id branch known := by
    refine ⟨governed.owned.named id branch known, ?_⟩
    rw [governed.owned.counted id branch known]
    exact Table.total_indicator _ _
  closed := governed.owned.closed
  root := by
    obtain ⟨branch, known⟩ := BranchLedger.exists_of_range (Int.le_refl 0)
      (Int.natCast_pos.mpr sound.ledger.rooted.root)
    refine ⟨branch, known, governed.owned.root branch known, ?_⟩
    rw [governed.owned.counted 0 branch known]
    exact governed.owned.unowned sound.ledger fun range => absurd range.1 (by decide)
  older id branch known positive := (sound.ledger.rooted.older id branch known positive).2
  total id := by
    rw [BranchLedger.get?_isSome_iff, governed.total, BranchLedger.total]
    omega
  current := by
    have current := sound.current.2
    have first := governed.first
    rw [governed.total, BranchLedger.total]
    omega
  flag := by
    obtain ⟨branch, known⟩ := sound.current_known
    exact ⟨branch, known, governed.flag branch known⟩

end Vault

namespace Engine

variable {engine start : Engine Int} {call : Call}

structure Governed (engine : Engine Int) : Prop extends engine.Orderly where
  governed : engine.vault.Governed
  numbered : engine.vault.Numbered

def Excuses (engine : Engine Int) (reply : Except Fault (Reply Int)) : Prop :=
  ∀ fault, reply = .error fault →
    fault.Awaited ∨ fault = .transferRefused ∧ engine.host.capacity ≠ none

def takenOf (engine : Engine Int) (call : Call) : Int :=
  match call with
  | .liquidate _ _ | .absorb _ =>
    engine.vault.ledger.debt - (engine.perform call).engine.vault.ledger.debt
  | _ => 0

def taken (engine : Engine Int) : List Call → Int
  | [] => 0
  | call :: rest => engine.takenOf call + (engine.perform call).engine.taken rest

theorem commit_refused {α : Type} {settlement : Settlement Int α} {fault : Fault}
    (refused : (engine.commit settlement).1 = .error fault) :
    fault = .transferRefused ∧ engine.host.capacity ≠ none := by
  unfold commit at refused
  cases acted : engine.host.actAll settlement.actions with
  | mk answer host =>
    rw [acted] at refused
    cases answer with
    | ok _ => cases refused
    | error cause =>
      cases refused
      exact Host.actAll_refused (congrArg Prod.fst acted)

theorem conclude_yields {α : Type} {worked : Except Fault (Settlement Int α)}
    (promise : Vault Int → Prop) (kept : promise engine.vault)
    (yields : Yields worked fun settlement => promise settlement.vault) (reply : α → Reply Int)
    (budget : Budget) :
    promise (engine.conclude worked reply budget).engine.vault ∧
      engine.Excuses (engine.conclude worked reply budget).reply := by
  constructor
  · rcases (conclude_vault engine worked reply budget).1 with same | ⟨settlement, done, after⟩
    · exact same.symm ▸ kept
    · exact after.symm ▸ yields.ok done
  · intro fault refused
    cases worked with
    | error cause =>
      cases refused
      exact .inl yields
    | ok settlement =>
      right
      change (engine.commit settlement).1.map reply = .error fault at refused
      cases committed : (engine.commit settlement).1 with
      | ok receipt =>
        rw [committed] at refused
        cases refused
      | error cause =>
        rw [committed] at refused
        cases refused
        exact commit_refused committed

/-- A call upholds the branches, and is refused for nothing that it should not be. -/
theorem Governed.performs (governed : engine.Governed) (call : Call)
    (onVault : ∀ prices, call ≠ .accrue prices) :
    engine.vault.Upholds (engine.perform call).engine.vault (engine.takenOf call) ∧
      engine.Excuses (engine.perform call).reply := by
  cases call with
  | openPosition owner =>
    refine conclude_yields (engine.vault.Upholds · 0) governed.governed.refl ?_ _ _
    obtain ⟨position, after, created, upholds⟩ := governed.governed.create governed.numbered owner
    simp only [openPosition, created, ok_bind, pure_eq_ok]
    exact upholds
  | operate request =>
    refine conclude_yields (engine.vault.Upholds · 0) governed.governed.refl ?_ _ _
    exact governed.governed.operate_yields request governed.vault governed.numbered
      governed.supply governed.borrow
  | liquidate request budget =>
    refine conclude_yields engine.vault.Collects governed.governed.collects ?_ _ _
    exact (governed.governed.liquidate_yields request governed.vault governed.borrow budget).answer
  | absorb budget =>
    refine conclude_yields engine.vault.Collects governed.governed.collects ?_ _ _
    exact (governed.governed.absorb_yields governed.vault governed.borrow budget).answer
  | setOracle rate => exact ⟨governed.governed.refl, fun fault refused => by cases refused⟩
  | accrue prices => exact absurd rfl (onVault prices)

theorem accrue_refused {prices : ExchangePrices} {fault : Fault}
    (refused : (engine.perform (.accrue prices)).reply = .error fault) :
    fault = .exchangePriceDecrease := by
  simp only [perform] at refused
  split at refused
  · rename_i cause accrued
    cases refused
    simp only [accrue, Liquidity.accrue] at accrued
    unfold ensure at accrued
    split at accrued
    · cases accrued
    · cases accrued
      rfl
  · cases refused

theorem Governed.upholds (governed : engine.Governed) (call : Call) :
    engine.vault.Upholds (engine.perform call).engine.vault (engine.takenOf call) := by
  by_cases accrues : ∃ prices, call = .accrue prices
  · obtain ⟨prices, rfl⟩ := accrues
    rw [perform_accrue]
    exact governed.governed.refl
  · exact (governed.performs call fun prices same => accrues ⟨prices, same⟩).1

theorem Governed.perform (governed : engine.Governed) (call : Call) :
    (engine.perform call).engine.Governed where
  toOrderly := governed.toOrderly.perform call
  governed := (governed.upholds call).governed
  numbered := (governed.upholds call).numbered governed.numbered

theorem Governed.run (governed : engine.Governed) (calls : List Call) :
    (engine.run calls).Governed ∧
      engine.vault.Upholds (engine.run calls).vault (engine.taken calls) := by
  induction calls generalizing engine with
  | nil => exact ⟨governed, governed.governed.refl⟩
  | cons call rest ih =>
    obtain ⟨after, upholds⟩ := ih (governed.perform call)
    exact ⟨after, (governed.upholds call).trans upholds⟩

theorem New.governed (new : start.New) : start.Governed := by
  refine ⟨new.orderly, ?_, ?_⟩
  · obtain ⟨id, config, host, -, -, created⟩ := new
    simp only [create, bind_eq_ok, pure_eq_ok, Except.ok.injEq] at created
    obtain ⟨vault, created, rfl⟩ := created
    exact Vault.create_governed created
  · obtain ⟨id, config, validated, host, -, rfl⟩ := new.created
    intro id position known
    cases known

theorem run_append (start : Engine Int) (calls later : List Call) :
    start.run (calls ++ later) = (start.run calls).run later :=
  List.foldl_append

theorem Governed.closed {id : Int} {branch : Branch Int} (governed : engine.Governed)
    (known : engine.vault.ledger.branches.get? id = some branch)
    (liquidated : branch.isLiquidated = true) (later : List Call) :
    ∃ branch', (engine.run later).vault.ledger.branches.get? id = some branch' ∧
      branch'.isLiquidated = true ∧ branch'.ownedTicks = 0 ∧
      ∀ tick, 0 < ((engine.run later).vault.ledger.tickAt tick).rawDebt →
        ((engine.run later).vault.ledger.tickAt tick).branch ≠ id := by
  obtain ⟨after, upholds⟩ := governed.run later
  obtain ⟨branch', known', liquidated'⟩ := upholds.advances.lasting id branch known liquidated
  refine ⟨branch', known', liquidated', after.governed.owned.closed id branch' known' liquidated',
    fun tick occupied => ?_⟩
  obtain ⟨owner, owner_known, -, active⟩ := after.governed.owned.owner_known occupied
  rintro rfl
  cases owner_known.symm.trans known'
  cases active.symm.trans liquidated'

/-- Every run keeps branches and ticks in agreement on who owns what, and a branch that it has
liquidated is out of use in all runs that go on from there. -/
theorem run_ownership (new : start.New) (calls : List Call) :
    (start.run calls).vault.Ownership ∧
      ∀ id branch, (start.run calls).vault.ledger.branches.get? id = some branch →
        branch.isLiquidated = true → ∀ later,
          ∃ branch', (start.run (calls ++ later)).vault.ledger.branches.get? id = some branch' ∧
            branch'.isLiquidated = true ∧ branch'.ownedTicks = 0 ∧
            ∀ tick, 0 < ((start.run (calls ++ later)).vault.ledger.tickAt tick).rawDebt →
              ((start.run (calls ++ later)).vault.ledger.tickAt tick).branch ≠ id := by
  obtain ⟨governed, -⟩ := new.governed.run calls
  refine ⟨governed.governed.ownership governed.vault.toSound, ?_⟩
  intro id branch known liquidated later
  rw [run_append]
  exact governed.closed known liquidated later

def foreclosure : List Call :=
  [borrower "a", .setOracle 500000000000000,
    .liquidate { debt := 2000000000000000000 } .unlimited, .setOracle 1000000000000000,
    borrower "b"]

/-- The first epoch ends with its only tick, and the newcomer on that tick belongs to the second. -/
theorem foreclosure_ownership :
    standard.New ∧ (standard.run foreclosure).vault.Ownership ∧
      (∃ branch, (standard.run foreclosure).vault.ledger.branches.get? 1 = some branch ∧
        branch.isLiquidated = true) ∧
      ((standard.run foreclosure).vault.ledger.tickAt (-462)).branch = 2 := by
  refine ⟨standard_new, (run_ownership standard_new foreclosure).1, ?_, ?_⟩
  · apply Option.map_eq_some_iff.mp
    decide +kernel
  · decide +kernel

end Engine

end TickVault
