import TickVault.Proofs.Operate.Parts
import TickVault.Proofs.Storage.Twin

namespace TickVault

namespace Vault

/-- Two vaults that are stored alike. -/
structure Twin (vault other : Vault Int) : Prop where
  config : other.config = vault.config
  state : other.state = vault.state
  ledger : vault.ledger.Twin other.ledger
  positions : vault.positions.Same other.positions

variable {vault other : Vault Int}

namespace Twin

theorem emit (twin : vault.Twin other) (event : Event Int) :
    (vault.emit event).Twin (other.emit event) :=
  ⟨twin.config, twin.state, twin.ledger, twin.positions⟩

theorem withState (twin : vault.Twin other) (state : VaultState Int) :
    ({ vault with state } : Vault Int).Twin { other with state } :=
  ⟨twin.config, rfl, twin.ledger, twin.positions⟩

theorem onLedger {α : Type} {step : LedgerM Int α} (twin : vault.Twin other)
    (uniform : Ledger.Uniform step) :
    Agree (Beside Twin) (vault.onLedger step) (other.onLedger step) := by
  rw [Vault.onLedger_eq, Vault.onLedger_eq]
  apply (uniform.attempt twin.ledger).map
  rintro _ _ ⟨answer, twins⟩
  exact ⟨answer, twin.config, twin.state, twins, twin.positions⟩

theorem forkBranch (twin : vault.Twin other) :
    Agree (Beside Twin) vault.forkBranch other.forkBranch := by
  simp only [Vault.forkBranch, twin.state, twin.ledger.branches]
  apply Agree.after
  rintro ⟨id, branches⟩ forked
  refine .ok ⟨_, twin.config, rfl, ?_, twin.positions⟩
  exact { twin.ledger with branches := rfl, kept := twin.ledger.kept.fork forked }

theorem ensureBranch (twin : vault.Twin other) :
    Agree (Beside Twin) vault.ensureBranch other.ensureBranch := by
  simp only [Vault.ensureBranch, twin.state, twin.ledger.branches]
  apply Agree.ite
  · exact twin.forkBranch
  · apply Agree.after
    intro branch _
    apply Agree.ite
    · exact twin.forkBranch
    · exact .ok ⟨_, twin⟩

theorem hasPosition (twin : vault.Twin other) (id : Int) :
    other.hasPosition id = vault.hasPosition id := by
  simp only [Vault.hasPosition, key_int, twin.positions.contains]

theorem position (twin : vault.Twin other) (id : Int) : other.position id = vault.position id := by
  simp only [Vault.position, key_int, twin.positions.get?]

theorem putPosition (twin : vault.Twin other) (position : Position Int) :
    Agree Twin (vault.putPosition position) (other.putPosition position) :=
  .ok { twin with positions := twin.positions.insert position.id position }

theorem createPosition (twin : vault.Twin other) (owner : String) :
    Agree (Beside Twin) (vault.createPosition owner) (other.createPosition owner) := by
  simp only [Vault.createPosition, twin.state, twin.hasPosition]
  apply Agree.after
  intro next _
  apply Agree.after
  intro total _
  apply Agree.after
  intro known _
  apply Agree.after
  intro _ _
  apply ((twin.withState _).putPosition _).bind
  intro after after' twins
  exact .ok ⟨_, twins⟩

theorem record (twin : vault.Twin other) (position : Position Int) :
    position.record? other.ledger = position.record? vault.ledger := by
  unfold Position.record?
  split
  · rw [Ledger.peek?_int, Ledger.peek?_int, twin.ledger.ticks.get?]
  · rfl

theorem holdings (twin : vault.Twin other) (position : Position Int) :
    other.holdings position = vault.holdings position := by
  simp only [Vault.holdings, twin.record]

theorem snapshot (twin : vault.Twin other) (id : Int) : other.snapshot id = vault.snapshot id := by
  simp only [Vault.snapshot, twin.position, twin.holdings]

theorem locate (twin : vault.Twin other) (request : OperateRequest) :
    Agree (Beside Twin) (vault.locate request) (other.locate request) := by
  unfold Vault.locate
  split
  · rw [twin.position]
    apply Agree.after
    intro position _
    exact .ok ⟨_, twin⟩
  · apply Agree.after
    intro _ _
    exact twin.createPosition _

theorem vacate (twin : vault.Twin other) (tick : Int) (record : TickRecord Int)
    (holdings : Holdings Int) :
    Agree (Beside Twin) (vault.vacate tick record holdings)
      (other.vacate tick record holdings) := by
  simp only [Vault.vacate_eq, twin.state]
  have twins : Ledger.Twin
      (vault.ledger.put tick { record with occupants := record.occupants - 1 })
      (other.ledger.put tick { record with occupants := record.occupants - 1 }) :=
    { twin.ledger with ticks := twin.ledger.ticks.insert tick _ }
  apply ((Ledger.uniform_removeDebt tick _ _).attempt twins).bind
  rintro _ _ ⟨left, twins⟩
  simp only [twins.bitmap]
  exact .ok ⟨_, twin.config, rfl, twins, twin.positions⟩

theorem depart (twin : vault.Twin other) (position : Position Int) :
    Agree (Beside Twin) (vault.depart position) (other.depart position) := by
  simp only [Vault.depart, twin.holdings, twin.record, twin.state]
  apply Agree.after
  intro holdings _
  apply Agree.after
  intro found _
  split
  · apply Agree.after
    intro liquidated _
    apply Agree.ite
    · apply Agree.after
      intro state _
      exact .ok ⟨_, twin.withState state⟩
    · apply (twin.vacate _ _ holdings).bind
      rintro _ _ ⟨removed, twins⟩
      exact .ok ⟨_, twins⟩
  · exact .ok ⟨_, twin⟩

theorem uniform_occupy (position : Position Int) (wiped : Bool)
    (tick debt collateral branch : Int) :
    Ledger.Uniform (Vault.occupy position wiped tick debt collateral branch) := by
  apply Parallel.after (Ledger.uniform_addDebt _ _ _ _)
  intro record
  apply Parallel.after_lift
  intro occupants _
  apply Parallel.after (Ledger.uniform_putRecord _ _)
  intro _
  apply Parallel.after_lift
  intro kept _
  cases kept with
  | some slot => exact .pure rfl
  | none =>
    apply Parallel.after (Ledger.uniform_allocateSlot _)
    intro slot
    exact .pure rfl

theorem enter (twin : vault.Twin other) (position : Position Int) (wiped : Bool)
    (collateral netDebt : Int) :
    Agree (Beside Twin) (vault.enter position wiped collateral netDebt)
      (other.enter position wiped collateral netDebt) := by
  unfold Vault.enter
  apply Agree.after
  intro _ _
  apply Agree.after
  intro collateral _
  apply Agree.after
  intro _ _
  apply Agree.after
  intro ratio _
  apply Agree.after
  intro _ _
  apply Agree.after
  rintro ⟨tick, debt⟩ _
  apply twin.ensureBranch.bind
  rintro _ _ ⟨branch, twins⟩
  apply (twins.onLedger (uniform_occupy position wiped tick debt collateral branch)).bind
  rintro _ _ ⟨⟨slot, factor⟩, twins⟩
  simp only [twins.state]
  apply Agree.after
  intro state _
  exact .ok ⟨_, twins.withState state⟩

theorem place (twin : vault.Twin other) (position : Position Int) (wiped : Bool)
    (collateral netDebt : Int) :
    Agree (Beside Twin) (vault.place position wiped collateral netDebt)
      (other.place position wiped collateral netDebt) := by
  unfold Vault.place
  apply Agree.ite
  · exact .ok ⟨_, twin⟩
  · exact twin.enter position wiped collateral netDebt

inductive Rebalanced : Rebalance Int → Rebalance Int → Prop
  | intro (position : Position Int) (collateral debt : Int) {vault other : Vault Int}
      (twin : vault.Twin other) :
      Rebalanced ⟨vault, position, collateral, debt⟩ ⟨other, position, collateral, debt⟩

theorem rebalance (twin : vault.Twin other) (prices : ExchangePrices) (position : Position Int)
    (request : OperateRequest) :
    Agree Rebalanced (vault.rebalance prices position request)
      (other.rebalance prices position request) := by
  unfold Vault.rebalance
  apply (twin.depart position).bind
  rintro _ _ ⟨departure, twins⟩
  apply Agree.after
  rintro ⟨collateral, moved⟩ _
  apply Agree.after
  intro owed _
  simp only [twins.config]
  apply Agree.after
  intro fee _
  apply Agree.after
  rintro ⟨netDebt, owed⟩ _
  apply (twins.place position _ collateral netDebt).bind
  rintro _ _ ⟨placed, twins⟩
  simp only [twins.state]
  apply Agree.after
  intro backing _
  apply Agree.after
  intro before _
  apply Agree.after
  intro debt _
  apply Agree.after
  intro state _
  apply ((twins.withState state).putPosition _).bind
  intro settled settled' twins
  exact .ok ⟨_, _, _, twins⟩

theorem checkSafety (twin : vault.Twin other) (host : Host) (position : Position Int)
    (riskier : Bool) :
    other.checkSafety host position riskier = vault.checkSafety host position riskier := by
  simp only [Vault.checkSafety, twin.config]

theorem checkBorrow (twin : vault.Twin other) (host : Host) (amount : Int) :
    other.checkBorrow host amount = vault.checkBorrow host amount := by
  simp only [Vault.checkBorrow, twin.config, twin.state]

end Twin

inductive TwinSettlement {α : Type} : Settlement Int α → Settlement Int α → Prop
  | intro (actions : List Action) (receipt : α) {vault other : Vault Int}
      (twin : vault.Twin other) : TwinSettlement ⟨vault, actions, receipt⟩ ⟨other, actions, receipt⟩

theorem Twin.operate (twin : vault.Twin other) (host : Host) (request : OperateRequest) :
    Agree TwinSettlement (vault.operate host request) (other.operate host request) := by
  unfold Vault.operate
  apply Agree.after
  intro _ _
  apply (twin.locate request).bind
  rintro _ _ ⟨position, twins⟩
  apply Agree.after
  intro _ _
  apply (twins.rebalance _ position request).bind
  rintro _ _ ⟨position, moved, owed, twins⟩
  simp only [twins.checkSafety, twins.checkBorrow]
  apply Agree.after
  intro _ _
  apply Agree.after
  intro _ _
  apply Agree.after
  intro netDebt _
  apply Agree.after
  intro collateral _
  simp only [operateActions, address, twins.config, twins.state]
  exact .ok ⟨_, _, twins.config, twins.state, twins.ledger, twins.positions⟩

end Vault

end TickVault
