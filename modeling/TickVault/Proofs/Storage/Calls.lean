import TickVault.Engine
import TickVault.Proofs.Storage.Parity

namespace TickVault

namespace Vault

@[simp] theorem emit_state (vault : Vault Int) (event : Event Int) :
    (vault.emit event).state = vault.state := rfl

variable {vault other : Vault Int}

theorem Twin.ticksAbove (twin : vault.Twin other) (limit : Int) :
    other.ticksAbove limit = vault.ticksAbove limit := by
  simp only [Vault.ticksAbove, twin.state, twin.ledger.bitmap]

theorem Twin.recordD (twin : vault.Twin other) (tick : Int) :
    other.ledger.recordD tick = vault.ledger.recordD tick := by
  simp only [Ledger.recordD, Ledger.peek?_int, twin.ledger.ticks.get?]

theorem Twin.settleTopmost (twin : vault.Twin other) (start : Option Int) :
    Agree Twin (vault.settleTopmost start) (other.settleTopmost start) := by
  unfold Vault.settleTopmost
  split
  · exact .ok twin
  · simp only [twin.state, twin.ledger.bitmap]
    apply Agree.after
    intro tick _
    exact .ok (twin.withState _)

end Vault

namespace Pass

inductive Twin : Pass Int → Pass Int → Prop
  | intro (debt collateral : Int) (completed forked : Bool) {vault other : Vault Int}
      (twin : vault.Twin other) :
      Twin ⟨vault, debt, collateral, completed, forked⟩ ⟨other, debt, collateral, completed, forked⟩

variable {pass other : Pass Int}

namespace Twin

theorem vault (twin : pass.Twin other) : pass.vault.Twin other.vault := by
  cases twin with
  | intro _ _ _ _ twins => exact twins

theorem handOver (twin : pass.Twin other) (owner : Int) (more : Bool) :
    Agree Twin (pass.handOver owner more) (other.handOver owner more) := by
  obtain ⟨debt, collateral, completed, forked, twins⟩ := twin
  simp only [Pass.handOver, twins.state, twins.ledger.branches]
  apply Agree.ite
  · exact .ok ⟨_, _, _, _, twins⟩
  apply Agree.after
  intro branch _
  apply Agree.ite
  · exact .ok ⟨_, _, _, _, twins⟩
  apply Agree.ite
  · exact .ok ⟨_, _, _, _, twins.withState _⟩
  apply Agree.after
  intro ancestor _
  cases ancestor with
  | some ancestor => exact .ok ⟨_, _, _, _, twins.withState _⟩
  | none =>
    apply Agree.ite
    · exact .ok ⟨_, _, _, _, twins⟩
    · apply twins.forkBranch.bind
      rintro _ _ ⟨branch, twins⟩
      exact .ok ⟨_, _, _, _, twins⟩

theorem wipe (twin : pass.Twin other) (tick : Int) (more : Bool) :
    Agree Twin (pass.wipe tick more) (other.wipe tick more) := by
  obtain ⟨debt, collateral, completed, forked, twins⟩ := twin
  unfold Pass.wipe
  refine (twins.onLedger ?_).bind ?_
  · apply Parallel.after (Ledger.uniform_record tick)
    intro record
    apply Parallel.after (Ledger.uniform_liquidationEntry tick _)
    intro entering
    apply Parallel.after (Ledger.uniform_wipe tick _)
    intro taken
    apply Parallel.after (Ledger.uniform_recordLiquidation _ _)
    intro _
    exact .pure rfl
  rintro _ _ ⟨⟨owner, removed, seized⟩, twins⟩
  apply (Twin.handOver ⟨_, _, _, _, twins⟩ owner more).bind
  rintro _ _ ⟨debt, collateral, completed, forked, twins⟩
  apply Agree.after
  intro removed _
  apply Agree.after
  intro seized _
  exact .ok ⟨_, _, _, _, twins⟩

theorem reduce (twin : pass.Twin other) (tick take : Int) :
    Agree Twin (pass.reduce tick take) (other.reduce tick take) := by
  obtain ⟨debt, collateral, completed, forked, twins⟩ := twin
  simp only [Pass.reduce, twins.recordD]
  apply Agree.after
  intro record _
  apply Agree.after
  intro t _
  apply Agree.after
  intro ratio _
  apply Agree.after
  intro priced _
  apply Agree.after
  intro backing _
  refine (twins.onLedger ?_).bind ?_
  · apply Parallel.after (Ledger.uniform_liquidationEntry tick _)
    intro entering
    apply Parallel.after (Ledger.uniform_recordLiquidation _ _)
    intro _
    exact Ledger.uniform_reduce tick _ _ _
  rintro _ _ ⟨record, twins⟩
  exact .ok ⟨_, _, _, _, twins⟩

theorem ended (twin : pass.Twin other) (completed : Bool) :
    Twin { pass with completed } { other with completed } := by
  obtain ⟨debt, collateral, _, forked, twins⟩ := twin
  exact ⟨_, _, _, _, twins⟩

theorem fill {ticks : List Int} {asked : Int} (twin : pass.Twin other) :
    Parallel Eq Twin (pass.fill ticks asked) (other.fill ticks asked) := by
  induction ticks generalizing pass other asked with
  | nil => exact .pure twin
  | cons tick rest ih =>
    simp only [Pass.fill, twin.vault.recordD]
    apply Parallel.ite
    · exact .pure twin
    apply Parallel.after (.same charge)
    intro spent
    apply Parallel.ite
    · exact .pure (twin.ended false)
    apply Parallel.after_lift
    intro record _
    apply Parallel.after_lift
    intro held _
    apply Parallel.ite
    · exact .pure twin
    apply Parallel.ite
    · apply Parallel.bind (.lift (twin.wipe tick _))
      intro wiped wiped' twin
      exact ih twin
    · apply Parallel.bind (.lift (twin.reduce tick _))
      intro reduced reduced' twin
      apply Parallel.ite
      · exact .pure twin
      apply Parallel.after (.same charge)
      intro spent
      exact .pure (twin.ended spent)

theorem absorb {ticks : List Int} (twin : pass.Twin other) :
    Parallel Eq Twin (pass.absorb ticks) (other.absorb ticks) := by
  induction ticks generalizing pass other with
  | nil => exact .pure twin
  | cons tick rest ih =>
    unfold Pass.absorb
    apply Parallel.after (.same charge)
    intro spent
    apply Parallel.ite
    · exact .pure (twin.ended false)
    apply Parallel.bind (.lift (twin.wipe tick _))
    intro wiped wiped' twin
    exact ih twin

theorem book (twin : pass.Twin other) : Agree Vault.Twin pass.book other.book := by
  obtain ⟨debt, collateral, completed, forked, twins⟩ := twin
  simp only [Pass.book, twins.state]
  apply Agree.after
  intro state _
  exact .ok (twins.withState state)

end Twin

end Pass

namespace Vault

inductive Taken : Liquidation Int → Liquidation Int → Prop
  | intro (debt collateral absorbedDebt absorbedCollateral : Int) (completed : Bool)
      {vault other : Vault Int} (twin : vault.Twin other) :
      Taken ⟨vault, debt, collateral, absorbedDebt, absorbedCollateral, completed⟩
        ⟨other, debt, collateral, absorbedDebt, absorbedCollateral, completed⟩

variable {vault other : Vault Int}

namespace Twin

theorem start (twin : vault.Twin other) : Pass.Twin { vault } { vault := other } :=
  ⟨_, _, _, _, twin⟩

theorem sweep (twin : vault.Twin other) (limit : Int) :
    Parallel Eq Pass.Twin (vault.sweep limit) (other.sweep limit) := by
  simp only [Vault.sweep, twin.ticksAbove]
  apply Parallel.after_lift
  intro ticks _
  apply twin.start.absorb.bind
  rintro _ _ ⟨debt, collateral, completed, forked, twins⟩
  simp only [twins.state]
  apply Parallel.after_lift
  intro state _
  exact .pure ⟨_, _, _, _, twins.withState state⟩

theorem fillAbove (twin : vault.Twin other) (limit requested : Int) :
    Parallel Eq Taken (vault.fillAbove limit requested) (other.fillAbove limit requested) := by
  simp only [Vault.fillAbove, twin.ticksAbove]
  apply Parallel.after_lift
  intro ticks _
  apply twin.start.fill.bind
  intro pass pass' twins
  apply Parallel.bind (.lift twins.book)
  intro booked booked' vaults
  obtain ⟨debt, collateral, completed, forked, twins⟩ := twins
  exact .pure ⟨_, _, _, _, _, vaults⟩

theorem absorbAbove (twin : vault.Twin other) (limit requested : Int) :
    Parallel Eq Taken (vault.absorbAbove limit requested) (other.absorbAbove limit requested) := by
  unfold Vault.absorbAbove
  apply (twin.sweep limit).bind
  intro pass pass' twins
  apply Parallel.bind (.lift twins.book)
  intro booked booked' vaults
  simp only [vaults.state]
  apply Parallel.after_lift
  rintro ⟨debt, collateral, state⟩ _
  obtain ⟨paid, seized, completed, forked, twins⟩ := twins
  exact .pure ⟨_, _, _, _, _, vaults.withState state⟩

theorem take (twin : vault.Twin other) (limit : Int) (request : LiquidateRequest) :
    Parallel Eq Taken (vault.take limit request) (other.take limit request) := by
  unfold Vault.take
  apply Parallel.ite
  · exact twin.absorbAbove limit _
  · exact twin.fillAbove limit _

theorem liquidate (twin : vault.Twin other) (host : Host) (request : LiquidateRequest) :
    Parallel Eq TwinSettlement (vault.liquidate host request) (other.liquidate host request) := by
  simp only [Vault.liquidate, twin.config, twin.state]
  apply Parallel.after_lift
  intro _ _
  apply Parallel.after_lift
  intro rate _
  apply Parallel.after_lift
  intro threshold _
  apply Parallel.after_lift
  intro limit _
  apply (twin.take limit request).bind
  rintro _ _ ⟨debt, collateral, absorbedDebt, absorbedCollateral, completed, twins⟩
  apply Parallel.after_lift
  intro _ _
  apply Parallel.bind (.lift (twins.settleTopmost _))
  intro settled settled' twins
  apply Parallel.after_lift
  intro _ _
  by_cases idle : absorbedDebt = 0
  · simp only [if_pos idle, liquidateActions, address, emit_state, twins.config, twins.state]
    exact .pure ⟨_, _, (twins.emit _).emit _⟩
  · simp only [if_neg idle, liquidateActions, address, emit_state, twins.config, twins.state]
    exact .pure ⟨_, _, ((twins.emit _).emit _).emit _⟩

theorem absorb (twin : vault.Twin other) (host : Host) :
    Parallel Eq TwinSettlement (vault.absorb host) (other.absorb host) := by
  simp only [Vault.absorb, twin.config, twin.state]
  apply Parallel.after_lift
  intro rate _
  apply Parallel.after_lift
  intro threshold _
  apply Parallel.after_lift
  intro limit _
  apply (twin.sweep limit).bind
  intro pass pass' passes
  have booked := passes.book
  obtain ⟨debt, collateral, completed, forked, twins⟩ := passes
  apply Parallel.after_lift
  intro _ _
  apply Parallel.bind (.lift booked)
  intro after after' twins
  apply Parallel.bind (.lift (twins.settleTopmost _))
  intro settled settled' twins
  simp only [emit_state, twins.state]
  exact .pure ⟨_, _, (twins.emit _).emit _⟩

end Twin

end Vault

namespace Engine

structure Twin (engine other : Engine Int) : Prop where
  vault : engine.vault.Twin other.vault
  host : other.host = engine.host

structure Matches (outcome other : Outcome Int) : Prop where
  reply : other.reply = outcome.reply
  budget : other.budget = outcome.budget
  engine : outcome.engine.Twin other.engine

variable {engine other : Engine Int}

namespace Twin

theorem commit {α : Type} {settlement settlement' : Settlement Int α} (twin : engine.Twin other)
    (alike : Vault.TwinSettlement settlement settlement') :
    (other.commit settlement').1 = (engine.commit settlement).1 ∧
      (engine.commit settlement).2.Twin (other.commit settlement').2 := by
  obtain ⟨actions, receipt, twins⟩ := alike
  simp only [Engine.commit, twin.host]
  generalize engine.host.actAll actions = acted
  obtain ⟨answer, host⟩ := acted
  cases answer with
  | ok _ => exact ⟨rfl, twins, rfl⟩
  | error fault => exact ⟨rfl, twin.vault, rfl⟩

theorem conclude {α : Type} {worked worked' : Except Fault (Settlement Int α)}
    (twin : engine.Twin other) (agree : Agree Vault.TwinSettlement worked worked')
    (reply : α → Reply Int) {budget budget' : Budget} (spent : budget = budget') :
    Matches (engine.conclude worked reply budget) (other.conclude worked' reply budget') := by
  cases agree with
  | error fault => exact ⟨rfl, spent.symm, twin⟩
  | ok alike =>
    obtain ⟨answer, twins⟩ := twin.commit alike
    exact ⟨congrArg (·.map reply) answer, spent.symm, twins⟩

theorem openPosition {vault vault' : Vault Int} (twin : vault.Twin vault') (owner : String) :
    Agree Vault.TwinSettlement (Engine.openPosition vault owner)
      (Engine.openPosition vault' owner) := by
  apply (twin.createPosition owner).bind
  rintro _ _ ⟨position, twins⟩
  exact .ok ⟨_, _, twins⟩

theorem perform (twin : engine.Twin other) (call : Call) :
    Matches (engine.perform call) (other.perform call) := by
  cases call with
  | openPosition owner => exact twin.conclude (openPosition twin.vault owner) .opened rfl
  | operate request =>
    simp only [Engine.perform, twin.host]
    exact twin.conclude (twin.vault.operate engine.host request) .operated rfl
  | liquidate request budget =>
    have parallel := twin.vault.liquidate engine.host request
    simp only [Engine.perform, twin.host]
    exact twin.conclude (parallel.answers budget budget rfl) .liquidated
      (parallel.states budget budget rfl)
  | absorb budget =>
    have parallel := twin.vault.absorb engine.host
    simp only [Engine.perform, twin.host]
    exact twin.conclude (parallel.answers budget budget rfl)
      (fun taken => .absorbed taken.1 taken.2) (parallel.states budget budget rfl)
  | setOracle rate =>
    refine ⟨rfl, rfl, twin.vault, ?_⟩
    change { other.host with oracle := rate } = { engine.host with oracle := rate }
    rw [twin.host]
  | accrue prices =>
    simp only [Engine.perform, Engine.accrue, twin.host]
    cases engine.host.liquidity.accrue prices with
    | error fault => exact ⟨rfl, rfl, twin⟩
    | ok liquidity => exact ⟨rfl, rfl, twin.vault, rfl⟩

theorem run (twin : engine.Twin other) (calls : List Call) :
    (engine.run calls).Twin (other.run calls) := by
  induction calls generalizing engine other with
  | nil => exact twin
  | cons call rest ih => exact ih (twin.perform call).engine

end Twin

end Engine

end TickVault
