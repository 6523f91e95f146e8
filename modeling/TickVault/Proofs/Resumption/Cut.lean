import TickVault.Proofs.Deals

namespace TickVault

/-- What a call has taken: from the ticks or the pool for its caller, and from the ticks for the
pool. -/
@[ext]
structure Haul where
  debt : Int
  collateral : Int
  absorbedDebt : Int
  absorbedCollateral : Int
  deriving DecidableEq

namespace Haul

instance : Zero Haul := ⟨0, 0, 0, 0⟩

instance : Add Haul where
  add first second :=
    ⟨first.debt + second.debt, first.collateral + second.collateral,
      first.absorbedDebt + second.absorbedDebt,
      first.absorbedCollateral + second.absorbedCollateral⟩

theorem add_zero (haul : Haul) : haul + 0 = haul := by
  ext <;> exact Int.add_zero _

end Haul

def Pass.haul (pass : Pass Int) (pools : Bool) : Haul :=
  if pools then ⟨0, 0, pass.debt, pass.collateral⟩ else ⟨pass.debt, pass.collateral, 0, 0⟩

theorem Pass.Trails.haul {first second last : Pass Int}
    (trails : Trails first.debt first.collateral last second) (pools : Bool) :
    last.haul pools = first.haul pools + second.haul pools := by
  cases pools <;> ext <;> first | exact trails.debt | exact trails.collateral | rfl

theorem Pass.Trails.haul_eq {first last : Pass Int} (trails : Trails 0 0 last first)
    (pools : Bool) : last.haul pools = first.haul pools := by
  simp only [Pass.haul, trails.debt, trails.collateral, Int.zero_add]

namespace Vault

/-- Two vaults are alike when they differ in nothing but their events. -/
structure Alike (vault other : Vault Int) : Prop where
  config : other.config = vault.config
  state : other.state = vault.state
  ledger : other.ledger = vault.ledger
  positions : other.positions = vault.positions

def closed (vault : Vault Int) (pass : Pass Int) (pools : Bool) : Vault Int :=
  { vault with
    ledger := pass.vault.ledger
    state := { vault.state with
      topmost := pass.vault.ledger.bitmap.highest?
      currentBranch := pass.vault.state.currentBranch
      totalBranch := pass.vault.state.totalBranch
      branchLiquidated := pass.vault.state.branchLiquidated
      totalSupply := vault.state.totalSupply - pass.collateral
      totalBorrow := vault.state.totalBorrow - pass.debt
      absorbedDebt := vault.state.absorbedDebt + (pass.haul pools).absorbedDebt
      absorbedCollateral :=
        vault.state.absorbedCollateral + (pass.haul pools).absorbedCollateral } }

variable {vault middle after : Vault Int} {first last second pass : Pass Int} {pools : Bool}
  {limit asked : Int} {ticks : List Int} {budget left left' : Budget}

theorem Alike.trans (first : vault.Alike middle) (second : middle.Alike after) :
    vault.Alike after :=
  ⟨second.config.trans first.config, second.state.trans first.state,
    second.ledger.trans first.ledger, second.positions.trans first.positions⟩

theorem Alike.symm (alike : vault.Alike after) : after.Alike vault :=
  ⟨alike.config.symm, alike.state.symm, alike.ledger.symm, alike.positions.symm⟩

theorem closed_closed (closes : middle.Alike (vault.closed first pools))
    (closes' : after.Alike (middle.closed second pools))
    (trails : Pass.Trails first.debt first.collateral last second) :
    after.Alike (vault.closed last pools) := by
  have haul := trails.haul pools
  have pooled : (last.haul pools).absorbedDebt = _ := congrArg Haul.absorbedDebt haul
  have backing : (last.haul pools).absorbedCollateral = _ := congrArg Haul.absorbedCollateral haul
  refine ⟨closes.config.trans closes'.config, ?_, ?_, closes.positions.trans closes'.positions⟩
  · rw [← closes'.state]
    simp only [closed, ← closes.state, trails.ledger, trails.current, trails.total, trails.flag,
      trails.debt, trails.collateral, pooled, backing, Int.sub_sub, Int.add_assoc]
    rfl
  · rw [← closes'.ledger]
    exact trails.ledger.symm

theorem closed_congr (trails : Pass.Trails 0 0 last first) :
    (vault.closed first pools).Alike (vault.closed last pools) := by
  refine ⟨rfl, ?_, trails.ledger.symm, rfl⟩
  simp only [closed, trails.haul_eq, trails.ledger, trails.current, trails.total, trails.flag,
    trails.debt, trails.collateral, Int.zero_add]

theorem trails_closed (closes : middle.Alike (vault.closed pass pools)) :
    Pass.Trails pass.debt pass.collateral pass { vault := middle } := by
  have state := closes.state
  refine ⟨closes.ledger.symm, ?_, ?_, ?_, (Int.add_zero _).symm, (Int.add_zero _).symm⟩
  · exact (congrArg VaultState.currentBranch state).symm
  · exact (congrArg VaultState.totalBranch state).symm
  · exact (congrArg VaultState.branchLiquidated state).symm

section Settles

variable {α : Type} {haul : α → Haul} {whole cut : Settlement Int α}
  {worked : Except Fault (Settlement Int α × Budget)} {ended : Budget}

/-- What a walk comes to: it is settled if it has taken something and no more than there is. -/
inductive Settles (vault : Vault Int) (pools : Bool) (haul : α → Haul) (pass : Pass Int)
    (left : Budget) : Except Fault (Settlement Int α × Budget) → Prop
  | settled {settlement : Settlement Int α} (moved : 0 < pass.debt)
      (covered : pass.collateral ≤ vault.state.totalSupply)
      (closes : settlement.vault.Alike (vault.closed pass pools))
      (hauls : haul settlement.receipt = pass.haul pools) :
      Settles vault pools haul pass left (.ok (settlement, left))
  | idle {fault : Fault} (still : pass.debt = 0) (kind : fault.kind? = some .nothingToLiquidate) :
      Settles vault pools haul pass left (.error fault)
  | refused {fault : Fault} (uncovered : vault.state.totalSupply < pass.collateral) :
      Settles vault pools haul pass left (.error fault)

inductive Completes (haul : α → Haul) (whole cut : Settlement Int α) :
    Except Fault (Settlement Int α × Budget) → Prop
  | settled {rest : Settlement Int α} {left : Budget} (alike : rest.vault.Alike whole.vault)
      (hauls : haul whole.receipt = haul cut.receipt + haul rest.receipt) :
      Completes haul whole cut (.ok (rest, left))
  | idle {fault : Fault} (kind : fault.kind? = some .nothingToLiquidate)
      (alike : cut.vault.Alike whole.vault) (hauls : haul whole.receipt = haul cut.receipt) :
      Completes haul whole cut (.error fault)

/-- A walk with a budget is settled wherever the walk without one is. -/
theorem Settles.of_whole (proceeds : Pass.Proceeds vault { vault })
    (charged : budget.charge.1 = true) (ahead : vault.Ahead limit ticks)
    (filled : attempt .unlimited (Pass.fill { vault } ticks asked) = .ok (last, left))
    (cut_filled : attempt budget (Pass.fill { vault } ticks asked) = .ok (first, left'))
    (wholes : vault.Settles pools haul last left (.ok (whole, ended)))
    (cuts : vault.Settles pools haul first left' worked) :
    ∃ cut, worked = .ok (cut, left') ∧ cut.vault.Alike (vault.closed first pools) ∧
      haul cut.receipt = first.haul pools := by
  cases wholes with
  | settled moved covered _ _ =>
    cases cuts with
    | settled _ _ closes hauls => exact ⟨_, rfl, closes, hauls⟩
    | idle still =>
      have gained := proceeds.fill_starts charged cut_filled filled moved
      exact absurd still (Int.ne_of_gt gained)
    | refused uncovered =>
      obtain ⟨_, _, _, _, resumes, ends⟩ := proceeds.fill_resumes ahead cut_filled filled
      have more := ((proceeds.filled cut_filled).fill_gains resumes).collateral
      have same := ends.collateral
      omega

theorem Settles.satisfied (proceeds : Pass.Proceeds vault { vault })
    (ahead : vault.Ahead limit ticks)
    (filled : attempt .unlimited (Pass.fill { vault } ticks asked) = .ok (last, left))
    (cut_filled : attempt budget (Pass.fill { vault } ticks asked) = .ok (first, left'))
    (wholes : vault.Settles pools haul last left (.ok (whole, ended)))
    (closes : cut.vault.Alike (vault.closed first pools))
    (hauls : haul cut.receipt = first.haul pools) (enough : asked ≤ first.debt) :
    cut.vault.Alike whole.vault ∧ haul whole.receipt = haul cut.receipt := by
  obtain ⟨later, resumed, _, -, resumes, ends⟩ := proceeds.fill_resumes ahead cut_filled filled
  have stays : resumed = first := by
    cases later with
    | nil =>
      cases resumes
      rfl
    | cons tick rest =>
      have nothing : asked - (first.debt - 0) ≤ 0 := by omega
      cases (Pass.fill_idle (.inl nothing)).symm.trans resumes
      rfl
  subst stays
  cases wholes with
  | settled _ _ closes' hauls' =>
    exact ⟨(closes.trans (closed_congr ends)).trans closes'.symm,
      by rw [hauls, hauls', ends.haul_eq]⟩

/-- What a second walk for the rest comes to completes what the first one has settled. -/
theorem Settles.completes (proceeds : Pass.Proceeds vault { vault })
    (start : Pass.Proceeds cut.vault { vault := cut.vault }) (ahead : vault.Ahead limit ticks)
    (filled : attempt .unlimited (Pass.fill { vault } ticks asked) = .ok (last, left))
    (cut_filled : attempt budget (Pass.fill { vault } ticks asked) = .ok (first, left'))
    (wholes : vault.Settles pools haul last left (.ok (whole, ended)))
    (closes : cut.vault.Alike (vault.closed first pools))
    (hauls : haul cut.receipt = first.haul pools)
    (rests : ∀ later second left, cut.vault.Ahead limit later →
      attempt .unlimited (Pass.fill { vault := cut.vault } later (asked - first.debt)) =
        .ok (second, left) → cut.vault.Settles pools haul second left worked) :
    Completes haul whole cut worked := by
  obtain ⟨later, resumed, _, ahead', resumes, ends⟩ :=
    proceeds.fill_resumes ahead cut_filled filled
  have rest_asked : asked - (first.debt - 0) = asked - first.debt := by omega
  change attempt _ (first.fill later (asked - (first.debt - 0))) = _ at resumes
  rw [rest_asked] at resumes
  obtain ⟨second, left'', rest_filled, -⟩ := start.fill later (asked - first.debt) .unlimited
  have rest_ahead : cut.vault.Ahead limit later :=
    ahead'.congr (congrArg Ledger.bitmap closes.ledger.symm)
  -- The resumed walk and the second one do the same from the point of the cut on.
  have proceeds' := proceeds.filled cut_filled
  have trails := ends.trans ((trails_closed closes).fill proceeds' start resumes rest_filled)
  have gains := proceeds'.fill_gains resumes
  have supply : cut.vault.state.totalSupply = vault.state.totalSupply - first.collateral :=
    (congrArg VaultState.totalSupply closes.state).symm
  cases wholes with
  | settled _ covered closes' hauls' =>
    cases rests later second left'' rest_ahead rest_filled with
    | settled _ _ rest_closes rest_hauls =>
      refine .settled ((closed_closed closes rest_closes trails).trans closes'.symm) ?_
      rw [hauls, hauls', rest_hauls, trails.haul]
    | idle still kind =>
      have debt := trails.debt
      have same := ends.debt
      have stays := ends.trans (gains.idle (by omega)).symm
      refine .idle kind ((closes.trans (closed_congr stays)).trans closes'.symm) ?_
      rw [hauls, hauls', stays.haul_eq]
    | refused uncovered =>
      have collateral := trails.collateral
      omega

end Settles

end Vault

end TickVault
