import TickVault.Proofs.Confinement

namespace TickVault

def Call.target : Call → Option Int
  | .operate request => request.position
  | _ => none

namespace Vault

variable {vault after located : Vault Int} {position other : Position Int} {id : Int}
  {host : Host} {request : OperateRequest} {outcome : Rebalance Int}
  {settlement : Settlement Int (PositionSnapshot Int)}

/-- All positions off the ticks owe nothing. -/
def Unburdened (vault : Vault Int) : Prop :=
  ∀ id position, vault.positions.get? id = some position → position.Unburdened

def slotWiped (vault : Vault Int) (position : Position Int) : Except Fault Bool := do
  match ← position.record? vault.ledger with
  | some record => record.slotLiquidated position.tickSlot
  | none => return false

theorem Confined.unburdened (confined : vault.Confined id after) (unburdened : vault.Unburdened)
    (here : ∀ position, after.positions.get? id = some position → position.Unburdened) :
    after.Unburdened := by
  intro other found known
  by_cases same : other = id
  · subst same
    exact here found known
  · rw [confined.others other same] at known
    exact unburdened other found known

theorem Opens.elsewhere (opens : vault.Opens position after)
    (known : vault.positions.get? id = some other) : id ≠ position.id := by
  rintro rfl
  cases opens.unknown.symm.trans known

theorem Operates.elsewhere
    (operates : vault.Operates host request position located outcome settlement)
    (known : vault.positions.get? id = some other) (away : request.position ≠ some id) :
    id ≠ position.id := by
  cases named : request.position with
  | none => exact (operates.opens named).elsewhere known
  | some target =>
    rintro rfl
    exact away (named.trans (congrArg some (operates.addressed target named).symm))

theorem slotWiped_eq {tick : Int} (settled : position.Settled vault.ledger)
    (here : position.tick = some tick) :
    vault.slotWiped position = .ok (decide (0 < position.tickSlot ∧
      position.tickSlot ≤ (vault.ledger.tickAt tick).liquidatedSlot)) := by
  obtain ⟨record, recorded⟩ := Option.isSome_iff_exists.mp (settled.known tick here)
  simp only [slotWiped, Position.record?, here, Ledger.peek?_int, recorded, ok_bind,
    TickRecord.slotLiquidated_int, Ledger.tickAt_of_get? recorded]

theorem slotWiped_iff (settled : position.Settled vault.ledger) :
    vault.slotWiped position = .ok true ↔ ∃ tick, position.tick = some tick ∧
      0 < position.tickSlot ∧
      position.tickSlot ≤ (vault.ledger.tickAt tick).liquidatedSlot := by
  cases here : position.tick with
  | none => simp [slotWiped, Position.record?, here]
  | some tick => simp [slotWiped_eq settled here]

theorem share_of_wiped (settled : position.Settled vault.ledger)
    (wiped : vault.slotWiped position = .ok true) : position.share vault.ledger = ⟨0, 0, 0⟩ := by
  obtain ⟨tick, here, gone⟩ := (slotWiped_iff settled).mp wiped
  simp only [Position.share, here, Position.shareOf_wiped gone]

/-- Later occupants of a tick do not bring back those who were wiped there. -/
theorem slotWiped_of_wanes (settled : position.Settled vault.ledger)
    (settled' : position.Settled after.ledger) (seated : position.Seated vault.ledger)
    (wanes : vault.ledger.Wanes after.ledger) (wiped : vault.slotWiped position = .ok true) :
    after.slotWiped position = .ok true := by
  obtain ⟨tick, here, given, gone⟩ := (slotWiped_iff settled).mp wiped
  refine (slotWiped_iff settled').mpr ⟨tick, here, given, ?_⟩
  exact Position.wiped_of_fades (wanes.terms tick) (seated.slot tick here).2 gone

end Vault

namespace Engine

variable {engine start : Engine Int} {call : Call} {after : Vault Int} {actions : List Action}
  {id : Int} {position : Position Int}

/-- What a call does to those whose positions it is not about: it keeps the terms of all ticks, or
it liquidates. -/
inductive Passes (engine : Engine Int) : Call → Vault Int → Prop
  | kept {call : Call} {after : Vault Int} (terms : engine.vault.ledger.Extends after.ledger) :
      Passes engine call after
  | liquidated {request : LiquidateRequest} {budget left : Budget}
      {settlement : Settlement Int (LiquidationReceipt Int)}
      (done : attempt budget (engine.vault.liquidate engine.host request) =
        .ok (settlement, left)) : Passes engine (.liquidate request budget) settlement.vault
  | absorbed {budget left : Budget} {settlement : Settlement Int (Int × Int)}
      (done : attempt budget (engine.vault.absorb engine.host) = .ok (settlement, left)) :
      Passes engine (.absorb budget) settlement.vault

theorem Works.passes (standing : engine.Standing) (works : engine.Works call after actions)
    (known : engine.vault.positions.get? id = some position) (away : call.target ≠ some id) :
    engine.Passes call after ∧ after.positions.get? id = some position := by
  have orderly := standing.vault
  cases works with
  | idle => exact ⟨.kept (.refl _), known⟩
  | opened created =>
    have opens := Vault.createPosition_opens created
    have confined := opens.confined
    exact ⟨.kept confined.terms, (confined.others id (opens.elsewhere known)).trans known⟩
  | operated done =>
    obtain ⟨_, _, _, operates⟩ := Vault.operate_ok orderly done
    obtain ⟨-, -, -, confined⟩ := operates.settles orderly standing.supply
    have elsewhere := operates.elsewhere known away
    exact ⟨.kept confined.terms, (confined.others id elsewhere).trans known⟩
  | liquidated done =>
    have takes := (Vault.liquidate_takes orderly.toCoherent done).1
    exact ⟨.liquidated done, takes.positions ▸ known⟩
  | absorbed done =>
    have takes := (Vault.absorb_takes orderly.toCoherent done).1
    exact ⟨.absorbed done, takes.positions ▸ known⟩

theorem Standing.passes (standing : engine.Standing) (call : Call)
    (known : engine.vault.positions.get? id = some position) (away : call.target ≠ some id) :
    engine.Passes call (engine.perform call).engine.vault ∧
      (engine.perform call).engine.vault.positions.get? id = some position := by
  obtain ⟨_, works, -⟩ := perform_works engine call
  exact works.passes standing known away

theorem Passes.wanes (standing : engine.Standing) (passes : engine.Passes call after) :
    engine.vault.ledger.Wanes after.ledger := by
  have orderly := standing.vault
  cases passes with
  | kept terms => exact terms.wanes
  | liquidated done => exact (Vault.liquidate_takes orderly.toCoherent done).1.wanes orderly.peopled
  | absorbed done =>
    have takes := (Vault.absorb_takes orderly.toCoherent done).1
    exact (takes.weaken fun _ _ => .cleared).wanes orderly.peopled

theorem Standing.run_wanes (standing : engine.Standing) (later : List Call)
    (known : engine.vault.positions.get? id = some position)
    (away : ∀ call ∈ later, call.target ≠ some id) :
    (engine.run later).vault.positions.get? id = some position ∧
      engine.vault.ledger.Wanes (engine.run later).vault.ledger := by
  induction later generalizing engine with
  | nil => exact ⟨known, .refl _⟩
  | cons call rest ih =>
    obtain ⟨passes, known'⟩ := standing.passes call known (away call List.mem_cons_self)
    obtain ⟨known'', wanes⟩ := ih (standing.perform call) known' fun other member =>
      away other (List.mem_cons_of_mem _ member)
    exact ⟨known'', (passes.wanes standing).trans wanes⟩

theorem Works.unburdened (standing : engine.Standing) (unburdened : engine.vault.Unburdened)
    (works : engine.Works call after actions) : after.Unburdened := by
  have orderly := standing.vault
  cases works with
  | idle => exact unburdened
  | @opened _ position after created =>
    have opens := Vault.createPosition_opens created
    refine opens.confined.unburdened unburdened fun found known => ?_
    obtain ⟨state, rfl, -⟩ := opens.after
    rw [Vault.get?_putAt, if_pos rfl] at known
    cases known
    exact fun _ => opens.idle
  | operated done =>
    obtain ⟨_, _, _, operates⟩ := Vault.operate_ok orderly done
    obtain ⟨-, stored, intact, confined⟩ := operates.settles orderly standing.supply
    refine confined.unburdened unburdened fun found known => ?_
    cases stored.symm.trans known
    exact intact.unburdened
  | liquidated done =>
    intro id found known
    rw [(Vault.liquidate_takes orderly.toCoherent done).1.positions] at known
    exact unburdened id found known
  | absorbed done =>
    intro id found known
    rw [(Vault.absorb_takes orderly.toCoherent done).1.positions] at known
    exact unburdened id found known

theorem Standing.run_unburdened (standing : engine.Standing)
    (unburdened : engine.vault.Unburdened) (calls : List Call) :
    (engine.run calls).vault.Unburdened := by
  apply standing.run_keeps (fun after => after.vault.Unburdened) _ unburdened
  intro before call standing unburdened
  obtain ⟨_, works, -⟩ := perform_works before call
  exact works.unburdened standing unburdened

theorem New.unburdened (new : start.New) : start.vault.Unburdened := by
  obtain ⟨id, config, validated, host, -, rfl⟩ := new.created
  intro id found known
  cases known

/-- A position that no call operates on keeps its record, and from any state to any later one it
holds no more of anything: at first no more than it was put down with, and nothing once its slot is
wiped. -/
theorem run_untouched (new : start.New) (calls later rest : List Call)
    (known : (start.run calls).vault.positions.get? id = some position)
    (away : ∀ call ∈ later ++ rest, call.target ≠ some id) :
    let before := (start.run (calls ++ later)).vault
    let after := (start.run (calls ++ later ++ rest)).vault
    before.positions.get? id = some position ∧ after.positions.get? id = some position ∧
      ∃ held held', before.holdings position = .ok held ∧ after.holdings position = .ok held' ∧
        held.Within position.stored ∧ held'.Within held ∧
        (before.slotWiped position = .ok true →
          after.slotWiped position = .ok true ∧ held = ⟨0, 0, 0⟩ ∧ held' = ⟨0, 0, 0⟩) := by
  intro before after
  have standing : (start.run (calls ++ later)).Standing := new.standing.run _
  have standing' : (start.run (calls ++ later ++ rest)).Standing := new.standing.run _
  have known_before : before.positions.get? id = some position := by
    change (start.run (calls ++ later)).vault.positions.get? id = some position
    rw [run_append]
    exact ((new.standing.run calls).run_wanes later known fun call member =>
      away call (List.mem_append_left _ member)).1
  have passed := standing.run_wanes rest known_before fun call member =>
    away call (List.mem_append_right _ member)
  rw [← run_append] at passed
  obtain ⟨known_after, wanes⟩ := passed
  have settled := standing.vault.peopled.settled known_before
  have settled' := standing'.vault.peopled.settled known_after
  have seated := standing.vault.peopled.seated id position known_before
  have funded := (standing.sized id position known_before).funded
    (standing.vault.peopled.funded id position known_before)
  have unburdened := new.standing.run_unburdened new.unburdened _ id position known_before
  refine ⟨known_before, known_after, _, _, Vault.holdings_eq settled, Vault.holdings_eq settled',
    Position.share_within_stored funded unburdened settled,
    Position.share_within funded seated settled standing'.vault.peopled.factor wanes, ?_⟩
  intro wiped
  have wiped' := Vault.slotWiped_of_wanes settled settled' seated wanes wiped
  exact ⟨wiped', Vault.share_of_wiped settled wiped, Vault.share_of_wiped settled' wiped'⟩

def wipeout : List Call :=
  [.setOracle 500000000000000, .liquidate { debt := 2000000000000000000 } .unlimited]

def succession : List Call :=
  [.setOracle 1000000000000000, borrower "b", .setOracle 500000000000000,
    .liquidate { debt := 500000000000000000 } .unlimited]

def debtor : Position Int where
  id := 1
  owner := .text "a"
  collateral := 2000000000000000000
  debt := 1000666633494986967
  dustDebt := 666633494986967
  tick := some (-462)
  tickSlot := 1
  branch := 1
  debtFactor := factorScale

theorem succession_untouched :
    let before := (standard.run ([borrower "a"] ++ wipeout)).vault
    let after := (standard.run ([borrower "a"] ++ wipeout ++ succession)).vault
    standard.New ∧ (standard.run [borrower "a"]).vault.positions.get? 1 = some debtor ∧
      (∀ call ∈ wipeout ++ succession, call.target ≠ some 1) ∧
      before.slotWiped debtor = .ok true ∧ after.slotWiped debtor = .ok true ∧
      after.holdings debtor = .ok ⟨0, 0, 0⟩ ∧
      0 < (after.ledger.tickAt (-462)).rawDebt := by
  intro before after
  have known : (standard.run [borrower "a"]).vault.positions.get? 1 = some debtor := by
    decide +kernel
  have away : ∀ call ∈ wipeout ++ succession, call.target ≠ some 1 := by decide
  have wiped : before.slotWiped debtor = .ok true := by decide +kernel
  obtain ⟨-, -, held, held', -, later, -, -, gone⟩ :=
    run_untouched standard_new [borrower "a"] wipeout succession known away
  obtain ⟨wiped', -, rfl⟩ := gone wiped
  exact ⟨standard_new, known, away, wiped, wiped', later, by decide +kernel⟩

end Engine

end TickVault
