import TickVault.Proofs.Exactness
import TickVault.Proofs.Supply
import TickVault.Proofs.Untouched
import TickVault.Proofs.Walk.Resume

namespace TickVault

theorem TickRecord.Cleared.trans {record record' record'' : TickRecord Int}
    (first : record.Cleared record') (second : record'.Cleared record'') :
    record.Cleared record'' := by
  cases second with
  | kept => exact first
  | wiped branch => exact first.wipe branch

namespace Vault

variable {vault middle after : Vault Int} {limit requested : Int} {budget left : Budget}
  {host : Host} {request : LiquidateRequest} {position : Position Int} {id : Int}

theorem takes_nothing (sound : vault.Sound) : vault.Takes TickRecord.Cleared vault where
  sound := sound
  records _ := .kept
  known _ := id
  supply := rfl
  borrow := rfl
  config := rfl
  positions := rfl

theorem Takes.trans (first : vault.Takes TickRecord.Cleared middle)
    (second : middle.Takes TickRecord.Cleared after) : vault.Takes TickRecord.Cleared after where
  sound := second.sound
  records t := (first.records t).trans (second.records t)
  known t there := second.known t (first.known t there)
  supply := by
    have supply := first.supply
    have supply' := second.supply
    omega
  borrow := by
    have borrow := first.borrow
    have borrow' := second.borrow
    omega
  config := second.config.trans first.config
  positions := second.positions.trans first.positions

theorem fillAbove_clears {taken : Liquidation Int} (orderly : vault.Orderly)
    (governed : vault.Governed) (enough : vault.state.totalBorrow ≤ requested)
    (done : attempt budget (vault.fillAbove limit requested) = .ok (taken, left)) :
    vault.Takes TickRecord.Cleared taken.vault ∧
      taken.vault.state.topmost = vault.state.topmost := by
  obtain ⟨ticks, pass, booked, found, filled, books, rfl⟩ := fillAbove_iff.mp done
  obtain ⟨_, found', ahead⟩ := orderly.ticksAbove_ahead limit
  cases found.symm.trans found'
  have covered : vault.ledger.debt ≤ requested := orderly.debt ▸ enough
  have proceeds := Pass.proceeds_start orderly.toSound governed
  have absorbed : attempt budget (Pass.absorb { vault } ticks) = .ok (pass, left) :=
    (proceeds.absorb_eq_fill ahead covered budget).trans filled
  have follows := (Pass.follows_start orderly.toSound).absorb
    (fun tick member => (ticksAbove_holds orderly.toCoherent found member).range) absorbed
  exact book_takes follows books

theorem liquidate_clears {settlement : Settlement Int (LiquidationReceipt Int)}
    (orderly : vault.Orderly) (governed : vault.Governed) (mode : request.absorb = false)
    (enough : vault.state.totalBorrow ≤ request.debt)
    (done : attempt budget (vault.liquidate host request) = .ok (settlement, left)) :
    vault.Takes TickRecord.Cleared settlement.vault := by
  obtain ⟨taken, liquidates⟩ := liquidate_ok done
  obtain ⟨limit, -, took⟩ := liquidates.took
  obtain ⟨settled, events, settles, after⟩ := liquidates.settled
  simp only [take, mode, Bool.false_eq_true, if_false] at took
  obtain ⟨takes, topmost⟩ := fillAbove_clears orderly governed enough took
  rw [after]
  exact (takes.settle orderly.toCoherent (fun _ _ => TickRecord.Cleared.rawDebt_le) topmost
    settles).1.withEvents events

theorem Matched.share_eq (orderly : vault.Orderly) (unburdened : vault.Unburdened)
    (matched : vault.Matched) (known : vault.positions.get? id = some position) :
    ∃ wiped, vault.slotWiped position = .ok wiped ∧
      position.share vault.ledger = if wiped then ⟨0, 0, 0⟩ else position.stored := by
  cases here : position.tick with
  | none =>
    obtain ⟨debt, dust⟩ := unburdened id position known here
    refine ⟨false, ?_, ?_⟩
    · simp only [slotWiped, Position.record?, here, ok_bind, pure_eq_ok]
    · simp only [Position.share_untied here, Position.stored, debt, dust, Bool.false_eq_true,
        if_false]
  | some tick =>
    have settled := orderly.peopled.settled known
    have factor : (vault.ledger.tickAt tick).debtFactor = position.debtFactor := by
      rw [matched.factor, matched.entry id position known (by rw [here]; rfl)]
    refine ⟨_, slotWiped_eq settled here, ?_⟩
    simp only [Position.share, here]
    by_cases gone : 0 < position.tickSlot ∧
        position.tickSlot ≤ (vault.ledger.tickAt tick).liquidatedSlot
    · simp only [Position.shareOf_wiped gone, gone, and_self, decide_true, if_true]
    · rw [Position.shareOf_entry factor gone, decide_eq_false gone]
      rfl

end Vault

namespace Engine

variable {engine start : Engine Int}

def demand (engine : Engine Int) (limit : Int) : Call :=
  .liquidate { debt := engine.vault.state.totalBorrow } (.fixed limit 0)

def swept (engine : Engine Int) (rate : Int) : Engine Int :=
  engine.run [.setOracle rate, .absorb .unlimited]

/-- One step of a price walk: whatever can be absorbed or liquidated is. -/
def stride (limit : Int) (engine : Engine Int) (rate : Int) : Engine Int :=
  if 0 < (engine.swept rate).vault.state.totalBorrow then
    ((engine.swept rate).perform ((engine.swept rate).demand limit)).engine
  else engine.swept rate

def walked (engine : Engine Int) (limit : Int) (rates : List Int) : Engine Int :=
  rates.foldl (stride limit) engine

/-- A price walk is a run, though its calls depend on what the vault is owed in between. -/
theorem walked_eq_run (engine : Engine Int) (limit : Int) (rates : List Int) :
    ∃ calls, engine.walked limit rates = engine.run calls := by
  induction rates generalizing engine with
  | nil => exact ⟨[], rfl⟩
  | cons rate rest ih =>
    have first : ∃ calls, engine.stride limit rate = engine.run calls := by
      unfold stride
      split
      · exact ⟨_, (run_concat engine [.setOracle rate, .absorb .unlimited] _).symm⟩
      · exact ⟨_, rfl⟩
    obtain ⟨calls, same⟩ := first
    obtain ⟨later, same'⟩ := ih (engine.stride limit rate)
    refine ⟨calls ++ later, ?_⟩
    calc engine.walked limit (rate :: rest)
        = (engine.stride limit rate).walked limit rest := rfl
      _ = (engine.run calls).run later := by rw [same', same]
      _ = engine.run (calls ++ later) := (run_append engine calls later).symm

theorem Standing.walked (standing : engine.Standing) (limit : Int) (rates : List Int) :
    (engine.walked limit rates).Standing := by
  obtain ⟨calls, same⟩ := engine.walked_eq_run limit rates
  rw [same]
  exact standing.run calls

theorem Standing.demand_clears (standing : engine.Standing) (limit : Int) :
    engine.vault.Takes TickRecord.Cleared
      (engine.perform (engine.demand limit)).engine.vault := by
  have orderly := standing.vault
  rw [demand, perform_liquidate]
  rcases (conclude_vault engine _ _ _).1 with same | ⟨settlement, worked, after⟩
  · rw [same]
    exact Vault.takes_nothing orderly.toSound
  · rw [after]
    exact Vault.liquidate_clears orderly standing.governed rfl (Int.le_refl _)
      (attempt_eq_ok_iff.mpr (Prod.ext worked rfl))

theorem Standing.swept_clears (standing : engine.Standing) (rate : Int) :
    engine.vault.Takes TickRecord.Cleared (engine.swept rate).vault := by
  have repriced : (engine.perform (.setOracle rate)).engine.Standing := standing.perform _
  rcases repriced.toOrderly.absorb .unlimited with same | ⟨takes, -⟩
  · have kept : (engine.swept rate).vault = engine.vault := same
    rw [kept]
    exact Vault.takes_nothing standing.vault.toSound
  · exact takes

theorem Standing.stride_clears (standing : engine.Standing) (limit rate : Int) :
    engine.vault.Takes TickRecord.Cleared (engine.stride limit rate).vault := by
  have swept := standing.swept_clears rate
  unfold stride
  split
  · exact swept.trans ((standing.run _).demand_clears limit)
  · exact swept

theorem Standing.walked_clears (standing : engine.Standing) (limit : Int) (rates : List Int) :
    engine.vault.Takes TickRecord.Cleared (engine.walked limit rates).vault := by
  induction rates generalizing engine with
  | nil => exact Vault.takes_nothing standing.vault.toSound
  | cons rate rest ih =>
    exact (standing.stride_clears limit rate).trans (ih (standing.walked limit [rate]))

end Engine

end TickVault
