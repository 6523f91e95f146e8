import TickVault.Proofs.Tick.Threshold
import TickVault.Proofs.Untouched
import TickVault.Proofs.Walk.Reach

/-!
An accepted position is safe. An operation is let through only if its position ends up at or below
the tick that a risk threshold draws, and liquidations stop at the tick of a threshold that is no
lower. So while no liquidation happens at a worse raw rate than the operation did, the position
keeps all that it was put down with.
-/

namespace TickVault

def Call.Liquidates : Call → Prop
  | .liquidate _ _ | .absorb _ => True
  | _ => False

/-- A position at or below the tick that a host draws for some threshold, one up to the liquidation
threshold of an ordered configuration. -/
structure Position.Sheltered (position : Position Int) (host : Host) (config : Config Int) :
    Prop where
  supply : 0 < host.liquidity.prices.supply
  borrow : 0 < host.liquidity.prices.borrow
  ordered : config.Ordered
  low : ∀ tick, position.tick = some tick → ∃ threshold limit, 0 ≤ threshold ∧
    threshold ≤ config.liquidationThreshold ∧ host.limit threshold = .ok limit ∧ tick ≤ limit

theorem Position.Sheltered.below {position : Position Int} {host host' : Host}
    {config : Config Int} {threshold limit : Int} (sheltered : position.Sheltered host config)
    (borrow : 0 < host'.liquidity.prices.borrow) (rates : host.rawRate ≤ host'.rawRate)
    (higher : config.liquidationThreshold ≤ threshold)
    (limited : host'.limit threshold = .ok limit) :
    ∀ tick, position.tick = some tick → tick ≤ limit := by
  intro tick here
  obtain ⟨drawn, first, nonneg, less, limited', below⟩ := sheltered.low tick here
  calc tick ≤ first := below
    _ ≤ limit := Host.limit_mono sheltered.borrow borrow rates nonneg
      (Int.le_trans less higher) limited' limited

namespace Vault

variable {vault after : Vault Int} {position : Position Int} {host : Host} {limit : Int}

theorem checkSafety_sheltered {riskier : Bool} (supply : 0 < host.liquidity.prices.supply)
    (borrow : 0 < host.liquidity.prices.borrow) (ordered : vault.config.Ordered)
    (safe : vault.checkSafety host position riskier = .ok ()) :
    position.Sheltered host vault.config := by
  refine ⟨supply, borrow, ordered, ?_⟩
  intro tick here
  have positive := Int.le_of_lt ordered.positive
  simp only [checkSafety, here, toInt_int, ok_bind] at safe
  split at safe <;> simp only [bind_eq_ok, ensure_eq_ok_iff] at safe <;>
    obtain ⟨rate, rated, limit, drawn, below⟩ := safe
  · have limited : host.limit vault.config.collateralFactor = .ok limit := by
      simp only [Host.limit, rated, ok_bind]
      exact drawn
    exact ⟨_, limit, positive, ordered.liquidated, limited, below⟩
  · have limited : host.limit vault.config.liquidationThreshold = .ok limit := by
      simp only [Host.limit, rated, ok_bind]
      exact drawn
    exact ⟨_, limit, Int.le_trans positive ordered.liquidated, Int.le_refl _, limited, below⟩

theorem StaysAbove.intact (stays : vault.StaysAbove limit after)
    (below : ∀ tick, position.tick = some tick → tick ≤ limit)
    (intact : position.Intact vault.ledger) : position.Intact after.ledger := by
  apply intact.keep
  intro tick here
  rw [stays tick (below tick here)]
  exact ⟨rfl, rfl⟩

theorem slotWiped_of_intact (settled : position.Settled vault.ledger)
    (intact : position.Intact vault.ledger) : vault.slotWiped position = .ok false := by
  cases here : position.tick with
  | none => simp [slotWiped, Position.record?, here]
  | some tick =>
    rw [slotWiped_eq settled here, decide_eq_false (intact.occupies tick here).2]

end Vault

namespace Engine

variable {engine start : Engine Int} {call : Call} {after : Vault Int} {position : Position Int}
  {id rate : Int} {host : Host} {request : OperateRequest}
  {snapshot : PositionSnapshot Int}

/-- All liquidations of a run happen at that raw rate or a better one. -/
def RatedAbove (rate : Int) (engine : Engine Int) : List Call → Prop
  | [] => True
  | call :: rest =>
    (call.Liquidates → rate ≤ engine.host.rawRate) ∧
      RatedAbove rate (engine.perform call).engine rest

theorem RatedAbove.take {later : List Call} (rated : engine.RatedAbove rate later) (n : Nat) :
    engine.RatedAbove rate (later.take n) := by
  induction later generalizing engine n with
  | nil => rwa [List.take_nil]
  | cons call rest ih =>
    cases n with
    | zero => trivial
    | succ n => exact ⟨rated.1, ih rated.2 n⟩

theorem Standing.perform_config (standing : engine.Standing) (call : Call) :
    (engine.perform call).engine.vault.config = engine.vault.config := by
  obtain ⟨_, deals, -⟩ := standing.performs call
  exact (deals.keeps standing).2.2.1

theorem Standing.run_config (standing : engine.Standing) (calls : List Call) :
    (engine.run calls).vault.config = engine.vault.config := by
  apply standing.run_keeps (fun after => after.vault.config = engine.vault.config) _ rfl
  intro before call standing same
  exact (standing.perform_config call).trans same

theorem New.ordered (new : start.New) : start.vault.config.Ordered := by
  obtain ⟨id, config, validated, host, valid, rfl⟩ := new.created
  exact Config.validate_ordered valid

/-- A call that is not about an intact position, and that liquidates at no worse a rate than the
position was accepted at, leaves it intact. -/
theorem Passes.intact (standing : engine.Standing)
    (sheltered : position.Sheltered host engine.vault.config)
    (rates : call.Liquidates → host.rawRate ≤ engine.host.rawRate)
    (passes : engine.Passes call after) (intact : position.Intact engine.vault.ledger) :
    position.Intact after.ledger := by
  have coherent := standing.vault.toCoherent
  cases passes with
  | kept terms => exact intact.keep fun t _ => ⟨terms.factor t, terms.liquidatedSlot t⟩
  | liquidated done =>
    obtain ⟨limit, limited, stays⟩ := Vault.liquidate_staysAbove coherent standing.governed done
    have below := sheltered.below standing.borrow (rates trivial) (Int.le_refl _) limited
    exact stays.intact below intact
  | absorbed done =>
    obtain ⟨limit, limited, stays⟩ := Vault.absorb_staysAbove coherent standing.governed done
    have below := sheltered.below standing.borrow (rates trivial) sheltered.ordered.absorbed limited
    exact stays.intact below intact

theorem Standing.run_intact (standing : engine.Standing) {later : List Call}
    (sheltered : position.Sheltered host engine.vault.config)
    (known : engine.vault.positions.get? id = some position)
    (intact : position.Intact engine.vault.ledger)
    (away : ∀ call ∈ later, call.target ≠ some id)
    (rated : engine.RatedAbove host.rawRate later) :
    (engine.run later).vault.positions.get? id = some position ∧
      position.Intact (engine.run later).vault.ledger := by
  induction later generalizing engine with
  | nil => exact ⟨known, intact⟩
  | cons call rest ih =>
    obtain ⟨passes, known'⟩ := standing.passes call known (away call List.mem_cons_self)
    have intact' := passes.intact standing sheltered rated.1 intact
    rw [← standing.perform_config call] at sheltered
    apply ih (standing.perform call) sheltered known' intact' _ rated.2
    intro other member
    exact away other (List.mem_cons_of_mem _ member)

theorem Standing.accepts (standing : engine.Standing) (ordered : engine.vault.config.Ordered)
    (answered : (engine.perform (.operate request)).reply = .ok (.operated snapshot)) :
    ∃ position, (engine.perform (.operate request)).engine.vault.positions.get?
        snapshot.position = some position ∧
      position.Intact (engine.perform (.operate request)).engine.vault.ledger ∧
      position.Sheltered engine.host engine.vault.config := by
  obtain ⟨settlement, done, told, same, -⟩ := conclude_answered answered
  cases told
  obtain ⟨_, _, outcome, operates⟩ := Vault.operate_ok standing.vault done
  obtain ⟨named, stored, intact, -⟩ := operates.settles standing.vault standing.supply
  obtain ⟨events, after⟩ := operates.vault
  rw [← same] at stored intact
  have config : outcome.vault.config = engine.vault.config := by
    rw [← standing.perform_config (.operate request)]
    exact (congrArg Vault.config (same.trans after)).symm
  refine ⟨outcome.position, named ▸ stored, intact, ?_⟩
  rw [← config] at ordered ⊢
  exact Vault.checkSafety_sheltered standing.supply standing.borrow ordered operates.safe

/-- After an operation that succeeds, its position holds what it was put down with, and its slot is
not wiped, for as long as nobody operates on it and no liquidation happens at a worse raw rate than
the operation did. -/
theorem run_accepted (new : start.New) (calls later : List Call)
    (answered : ((start.run calls).perform (.operate request)).reply = .ok (.operated snapshot))
    (away : ∀ call ∈ later, call.target ≠ some snapshot.position)
    (rated : ((start.run calls).perform (.operate request)).engine.RatedAbove
      (start.run calls).host.rawRate later) (n : Nat) :
    let accepted := ((start.run calls).perform (.operate request)).engine
    let after := (accepted.run (later.take n)).vault
    ∃ position, accepted.vault.positions.get? snapshot.position = some position ∧
      after.positions.get? snapshot.position = some position ∧
      accepted.vault.holdings position = .ok position.stored ∧
      after.holdings position = .ok position.stored ∧
      after.slotWiped position = .ok false := by
  intro accepted after
  have standing := new.standing.run calls
  have accepted_standing : accepted.Standing := standing.perform (.operate request)
  have ordered : (start.run calls).vault.config.Ordered := by
    rw [new.standing.run_config calls]
    exact new.ordered
  obtain ⟨position, known, intact, sheltered⟩ := standing.accepts ordered answered
  rw [← standing.perform_config (.operate request)] at sheltered
  have away' : ∀ call ∈ later.take n, call.target ≠ some snapshot.position :=
    fun call member => away call (List.mem_of_mem_take member)
  obtain ⟨known', intact'⟩ :=
    accepted_standing.run_intact sheltered known intact away' (rated.take n)
  have settled := accepted_standing.vault.peopled.settled known
  have settled' := (accepted_standing.run (later.take n)).vault.peopled.settled known'
  refine ⟨position, known, known', ?_, ?_, Vault.slotWiped_of_intact settled' intact'⟩
  · rw [← intact.share]
    exact Vault.holdings_eq settled
  · rw [← intact'.share]
    exact Vault.holdings_eq settled'

def decline : List Call :=
  [.setOracle 2000000000000000,
    .operate {
      position := none
      collateral := 2000000000000000000
      debt := 1950000000000000000
      signer := "a" },
    .setOracle 1000000000000000]

def careful : OperateRequest where
  position := none
  collateral := 2000000000000000000
  debt := 1000000000000000000
  signer := "b"

/-- The first borrower is liquidated in part, the price dips, and the rest is absorbed once it has
come back. -/
def reckoning : List Call :=
  [.liquidate { debt := 500000000000000000 } .unlimited, .setOracle 650000000000000,
    .setOracle 1000000000000000, .absorb .unlimited]

theorem reckoning_accepted :
    let accepted := ((standard.run decline).perform (.operate careful)).engine
    let after := (accepted.run reckoning).vault
    standard.New ∧ accepted.RatedAbove (standard.run decline).host.rawRate reckoning ∧
      (∃ position, accepted.vault.positions.get? 2 = some position ∧
        after.holdings position = .ok position.stored ∧
        after.slotWiped position = .ok false) ∧
      after.state.totalBorrow < accepted.vault.state.totalBorrow ∧ 0 < after.state.absorbedDebt := by
  intro accepted after
  have answered : ((standard.run decline).perform (.operate careful)).reply = .ok (.operated {
      position := 2, owner := .text "b", tick := some (-462), tickSlot := 1
      collateralRaw := 2000000000000000000, debtRaw := 1000000000000000000
      collateral := 2000000000000000000, debt := 1000000000000000000
      collateralTransfer := 2000000000000000000, debtTransfer := 1000000000000000000 }) := by
    decide +kernel
  have away : ∀ call ∈ reckoning, call.target ≠ some 2 := by decide
  have rated : accepted.RatedAbove (standard.run decline).host.rawRate reckoning :=
    ⟨fun _ => by decide +kernel, nofun, nofun, fun _ => by decide +kernel, trivial⟩
  obtain ⟨position, known, -, -, kept, free⟩ :=
    run_accepted standard_new decline reckoning answered away rated reckoning.length
  exact ⟨standard_new, rated, ⟨position, known, kept, free⟩, by decide +kernel, by decide +kernel⟩

end Engine

end TickVault
