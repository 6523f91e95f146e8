import TickVault.Proofs.Simulation.Course

namespace TickVault

theorem Position.Sized.net_ne_zero_iff {position : Position Int} (sized : position.Sized)
    (unburdened : position.Unburdened) :
    position.debt - position.dustDebt ≠ 0 ↔ 0 < position.debt := by
  cases here : position.tick with
  | none =>
    obtain ⟨debt, dust⟩ := unburdened here
    rw [debt, dust]
    decide
  | some tick =>
    have somewhere : position.tick.isSome := here ▸ rfl
    have least := sized.debt somewhere
    simp only [minDebt] at least
    exact iff_of_true (by omega) (sized.debt_pos somewhere)

theorem mapM_eq_ok_map {α β : Type} {f : α → Except Fault β} {g : α → β} {list : List α}
    (each : ∀ a ∈ list, f a = .ok (g a)) : list.mapM f = .ok (list.map g) := by
  induction list with
  | nil => rfl
  | cons a rest ih =>
    rw [List.mapM_cons, each a List.mem_cons_self,
      ih fun b member => each b (List.mem_cons_of_mem a member)]
    rfl

def Vault.indebted (vault : Vault Int) (position : Position Int) : Bool :=
  decide (vault.slotWiped position = .ok false ∧ 0 < position.debt)

namespace Engine

variable {engine start : Engine Int} {position : Position Int} {id : Int}
  {amounts : List (Int × Int)}

/-- An engine at which no tick was ever reduced in part. -/
structure Whole (engine : Engine Int) : Prop extends Simulation.Closable engine where
  matched : engine.vault.Matched
  surplus : engine.vault.surplus = 0
  unburdened : engine.vault.Unburdened

theorem New.whole (new : start.New) (unbounded : start.host.capacity = none) : start.Whole where
  toStanding := new.standing
  supplied := Int.le_of_eq new.supply.symm
  unbounded := unbounded
  matched := new.matched
  surplus := new.surplus
  unburdened := new.unburdened

theorem Whole.run (whole : engine.Whole) {calls : List Call}
    (sweeps : ∀ call ∈ calls, call.sweeps) : (engine.run calls).Whole := by
  obtain ⟨matched, surplus⟩ := whole.run_matched sweeps whole.matched whole.surplus
  exact ⟨whole.toClosable.run calls, matched, surplus, whole.run_unburdened whole.unburdened calls⟩

theorem Whole.walked (whole : engine.Whole) (limit : Int) (rates : List Int) :
    (engine.walked limit rates).Whole := by
  have clears := whole.walked_clears limit rates
  have closable : Simulation.Closable (engine.walked limit rates) := by
    obtain ⟨calls, same⟩ := engine.walked_eq_run limit rates
    rw [same]
    exact whole.toClosable.run calls
  refine ⟨closable, whole.matched.takes whole.vault clears, ?_, ?_⟩
  · rw [whole.matched.takes_surplus whole.vault clears closable.vault, whole.surplus]
  · intro id position known
    rw [clears.positions] at known
    exact whole.unburdened id position known

theorem Whole.holdings (whole : engine.Whole)
    (known : engine.vault.positions.get? id = some position) :
    ∃ wiped, engine.vault.slotWiped position = .ok wiped ∧
      engine.vault.holdings position = .ok (if wiped then ⟨0, 0, 0⟩ else position.stored) := by
  obtain ⟨wiped, slot, share⟩ := whole.matched.share_eq whole.vault whole.unburdened known
  refine ⟨wiped, slot, ?_⟩
  rw [Vault.holdings_eq (whole.vault.peopled.settled known), share]

/-- Those who owe anything net of their dust are the ones who have debt that was not wiped. -/
theorem Whole.owes_eq (whole : engine.Whole)
    (known : engine.vault.positions.get? id = some position) :
    position.owes engine.vault.ledger = engine.vault.indebted position := by
  obtain ⟨wiped, slot, share⟩ := whole.matched.share_eq whole.vault whole.unburdened known
  rw [Position.owes, Vault.indebted, slot, share]
  cases wiped with
  | true => rfl
  | false =>
    have net := (whole.sized id position known).net_ne_zero_iff (whole.unburdened id position known)
    simp only [Bool.false_eq_true, if_false, Position.stored, true_and, net]

theorem Whole.indebted_of_occupies {t : Int} (whole : engine.Whole)
    (known : engine.vault.positions.get? id = some position)
    (occupies : position.Occupies engine.vault.ledger t) : engine.vault.indebted position := by
  rw [Vault.indebted, Vault.slotWiped_eq (whole.vault.peopled.settled known) occupies.1,
    decide_eq_false occupies.2, decide_eq_true_iff]
  exact ⟨rfl, (whole.sized id position known).debt_pos occupies.isSome⟩

theorem Whole.sums (whole : engine.Whole) :
    ∃ helds, engine.vault.positions.values.mapM engine.vault.holdings = .ok helds ∧
      engine.vault.state.totalBorrow = (helds.map Holdings.debt).sum ∧
      engine.vault.state.totalSupply = (helds.map Holdings.collateral).sum := by
  have peopled := whole.vault.peopled
  have each : ∀ position ∈ engine.vault.positions.values,
      engine.vault.holdings position = .ok (position.share engine.vault.ledger) := by
    intro position member
    obtain ⟨id, known⟩ := (Table.mem_values_iff peopled.distinct).mp member
    exact Vault.holdings_eq (peopled.settled known)
  refine ⟨_, mapM_eq_ok_map each, ?_, ?_⟩
  · rw [List.map_map]
    exact whole.matched.borrow whole.vault
  · rw [List.map_map]
    exact Int.eq_of_sub_eq_zero whole.surplus

theorem Whole.closeAll {simulation : Simulation} (whole : simulation.engine.Whole) :
    ∃ closed, attempt simulation Simulation.closeAll =
        .ok (simulation.engine.vault.positions.values.countP simulation.engine.vault.indebted,
          closed) ∧
      closed.engine.vault.state.totalBorrow = 0 ∧ closed.engine.vault.state.topmost = none ∧
      closed.engine.vault.state.totalSupply = simulation.engine.vault.state.totalSupply := by
  have peopled := whole.vault.peopled
  obtain ⟨positions, listed, all⟩ := simulation.engine.vault.positionList_ok
  have owing : ∀ id position t, simulation.engine.vault.positions.get? id = some position →
      position.Occupies simulation.engine.vault.ledger t →
        position.owes simulation.engine.vault.ledger := by
    intro id position t known occupies
    rw [whole.owes_eq known]
    exact whole.indebted_of_occupies known occupies
  have count : positions.countP (Position.owes simulation.engine.vault.ledger) =
      simulation.engine.vault.positions.values.countP simulation.engine.vault.indebted := by
    calc positions.countP (Position.owes simulation.engine.vault.ledger)
        = positions.countP simulation.engine.vault.indebted := by
          apply List.countP_congr
          intro position member
          rw [whole.owes_eq ((peopled.listed all).2 position member)]
      _ = _ := all.countP_eq _
  obtain ⟨closed, answered, nothing⟩ := Simulation.closeAll_ok whole.toClosable listed owing
  exact ⟨closed, count ▸ answered, nothing⟩

/-- What a price walk leaves of the positions that it started with: no liquidation has reduced a
tick in part, everybody has what was stored or was wiped, the books are what all positions hold, and
those who are left can all be closed. -/
structure Wipes (engine : Engine Int) (limit : Int) (rates : List Int) (last : Engine Int) :
    Prop where
  /-- At each step a tick is left as it is or wiped, by what absorbs and by what liquidates. -/
  steps : ∀ earlier rate later, rates = earlier ++ rate :: later →
    let before := engine.walked limit earlier
    let swept := before.swept rate
    ∀ t, (before.vault.ledger.tickAt t).Cleared (swept.vault.ledger.tickAt t) ∧
      (swept.vault.ledger.tickAt t).Cleared
        ((swept.perform (swept.demand limit)).engine.vault.ledger.tickAt t)
  positions : last.vault.positions = engine.vault.positions
  holdings : ∀ id position, last.vault.positions.get? id = some position →
    ∃ wiped, last.vault.slotWiped position = .ok wiped ∧
      last.vault.holdings position = .ok (if wiped then ⟨0, 0, 0⟩ else position.stored)
  sums : ∃ helds, last.vault.positions.values.mapM last.vault.holdings = .ok helds ∧
    last.vault.state.totalBorrow = (helds.map Holdings.debt).sum ∧
    last.vault.state.totalSupply = (helds.map Holdings.collateral).sum
  /-- `closeAll` answers how many have debt that was not wiped. -/
  closes : ∀ simulation : Simulation, simulation.engine = last →
    ∃ closed, attempt simulation Simulation.closeAll =
        .ok (last.vault.positions.values.countP last.vault.indebted, closed) ∧
      closed.engine.vault.state.totalBorrow = 0 ∧ closed.engine.vault.state.topmost = none ∧
      closed.engine.vault.state.totalSupply = last.vault.state.totalSupply

theorem Whole.wipes (whole : engine.Whole) (limit : Int) (rates : List Int) :
    engine.Wipes limit rates (engine.walked limit rates) where
  steps earlier rate later split t := by
    have before := whole.toStanding.walked limit earlier
    exact ⟨(before.swept_clears rate).records t, ((before.run _).demand_clears limit).records t⟩
  positions := (whole.walked_clears limit rates).positions
  holdings id position known := (whole.walked limit rates).holdings known
  sums := (whole.walked limit rates).sums
  closes := by
    intro simulation same
    have last := whole.walked limit rates
    rw [← same] at last ⊢
    exact last.closeAll

theorem opening_opens {call : Call} (member : call ∈ openings amounts) :
    call.sweeps ∧ call.target = none := by
  rw [openings, ← List.map_uncurry_zip_eq_zipWith] at member
  obtain ⟨numbered, -, rfl⟩ := List.mem_map.mp member
  exact ⟨rfl, rfl⟩

theorem Standing.opened_remains {k : Nat} (standing : engine.Standing)
    (known : (engine.run ((openings amounts).take k)).vault.positions.get? id = some position) :
    (engine.run (openings amounts)).vault.positions.get? id = some position := by
  have others : ∀ call ∈ (openings amounts).drop k, call.target ≠ some id := by
    intro call member same
    cases (opening_opens (List.mem_of_mem_drop member)).2.symm.trans same
  have remains := ((standing.run _).run_wanes _ known others).1
  rw [← run_append, List.take_append_drop] at remains
  exact remains

end Engine

namespace Simulation

variable {params : SimulationParams} {uniforms normals : Array Document} {start : Simulation}

theorem create_ok (created : create params uniforms normals = .ok start) :
    start.engine.New ∧ start.engine.host.capacity = none ∧ start.params = params ∧
      start.history = [] := by
  simp only [create, bind_eq_ok, pure_eq_ok, Except.ok.injEq] at created
  obtain ⟨rate, -, engine, created, rfl⟩ := created
  have prices : 0 < ({} : ExchangePrices).supply ∧ 0 < ({} : ExchangePrices).borrow := by decide
  refine ⟨⟨1, _, _, prices.1, prices.2, created⟩, ?_, rfl, rfl⟩
  simp only [Engine.create, bind_eq_ok, pure_eq_ok, Except.ok.injEq] at created
  obtain ⟨vault, -, rfl⟩ := created
  rfl

/-- A simulation only ever wipes, and closes out exactly, whatever its draws. They only choose the
amounts of the positions and the rates of the walk: a simulation that ends is what comes of some
amounts and rates, and of all amounts and rates it is true that no liquidation reduces a tick in
part, that everybody ends with what was stored at the opening or was wiped, that the totals are the
sums of what all hold, and that those who have debt left can all pay it back. -/
theorem simulate_closes (created : create params uniforms normals = .ok start) :
    (∀ n after, attempt start simulate = .ok (n, after) →
      ∃ middle amounts rates, Course start middle after amounts rates) ∧
    ∀ (amounts : List (Int × Int)) (rates : List Int),
      let opened := start.engine.run (Engine.openings amounts)
      let last := opened.walked start.params.ticksPerLiquidation rates
      (∀ k id position,
        (start.engine.run ((Engine.openings amounts).take k)).vault.positions.get? id =
          some position → last.vault.positions.get? id = some position) ∧
      opened.Wipes start.params.ticksPerLiquidation rates last := by
  obtain ⟨new, unbounded, -, fresh⟩ := create_ok created
  constructor
  · intro n after done
    exact simulate_ok fresh done
  · intro amounts rates opened last
    have whole : opened.Whole :=
      (new.whole unbounded).run fun _ member => (Engine.opening_opens member).1
    have wipes : opened.Wipes start.params.ticksPerLiquidation rates last := whole.wipes _ _
    refine ⟨?_, wipes⟩
    intro k id position known
    rw [wipes.positions]
    exact new.standing.opened_remains known

def slump : SimulationParams where
  crashStep := some 0
  crashSize := 0.15
  steps := 1
  positions := 2

def contrast : Array Document :=
  #[.number 1000, .number 4000000000, .number 1000, .number 1000]

theorem slump_closes :
    ∃ start after closed, create slump contrast #[.number 0] = .ok start ∧
      attempt start simulate = .ok (1, after) ∧
      after.engine.vault.positions.values.map after.engine.vault.slotWiped =
        [.ok true, .ok false] ∧
      attempt after closeAll = .ok (1, closed) ∧ closed.engine.vault.state.totalBorrow = 0 ∧
      closed.engine.vault.state.totalSupply = after.engine.vault.state.totalSupply := by
  have ran : (do
      let start ← create slump contrast #[.number 0]
      let (n, after) ← attempt start simulate
      let vault := after.engine.vault
      return (n, vault.positions.values.map vault.slotWiped,
        vault.positions.values.countP vault.indebted)) =
      Except.ok (1, [.ok true, .ok false], 1) := by
    decide +kernel
  obtain ⟨start, created, ran⟩ := bind_eq_ok.mp ran
  obtain ⟨⟨n, after⟩, done, ran⟩ := bind_eq_ok.mp ran
  simp only [pure_eq_ok, Except.ok.injEq, Prod.mk.injEq] at ran
  obtain ⟨rfl, wiped, count⟩ := ran
  obtain ⟨courses, closes⟩ := simulate_closes created
  obtain ⟨middle, amounts, rates, course⟩ := courses 1 after done
  obtain ⟨-, wipes⟩ := closes amounts rates
  rw [← course.opened, ← course.walked] at wipes
  obtain ⟨closed, answered, borrow, -, supply⟩ := wipes.closes after rfl
  rw [count] at answered
  exact ⟨start, after, closed, created, done, wiped, answered, borrow, supply⟩

end Simulation

end TickVault
