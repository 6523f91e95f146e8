import TickVault.Proofs.Simulation.Closing
import TickVault.Proofs.Wiping

/-!
The course of a simulation. All that prices and draws come to is the amounts at which positions are
opened and the rates at which the oracle answers: whatever they are, a simulation that ends has made
one call to open each position, in order, and then one stride for each step of its price.
-/

namespace TickVault

namespace Engine

def opening (index : Nat) (amounts : Int × Int) : Call :=
  .operate {
    position := none
    collateral := amounts.1
    debt := amounts.2
    signer := s!"user-{index}" }

def openings (amounts : List (Int × Int)) : List Call :=
  List.zipWith opening (List.range amounts.length) amounts

end Engine

namespace Simulation

variable {simulation after : Simulation}

structure Drawn (simulation after : Simulation) : Prop where
  params : after.params = simulation.params
  engine : after.engine = simulation.engine
  history : after.history = simulation.history

theorem bind_lift_ok {α β : Type} {work : Except Fault α} {next : α → SimulationM β} {b : β}
    (done : attempt simulation (liftM work >>= next) = .ok (b, after)) :
    ∃ a, work = .ok a ∧ attempt simulation (next a) = .ok (b, after) := by
  rw [attempt_bind, attempt_lift] at done
  cases work with
  | error fault => cases done
  | ok a => exact ⟨a, rfl, done⟩

theorem uniform_ok {low high x : Float}
    (drawn : attempt simulation (uniform low high) = .ok (x, after)) : Drawn simulation after := by
  simp only [uniform, attempt_bind, attempt_get, attempt_lift, attempt_modify, attempt_pure,
    ok_bind, bind_eq_ok, map_eq_ok] at drawn
  obtain ⟨_, ⟨_, -, rfl⟩, same⟩ := drawn
  cases same
  exact ⟨rfl, rfl, rfl⟩

theorem normal_ok {scale x : Float}
    (drawn : attempt simulation (normal scale) = .ok (x, after)) : Drawn simulation after := by
  simp only [normal, attempt_bind, attempt_get, attempt_lift, attempt_modify, attempt_pure,
    ok_bind, bind_eq_ok, map_eq_ok] at drawn
  obtain ⟨_, ⟨_, -, rfl⟩, same⟩ := drawn
  cases same
  exact ⟨rfl, rfl, rfl⟩

theorem stepPrice_ok {price price' : Float} {step : Int}
    (moved : attempt simulation (stepPrice price step) = .ok (price', after)) :
    Drawn simulation after := by
  simp only [stepPrice, attempt_bind, attempt_get, attempt_pure, ok_bind, bind_eq_ok] at moved
  obtain ⟨⟨x, drawn⟩, normal, same⟩ := moved
  have drawn := normal_ok normal
  cases same
  exact drawn

theorem Drawn.trans {middle : Simulation} (first : Drawn simulation middle)
    (second : Drawn middle after) : Drawn simulation after where
  params := second.params.trans first.params
  engine := second.engine.trans first.engine
  history := second.history.trans first.history

theorem openOne_ok {maxRatio : Float} {index : Nat}
    (opened : attempt simulation (openOne maxRatio index) = .ok ((), after)) :
    ∃ amounts, after.engine = (simulation.engine.perform (Engine.opening index amounts)).engine ∧
      after.params = simulation.params ∧ after.history = simulation.history := by
  simp only [openOne, attempt_bind, attempt_get, attempt_lift, attempt_call, ok_bind, bind_eq_ok,
    map_eq_ok] at opened
  obtain ⟨⟨amount, middle⟩, first, _, ⟨units, -, rfl⟩, ⟨ratio, last⟩, second, _, ⟨_, -, rfl⟩, _,
    ⟨debt, -, rfl⟩, opened⟩ := opened
  have drawn := (uniform_ok first).trans (uniform_ok second)
  refine ⟨(units * token, debt), ?_⟩
  rw [← drawn.engine, ← drawn.params, ← drawn.history]
  dsimp only at opened
  split at opened
  · cases opened
    exact ⟨rfl, rfl, rfl⟩
  · split at opened
    · cases opened
    · cases opened
      exact ⟨rfl, rfl, rfl⟩

theorem forM_openOne {maxRatio : Float} {indices : List Nat}
    (opened : attempt simulation (indices.forM (openOne maxRatio)) = .ok ((), after)) :
    ∃ amounts : List (Int × Int), amounts.length = indices.length ∧
      after.engine = simulation.engine.run (List.zipWith Engine.opening indices amounts) ∧
      after.params = simulation.params ∧ after.history = simulation.history := by
  induction indices generalizing simulation with
  | nil =>
    cases opened
    exact ⟨[], rfl, rfl, rfl, rfl⟩
  | cons index rest ih =>
    rw [List.forM, attempt_bind] at opened
    obtain ⟨⟨_, next⟩, first, later⟩ := bind_eq_ok.mp opened
    obtain ⟨amounts, engine, params, history⟩ := openOne_ok first
    obtain ⟨more, size, engine', params', history'⟩ := ih later
    refine ⟨amounts :: more, ?_, ?_, params'.trans params, history'.trans history⟩
    · rw [List.length_cons, List.length_cons, size]
    · rw [engine', engine]
      rfl

theorem openPositions_ok (opened : attempt simulation openPositions = .ok ((), after)) :
    ∃ amounts : List (Int × Int), amounts.length = simulation.params.positions.toNat ∧
      after.engine = simulation.engine.run (Engine.openings amounts) ∧
      after.params = simulation.params ∧ after.history = simulation.history := by
  simp only [openPositions, attempt_bind, attempt_get, attempt_lift, ok_bind, bind_eq_ok,
    map_eq_ok] at opened
  obtain ⟨_, ⟨maxRatio, -, rfl⟩, opened⟩ := opened
  obtain ⟨amounts, size, course⟩ := forM_openOne opened
  rw [List.length_range] at size
  refine ⟨amounts, size, ?_⟩
  rw [Engine.openings, size]
  exact course

theorem unlessNothing_ok {reply : Except Fault (Reply Int)} {answer : Option (Reply Int)}
    (told : attempt simulation (unlessNothing reply) = .ok (answer, after)) :
    after = simulation := by
  unfold unlessNothing at told
  split at told
  · cases told
    rfl
  · split at told
    · cases told
      rfl
    · cases told

theorem note_ok {step : Int} {price : Float} {absorbed liquidated : Option (Reply Int)}
    (noted : attempt simulation (note step price absorbed liquidated) = .ok ((), after)) :
    ∃ row : HistoryRow, row.price = price ∧
      after = { simulation with history := simulation.history ++ [row] } := by
  unfold note at noted
  rw [attempt_bind, attempt_get, ok_bind] at noted
  obtain ⟨summary, -, noted⟩ := bind_lift_ok noted
  -- One after the other, the amounts that the row shows in tokens.
  obtain ⟨_, -, noted⟩ := bind_lift_ok noted
  obtain ⟨_, -, noted⟩ := bind_lift_ok noted
  obtain ⟨_, -, noted⟩ := bind_lift_ok noted
  obtain ⟨_, -, noted⟩ := bind_lift_ok noted
  obtain ⟨_, -, noted⟩ := bind_lift_ok noted
  rw [attempt_modify] at noted
  obtain ⟨-, same⟩ := Prod.mk.inj (Except.ok.inj noted)
  exact ⟨_, rfl, same.symm⟩

theorem noted_ok {step : Int} {price price' : Float} {absorbed liquidated : Option (Reply Int)}
    (noted : attempt simulation (note step price absorbed liquidated >>= fun _ => pure price) =
      .ok (price', after)) :
    price' = price ∧ ∃ row : HistoryRow, row.price = price ∧
      after = { simulation with history := simulation.history ++ [row] } := by
  rw [attempt_bind] at noted
  obtain ⟨⟨_, _⟩, wrote, same⟩ := bind_eq_ok.mp noted
  cases same
  exact ⟨rfl, note_ok wrote⟩

theorem advance_ok {price price' : Float} {step : Int}
    (advanced : attempt simulation (advance price step) = .ok (price', after)) :
    ∃ (rate : Int) (row : HistoryRow), rateOf row.price = .ok rate ∧
      after.engine = simulation.engine.stride simulation.params.ticksPerLiquidation rate ∧
      after.params = simulation.params ∧ after.history = simulation.history ++ [row] := by
  unfold advance at advanced
  rw [attempt_bind] at advanced
  obtain ⟨⟨moved, priced⟩, stepped, advanced⟩ := bind_eq_ok.mp advanced
  obtain ⟨rate, rated, advanced⟩ := bind_lift_ok advanced
  simp only [attempt_bind, attempt_call, attempt_get, ok_bind] at advanced
  obtain ⟨⟨absorbed, _⟩, told, advanced⟩ := bind_eq_ok.mp advanced
  cases unlessNothing_ok told
  obtain ⟨params, engine, history⟩ := stepPrice_ok stepped
  rw [← engine, ← params, ← history]
  have swept : ((priced.engine.perform (.setOracle rate)).engine.perform
      (.absorb .unlimited)).engine = priced.engine.swept rate := rfl
  simp only [swept] at advanced
  rw [attempt_ite] at advanced
  split at advanced
  · rename_i owed
    rw [attempt_bind, attempt_call, ok_bind, attempt_bind] at advanced
    obtain ⟨⟨liquidated, _⟩, told', noted⟩ := bind_eq_ok.mp advanced
    cases unlessNothing_ok told'
    obtain ⟨-, row, rfl, rfl⟩ := noted_ok noted
    exact ⟨rate, row, rated, (if_pos owed).symm, rfl, rfl⟩
  · rename_i cleared
    rw [attempt_bind, attempt_pure, ok_bind] at advanced
    obtain ⟨-, row, rfl, rfl⟩ := noted_ok advanced
    exact ⟨rate, row, rated, (if_neg cleared).symm, rfl, rfl⟩

theorem foldlM_advance {steps : List Nat} {price price' : Float}
    (advanced : attempt simulation
      (steps.foldlM (fun price (step : Nat) => advance price step) price) = .ok (price', after)) :
    ∃ (rates : List Int) (rows : List HistoryRow), rates.length = steps.length ∧
      rows.map (fun row => rateOf row.price) = rates.map Except.ok ∧
      after.engine = simulation.engine.walked simulation.params.ticksPerLiquidation rates ∧
      after.history = simulation.history ++ rows := by
  induction steps generalizing simulation price with
  | nil =>
    cases advanced
    exact ⟨[], [], rfl, rfl, rfl, (List.append_nil _).symm⟩
  | cons step rest ih =>
    rw [List.foldlM_cons, attempt_bind] at advanced
    obtain ⟨⟨next, middle⟩, first, later⟩ := bind_eq_ok.mp advanced
    obtain ⟨rate, row, rated, engine, params, history⟩ := advance_ok first
    obtain ⟨rates, rows, size, all, engine', history'⟩ := ih later
    refine ⟨rate :: rates, row :: rows, ?_, ?_, ?_, ?_⟩
    · rw [List.length_cons, List.length_cons, size]
    · rw [List.map_cons, List.map_cons, rated, all]
    · rw [engine', engine, params]
      rfl
    · rw [history', history, List.append_assoc]
      rfl

/-- What the course of a simulation was: the calls that have opened its positions, and the strides
at the rates of the prices in its history. -/
structure Course (start middle after : Simulation) (amounts : List (Int × Int))
    (rates : List Int) : Prop where
  opens : attempt start openPositions = .ok ((), middle)
  size : amounts.length = start.params.positions.toNat
  opened : middle.engine = start.engine.run (Engine.openings amounts)
  length : rates.length = start.params.steps.toNat
  rated : after.history.map (fun row => rateOf row.price) = rates.map Except.ok
  walked : after.engine = middle.engine.walked start.params.ticksPerLiquidation rates

/-- A simulation that ends has opened its positions and taken a stride for each row of its
history. -/
theorem simulate_ok {n : Nat} (fresh : simulation.history = [])
    (done : attempt simulation simulate = .ok (n, after)) :
    ∃ middle amounts rates, Course simulation middle after amounts rates := by
  simp only [simulate, attempt_bind, attempt_get, attempt_pure, ok_bind, bind_eq_ok] at done
  obtain ⟨⟨_, middle⟩, opens, ⟨price, last⟩, walks, same⟩ := done
  cases same
  obtain ⟨amounts, size, engine, params, history⟩ := openPositions_ok opens
  obtain ⟨rates, rows, length, all, engine', history'⟩ := foldlM_advance walks
  rw [List.length_range, params] at length
  rw [history, fresh, List.nil_append] at history'
  rw [params] at engine'
  exact ⟨middle, amounts, rates, opens, size, engine, length, history' ▸ all, engine'⟩

end Simulation

end TickVault
