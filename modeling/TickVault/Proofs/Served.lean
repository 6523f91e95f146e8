import TickVault.Proofs.Lifecycle

namespace TickVault

def Action.booked : Action → Int
  | .transfer _ => 0
  | .settleBorrow amount => amount

def Action.moved : Action → List Transfer
  | .transfer sent => [sent]
  | .settleBorrow _ => []

namespace Host

structure Booked (host : Host) (actions : List Action) (host' : Host) : Prop where
  borrowed : host'.liquidity.borrowed =
    host.liquidity.borrowed + (actions.map Action.booked).sum
  transfers : host'.transfers = host.transfers ++ actions.flatMap Action.moved

structure Carried (host : Host) (actions : List Action) (host' : Host) : Prop extends
    host.Booked actions host' where
  available : host'.liquidity.available =
    host.liquidity.available.map (· - (actions.map Action.booked).sum)
  prices : host'.liquidity.prices = host.liquidity.prices
  oracle : host'.oracle = host.oracle
  capacity : host'.capacity = host.capacity

def settled (host : Host) (transfers : List Transfer) (lent : Int) : Host :=
  { host with
    transfers := host.transfers ++ transfers
    liquidity := host.liquidity.settle lent }

variable {host host' : Host}

theorem booked_nothing (borrowed : host'.liquidity.borrowed = host.liquidity.borrowed)
    (transfers : host'.transfers = host.transfers) : host.Booked [] host' :=
  ⟨borrowed.trans (Int.add_zero _).symm, transfers.trans (List.append_nil _).symm⟩

theorem Carried.refl (host : Host) : host.Carried [] host where
  toBooked := booked_nothing rfl rfl
  available := by simp
  prices := rfl
  oracle := rfl
  capacity := rfl

theorem Carried.eq {actions : List Action} (carried : host.Carried actions host') :
    host' = host.settled (actions.flatMap Action.moved) (actions.map Action.booked).sum := by
  obtain ⟨⟨borrowed, transfers⟩, available, prices, oracle, capacity⟩ := carried
  cases host'
  cases ‹Liquidity›
  simp only at borrowed transfers available prices oracle capacity
  subst borrowed transfers available prices oracle capacity
  rfl

theorem act_carried {action : Action} (acted : host.act action = .ok host') :
    host.Carried [action] host' := by
  cases action with
  | transfer transfer =>
    simp only [act, bind_eq_ok, pure_eq_ok, Except.ok.injEq] at acted
    obtain ⟨_, -, rfl⟩ := acted
    refine ⟨⟨(Int.add_zero _).symm, rfl⟩, ?_, rfl, rfl, rfl⟩
    simp [Action.booked]
  | settleBorrow amount =>
    cases acted
    refine ⟨⟨?_, (List.append_nil _).symm⟩, ?_, rfl, rfl, rfl⟩ <;>
      simp [Liquidity.settle, Action.booked]

theorem Carried.trans {host'' : Host} {actions later : List Action}
    (first : host.Carried actions host') (second : host'.Carried later host'') :
    host.Carried (actions ++ later) host'' where
  oracle := second.oracle.trans first.oracle
  prices := second.prices.trans first.prices
  capacity := second.capacity.trans first.capacity
  available := by
    rw [second.available, first.available, Option.map_map]
    simp only [List.map_append, List.sum_append, Function.comp_def, Int.sub_sub]
  borrowed := by
    rw [second.borrowed, first.borrowed, List.map_append, List.sum_append, Int.add_assoc]
  transfers := by
    rw [second.transfers, first.transfers, List.flatMap_append, List.append_assoc]

theorem actAll_carried {actions : List Action} (acted : (host.actAll actions).1 = .ok ()) :
    host.Carried actions (host.actAll actions).2 := by
  induction actions generalizing host with
  | nil => exact .refl host
  | cons action rest ih =>
    cases done : host.act action with
    | error fault => simp [actAll, done] at acted
    | ok host' =>
      simp only [actAll, done] at acted ⊢
      exact (act_carried done).trans (ih acted)

end Host

namespace Engine

variable {engine start : Engine Int} {call : Call}

/-- The host refuses no transfer of a run. -/
def Served (engine : Engine Int) : List Call → Prop
  | [] => True
  | call :: rest =>
    (engine.perform call).reply ≠ .error .transferRefused ∧
      (engine.perform call).engine.Served rest

theorem served_append (first second : List Call) :
    engine.Served (first ++ second) ↔ engine.Served first ∧ (engine.run first).Served second := by
  induction first generalizing engine with
  | nil => simp [Served, run]
  | cons call rest ih =>
    change _ ∧ (engine.perform call).engine.Served (rest ++ second) ↔ _
    rw [ih, ← and_assoc]
    rfl

theorem conclude_served {α : Type} {settlement : Settlement Int α} {reply : α → Reply Int}
    {budget : Budget}
    (served : (engine.conclude (.ok settlement) reply budget).reply ≠ .error .transferRefused) :
    (engine.conclude (.ok settlement) reply budget).reply = .ok (reply settlement.receipt) ∧
      (engine.conclude (.ok settlement) reply budget).engine.vault = settlement.vault ∧
      engine.host.Carried settlement.actions
        (engine.conclude (.ok settlement) reply budget).engine.host := by
  have carried := @Host.actAll_carried engine.host settlement.actions
  have refused := @Host.actAll_refused engine.host
  simp only [conclude, commit] at served ⊢
  cases acted : engine.host.actAll settlement.actions with
  | mk answer host =>
    rw [acted] at carried served
    cases answer with
    | ok _ => exact ⟨rfl, rfl, carried rfl⟩
    | error fault =>
      obtain ⟨rfl, -⟩ := refused (congrArg Prod.fst acted)
      exact absurd rfl served

theorem conclude_answered {α : Type} {worked : Except Fault (Settlement Int α)}
    {reply : α → Reply Int} {budget : Budget} {answer : Reply Int}
    (answered : (engine.conclude worked reply budget).reply = .ok answer) :
    ∃ settlement, worked = .ok settlement ∧ reply settlement.receipt = answer ∧
      (engine.conclude worked reply budget).engine.vault = settlement.vault ∧
      engine.host.Carried settlement.actions (engine.conclude worked reply budget).engine.host := by
  cases worked with
  | error fault => cases answered
  | ok settlement =>
    have served : (engine.conclude (.ok settlement) reply budget).reply ≠
        .error .transferRefused := by
      rw [answered]
      exact fun refused => by cases refused
    obtain ⟨replied, after, carried⟩ := conclude_served served
    exact ⟨settlement, rfl, Except.ok.inj (replied.symm.trans answered), after, carried⟩

inductive Works (engine : Engine Int) : Call → Vault Int → List Action → Prop
  | idle {call : Call} : Works engine call engine.vault []
  | opened {owner : String} {position : Position Int} {after : Vault Int}
      (created : engine.vault.createPosition owner = .ok (position, after)) :
      Works engine (.openPosition owner) after []
  | operated {request : OperateRequest} {settlement : Settlement Int (PositionSnapshot Int)}
      (done : engine.vault.operate engine.host request = .ok settlement) :
      Works engine (.operate request) settlement.vault settlement.actions
  | liquidated {request : LiquidateRequest} {budget left : Budget}
      {settlement : Settlement Int (LiquidationReceipt Int)}
      (done : attempt budget (engine.vault.liquidate engine.host request) =
        .ok (settlement, left)) :
      Works engine (.liquidate request budget) settlement.vault settlement.actions
  | absorbed {budget left : Budget} {settlement : Settlement Int (Int × Int)}
      (done : attempt budget (engine.vault.absorb engine.host) = .ok (settlement, left)) :
      Works engine (.absorb budget) settlement.vault settlement.actions

theorem conclude_works {α : Type} {worked : Except Fault (Settlement Int α)} (reply : α → Reply Int)
    (budget : Budget) (works : ∀ settlement, worked = .ok settlement →
      engine.Works call settlement.vault settlement.actions) :
    ∃ actions, engine.Works call (engine.conclude worked reply budget).engine.vault actions ∧
      ((engine.conclude worked reply budget).reply ≠ .error .transferRefused →
        engine.host.Booked actions (engine.conclude worked reply budget).engine.host) := by
  cases worked with
  | error fault => exact ⟨[], .idle, fun _ => Host.booked_nothing rfl rfl⟩
  | ok settlement =>
    by_cases refused : (engine.conclude (.ok settlement) reply budget).reply =
        .error .transferRefused
    · rcases (conclude_vault engine (.ok settlement) reply budget).1 with same | ⟨_, worked, after⟩
      · exact ⟨[], same ▸ .idle, fun served => absurd refused served⟩
      · cases worked
        exact ⟨_, after ▸ works settlement rfl, fun served => absurd refused served⟩
    · obtain ⟨-, after, carried⟩ := conclude_served refused
      exact ⟨_, after ▸ works settlement rfl, fun _ => carried.toBooked⟩

theorem perform_works (engine : Engine Int) (call : Call) :
    ∃ actions, engine.Works call (engine.perform call).engine.vault actions ∧
      ((engine.perform call).reply ≠ .error .transferRefused →
        engine.host.Booked actions (engine.perform call).engine.host) := by
  cases call with
  | openPosition owner =>
    refine conclude_works _ _ fun settlement worked => ?_
    simp only [openPosition, bind_eq_ok, pure_eq_ok, Except.ok.injEq] at worked
    obtain ⟨⟨position, opened⟩, created, rfl⟩ := worked
    exact .opened created
  | operate request => exact conclude_works _ _ fun settlement worked => .operated worked
  | liquidate request budget =>
    exact conclude_works _ _ fun settlement worked =>
      .liquidated (attempt_eq_ok_iff.mpr (Prod.ext worked rfl))
  | absorb budget =>
    exact conclude_works _ _ fun settlement worked =>
      .absorbed (attempt_eq_ok_iff.mpr (Prod.ext worked rfl))
  | setOracle rate => exact ⟨[], .idle, fun _ => Host.booked_nothing rfl rfl⟩
  | accrue prices =>
    simp only [perform]
    split
    · exact ⟨[], .idle, fun _ => Host.booked_nothing rfl rfl⟩
    · rename_i accrued
      simp only [accrue, Liquidity.accrue, bind_eq_ok, pure_eq_ok, Except.ok.injEq] at accrued
      obtain ⟨_, ⟨_, -, rfl⟩, rfl⟩ := accrued
      exact ⟨[], .idle, fun _ => Host.booked_nothing rfl rfl⟩

theorem actAll_capacity (actions : List Action) (host : Host) :
    (host.actAll actions).2.capacity = host.capacity :=
  actAll_keeps Host.capacity (fun _ _ _ => Host.act_capacity) actions host

theorem perform_capacity (engine : Engine Int) (call : Call) :
    (engine.perform call).engine.host.capacity = engine.host.capacity := by
  have same {α : Type} (worked : Except Fault (Settlement Int α)) (reply : α → Reply Int)
      (budget : Budget) :
      (engine.conclude worked reply budget).engine.host.capacity = engine.host.capacity := by
    cases worked with
    | error fault => rfl
    | ok settlement =>
      rw [← actAll_capacity settlement.actions engine.host]
      simp only [conclude, commit]
      cases engine.host.actAll settlement.actions with
      | mk answer host => cases answer <;> rfl
  cases call with
  | openPosition owner => exact same _ _ _
  | operate request => exact same _ _ _
  | liquidate request budget => exact same _ _ _
  | absorb budget => exact same _ _ _
  | setOracle rate => rfl
  | accrue prices =>
    simp only [perform]
    split
    · rfl
    · rename_i accrued
      simp only [accrue, bind_eq_ok, pure_eq_ok, Except.ok.injEq] at accrued
      obtain ⟨_, -, rfl⟩ := accrued
      rfl

theorem Governed.served (governed : engine.Governed) (unbounded : engine.host.capacity = none)
    (calls : List Call) : engine.Served calls := by
  induction calls generalizing engine with
  | nil => trivial
  | cons call rest ih =>
    refine ⟨fun refused => ?_, ih (governed.perform call) ?_⟩
    · by_cases accrues : ∃ prices, call = .accrue prices
      · obtain ⟨prices, rfl⟩ := accrues
        cases accrue_refused refused
      · have excuses := (governed.performs call fun prices same => accrues ⟨prices, same⟩).2
        rcases excuses _ refused with awaited | ⟨-, bounded⟩
        · obtain ⟨kind, sorted, -⟩ := (awaited.foreseen nofun).sorted
          cases sorted
        · exact bounded unbounded
    · rw [perform_capacity, unbounded]

end Engine

end TickVault
