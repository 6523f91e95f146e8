import TickVault.Engine
import TickVault.Proofs.Reseating

/-!
Runs of an engine. A call leaves the vault as it was or takes it one step on, and a step keeps the
vault in order. Whatever holds of a new vault and is kept by every step holds after every run.
-/

namespace TickVault

namespace Vault

/-- A vault whose ledger, totals and positions agree with each other. -/
structure Orderly (vault : Vault Int) : Prop extends vault.Balanced where
  peopled : vault.Peopled

variable {vault after : Vault Int}

structure Opens (vault : Vault Int) (position : Position Int) (after : Vault Int) : Prop where
  unknown : vault.positions.get? position.id = none
  free : position.tick = none
  empty : position.collateral = 0
  idle : position.debt = 0 ∧ position.dustDebt = 0
  counts : ∃ next total, after.state =
    { vault.state with nextPosition := next, totalPositions := total }
  after : ∃ state, after = ({ vault with state } : Vault Int).putAt position ∧
    state.topmost = vault.state.topmost ∧ state.currentBranch = vault.state.currentBranch ∧
    state.totalSupply = vault.state.totalSupply ∧ state.totalBorrow = vault.state.totalBorrow

inductive Locates (vault : Vault Int) (position : Position Int) : Vault Int → Prop
  | found (known : vault.positions.get? position.id = some position) :
      Locates vault position vault
  | opened {after : Vault Int} (opens : vault.Opens position after) :
      Locates vault position after

inductive Trades (vault : Vault Int) : Vault Int → Prop
  | opened {position : Position Int} {after : Vault Int} (opens : vault.Opens position after) :
      Trades vault after
  | operated {prices : ExchangePrices} {position : Position Int} {request : OperateRequest}
      {located : Vault Int} {outcome : Rebalance Int} (positive : 0 < prices.supply)
      (locates : vault.Locates position located)
      (rebalances : located.Rebalances prices position request outcome)
      (events : List (Event Int)) : Trades vault { outcome.vault with events }

theorem createPosition_opens {owner : String} {position : Position Int}
    (created : vault.createPosition owner = .ok (position, after)) :
    vault.Opens position after := by
  simp only [createPosition, toInt_int, ok_bind, hasPosition, key_int, bind_eq_ok, pure_eq_ok,
    Except.ok.injEq, ensure_eq_ok_iff, putPosition, Prod.mk.injEq,
    ofInt_int] at created
  obtain ⟨_, unused, rfl, rfl⟩ := created
  have unknown : vault.positions.get? vault.state.nextPosition = none := by
    simpa [Table.contains] using unused
  exact ⟨unknown, rfl, rfl, ⟨rfl, rfl⟩, ⟨_, _, rfl⟩, { vault.state with
    nextPosition := vault.state.nextPosition + 1
    totalPositions := vault.state.totalPositions + 1 }, rfl, rfl, rfl, rfl, rfl⟩

theorem Orderly.opens {position : Position Int} (orderly : vault.Orderly)
    (opens : vault.Opens position after) : after.Orderly := by
  obtain ⟨state, rfl, topmost, current, supply, borrow⟩ := opens.after
  have peopled : (({ vault with state } : Vault Int).putAt position).Peopled :=
    orderly.peopled.opened rfl rfl opens.unknown opens.free (Int.le_of_eq opens.empty.symm)
  refine ⟨⟨⟨⟨orderly.ledger, ?_⟩, ?_⟩, ?_⟩, peopled⟩
  · rw [putAt, current]
    exact orderly.current
  · exact topmost.trans orderly.topmost
  · exact orderly.debt.trans borrow.symm

theorem Orderly.locates {position : Position Int} {located : Vault Int}
    (orderly : vault.Orderly) (locates : vault.Locates position located) :
    located.Orderly ∧ located.positions.get? position.id = some position := by
  cases locates with
  | found known => exact ⟨orderly, known⟩
  | opened opens =>
    refine ⟨orderly.opens opens, ?_⟩
    obtain ⟨state, rfl, -⟩ := opens.after
    rw [get?_putAt, if_pos rfl]

theorem Orderly.trades (orderly : vault.Orderly) (trades : vault.Trades after) :
    after.Orderly := by
  cases trades with
  | opened opens => exact orderly.opens opens
  | operated positive locates rebalances events =>
    obtain ⟨located, known⟩ := orderly.locates locates
    have seated := located.peopled.seated _ _ known
    have balanced := located.toBalanced.rebalance seated.known rebalances
    have reseats := rebalances.reseats located.toCoherent located.peopled positive known
    have peopled := located.peopled.reseats located.toCoherent known reseats
    exact ⟨⟨balanced.toCoherent.withEvents events, balanced.debt⟩, peopled.congr rfl rfl⟩

theorem Trades.keeps {kept : Vault Int → Prop} (orderly : vault.Orderly) (before : kept vault)
    (opens : ∀ (vault after : Vault Int) (position : Position Int), kept vault →
      vault.Opens position after → kept after)
    (reseats : ∀ (vault after : Vault Int) (position : Position Int), vault.Orderly → kept vault →
      vault.positions.get? position.id = some position → vault.Reseats position after → kept after)
    (logs : ∀ (vault : Vault Int) (events : List (Event Int)), kept vault →
      kept { vault with events })
    (trades : vault.Trades after) : kept after := by
  cases trades with
  | opened opened => exact opens _ _ _ before opened
  | @operated _ _ _ middle _ positive locates rebalances events =>
    obtain ⟨located, known⟩ := orderly.locates locates
    have middle_kept : kept middle := by
      cases locates with
      | found _ => exact before
      | opened opened => exact opens _ _ _ before opened
    have moved := rebalances.reseats located.toCoherent located.peopled positive known
    exact logs _ events (reseats _ _ _ located middle_kept known moved)

/-- Something holds of each tick that lost a part of its debt from one vault to the other. -/
def EachReduced (vault after : Vault Int) (holds : Int → Prop) : Prop :=
  ∀ tick, 0 < (after.ledger.tickAt tick).rawDebt →
    (after.ledger.tickAt tick).rawDebt < (vault.ledger.tickAt tick).rawDebt → holds tick

theorem Takes.eachReduced (takes : vault.Takes TickRecord.Cleared after) {holds : Int → Prop} :
    vault.EachReduced after holds := by
  intro tick remains less
  rw [(takes.records tick).eq_of_debt remains] at less
  exact absurd less (Int.lt_irrefl _)

theorem Orderly.takes (orderly : vault.Orderly)
    (takes : vault.Takes TickRecord.Liquidated after) (coherent : after.Coherent) :
    after.Orderly := by
  have borrow := takes.borrow
  have before := orderly.debt
  exact ⟨⟨coherent, by omega⟩, orderly.peopled.takes takes⟩

theorem locate_locates {request : OperateRequest} {position : Position Int} {located : Vault Int}
    (orderly : vault.Orderly) (done : vault.locate request = .ok (position, located)) :
    vault.Locates position located := by
  unfold locate at done
  split at done
  · rename_i id _
    simp only [Vault.position, key_int, ofInt_int, ok_bind, bind_eq_ok, pure_eq_ok,
      Except.ok.injEq, Prod.mk.injEq] at done
    obtain ⟨found, looked, rfl, rfl⟩ := done
    split at looked
    · rename_i known
      cases looked
      rw [← orderly.peopled.named id _ known] at known
      exact .found known
    · cases looked
  · simp only [bind_eq_ok] at done
    obtain ⟨_, -, created⟩ := done
    exact .opened (createPosition_opens created)

theorem operate_trades {host : Host} {request : OperateRequest}
    {settlement : Settlement Int (PositionSnapshot Int)} (orderly : vault.Orderly)
    (positive : 0 < host.liquidity.prices.supply)
    (done : vault.operate host request = .ok settlement) : vault.Trades settlement.vault := by
  simp only [operate, bind_eq_ok, pure_eq_ok, Except.ok.injEq] at done
  obtain ⟨_, -, ⟨position, located⟩, found, _, -, outcome, rebalanced, _, -, _, -, _, -, _, -,
    rfl⟩ := done
  have locates := locate_locates orderly found
  obtain ⟨orderly', known⟩ := orderly.locates locates
  have rebalances := rebalance_ok (orderly'.peopled.settled known) rebalanced
  exact .operated positive locates rebalances _

theorem fresh_ledger_sound : Ledger.Sound ⟨∅, .empty, ⟨[.fresh 0 0, .fresh 1 0]⟩⟩ where
  distinct := Table.distinct_empty
  keyed t record known := by cases known
  debt t := Int.le_refl 0
  bits t := iff_of_false (TickBitmap.not_holds_empty t) (Int.lt_irrefl 0)
  rooted := by
    refine ⟨by decide, fun id branch known positive => ?_⟩
    have range := BranchLedger.get?_isSome_iff.mp (Option.isSome_iff_exists.mpr ⟨_, known⟩)
    simp only [List.length_cons, List.length_nil] at range
    obtain rfl : id = 1 := by omega
    cases known
    decide

theorem create_orderly {id : Int} {config : Config Int}
    (created : Vault.create id config = .ok vault) : vault.Orderly := by
  simp only [create, bind_eq_ok, pure_eq_ok, Except.ok.injEq] at created
  obtain ⟨validated, -, rfl⟩ := created
  refine ⟨⟨⟨⟨fresh_ledger_sound, ?_⟩, ?_⟩, ?_⟩, ?_⟩
  · exact ⟨Int.le_of_lt Int.one_pos, Int.lt_succ 1⟩
  · symm
    apply TickBitmap.highest?_eq_none_iff.mpr
    exact TickBitmap.not_holds_empty
  · rfl
  · constructor
    · exact Table.distinct_empty
    · intro id position known
      cases known
    · intro id position known
      cases known
    · intro id position known
      cases known
    · intro id other position neighbour tick known
      cases known
    · intro t
      exact ⟨Int.le_refl 0, Int.le_refl 0⟩
    · intro t
      change 0 ≤ factorScale
      decide
    · intro t
      rfl
    · intro t
      exact Iff.rfl

def blank (id : Int) (config : Config Int) : Vault Int where
  config
  state := .fresh id
  ledger := ⟨∅, .empty, ⟨[.fresh 0 0, .fresh 1 0]⟩⟩
  positions := ∅
  events := []

end Vault

namespace Engine

/-- An engine as it is set up: over any host whose exchange prices are positive. -/
def New (engine : Engine Int) : Prop :=
  ∃ id config host, 0 < host.liquidity.prices.supply ∧ 0 < host.liquidity.prices.borrow ∧
    Engine.create id config host = .ok engine

structure Orderly (engine : Engine Int) : Prop where
  vault : engine.vault.Orderly
  supply : 0 < engine.host.liquidity.prices.supply
  borrow : 0 < engine.host.liquidity.prices.borrow

def standard : Engine Int where
  vault := {
    config := .usual
    state := .fresh 1
    ledger := ⟨∅, .empty, ⟨[.fresh 0 0, .fresh 1 0]⟩⟩
    positions := ∅
    events := [] }
  host := {}

theorem standard_new : standard.New :=
  ⟨1, .usual, {}, by decide, by decide, rfl⟩

def borrower (signer : String) : Call :=
  .operate {
    position := none
    collateral := 2000000000000000000
    debt := 1000000000000000000
    signer }

/-- Three borrowers come to the same tick, each as the price is at its start. The first two are
liquidated down to the least debt of a tick when it falls by half, which leaves the tick with a
factor of zero, and the price falls again for the third. -/
def exhaustion : List Call :=
  [borrower "a", .setOracle 500000000000000,
    .liquidate { debt := 1000666633494986966 } .unlimited, .setOracle 1000000000000000,
    borrower "b", .setOracle 500000000000000,
    .liquidate { debt := 1000666633494987066 } .unlimited, .setOracle 1000000000000000,
    borrower "c", .setOracle 500000000000000]

variable {engine start : Engine Int}

theorem New.orderly (new : engine.New) : engine.Orderly := by
  obtain ⟨id, config, host, supply, borrow, created⟩ := new
  simp only [create, bind_eq_ok, pure_eq_ok, Except.ok.injEq] at created
  obtain ⟨vault, created, rfl⟩ := created
  exact ⟨Vault.create_orderly created, supply, borrow⟩

theorem New.created (new : start.New) :
    ∃ (id : Int) (config validated : Config Int) (host : Host),
      config.validate = .ok validated ∧ start = ⟨.blank id validated, host⟩ := by
  obtain ⟨id, config, host, -, -, created⟩ := new
  simp only [create, Vault.create, bind_eq_ok, pure_eq_ok, Except.ok.injEq] at created
  obtain ⟨_, ⟨validated, valid, rfl⟩, rfl⟩ := created
  exact ⟨id, config, validated, host, valid, rfl⟩

theorem act_prices {host host' : Host} {action : Action} (acted : host.act action = .ok host') :
    host'.liquidity.prices = host.liquidity.prices := by
  cases action with
  | transfer transfer =>
    simp only [Host.act, bind_eq_ok, pure_eq_ok, Except.ok.injEq] at acted
    obtain ⟨_, -, rfl⟩ := acted
    rfl
  | settleBorrow amount =>
    cases acted
    rfl

theorem actAll_keeps {β : Type} (part : Host → β)
    (kept : ∀ (host host' : Host) (action : Action), host.act action = .ok host' →
      part host' = part host) (actions : List Action) (host : Host) :
    part (host.actAll actions).2 = part host := by
  induction actions generalizing host with
  | nil => rfl
  | cons action rest ih =>
    cases acted : host.act action with
    | error fault => simp [Host.actAll, acted]
    | ok host' =>
      simp only [Host.actAll, acted]
      rw [ih host', kept host host' action acted]

theorem actAll_prices (actions : List Action) (host : Host) :
    (host.actAll actions).2.liquidity.prices = host.liquidity.prices :=
  actAll_keeps (fun host => host.liquidity.prices) (fun _ _ _ => act_prices) actions host

theorem conclude_vault {α : Type} (engine : Engine Int) (worked : Except Fault (Settlement Int α))
    (reply : α → Reply Int) (budget : Budget) :
    ((engine.conclude worked reply budget).engine.vault = engine.vault ∨
      ∃ settlement, worked = .ok settlement ∧
        (engine.conclude worked reply budget).engine.vault = settlement.vault) ∧
      (engine.conclude worked reply budget).engine.host.liquidity.prices =
        engine.host.liquidity.prices := by
  unfold conclude
  cases worked with
  | error fault => exact ⟨.inl rfl, rfl⟩
  | ok settlement =>
    have prices := actAll_prices settlement.actions engine.host
    simp only [commit]
    cases acted : engine.host.actAll settlement.actions with
    | mk answer host =>
      rw [acted] at prices
      cases answer with
      | ok _ => exact ⟨.inr ⟨settlement, rfl, rfl⟩, prices⟩
      | error fault => exact ⟨.inl rfl, prices⟩

theorem perform_liquidate (engine : Engine Int) (request : LiquidateRequest) (budget : Budget) :
    engine.perform (.liquidate request budget) =
      engine.conclude ((engine.vault.liquidate engine.host request).run.run budget).1 .liquidated
        ((engine.vault.liquidate engine.host request).run.run budget).2 := rfl

theorem perform_absorb (engine : Engine Int) (budget : Budget) :
    engine.perform (.absorb budget) =
      engine.conclude ((engine.vault.absorb engine.host).run.run budget).1
        (fun taken => .absorbed taken.1 taken.2)
        ((engine.vault.absorb engine.host).run.run budget).2 := rfl

theorem Orderly.liquidate (orderly : engine.Orderly) (request : LiquidateRequest)
    (budget : Budget) :
    (engine.perform (.liquidate request budget)).engine.vault = engine.vault ∨
      engine.vault.Takes TickRecord.Liquidated
          (engine.perform (.liquidate request budget)).engine.vault ∧
        (engine.perform (.liquidate request budget)).engine.vault.Coherent := by
  rw [perform_liquidate]
  rcases (conclude_vault engine _ _ _).1 with same | ⟨settlement, worked, after⟩
  · exact .inl same
  · right
    rw [after]
    exact Vault.liquidate_takes orderly.vault.toCoherent
      (attempt_eq_ok_iff.mpr (Prod.ext worked rfl))

theorem Orderly.absorb (orderly : engine.Orderly) (budget : Budget) :
    (engine.perform (.absorb budget)).engine.vault = engine.vault ∨
      engine.vault.Takes TickRecord.Cleared (engine.perform (.absorb budget)).engine.vault ∧
        (engine.perform (.absorb budget)).engine.vault.Coherent := by
  rw [perform_absorb]
  rcases (conclude_vault engine _ _ _).1 with same | ⟨settlement, worked, after⟩
  · exact .inl same
  · right
    rw [after]
    exact Vault.absorb_takes orderly.vault.toCoherent (attempt_eq_ok_iff.mpr (Prod.ext worked rfl))

theorem Orderly.trade (orderly : engine.Orderly) {call : Call}
    (user : (∃ owner, call = .openPosition owner) ∨ ∃ request, call = .operate request) :
    (engine.perform call).engine.vault = engine.vault ∨
      engine.vault.Trades (engine.perform call).engine.vault := by
  rcases user with ⟨owner, rfl⟩ | ⟨request, rfl⟩
  · rcases (conclude_vault engine _ _ _).1 with same | ⟨settlement, worked, after⟩
    · exact .inl same
    · right
      unfold perform
      rw [after]
      simp only [openPosition, bind_eq_ok, pure_eq_ok, Except.ok.injEq] at worked
      obtain ⟨⟨position, opened⟩, created, rfl⟩ := worked
      exact .opened (Vault.createPosition_opens created)
  · rcases (conclude_vault engine _ _ _).1 with same | ⟨settlement, worked, after⟩
    · exact .inl same
    · right
      unfold perform
      rw [after]
      exact Vault.operate_trades orderly.vault orderly.supply worked

theorem perform_setOracle (engine : Engine Int) (rate : Int) :
    (engine.perform (.setOracle rate)).engine.vault = engine.vault := rfl

theorem perform_accrue (engine : Engine Int) (prices : ExchangePrices) :
    (engine.perform (.accrue prices)).engine.vault = engine.vault := by
  simp only [perform]
  split
  · rfl
  · rename_i accrued
    simp only [accrue, bind_eq_ok, pure_eq_ok, Except.ok.injEq] at accrued
    obtain ⟨_, -, rfl⟩ := accrued
    rfl

inductive Effect (engine : Engine Int) (call : Call) : Vault Int → Prop
  | none : Effect engine call engine.vault
  | trade {after : Vault Int} (trades : engine.vault.Trades after) : Effect engine call after
  | liquidation {after : Vault Int} {request : LiquidateRequest} {budget : Budget}
      (asked : call = .liquidate request budget)
      (takes : engine.vault.Takes TickRecord.Liquidated after) (coherent : after.Coherent) :
      Effect engine call after
  | absorption {after : Vault Int} {budget : Budget} (asked : call = .absorb budget)
      (takes : engine.vault.Takes TickRecord.Cleared after) (coherent : after.Coherent) :
      Effect engine call after

theorem Orderly.effect (orderly : engine.Orderly) (call : Call) :
    engine.Effect call (engine.perform call).engine.vault := by
  cases call with
  | openPosition owner =>
    rcases orderly.trade (.inl ⟨owner, rfl⟩) with same | trades
    · exact same ▸ .none
    · exact .trade trades
  | operate request =>
    rcases orderly.trade (.inr ⟨request, rfl⟩) with same | trades
    · exact same ▸ .none
    · exact .trade trades
  | liquidate request budget =>
    rcases orderly.liquidate request budget with same | ⟨takes, coherent⟩
    · exact same ▸ .none
    · exact .liquidation rfl takes coherent
  | absorb budget =>
    rcases orderly.absorb budget with same | ⟨takes, coherent⟩
    · exact same ▸ .none
    · exact .absorption rfl takes coherent
  | setOracle rate =>
    rw [perform_setOracle]
    exact .none
  | accrue prices =>
    rw [perform_accrue]
    exact .none

theorem perform_prices (engine : Engine Int) (call : Call) :
    engine.host.liquidity.prices.supply ≤
        (engine.perform call).engine.host.liquidity.prices.supply ∧
      engine.host.liquidity.prices.borrow ≤
        (engine.perform call).engine.host.liquidity.prices.borrow := by
  have same {α : Type} (worked : Except Fault (Settlement Int α)) (reply : α → Reply Int)
      (budget : Budget) :
      engine.host.liquidity.prices.supply ≤
          (engine.conclude worked reply budget).engine.host.liquidity.prices.supply ∧
        engine.host.liquidity.prices.borrow ≤
          (engine.conclude worked reply budget).engine.host.liquidity.prices.borrow := by
    rw [(conclude_vault engine worked reply budget).2]
    exact ⟨Int.le_refl _, Int.le_refl _⟩
  cases call with
  | openPosition owner => exact same _ _ _
  | operate request => exact same _ _ _
  | liquidate request budget => exact same _ _ _
  | absorb budget => exact same _ _ _
  | setOracle rate => exact ⟨Int.le_refl _, Int.le_refl _⟩
  | accrue prices =>
    simp only [perform]
    split
    · exact ⟨Int.le_refl _, Int.le_refl _⟩
    · rename_i accrued
      simp only [accrue, Liquidity.accrue, bind_eq_ok, pure_eq_ok, Except.ok.injEq,
        ensure_eq_ok_iff] at accrued
      obtain ⟨_, ⟨_, more, rfl⟩, rfl⟩ := accrued
      exact more

theorem Orderly.perform (orderly : engine.Orderly) (call : Call) :
    (engine.perform call).engine.Orderly := by
  have prices := perform_prices engine call
  refine ⟨?_, Int.lt_of_lt_of_le orderly.supply prices.1,
    Int.lt_of_lt_of_le orderly.borrow prices.2⟩
  have effect := orderly.effect call
  generalize (engine.perform call).engine.vault = after at effect ⊢
  cases effect with
  | none => exact orderly.vault
  | trade trades => exact orderly.vault.trades trades
  | liquidation _ takes coherent => exact orderly.vault.takes takes coherent
  | absorption _ takes coherent =>
    exact orderly.vault.takes (takes.weaken fun _ _ => .cleared) coherent

theorem run_concat (start : Engine Int) (calls : List Call) (call : Call) :
    start.run (calls ++ [call]) = ((start.run calls).perform call).engine := by
  simp [run]

theorem New.run_orderly (new : start.New) (calls : List Call) : (start.run calls).Orderly := by
  induction calls using List.reverseRecOn with
  | nil => exact new.orderly
  | append_singleton calls call ih =>
    rw [run_concat]
    exact ih.perform call

theorem run_take_succ (start : Engine Int) {calls : List Call} {n : Nat} {call : Call}
    (next : calls[n]? = some call) :
    start.run (calls.take (n + 1)) = ((start.run (calls.take n)).perform call).engine := by
  rw [List.take_add_one, next]
  exact run_concat ..

theorem run_take_of_none (start : Engine Int) {calls : List Call} {n : Nat}
    (last : calls[n]? = none) : start.run (calls.take (n + 1)) = start.run (calls.take n) := by
  rw [List.take_add_one, last]
  simp

/-- What holds of a new vault, what users keep and what liquidations keep as long as they treat the
ticks well that they reduce, holds in all states of a run whose liquidations do so. -/
theorem New.run_keeps {kept : Vault Int → Prop} {well : Vault Int → Vault Int → Int → Prop}
    (new : start.New) (calls : List Call) (base : kept start.vault)
    (trades : ∀ vault after : Vault Int, vault.Orderly → kept vault → vault.Trades after →
      kept after)
    (takes : ∀ vault after : Vault Int, vault.Orderly → kept vault →
      vault.Takes TickRecord.Liquidated after → vault.EachReduced after (well vault after) →
      kept after)
    (reduced : ∀ n request budget, calls[n]? = some (.liquidate request budget) →
      (start.run (calls.take n)).vault.EachReduced (start.run (calls.take (n + 1))).vault
        (well (start.run (calls.take n)).vault (start.run (calls.take (n + 1))).vault)) (n : Nat) :
    kept (start.run (calls.take n)).vault := by
  induction n with
  | zero => exact base
  | succ n ih =>
    cases next : calls[n]? with
    | none =>
      rw [run_take_of_none start next]
      exact ih
    | some call =>
      have orderly := new.run_orderly (calls.take n)
      have effect := orderly.effect call
      have treated := reduced n
      rw [run_take_succ start next] at treated ⊢
      generalize ((start.run (calls.take n)).perform call).engine.vault = after at effect treated ⊢
      cases effect with
      | none => exact ih
      | trade traded => exact trades _ _ orderly.vault ih traded
      | liquidation asked took coherent =>
        rw [asked] at next
        exact takes _ _ orderly.vault ih took (treated _ _ next)
      | absorption asked took coherent =>
        -- Nothing is reduced by an absorption.
        exact takes _ _ orderly.vault ih (took.weaken fun _ _ => .cleared) took.eachReduced

end Engine

end TickVault
