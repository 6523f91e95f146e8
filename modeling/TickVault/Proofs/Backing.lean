import TickVault.Proofs.Realized

/-!
The collateral that the positions may claim against the collateral in the vault. What users do moves
both by the same amount. A liquidation moves them apart: it takes collateral off a tick at the price
of the tick, and from the holders of the tick by the factor. The run is backed just as long as the
first does not add up to more than the second.
-/

namespace TickVault

namespace Position

def claim (ledger : Ledger Int) (position : Position Int) : Int :=
  (position.share ledger).collateral

variable {position : Position Int} {ledger ledger' : Ledger Int} {tick : Int}

theorem claim_untied (free : position.tick = none) (ledger : Ledger Int) :
    claim ledger position = position.collateral := by
  unfold claim share
  rw [free]

end Position

namespace Vault

def claimed (vault : Vault Int) : Int :=
  vault.positions.total (Position.claim vault.ledger)

/-- The vault holds all collateral that its positions may claim. -/
def Backed (vault : Vault Int) : Prop :=
  vault.claimed ≤ vault.state.totalSupply

instance (vault : Vault Int) : Decidable vault.Backed :=
  inferInstanceAs (Decidable (_ ≤ _))

def surplus (vault : Vault Int) : Int :=
  vault.state.totalSupply - vault.claimed

variable {vault after : Vault Int} {position : Position Int}

theorem Opens.surplus (opens : vault.Opens position after) : after.surplus = vault.surplus := by
  have claims : after.claimed = vault.claimed + 0 := opens.realized
  obtain ⟨state, rfl, -, -, supply, -⟩ := opens.after
  change state.totalSupply - _ = vault.state.totalSupply - _
  omega

theorem Reseats.surplus (orderly : vault.Orderly)
    (known : vault.positions.get? position.id = some position)
    (reseats : vault.Reseats position after) : after.surplus = vault.surplus := by
  cases reseats with
  | @off _ departed _ amount leaves funded ledger positions supply =>
    have claims : after.claimed = (departed.putAt (unseat position amount)).claimed :=
      realized_congr ledger positions
    have left : (departed.putAt (unseat position amount)).claimed =
        vault.claimed - (position.share vault.ledger).collateral + amount :=
      leaves.realized known amount
    simp only [Vault.surplus, supply]
    omega
  | @on _ departed joined _ tick debt branch dust amount kept leaves funded coherent joins enough
      returns ledger positions supply =>
    have slots := orderly.peopled.slots_le leaves.terms tick
    have claims : after.claimed = (joined.putAt
        (seat (departed.putAt (unseat position amount)).ledger position kept tick debt branch dust
          amount)).claimed := realized_congr ledger positions
    have left : (departed.putAt (unseat position amount)).claimed =
        vault.claimed - (position.share vault.ledger).collateral + amount :=
      leaves.realized known amount
    have joined : (joined.putAt
        (seat (departed.putAt (unseat position amount)).ledger position kept tick debt branch dust
          amount)).claimed = (departed.putAt (unseat position amount)).claimed - amount + amount :=
      joins.realized (get?_unseat ..) (unseat_tick ..) slots returns
    simp only [Vault.surplus, supply]
    omega

theorem Trades.surplus (orderly : vault.Orderly) (trades : vault.Trades after) :
    after.surplus = vault.surplus := by
  refine @Trades.keeps vault after (fun other => other.surplus = vault.surplus) orderly rfl ?_ ?_ ?_
    trades
  · intro middle after position before opens
    exact opens.surplus.trans before
  · intro middle after position orderly before known reseats
    exact (reseats.surplus orderly known).trans before
  · exact fun _ _ before => before

/-- What a liquidation takes off the ticks beyond what it takes from the positions. -/
def shortfall (vault after : Vault Int) : Int :=
  (vault.ledger.collateral - after.ledger.collateral) - (vault.claimed - after.claimed)

theorem Takes.surplus {change : TickRecord Int → TickRecord Int → Prop}
    (takes : vault.Takes change after) : after.surplus = vault.surplus - vault.shortfall after := by
  have supply := takes.supply
  unfold Vault.surplus shortfall
  omega

end Vault

namespace Position

def idle (position : Position Int) : Int :=
  if position.tick = none then position.collateral else 0

theorem idle_untied {position : Position Int} (free : position.tick = none) :
    position.idle = position.collateral := if_pos free

theorem idle_seated {position : Position Int} {tick : Int} (here : position.tick = some tick) :
    position.idle = 0 := by
  rw [idle, here]
  exact if_neg (Option.some_ne_none tick)

end Position

namespace TickRecord

theorem vacatedBy_rawCollateral (record : TickRecord Int) (debt collateral : Int) :
    (record.vacatedBy debt collateral).rawCollateral =
      if 0 < record.rawDebt ∧ debt = record.rawDebt then 0
      else record.rawCollateral - min collateral record.rawCollateral := by
  simp only [vacatedBy, shrunk]
  split <;> rfl

end TickRecord

namespace Vault

variable {vault after : Vault Int} {position : Position Int}

def idle (vault : Vault Int) : Int :=
  vault.positions.total Position.idle

/-- No tick is claimed beyond its collateral, and the vault holds the collateral of all ticks and of
all positions off the ticks. -/
structure Secured (vault : Vault Int) : Prop where
  ticks : ∀ t, vault.staked Holdings.collateral t ≤ (vault.ledger.tickAt t).rawCollateral
  held : vault.idle + vault.ledger.collateral ≤ vault.state.totalSupply

theorem claimed_eq (sound : vault.ledger.Sound) (peopled : vault.Peopled) :
    vault.claimed = vault.idle + vault.ledger.ticks.total fun record =>
      vault.staked Holdings.collateral record.tick :=
  realized_eq rfl sound peopled

theorem Secured.backed (sound : vault.ledger.Sound) (peopled : vault.Peopled)
    (secured : vault.Secured) : vault.Backed := by
  have held := secured.held
  have bound : (vault.ledger.ticks.total fun record =>
      vault.staked Holdings.collateral record.tick) ≤ vault.ledger.collateral := by
    apply Table.total_le_total
    intro record member
    obtain ⟨tick, found⟩ := (Table.mem_values_iff sound.distinct).mp member
    have least := secured.ticks tick
    rw [Ledger.tickAt_of_get? found] at least
    rw [(sound.keyed tick record found).1]
    exact least
  rw [Backed, claimed_eq sound peopled]
  omega

theorem idle_putAt (positions : after.positions = vault.positions) (position : Position Int) :
    (after.putAt position).idle =
      vault.idle - ((vault.positions.get? position.id).map Position.idle).getD 0 +
        position.idle :=
  total_putAt (fun _ => Position.idle) rfl positions position

theorem idle_congr (positions : after.positions = vault.positions) : after.idle = vault.idle := by
  unfold idle
  rw [positions]

theorem Secured.congr (secured : vault.Secured) (ledger : after.ledger = vault.ledger)
    (positions : after.positions = vault.positions)
    (supply : vault.state.totalSupply ≤ after.state.totalSupply) : after.Secured := by
  have held := secured.held
  refine ⟨fun t => ?_, ?_⟩
  · rw [staked_congr ledger positions, ledger]
    exact secured.ticks t
  · rw [idle_congr positions, ledger]
    omega

theorem Secured.opens (secured : vault.Secured) (opens : vault.Opens position after) :
    after.Secured := by
  have staked (t : Int) : after.staked Holdings.collateral t =
      vault.staked Holdings.collateral t := opens.staked t
  obtain ⟨state, rfl, -, -, supply, -⟩ := opens.after
  refine ⟨fun t => ?_, ?_⟩
  · rw [staked]
    exact secured.ticks t
  · have idle : (({ vault with state } : Vault Int).putAt position).idle = _ :=
      idle_putAt rfl position
    rw [opens.unknown, Position.idle_untied opens.free, opens.empty] at idle
    change _ = vault.idle - 0 + 0 at idle
    have held := secured.held
    change _ + vault.ledger.collateral ≤ state.totalSupply
    omega

theorem Peopled.share_le_staked {tick : Int} (peopled : vault.Peopled)
    (known : vault.positions.get? position.id = some position)
    (occupies : position.Occupies vault.ledger tick) :
    (position.share vault.ledger).collateral ≤ vault.staked Holdings.collateral tick := by
  have own : Position.stake Holdings.collateral vault.ledger tick position =
      (position.share vault.ledger).collateral := if_pos occupies
  rw [← own]
  apply Table.weight_le_total known
  intro other member
  obtain ⟨id, found⟩ := (Table.mem_values_iff peopled.distinct).mp member
  unfold Position.stake
  split
  · exact peopled.share_nonneg found
  · exact Int.le_refl 0

theorem Secured.departure {departure : Departure Int} {departed : Vault Int}
    (peopled : vault.Peopled) (secured : vault.Secured)
    (known : vault.positions.get? position.id = some position)
    (leaves : vault.Leaves position departure departed) :
    departed.ledger.collateral + (position.share vault.ledger).collateral ≤
      vault.ledger.collateral + position.idle := by
  obtain ⟨gone, left, ⟨nowhere, rfl⟩ | ⟨tick, occupies, rfl⟩⟩ := leaves.collateral
  · have untied : (position.share vault.ledger).collateral ≤ position.idle := by
      cases here : position.tick with
      | none =>
        rw [Position.idle_untied here]
        exact Int.le_of_eq (Position.claim_untied here vault.ledger)
      | some tick =>
        have wiped := not_not.mp (not_and.mp (nowhere tick) here)
        rw [Position.idle_seated here]
        simp only [Position.share, here, Position.shareOf_wiped wiped]
        exact Int.le_refl 0
    omega
  · have share := peopled.share_le_staked known occupies
    have booked := secured.ticks tick
    have here := leaves.records tick
    rw [if_pos occupies, leaves.holdings] at here
    rw [here, TickRecord.vacatedBy_rawCollateral] at left
    rw [Position.idle_seated occupies.1]
    split at left <;> omega

theorem Secured.leave {departure : Departure Int} {departed : Vault Int} (orderly : vault.Orderly)
    (secured : vault.Secured) (known : vault.positions.get? position.id = some position)
    (leaves : vault.Leaves position departure departed) {amount : Int} (funded : 0 ≤ amount) :
    (∀ t, (departed.putAt (unseat position amount)).staked Holdings.collateral t ≤
        (departed.ledger.tickAt t).rawCollateral) ∧
      (departed.putAt (unseat position amount)).idle + departed.ledger.collateral +
        (position.share vault.ledger).collateral ≤ vault.state.totalSupply + amount := by
  have peopled := orderly.peopled.leave orderly.toCoherent known leaves (unseat_id ..)
    (unseat_tick ..) funded
  constructor
  · intro t
    have before := secured.ticks t
    have left : _ = vault.staked Holdings.collateral t - _ := leaves.staked known amount t
    by_cases occupies : position.Occupies vault.ledger t
    · have own : Position.stake Holdings.collateral vault.ledger t position =
          (position.share vault.ledger).collateral := if_pos occupies
      have here := leaves.records t
      rw [if_pos occupies, leaves.holdings] at here
      rw [here, TickRecord.vacatedBy_rawCollateral]
      split
      · rename_i emptied
        apply Int.le_of_eq
        apply peopled.staked_vacant
        change (departed.ledger.tickAt t).rawDebt = 0
        rw [here, TickRecord.vacatedBy_rawDebt]
        omega
      · omega
    · have elsewhere : Position.stake Holdings.collateral vault.ledger t position = 0 :=
        if_neg occupies
      rw [leaves.records t, if_neg occupies]
      omega
  · have idle := idle_putAt leaves.positions (unseat position amount)
    rw [unseat_id, known, Position.idle_untied (unseat_tick ..)] at idle
    change _ = vault.idle - position.idle + amount at idle
    have taken := secured.departure orderly.peopled known leaves
    have held := secured.held
    omega

theorem Secured.reseats (orderly : vault.Orderly) (secured : vault.Secured)
    (known : vault.positions.get? position.id = some position)
    (reseats : vault.Reseats position after) : after.Secured := by
  cases reseats with
  | @off _ departed _ amount leaves funded ledger positions supply =>
    obtain ⟨ticks, held⟩ := secured.leave orderly known leaves funded
    have idle : after.idle = (departed.putAt (unseat position amount)).idle :=
      idle_congr positions
    refine ⟨fun t => ?_, ?_⟩
    · have staked : after.staked Holdings.collateral =
          (departed.putAt (unseat position amount)).staked Holdings.collateral :=
        staked_congr ledger positions
      rw [staked, ledger]
      exact ticks t
    · rw [idle, ledger, supply]
      omega
  | @on _ departed joined _ tick debt branch dust amount kept leaves funded coherent joins enough
      returns ledger positions supply =>
    obtain ⟨ticks, held⟩ := secured.leave orderly known leaves funded
    have slots := orderly.peopled.slots_le leaves.terms tick
    refine ⟨fun t => ?_, ?_⟩
    · have staked : after.staked Holdings.collateral = (joined.putAt
          (seat (departed.putAt (unseat position amount)).ledger position kept tick debt branch dust
            amount)).staked Holdings.collateral := staked_congr ledger positions
      have before := ticks t
      rw [staked, joins.staked unseat_free slots returns, ledger, Ledger.tickAt_insert joins.ticks]
      split
      · rename_i here
        subst here
        change _ + amount ≤ (departed.ledger.tickAt t).rawCollateral + amount
        omega
      · change _ + 0 ≤ (departed.ledger.tickAt t).rawCollateral
        omega
    · have idle : after.idle = (joined.putAt
          (seat (departed.putAt (unseat position amount)).ledger position kept tick debt branch dust
            amount)).idle := idle_congr positions
      have seated : (seat (departed.putAt (unseat position amount)).ledger position kept tick debt
          branch dust amount).idle = 0 := Position.idle_seated rfl
      have more := joins.collateral
      change _ = departed.ledger.collateral + amount at more
      rw [idle_putAt joins.positions, seated] at idle
      change _ = _ - (((departed.putAt (unseat position amount)).positions.get? position.id).map
        _).getD 0 + 0 at idle
      rw [get?_unseat, Option.map_some, Position.idle_untied (unseat_tick ..)] at idle
      change _ = _ - amount + 0 at idle
      rw [ledger, more, supply]
      omega

theorem Secured.trades (orderly : vault.Orderly) (secured : vault.Secured)
    (trades : vault.Trades after) : after.Secured := by
  apply trades.keeps orderly secured
  · exact fun _ _ _ secured opens => secured.opens opens
  · exact fun _ _ _ orderly secured known reseats => secured.reseats orderly known reseats
  · exact fun _ _ secured => secured.congr rfl rfl (Int.le_refl _)

/-- What is left of the collateral of a tick is enough for its holders, at the factor that they are
left with. -/
def Spares (vault after : Vault Int) (tick : Int) : Prop :=
  vault.stakedAfter Holdings.collateral tick (after.ledger.tickAt tick).rawDebt ≤
    (after.ledger.tickAt tick).rawCollateral

theorem Secured.takes (orderly : vault.Orderly) (secured : vault.Secured)
    (takes : vault.Takes TickRecord.Liquidated after)
    (spares : vault.EachReduced after (vault.Spares after)) :
    after.Secured := by
  refine ⟨fun t => ?_, ?_⟩
  · have change := takes.records t
    generalize stored : after.ledger.tickAt t = record at change
    cases change with
    | cleared cleared =>
      cases cleared with
      | kept =>
        rw [takes.staked_kept stored]
        exact secured.ticks t
      | wiped branch =>
        rw [(orderly.peopled.takes takes).staked_vacant (by rw [stored, TickRecord.wiped_rawDebt])]
        exact Int.le_refl 0
    | @reduced debt collateral branch positive partly covered =>
      have left : (after.ledger.tickAt t).rawDebt = (vault.ledger.tickAt t).rawDebt - debt := by
        rw [stored, TickRecord.reduced_rawDebt]
      rw [← stored, takes.staked_reduced stored]
      exact spares t (by omega) (by omega)
  · have held := secured.held
    have supply := takes.supply
    rw [idle_congr takes.positions]
    omega

end Vault

namespace Engine

variable {start engine : Engine Int}

def shortfallOf (engine : Engine Int) (call : Call) : Int :=
  match call with
  | .liquidate _ _ | .absorb _ => engine.vault.shortfall (engine.perform call).engine.vault
  | _ => 0

def shortfall (engine : Engine Int) : List Call → Int
  | [] => 0
  | call :: rest => engine.shortfallOf call + (engine.perform call).engine.shortfall rest

theorem Orderly.surplus (orderly : engine.Orderly) (call : Call) :
    (engine.perform call).engine.vault.surplus =
      engine.vault.surplus - engine.shortfallOf call := by
  have traded (same : (engine.perform call).engine.vault = engine.vault ∨
      engine.vault.Trades (engine.perform call).engine.vault) :
      (engine.perform call).engine.vault.surplus = engine.vault.surplus - 0 := by
    rw [Int.sub_zero]
    rcases same with same | trades
    · rw [same]
    · exact trades.surplus orderly.vault
  have taken {change : TickRecord Int → TickRecord Int → Prop}
      (same : (engine.perform call).engine.vault = engine.vault ∨
        engine.vault.Takes change (engine.perform call).engine.vault ∧
          (engine.perform call).engine.vault.Coherent) :
      (engine.perform call).engine.vault.surplus = engine.vault.surplus -
        engine.vault.shortfall (engine.perform call).engine.vault := by
    rcases same with same | ⟨takes, -⟩
    · rw [same, Vault.shortfall]
      omega
    · exact takes.surplus
  cases call with
  | openPosition owner => exact traded (orderly.trade (.inl ⟨owner, rfl⟩))
  | operate request => exact traded (orderly.trade (.inr ⟨request, rfl⟩))
  | liquidate request budget => exact taken (orderly.liquidate request budget)
  | absorb budget => exact taken (orderly.absorb budget)
  | setOracle rate => exact traded (.inl (perform_setOracle engine rate))
  | accrue prices => exact traded (.inl (perform_accrue engine prices))

theorem Orderly.run_surplus (orderly : engine.Orderly) (calls : List Call) :
    (engine.run calls).vault.surplus = engine.vault.surplus - engine.shortfall calls := by
  induction calls generalizing engine with
  | nil => exact (Int.sub_zero _).symm
  | cons call rest ih =>
    have later := ih (orderly.perform call)
    have now := orderly.surplus call
    change (engine.run (call :: rest)).vault.surplus = _ at later
    rw [later, now, shortfall]
    omega

theorem New.surplus (new : start.New) : start.vault.surplus = 0 := by
  obtain ⟨id, config, validated, host, -, rfl⟩ := new.created
  rfl

theorem New.secured (new : start.New) : start.vault.Secured := by
  obtain ⟨id, config, validated, host, -, rfl⟩ := new.created
  exact ⟨fun t => Int.le_refl 0, Int.le_refl 0⟩

/-- Shares are what the vault realizes. They are backed after a run just when the liquidations of
the run have not taken more off the ticks than from the positions, and they are backed all along if
each liquidation leaves enough on the ticks that it reduces. -/
theorem run_backed_iff (new : start.New) (calls : List Call) :
    (∀ n id position, (start.run (calls.take n)).vault.positions.get? id = some position →
      (start.run (calls.take n)).vault.holdings position =
        .ok (position.share (start.run (calls.take n)).vault.ledger)) ∧
    ((start.run calls).vault.Backed ↔ start.shortfall calls ≤ 0) ∧
    ((∀ n request budget, calls[n]? = some (.liquidate request budget) →
        (start.run (calls.take n)).vault.EachReduced (start.run (calls.take (n + 1))).vault
          ((start.run (calls.take n)).vault.Spares (start.run (calls.take (n + 1))).vault)) →
      ∀ n, (start.run (calls.take n)).vault.Backed) := by
  refine ⟨fun n id position known => ?_, ?_, fun spares n => ?_⟩
  · exact Vault.holdings_eq ((new.run_orderly (calls.take n)).vault.peopled.settled known)
  · have surplus := new.orderly.run_surplus calls
    rw [new.surplus, Vault.surplus] at surplus
    rw [Vault.Backed]
    omega
  · have orderly := (new.run_orderly (calls.take n)).vault
    have secured := new.run_keeps calls new.secured (fun _ _ orderly => .trades orderly)
      (fun _ _ orderly => .takes orderly) spares n
    exact secured.backed orderly.ledger orderly.peopled

theorem first_borrower_backed : (standard.run (exhaustion.take 3)).vault.Backed := by
  apply (run_backed_iff standard_new (exhaustion.take 3)).2.1.mpr
  decide +kernel

/-- Half of the debt of the third borrower is liquidated with half of its collateral, and it keeps
its claim to all of that collateral. -/
theorem third_borrower_unbacked :
    ¬ ∀ (start : Engine Int) (calls : List Call), start.New →
      (start.run calls).vault.Backed := by
  intro backed
  have bound := backed standard
    (exhaustion ++ [.liquidate { debt := 500000000000000000 } .unlimited]) standard_new
  revert bound
  decide +kernel

end Engine

end TickVault
