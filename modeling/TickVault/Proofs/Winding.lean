import TickVault.Proofs.Atomicity
import TickVault.Proofs.Confinement
import TickVault.Proofs.Storage
import TickVault.Proofs.Supply

/-!
Winding a vault down. Whoever pays back all the debt of a position gets it off its tick with the
collateral that it holds, and nobody else notices. A tick gives up no more than it has, and the last
one to leave takes along what is left of its debt; so whatever the liquidations before have made of
the shares, once everybody has paid, in any order, there is no debt, no set bit and no owned tick.
-/

namespace TickVault

def payoff (id : Int) (signer : String) : OperateRequest where
  position := some id
  collateral := 0
  debt := wholeAmount
  signer

theorem payoff_check (id : Int) (signer : String) : (payoff id signer).check = .ok () := rfl

theorem applyCollateral_nothing (held price : Int) :
    applyCollateral held 0 price = .ok (held, 0) := rfl

theorem applyDebt_whole (owed price fee : Int) :
    applyDebt owed wholeAmount price fee = .ok (0, -toAmountUp owed price) := rfl

def Position.freed (position : Position Int) (ledger : Ledger Int) : Position Int :=
  Vault.unseat position (position.share ledger).collateral

theorem Position.freed_extends {position : Position Int} {ledger ledger' : Ledger Int}
    (terms : ledger.Extends ledger') : position.freed ledger' = position.freed ledger := by
  unfold freed
  rw [share_extends terms]

theorem shiftTotals_release {state : VaultState Int} {removed : Int}
    (supply : 0 ≤ state.totalSupply) (nonneg : 0 ≤ removed)
    (covered : removed ≤ state.totalBorrow) :
    state.shiftTotals 0 (-removed) =
      .ok { state with totalBorrow := state.totalBorrow - removed } := by
  have still : shiftTotal .totalSupply state.totalSupply 0 = .ok state.totalSupply := by
    calc shiftTotal .totalSupply state.totalSupply 0
        = checkedSub .totalSupply state.totalSupply 0 := shiftTotal_neg (Int.le_refl 0)
      _ = .ok (state.totalSupply - 0) := checkedSub_eq_ok supply
      _ = .ok state.totalSupply := by rw [Int.sub_zero]
  simp only [VaultState.shiftTotals, still, shiftTotal_neg nonneg, checkedSub_eq_ok covered,
    ok_bind, pure_eq_ok]

namespace Vault

variable {vault middle after departed : Vault Int} {position : Position Int} {id : Int}
  {departure : Departure Int}

/-- A position was taken off its tick; the terms of all ticks and the supply are as before. -/
structure Frees (vault : Vault Int) (position : Position Int) (after : Vault Int) : Prop where
  terms : vault.ledger.Extends after.ledger
  supply : after.state.totalSupply = vault.state.totalSupply
  positions : after.positions =
    vault.positions.insert position.id (position.freed vault.ledger)

theorem Leaves.removed_nonneg (sound : vault.ledger.Sound)
    (departs : vault.Departs position departure departed)
    (leaves : vault.Leaves position departure departed) : 0 ≤ departure.removed := by
  cases departs with
  | untied free => exact Int.le_refl 0
  | wiped here gone => exact Int.le_refl 0
  | left occupies vacated =>
    rw [leaves.removal _ occupies]
    exact TickRecord.removal_nonneg _ _ (sound.debt _)

/-- A position whose debt is paid back comes off its tick, and the debt that the tick gives up for
it is on the books. -/
theorem Governed.rebalance_payoff {prices : ExchangePrices} (signer : String)
    (orderly : vault.Orderly) (governed : vault.Governed) (sized : vault.Sized)
    (supply : 0 ≤ vault.state.totalSupply) (borrow : 0 < prices.borrow)
    (known : vault.positions.get? position.id = some position) :
    ∃ after paid, vault.rebalance prices position (payoff position.id signer) =
        .ok ⟨after, position.freed vault.ledger, 0, -paid⟩ ∧
      0 ≤ paid ∧ vault.Frees position after := by
  have settled := orderly.peopled.settled known
  obtain ⟨departure, departed, done, -⟩ := governed.depart orderly.toSound settled
    fun t occupies =>
      (orderly.peopled.inhabited t).mpr (orderly.peopled.occupants_pos known occupies)
  have departs := depart_ok settled done
  obtain ⟨leaves, coherent⟩ := orderly.toCoherent.depart settled.known departs
  obtain ⟨dust, topmost, cursor⟩ := leaves.state
  have booked (held : Int) : departed.state.shiftTotals (held - held) (0 - departure.removed) =
      .ok { departed.state with
        totalBorrow := departed.state.totalBorrow - departure.removed } := by
    rw [Int.sub_self, Int.zero_sub]
    apply shiftTotals_release
    · rw [cursor]
      exact supply
    · exact leaves.removed_nonneg orderly.ledger departs
    · exact orderly.toBalanced.removed_le coherent leaves
  have dust_le := (sized position.id position known).share_dust_le vault.ledger
  simp only [rebalance, done, payoff, applyCollateral_nothing, applyDebt_whole, ok_bind, toInt_int,
    Holdings.netDebt, pure_eq_ok, place, if_pos, Position.cleared, ofInt_int, booked, putPosition,
    key_int, leaves.holdings]
  refine ⟨_, _, rfl, toAmountUp_nonneg (Int.sub_nonneg_of_le dust_le) borrow, leaves.terms, ?_, ?_⟩
  · change departed.state.totalSupply = _
    rw [cursor]
  · change departed.positions.insert position.id _ = _
    rw [leaves.positions]
    rfl

theorem Governed.operate_payoff {host : Host} (signer : String) (orderly : vault.Orderly)
    (governed : vault.Governed) (sized : vault.Sized) (supply : 0 ≤ vault.state.totalSupply)
    (borrow : 0 < host.liquidity.prices.borrow)
    (known : vault.positions.get? position.id = some position) :
    ∃ settlement, vault.operate host (payoff position.id signer) = .ok settlement ∧
      vault.Frees position settlement.vault := by
  have located : vault.locate (payoff position.id signer) = .ok (position, vault) := by
    simp only [locate, payoff, Vault.position, key_int, ofInt_int, ok_bind, known, pure_eq_ok]
  have authorized : (payoff position.id signer).authorize position = .ok () :=
    ensure_of (.inr ⟨Int.le_refl 0, (by decide : wholeAmount ≤ 0)⟩) _
  obtain ⟨after, paid, rebalanced, nonneg, frees⟩ :=
    governed.rebalance_payoff signer orderly sized supply borrow known
  -- Off every tick there is no ratio to be checked, and nothing is borrowed.
  have safe : after.checkSafety host (position.freed vault.ledger)
      ((payoff position.id signer).debt > 0 || (payoff position.id signer).collateral < 0) =
      .ok () := rfl
  have lent : after.checkBorrow host (-paid) = .ok () := by
    unfold checkBorrow
    apply if_neg
    omega
  simp only [operate, payoff_check, located, authorized, rebalanced, safe, lent, ok_bind,
    Position.netDebt, toInt_int, pure_eq_ok]
  exact ⟨_, rfl, frees.terms, frees.supply, frees.positions⟩

def debtors (vault : Vault Int) : List Int :=
  (vault.positions.entries.filter fun entry => entry.2.tick.isSome).map Prod.fst

theorem Peopled.debtors_nodup (peopled : vault.Peopled) : vault.debtors.Nodup :=
  peopled.distinct.sublist (List.filter_sublist.map Prod.fst)

theorem Peopled.mem_debtors (peopled : vault.Peopled) :
    id ∈ vault.debtors ↔
      ∃ position, vault.positions.get? id = some position ∧ position.tick.isSome := by
  simp only [debtors, List.mem_map, List.mem_filter, Prod.exists, exists_and_right,
    exists_eq_right, Table.get?_eq_some_iff peopled.distinct]

/-- The positions of some ids were taken off their ticks, and nobody else has noticed. -/
structure Winds (vault : Vault Int) (ids : List Int) (after : Vault Int) : Prop where
  terms : vault.ledger.Extends after.ledger
  supply : after.state.totalSupply = vault.state.totalSupply
  freed : ∀ id position, id ∈ ids → vault.positions.get? id = some position →
    after.positions.get? id = some (position.freed vault.ledger)
  others : ∀ id, id ∉ ids → after.positions.get? id = vault.positions.get? id

theorem winds_nothing (vault : Vault Int) : vault.Winds [] vault where
  terms := .refl _
  supply := rfl
  freed _ _ member := by cases member
  others _ _ := rfl

theorem Frees.winds {ids : List Int} (frees : vault.Frees position middle)
    (known : vault.positions.get? position.id = some position) (once : position.id ∉ ids)
    (winds : middle.Winds ids after) : vault.Winds (position.id :: ids) after where
  terms := frees.terms.trans winds.terms
  supply := winds.supply.trans frees.supply
  freed id found member there := by
    have stored : middle.positions.get? id =
        if position.id = id then some (position.freed vault.ledger) else some found := by
      rw [frees.positions, Table.get?_insert, there]
    rcases List.mem_cons.mp member with rfl | later
    · rw [winds.others _ once, stored, if_pos rfl]
      cases known.symm.trans there
      rfl
    · have different : position.id ≠ id := fun same => once (same ▸ later)
      rw [if_neg different] at stored
      rw [winds.freed id found later stored, Position.freed_extends frees.terms]
  others id absent := by
    obtain ⟨different, later⟩ := not_or.mp (mt List.mem_cons.mpr absent)
    rw [winds.others id later, frees.positions, Table.get?_insert, if_neg (Ne.symm different)]

theorem Winds.untied {ids : List Int} (winds : vault.Winds ids after)
    (all : ∀ id, id ∈ ids ↔
      ∃ position, vault.positions.get? id = some position ∧ position.tick.isSome) :
    ∀ id position, after.positions.get? id = some position → position.tick = none := by
  intro id position there
  by_cases member : id ∈ ids
  · obtain ⟨before, found, -⟩ := (all id).mp member
    cases (winds.freed id before member found).symm.trans there
    rfl
  · by_contra tied
    apply member
    apply (all id).mpr
    exact ⟨position, (winds.others id member).symm.trans there, Option.isSome_iff_ne_none.mpr tied⟩

/-- A vault that is owed nothing: no position sits on a tick, and neither ticks nor bitmap nor
branches know of any debt. -/
structure Vacant (vault : Vault Int) : Prop where
  untied : ∀ id position, vault.positions.get? id = some position → position.tick = none
  borrow : vault.state.totalBorrow = 0
  topmost : vault.state.topmost = none
  bits : vault.ledger.bitmap.bits = 0
  ticks : ∀ t, (vault.ledger.tickAt t).rawDebt = 0 ∧ (vault.ledger.tickAt t).occupants = 0
  branches : ∀ id branch, vault.ledger.branches.get? id = some branch → branch.ownedTicks = 0

theorem Orderly.clear_records (orderly : vault.Orderly)
    (clear : ∀ t, (vault.ledger.tickAt t).rawDebt = 0) :
    ∀ record ∈ vault.ledger.ticks.values, record.rawDebt = 0 := by
  intro record member
  obtain ⟨tick, known⟩ := (Table.mem_values_iff orderly.ledger.distinct).mp member
  rw [← Ledger.tickAt_of_get? known]
  exact clear tick

/-- Debt is where positions are: ticks without any occupants owe nothing. -/
theorem Orderly.deserted (orderly : vault.Orderly)
    (nobody : ∀ id position t, vault.positions.get? id = some position →
      ¬ position.Occupies vault.ledger t) :
    (∀ t, (vault.ledger.tickAt t).rawDebt = 0 ∧ (vault.ledger.tickAt t).occupants = 0) ∧
      vault.state.totalBorrow = 0 ∧ vault.state.topmost = none := by
  have peopled := orderly.peopled
  have deserted (t : Int) : (vault.ledger.tickAt t).occupants = 0 := by
    rw [peopled.occupants, present, Table.total_eq_zero]
    intro position member
    obtain ⟨id, known⟩ := (Table.mem_values_iff peopled.distinct).mp member
    exact if_neg (nobody id position t known)
  have clear (t : Int) : (vault.ledger.tickAt t).rawDebt = 0 := by
    have held := orderly.ledger.debt t
    have inhabited := peopled.inhabited t
    have nobody := deserted t
    omega
  refine ⟨fun t => ⟨clear t, deserted t⟩, ?_, ?_⟩
  · rw [← orderly.debt]
    exact Table.total_eq_zero (orderly.clear_records clear)
  · rw [orderly.topmost]
    apply TickBitmap.highest?_eq_none_iff.mpr
    intro t
    rw [orderly.ledger.bits, clear]
    exact Int.lt_irrefl 0

theorem Orderly.vacant (orderly : vault.Orderly) (owned : vault.ledger.Owned)
    (fitting : vault.ledger.bitmap.Fitting)
    (untied : ∀ id position, vault.positions.get? id = some position → position.tick = none) :
    vault.Vacant := by
  obtain ⟨ticks, borrow, topmost⟩ := orderly.deserted fun id position t known =>
    Position.not_occupies_untied (untied id position known) t
  constructor
  · exact untied
  · exact borrow
  · exact topmost
  · apply fitting.bits_eq_zero
    apply TickBitmap.highest?_eq_none_iff.mp
    rw [← orderly.topmost, topmost]
  · exact ticks
  · intro id branch known
    rw [owned.counted id branch known]
    apply Table.total_eq_zero
    intro record member
    apply TickRecord.ownership_vacant
    rw [orderly.clear_records (fun t => (ticks t).1) record member]
    exact Int.lt_irrefl 0

end Vault

namespace Engine

variable {engine start : Engine Int} {position : Position Int} {id : Int}

def windings (payers : List (Int × String)) : List Call :=
  payers.map fun payer => .operate (payoff payer.1 payer.2)

theorem Standing.perform_payoff {signer : String} (standing : engine.Standing)
    (supply : 0 ≤ engine.vault.state.totalSupply)
    (known : engine.vault.positions.get? id = some position)
    (served : (engine.perform (.operate (payoff id signer))).reply ≠ .error .transferRefused) :
    (∃ snapshot, (engine.perform (.operate (payoff id signer))).reply = .ok (.operated snapshot)) ∧
      engine.vault.Frees position
        (engine.perform (.operate (payoff id signer))).engine.vault := by
  cases standing.vault.peopled.named id position known
  obtain ⟨settlement, done, frees⟩ := standing.governed.operate_payoff signer standing.vault
    standing.sized supply standing.borrow known
  have concluded : engine.perform (.operate (payoff position.id signer)) =
      engine.conclude (.ok settlement) .operated .unlimited := by
    rw [← done]
    rfl
  rw [concluded] at served ⊢
  obtain ⟨replied, after, -⟩ := conclude_served served
  rw [after]
  exact ⟨⟨_, replied⟩, frees⟩

/-- Each payoff takes one position off its tick, so a run of them takes off all of theirs. -/
theorem Standing.run_windings {payers : List (Int × String)} (standing : engine.Standing)
    (supply : 0 ≤ engine.vault.state.totalSupply) (once : (payers.map Prod.fst).Nodup)
    (known : ∀ id ∈ payers.map Prod.fst, ∃ position, engine.vault.positions.get? id = some position)
    (served : engine.Served (windings payers)) :
    engine.vault.Winds (payers.map Prod.fst) (engine.run (windings payers)).vault := by
  induction payers generalizing engine with
  | nil => exact Vault.winds_nothing _
  | cons payer rest ih =>
    obtain ⟨id, signer⟩ := payer
    obtain ⟨fresh, apart⟩ := List.nodup_cons.mp once
    obtain ⟨position, found⟩ := known id List.mem_cons_self
    cases standing.vault.peopled.named id position found
    obtain ⟨-, frees⟩ := standing.perform_payoff supply found served.1
    apply frees.winds found fresh
    apply ih (standing.perform _) _ apart _ served.2
    · rw [frees.supply]
      exact supply
    · intro other member
      obtain ⟨neighbour, there⟩ := known other (List.mem_cons_of_mem _ member)
      rw [frees.positions, Table.get?_insert, there]
      split
      · exact ⟨_, rfl⟩
      · exact ⟨_, rfl⟩

/-- In between the payoffs nobody's position has changed that is not paid off yet, and whoever comes
next is answered. -/
theorem Standing.next_payoff {paid rest : List (Int × String)} {signer : String}
    (standing : engine.Standing) (supply : 0 ≤ engine.vault.state.totalSupply)
    (once : ((paid ++ (id, signer) :: rest).map Prod.fst).Nodup)
    (known : ∀ other ∈ (paid ++ (id, signer) :: rest).map Prod.fst,
      ∃ position, engine.vault.positions.get? other = some position)
    (served : engine.Served (windings (paid ++ (id, signer) :: rest)))
    (found : engine.vault.positions.get? id = some position) :
    let before := engine.run (windings paid)
    (∃ snapshot, (before.perform (.operate (payoff id signer))).reply =
        .ok (.operated snapshot)) ∧
      before.vault.positions.get? id = some position ∧
      before.vault.holdings position = .ok (position.share engine.vault.ledger) := by
  intro before
  rw [List.map_append, List.nodup_append] at once
  obtain ⟨apart, -, disjoint⟩ := once
  have unpaid : id ∉ paid.map Prod.fst := fun early => disjoint id early id List.mem_cons_self rfl
  rw [windings, List.map_append, served_append] at served
  obtain ⟨served_paid, served_now, -⟩ := served
  have winds : engine.vault.Winds (paid.map Prod.fst) before.vault := by
    apply standing.run_windings supply apart _ served_paid
    intro other early
    apply known
    rw [List.map_append]
    exact List.mem_append_left _ early
  have there : before.vault.positions.get? id = some position :=
    (winds.others id unpaid).trans found
  have before_standing : before.Standing := standing.run (windings paid)
  obtain ⟨replied, -⟩ :=
    before_standing.perform_payoff (winds.supply.symm ▸ supply) there served_now
  refine ⟨replied, there, ?_⟩
  rw [← Position.share_extends winds.terms]
  exact Vault.holdings_eq (before_standing.vault.peopled.settled there)

/-- Every vault of a run can be wound down, over any host that has positive prices and serves it: if
all debt of each position that sits on a tick is paid back once, in any order and by whomever, then
no call fails, every position keeps the collateral that it holds just before its own call, the
supply stays, and there is nothing owed in the end. -/
theorem run_wound_down (new : start.New) (calls : List Call) {host : Host}
    (supply : 0 < host.liquidity.prices.supply) (borrow : 0 < host.liquidity.prices.borrow)
    {payers : List (Int × String)}
    (all : (payers.map Prod.fst).Perm (start.run calls).vault.debtors)
    (served : Served ⟨(start.run calls).vault, host⟩ (windings payers)) :
    let engine : Engine Int := ⟨(start.run calls).vault, host⟩
    let last := (engine.run (windings payers)).vault
    (∀ paid id signer rest, payers = paid ++ (id, signer) :: rest →
      let before := engine.run (windings paid)
      ∃ snapshot position held,
        (before.perform (.operate (payoff id signer))).reply = .ok (.operated snapshot) ∧
        before.vault.positions.get? id = some position ∧
        before.vault.holdings position = .ok held ∧
        last.positions.get? id = some { position.cleared with collateral := held.collateral }) ∧
      last.state.totalSupply = engine.vault.state.totalSupply ∧ last.Vacant := by
  intro engine last
  have standing : engine.Standing := (new.standing.run calls).rehost supply borrow
  have nonneg : 0 ≤ engine.vault.state.totalSupply := new.run_supply_nonneg calls
  have peopled := standing.vault.peopled
  have once : (payers.map Prod.fst).Nodup := all.nodup_iff.mpr peopled.debtors_nodup
  have seated (id : Int) : id ∈ payers.map Prod.fst ↔
      ∃ position, engine.vault.positions.get? id = some position ∧ position.tick.isSome :=
    all.mem_iff.trans peopled.mem_debtors
  have known (id : Int) (member : id ∈ payers.map Prod.fst) :
      ∃ position, engine.vault.positions.get? id = some position := by
    obtain ⟨position, found, -⟩ := (seated id).mp member
    exact ⟨position, found⟩
  have winds : engine.vault.Winds (payers.map Prod.fst) last :=
    standing.run_windings nonneg once known served
  refine ⟨?_, winds.supply, ?_⟩
  · intro paid id signer rest split before
    have member : id ∈ payers.map Prod.fst := by
      rw [split]
      simp
    obtain ⟨position, found⟩ := known id member
    have freed := winds.freed id position member found
    subst split
    obtain ⟨⟨snapshot, replied⟩, there, held⟩ :=
      standing.next_payoff nonneg once known served found
    exact ⟨snapshot, position, _, replied, there, held, freed⟩
  · have last_standing : (engine.run (windings payers)).Standing := standing.run (windings payers)
    have twin : engine.Twin engine := ⟨(new.twin.run calls).vault, rfl⟩
    have fitting := (twin.run (windings payers)).vault.ledger.fitting
    exact last_standing.vault.vacant last_standing.governed.owned fitting (winds.untied seated)

/-- The third borrower owes all but a hundred of the debt of the tick, the first two owe nothing.
The third one leaves first, and the last one to leave takes the hundred along. -/
theorem exhaustion_wound_down :
    let last := (run ⟨(standard.run exhaustion).vault, {}⟩
      (windings [(3, "x"), (1, "a"), (2, "a")])).vault
    standard.New ∧ (standard.run exhaustion).vault.state.totalBorrow = 1000666633494987067 ∧
      last.state.totalSupply = 2000000000001505552 ∧ last.Vacant := by
  have prices : 0 < ({} : Host).liquidity.prices.supply ∧
      0 < ({} : Host).liquidity.prices.borrow := by
    decide
  have all : ([(3, "x"), (1, "a"), (2, "a")].map Prod.fst).Perm
      (standard.run exhaustion).vault.debtors := by
    decide +kernel
  have standing := (standard_new.standing.run exhaustion).rehost prices.1 prices.2
  obtain ⟨-, supply, vacant⟩ := run_wound_down standard_new exhaustion prices.1 prices.2 all
    (standing.toGoverned.served rfl _)
  refine ⟨standard_new, by decide +kernel, ?_, vacant⟩
  rw [supply]
  decide +kernel

end Engine

end TickVault
