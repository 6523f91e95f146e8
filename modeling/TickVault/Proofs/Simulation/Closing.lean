import TickVault.Simulation
import TickVault.Proofs.Fairness
import TickVault.Proofs.Winding

namespace TickVault

def Position.owes (ledger : Ledger Int) (position : Position Int) : Bool :=
  decide ((position.share ledger).debt - (position.share ledger).dustDebt ≠ 0)

theorem Position.owes_extends {ledger ledger' : Ledger Int} (terms : ledger.Extends ledger') :
    Position.owes ledger' = Position.owes ledger := by
  funext position
  rw [owes, owes, share_extends terms]

theorem Position.owes_untied {position : Position Int} (free : position.tick = none)
    (ledger : Ledger Int) : position.owes ledger = false := by
  rw [owes, share_untied free]
  rfl

namespace Vault

variable {vault : Vault Int} {positions : List (Position Int)}

theorem positionList_ok (vault : Vault Int) :
    ∃ positions, vault.positionList = .ok positions ∧ positions.Perm vault.positions.values :=
  ⟨vault.positions.sortedBy fun a b => decide (a ≤ b), rfl, Table.sortedBy_perm _ _⟩

theorem Peopled.listed (peopled : vault.Peopled)
    (all : positions.Perm vault.positions.values) :
    (positions.map Position.id).Nodup ∧ ∀ position ∈ positions,
      vault.positions.get? position.id = some position := by
  have named : ∀ entry ∈ vault.positions.entries, entry.2.id = entry.1 := by
    intro entry member
    exact peopled.named entry.1 entry.2 ((Table.get?_eq_some_iff peopled.distinct).mpr member)
  have ids : vault.positions.values.map Position.id = vault.positions.entries.map Prod.fst := by
    rw [Table.values, List.map_map]
    exact List.map_congr_left named
  constructor
  · rw [(all.map Position.id).nodup_iff, ids]
    exact peopled.distinct
  · intro position member
    obtain ⟨id, known⟩ := (Table.mem_values_iff peopled.distinct).mp (all.mem_iff.mp member)
    rw [peopled.named id position known]
    exact known

end Vault

namespace Simulation

variable {simulation : Simulation} {position : Position Int} {positions : List (Position Int)}

@[simp] theorem attempt_call (simulation : Simulation) (called : Call) :
    attempt simulation (call called) = .ok ((simulation.engine.perform called).reply,
      { simulation with engine := (simulation.engine.perform called).engine }) := rfl

structure Closable (engine : Engine Int) : Prop extends engine.Standing where
  supplied : 0 ≤ engine.vault.state.totalSupply
  unbounded : engine.host.capacity = none

theorem Closable.perform {engine : Engine Int} (closable : Closable engine) (call : Call) :
    Closable (engine.perform call).engine := by
  obtain ⟨actions, works, -⟩ := Engine.perform_works engine call
  refine ⟨closable.toStanding.perform call, ?_, ?_⟩
  · exact works.supply_nonneg closable.toStanding closable.supplied
  · exact (Engine.perform_capacity engine call).trans closable.unbounded

theorem Closable.run {engine : Engine Int} (closable : Closable engine) (calls : List Call) :
    Closable (engine.run calls) :=
  closable.toStanding.run_keeps Closable (fun _ call _ closable => closable.perform call) closable
    calls

theorem Closable.answered {engine : Engine Int} (closable : Closable engine) (signer : String)
    (known : engine.vault.positions.get? position.id = some position) :
    (∃ snapshot, (engine.perform (.operate (payoff position.id signer))).reply =
        .ok (.operated snapshot)) ∧
      engine.vault.Frees position
        (engine.perform (.operate (payoff position.id signer))).engine.vault :=
  closable.perform_payoff closable.supplied known
    (closable.toGoverned.served closable.unbounded [_]).1

def paid (simulation : Simulation) (position : Position Int) : Simulation :=
  { simulation with
    engine := (simulation.engine.perform
      (.operate (payoff position.id position.owner.wording))).engine }

def payers (ledger : Ledger Int) (positions : List (Position Int)) : List (Int × String) :=
  (positions.filter (Position.owes ledger)).map fun position =>
    (position.id, position.owner.wording)

def paidUp (simulation : Simulation) (positions : List (Position Int)) : Simulation :=
  { simulation with
    engine := simulation.engine.run
      (Engine.windings (payers simulation.engine.vault.ledger positions)) }

theorem closeOne_eq (closable : Closable simulation.engine)
    (known : simulation.engine.vault.positions.get? position.id = some position) :
    attempt simulation (closeOne position) =
      if position.owes simulation.engine.vault.ledger then .ok (1, simulation.paid position)
      else .ok (0, simulation) := by
  cases here : position.tick with
  | none =>
    rw [Position.owes_untied here]
    simp only [closeOne, here, Option.isNone_none, if_true, attempt_pure,
      Bool.false_eq_true, if_false]
  | some tick =>
    have settled := closable.vault.peopled.settled known
    simp only [closeOne, here, Option.isNone_some, Bool.false_eq_true, if_false, attempt_bind,
      attempt_get, ok_bind, Vault.snapshot_eq settled known, attempt_lift, map_ok, attempt_ite,
      attempt_pure, Position.owes, decide_eq_true_eq, ne_eq, ite_not, attempt_call]
    split
    · rfl
    · obtain ⟨snapshot, replied⟩ := (closable.answered position.owner.wording known).1
      rw [payoff] at replied
      rw [replied]
      rfl

theorem Closable.paid (closable : Closable simulation.engine)
    (known : simulation.engine.vault.positions.get? position.id = some position) :
    simulation.engine.vault.Frees position (simulation.paid position).engine.vault ∧
      Closable (simulation.paid position).engine :=
  ⟨(closable.answered _ known).2, closable.perform _⟩

theorem payers_cons (ledger : Ledger Int) (position : Position Int)
    (rest : List (Position Int)) : payers ledger (position :: rest) =
      if position.owes ledger then (position.id, position.owner.wording) :: payers ledger rest
      else payers ledger rest := by
  rw [payers, List.filter_cons]
  split <;> rfl

theorem mapM_closeOne (closable : Closable simulation.engine)
    (once : (positions.map Position.id).Nodup)
    (known : ∀ position ∈ positions,
      simulation.engine.vault.positions.get? position.id = some position) :
    ∃ counts, attempt simulation (positions.mapM closeOne) =
        .ok (counts, simulation.paidUp positions) ∧
      counts.sum = positions.countP (Position.owes simulation.engine.vault.ledger) := by
  induction positions generalizing simulation with
  | nil => exact ⟨[], rfl, rfl⟩
  | cons position rest ih =>
    obtain ⟨fresh, apart⟩ := List.nodup_cons.mp once
    have here := known position List.mem_cons_self
    have others := fun other member => known other (List.mem_cons_of_mem position member)
    rw [List.mapM_cons, attempt_bind, closeOne_eq closable here, List.countP_cons]
    by_cases owes : position.owes simulation.engine.vault.ledger
    · obtain ⟨frees, closable'⟩ := closable.paid here
      have there : ∀ other ∈ rest,
          (simulation.paid position).engine.vault.positions.get? other.id = some other := by
        intro other member
        have different : position.id ≠ other.id := fun same =>
          fresh (same ▸ List.mem_map_of_mem member)
        rw [frees.positions, Table.get?_insert, if_neg different]
        exact others other member
      obtain ⟨counts, closed, total⟩ := ih closable' apart there
      -- What the others owe is not touched by the payment.
      have same : (simulation.paid position).paidUp rest =
          simulation.paidUp (position :: rest) := by
        rw [paidUp, paidUp, payers_cons, if_pos owes, payers, Position.owes_extends frees.terms]
        rfl
      rw [Position.owes_extends frees.terms] at total
      rw [same] at closed
      refine ⟨1 :: counts, ?_, ?_⟩
      · simp only [owes, if_true, ok_bind, attempt_bind, closed, attempt_pure]
      · rw [List.sum_cons, total, owes, if_pos rfl]
        omega
    · obtain ⟨counts, closed, total⟩ := ih closable apart others
      have same : simulation.paidUp rest = simulation.paidUp (position :: rest) := by
        rw [paidUp, paidUp, payers_cons, if_neg owes]
      rw [same] at closed
      refine ⟨0 :: counts, ?_, ?_⟩
      · simp only [owes, if_false, ok_bind, attempt_bind, closed, attempt_pure, Bool.false_eq_true]
      · rw [List.sum_cons, total, if_neg owes]
        omega

theorem map_fst_payers (ledger : Ledger Int) (positions : List (Position Int)) :
    (payers ledger positions).map Prod.fst =
      (positions.filter (Position.owes ledger)).map Position.id := by
  rw [payers, List.map_map]
  rfl

/-- Once everybody has paid who owes anything, nobody has a share of a tick who has not. -/
theorem deserted_of_winds {vault after : Vault Int} (peopled : vault.Peopled)
    (all : positions.Perm vault.positions.values)
    (winds : vault.Winds ((payers vault.ledger positions).map Prod.fst) after)
    (owing : ∀ id position t, vault.positions.get? id = some position →
      position.Occupies vault.ledger t → position.owes vault.ledger)
    (id : Int) (position : Position Int) (t : Int)
    (there : after.positions.get? id = some position) : ¬ position.Occupies after.ledger t := by
  intro occupies
  have occupied := (Position.occupies_congr (winds.terms.liquidatedSlot t)).mp occupies
  by_cases pays : id ∈ (payers vault.ledger positions).map Prod.fst
  · have payer := pays
    rw [map_fst_payers] at payer
    obtain ⟨before, member, named⟩ := List.mem_map.mp payer
    have known := (peopled.listed all).2 before (List.mem_filter.mp member).1
    rw [named] at known
    cases (winds.freed id before pays known).symm.trans there
    exact Position.not_occupies_untied rfl t occupied
  · rw [winds.others id pays] at there
    apply pays
    rw [map_fst_payers]
    have owes := owing id position t there occupied
    have member := all.mem_iff.mpr ((Table.mem_values_iff peopled.distinct).mpr ⟨id, there⟩)
    rw [← peopled.named id position there]
    exact List.mem_map_of_mem (List.mem_filter.mpr ⟨member, owes⟩)

/-- Where all who hold a share of a tick owe something, everybody who owes pays it back, and then
there is no debt left. -/
theorem closeAll_ok (closable : Closable simulation.engine)
    (listed : simulation.engine.vault.positionList = .ok positions)
    (owing : ∀ id position t, simulation.engine.vault.positions.get? id = some position →
      position.Occupies simulation.engine.vault.ledger t →
        position.owes simulation.engine.vault.ledger) :
    ∃ closed, attempt simulation closeAll = .ok
        (positions.countP (Position.owes simulation.engine.vault.ledger), closed) ∧
      closed.engine.vault.state.totalBorrow = 0 ∧ closed.engine.vault.state.topmost = none ∧
      closed.engine.vault.state.totalSupply = simulation.engine.vault.state.totalSupply := by
  have peopled := closable.vault.peopled
  obtain ⟨_, listed', all⟩ := simulation.engine.vault.positionList_ok
  cases listed.symm.trans listed'
  obtain ⟨once, known⟩ := peopled.listed all
  obtain ⟨counts, paid, total⟩ := mapM_closeOne closable once known
  have winds : simulation.engine.vault.Winds
      ((payers simulation.engine.vault.ledger positions).map Prod.fst)
      (simulation.paidUp positions).engine.vault := by
    apply closable.toStanding.run_windings closable.supplied
    · rw [map_fst_payers]
      exact once.sublist (List.filter_sublist.map Position.id)
    · intro id member
      rw [map_fst_payers] at member
      obtain ⟨position, payer, rfl⟩ := List.mem_map.mp member
      exact ⟨position, known position (List.mem_filter.mp payer).1⟩
    · exact closable.toGoverned.served closable.unbounded _
  have closable' : Closable (simulation.paidUp positions).engine := closable.run _
  obtain ⟨-, borrow, topmost⟩ :=
    closable'.vault.deserted (deserted_of_winds peopled all winds owing)
  refine ⟨simulation.paidUp positions, ?_, borrow, topmost, winds.supply⟩
  simp only [closeAll, attempt_bind, attempt_get, ok_bind, listed, attempt_lift, map_ok, paid,
    attempt_pure]
  rw [← total, List.sum_eq_foldl]

end Simulation

end TickVault
