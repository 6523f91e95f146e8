import TickVault.Proofs.Walk.Effect

namespace TickVault

namespace Position

/-- What a position has of its tick: a slot that was handed out to it, at least the least debt, and
a factor that has not risen since. -/
structure Seated (position : Position Int) (ledger : Ledger Int) : Prop where
  known : ∀ t, position.tick = some t → (ledger.ticks.get? t).isSome
  slot : ∀ t, position.tick = some t →
    0 < position.tickSlot ∧ position.tickSlot ≤ (ledger.tickAt t).totalIds
  debt : position.tick.isSome → minDebt ≤ position.debt
  factor : ∀ t, position.Occupies ledger t → (ledger.tickAt t).debtFactor ≤ position.debtFactor

/-- One for a position that holds a share of the tick. -/
def presence (ledger : Ledger Int) (tick : Int) (position : Position Int) : Int :=
  if position.Occupies ledger tick then 1 else 0

variable {position : Position Int} {ledger ledger' : Ledger Int}

theorem presence_nonneg (ledger : Ledger Int) (tick : Int) (position : Position Int) :
    0 ≤ presence ledger tick position := by
  unfold presence
  split <;> decide

theorem presence_congr {tick : Int}
    (same : (ledger'.tickAt tick).liquidatedSlot = (ledger.tickAt tick).liquidatedSlot) :
    presence ledger' tick = presence ledger tick := by
  funext position
  unfold presence
  simp only [occupies_congr same]

theorem Seated.terms (seated : position.Seated ledger) (same : ledger.Extends ledger') :
    position.Seated ledger' where
  known t here := same.known t (seated.known t here)
  slot t here := ⟨(seated.slot t here).1, Int.le_trans (seated.slot t here).2 (same.totalIds t)⟩
  debt := seated.debt
  factor t occupies := by
    rw [same.factor]
    exact seated.factor t ((occupies_congr (same.liquidatedSlot t)).mp occupies)

theorem seated_untied (free : position.tick = none) (ledger : Ledger Int) :
    position.Seated ledger where
  known t here := by rw [free] at here; cases here
  slot t here := by rw [free] at here; cases here
  debt somewhere := by rw [free] at somewhere; cases somewhere
  factor t occupies := by have here := occupies.1; rw [free] at here; cases here

theorem not_occupies_untied (free : position.tick = none) (tick : Int) :
    ¬ position.Occupies ledger tick := by
  intro occupies
  have here := occupies.1
  rw [free] at here
  cases here

end Position

namespace Vault

def present (vault : Vault Int) (tick : Int) : Int :=
  vault.positions.total (Position.presence vault.ledger tick)

structure Peopled (vault : Vault Int) : Prop where
  distinct : vault.positions.Distinct
  named : ∀ id position, vault.positions.get? id = some position → position.id = id
  funded : ∀ id position, vault.positions.get? id = some position → 0 ≤ position.collateral
  seated : ∀ id position, vault.positions.get? id = some position →
    position.Seated vault.ledger
  apart : ∀ id other position neighbour tick, vault.positions.get? id = some position →
    vault.positions.get? other = some neighbour → position.tick = some tick →
    neighbour.tick = some tick → position.tickSlot = neighbour.tickSlot → id = other
  slots : ∀ t, 0 ≤ (vault.ledger.tickAt t).liquidatedSlot ∧
    (vault.ledger.tickAt t).liquidatedSlot ≤ (vault.ledger.tickAt t).totalIds
  factor : ∀ t, 0 ≤ (vault.ledger.tickAt t).debtFactor
  occupants : ∀ t, (vault.ledger.tickAt t).occupants = vault.present t
  inhabited : ∀ t, 0 < (vault.ledger.tickAt t).rawDebt ↔ 0 < (vault.ledger.tickAt t).occupants

variable {vault after : Vault Int} {id : Int} {position position' : Position Int}

theorem Peopled.settled (peopled : vault.Peopled)
    (known : vault.positions.get? id = some position) : position.Settled vault.ledger where
  known t here := (peopled.seated id position known).known t here
  factor t occupies := ⟨peopled.factor t, (peopled.seated id position known).factor t occupies⟩

theorem Peopled.slots_le {ledger : Ledger Int} (peopled : vault.Peopled)
    (terms : vault.ledger.Extends ledger) (tick : Int) :
    (ledger.tickAt tick).liquidatedSlot ≤ (ledger.tickAt tick).totalIds := by
  rw [terms.liquidatedSlot]
  exact Int.le_trans (peopled.slots tick).2 (terms.totalIds tick)

theorem Peopled.occupants_pos (peopled : vault.Peopled) {tick : Int}
    (known : vault.positions.get? id = some position)
    (occupies : position.Occupies vault.ledger tick) :
    1 ≤ (vault.ledger.tickAt tick).occupants := by
  have one : Position.presence vault.ledger tick position = 1 := if_pos occupies
  rw [peopled.occupants, ← one]
  exact Table.weight_le_total known fun _ _ => Position.presence_nonneg ..

def putAt (vault : Vault Int) (position : Position Int) : Vault Int :=
  { vault with positions := vault.positions.insert position.id position }

theorem get?_putAt (vault : Vault Int) (position : Position Int) (id : Int) :
    (vault.putAt position).positions.get? id =
      if position.id = id then some position else vault.positions.get? id :=
  Table.get?_insert ..

theorem forall_putAt {holds : Position Int → Prop}
    (all : ∀ id position, vault.positions.get? id = some position → holds position)
    (positions : after.positions = vault.positions) (here : holds position) :
    ∀ id found, (after.putAt position).positions.get? id = some found → holds found := by
  intro id found known
  rw [get?_putAt, positions] at known
  split at known
  · cases known
    exact here
  · exact all id found known

theorem total_putAt (weight : Ledger Int → Position Int → Int)
    (same : weight after.ledger = weight vault.ledger)
    (positions : after.positions = vault.positions) (position : Position Int) :
    (after.putAt position).positions.total (weight (after.putAt position).ledger) =
      vault.positions.total (weight vault.ledger) -
        ((vault.positions.get? position.id).map (weight vault.ledger)).getD 0 +
        weight after.ledger position := by
  change (after.positions.insert position.id position).total (weight after.ledger) = _
  rw [positions, same, Table.total_insert]

/-- One position is put down anew while the ticks keep their terms. What is left to see to is that
the position has a slot of its own and that the ticks count it. -/
theorem Peopled.reseat (peopled : vault.Peopled) (terms : vault.ledger.Extends after.ledger)
    (positions : after.positions = vault.positions) (funded : 0 ≤ position.collateral)
    (seated : position.Seated after.ledger)
    (alone : ∀ other neighbour tick, other ≠ position.id →
      vault.positions.get? other = some neighbour → neighbour.tick = some tick →
      position.tick = some tick → neighbour.tickSlot ≠ position.tickSlot)
    (occupants : ∀ t, (after.ledger.tickAt t).occupants =
      (vault.ledger.tickAt t).occupants -
        ((vault.positions.get? position.id).map (Position.presence vault.ledger t)).getD 0 +
        Position.presence after.ledger t position)
    (inhabited : ∀ t, 0 < (after.ledger.tickAt t).rawDebt ↔
      0 < (after.ledger.tickAt t).occupants) : (after.putAt position).Peopled := by
  have lookup (other : Int) : (after.putAt position).positions.get? other =
      if position.id = other then some position else vault.positions.get? other := by
    rw [get?_putAt, positions]
  constructor
  · rw [putAt, positions]
    exact peopled.distinct.insert _ _
  · intro other found known
    rw [lookup] at known
    split at known
    · rename_i same
      cases known
      exact same
    · exact peopled.named other found known
  · intro other found known
    rw [lookup] at known
    split at known
    · cases known
      exact funded
    · exact peopled.funded other found known
  · intro other found known
    rw [lookup] at known
    split at known
    · cases known
      exact seated
    · exact (peopled.seated other found known).terms terms
  · intro first second one two tick known known' here here' same
    rw [lookup] at known known'
    split at known <;> split at known'
    · rename_i a b
      exact a.symm.trans b
    · rename_i a b
      cases known
      exact absurd same.symm (alone second two tick (Ne.symm b) known' here' here)
    · rename_i a b
      cases known'
      exact absurd same (alone first one tick (Ne.symm a) known here here')
    · exact peopled.apart first second one two tick known known' here here' same
  · intro t
    refine ⟨?_, peopled.slots_le terms t⟩
    simp only [putAt]
    rw [terms.liquidatedSlot]
    exact (peopled.slots t).1
  · intro t
    simp only [putAt]
    rw [terms.factor]
    exact peopled.factor t
  · intro t
    have moved := total_putAt (fun ledger => Position.presence ledger t)
      (Position.presence_congr (terms.liquidatedSlot t)) positions position
    rw [present, moved, ← present, ← peopled.occupants t]
    exact occupants t
  · exact inhabited

theorem Peopled.leave {departed : Vault Int} {departure : Departure Int} (coherent : vault.Coherent)
    (peopled : vault.Peopled) (known : vault.positions.get? position.id = some position)
    (leaves : vault.Leaves position departure departed) (named : position'.id = position.id)
    (free : position'.tick = none) (funded : 0 ≤ position'.collateral) :
    (departed.putAt position').Peopled := by
  apply peopled.reseat leaves.terms leaves.positions funded (Position.seated_untied free _)
  · intro other neighbour tick _ _ _ here
    rw [free] at here
    cases here
  · intro t
    have gone : Position.presence departed.ledger t position' = 0 :=
      if_neg (Position.not_occupies_untied free t)
    rw [named, known, gone, leaves.records t]
    simp only [Option.map_some, Option.getD_some, Position.presence]
    split
    · rw [TickRecord.vacatedBy_occupants]
      omega
    · omega
  · intro t
    have inhabited := peopled.inhabited t
    rw [leaves.records t]
    split
    · rename_i here
      have one := peopled.occupants_pos known here
      have held := coherent.ledger.debt t
      rw [leaves.removal t here, TickRecord.vacatedBy_rawDebt, TickRecord.vacatedBy_occupants]
      unfold TickRecord.removal
      split <;> omega
    · exact inhabited

structure Owns (vault : Vault Int) (position : Position Int) (tick : Int) : Prop where
  alive : (vault.ledger.tickAt tick).liquidatedSlot < position.tickSlot
  given : position.tickSlot ≤ (vault.ledger.tickAt tick).totalIds
  alone : ∀ other neighbour, other ≠ position.id →
    vault.positions.get? other = some neighbour → neighbour.tick = some tick →
    neighbour.tickSlot ≠ position.tickSlot

theorem Joins.slot {tick debt collateral branch : Int} {kept : Bool}
    (joins : vault.Joins tick debt collateral branch kept after)
    (slots : (vault.ledger.tickAt tick).liquidatedSlot ≤ (vault.ledger.tickAt tick).totalIds)
    (returns : kept = true → vault.Owns position tick) (dust amount : Int) :
    (vault.ledger.tickAt tick).liquidatedSlot <
        (seat vault.ledger position kept tick debt branch dust amount).tickSlot ∧
      (seat vault.ledger position kept tick debt branch dust amount).tickSlot ≤
        (after.ledger.tickAt tick).totalIds := by
  rw [Ledger.tickAt_insert joins.ticks, if_pos rfl]
  cases kept with
  | true => exact ⟨(returns rfl).alive, (returns rfl).given⟩
  | false => exact ⟨Int.lt_add_one_of_le slots, Int.le_refl _⟩

theorem Joins.occupies {tick debt collateral branch dust amount : Int} {kept : Bool}
    (joins : vault.Joins tick debt collateral branch kept after)
    (slots : (vault.ledger.tickAt tick).liquidatedSlot ≤ (vault.ledger.tickAt tick).totalIds)
    (returns : kept = true → vault.Owns position tick) :
    (seat vault.ledger position kept tick debt branch dust amount).Occupies after.ledger tick := by
  refine ⟨rfl, fun wiped => ?_⟩
  have slot := joins.slot slots returns dust amount
  rw [joins.terms.liquidatedSlot] at wiped
  exact Int.lt_irrefl _ (Int.lt_of_lt_of_le slot.1 wiped.2)

theorem Peopled.join {tick debt collateral branch dust amount : Int} {kept : Bool}
    (coherent : vault.Coherent) (peopled : vault.Peopled)
    (free : ∀ old, vault.positions.get? position.id = some old → old.tick = none)
    (joins : vault.Joins tick debt collateral branch kept after) (enough : minDebt ≤ debt)
    (returns : kept = true → vault.Owns position tick)
    (funded : 0 ≤ amount) :
    (after.putAt (seat vault.ledger position kept tick debt branch dust amount)).Peopled := by
  have ids := peopled.slots tick
  have terms := joins.terms
  have slot := joins.slot ids.2 returns dust amount
  apply peopled.reseat terms joins.positions funded
  · constructor
    · intro t here
      cases here
      rw [joins.ticks, Table.get?_insert, if_pos rfl]
      rfl
    · intro t here
      cases here
      exact ⟨Int.lt_of_le_of_lt ids.1 slot.1, slot.2⟩
    · exact fun _ => enough
    · intro t occupies
      cases occupies.1
      rw [terms.factor]
      exact Int.le_refl _
  · intro other neighbour t different known there here
    cases here
    cases kept with
    | true => exact (returns rfl).alone other neighbour different known there
    | false =>
      have bound := ((peopled.seated other neighbour known).slot tick there).2
      change neighbour.tickSlot ≠ (vault.ledger.tickAt tick).totalIds + 1
      omega
  · intro t
    have empty : ((vault.positions.get? position.id).map
        (Position.presence vault.ledger t)).getD 0 = 0 := by
      cases found : vault.positions.get? position.id with
      | none => rfl
      | some old => exact if_neg (Position.not_occupies_untied (free old found) t)
    rw [Ledger.tickAt_insert joins.ticks]
    change _ = _ - ((vault.positions.get? position.id).map _).getD 0 + _
    rw [empty]
    by_cases here : t = tick
    · subst here
      have present : Position.presence after.ledger t
          (seat vault.ledger position kept t debt branch dust amount) = 1 :=
        if_pos (joins.occupies ids.2 returns)
      rw [if_pos rfl, present, Int.sub_zero]
      rfl
    · have absent : Position.presence after.ledger t
          (seat vault.ledger position kept tick debt branch dust amount) = 0 :=
        if_neg fun occupies => here (Option.some.inj occupies.1).symm
      rw [if_neg here, absent]
      omega
  · intro t
    rw [Ledger.tickAt_insert joins.ticks]
    split
    · have held := coherent.ledger.debt tick
      have least : minDebt = 1000 := rfl
      have counted : 0 ≤ (vault.ledger.tickAt tick).occupants := by
        rw [peopled.occupants]
        exact Table.total_nonneg fun _ _ => Position.presence_nonneg ..
      change 0 < _ + debt ↔ 0 < _ + 1
      omega
    · exact peopled.inhabited t

theorem Peopled.opened (peopled : vault.Peopled) (same : after.ledger = vault.ledger)
    (positions : after.positions = vault.positions)
    (unknown : vault.positions.get? position.id = none) (free : position.tick = none)
    (funded : 0 ≤ position.collateral) : (after.putAt position).Peopled := by
  have terms : vault.ledger.Extends after.ledger := same ▸ .refl _
  apply peopled.reseat terms positions funded (Position.seated_untied free _)
  · intro other neighbour tick _ _ _ here
    rw [free] at here
    cases here
  · intro t
    have absent : Position.presence after.ledger t position = 0 :=
      if_neg (Position.not_occupies_untied free t)
    rw [unknown, absent, same]
    change _ = _ - 0 + 0
    omega
  · intro t
    rw [same]
    exact peopled.inhabited t

end Vault

namespace TickRecord

variable {record record' : TickRecord Int}

theorem reduced_debtFactor_le {debt : Int} (factor : 0 ≤ record.debtFactor)
    (positive : 0 < debt) (partly : debt < record.rawDebt) (collateral branch : Int) :
    0 ≤ (record.reduced debt collateral branch).debtFactor ∧
      (record.reduced debt collateral branch).debtFactor ≤ record.debtFactor := by
  have held : 0 < record.rawDebt := Int.lt_trans positive partly
  have left : 0 ≤ record.rawDebt - debt := by omega
  have less : record.rawDebt - debt ≤ record.rawDebt := by omega
  simp only [reduced, Int.fdiv_eq_ediv_of_nonneg _ (Int.le_of_lt held)]
  constructor
  · apply Int.ediv_nonneg
    · exact Int.mul_nonneg factor left
    · exact Int.le_of_lt held
  · apply Int.ediv_le_of_le_mul held
    exact Int.mul_le_mul_of_nonneg_left less factor

/-- A liquidation wipes every slot of a tick, or none more. -/
theorem Liquidated.slots (liquidated : Liquidated record record') :
    record'.totalIds = record.totalIds ∧
      (record'.liquidatedSlot = record.totalIds ∧ record'.occupants = 0 ∧ record'.rawDebt = 0 ∧
          record'.debtFactor = factorScale ∨
        record'.liquidatedSlot = record.liquidatedSlot ∧ record'.occupants = record.occupants ∧
          (0 < record'.rawDebt ↔ 0 < record.rawDebt) ∧
          (0 ≤ record.debtFactor →
            0 ≤ record'.debtFactor ∧ record'.debtFactor ≤ record.debtFactor)) := by
  cases liquidated with
  | cleared cleared =>
    cases cleared with
    | kept => exact ⟨rfl, .inr ⟨rfl, rfl, Iff.rfl, fun factor => ⟨factor, Int.le_refl _⟩⟩⟩
    | wiped branch => exact ⟨rfl, .inl ⟨rfl, rfl, rfl, rfl⟩⟩
  | reduced positive partly covered =>
    refine ⟨rfl, .inr ⟨rfl, rfl, ?_, fun factor =>
      reduced_debtFactor_le factor positive partly _ _⟩⟩
    rw [reduced_rawDebt]
    omega

end TickRecord

namespace Vault

variable {vault after : Vault Int} {id : Int} {position position' : Position Int}

theorem Peopled.takes (peopled : vault.Peopled)
    (takes : vault.Takes TickRecord.Liquidated after) : after.Peopled := by
  have seated (other : Int) (found : Position Int)
      (known : vault.positions.get? other = some found) := peopled.seated other found known
  constructor
  · rw [takes.positions]
    exact peopled.distinct
  · rw [takes.positions]
    exact peopled.named
  · rw [takes.positions]
    exact peopled.funded
  · intro other found known
    rw [takes.positions] at known
    have before := peopled.seated other found known
    constructor
    · exact fun t here => takes.known t (before.known t here)
    · intro t here
      rw [(takes.records t).slots.1]
      exact before.slot t here
    · exact before.debt
    · intro t occupies
      obtain ⟨ids, wiped | kept⟩ := (takes.records t).slots
      · have slot := before.slot t occupies.1
        exact absurd ⟨slot.1, wiped.1 ▸ slot.2⟩ occupies.2
      · have same : found.Occupies vault.ledger t := ⟨occupies.1, kept.1 ▸ occupies.2⟩
        exact Int.le_trans (kept.2.2.2 (peopled.factor t)).2 (before.factor t same)
  · rw [takes.positions]
    exact peopled.apart
  · intro t
    have bounds := peopled.slots t
    obtain ⟨ids, wiped | kept⟩ := (takes.records t).slots
    · omega
    · omega
  · intro t
    obtain ⟨ids, wiped | kept⟩ := (takes.records t).slots
    · rw [wiped.2.2.2]
      decide
    · exact (kept.2.2.2 (peopled.factor t)).1
  · intro t
    have counted := peopled.occupants t
    simp only [present, takes.positions] at *
    obtain ⟨ids, wiped | kept⟩ := (takes.records t).slots
    · rw [wiped.2.1, Table.total_eq_zero]
      intro found member
      obtain ⟨other, known⟩ := (Table.mem_values_iff peopled.distinct).mp member
      refine if_neg fun occupies => occupies.2 ?_
      have slot := (seated other found known).slot t occupies.1
      omega
    · rw [kept.2.1, counted, Position.presence_congr kept.1]
  · intro t
    have inhabited := peopled.inhabited t
    obtain ⟨ids, wiped | kept⟩ := (takes.records t).slots
    · omega
    · rw [kept.2.1, kept.2.2.1]
      exact inhabited

theorem Peopled.congr (peopled : vault.Peopled) (ledger : after.ledger = vault.ledger)
    (positions : after.positions = vault.positions) : after.Peopled := by
  cases after
  cases ledger
  cases positions
  exact ⟨peopled.distinct, peopled.named, peopled.funded, peopled.seated, peopled.apart,
    peopled.slots, peopled.factor, peopled.occupants, peopled.inhabited⟩

end Vault

end TickVault
