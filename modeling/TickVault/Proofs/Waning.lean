import TickVault.Proofs.Realized

namespace TickVault

structure Holdings.Within (less more : Holdings Int) : Prop where
  collateral : less.collateral ≤ more.collateral
  debt : less.debt ≤ more.debt
  dust : less.dustDebt ≤ more.dustDebt

theorem Holdings.Within.refl (held : Holdings Int) : held.Within held :=
  ⟨Int.le_refl _, Int.le_refl _, Int.le_refl _⟩

theorem Holdings.Within.trans {first second third : Holdings Int} (less : first.Within second)
    (more : second.Within third) : first.Within third where
  collateral := Int.le_trans less.collateral more.collateral
  debt := Int.le_trans less.debt more.debt
  dust := Int.le_trans less.dust more.dust

namespace Ledger

variable {before middle after : Ledger Int}

/-- A tick that has kept its wiped slots and has not gained factor, or has had all slots wiped that
it had handed out. -/
def Fades (record record' : TickRecord Int) : Prop :=
  record'.liquidatedSlot = record.liquidatedSlot ∧ record'.debtFactor ≤ record.debtFactor ∨
    record.totalIds ≤ record'.liquidatedSlot

/-- No tick stands on better terms than before for those who had a slot there. -/
structure Wanes (before after : Ledger Int) : Prop where
  totalIds : ∀ t, (before.tickAt t).totalIds ≤ (after.tickAt t).totalIds
  terms : ∀ t, Fades (before.tickAt t) (after.tickAt t)

theorem Extends.wanes (same : before.Extends after) : before.Wanes after where
  totalIds := same.totalIds
  terms t := .inl ⟨same.liquidatedSlot t, Int.le_of_eq (same.factor t)⟩

theorem Wanes.refl (ledger : Ledger Int) : ledger.Wanes ledger :=
  (Extends.refl ledger).wanes

theorem Wanes.trans (first : before.Wanes middle) (second : middle.Wanes after) :
    before.Wanes after where
  totalIds t := Int.le_trans (first.totalIds t) (second.totalIds t)
  terms t := by
    have ids := first.totalIds t
    rcases first.terms t with ⟨slots, factor⟩ | wiped
    · rcases second.terms t with ⟨slots', factor'⟩ | wiped'
      · exact .inl ⟨slots'.trans slots, Int.le_trans factor' factor⟩
      · exact .inr (Int.le_trans ids wiped')
    · rcases second.terms t with ⟨slots', -⟩ | wiped'
      · exact .inr (slots' ▸ wiped)
      · exact .inr (Int.le_trans ids wiped')

end Ledger

namespace Position

variable {position : Position Int} {record record' : TickRecord Int} {ledger ledger' : Ledger Int}
  {factor factor' : Int}

def stored (position : Position Int) : Holdings Int :=
  ⟨position.collateral, position.debt, position.dustDebt⟩

def Unburdened (position : Position Int) : Prop :=
  position.tick = none → position.debt = 0 ∧ position.dustDebt = 0

structure Funded (position : Position Int) : Prop where
  collateral : 0 ≤ position.collateral
  debt : 0 ≤ position.debt
  dust : 0 ≤ position.dustDebt

theorem Sized.funded (sized : position.Sized) (collateral : 0 ≤ position.collateral)
    (here : position.tick.isSome) : position.Funded :=
  ⟨collateral, Int.le_of_lt (sized.debt_pos here), sized.dust here⟩

theorem Funded.scaled_within (funded : position.Funded) (entry : 0 < position.debtFactor)
    (less : factor' ≤ factor) : (position.scaled factor').Within (position.scaled factor) := by
  have dust : position.dustDebt * factor' / position.debtFactor ≤
      position.dustDebt * factor / position.debtFactor :=
    Int.ediv_le_ediv entry (Int.mul_le_mul_of_nonneg_left less funded.dust)
  have debt : -(-(position.debt * factor') / position.debtFactor) ≤
      -(-(position.debt * factor) / position.debtFactor) :=
    Int.neg_le_neg (Int.ediv_le_ediv entry
      (Int.neg_le_neg (Int.mul_le_mul_of_nonneg_left less funded.debt)))
  refine ⟨?_, debt, min_le_min dust debt⟩
  exact Int.ediv_le_ediv entry (Int.mul_le_mul_of_nonneg_left less funded.collateral)

theorem scaled_entry_within (entry : 0 < position.debtFactor) :
    (position.scaled position.debtFactor).Within position.stored := by
  have exactly (amount : Int) : amount * position.debtFactor / position.debtFactor = amount :=
    Int.mul_ediv_cancel amount (Int.ne_of_gt entry)
  have debt : -(-(position.debt * position.debtFactor) / position.debtFactor) = position.debt := by
    rw [← Int.neg_mul, exactly, Int.neg_neg]
  refine ⟨Int.le_of_eq (exactly _), Int.le_of_eq debt, ?_⟩
  calc (position.scaled position.debtFactor).dustDebt
      ≤ position.dustDebt * position.debtFactor / position.debtFactor := Int.min_le_left _ _
    _ = position.dustDebt := exactly _

theorem Funded.shareOf_within (funded : position.Funded)
    (factor : ¬ (0 < position.tickSlot ∧ position.tickSlot ≤ record.liquidatedSlot) →
      0 ≤ record.debtFactor ∧ record.debtFactor ≤ position.debtFactor) :
    (position.shareOf record).Within position.stored := by
  unfold shareOf
  split
  · exact ⟨funded.collateral, funded.debt, funded.dust⟩
  rename_i alive
  split
  · exact .refl _
  rename_i other
  obtain ⟨low, high⟩ := factor alive
  have entry : 0 < position.debtFactor := Int.lt_of_le_of_lt low (lt_of_le_of_ne high other)
  exact (funded.scaled_within entry high).trans (scaled_entry_within entry)

theorem Funded.nothing_within (funded : position.Funded)
    (factor : ¬ (0 < position.tickSlot ∧ position.tickSlot ≤ record.liquidatedSlot) →
      0 ≤ record.debtFactor ∧ record.debtFactor ≤ position.debtFactor) :
    Holdings.Within ⟨0, 0, 0⟩ (position.shareOf record) := by
  unfold shareOf
  split
  · exact .refl _
  rename_i alive
  split
  · exact ⟨funded.collateral, funded.debt, funded.dust⟩
  rename_i other
  obtain ⟨low, high⟩ := factor alive
  have entry : 0 < position.debtFactor := Int.lt_of_le_of_lt low (lt_of_le_of_ne high other)
  have nothing : position.scaled 0 = ⟨0, 0, 0⟩ := by simp [scaled]
  exact nothing ▸ funded.scaled_within entry low

theorem wiped_of_fades (fades : Ledger.Fades record record')
    (given : position.tickSlot ≤ record.totalIds)
    (gone : position.tickSlot ≤ record.liquidatedSlot) :
    position.tickSlot ≤ record'.liquidatedSlot := by
  rcases fades with ⟨slots, -⟩ | wiped
  · exact slots ▸ gone
  · exact Int.le_trans given wiped

theorem Funded.shareOf_fades (funded : position.Funded)
    (given : 0 < position.tickSlot ∧ position.tickSlot ≤ record.totalIds)
    (factor : ¬ (0 < position.tickSlot ∧ position.tickSlot ≤ record.liquidatedSlot) →
      0 ≤ record.debtFactor ∧ record.debtFactor ≤ position.debtFactor)
    (low : 0 ≤ record'.debtFactor) (fades : Ledger.Fades record record') :
    (position.shareOf record').Within (position.shareOf record) := by
  rcases fades with ⟨slots, less⟩ | wiped
  · by_cases gone : 0 < position.tickSlot ∧ position.tickSlot ≤ record.liquidatedSlot
    · rw [shareOf_wiped gone, shareOf_wiped (slots ▸ gone)]
      exact .refl _
    obtain ⟨low', high⟩ := factor gone
    by_cases same : record.debtFactor = position.debtFactor
    · rw [shareOf_entry same gone]
      exact funded.shareOf_within fun _ => ⟨low, Int.le_trans less high⟩
    · have entry : 0 < position.debtFactor := Int.lt_of_le_of_lt low' (lt_of_le_of_ne high same)
      have other : record'.debtFactor ≠ position.debtFactor := by omega
      simp only [shareOf, slots, if_neg gone, if_neg same, if_neg other]
      exact funded.scaled_within entry less
  · rw [shareOf_wiped ⟨given.1, Int.le_trans given.2 wiped⟩]
    exact funded.nothing_within factor

theorem share_within (funded : position.tick.isSome → position.Funded)
    (seated : position.Seated ledger) (settled : position.Settled ledger)
    (low : ∀ t, 0 ≤ (ledger'.tickAt t).debtFactor) (wanes : ledger.Wanes ledger') :
    (position.share ledger').Within (position.share ledger) := by
  unfold share
  split
  · rename_i tick here
    apply (funded (by rw [here]; rfl)).shareOf_fades (seated.slot tick here) _ (low tick)
      (wanes.terms tick)
    intro alive
    exact settled.factor tick ⟨here, alive⟩
  · exact .refl _

theorem share_within_stored (funded : position.tick.isSome → position.Funded)
    (unburdened : position.Unburdened) (settled : position.Settled ledger) :
    (position.share ledger).Within position.stored := by
  unfold share
  split
  · rename_i tick here
    apply (funded (by rw [here]; rfl)).shareOf_within
    intro alive
    exact settled.factor tick ⟨here, alive⟩
  · rename_i free
    obtain ⟨debt, dust⟩ := unburdened free
    exact ⟨Int.le_refl _, Int.le_of_eq debt.symm, Int.le_of_eq dust.symm⟩

end Position

namespace Vault

variable {vault after : Vault Int}

theorem Takes.wanes (peopled : vault.Peopled) (takes : vault.Takes TickRecord.Liquidated after) :
    vault.ledger.Wanes after.ledger where
  totalIds t := Int.le_of_eq (takes.records t).slots.1.symm
  terms t := by
    obtain ⟨-, wiped | kept⟩ := (takes.records t).slots
    · exact .inr (Int.le_of_eq wiped.1.symm)
    · exact .inl ⟨kept.1, (kept.2.2.2 (peopled.factor t)).2⟩

end Vault

end TickVault
