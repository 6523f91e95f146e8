import TickVault.Proofs.Settlement

namespace TickVault

namespace Pass

variable {pass last : Pass Int} {tick t asked : Int} {record : TickRecord Int} {ticks : List Int}
  {budget left : Budget}

theorem Steps.tickAt_of_ne (steps : pass.Steps tick record last) (other : t ≠ tick) :
    last.vault.ledger.tickAt t = pass.vault.ledger.tickAt t := by
  rw [Ledger.tickAt_insert steps.ticks, if_neg other]

theorem fill_spares (sound : pass.vault.Sound) (spared : t ∉ ticks)
    (filled : attempt budget (pass.fill ticks asked) = .ok (last, left)) :
    last.vault.ledger.tickAt t = pass.vault.ledger.tickAt t := by
  induction ticks generalizing pass asked budget with
  | nil =>
    cases filled
    rfl
  | cons tick rest ih =>
    have other : t ≠ tick := fun same => spared (same ▸ List.mem_cons_self)
    have later : t ∉ rest := fun member => spared (List.mem_cons_of_mem _ member)
    cases fill_cons filled with
    | satisfied _ same => rw [same]
    | stopped _ _ same => rw [same]
    | spared _ _ _ same => rw [same]
    | @wiped next _ _ occupied _ wiped filled =>
      obtain ⟨owner, steps⟩ := wipe_ok sound (sound.ledger.range occupied) wiped
      calc last.vault.ledger.tickAt t = next.vault.ledger.tickAt t := ih steps.sound later filled
        _ = pass.vault.ledger.tickAt t := steps.tickAt_of_ne other
    | @reduced next _ _ _ positive partly reduced same =>
      have range := sound.ledger.range (Int.lt_trans positive partly)
      obtain ⟨_, owner, -, -, steps⟩ := reduce_ok sound range positive reduced
      rw [same]
      exact steps.tickAt_of_ne other

theorem book_ledger {pass : Pass Int} {after : Vault Int} (booked : pass.book = .ok after) :
    after.ledger = pass.vault.ledger := by
  simp only [book, bind_eq_ok, pure_eq_ok, Except.ok.injEq] at booked
  obtain ⟨_, -, rfl⟩ := booked
  rfl

end Pass

namespace Vault

variable {vault after : Vault Int} {host : Host} {limit : Int} {budget left : Budget}

def StaysAbove (vault : Vault Int) (limit : Int) (after : Vault Int) : Prop :=
  ∀ t, t ≤ limit → after.ledger.tickAt t = vault.ledger.tickAt t

theorem StaysAbove.holdings {id : Int} {position : Position Int} (stays : vault.StaysAbove limit after)
    (peopled : vault.Peopled) (peopled' : after.Peopled)
    (positions : after.positions = vault.positions)
    (known : vault.positions.get? id = some position)
    (below : ∀ t, position.tick = some t → t ≤ limit) :
    after.positions.get? id = some position ∧
      ∃ held, vault.holdings position = .ok held ∧ after.holdings position = .ok held := by
  have known' : after.positions.get? id = some position := positions ▸ known
  have same : position.share after.ledger = position.share vault.ledger :=
    Position.share_congr fun t here => stays t (below t here)
  refine ⟨known', _, holdings_eq (peopled.settled known), ?_⟩
  rw [← same]
  exact holdings_eq (peopled'.settled known')

theorem settleTopmost_ledger {start : Option Int}
    (settled : vault.settleTopmost start = .ok after) : after.ledger = vault.ledger := by
  cases start <;> cases settled <;> rfl

theorem Liquidates.ledger {request : LiquidateRequest} {taken : Liquidation Int}
    {settlement : Settlement Int (LiquidationReceipt Int)}
    (liquidates : vault.Liquidates host request budget left taken settlement) :
    settlement.vault.ledger = taken.vault.ledger := by
  obtain ⟨middle, events, settles, same⟩ := liquidates.settled
  calc settlement.vault.ledger = middle.ledger := by rw [same]
    _ = taken.vault.ledger := settleTopmost_ledger settles

theorem Absorbs.ledger {pass : Pass Int} {settlement : Settlement Int (Int × Int)}
    (absorbs : vault.Absorbs host budget left pass settlement) :
    settlement.vault.ledger = pass.vault.ledger := by
  obtain ⟨booked, middle, events, books, settles, same⟩ := absorbs.settled
  calc settlement.vault.ledger = middle.ledger := by rw [same]
    _ = booked.ledger := settleTopmost_ledger settles
    _ = pass.vault.ledger := Pass.book_ledger books

theorem Ahead.staysAbove {pass : Pass Int} {ticks : List Int} {asked : Int} (sound : vault.Sound)
    (ahead : vault.Ahead limit ticks)
    (filled : attempt budget (Pass.fill { vault } ticks asked) = .ok (pass, left)) :
    vault.StaysAbove limit pass.vault := by
  intro t below
  refine Pass.fill_spares sound (fun member => ?_) filled
  exact absurd ((ahead.mem_iff t).mp member).2 (Int.not_lt.mpr below)

theorem fillAbove_staysAbove {requested : Int} {taken : Liquidation Int} (coherent : vault.Coherent)
    (done : attempt budget (vault.fillAbove limit requested) = .ok (taken, left)) :
    vault.StaysAbove limit taken.vault := by
  obtain ⟨ticks, pass, booked, found, filled, books, rfl⟩ := fillAbove_iff.mp done
  obtain ⟨_, found', ahead⟩ := coherent.ticksAbove_ahead limit
  cases found.symm.trans found'
  unfold StaysAbove
  rw [Pass.book_ledger books]
  exact ahead.staysAbove coherent.toSound filled

theorem sweep_staysAbove {swept : Pass Int} (coherent : vault.Coherent) (governed : vault.Governed)
    (done : attempt budget (vault.sweep limit) = .ok (swept, left)) :
    vault.StaysAbove limit swept.vault := by
  obtain ⟨ticks, pass, ahead, filled, rfl⟩ := sweep_fills coherent governed (Int.le_refl _) done
  have stays := ahead.staysAbove coherent.toSound filled
  exact fun t below => stays t below

theorem take_staysAbove {request : LiquidateRequest} {taken : Liquidation Int}
    (coherent : vault.Coherent) (governed : vault.Governed)
    (done : attempt budget (vault.take limit request) = .ok (taken, left)) :
    vault.StaysAbove limit taken.vault := by
  unfold take at done
  split at done
  · obtain ⟨pass, booked, debt, collateral, state, swept, books, -, rfl⟩ := absorbAbove_iff.mp done
    unfold StaysAbove
    rw [Pass.book_ledger books]
    exact sweep_staysAbove coherent governed swept
  · exact fillAbove_staysAbove coherent done

theorem liquidate_staysAbove {request : LiquidateRequest}
    {settlement : Settlement Int (LiquidationReceipt Int)} (coherent : vault.Coherent)
    (governed : vault.Governed)
    (done : attempt budget (vault.liquidate host request) = .ok (settlement, left)) :
    ∃ limit, host.limit vault.config.liquidationThreshold = .ok limit ∧
      vault.StaysAbove limit settlement.vault := by
  obtain ⟨taken, liquidates⟩ := liquidate_ok done
  obtain ⟨limit, limited, took⟩ := liquidates.took
  refine ⟨limit, limited, ?_⟩
  unfold StaysAbove
  rw [liquidates.ledger]
  exact take_staysAbove coherent governed took

theorem absorb_staysAbove {settlement : Settlement Int (Int × Int)} (coherent : vault.Coherent)
    (governed : vault.Governed)
    (done : attempt budget (vault.absorb host) = .ok (settlement, left)) :
    ∃ limit, host.limit vault.config.liquidationMaxLimit = .ok limit ∧
      vault.StaysAbove limit settlement.vault := by
  obtain ⟨pass, absorbs⟩ := absorb_ok done
  obtain ⟨limit, limited, swept⟩ := absorbs.swept
  refine ⟨limit, limited, ?_⟩
  unfold StaysAbove
  rw [absorbs.ledger]
  exact sweep_staysAbove coherent governed swept

end Vault

end TickVault
