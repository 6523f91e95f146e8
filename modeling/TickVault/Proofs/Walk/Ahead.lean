import TickVault.Proofs.Walk.Governance

namespace TickVault

theorem Ledger.Sound.rawDebt_le {ledger : Ledger Int} (sound : ledger.Sound) (tick : Int) :
    (ledger.tickAt tick).rawDebt ≤ ledger.debt := by
  have nonneg (record : TickRecord Int) (member : record ∈ ledger.ticks.values) :
      0 ≤ record.rawDebt := by
    obtain ⟨t, known⟩ := (Table.mem_values_iff sound.distinct).mp member
    rw [← Ledger.tickAt_of_get? known]
    exact sound.debt t
  cases known : ledger.ticks.get? tick with
  | none =>
    simp only [Ledger.tickAt, known]
    exact Table.total_nonneg nonneg
  | some record =>
    rw [Ledger.tickAt_of_get? known]
    exact Table.weight_le_total known nonneg

namespace Vault

variable {vault : Vault Int} {limit tick : Int} {ticks ticks' : List Int}

/-- The ticks that a walk down to a limit has ahead of it: all with debt above the limit, highest
first. -/
structure Ahead (vault : Vault Int) (limit : Int) (ticks : List Int) : Prop where
  sorted : ticks.Pairwise (· > ·)
  mem_iff : ∀ t, t ∈ ticks ↔ vault.ledger.bitmap.Holds t ∧ limit < t

theorem Ahead.unique (first : vault.Ahead limit ticks) (second : vault.Ahead limit ticks') :
    ticks = ticks' := by
  have distinct {ticks : List Int} (sorted : ticks.Pairwise (· > ·)) : ticks.Nodup :=
    sorted.imp fun above => Int.ne_of_gt above
  have same : ticks.Perm ticks' :=
    (List.perm_ext_iff_of_nodup (distinct first.sorted) (distinct second.sorted)).mpr fun t =>
      (first.mem_iff t).trans (second.mem_iff t).symm
  exact same.eq_of_pairwise (fun a b _ _ above below => absurd (Int.lt_trans above below)
    (Int.lt_irrefl _)) first.sorted second.sorted

theorem Ahead.occupied (sound : vault.Sound) (ahead : vault.Ahead limit ticks)
    (member : tick ∈ ticks) : 0 < (vault.ledger.tickAt tick).rawDebt :=
  (sound.ledger.bits tick).mp ((ahead.mem_iff tick).mp member).1

theorem Ahead.congr {vault' : Vault Int} (ahead : vault.Ahead limit ticks)
    (bitmap : vault'.ledger.bitmap = vault.ledger.bitmap) : vault'.Ahead limit ticks :=
  ⟨ahead.sorted, bitmap ▸ ahead.mem_iff⟩

theorem Coherent.ticksAbove_ahead (coherent : vault.Coherent) (limit : Int) :
    ∃ ticks, vault.ticksAbove limit = .ok ticks ∧ vault.Ahead limit ticks := by
  unfold ticksAbove
  split
  · rename_i vacant
    refine ⟨[], rfl, List.Pairwise.nil, fun t => ?_⟩
    have none_held := TickBitmap.highest?_eq_none_iff.mp (coherent.topmost ▸ vacant)
    exact iff_of_false List.not_mem_nil fun held => none_held t held.1
  · rename_i top topmost
    rw [coherent.topmost] at topmost
    have held := TickBitmap.holds_highest topmost
    simp only [toInt_int, ok_bind]
    split
    · rename_i above
      have falling : (vault.ledger.bitmap.ticksBelow top).Pairwise (· > ·) :=
        (vault.ledger.bitmap.descend_sorted tickCount top).1
      refine ⟨_, rfl, ?_⟩
      rw [show (ofInt : Int → Int) = id from rfl, List.map_id]
      constructor
      · refine List.Pairwise.cons (fun t member => ?_)
          (falling.sublist (List.takeWhile_sublist _))
        exact (TickBitmap.mem_ticksBelow_iff.mp
          ((TickBitmap.mem_takeWhile_above falling).mp member).1).2
      · intro t
        rw [List.mem_cons, TickBitmap.mem_takeWhile_above falling]
        constructor
        · rintro (rfl | ⟨member, higher⟩)
          · exact ⟨held, above⟩
          · exact ⟨(TickBitmap.mem_ticksBelow_iff.mp member).1, higher⟩
        · rintro ⟨held', higher⟩
          rcases Int.lt_or_eq_of_le (TickBitmap.le_highest topmost held') with under | rfl
          · exact .inr ⟨TickBitmap.mem_ticksBelow_iff.mpr ⟨held', under⟩, higher⟩
          · exact .inl rfl
    · rename_i below
      refine ⟨[], rfl, List.Pairwise.nil, fun t => ?_⟩
      refine iff_of_false List.not_mem_nil fun held' => below ?_
      exact Int.lt_of_lt_of_le held'.2 (TickBitmap.le_highest topmost held'.1)

end Vault

namespace Pass

variable {start : Vault Int} {pass pass' : Pass Int} {limit tick asked : Int}
  {record : TickRecord Int} {ticks rest : List Int} {more : Bool} {budget left : Budget}

theorem Steps.holds_iff (sound : pass.vault.Sound) (steps : pass.Steps tick record pass')
    (t : Int) :
    pass'.vault.ledger.bitmap.Holds t ↔
      if t = tick then 0 < record.rawDebt else pass.vault.ledger.bitmap.Holds t := by
  rw [steps.sound.ledger.bits, Ledger.tickAt_insert steps.ticks]
  split
  · rfl
  · rw [sound.ledger.bits]

theorem Steps.ahead_vacated (sound : pass.vault.Sound) (steps : pass.Steps tick record pass')
    (vacant : record.rawDebt = 0) (ahead : pass.vault.Ahead limit (tick :: rest)) :
    pass'.vault.Ahead limit rest := by
  obtain ⟨below, sorted⟩ := List.pairwise_cons.mp ahead.sorted
  refine ⟨sorted, fun t => ?_⟩
  rw [steps.holds_iff sound]
  by_cases here : t = tick
  · rw [if_pos here]
    refine iff_of_false (fun member => ?_) fun held => ?_
    · exact absurd (below t member) (here ▸ Int.lt_irrefl t)
    · omega
  · rw [if_neg here, ← ahead.mem_iff, List.mem_cons, or_iff_right here]

theorem Steps.ahead_occupied (sound : pass.vault.Sound) (steps : pass.Steps tick record pass')
    (remains : 0 < record.rawDebt) (occupied : 0 < (pass.vault.ledger.tickAt tick).rawDebt)
    (ahead : pass.vault.Ahead limit ticks) : pass'.vault.Ahead limit ticks := by
  refine ⟨ahead.sorted, fun t => ?_⟩
  rw [steps.holds_iff sound, ahead.mem_iff]
  split
  · rename_i here
    rw [here, sound.ledger.bits, iff_true_intro remains, iff_true_intro occupied]
  · rfl

theorem Proceeds.wiped (proceeds : Proceeds start pass)
    (occupied : 0 < (pass.vault.ledger.tickAt tick).rawDebt)
    (done : pass.wipe tick more = .ok pass') : Proceeds start pass' := by
  obtain ⟨next, wiped, proceeds'⟩ := proceeds.wipe occupied more
  cases wiped.symm.trans done
  exact proceeds'

theorem Proceeds.filled (proceeds : Proceeds start pass)
    (done : attempt budget (pass.fill ticks asked) = .ok (pass', left)) : Proceeds start pass' := by
  obtain ⟨next, _, filled, proceeds'⟩ := proceeds.fill ticks asked budget
  cases filled.symm.trans done
  exact proceeds'

end Pass

end TickVault
