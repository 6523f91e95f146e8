import TickVault.Proofs.Walk.Trails

/-!
Walks that are cut short. A walk that starts where another one was cut, for what that one has left
over, ends where it would have ended. An absorption is a case of a fill.
-/

namespace TickVault

namespace Pass

variable {start : Vault Int} {pass first last : Pass Int} {limit tick asked : Int}
  {ticks : List Int} {budget left left' : Budget}

theorem takeFrom_part {held asked : Int} (partly : takeFrom held asked < held) :
    takeFrom held asked = asked ∨
      takeFrom held asked = held - minTickDebt ∧ asked < held ∧ held - asked < minTickDebt := by
  simp only [takeFrom] at partly ⊢
  split
  · rename_i little
    exact .inr ⟨rfl, by omega, by omega⟩
  · rename_i enough
    rw [if_neg enough] at partly
    omega

/-- What a reduction leaves on a tick is either not asked for or too little to take. -/
theorem takeFrom_again {held asked : Int} (partly : takeFrom held asked < held) :
    asked - takeFrom held asked ≤ 0 ∨
      takeFrom (held - takeFrom held asked) (asked - takeFrom held asked) ≤ 0 := by
  rcases takeFrom_part partly with all | ⟨spares, less, little⟩
  · omega
  · by_cases enough : asked - takeFrom held asked ≤ 0
    · exact .inl enough
    · right
      generalize takeFrom held asked = take at *
      unfold takeFrom
      rw [if_pos (by omega)]
      omega

theorem fill_idle
    (idle : asked ≤ 0 ∨ takeFrom (pass.vault.ledger.tickAt tick).rawDebt asked ≤ 0) :
    attempt .unlimited (pass.fill (tick :: rest) asked) = .ok (pass, .unlimited) := by
  simp only [Pass.fill, attempt_ite, attempt_bind, attempt_pure, attempt_charge, attempt_lift,
    Ledger.recordD_int, toInt_int, ok_bind, map_ok, Budget.charge]
  rcases idle with satisfied | little
  · rw [if_pos satisfied]
  · rw [if_pos little]
    simp

/-- Where a fill was cut, an unlimited one for the rest comes to where the whole one ends. -/
theorem Proceeds.fill_resumes (proceeds : Proceeds start pass)
    (ahead : pass.vault.Ahead limit ticks)
    (cut : attempt budget (pass.fill ticks asked) = .ok (first, left))
    (filled : attempt .unlimited (pass.fill ticks asked) = .ok (last, left')) :
    ∃ later resumed left, first.vault.Ahead limit later ∧
      attempt .unlimited (first.fill later (asked - (first.debt - pass.debt))) =
        .ok (resumed, left) ∧ Trails 0 0 last resumed := by
  induction ticks generalizing pass asked budget with
  | nil =>
    cases cut
    cases filled
    exact ⟨[], _, _, ahead, rfl, .refl _⟩
  | cons tick rest ih =>
    have same_asked : asked - (pass.debt - pass.debt) = asked := by omega
    cases fill_cons cut with
    | satisfied _ same =>
      subst same
      exact ⟨_, _, _, ahead, same_asked.symm ▸ filled, .refl _⟩
    | spared _ _ _ same =>
      subst same
      exact ⟨_, _, _, ahead, same_asked.symm ▸ filled, .refl _⟩
    | stopped _ _ same =>
      subst same
      have stands : Proceeds start { pass with completed := false } := proceeds.completed
      obtain ⟨resumed, left, resumes, -⟩ := stands.fill (tick :: rest) asked .unlimited
      exact ⟨_, resumed, left, ahead.congr rfl, same_asked.symm ▸ resumes,
        (Trails.refl pass).completed.fill proceeds stands filled resumes⟩
    | @wiped next wanted _ occupied whole wiped cut =>
      cases fill_cons filled with
      | satisfied enough => exact absurd enough (Int.not_le.mpr wanted)
      | stopped _ spent => cases spent
      | spared _ _ little => omega
      | reduced _ _ _ partly => omega
      | wiped _ _ _ _ wiped' filled =>
        cases wiped.symm.trans wiped'
        obtain ⟨owner, steps⟩ := wipe_ok proceeds.sound (proceeds.sound.ledger.range occupied) wiped
        obtain ⟨later, resumed, left, ahead', resumes, ends⟩ := ih (proceeds.wiped occupied wiped)
          (steps.ahead_vacated proceeds.sound (TickRecord.wiped_rawDebt ..) ahead) cut filled
        have taken := (proceeds.wipe_gains occupied wiped).1
        have rest_asked : asked - (pass.vault.ledger.tickAt tick).rawDebt -
            (first.debt - next.debt) = asked - (first.debt - pass.debt) := by omega
        exact ⟨later, resumed, left, ahead', rest_asked ▸ resumes, ends⟩
    | @reduced next _ wanted _ positive partly reduced same =>
      cases fill_cons filled with
      | satisfied enough => exact absurd enough (Int.not_le.mpr wanted)
      | stopped _ spent => cases spent
      | spared _ _ little => omega
      | wiped _ _ _ whole => omega
      | reduced _ _ _ _ reduced' same' =>
        cases reduced.symm.trans reduced'
        subst same same'
        have occupied := Int.lt_trans positive partly
        have range := proceeds.sound.ledger.range occupied
        obtain ⟨_, owner, -, -, steps⟩ := reduce_ok proceeds.sound range positive reduced
        have taken := (reduce_eq range reduced).1
        have ahead' := steps.ahead_occupied proceeds.sound
          (by rw [TickRecord.reduced_rawDebt]; omega) occupied ahead
        have remains := Ledger.tickAt_insert steps.ticks tick
        rw [if_pos rfl] at remains
        refine ⟨tick :: rest, _, _, ahead'.congr rfl, fill_idle ?_,
          (Trails.refl next).completed.of_completed⟩
        dsimp only
        rw [remains, TickRecord.reduced_rawDebt, taken, add_sub_cancel_left]
        exact takeFrom_again partly

/-- A budget of one step or more is enough to take something if anything can be taken. -/
theorem Proceeds.fill_starts (proceeds : Proceeds start pass) (charged : budget.charge.1 = true)
    (cut : attempt budget (pass.fill ticks asked) = .ok (first, left))
    (filled : attempt .unlimited (pass.fill ticks asked) = .ok (last, left'))
    (gained : pass.debt < last.debt) : pass.debt < first.debt := by
  cases ticks with
  | nil =>
    cases filled
    exact absurd gained (Int.lt_irrefl _)
  | cons tick rest =>
    have not_idle (idle : asked ≤ 0 ∨
        takeFrom (pass.vault.ledger.tickAt tick).rawDebt asked ≤ 0) : False := by
      cases (fill_idle idle).symm.trans filled
      exact absurd gained (Int.lt_irrefl _)
    cases fill_cons cut with
    | satisfied enough => exact (not_idle (.inl enough)).elim
    | spared _ _ little => exact (not_idle (.inr little)).elim
    | stopped _ spent => cases charged.symm.trans spent
    | wiped _ _ occupied _ wiped cut =>
      have taken := (proceeds.wipe_gains occupied wiped).1
      have later := ((proceeds.wiped occupied wiped).fill_gains cut).debt_le
      omega
    | reduced _ _ positive partly reduced same =>
      have taken := (proceeds.reduce_gains positive partly reduced).1
      subst same
      dsimp only
      omega

theorem Proceeds.absorb_eq_fill (proceeds : Proceeds start pass)
    (ahead : pass.vault.Ahead limit ticks) (enough : pass.vault.ledger.debt ≤ asked)
    (budget : Budget) :
    attempt budget (pass.absorb ticks) = attempt budget (pass.fill ticks asked) := by
  induction ticks generalizing pass asked budget with
  | nil => rfl
  | cons tick rest ih =>
    have occupied := ahead.occupied proceeds.sound List.mem_cons_self
    have part := proceeds.sound.ledger.rawDebt_le tick
    have whole : takeFrom (pass.vault.ledger.tickAt tick).rawDebt asked =
        (pass.vault.ledger.tickAt tick).rawDebt := by
      unfold takeFrom
      rw [if_neg (by omega)]
      omega
    obtain ⟨next, wiped, proceeds'⟩ := proceeds.wipe occupied (!rest.isEmpty)
    obtain ⟨owner, steps⟩ := wipe_ok proceeds.sound (proceeds.sound.ledger.range occupied) wiped
    have ahead' := steps.ahead_vacated proceeds.sound (TickRecord.wiped_rawDebt ..) ahead
    have left := Ledger.total_insert steps.ticks TickRecord.rawDebt rfl
    rw [TickRecord.wiped_rawDebt] at left
    have enough' : next.vault.ledger.debt ≤ asked - (pass.vault.ledger.tickAt tick).rawDebt := by
      simp only [Ledger.debt] at *
      omega
    have same := ih proceeds' ahead' enough'
    simp only [Pass.absorb, Pass.fill, attempt_ite, attempt_bind, attempt_pure, attempt_charge,
      attempt_lift, Ledger.recordD_int, toInt_int, ok_bind, map_ok, whole, wiped, same]
    rw [if_neg (by omega : ¬ asked ≤ 0), if_neg (Int.not_le.mpr occupied), if_true]

end Pass

end TickVault
