import TickVault.Proofs.Walk.Reach

namespace TickVault

namespace Ledger

def backing (ledger : Ledger Int) (tick take : Int) : Int :=
  min (take * ratioScale / ratioOf tick) (ledger.tickAt tick).rawCollateral

def headBacking (ledger : Ledger Int) (ticks : List Int) (part : Int) : Int :=
  (ticks.head?.map fun tick => ledger.backing tick part).getD 0

def across (ledger : Ledger Int) (weight : TickRecord Int → Int) (ticks : List Int) : Int :=
  (ticks.map fun tick => weight (ledger.tickAt tick)).sum

/-- A ledger after a walk: some ticks were wiped, and the first one of the others has lost a part of
its debt, if any. It keeps the least debt of a tick. -/
structure Drained (before : Ledger Int) (emptied rest : List Int) (part : Int)
    (after : Ledger Int) : Prop where
  nonneg : 0 ≤ part
  wiped : ∀ t ∈ emptied, ∃ owner, after.ticks.get? t = some ((before.tickAt t).wiped owner)
  reduced : 0 < part → ∃ t owner, rest.head? = some t ∧
    after.ticks.get? t = some ((before.tickAt t).reduced part (before.backing t part) owner) ∧
    minTickDebt ≤ (before.tickAt t).rawDebt - part
  spared : ∀ t, t ∉ emptied → part = 0 ∨ rest.head? ≠ some t →
    after.ticks.get? t = before.ticks.get? t

variable {before middle after : Ledger Int} {tick part : Int} {emptied rest : List Int}

theorem tickAt_of_get?_eq (same : after.ticks.get? tick = before.ticks.get? tick) :
    after.tickAt tick = before.tickAt tick := by
  simp only [tickAt, same]

theorem backing_nothing (held : 0 ≤ (before.tickAt tick).rawCollateral) :
    before.backing tick 0 = 0 := by
  simp only [backing, Int.zero_mul, Int.zero_ediv]
  exact Int.min_eq_left held

theorem headBacking_nothing (held : ∀ t, 0 ≤ (before.tickAt t).rawCollateral) (ticks : List Int) :
    before.headBacking ticks 0 = 0 := by
  cases ticks with
  | nil => rfl
  | cons tick rest => exact backing_nothing (held tick)

@[simp] theorem across_nil (ledger : Ledger Int) (weight : TickRecord Int → Int) :
    ledger.across weight [] = 0 := rfl

theorem across_congr (weight : TickRecord Int → Int)
    (same : ∀ t ∈ emptied, after.tickAt t = before.tickAt t) :
    after.across weight emptied = before.across weight emptied := by
  unfold across
  rw [List.map_congr_left fun t member => congrArg weight (same t member)]

theorem drained_none (ledger : Ledger Int) (ticks : List Int) : ledger.Drained [] ticks 0 ledger where
  nonneg := Int.le_refl 0
  wiped t member := by cases member
  reduced positive := absurd positive (Int.lt_irrefl 0)
  spared _ _ _ := rfl

theorem Drained.cons {owner : Int} (drained : middle.Drained emptied rest part after)
    (ticks : middle.ticks = before.ticks.insert tick ((before.tickAt tick).wiped owner))
    (apart : tick ∉ emptied ++ rest) : before.Drained (tick :: emptied) rest part after := by
  have kept (t : Int) (other : t ≠ tick) : middle.ticks.get? t = before.ticks.get? t := by
    rw [ticks, Table.get?_insert, if_neg (Ne.symm other)]
  have record (t : Int) (other : t ≠ tick) : middle.tickAt t = before.tickAt t :=
    tickAt_of_get?_eq (kept t other)
  have apart_emptied (t : Int) (member : t ∈ emptied) : t ≠ tick := by
    rintro rfl
    exact apart (List.mem_append_left rest member)
  have apart_rest (t : Int) (first : rest.head? = some t) : t ≠ tick := by
    rintro rfl
    exact apart (List.mem_append_right emptied (List.mem_of_mem_head? first))
  refine ⟨drained.nonneg, ?_, ?_, ?_⟩
  · intro t member
    rcases List.mem_cons.mp member with rfl | later
    · refine ⟨owner, ?_⟩
      rw [drained.spared t (fun member => apart_emptied t member rfl)
        (.inr fun first => apart_rest t first rfl), ticks, Table.get?_insert, if_pos rfl]
    · rw [← record t (apart_emptied t later)]
      exact drained.wiped t later
  · intro positive
    obtain ⟨t, branch, first, there, least⟩ := drained.reduced positive
    have same := record t (apart_rest t first)
    simp only [backing, same] at there least
    exact ⟨t, branch, first, there, least⟩
  · intro t outside unreduced
    obtain ⟨other, later⟩ := not_or.mp (List.mem_cons.not.mp outside)
    calc after.ticks.get? t = middle.ticks.get? t := drained.spared t later unreduced
      _ = before.ticks.get? t := kept t other

end Ledger

namespace Pass

/-- What a fill has come to: it has drained a first part of its ticks, and counts what it took. It
ends where its ticks end, or where less is wanted than a tick may be left with, unless its budget
ends before. -/
structure Drains (pass : Pass Int) (ticks : List Int) (asked : Int) (budget : Budget)
    (emptied rest : List Int) (part : Int) (last : Pass Int) : Prop where
  split : ticks = emptied ++ rest
  ledger : pass.vault.ledger.Drained emptied rest part last.vault.ledger
  debt : last.debt = pass.debt + pass.vault.ledger.across TickRecord.rawDebt emptied + part
  collateral : last.collateral = pass.collateral +
    pass.vault.ledger.across TickRecord.rawCollateral emptied +
      pass.vault.ledger.headBacking rest part
  within : last.debt ≤ pass.debt + asked
  ends : rest = [] ∨ asked - (last.debt - pass.debt) < minTickDebt ∨
    last.completed = false ∧ budget ≠ .unlimited
  steps : ∀ limit used, budget = .fixed limit used →
    emptied.length + (if part = 0 then 0 else 1) ≤ max (limit - used) 0

variable {start : Vault Int} {pass last next : Pass Int} {limit tick asked : Int}
  {ticks rest : List Int} {budget left : Budget}

/-- Where a fill takes nothing off a tick with debt, little is wanted. -/
theorem takeFrom_nothing {held asked : Int} (occupied : 0 < held) (wanted : 0 < asked)
    (nothing : takeFrom held asked ≤ 0) : asked < minTickDebt := by
  simp only [takeFrom] at nothing
  split at nothing <;> omega

theorem takeFrom_whole {held asked : Int} (whole : takeFrom held asked = held) : held ≤ asked := by
  have least : 0 < minTickDebt := by decide
  simp only [takeFrom] at whole
  split at whole <;> omega

theorem takeFrom_partly {held asked : Int} (partly : takeFrom held asked < held) :
    takeFrom held asked ≤ asked ∧ asked - takeFrom held asked < minTickDebt ∧
      minTickDebt ≤ held - takeFrom held asked := by
  have least : 0 < minTickDebt := by decide
  simp only [takeFrom] at *
  split at partly <;> rename_i little
  · rw [if_pos little]
    omega
  · rw [if_neg little]
    omega

theorem charge_fixed {limit used : Int} (charged : (Budget.fixed limit used).charge.1 = true) :
    (Budget.fixed limit used).charge.2 = .fixed limit (used + 1) ∧ used < limit := by
  simp only [Budget.charge] at *
  split at charged
  · cases charged
  · rename_i some_left
    rw [if_neg some_left]
    exact ⟨rfl, Int.not_le.mp some_left⟩

theorem Drains.idle (held : ∀ t, 0 ≤ (pass.vault.ledger.tickAt t).rawCollateral)
    (vault : last.vault = pass.vault) (debt : last.debt = pass.debt)
    (collateral : last.collateral = pass.collateral) (nonneg : 0 ≤ asked)
    (ends : ticks = [] ∨ asked < minTickDebt ∨ last.completed = false ∧ budget ≠ .unlimited) :
    pass.Drains ticks asked budget [] ticks 0 last where
  split := rfl
  ledger := vault ▸ Ledger.drained_none pass.vault.ledger ticks
  debt := by simp [debt]
  collateral := by simp [collateral, Ledger.headBacking_nothing held]
  within := by omega
  ends := by
    rw [debt, Int.sub_self, Int.sub_zero]
    exact ends
  steps limit used _ := Int.le_max_right _ _

theorem drains_reduced (proceeds : Proceeds start pass) (charged : budget.charge.1 = true)
    (positive : 0 < takeFrom (pass.vault.ledger.tickAt tick).rawDebt asked)
    (partly : takeFrom (pass.vault.ledger.tickAt tick).rawDebt asked <
      (pass.vault.ledger.tickAt tick).rawDebt)
    (reduced : pass.reduce tick (takeFrom (pass.vault.ledger.tickAt tick).rawDebt asked) = .ok next)
    (done : Bool) :
    pass.Drains (tick :: rest) asked budget [] (tick :: rest)
      (takeFrom (pass.vault.ledger.tickAt tick).rawDebt asked) { next with completed := done } := by
  obtain ⟨bounded, little, least⟩ := takeFrom_partly partly
  generalize takeFrom (pass.vault.ledger.tickAt tick).rawDebt asked = part at *
  have range := proceeds.sound.ledger.range (Int.lt_trans positive partly)
  obtain ⟨collateral, owner, -, -, steps⟩ := reduce_ok proceeds.sound range positive reduced
  obtain ⟨debt, priced⟩ := reduce_eq range reduced
  have taken : collateral = pass.vault.ledger.backing tick part := by
    have sum := steps.collateral
    have left : ((pass.vault.ledger.tickAt tick).reduced part collateral owner).rawCollateral =
      (pass.vault.ledger.tickAt tick).rawCollateral - collateral := rfl
    unfold Ledger.backing
    omega
  rw [taken] at steps
  refine ⟨rfl, ⟨Int.le_of_lt positive, ?_, ?_, ?_⟩, ?_, ?_, ?_, ?_, ?_⟩
  · intro t member
    cases member
  · intro _
    refine ⟨tick, owner, rfl, ?_, least⟩
    rw [steps.ticks, Table.get?_insert, if_pos rfl]
  · intro t _ unreduced
    have other : tick ≠ t := by
      rintro rfl
      rcases unreduced with nothing | other
      · omega
      · exact other rfl
    rw [steps.ticks, Table.get?_insert, if_neg other]
  · simp [debt]
  · simp [priced, Ledger.headBacking, Ledger.backing]
  · simp only [debt]
    omega
  · refine .inr (.inl ?_)
    simp only [debt]
    omega
  · rintro limit used rfl
    have left := (charge_fixed charged).2
    rw [if_neg (Int.ne_of_gt positive)]
    simp only [List.length_nil]
    omega

theorem Drains.cons {owner part held : Int} {emptied later : List Int}
    (steps : pass.Steps tick ((pass.vault.ledger.tickAt tick).wiped owner) next)
    (here : (pass.vault.ledger.tickAt tick).rawDebt = held)
    (apart : tick ∉ rest) (charged : budget.charge.1 = true)
    (drains : next.Drains rest (asked - held) budget.charge.2 emptied later part last) :
    pass.Drains (tick :: rest) asked budget (tick :: emptied) later part last := by
  have debt := steps.debt
  have collateral := steps.collateral
  rw [TickRecord.wiped_rawDebt, here] at debt
  change next.collateral + 0 = _ at collateral
  have same (t : Int) (member : t ∈ rest) :
      next.vault.ledger.tickAt t = pass.vault.ledger.tickAt t :=
    steps.tickAt_of_ne fun here => apart (here ▸ member)
  have inner (t : Int) (member : t ∈ emptied) : t ∈ rest := by
    rw [drains.split]
    exact List.mem_append_left later member
  have sum (weight : TickRecord Int → Int) : pass.vault.ledger.across weight (tick :: emptied) =
      weight (pass.vault.ledger.tickAt tick) + next.vault.ledger.across weight emptied := by
    rw [Ledger.across_congr weight fun t member => same t (inner t member)]
    rfl
  have backing : next.vault.ledger.headBacking later part =
      pass.vault.ledger.headBacking later part := by
    cases first : later with
    | nil => rfl
    | cons t others =>
      have member : t ∈ rest := by
        rw [drains.split, first]
        exact List.mem_append_right emptied List.mem_cons_self
      simp only [Ledger.headBacking, List.head?_cons, Option.map_some, Option.getD_some,
        Ledger.backing, same t member]
  refine ⟨?_, drains.ledger.cons steps.ticks (drains.split ▸ apart), ?_, ?_, ?_, ?_, ?_⟩
  · rw [drains.split]
    rfl
  · rw [sum, drains.debt, here]
    omega
  · rw [sum, drains.collateral, backing]
    omega
  · have within := drains.within
    omega
  · rcases drains.ends with all | little | ⟨cut, bounded⟩
    · exact .inl all
    · exact .inr (.inl (by omega))
    · exact .inr (.inr ⟨cut, fun free => bounded (by rw [free]; rfl)⟩)
  · rintro limit used rfl
    obtain ⟨next_budget, less⟩ := charge_fixed charged
    have later := drains.steps limit (used + 1) next_budget
    rw [List.length_cons]
    omega

/-- A fill drains the first of the ticks that are ahead of it. -/
theorem Proceeds.fill_drains (proceeds : Proceeds start pass)
    (ahead : pass.vault.Ahead limit ticks) (nonneg : 0 ≤ asked)
    (filled : attempt budget (pass.fill ticks asked) = .ok (last, left)) :
    ∃ emptied rest part, pass.Drains ticks asked budget emptied rest part last := by
  induction ticks generalizing pass asked budget with
  | nil =>
    cases filled
    have held (t : Int) := proceeds.upholds.governed.accounted.held t .collateral
    exact ⟨[], [], 0, .idle held rfl rfl rfl nonneg (.inl rfl)⟩
  | cons tick rest ih =>
    have held (t : Int) := proceeds.upholds.governed.accounted.held t .collateral
    have occupied := ahead.occupied proceeds.sound List.mem_cons_self
    cases fill_cons filled with
    | satisfied enough same =>
      have little : asked < minTickDebt := Int.lt_of_le_of_lt enough (by decide)
      exact ⟨[], _, 0, .idle held (by rw [same]) (by rw [same]) (by rw [same]) nonneg
        (.inr (.inl little))⟩
    | stopped _ spent same =>
      have bounded : budget ≠ .unlimited := by
        rintro rfl
        cases spent
      exact ⟨[], _, 0, .idle held (by rw [same]) (by rw [same]) (by rw [same]) nonneg
        (.inr (.inr ⟨by rw [same], bounded⟩))⟩
    | spared wanted _ nothing same =>
      have little := takeFrom_nothing occupied wanted nothing
      exact ⟨[], _, 0, .idle held (by rw [same]) (by rw [same]) (by rw [same]) nonneg
        (.inr (.inl little))⟩
    | @wiped next _ charged _ whole wiped filled =>
      obtain ⟨owner, steps⟩ := wipe_ok proceeds.sound (proceeds.sound.ledger.range occupied) wiped
      have enough := takeFrom_whole whole
      have below := (List.pairwise_cons.mp ahead.sorted).1
      have apart : tick ∉ rest := fun again => absurd (below tick again) (Int.lt_irrefl tick)
      obtain ⟨emptied, later, part, drains⟩ := ih (proceeds.wiped occupied wiped)
        (steps.ahead_vacated proceeds.sound (TickRecord.wiped_rawDebt ..) ahead)
        (Int.sub_nonneg_of_le enough) filled
      exact ⟨tick :: emptied, later, part, drains.cons steps rfl apart charged⟩
    | reduced wanted charged positive partly reduced same =>
      rw [same]
      exact ⟨[], _, _, drains_reduced proceeds charged positive partly reduced _⟩

end Pass

namespace Vault

variable {vault : Vault Int} {limit requested : Int} {ticks : List Int} {budget left : Budget}
  {taken : Liquidation Int}

structure Riskiest (vault : Vault Int) (limit : Int) (ticks : List Int) : Prop where
  falling : ticks.Pairwise (· > ·)
  mem_iff : ∀ t, t ∈ ticks ↔ limit < t ∧ 0 < (vault.ledger.tickAt t).rawDebt

theorem Ahead.riskiest (ahead : vault.Ahead limit ticks) (sound : vault.Sound) :
    vault.Riskiest limit ticks where
  falling := ahead.sorted
  mem_iff t := by rw [ahead.mem_iff, sound.ledger.bits, and_comm]

theorem fillAbove_drains (coherent : vault.Coherent) (governed : vault.Governed)
    (nonneg : 0 ≤ requested)
    (done : attempt budget (vault.fillAbove limit requested) = .ok (taken, left)) :
    ∃ ticks emptied rest part pass, vault.Riskiest limit ticks ∧
      Pass.Drains { vault } ticks requested budget emptied rest part pass ∧
      taken.vault.ledger = pass.vault.ledger ∧ taken.debt = pass.debt ∧
      taken.collateral = pass.collateral ∧ taken.completed = pass.completed := by
  obtain ⟨ticks, pass, booked, found, filled, books, rfl⟩ := fillAbove_iff.mp done
  obtain ⟨_, found', ahead⟩ := coherent.ticksAbove_ahead limit
  cases found.symm.trans found'
  have proceeds := Pass.proceeds_start coherent.toSound governed
  obtain ⟨emptied, rest, part, drains⟩ := proceeds.fill_drains ahead nonneg filled
  exact ⟨ticks, emptied, rest, part, pass, ahead.riskiest coherent.toSound, drains,
    Pass.book_ledger books, rfl, rfl, rfl⟩

end Vault

end TickVault
