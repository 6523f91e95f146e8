import TickVault.Proofs.Ledger.Attempt

namespace TickVault

namespace BranchLedger

def links (ledger : BranchLedger Int) : List Int :=
  ledger.records.map Branch.connected

/-- There is a root, and every other branch is linked to an older one. -/
structure Rooted (ledger : BranchLedger Int) : Prop where
  root : 0 < ledger.records.length
  older : ∀ (id : Int) (branch : Branch Int), ledger.get? id = some branch → 0 < id →
    0 ≤ branch.connected ∧ branch.connected < id

inductive Path (ledger : BranchLedger Int) : Int → List Int → Prop
  | root : Path ledger 0 [0]
  | link {id : Int} {branch : Branch Int} {rest : List Int} (known : ledger.get? id = some branch)
      (other : id ≠ 0) (tail : Path ledger branch.connected rest) : Path ledger id (id :: rest)

theorem get?_isSome_iff {ledger : BranchLedger Int} {id : Int} :
    (ledger.get? id).isSome ↔ 0 ≤ id ∧ id < ledger.records.length := by
  unfold get?
  split
  · simp
    omega
  · simp only [isSome_getElem?]
    omega

theorem get_int (ledger : BranchLedger Int) (id : Int) :
    ledger.get id = match ledger.get? id with
      | some branch => .ok branch
      | none => refuse (.unknownBranch (store id)) := by
  simp only [get, toInt_int, ok_bind]
  cases ledger.get? id <;> rfl

theorem get_eq_ok_iff {ledger : BranchLedger Int} {id : Int} {branch : Branch Int} :
    ledger.get id = .ok branch ↔ ledger.get? id = some branch := by
  rw [get_int]
  cases ledger.get? id <;> simp

theorem Rooted.exists_path {ledger : BranchLedger Int} (rooted : ledger.Rooted) {id : Int}
    (low : 0 ≤ id) (known : id < ledger.records.length) :
    ∃ ids, ledger.Path id ids ∧ ids.Nodup ∧ ∀ i ∈ ids, 0 ≤ i ∧ i ≤ id := by
  obtain ⟨n, rfl⟩ := Int.eq_ofNat_of_zero_le low
  induction n using Nat.strong_induction_on with
  | _ n ih =>
    by_cases top : n = 0
    · subst top
      exact ⟨[0], .root, by simp, by simp⟩
    obtain ⟨branch, found⟩ := Option.isSome_iff_exists.mp (get?_isSome_iff.mpr ⟨low, known⟩)
    obtain ⟨low', older⟩ := rooted.older n branch found (by omega)
    obtain ⟨next, linked⟩ := Int.eq_ofNat_of_zero_le low'
    rw [linked] at low' older
    obtain ⟨ids, path, distinct, range⟩ := ih next (by omega) low' (by omega)
    refine ⟨n :: ids, .link found (by omega) (linked ▸ path), ?_, ?_⟩
    · refine List.nodup_cons.mpr ⟨fun again => ?_, distinct⟩
      have bound := (range n again).2
      omega
    · intro i member
      rcases List.mem_cons.mp member with rfl | later
      · exact ⟨low, Int.le_refl _⟩
      · have bound := range i later
        omega

/-- A walk that comes to its end has followed the links, and no branch was visited before. -/
theorem path_of_follow {ledger : BranchLedger Int} {start : Int} {steps : Nat} {visited : List Int}
    {id : Int} {ids : List Int} (followed : follow ledger.link start steps visited id = .ok ids) :
    ledger.Path id ids ∧ ids.Nodup ∧ ∀ i ∈ ids, i ≠ 0 → i ∉ visited := by
  induction steps generalizing visited id ids with
  | zero =>
    by_cases top : id = 0
    · subst top
      cases followed
      exact ⟨.root, by simp, by simp⟩
    · simp [follow, top] at followed
  | succ steps ih =>
    by_cases top : id = 0
    · subst top
      cases followed
      exact ⟨.root, by simp, by simp⟩
    rw [follow] at followed
    by_cases seen : id ∈ visited
    · simp [top, seen] at followed
    simp only [toInt_int, ok_bind, top, seen, if_false, link, bind_eq_ok, get_eq_ok_iff,
      pure_eq_ok, Except.ok.injEq] at followed
    obtain ⟨_, ⟨branch, known, rfl⟩, rest, later, rfl⟩ := followed
    obtain ⟨path, distinct, unseen⟩ := ih later
    refine ⟨.link known top path, List.nodup_cons.mpr ⟨fun again => ?_, distinct⟩, ?_⟩
    · exact unseen id again top List.mem_cons_self
    · intro i member other
      rcases List.mem_cons.mp member with rfl | member
      · exact seen
      · exact fun before => unseen i member other (List.mem_cons_of_mem _ before)

/-- The walk comes to the end of a path that visits no branch twice, given a step for each link. -/
theorem Path.follow_ok {ledger : BranchLedger Int} {start id : Int} {ids visited : List Int}
    (path : ledger.Path id ids) {steps : Nat} (enough : ids.length ≤ steps + 1)
    (distinct : ids.Nodup) (unseen : ∀ i ∈ ids, i ≠ 0 → i ∉ visited) :
    follow ledger.link start steps visited id = .ok ids := by
  induction path generalizing steps visited with
  | root =>
    cases steps <;> rfl
  | @link id branch rest known other tail ih =>
    obtain ⟨once, distinct⟩ := List.nodup_cons.mp distinct
    have fresh := unseen id List.mem_cons_self other
    have some : 0 < rest.length := by
      generalize branch.connected = next at tail
      cases tail <;> simp
    obtain ⟨steps, rfl⟩ : ∃ fewer, steps = fewer + 1 := by
      refine ⟨steps - 1, ?_⟩
      simp only [List.length_cons] at enough
      omega
    have unseen' : ∀ i ∈ rest, i ≠ 0 → i ∉ id :: visited := by
      intro i member nonzero before
      rcases List.mem_cons.mp before with rfl | before
      · exact once member
      · exact unseen i (List.mem_cons_of_mem _ member) nonzero before
    have later := ih (Nat.le_of_succ_le_succ enough) distinct unseen'
    rw [follow]
    simp [other, fresh, BranchLedger.link, get_eq_ok_iff.mpr known, later]

theorem Path.known {ledger : BranchLedger Int} {id : Int} {ids : List Int}
    (path : ledger.Path id ids) : ∀ i ∈ ids, 0 ≤ i ∧ i ≤ ledger.records.length := by
  induction path with
  | root => simp
  | link known _ _ ih =>
    have here := get?_isSome_iff.mp (Option.isSome_iff_exists.mpr ⟨_, known⟩)
    exact List.forall_mem_cons.mpr ⟨⟨here.1, Int.le_of_lt here.2⟩, ih⟩

theorem chain_eq_ok_iff {ledger : BranchLedger Int} {start : Int} {ids : List Int} :
    ledger.chain start = .ok ids ↔ ledger.Path start ids ∧ ids.Nodup := by
  constructor
  · intro chained
    obtain ⟨path, distinct, -⟩ := path_of_follow chained
    exact ⟨path, distinct⟩
  · rintro ⟨path, distinct⟩
    have among : ids ⊆ (List.range (ledger.records.length + 1)).map Int.ofNat := by
      intro i member
      obtain ⟨low, high⟩ := path.known i member
      exact List.mem_map.mpr ⟨i.toNat, List.mem_range.mpr (by omega), Int.toNat_of_nonneg low⟩
    have few := (List.subperm_of_subset distinct among).length_le
    rw [List.length_map, List.length_range] at few
    exact path.follow_ok few distinct (by simp)

theorem Rooted.chain_ok {ledger : BranchLedger Int} (rooted : ledger.Rooted) {start : Int}
    (low : 0 ≤ start) (known : start < ledger.records.length) :
    ∃ ids, ledger.chain start = .ok ids ∧ ledger.Path start ids ∧ ids.Nodup ∧
      ∀ i ∈ ids, 0 ≤ i ∧ i ≤ start := by
  obtain ⟨ids, path, distinct, range⟩ := rooted.exists_path low known
  exact ⟨ids, chain_eq_ok_iff.mpr ⟨path, distinct⟩, path, distinct, range⟩

theorem firstOpen_ok {ledger : BranchLedger Int} {ids : List Int}
    (known : ∀ id ∈ ids, 0 ≤ id ∧ id < ledger.records.length) :
    ∃ found, ledger.firstOpen ids = .ok found ∧ ∀ id, found = some id →
      ∃ branch, ledger.get? id = some branch ∧ branch.isLiquidated = false ∧
        0 < branch.ownedTicks := by
  induction ids with
  | nil => exact ⟨none, rfl, fun id none_found => by cases none_found⟩
  | cons first rest ih =>
    have here := known first List.mem_cons_self
    obtain ⟨branch, found⟩ := Option.isSome_iff_exists.mp (get?_isSome_iff.mpr here)
    have later := ih fun id member => known id (List.mem_cons_of_mem _ member)
    simp only [firstOpen, get_eq_ok_iff.mpr found, ok_bind, Branch.isOpen]
    cases closed : branch.isLiquidated with
    | true => exact later
    | false =>
      by_cases owns : 0 < branch.ownedTicks
      · refine ⟨some first, by simp [owns], fun id same => ?_⟩
        cases same
        exact ⟨branch, found, closed, owns⟩
      · simpa [owns] using later

theorem Rooted.ancestor_ok {ledger : BranchLedger Int} (rooted : ledger.Rooted) {id : Int}
    (low : 0 ≤ id) (known : id < ledger.records.length) :
    ∃ found, ledger.nearestActiveAncestor id = .ok found ∧ ∀ ancestor, found = some ancestor →
      ∃ branch, ledger.get? ancestor = some branch ∧ branch.isLiquidated = false ∧
        0 < branch.ownedTicks := by
  obtain ⟨ids, chained, -, -, range⟩ := rooted.chain_ok low known
  simp only [nearestActiveAncestor, chained, ok_bind]
  apply firstOpen_ok
  intro ancestor member
  have bound := range ancestor (List.mem_of_mem_tail (List.mem_of_mem_dropLast member))
  omega

theorem Rooted.ancestor_range {ledger : BranchLedger Int} (rooted : ledger.Rooted)
    {id ancestor : Int} (low : 0 ≤ id) (known : id < ledger.records.length)
    (found : ledger.nearestActiveAncestor id = .ok (some ancestor)) :
    0 ≤ ancestor ∧ ancestor < ledger.records.length := by
  obtain ⟨found', searched, active⟩ := rooted.ancestor_ok low known
  cases found.symm.trans searched
  obtain ⟨branch, there, -⟩ := active ancestor rfl
  exact get?_isSome_iff.mp (Option.isSome_iff_exists.mpr ⟨branch, there⟩)

theorem Rooted.of_links {ledger ledger' : BranchLedger Int} (rooted : ledger.Rooted)
    (same : ledger'.links = ledger.links) : ledger'.Rooted := by
  have size : ledger'.records.length = ledger.records.length := by
    simpa [links] using congrArg List.length same
  refine ⟨size ▸ rooted.root, fun id branch found positive => ?_⟩
  have kept : (ledger'.get? id).map Branch.connected = (ledger.get? id).map Branch.connected := by
    unfold get?
    split
    · rfl
    · simpa [links] using congrArg (·[id.toNat]?) same
  rw [found] at kept
  obtain ⟨before, found', linked⟩ := Option.map_eq_some_iff.mp kept.symm
  rw [← linked]
  exact rooted.older id before found' positive

theorem links_length {ledger ledger' : BranchLedger Int} (same : ledger'.links = ledger.links) :
    ledger'.records.length = ledger.records.length := by
  simpa [links] using congrArg List.length same

theorem Rooted.fork {ledger ledger' : BranchLedger Int} (rooted : ledger.Rooted) {source id : Int}
    (forked : ledger.fork source = .ok (id, ledger')) :
    ledger'.Rooted ∧ id = ledger.records.length ∧
      ledger'.records = ledger.records ++ [.fresh id source] ∧
      0 ≤ source ∧ source < ledger.records.length := by
  simp only [BranchLedger.fork, bind_eq_ok, pure_eq_ok, Except.ok.injEq, Prod.mk.injEq] at forked
  obtain ⟨branch, found, rfl, rfl⟩ := forked
  have range := get?_isSome_iff.mp (Option.isSome_iff_exists.mpr ⟨_, get_eq_ok_iff.mp found⟩)
  have last : ledger.total + 1 = ledger.records.length := by simp [total]
  refine ⟨⟨by simp, ?_⟩, last, rfl, range⟩
  intro id later known positive
  simp only [get?, List.getElem?_append] at known
  split at known
  · cases known
  · split at known
    · exact rooted.older id later (by simp_all [get?]) positive
    · rename_i beyond
      simp only [ofInt_int, List.getElem?_singleton] at known
      split at known <;> cases known
      simp only [Branch.fresh]
      omega

theorem links_set {ledger : BranchLedger Int} {id : Int} {branch branch' : Branch Int}
    (found : ledger.get? id = some branch) (same : branch'.connected = branch.connected) :
    (⟨ledger.records.set id.toNat branch'⟩ : BranchLedger Int).links = ledger.links := by
  unfold get? at found
  split at found
  · cases found
  · simp only [links]
    refine List.ext_getElem? fun i => ?_
    simp only [List.getElem?_map, List.getElem?_set]
    split
    · rename_i here
      subst here
      split <;> simp_all
    · rfl

theorem links_update {ledger ledger' : BranchLedger Int} {id : Int}
    {change : Branch Int → Except Fault (Branch Int)}
    (keeps : ∀ branch branch', change branch = .ok branch' → branch'.connected = branch.connected)
    (updated : ledger.update id change = .ok ledger') : ledger'.links = ledger.links := by
  simp only [update, bind_eq_ok, toInt_int, pure_eq_ok, get_eq_ok_iff, Except.ok.injEq] at updated
  obtain ⟨branch, found, branch', changed, _, rfl, rfl⟩ := updated
  exact links_set found (keeps _ _ changed)

theorem links_claim {ledger ledger' : BranchLedger Int} {id : Int}
    (claimed : ledger.claim id = .ok ledger') : ledger'.links = ledger.links := by
  refine links_update (fun branch branch' changed => ?_) claimed
  cases changed
  rfl

theorem links_release {ledger ledger' : BranchLedger Int} {id : Int} {liquidated closed : Bool}
    (released : ledger.release id liquidated = .ok (closed, ledger')) :
    ledger'.links = ledger.links := by
  simp only [release, bind_eq_ok, pure_eq_ok, Except.ok.injEq, Prod.mk.injEq] at released
  obtain ⟨branch, -, _, -, _, -, _, -, after, updated, -, rfl⟩ := released
  refine links_update (fun branch branch' changed => ?_) updated
  cases changed
  rfl

theorem links_raise {ledger ledger' : BranchLedger Int} {id : Int} {taken : TickLiquidation Int}
    (raised : ledger.update id (·.raise id taken) = .ok ledger') :
    ledger'.links = ledger.links := by
  refine links_update (fun branch branch' changed => ?_) raised
  simp only [Branch.raise, bind_eq_ok, pure_eq_ok] at changed
  obtain ⟨_, -, _, -, _, -, _, -, _, -, _, -, _, -, changed⟩ := changed
  cases changed
  rfl

theorem links_fold {ledger ledger' : BranchLedger Int} {id : Int} {taken : TickLiquidation Int}
    (folded : ledger.update id (·.fold taken) = .ok ledger') :
    ledger'.links = ledger.links := by
  refine links_update (fun branch branch' changed => ?_) folded
  simp only [Branch.fold, bind_eq_ok, pure_eq_ok] at changed
  obtain ⟨_, -, _, -, _, -, _, -, _, -, changed⟩ := changed
  cases changed
  rfl

end BranchLedger

end TickVault
