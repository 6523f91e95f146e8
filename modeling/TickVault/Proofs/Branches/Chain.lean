import TickVault.Proofs.Branches

/-!
The chain of a branch over any links at all, those of a corrupted ledger among them. Links may be
followed for ever, and what they lead to is given by counting them; a walk goes along them until it
is at the root, at a branch it has visited, or at one that does not exist. Every walk ends in one of
these three ways and in no second one, and the bound on its steps is never what stops it.
-/

namespace TickVault

namespace BranchLedger

/-- Where so many links lead from a branch, as long as the branches before are known. -/
def reach (ledger : BranchLedger Int) (start : Int) : Nat → Option Int
  | 0 => some start
  | n + 1 => (ledger.reach start n).bind fun id => (ledger.get? id).map Branch.connected

/-- The branches on the first so many links, in order. -/
def Lists (ledger : BranchLedger Int) (start : Int) (n : Nat) (ids : List Int) : Prop :=
  ids.map some = (List.range n).map (ledger.reach start)

/-- So many links lead to a branch, through branches other than the root, none of them twice. -/
structure Roams (ledger : BranchLedger Int) (start : Int) (n : Nat) (id : Int) : Prop where
  leads : ledger.reach start n = some id
  apart : ∀ m < n, ledger.reach start m ≠ some 0
  once : ∀ m < n, ∀ k < m, ledger.reach start k ≠ ledger.reach start m

/-- The first branch to come twice along the links is this one, before any unknown one and before
the root. -/
def Revisits (ledger : BranchLedger Int) (start id : Int) : Prop :=
  id ≠ 0 ∧ ∃ n, ledger.Roams start n id ∧ ∃ m < n, ledger.reach start m = some id

/-- The links lead to this branch, which is unknown, before any branch comes twice and before the
root. -/
def Strays (ledger : BranchLedger Int) (start id : Int) : Prop :=
  id ≠ 0 ∧ ledger.get? id = none ∧ ∃ n, ledger.Roams start n id

inductive Ends (ledger : BranchLedger Int) (start : Int) : Except Fault (List Int) → Prop
  | root {n : Nat} {ids : List Int} (roams : ledger.Roams start n 0)
      (lists : ledger.Lists start (n + 1) ids) : Ends ledger start (.ok ids)
  | cycle {id : Int} (revisits : ledger.Revisits start id) :
      Ends ledger start (refuse (.branchCycle (store start) (store id)))
  | unknown {id : Int} (strays : ledger.Strays start id) :
      Ends ledger start (refuse (.unknownBranch (store id)))

variable {ledger : BranchLedger Int} {start id : Int} {n : Nat} {ids : List Int}

theorem reach_succ (reached : ledger.reach start n = some id) :
    ledger.reach start (n + 1) = (ledger.get? id).map Branch.connected := by
  rw [reach, reached]
  rfl

theorem reach_add {k m : Nat} (same : ledger.reach start k = ledger.reach start m) (more : Nat) :
    ledger.reach start (k + more) = ledger.reach start (m + more) := by
  induction more with
  | zero => exact same
  | succ more ih => rw [← Nat.add_assoc, ← Nat.add_assoc, reach, reach, ih]

theorem reach_isSome (reached : (ledger.reach start n).isSome) {m : Nat} (before : m ≤ n) :
    (ledger.reach start m).isSome := by
  induction n with
  | zero =>
    rw [Nat.le_zero.mp before]
    exact reached
  | succ n ih =>
    rcases Nat.le_succ_iff.mp before with earlier | rfl
    · apply ih _ earlier
      rw [reach] at reached
      exact Option.isSome_of_isSome_bind reached
    · exact reached

theorem known_of_reach_succ (reached : ledger.reach start n = some id)
    (further : (ledger.reach start (n + 1)).isSome) : ∃ branch, ledger.get? id = some branch := by
  rw [reach_succ reached, Option.isSome_map] at further
  exact Option.isSome_iff_exists.mp further

section Lists

theorem lists_length (lists : ledger.Lists start n ids) : ids.length = n := by
  have size := congrArg List.length lists
  rwa [List.length_map, List.length_map, List.length_range] at size

theorem lists_snoc (lists : ledger.Lists start n ids) (reached : ledger.reach start n = some id) :
    ledger.Lists start (n + 1) (ids ++ [id]) := by
  simp only [Lists] at lists
  simp only [Lists, List.map_append, List.range_succ, lists, List.map_cons, List.map_nil, reached]

theorem exists_lists (reached : (ledger.reach start n).isSome) :
    ∃ ids, ledger.Lists start (n + 1) ids := by
  induction n with
  | zero => exact ⟨[start], rfl⟩
  | succ n ih =>
    obtain ⟨ids, lists⟩ := ih (reach_isSome reached (Nat.le_succ n))
    obtain ⟨id, last⟩ := Option.isSome_iff_exists.mp reached
    exact ⟨ids ++ [id], lists_snoc lists last⟩

theorem mem_lists (lists : ledger.Lists start n ids) :
    id ∈ ids ↔ ∃ m < n, ledger.reach start m = some id := by
  calc id ∈ ids ↔ some id ∈ ids.map some := by simp only [List.mem_map, Option.some.injEq,
        exists_eq_right]
    _ ↔ ∃ m < n, ledger.reach start m = some id := by
      rw [lists]
      simp only [List.mem_map, List.mem_range]

theorem lists_unique {ids' : List Int} (lists : ledger.Lists start n ids)
    (lists' : ledger.Lists start n ids') : ids = ids' :=
  List.map_injective_iff.mpr (Option.some_injective Int) (lists.trans lists'.symm)

theorem lists_nodup_iff (lists : ledger.Lists start n ids) :
    ids.Nodup ↔ ∀ m < n, ∀ k < m, ledger.reach start k ≠ ledger.reach start m := by
  rw [← List.nodup_map_iff (Option.some_injective Int), lists,
    List.nodup_map_iff_inj_on List.nodup_range]
  simp only [List.mem_range]
  constructor
  · intro injective m before k less same
    exact Nat.ne_of_lt less (injective k (Nat.lt_trans less before) m before same)
  · intro once k before m before' same
    by_contra differ
    rcases Nat.lt_or_gt_of_ne differ with less | more
    · exact once m before' k less same
    · exact once k before m more same.symm

/-- Branches that are known, are not the root and come once are fewer than the ledger has. -/
theorem Roams.lt_length (roams : ledger.Roams start n id) (lists : ledger.Lists start n ids)
    (rooted : 0 < ledger.records.length) : n < ledger.records.length := by
  have among : ids ⊆ (List.range (ledger.records.length - 1)).map fun i : Nat => (i : Int) + 1 := by
    intro i member
    obtain ⟨m, before, reached⟩ := (mem_lists lists).mp member
    have further : (ledger.reach start (m + 1)).isSome :=
      reach_isSome (roams.leads ▸ rfl) before
    obtain ⟨branch, known⟩ := known_of_reach_succ reached further
    have range := get?_isSome_iff.mp (Option.isSome_iff_exists.mpr ⟨branch, known⟩)
    have other : i ≠ 0 := fun top => roams.apart m before (top ▸ reached)
    exact List.mem_map.mpr ⟨i.toNat - 1, List.mem_range.mpr (by omega), by omega⟩
  have few := (List.subperm_of_subset ((lists_nodup_iff lists).mpr roams.once) among).length_le
  rw [List.length_map, List.length_range, lists_length lists] at few
  omega

end Lists

section Walk

theorem roams_zero (ledger : BranchLedger Int) (start : Int) : ledger.Roams start 0 start :=
  ⟨rfl, by simp, by simp⟩

theorem Roams.succ (roams : ledger.Roams start n id) (lists : ledger.Lists start n ids)
    (other : id ≠ 0) (unseen : id ∉ ids) {branch : Branch Int}
    (known : ledger.get? id = some branch) : ledger.Roams start (n + 1) branch.connected := by
  refine ⟨by rw [reach_succ roams.leads, known, Option.map_some], ?_, ?_⟩
  · intro m before
    rcases Nat.lt_succ_iff_lt_or_eq.mp before with earlier | rfl
    · exact roams.apart m earlier
    · rw [roams.leads]
      exact fun top => other (Option.some.inj top)
  · intro m before k less
    rcases Nat.lt_succ_iff_lt_or_eq.mp before with earlier | rfl
    · exact roams.once m earlier k less
    · rw [roams.leads]
      exact fun again => unseen ((mem_lists lists).mpr ⟨k, less, again⟩)

/-- A walk that has visited the branches on the first links ends as links may end, given a step for
every branch that is left. -/
theorem follow_ends (rooted : 0 < ledger.records.length) {steps : Nat}
    (roams : ledger.Roams start n id) (lists : ledger.Lists start n ids)
    (left : n + steps = ledger.records.length) :
    ledger.Ends start ((follow ledger.link start steps ids.reverse id).map (ids ++ ·)) := by
  induction steps generalizing n id ids with
  | zero =>
    have few := roams.lt_length lists rooted
    omega
  | succ steps ih =>
    rw [follow]
    by_cases top : id = 0
    · subst top
      simp only [toInt_int, ok_bind, if_true, pure_eq_ok, map_ok, ofInt_int]
      exact .root roams (lists_snoc lists roams.leads)
    by_cases seen : id ∈ ids
    · simp only [toInt_int, ok_bind, top, if_false, List.mem_reverse, seen, if_true]
      exact .cycle ⟨top, n, roams, (mem_lists lists).mp seen⟩
    simp only [toInt_int, ok_bind, top, if_false, List.mem_reverse, seen, link, get_int]
    cases known : ledger.get? id with
    | none => exact .unknown ⟨top, known, n, roams⟩
    | some branch =>
      have later := ih (roams.succ lists top seen known) (lists_snoc lists roams.leads) (by omega)
      rw [List.reverse_append, List.reverse_singleton, List.singleton_append] at later
      simp only [ok_bind, pure_eq_ok]
      cases rest : follow ledger.link start steps (id :: ids.reverse) branch.connected with
      | error fault =>
        rw [rest] at later
        exact later
      | ok rest' =>
        rw [rest, map_ok, List.append_assoc, List.singleton_append] at later
        exact later

theorem chain_ends (rooted : 0 < ledger.records.length) (start : Int) :
    ledger.Ends start (ledger.chain start) := by
  have nothing : ledger.Lists start 0 [] := rfl
  have ends := follow_ends rooted (roams_zero ledger start) nothing (Nat.zero_add _)
  rw [List.reverse_nil] at ends
  rw [chain]
  cases walked : follow ledger.link start ledger.records.length [] start with
  | error fault =>
    rw [walked] at ends
    exact ends
  | ok ids =>
    rw [walked] at ends
    exact ends

end Walk

section Uniqueness

def Last (ledger : BranchLedger Int) (start : Int) (n : Nat) (id : Int) : Prop :=
  ledger.Roams start n id ∧
    (id = 0 ∨ (∃ m < n, ledger.reach start m = some id) ∨ ledger.get? id = none)

/-- No way that a walk may go leads past its end. -/
theorem Last.not_lt {n' : Nat} {id' : Int} (last : ledger.Last start n id)
    (roams : ledger.Roams start n' id') : ¬ n < n' := by
  intro before
  obtain ⟨here, ended⟩ := last
  rcases ended with rfl | ⟨m, earlier, again⟩ | unknown
  · exact roams.apart n before here.leads
  · exact roams.once n before m earlier (again.trans here.leads.symm)
  · have further : (ledger.reach start (n + 1)).isSome :=
      reach_isSome (roams.leads ▸ rfl) before
    rw [reach_succ here.leads, unknown] at further
    exact absurd further (by simp)

theorem Last.unique {n' : Nat} {id' : Int} (last : ledger.Last start n id)
    (last' : ledger.Last start n' id') : n = n' ∧ id = id' := by
  have same : n = n' :=
    Nat.le_antisymm (Nat.le_of_not_lt (last'.not_lt last.1))
      (Nat.le_of_not_lt (last.not_lt last'.1))
  subst same
  exact ⟨rfl, Option.some.inj (last.1.leads.symm.trans last'.1.leads)⟩

theorem Revisits.last (revisits : ledger.Revisits start id) : ∃ n, ledger.Last start n id := by
  obtain ⟨-, n, roams, again⟩ := revisits
  exact ⟨n, roams, .inr (.inl again)⟩

theorem Strays.last (strays : ledger.Strays start id) : ∃ n, ledger.Last start n id := by
  obtain ⟨-, unknown, n, roams⟩ := strays
  exact ⟨n, roams, .inr (.inr unknown)⟩

theorem Roams.last (roams : ledger.Roams start n 0) : ledger.Last start n 0 :=
  ⟨roams, .inl rfl⟩

theorem Revisits.not_strays (revisits : ledger.Revisits start id) : ¬ ledger.Strays start id := by
  obtain ⟨-, n, roams, m, before, again⟩ := revisits
  intro strays
  have further : (ledger.reach start (m + 1)).isSome := reach_isSome (roams.leads ▸ rfl) before
  obtain ⟨branch, known⟩ := known_of_reach_succ again further
  rw [strays.2.1] at known
  cases known

theorem Ends.unique {result result' : Except Fault (List Int)} (ends : ledger.Ends start result)
    (ends' : ledger.Ends start result') : result = result' := by
  cases ends with
  | root roams lists =>
    cases ends' with
    | root roams' lists' =>
      obtain ⟨rfl, -⟩ := roams.last.unique roams'.last
      rw [lists_unique lists lists']
    | cycle revisits =>
      obtain ⟨_, last⟩ := revisits.last
      exact absurd (roams.last.unique last).2.symm revisits.1
    | unknown strays =>
      obtain ⟨_, last⟩ := strays.last
      exact absurd (roams.last.unique last).2.symm strays.1
  | cycle revisits =>
    obtain ⟨_, last⟩ := revisits.last
    cases ends' with
    | root roams' _ => exact absurd (last.unique roams'.last).2 revisits.1
    | cycle revisits' =>
      obtain ⟨_, last'⟩ := revisits'.last
      rw [(last.unique last').2]
    | unknown strays =>
      obtain ⟨_, last'⟩ := strays.last
      exact absurd ((last.unique last').2 ▸ strays) revisits.not_strays
  | unknown strays =>
    obtain ⟨_, last⟩ := strays.last
    cases ends' with
    | root roams' _ => exact absurd (last.unique roams'.last).2 strays.1
    | cycle revisits =>
      obtain ⟨_, last'⟩ := revisits.last
      exact absurd ((last.unique last').2 ▸ strays) revisits.not_strays
    | unknown strays' =>
      obtain ⟨_, last'⟩ := strays'.last
      rw [(last.unique last').2]

theorem chain_eq_iff_ends (rooted : 0 < ledger.records.length)
    {result : Except Fault (List Int)} :
    ledger.chain start = result ↔ ledger.Ends start result := by
  constructor
  · rintro rfl
    exact chain_ends rooted start
  · exact (chain_ends rooted start).unique

end Uniqueness

section Ancestors

/-- The shortest way to the root visits no branch twice. -/
theorem roams_root (reached : ledger.reach start n = some 0) :
    ∃ m, ledger.Roams start m 0 := by
  induction n using Nat.strong_induction_on with
  | _ n ih =>
    by_cases earlier : ∃ m < n, ledger.reach start m = some 0
    · obtain ⟨m, before, reached'⟩ := earlier
      exact ih m before reached'
    have apart : ∀ m < n, ledger.reach start m ≠ some 0 :=
      fun m before top => earlier ⟨m, before, top⟩
    refine ⟨n, reached, apart, ?_⟩
    -- Going round between two visits could be left out, and the root would come sooner.
    intro m before k less same
    apply apart (k + (n - m)) (by omega)
    rw [reach_add same, Nat.add_sub_cancel' (Nat.le_of_lt before), reached]

def ownsTicks (ledger : BranchLedger Int) (id : Int) : Bool :=
  (ledger.get? id).any fun branch => !branch.isLiquidated && decide (0 < branch.ownedTicks)

theorem firstOpen_eq_find (known : ∀ id ∈ ids, (ledger.get? id).isSome) :
    ledger.firstOpen ids = .ok (ids.find? ledger.ownsTicks) := by
  induction ids with
  | nil => rfl
  | cons first rest ih =>
    obtain ⟨branch, found⟩ := Option.isSome_iff_exists.mp (known first List.mem_cons_self)
    have later := ih fun id member => known id (List.mem_cons_of_mem _ member)
    rw [firstOpen, get_eq_ok_iff.mpr found, ok_bind, List.find?_cons]
    simp only [ownsTicks, found, Option.any_some, Branch.isOpen]
    cases branch.isLiquidated <;> cases owns : decide (0 < branch.ownedTicks) <;>
      simp [owns, later]

theorem Roams.init (roams : ledger.Roams start n 0) (lists : ledger.Lists start (n + 1) ids) :
    ∃ before, ids = before ++ [0] ∧ ∀ id ∈ before, id ≠ 0 ∧ (ledger.get? id).isSome := by
  have first : ledger.Lists start n (ids.take n) := by
    rw [Lists, List.map_take, lists, ← List.map_take, List.take_range]
    simp
  refine ⟨ids.take n, lists_unique lists (lists_snoc first roams.leads), ?_⟩
  intro id member
  obtain ⟨m, before, reached⟩ := (mem_lists first).mp member
  have further : (ledger.reach start (m + 1)).isSome := reach_isSome (roams.leads ▸ rfl) before
  obtain ⟨branch, known⟩ := known_of_reach_succ reached further
  exact ⟨fun top => roams.apart m before (top ▸ reached), known ▸ rfl⟩

theorem find?_root (ledger : BranchLedger Int) (before : List Int)
    (others : ∀ id ∈ before, id ≠ 0) :
    (before ++ [0]).find? (fun id => decide (id ≠ 0) && ledger.ownsTicks id) =
      before.find? ledger.ownsTicks := by
  induction before with
  | nil => rfl
  | cons first rest ih =>
    have later := ih fun id member => others id (List.mem_cons_of_mem _ member)
    have other := others first List.mem_cons_self
    rw [List.cons_append, List.find?_cons, List.find?_cons, later]
    simp only [ne_eq, other, not_false_iff, decide_true, Bool.true_and]

theorem Roams.ancestor (roams : ledger.Roams start n 0) (lists : ledger.Lists start (n + 1) ids)
    (chained : ledger.chain start = .ok ids) :
    ledger.nearestActiveAncestor start =
      .ok (ids.tail.find? fun id => decide (id ≠ 0) && ledger.ownsTicks id) := by
  obtain ⟨before, rfl, known⟩ := roams.init lists
  rw [nearestActiveAncestor, chained, ok_bind]
  cases before with
  | nil => rfl
  | cons first rest =>
    have others := fun id member => known id (List.mem_cons_of_mem first member)
    rw [List.cons_append, List.tail_cons, List.dropLast_concat,
      find?_root ledger rest fun id member => (others id member).1]
    exact firstOpen_eq_find fun id member => (others id member).2

end Ancestors

section Chain

variable (rooted : 0 < ledger.records.length)

include rooted

theorem chain_eq_ok_iff_lists : ledger.chain start = .ok ids ↔
    ids.Nodup ∧ ∃ n, ledger.Lists start (n + 1) ids ∧ ledger.reach start n = some 0 := by
  rw [chain_eq_iff_ends rooted]
  constructor
  · intro ends
    cases ends with
    | @root n _ roams lists =>
      refine ⟨(lists_nodup_iff lists).mpr ?_, n, lists, roams.leads⟩
      intro m before k less
      rcases Nat.lt_succ_iff_lt_or_eq.mp before with earlier | rfl
      · exact roams.once m earlier k less
      · rw [roams.leads]
        exact roams.apart k less
  · rintro ⟨distinct, n, lists, reached⟩
    have once := (lists_nodup_iff lists).mp distinct
    refine .root ⟨reached, ?_, fun m before => once m (Nat.lt_succ_of_lt before)⟩ lists
    intro m before
    rw [← reached]
    exact once n (Nat.lt_succ_self n) m before

theorem exists_chain_iff :
    (∃ ids, ledger.chain start = .ok ids) ↔ ∃ n, ledger.reach start n = some 0 := by
  constructor
  · rintro ⟨ids, chained⟩
    obtain ⟨-, n, -, reached⟩ := (chain_eq_ok_iff_lists rooted).mp chained
    exact ⟨n, reached⟩
  · rintro ⟨n, reached⟩
    obtain ⟨m, roams⟩ := roams_root reached
    obtain ⟨ids, lists⟩ := exists_lists (roams.leads ▸ rfl : (ledger.reach start m).isSome)
    exact ⟨ids, (chain_eq_iff_ends rooted).mpr (.root roams lists)⟩

theorem chain_error_iff {fault : Fault} :
    ledger.chain start = .error fault ↔ ∃ id : Int,
      (ledger.Revisits start id ∧
        (Fault.branchCycle (store start) (store id)).raised = fault) ∨
      (ledger.Strays start id ∧ (Fault.unknownBranch (store id)).raised = fault) := by
  rw [chain_eq_iff_ends rooted]
  constructor
  · intro ends
    generalize failed : Except.error fault = result at ends
    cases ends with
    | root => cases failed
    | @cycle id revisits =>
      cases failed
      exact ⟨id, .inl ⟨revisits, rfl⟩⟩
    | @unknown id strays =>
      cases failed
      exact ⟨id, .inr ⟨strays, rfl⟩⟩
  · rintro ⟨id, ⟨revisits, rfl⟩ | ⟨strays, rfl⟩⟩
    · exact .cycle revisits
    · exact .unknown strays

theorem chain_cycle_iff :
    ledger.chain start = .error (.branchCycle (store start) (store id)) ↔
      ledger.Revisits start id ∧ isWritable start ∧ isWritable id := by
  simp [chain_error_iff rooted, Fault.raised_eq_iff, Fault.integers, Document.integers]

theorem chain_unknown_iff :
    ledger.chain start = .error (.unknownBranch (store id)) ↔
      ledger.Strays start id ∧ isWritable id := by
  simp [chain_error_iff rooted, Fault.raised_eq_iff, Fault.integers, Document.integers]

theorem chain_tooManyDigits_iff :
    ledger.chain start = .error .tooManyDigits ↔ ∃ id,
      (ledger.Revisits start id ∧ (isWritable start = false ∨ isWritable id = false)) ∨
      (ledger.Strays start id ∧ isWritable id = false) := by
  simp [chain_error_iff rooted, Fault.raised_eq_tooManyDigits_iff, Fault.integers, Document.integers]

theorem chain_error {fault : Fault} (failed : ledger.chain start = .error fault) :
    ∃ id : Int, fault = .branchCycle (store start) (store id) ∨
      fault = .unknownBranch (store id) ∨ fault = .tooManyDigits := by
  obtain ⟨id, ⟨-, rfl⟩ | ⟨-, rfl⟩⟩ := (chain_error_iff rooted).mp failed
  · exact ⟨id, (Fault.raised_eq_or _).elim .inl fun long => .inr (.inr long)⟩
  · exact ⟨id, .inr (Fault.raised_eq_or _)⟩

theorem ancestor_of_chain (chained : ledger.chain start = .ok ids) :
    ledger.nearestActiveAncestor start =
      .ok (ids.tail.find? fun id => decide (id ≠ 0) && ledger.ownsTicks id) := by
  cases (chain_eq_iff_ends rooted).mp chained with
  | root roams lists => exact roams.ancestor lists chained

end Chain

theorem ancestor_error {fault : Fault} (failed : ledger.chain start = .error fault) :
    ledger.nearestActiveAncestor start = .error fault := by
  rw [nearestActiveAncestor, failed]
  rfl

theorem ofList_length (records : List (Branch Int)) : 0 < (ofList records).records.length := by
  cases records <;> simp [ofList, root]

/-- Any branches at all, linked in any way: the chain of a branch is the list of all branches on the
links down to the root, none of them twice, just when the links lead to the root. Otherwise a branch
other than the root comes twice before that, or an unknown one is reached, and the walk is refused
for it; only where the branches to be named have more digits than can be written does the refusal
itself fail. The nearest ancestor is then the first branch after the start on that list, the root
apart, that is not liquidated and owns ticks. -/
theorem ofList_chain (records : List (Branch Int)) (start : Int) :
    ((∃ ids, (ofList records).chain start = .ok ids) ↔
      ∃ n, (ofList records).reach start n = some 0) ∧
    (∀ ids, (ofList records).chain start = .ok ids ↔ ids.Nodup ∧
      ∃ n, (ofList records).Lists start (n + 1) ids ∧ (ofList records).reach start n = some 0) ∧
    (∀ id : Int, (ofList records).chain start = .error (.branchCycle (store start) (store id)) ↔
      (ofList records).Revisits start id ∧ isWritable start ∧ isWritable id) ∧
    (∀ id : Int, (ofList records).chain start = .error (.unknownBranch (store id)) ↔
      (ofList records).Strays start id ∧ isWritable id) ∧
    ((ofList records).chain start = .error .tooManyDigits ↔ ∃ id,
      ((ofList records).Revisits start id ∧
        (isWritable start = false ∨ isWritable id = false)) ∨
      ((ofList records).Strays start id ∧ isWritable id = false)) ∧
    (∀ fault, (ofList records).chain start = .error fault → ∃ id : Int,
      fault = .branchCycle (store start) (store id) ∨ fault = .unknownBranch (store id) ∨
      fault = .tooManyDigits) ∧
    (∀ ids, (ofList records).chain start = .ok ids →
      (ofList records).nearestActiveAncestor start =
        .ok (ids.tail.find? fun id => decide (id ≠ 0) && (ofList records).ownsTicks id)) ∧
    (∀ fault, (ofList records).chain start = .error fault →
      (ofList records).nearestActiveAncestor start = .error fault) := by
  have rooted := ofList_length records
  exact ⟨exists_chain_iff rooted, fun _ => chain_eq_ok_iff_lists rooted,
    fun _ => chain_cycle_iff rooted, fun _ => chain_unknown_iff rooted,
    chain_tooManyDigits_iff rooted, fun _ => chain_error rooted,
    fun _ => ancestor_of_chain rooted, fun _ => ancestor_error⟩

/-- An unknown branch is reached, and the refusal cannot name it. -/
theorem chain_unnamed :
    (ofList []).Strays ((10 ^ 5000 : Nat) : Int) ((10 ^ 5000 : Nat) : Int) ∧
      (ofList []).chain ((10 ^ 5000 : Nat) : Int) = .error .tooManyDigits := by
  refine ⟨⟨by decide +kernel, by decide +kernel, 0, roams_zero _ _⟩, ?_⟩
  decide +kernel

/-- From 1 the links lead to 2 and then round and round between 2 and 3. -/
example : (ofList [.fresh 0 0, .fresh 1 2, .fresh 2 3, .fresh 3 2]).chain (1 : Int) =
    .error (.branchCycle (.number 1) (.number 2)) := by
  decide +kernel

end BranchLedger

end TickVault
