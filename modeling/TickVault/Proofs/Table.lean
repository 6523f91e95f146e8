import TickVault.Table
import Mathlib.Tactic

namespace TickVault

namespace Table

variable {κ α : Type}

def Distinct (table : Table κ α) : Prop :=
  table.keys.Nodup

def total (table : Table κ α) (weight : α → Int) : Int :=
  (table.values.map weight).sum

theorem distinct_empty : (empty : Table κ α).Distinct := List.nodup_nil

theorem Distinct.entries_nodup {table : Table κ α} (distinct : table.Distinct) :
    table.entries.Nodup :=
  List.Nodup.of_map Prod.fst distinct

theorem sortedBy_perm (le : κ → κ → Bool) (table : Table κ α) :
    (table.sortedBy le).Perm table.values :=
  (List.mergeSort_perm _ _).map Prod.snd

@[simp] theorem total_empty (weight : α → Int) : (empty : Table κ α).total weight = 0 := rfl

theorem total_congr {table : Table κ α} {weight weight' : α → Int}
    (same : ∀ a ∈ table.values, weight a = weight' a) :
    table.total weight = table.total weight' := by
  unfold total
  rw [List.map_congr_left same]

theorem total_add (table : Table κ α) (weight weight' : α → Int) :
    table.total (fun a => weight a + weight' a) = table.total weight + table.total weight' := by
  simp [total, List.sum_map_add]

theorem total_le_total {table : Table κ α} {weight weight' : α → Int}
    (bound : ∀ a ∈ table.values, weight a ≤ weight' a) :
    table.total weight ≤ table.total weight' :=
  List.sum_le_sum bound

theorem total_nonneg {table : Table κ α} {weight : α → Int}
    (bound : ∀ a ∈ table.values, 0 ≤ weight a) : 0 ≤ table.total weight :=
  List.sum_nonneg (by simpa [List.forall_mem_map] using bound)

theorem total_eq_zero {table : Table κ α} {weight : α → Int}
    (idle : ∀ a ∈ table.values, weight a = 0) : table.total weight = 0 :=
  List.sum_eq_zero (by simpa [List.forall_mem_map] using idle)

theorem total_indicator (table : Table κ α) (holds : α → Prop) [DecidablePred holds] :
    (table.total fun a => if holds a then 1 else 0) = table.values.countP fun a => holds a := by
  simp only [total]
  induction table.values with
  | nil => rfl
  | cons a rest ih =>
    by_cases here : holds a
    · simp [here, ih, add_comm]
    · simp [here, ih]

theorem total_comm {ι β : Type} (table : Table κ α) (other : Table ι β) (weight : α → β → Int) :
    (table.total fun a => other.total (weight a)) =
      other.total fun b => table.total fun a => weight a b := by
  obtain ⟨entries⟩ := table
  induction entries with
  | nil => exact (total_eq_zero fun _ _ => rfl).symm
  | cons entry rest ih =>
    have split := total_add other (weight entry.2) fun b =>
      (⟨rest⟩ : Table κ α).total fun a => weight a b
    have head : (⟨entry :: rest⟩ : Table κ α).total (fun a => other.total (weight a)) =
      other.total (weight entry.2) +
        (⟨rest⟩ : Table κ α).total fun a => other.total (weight a) := rfl
    rw [head, ih, ← split]
    rfl

variable [DecidableEq κ]

theorem mem_entries_of_find {key : κ} {a : α} {entries : List (κ × α)}
    (found : find key entries = some a) : (key, a) ∈ entries := by
  induction entries with
  | nil => cases found
  | cons entry rest ih =>
    obtain ⟨k, b⟩ := entry
    simp only [find] at found
    split at found
    · rename_i same
      cases found
      simp [same]
    · exact List.mem_cons_of_mem _ (ih found)

theorem find_of_mem_entries {key : κ} {a : α} {entries : List (κ × α)}
    (distinct : (entries.map Prod.fst).Nodup) (member : (key, a) ∈ entries) :
    find key entries = some a := by
  induction entries with
  | nil => cases member
  | cons entry rest ih =>
    obtain ⟨k, b⟩ := entry
    simp only [List.map_cons, List.nodup_cons] at distinct
    rcases List.mem_cons.mp member with same | later
    · cases same
      simp [find]
    · have other : k ≠ key := by
        rintro rfl
        exact distinct.1 (List.mem_map.mpr ⟨_, later, rfl⟩)
      simp [find, other, ih distinct.2 later]

theorem get?_eq_some_iff {table : Table κ α} (distinct : table.Distinct) {key : κ} {a : α} :
    table.get? key = some a ↔ (key, a) ∈ table.entries :=
  ⟨mem_entries_of_find, find_of_mem_entries distinct⟩

theorem mem_values_iff {table : Table κ α} (distinct : table.Distinct) {a : α} :
    a ∈ table.values ↔ ∃ key, table.get? key = some a := by
  simp only [values, List.mem_map, Prod.exists, exists_eq_right, get?_eq_some_iff distinct]

theorem mem_put {key : κ} {a : α} {entry : κ × α} {entries : List (κ × α)}
    (member : entry ∈ put key a entries) : entry = (key, a) ∨ entry ∈ entries := by
  induction entries with
  | nil => exact .inl (List.mem_singleton.mp member)
  | cons head rest ih =>
    obtain ⟨k, b⟩ := head
    simp only [put] at member
    split at member
    · rename_i same
      subst same
      rcases List.mem_cons.mp member with here | later
      · exact .inl here
      · exact .inr (List.mem_cons_of_mem _ later)
    · rcases List.mem_cons.mp member with here | later
      · exact .inr (here ▸ List.mem_cons_self)
      · exact (ih later).imp_right (List.mem_cons_of_mem _)

theorem Distinct.insert {table : Table κ α} (distinct : table.Distinct) (key : κ) (a : α) :
    (table.insert key a).Distinct := by
  obtain ⟨entries⟩ := table
  change ((put key a entries).map Prod.fst).Nodup
  change (entries.map Prod.fst).Nodup at distinct
  induction entries with
  | nil => simp [put]
  | cons entry rest ih =>
    obtain ⟨k, b⟩ := entry
    simp only [List.map_cons, List.nodup_cons] at distinct
    simp only [put]
    split
    · simpa using distinct
    · rename_i other
      simp only [List.map_cons, List.nodup_cons]
      refine ⟨?_, ih distinct.2⟩
      intro known
      obtain ⟨entry, member, same⟩ := List.mem_map.mp known
      rcases mem_put member with rfl | old
      · exact other same.symm
      · exact distinct.1 (List.mem_map.mpr ⟨entry, old, same⟩)

theorem insert_insert (table : Table κ α) (key : κ) (a b : α) :
    (table.insert key a).insert key b = table.insert key b := by
  obtain ⟨entries⟩ := table
  simp only [insert, mk.injEq]
  induction entries with
  | nil => simp [put]
  | cons entry rest ih =>
    obtain ⟨k, c⟩ := entry
    by_cases same : k = key <;> simp [put, same, ih]

theorem insert_of_get? {table : Table κ α} {key : κ} {a : α} (known : table.get? key = some a) :
    table.insert key a = table := by
  obtain ⟨entries⟩ := table
  simp only [insert, mk.injEq]
  simp only [get?] at known
  induction entries with
  | nil => cases known
  | cons entry rest ih =>
    obtain ⟨k, b⟩ := entry
    by_cases same : k = key
    · simp_all [put, find]
    · simp_all [put, find]

theorem total_insert (table : Table κ α) (weight : α → Int) (key : κ) (a : α) :
    (table.insert key a).total weight =
      table.total weight - ((table.get? key).map weight).getD 0 + weight a := by
  obtain ⟨entries⟩ := table
  simp only [total, values, insert, get?]
  induction entries with
  | nil => simp [put, find]
  | cons entry rest ih =>
    obtain ⟨k, b⟩ := entry
    by_cases same : k = key
    · simp only [put, find, same, if_true, List.map_cons, List.sum_cons, Option.map_some,
        Option.getD_some]
      ring
    · simp only [put, find, same, if_false, List.map_cons, List.sum_cons, ih]
      ring

theorem weight_le_total {table : Table κ α} {key : κ} {a : α} {weight : α → Int}
    (known : table.get? key = some a) (bound : ∀ b ∈ table.values, 0 ≤ weight b) :
    weight a ≤ table.total weight := by
  apply List.single_le_sum
  · intro w member
    obtain ⟨b, here, rfl⟩ := List.mem_map.mp member
    exact bound b here
  · apply List.mem_map_of_mem
    exact List.mem_map_of_mem (f := Prod.snd) (mem_entries_of_find known)

theorem total_of_single {table : Table κ α} (distinct : table.Distinct) {key : κ} {a : α}
    {weight : α → Int} (known : table.get? key = some a)
    (idle : ∀ other b, other ≠ key → table.get? other = some b → weight b = 0) :
    table.total weight = weight a := by
  replace idle (other : κ) (b : α) (member : (other, b) ∈ table.entries) (different : other ≠ key) :
      weight b = 0 := idle other b different ((get?_eq_some_iff distinct).mpr member)
  obtain ⟨entries⟩ := table
  induction entries with
  | nil => cases known
  | cons entry rest ih =>
    obtain ⟨k, b⟩ := entry
    obtain ⟨new, distinct⟩ := List.nodup_cons.mp distinct
    change weight b + (⟨rest⟩ : Table κ α).total weight = weight a
    simp only [get?, find] at known
    split at known
    · rename_i same
      cases known
      have nothing : (⟨rest⟩ : Table κ α).total weight = 0 := by
        apply total_eq_zero
        intro c member
        obtain ⟨⟨other, _⟩, here, rfl⟩ := List.mem_map.mp member
        apply idle other _ (List.mem_cons_of_mem _ here)
        intro again
        exact new (List.mem_map.mpr ⟨_, here, again.trans same.symm⟩)
      rw [nothing, Int.add_zero]
    · rename_i different
      rw [idle k b List.mem_cons_self different, Int.zero_add]
      exact ih distinct known fun other c member => idle other c (List.mem_cons_of_mem _ member)

/-- Two tables with the same record under every key, whatever order they were put in. -/
structure Same (table other : Table κ α) : Prop where
  distinct : table.Distinct
  distinct' : other.Distinct
  get? : ∀ key, other.get? key = table.get? key

variable {table other : Table κ α}

theorem Distinct.same (distinct : table.Distinct) : table.Same table :=
  ⟨distinct, distinct, fun _ => rfl⟩

theorem Same.insert (same : table.Same other) (key : κ) (a : α) :
    (table.insert key a).Same (other.insert key a) where
  distinct := same.distinct.insert key a
  distinct' := same.distinct'.insert key a
  get? k := by rw [get?_insert, get?_insert, same.get?]

theorem Same.contains (same : table.Same other) (key : κ) :
    other.contains key = table.contains key := by
  simp only [Table.contains, same.get?]

theorem Same.perm (same : table.Same other) : table.entries.Perm other.entries := by
  apply (List.perm_ext_iff_of_nodup same.distinct.entries_nodup same.distinct'.entries_nodup).mpr
  rintro ⟨key, a⟩
  rw [← get?_eq_some_iff same.distinct, ← get?_eq_some_iff same.distinct', same.get?]

theorem Same.total (same : table.Same other) (weight : α → Int) :
    other.total weight = table.total weight :=
  ((same.perm.map Prod.snd).map weight).symm.sum_eq

/-- Sorted by a total order on keys, the records come in one order only. -/
theorem Same.sortedBy (same : table.Same other) (le : κ → κ → Bool)
    (trans : ∀ a b c, le a b → le b c → le a c) (total : ∀ a b, le a b || le b a)
    (antisymm : ∀ a b, le a b → le b a → a = b) : other.sortedBy le = table.sortedBy le := by
  have sorted (entries : List (κ × α)) :
      (entries.mergeSort fun a b => le a.1 b.1).Pairwise fun a b => le a.1 b.1 :=
    List.pairwise_mergeSort (fun a b c => trans a.1 b.1 c.1) (fun a b => total a.1 b.1) entries
  have perm : (table.entries.mergeSort fun a b => le a.1 b.1).Perm
      (other.entries.mergeSort fun a b => le a.1 b.1) :=
    (List.mergeSort_perm _ _).trans (same.perm.trans (List.mergeSort_perm _ _).symm)
  have key_inj : ∀ a ∈ table.entries, ∀ b ∈ other.entries, a.1 = b.1 → a = b := by
    rintro ⟨key, a⟩ here ⟨_, b⟩ there rfl
    have found := (get?_eq_some_iff same.distinct).mpr here
    have found' := (get?_eq_some_iff same.distinct').mpr there
    rw [same.get?, found] at found'
    rw [Option.some.inj found']
  unfold Table.sortedBy
  refine congrArg _ (perm.eq_of_pairwise ?_ (sorted _) (sorted _)).symm
  intro a b here there first second
  apply key_inj a (List.mem_mergeSort.mp here) b (List.mem_mergeSort.mp there)
  exact antisymm a.1 b.1 first second

def insertAll (key : α → κ) (table : Table κ α) (records : List α) : Table κ α :=
  records.foldl (fun table a => table.insert (key a) a) table

theorem Distinct.insertAll {key : α → κ} {records : List α} (distinct : table.Distinct) :
    (table.insertAll key records).Distinct := by
  induction records generalizing table with
  | nil => exact distinct
  | cons a rest ih => exact ih (distinct.insert (key a) a)

theorem put_of_find_none {k : κ} {a : α} {entries : List (κ × α)} (new : find k entries = none) :
    put k a entries = entries ++ [(k, a)] := by
  induction entries with
  | nil => rfl
  | cons entry rest ih =>
    obtain ⟨other, b⟩ := entry
    simp only [find] at new
    split at new
    · cases new
    · rename_i different
      simp [put, different, ih new]

theorem entries_insertAll {key : α → κ} {records : List α} (apart : (records.map key).Nodup)
    (new : ∀ a ∈ records, table.get? (key a) = none) :
    (table.insertAll key records).entries =
      table.entries ++ records.map fun a => (key a, a) := by
  induction records generalizing table with
  | nil => simp [insertAll]
  | cons a rest ih =>
    obtain ⟨once, apart⟩ := List.nodup_cons.mp apart
    change ((table.insert (key a) a).insertAll key rest).entries = _
    rw [ih apart]
    · change put (key a) a table.entries ++ _ = _
      rw [put_of_find_none (new a List.mem_cons_self)]
      simp
    · intro b member
      have different : key a ≠ key b := fun same => once (List.mem_map.mpr ⟨b, member, same.symm⟩)
      rw [get?_insert, if_neg different]
      exact new b (List.mem_cons_of_mem _ member)

theorem get?_insertAll_eq_some_iff {key : α → κ} {records : List α}
    (apart : (records.map key).Nodup) {k : κ} {a : α} :
    ((∅ : Table κ α).insertAll key records).get? k = some a ↔ a ∈ records ∧ key a = k := by
  have distinct : ((∅ : Table κ α).insertAll key records).Distinct := distinct_empty.insertAll
  rw [get?_eq_some_iff distinct, entries_insertAll apart fun _ _ => rfl]
  constructor
  · intro member
    obtain ⟨b, inside, same⟩ := List.mem_map.mp member
    cases same
    exact ⟨inside, rfl⟩
  · rintro ⟨inside, rfl⟩
    exact List.mem_map.mpr ⟨a, inside, rfl⟩

theorem values_insertAll {key : α → κ} {records : List α} (apart : (records.map key).Nodup) :
    ((∅ : Table κ α).insertAll key records).values = records := by
  rw [values, entries_insertAll apart fun _ _ => rfl]
  change List.map Prod.snd (records.map fun a => (key a, a)) = records
  rw [List.map_map]
  exact List.map_id' records

/-- The records of a table, put into an empty one in whatever order, give the same table. -/
theorem Distinct.same_insertAll {key : α → κ} {records : List α} (distinct : table.Distinct)
    (keyed : ∀ k a, table.get? k = some a → key a = k) (perm : records.Perm table.values) :
    table.Same ((∅ : Table κ α).insertAll key records) where
  distinct := distinct
  distinct' := distinct_empty.insertAll
  get? k := by
    have keys : table.values.map key = table.keys := by
      rw [values, keys, List.map_map]
      apply List.map_congr_left
      rintro ⟨k, a⟩ member
      exact keyed k a ((get?_eq_some_iff distinct).mpr member)
    have apart : (records.map key).Nodup := by
      rw [(perm.map key).nodup_iff, keys]
      exact distinct
    apply Option.ext
    intro a
    rw [get?_insertAll_eq_some_iff apart, perm.mem_iff, mem_values_iff distinct]
    constructor
    · rintro ⟨⟨other, known⟩, rfl⟩
      rw [keyed other a known]
      exact known
    · exact fun known => ⟨⟨k, known⟩, keyed k a known⟩

end Table

end TickVault
