import TickVault.Proofs.Storage.Twin
import TickVault.Load

namespace TickVault

namespace Document

theorem conform_record {fields : List (String × Document)} {sample : Document}
    {required : List String} (keys : fields.map Prod.fst = sample.keys)
    (present : ∀ key ∈ required, key ∈ sample.keys) :
    (record fields).conform sample required = .ok () := by
  apply ensure_of
  rw [keys]
  exact ⟨fun key member => member, present⟩

section Fields

variable {name key : String} {value : Document} {rest : List (String × Document)}

theorem field?_here : (record ((name, value) :: rest)).field? name = some value := by
  simp [field?, findField]

theorem field?_there (other : key ≠ name) :
    (record ((key, value) :: rest)).field? name = (record rest).field? name := by
  simp [field?, findField, other]

theorem field_of_field? {document found : Document} (known : document.field? name = some found) :
    document.field name = .ok found := by
  cases document with
  | record fields =>
    change findField name fields = some found at known
    simp [field, known]
  | _ => cases known

theorem rows_of_field? {document : Document} {items : List Document}
    (known : document.field? name = some (list items)) : document.rows name = .ok items := by
  rw [rows, field_of_field? known]
  rfl

end Fields

theorem toConfig_ofConfig (config : Config Int) : (ofConfig config).toConfig = .ok config := by
  have fits : (ofConfig config).conform (ofConfig (.usual : Config Int)) [] = .ok () :=
    conform_record rfl (by simp)
  simp only [toConfig, fits, ok_bind]
  simp only [valueD, optionD, fieldD, ofConfig]
  simp (disch := decide) only [field?_here, field?_there]
  obtain ⟨supplyMint, borrowMint, factor, threshold, maxLimit, fee, limit⟩ := config
  cases limit with
  | none => rfl
  | some limit => rfl

theorem toState_ofState {state : VaultState Int} (written : Written state.topmost) :
    (ofState state).toState = .ok state := by
  have fits : (ofState state).conform (ofState (.fresh (ofInt 0) : VaultState Int)) ["vault_id"] =
      .ok () := conform_record rfl (by simp [ofState, keys])
  simp only [toState, fits, ok_bind]
  simp only [valueD, tickD, fieldD, ofState]
  simp (disch := decide) only [field?_here, field?_there]
  simp only [ofTick, store_int, restore_number, ok_bind, pure_eq_ok, readTick_writeTick written,
    Option.getD_some]

theorem toPosition_ofPosition {position : Position Int} (written : Written position.tick) :
    (ofPosition position).toPosition = .ok position := by
  have fits : (ofPosition position).conform (ofPosition (.fresh (ofInt 0) null : Position Int))
      ["position_id", "owner"] = .ok () := conform_record rfl (by simp [ofPosition, keys])
  simp only [toPosition, fits, ok_bind]
  simp only [overPosition, valueD, tickD, fieldD, ofPosition]
  simp (disch := decide) only [field?_here, field?_there]
  simp only [ofTick, store_int, restore_number, ok_bind, pure_eq_ok, readTick_writeTick written,
    Option.getD_some]

theorem toTickRecord_ofTickRecord (tick : TickRecord Int) :
    (ofTickRecord tick).toTickRecord = .ok tick := by
  have fits : (ofTickRecord tick).conform (ofTickRecord (.fresh (ofInt 0) : TickRecord Int))
      ["tick"] = .ok () := conform_record rfl (by simp [ofTickRecord, keys])
  simp only [toTickRecord, fits, ok_bind]
  simp only [overTick, valueD, ofTickRecord]
  simp (disch := decide) only [field?_here, field?_there]
  simp only [store_int, restore_number, ok_bind, pure_eq_ok]

def keyed (entry : String × Document) : Document × Document := (text entry.1, entry.2)

theorem find_keyed (name : String) (fields : List (String × Document)) :
    Table.find (text name) (fields.map keyed) = findField name fields := by
  induction fields with
  | nil => rfl
  | cons entry rest ih =>
    obtain ⟨key, value⟩ := entry
    simp only [List.map_cons, keyed, Table.find, findField, text.injEq]
    rw [← ih]

theorem mapM_keyed (fields : List (String × Document)) :
    (fields.map keyed).mapM (fun (name, value) => do return (← name.toText, value) :
        Document × Document → Except Fault (String × Document)) = .ok fields := by
  induction fields with
  | nil => rfl
  | cons entry rest ih =>
    rw [List.map_cons, List.mapM_cons, ih]
    rfl

theorem toBranch_record {fields : List (String × Document)} {status : BranchStatus}
    (named : findField "status" fields = some (text status.name)) :
    ((record fields).toBranch : Except Fault (Branch Int)) = (do
      (record fields).conform (ofBranch (.fresh (ofInt 0) (ofInt 0) : Branch Int)) ["branch_id"]
      overBranch { (.fresh (ofInt 0) (ofInt 0) : Branch Int) with status } (record fields)) := by
  have opened : (record fields).entries = .ok ⟨fields.map keyed⟩ := rfl
  have found : Table.get? ⟨fields.map keyed⟩ (text "status") = some (text status.name) :=
    (find_keyed _ _).trans named
  simp only [toBranch, opened, ok_bind, found, BranchStatus.ofDocument_name, mapM_keyed]

theorem toBranch_ofBranch {branch : Branch Int} (kept : branch.Kept) :
    (ofBranch branch).toBranch = .ok branch := by
  have fits : (ofBranch branch).conform (ofBranch (.fresh (ofInt 0) (ofInt 0) : Branch Int))
      ["branch_id"] = .ok () := conform_record rfl (by simp [ofBranch, keys])
  have named : (ofBranch branch).field? "status" = some (text branch.status.name) := by
    simp only [ofBranch]
    simp (disch := decide) only [field?_here, field?_there]
  rw [ofBranch, toBranch_record named, ← ofBranch, fits, ok_bind]
  simp only [overBranch, valueD, tickD, ofBranch]
  simp (disch := decide) only [field?_here, field?_there]
  simp only [ofTick, store_int, restore_number, ok_bind, pure_eq_ok,
    readTick_writeTick kept.lowest, readTick_writeTick kept.highest]

theorem mapM_read {α : Type} {write : α → Document} {read : Document → Except Fault α}
    {records : List α} (back : ∀ a ∈ records, read (write a) = .ok a) :
    (records.map write).mapM read = .ok records := by
  induction records with
  | nil => rfl
  | cons a rest ih =>
    rw [List.map_cons, List.mapM_cons, back a List.mem_cons_self,
      ih fun b member => back b (List.mem_cons_of_mem _ member)]
    rfl

theorem foldlM_read {α : Type} {read : Document → Except Fault α} (key : α → Int)
    (file : Table Int α → Document → Except Fault (Table Int α))
    (files : ∀ table document, file table document = (do
      let a ← read document
      return table.insert (key a) a))
    {documents : List Document} {records : List α} (all : documents.mapM read = .ok records)
    (table : Table Int α) :
    documents.foldlM file table = .ok (table.insertAll key records) := by
  induction documents generalizing records table with
  | nil =>
    cases all
    rfl
  | cons document rest ih =>
    simp only [List.mapM_cons, bind_eq_ok, pure_eq_ok, Except.ok.injEq] at all
    obtain ⟨a, here, records, later, rfl⟩ := all
    rw [List.foldlM_cons, files, here]
    exact ih later _

theorem field?_ofDump (dump : Dump Int) :
    (ofDump dump).field? "version" = some (number formatVersion) ∧
      (ofDump dump).field? "config" = some (ofConfig dump.config) ∧
      (ofDump dump).field? "state" = some (ofState dump.state) ∧
      (ofDump dump).field? "positions" = some (list (dump.positions.map ofPosition)) ∧
      (ofDump dump).field? "ticks" = some (list (dump.ticks.map ofTickRecord)) ∧
      (ofDump dump).field? "branches" = some (list (dump.branches.map ofBranch)) ∧
      (ofDump dump).field? "bitmap" = some (list (dump.bitmap.map ofSegment)) := by
  simp only [ofDump]
  simp (disch := decide) only [field?_here, field?_there, and_self]

def toSegment (document : Document) : Except Fault SegmentEntry := do
  return {
    array := ← (← document.field "array").toNumber
    map := ← (← document.field "map").toNumber
    bits := ← (← document.field "bits").toText }

/-- The dump that a document is, each section read record by record. -/
def toDump (document : Document) : Except Fault (Dump Int) := do
  (document.fieldD "version" .null).checkVersion
  return {
    config := ← (← document.field "config").toConfig
    state := ← (← document.field "state").toState
    positions := ← (← document.rows "positions").mapM toPosition
    ticks := ← (← document.rows "ticks").mapM toTickRecord
    branches := ← (← document.rows "branches").mapM toBranch
    bitmap := ← (← document.rows "bitmap").mapM toSegment }

theorem toSegment_ofSegment (entry : SegmentEntry) : (ofSegment entry).toSegment = .ok entry := rfl

theorem toDump_ofDump {dump : Dump Int} (topmost : Written dump.state.topmost)
    (positions : ∀ position ∈ dump.positions, Written position.tick)
    (branches : ∀ branch ∈ dump.branches, branch.Kept) : (ofDump dump).toDump = .ok dump := by
  obtain ⟨version, config, state, atPositions, atTicks, atBranches, atBitmap⟩ := field?_ofDump dump
  have supported : ((ofDump dump).fieldD "version" .null).checkVersion = .ok () := by
    rw [fieldD, version]
    rfl
  have readPositions : (dump.positions.map ofPosition).mapM toPosition = .ok dump.positions :=
    mapM_read fun position member => toPosition_ofPosition (positions position member)
  have readTicks : (dump.ticks.map ofTickRecord).mapM toTickRecord = .ok dump.ticks :=
    mapM_read fun record _ => toTickRecord_ofTickRecord record
  have readBranches : (dump.branches.map ofBranch).mapM toBranch = .ok dump.branches :=
    mapM_read fun branch member => toBranch_ofBranch (branches branch member)
  have readBitmap : (dump.bitmap.map ofSegment).mapM toSegment = .ok dump.bitmap :=
    mapM_read fun entry _ => toSegment_ofSegment entry
  simp only [toDump, supported, field_of_field? state, field_of_field? config,
    rows_of_field? atBranches, rows_of_field? atBitmap, rows_of_field? atTicks,
    rows_of_field? atPositions, ok_bind, toConfig_ofConfig, toState_ofState topmost, readPositions,
    readTicks, readBranches, readBitmap, pure_eq_ok]

end Document

theorem BranchLedger.ofList_of_ne_nil {records : List (Branch Int)} (some : records ≠ []) :
    BranchLedger.ofList records = ⟨records⟩ :=
  if_neg fun empty => some (List.isEmpty_iff.mp empty)

def Dump.vault (dump : Dump Int) (config : Config Int) (run : ByteRun) : Vault Int where
  config
  state := dump.state
  ledger := {
    ticks := (∅ : Table Int (TickRecord Int)).insertAll TickRecord.tick dump.ticks
    bitmap := .ofRun run
    branches := .ofList dump.branches }
  positions := (∅ : Table Int (Position Int)).insertAll Position.id dump.positions
  events := []

/-- With its config valid and its segments opened, loading a dump comes down to the check. -/
theorem Vault.load_of_toDump {document : Document} {dump : Dump Int} {validated : Config Int}
    {run : ByteRun} (read : document.toDump = .ok dump)
    (valid : dump.config.validate = .ok validated)
    (opened : (do (← document.rows "bitmap").foldlM Document.openSegment TickBitmap.empty.run) =
      .ok run) :
    Vault.load document = (do
      (dump.vault validated run).check
      return dump.vault validated run) := by
  simp only [Document.toDump, bind_eq_ok, pure_eq_ok, Except.ok.injEq] at read
  obtain ⟨_, version, _, foundConfig, config, readConfig, _, foundState, state, readState,
    _, foundPositions, positions, readPositions, _, foundTicks, ticks, readTicks,
    _, foundBranches, branches, readBranches, _, foundBitmap, bitmap, -, rfl⟩ := read
  have filed :=
    Document.foldlM_read TickRecord.tick Document.fileTick (fun _ _ => rfl) readTicks ∅
  have filed' :=
    Document.foldlM_read Position.id Document.filePosition (fun _ _ => rfl) readPositions ∅
  rw [foundBitmap, ok_bind] at opened
  simp only [Vault.load, version, foundConfig, foundState, foundPositions, foundTicks,
    foundBranches, foundBitmap, readConfig, readState, readBranches, valid, opened, filed, filed',
    ok_bind]
  rfl

end TickVault
