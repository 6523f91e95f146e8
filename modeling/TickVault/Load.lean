import TickVault.Dump

namespace TickVault

variable {ν : Type} [Numeric ν]

namespace Document

def checkVersion (version : Document) : Except Fault Unit :=
  ensure (version.alike (number formatVersion)) (.unsupportedVersion version)

def toPair (document : Document) (place : Nat) : Except Fault (Document × Document) := do
  match ← document.items with
  | [name, value] => return (← name.toKey, value)
  | items => throw (.notAPair place items.length)

def entries (document : Document) : Except Fault (Table Document Document) := do
  match document with
  | record fields => return ⟨fields.map fun (name, value) => (text name, value)⟩
  | other =>
    let pairs ← (← other.items).zipIdx.mapM fun (item, place) => item.toPair place
    return pairs.foldl (fun table (name, value) => table.insert name value) ∅

def rows (document : Document) (name : String) : Except Fault (List Document) := do
  (← document.field name).items

/-- A record of a branch has no other fields, and at least the status, which is read first, and the
id. -/
def toBranch (document : Document) : Except Fault (Branch ν) := do
  let entries ← document.entries
  let status ← match entries.get? (text "status") with
    | some value => BranchStatus.ofDocument value
    | none => throw (.missingKey "status")
  let fields ← entries.entries.mapM fun (name, value) => do return (← name.toText, value)
  let usual : Branch ν := .fresh (ofInt 0) (ofInt 0)
  (record fields).conform (ofBranch usual) ["branch_id"]
  overBranch { usual with status } (record fields)

def openSegment (run : ByteRun) (document : Document) : Except Fault ByteRun := do
  let array ← document.field "array"
  let map ← document.field "map"
  let bytes ← Hex.decode (← (← document.field "bits").toText)
  ensure (bytes.length = mapBytes) .segmentSize
  run.loadSegment (← array.toNumber) (← map.toNumber) bytes

variable [DecidableEq ν]

def fileTick (ticks : Table ν (TickRecord ν)) (document : Document) :
    Except Fault (Table ν (TickRecord ν)) := do
  let record : TickRecord ν ← document.toTickRecord
  return ticks.insert (← key record.tick) record

def filePosition (positions : Table ν (Position ν)) (document : Document) :
    Except Fault (Table ν (Position ν)) := do
  let position : Position ν ← document.toPosition
  return positions.insert (← key position.id) position

end Document

def Vault.load [DecidableEq ν] (document : Document) : Except Fault (Vault ν) := do
  (document.fieldD "version" .null).checkVersion
  let state ← (← document.field "state").toState
  let config ← (← (← document.field "config").toConfig).validate
  let branches ← (← document.rows "branches").mapM Document.toBranch
  let run ← (← document.rows "bitmap").foldlM Document.openSegment TickBitmap.empty.run
  let ticks ← (← document.rows "ticks").foldlM Document.fileTick ∅
  let positions ← (← document.rows "positions").foldlM Document.filePosition ∅
  let vault : Vault ν := {
    config, state, positions
    ledger := { ticks, bitmap := .ofRun run, branches := .ofList branches }
    events := [] }
  vault.check
  return vault

end TickVault
