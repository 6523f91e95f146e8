import TickVault.Proofs.Atomicity
import TickVault.Proofs.Consistency
import TickVault.Proofs.Safety
import TickVault.Proofs.Storage.Calls
import TickVault.Proofs.Storage.Records
import TickVault.Proofs.Storage.Segments

namespace TickVault

theorem Config.validate_validated {config validated : Config Int}
    (valid : config.validate = .ok validated) : validated.validate = .ok validated := by
  have same : validated = config := by
    simp only [Config.validate, bind_eq_ok, toInt_int, Except.ok.injEq, exists_eq_left'] at valid
    obtain ⟨_, -, _, -, _, -, _, -, valid⟩ := valid
    split at valid
    · simp only [bind_eq_ok, pure_eq_ok, Except.ok.injEq] at valid
      obtain ⟨_, -, _, -, same⟩ := valid
      exact same.symm
    · exact (Except.ok.inj valid).symm
  rw [same]
  exact same ▸ valid

namespace Vault

variable {vault other : Vault Int}

def image (vault : Vault Int) : Dump Int where
  config := vault.config
  state := vault.state
  positions := vault.positions.sortedBy fun a b => a ≤ b
  ticks := vault.ledger.ticks.sortedBy fun a b => b ≤ a
  branches := vault.ledger.branches.records
  bitmap := vault.ledger.bitmap.segments.map .of

theorem dump_eq (vault : Vault Int) : vault.dump = .ok vault.image := rfl

theorem Twin.image (twin : vault.Twin other) : other.image = vault.image := by
  have positions : other.positions.sortedBy (fun a b => decide (a ≤ b)) =
      vault.positions.sortedBy fun a b => decide (a ≤ b) := by
    apply twin.positions.sortedBy <;> simp only [Bool.or_eq_true, decide_eq_true_eq] <;> omega
  have ticks : other.ledger.ticks.sortedBy (fun a b => decide (b ≤ a)) =
      vault.ledger.ticks.sortedBy fun a b => decide (b ≤ a) := by
    apply twin.ledger.ticks.sortedBy <;> simp only [Bool.or_eq_true, decide_eq_true_eq] <;> omega
  simp only [Vault.image, twin.config, twin.state, twin.ledger.branches, twin.ledger.bitmap,
    positions, ticks]

theorem Twin.balanced (twin : vault.Twin other) (balanced : vault.Balanced) : other.Balanced := by
  have record (tick : Int) : other.ledger.tickAt tick = vault.ledger.tickAt tick := by
    rw [Ledger.tickAt, Ledger.tickAt, twin.ledger.ticks.get?]
  have sound : other.ledger.Sound :=
    { distinct := twin.ledger.ticks.distinct'
      keyed := fun tick stored known =>
        balanced.ledger.keyed tick stored ((twin.ledger.ticks.get? tick).symm.trans known)
      debt := fun tick => by
        rw [record]
        exact balanced.ledger.debt tick
      bits := fun tick => by
        rw [record, twin.ledger.bitmap]
        exact balanced.ledger.bits tick
      rooted := by
        rw [twin.ledger.branches]
        exact balanced.ledger.rooted }
  refine ⟨⟨⟨sound, ?_⟩, ?_⟩, ?_⟩
  · rw [twin.state, twin.ledger.branches]
    exact balanced.current
  · rw [twin.state, twin.ledger.bitmap]
    exact balanced.topmost
  · rw [twin.state, ← balanced.debt]
    exact twin.ledger.ticks.total _

/-- What it takes to be loaded again: ticks and positions are under their own keys, and every tick
is one that reads back. -/
structure Storable (vault : Vault Int) : Prop extends vault.Balanced where
  valid : vault.config.validate = .ok vault.config
  fitting : vault.ledger.bitmap.Fitting
  kept : vault.ledger.branches.Kept
  distinct : vault.positions.Distinct
  named : ∀ id position, vault.positions.get? id = some position → position.id = id
  written : ∀ id position, vault.positions.get? id = some position → Written position.tick

namespace Storable

theorem written_topmost (storable : vault.Storable) : Written vault.state.topmost := by
  apply written_of_range
  intro tick top
  have highest : vault.ledger.bitmap.highest? = some tick := storable.topmost.symm.trans top
  exact (TickBitmap.holds_highest highest).range.1

theorem toDump_image (storable : vault.Storable) :
    (Document.ofDump vault.image).toDump = .ok vault.image := by
  apply Document.toDump_ofDump storable.written_topmost
  · intro position member
    have perm := Table.sortedBy_perm (fun a b => decide (a ≤ b)) vault.positions
    obtain ⟨id, known⟩ := (Table.mem_values_iff storable.distinct).mp (perm.mem_iff.mp member)
    exact storable.written id position known
  · exact storable.kept

/-- Put together again it is a twin: ticks and positions are filed under their keys again. -/
theorem image_twin (storable : vault.Storable) {run : ByteRun}
    (bitmap : TickBitmap.ofRun run = vault.ledger.bitmap) :
    vault.Twin (vault.image.vault vault.config run) where
  config := rfl
  state := rfl
  ledger :=
    { ticks := storable.ledger.distinct.same_insertAll
        (fun tick record known => (storable.ledger.keyed tick record known).1)
        (Table.sortedBy_perm (fun a b => decide (b ≤ a)) vault.ledger.ticks)
      bitmap := bitmap
      branches := BranchLedger.ofList_of_ne_nil
        (List.ne_nil_of_length_pos storable.ledger.rooted.root)
      fitting := storable.fitting
      kept := storable.kept }
  positions := storable.distinct.same_insertAll storable.named
    (Table.sortedBy_perm (fun a b => decide (a ≤ b)) vault.positions)

theorem loads (storable : vault.Storable) :
    ∃ loaded, Vault.load (Document.ofDump vault.image) = .ok loaded ∧ vault.Twin loaded := by
  obtain ⟨run, opened, bitmap⟩ := vault.ledger.bitmap.open_segments
  have twin := storable.image_twin bitmap
  refine ⟨_, ?_, twin⟩
  have checked := (twin.balanced storable.toBalanced).check_ok
  obtain ⟨-, -, -, -, -, -, atBitmap⟩ := Document.field?_ofDump vault.image
  have segments : (vault.image.bitmap.map Document.ofSegment).foldlM Document.openSegment
      TickBitmap.empty.run = .ok run := by
    rw [Vault.image, List.map_map]
    exact opened
  rw [Vault.load_of_toDump storable.toDump_image storable.valid (by
    rw [Document.rows_of_field? atBitmap, ok_bind, segments]), checked]
  rfl

end Storable

/-- A vault is stored, and the other is loaded from that: all that it keeps is as it was, and
stored again it gives the same. -/
structure Reloads (vault : Vault Int) (dump : Dump Int) (loaded : Vault Int) : Prop where
  dumped : vault.dump = .ok dump
  loads : load (Document.ofDump dump) = .ok loaded
  config : loaded.config = vault.config
  state : loaded.state = vault.state
  branches : loaded.ledger.branches = vault.ledger.branches
  bitmap : loaded.ledger.bitmap = vault.ledger.bitmap
  ticks : ∀ tick, loaded.ledger.ticks.get? tick = vault.ledger.ticks.get? tick
  positions : ∀ id, loaded.positions.get? id = vault.positions.get? id
  again : loaded.dump = .ok dump

theorem Storable.reloads (storable : vault.Storable) :
    ∃ dump loaded, vault.Reloads dump loaded ∧ vault.Twin loaded := by
  obtain ⟨loaded, loads, twin⟩ := storable.loads
  refine ⟨vault.image, loaded, ?_, twin⟩
  exact
    { dumped := vault.dump_eq
      loads := loads
      config := twin.config
      state := twin.state
      branches := twin.ledger.branches
      bitmap := twin.ledger.bitmap
      ticks := twin.ledger.ticks.get?
      positions := twin.positions.get?
      again := by rw [dump_eq, twin.image] }

end Vault

namespace Engine

variable {engine other start : Engine Int}

/-- Two engines that nobody can tell apart: both answer every call alike, with the same spent of its
budget, both have the same host, and both are stored as the same. -/
structure Indistinct (engine other : Engine Int) : Prop where
  reply : ∀ call, (other.perform call).reply = (engine.perform call).reply
  budget : ∀ call, (other.perform call).budget = (engine.perform call).budget
  snapshot : ∀ id, other.vault.snapshot id = engine.vault.snapshot id
  host : other.host = engine.host
  dump : ∃ dump, engine.vault.dump = .ok dump ∧ other.vault.dump = .ok dump

theorem Twin.indistinct (twin : engine.Twin other) : engine.Indistinct other where
  reply call := (twin.perform call).reply
  budget call := (twin.perform call).budget
  snapshot := twin.vault.snapshot
  host := twin.host
  dump := ⟨engine.vault.image, engine.vault.dump_eq, by
    rw [Vault.dump_eq, twin.vault.image]⟩

theorem New.twin (new : start.New) : start.Twin start := by
  obtain ⟨id, config, validated, host, -, rfl⟩ := new.created
  refine ⟨⟨rfl, rfl, ⟨Table.distinct_empty.same, rfl, rfl, ?_, ?_⟩, Table.distinct_empty.same⟩, rfl⟩
  · exact Nat.two_pow_pos tickCount
  · intro branch member
    rcases List.mem_pair.mp member with rfl | rfl
    · exact Branch.fresh_kept _ _
    · exact Branch.fresh_kept _ _

theorem New.valid (new : start.New) : start.vault.config.validate = .ok start.vault.config := by
  obtain ⟨id, config, validated, host, valid, rfl⟩ := new.created
  exact Config.validate_validated valid

theorem New.run_storable (new : start.New) (calls : List Call) :
    (start.run calls).vault.Storable := by
  have orderly := (new.run_orderly calls).vault
  have twin := (new.twin.run calls).vault
  have config := new.standing.run_config calls
  refine ⟨orderly.toBalanced, ?_, twin.ledger.fitting, twin.ledger.kept,
    orderly.peopled.distinct, orderly.peopled.named, ?_⟩
  · rw [config]
    exact new.valid
  · intro id position known
    apply written_of_range
    intro tick seat
    obtain ⟨record, stored⟩ :=
      Option.isSome_iff_exists.mp ((orderly.peopled.seated id position known).known tick seat)
    exact (orderly.ledger.keyed tick record stored).2.1

/-- Over every host, and whatever calls come, the two vaults are told apart by nobody. At positive
prices both keep passing their check. -/
def Interchangeable (vault other : Vault Int) : Prop :=
  ∀ host calls, (Engine.run ⟨vault, host⟩ calls).Indistinct (Engine.run ⟨other, host⟩ calls) ∧
    (0 < host.liquidity.prices.supply → 0 < host.liquidity.prices.borrow →
      (Engine.run ⟨vault, host⟩ calls).vault.check = .ok () ∧
        (Engine.run ⟨other, host⟩ calls).vault.check = .ok ())

/-- The vault of any run is stored and loaded again without loss, and from there on the loaded vault
does what the vault itself would have done. -/
theorem run_reload (new : start.New) (calls : List Call) :
    ∃ dump loaded, (start.run calls).vault.Reloads dump loaded ∧
      Interchangeable (start.run calls).vault loaded := by
  obtain ⟨dump, loaded, reloads, twin⟩ := (new.run_storable calls).reloads
  refine ⟨dump, loaded, reloads, ?_⟩
  intro host later
  have twins : Twin ⟨(start.run calls).vault, host⟩ ⟨loaded, host⟩ := ⟨twin, rfl⟩
  have last := twins.run later
  refine ⟨last.indistinct, ?_⟩
  intro supply borrow
  have standing := ((new.standing.run calls).rehost supply borrow).run later
  have balanced := standing.vault.toBalanced
  exact ⟨balanced.check_ok, (last.vault.balanced balanced).check_ok⟩

theorem exhaustion_reload :
    standard.New ∧ (standard.run exhaustion).vault.positions.size = 3 ∧
      ∃ dump loaded, (standard.run exhaustion).vault.Reloads dump loaded ∧
        Interchangeable (standard.run exhaustion).vault loaded :=
  ⟨standard_new, by decide +kernel, run_reload standard_new exhaustion⟩

end Engine

end TickVault
