import MiniBootloader.Boot
import MiniBootloader.PartitionFormat

/-!
# What the boot sequence relies on

The crates behind `Platform` store their records in flash, each in the sector
whose offset it is given.  Their contracts are stated here and assumed by
name where a result needs them.  A set of small stand-ins for the crates
meets all contracts at once, so the assumptions can be met together.
-/

namespace MiniBootloader

open Words

/-! ## Ranges of flash -/

/-- The two flashes have the same bytes in a range, and reads that start in
it return the same status. -/
structure SameRange (start : UInt32) (len : Nat) (flash flash' : Flash) :
    Prop where
  bytes : ∀ address, InRange start len address →
    flash'.byte address = flash.byte address
  status : ∀ address size, InRange start len address →
    flash'.status address size = flash.status address size

theorem SameRange.refl (start : UInt32) (len : Nat) (flash : Flash) :
    SameRange start len flash flash :=
  ⟨fun _ _ => rfl, fun _ _ _ => rfl⟩

theorem SameRange.trans {start : UInt32} {len : Nat}
    {first second third : Flash}
    (left : SameRange start len first second)
    (right : SameRange start len second third) :
    SameRange start len first third := by
  constructor
  · intro address inside
    exact (right.bytes address inside).trans (left.bytes address inside)
  · intro address size inside
    exact (right.status address size inside).trans
      (left.status address size inside)

theorem SameRange.slice {start : UInt32} {len : Nat}
    {flash flash' : Flash} (same : SameRange start len flash flash')
    {size : Nat} (within : size ≤ len) (small : len ≤ 2 ^ 32) :
    flash'.slice start size = flash.slice start size := by
  apply slice_eq_of_bytes
  intro index below
  apply same.bytes
  exact (inRange_add_ofNat (by omega)).mpr (by omega)

theorem SameRange.readable {start : UInt32} {len : Nat}
    {flash flash' : Flash} (same : SameRange start len flash flash')
    (nonempty : 0 < len) (size : Nat) :
    flash'.Readable start size ↔ flash.Readable start size := by
  have first : InRange start len start := by
    simpa [InRange] using nonempty
  rw [Flash.Readable, Flash.Readable, same.status _ _ first]

theorem SameRange.bootable {flash flash' : Flash} {entry : PartitionEntry}
    (same : SameRange entry.offset 24 flash flash') :
    flash'.Bootable entry ↔ flash.Bootable entry := by
  rw [Flash.Bootable, Flash.Bootable, Flash.header, Flash.header,
    same.readable (by decide), same.slice (Nat.le_refl _) (by decide)]

/-- No address of the range lies in the sector at `offset`. -/
def SparesSector (start : UInt32) (len : Nat) (offset : UInt32) : Prop :=
  ∀ address, InRange start len address →
    ¬ InRange offset sectorSize address

theorem sparesSector_iff {start offset : UInt32} {len : Nat}
    (fits : start.toNat + len ≤ 2 ^ 32)
    (sectorFits : offset.toNat + sectorSize ≤ 2 ^ 32) :
    SparesSector start len offset ↔
      len = 0 ∨ start.toNat + len ≤ offset.toNat ∨
        offset.toNat + sectorSize ≤ start.toNat := by
  have order := inRange_disjoint_iff fits sectorFits
  have nonempty : sectorSize ≠ 0 := by decide
  simp only [nonempty, false_or] at order
  exact order

theorem sparesSector_of_apart {start offset : UInt32} {len : Nat}
    (apart : start.toNat + len ≤ offset.toNat ∧
        offset.toNat + sectorSize ≤ 2 ^ 32 ∨
      offset.toNat + sectorSize ≤ start.toNat ∧
        start.toNat + len ≤ 2 ^ 32) :
    SparesSector start len offset := by
  rcases apart with ⟨before, sectorFits⟩ | ⟨behind, fits⟩
  · apply (sparesSector_iff (by omega) sectorFits).mpr
    exact .inr (.inl before)
  · apply (sparesSector_iff fits (by omega)).mpr
    exact .inr (.inr behind)

/-- The sectors a boot stores to lie in front of the app partitions of the
A/B layout. -/
theorem sparesSector_of_behind {start : UInt32} {len : Nat}
    (fits : start.toNat + len ≤ 2 ^ 32) (behind : 0x14000 ≤ start.toNat) :
    SparesSector start len BootHistory.bootlogPartitionOffset ∧
      SparesSector start len Bootstat.bootstatPartitionOffset ∧
      SparesSector start len otadataPartitionOffset := by
  have spares (offset : UInt32) (front : offset.toNat ≤ 0x13000) :
      SparesSector start len offset := by
    apply sparesSector_of_apart
    right
    refine ⟨?_, fits⟩
    simp only [sectorSize]
    omega
  exact ⟨spares _ (by decide), spares _ (by decide), spares _ (by decide)⟩

/-- The sectors of the reports lie behind otadata, the crash dump and the
partition table. -/
theorem sparesReports_of_front {start : UInt32} {len : Nat}
    (front : start.toNat + len ≤ 0x12000) :
    SparesSector start len BootHistory.bootlogPartitionOffset ∧
      SparesSector start len Bootstat.bootstatPartitionOffset := by
  have spares (offset : UInt32) (behind : 0x12000 ≤ offset.toNat)
      (fits : offset.toNat + sectorSize ≤ 2 ^ 32) :
      SparesSector start len offset := by
    apply sparesSector_of_apart
    left
    exact ⟨Nat.le_trans front behind, fits⟩
  constructor
  · exact spares _ (by decide) (by decide)
  · exact spares _ (by decide) (by decide)

/-- A store keeps every range that spares its sector. -/
theorem TouchesSector.sameRange {α : Type} {start offset : UInt32}
    {len : Nat} {store : Flash → Flash × α}
    (touches : TouchesSector offset store)
    (spares : SparesSector start len offset) (flash : Flash) :
    SameRange start len flash (store flash).1 := by
  obtain ⟨status, bytes⟩ := touches flash
  constructor
  · intro address inside
    exact bytes address (spares address inside)
  · intro address size _
    rw [status]

/-- A store that replaces one byte if that lies in its sector. -/
def patchAt {α : Type} (target : UInt32) (byte : UInt8) (offset : UInt32)
    (value : α) (flash : Flash) : Flash × α :=
  (if InRange offset sectorSize target then
    flash.patch target byte
  else
    flash, value)

theorem patchAt_of_inRange {α : Type} {target offset : UInt32}
    (inside : InRange offset sectorSize target) (byte : UInt8) (value : α)
    (flash : Flash) :
    (patchAt target byte offset value flash).1 = flash.patch target byte :=
  if_pos inside

theorem patchAt_of_not_inRange {α : Type} {target offset : UInt32}
    (outside : ¬ InRange offset sectorSize target) (byte : UInt8)
    (value : α) (flash : Flash) :
    (patchAt target byte offset value flash).1 = flash :=
  if_neg outside

theorem touchesSector_patchAt {α : Type} (target : UInt32) (byte : UInt8)
    (offset : UInt32) (value : α) :
    TouchesSector offset (patchAt target byte offset value) := by
  intro flash
  by_cases inside : InRange offset sectorSize target
  · rw [patchAt_of_inRange inside]
    refine ⟨rfl, fun address outside => ?_⟩
    exact byte_patch_of_not_inRange flash byte inside outside
  · rw [patchAt_of_not_inRange inside]
    exact ⟨rfl, fun _ _ => rfl⟩

/-- Writing a table keeps what lies behind it. -/
theorem sameRange_withTable (flash : Flash) {entries : List PartitionEntry}
    (count : entries.length ≤ 32) {start : UInt32} {len : Nat}
    (fits : start.toNat + len ≤ 2 ^ 32) (after : 0x8400 ≤ start.toNat) :
    SameRange start len flash (flash.withTable entries) := by
  have apart := (inRange_disjoint_iff fits (by decide :
    partitionTableOffset.toNat + partitionTableReadLen ≤ 2 ^ 32)).mpr
      (.inr (.inr (.inr after)))
  constructor
  · intro address inside
    exact byte_withTable flash count (apart address inside)
  · intro address size _
    rfl

/-! ## The contracts -/

/-- The stores of the reports touch at most the sector at their offset. -/
structure Platform.ReportsFramed (P : Platform) : Prop where
  history : ∀ offset record,
    TouchesSector offset (P.history.storeToFlash offset record)
  bootstat : ∀ offset record,
    TouchesSector offset (P.bootstat.appendRecord offset record)

/-- Every store touches at most the sector at the offset it is given. -/
structure Platform.Framed (P : Platform) : Prop extends
    P.ReportsFramed where
  ota : ∀ offset state,
    TouchesSector offset (P.ota.storeToFlash offset state)

/-- The fields of an otadata state that its contract speaks of. -/
structure OtaView (S : Type) where
  stable : S → Slot
  pending : S → Option Slot
  attempts : S → UInt8

/-- The rollback policy of `select_slot`. -/
structure P4Ota.FollowsPolicy (ota : P4Ota) (view : OtaView ota.OtaData) :
    Prop where
  retry : ∀ state slot limit, view.pending state = some slot →
    view.attempts state < limit →
    ∃ newState,
      ota.selectSlot state limit =
        .pending slot (view.attempts state + 1) newState ∧
      view.pending newState = some slot ∧
      view.attempts newState = view.attempts state + 1 ∧
      view.stable newState = view.stable state
  rollback : ∀ state slot limit, view.pending state = some slot →
    limit ≤ view.attempts state →
    ∃ newState,
      ota.selectSlot state limit =
        .rollback slot (view.stable state) newState ∧
      view.pending newState = none ∧
      view.stable newState = view.stable state
  settled : ∀ state limit, view.pending state = none →
    ota.selectSlot state limit = .stable (view.stable state)

/-- Loading otadata depends on its sector only. -/
def P4Ota.LoadsSector (ota : P4Ota) : Prop :=
  ∀ offset flash flash', SameRange offset sectorSize flash flash' →
    ota.loadFromFlash offset flash' = ota.loadFromFlash offset flash

/-- After a successful store, loading returns the stored state. -/
structure P4Ota.Durable (ota : P4Ota) : Prop where
  sector : ota.LoadsSector
  stored : ∀ offset state flash,
    (ota.storeToFlash offset state flash).2 = .ok () →
    ota.loadFromFlash offset (ota.storeToFlash offset state flash).1 =
      .ok state

/-! ## What a boot keeps -/

section Keeps

variable {P : Platform} {start : UInt32} {len : Nat}

theorem sameRange_flashAtPick (framed : P.ReportsFramed)
    (sparesBootlog : SparesSector start len
      BootHistory.bootlogPartitionOffset)
    (sparesBootstat : SparesSector start len
      Bootstat.bootstatPartitionOffset)
    (resetCause : Cause) (flash : Flash) :
    SameRange start len flash (flashAtPick P resetCause flash) :=
  ((framed.history _ _).sameRange sparesBootlog flash).trans
    ((framed.bootstat _ _).sameRange sparesBootstat _)

theorem sameRange_pick {ota : P4Ota}
    (framed : ∀ offset state,
      TouchesSector offset (ota.storeToFlash offset state))
    (sparesOtadata : SparesSector start len otadataPartitionOffset)
    (flash : Flash) : SameRange start len flash (pick ota flash).flash := by
  rw [pick_flash]
  cases (pickPlan ota flash).2.2 with
  | none => exact .refl start len flash
  | some newState =>
      exact (framed _ newState).sameRange sparesOtadata flash

theorem sameRange_bootPick (framed : P.Framed)
    (sparesBootlog : SparesSector start len
      BootHistory.bootlogPartitionOffset)
    (sparesBootstat : SparesSector start len
      Bootstat.bootstatPartitionOffset)
    (sparesOtadata : SparesSector start len otadataPartitionOffset)
    (resetCause : Cause) (flash : Flash) :
    SameRange start len flash (bootPick P resetCause flash).flash :=
  (sameRange_flashAtPick framed.toReportsFramed sparesBootlog sparesBootstat
    resetCause flash).trans (sameRange_pick framed.ota sparesOtadata _)

/-- A boot keeps what lies behind the sectors it stores to. -/
theorem sameRange_bootPick_behind (framed : P.Framed)
    (fits : start.toNat + len ≤ 2 ^ 32) (behind : 0x14000 ≤ start.toNat)
    (resetCause : Cause) (flash : Flash) :
    SameRange start len flash (bootPick P resetCause flash).flash := by
  obtain ⟨bootlog, bootstat, otadata⟩ := sparesSector_of_behind fits behind
  exact sameRange_bootPick framed bootlog bootstat otadata resetCause flash

theorem status_bootPick (framed : P.Framed) (resetCause : Cause)
    (flash : Flash) :
    (bootPick P resetCause flash).flash.status = flash.status := by
  have reported : (flashAtPick P resetCause flash).status = flash.status :=
    ((framed.bootstat _ _ _).1).trans (framed.history _ _ flash).1
  have stored : (bootPick P resetCause flash).flash.status =
      (flashAtPick P resetCause flash).status := by
    rw [bootPick, pick_flash]
    cases (pickPlan P.ota (flashAtPick P resetCause flash)).2.2 with
    | none => rfl
    | some newState => exact (framed.ota _ newState _).1
  exact stored.trans reported

/-- The plan of `pick` depends on otadata only. -/
theorem pickPlan_of_sameRange {ota : P4Ota} (loads : ota.LoadsSector)
    {flash flash' : Flash}
    (same : SameRange otadataPartitionOffset sectorSize flash flash') :
    pickPlan ota flash' = pickPlan ota flash := by
  have load := loads otadataPartitionOffset flash flash' same
  simp only [pickPlan, bootAction, loadOtadata, load]

/-- The reports of a boot leave otadata alone. -/
theorem sameRange_otadata_flashAtPick (framed : P.ReportsFramed)
    (resetCause : Cause) (flash : Flash) :
    SameRange otadataPartitionOffset sectorSize flash
      (flashAtPick P resetCause flash) := by
  obtain ⟨bootlog, bootstat⟩ := sparesReports_of_front
    (by decide : otadataPartitionOffset.toNat + sectorSize ≤ 0x12000)
  exact sameRange_flashAtPick framed bootlog bootstat resetCause flash

/-- A boot keeps the partition table. -/
theorem sameRange_table_bootPick (framed : P.Framed) (resetCause : Cause)
    (flash : Flash) :
    SameRange partitionTableOffset partitionTableReadLen flash
      (bootPick P resetCause flash).flash := by
  obtain ⟨bootlog, bootstat⟩ := sparesReports_of_front
    (by decide : partitionTableOffset.toNat + partitionTableReadLen ≤
      0x12000)
  apply sameRange_bootPick framed bootlog bootstat
  exact sparesSector_of_apart (by decide)

/-- The lookups find what the table held before the boot. -/
theorem table_bootPick (framed : P.Framed) (resetCause : Cause)
    (flash : Flash) :
    (bootPick P resetCause flash).flash.partitions = flash.partitions ∧
      ((bootPick P resetCause flash).flash.TableReadable ↔
        flash.TableReadable) := by
  have same := sameRange_table_bootPick framed resetCause flash
  constructor
  · rw [Flash.partitions, Flash.partitions,
      same.slice (Nat.le_refl _) (by decide)]
  · exact same.readable (by decide) partitionTableReadLen

end Keeps

/-! ## Stand-ins -/

namespace StandIn

structure OtaData where
  stable : Slot
  pending : Option Slot
  attempts : UInt8
  deriving DecidableEq

def OtaData.view : OtaView OtaData :=
  ⟨OtaData.stable, OtaData.pending, OtaData.attempts⟩

def slotByte : Slot → UInt8
  | .a => 1
  | .b => 2

def slotOfByte (byte : UInt8) : Option Slot :=
  if byte = 1 then some .a else if byte = 2 then some .b else none

/-- Three bytes: the stable slot, the pending slot or zero, the attempts. -/
def OtaData.encode (state : OtaData) : Vector UInt8 3 :=
  #v[slotByte state.stable, (state.pending.map slotByte).getD 0,
    state.attempts]

def loadFromFlash (offset : UInt32) (flash : Flash) :
    Except Unit OtaData :=
  let bytes := flash.slice offset 3
  match slotOfByte bytes[0] with
  | some stable =>
      .ok
        { stable := stable
          pending := slotOfByte bytes[1]
          attempts := bytes[2] }
  | none => .error ()

def selectSlot (state : OtaData) (limit : UInt8) : BootAction OtaData :=
  match state.pending with
  | none => .stable state.stable
  | some slot =>
      if state.attempts < limit then
        .pending slot (state.attempts + 1)
          { state with attempts := state.attempts + 1 }
      else
        .rollback slot state.stable
          { state with pending := none, attempts := 0 }

def ota : P4Ota :=
  { OtaData := OtaData
    Error := Unit
    fresh := ⟨.a, none, 0⟩
    maxAttempts := 3
    loadFromFlash := loadFromFlash
    selectSlot := selectSlot
    storeToFlash := fun offset state flash =>
      (flash.program offset state.encode.toList, .ok ()) }

/-- One byte that counts the boots. -/
def history : P4BootHistory :=
  { History := UInt8
    Error := Unit
    loadFromFlashOrEmpty := fun offset flash => flash.byte offset
    append := fun count _ => count + 1
    storeToFlash := fun offset count flash =>
      (flash.program offset [count], .ok ()) }

def bootstat : P4Bootstat :=
  { Record := UInt8
    Error := Unit
    lastUptimeSeconds := fun _ => 0
    loadLatestOrFresh := fun offset flash => flash.byte offset
    recordBoot := fun count _ _ _ => count + 1
    appendRecord := fun offset count flash =>
      (flash.program offset [count], .ok ()) }

end StandIn

def standIn (sha : Sha256) : Platform :=
  { rawOf := fun _ => 0
    crashdumpIsPresent := fun offset flash => flash.byte offset == 0xD0
    history := StandIn.history
    bootstat := StandIn.bootstat
    ota := StandIn.ota
    sha := sha }

/-- Blank otadata selects the first slot and stores nothing. -/
theorem pickPlan_standIn {flash : Flash}
    (blank : StandIn.loadFromFlash otadataPartitionOffset flash =
      .error ()) :
    pickPlan StandIn.ota flash = (.a, .otaFresh, none) := by
  have load : loadOtadata StandIn.ota flash = (⟨.a, none, 0⟩, false) := by
    simp only [loadOtadata, StandIn.ota, blank]
  rw [pickPlan, bootAction, load]
  rfl

theorem touchesSector_program {α : Type} (offset : UInt32)
    {bytes : List UInt8} (value : α) (short : bytes.length ≤ sectorSize) :
    TouchesSector offset
      (fun flash => (flash.program offset bytes, value)) := by
  intro flash
  refine ⟨rfl, ?_⟩
  intro address outside
  apply byte_program_of_not_inRange
  intro inside
  exact outside (inside.mono short)

theorem reportsFramed_standIn (sha : Sha256) :
    (standIn sha).ReportsFramed := by
  constructor
  · intro offset record
    exact touchesSector_program offset _ (Nat.le_of_ble_eq_true rfl)
  · intro offset record
    exact touchesSector_program offset _ (Nat.le_of_ble_eq_true rfl)

theorem framed_standIn (sha : Sha256) : (standIn sha).Framed := by
  constructor
  · exact reportsFramed_standIn sha
  · intro offset state
    exact touchesSector_program offset _ (Nat.le_of_ble_eq_true rfl)

theorem followsPolicy_standIn :
    StandIn.ota.FollowsPolicy StandIn.OtaData.view := by
  constructor
  · intro state slot limit pending more
    refine ⟨{ state with attempts := state.attempts + 1 }, ?_, pending, rfl,
      rfl⟩
    have pending' : state.pending = some slot := pending
    have more' : state.attempts < limit := more
    simp only [StandIn.ota, StandIn.selectSlot, pending', more', if_true]
    rfl
  · intro state slot limit pending exhausted
    refine ⟨{ state with pending := none, attempts := 0 }, ?_, rfl, rfl⟩
    have pending' : state.pending = some slot := pending
    have exhausted' : ¬ state.attempts < limit :=
      UInt8.not_lt.mpr exhausted
    simp only [StandIn.ota, StandIn.selectSlot, pending', exhausted',
      if_false]
    rfl
  · intro state limit settled
    have settled' : state.pending = none := settled
    simp only [StandIn.ota, StandIn.selectSlot, settled']
    rfl

/-- The app slots of `example-partitions.csv`. -/
def slotPartition : Slot → PartitionEntry
  | .a =>
      { kind := partTypeApp
        subtype := 0x10
        offset := 0x20000
        size := 0xC0000
        label := labelOfBytes [0x6F, 0x74, 0x61, 0x5F, 0x30] }
  | .b =>
      { kind := partTypeApp
        subtype := 0x11
        offset := 0xE0000
        size := 0xC0000
        label := labelOfBytes [0x6F, 0x74, 0x61, 0x5F, 0x31] }

def slotTable : List PartitionEntry := [slotPartition .a, slotPartition .b]

theorem slotOfByte_slotByte (slot : Slot) :
    StandIn.slotOfByte (StandIn.slotByte slot) = some slot := by
  cases slot <;> rfl

theorem durable_standIn : StandIn.ota.Durable := by
  constructor
  · intro offset flash flash' same
    have bytes : flash'.slice offset 3 = flash.slice offset 3 :=
      same.slice (by decide) (by decide)
    simp only [StandIn.ota, StandIn.loadFromFlash, bytes]
  · intro offset state flash _
    have bytes := slice_program flash offset state.encode (by decide)
    have stable : StandIn.slotOfByte state.encode[0] = some state.stable :=
      slotOfByte_slotByte state.stable
    have pending : StandIn.slotOfByte state.encode[1] = state.pending := by
      cases slot : state.pending with
      | none => simp [StandIn.OtaData.encode, slot, StandIn.slotOfByte]
      | some slot' =>
          simp [StandIn.OtaData.encode, slot, slotOfByte_slotByte]
    have attempts : state.encode[2] = state.attempts := rfl
    simp only [StandIn.ota, StandIn.loadFromFlash, bytes, stable, pending,
      attempts]
    rfl

end MiniBootloader
