import MiniBootloader.CheckedBytes
import MiniBootloader.SlotFallback

/-!
# The stores of a boot and the app partitions

The offsets of the stores are constants, while app partitions lie where the
partition table says.  Nothing relates the two, so a boot leaves an app
partition alone exactly when no byte of it, and no byte that the readers of
its image depend on, lies in a sector that this boot may write.  For the
necessity the crates are replaced by stores that put one byte into the sector
they are given.
-/

namespace MiniBootloader

open Words

/-! ## Unharmed partitions -/

/-- The bytes of a partition are the same in both flashes, and so is what
the readers make of the image at its start. -/
structure Unharmed (part : PartitionEntry) (flash flash' : Flash) :
    Prop where
  bytes : ∀ address, InRange part.offset part.size.toNat address →
    flash'.byte address = flash.byte address
  header : ((readHeader part.offset).run flash').result =
    ((readHeader part.offset).run flash).result
  verified : ∀ header,
    ((readHeader part.offset).run flash).result = .ok header →
    ∀ sha, ((verifyAppSha256 sha part.offset header).run flash').result =
      ((verifyAppSha256 sha part.offset header).run flash).result

/-! ## Arbitrary stores -/

/-- Stores for the crates of a platform. -/
structure Stores (P : Platform) where
  history : UInt32 → P.history.History → Flash →
    Flash × Except P.history.Error Unit
  bootstat : UInt32 → P.bootstat.Record → Flash →
    Flash × Except P.bootstat.Error Unit
  ota : UInt32 → P.ota.OtaData → Flash → Flash × Except P.ota.Error Unit

/-- The platform with other stores. -/
def Platform.withStores (P : Platform) (stores : Stores P) : Platform :=
  { P with
    history := { P.history with storeToFlash := stores.history }
    bootstat := { P.bootstat with appendRecord := stores.bootstat }
    ota := { P.ota with storeToFlash := stores.ota } }

theorem loadOtadata_withStores (P : Platform) (stores : Stores P)
    (flash : Flash) :
    loadOtadata (P.withStores stores).ota flash =
      loadOtadata P.ota flash := by
  cases load : P.ota.loadFromFlash otadataPartitionOffset flash with
  | ok state =>
      have load' : (P.withStores stores).ota.loadFromFlash
          otadataPartitionOffset flash = .ok state := load
      rw [loadOtadata, loadOtadata, load, load']
      rfl
  | error error =>
      have load' : (P.withStores stores).ota.loadFromFlash
          otadataPartitionOffset flash = .error error := load
      rw [loadOtadata, loadOtadata, load, load']
      rfl

/-- The stores do not change what `pick` decides on a flash. -/
theorem pickPlan_withStores (P : Platform) (stores : Stores P)
    (flash : Flash) :
    pickPlan (P.withStores stores).ota flash = pickPlan P.ota flash := by
  have load := loadOtadata_withStores P stores flash
  rw [pickPlan, pickPlan, bootAction, bootAction, load]
  rfl

/-- Stores that put a byte at `target` when they may. -/
def Stores.put (P : Platform) (target : UInt32) (byte : UInt8) : Stores P :=
  { history := fun offset _ => patchAt target byte offset (.ok ())
    bootstat := fun offset _ => patchAt target byte offset (.ok ())
    ota := fun offset _ => patchAt target byte offset (.ok ()) }

theorem framed_put (P : Platform) (target : UInt32) (byte : UInt8) :
    (P.withStores (Stores.put P target byte)).Framed :=
  ⟨⟨fun offset _ => touchesSector_patchAt target byte offset _,
    fun offset _ => touchesSector_patchAt target byte offset _⟩,
    fun offset _ => touchesSector_patchAt target byte offset _⟩

/-! ## What a boot may write -/

/-- The address lies in a sector to which a boot of this flash stores. -/
inductive Written (P : Platform) (flash : Flash) (address : UInt32) :
    Prop where
  | bootlog :
      InRange BootHistory.bootlogPartitionOffset sectorSize address →
      Written P flash address
  | bootstat :
      InRange Bootstat.bootstatPartitionOffset sectorSize address →
      Written P flash address
  | otadata :
      (pickPlan P.ota flash).2.2.isSome →
      InRange otadataPartitionOffset sectorSize address →
      Written P flash address

section Written

variable {P : Platform} {flash : Flash}

theorem written_withStores (stores : Stores P) {address : UInt32} :
    Written (P.withStores stores) flash address ↔
      Written P flash address := by
  have plan := pickPlan_withStores P stores flash
  constructor
  · intro written
    cases written with
    | bootlog inside => exact .bootlog inside
    | bootstat inside => exact .bootstat inside
    | otadata stored inside => exact .otadata (plan ▸ stored) inside
  · intro written
    cases written with
    | bootlog inside => exact .bootlog inside
    | bootstat inside => exact .bootstat inside
    | otadata stored inside => exact .otadata (plan.symm ▸ stored) inside

/-- Framed stores keep every other byte. -/
theorem byte_main_of_not_written (framed : P.Framed)
    (loads : P.ota.LoadsSector) (resetCause : Cause) {address : UInt32}
    (spared : ¬ Written P flash address) :
    (main P resetCause flash).flash.byte address = flash.byte address := by
  have only (other : UInt32) (inside : InRange address 1 other) :
      other = address := by
    obtain ⟨index, below, rfl⟩ :=
      (inRange_iff_exists (by decide)).mp inside
    rw [Nat.lt_one_iff.mp below]
    exact UInt32.add_zero address
  have reported : SameRange address 1 flash
      (flashAtPick P resetCause flash) := by
    apply sameRange_flashAtPick framed.toReportsFramed
    · intro other inside
      rw [only other inside]
      exact fun written => spared (.bootlog written)
    · intro other inside
      rw [only other inside]
      exact fun written => spared (.bootstat written)
  have plan := pickPlan_of_sameRange loads
    (sameRange_otadata_flashAtPick framed.toReportsFramed resetCause flash)
  have picked : SameRange address 1 (flashAtPick P resetCause flash)
      (bootPick P resetCause flash).flash := by
    rw [bootPick, pick_flash, plan]
    cases stored : (pickPlan P.ota flash).2.2 with
    | none => exact .refl _ _ _
    | some newState =>
        apply (framed.ota _ newState).sameRange
        intro other inside
        rw [only other inside]
        exact fun written => spared (.otadata (by rw [stored]; rfl) written)
  rw [main_flash]
  apply (reported.trans picked).bytes
  rw [InRange, UInt32.sub_self]
  decide

/-- The sectors have no address in common, so a byte is put once. -/
theorem flash_main_put (resetCause : Cause) {target : UInt32}
    (written : Written P flash target) (byte : UInt8) :
    (main (P.withStores (Stores.put P target byte)) resetCause flash).flash =
      flash.patch target byte := by
  have reports : flashAtPick (P.withStores (Stores.put P target byte))
      resetCause flash =
        (patchAt target byte Bootstat.bootstatPartitionOffset ()
          (patchAt target byte BootHistory.bootlogPartitionOffset ()
            flash).1).1 := rfl
  have apart {offset offset' : UInt32}
      (order : offset.toNat + sectorSize ≤ offset'.toNat ∧
          offset'.toNat + sectorSize ≤ 2 ^ 32 ∨
        offset'.toNat + sectorSize ≤ offset.toNat ∧
          offset.toNat + sectorSize ≤ 2 ^ 32)
      (inside : InRange offset sectorSize target) :
      ¬ InRange offset' sectorSize target :=
    sparesSector_of_apart order target inside
  have unpicked (flash : Flash)
      (outside : ¬ InRange otadataPartitionOffset sectorSize target) :
      (pick (P.withStores (Stores.put P target byte)).ota flash).flash =
        flash := by
    rw [pick_flash]
    cases (pickPlan (P.withStores (Stores.put P target byte)).ota
      flash).2.2 with
    | none => rfl
    | some newState => exact patchAt_of_not_inRange outside byte _ flash
  cases written with
  | bootlog inside =>
      rw [main_flash, bootPick, unpicked _ (apart (by decide) inside),
        reports, patchAt_of_inRange inside,
        patchAt_of_not_inRange (apart (by decide) inside)]
  | bootstat inside =>
      rw [main_flash, bootPick, unpicked _ (apart (by decide) inside),
        reports, patchAt_of_not_inRange (apart (by decide) inside) _ _ flash,
        patchAt_of_inRange inside]
  | otadata stored inside =>
      obtain ⟨newState, plan⟩ := Option.isSome_iff_exists.mp stored
      have plan' : (pickPlan (P.withStores (Stores.put P target byte)).ota
          flash).2.2 = some newState := by
        rw [pickPlan_withStores]
        exact plan
      rw [main_flash, bootPick, reports,
        patchAt_of_not_inRange (apart (by decide) inside) _ _ flash,
        patchAt_of_not_inRange (apart (by decide) inside), pick_flash, plan']
      exact patchAt_of_inRange inside byte _ flash

/-- A sector that has a byte of a short range has its first or its last
byte. -/
theorem written_edge {off address : UInt32} (last : UInt32)
    (short : last.toNat < sectorSize)
    (inside : InRange off (last.toNat + 1) address)
    (written : Written P flash address) :
    Written P flash off ∨ Written P flash (off + last) := by
  have edge {sector : UInt32} (inSector : InRange sector sectorSize address) :
      InRange sector sectorSize off ∨
        InRange sector sectorSize (off + last) := by
    have offBound := off.toNat_lt
    have addressBound := address.toNat_lt
    have sectorBound := sector.toNat_lt
    simp only [InRange, sectorSize, UInt32.toNat_sub, UInt32.toNat_add]
      at short inside inSector ⊢
    omega
  cases written with
  | bootlog inSector => exact (edge inSector).imp .bootlog .bootlog
  | bootstat inSector => exact (edge inSector).imp .bootstat .bootstat
  | otadata stored inSector =>
      exact (edge inSector).imp (.otadata stored) (.otadata stored)

end Written

/-! ## The app partitions -/

/-- No byte of the partition, and no byte that the readers of its image
depend on, lies where this boot may write. -/
structure Spared (P : Platform) (flash : Flash) (part : PartitionEntry) :
    Prop where
  bytes : ∀ address, InRange part.offset part.size.toNat address →
    ¬ Written P flash address
  header : ∀ address, HeaderByte flash part.offset address →
    ¬ Written P flash address
  check : ∀ header,
    ((readHeader part.offset).run flash).result = .ok header →
    ∀ address, CheckByte flash part.offset header address →
      ¬ Written P flash address

/-- The check of the image gets past this segment and breaks off later, and
a sector that this boot may write ends behind the first or the second byte of
its length. -/
structure CutLength (P : Platform) (flash : Flash) (part : PartitionEntry)
    (header : ImageHeader) (segment : Segment) : Prop where
  accepted : ((readHeader part.offset).run flash).result = .ok header
  breaks : ¬ CheckCompletes flash part.offset header
  walked : Walked flash part.offset
    (imageSegments flash part.offset header) segment
  sized : segment.Sized flash part.offset
  front : ∃ address, segment.LengthByte part.offset address ∧
    Written P flash address
  third : ¬ Written P flash (segment.headerPos part.offset + 4 + 2)

section Parts

variable {P : Platform} {flash : Flash} {part : PartitionEntry}

/-- Framed stores leave a partition alone that their sectors spare. -/
theorem unharmed_of_spared (framed : P.Framed) (loads : P.ota.LoadsSector)
    (resetCause : Cause) (spared : Spared P flash part) :
    Unharmed part flash (main P resetCause flash).flash := by
  have status : (main P resetCause flash).flash.status = flash.status := by
    rw [main_flash]
    exact status_bootPick framed resetCause flash
  have kept {address : UInt32} (outside : ¬ Written P flash address) :=
    byte_main_of_not_written framed loads resetCause outside
  constructor
  · intro address inside
    exact kept (spared.bytes address inside)
  · apply result_readHeader_congr status
    intro address needed
    exact kept (spared.header address needed)
  · intro header accepted sha
    apply result_verifyAppSha256_congr status
    intro address needed
    exact kept (spared.check header accepted address needed)

/-- Of two different bytes put at one address, at most one is the old
one. -/
private theorem not_patched_twice {address : UInt32}
    (kept : ∀ byte, (flash.patch address byte).byte address =
      flash.byte address) : False := by
  have zero := kept 0
  have one := kept 1
  rw [byte_patch_self] at zero one
  exact absurd (zero.trans one.symm) (by decide)

/-- The check tells lengths that are too large apart, so a byte that can make
a length too large in two ways is not written. -/
theorem unwritten_of_unharmed (sha : Sha256) {header : ImageHeader}
    {segment : Segment} {index : Nat} (below : index < 4)
    {byte byte' : UInt8} (different : byte ≠ byte')
    (unharmed : ∀ target, Written P flash target → ∀ byte,
      Unharmed part flash (flash.patch target byte))
    (accepted : ((readHeader part.offset).run flash).result = .ok header)
    (hashed : header.hashAppended = true)
    (walked : Walked flash part.offset
      (imageSegments flash part.offset header) segment)
    (large : (flash.patch (segment.headerPos part.offset + 4 +
      UInt32.ofNat index) byte).word (segment.headerPos part.offset + 4) >
        maxSegmentLen)
    (large' : (flash.patch (segment.headerPos part.offset + 4 +
      UInt32.ofNat index) byte').word (segment.headerPos part.offset + 4) >
        maxSegmentLen) :
    ¬ Written P flash
      (segment.headerPos part.offset + 4 + UInt32.ofNat index) := by
  intro written
  have inside : segment.LengthByte part.offset
      (segment.headerPos part.offset + 4 + UInt32.ofNat index) :=
    (inRange_add_ofNat (by omega)).mpr below
  have first := (unharmed _ written byte).verified header accepted sha
  have second := (unharmed _ written byte').verified header accepted sha
  rw [result_verifyAppSha256_patch hashed walked inside large] at first
  rw [result_verifyAppSha256_patch hashed walked inside large'] at second
  have same := first.trans second.symm
  simp only [Except.error.injEq, VerifyError.totalSize.injEq,
    AppLoadError.segmentTooLarge.injEq] at same
  exact different (word_patch_inj below same)

/-- Of a length with a written byte the third is not written, and the walk
got past it. -/
theorem sized_of_unharmed (sha : Sha256) {header : ImageHeader}
    {segment : Segment} {address : UInt32}
    (unharmed : ∀ target, Written P flash target → ∀ byte,
      Unharmed part flash (flash.patch target byte))
    (accepted : ((readHeader part.offset).run flash).result = .ok header)
    (hashed : header.hashAppended = true)
    (walked : Walked flash part.offset
      (imageSegments flash part.offset header) segment)
    (inside : segment.LengthByte part.offset address)
    (written : Written P flash address) :
    segment.Sized flash part.offset ∧
      ¬ Written P flash (segment.headerPos part.offset + 4 + 2) := by
  have high {index : Nat} (two : 2 ≤ index) (below : index < 4) :
      ¬ Written P flash
        (segment.headerPos part.offset + 4 + UInt32.ofNat index) :=
    unwritten_of_unharmed sha below (by decide : (0xFE : UInt8) ≠ 0xFF)
      unharmed accepted hashed walked
      (word_patch_gt flash _ (by decide) two below)
      (word_patch_gt flash _ (by decide) two below)
  refine ⟨?_, high (Nat.le_refl 2) (by decide)⟩
  by_contra notSized
  have first : Written P flash (segment.headerPos part.offset + 4) :=
    (written_edge 3 (by decide) inside written).resolve_right
      (high (by decide : 2 ≤ 3) (by decide))
  have refused := walked.refused notSized
  apply unwritten_of_unharmed sha (by decide : 0 < 4)
    (by decide : (1 : UInt8) ≠ 2) unharmed accepted hashed walked
    (word_patch_gt_of_gt refused (by decide))
    (word_patch_gt_of_gt refused (by decide))
  simpa using first

/-- A partition that no byte put into a written sector harms is spared. -/
theorem spared_of_unharmed
    (unharmed : ∀ target, Written P flash target → ∀ byte,
      Unharmed part flash (flash.patch target byte))
    (uncut : ∀ header segment, ¬ CutLength P flash part header segment) :
    Spared P flash part := by
  have magic (readable : flash.Readable part.offset 24) :
      ¬ Written P flash part.offset := by
    intro written
    have zero := (unharmed _ written 0).header
    have one := (unharmed _ written 1).header
    rw [result_readHeader_patch_magic readable (by decide)] at zero one
    cases zero.trans one.symm
  constructor
  · intro address inside written
    exact not_patched_twice fun byte =>
      (unharmed address written byte).bytes address inside
  · rintro address ⟨readable, inside⟩ written
    by_cases accepted : flash.byte part.offset = espImageHeaderMagic
    · rw [if_pos accepted] at inside
      rcases written_edge 23 (by decide) inside written with first | last
      · exact magic readable first
      · have header : ((readHeader part.offset).run flash).result =
            .ok (flash.header part.offset) :=
          result_readHeader_eq_ok_iff.mpr
            ⟨readable, (magic_header _ _).trans accepted, rfl⟩
        have zero := hashAppended_patch_flag
          ((unharmed _ last 0).header.trans header)
        have one := hashAppended_patch_flag
          ((unharmed _ last 1).header.trans header)
        exact absurd (zero.symm.trans one) (by decide)
    · rw [if_neg accepted] at inside
      obtain ⟨index, below, rfl⟩ :=
        (inRange_iff_exists (by decide)).mp inside
      rw [Nat.lt_one_iff.mp below] at written
      exact magic readable (by simpa using written)
  · intro header accepted address needed written
    cases needed with
    | image hashed completes inside =>
        exact not_patched_twice fun byte =>
          same_image_of_verified hashed completes
            ((unharmed address written byte).verified header accepted) inside
    | @length segment hashed breaks walked inside =>
        obtain ⟨sized, third⟩ := sized_of_unharmed P.sha unharmed accepted
          hashed walked inside written
        exact uncut header segment ⟨accepted, breaks, walked, sized,
          ⟨_, inside, written⟩, third⟩

end Parts

/-- Whatever the stores do to their sectors, a boot leaves all app partitions
unharmed if it spares each of them, and otherwise does not, unless a sector
ends behind the first or the second byte of a length that a check got past
before it failed. -/
theorem app_partitions_unharmed_iff (P : Platform)
    (loads : P.ota.LoadsSector) (resetCause : Cause) (flash : Flash) :
    ((∀ part ∈ flash.partitions, part.kind = partTypeApp →
        Spared P flash part) →
      ∀ stores : Stores P, (P.withStores stores).Framed →
        ∀ part ∈ flash.partitions, part.kind = partTypeApp →
          Unharmed part flash
            (main (P.withStores stores) resetCause flash).flash) ∧
    ((∀ part ∈ flash.partitions, part.kind = partTypeApp →
        ∀ header segment, ¬ CutLength P flash part header segment) →
      (∀ stores : Stores P, (P.withStores stores).Framed →
        ∀ part ∈ flash.partitions, part.kind = partTypeApp →
          Unharmed part flash
            (main (P.withStores stores) resetCause flash).flash) →
      ∀ part ∈ flash.partitions, part.kind = partTypeApp →
        Spared P flash part) := by
  constructor
  · intro spared stores framed part member app
    obtain ⟨bytes, header, check⟩ := spared part member app
    apply unharmed_of_spared framed loads resetCause
    constructor
    · simpa only [written_withStores] using bytes
    · simpa only [written_withStores] using header
    · simpa only [written_withStores] using check
  · intro uncut unharmed part member app
    apply spared_of_unharmed _ (uncut part member app)
    intro target written byte
    have put := unharmed _ (framed_put P target byte) part member app
    rw [flash_main_put resetCause written byte] at put
    exact put

/-- The A/B layout keeps the app slots behind the sectors a boot writes, and
with them an image that is checked. -/
theorem slot_partitions_unharmed :
    (oneSlotFlash .a).partitions = slotTable ∧
      CheckCompletes (oneSlotFlash .a) (slotPartition .a).offset
        sampleHeader ∧
      ∀ stores : Stores (standIn sampleSha),
        ((standIn sampleSha).withStores stores).Framed →
        ∀ part ∈ (oneSlotFlash .a).partitions, part.kind = partTypeApp →
          Unharmed part (oneSlotFlash .a)
            (main ((standIn sampleSha).withStores stores) .powerOn
              (oneSlotFlash .a)).flash := by
  have table : (oneSlotFlash .a).partitions = slotTable :=
    partitions_withTable _ (by decide)
  have completes : CheckCompletes (oneSlotFlash .a)
      (slotPartition .a).offset sampleHeader := by
    refine ⟨by decide +kernel, ?_⟩
    exact Flash.Intact.readsSucceed (fun _ _ => rfl) _
  refine ⟨table, completes, ?_⟩
  apply (app_partitions_unharmed_iff (standIn sampleSha)
    durable_standIn.sector .powerOn _).1
  intro part member _
  rw [table] at member
  have layout : part = slotPartition .a ∨ part = slotPartition .b := by
    simpa [slotTable] using member
  have behind {start address : UInt32} {len : Nat}
      (fits : start.toNat + len ≤ 2 ^ 32) (front : 0x14000 ≤ start.toNat)
      (inside : InRange start len address) :
      ¬ Written (standIn sampleSha) (oneSlotFlash .a) address := by
    obtain ⟨bootlog, bootstat, otadata⟩ := sparesSector_of_behind fits front
    intro written
    cases written with
    | bootlog inSector => exact bootlog address inside inSector
    | bootstat inSector => exact bootstat address inside inSector
    | otadata _ inSector => exact otadata address inside inSector
  constructor
  · intro address
    rcases layout with rfl | rfl
    · exact behind (by decide) (by decide)
    · exact behind (by decide) (by decide)
  · rintro address ⟨_, inside⟩
    have inHeader : InRange part.offset 24 address := by
      apply inside.mono
      split <;> decide
    rcases layout with rfl | rfl
    · exact behind (by decide) (by decide) inHeader
    · exact behind (by decide) (by decide) inHeader
  · intro header accepted address needed
    obtain ⟨_, magic, rfl⟩ := result_readHeader_eq_ok_iff.mp accepted
    rcases layout with rfl | rfl
    · have header : (oneSlotFlash .a).header (slotPartition .a).offset =
          sampleHeader := by decide +kernel
      rw [header] at needed
      cases needed with
      | image _ _ inside => exact behind (by decide +kernel) (by decide) inside
      | length _ breaks => exact absurd completes breaks
    · exact absurd magic (by decide +kernel)

/-- The single-app layout: `nvs`, `phy_init` and `factory`. -/
def singleAppTable : List PartitionEntry :=
  [{ kind := partTypeData
     subtype := 0x02
     offset := 0x9000
     size := 0x6000
     label := labelOfBytes [0x6E, 0x76, 0x73] },
    { kind := partTypeData
      subtype := 0x01
      offset := 0xF000
      size := 0x1000
      label := labelOfBytes
        [0x70, 0x68, 0x79, 0x5F, 0x69, 0x6E, 0x69, 0x74] },
    factoryPartition]

/-- On the single-app layout the boot-history store changes a byte of the
app. -/
theorem single_app_is_harmed :
    (standIn sampleSha).Framed ∧
      factoryPartition ∈
        (Flash.erased.withTable singleAppTable).partitions ∧
      factoryPartition.kind = partTypeApp ∧
      ¬ Unharmed factoryPartition (Flash.erased.withTable singleAppTable)
        (main (standIn sampleSha) .powerOn
          (Flash.erased.withTable singleAppTable)).flash := by
  refine ⟨framed_standIn sampleSha, ?_, rfl, ?_⟩
  · rw [partitions_withTable _ (by decide)]
    simp [singleAppTable]
  · intro unharmed
    have same := unharmed.bytes 0x12000 (by decide)
    rw [main_flash] at same
    revert same
    decide +kernel

end MiniBootloader
