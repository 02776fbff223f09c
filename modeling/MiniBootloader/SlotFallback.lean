import MiniBootloader.DigestGate
import MiniBootloader.PickSpec

/-!
# Fallback of the slot selection

`pick` tries the slot the policy chose and then the factory partition.  What
it returns is stated in terms of the images the flash has for each of them.
-/

namespace MiniBootloader

/-! ## Candidates -/

/-- The partition of a slot, if `read_header` accepts what it starts with. -/
def Flash.slotImage (flash : Flash) (slot : Slot) : Option PartitionEntry :=
  (flash.partitions.find? fun e => e.labelStr == slot.label).filter
    fun e => flash.Bootable e

/-- The factory partition, if `read_header` accepts what it starts with. -/
def Flash.factoryImage (flash : Flash) : Option PartitionEntry :=
  (flash.partitions.find? fun e =>
    e.kind == partTypeApp && e.subtype == partSubtypeFactory).filter
      fun e => flash.Bootable e

/-- What a lookup followed by a header check returns. -/
inductive Candidate (flash : Flash) (found : Option PartitionEntry) :
    Option PartitionEntry → Prop where
  | accepted {entry : PartitionEntry} (present : found = some entry)
      (bootable : flash.Bootable entry) :
      Candidate flash found (some entry)
  | rejected {entry : PartitionEntry} (present : found = some entry)
      (refused : ¬ flash.Bootable entry) :
      Candidate flash found none
  | missing (absent : found = none) : Candidate flash found none

theorem candidate_filter (flash : Flash) (found : Option PartitionEntry) :
    Candidate flash found (found.filter fun e => flash.Bootable e) := by
  cases present : found with
  | none => exact .missing rfl
  | some entry =>
      by_cases bootable : flash.Bootable entry
      · rw [Option.filter_some, if_pos (by simpa using bootable)]
        exact .accepted rfl bootable
      · rw [Option.filter_some, if_neg (by simpa using bootable)]
        exact .rejected rfl bootable

theorem Candidate.of_some {flash : Flash} {found : Option PartitionEntry}
    {entry : PartitionEntry}
    (candidate : Candidate flash found (some entry)) :
    found = some entry ∧ flash.Bootable entry := by
  cases candidate with
  | accepted present bootable => exact ⟨present, bootable⟩

theorem candidate_slotImage (flash : Flash) (slot : Slot) :
    Candidate flash
      (flash.partitions.find? fun e => e.labelStr == slot.label)
      (flash.slotImage slot) :=
  candidate_filter flash _

theorem candidate_factoryImage (flash : Flash) :
    Candidate flash
      (flash.partitions.find? fun e =>
        e.kind == partTypeApp && e.subtype == partSubtypeFactory)
      flash.factoryImage :=
  candidate_filter flash _

theorem find_of_slotImage {flash : Flash} {slot : Slot}
    {entry : PartitionEntry} (image : flash.slotImage slot = some entry) :
    (flash.partitions.find? fun e => e.labelStr == slot.label) =
      some entry := by
  have candidate := candidate_slotImage flash slot
  rw [image] at candidate
  exact candidate.of_some.1

theorem find_of_factoryImage {flash : Flash} {entry : PartitionEntry}
    (image : flash.factoryImage = some entry) :
    (flash.partitions.find? fun e =>
      e.kind == partTypeApp && e.subtype == partSubtypeFactory) =
        some entry := by
  have candidate := candidate_factoryImage flash
  rw [image] at candidate
  exact candidate.of_some.1

theorem bootable_of_slotImage {flash : Flash} {slot : Slot}
    {entry : PartitionEntry} (image : flash.slotImage slot = some entry) :
    flash.Bootable entry := by
  have candidate := candidate_slotImage flash slot
  rw [image] at candidate
  exact candidate.of_some.2

theorem bootable_of_factoryImage {flash : Flash} {entry : PartitionEntry}
    (image : flash.factoryImage = some entry) : flash.Bootable entry := by
  have candidate := candidate_factoryImage flash
  rw [image] at candidate
  exact candidate.of_some.2

/-! ## The two attempts -/

section Attempts

variable {flash : Flash}

/-- What a lookup offers is the first match, if it is bootable. -/
theorem offers_findEntry_iff (readable : flash.TableReadable)
    (matching : PartitionEntry → Bool) {entry : PartitionEntry} :
    flash.Offers (findEntry matching) entry ↔
      ((flash.partitions.find? matching).filter
        fun e => flash.Bootable e) = some entry := by
  rw [Flash.Offers, result_findEntry_eq_ok_iff, ← bootable_iff,
    Option.filter_eq_some_iff, decide_eq_true_eq]
  constructor
  · rintro ⟨⟨_, found⟩, bootable⟩
    exact ⟨found, bootable⟩
  · rintro ⟨found, bootable⟩
    exact ⟨⟨readable, found⟩, bootable⟩

theorem result_fallBackToFactory (skipped : Slot)
    (readable : flash.TableReadable) :
    ((fallBackToFactory skipped).run flash).result =
      match flash.factoryImage with
      | some entry => .ok (entry, .factoryFallback skipped)
      | none => .error .noBootableApp := by
  have offers (entry : PartitionEntry) :
      flash.Offers findFactoryApp entry ↔ flash.factoryImage = some entry :=
    offers_findEntry_iff readable _
  rw [fallBackToFactory_eq]
  cases image : flash.factoryImage with
  | some entry =>
      rw [result_tryCandidate_of_offers _ ((offers entry).mpr image)]
  | none =>
      rw [result_tryCandidate_of_not_offers]
      · rfl
      · intro entry offered
        rw [offers, image] at offered
        cases offered

theorem result_bootChosenSlot (slot : Slot) (outcome : SelectionOutcome)
    (readable : flash.TableReadable) :
    ((bootChosenSlot slot outcome).run flash).result =
      match flash.slotImage slot with
      | some entry => .ok (entry, outcome)
      | none => ((fallBackToFactory slot).run flash).result := by
  have offers (entry : PartitionEntry) :
      flash.Offers (findByLabel slot.label) entry ↔
        flash.slotImage slot = some entry :=
    offers_findEntry_iff readable _
  rw [bootChosenSlot_eq]
  cases image : flash.slotImage slot with
  | some entry =>
      rw [result_tryCandidate_of_offers _ ((offers entry).mpr image)]
  | none =>
      rw [result_tryCandidate_of_not_offers]
      intro entry offered
      rw [offers, image] at offered
      cases offered

/-- Without a partition table nothing is found. -/
theorem result_bootChosenSlot_of_not_readable (slot : Slot)
    (outcome : SelectionOutcome) (failed : ¬ flash.TableReadable) :
    ((bootChosenSlot slot outcome).run flash).result =
      .error .noBootableApp := by
  have lookup : (findByLabel slot.label).run flash = _ :=
    run_findEntry_of_not_readable _ failed
  have factory : findFactoryApp.run flash = _ :=
    run_findEntry_of_not_readable _ failed
  simp only [bootChosenSlot, fallBackToFactory, Traced.run_bind,
    Traced.run_attempt, lookup, factory, Traced.run_throw]

end Attempts

/-- A bootable chosen slot is picked. -/
theorem result_pick_of_slotImage (ota : P4Ota) {flash : Flash}
    {entry : PartitionEntry}
    (readable : (pick ota flash).flash.TableReadable)
    (image : (pick ota flash).flash.slotImage (chosenSlot ota flash) =
      some entry) :
    (pick ota flash).result = .ok (entry, (pickPlan ota flash).2.1) := by
  rw [pick_result, result_bootChosenSlot _ _ readable, image]

theorem loadFromFlash_withTable (flash : Flash)
    {entries : List PartitionEntry} (count : entries.length ≤ 32) :
    StandIn.loadFromFlash otadataPartitionOffset (flash.withTable entries) =
      StandIn.loadFromFlash otadataPartitionOffset flash := by
  apply durable_standIn.sector
  apply sameRange_withTable flash count
  · decide
  · decide

/-- With blank otadata the stand-ins pick the first slot of a written
table, if its image lies behind the sectors they store to. -/
theorem bootPick_standIn {sha : Sha256} {resetCause : Cause}
    {flash : Flash} {entries : List PartitionEntry} {entry : PartitionEntry}
    (count : entries.length ≤ 32) (readable : flash.TableReadable)
    (blank : StandIn.loadFromFlash otadataPartitionOffset flash =
      .error ())
    (found : (entries.find? fun e => e.labelStr == Slot.label .a) =
      some entry)
    (bootable : flash.Bootable entry)
    (behind : 0x14000 ≤ entry.offset.toNat)
    (fits : entry.offset.toNat + 24 ≤ 2 ^ 32) :
    (bootPick (standIn sha) resetCause (flash.withTable entries)).result =
      .ok (entry, .otaFresh) := by
  have framed := framed_standIn sha
  have table := table_bootPick framed resetCause (flash.withTable entries)
  have otadata := durable_standIn.sector _ _ _ (sameRange_otadata_flashAtPick
    framed.toReportsFramed resetCause (flash.withTable entries))
  have plan := pickPlan_standIn (otadata.trans
    ((loadFromFlash_withTable flash count).trans blank))
  have kept : SameRange entry.offset 24 flash
      (bootPick (standIn sha) resetCause (flash.withTable entries)).flash :=
    (sameRange_withTable flash count fits (by omega)).trans
      (sameRange_bootPick_behind framed fits behind resetCause _)
  have image : (bootPick (standIn sha) resetCause
      (flash.withTable entries)).flash.slotImage .a = some entry := by
    rw [Flash.slotImage, table.1, partitions_withTable flash count, found,
      Option.filter_some, if_pos]
    exact decide_eq_true (kept.bootable.mpr bootable)
  have picked := result_pick_of_slotImage StandIn.ota
    (table.2.mpr readable) (by rw [chosenSlot, plan]; exact image)
  rw [plan] at picked
  exact picked

/-! ## The example layout -/

/-- The example layout with the sample image in one of its slots. -/
def oneSlotFlash (slot : Slot) : Flash :=
  (Flash.erased.program (slotPartition slot).offset
    (samplePayload ++ sampleDigest.toList)).withTable slotTable

theorem slotImage_withTable (flash : Flash) {entries : List PartitionEntry}
    (count : entries.length ≤ 32) {slot : Slot} {entry : PartitionEntry}
    (found : (entries.find? fun e => e.labelStr == slot.label) = some entry)
    (fits : entry.offset.toNat + 24 ≤ 2 ^ 32)
    (behind : 0x8400 ≤ entry.offset.toNat) :
    (flash.withTable entries).slotImage slot =
      if flash.Bootable entry then some entry else none := by
  have kept := (sameRange_withTable flash count fits behind).bootable
  rw [Flash.slotImage, partitions_withTable flash count, found,
    Option.filter_some]
  simp only [kept, decide_eq_true_eq]

theorem slotImage_oneSlotFlash (slot slot' : Slot) :
    (oneSlotFlash slot).slotImage slot' =
      if slot' = slot then some (slotPartition slot) else none := by
  have found : (slotTable.find? fun e => e.labelStr == slot'.label) =
      some (slotPartition slot') := by
    cases slot' <;> decide
  rw [oneSlotFlash, slotImage_withTable _ (by decide) found]
  · cases slot <;> cases slot' <;> decide
  · cases slot' <;> decide
  · cases slot' <;> decide

theorem pickPlan_oneSlotFlash (slot : Slot) :
    pickPlan StandIn.ota (oneSlotFlash slot) = (.a, .otaFresh, none) := by
  apply pickPlan_standIn
  rw [oneSlotFlash, loadFromFlash_withTable _ (by decide)]
  cases slot <;> decide

theorem pick_flash_oneSlotFlash (slot : Slot) :
    (pick StandIn.ota (oneSlotFlash slot)).flash = oneSlotFlash slot := by
  rw [pick_flash, pickPlan_oneSlotFlash]
  rfl

end MiniBootloader
