import Mathlib.Algebra.Order.Group.Nat
import MiniBootloader.BootRefinement
import MiniBootloader.CheckedArithmetic
import MiniBootloader.ConsoleLog
import MiniBootloader.Library.Costs
import MiniBootloader.Noninterference

/-!
# How much a boot reads

From the first step of `main` to the handoff no watchdog runs, so a boot that
went on reading would never be reset.  It does not: on a flash of any content
the number of its reads and the bytes asked for stay below bounds that depend
on the capacity of the flash only.  Two counts are kept at once, the reads
and their bytes.
-/

namespace MiniBootloader

open Traced

/-- One read, and its length. -/
def Event.readCost : Event → ℕ × ℕ
  | .romRead _ _ len => (1, len)
  | _ => 0

/-! ## Parts of fixed size -/

section Parts

variable {flash : Flash}

theorem within_read (start : UInt32) (dest : Dest) (len : Nat) :
    (read start dest len).Within Event.readCost (1, len) flash := by
  by_cases bad : len % 4 ≠ 0 ∨ dest.misaligned = true
  · rw [Within, run_read_of_misaligned start bad]
    exact zero_le
  · simp only [not_or, Decidable.not_not, Bool.not_eq_true] at bad
    by_cases readable : flash.Readable start len
    · rw [Within, run_read_of_readable bad.1 bad.2 readable]
      cases dest with
      | words => exact le_refl _
      | memory address => exact le_refl _
    · rw [Within, run_read_of_not_readable bad.1 bad.2 readable]
      exact le_refl _

theorem within_readHeader (off : UInt32) :
    (readHeader off).Within Event.readCost (1, 24) flash := by
  apply (within_read off .words 24).mapError.bind_of_free
  intro bytes
  dsimp only
  split
  · exact within_throw _
  · exact within_pure _

theorem within_readSegmentHeader (pos : UInt32) :
    (readSegmentHeader pos).Within Event.readCost (1, 8) flash :=
  (within_read pos .words 8).mapError.bind_of_free fun _ => within_pure _

theorem within_sizeWalk (count : Nat) (total pos : UInt32) :
    (sizeWalk count total pos).Within Event.readCost (count, 8 * count)
      flash := by
  induction count generalizing total pos with
  | zero => exact within_pure total
  | succ count ih =>
      have step : ((1, 8) + (count, 8 * count) : ℕ × ℕ) ≤
          (count + 1, 8 * (count + 1)) :=
        Prod.mk_le_mk.mpr ⟨by omega, by omega⟩
      apply Within.mono _ step
      apply (within_readSegmentHeader pos).bind
      intro hdr _
      dsimp only
      split
      · exact (within_throw _).mono zero_le
      · exact ih _ _

theorem within_computeImageTotalSize (off : UInt32)
    (header : ImageHeader) :
    (computeImageTotalSize off header).Within Event.readCost (255, 2040)
      flash := by
  have count := header.segmentCount.toNat_lt
  have walk : ((header.segmentCount.toNat,
      8 * header.segmentCount.toNat) : ℕ × ℕ) ≤ (255, 2040) :=
    Prod.mk_le_mk.mpr ⟨by omega, by omega⟩
  apply Within.mono _ walk
  apply (within_sizeWalk _ _ _).bind_of_free
  intro total
  dsimp only
  split <;> exact within_pure _

theorem within_findEntry (matching : PartitionEntry → Bool) :
    (findEntry matching).Within Event.readCost (1, 1024) flash := by
  have table : (forEachEntry (keepFirst matching) none).Within
      Event.readCost (1, 1024) flash :=
    (within_read _ _ _).bind_of_free fun _ => within_pure _
  apply table.mapError.bind_of_free
  intro found
  cases found with
  | none => exact within_throw _
  | some entry => exact within_pure entry

theorem within_tryCandidate
    {lookup : FlashM PartitionError PartitionEntry}
    {outcome : SelectionOutcome} {budget : ℕ × ℕ}
    {otherwise : FlashM SlotSelectError (PartitionEntry × SelectionOutcome)}
    (lookupWithin : lookup.Within Event.readCost (1, 1024) flash)
    (otherwiseWithin : otherwise.Within Event.readCost budget flash) :
    (tryCandidate lookup outcome otherwise).Within Event.readCost
      ((1, 1024) + ((1, 24) + budget)) flash := by
  apply lookupWithin.attempt.bind
  intro found _
  cases found with
  | error error => exact otherwiseWithin.mono le_add_self
  | ok part =>
      apply (within_readHeader part.offset).attempt.bind
      intro header _
      cases header with
      | error error => exact otherwiseWithin
      | ok header => exact (within_pure _).mono zero_le

/-- The table and a header, and both again for the fallback. -/
theorem within_bootChosenSlot (slot : Slot) (outcome : SelectionOutcome) :
    (bootChosenSlot slot outcome).Within Event.readCost (4, 2096)
      flash := by
  rw [bootChosenSlot_eq, fallBackToFactory_eq]
  exact within_tryCandidate (within_findEntry _)
    (within_tryCandidate (within_findEntry _) (within_throw _))

end Parts

/-! ## Parts that end with the flash -/

section Ends

variable {flash : Flash} {capacity : Nat} {off : UInt32}

/-- The chunks lie one behind the other, so only the last of them may reach
past the end of the flash. -/
theorem within_hashLoop (small : capacity ≤ 2 ^ 31)
    (ends : flash.EndsAt capacity) {sha : Sha256} {payload : Nat}
    {hasher : sha.State} {done : Nat}
    (reached : off.toNat + done ≤ capacity) :
    (hashLoop sha off payload hasher done).Within Event.readCost
      ((capacity - (off.toNat + done)) / 1024 + 1,
        capacity - (off.toNat + done) + 1024) flash := by
  induction hasher, done using hashLoop.induct sha payload with
  | case1 hasher done more want ih =>
      have chunk : want ≤ 1024 := Nat.min_le_left _ _
      rw [hashLoop, if_pos more]
      apply (within_read _ _ _).bind_of_results
      · exact Prod.mk_le_mk.mpr ⟨by omega, by omega⟩
      · intro slice chunkRead
        have next := reached_next small ends reached more
          (readable_of_result_read chunkRead)
        change off.toNat + (done + want) ≤ capacity at next
        by_cases last : payload ≤ done + want
        · refine ⟨0, ?_, ?_⟩
          · rw [hashLoop, if_neg (Nat.not_lt.mpr last)]
            exact within_pure _
          · rw [add_zero]
            exact Prod.mk_le_mk.mpr ⟨by omega, by omega⟩
        · have full : want = 1024 := by
            simp only [want, chunkLen] at last ⊢
            omega
          refine ⟨_, ih slice next, ?_⟩
          exact Prod.mk_le_mk.mpr ⟨by omega, by omega⟩
  | case2 hasher done finished =>
      rw [hashLoop, if_neg finished]
      exact (within_pure hasher).mono zero_le

theorem within_verifyGate (small : capacity ≤ 2 ^ 31)
    (ends : flash.EndsAt capacity) {sha : Sha256} {header : ImageHeader}
    (reached : off.toNat ≤ capacity) :
    (verifyGate sha off header).Within Event.readCost
      (255 + (capacity / 1024 + 2), 2040 + (capacity + 1056)) flash := by
  have payload (len : Nat) : (verifyPayload sha off len).Within
      Event.readCost (capacity / 1024 + 2, capacity + 1056) flash := by
    have start : off.toNat + 0 ≤ capacity := reached
    have chunks : ((capacity - (off.toNat + 0)) / 1024 + 1,
        capacity - (off.toNat + 0) + 1024) + ((1, 32) : ℕ × ℕ) ≤
          (capacity / 1024 + 2, capacity + 1056) :=
      Prod.mk_le_mk.mpr ⟨by omega, by omega⟩
    apply Within.mono _ chunks
    apply (within_hashLoop small ends start).mapError.bind
    intro hasher _
    apply (within_read _ _ _).mapError.bind_of_free
    intro expected
    split
    · exact within_throw _
    · exact within_pure _
  by_cases hashed : header.hashAppended = true
  · rw [verifyGate, if_pos hashed, verifyAppSha256,
      if_neg (not_not.mpr hashed)]
    have size : ((computeImageTotalSize off header).mapError
        VerifyError.fromAppLoadError).Within Event.readCost (255, 2040)
          flash :=
      (within_computeImageTotalSize off header).mapError
    have verified := size.bind fun total _ =>
      payload (total - hashLen).toNat
    exact verified.mapError.bind_of_free fun _ => within_pure ()
  · rw [verifyGate, if_neg hashed]
    exact (within_pure ()).mono zero_le

/-- The segments lie one behind the other, and what is read past the end is
at most the last header and the last data. -/
theorem within_loadWalk (small : capacity ≤ 2 ^ 31)
    (ends : flash.EndsAt capacity) {count index : Nat} {pos : UInt32}
    (reached : pos.toNat ≤ capacity) :
    (loadWalk count index pos).Within Event.readCost
      (2 * count, capacity - pos.toNat + 8388616) flash := by
  induction count generalizing index pos with
  | zero => exact (within_pure ()).mono zero_le
  | succ count ih =>
      apply (within_readSegmentHeader pos).bind_of_results
      · exact Prod.mk_le_mk.mpr ⟨by omega, by omega⟩
      · intro hdr headerRead
        have inside := ends.le_of_readable
          (readable_of_result_readSegmentHeader headerRead) (by decide)
          (by decide)
        have advanced : (pos + 8).toNat = pos.toNat + 8 := by
          have eight : (8 : UInt32).toNat = 8 := rfl
          rw [UInt32.toNat_add, eight, Nat.mod_eq_of_lt (by omega)]
        refine ⟨(2 * count + 1, capacity - (pos.toNat + 8) + 8388616), ?_,
          Prod.mk_le_mk.mpr ⟨by omega, by omega⟩⟩
        dsimp only
        split
        · exact (within_throw _).mono zero_le
        · rename_i sized
          have limit : hdr.2.toNat ≤ 8388608 :=
            UInt32.le_iff_toNat_le.mp (UInt32.not_lt.mp sized)
          split
          · exact (within_throw _).mono zero_le
          · have report : (emit (.onSegment index hdr.1 hdr.2) :
                FlashM AppLoadError Unit).Within Event.readCost 0 flash :=
              within_emit _
            apply report.bind_of_results zero_le
            intro _ _
            refine ⟨_, ?_, le_of_eq (zero_add _)⟩
            apply (within_read _ _ _).mapError.bind_of_results
            · exact Prod.mk_le_mk.mpr ⟨by omega, by omega⟩
            · intro data dataRead
              have readable := readable_of_result_read
                (result_mapError_eq_ok_iff.mp dataRead)
              have behind : (pos + 8).toNat + hdr.2.toNat ≤ capacity := by
                by_cases empty : hdr.2.toNat = 0
                · omega
                · exact ends.le_of_readable readable (by omega) (by omega)
              have next : (pos + 8 + hdr.2).toNat =
                  pos.toNat + 8 + hdr.2.toNat := by
                rw [UInt32.toNat_add, advanced,
                  Nat.mod_eq_of_lt (by omega)]
              refine ⟨_, ih (by omega), ?_⟩
              exact Prod.mk_le_mk.mpr ⟨by omega, by omega⟩

theorem within_bootImage (small : capacity ≤ 2 ^ 31)
    (ends : flash.EndsAt capacity) (sha : Sha256) :
    (bootImage sha off).Within Event.readCost
      (capacity / 1024 + 768, 2 * capacity + 8391712) flash := by
  apply (within_readHeader off).mapError.bind_of_results
  · exact Prod.mk_le_mk.mpr ⟨by omega, by omega⟩
  · intro header headerRead
    have accepted := result_mapError_eq_ok_iff.mp headerRead
    have inside := ends.le_of_readable
      (result_readHeader_eq_ok_iff.mp accepted).1 (by decide) (by decide)
    have advanced : (off + 24).toNat = off.toNat + 24 := by
      have size : (24 : UInt32).toNat = 24 := rfl
      rw [UInt32.toNat_add, size, Nat.mod_eq_of_lt (by omega)]
    have count := header.segmentCount.toNat_lt
    have load : (loadSegments off header).Within Event.readCost
        (2 * header.segmentCount.toNat,
          capacity - (off + 24).toNat + 8388616) flash :=
      within_loadWalk small ends (by omega)
    refine ⟨_, (within_verifyGate small ends (by omega)).bind fun _ _ =>
      load.mapError.bind_of_free fun _ => within_pure _, ?_⟩
    rw [Prod.mk_add_mk, Prod.mk_add_mk]
    exact Prod.mk_le_mk.mpr ⟨by omega, by omega⟩

theorem within_bootPlanned (small : capacity ≤ 2 ^ 31)
    (ends : flash.EndsAt capacity) (sha : Sha256) (slot : Slot)
    (outcome : SelectionOutcome) :
    (bootPlanned sha slot outcome).Within Event.readCost
      (capacity / 1024 + 772, 2 * capacity + 8393808) flash := by
  have parts : (4, 2096) + (capacity / 1024 + 768, 2 * capacity + 8391712) ≤
      (capacity / 1024 + 772, 2 * capacity + 8393808) :=
    Prod.mk_le_mk.mpr ⟨by omega, by omega⟩
  apply Within.mono _ parts
  apply (within_bootChosenSlot slot outcome).mapError.bind
  intro picked _
  exact within_bootImage small ends sha

end Ends

/-! ## Whole boots -/

def Decisive.readCost {S : Type} : Decisive S → ℕ × ℕ
  | .store _ _ => 0
  | .flash event => event.readCost

/-- What `main` reads through `flash::read`. -/
def BootStep.readCost {P : Platform} : BootStep P → ℕ × ℕ
  | .boot (.pick (.flash event)) => event.readCost
  | .boot (.image event) => event.readCost
  | _ => 0

/-- Only the decisive steps of a boot read. -/
theorem readCost_eq {P : Platform} (step : BootStep P) :
    step.readCost = ((step.seen.bind BootEvent.decisive).map
      Decisive.readCost).getD 0 := by
  cases step with
  | boot event =>
      cases event with
      | report event => rfl
      | pick event => cases event <;> rfl
      | image event => rfl
  | _ => rfl

theorem sum_plannedStores {S : Type} (persist : Option S) :
    ((plannedStores persist).map Decisive.readCost).sum = 0 := by
  cases persist <;> rfl

/-- However a boot ends, and whatever the flash holds: at most one read for
each kilobyte of the flash and 772 more, and at most twice the bytes of the
flash and 8393808 more. -/
theorem boot_reads_bounded {P : Platform} (framed : P.Framed)
    (texts : Texts P) (resetCause : Cause) {flash : Flash}
    {capacity : Nat} (small : capacity ≤ 2 ^ 31)
    (ends : flash.EndsAt capacity) :
    let spent := (((Sequence.main texts resetCause).run flash).events.map
      BootStep.readCost).sum
    spent.1 ≤ capacity / 1024 + 772 ∧
      spent.2 ≤ 2 * capacity + 8393808 := by
  let boot : Boot := ⟨resetCause, flash⟩
  obtain ⟨_, seen, _⟩ :=
    Sequence.main_refines_outline texts resetCause flash
  have left : (bootPick P resetCause flash).flash.EndsAt capacity := by
    intro start len positive short past
    rw [Flash.Readable, status_bootPick framed]
    exact ends start len positive short past
  have cost : (((Sequence.main texts resetCause).run flash).events.map
      BootStep.readCost).sum =
      ((bootDecision P boot).1.map Decisive.readCost).sum := by
    rw [bootDecision, ← seen, List.filterMap_filterMap,
      sum_map_filterMap readCost_eq]
  rw [cost, bootDecision_eq, List.map_append, List.sum_append,
    sum_plannedStores, zero_add, List.map_map]
  exact Prod.mk_le_mk.mp
    (within_bootPlanned small left P.sha (boot.plan P).1 (boot.plan P).2.1)

/-- On a flash of 16 MB. -/
theorem boot_reads_bounded_sample :
    let flash := (oneSlotFlash .a).endedAt 0x1000000
    let spent := (((Sequence.main StandIn.texts .powerOn).run
      flash).events.map BootStep.readCost).sum
    spent.1 ≤ 17156 ∧ spent.2 ≤ 41948240 :=
  boot_reads_bounded framed_uptimeStandIn StandIn.texts .powerOn
    (by decide) (endsAt_endedAt (oneSlotFlash .a) 0x1000000)

end MiniBootloader
