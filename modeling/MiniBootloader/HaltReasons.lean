import MiniBootloader.InstalledImages
import MiniBootloader.PickSpec
import MiniBootloader.WalkFailure

/-!
# What a boot can fail with

The error types of the modules have more variants than a boot ever ends with:
a lookup that fails leads to the factory partition, the second read of the
header repeats the first, the check is only made where a hash is declared.
The reasons that are left are exactly those listed here.
-/

namespace MiniBootloader

open Words

/-- The reasons for which a boot may end in the heartbeat loop. -/
inductive Halt.Reachable : Halt → Prop where
  | noBootableApp : Halt.Reachable (.pick .noBootableApp)
  | verifyRead {status : Int32} :
      status ≠ 0 →
      Halt.Reachable (.verify (.flash (.rom status)))
  | mismatch {expected actual : Digest} :
      actual ≠ expected →
      Halt.Reachable (.verify (.mismatch expected actual))
  | verifyTooLarge {dataLen : UInt32} :
      dataLen > maxSegmentLen →
      Halt.Reachable (.verify (.totalSize (.segmentTooLarge dataLen)))
  | loadRead {status : Int32} :
      status ≠ 0 →
      Halt.Reachable (.load (.flash (.rom status)))
  | misaligned : Halt.Reachable (.load (.flash .unaligned))
  | loadTooLarge {dataLen : UInt32} :
      dataLen > maxSegmentLen →
      Halt.Reachable (.load (.segmentTooLarge dataLen))
  | unaligned {dataLen : UInt32} :
      dataLen ≤ maxSegmentLen → dataLen % 4 ≠ 0 →
      Halt.Reachable (.load (.unalignedSegment dataLen))

/-! ## No other reason -/

section Raised

/-- What a read of whole words into a word buffer fails with. -/
def FlashError.OfRom (error : FlashError) : Prop :=
  ∃ status, status ≠ 0 ∧ error = .rom status

def VerifyError.Raised (error : VerifyError) : Prop :=
  (Halt.verify error).Reachable

theorem FlashError.OfRom.verify {error : FlashError}
    (ofRom : error.OfRom) : (VerifyError.flash error).Raised := by
  obtain ⟨status, failed, rfl⟩ := ofRom
  exact .verifyRead failed

variable {sha : Sha256} {flash : Flash} {off : UInt32}
  {header : ImageHeader} {segment : Segment}

theorem Segment.SizeFails.verify {error : AppLoadError}
    (fails : segment.SizeFails flash off error) :
    (VerifyError.fromAppLoadError error).Raised := by
  cases fails with
  | header failed => exact .verifyRead failed
  | tooLarge _ large => exact .verifyTooLarge large

theorem Segment.LoadFails.load {error : AppLoadError}
    (fails : segment.LoadFails flash off error) :
    (Halt.load error).Reachable := by
  cases fails with
  | size fails =>
      cases fails with
      | header failed => exact .loadRead failed
      | tooLarge _ large => exact .loadTooLarge large
  | copy sized fails =>
      cases fails with
      | unaligned odd => exact .unaligned sized.2 odd
      | misaligned _ _ => exact .misaligned
      | data _ _ failed => exact .loadRead failed

end Raised

section Samples

end Samples

end MiniBootloader
