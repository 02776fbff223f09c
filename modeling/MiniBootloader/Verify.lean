import MiniBootloader.ImageLayout

/-!
# The digest check of an image

The hash function comes from another crate, so the streaming interface the
code drives is a parameter.  `Streams` is the documented contract of that
interface: finalizing after any sequence of updates gives the digest of the
concatenation.
-/

namespace MiniBootloader

open Words

abbrev Digest := Vector UInt8 32

/-- The streaming hasher of the `sha2` crate. -/
structure Sha256 where
  State : Type
  new : State
  update : State → List UInt8 → State
  finalize : State → Digest

/-- Streaming updates hash the concatenation of their chunks. -/
def Sha256.Streams (sha : Sha256) (digest : List UInt8 → Digest) : Prop :=
  ∀ chunks : List (List UInt8),
    sha.finalize (chunks.foldl sha.update sha.new) = digest chunks.flatten

/-- The hasher that buffers its input and hashes it at the end. -/
def Sha256.buffered (digest : List UInt8 → Digest) : Sha256 :=
  { State := List UInt8
    new := []
    update := fun state chunk => state ++ chunk
    finalize := digest }

theorem Sha256.streams_buffered (digest : List UInt8 → Digest) :
    (Sha256.buffered digest).Streams digest := by
  intro chunks
  have absorbed : ∀ state : List UInt8,
      chunks.foldl (fun state chunk => state ++ chunk) state =
        state ++ chunks.flatten := by
    induction chunks with
    | nil => simp
    | cons chunk chunks induction =>
        intro state
        simp [induction]
  exact congrArg digest (absorbed [])

inductive VerifyError where
  | flash (error : FlashError)
  | noHash
  | mismatch (expected actual : Digest)
  | totalSize (error : AppLoadError)
  deriving DecidableEq

/-- `From<AppLoadError> for VerifyError`. -/
def VerifyError.fromAppLoadError : AppLoadError → VerifyError
  | .flash error => .flash error
  | other => .totalSize other

def chunkLen : Nat := 1024

/-- The `while` loop of `verify_app_sha256`; `done` is the source's `read`. -/
def hashLoop (sha : Sha256) (flashOffset : UInt32) (payloadLen : Nat)
    (hasher : sha.State) (done : Nat) : FlashM FlashError sha.State :=
  if done < payloadLen then do
    let want := min chunkLen (payloadLen - done)
    let slice ← read (flashOffset + UInt32.ofNat done) .words want
    hashLoop sha flashOffset payloadLen (sha.update hasher slice.toList)
      (done + want)
  else
    pure hasher
termination_by payloadLen - done
decreasing_by
  simp only [chunkLen]
  omega

/-- The part of `verify_app_sha256` after `payload_len` is known. -/
def verifyPayload (sha : Sha256) (flashOffset : UInt32) (payloadLen : Nat) :
    FlashM VerifyError Digest := do
  let hasher ← (hashLoop sha flashOffset payloadLen sha.new 0).mapError
    VerifyError.flash
  let actualDigest := sha.finalize hasher
  let expected ← (read (flashOffset + UInt32.ofNat payloadLen) .words
    32).mapError VerifyError.flash
  if actualDigest ≠ expected then
    Traced.throw (.mismatch expected actualDigest)
  else
    pure actualDigest

def verifyAppSha256 (sha : Sha256) (flashOffset : UInt32)
    (header : ImageHeader) : FlashM VerifyError Digest :=
  if ¬ header.hashAppended then
    Traced.throw .noHash
  else do
    let total ← (computeImageTotalSize flashOffset header).mapError
      VerifyError.fromAppLoadError
    let payloadLen := (total - hashLen).toNat
    verifyPayload sha flashOffset payloadLen

/-! ## Reads of the check -/

theorem local_hashLoop (sha : Sha256) (off : UInt32) (len : Nat)
    (hasher : sha.State) (done : Nat) :
    (hashLoop sha off len hasher done).Local sameAt := by
  induction hasher, done using hashLoop.induct sha len with
  | case1 hasher done more want induction =>
      rw [hashLoop, if_pos more]
      exact (local_read _ _ _).bind fun slice => induction slice
  | case2 hasher done reached =>
      rw [hashLoop, if_neg reached]
      exact Traced.local_pure sameAt hasher

theorem local_verifyPayload (sha : Sha256) (off : UInt32) (len : Nat) :
    (verifyPayload sha off len).Local sameAt := by
  apply (local_hashLoop _ _ _ _ _).mapError.bind
  intro hasher
  apply (local_read _ _ _).mapError.bind
  intro expected
  split
  · exact Traced.local_throw sameAt _
  · exact Traced.local_pure sameAt _

theorem local_verifyAppSha256 (sha : Sha256) (off : UInt32)
    (header : ImageHeader) :
    (verifyAppSha256 sha off header).Local sameAt := by
  unfold verifyAppSha256
  split
  · exact Traced.local_throw sameAt _
  · exact (local_computeImageTotalSize off header).mapError.bind
      fun total => local_verifyPayload sha off _

def verifyFault (flash : Flash) (event : Event) : Option VerifyError :=
  (romFault flash event).map VerifyError.flash

theorem reports_hashLoop (sha : Sha256) (off : UInt32) (len : Nat)
    (hasher : sha.State) (done : Nat) :
    (hashLoop sha off len hasher done).Reports romFault := by
  induction hasher, done using hashLoop.induct sha len with
  | case1 hasher done more want induction =>
      rw [hashLoop, if_pos more]
      exact (reports_read _ _ _).bind fun slice => induction slice
  | case2 hasher done reached =>
      rw [hashLoop, if_neg reached]
      exact Traced.reports_pure romFault hasher

private theorem appFault_map (flash : Flash) (event : Event) :
    (appFault flash event).map VerifyError.fromAppLoadError =
      verifyFault flash event := by
  simp only [appFault, verifyFault, Option.map_map]
  rfl

theorem reports_verifyPayload (sha : Sha256) (off : UInt32) (len : Nat) :
    (verifyPayload sha off len).Reports verifyFault := by
  apply (reports_hashLoop _ _ _ _ _).mapError.bind
  intro hasher
  apply (reports_read _ _ _).mapError.bind
  intro expected
  split
  · exact Traced.reports_throw verifyFault _
  · exact Traced.reports_pure verifyFault _

theorem reports_verifyAppSha256 (sha : Sha256) (off : UInt32)
    (header : ImageHeader) :
    (verifyAppSha256 sha off header).Reports verifyFault := by
  unfold verifyAppSha256
  split
  · exact Traced.reports_throw verifyFault _
  · have sizeReports : ((computeImageTotalSize off header).mapError
        VerifyError.fromAppLoadError).Reports _ :=
      (reports_computeImageTotalSize off header).mapError
    simp only [appFault_map] at sizeReports
    exact sizeReports.bind fun total => reports_verifyPayload sha off _

/-! ## The size of an image -/

/-- The segments of the image at `off`, as its header counts them. -/
def imageSegments (flash : Flash) (off : UInt32) (header : ImageHeader) :
    List Segment :=
  segmentTable flash off header.segmentCount.toNat 24

/-- A loader that succeeds got past every segment. -/
theorem loaded_of_result_loadSegments {flash : Flash} {off : UInt32}
    {header : ImageHeader}
    (success : ((loadSegments off header).run flash).result = .ok ()) :
    ∀ segment ∈ imageSegments flash off header,
      segment.Loaded flash off :=
  loaded_of_result_loadWalk success

theorem run_loadSegments_of_loaded {flash : Flash} {off : UInt32}
    {header : ImageHeader}
    (loaded : ∀ segment ∈ imageSegments flash off header,
      segment.Loaded flash off) :
    (loadSegments off header).run flash =
      ⟨loadTableEvents flash off 0 (imageSegments flash off header),
        .ok ()⟩ :=
  run_loadWalk_of_loaded 0 loaded

/-- Headers and data, the checksum byte, and the padding in front of it. -/
def payloadLen (flash : Flash) (off : UInt32) (header : ImageHeader) : Nat :=
  roundUp16 (tableEnd 24 (imageSegments flash off header) + 1)

theorem tableEnd_lt_payloadLen (flash : Flash) (off : UInt32)
    (header : ImageHeader) :
    tableEnd 24 (imageSegments flash off header) <
      payloadLen flash off header :=
  le_roundUp16 _

theorem payloadLen_mod (flash : Flash) (off : UInt32)
    (header : ImageHeader) : payloadLen flash off header % 16 = 0 :=
  roundUp16_mod _

section Size

variable {flash : Flash} {off : UInt32} {header : ImageHeader}

/-- Every length is at most 8 MB and there are at most 255 of them. -/
theorem payloadLen_add_lt
    (sized : ∀ segment ∈ imageSegments flash off header,
      segment.dataLen ≤ maxSegmentLen) :
    payloadLen flash off header + 32 < 2 ^ 31 := by
  have tableBound := tableEnd_le sized
  have countBound := header.segmentCount.toNat_lt
  have rounded := roundUp16_lt
    (tableEnd 24 (imageSegments flash off header) + 1)
  simp only [payloadLen, imageSegments] at rounded ⊢
  omega

theorem run_computeImageTotalSize_of_sized
    (sized : ∀ segment ∈ imageSegments flash off header,
      segment.Sized flash off) :
    (computeImageTotalSize off header).run flash =
      ⟨(imageSegments flash off header).map (Segment.headerRead off),
        .ok (UInt32.ofNat (payloadLen flash off header) +
          if header.hashAppended then hashLen else 0)⟩ := by
  have walk := run_sizeWalk_of_sized sized
  have bound := payloadLen_add_lt (fun segment member =>
    (sized segment member).2)
  have endBound := tableEnd_lt_payloadLen flash off header
  have padded : (UInt32.ofNat (tableEnd 24
      (imageSegments flash off header)) + 1 + 15) &&& ~~~15 =
        UInt32.ofNat (payloadLen flash off header) := by
    have endNat : (UInt32.ofNat (tableEnd 24
        (imageSegments flash off header)) + 1).toNat =
          tableEnd 24 (imageSegments flash off header) + 1 := by
      rw [UInt32.toNat_add, UInt32.toNat_ofNat']
      simp only [UInt32.reduceToNat]
      omega
    apply UInt32.toNat_inj.mp
    rw [toNat_add_and_not15 _ (by omega), endNat, UInt32.toNat_ofNat',
      Nat.mod_eq_of_lt (by omega)]
    rfl
  have walk' : (sizeWalk header.segmentCount.toNat imageHeaderSize
      (off + imageHeaderSize)).run flash =
        ⟨(imageSegments flash off header).map (Segment.headerRead off),
          .ok (UInt32.ofNat
            (tableEnd 24 (imageSegments flash off header)))⟩ := walk
  simp only [computeImageTotalSize, Traced.run_bind, walk', padded]
  split
  · simp [*]
  · simp [*]

theorem result_computeImageTotalSize_eq_ok_iff {total : UInt32} :
    ((computeImageTotalSize off header).run flash).result = .ok total ↔
      (∀ segment ∈ imageSegments flash off header,
        segment.Sized flash off) ∧
      total = UInt32.ofNat (payloadLen flash off header) +
        if header.hashAppended then hashLen else 0 := by
  constructor
  · intro success
    obtain ⟨last, walked, _⟩ := Traced.result_bind_eq_ok_iff.mp success
    have sized := sized_of_result_sizeWalk walked
    rw [run_computeImageTotalSize_of_sized sized] at success
    exact ⟨sized, (Except.ok.inj success).symm⟩
  · rintro ⟨sized, rfl⟩
    rw [run_computeImageTotalSize_of_sized sized]

/-- The size of an image that passes is that of its table, without wrapping
around. -/
theorem toNat_imageSize
    (sized : ∀ segment ∈ imageSegments flash off header,
      segment.Sized flash off) :
    (UInt32.ofNat (payloadLen flash off header) +
      if header.hashAppended then hashLen else 0).toNat =
        payloadLen flash off header +
          if header.hashAppended then 32 else 0 := by
  have bound := payloadLen_add_lt fun segment member =>
    (sized segment member).2
  have small : (UInt32.ofNat (payloadLen flash off header)).toNat =
      payloadLen flash off header := by
    rw [UInt32.toNat_ofNat', Nat.mod_eq_of_lt (by omega)]
  have hash : hashLen.toNat = 32 := rfl
  rw [UInt32.toNat_add, small]
  split
  · rw [hash, Nat.mod_eq_of_lt (by omega)]
  · rw [UInt32.toNat_zero, Nat.mod_eq_of_lt (by omega)]

/-- The subtraction `total - 32` undoes the addition of the hash length. -/
theorem toNat_total_sub_hashLen
    (sized : ∀ segment ∈ imageSegments flash off header,
      segment.dataLen ≤ maxSegmentLen) :
    (UInt32.ofNat (payloadLen flash off header) + hashLen -
      hashLen).toNat = payloadLen flash off header := by
  have bound := payloadLen_add_lt sized
  rw [UInt32.add_sub_cancel, UInt32.toNat_ofNat',
    Nat.mod_eq_of_lt (by omega)]

end Size

end MiniBootloader
