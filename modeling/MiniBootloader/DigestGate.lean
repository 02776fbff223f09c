import MiniBootloader.Verify

/-!
# The digest check decides digest equality

The payload is read in chunks of 1 KB.  Chunk `k` starts at `1024 * k`, and
the loop invariant is that after `k` chunks the hasher has absorbed exactly
the first `min (1024 * k) L` bytes of the payload.  All chunk lengths are
multiples of 4 because the payload length was rounded up to 16 by the size
walk, whatever the segment lengths are.
-/

namespace MiniBootloader

open Words

/-- Number of reads for a payload: its length over 1 KB, rounded up. -/
def chunkCount (len : Nat) : Nat := (len + 1023) / 1024

/-- Start and length of the `k`-th chunk. -/
def chunkSpan (len k : Nat) : Nat × Nat :=
  (1024 * k, min 1024 (len - 1024 * k))

def chunkSpans (len : Nat) : List (Nat × Nat) :=
  (List.range (chunkCount len)).map (chunkSpan len)

/-- The ROM read of a span of the image at `off` into a word buffer. -/
def spanRead (off : UInt32) (span : Nat × Nat) : Event :=
  .romRead (off + UInt32.ofNat span.1) .words span.2

/-! ## Slices -/

theorem toList_slice (flash : Flash) (start : UInt32) (len : Nat) :
    (flash.slice start len).toList =
      (List.range len).map fun index =>
        flash.byte (start + UInt32.ofNat index) := by
  apply List.ext_getElem
  · simp
  · intro index inLeft inRight
    simp [Flash.slice]

theorem slice_append (flash : Flash) (start : UInt32) (first second : Nat) :
    (flash.slice start first).toList ++
        (flash.slice (start + UInt32.ofNat first) second).toList =
      (flash.slice start (first + second)).toList := by
  simp only [toList_slice, List.range_add, List.map_append, List.map_map,
    List.append_cancel_left_eq]
  apply List.map_congr_left
  intro index _
  simp only [Function.comp_apply, add_ofNat_add_ofNat]

/-! ## The chunks -/

theorem chunkSpan_start_lt {len k : Nat} (below : k < chunkCount len) :
    1024 * k < len := by
  unfold chunkCount at below
  omega

theorem chunkSpan_len_pos {len k : Nat} (below : k < chunkCount len) :
    0 < (chunkSpan len k).2 := by
  have start := chunkSpan_start_lt below
  simp only [chunkSpan]
  omega

theorem chunkSpan_len_le (len k : Nat) : (chunkSpan len k).2 ≤ 1024 :=
  Nat.min_le_left _ _

theorem chunkSpan_len_mod {len : Nat} (k : Nat) (aligned : len % 16 = 0) :
    (chunkSpan len k).2 % 4 = 0 := by
  simp only [chunkSpan]
  omega

private theorem chunk_end {len k : Nat} (below : k < chunkCount len) :
    1024 * k + (chunkSpan len k).2 = min (1024 * (k + 1)) len := by
  have start := chunkSpan_start_lt below
  simp only [chunkSpan]
  omega

private theorem tiles_chunks_from (len m k : Nat)
    (count : k + m = chunkCount len) :
    Tiles (min (1024 * k) len) len
      ((List.range' k m).map (chunkSpan len)) := by
  induction m generalizing k with
  | zero =>
      have reached : min (1024 * k) len = len := by
        unfold chunkCount at count
        omega
      rw [reached]
      exact .nil len
  | succ m induction =>
      have below : k < chunkCount len := by omega
      have start := chunkSpan_start_lt below
      have tail := induction (k + 1) (by omega)
      rw [← chunk_end below] at tail
      rw [List.range'_succ, List.map_cons, Nat.min_eq_left (by omega)]
      exact .cons (chunkSpan_len_pos below) tail

/-- The chunks cover the payload exactly. -/
theorem tiles_chunkSpans (len : Nat) : Tiles 0 len (chunkSpans len) := by
  have tiles := tiles_chunks_from len (chunkCount len) 0 (by simp)
  simpa [chunkSpans, List.range_eq_range'] using tiles

/-! ## The hashing loop -/

section HashLoop

variable {sha : Sha256} {flash : Flash} {off : UInt32} {len : Nat}

/-- The bytes of the `k`-th chunk. -/
def chunkData (flash : Flash) (off : UInt32) (len k : Nat) : List UInt8 :=
  (flash.slice (off + UInt32.ofNat (chunkSpan len k).1)
    (chunkSpan len k).2).toList

def ChunkReadable (flash : Flash) (off : UInt32) (len k : Nat) : Prop :=
  flash.Readable (off + UInt32.ofNat (chunkSpan len k).1)
    (chunkSpan len k).2

theorem run_hashLoop_done (hasher : sha.State) {done : Nat}
    (reached : len ≤ done) :
    (hashLoop sha off len hasher done).run flash = ⟨[], .ok hasher⟩ := by
  rw [hashLoop, if_neg (Nat.not_lt.mpr reached)]
  rfl

theorem run_hashLoop_of_readable (hasher : sha.State) {k : Nat}
    (aligned : len % 16 = 0) (below : k < chunkCount len)
    (readable : ChunkReadable flash off len k) :
    (hashLoop sha off len hasher (min (1024 * k) len)).run flash =
      let rest := (hashLoop sha off len
        (sha.update hasher (chunkData flash off len k))
        (min (1024 * (k + 1)) len)).run flash
      ⟨spanRead off (chunkSpan len k) :: rest.trace, rest.result⟩ := by
  have start := chunkSpan_start_lt below
  have chunkRead := run_readWords_of_readable
    (chunkSpan_len_mod k aligned) readable
  rw [← chunk_end below, Nat.min_eq_left (by omega)]
  rw [hashLoop, if_pos start]
  simp only [chunkSpan] at chunkRead
  simp only [chunkLen, Traced.run_bind, chunkRead, chunkSpan, chunkData,
    spanRead, List.singleton_append]

theorem run_hashLoop_of_not_readable (hasher : sha.State) {k : Nat}
    (aligned : len % 16 = 0) (below : k < chunkCount len)
    (failed : ¬ ChunkReadable flash off len k) :
    (hashLoop sha off len hasher (min (1024 * k) len)).run flash =
      ⟨[spanRead off (chunkSpan len k)],
        .error (.rom (flash.status
          (off + UInt32.ofNat (chunkSpan len k).1)
          (Int32.ofNat (chunkSpan len k).2)))⟩ := by
  have start := chunkSpan_start_lt below
  have chunkRead := run_readWords_of_not_readable
    (chunkSpan_len_mod k aligned) failed
  rw [Nat.min_eq_left (by omega)]
  rw [hashLoop, if_pos start]
  simp only [chunkSpan] at chunkRead
  simp only [chunkLen, Traced.run_bind, chunkRead, chunkSpan, spanRead]

private theorem run_hashLoop_from (hasher : sha.State) (m k : Nat)
    (aligned : len % 16 = 0) (count : k + m = chunkCount len)
    (readable : ∀ j, k ≤ j → j < chunkCount len →
      ChunkReadable flash off len j) :
    (hashLoop sha off len hasher (min (1024 * k) len)).run flash =
      ⟨(List.range' k m).map fun j => spanRead off (chunkSpan len j),
        .ok ((List.range' k m).foldl
          (fun state j => sha.update state (chunkData flash off len j))
          hasher)⟩ := by
  induction m generalizing k hasher with
  | zero =>
      have reached : len ≤ min (1024 * k) len := by
        unfold chunkCount at count
        omega
      rw [run_hashLoop_done hasher reached]
      rfl
  | succ m induction =>
      have below : k < chunkCount len := by omega
      have tail := induction
        (sha.update hasher (chunkData flash off len k)) (k + 1) (by omega)
        (fun j after => readable j (by omega))
      rw [run_hashLoop_of_readable hasher aligned below
        (readable k (Nat.le_refl k) below), tail]
      simp [List.range'_succ]

/-- The chunks before the `k`-th make up the first `1024 * k` bytes. -/
private theorem flatten_chunkData (flash : Flash) (off : UInt32) (k : Nat)
    (below : k ≤ chunkCount len) :
    ((List.range k).map (chunkData flash off len)).flatten =
      (flash.slice off (min (1024 * k) len)).toList := by
  induction k with
  | zero => simp [toList_slice]
  | succ k induction =>
      have here : k < chunkCount len := below
      have start := chunkSpan_start_lt here
      have ended := chunk_end here
      rw [List.range_succ, List.map_append, List.flatten_append,
        induction (Nat.le_of_lt here), ← ended,
        Nat.min_eq_left (Nat.le_of_lt start), ← slice_append]
      simp [chunkData, chunkSpan]

/-- The digest the loop ends up with: the chunks fed to the hasher in
order. -/
def chunkedDigest (sha : Sha256) (flash : Flash) (off : UInt32)
    (len : Nat) : Digest :=
  sha.finalize
    (((List.range (chunkCount len)).map (chunkData flash off len)).foldl
      sha.update sha.new)

/-- It is the digest of the payload read in one piece. -/
theorem chunkedDigest_eq {digest : List UInt8 → Digest}
    (streams : sha.Streams digest) :
    chunkedDigest sha flash off len =
      digest (flash.slice off len).toList := by
  have whole := flatten_chunkData flash off (chunkCount len)
    (Nat.le_refl (chunkCount len))
  have reached : min (1024 * chunkCount len) len = len := by
    unfold chunkCount
    omega
  rw [reached] at whole
  rw [chunkedDigest, streams, whole]

/-- When every chunk can be read, the loop reads the chunks in order and
leaves a hasher that has absorbed them. -/
theorem run_hashLoop_of_chunks_readable (sha : Sha256)
    (aligned : len % 16 = 0)
    (readable : ∀ k < chunkCount len, ChunkReadable flash off len k) :
    ∃ hasher, (hashLoop sha off len sha.new 0).run flash =
        ⟨(chunkSpans len).map (spanRead off), .ok hasher⟩ ∧
      sha.finalize hasher = chunkedDigest sha flash off len := by
  have run := run_hashLoop_from sha.new (chunkCount len) 0 aligned
    (Nat.zero_add _) (fun j _ => readable j)
  rw [Nat.mul_zero, Nat.zero_min] at run
  refine ⟨_, by simpa [chunkSpans, List.range_eq_range',
    Function.comp_def] using run, ?_⟩
  rw [chunkedDigest, List.foldl_map, List.range_eq_range']

/-- A run whose reads all succeed has read every chunk. -/
private theorem chunks_readable_from (hasher : sha.State) (m k : Nat)
    (aligned : len % 16 = 0) (count : k + m = chunkCount len)
    (succeed : ∀ start dest size, Event.romRead start dest size ∈
      ((hashLoop sha off len hasher
        (min (1024 * k) len)).run flash).trace →
      flash.Readable start size) :
    ∀ j, k ≤ j → j < chunkCount len → ChunkReadable flash off len j := by
  induction m generalizing k hasher with
  | zero =>
      intro j after below
      omega
  | succ m induction =>
      have below : k < chunkCount len := by omega
      have here : ChunkReadable flash off len k := by
        by_cases readable : ChunkReadable flash off len k
        · exact readable
        · apply succeed _ .words
          rw [run_hashLoop_of_not_readable hasher aligned below readable]
          exact List.mem_singleton_self _
      rw [run_hashLoop_of_readable hasher aligned below here] at succeed
      have later := induction _ (k + 1) (by omega)
        (fun start dest size member =>
          succeed start dest size (List.mem_cons_of_mem _ member))
      intro j after belowCount
      rcases Nat.eq_or_lt_of_le after with rfl | strictly
      · exact here
      · exact later j strictly belowCount

theorem chunks_readable_of_reads_succeed (aligned : len % 16 = 0)
    (succeed : ∀ start dest size, Event.romRead start dest size ∈
      ((hashLoop sha off len sha.new 0).run flash).trace →
      flash.Readable start size) :
    ∀ k < chunkCount len, ChunkReadable flash off len k := by
  intro k below
  apply chunks_readable_from sha.new (chunkCount len) 0 aligned
    (Nat.zero_add _) _ k (Nat.zero_le k) below
  simpa using succeed

end HashLoop

/-! ## The whole check -/

section Verify

variable {sha : Sha256} {flash : Flash} {off : UInt32}
  {header : ImageHeader} {len : Nat}

/-- The digest appended to the image. -/
def appended (flash : Flash) (off : UInt32) (header : ImageHeader) : Digest :=
  flash.slice (off + UInt32.ofNat (payloadLen flash off header)) 32

/-- The reads of a check that is not cut short: the segment headers, the
chunks of the payload, the appended digest. -/
def checkReads (flash : Flash) (off : UInt32) (header : ImageHeader) :
    List Event :=
  (imageSegments flash off header).map (Segment.headerRead off) ++
    ((chunkSpans (payloadLen flash off header)).map (spanRead off) ++
      [spanRead off (payloadLen flash off header, 32)])

theorem run_verifyAppSha256_of_sized
    (hashed : header.hashAppended = true)
    (sized : ∀ segment ∈ imageSegments flash off header,
      segment.Sized flash off) :
    (verifyAppSha256 sha off header).run flash =
      let rest := (verifyPayload sha off
        (payloadLen flash off header)).run flash
      ⟨(imageSegments flash off header).map (Segment.headerRead off) ++
          rest.trace, rest.result⟩ := by
  have size := run_computeImageTotalSize_of_sized sized
  rw [if_pos hashed] at size
  have lengthBack := toNat_total_sub_hashLen
    (fun segment member => (sized segment member).2)
  simp only [verifyAppSha256, hashed, not_true_eq_false, if_false,
    Traced.run_bind, Traced.run_mapError, size, Except.mapError, lengthBack]

theorem run_verifyPayload_of_readable (aligned : len % 16 = 0)
    (chunks : ∀ k < chunkCount len, ChunkReadable flash off len k)
    (last : flash.Readable (off + UInt32.ofNat len) 32) :
    (verifyPayload sha off len).run flash =
      let actual := chunkedDigest sha flash off len
      let expected := flash.slice (off + UInt32.ofNat len) 32
      ⟨(chunkSpans len).map (spanRead off) ++ [spanRead off (len, 32)],
        if actual = expected then .ok actual
        else .error (.mismatch expected actual)⟩ := by
  obtain ⟨hasher, loop, hashedPayload⟩ :=
    run_hashLoop_of_chunks_readable sha aligned chunks
  have lastRead := run_readWords_of_readable (by decide) last
  simp only [verifyPayload, Traced.run_bind, Traced.run_mapError,
    Except.mapError, loop, lastRead, hashedPayload]
  by_cases same : chunkedDigest sha flash off len =
      flash.slice (off + UInt32.ofNat len) 32
  · simp [same, spanRead]
  · simp [same, spanRead]

/-- A check whose reads all succeed has read every chunk and the appended
digest. -/
private theorem readable_of_verifyPayload_reads
    (aligned : len % 16 = 0)
    (succeed : ReadsSucceed flash
      ((verifyPayload sha off len).run flash).trace) :
    (∀ k < chunkCount len, ChunkReadable flash off len k) ∧
      flash.Readable (off + UInt32.ofNat len) 32 := by
  have chunks : ∀ k < chunkCount len, ChunkReadable flash off len k := by
    apply chunks_readable_of_reads_succeed aligned
    intro start dest size member
    exact succeed start dest size (Traced.mem_trace_bind_left member)
  refine ⟨chunks, ?_⟩
  obtain ⟨hasher, loop, _⟩ :=
    run_hashLoop_of_chunks_readable sha aligned chunks
  apply succeed _ .words
  apply Traced.mem_trace_bind_right
    (Traced.result_mapError_eq_ok_iff.mpr (congrArg Outcome.result loop))
  apply Traced.mem_trace_bind_left
  by_cases last : flash.Readable (off + UInt32.ofNat len) 32
  · rw [Traced.run_mapError, run_readWords_of_readable (by decide) last]
    exact List.mem_singleton_self _
  · rw [Traced.run_mapError, run_readWords_of_not_readable (by decide) last]
    exact List.mem_singleton_self _

/-- The outcome of a check on a sized image whose reads all succeed. -/
theorem run_verifyAppSha256 (hashed : header.hashAppended = true)
    (sized : ∀ segment ∈ imageSegments flash off header,
      segment.Sized flash off)
    (succeed : ReadsSucceed flash
      ((verifyAppSha256 sha off header).run flash).trace) :
    (verifyAppSha256 sha off header).run flash =
      let actual :=
        chunkedDigest sha flash off (payloadLen flash off header)
      let expected := appended flash off header
      ⟨checkReads flash off header,
        if actual = expected then .ok actual
        else .error (.mismatch expected actual)⟩ := by
  have aligned := payloadLen_mod flash off header
  rw [run_verifyAppSha256_of_sized hashed sized] at succeed ⊢
  obtain ⟨chunks, last⟩ := readable_of_verifyPayload_reads aligned
    (fun start dest len member =>
      succeed start dest len (List.mem_append_right _ member))
  rw [run_verifyPayload_of_readable aligned chunks last]
  rfl

theorem raises_hashLoop (sha : Sha256) (off : UInt32)
    (aligned : len % 4 = 0) (hasher : sha.State) (done : Nat)
    (doneAligned : done % 4 = 0) :
    (hashLoop sha off len hasher done).Raises (· ≠ .unaligned) := by
  induction hasher, done using hashLoop.induct sha len with
  | case1 hasher done more want induction =>
      have wantAligned : want % 4 = 0 := by
        simp only [want, chunkLen]
        omega
      rw [hashLoop, if_pos more]
      apply (raises_readWords _ want wantAligned).bind
      intro slice
      exact induction slice (by omega)
  | case2 hasher done reached =>
      rw [hashLoop, if_neg reached]
      exact Traced.raises_pure _ hasher

private theorem verifyError_flash_ne {error : FlashError}
    (allowed : error ≠ .unaligned) :
    VerifyError.flash error ≠ .flash .unaligned := by
  intro equality
  exact allowed (VerifyError.flash.inj equality)

theorem raises_verifyPayload (sha : Sha256) (off : UInt32)
    (aligned : len % 4 = 0) :
    (verifyPayload sha off len).Raises (· ≠ .flash .unaligned) := by
  have loopRaises : ((hashLoop sha off len sha.new 0).mapError
      VerifyError.flash).Raises (· ≠ .flash .unaligned) :=
    (raises_hashLoop sha off aligned sha.new 0 rfl).mapError
      fun _ => verifyError_flash_ne
  have lastRaises : ((read (off + UInt32.ofNat len) .words 32).mapError
      VerifyError.flash).Raises (· ≠ .flash .unaligned) :=
    (raises_readWords _ 32 (by decide)).mapError
      fun _ => verifyError_flash_ne
  apply loopRaises.bind
  intro hasher
  apply lastRaises.bind
  intro expected
  split
  · exact Traced.raises_throw fun equality => VerifyError.noConfusion equality
  · exact Traced.raises_pure _ _

/-- The check never asks for a misaligned read. -/
theorem result_verifyAppSha256_ne_unaligned
    (hashed : header.hashAppended = true) :
    ((verifyAppSha256 sha off header).run flash).result ≠
      .error (.flash .unaligned) := by
  intro failure
  by_cases walks : ∃ total,
      ((computeImageTotalSize off header).run flash).result = .ok total
  · obtain ⟨total, success⟩ := walks
    obtain ⟨sized, _⟩ := result_computeImageTotalSize_eq_ok_iff.mp success
    have aligned := payloadLen_mod flash off header
    rw [run_verifyAppSha256_of_sized hashed sized] at failure
    exact raises_verifyPayload sha off (by omega) flash _ failure rfl
  · cases sizeResult :
        ((computeImageTotalSize off header).run flash).result with
    | ok total => exact walks ⟨total, sizeResult⟩
    | error error =>
        have allowed :=
          raises_computeImageTotalSize off header flash error sizeResult
        simp only [verifyAppSha256, hashed, not_true_eq_false, if_false,
          Traced.run_bind, Traced.run_mapError, sizeResult,
          Except.mapError, Except.error.injEq] at failure
        cases error <;> simp [VerifyError.fromAppLoadError] at failure
        exact allowed (congrArg AppLoadError.flash failure)

end Verify

/-- On a header with an appended hash the check decides whether the digest
of the payload is the appended one.  Its reads are the segment headers,
chunks that tile the payload, and the appended digest; a failing read is its
error. -/
theorem verifyAppSha256_decides_digest_equality {sha : Sha256}
    {digest : List UInt8 → Digest} (streams : sha.Streams digest)
    (flash : Flash) (off : UInt32) (header : ImageHeader)
    (hashed : header.hashAppended = true) :
    let len := payloadLen flash off header
    let run := (verifyAppSha256 sha off header).run flash
    let actual := digest (flash.slice off len).toList
    let expected := flash.slice (off + UInt32.ofNat len) 32
    (∀ total,
      ((computeImageTotalSize off header).run flash).result = .ok total →
        hashLen ≤ total ∧ (total - hashLen).toNat = len ∧
        (ReadsSucceed flash run.trace →
          (∀ d, run.result = .ok d ↔ actual = expected ∧ d = actual) ∧
          (actual ≠ expected →
            run.result = .error (.mismatch expected actual)) ∧
          run.trace =
            (imageSegments flash off header).map (Segment.headerRead off) ++
              ((chunkSpans len).map (spanRead off) ++
                [spanRead off (len, 32)]))) ∧
    (Tiles 0 len (chunkSpans len) ∧
      (chunkSpans len).length = (len + 1023) / 1024 ∧
      ∀ span ∈ chunkSpans len,
        0 < span.2 ∧ span.2 ≤ 1024 ∧ span.2 % 4 = 0) ∧
    run.result ≠ .error (.flash .unaligned) ∧
    ∀ start dest size, Event.romRead start dest size ∈ run.trace →
      ¬ flash.Readable start size →
      run.result =
        .error (.flash (.rom (flash.status start (Int32.ofNat size)))) := by
  intro len run actual expected
  have aligned := payloadLen_mod flash off header
  refine ⟨?_, ⟨tiles_chunkSpans len, ?_, ?_⟩,
    result_verifyAppSha256_ne_unaligned hashed, ?_⟩
  · intro total success
    obtain ⟨sized, rfl⟩ :=
      result_computeImageTotalSize_eq_ok_iff.mp success
    have limits := fun segment member => (sized segment member).2
    have bound := payloadLen_add_lt limits
    rw [if_pos hashed]
    refine ⟨?_, toNat_total_sub_hashLen limits, ?_⟩
    · rw [UInt32.le_iff_toNat_le, UInt32.toNat_add, UInt32.toNat_ofNat']
      simp only [hashLen, UInt32.reduceToNat]
      omega
    · intro succeed
      have outcome : run = ⟨checkReads flash off header,
          if actual = expected then .ok actual
          else .error (.mismatch expected actual)⟩ := by
        have checked := run_verifyAppSha256 hashed sized succeed
        simp only [chunkedDigest_eq streams] at checked
        exact checked
      refine ⟨?_, ?_, congrArg Outcome.trace outcome⟩
      · intro d
        rw [outcome]
        by_cases same : actual = expected
        · simp [same, eq_comm]
        · simp [same]
      · intro different
        rw [outcome]
        exact if_neg different
  · simp [chunkSpans, chunkCount]
  · intro span member
    obtain ⟨k, below, rfl⟩ := List.mem_map.mp member
    exact ⟨chunkSpan_len_pos (List.mem_range.mp below),
      chunkSpan_len_le len k, chunkSpan_len_mod k aligned⟩
  · intro start dest size member failed
    apply reports_verifyAppSha256 sha off header flash _ member
    simp [verifyFault, romFault, failed]

/-! ## A sample image -/

/-- One segment of four bytes, with the checksum byte that closes the third
block of 16. -/
def samplePayload : List UInt8 :=
  [0xE9, 1, 2, 0x1F, 0x00, 0x00, 0xF5, 0x4F, 0xEE, 0, 0, 0, 18, 0, 0, 0,
    0, 0, 0, 0, 0, 0, 0, 1, 0x00, 0x00, 0xF5, 0x4F, 4, 0, 0, 0,
    0x13, 0, 0, 0, 0, 0, 0, 0, 0, 0, 0, 0, 0, 0, 0, 0xFC]

/-- The SHA-256 of the sample payload. -/
def sampleDigest : Digest :=
  #v[27, 248, 177, 146, 29, 189, 65, 196, 30, 95, 245, 29, 78, 201, 56, 22,
    102, 132, 146, 46, 190, 11, 168, 224, 66, 240, 176, 139, 5, 225, 219, 138]

/-- The SHA-256 of the sample payload, of the payload with its data byte
changed, and of the payload with its hash flag cleared. -/
def sampleHash (bytes : List UInt8) : Digest :=
  if bytes = samplePayload then sampleDigest
  else if bytes = samplePayload.set 32 0x14 then
    #v[222, 108, 76, 15, 245, 222, 170, 160, 182, 70, 20, 122, 146, 132,
      117, 8, 127, 125, 244, 82, 3, 102, 146, 46, 83, 172, 116, 101, 138, 54,
      126, 122]
  else
    #v[172, 15, 72, 60, 53, 156, 154, 19, 219, 51, 229, 236, 11, 191, 222, 0,
      6, 217, 33, 2, 11, 62, 153, 44, 33, 84, 134, 119, 144, 48, 89, 56]

def sampleSha : Sha256 := Sha256.buffered sampleHash

def sampleFlash : Flash :=
  Flash.erased.program 0x20000 (samplePayload ++ sampleDigest.toList)

theorem sampleFlash_intact : sampleFlash.Intact :=
  fun _ _ => rfl

def sampleHeader : ImageHeader :=
  { magic := 0xE9
    segmentCount := 1
    entryAddr := 0x4FF50000
    chipId := 18
    hashAppended := true }

theorem verifyAppSha256_accepts_sample :
    ((verifyAppSha256 sampleSha 0x20000 sampleHeader).run
      sampleFlash).result = .ok sampleDigest := by
  have decides := verifyAppSha256_decides_digest_equality
    (Sha256.streams_buffered sampleHash) sampleFlash 0x20000
    sampleHeader rfl
  have size : ((computeImageTotalSize 0x20000 sampleHeader).run
      sampleFlash).result = .ok 80 := by decide
  obtain ⟨_, _, checked⟩ := decides.1 80 size
  obtain ⟨accepts, _, _⟩ := checked (sampleFlash_intact.readsSucceed _)
  exact (accepts sampleDigest).mpr ⟨by decide, by decide⟩

end MiniBootloader
