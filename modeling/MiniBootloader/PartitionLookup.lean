import MiniBootloader.PartitionFormat

/-!
# What a partition lookup depends on

The live part of a table ends in front of the first block with a foreign
magic, and the MD5 markers in it are passed over.  A lookup is a first-match
search of what is left, decided by the type bytes or by the label bytes in
front of the first NUL.
-/

namespace MiniBootloader

open Words

/-! ## Labels -/

/-- The label up to its first NUL, as bytes. -/
def PartitionEntry.labelBytes (entry : PartitionEntry) : List UInt8 :=
  entry.label.toList.takeWhile (· != 0)

/-- The UTF-8 encoding of a string. -/
def utf8Bytes (label : String) : List UInt8 :=
  label.toByteArray.data.toList

/-- Bytes that are not UTF-8 read as the empty string, so only a non-empty
string can be told from its encoding. -/
theorem fromUTF8_getD_eq_iff {bytes : List UInt8} {label : String}
    (nonempty : label ≠ "") :
    (String.fromUTF8? ⟨bytes.toArray⟩).getD "" = label ↔
      bytes = utf8Bytes label := by
  constructor
  · intro decoded
    unfold String.fromUTF8? at decoded
    split at decoded
    · rw [Option.getD_some] at decoded
      rw [← decoded]
      rfl
    · exact absurd decoded.symm nonempty
  · rintro rfl
    have encoded : (⟨(utf8Bytes label).toArray⟩ : ByteArray) =
        label.toByteArray := rfl
    rw [encoded, String.fromUTF8?, dif_pos label.isValidUTF8,
      Option.getD_some]
    rfl

theorem PartitionEntry.labelStr_eq (entry : PartitionEntry) :
    entry.labelStr =
      (String.fromUTF8? ⟨entry.labelBytes.toArray⟩).getD "" := by
  have position : entry.label.toList.findIdx (· == 0) =
      (entry.label.toList.findIdx? (· == 0)).getD 16 := by
    rw [List.findIdx_eq_getD_findIdx?, Vector.length_toList]
  have trimmed : entry.labelBytes = entry.label.toList.take
      ((entry.label.toList.findIdx? (· == 0)).getD 16) := by
    rw [labelBytes, List.takeWhile_eq_take_findIdx_not, ← position]
    simp only [bne, Bool.not_not]
  rw [labelStr, trimmed]

theorem PartitionEntry.labelStr_eq_iff {entry : PartitionEntry}
    {label : String} (nonempty : label ≠ "") :
    entry.labelStr = label ↔ entry.labelBytes = utf8Bytes label := by
  rw [entry.labelStr_eq, fromUTF8_getD_eq_iff nonempty]

theorem PartitionEntry.length_labelBytes_le (entry : PartitionEntry) :
    entry.labelBytes.length ≤ 16 := by
  have shorter := (List.takeWhile_prefix (· != 0)
    (l := entry.label.toList)).length_le
  rwa [Vector.length_toList] at shorter

/-! ## Blocks -/

/-- The blocks in front of the first one with a foreign magic. -/
def liveBlocks (blocks : List (Vector UInt8 32)) :
    List (Vector UInt8 32) :=
  blocks.takeWhile fun block =>
    blockMagic block == espPartitionMagic ||
      blockMagic block == espPartitionMagicMd5

/-- The live blocks that are not MD5 markers. -/
def partitionBlocks (blocks : List (Vector UInt8 32)) :
    List (Vector UInt8 32) :=
  (liveBlocks blocks).filter fun block =>
    blockMagic block == espPartitionMagic

theorem partitionBlocks_cons_of_entry {block : Vector UInt8 32}
    (entry : blockMagic block = espPartitionMagic)
    (rest : List (Vector UInt8 32)) :
    partitionBlocks (block :: rest) = block :: partitionBlocks rest := by
  simp [partitionBlocks, liveBlocks, entry]

theorem partitionBlocks_cons_of_marker {block : Vector UInt8 32}
    (marker : blockMagic block = espPartitionMagicMd5)
    (rest : List (Vector UInt8 32)) :
    partitionBlocks (block :: rest) = partitionBlocks rest := by
  have different : ¬ espPartitionMagicMd5 = espPartitionMagic := by decide
  simp [partitionBlocks, liveBlocks, marker, different]

theorem liveEntries_eq (blocks : List (Vector UInt8 32)) :
    liveEntries blocks = (partitionBlocks blocks).map blockEntry := by
  induction blocks with
  | nil => rfl
  | cons block rest ih =>
      have magic : u16FromLeBytes block[0] block[1] = blockMagic block :=
        rfl
      rw [liveEntries, magic, parse_eq]
      by_cases partition : blockMagic block = espPartitionMagic
      · rw [if_pos partition, if_pos partition, ih,
          partitionBlocks_cons_of_entry partition]
        rfl
      · by_cases marker : blockMagic block = espPartitionMagicMd5
        · rw [if_neg partition, if_pos marker, ih,
            partitionBlocks_cons_of_marker marker]
        · rw [if_neg partition, if_neg marker]
          simp [partitionBlocks, liveBlocks, partition, marker]

/-! ## Lookups as first-match searches -/

/-- The blocks of the table a flash holds that a lookup sees. -/
def Flash.partitionBlocks (flash : Flash) : List (Vector UInt8 32) :=
  MiniBootloader.partitionBlocks (tableEntries
    (flash.slice partitionTableOffset partitionTableReadLen))

def hasLabel (label : String) (block : Vector UInt8 32) : Bool :=
  (blockEntry block).labelBytes == utf8Bytes label

def isFactoryApp (block : Vector UInt8 32) : Bool :=
  (blockEntry block).kind == partTypeApp &&
    (blockEntry block).subtype == partSubtypeFactory

/-- The first block that passes the test, decoded. -/
def firstMatch (test : Vector UInt8 32 → Bool)
    (blocks : List (Vector UInt8 32)) :
    Except PartitionError PartitionEntry :=
  match blocks.find? test with
  | some block => .ok (blockEntry block)
  | none => .error .noFactoryApp

theorem result_findEntry_eq_firstMatch {flash : Flash}
    (readable : flash.TableReadable) (matching : PartitionEntry → Bool) :
    ((findEntry matching).run flash).result =
      firstMatch (fun block => matching (blockEntry block))
        flash.partitionBlocks := by
  have entries : flash.partitions =
      flash.partitionBlocks.map blockEntry := liveEntries_eq _
  have test : (fun block => matching (blockEntry block)) =
      matching ∘ blockEntry := rfl
  rw [run_findEntry_of_readable matching readable, entries, List.find?_map,
    firstMatch, test]
  cases flash.partitionBlocks.find? (matching ∘ blockEntry) with
  | none => rfl
  | some block => rfl

theorem result_findByLabel_eq_firstMatch {flash : Flash}
    (readable : flash.TableReadable) {label : String}
    (nonempty : label ≠ "") :
    ((findByLabel label).run flash).result =
      firstMatch (hasLabel label) flash.partitionBlocks := by
  have test : (fun block => (blockEntry block).labelStr == label) =
      hasLabel label := by
    funext block
    rw [hasLabel, Bool.eq_iff_iff, beq_iff_eq, beq_iff_eq,
      PartitionEntry.labelStr_eq_iff nonempty]
  rw [findByLabel, result_findEntry_eq_firstMatch readable, test]

/-- Bytes that are not UTF-8 are no string's label. -/
theorem hasLabel_of_not_utf8 (label : String) {block : Vector UInt8 32}
    (invalid : ¬ ByteArray.IsValidUTF8
      ⟨(blockEntry block).labelBytes.toArray⟩) :
    hasLabel label block = false := by
  rw [hasLabel, beq_eq_false_iff_ne]
  intro bytes
  rw [bytes] at invalid
  exact invalid label.isValidUTF8

/-- A label that does not fit an entry is not found. -/
theorem firstMatch_of_long_label {label : String}
    (long : 16 < label.utf8ByteSize)
    (blocks : List (Vector UInt8 32)) :
    firstMatch (hasLabel label) blocks = .error .noFactoryApp := by
  have absent : blocks.find? (hasLabel label) = none := by
    rw [List.find?_eq_none]
    intro block _ same
    have bytes : (blockEntry block).labelBytes = utf8Bytes label :=
      eq_of_beq same
    have short := (blockEntry block).length_labelBytes_le
    have size : (utf8Bytes label).length = label.utf8ByteSize := by
      rw [← String.size_toByteArray, ByteArray.size, ← Array.length_toList]
      rfl
    rw [bytes] at short
    omega
  rw [firstMatch, absent]

/-! ## What two tables have to share -/

/-- Bytes 2 to 12 and the label up to its first NUL. -/
def blockKey (block : Vector UInt8 32) : List UInt8 × List UInt8 :=
  ((block.toList.drop 2).take 10, (blockEntry block).labelBytes)

/-- The fields of an entry, with the label up to its first NUL. -/
structure EntrySummary where
  kind : UInt8
  subtype : UInt8
  offset : UInt32
  size : UInt32
  label : List UInt8
  deriving DecidableEq

def PartitionEntry.summary (entry : PartitionEntry) : EntrySummary :=
  { kind := entry.kind
    subtype := entry.subtype
    offset := entry.offset
    size := entry.size
    label := entry.labelBytes }

theorem PartitionEntry.label_summary (entry : PartitionEntry) :
    entry.summary.label = entry.labelBytes := rfl

/-- The summary of the entry with a given key. -/
def summaryOfKey (key : List UInt8 × List UInt8) : EntrySummary :=
  let byte (index : Nat) := key.1.getD index 0
  { kind := byte 0
    subtype := byte 1
    offset := u32FromLeBytes (byte 2) (byte 3) (byte 4) (byte 5)
    size := u32FromLeBytes (byte 6) (byte 7) (byte 8) (byte 9)
    label := key.2 }

theorem summary_blockEntry (block : Vector UInt8 32) :
    (blockEntry block).summary = summaryOfKey (blockKey block) := by
  simp [PartitionEntry.summary, summaryOfKey, blockKey, blockEntry]

/-- The part of a list up to and including the first match. -/
def upToMatch {A : Type} (test : A → Bool) : List A → List A
  | [] => []
  | value :: rest =>
      if test value then [value] else value :: upToMatch test rest

theorem find?_upToMatch {A : Type} (test : A → Bool) (list : List A) :
    (upToMatch test list).find? test = list.find? test := by
  induction list with
  | nil => rfl
  | cons value rest ih =>
      by_cases hit : test value
      · simp [upToMatch, hit]
      · simp [upToMatch, hit, ih]

/-- A search for a summary finds the same summary in two lists with the same
keys up to the match. -/
theorem firstMatch_congr {test : Vector UInt8 32 → Bool}
    (onSummary : EntrySummary → Bool)
    (decided : ∀ block, test block = onSummary (blockEntry block).summary)
    {blocks blocks' : List (Vector UInt8 32)}
    (same : (upToMatch test blocks').map blockKey =
      (upToMatch test blocks).map blockKey) :
    (firstMatch test blocks').map PartitionEntry.summary =
      (firstMatch test blocks).map PartitionEntry.summary := by
  have search (list : List (Vector UInt8 32)) :
      (firstMatch test list).map PartitionEntry.summary =
        match (((upToMatch test list).map blockKey).map
            summaryOfKey).find? onSummary with
        | some summary => .ok summary
        | none => .error .noFactoryApp := by
    have onKey : test = onSummary ∘ summaryOfKey ∘ blockKey := by
      funext block
      rw [decided, summary_blockEntry]
      rfl
    rw [List.map_map, List.find?_map, ← onKey, find?_upToMatch, firstMatch]
    cases list.find? test with
    | none => rfl
    | some block => simp [Except.map, summary_blockEntry]
  rw [search, search, same]

section Lookups

variable {flash : Flash}

/-- The keys of the blocks a search reads. -/
def searchedKeys (flash : Flash) (test : Vector UInt8 32 → Bool) :
    List (List UInt8 × List UInt8) :=
  (upToMatch test flash.partitionBlocks).map blockKey

theorem findByLabel_congr (readable : flash.TableReadable)
    {flash' : Flash} (readable' : flash'.TableReadable) {label : String}
    (nonempty : label ≠ "")
    (same : searchedKeys flash' (hasLabel label) =
      searchedKeys flash (hasLabel label)) :
    ((findByLabel label).run flash').result.map PartitionEntry.summary =
      ((findByLabel label).run flash).result.map
        PartitionEntry.summary := by
  rw [result_findByLabel_eq_firstMatch readable nonempty,
    result_findByLabel_eq_firstMatch readable' nonempty]
  have decided (block : Vector UInt8 32) : hasLabel label block =
      ((blockEntry block).summary.label == utf8Bytes label) := by
    rw [hasLabel, PartitionEntry.label_summary]
  exact firstMatch_congr (fun summary => summary.label == utf8Bytes label)
    decided same

theorem findFactoryApp_congr (readable : flash.TableReadable)
    {flash' : Flash} (readable' : flash'.TableReadable)
    (same : searchedKeys flash' isFactoryApp =
      searchedKeys flash isFactoryApp) :
    (findFactoryApp.run flash').result.map PartitionEntry.summary =
      (findFactoryApp.run flash).result.map PartitionEntry.summary := by
  rw [findFactoryApp, result_findEntry_eq_firstMatch readable,
    result_findEntry_eq_firstMatch readable']
  have decided (block : Vector UInt8 32) : isFactoryApp block =
      ((blockEntry block).summary.kind == partTypeApp &&
        (blockEntry block).summary.subtype == partSubtypeFactory) := rfl
  exact firstMatch_congr (fun summary => summary.kind == partTypeApp &&
    summary.subtype == partSubtypeFactory) decided same

/-- Both lookups return the first match of the live table and depend on
nothing else. -/
theorem lookups_are_first_match (readable : flash.TableReadable) :
    (∀ label : String, label ≠ "" →
      ((findByLabel label).run flash).result =
        firstMatch (hasLabel label) flash.partitionBlocks) ∧
    (∀ label : String, 16 < label.utf8ByteSize →
      ((findByLabel label).run flash).result = .error .noFactoryApp) ∧
    (∀ (label : String) (block : Vector UInt8 32),
      ¬ ByteArray.IsValidUTF8 ⟨(blockEntry block).labelBytes.toArray⟩ →
      hasLabel label block = false) ∧
    (findFactoryApp.run flash).result =
      firstMatch isFactoryApp flash.partitionBlocks ∧
    ∀ flash' : Flash, flash'.TableReadable →
      (∀ label : String, label ≠ "" →
        searchedKeys flash' (hasLabel label) =
          searchedKeys flash (hasLabel label) →
        ((findByLabel label).run flash').result.map
            PartitionEntry.summary =
          ((findByLabel label).run flash).result.map
            PartitionEntry.summary) ∧
      (searchedKeys flash' isFactoryApp = searchedKeys flash isFactoryApp →
        (findFactoryApp.run flash').result.map PartitionEntry.summary =
          (findFactoryApp.run flash).result.map
            PartitionEntry.summary) := by
  refine ⟨?_, ?_, ?_, ?_, ?_⟩
  · intro label nonempty
    exact result_findByLabel_eq_firstMatch readable nonempty
  · intro label long
    have nonempty : label ≠ "" := by
      rintro rfl
      rw [String.utf8ByteSize_empty] at long
      omega
    rw [result_findByLabel_eq_firstMatch readable nonempty,
      firstMatch_of_long_label long]
  · intro label block invalid
    exact hasLabel_of_not_utf8 label invalid
  · exact result_findEntry_eq_firstMatch readable _
  · intro flash' readable'
    constructor
    · intro label nonempty same
      exact findByLabel_congr readable readable' nonempty same
    · intro same
      exact findFactoryApp_congr readable readable' same

end Lookups

/-! ## A written table -/

/-- The `nvs` entry, with a byte behind the NUL of its label. -/
def nvsPartition (offset : UInt32) (behindNul : UInt8) : PartitionEntry :=
  { kind := partTypeData
    subtype := 0x02
    offset := offset
    size := 0x1000
    label := labelOfBytes [0x6E, 0x76, 0x73, 0, behindNul] }

/-- The marker with the digest of the entries in front of it. -/
def md5Block : Vector UInt8 32 :=
  Vector.ofFn fun index : Fin 32 =>
    if index.val < 2 then 0xEB else if index.val < 16 then 0xFF else 0x5A

/-- An entry, a marker, and behind it a second entry with the same label and
a factory app. -/
def markedBlocks (behindNul : UInt8) : List (Vector UInt8 32) :=
  [(nvsPartition 0x9000 behindNul).block, md5Block,
    (nvsPartition 0xA000 behindNul).block, factoryPartition.block]

def markedFlash (behindNul : UInt8) : Flash :=
  Flash.erased.program partitionTableOffset
    ((markedBlocks behindNul ++ List.replicate 28 erasedBlock).flatMap
      Vector.toList)

/-- A lookup sees the entries on both sides of the marker. -/
theorem partitionBlocks_markedFlash (behindNul : UInt8) :
    (markedFlash behindNul).partitionBlocks =
      [(nvsPartition 0x9000 behindNul).block,
        (nvsPartition 0xA000 behindNul).block,
        factoryPartition.block] := by
  have entry (e : PartitionEntry) : blockMagic e.block = espPartitionMagic :=
    e.magic_block _ _
  have marker : blockMagic md5Block = espPartitionMagicMd5 := rfl
  have behind : partitionBlocks (List.replicate 28 erasedBlock) = [] := by
    rw [partitionBlocks, liveBlocks, List.replicate_succ]
    rfl
  rw [Flash.partitionBlocks, markedFlash, tableEntries_program _ rfl,
    markedBlocks, List.cons_append, partitionBlocks_cons_of_entry (entry _),
    List.cons_append, partitionBlocks_cons_of_marker marker,
    List.cons_append, partitionBlocks_cons_of_entry (entry _),
    List.cons_append, partitionBlocks_cons_of_entry (entry _),
    List.nil_append, behind]

/-- The first of the two entries is found, and the factory app behind the
marker, whatever lies behind the NUL of a label. -/
theorem lookups_are_first_match_nvs :
    let flash := markedFlash 0
    let other := markedFlash 0x2D
    flash.TableReadable ∧
      ((findByLabel "nvs").run flash).result =
        .ok (nvsPartition 0x9000 0) ∧
      (findFactoryApp.run flash).result = .ok factoryPartition ∧
      ((findByLabel "nvs").run other).result.map PartitionEntry.summary =
        .ok (nvsPartition 0x9000 0).summary := by
  have readable : (markedFlash 0).TableReadable := rfl
  have readable' : (markedFlash 0x2D).TableReadable := rfl
  obtain ⟨byLabel, _, _, factory, congruent⟩ :=
    lookups_are_first_match readable
  have found : ((findByLabel "nvs").run (markedFlash 0)).result =
      .ok (nvsPartition 0x9000 0) := by
    rw [byLabel "nvs" (by decide), partitionBlocks_markedFlash]
    decide
  have same : searchedKeys (markedFlash 0x2D) (hasLabel "nvs") =
      searchedKeys (markedFlash 0) (hasLabel "nvs") := by
    rw [searchedKeys, searchedKeys, partitionBlocks_markedFlash,
      partitionBlocks_markedFlash]
    decide
  refine ⟨readable, found, ?_, ?_⟩
  · rw [factory, partitionBlocks_markedFlash]
    decide
  · rw [(congruent _ readable').1 "nvs" (by decide) same, found]
    rfl

end MiniBootloader
