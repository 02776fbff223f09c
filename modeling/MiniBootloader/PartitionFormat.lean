import MiniBootloader.Partition

/-!
# Decoding undoes the partition table format

A table is written as one block of 32 bytes an entry and erased flash up to
its end.  The walk reads back the entries that were written.
-/

namespace MiniBootloader

open Words

namespace PartitionEntry

/-- The fields in front of the label. -/
def fieldBytes (entry : PartitionEntry) : List UInt8 :=
  u16ToLeBytes espPartitionMagic ++ [entry.kind, entry.subtype] ++
    u32ToLeBytes entry.offset ++ u32ToLeBytes entry.size

/-- The label is followed by four flag bytes. -/
def encode (entry : PartitionEntry) : List UInt8 :=
  entry.fieldBytes ++ (entry.label.toList ++ [0, 0, 0, 0])

@[simp] theorem length_fieldBytes (entry : PartitionEntry) :
    entry.fieldBytes.length = 12 := rfl

@[simp] theorem length_encode (entry : PartitionEntry) :
    entry.encode.length = 32 := by
  simp [encode]

/-- The encoding as the block of the table it fills. -/
def block (entry : PartitionEntry) : Vector UInt8 32 :=
  ⟨entry.encode.toArray, by simp⟩

theorem getElem_block (entry : PartitionEntry) {index : Nat}
    (below : index < 32) :
    entry.block[index] = entry.encode.getD index 0 := by
  simp [block, below]

theorem magic_block (entry : PartitionEntry) (first : 0 < 32)
    (second : 1 < 32) :
    u16FromLeBytes entry.block[0] entry.block[1] = espPartitionMagic :=
  u16FromLeBytes_toLeBytes espPartitionMagic

theorem label_block (entry : PartitionEntry) {index : Nat}
    (below : index < 16) (inside : 12 + index < 32) :
    entry.block[12 + index] = entry.label[index] := by
  have afterFields : entry.encode[12 + index]? =
      (entry.label.toList ++ [0, 0, 0, 0])[index]? := by
    rw [encode, List.getElem?_append_right (by simp)]
    simp
  simp only [getElem_block, List.getD_eq_getElem?_getD, afterFields]
  simp [List.getElem?_append, below]

theorem parse_block (entry : PartitionEntry) :
    parse entry.block = some entry := by
  have offset : u32FromLeBytes entry.block[4] entry.block[5] entry.block[6]
      entry.block[7] = entry.offset := u32FromLeBytes_toLeBytes entry.offset
  have size : u32FromLeBytes entry.block[8] entry.block[9] entry.block[10]
      entry.block[11] = entry.size := u32FromLeBytes_toLeBytes entry.size
  simp only [parse, magic_block, offset, size, label_block,
    Fin.is_lt, Vector.ofFn_getElem]
  rfl

end PartitionEntry

/-- A label of at most 16 bytes, padded with NUL. -/
def labelOfBytes (bytes : List UInt8) : Vector UInt8 16 :=
  Vector.ofFn fun index : Fin 16 => bytes.getD index.val 0

/-! ## Tables -/

/-- A block of erased flash. -/
def erasedBlock : Vector UInt8 32 := Vector.replicate 32 0xFF

/-- The blocks of a table of at most 32 entries. -/
def tableBlocks (entries : List PartitionEntry) : List (Vector UInt8 32) :=
  entries.map PartitionEntry.block ++
    List.replicate (32 - entries.length) erasedBlock

theorem liveEntries_erased (count : Nat) :
    liveEntries (List.replicate count erasedBlock) = [] := by
  cases count with
  | zero => rfl
  | succ count =>
      rw [List.replicate_succ, liveEntries]
      rfl

theorem liveEntries_tableBlocks (entries : List PartitionEntry) :
    liveEntries (tableBlocks entries) = entries := by
  have blocks (count : Nat) : liveEntries
      (entries.map PartitionEntry.block ++
        List.replicate count erasedBlock) = entries := by
    induction entries with
    | nil => exact liveEntries_erased count
    | cons entry rest induction =>
        rw [List.map_cons, List.cons_append, liveEntries,
          if_pos (entry.magic_block _ _), entry.parse_block, induction]
        rfl
  exact blocks _

def Flash.withTable (flash : Flash) (entries : List PartitionEntry) :
    Flash :=
  flash.program partitionTableOffset
    ((tableBlocks entries).flatMap Vector.toList)

/-- Indexing into a concatenation of blocks of one length. -/
theorem getElem?_flatMap_toList {blocks : List (Vector UInt8 32)}
    {slot index : Nat} (below : index < 32) :
    (blocks.flatMap Vector.toList)[32 * slot + index]? =
      (blocks[slot]?).map fun block => block[index] := by
  induction blocks generalizing slot with
  | nil => simp
  | cons block rest induction =>
      cases slot with
      | zero => simp [List.getElem?_append, below]
      | succ slot =>
          have past : 32 * (slot + 1) + index - 32 = 32 * slot + index := by
            omega
          rw [List.flatMap_cons, List.getElem?_append_right (by simp; omega),
            Vector.length_toList, past, induction, List.getElem?_cons_succ]

theorem length_tableBlocks {entries : List PartitionEntry}
    (count : entries.length ≤ 32) : (tableBlocks entries).length = 32 := by
  simp [tableBlocks]
  omega

theorem length_flatMap_toList (blocks : List (Vector UInt8 32)) :
    (blocks.flatMap Vector.toList).length = 32 * blocks.length := by
  induction blocks with
  | nil => rfl
  | cons block rest induction =>
      simp only [List.flatMap_cons, List.length_append, induction,
        Vector.length_toList, List.length_cons]
      omega

theorem tableEntries_of_toList
    {table : Vector UInt8 partitionTableReadLen}
    {blocks : List (Vector UInt8 32)} (count : blocks.length = 32)
    (bytes : table.toList = blocks.flatMap Vector.toList) :
    tableEntries table = blocks := by
  apply List.ext_getElem
  · simp [tableEntries, count]
  · intro slot inTable inBlocks
    apply Vector.ext
    intro index below
    have position : 32 * slot + index < partitionTableReadLen := by
      simp only [partitionTableReadLen]
      omega
    have byte : table.toList[32 * slot + index]? =
        (blocks[slot]?).map fun block => block[index] := by
      rw [bytes, getElem?_flatMap_toList below]
    simpa [tableEntries, inBlocks, position] using byte

/-- Only the table's own bytes are written. -/
theorem byte_withTable (flash : Flash) {entries : List PartitionEntry}
    (count : entries.length ≤ 32) {address : UInt32}
    (outside : ¬ InRange partitionTableOffset partitionTableReadLen
      address) :
    (flash.withTable entries).byte address = flash.byte address := by
  have bytes := length_flatMap_toList (tableBlocks entries)
  rw [length_tableBlocks count] at bytes
  apply byte_program_of_not_inRange
  rw [bytes]
  exact outside

/-- A table that is written as blocks is read as these blocks. -/
theorem tableEntries_program (flash : Flash)
    {blocks : List (Vector UInt8 32)} (count : blocks.length = 32) :
    tableEntries ((flash.program partitionTableOffset
      (blocks.flatMap Vector.toList)).slice partitionTableOffset
        partitionTableReadLen) = blocks := by
  have bytes := length_flatMap_toList blocks
  rw [count] at bytes
  let table : Vector UInt8 partitionTableReadLen :=
    ⟨(blocks.flatMap Vector.toList).toArray, by
      rw [List.size_toArray, bytes]
      rfl⟩
  have written : table.toList = blocks.flatMap Vector.toList := rfl
  rw [← written, slice_program flash partitionTableOffset table (by decide),
    tableEntries_of_toList count written]

theorem tableEntries_withTable (flash : Flash)
    {entries : List PartitionEntry} (count : entries.length ≤ 32) :
    tableEntries ((flash.withTable entries).slice partitionTableOffset
      partitionTableReadLen) = tableBlocks entries :=
  tableEntries_program flash (length_tableBlocks count)

/-- The walk over a written table sees the entries that were written. -/
theorem partitions_withTable (flash : Flash)
    {entries : List PartitionEntry} (count : entries.length ≤ 32) :
    (flash.withTable entries).partitions = entries := by
  rw [Flash.partitions, tableEntries_withTable flash count,
    liveEntries_tableBlocks]

/-- The app partition of the single-app layout in the README. -/
def factoryPartition : PartitionEntry :=
  { kind := partTypeApp
    subtype := partSubtypeFactory
    offset := 0x10000
    size := 0x100000
    label := labelOfBytes [0x66, 0x61, 0x63, 0x74, 0x6F, 0x72, 0x79] }

end MiniBootloader
