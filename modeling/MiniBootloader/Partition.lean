import MiniBootloader.Flash

/-!
# The partition table

The table is read once as 32 entries of 32 bytes.  The walk stops at the
first entry with a foreign magic, skips MD5 markers, and hands every other
entry to a closure that may stop it early.  Both lookups are the same walk
with a closure that keeps the first match, so both are a first-match search
of the live entries.
-/

namespace MiniBootloader

open Words

def partitionTableOffset : UInt32 := 0x8000

def partitionTableReadLen : Nat := 0x400

def espPartitionMagic : UInt16 := 0x50AA

def espPartitionMagicMd5 : UInt16 := 0xEBEB

def partTypeApp : UInt8 := 0x00

def partTypeData : UInt8 := 0x01

def partSubtypeFactory : UInt8 := 0x00

structure PartitionEntry where
  kind : UInt8
  subtype : UInt8
  offset : UInt32
  size : UInt32
  label : Vector UInt8 16
  deriving DecidableEq

namespace PartitionEntry

def parse (bytes : Vector UInt8 32) : Option PartitionEntry :=
  let magic := u16FromLeBytes bytes[0] bytes[1]
  if magic ≠ espPartitionMagic then
    none
  else
    some
      { kind := bytes[2]
        subtype := bytes[3]
        offset := u32FromLeBytes bytes[4] bytes[5] bytes[6] bytes[7]
        size := u32FromLeBytes bytes[8] bytes[9] bytes[10] bytes[11]
        label := Vector.ofFn fun index : Fin 16 => bytes[12 + index.val] }

/-- The label up to its first NUL; empty when that is not UTF-8. -/
def labelStr (entry : PartitionEntry) : String :=
  let bytes := entry.label.toList
  let n := (bytes.findIdx? (· == 0)).getD 16
  (String.fromUTF8? ⟨(bytes.take n).toArray⟩).getD ""

end PartitionEntry

def blockMagic (block : Vector UInt8 32) : UInt16 :=
  u16FromLeBytes block[0] block[1]

/-- The fields of a block, whatever its magic. -/
def blockEntry (block : Vector UInt8 32) : PartitionEntry :=
  { kind := block[2]
    subtype := block[3]
    offset := u32FromLeBytes block[4] block[5] block[6] block[7]
    size := u32FromLeBytes block[8] block[9] block[10] block[11]
    label := Vector.ofFn fun index : Fin 16 => block[12 + index.val] }

theorem parse_eq (block : Vector UInt8 32) :
    PartitionEntry.parse block =
      if blockMagic block = espPartitionMagic then some (blockEntry block)
      else none := by
  by_cases partition : blockMagic block = espPartitionMagic
  · rw [if_pos partition]
    exact if_neg (not_not.mpr partition)
  · rw [if_neg partition]
    exact if_pos partition

inductive PartitionError where
  | flash (error : FlashError)
  | noFactoryApp
  deriving DecidableEq, Repr

/-- The loop of `for_each_entry`.  The closure's captured variables are the
state `s`; its boolean is false to stop the walk. -/
def walkEntries {S : Type} (f : S → PartitionEntry → S × Bool) :
    List (Vector UInt8 32) → S → S
  | [], s => s
  | entry :: rest, s =>
      let magic := u16FromLeBytes entry[0] entry[1]
      if magic = espPartitionMagic then
        match PartitionEntry.parse entry with
        | some e =>
            match f s e with
            | (s', true) => walkEntries f rest s'
            | (s', false) => s'
        | none => walkEntries f rest s
      else if magic = espPartitionMagicMd5 then
        walkEntries f rest s
      else
        s

/-- The 32-byte entries of the table, in order. -/
def tableEntries (table : Vector UInt8 partitionTableReadLen) :
    List (Vector UInt8 32) :=
  (List.finRange 32).map fun slot : Fin 32 =>
    Vector.ofFn fun index : Fin 32 =>
      have inside : 32 * slot.val + index.val < partitionTableReadLen := by
        simp only [partitionTableReadLen]
        omega
      table[32 * slot.val + index.val]

def forEachEntry {S : Type} (f : S → PartitionEntry → S × Bool) (s : S) :
    FlashM FlashError S := do
  let table ← read partitionTableOffset .words partitionTableReadLen
  pure (walkEntries f (tableEntries table) s)

/-- The closure of both lookups: keep the first entry that matches, and
stop. -/
def keepFirst (matching : PartitionEntry → Bool)
    (found : Option PartitionEntry) (e : PartitionEntry) :
    Option PartitionEntry × Bool :=
  if matching e then (some e, false) else (found, true)

/-- Walk the table with a lookup closure; no match is an error. -/
def findEntry (matching : PartitionEntry → Bool) :
    FlashM PartitionError PartitionEntry := do
  let found ← (forEachEntry (keepFirst matching) none).mapError
    PartitionError.flash
  match found with
  | some e => pure e
  | none => Traced.throw .noFactoryApp

def findFactoryApp : FlashM PartitionError PartitionEntry :=
  findEntry fun e => e.kind == partTypeApp && e.subtype == partSubtypeFactory

def findByLabel (label : String) : FlashM PartitionError PartitionEntry :=
  findEntry fun e => e.labelStr == label

/-! ## The live entries -/

/-- The entries the walk hands to its closure when it is never stopped. -/
def liveEntries : List (Vector UInt8 32) → List PartitionEntry
  | [] => []
  | entry :: rest =>
      if u16FromLeBytes entry[0] entry[1] = espPartitionMagic then
        (PartitionEntry.parse entry).toList ++ liveEntries rest
      else if u16FromLeBytes entry[0] entry[1] = espPartitionMagicMd5 then
        liveEntries rest
      else
        []

theorem walkEntries_keepFirst (matching : PartitionEntry → Bool)
    (entries : List (Vector UInt8 32)) :
    walkEntries (keepFirst matching) entries none =
      (liveEntries entries).find? matching := by
  induction entries with
  | nil => rfl
  | cons entry rest induction =>
      simp only [walkEntries, liveEntries]
      split
      · rename_i live
        cases parsed : PartitionEntry.parse entry with
        | none => simpa using induction
        | some e =>
            by_cases hit : matching e
            · simp [keepFirst, hit]
            · simp [keepFirst, hit, induction]
      · split
        · exact induction
        · rfl

/-- The live entries of the table a flash holds. -/
def Flash.partitions (flash : Flash) : List PartitionEntry :=
  liveEntries (tableEntries
    (flash.slice partitionTableOffset partitionTableReadLen))

def Flash.TableReadable (flash : Flash) : Prop :=
  flash.Readable partitionTableOffset partitionTableReadLen

instance (flash : Flash) : Decidable flash.TableReadable :=
  inferInstanceAs (Decidable (flash.Readable _ _))

theorem run_findEntry_of_readable (matching : PartitionEntry → Bool)
    {flash : Flash} (readable : flash.TableReadable) :
    (findEntry matching).run flash =
      ⟨[.romRead partitionTableOffset .words partitionTableReadLen],
        match flash.partitions.find? matching with
        | some e => .ok e
        | none => .error .noFactoryApp⟩ := by
  have tableRead := run_readWords_of_readable (by decide) readable
  have walked := walkEntries_keepFirst matching
    (tableEntries (flash.slice partitionTableOffset partitionTableReadLen))
  simp only [findEntry, forEachEntry, Traced.run_bind, Traced.run_mapError,
    tableRead, Except.mapError, walked, Flash.partitions,
    Traced.run_pure, List.append_nil]
  cases (liveEntries (tableEntries (flash.slice partitionTableOffset
    partitionTableReadLen))).find? matching <;> rfl

theorem run_findEntry_of_not_readable (matching : PartitionEntry → Bool)
    {flash : Flash} (failed : ¬ flash.TableReadable) :
    (findEntry matching).run flash =
      ⟨[.romRead partitionTableOffset .words partitionTableReadLen],
        .error (.flash (.rom (flash.status partitionTableOffset
          (Int32.ofNat partitionTableReadLen))))⟩ := by
  have tableRead := run_readWords_of_not_readable (by decide) failed
  simp only [findEntry, forEachEntry, Traced.run_bind, Traced.run_mapError,
    tableRead, Except.mapError]

theorem result_findEntry_eq_ok_iff {matching : PartitionEntry → Bool}
    {flash : Flash} {entry : PartitionEntry} :
    ((findEntry matching).run flash).result = .ok entry ↔
      flash.TableReadable ∧
        flash.partitions.find? matching = some entry := by
  by_cases readable : flash.TableReadable
  · rw [run_findEntry_of_readable matching readable]
    cases flash.partitions.find? matching <;> simp [readable]
  · simp [run_findEntry_of_not_readable matching readable, readable]

end MiniBootloader
