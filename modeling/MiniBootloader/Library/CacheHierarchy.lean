import Mathlib.Logic.Function.Basic
import MiniBootloader.Library.Runs

/-!
# Write-back caches between stores and instruction fetches

A store goes through a data cache and a cache shared with the instruction
side, both of which write back later.  The cores fetch through instruction
caches of their own, which see no store.  Caches fill, write back and drop
copies at any time.  The routines that write caches back and invalidate them
are parameters.  Where each does what is asked of it, a write-back followed
by an invalidation makes every fetch see the stores in front of it, whatever
the caches do in between.
-/

universe u v w

namespace CacheHierarchy

/-! ## One cell -/

structure Copy (V : Type u) where
  value : V
  dirty : Bool

/-- The copies of a cell, with what the running core fetched ahead. -/
structure Cell (ι : Type w) (V : Type u) where
  data : Option (Copy V)
  shared : Option (Copy V)
  code : ι → Option V
  ahead : Option V
  memory : V

namespace Cell

variable {ι : Type w} {V : Type u}

/-- The value behind the data cache. -/
def below (cell : Cell ι V) : V :=
  (cell.shared.map Copy.value).getD cell.memory

/-- The value a load sees. -/
def front (cell : Cell ι V) : V :=
  (cell.data.map Copy.value).getD cell.below

/-- The value an instruction cache is filled with, past the shared cache or
through it. -/
def source (cell : Cell ι V) (direct : Bool) : V :=
  if direct then cell.memory else cell.below

/-- The value a fetch of a core sees. -/
def lookUp (cell : Cell ι V) (core : ι) (direct : Bool) : V :=
  (cell.code core).getD (cell.source direct)

/-- The value the running core executes. -/
def execute (cell : Cell ι V) (hart : ι) (direct : Bool) : V :=
  cell.ahead.getD (cell.lookUp hart direct)

/-- Every fetch sees the value. -/
def Fetches (cell : Cell ι V) (hart : ι) (value : V) : Prop :=
  (∀ core direct, cell.lookUp core direct = value) ∧
    ∀ direct, cell.execute hart direct = value

def store (cell : Cell ι V) (value : V) : Cell ι V :=
  { cell with data := some ⟨value, true⟩ }

def putBelow (cell : Cell ι V) (value : V) : Cell ι V :=
  match cell.shared with
  | some _ => { cell with shared := some ⟨value, true⟩ }
  | none => { cell with memory := value }

def cleanData (cell : Cell ι V) : Cell ι V :=
  match cell.data with
  | some ⟨value, true⟩ =>
      { cell.putBelow value with data := some ⟨value, false⟩ }
  | _ => cell

def cleanShared (cell : Cell ι V) : Cell ι V :=
  match cell.shared with
  | some ⟨value, true⟩ =>
      { cell with shared := some ⟨value, false⟩, memory := value }
  | _ => cell

def fence (cell : Cell ι V) : Cell ι V :=
  { cell with ahead := none }

/-- What the caches and the running core do on their own. -/
inductive Moves [DecidableEq ι] (hart : ι) : Cell ι V → Cell ι V → Prop where
  | stay (cell : Cell ι V) : Moves hart cell cell
  | fillData {cell : Cell ι V} (empty : cell.data = none) :
      Moves hart cell { cell with data := some ⟨cell.below, false⟩ }
  | cleanData (cell : Cell ι V) : Moves hart cell cell.cleanData
  | dropData {cell : Cell ι V} {value : V}
      (clean : cell.data = some ⟨value, false⟩) :
      Moves hart cell { cell with data := none }
  | fillShared {cell : Cell ι V} (empty : cell.shared = none) :
      Moves hart cell { cell with shared := some ⟨cell.memory, false⟩ }
  | cleanShared (cell : Cell ι V) : Moves hart cell cell.cleanShared
  | dropShared {cell : Cell ι V} {value : V}
      (clean : cell.shared = some ⟨value, false⟩) :
      Moves hart cell { cell with shared := none }
  | fillCode (cell : Cell ι V) (core : ι) (direct : Bool) :
      Moves hart cell
        { cell with
          code := Function.update cell.code core
            (some (cell.source direct)) }
  | dropCode (cell : Cell ι V) (core : ι) :
      Moves hart cell
        { cell with code := Function.update cell.code core none }
  | fetchAhead (cell : Cell ι V) (direct : Bool) :
      Moves hart cell { cell with ahead := some (cell.lookUp hart direct) }
  | dropAhead (cell : Cell ι V) :
      Moves hart cell { cell with ahead := none }

/-- A clean copy agrees with what is behind it. -/
structure Coherent (cell : Cell ι V) : Prop where
  data : ∀ value, cell.data = some ⟨value, false⟩ → value = cell.below
  shared : ∀ value, cell.shared = some ⟨value, false⟩ →
    value = cell.memory

/-- A write-back keeps what a load sees and leaves no modified copy in the
caches it is for.  The order it goes by and what it does to the instruction
side are left open. -/
structure WritesBack (cell : Cell ι V) (data shared : Bool)
    (after : Cell ι V) : Prop where
  coherent : cell.Coherent → after.Coherent
  front : cell.Coherent → after.front = cell.front
  data : data = true → ∀ copy, after.data = some copy → copy.dirty = false
  shared : shared = true →
    ∀ copy, after.shared = some copy → copy.dirty = false

/-- An invalidation drops copies, among them those of the instruction caches
it is for, and writes nothing. -/
structure Invalidates (cell : Cell ι V) (code : ι → Bool)
    (after : Cell ι V) : Prop where
  memory : after.memory = cell.memory
  data : ∀ copy, after.data = some copy → cell.data = some copy
  shared : ∀ copy, after.shared = some copy → cell.shared = some copy
  code : ∀ core, code core = true → after.code core = none

/-- The value has reached memory, and no copy on the data side differs. -/
structure Settled (value : V) (cell : Cell ι V) : Prop where
  data : ∀ copy, cell.data = some copy → copy = ⟨value, false⟩
  shared : ∀ copy, cell.shared = some copy → copy = ⟨value, false⟩
  memory : cell.memory = value

/-- No instruction cache holds another value either. -/
structure Published (value : V) (cell : Cell ι V) : Prop extends
    Settled value cell where
  code : ∀ core copy, cell.code core = some copy → copy = value

/-- Nor was another value fetched ahead. -/
structure Synced (value : V) (cell : Cell ι V) : Prop extends
    Published value cell where
  ahead : ∀ copy, cell.ahead = some copy → copy = value

section Facts

variable {cell cell' : Cell ι V} {value : V}

theorem Settled.below (settled : Settled value cell) :
    cell.below = value := by
  rw [Cell.below]
  cases held : cell.shared with
  | none => exact settled.memory
  | some copy =>
      rw [settled.shared copy held]
      rfl

theorem Settled.source (settled : Settled value cell) (direct : Bool) :
    cell.source direct = value := by
  cases direct with
  | true => exact settled.memory
  | false => exact settled.below

theorem Published.lookUp (published : Published value cell) (core : ι)
    (direct : Bool) : cell.lookUp core direct = value := by
  rw [Cell.lookUp]
  cases held : cell.code core with
  | none => exact published.source direct
  | some copy => exact published.code core copy held

theorem Synced.execute (synced : Synced value cell) (hart : ι)
    (direct : Bool) : cell.execute hart direct = value := by
  rw [Cell.execute]
  cases held : cell.ahead with
  | none => exact synced.lookUp hart direct
  | some copy => exact synced.ahead copy held

/-! ### What the caches do on their own -/

theorem coherent_store (cell : Cell ι V) (value : V)
    (coherent : cell.Coherent) :
    (cell.store value).Coherent ∧ (cell.store value).front = value := by
  refine ⟨⟨?_, coherent.shared⟩, rfl⟩
  intro clean held
  cases held

theorem coherent_cleanData (coherent : cell.Coherent) :
    cell.cleanData.Coherent ∧ cell.cleanData.front = cell.front := by
  rw [Cell.cleanData]
  split
  · rename_i value held
    cases behind : cell.shared with
    | none =>
        simp only [putBelow, behind]
        refine ⟨⟨?_, ?_⟩, ?_⟩
        · intro clean same
          cases same
          rfl
        · intro clean same
          cases same
        · simp only [front, held]
          rfl
    | some copy =>
        simp only [putBelow, behind]
        refine ⟨⟨?_, ?_⟩, ?_⟩
        · intro clean same
          cases same
          rfl
        · intro clean same
          cases same
        · simp only [front, held]
          rfl
  · exact ⟨coherent, rfl⟩

theorem coherent_cleanShared (coherent : cell.Coherent) :
    cell.cleanShared.Coherent ∧ cell.cleanShared.front = cell.front := by
  rw [Cell.cleanShared]
  split
  · rename_i value held
    have behind : cell.below = value := by
      rw [Cell.below, held]
      rfl
    refine ⟨⟨?_, ?_⟩, ?_⟩
    · intro clean same
      have agree := coherent.data clean same
      rw [agree, behind]
      rfl
    · intro clean same
      cases same
      rfl
    · simp only [front, behind]
      rfl
  · exact ⟨coherent, rfl⟩

theorem Moves.coherent [DecidableEq ι] {hart : ι}
    (moved : Moves hart cell cell') (coherent : cell.Coherent) :
    cell'.Coherent ∧ cell'.front = cell.front := by
  obtain ⟨data, shared⟩ := coherent
  cases moved with
  | stay => exact ⟨⟨data, shared⟩, rfl⟩
  | fillData empty =>
      refine ⟨⟨?_, shared⟩, ?_⟩
      · intro clean same
        cases same
        rfl
      · simp only [front, empty]
        rfl
  | cleanData => exact coherent_cleanData ⟨data, shared⟩
  | dropData clean =>
      refine ⟨⟨?_, shared⟩, ?_⟩
      · intro value same
        cases same
      · simp only [front, clean]
        exact (data _ clean).symm
  | fillShared empty =>
      have behind : cell.below = cell.memory := by
        rw [Cell.below, empty]
        rfl
      refine ⟨⟨?_, ?_⟩, ?_⟩
      · intro value same
        rw [data value same, behind]
        rfl
      · intro value same
        cases same
        rfl
      · simp only [front, behind]
        rfl
  | cleanShared => exact coherent_cleanShared ⟨data, shared⟩
  | dropShared clean =>
      have behind : cell.below = cell.memory := by
        rw [Cell.below, clean]
        exact shared _ clean
      refine ⟨⟨?_, ?_⟩, ?_⟩
      · intro value same
        rw [data value same, behind]
        rfl
      · intro value same
        cases same
      · simp only [front, behind]
        rfl
  | fillCode core direct => exact ⟨⟨data, shared⟩, rfl⟩
  | dropCode core => exact ⟨⟨data, shared⟩, rfl⟩
  | fetchAhead direct => exact ⟨⟨data, shared⟩, rfl⟩
  | dropAhead => exact ⟨⟨data, shared⟩, rfl⟩

theorem Settled.cleanData_eq (settled : Settled value cell) :
    cell.cleanData = cell := by
  rw [Cell.cleanData]
  split
  · rename_i held
    cases settled.data _ held
  · rfl

theorem Settled.cleanShared_eq (settled : Settled value cell) :
    cell.cleanShared = cell := by
  rw [Cell.cleanShared]
  split
  · rename_i held
    cases settled.shared _ held
  · rfl

theorem Moves.settled [DecidableEq ι] {hart : ι}
    (moved : Moves hart cell cell') (settled : Settled value cell) :
    Settled value cell' := by
  have behind := settled.below
  obtain ⟨data, shared, memory⟩ := settled
  cases moved with
  | stay => exact ⟨data, shared, memory⟩
  | fillData empty =>
      refine ⟨?_, shared, memory⟩
      intro copy same
      cases same
      rw [behind]
  | cleanData =>
      rw [Settled.cleanData_eq ⟨data, shared, memory⟩]
      exact ⟨data, shared, memory⟩
  | dropData clean =>
      refine ⟨?_, shared, memory⟩
      intro copy same
      cases same
  | fillShared empty =>
      refine ⟨data, ?_, memory⟩
      intro copy same
      cases same
      rw [memory]
  | cleanShared =>
      rw [Settled.cleanShared_eq ⟨data, shared, memory⟩]
      exact ⟨data, shared, memory⟩
  | dropShared clean =>
      refine ⟨data, ?_, memory⟩
      intro copy same
      cases same
  | fillCode core direct => exact ⟨data, shared, memory⟩
  | dropCode core => exact ⟨data, shared, memory⟩
  | fetchAhead direct => exact ⟨data, shared, memory⟩
  | dropAhead => exact ⟨data, shared, memory⟩

/-- An instruction cache is filled with the value. -/
theorem Published.code_update [DecidableEq ι]
    (published : Published value cell) (core : ι) {filled : Option V}
    (right : ∀ copy, filled = some copy → copy = value) :
    ∀ other copy, Function.update cell.code core filled other = some copy →
      copy = value := by
  intro other copy held
  by_cases same : other = core
  · rw [same, Function.update_self] at held
    exact right copy held
  · rw [Function.update_of_ne same] at held
    exact published.code other copy held

theorem Moves.published [DecidableEq ι] {hart : ι}
    (moved : Moves hart cell cell') (published : Published value cell) :
    Published value cell' := by
  refine ⟨moved.settled published.toSettled, ?_⟩
  have code := published.code
  cases moved with
  | cleanData =>
      rw [published.cleanData_eq]
      exact code
  | cleanShared =>
      rw [published.cleanShared_eq]
      exact code
  | fillCode core direct =>
      apply published.code_update core
      intro copy filled
      cases filled
      exact published.source direct
  | dropCode core =>
      apply published.code_update core
      intro copy filled
      cases filled
  | stay => exact code
  | fillData empty => exact code
  | dropData clean => exact code
  | fillShared empty => exact code
  | dropShared clean => exact code
  | fetchAhead direct => exact code
  | dropAhead => exact code

theorem Moves.synced [DecidableEq ι] {hart : ι}
    (moved : Moves hart cell cell') (synced : Synced value cell) :
    Synced value cell' := by
  refine ⟨moved.published synced.toPublished, ?_⟩
  have ahead := synced.ahead
  cases moved with
  | cleanData =>
      rw [synced.cleanData_eq]
      exact ahead
  | cleanShared =>
      rw [synced.cleanShared_eq]
      exact ahead
  | fetchAhead direct =>
      intro copy fetched
      cases fetched
      exact synced.lookUp hart direct
  | dropAhead =>
      intro copy fetched
      cases fetched
  | stay => exact ahead
  | fillData empty => exact ahead
  | dropData clean => exact ahead
  | fillShared empty => exact ahead
  | dropShared clean => exact ahead
  | fillCode core direct => exact ahead
  | dropCode core => exact ahead

/-! ### Maintenance -/

theorem cleanData_clean (cell : Cell ι V) :
    ∀ copy, cell.cleanData.data = some copy → copy.dirty = false := by
  intro copy held
  rw [Cell.cleanData] at held
  split at held
  · cases held
    rfl
  · rename_i other
    cases dirty : copy.dirty with
    | false => rfl
    | true =>
        obtain ⟨value, flag⟩ := copy
        subst dirty
        exact (other value held).elim

theorem cleanShared_clean (cell : Cell ι V) :
    ∀ copy, cell.cleanShared.shared = some copy → copy.dirty = false := by
  intro copy held
  rw [Cell.cleanShared] at held
  split at held
  · cases held
    rfl
  · rename_i other
    cases dirty : copy.dirty with
    | false => rfl
    | true =>
        obtain ⟨value, flag⟩ := copy
        subst dirty
        exact (other value held).elim

theorem data_cleanShared (cell : Cell ι V) :
    cell.cleanShared.data = cell.data := by
  rw [Cell.cleanShared]
  split <;> rfl

/-- With clean copies only, everything agrees with memory. -/
theorem Coherent.settled (coherent : cell.Coherent)
    (data : ∀ copy, cell.data = some copy → copy.dirty = false)
    (shared : ∀ copy, cell.shared = some copy → copy.dirty = false) :
    Settled cell.front cell := by
  have behind : cell.below = cell.memory := by
    rw [Cell.below]
    cases held : cell.shared with
    | none => rfl
    | some copy =>
        obtain ⟨value, dirty⟩ := copy
        cases shared _ held
        exact coherent.shared value held
  have whole : cell.front = cell.memory := by
    rw [Cell.front]
    cases held : cell.data with
    | none => exact behind
    | some copy =>
        obtain ⟨value, dirty⟩ := copy
        cases data _ held
        exact (coherent.data value held).trans behind
  rw [whole]
  refine ⟨?_, ?_, rfl⟩
  · intro copy held
    obtain ⟨value, dirty⟩ := copy
    cases data _ held
    rw [coherent.data value held, behind]
  · intro copy held
    obtain ⟨value, dirty⟩ := copy
    cases shared _ held
    rw [coherent.shared value held]

theorem Coherent.settled_of_writesBack (coherent : cell.Coherent)
    (written : cell.WritesBack true true cell') :
    Settled cell.front cell' := by
  rw [← written.front coherent]
  exact (written.coherent coherent).settled (written.data rfl)
    (written.shared rfl)

theorem Settled.published_of_invalidates {code : ι → Bool}
    (settled : Settled value cell) (dropped : cell.Invalidates code cell')
    (all : ∀ core, code core = true) : Published value cell' := by
  refine ⟨⟨?_, ?_, dropped.memory.trans settled.memory⟩, ?_⟩
  · intro copy held
    exact settled.data copy (dropped.data copy held)
  · intro copy held
    exact settled.shared copy (dropped.shared copy held)
  · intro core copy held
    rw [dropped.code core (all core)] at held
    cases held

theorem Published.synced_fence (published : Published value cell) :
    Synced value cell.fence := by
  refine ⟨⟨⟨published.data, published.shared, published.memory⟩,
    published.code⟩, ?_⟩
  intro copy held
  cases held

theorem Synced.fetches (synced : Synced value cell) (hart : ι) :
    cell.Fetches hart value :=
  ⟨synced.lookUp, synced.execute hart⟩

end Facts

end Cell

/-! ## All cells -/

/-- A store, a call of a routine for a set of caches, or a fence. -/
inductive Command (A : Type v) (M : Type w) (V : Type u) where
  | store (address : A) (value : V)
  | writeback (caches : M)
  | invalidate (caches : M)
  | fence

/-- A command of the program under study, a store of its own to a cell it
does not publish, or whatever the caches do in between. -/
inductive Happening (A : Type v) (M : Type w) (V : Type u) where
  | background
  | own (address : A) (value : V)
  | command (command : Command A M V)

section Happenings

variable {A : Type v} {M : Type w} {V : Type u}

def Happening.command? : Happening A M V → Option (Command A M V)
  | .command issued => some issued
  | _ => none

def commandsOf (happenings : List (Happening A M V)) :
    List (Command A M V) :=
  happenings.filterMap Happening.command?

/-- The program does not store to the cell on its own. -/
def Spared (address : A) (happenings : List (Happening A M V)) : Prop :=
  ∀ value, .own address value ∉ happenings

def storesOf (writes : List (A × V)) : List (Command A M V) :=
  writes.map fun write => .store write.1 write.2

@[simp] theorem commandsOf_command (command : Command A M V)
    (happenings : List (Happening A M V)) :
    commandsOf (.command command :: happenings) =
      command :: commandsOf happenings := rfl

theorem Spared.left {address : A} {first second : List (Happening A M V)}
    (spared : Spared address (first ++ second)) : Spared address first :=
  fun value member => spared value (List.mem_append_left _ member)

theorem Spared.right {address : A} {first second : List (Happening A M V)}
    (spared : Spared address (first ++ second)) : Spared address second :=
  fun value member => spared value (List.mem_append_right _ member)

theorem Spared.tail {address : A} {action : Happening A M V}
    {happenings : List (Happening A M V)}
    (spared : Spared address (action :: happenings)) :
    Spared address happenings :=
  fun value member => spared value (List.mem_cons_of_mem _ member)

theorem Spared.ne {address other : A} {value : V}
    {happenings : List (Happening A M V)}
    (spared : Spared address (.own other value :: happenings)) :
    address ≠ other := by
  rintro rfl
  exact spared value List.mem_cons_self

/-- A list of happenings splits at each of its commands. -/
theorem exists_split_of_command {happenings : List (Happening A M V)}
    {front rest : List (Command A M V)} {command : Command A M V}
    (order : commandsOf happenings = front ++ command :: rest) :
    ∃ past future, happenings = past ++ .command command :: future ∧
      commandsOf past = front ∧ commandsOf future = rest := by
  obtain ⟨past, later, whole, before, after⟩ :=
    List.filterMap_eq_append_iff.mp order
  obtain ⟨quiet, action, future, split, none, issued, behind⟩ :=
    List.filterMap_eq_cons_iff.mp after
  have here : action = .command command := by
    cases action with
    | background => cases issued
    | own address value => cases issued
    | command other =>
        cases issued
        rfl
  refine ⟨past ++ quiet, future, ?_, ?_, behind⟩
  · rw [whole, split, here, List.append_assoc]
  · have silent : quiet.filterMap Happening.command? = [] :=
      List.filterMap_eq_nil_iff.mpr none
    rw [commandsOf, List.filterMap_append, before, silent, List.append_nil]

theorem exists_split_of_head {happenings : List (Happening A M V)}
    {rest : List (Command A M V)} {command : Command A M V}
    (order : commandsOf happenings = command :: rest) :
    ∃ past future, happenings = past ++ .command command :: future ∧
      commandsOf past = [] ∧ commandsOf future = rest := by
  apply exists_split_of_command
  rw [order, List.nil_append]

end Happenings

section System

variable {A : Type v} {M ι : Type w} {V : Type u} [DecidableEq A]

def storeAt (cells : A → Cell ι V) (address : A) (value : V) :
    A → Cell ι V :=
  Function.update cells address ((cells address).store value)

/-- What the routines may do to the cells. -/
structure Routines (A : Type v) (M ι : Type w) (V : Type u) where
  writeback : M → (A → Cell ι V) → (A → Cell ι V) → Prop
  invalidate : M → (A → Cell ι V) → (A → Cell ι V) → Prop

def Routines.Does (routines : Routines A M ι V)
    (before after : A → Cell ι V) : Command A M V → Prop
  | .store address value => after = storeAt before address value
  | .writeback caches => routines.writeback caches before after
  | .invalidate caches => routines.invalidate caches before after
  | .fence => after = fun address => (before address).fence

/-- In the background any number of cells move at once. -/
inductive Acts [DecidableEq ι] (routines : Routines A M ι V) (hart : ι) :
    (A → Cell ι V) → Happening A M V → (A → Cell ι V) → Prop where
  | background {before after : A → Cell ι V}
      (moved : ∀ address, Cell.Moves hart (before address) (after address)) :
      Acts routines hart before .background after
  | own (before : A → Cell ι V) (address : A) (value : V) :
      Acts routines hart before (.own address value)
        (storeAt before address value)
  | command {before after : A → Cell ι V} {command : Command A M V}
      (done : routines.Does before after command) :
      Acts routines hart before (.command command) after

/-- A memory after the writes. -/
def written (memory : A → V) (writes : List (A × V)) : A → V :=
  writes.foldl (fun memory write =>
    Function.update memory write.1 write.2) memory

theorem storeAt_of_ne {cells : A → Cell ι V} {address other : A}
    (different : address ≠ other) (value : V) :
    storeAt cells other value address = cells address :=
  Function.update_of_ne different ..

theorem front_storeAt {cells : A → Cell ι V} {memory : A → V} {address : A}
    (other : A) (value : V) (coherent : (cells address).Coherent)
    (front : (cells address).front = memory address) :
    (storeAt cells other value address).Coherent ∧
      (storeAt cells other value address).front =
        Function.update memory other value address := by
  by_cases same : address = other
  · subst same
    rw [storeAt, Function.update_self, Function.update_self]
    exact Cell.coherent_store _ value coherent
  · rw [storeAt_of_ne same, Function.update_of_ne same]
    exact ⟨coherent, front⟩

variable [DecidableEq ι] {routines : Routines A M ι V} {hart : ι}
  {first last : A → Cell ι V} {happenings : List (Happening A M V)}
  {address : A}

theorem Acts.done {command : Command A M V}
    (acted : Acts routines hart first (.command command) last) :
    routines.Does first last command := by
  cases acted with
  | command done => exact done

/-- Without commands, what the caches keep is kept. -/
theorem run_quiet {kept : Cell ι V → Prop}
    (moves : ∀ cell cell', Cell.Moves hart cell cell' → kept cell →
      kept cell')
    (run : Run (Acts routines hart) first happenings last)
    (quiet : commandsOf happenings = []) (spared : Spared address happenings)
    (holds : kept (first address)) : kept (last address) := by
  induction run with
  | nil state => exact holds
  | cons here rest ih =>
      cases here with
      | background moved =>
          exact ih quiet spared.tail (moves _ _ (moved address) holds)
      | own other value =>
          apply ih quiet spared.tail
          rw [storeAt_of_ne spared.ne]
          exact holds
      | command done =>
          rw [commandsOf_command] at quiet
          cases quiet

/-- While the program stores, the cell stays coherent and its front is what
was written last. -/
theorem run_stores {writes : List (A × V)} {memory : A → V}
    (run : Run (Acts routines hart) first happenings last)
    (order : commandsOf happenings = storesOf writes)
    (spared : Spared address happenings)
    (coherent : (first address).Coherent)
    (front : (first address).front = memory address) :
    (last address).Coherent ∧
      (last address).front = written memory writes address := by
  induction run generalizing writes memory with
  | nil state =>
      cases writes with
      | nil => exact ⟨coherent, front⟩
      | cons write writes => cases order
  | cons here rest ih =>
      cases here with
      | background moved =>
          obtain ⟨stays, same⟩ := (moved address).coherent coherent
          exact ih order spared.tail stays (same.trans front)
      | own other value =>
          apply ih order spared.tail
          · rw [storeAt_of_ne spared.ne]
            exact coherent
          · rw [storeAt_of_ne spared.ne]
            exact front
      | command done =>
          rw [commandsOf_command] at order
          cases writes with
          | nil => cases order
          | cons write writes =>
              obtain ⟨stored, others⟩ := List.cons.inj order
              subst stored
              subst done
              rw [written, List.foldl_cons, ← written]
              obtain ⟨stays, held⟩ :=
                front_storeAt write.1 write.2 coherent front
              exact ih others spared.tail stays held

/-- In every run that stores, then writes both data caches back, invalidates
the instruction caches and ends with a fence, whatever the caches do before,
between and after, every fetch of a cell that the program does not store to
on its own sees the last store to it. -/
theorem fetches_of_maintenance {back drop : M} {code : ι → Bool}
    (writesBack : ∀ before after, routines.writeback back before after →
      ∀ address, (before address).WritesBack true true (after address))
    (invalidates : ∀ before after, routines.invalidate drop before after →
      ∀ address, (before address).Invalidates code (after address))
    (all : ∀ core, code core = true) {writes : List (A × V)}
    {memory : A → V} (run : Run (Acts routines hart) first happenings last)
    (order : commandsOf happenings =
      storesOf writes ++ [.writeback back, .invalidate drop, .fence])
    (spared : Spared address happenings)
    (coherent : (first address).Coherent)
    (front : (first address).front = memory address) :
    (last address).Fetches hart (written memory writes address) := by
  obtain ⟨stores, rest, rfl, storing, order⟩ :=
    exists_split_of_command order
  obtain ⟨_, _, toWriteback, wroteBack, run⟩ := run.split
  obtain ⟨quiet, rest, rfl, still, order⟩ :=
    exists_split_of_head order
  obtain ⟨_, _, toInvalidate, invalidated, run⟩ := run.split
  obtain ⟨quiet', rest, rfl, still', order⟩ :=
    exists_split_of_head order
  obtain ⟨_, _, toFence, fenced, run⟩ := run.split
  obtain rfl := fenced.done
  have sparedStores := spared.left
  have spared := spared.right.tail
  have sparedQuiet := spared.left
  have spared := spared.right.tail
  have sparedQuiet' := spared.left
  have spared := spared.right.tail
  obtain ⟨stays, held⟩ :=
    run_stores toWriteback storing sparedStores coherent front
  have settled := run_quiet (fun _ _ moved => moved.settled) toInvalidate
    still sparedQuiet
    (stays.settled_of_writesBack (writesBack _ _ wroteBack.done address))
  have published := run_quiet (fun _ _ moved => moved.published) toFence
    still' sparedQuiet' (settled.published_of_invalidates
      (invalidates _ _ invalidated.done address) all)
  have synced := run_quiet (fun _ _ moved => moved.synced) run order spared
    published.synced_fence
  rw [held] at synced
  exact synced.fetches hart

end System

end CacheHierarchy
