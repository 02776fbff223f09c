import Mathlib.Data.List.Infix

/-!
# A bounded queue filled by polling

A writer asks whether a queue has room and then stores, in two steps of its
own; a reader takes elements whenever it likes, also in between.  A store
into a full queue is lost, so keeping every element rests on the order of the
two steps alone.  The writer may note elements in a log of its own and may
wait until the queue is empty.

Runs are lists of the agents that move.  Safety is one invariant over any of
them; progress is counted in rounds, in each of which both agents move.
-/

universe u

namespace PolledQueue

variable {α : Type u}

inductive Command (α : Type u) where
  | put (element : α)
  | note (element : α)
  | flush

structure State (α : Type u) where
  /-- What the writer still has to do. -/
  todo : List (Command α)
  /-- The last poll found room and nothing was stored since. -/
  ready : Bool
  queue : List α
  taken : List α
  noted : List α

inductive Agent where
  | writer
  | reader
  deriving DecidableEq

/-- A full queue loses what is stored. -/
def store (capacity : Nat) (queue : List α) (element : α) : List α :=
  if queue.length < capacity then queue ++ [element] else queue

def stepWriter (capacity : Nat) (state : State α) : State α :=
  match state.todo with
  | [] => state
  | .put element :: rest =>
      if state.ready then
        { state with
          todo := rest
          ready := false
          queue := store capacity state.queue element }
      else if state.queue.length < capacity then
        { state with ready := true }
      else
        state
  | .note element :: rest =>
      { state with todo := rest, noted := state.noted ++ [element] }
  | .flush :: rest =>
      if state.queue.length = 0 then { state with todo := rest } else state

def stepReader (state : State α) : State α :=
  match state.queue with
  | [] => state
  | element :: rest =>
      { state with queue := rest, taken := state.taken ++ [element] }

def step (capacity : Nat) (state : State α) : Agent → State α
  | .writer => stepWriter capacity state
  | .reader => stepReader state

def run (capacity : Nat) (state : State α) (schedule : List Agent) :
    State α :=
  schedule.foldl (step capacity) state

/-- Nothing is queued, taken or noted yet. -/
def start (program : List (Command α)) : State α :=
  { todo := program
    ready := false
    queue := []
    taken := []
    noted := [] }

def puts : List (Command α) → List α :=
  List.filterMap fun command =>
    match command with
    | .put element => some element
    | _ => none

def notes : List (Command α) → List α :=
  List.filterMap fun command =>
    match command with
    | .note element => some element
    | _ => none

@[simp] theorem puts_append (first second : List (Command α)) :
    puts (first ++ second) = puts first ++ puts second :=
  List.filterMap_append

@[simp] theorem notes_append (first second : List (Command α)) :
    notes (first ++ second) = notes first ++ notes second :=
  List.filterMap_append

/-- What one step of the writer can do. -/
inductive Writes (capacity : Nat) (state : State α) : State α → Prop where
  | finished : state.todo = [] → Writes capacity state state
  /-- The poll asks for more room, or for less in the queue. -/
  | refused : (∃ element rest, state.todo = .put element :: rest ∧
        capacity ≤ state.queue.length) ∨
      (∃ rest, state.todo = .flush :: rest ∧ state.queue ≠ []) →
      Writes capacity state state
  | polled {element : α} {rest : List (Command α)} :
      state.todo = .put element :: rest →
      state.ready = false →
      state.queue.length < capacity →
      Writes capacity state { state with ready := true }
  | stored {element : α} {rest : List (Command α)} :
      state.todo = .put element :: rest →
      state.ready = true →
      Writes capacity state
        { state with
          todo := rest
          ready := false
          queue := store capacity state.queue element }
  | noted {element : α} {rest : List (Command α)} :
      state.todo = .note element :: rest →
      Writes capacity state
        { state with todo := rest, noted := state.noted ++ [element] }
  | drained {rest : List (Command α)} :
      state.todo = .flush :: rest →
      state.queue = [] →
      Writes capacity state { state with todo := rest }

theorem writes_stepWriter (capacity : Nat) (state : State α) :
    Writes capacity state (stepWriter capacity state) := by
  match next : state.todo with
  | [] =>
      simp only [stepWriter, next]
      exact .finished next
  | .put element :: rest =>
      cases ready : state.ready with
      | true =>
          simp only [stepWriter, next, ready, if_true]
          exact .stored next ready
      | false =>
          by_cases free : state.queue.length < capacity
          · have polled := Writes.polled next ready free
            simpa only [stepWriter, next, ready, Bool.false_eq_true, if_false,
              free, if_true] using polled
          · have full := Nat.le_of_not_lt free
            simp only [stepWriter, next, ready, Bool.false_eq_true, if_false,
              free]
            exact .refused (.inl ⟨element, rest, next, full⟩)
  | .note element :: rest =>
      simp only [stepWriter, next]
      exact .noted next
  | .flush :: rest =>
      by_cases empty : state.queue.length = 0
      · simp only [stepWriter, next, empty, if_true]
        exact .drained next (List.length_eq_zero_iff.mp empty)
      · simp only [stepWriter, next, empty, if_false]
        have busy : state.queue ≠ [] :=
          fun nothing => empty (List.length_eq_zero_iff.mpr nothing)
        exact .refused (.inr ⟨rest, next, busy⟩)

/-! ## What the writer has done -/

/-- The writer has executed the commands `done` of its program.  Every
element it put is queued or taken, in order, and those in front of a wait are
taken. -/
structure Reached (capacity : Nat) (done : List (Command α))
    (state : State α) : Prop where
  bounded : state.queue.length ≤ capacity
  room : state.ready = true → state.queue.length < capacity
  kept : state.taken ++ state.queue = puts done
  noted : state.noted = notes done
  flushed : ∀ before after, done = before ++ .flush :: after →
    puts before <+: state.taken

theorem reached_start (capacity : Nat) (program : List (Command α)) :
    Reached capacity [] (start program) := by
  constructor
  · exact Nat.zero_le capacity
  · intro ready
    cases ready
  · rfl
  · rfl
  · intro before after split
    simp at split

section Steps

variable {capacity : Nat} {done : List (Command α)} {state : State α}

theorem Reached.reader (reached : Reached capacity done state) :
    Reached capacity done (stepReader state) ∧
      (stepReader state).todo = state.todo := by
  obtain ⟨bounded, room, kept, noted, flushed⟩ := reached
  cases queued : state.queue with
  | nil =>
      have still : stepReader state = state := by
        simp only [stepReader, queued]
      rw [still]
      exact ⟨⟨bounded, room, kept, noted, flushed⟩, rfl⟩
  | cons element rest =>
      have moved : stepReader state =
          { state with
            queue := rest
            taken := state.taken ++ [element] } := by
        simp only [stepReader, queued]
      rw [queued, List.length_cons] at bounded
      rw [moved]
      refine ⟨⟨Nat.le_of_succ_le bounded, ?_, ?_, noted, ?_⟩, rfl⟩
      · intro ready
        have before := room ready
        rw [queued, List.length_cons] at before
        exact Nat.lt_of_succ_lt before
      · rw [queued] at kept
        rw [List.append_assoc, List.singleton_append, kept]
      · intro before after split
        exact (flushed before after split).trans
          (List.prefix_append _ _)

/-- A wait that is part of the commands done so far, or the one just
executed. -/
private theorem flush_split {before after : List (Command α)}
    {command : Command α}
    (split : done ++ [command] = before ++ .flush :: after) :
    (∃ middle, done = before ++ .flush :: middle) ∨
      done = before ∧ command = .flush := by
  induction after using List.reverseRecOn with
  | nil =>
      obtain ⟨same, last⟩ := List.append_inj' split rfl
      right
      exact ⟨same, (List.cons.inj last).1⟩
  | append_singleton middle last _ =>
      rw [← List.cons_append, ← List.append_assoc] at split
      obtain ⟨same, _⟩ := List.append_inj' split rfl
      exact .inl ⟨middle, same⟩

/-- Every step of the writer is idle, or executes its next command. -/
theorem Reached.writer (reached : Reached capacity done state) :
    ∃ executed, state.todo = executed ++ (stepWriter capacity state).todo ∧
      Reached capacity (done ++ executed) (stepWriter capacity state) := by
  obtain ⟨bounded, room, kept, noted, flushed⟩ := reached
  -- Only a wait adds an obligation on what was taken.
  have flushedBy (command : Command α) (other : command ≠ .flush) :
      ∀ before after, done ++ [command] = before ++ .flush :: after →
        puts before <+: state.taken := by
    intro before after split
    rcases flush_split split with ⟨middle, earlier⟩ | ⟨_, flush⟩
    · exact flushed before middle earlier
    · exact (other flush).elim
  have moves := writes_stepWriter capacity state
  generalize stepWriter capacity state = after at moves ⊢
  cases moves with
  | finished none =>
      refine ⟨[], by simp, ?_⟩
      rw [List.append_nil]
      exact ⟨bounded, room, kept, noted, flushed⟩
  | refused next =>
      refine ⟨[], rfl, ?_⟩
      rw [List.append_nil]
      exact ⟨bounded, room, kept, noted, flushed⟩
  | polled next _ free =>
      refine ⟨[], rfl, ?_⟩
      rw [List.append_nil]
      exact ⟨bounded, fun _ => free, kept, noted, flushed⟩
  | stored next ready =>
      rename_i element rest
      have free := room ready
      refine ⟨[.put element], next, ?_, ?_, ?_, ?_, ?_⟩
      · simp only [store, free, if_true, List.length_append,
          List.length_singleton]
        exact free
      · intro impossible
        cases impossible
      · simp only [store, free, if_true]
        rw [← List.append_assoc, kept, puts_append]
        rfl
      · rw [noted, notes_append]
        exact (List.append_nil _).symm
      · exact flushedBy _ (by simp)
  | noted next =>
      rename_i element rest
      refine ⟨[.note element], next, bounded, room, ?_, ?_, ?_⟩
      · rw [kept, puts_append]
        exact (List.append_nil _).symm
      · rw [noted, notes_append]
        rfl
      · exact flushedBy _ (by simp)
  | drained next empty =>
      refine ⟨[.flush], next, bounded, room, ?_, ?_, ?_⟩
      · rw [kept, puts_append]
        exact (List.append_nil _).symm
      · rw [noted, notes_append]
        exact (List.append_nil _).symm
      · intro before after split
        rcases flush_split split with ⟨middle, earlier⟩ | ⟨same, _⟩
        · exact flushed before middle earlier
        · rw [empty, List.append_nil] at kept
          rw [← same, ← kept]

theorem Reached.step (reached : Reached capacity done state)
    (agent : Agent) :
    ∃ executed,
      state.todo = executed ++ (step capacity state agent).todo ∧
      Reached capacity (done ++ executed) (step capacity state agent) := by
  cases agent with
  | writer => exact reached.writer
  | reader =>
      obtain ⟨after, same⟩ := reached.reader
      refine ⟨[], same.symm, ?_⟩
      rw [List.append_nil]
      exact after

end Steps

/-- Whatever the schedule, the writer has executed a first part of its
program. -/
theorem reached_run (capacity : Nat) (program : List (Command α))
    (schedule : List Agent) :
    ∃ done,
      program = done ++ (run capacity (start program) schedule).todo ∧
      Reached capacity done (run capacity (start program) schedule) := by
  induction schedule using List.reverseRecOn with
  | nil => exact ⟨[], rfl, reached_start capacity program⟩
  | append_singleton schedule agent ih =>
      obtain ⟨done, split, reached⟩ := ih
      obtain ⟨executed, next, after⟩ := reached.step agent
      have unfolded : run capacity (start program) (schedule ++ [agent]) =
          step capacity (run capacity (start program) schedule) agent :=
        List.foldl_concat ..
      rw [unfolded]
      refine ⟨done ++ executed, ?_, after⟩
      rw [List.append_assoc, ← next, ← split]

/-! ## Rounds -/

/-- The steps that are left, those of the reader included. -/
def Command.cost : Command α → Nat
  | .put _ => 3
  | .note _ => 1
  | .flush => 1

def workLeft : List (Command α) → Nat
  | [] => 0
  | command :: rest => command.cost + workLeft rest

/-- A poll that found room is one step ahead. -/
def writerWork : List (Command α) → Bool → Nat
  | .put _ :: rest, true => 2 + workLeft rest
  | program, _ => workLeft program

def work (state : State α) : Nat :=
  writerWork state.todo state.ready + state.queue.length

theorem workLeft_cons (command : Command α) (program : List (Command α)) :
    workLeft (command :: program) = command.cost + workLeft program := rfl

theorem workLeft_append (first second : List (Command α)) :
    workLeft (first ++ second) = workLeft first + workLeft second := by
  induction first with
  | nil => exact (Nat.zero_add _).symm
  | cons command first ih =>
      rw [List.cons_append, workLeft_cons, workLeft_cons, ih, Nat.add_assoc]

theorem writerWork_false (program : List (Command α)) :
    writerWork program false = workLeft program := by
  cases program with
  | nil => rfl
  | cons command rest => cases command <;> rfl

theorem writerWork_put (element : α) (rest : List (Command α)) :
    writerWork (.put element :: rest) true = 2 + workLeft rest := rfl

theorem writerWork_of_ne_put (command : Command α)
    (other : ∀ element, command ≠ .put element) (rest : List (Command α))
    (ready : Bool) :
    writerWork (command :: rest) ready = 1 + workLeft rest := by
  cases command with
  | put element => exact (other element rfl).elim
  | note element => exact workLeft_cons _ rest
  | flush => exact workLeft_cons _ rest

theorem writerWork_le (program : List (Command α)) (ready : Bool) :
    writerWork program ready ≤ workLeft program := by
  cases ready with
  | false => exact Nat.le_of_eq (writerWork_false program)
  | true =>
      cases program with
      | nil => exact Nat.le_refl _
      | cons command rest =>
          cases command with
          | put element =>
              rw [writerWork_put, workLeft_cons, Command.cost]
              omega
          | note element => exact Nat.le_refl _
          | flush => exact Nat.le_refl _

theorem writerWork_pos (command : Command α) (rest : List (Command α))
    (ready : Bool) : 0 < writerWork (command :: rest) ready := by
  cases command with
  | put element =>
      cases ready with
      | false =>
          rw [writerWork_false, workLeft_cons, Command.cost]
          omega
      | true =>
          rw [writerWork_put]
          omega
  | note element =>
      rw [writerWork_of_ne_put _ (by simp)]
      omega
  | flush =>
      rw [writerWork_of_ne_put _ (by simp)]
      omega

theorem work_start (program : List (Command α)) :
    work (start program) = workLeft program :=
  writerWork_false program

theorem finished_of_work_eq_zero {state : State α}
    (none : work state = 0) : state.todo = [] ∧ state.queue = [] := by
  obtain ⟨writer, queue⟩ := Nat.add_eq_zero_iff.mp none
  refine ⟨?_, List.length_eq_zero_iff.mp queue⟩
  cases next : state.todo with
  | nil => rfl
  | cons command rest =>
      rw [next] at writer
      exact (Nat.ne_of_gt (writerWork_pos command rest _) writer).elim

theorem length_store_le (capacity : Nat) (queue : List α) (element : α) :
    (store capacity queue element).length ≤ queue.length + 1 := by
  rw [store]
  split
  · rw [List.length_append, List.length_singleton]
  · exact Nat.le_succ _

section Work

variable {capacity : Nat}

/-- A step of the writer that does no work finds its program finished, or the
queue in use. -/
theorem work_stepWriter (positive : 0 < capacity) (state : State α) :
    work (stepWriter capacity state) < work state ∨
      stepWriter capacity state = state ∧
        (state.queue = [] → state.todo = []) := by
  have moves := writes_stepWriter capacity state
  generalize stepWriter capacity state = after at moves ⊢
  cases moves with
  | finished none => exact .inr ⟨rfl, fun _ => none⟩
  | refused busy =>
      refine .inr ⟨rfl, fun empty => ?_⟩
      rcases busy with ⟨element, rest, _, full⟩ | ⟨rest, _, used⟩
      · rw [empty, List.length_nil] at full
        omega
      · exact (used empty).elim
  | polled next unready free =>
      left
      simp only [work, next, unready, writerWork_put, writerWork_false,
        workLeft_cons, Command.cost]
      omega
  | stored next ready =>
      rename_i element rest
      left
      have grown := length_store_le capacity state.queue element
      simp only [work, next, ready, writerWork_put, writerWork_false]
      omega
  | noted next =>
      rename_i element rest
      left
      have less := writerWork_le rest state.ready
      have before := writerWork_of_ne_put (.note element)
        (by simp) rest state.ready
      simp only [work, next, before]
      omega
  | drained next empty =>
      rename_i rest
      left
      have less := writerWork_le rest state.ready
      have before := writerWork_of_ne_put .flush
        (by simp) rest state.ready
      simp only [work, next, before]
      omega

theorem work_stepReader (state : State α) :
    work (stepReader state) < work state ∨
      stepReader state = state ∧ state.queue = [] := by
  cases queued : state.queue with
  | nil =>
      right
      simp only [stepReader, queued, and_self]
  | cons element rest =>
      left
      simp only [stepReader, queued, work, List.length_cons]
      omega

/-- A step that does no work changes nothing. -/
theorem work_step (positive : 0 < capacity) (state : State α)
    (agent : Agent) :
    work (step capacity state agent) < work state ∨
      step capacity state agent = state := by
  cases agent with
  | writer => exact (work_stepWriter positive state).imp_right And.left
  | reader => exact (work_stepReader state).imp_right And.left

theorem run_of_still {state : State α} {schedule : List Agent}
    (still : ∀ agent ∈ schedule, step capacity state agent = state) :
    run capacity state schedule = state := by
  induction schedule with
  | nil => rfl
  | cons agent schedule ih =>
      obtain ⟨here, rest⟩ := List.forall_mem_cons.mp still
      rw [run, List.foldl_cons, here]
      exact ih rest

/-- A schedule that does no work consists of idle steps. -/
theorem work_run (positive : 0 < capacity) (state : State α)
    (schedule : List Agent) :
    work (run capacity state schedule) < work state ∨
      ∀ agent ∈ schedule, step capacity state agent = state := by
  induction schedule generalizing state with
  | nil => exact .inr (List.forall_mem_nil _)
  | cons agent schedule ih =>
      have unfolded : run capacity state (agent :: schedule) =
          run capacity (step capacity state agent) schedule := rfl
      rw [unfolded]
      rcases work_step positive state agent with less | same
      · left
        rcases ih (step capacity state agent) with later | still
        · exact Nat.lt_trans later less
        · rw [run_of_still still]
          exact less
      · rw [same]
        refine (ih state).imp_right fun still => ?_
        exact List.forall_mem_cons.mpr ⟨same, still⟩

/-- In a round both agents move. -/
def Round (schedule : List Agent) : Prop :=
  .writer ∈ schedule ∧ .reader ∈ schedule

/-- A round does some work unless all is done. -/
theorem work_round (positive : 0 < capacity) (state : State α)
    {round : List Agent} (both : Round round) :
    work (run capacity state round) < work state ∨
      run capacity state round = state ∧ work state = 0 := by
  refine (work_run positive state round).imp_right fun still => ?_
  refine ⟨run_of_still still, ?_⟩
  have readerStill : stepReader state = state := still _ both.2
  have writerStill : stepWriter capacity state = state := still _ both.1
  have empty : state.queue = [] := by
    rcases work_stepReader state with less | ⟨_, empty⟩
    · rw [readerStill] at less
      exact (Nat.lt_irrefl _ less).elim
    · exact empty
  have finished : state.todo = [] := by
    rcases work_stepWriter positive state with less | ⟨_, done⟩
    · rw [writerStill] at less
      exact (Nat.lt_irrefl _ less).elim
    · exact done empty
  rw [work, finished, empty]
  rfl

/-- As many rounds as there is work finish it. -/
theorem work_rounds (positive : 0 < capacity) {state : State α}
    {rounds : List (List Agent)}
    (both : ∀ round ∈ rounds, Round round)
    (enough : work state ≤ rounds.length) :
    work (run capacity state rounds.flatten) = 0 := by
  induction rounds generalizing state with
  | nil => exact Nat.le_zero.mp enough
  | cons round rounds ih =>
      obtain ⟨here, later⟩ := List.forall_mem_cons.mp both
      have unfolded : run capacity state (round :: rounds).flatten =
          run capacity (run capacity state round) rounds.flatten :=
        List.foldl_append
      rw [unfolded]
      apply ih later
      rw [List.length_cons] at enough
      rcases work_round positive state here with less | ⟨same, none⟩
      · omega
      · rw [same, none]
        exact Nat.zero_le _

/-- When the work is done, everything that was put is taken. -/
theorem run_rounds_complete (positive : 0 < capacity)
    (program : List (Command α)) {rounds : List (List Agent)}
    (both : ∀ round ∈ rounds, Round round)
    (enough : workLeft program ≤ rounds.length) :
    let last := run capacity (start program) rounds.flatten
    last.todo = [] ∧ last.queue = [] ∧ last.taken = puts program ∧
      last.noted = notes program := by
  intro last
  have none : work last = 0 := by
    apply work_rounds positive both
    rw [work_start]
    exact enough
  obtain ⟨finished, empty⟩ := finished_of_work_eq_zero none
  obtain ⟨done, split, reached⟩ :=
    reached_run capacity program rounds.flatten
  have all : done = program := by
    have rest : (run capacity (start program) rounds.flatten).todo = [] :=
      finished
    rw [split, rest, List.append_nil]
  have kept := reached.kept
  have queued : (run capacity (start program) rounds.flatten).queue = [] :=
    empty
  rw [queued, List.append_nil, all] at kept
  have noted := reached.noted
  rw [all] at noted
  exact ⟨finished, empty, kept, noted⟩

end Work

/-! ## Elements noted as they are put -/

/-- Every element is noted right after it is put. -/
inductive Teed : List (Command α) → Prop where
  | nil : Teed []
  | put (element : α) {rest : List (Command α)} :
      Teed rest → Teed (.put element :: .note element :: rest)
  | flush {rest : List (Command α)} : Teed rest → Teed (.flush :: rest)

theorem Teed.append {first second : List (Command α)}
    (left : Teed first) (right : Teed second) : Teed (first ++ second) := by
  induction left with
  | nil => exact right
  | put element _ ih => exact .put element ih
  | flush _ ih => exact .flush ih

/-- At any point of such a program at most the last element is not noted. -/
theorem Teed.notes_of_split {program done rest : List (Command α)}
    (teed : Teed program) (split : program = done ++ rest) :
    ∃ late, late.length ≤ 1 ∧ puts done = notes done ++ late := by
  induction teed generalizing done with
  | nil =>
      obtain ⟨rfl, _⟩ := List.append_eq_nil_iff.mp split.symm
      exact ⟨[], Nat.zero_le 1, rfl⟩
  | put element _ ih =>
      rcases List.cons_eq_append_iff.mp split with ⟨rfl, _⟩ | ⟨tail, rfl, more⟩
      · exact ⟨[], Nat.zero_le 1, rfl⟩
      · rcases List.cons_eq_append_iff.mp more with
          ⟨rfl, _⟩ | ⟨tail', rfl, more'⟩
        · exact ⟨[element], Nat.le_refl 1, rfl⟩
        · obtain ⟨late, short, lag⟩ := ih more'
          refine ⟨late, short, ?_⟩
          have putHead : puts (.put element :: .note element :: tail') =
              element :: puts tail' := rfl
          have noteHead : notes (.put element :: .note element :: tail') =
              element :: notes tail' := rfl
          rw [putHead, noteHead, lag, List.cons_append]
  | flush _ ih =>
      rcases List.cons_eq_append_iff.mp split with ⟨rfl, _⟩ | ⟨tail, rfl, more⟩
      · exact ⟨[], Nat.zero_le 1, rfl⟩
      · obtain ⟨late, short, lag⟩ := ih more
        exact ⟨late, short, lag⟩

end PolledQueue
