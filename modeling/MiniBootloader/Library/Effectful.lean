import MiniBootloader.Library.Traced

/-!
# Computations that change a state and leave a trace

The trace may be finer than a reader wants.  Erasing the events that a view
drops commutes with every way of building a computation, so a fine program
is compared with a coarse one part by part.
-/

/-- What one run leaves behind: the state, the events in order, and how it
ended. -/
structure Ended (σ ω ε α : Type) where
  state : σ
  events : List ω
  result : Except ε α

/-- The run with what was emitted before it. -/
def Ended.after {σ ω ε α : Type} (earlier : List ω)
    (ended : Ended σ ω ε α) : Ended σ ω ε α :=
  ⟨ended.state, earlier ++ ended.events, ended.result⟩

structure Effectful (σ ω ε α : Type) where
  run : σ → Ended σ ω ε α

namespace Effectful

variable {σ ω ω' ε ε' α β : Type}

def pure (value : α) : Effectful σ ω ε α :=
  ⟨fun state => ⟨state, [], .ok value⟩⟩

/-- The first error ends the run; its state and events are kept. -/
def bind (first : Effectful σ ω ε α) (next : α → Effectful σ ω ε β) :
    Effectful σ ω ε β :=
  ⟨fun state =>
    let left := first.run state
    match left.result with
    | .error error => ⟨left.state, left.events, .error error⟩
    | .ok value =>
        let right := (next value).run left.state
        ⟨right.state, left.events ++ right.events, right.result⟩⟩

instance : Monad (Effectful σ ω ε) where
  pure := Effectful.pure
  bind := Effectful.bind

def throw (error : ε) : Effectful σ ω ε α :=
  ⟨fun state => ⟨state, [], .error error⟩⟩

def emit (event : ω) : Effectful σ ω ε Unit :=
  ⟨fun state => ⟨state, [event], .ok ()⟩⟩

def ask (view : σ → α) : Effectful σ ω ε α :=
  ⟨fun state => ⟨state, [], .ok (view state)⟩⟩

def update (change : σ → σ × α) : Effectful σ ω ε α :=
  ⟨fun state => ⟨(change state).1, [], .ok (change state).2⟩⟩

/-- A computation that only reads the state, with its events shown as events
of this trace. -/
def observe (body : Traced σ ω' ε α) (shown : ω' → List ω) :
    Effectful σ ω ε α :=
  ⟨fun state =>
    ⟨state, (body.run state).trace.flatMap shown, (body.run state).result⟩⟩

def mapError (convert : ε → ε') (body : Effectful σ ω ε α) :
    Effectful σ ω ε' α :=
  ⟨fun state =>
    ⟨(body.run state).state, (body.run state).events,
      (body.run state).result.mapError convert⟩⟩

/-- Run a computation and hand its result on as a value. -/
def attempt (body : Effectful σ ω ε α) : Effectful σ ω ε' (Except ε α) :=
  ⟨fun state =>
    ⟨(body.run state).state, (body.run state).events,
      .ok (body.run state).result⟩⟩

theorem run_observe (body : Traced σ ω' ε α) (shown : ω' → List ω)
    (state : σ) :
    (observe body shown).run state =
      ⟨state, (body.run state).trace.flatMap shown,
        (body.run state).result⟩ := rfl

theorem run_observe_singleton (body : Traced σ ω' ε α) (wrap : ω' → ω)
    (state : σ) :
    (observe body fun event => [wrap event]).run state =
      ⟨state, (body.run state).trace.map wrap, (body.run state).result⟩ := by
  rw [run_observe, List.map_eq_flatMap]

theorem run_mapError (convert : ε → ε') (body : Effectful σ ω ε α)
    (state : σ) :
    (body.mapError convert).run state =
      ⟨(body.run state).state, (body.run state).events,
        (body.run state).result.mapError convert⟩ := rfl

theorem run_attempt (body : Effectful σ ω ε α) (state : σ) :
    (body.attempt : Effectful σ ω ε' (Except ε α)).run state =
      ⟨(body.run state).state, (body.run state).events,
        .ok (body.run state).result⟩ := rfl

theorem ext_run {left right : Effectful σ ω ε α}
    (same : ∀ state, left.run state = right.run state) : left = right := by
  obtain ⟨leftRun⟩ := left
  obtain ⟨rightRun⟩ := right
  exact congrArg Effectful.mk (funext same)

@[simp] theorem run_pure (value : α) (state : σ) :
    (Pure.pure value : Effectful σ ω ε α).run state =
      ⟨state, [], .ok value⟩ := rfl

theorem run_bind (first : Effectful σ ω ε α)
    (next : α → Effectful σ ω ε β) (state : σ) :
    (first >>= next).run state =
      match (first.run state).result with
      | .error error =>
          ⟨(first.run state).state, (first.run state).events, .error error⟩
      | .ok value =>
          let right := (next value).run (first.run state).state
          ⟨right.state, (first.run state).events ++ right.events,
            right.result⟩ := rfl

theorem run_bind_of_ok {first : Effectful σ ω ε α}
    {next : α → Effectful σ ω ε β} {state : σ} {value : α}
    (success : (first.run state).result = .ok value) :
    (first >>= next).run state =
      let right := (next value).run (first.run state).state
      ⟨right.state, (first.run state).events ++ right.events,
        right.result⟩ := by
  rw [run_bind, success]

theorem run_bind_of_error {first : Effectful σ ω ε α}
    {next : α → Effectful σ ω ε β} {state : σ} {error : ε}
    (failure : (first.run state).result = .error error) :
    (first >>= next).run state =
      ⟨(first.run state).state, (first.run state).events,
        .error error⟩ := by
  rw [run_bind, failure]

/-- What the first part emits is emitted first. -/
theorem exists_events_bind (first : Effectful σ ω ε α)
    (next : α → Effectful σ ω ε β) (state : σ) :
    ∃ later, ((first >>= next).run state).events =
      (first.run state).events ++ later := by
  cases left : (first.run state).result with
  | error error =>
      rw [run_bind_of_error left]
      exact ⟨[], (List.append_nil _).symm⟩
  | ok value =>
      rw [run_bind_of_ok left]
      exact ⟨_, rfl⟩

theorem bind_assoc {γ : Type} (first : Effectful σ ω ε α)
    (second : α → Effectful σ ω ε β) (third : β → Effectful σ ω ε γ) :
    first >>= second >>= third =
      first >>= fun value => second value >>= third := by
  apply ext_run
  intro state
  cases left : (first.run state).result with
  | error error =>
      rw [run_bind_of_error left]
      have stopped : ((first >>= second).run state).result =
          .error error := by
        rw [run_bind_of_error left]
      rw [run_bind_of_error stopped, run_bind_of_error left]
  | ok value =>
      rw [run_bind_of_ok left, run_bind, run_bind_of_ok left, run_bind]
      dsimp only
      cases ((second value).run (first.run state).state).result with
      | error error => rfl
      | ok value' => simp only [List.append_assoc]

theorem pure_bind (value : α) (next : α → Effectful σ ω ε β) :
    (Pure.pure value : Effectful σ ω ε α) >>= next = next value :=
  ext_run fun _ => rfl

theorem bind_pure (body : Effectful σ ω ε α) :
    (body >>= fun value => Pure.pure value) = body := by
  apply ext_run
  intro state
  cases ended : (body.run state).result with
  | error error => rw [run_bind_of_error ended, ← ended]
  | ok value =>
      rw [run_bind_of_ok ended]
      simp only [run_pure, List.append_nil, ← ended]

/-- Looking at the state leaves nothing behind. -/
theorem run_ask_bind (view : σ → α) (next : α → Effectful σ ω ε β)
    (state : σ) :
    ((ask view : Effectful σ ω ε α) >>= next).run state =
      (next (view state)).run state := rfl

theorem run_emit_bind (event : ω) (next : Unit → Effectful σ ω ε β)
    (state : σ) :
    ((emit event : Effectful σ ω ε Unit) >>= next).run state =
      Ended.after [event] ((next ()).run state) := rfl

theorem bind_congr {first : Effectful σ ω ε α}
    {next next' : α → Effectful σ ω ε β}
    (same : ∀ value, next value = next' value) :
    first >>= next = first >>= next' :=
  congrArg (Bind.bind first) (funext same)

/-- A handler that rethrows is a conversion of the error. -/
theorem attempt_bind {body : Effectful σ ω ε α}
    {next : Except ε α → Effectful σ ω ε' β} (convert : ε → ε')
    (rethrown : ∀ error, next (.error error) = throw (convert error)) :
    (body.attempt : Effectful σ ω ε' (Except ε α)) >>= next =
      body.mapError convert >>= fun value => next (.ok value) := by
  apply ext_run
  intro state
  cases ended : (body.run state).result with
  | error error =>
      have converted : ((body.mapError convert).run state).result =
          .error (convert error) := by
        rw [run_mapError, ended]
        rfl
      have handed : ((body.attempt : Effectful σ ω ε' (Except ε α)).run
          state).result = .ok (.error error) := by
        rw [run_attempt, ended]
      rw [run_bind_of_ok handed, run_bind_of_error converted, rethrown]
      simp only [throw, List.append_nil]
      rfl
  | ok value =>
      have converted : ((body.mapError convert).run state).result =
          .ok value := by
        rw [run_mapError, ended]
        rfl
      have handed : ((body.attempt : Effectful σ ω ε' (Except ε α)).run
          state).result = .ok (.ok value) := by
        rw [run_attempt, ended]
      rw [run_bind_of_ok handed, run_bind_of_ok converted]
      rfl

/-! ## Erasing events -/

/-- Keep the events the view shows. -/
def erase (view : ω → Option ω') (body : Effectful σ ω ε α) :
    Effectful σ ω' ε α :=
  ⟨fun state =>
    ⟨(body.run state).state, (body.run state).events.filterMap view,
      (body.run state).result⟩⟩

theorem run_erase (view : ω → Option ω') (body : Effectful σ ω ε α)
    (state : σ) :
    (erase view body).run state =
      ⟨(body.run state).state, (body.run state).events.filterMap view,
        (body.run state).result⟩ := rfl

section Erase

variable (view : ω → Option ω')

theorem erase_bind (first : Effectful σ ω ε α)
    (next : α → Effectful σ ω ε β) :
    erase view (first >>= next) =
      erase view first >>= fun value => erase view (next value) := by
  apply ext_run
  intro state
  cases left : (first.run state).result with
  | error error =>
      have erased : ((erase view first).run state).result = .error error :=
        left
      rw [run_bind_of_error erased, run_erase, run_bind_of_error left,
        run_erase]
  | ok value =>
      have erased : ((erase view first).run state).result = .ok value := left
      rw [run_bind_of_ok erased, run_erase, run_bind_of_ok left, run_erase]
      simp only [List.filterMap_append, run_erase]

theorem erase_emit_of_some {event : ω} {event' : ω'}
    (shown : view event = some event') :
    erase view (emit event : Effectful σ ω ε Unit) = emit event' := by
  apply ext_run
  intro state
  simp only [erase, emit, List.filterMap_cons, shown, List.filterMap_nil]

theorem erase_emit_of_none {event : ω} (hidden : view event = none) :
    erase view (emit event : Effectful σ ω ε Unit) = Pure.pure () := by
  apply ext_run
  intro state
  simp only [erase, emit, List.filterMap_cons, hidden, List.filterMap_nil]
  rfl

/-- Where each event is shown with exactly one visible event, the erased
trace is the original one. -/
theorem erase_observe {ω'' : Type} {shown : ω'' → List ω}
    {wrap : ω'' → ω'}
    (one : ∀ event, (shown event).filterMap view = [wrap event])
    (body : Traced σ ω'' ε α) :
    erase view (observe body shown) =
      observe body fun event => [wrap event] := by
  apply ext_run
  intro state
  simp only [erase, observe, List.filterMap_flatMap, one]

end Erase

/-! ## Reading computations -/

section Observe

variable (shown : ω' → List ω)

theorem observe_bind (first : Traced σ ω' ε α)
    (next : α → Traced σ ω' ε β) :
    observe (first >>= next) shown =
      observe first shown >>= fun value => observe (next value) shown := by
  apply ext_run
  intro state
  cases left : (first.run state).result with
  | error error =>
      have observed : ((observe first shown).run state).result =
          .error error := left
      rw [run_bind_of_error observed, run_observe,
        Traced.run_bind_of_error left, run_observe]
  | ok value =>
      have observed : ((observe first shown).run state).result =
          .ok value := left
      rw [run_bind_of_ok observed, run_observe, Traced.run_bind_of_ok left,
        run_observe]
      simp only [List.flatMap_append, run_observe]

theorem observe_mapError (convert : ε → ε') (body : Traced σ ω' ε α) :
    observe (body.mapError convert) shown =
      (observe body shown).mapError convert := rfl

theorem observe_attempt (body : Traced σ ω' ε α) :
    observe (body.attempt : Traced σ ω' ε' (Except ε α)) shown =
      (observe body shown).attempt := rfl

end Observe

/-! ## Events a run may emit -/

/-- Every event of every run satisfies `allowed`. -/
def Emits (allowed : ω → Prop) (body : Effectful σ ω ε α) : Prop :=
  ∀ state, ∀ event ∈ (body.run state).events, allowed event

section Emits

variable {allowed : ω → Prop}

theorem emits_pure (value : α) :
    (Pure.pure value : Effectful σ ω ε α).Emits allowed := by
  intro state event member
  cases member

theorem emits_throw (error : ε) :
    (throw error : Effectful σ ω ε α).Emits allowed := by
  intro state event member
  cases member

theorem emits_ask (look : σ → α) :
    (ask look : Effectful σ ω ε α).Emits allowed := by
  intro state event member
  cases member

/-- What is looked at is a view of some state. -/
theorem emits_ask_bind {look : σ → α} {next : α → Effectful σ ω ε β}
    (emits : ∀ state, (next (look state)).Emits allowed) :
    ((ask look : Effectful σ ω ε α) >>= next).Emits allowed := by
  intro state
  rw [run_ask_bind]
  exact emits state state

theorem emits_update (change : σ → σ × α) :
    (update change : Effectful σ ω ε α).Emits allowed := by
  intro state event member
  cases member

theorem emits_emit {event : ω} (holds : allowed event) :
    (emit event : Effectful σ ω ε Unit).Emits allowed := by
  intro state event' member
  rw [List.mem_singleton.mp member]
  exact holds

theorem emits_observe {shown : ω' → List ω}
    (holds : ∀ event, ∀ seen ∈ shown event, allowed seen)
    (body : Traced σ ω' ε α) : (observe body shown).Emits allowed := by
  intro state event member
  obtain ⟨source, _, seen⟩ := List.mem_flatMap.mp member
  exact holds source event seen

theorem Emits.bind {first : Effectful σ ω ε α}
    {next : α → Effectful σ ω ε β} (left : first.Emits allowed)
    (right : ∀ value, (next value).Emits allowed) :
    (first >>= next).Emits allowed := by
  intro state event member
  cases ended : (first.run state).result with
  | error error =>
      rw [run_bind_of_error ended] at member
      exact left state event member
  | ok value =>
      rw [run_bind_of_ok ended] at member
      rcases List.mem_append.mp member with early | late
      · exact left state event early
      · exact right value _ event late

theorem Emits.attempt {body : Effectful σ ω ε α}
    (emits : body.Emits allowed) :
    (body.attempt : Effectful σ ω ε' (Except ε α)).Emits allowed :=
  emits

end Emits

/-! ## What a run leaves behind -/

/-- A run that succeeds leaves events that satisfy `ok` with its value, and
one that fails leaves events that satisfy `err` with its error. -/
def Leaves (body : Effectful σ ω ε α) (ok : α → List ω → Prop)
    (err : ε → List ω → Prop) : Prop :=
  ∀ state,
    (∀ value, (body.run state).result = .ok value →
      ok value (body.run state).events) ∧
    ∀ error, (body.run state).result = .error error →
      err error (body.run state).events

section Leaves

variable {ok : α → List ω → Prop} {err : ε → List ω → Prop}

/-- The events of the first part are in front of those of the rest. -/
theorem Leaves.bind {first : Effectful σ ω ε α}
    {next : α → Effectful σ ω ε β} {ok' : β → List ω → Prop}
    {err' : ε → List ω → Prop} (left : first.Leaves ok err)
    (right : ∀ value earlier, ok value earlier →
      (next value).Leaves (fun value' later => ok' value' (earlier ++ later))
        fun error later => err' error (earlier ++ later))
    (stopped : ∀ error events, err error events → err' error events) :
    (first >>= next).Leaves ok' err' := by
  intro state
  cases ended : (first.run state).result with
  | error error =>
      rw [run_bind_of_error ended]
      constructor
      · intro value success
        cases success
      · intro error' failure
        cases failure
        exact stopped error _ ((left state).2 error ended)
  | ok value =>
      rw [run_bind_of_ok ended]
      exact right value _ ((left state).1 value ended) _

theorem Leaves.weaken {body : Effectful σ ω ε α}
    {ok' : α → List ω → Prop} {err' : ε → List ω → Prop}
    (leaves : body.Leaves ok err)
    (success : ∀ value events, ok value events → ok' value events)
    (failure : ∀ error events, err error events → err' error events) :
    body.Leaves ok' err' := by
  intro state
  obtain ⟨passed, failed⟩ := leaves state
  constructor
  · intro value ended
    exact success value _ (passed value ended)
  · intro error ended
    exact failure error _ (failed error ended)

/-- A computation that hands its result on does not fail. -/
theorem Emits.leaves_attempt {allowed : ω → Prop}
    {body : Effectful σ ω ε' α} {err : ε → List ω → Prop}
    (emits : body.Emits allowed) :
    (body.attempt : Effectful σ ω ε (Except ε' α)).Leaves
      (fun _ events => ∀ event ∈ events, allowed event) err := by
  intro state
  constructor
  · intro result _
    exact emits state
  · intro error failure
    cases failure

end Leaves

end Effectful
