import Mathlib.Control.Monad.Basic

/-!
# Traced computations over a fixed environment

A traced computation reads an environment which it never changes, appends
what it does to a trace, and returns a value or an error.  Such a
computation is deterministic, so its whole behaviour on an environment is
one outcome: the trace and the result.

Three rules are packaged for all of them.  `Emits` bounds what a computation
may put in its trace, `Reports` says that a faulty event is always turned
into the error of the run, and `Local` says that the run depends on the
environment only through the events of its own trace.
-/

/-- What one run leaves behind: the events in order, and how it ended. -/
structure Outcome (ω ε α : Type) where
  trace : List ω
  result : Except ε α
  deriving DecidableEq

/-- A deterministic computation over an environment `σ` with events `ω`. -/
structure Traced (σ ω ε α : Type) where
  run : σ → Outcome ω ε α

namespace Traced

variable {σ ω ε ε' α β : Type}

def pure (value : α) : Traced σ ω ε α :=
  ⟨fun _ => ⟨[], .ok value⟩⟩

/-- The first error ends the run; the trace up to it is kept. -/
def bind (first : Traced σ ω ε α) (next : α → Traced σ ω ε β) :
    Traced σ ω ε β :=
  ⟨fun env =>
    match (first.run env).result with
    | .error error => ⟨(first.run env).trace, .error error⟩
    | .ok value =>
        ⟨(first.run env).trace ++ ((next value).run env).trace,
          ((next value).run env).result⟩⟩

instance : Monad (Traced σ ω ε) where
  pure := Traced.pure
  bind := Traced.bind

def throw (error : ε) : Traced σ ω ε α :=
  ⟨fun _ => ⟨[], .error error⟩⟩

def emit (event : ω) : Traced σ ω ε Unit :=
  ⟨fun _ => ⟨[event], .ok ()⟩⟩

def ask (view : σ → α) : Traced σ ω ε α :=
  ⟨fun env => ⟨[], .ok (view env)⟩⟩

/-- Convert the error of a run, as `?` does in a function with another error
type. -/
def mapError (convert : ε → ε') (body : Traced σ ω ε α) :
    Traced σ ω ε' α :=
  ⟨fun env => ⟨(body.run env).trace, (body.run env).result.mapError convert⟩⟩

/-- Run a computation and hand its result on as a value, so that the caller
can match on success and failure. -/
def attempt (body : Traced σ ω ε α) : Traced σ ω ε' (Except ε α) :=
  ⟨fun env => ⟨(body.run env).trace, .ok (body.run env).result⟩⟩

/-! ## Runs of the combinators -/

@[simp] theorem run_pure (value : α) (env : σ) :
    (Pure.pure value : Traced σ ω ε α).run env = ⟨[], .ok value⟩ := rfl

@[simp] theorem run_throw (error : ε) (env : σ) :
    (throw error : Traced σ ω ε α).run env = ⟨[], .error error⟩ := rfl

@[simp] theorem run_emit (event : ω) (env : σ) :
    (emit event : Traced σ ω ε Unit).run env = ⟨[event], .ok ()⟩ := rfl

@[simp] theorem run_ask (view : σ → α) (env : σ) :
    (ask view : Traced σ ω ε α).run env = ⟨[], .ok (view env)⟩ := rfl

@[simp] theorem run_mapError (convert : ε → ε') (body : Traced σ ω ε α)
    (env : σ) :
    (body.mapError convert).run env =
      ⟨(body.run env).trace, (body.run env).result.mapError convert⟩ := rfl

@[simp] theorem run_attempt (body : Traced σ ω ε α) (env : σ) :
    (body.attempt : Traced σ ω ε' (Except ε α)).run env =
      ⟨(body.run env).trace, .ok (body.run env).result⟩ := rfl

theorem trace_mapError (convert : ε → ε') (body : Traced σ ω ε α)
    (env : σ) :
    ((body.mapError convert).run env).trace = (body.run env).trace := rfl

theorem run_bind (first : Traced σ ω ε α) (next : α → Traced σ ω ε β)
    (env : σ) :
    (first >>= next).run env =
      match (first.run env).result with
      | .error error => ⟨(first.run env).trace, .error error⟩
      | .ok value =>
          ⟨(first.run env).trace ++ ((next value).run env).trace,
            ((next value).run env).result⟩ := rfl

theorem run_bind_of_ok {first : Traced σ ω ε α}
    {next : α → Traced σ ω ε β} {env : σ} {value : α}
    (success : (first.run env).result = .ok value) :
    (first >>= next).run env =
      ⟨(first.run env).trace ++ ((next value).run env).trace,
        ((next value).run env).result⟩ := by
  rw [run_bind, success]

theorem run_bind_of_error {first : Traced σ ω ε α}
    {next : α → Traced σ ω ε β} {env : σ} {error : ε}
    (failure : (first.run env).result = .error error) :
    (first >>= next).run env = ⟨(first.run env).trace, .error error⟩ := by
  rw [run_bind, failure]

/-- A sequence succeeds exactly when both of its parts do. -/
theorem result_bind_eq_ok_iff {first : Traced σ ω ε α}
    {next : α → Traced σ ω ε β} {env : σ} {value : β} :
    ((first >>= next).run env).result = .ok value ↔
      ∃ middle, (first.run env).result = .ok middle ∧
        ((next middle).run env).result = .ok value := by
  cases firstResult : (first.run env).result with
  | error error => simp [run_bind_of_error firstResult]
  | ok middle => simp [run_bind_of_ok firstResult]

theorem mem_trace_bind_iff {first : Traced σ ω ε α}
    {next : α → Traced σ ω ε β} {env : σ} {event : ω} :
    event ∈ ((first >>= next).run env).trace ↔
      event ∈ (first.run env).trace ∨
        ∃ middle, (first.run env).result = .ok middle ∧
          event ∈ ((next middle).run env).trace := by
  cases firstResult : (first.run env).result with
  | error error => simp [run_bind_of_error firstResult]
  | ok middle => simp [run_bind_of_ok firstResult]

theorem mem_trace_bind_left {first : Traced σ ω ε α}
    {next : α → Traced σ ω ε β} {env : σ} {event : ω}
    (early : event ∈ (first.run env).trace) :
    event ∈ ((first >>= next).run env).trace :=
  mem_trace_bind_iff.mpr (.inl early)

theorem mem_trace_bind_right {first : Traced σ ω ε α}
    {next : α → Traced σ ω ε β} {env : σ} {event : ω} {middle : α}
    (success : (first.run env).result = .ok middle)
    (late : event ∈ ((next middle).run env).trace) :
    event ∈ ((first >>= next).run env).trace :=
  mem_trace_bind_iff.mpr (.inr ⟨middle, success, late⟩)

theorem result_mapError_eq_ok_iff {convert : ε → ε'}
    {body : Traced σ ω ε α} {env : σ} {value : α} :
    ((body.mapError convert).run env).result = .ok value ↔
      (body.run env).result = .ok value := by
  cases bodyResult : (body.run env).result <;>
    simp [Except.mapError, bodyResult]

/-! ## Events a run may emit -/

/-- Every event of the run satisfies `allowed`. -/
def Emits (allowed : ω → Prop) (body : Traced σ ω ε α) (env : σ) : Prop :=
  ∀ event ∈ (body.run env).trace, allowed event

theorem emits_pure (allowed : ω → Prop) (value : α) (env : σ) :
    (Pure.pure value : Traced σ ω ε α).Emits allowed env := by
  intro event member
  cases member

theorem emits_throw (allowed : ω → Prop) (error : ε) (env : σ) :
    (throw error : Traced σ ω ε α).Emits allowed env := by
  intro event member
  cases member

theorem Emits.mapError {allowed : ω → Prop} {convert : ε → ε'}
    {body : Traced σ ω ε α} {env : σ} (bodyEmits : body.Emits allowed env) :
    (body.mapError convert).Emits allowed env :=
  bodyEmits

theorem Emits.bind {allowed : ω → Prop} {first : Traced σ ω ε α}
    {next : α → Traced σ ω ε β} {env : σ}
    (firstEmits : first.Emits allowed env)
    (nextEmits : ∀ middle, (first.run env).result = .ok middle →
      (next middle).Emits allowed env) :
    (first >>= next).Emits allowed env := by
  intro event member
  rcases mem_trace_bind_iff.mp member with early | ⟨middle, success, late⟩
  · exact firstEmits event early
  · exact nextEmits middle success event late

/-! ## Errors a run may end with -/

/-- Every error of the computation satisfies `allowed`. -/
def Raises (allowed : ε → Prop) (body : Traced σ ω ε α) : Prop :=
  ∀ env error, (body.run env).result = .error error → allowed error

theorem raises_pure (allowed : ε → Prop) (value : α) :
    (Pure.pure value : Traced σ ω ε α).Raises allowed := by
  intro env error failure
  cases failure

theorem raises_throw {allowed : ε → Prop} {error : ε}
    (holds : allowed error) :
    (throw error : Traced σ ω ε α).Raises allowed := by
  intro env raised failure
  cases failure
  exact holds

theorem Raises.bind {allowed : ε → Prop} {first : Traced σ ω ε α}
    {next : α → Traced σ ω ε β} (firstRaises : first.Raises allowed)
    (nextRaises : ∀ middle, (next middle).Raises allowed) :
    (first >>= next).Raises allowed := by
  intro env error failure
  cases firstResult : (first.run env).result with
  | error raised =>
      rw [run_bind_of_error firstResult] at failure
      cases failure
      exact firstRaises env error firstResult
  | ok middle =>
      rw [run_bind_of_ok firstResult] at failure
      exact nextRaises middle env error failure

theorem Raises.mapError {allowed : ε → Prop} {allowed' : ε' → Prop}
    {convert : ε → ε'} {body : Traced σ ω ε α}
    (bodyRaises : body.Raises allowed)
    (carried : ∀ error, allowed error → allowed' (convert error)) :
    (body.mapError convert).Raises allowed' := by
  intro env error failure
  cases bodyResult : (body.run env).result with
  | error raised =>
      simp only [run_mapError, bodyResult, Except.mapError,
        Except.error.injEq] at failure
      subst failure
      exact carried raised (bodyRaises env raised bodyResult)
  | ok value =>
      simp [bodyResult, Except.mapError] at failure

/-! ## Faulty events end the run -/

/-- A fault of the environment at an event of the run is the error the run
ends with. -/
def Reports (fault : σ → ω → Option ε) (body : Traced σ ω ε α) : Prop :=
  ∀ env, ∀ event ∈ (body.run env).trace, ∀ error,
    fault env event = some error → (body.run env).result = .error error

theorem reports_pure (fault : σ → ω → Option ε) (value : α) :
    (Pure.pure value : Traced σ ω ε α).Reports fault := by
  intro env event member
  simp at member

theorem reports_throw (fault : σ → ω → Option ε) (error : ε) :
    (throw error : Traced σ ω ε α).Reports fault := by
  intro env event member
  simp at member

theorem Reports.bind {fault : σ → ω → Option ε} {first : Traced σ ω ε α}
    {next : α → Traced σ ω ε β} (firstReports : first.Reports fault)
    (nextReports : ∀ middle, (next middle).Reports fault) :
    (first >>= next).Reports fault := by
  intro env event member error faulty
  rcases mem_trace_bind_iff.mp member with early | ⟨middle, success, late⟩
  · have failure := firstReports env event early error faulty
    rw [run_bind_of_error failure]
  · rw [run_bind_of_ok success]
    exact nextReports middle env event late error faulty

theorem Reports.mapError {fault : σ → ω → Option ε} {convert : ε → ε'}
    {body : Traced σ ω ε α} (bodyReports : body.Reports fault) :
    (body.mapError convert).Reports
      (fun env event => (fault env event).map convert) := by
  intro env event member error faulty
  obtain ⟨original, originalFault, rfl⟩ := Option.map_eq_some_iff.mp faulty
  have failure := bodyReports env event member original originalFault
  simp [failure, Except.mapError]

/-! ## Dependence on the environment -/

/-- The run depends on the environment only through its own events: where
two environments are the same at each of them, both runs coincide. -/
def Local (same : σ → σ → ω → Prop) (body : Traced σ ω ε α) : Prop :=
  ∀ env env', (∀ event ∈ (body.run env).trace, same env env' event) →
    body.run env' = body.run env

theorem local_pure (same : σ → σ → ω → Prop) (value : α) :
    (Pure.pure value : Traced σ ω ε α).Local same :=
  fun _ _ _ => rfl

theorem local_throw (same : σ → σ → ω → Prop) (error : ε) :
    (throw error : Traced σ ω ε α).Local same :=
  fun _ _ _ => rfl

theorem local_emit (same : σ → σ → ω → Prop) (event : ω) :
    (emit event : Traced σ ω ε Unit).Local same :=
  fun _ _ _ => rfl

theorem Local.bind {same : σ → σ → ω → Prop} {first : Traced σ ω ε α}
    {next : α → Traced σ ω ε β} (firstLocal : first.Local same)
    (nextLocal : ∀ middle, (next middle).Local same) :
    (first >>= next).Local same := by
  intro env env' agree
  have firstAgree : first.run env' = first.run env := by
    apply firstLocal
    intro event member
    exact agree event (mem_trace_bind_iff.mpr (.inl member))
  cases firstResult : (first.run env).result with
  | error error =>
      have firstResult' : (first.run env').result = .error error := by
        rw [firstAgree, firstResult]
      rw [run_bind_of_error firstResult, run_bind_of_error firstResult',
        firstAgree]
  | ok middle =>
      have firstResult' : (first.run env').result = .ok middle := by
        rw [firstAgree, firstResult]
      have nextAgree : (next middle).run env' = (next middle).run env := by
        apply nextLocal
        intro event member
        exact agree event
          (mem_trace_bind_iff.mpr (.inr ⟨middle, firstResult, member⟩))
      rw [run_bind_of_ok firstResult, run_bind_of_ok firstResult',
        firstAgree, nextAgree]

theorem Local.mapError {same : σ → σ → ω → Prop} {convert : ε → ε'}
    {body : Traced σ ω ε α} (bodyLocal : body.Local same) :
    (body.mapError convert).Local same := by
  intro env env' agree
  have bodyAgree := bodyLocal env env' agree
  simp [bodyAgree]

theorem Local.attempt {same : σ → σ → ω → Prop}
    {body : Traced σ ω ε α} (bodyLocal : body.Local same) :
    (body.attempt : Traced σ ω ε' (Except ε α)).Local same := by
  intro env env' agree
  have bodyAgree := bodyLocal env env' agree
  simp [bodyAgree]

end Traced
