import MiniBootloader.Library.Traced
import MiniBootloader.Library.Words

/-!
# Checked arithmetic in traced computations

A build with overflow checks ends a run at the first operation whose exact
result does not fit its type; a build without them goes on with a wrapped
value.  Where the checked computation agrees with the wrapping one, no
operation of the run overflows.
-/

/-- How a checked run may fail. -/
inductive Checked (ε : Type) where
  /-- The exact result of an operation does not fit. -/
  | overflow
  /-- The error of the computation itself. -/
  | error (error : ε)
  deriving DecidableEq

namespace Checked

variable {σ ω ε ε' α β : Type}

def map (convert : ε → ε') : Checked ε → Checked ε'
  | .overflow => .overflow
  | .error raised => .error (convert raised)

def add (first second : UInt32) : Traced σ ω (Checked ε) UInt32 :=
  if first.toNat + second.toNat < 2 ^ 32 then
    pure (first + second)
  else
    Traced.throw .overflow

def sub (first second : UInt32) : Traced σ ω (Checked ε) UInt32 :=
  if second.toNat ≤ first.toNat then
    pure (first - second)
  else
    Traced.throw .overflow

/-- A length that is cast to `i32` must not become negative. -/
def lengthAsI32 (len : Nat) : Traced σ ω (Checked ε) Unit :=
  if 0 ≤ Int32.ofNat len then
    pure ()
  else
    Traced.throw .overflow

/-- In this environment the checked computation does what the plain one
does. -/
def Agrees (env : σ) (checked : Traced σ ω (Checked ε) α)
    (plain : Traced σ ω ε α) : Prop :=
  checked.run env = (plain.mapError error).run env

section Agrees

variable {env : σ}

/-- What involves no arithmetic is taken over. -/
theorem agrees_mapError (plain : Traced σ ω ε α) :
    Agrees env (plain.mapError error) plain := rfl

theorem agrees_pure (value : α) :
    Agrees env (pure value : Traced σ ω (Checked ε) α) (pure value) := rfl

theorem agrees_throw (raised : ε) :
    Agrees env (Traced.throw (error raised) : Traced σ ω (Checked ε) α)
      (Traced.throw raised) := rfl

theorem agrees_emit (event : ω) :
    Agrees env (Traced.emit event : Traced σ ω (Checked ε) Unit)
      (Traced.emit event) := rfl

theorem Agrees.bind {checked : Traced σ ω (Checked ε) α}
    {plain : Traced σ ω ε α} {checkedNext : α → Traced σ ω (Checked ε) β}
    {next : α → Traced σ ω ε β} (first : Agrees env checked plain)
    (rest : ∀ middle, (plain.run env).result = .ok middle →
      Agrees env (checkedNext middle) (next middle)) :
    Agrees env (checked >>= checkedNext) (plain >>= next) := by
  unfold Agrees at first rest ⊢
  rw [Traced.run_bind, first]
  cases result : (plain.run env).result with
  | error raised =>
      simp only [Traced.run_mapError, result, Except.mapError,
        Traced.run_bind_of_error result]
  | ok middle =>
      have tail := rest middle result
      simp only [Traced.run_mapError, result, Except.mapError,
        Traced.run_bind_of_ok result, tail]

theorem Agrees.mapError {checked : Traced σ ω (Checked ε) α}
    {plain : Traced σ ω ε α} (convert : ε → ε')
    (agrees : Agrees env checked plain) :
    Agrees env (checked.mapError (map convert))
      (plain.mapError convert) := by
  unfold Agrees at agrees ⊢
  rw [Traced.run_mapError, agrees]
  cases result : (plain.run env).result with
  | error raised => simp [result, Except.mapError, map]
  | ok value => simp [result, Except.mapError]

theorem agrees_add {first second : UInt32}
    (fits : first.toNat + second.toNat < 2 ^ 32) :
    Agrees env (add first second : Traced σ ω (Checked ε) UInt32)
      (pure (first + second)) := by
  rw [add, if_pos fits]
  exact agrees_pure _

/-- What follows an addition that fits may use its exact value. -/
theorem Agrees.add_bind {first second : UInt32}
    {checkedNext : UInt32 → Traced σ ω (Checked ε) β}
    {plain : Traced σ ω ε β}
    (fits : first.toNat + second.toNat < 2 ^ 32)
    (rest : (first + second).toNat = first.toNat + second.toNat →
      Agrees env (checkedNext (first + second)) plain) :
    Agrees env (add first second >>= checkedNext) plain := by
  have sum : (first + second).toNat = first.toNat + second.toNat := by
    rw [UInt32.toNat_add, Nat.mod_eq_of_lt fits]
  rw [add, if_pos fits]
  exact rest sum

theorem Agrees.sub_bind {first second : UInt32}
    {checkedNext : UInt32 → Traced σ ω (Checked ε) β}
    {plain : Traced σ ω ε β} (fits : second.toNat ≤ first.toNat)
    (rest : Agrees env (checkedNext (first - second)) plain) :
    Agrees env (sub first second >>= checkedNext) plain := by
  rw [sub, if_pos fits]
  exact rest

theorem Agrees.length_bind {len : Nat}
    {checkedNext : Unit → Traced σ ω (Checked ε) β}
    {plain : Traced σ ω ε β} (fits : len < 2 ^ 31)
    (rest : Agrees env (checkedNext ()) plain) :
    Agrees env (lengthAsI32 len >>= checkedNext) plain := by
  have nonnegative : 0 ≤ Int32.ofNat len := by
    rw [Int32.le_iff_toInt_le, Int32.toInt_ofNat_of_lt fits]
    exact Int.natCast_nonneg len
  rw [lengthAsI32, if_pos nonnegative]
  exact rest

end Agrees

end Checked
