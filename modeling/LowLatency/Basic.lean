import Mathlib.Data.List.Basic
import Mathlib.Data.Nat.ModEq
set_option autoImplicit false

/-!
# Fail-fast checks (`macros.h`)

Every component of the library stops the process on a broken invariant: `ASSERT(cond, msg)`
prints `msg` and calls `exit(EXIT_FAILURE)` when `cond` is false, and `FATAL(msg)` does so
unconditionally.  Code that can reach one of them is modelled in `Except String`: `.error msg`
is the exit, carrying the message the source prints, and `.ok` is a normal return.

`LIKELY`/`UNLIKELY` are branch-prediction hints with no effect on the result, so the model
drops them.
-/

namespace LowLatency

/-- `ASSERT(cond, msg)`: exit with `msg` unless `cond` holds. -/
def ASSERT (cond : Bool) (msg : String) : Except String Unit :=
  if cond then .ok () else .error msg

/-- `FATAL(msg)`: exit with `msg`. -/
def FATAL {α : Type} (msg : String) : Except String α :=
  .error msg

@[simp] theorem ASSERT_true (msg : String) : ASSERT true msg = .ok () := rfl

@[simp] theorem ASSERT_false (msg : String) : ASSERT false msg = .error msg := rfl

@[simp] theorem ASSERT_eq_ok_iff (cond : Bool) (msg : String) :
    ASSERT cond msg = .ok () ↔ cond = true := by
  cases cond <;> simp

@[simp] theorem FATAL_ne_ok {α : Type} (msg : String) (a : α) : FATAL msg ≠ .ok a :=
  nofun

/-- A computation in `Except` returns `r` exactly when its first part returns some `a` and
the rest, run on `a`, returns `r`. -/
theorem bind_eq_ok_iff {ε α β : Type} (x : Except ε α) (f : α → Except ε β) (r : β) :
    x >>= f = .ok r ↔ ∃ a, x = .ok a ∧ f a = .ok r := by
  cases x <;> simp [bind, Except.bind]

/-- The same for a first part that returns nothing, as a check does. -/
theorem bind_unit_eq_ok_iff {ε β : Type} (x : Except ε Unit) (f : Unit → Except ε β) (r : β) :
    x >>= f = .ok r ↔ x = .ok () ∧ f () = .ok r := by
  cases x <;> simp [bind, Except.bind]

/-- A computation in `Except` exits with `e` exactly when its first part does, or its first
part returns some `a` and the rest, run on `a`, exits with `e`. -/
theorem bind_eq_error_iff {ε α β : Type} (x : Except ε α) (f : α → Except ε β) (e : ε) :
    x >>= f = .error e ↔ x = .error e ∨ ∃ a, x = .ok a ∧ f a = .error e := by
  cases x <;> simp [bind, Except.bind]

theorem ASSERT_eq_error_iff (cond : Bool) (msg e : String) :
    ASSERT cond msg = .error e ↔ cond = false ∧ e = msg := by
  cases cond <;> simp [ASSERT, eq_comm]

@[simp] theorem ok_bind {ε α β : Type} (a : α) (f : α → Except ε β) :
    (Except.ok a : Except ε α) >>= f = f a := rfl

@[simp] theorem error_bind {ε α β : Type} (e : ε) (f : α → Except ε β) :
    (Except.error e : Except ε α) >>= f = .error e := rfl

/-- The state a list of steps reaches from `s`, or `none` as soon as one of them is not
enabled: a concrete interleaving, evaluated. -/
def runSteps {σ β : Type} (step : σ → β → Option σ) (s : σ) : List β → Option σ
  | [] => some s
  | a :: as => (step s a).bind fun s' => runSteps step s' as

/-- Two offsets below `N` from the same base land on the same slot of a ring of `N` slots
only if they are equal. -/
theorem add_mod_cancel_of_lt {N r a b : Nat} (ha : a < N) (hb : b < N)
    (h : (r + a) % N = (r + b) % N) : a = b := by
  have h' : a ≡ b [MOD N] := Nat.ModEq.add_left_cancel' r h
  unfold Nat.ModEq at h'
  rwa [Nat.mod_eq_of_lt ha, Nat.mod_eq_of_lt hb] at h'

end LowLatency
