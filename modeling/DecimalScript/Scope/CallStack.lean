import DecimalScript.Failure.Cause

/-!
# The call stack

The names of the calls that are running. A call beyond the limit, if there is one, fails and leaves
the stack as it was.
-/

namespace DecimalScript

/-- The running calls, the innermost first, and how many there may be. -/
structure CallStack where
  names : List String
  limit : Option Nat
  deriving Repr, DecidableEq

namespace CallStack

/-- No call is running. -/
def ofLimit (limit : Option Nat) : CallStack :=
  { names := [], limit }

/-- How many calls are running. -/
def depth (calls : CallStack) : Nat := calls.names.length

/-- The innermost call. -/
def current? (calls : CallStack) : Option String := calls.names.head?

/-- Whether one more call would exceed the limit; the limit if so. -/
def exceeded? (calls : CallStack) : Option Nat :=
  calls.limit.filter (· ≤ calls.depth)

/-- Adds a call. -/
def push (calls : CallStack) (name : String) : Except Cause CallStack :=
  match calls.exceeded? with
  | some limit => .error (.callsTooDeep limit)
  | none => .ok { calls with names := name :: calls.names }

/-- Removes the innermost call. -/
def pop (calls : CallStack) : CallStack :=
  { calls with names := calls.names.tail }

/-- Removes every call. -/
def clear (calls : CallStack) : CallStack :=
  { calls with names := [] }

/-! ### Pushing and popping -/

theorem push_eq_ok_iff {calls next : CallStack} {name : String} :
    calls.push name = .ok next ↔
      calls.exceeded? = none ∧ next = { calls with names := name :: calls.names } := by
  unfold push
  cases calls.exceeded? <;> simp [eq_comm]

/-- To pop what was pushed gives the stack back. -/
theorem pop_of_push {calls next : CallStack} {name : String} (h : calls.push name = .ok next) :
    next.pop = calls := by
  obtain ⟨-, rfl⟩ := push_eq_ok_iff.1 h
  rfl

end CallStack

end DecimalScript
