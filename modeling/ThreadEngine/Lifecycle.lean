set_option autoImplicit false

/-!
# Lifecycle of a thread

The states a thread goes through, the kinds of thread body, and what becomes of the execution
context behind a thread.
-/

namespace ThreadEngine

/-- Lifecycle state of a thread. -/
inductive State where
  /-- executing or runnable, the first state -/
  | running
  /-- blocked on a monitor -/
  | blocked
  /-- waiting for a notification -/
  | waiting
  /-- in a timed sleep -/
  | sleeping
  /-- terminated -/
  | died
  deriving DecidableEq, Repr, Inhabited

namespace State

/-- Whether the thread has terminated. -/
def isTerminal : State → Bool
  | died => true
  | _ => false

/-- Whether a change to another state is legal.  Nothing leaves `died`. -/
def canTransitionTo (s next : State) : Bool := !s.isTerminal && s != next

/-- The name shown to callers. -/
def name : State → String
  | running => "RUNNING"
  | blocked => "BLOCKED"
  | waiting => "WAITING"
  | sleeping => "SLEEPING"
  | died => "DIED"

/-- The name in diagnostics. -/
def label : State → String
  | running => "Running"
  | blocked => "Blocked"
  | waiting => "Waiting"
  | sleeping => "Sleeping"
  | died => "Died"

@[simp] theorem isTerminal_iff (s : State) : s.isTerminal = true ↔ s = died := by
  cases s <;> simp [isTerminal]

theorem canTransitionTo_iff (s next : State) :
    s.canTransitionTo next = true ↔ s ≠ died ∧ s ≠ next := by
  cases s <;> simp [canTransitionTo, isTerminal]

end State

/-- Which body a thread runs. -/
inductive Kind where
  /-- an application thread: runs its method on one receiver -/
  | application
  /-- the program's entry point: joined by its creator, outlives the application threads -/
  | main
  deriving DecidableEq, Repr, Inhabited

namespace Kind

/-- Whether launching records threads of this kind in the registry. -/
def isRecorded : Kind → Bool
  | application => true
  | main => false

/-- The name of the kind. -/
def name : Kind → String
  | application => "Java"
  | main => "Main"

end Kind

/-- The execution context behind a thread. -/
inductive Context where
  /-- not launched yet -/
  | unlaunched
  /-- launched, and somebody may still join it -/
  | attached
  /-- nobody will join it -/
  | detached
  /-- taken by the creator that joins it -/
  | joined
  deriving DecidableEq, Repr, Inhabited

end ThreadEngine
