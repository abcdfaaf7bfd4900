import ThreadEngine.Body.Interpreter
set_option autoImplicit false

/-!
# Registries

A registry keeps the threads that were recorded at launch until they die, and the number of
application threads that are still alive.  Whoever waits for that number to become zero stands in
`waiters`; the retirement that brings it to zero wakes all of them.
-/

namespace ThreadEngine

/-- An execution context: who is at work. -/
inductive Ctx where
  /-- the host that owns the threads which are not launched -/
  | host
  /-- the execution context of a launched thread -/
  | body (thread : ThreadId)
  /-- the helper that carries out the creation of a thread -/
  | creator (thread : ThreadId)
  deriving DecidableEq, Repr, Inhabited

/-- The threads that report to one place. -/
structure Registry where
  /-- recorded threads that have not died, in order of registration -/
  table : List ThreadId
  /-- live application threads -/
  appThreads : Nat
  /-- threads ever recorded -/
  total : Nat
  /-- who waits for `appThreads` to become zero -/
  waiters : List Ctx
  deriving DecidableEq, Repr, Inhabited

namespace Registry

/-- A registry without threads. -/
def empty : Registry := ⟨[], 0, 0, []⟩

/-- Records a thread and counts it. -/
def add (r : Registry) (t : ThreadId) : Registry :=
  { r with table := r.table ++ [t], appThreads := r.appThreads + 1, total := r.total + 1 }

/-- Lets a context wait for the application threads. -/
def enqueue (r : Registry) (c : Ctx) : Registry := { r with waiters := r.waiters ++ [c] }

/-- Takes a context out of the waiters. -/
def dequeue (r : Registry) (c : Ctx) : Registry := { r with waiters := r.waiters.filter (· != c) }

/-- Stops counting one thread, and wakes the waiters if it was the last. -/
def discount (r : Registry) : Registry :=
  { r with
    appThreads := r.appThreads - 1
    waiters := if r.appThreads - 1 = 0 then [] else r.waiters }

/-- Takes the first entry of a dead thread out of the table, with whether there was one.  `none`
stands for a count that would go below zero; the entry is gone then as well. -/
def remove (r : Registry) (t : ThreadId) : Registry × Option Bool :=
  if t ∈ r.table then
    let erased := { r with table := r.table.erase t }
    if r.appThreads = 0 then (erased, none) else (erased.discount, some true)
  else (r, some false)

end Registry

end ThreadEngine
