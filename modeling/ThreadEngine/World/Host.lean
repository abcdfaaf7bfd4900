import ThreadEngine.World.Step
set_option autoImplicit false

/-!
# The host

What the host does with the threads in its hands: it looks at them, changes them, works on one in
its own context, gives one up or has it created, and waits for application threads.  None of these
operations does anything if the host does not hold the thread.
-/

namespace ThreadEngine

namespace World

variable {σ : Type}

/-- Changes a thread in the host's hands. -/
def modifyHeld (w : World σ) (slot : ThreadId) (f : Thread → Thread) : World σ :=
  match w.held? slot with
  | none => w
  | some thread => w.putHeld slot (f thread)

/-- Moves the program counter of a held thread. -/
def setPc (w : World σ) (slot : ThreadId) (pc : Nat) : World σ :=
  w.modifyHeld slot ({ · with pc := pc })

/-- Takes a step on the innermost frame of a held thread. -/
def editFrame (w : World σ) (slot : ThreadId) (op : FrameOp) : World σ :=
  w.modifyHeld slot fun thread => { thread with frames := (op.runTop thread.frames).2 }

/-- Has a held thread created. -/
def createHeld (w : World σ) (slot : ThreadId) (object : Value) : World σ :=
  match w.held? slot with
  | none => w
  | some thread => w.create slot thread object

/-- Lets the host work on a thread that it takes out of its hands. -/
def engage (w : World σ) (slot : ThreadId) (work : Task σ × List Note) : World σ :=
  { (w.takeHeld slot).note .host work.2 with host := .running slot work.1 }

/-- Calls a method on a held thread, in the host's own context. -/
def hostCall (I : Interpreter σ) (w : World σ) (slot : ThreadId) (m : MethodRef)
    (args : List Value) : World σ :=
  match w.held? slot with
  | none => w
  | some thread => w.engage slot (Task.call I thread [] m args)

/-- Starts the body of a held thread, in the host's own context. -/
def hostStart (I : Interpreter σ) (w : World σ) (slot : ThreadId) : World σ :=
  match w.held? slot with
  | none => w
  | some thread => w.engage slot (Task.start I thread [])

/-- The thread that the host works on, with how that ended, if it has ended. -/
def engaged? (w : World σ) : Option (Thread × Option Completion) :=
  match w.host with
  | .running _ task => some (task.thread, task.completion?)
  | .idle | .waiting _ | .waited _ => none

/-- Puts the thread that the host works on back where it was taken from.  It may be another thread
by now. -/
def disengage (w : World σ) : World σ :=
  match w.host with
  | .running slot task => { w with host := .idle }.putHeld slot task.thread
  | .idle | .waiting _ | .waited _ => w

/-- Lets the host wait for the application threads of a registry. -/
def beginWait (w : World σ) (r : RegistryId) : World σ := { w with host := .waiting r }

/-- Whether the count was zero when the host's wait ended. -/
def waitResult? (w : World σ) : Option Bool :=
  match w.host with
  | .waited reached => some reached
  | .idle | .running .. | .waiting _ => none

/-- Ends the host's wait. -/
def endWait (w : World σ) : World σ := { w with host := .idle }

end World

end ThreadEngine
