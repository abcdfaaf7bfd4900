import ThreadEngine.Call.Thread
set_option autoImplicit false

/-!
# Interpreters

An interpreter executes the innermost frame of a thread.  It is given by its private state `σ` for
one activation and by what it does in its next turn.  In a turn it may move the program counter, put
other content into the innermost frame and write notes; then it goes on, calls a method on the same
thread, starts the thread's body, asks for something that is shared with other threads, or ends the
activation with a result or an abort.  It has no other way to touch the thread, and in particular
none to push or pop a frame.  The body that it starts is that of the thread it runs: there is no
action that starts or calls another thread directly, and no interpreter here does so.

A nested call ends in a `Completion`; a question about shared things is a `Request`, which the
`World` serves with an `Answer`.
-/

namespace ThreadEngine

/-- What a method hands back: a value, nothing, or an error. -/
abbrev CallResult := Except Error (Option Value)

/-- How a nested call, or the start of a body, ended. -/
inductive Completion where
  /-- a call returned -/
  | returned (result : CallResult)
  /-- a body was started and has ended -/
  | ended
  /-- it was abandoned -/
  | aborted (a : Abort)

/-! ## Questions about what is shared -/

/-- A consistent view of a registry. -/
structure Tally where
  /-- live application threads -/
  appThreads : Nat
  /-- threads ever recorded -/
  total : Nat
  /-- every recorded thread that has not died, with its state, in order of registration -/
  states : List (ThreadId × State)
  deriving DecidableEq, Repr, Inhabited

/-- How far the launch of a thread has come. -/
inductive Launch where
  | launched (thread : ThreadId)
  | failed (e : Error)
  | pending
  /-- the thread is no longer there to be launched -/
  | gone
  /-- there is no such thread -/
  | noThread
  deriving DecidableEq, Repr, Inhabited

/-- What became of a request to let a parked thread go on. -/
inductive Unparking where
  | released
  | notParked
  | noThread
  deriving DecidableEq, Repr, Inhabited

/-- What became of a request to change a state. -/
inductive Transition where
  | changed
  | refused (e : Error)
  | noThread
  deriving DecidableEq, Repr, Inhabited

/-- Something that only the world can do. -/
inductive Request where
  /-- give up the join handle of a thread's execution context -/
  | detach (thread : ThreadId)
  /-- wait until a registry counts no live application thread -/
  | awaitApplications (registry : RegistryId)
  | stateOf (thread : ThreadId)
  /-- mark a thread as died and take it out of a registry -/
  | retire (registry : RegistryId) (thread : ThreadId)
  | transition (registry : RegistryId) (thread : ThreadId) (next : State)
  | tally (registry : RegistryId)
  /-- put a held thread in the place of the running one, which the interpreter gets back -/
  | replace (slot : ThreadId)
  /-- stop until somebody lets this context go on -/
  | park
  /-- have a held thread created -/
  | spawn (slot : ThreadId) (object : Value)
  /-- say how far a launch has come, once everybody else has come to rest -/
  | reportLaunch (thread : ThreadId)
  | unpark (thread : ThreadId)
  /-- go on after an unpark, once everybody else has come to rest -/
  | reportUnpark
  /-- append to the shared output -/
  | emit (value : Int32)
  deriving DecidableEq, Repr, Inhabited

/-- The world's answer to a request. -/
inductive Answer where
  | done
  | state (s : State)
  /-- the invariant that retiring would break, if any -/
  | retired (fault : Option Invariant)
  | transitioned (t : Transition)
  | tally (t : Tally)
  /-- the thread to go on with, if there was one -/
  | replaced (t : Option Thread)
  /-- this context cannot be parked -/
  | parkIgnored
  | launch (l : Launch)
  | unparked (u : Unparking)
  /-- there is no such thing -/
  | unknown
  deriving DecidableEq, Repr, Inhabited

/-! ## Notes -/

/-- What a body writes down about itself. -/
inductive Remark where
  | frame (frame : Option Frame) (pc depth : Nat)
  | step (name : String) (reply : FrameReply)
  | returned (value : Option Value) (pc depth : Nat)
  | caught (e : Error) (pc depth : Nat)
  | caughtAbort (a : Abort) (pc depth : Nat)
  | started (state : Option State)
  | startAborted (a : Abort) (state : Option State)
  | replaced (done : Bool)
  | parkIgnored
  | spawned (l : Launch)
  | unparked (u : Unparking)
  | transitioned (t : Transition) (state : Option State)
  | tally (t : Option Tally)
  deriving DecidableEq, Repr, Inhabited

/-- An entry of the journal. -/
inductive Note where
  | event (e : Event)
  /-- an abort at the point where it is raised -/
  | abort (a : Abort)
  | remark (r : Remark)
  deriving DecidableEq, Repr, Inhabited

/-- What is noted when an abort is raised: the engine's own aborts are reported first. -/
def Abort.notes (a : Abort) : List Note := a.event?.toList.map .event ++ [.abort a]

/-! ## Turns -/

/-- What an interpreter does at the end of a turn. -/
inductive Action (σ : Type) where
  | proceed (state : σ)
  /-- call a method on the same thread; `catches` says whether an abort of the call is caught -/
  | call (state : σ) (method : MethodRef) (args : List Value) (catches : Bool)
  /-- start the body of the thread -/
  | start (state : σ) (catches : Bool)
  | ask (state : σ) (request : Request)
  | finish (result : CallResult)
  | abort (a : Abort)

/-- A turn: what changes on the thread, what is noted, and what comes next. -/
structure Turn (σ : Type) where
  pc : Nat
  /-- new content of the innermost frame; `none` leaves it alone -/
  frame : Option Frame
  notes : List Note
  action : Action σ

/-- An interpreter, by the private state of its activations. -/
structure Interpreter (σ : Type) where
  /-- the state in which an activation begins -/
  enter : Thread → σ
  /-- the next turn -/
  act : σ → Thread → Turn σ
  /-- takes note of how a nested call ended -/
  resume : σ → Completion → σ
  /-- takes note of an answer -/
  receive : σ → Answer → σ

end ThreadEngine
