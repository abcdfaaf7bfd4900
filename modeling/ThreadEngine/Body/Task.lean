import ThreadEngine.Body.Interpreter
set_option autoImplicit false

/-!
# Tasks

A task is one execution context at work on a thread: the thread, the activations that wait for a
nested call, and what is going on right now.  Its steps are of two kinds.  `Task.advance` is local
to the task; a step that touches something shared shows up as `Task.request?`, and the task goes
on with `Task.answer`.

A thread body is guarded: however it ends, its thread is retired in the registry that it had when
the body was started.  An abort passes through the waiting activations, leaving their frames where
they are, until one of them catches it.
-/

namespace ThreadEngine

/-- What retires a thread at the end of its body, and the name of the method that the body runs. -/
structure Guard where
  thread : ThreadId
  registry : RegistryId
  kind : Kind
  method : String
  deriving DecidableEq, Repr, Inhabited

/-- Something that waits for a nested call to end. -/
inductive Layer (σ : Type) where
  /-- an activation that was entered at `depth` and has called something -/
  | activation (state : σ) (depth : Nat) (catches : Bool)
  /-- a thread body whose method is running -/
  | body (guard : Guard)

/-- What a task is doing. -/
inductive Mode (σ : Type) where
  /-- an interpreter has the thread -/
  | acting (state : σ) (depth : Nat)
  /-- an interpreter waits for an answer -/
  | asking (state : σ) (depth : Nat) (request : Request)
  /-- a body gives up its join handle before its checks -/
  | detaching (guard : Guard)
  /-- a body is over and waits for the application threads -/
  | awaiting (guard : Guard)
  /-- an abort has reached a guard, which looks whether its thread has died already -/
  | inspecting (guard : Guard) (a : Abort)
  /-- a guard retires its thread, possibly while an abort passes through -/
  | retiring (guard : Guard) (passing : Option Abort)
  /-- something has ended, and what waits for it goes on -/
  | delivering (c : Completion)
  /-- an abort is looking for somebody to catch it -/
  | unwinding (a : Abort)
  /-- the task is over -/
  | done (c : Completion)
  /-- a guard aborted while an abort was passing: the whole process is lost -/
  | lost

/-- An execution context at work on a thread. -/
structure Task (σ : Type) where
  thread : Thread
  /-- what waits, innermost first -/
  layers : List (Layer σ)
  mode : Mode σ

namespace Task

variable {σ : Type}

/-- The task after an abort was raised, with what is noted of it. -/
def raise (thread : Thread) (layers : List (Layer σ)) (a : Abort) : Task σ × List Note :=
  (⟨thread, layers, .unwinding a⟩, a.notes)

/-- Calls a method on a thread, for the innermost layer. -/
def call (I : Interpreter σ) (thread : Thread) (layers : List (Layer σ)) (m : MethodRef)
    (args : List Value) : Task σ × List Note :=
  let (events, entry) := thread.enter m args
  let notes := events.map Note.event
  match entry with
  | .refused e => (⟨thread, layers, .delivering (.returned (.error e))⟩, notes)
  | .aborted a =>
    let (task, more) := raise thread layers a
    (task, notes ++ more)
  | .entered thread' => (⟨thread', layers, .acting (I.enter thread') thread.depth⟩, notes)

/-- The guard of a thread's body. -/
def guardOf (thread : Thread) : Guard :=
  { thread := thread.id
    registry := thread.registry
    kind := thread.kind
    method := thread.method.name }

/-- Checks a body's preconditions and calls its method on the arguments, which are used up. -/
def runBody (I : Interpreter σ) (thread : Thread) (layers : List (Layer σ)) (g : Guard) :
    Task σ × List Note :=
  let guarded := Layer.body g :: layers
  if !thread.frames.isEmpty then raise thread guarded (.invariant .activeFrames)
  else if g.kind = .application ∧ thread.args.length ≠ 1 then
    raise thread guarded (.invariant .receiverArgument)
  else call I { thread with args := [] } guarded thread.method thread.args

/-- Starts the body of a thread: an application body gives up its join handle first. -/
def start (I : Interpreter σ) (thread : Thread) (layers : List (Layer σ)) : Task σ × List Note :=
  let g := guardOf thread
  match g.kind with
  | .application => (⟨thread, layers, .detaching g⟩, [])
  | .main => runBody I thread layers g

/-- A body's method has ended: the entry point waits for the application threads before its
thread is retired. -/
def endBody (g : Guard) : Mode σ :=
  match g.kind with
  | .application => .retiring g none
  | .main => .awaiting g

/-- One turn of the interpreter. -/
def turn (I : Interpreter σ) (task : Task σ) (s : σ) (depth : Nat) : Task σ × List Note :=
  let turn := I.act s task.thread
  let thread := task.thread.revise turn.pc turn.frame
  let (task', notes) : Task σ × List Note :=
    match turn.action with
    | .proceed s' => (⟨thread, task.layers, .acting s' depth⟩, [])
    | .call s' m args catches =>
      call I thread (.activation s' depth catches :: task.layers) m args
    | .start s' catches => start I thread (.activation s' depth catches :: task.layers)
    | .ask s' r => (⟨thread, task.layers, .asking s' depth r⟩, [])
    | .finish r =>
      match thread.leave depth with
      | some thread' => (⟨thread', task.layers, .delivering (.returned r)⟩, [])
      | none => raise thread task.layers (.invariant .unbalancedFrames)
    | .abort a => raise thread task.layers a
  (task', turn.notes ++ notes)

/-- Hands a completion to what waits for it. -/
def deliver (I : Interpreter σ) (task : Task σ) (c : Completion) : Task σ × List Note :=
  match task.layers with
  | [] => ({ task with mode := .done c }, [])
  | .activation s depth _ :: layers =>
    (⟨task.thread, layers, .acting (I.resume s c) depth⟩, [])
  | .body g :: layers =>
    (⟨task.thread, layers, endBody g⟩,
      match c with
      | .returned (.ok result) => [.event (.bodyReturned task.thread.id g.method result)]
      | .returned (.error e) => [.event (.bodyFailed task.thread.id g.method e)]
      | .ended | .aborted _ => [])

/-- Lets an abort pass the innermost layer. -/
def unwind (I : Interpreter σ) (task : Task σ) (a : Abort) : Task σ :=
  match task.layers with
  | [] => { task with mode := .done (.aborted a) }
  | .activation s depth catches :: layers =>
    if catches then ⟨task.thread, layers, .acting (I.resume s (.aborted a)) depth⟩
    else ⟨task.thread, layers, .unwinding a⟩
  | .body g :: layers => ⟨task.thread, layers, .inspecting g a⟩

/-- A step that concerns only the task; `none` if the next step is not of this kind. -/
def advance (I : Interpreter σ) (task : Task σ) : Option (Task σ × List Note) :=
  match task.mode with
  | .acting s depth => some (task.turn I s depth)
  | .delivering c => some (task.deliver I c)
  | .unwinding a => some (task.unwind I a, [])
  | .asking .. | .detaching _ | .awaiting _ | .inspecting .. | .retiring .. | .done _ | .lost =>
    none

/-- What the task needs from the world before it can go on. -/
def request? (task : Task σ) : Option Request :=
  match task.mode with
  | .asking _ _ r => some r
  | .detaching g => some (.detach g.thread)
  | .awaiting _ => some (.awaitApplications task.thread.registry)
  | .inspecting g _ => some (.stateOf g.thread)
  | .retiring g _ => some (.retire g.registry g.thread)
  | .acting .. | .delivering _ | .unwinding _ | .done _ | .lost => none

/-- The thread to go on with after an answer. -/
def threadAfter (thread : Thread) : Answer → Thread
  | .replaced (some t) => t
  | _ => thread

/-- A guard has retired its thread, or could not. -/
def retired (task : Task σ) (passing : Option Abort) : Answer → Task σ × List Note
  | .retired (some broken) =>
    match passing with
    | none => raise task.thread task.layers (.invariant broken)
    | some _ => ({ task with mode := .lost }, (Abort.invariant broken).notes)
  | _ =>
    match passing with
    | none => ({ task with mode := .delivering .ended }, [])
    | some a => ({ task with mode := .unwinding a }, [])

/-- Goes on with an answer. -/
def answer (I : Interpreter σ) (task : Task σ) (a : Answer) : Task σ × List Note :=
  match task.mode with
  | .asking s depth _ =>
    (⟨threadAfter task.thread a, task.layers, .acting (I.receive s a) depth⟩, [])
  | .detaching g => runBody I task.thread task.layers g
  | .awaiting g => ({ task with mode := .retiring g none }, [])
  | .inspecting g abort =>
    if a = .state .died then ({ task with mode := .unwinding abort }, [])
    else ({ task with mode := .retiring g (some abort) }, [.event (.bodyAborted g.thread)])
  | .retiring _ passing => task.retired passing a
  | .acting .. | .delivering _ | .unwinding _ | .done _ | .lost => (task, [])

/-- Asks for something else instead. -/
def reask (task : Task σ) (r : Request) : Task σ :=
  match task.mode with
  | .asking s depth _ => { task with mode := .asking s depth r }
  | _ => task

/-- How a finished task ended. -/
def completion? (task : Task σ) : Option Completion :=
  match task.mode with
  | .done c => some c
  | _ => none

end Task

end ThreadEngine
