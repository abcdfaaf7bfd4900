import ThreadEngine.Call.Marshal
import ThreadEngine.Frame.Op
set_option autoImplicit false

/-!
# Threads

A thread as its owner holds it: a frame stack, a program counter, the target method with the
arguments that its body has not used yet, and the registry it reports to.  What others may observe
of it (its state, its execution context) is kept in the `World`.

A call has two ends.  `Thread.enter` builds the callee's frame and hands the thread over;
`Thread.leave` takes the frame away again and restores the caller's program counter.  Everything
between the two is the interpreter's.
-/

namespace ThreadEngine

/-- Which interpreter a thread was built with. -/
inductive Dialect where
  | script
  | intMachine
  deriving DecidableEq, Repr, Inhabited

/-- A thread as its owner holds it. -/
structure Thread where
  id : ThreadId
  kind : Kind
  /-- the registry that the thread reports to -/
  registry : RegistryId
  dialect : Dialect
  frames : FrameStack
  /-- the method that the body runs -/
  method : MethodRef
  /-- arguments that the body has not used yet -/
  args : List Value
  pc : Nat
  deriving DecidableEq, Repr, Inhabited

/-- How the entry phase of a call ends. -/
inductive Entry where
  /-- the call fails, and the thread is as it was -/
  | refused (e : Error)
  /-- the call aborts, and the thread is as it was -/
  | aborted (a : Abort)
  /-- the callee's frame is on top, and the interpreter takes over -/
  | entered (t : Thread)
  deriving DecidableEq, Repr, Inhabited

namespace Thread

/-- The number of active frames. -/
def depth (t : Thread) : Nat := t.frames.depth

/-- Moves the program counter and puts other content into the innermost frame. -/
def revise (t : Thread) (pc : Nat) (frame : Option Frame) : Thread :=
  { t with
    pc := pc
    frames := match frame with
      | none => t.frames
      | some f => t.frames.replaceTop f }

/-- The frame for a call: bound to the method, and resuming at the caller's program counter. -/
def calleeFrame (t : Thread) (m : MethodRef) (f : Frame) : Frame :=
  { f with
    method := some m
    returnPc := t.pc
    native := m.method.isNative }

/-- The entry phase of a call, with its events: too many arguments are refused first, then a frame
that cannot be laid out aborts, then an argument that cannot be copied, then a full frame stack is
refused. -/
def enter (t : Thread) (m : MethodRef) (args : List Value) : List Event × Entry :=
  let call := Event.runMethod t.id m.name m.method.maxLocals m.method.maxStack
  if m.method.maxLocals < args.length then
    ([call], .refused (.tooManyArguments m.name m.method.maxLocals args.length))
  else
    match Frame.allocate m.method.maxLocals m.method.maxStack with
    | .error a => ([call], .aborted a)
    | .ok blank =>
      let copied := m.method.marshal blank.locals args
      (call :: copied.events,
        match copied.outcome with
        | .abort a => .aborted a
        | .error e => .refused e
        | .ok () =>
          match t.frames.push (t.calleeFrame m { blank with locals := copied.locals }) with
          | .error e => .refused e
          | .ok frames => .entered { t with frames := frames, pc := 0 })

/-- The exit phase of a call entered at a given depth: takes the callee's frame away and resumes
where it says.  `none` if the frame stack is not exactly one deeper than at entry. -/
def leave (t : Thread) (depth : Nat) : Option Thread :=
  match t.frames.frames with
  | [] => none
  | callee :: rest =>
    if rest.length = depth then
      some { t with frames := { t.frames with frames := rest }, pc := callee.returnPc }
    else none

end Thread

end ThreadEngine
