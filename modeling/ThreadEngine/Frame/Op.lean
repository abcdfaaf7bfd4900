import ThreadEngine.Frame
set_option autoImplicit false

/-!
# Operations on frames

The steps that a body or a caller can take on the innermost frame, and on a frame stack, with the
answer that each gives.  A step that fails leaves everything as it was.
-/

namespace ThreadEngine

/-- A step on one frame. -/
inductive FrameOp where
  | setReference (index : Nat) (value : Value)
  | setInt (index : Nat) (value : Int32)
  | setFloat (index : Nat) (bits : UInt32)
  | setLong (index : Nat) (value : Int64)
  | setDouble (index : Nat) (bits : UInt64)
  | get (index : Nat)
  | getReference (index : Nat)
  | getInt (index : Nat)
  | getFloat (index : Nat)
  | getLong (index : Nat)
  | getDouble (index : Nat)
  | localsSize
  | localsAll
  | push (slot : Slot)
  | pop
  | stackSize
  | stackAll
  | setReturnPc (pc : Nat)
  | setNative (native : Bool)
  | setMethod (spec : MethodSpec)
  | whole
  deriving DecidableEq, Repr, Inhabited

/-- The answer to a step on a frame. -/
inductive FrameReply where
  | done
  | slot (s : Option Slot)
  | value (v : Option Value)
  | localsSize (size : Nat) (isEmpty : Bool)
  | stackSize (size : Nat) (isEmpty : Bool) (bound : Nat)
  /-- slots in ascending order, or from the bottom of the stack up -/
  | slots (ss : List Slot)
  | frame (f : Frame)
  | error (e : Error)
  | abort (a : Abort)
  /-- there is no frame to work on -/
  | noFrame
  deriving DecidableEq, Repr, Inhabited

namespace FrameOp

/-- The name of a step. -/
def name : FrameOp → String
  | setReference .. => "set_reference"
  | setInt .. => "set_int"
  | setFloat .. => "set_float"
  | setLong .. => "set_long"
  | setDouble .. => "set_double"
  | get .. => "get"
  | getReference .. => "get_reference"
  | getInt .. => "get_int"
  | getFloat .. => "get_float"
  | getLong .. => "get_long"
  | getDouble .. => "get_double"
  | localsSize => "locals_len"
  | localsAll => "locals"
  | push .. => "push"
  | pop => "pop"
  | stackSize => "stack_len"
  | stackAll => "stack"
  | setReturnPc .. => "set_return_pc"
  | setNative .. => "set_native"
  | setMethod .. => "set_method"
  | whole => "frame"

/-- The answer and the frame after a write to the locals. -/
def written (f : Frame) : Outcome Locals → FrameReply × Frame
  | .ok l => (.done, { f with locals := l })
  | .error e => (.error e, f)
  | .abort a => (.abort a, f)

/-- Takes a step on a frame. -/
def run (f : Frame) : FrameOp → FrameReply × Frame
  | setReference i v => written f (f.locals.setReference i v)
  | setInt i v => written f (.ofExcept (f.locals.set i (.int v)))
  | setFloat i b => written f (.ofExcept (f.locals.set i (.float b)))
  | setLong i v => written f (.ofExcept (f.locals.set i (.long v)))
  | setDouble i b => written f (.ofExcept (f.locals.set i (.double b)))
  | get i => (.slot (f.locals.get? i), f)
  | getReference i => (.value (f.locals.getReference? i), f)
  | getInt i => (.value ((f.locals.getInt? i).map (.primitive <| .int ·)), f)
  | getFloat i => (.value ((f.locals.getFloat? i).map (.primitive <| .float ·)), f)
  | getLong i => (.value ((f.locals.getLong? i).map (.primitive <| .long ·)), f)
  | getDouble i => (.value ((f.locals.getDouble? i).map (.primitive <| .double ·)), f)
  | localsSize => (.localsSize f.locals.size f.locals.isEmpty, f)
  | localsAll => (.slots f.locals.slots, f)
  | push s =>
    match f.stack.push s with
    | .ok stack => (.done, { f with stack := stack })
    | .error e => (.error e, f)
  | pop =>
    match f.stack.pop with
    | .ok (s, stack) => (.slot (some s), { f with stack := stack })
    | .error e => (.error e, f)
  | stackSize => (.stackSize f.stack.size f.stack.isEmpty f.stack.bound, f)
  | stackAll => (.slots f.stack.slots.reverse, f)
  | setReturnPc pc => (.done, { f with returnPc := pc })
  | setNative native => (.done, { f with native := native })
  | setMethod spec =>
    match spec.build with
    | .ok m => (.done, { f with method := some ⟨m, none⟩ })
    | .error e => (.error e, f)
  | whole => (.frame f, f)

/-- Takes a step on the innermost frame of a stack. -/
def runTop (s : FrameStack) (op : FrameOp) : FrameReply × FrameStack :=
  match s.current? with
  | none => (.noFrame, s)
  | some f => ((op.run f).1, s.replaceTop (op.run f).2)

/-- Takes steps one after the other. -/
def runAll (f : Frame) : List FrameOp → List FrameReply × Frame
  | [] => ([], f)
  | op :: ops =>
    let (reply, f') := op.run f
    let (replies, last) := runAll f' ops
    (reply :: replies, last)

end FrameOp

/-! ## Operations on frame stacks -/

/-- A step on a frame stack. -/
inductive StackOp where
  | pushFrame (maxLocals maxStack returnPc : Nat)
  | popFrame
  | current
  | depth
  | returnPcs
  /-- a step on the innermost frame -/
  | top (op : FrameOp)
  deriving DecidableEq, Repr, Inhabited

/-- The answer to a step on a frame stack. -/
inductive StackReply where
  | pushed (depth : Nat)
  | frame (f : Option Frame)
  | depth (depth : Nat) (isEmpty : Bool) (maxDepth : Nat)
  /-- from the outermost call in -/
  | returnPcs (pcs : List Nat)
  | error (e : Error)
  | top (reply : FrameReply)
  deriving DecidableEq, Repr, Inhabited

namespace StackOp

/-- Adds a frame to a stack. -/
def pushed (s : FrameStack) (f : Frame) : StackReply × FrameStack :=
  match s.push f with
  | .ok s' => (.pushed s'.depth, s')
  | .error e => (.error e, s)

/-- Takes the innermost frame from a stack. -/
def popped (s : FrameStack) : StackReply × FrameStack :=
  match s.pop? with
  | some (f, s') => (.frame (some f), s')
  | none => (.frame none, s)

/-- Takes a step on a frame stack.  A frame is laid out before it is known whether there is room
for it on the stack. -/
def run (s : FrameStack) : StackOp → Except Abort (StackReply × FrameStack)
  | pushFrame maxLocals maxStack returnPc =>
    (Frame.allocate maxLocals maxStack).map fun f => pushed s { f with returnPc := returnPc }
  | popFrame => .ok (popped s)
  | current => .ok (.frame s.current?, s)
  | depth => .ok (.depth s.depth s.isEmpty s.maxDepth, s)
  | returnPcs => .ok (.returnPcs (s.frames.reverse.map Frame.returnPc), s)
  | top op => .ok (.top (op.runTop s).1, (op.runTop s).2)

/-- Takes steps one after the other, until one of them aborts. -/
def runAll (s : FrameStack) : List StackOp → Except Abort (List StackReply × FrameStack)
  | [] => .ok ([], s)
  | op :: ops =>
    match op.run s with
    | .error a => .error a
    | .ok (reply, s') => (runAll s' ops).map fun (replies, last) => (reply :: replies, last)

end StackOp

end ThreadEngine
