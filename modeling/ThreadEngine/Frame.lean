import ThreadEngine.Frame.Locals
import ThreadEngine.Frame.OperandStack
import ThreadEngine.Method
set_option autoImplicit false

/-!
# Frames

The activation record of one method call, and the bounded stack of them that a thread owns.
-/

namespace ThreadEngine

/-- Activation record of one call. -/
structure Frame where
  locals : Locals
  stack : OperandStack
  /-- the method that the frame executes -/
  method : Option MethodRef
  /-- where the caller goes on -/
  returnPc : Nat
  /-- whether the method is native -/
  native : Bool
  deriving DecidableEq, Repr, Inhabited

/-- A frame around a table and a stack, bound to nothing. -/
def Frame.unbound (locals : Locals) (stack : OperandStack) : Frame :=
  { locals := locals
    stack := stack
    method := none
    returnPc := 0
    native := false }

/-- A frame with the given capacities, bound to nothing. -/
def Frame.ofSizes (maxLocals maxStack : Nat) : Frame :=
  Frame.unbound (Locals.ofSize maxLocals) (OperandStack.empty maxStack)

/-- Lays out a frame with the given capacities, bound to nothing. -/
def Frame.allocate (maxLocals maxStack : Nat) : Except Abort Frame :=
  match Locals.allocate maxLocals, OperandStack.allocate maxStack with
  | .ok locals, .ok stack => .ok (Frame.unbound locals stack)
  | .error a, _ => .error a
  | .ok _, .error a => .error a

theorem Frame.allocate_eq (maxLocals maxStack : Nat) :
    Frame.allocate maxLocals maxStack =
      if maxLocals < Nat.pow 2 59 ∧ maxStack < Nat.pow 2 59 then
        .ok (Frame.ofSizes maxLocals maxStack)
      else .error .capacityOverflow := by
  simp only [Frame.allocate, Locals.allocate, OperandStack.allocate, Slot.isAddressable_iff,
    Frame.ofSizes]
  by_cases hl : maxLocals < Nat.pow 2 59 <;> by_cases hs : maxStack < Nat.pow 2 59 <;>
    simp only [hl, hs] <;> rfl

/-- A thread's call stack. -/
structure FrameStack where
  /-- the frames, innermost call first -/
  frames : List Frame
  /-- the most frames there may be -/
  maxDepth : Nat
  deriving DecidableEq, Repr, Inhabited

namespace FrameStack

/-- A stack without frames. -/
def empty (maxDepth : Nat) : FrameStack := ⟨[], maxDepth⟩

/-- The number of active frames. -/
def depth (s : FrameStack) : Nat := s.frames.length

/-- Whether no frame is active. -/
def isEmpty (s : FrameStack) : Bool := s.frames.isEmpty

/-- The innermost frame. -/
def current? (s : FrameStack) : Option Frame := s.frames.head?

/-- Adds a frame, unless the depth limit is reached. -/
def push (s : FrameStack) (f : Frame) : Except Error FrameStack :=
  if s.depth < s.maxDepth then .ok { s with frames := f :: s.frames }
  else .error (.stackOverflow s.maxDepth)

/-- Removes the innermost frame. -/
def pop? (s : FrameStack) : Option (Frame × FrameStack) :=
  match s.frames with
  | [] => none
  | f :: rest => some (f, { s with frames := rest })

/-- Puts another content into the innermost frame; without frames nothing happens. -/
def replaceTop (s : FrameStack) (f : Frame) : FrameStack :=
  match s.frames with
  | [] => s
  | _ :: rest => { s with frames := f :: rest }

@[simp] theorem depth_replaceTop (s : FrameStack) (f : Frame) :
    (s.replaceTop f).depth = s.depth := by
  obtain ⟨frames, _⟩ := s
  cases frames <;> rfl

@[simp] theorem maxDepth_replaceTop (s : FrameStack) (f : Frame) :
    (s.replaceTop f).maxDepth = s.maxDepth := by
  obtain ⟨frames, _⟩ := s
  cases frames <;> rfl

end FrameStack

end ThreadEngine
