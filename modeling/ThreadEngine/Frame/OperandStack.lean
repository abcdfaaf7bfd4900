import ThreadEngine.Frame.Slot
import ThreadEngine.Failure.Abort
set_option autoImplicit false

/-!
# Operand stacks

A stack of slots with a bound.  The slots are kept from the top down.
-/

namespace ThreadEngine

/-- A bounded operand stack. -/
structure OperandStack where
  /-- the slots, topmost first -/
  slots : List Slot
  /-- the most slots there may be -/
  bound : Nat
  deriving DecidableEq, Repr, Inhabited

namespace OperandStack

/-- An empty stack. -/
def empty (bound : Nat) : OperandStack := ⟨[], bound⟩

/-- Lays out an empty stack with room for all the slots that it may come to hold. -/
def allocate (bound : Nat) : Except Abort OperandStack :=
  if Slot.isAddressable bound then .ok (empty bound) else .error .capacityOverflow

/-- The number of slots. -/
def size (s : OperandStack) : Nat := s.slots.length

/-- Whether there are no slots. -/
def isEmpty (s : OperandStack) : Bool := s.slots.isEmpty

/-- Puts a slot on top. -/
def push (s : OperandStack) (x : Slot) : Except Error OperandStack :=
  if s.size < s.bound then .ok { s with slots := x :: s.slots }
  else .error (.operandStackOverflow s.bound)

/-- Takes the topmost slot. -/
def pop (s : OperandStack) : Except Error (Slot × OperandStack) :=
  match s.slots with
  | [] => .error .operandStackUnderflow
  | x :: rest => .ok (x, { s with slots := rest })

/-- Equality in the language: same bound and the same slots. -/
def same (a b : OperandStack) : Bool := a.bound == b.bound && Slot.sameAll a.slots b.slots

end OperandStack

end ThreadEngine
