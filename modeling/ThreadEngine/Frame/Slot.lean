import ThreadEngine.Value
set_option autoImplicit false

/-!
# Slots

One cell of a local-variable table or of an operand stack, with the width it was written in.
-/

namespace ThreadEngine

/-- A local-variable or operand-stack slot. -/
inductive Slot where
  /-- never written -/
  | empty
  | reference (value : Value)
  | int (value : Int32)
  | float (bits : UInt32)
  | long (value : Int64)
  | double (bits : UInt64)
  deriving DecidableEq, Repr, Inhabited

namespace Slot

/-- The bytes that a slot takes in memory. -/
def bytes : Nat := 16

/-- The most bytes that one table can take. -/
def maxTableBytes : Nat := Nat.pow 2 63 - 1

/-- Whether memory for a number of slots can be asked for at all. -/
def isAddressable (n : Nat) : Bool := n * bytes ≤ maxTableBytes

/-- The slot that holds a primitive in its own width. -/
def ofPrimitive : Primitive → Slot
  | .int v => int v
  | .float b => float b
  | .long v => long v
  | .double b => double b

/-- The content of a slot as a boxed value; an empty slot has none. -/
def value? : Slot → Option Value
  | empty => none
  | reference v => some v
  | int v => some (.primitive (.int v))
  | float b => some (.primitive (.float b))
  | long v => some (.primitive (.long v))
  | double b => some (.primitive (.double b))

/-- The content of a reference slot. -/
def asReference? : Slot → Option Value
  | reference v => some v
  | _ => none

/-- The content of an int slot. -/
def asInt? : Slot → Option Int32
  | int v => some v
  | _ => none

/-- The bits of a float slot. -/
def asFloat? : Slot → Option UInt32
  | float b => some b
  | _ => none

/-- The content of a long slot. -/
def asLong? : Slot → Option Int64
  | long v => some v
  | _ => none

/-- The bits of a double slot. -/
def asDouble? : Slot → Option UInt64
  | double b => some b
  | _ => none

/-- Equality in the language: same width, same content. -/
def same : Slot → Slot → Bool
  | empty, empty => true
  | reference a, reference b => a.same b
  | int a, int b => a == b
  | float a, float b => sameFloat a b
  | long a, long b => a == b
  | double a, double b => sameDouble a b
  | _, _ => false

/-- Equality of slot sequences: same length, and the same slot at every place. -/
def sameAll : List Slot → List Slot → Bool
  | [], [] => true
  | a :: as, b :: bs => a.same b && sameAll as bs
  | _, _ => false

theorem isAddressable_iff (n : Nat) : isAddressable n = true ↔ n < Nat.pow 2 59 := by
  rw [isAddressable, decide_eq_true_iff, bytes, maxTableBytes, Nat.pow_eq, Nat.pow_eq]
  omega

end Slot

end ThreadEngine
