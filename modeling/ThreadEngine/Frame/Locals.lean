import ThreadEngine.Frame.Slot
import ThreadEngine.Failure.Abort
set_option autoImplicit false

/-!
# Local-variable tables

A table of fixed size.  Writing past its end is an error and leaves it as it was; a typed reading
finds only what was written in the same width.
-/

namespace ThreadEngine

/-- A local-variable table. -/
structure Locals where
  slots : List Slot
  deriving DecidableEq, Repr, Inhabited

namespace Locals

/-- A table of empty slots. -/
def ofSize (n : Nat) : Locals := ⟨List.replicate n .empty⟩

/-- Lays out a table of empty slots. -/
def allocate (n : Nat) : Except Abort Locals :=
  if Slot.isAddressable n then .ok (ofSize n) else .error .capacityOverflow

/-- The number of slots. -/
def size (l : Locals) : Nat := l.slots.length

/-- Whether there are no slots. -/
def isEmpty (l : Locals) : Bool := l.slots.isEmpty

/-- Reads a slot. -/
def get? (l : Locals) (i : Nat) : Option Slot := l.slots[i]?

/-- Writes a slot. -/
def set (l : Locals) (i : Nat) (s : Slot) : Except Error Locals :=
  if i < l.size then .ok ⟨l.slots.set i s⟩
  else .error (.localIndexOutOfBounds i l.size)

/-- Stores a reference; any other value aborts, wherever it was to be stored. -/
def setReference (l : Locals) (i : Nat) (v : Value) : Outcome Locals :=
  if v.isReference then .ofExcept (l.set i (.reference v))
  else .abort (.storedReference v.tag)

/-- Reads a reference. -/
def getReference? (l : Locals) (i : Nat) : Option Value := (l.get? i).bind Slot.asReference?

/-- Reads an int. -/
def getInt? (l : Locals) (i : Nat) : Option Int32 := (l.get? i).bind Slot.asInt?

/-- Reads the bits of a float. -/
def getFloat? (l : Locals) (i : Nat) : Option UInt32 := (l.get? i).bind Slot.asFloat?

/-- Reads a long. -/
def getLong? (l : Locals) (i : Nat) : Option Int64 := (l.get? i).bind Slot.asLong?

/-- Reads the bits of a double. -/
def getDouble? (l : Locals) (i : Nat) : Option UInt64 := (l.get? i).bind Slot.asDouble?

/-- Equality of tables in the language. -/
def same (a b : Locals) : Bool := Slot.sameAll a.slots b.slots

@[simp] theorem size_ofSize (n : Nat) : (ofSize n).size = n := by simp [ofSize, size]

theorem get?_ofSize (n i : Nat) : (ofSize n).get? i = if i < n then some .empty else none := by
  simp [ofSize, get?, List.getElem?_replicate]

theorem size_of_set {l l' : Locals} {i : Nat} {s : Slot} (h : l.set i s = .ok l') :
    l'.size = l.size := by
  simp only [set] at h
  split at h
  · cases h; simp [size]
  · cases h

theorem get?_of_set {l l' : Locals} {i : Nat} {s : Slot} (h : l.set i s = .ok l') (j : Nat) :
    l'.get? j = if j = i then some s else l.get? j := by
  simp only [set] at h
  split at h
  · rename_i hi
    cases h
    by_cases hj : j = i
    · subst hj; simp_all [get?, size]
    · simp [get?, hj, List.getElem?_set_ne (Ne.symm hj)]
  · cases h

end Locals

end ThreadEngine
