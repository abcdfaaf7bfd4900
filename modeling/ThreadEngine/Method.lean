import ThreadEngine.Method.Descriptor
import ThreadEngine.Failure.Error
set_option autoImplicit false

/-!
# Methods

A method carries what is needed to build a frame for it and to copy arguments into that frame: its
name, its sizes, and the declared kind of every argument slot.  The kinds come from the
descriptor; a method that is not static has its receiver in slot 0.
-/

namespace ThreadEngine

/-- What a method is declared with, before its descriptor has been read. -/
structure MethodSpec where
  name : String
  descriptor : String
  isStatic : Bool
  isNative : Bool
  maxLocals : Nat
  maxStack : Nat
  deriving DecidableEq, Repr, Inhabited

/-- A method whose descriptor has been read. -/
structure Method where
  name : String
  descriptor : String
  isStatic : Bool
  isNative : Bool
  /-- size of the local-variable table -/
  maxLocals : Nat
  /-- bound of the operand stack -/
  maxStack : Nat
  /-- declared kind of each argument slot, receiver included -/
  argTypes : List ValueType
  returnType : ValueType
  deriving DecidableEq, Repr, Inhabited

/-- The declared kind of the argument at a slot, if any. -/
def Method.argType? (m : Method) (slot : Nat) : Option ValueType := m.argTypes[slot]?

namespace MethodSpec

/-- The slots that come before the parameters. -/
def receiver (s : MethodSpec) : List ValueType := if s.isStatic then [] else [.object]

/-- Reads the descriptor and builds the method. -/
def build (s : MethodSpec) : Except Error Method :=
  match Descriptor.parse s.descriptor.toList with
  | .ok sig =>
    .ok
      { name := s.name
        descriptor := s.descriptor
        isStatic := s.isStatic
        isNative := s.isNative
        maxLocals := s.maxLocals
        maxStack := s.maxStack
        argTypes := s.receiver ++ sig.params
        returnType := sig.result }
  | .error fault => .error (.invalidDescriptor s.descriptor fault.reason)

end MethodSpec

/-- A method as frames and threads refer to it: two methods may be declared alike and yet be
different, so a loaded method also has its place in the program. -/
structure MethodRef where
  method : Method
  /-- place in the loaded program; `none` for a method that belongs to none -/
  place : Option Nat
  deriving DecidableEq, Repr, Inhabited

/-- The name of the method referred to. -/
def MethodRef.name (m : MethodRef) : String := m.method.name

end ThreadEngine
