import ThreadEngine.Number.Ieee
set_option autoImplicit false

/-!
# Boxed values

Every value that a call can receive or hand back.  Heap values are references, and a reference is
its allocation: two references are the same exactly when they name the same allocation, whatever
class or component they show.  Primitives are stored inline; the kinds narrower than a word
(booleans, bytes, characters, shorts) are boxed as ints.

Equality of the language (`Value.same`) is not equality of the representation: a NaN differs from
itself, and the two zeros are equal.
-/

namespace ThreadEngine

/-! ## Declared kinds -/

/-- Declared kind of a parameter or of a result. -/
inductive ValueType where
  | void
  | byte
  | boolean
  | char
  | short
  | int
  | float
  | long
  | double
  | object
  | array
  deriving DecidableEq, Repr, Inhabited

/-- The four widths in which a primitive is stored. -/
inductive Width where
  | int
  | float
  | long
  | double
  deriving DecidableEq, Repr, Inhabited

namespace ValueType

/-- The width in which a declared kind stores a primitive; references and `void` store none. -/
def width? : ValueType → Option Width
  | boolean | byte | char | short | int => some .int
  | float => some .float
  | long => some .long
  | double => some .double
  | void | object | array => none

/-- Whether values of this kind are primitives. -/
def isPrimitive : ValueType → Bool
  | void | object | array => false
  | _ => true

theorem isPrimitive_eq_isSome (t : ValueType) : t.isPrimitive = t.width?.isSome := by
  cases t <;> rfl

/-- The kind's name in diagnostics. -/
def name : ValueType → String
  | void => "Void"
  | byte => "Byte"
  | boolean => "Boolean"
  | char => "Char"
  | short => "Short"
  | int => "Int"
  | float => "Float"
  | long => "Long"
  | double => "Double"
  | object => "Object"
  | array => "Array"

end ValueType

/-- The declared kind that a width naturally belongs to. -/
def Width.natural : Width → ValueType
  | .int => .int
  | .float => .float
  | .long => .long
  | .double => .double

/-! ## Primitives -/

/-- A boxed primitive.  Floats and doubles are kept as their bit patterns. -/
inductive Primitive where
  | int (value : Int32)
  | float (bits : UInt32)
  | long (value : Int64)
  | double (bits : UInt64)
  deriving DecidableEq, Repr, Inhabited

namespace Primitive

/-- The width of a box. -/
def width : Primitive → Width
  | int _ => .int
  | float _ => .float
  | long _ => .long
  | double _ => .double

/-- The declared kind that a box naturally corresponds to. -/
def naturalType (p : Primitive) : ValueType := p.width.natural

/-- The content of an int box. -/
def asInt? : Primitive → Option Int32
  | int v => some v
  | _ => none

/-- The bits of a float box. -/
def asFloat? : Primitive → Option UInt32
  | float b => some b
  | _ => none

/-- The content of a long box. -/
def asLong? : Primitive → Option Int64
  | long v => some v
  | _ => none

/-- The bits of a double box. -/
def asDouble? : Primitive → Option UInt64
  | double b => some b
  | _ => none

end Primitive

/-- Numeric equality of two floats given by their bits. -/
def sameFloat (a b : UInt32) : Bool := Number.Ieee.binary32.sameNumber a.toNat b.toNat

/-- Numeric equality of two doubles given by their bits. -/
def sameDouble (a b : UInt64) : Bool := Number.Ieee.binary64.sameNumber a.toNat b.toNat

/-- Equality of boxed primitives in the language: same width and same number. -/
def Primitive.same : Primitive → Primitive → Bool
  | .int a, .int b => a == b
  | .float a, .float b => sameFloat a b
  | .long a, .long b => a == b
  | .double a, .double b => sameDouble a b
  | _, _ => false

/-! ## References -/

/-- Reference to an object instance. -/
structure ObjectRef where
  /-- the allocation, which alone decides identity -/
  allocation : Nat
  /-- internal name of the instance's class -/
  className : String
  deriving DecidableEq, Repr, Inhabited

/-- Reference to an array. -/
structure ArrayRef where
  /-- the allocation, which alone decides identity -/
  allocation : Nat
  /-- descriptor of the elements -/
  component : String
  /-- number of elements -/
  length : Nat
  deriving DecidableEq, Repr, Inhabited

/-- Two object references are the same when they name one allocation. -/
def ObjectRef.same (a b : ObjectRef) : Bool := a.allocation == b.allocation

/-- Two array references are the same when they name one allocation. -/
def ArrayRef.same (a b : ArrayRef) : Bool := a.allocation == b.allocation

/-- Whether an array has no elements. -/
def ArrayRef.isEmpty (a : ArrayRef) : Bool := a.length == 0

/-! ## Values -/

/-- Tag of a value, without its payload. -/
inductive Tag where
  | null
  | object
  | objectArray
  | typeArray
  | primitive
  | returnAddress
  deriving DecidableEq, Repr, Inhabited

/-- The tag's name in diagnostics. -/
def Tag.name : Tag → String
  | .null => "Null"
  | .object => "Instance"
  | .objectArray => "ObjectArray"
  | .typeArray => "TypeArray"
  | .primitive => "Primitive"
  | .returnAddress => "ReturnAddress"

/-- Any value that a call can pass or hand back. -/
inductive Value where
  /-- the null reference -/
  | null
  /-- an object -/
  | object (ref : ObjectRef)
  /-- an array of references -/
  | objectArray (ref : ArrayRef)
  /-- an array of primitives -/
  | typeArray (ref : ArrayRef)
  /-- a boxed primitive -/
  | primitive (value : Primitive)
  /-- a subroutine's return address; never a call argument -/
  | returnAddress (target : Nat)
  deriving DecidableEq, Repr, Inhabited

namespace Value

/-- A boxed int. -/
def int (v : Int32) : Value := .primitive (.int v)

/-- The tag of a value. -/
def tag : Value → Tag
  | null => .null
  | object _ => .object
  | objectArray _ => .objectArray
  | typeArray _ => .typeArray
  | primitive _ => .primitive
  | returnAddress _ => .returnAddress

/-- Whether a value is a reference, null included. -/
def isReference : Value → Bool
  | null | object _ | objectArray _ | typeArray _ => true
  | primitive _ | returnAddress _ => false

/-- Whether a value is the null reference. -/
def isNull : Value → Bool
  | null => true
  | _ => false

/-- Equality in the language: references by allocation, numbers by value. -/
def same : Value → Value → Bool
  | null, null => true
  | object a, object b => a.same b
  | objectArray a, objectArray b => a.same b
  | typeArray a, typeArray b => a.same b
  | primitive a, primitive b => a.same b
  | returnAddress a, returnAddress b => a == b
  | _, _ => false

end Value

end ThreadEngine
