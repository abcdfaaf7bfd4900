import ThreadEngine.Value.Diagnostic
import ThreadEngine.Failure.Error
set_option autoImplicit false

/-!
# Aborts

An abort ends the call that raised it and every call around it, until something catches it.  The
engine raises one where its own invariants are broken or where an argument cannot be copied; an
interpreter raises its own.
-/

namespace ThreadEngine

/-- What could not be copied into a local slot. -/
inductive UnreachableKind where
  /-- an argument that is never passed -/
  | tag (tag : Tag)
  /-- a primitive for a slot that holds references, or for none -/
  | declared (declared : Option ValueType)
  /-- a primitive whose width disagrees with the declaration -/
  | mismatch (declared boxed : ValueType)
  deriving DecidableEq, Repr, Inhabited

/-- The diagnostic text of what could not be copied. -/
def UnreachableKind.diagnostic : UnreachableKind → String
  | .tag t => applied "Tag" t.name
  | .declared d => applied "Declared" (diagnosticOption (d.map ValueType.name))
  | .mismatch d b => "Mismatch \x7b declared: " ++ d.name ++ ", boxed: " ++ b.name ++ " \x7d"

/-- A broken invariant of the engine. -/
inductive Invariant where
  | unbalancedFrames
  | activeFrames
  | receiverArgument
  | retiredTwice
  | countBelowZero
  | boundTwice
  | other (what : String)
  deriving DecidableEq, Repr, Inhabited

/-- What is said of a broken invariant. -/
def Invariant.text : Invariant → String
  | .unbalancedFrames => "interpreter returned with an unbalanced frame stack"
  | .activeFrames => "thread body started with active frames"
  | .receiverArgument => "thread body needs exactly one receiver argument"
  | .retiredTwice => "thread retired twice"
  | .countBelowZero => "app thread count decremented below zero"
  | .boundTwice => "thread object bound twice"
  | .other what => what

/-- Why a call was abandoned. -/
inductive Abort where
  | unreachableKind (kind : UnreachableKind) (slot : Nat)
  | invariant (broken : Invariant)
  /-- a value that is no reference was to be stored as one -/
  | storedReference (tag : Tag)
  /-- raised on purpose by a body -/
  | raised (text : String)
  | subtractOverflow
  | multiplyOverflow
  /-- an instruction index past the end of the code -/
  | codeIndex (length index : Nat)
  /-- a method name that is not defined -/
  | unknownMethod
  /-- a local slot that does not hold an int -/
  | noIntLocal
  /-- a primitive result that is no int -/
  | noIntResult
  /-- a result that is no primitive -/
  | unexpectedResult (result : Option Value)
  | noActiveFrame
  | unboundFrame
  /-- a table of slots larger than memory can be laid out -/
  | capacityOverflow
  /-- a definition whose descriptor cannot be read -/
  | rejectedDefinition (descriptor reason : String)
  deriving DecidableEq, Repr, Inhabited

/-- The text of an abort. -/
def Abort.message : Abort → String
  | .unreachableKind kind slot =>
    "unreachable value kind " ++ kind.diagnostic ++ " at local slot " ++ toString slot
  | .invariant broken => "internal invariant violated: " ++ broken.text
  | .storedReference tag => "set_reference with " ++ tag.name
  | .raised text => text
  | .subtractOverflow => "attempt to subtract with overflow"
  | .multiplyOverflow => "attempt to multiply with overflow"
  | .codeIndex length index =>
    "index out of bounds: the len is " ++ toString length ++ " but the index is " ++ toString index
  | .unknownMethod => "no entry found for key"
  | .noIntLocal => "int local"
  | .noIntResult => "int result"
  | .unexpectedResult result =>
    "unexpected result " ++ diagnosticOption (result.map Value.diagnostic)
  | .noActiveFrame => "active frame"
  | .unboundFrame => "frame bound to a method"
  | .capacityOverflow => "capacity overflow"
  | .rejectedDefinition descriptor reason =>
    "called `Result::unwrap()` on an `Err` value: InvalidDescriptor \x7b descriptor: "
      ++ Text.quoted descriptor ++ ", reason: " ++ Text.quoted reason ++ " \x7d"

/-- How an operation ends. -/
inductive Outcome (α : Type) where
  | ok (value : α)
  | error (e : Error)
  | abort (a : Abort)
  deriving DecidableEq, Repr, Inhabited

/-- An operation that can only succeed or report an error. -/
def Outcome.ofExcept {α : Type} : Except Error α → Outcome α
  | .ok a => .ok a
  | .error e => .error e

end ThreadEngine
