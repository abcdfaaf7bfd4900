import ThreadEngine.Failure.Abort
import ThreadEngine.Lifecycle
set_option autoImplicit false

/-!
# Events

What the engine reports about its own work, in the order in which it happens.  An event holds the
facts; `message`, `level` and `fields` say how it is written.
-/

namespace ThreadEngine

/-- A thread, counted from zero in order of construction. -/
abbrev ThreadId := Nat

/-- The number under which a thread is shown. -/
def ThreadId.number (t : ThreadId) : Nat := t + 1

/-- A registry, counted from zero in order of creation. -/
abbrev RegistryId := Nat

/-- How grave an event is. -/
inductive Level where
  | trace
  | debug
  | error
  deriving DecidableEq, Repr, Inhabited

/-- The name of a level. -/
def Level.name : Level → String
  | .trace => "TRACE"
  | .debug => "DEBUG"
  | .error => "ERROR"

/-- Something that the engine reports. -/
inductive Event where
  | runMethod (thread : ThreadId) (method : String) (maxLocals maxStack : Nat)
  | copyingNull (slot : Nat)
  | copyingReference (slot : Nat) (tag : Tag)
  | copyingPrimitive (slot : Nat) (width : Width)
  | unreachableKind (kind : UnreachableKind) (slot : Nat)
  | invariantViolated (broken : Invariant)
  | bodyReturned (thread : ThreadId) (method : String) (result : Option Value)
  | bodyFailed (thread : ThreadId) (method : String) (cause : Error)
  | bodyAborted (thread : ThreadId)
  | recording (thread : ThreadId)
  | launched (thread : ThreadId) (kind : Kind)
  | recorded (registry : RegistryId) (thread : ThreadId) (appThreads : Nat)
  | died (registry : RegistryId) (thread : ThreadId) (wasRecorded : Bool) (appThreads : Nat)
  | stateChanged (registry : RegistryId) (thread : ThreadId) (source target : State)
  | registryInstalled
  | registryRemoved (appThreads : Nat)
  deriving DecidableEq, Repr, Inhabited

namespace Event

/-- The headline of an event. -/
def message : Event → String
  | runMethod .. => "run_method"
  | copyingNull .. => "copying null"
  | copyingReference .. => "copying reference"
  | copyingPrimitive _ .int => "copying int"
  | copyingPrimitive _ .float => "copying float"
  | copyingPrimitive _ .long => "copying long"
  | copyingPrimitive _ .double => "copying double"
  | unreachableKind .. => "unreachable value kind during argument marshalling"
  | invariantViolated .. => "internal invariant violated"
  | bodyReturned .. => "thread body returned"
  | bodyFailed .. => "thread body failed"
  | bodyAborted .. => "thread body panicked"
  | recording .. => "recording thread in thread table"
  | launched .. => "thread launched"
  | recorded .. => "thread recorded"
  | died .. => "thread died"
  | stateChanged .. => "state change"
  | registryInstalled => "thread registry initialized"
  | registryRemoved .. => "thread registry shut down"

/-- The level of an event. -/
def level : Event → Level
  | runMethod .. | copyingNull .. | copyingReference .. | copyingPrimitive ..
  | stateChanged .. => .trace
  | unreachableKind .. | invariantViolated .. | bodyFailed .. | bodyAborted .. => .error
  | bodyReturned .. | recording .. | launched .. | recorded .. | died ..
  | registryInstalled | registryRemoved .. => .debug

/-- The field that names a thread. -/
def threadField (t : ThreadId) : String × String := ("thread", toString t.number)

/-- The field that holds the number of live application threads. -/
def appThreadsField (n : Nat) : String × String := ("app_threads", toString n)

/-- The fields of an event, as text. -/
def fields : Event → List (String × String)
  | runMethod t method maxLocals maxStack =>
    [threadField t, ("method", method), ("max_locals", toString maxLocals),
      ("max_stack", toString maxStack)]
  | copyingNull slot => [("slot", toString slot)]
  | copyingReference slot tag => [("slot", toString slot), ("tag", tag.name)]
  | copyingPrimitive slot _ => [("slot", toString slot)]
  | unreachableKind kind slot => [("kind", kind.diagnostic), ("slot", toString slot)]
  | invariantViolated broken => [("invariant", broken.text)]
  | bodyReturned t method result =>
    [threadField t, ("method", method),
      ("result", diagnosticOption (result.map Value.diagnostic))]
  | bodyFailed t method cause =>
    [threadField t, ("method", method), ("error", cause.message)]
  | bodyAborted t => [threadField t]
  | recording t => [threadField t]
  | launched t kind => [threadField t, ("kind", kind.name)]
  | recorded _ t n => [threadField t, appThreadsField n]
  | died _ t wasRecorded n =>
    [threadField t, ("recorded", if wasRecorded then "true" else "false"), appThreadsField n]
  | stateChanged _ t source target =>
    [threadField t, ("from", source.name), ("to", target.name)]
  | registryInstalled => []
  | registryRemoved n => [appThreadsField n]

end Event

/-- The event that goes before an abort which the engine itself raises. -/
def Abort.event? : Abort → Option Event
  | .unreachableKind kind slot => some (.unreachableKind kind slot)
  | .invariant broken => some (.invariantViolated broken)
  | _ => none

end ThreadEngine
