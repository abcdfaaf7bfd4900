import ThreadEngine.Text.Quoted
set_option autoImplicit false

/-!
# Recoverable errors

Conditions that a caller outside the engine can bring about, each with the facts that its message
shows.  A broken invariant of the engine itself is not an error but an `Abort`.
-/

namespace ThreadEngine

/-- An error reported to the caller. -/
inductive Error where
  /-- more arguments than the method has local slots -/
  | tooManyArguments (method : String) (maxLocals given : Nat)
  /-- the frame stack is full -/
  | stackOverflow (limit : Nat)
  /-- a local index outside the frame's table -/
  | localIndexOutOfBounds (index maxLocals : Nat)
  /-- the operand stack is full -/
  | operandStackOverflow (maxStack : Nat)
  /-- the operand stack is empty -/
  | operandStackUnderflow
  /-- a change of state that the lifecycle forbids -/
  | illegalStateTransition (current requested : String)
  /-- the system refused an execution context -/
  | spawn (cause : String)
  /-- the execution context ended before its launch was complete -/
  | launchAborted (id : Nat)
  /-- the body of a joined thread aborted -/
  | threadAborted (id : Nat)
  /-- there is no process-wide registry -/
  | registryNotInitialized
  /-- there is a process-wide registry already -/
  | registryAlreadyInitialized
  /-- the configuration is fixed already -/
  | configAlreadyInstalled
  /-- a descriptor that cannot be read -/
  | invalidDescriptor (descriptor reason : String)
  /-- an application thread takes exactly its receiver -/
  | receiverArity (method : String) (given : Nat)
  deriving DecidableEq, Repr, Inhabited

namespace Error

/-- The name of the kind of error. -/
def name : Error → String
  | tooManyArguments .. => "TooManyArguments"
  | stackOverflow .. => "StackOverflow"
  | localIndexOutOfBounds .. => "LocalIndexOutOfBounds"
  | operandStackOverflow .. => "OperandStackOverflow"
  | operandStackUnderflow => "OperandStackUnderflow"
  | illegalStateTransition .. => "IllegalStateTransition"
  | spawn .. => "Spawn"
  | launchAborted .. => "LaunchAborted"
  | threadAborted .. => "ThreadPanicked"
  | registryNotInitialized => "RegistryNotInitialized"
  | registryAlreadyInitialized => "RegistryAlreadyInitialized"
  | configAlreadyInstalled => "ConfigAlreadyInstalled"
  | invalidDescriptor .. => "InvalidDescriptor"
  | receiverArity .. => "ReceiverArity"

/-- The message shown to the caller. -/
def message : Error → String
  | tooManyArguments method maxLocals given =>
    "method " ++ method ++ " takes at most " ++ toString maxLocals ++ " local slots, got "
      ++ toString given ++ " arguments"
  | stackOverflow limit =>
    "stack overflow: frame stack depth limit " ++ toString limit ++ " reached"
  | localIndexOutOfBounds index maxLocals =>
    "local variable index " ++ toString index ++ " out of bounds (max_locals = "
      ++ toString maxLocals ++ ")"
  | operandStackOverflow maxStack =>
    "operand stack overflow (max_stack = " ++ toString maxStack ++ ")"
  | operandStackUnderflow => "operand stack underflow"
  | illegalStateTransition current requested =>
    "illegal thread state transition " ++ current ++ " -> " ++ requested
  | spawn cause => "failed to spawn execution context: " ++ cause
  | launchAborted id =>
    "thread " ++ toString id ++ " exited before finishing its launch handshake"
  | threadAborted id => "thread " ++ toString id ++ " panicked"
  | registryNotInitialized => "thread registry is not initialized"
  | registryAlreadyInitialized => "thread registry is already initialized"
  | configAlreadyInstalled => "runtime configuration is already installed"
  | invalidDescriptor descriptor reason =>
    "invalid method descriptor " ++ Text.quoted descriptor ++ ": " ++ reason
  | receiverArity method given =>
    "entry method " ++ method ++ " must take exactly one receiver argument, got "
      ++ toString given

/-- The text of the condition underneath, where there is one. -/
def cause? : Error → Option String
  | spawn cause => some cause
  | _ => none

end Error

end ThreadEngine
