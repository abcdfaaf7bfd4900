import ThreadEngine.Session.View
import ThreadEngine.World.Config
set_option autoImplicit false

/-!
# Commands

What a session can be asked to do, and what it replies.
-/

namespace ThreadEngine

/-- How a registry is referred to: by its place among those that the session has seen, or as the
process-wide one. -/
inductive RegistryName where
  | seen (index : Nat)
  | global
  deriving DecidableEq, Repr, Inhabited

/-- What threads are built from: a registry of the session and a depth limit, or the process-wide
registry and configuration. -/
structure EnvSpec where
  registry : RegistryName
  maxDepth : Nat
  dialect : Dialect
  deriving DecidableEq, Repr, Inhabited

/-- What a session can be asked to do. -/
inductive Command where
  /-- build an application thread from its receiver -/
  | application (env method : Nat) (receiver : Value)
  /-- build an application thread from an argument list -/
  | applicationArgs (env method : Nat) (args : List Value)
  /-- build an entry-point thread -/
  | main (env method : Nat) (args : List Value)
  | info (thread : ThreadId)
  | setPc (thread : ThreadId) (pc : Nat)
  /-- call a method on the host's own context -/
  | run (thread : ThreadId) (method : Nat) (args : List Value)
  /-- start a body on the host's own context -/
  | start (thread : ThreadId)
  | frames (thread : ThreadId)
  | frameOp (thread : ThreadId) (op : FrameOp)
  | describe (thread : ThreadId)
  | describeHandle (thread : ThreadId)
  | describeEnv (env : Nat)
  | drop (thread : ThreadId)
  | create (thread : ThreadId) (object : Value)
  | join (thread : ThreadId)
  | unpark (thread : ThreadId)
  /-- let threads go on and wait, for a limited time, for the application threads -/
  | unparkAndWait (registry : RegistryName) (threads : List ThreadId)
  | add (registry : RegistryName) (thread : ThreadId)
  | transition (registry : RegistryName) (thread : ThreadId) (next : State)
  | stateOf (registry : RegistryName) (thread : ThreadId)
  /-- wait, for a limited time, for the application threads -/
  | wait (registry : RegistryName)
  | tally (registry : RegistryName)
  | installRegistry
  | globalRegistry
  | removeRegistry
  | sameRegistry (a b : RegistryName)
  | installConfig (config : Config)
  | config
  | output
  deriving DecidableEq, Repr, Inhabited

/-- The reply to a command. -/
inductive Reply where
  | done
  | info (i : Info)
  | number (n : Nat)
  | ran (c : Completion) (pc depth : Nat)
  | started (c : Completion) (pc depth : Nat) (state : State) (argsLeft : Nat)
  /-- a call or a start on a thread that the host no longer holds -/
  | goneRun
  /-- from the outermost call in -/
  | frames (fs : List Frame)
  | frame (r : FrameReply)
  | text (s : String)
  | flag (b : Bool)
  | launch (l : Launch)
  | unparking (u : Unparking)
  | transition (t : Transition)
  | state (s : State)
  | tally (t : Tally)
  | ints (vs : List Int32)
  | error (e : Error)
  /-- the host does not hold the thread any more -/
  | gone
  /-- there is no such thread, registry, environment or method -/
  | unknown
  /-- the host's own context did not come to an end -/
  | unfinished

end ThreadEngine
