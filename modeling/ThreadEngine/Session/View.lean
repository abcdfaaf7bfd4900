import ThreadEngine.World
set_option autoImplicit false

/-!
# Views

What a session shows of a thread: the observable side, the thread itself while the host holds it,
and their diagnostic texts.
-/

namespace ThreadEngine

/-- A thread in the host's hands. -/
structure OwnedView where
  thread : Thread
  state : State
  launched : Bool
  /-- whether it reports to the registry that the thread of this place was built with -/
  ownRegistry : Bool
  deriving DecidableEq, Repr, Inhabited

/-- What is shown of a place: the observable side of its thread, and the thread that the host
holds there. -/
structure Info where
  thread : ThreadId
  handle : Handle
  owned : Option OwnedView
  deriving DecidableEq, Repr, Inhabited

/-- A structure in diagnostic text. -/
def diagnosticStruct (head : String) (fields : List (String × String)) (isComplete : Bool) :
    String :=
  let shown := fields.map fun f => f.1 ++ ": " ++ f.2
  head ++ " \x7b " ++
    String.intercalate ", " (shown ++ if isComplete then [] else [".."]) ++ " \x7d"

/-- The diagnostic text of a thread's observable side. -/
def Handle.diagnostic (h : Handle) (t : ThreadId) : String :=
  diagnosticStruct "ThreadHandle"
    [("id", toString t.number), ("kind", h.kind.name), ("state", h.state.label),
      ("execution_handle", if h.launched then "Some(ThreadId(_))" else "None")]
    true

/-- The diagnostic text of a thread. -/
def Thread.diagnostic (t : Thread) (h : Handle) : String :=
  diagnosticStruct "Thread"
    [("handle", h.diagnostic t.id), ("method", Text.quoted t.method.name),
      ("args", diagnosticList (t.args.map Value.diagnostic)), ("pc", toString t.pc),
      ("depth", toString t.depth)]
    false

/-- The diagnostic text of an environment. -/
def World.Env.diagnostic (e : World.Env) : String :=
  diagnosticStruct "ThreadEnv" [("max_stack_depth", toString e.maxDepth)] false

namespace World

variable {σ : Type}

/-- What is shown of a place. -/
def info? (w : World σ) (t : ThreadId) : Option Info :=
  w.strands[t]?.map fun s =>
    { thread := t
      handle := s.handle
      owned := s.held.bind fun thread =>
        (w.handle? thread.id).map fun h =>
          { thread := thread
            state := h.state
            launched := h.launched
            ownRegistry := thread.registry == s.handle.home } }

end World

end ThreadEngine
