import ThreadEngine.World.Registry
import ThreadEngine.Body.Task
import ThreadEngine.World.Config
set_option autoImplicit false

/-!
# The world

Everything that threads share: the observable side of every thread, the registries, the
process-wide registry and configuration, the output, and the execution contexts at work.  A context
is the host, the execution context of a launched thread, or the helper that creates one.

Each operation of this module is carried out as a whole.  Registry operations read and write thread
states and counters together, under the lock of their registry, so that nobody who asks the same
registry sees one without the other.  A change of state reads and writes the state of a thread under
the lock of the registry that it is asked of, which need not be the one that retires the thread:
`FineWorld` lets other operations come between its check and its write.
-/

namespace ThreadEngine

/-- What anybody may observe of a thread. -/
structure Handle where
  kind : Kind
  /-- the registry that the thread was built with -/
  home : RegistryId
  state : State
  /-- the thread object, bound at creation -/
  object : Option Value
  context : Context
  /-- whether an execution context was ever attached -/
  launched : Bool
  deriving DecidableEq, Repr, Inhabited

/-- Gives up the join handle, if it is still there. -/
def Handle.detach (h : Handle) : Handle :=
  if h.context = .attached then { h with context := .detached } else h

/-- Whether a launched thread stands at a parking place. -/
inductive Parking where
  | clear
  | parked
  | released
  deriving DecidableEq, Repr, Inhabited

/-- How far the creation of a thread has come, on the creator's side. -/
inductive Creation where
  /-- the thread object is to be bound -/
  | binding (thread : Thread) (object : Value)
  /-- the execution context is to be spawned -/
  | spawning (thread : Thread)
  /-- the join handle is to be stored -/
  | attaching
  /-- the execution context is to be told to go -/
  | launching
  /-- the execution context has not reported yet -/
  | awaitingReady
  /-- the hook that follows the launch is to be run -/
  | hooking
  /-- the end of the execution context is awaited -/
  | joining
  /-- creation is over -/
  | done (fault : Option Error)
  /-- the creator was torn down -/
  | aborted (a : Abort)
  deriving DecidableEq, Repr, Inhabited

/-- Whether the creator is gone. -/
def Creation.isOver : Creation → Bool
  | .done _ | .aborted _ => true
  | _ => false

/-- What the execution context of a launched thread is doing. -/
inductive Child (σ : Type) where
  /-- waits for the word to go -/
  | idle (thread : Thread)
  /-- is to record its thread -/
  | recording (thread : Thread)
  /-- is to report that it is ready, and to start the body -/
  | reporting (thread : Thread)
  /-- runs the body -/
  | running (task : Task σ)
  /-- has ended, possibly by an abort -/
  | ended (a : Option Abort)

/-- All that belongs to one thread. -/
structure Strand (σ : Type) where
  handle : Handle
  /-- the thread in the host's hands at this place -/
  held : Option Thread
  /-- the thread whose creation began at this place -/
  launchee : Option ThreadId
  creation : Option Creation
  /-- whether the word to go has been sent -/
  launchSent : Bool
  /-- whether the execution context has reported -/
  readySent : Bool
  child : Option (Child σ)
  parking : Parking

/-- What the host is doing. -/
inductive Host (σ : Type) where
  | idle
  /-- works on the thread that it took from a place -/
  | running (slot : ThreadId) (task : Task σ)
  /-- waits, for a limited time, until a registry counts no application thread -/
  | waiting (registry : RegistryId)
  /-- the wait is over -/
  | waited (reached : Bool)

/-- Everything that threads share. -/
structure World (σ : Type) where
  strands : List (Strand σ)
  registries : List Registry
  /-- the process-wide registry -/
  installed : Option RegistryId
  config : ConfigCell
  /-- what the int machine has put out -/
  output : List Int32
  host : Host σ
  /-- contexts that go on only when everybody else has come to rest, latest first -/
  settling : List Ctx
  /-- what was noted, latest first -/
  journal : List (Ctx × Note)

namespace World

variable {σ : Type}

/-- A world with some registries and no threads. -/
def ofRegistries (n : Nat) (config : ConfigCell) : World σ :=
  { strands := []
    registries := List.replicate n Registry.empty
    installed := none
    config := config
    output := []
    host := .idle
    settling := []
    journal := [] }

/-! ## Access -/

/-- Writes notes into the journal. -/
def note (w : World σ) (c : Ctx) (notes : List Note) : World σ :=
  { w with journal := (notes.map (c, ·)).reverse ++ w.journal }

/-- Changes what belongs to one thread. -/
def modifyStrand (w : World σ) (t : ThreadId) (f : Strand σ → Strand σ) : World σ :=
  { w with strands := w.strands.modify t f }

/-- Changes the observable side of one thread. -/
def modifyHandle (w : World σ) (t : ThreadId) (f : Handle → Handle) : World σ :=
  w.modifyStrand t fun s => { s with handle := f s.handle }

/-- Changes one registry. -/
def modifyRegistry (w : World σ) (r : RegistryId) (f : Registry → Registry) : World σ :=
  { w with registries := w.registries.modify r f }

/-- The observable side of a thread. -/
def handle? (w : World σ) (t : ThreadId) : Option Handle := w.strands[t]?.map Strand.handle

/-- The state of a thread. -/
def state? (w : World σ) (t : ThreadId) : Option State := (w.handle? t).map Handle.state

/-- The thread that the host holds at a place. -/
def held? (w : World σ) (t : ThreadId) : Option Thread := w.strands[t]?.bind Strand.held

/-! ## Registries -/

/-- Records a thread in a registry. -/
def add (w : World σ) (c : Ctx) (r : RegistryId) (t : ThreadId) : World σ :=
  match w.registries[r]? with
  | none => w
  | some reg =>
    (w.modifyRegistry r (·.add t)).note c [.event (.recorded r t (reg.add t).appThreads)]

/-- Marks a thread as died and takes it out of a registry, with the invariant that would be
broken, if any. -/
def retire (w : World σ) (c : Ctx) (r : RegistryId) (t : ThreadId) :
    Option Invariant × World σ :=
  match w.state? t, w.registries[r]? with
  | some s, some reg =>
    if s.isTerminal then (some .retiredTwice, w)
    else
      let (reg', found) := reg.remove t
      let w' := (w.modifyHandle t ({ · with state := .died })).modifyRegistry r fun _ => reg'
      match found with
      | none => (some .countBelowZero, w')
      | some wasRecorded => (none, w'.note c [.event (.died r t wasRecorded reg'.appThreads)])
  | _, _ => (none, w)

/-- Moves a live thread to another state that is not the terminal one. -/
def transition (w : World σ) (c : Ctx) (r : RegistryId) (t : ThreadId) (next : State) :
    Transition × World σ :=
  match w.state? t with
  | none => (.noThread, w)
  | some current =>
    if next.isTerminal || !current.canTransitionTo next then
      (.refused (.illegalStateTransition current.name next.name), w)
    else
      (.changed,
        (w.modifyHandle t ({ · with state := next })).note c
          [.event (.stateChanged r t current next)])

/-- A consistent view of a registry. -/
def tally? (w : World σ) (r : RegistryId) : Option Tally :=
  w.registries[r]?.map fun reg =>
    { appThreads := reg.appThreads
      total := reg.total
      states := reg.table.filterMap fun t => (w.state? t).map (t, ·) }

/-- Installs a fresh process-wide registry, unless there is one. -/
def installRegistry (w : World σ) (c : Ctx) : Except Error RegistryId × World σ :=
  match w.installed with
  | some _ => (.error .registryAlreadyInitialized, w)
  | none =>
    let r := w.registries.length
    (.ok r,
      { w with registries := w.registries ++ [Registry.empty], installed := some r }.note c
        [.event .registryInstalled])

/-- The process-wide registry. -/
def globalRegistry (w : World σ) : Except Error RegistryId :=
  match w.installed with
  | some r => .ok r
  | none => .error .registryNotInitialized

/-- Removes the process-wide registry and hands it back.  Threads that report to it keep it. -/
def removeRegistry (w : World σ) (c : Ctx) : Except Error RegistryId × World σ :=
  match w.installed with
  | none => (.error .registryNotInitialized, w)
  | some r =>
    let count := (w.registries[r]?.map Registry.appThreads).getD 0
    (.ok r, { w with installed := none }.note c [.event (.registryRemoved count)])

/-! ## Building threads -/

/-- What a thread is built from. -/
structure Env where
  registry : RegistryId
  maxDepth : Nat
  dialect : Dialect
  deriving DecidableEq, Repr, Inhabited

/-- The environment of the process-wide registry and configuration.  The configuration is read,
and thereby decided, only when there is a registry. -/
def globalEnv (w : World σ) (dialect : Dialect) : Except Error Env × World σ :=
  match w.globalRegistry with
  | .error e => (.error e, w)
  | .ok r =>
    let (config, cell) := w.config.read
    (.ok ⟨r, config.maxStackDepth, dialect⟩, { w with config := cell })

/-- Builds a thread and puts it into the host's hands. -/
def build (w : World σ) (kind : Kind) (m : MethodRef) (args : List Value) (env : Env) :
    ThreadId × World σ :=
  let t := w.strands.length
  let thread : Thread :=
    { id := t
      kind := kind
      registry := env.registry
      dialect := env.dialect
      frames := FrameStack.empty env.maxDepth
      method := m
      args := args
      pc := 0 }
  let handle : Handle :=
    { kind := kind
      home := env.registry
      state := .running
      object := none
      context := .unlaunched
      launched := false }
  let strand : Strand σ :=
    { handle := handle
      held := some thread
      launchee := none
      creation := none
      launchSent := false
      readySent := false
      child := none
      parking := .clear }
  (t, { w with strands := w.strands ++ [strand] })

/-- Builds an application thread from an argument list, which must hold exactly the receiver. -/
def buildApplication (w : World σ) (m : MethodRef) (args : List Value) (env : Env) :
    Except Error ThreadId × World σ :=
  if args.length = 1 then
    let (t, w') := w.build .application m args env
    (.ok t, w')
  else (.error (.receiverArity m.name args.length), w)

/-- Takes a held thread out of the host's hands. -/
def takeHeld (w : World σ) (slot : ThreadId) : World σ :=
  w.modifyStrand slot ({ · with held := none })

/-- Puts a thread into the host's hands. -/
def putHeld (w : World σ) (slot : ThreadId) (thread : Thread) : World σ :=
  w.modifyStrand slot ({ · with held := some thread })

/-! ## Launching and parking -/

/-- Begins the creation of a held thread. -/
def create (w : World σ) (slot : ThreadId) (thread : Thread) (object : Value) : World σ :=
  ((w.takeHeld slot).modifyStrand slot ({ · with launchee := some thread.id })).modifyStrand
    thread.id ({ · with creation := some (.binding thread object) })

/-- How far the creation of a thread has come. -/
def launchReport (w : World σ) (t : ThreadId) : Launch :=
  match w.strands[t]?.bind Strand.creation with
  | some (.done none) => .launched t
  | some (.done (some e)) => .failed e
  | _ => .pending

/-- How far the creation that began at a place has come. -/
def launchReportAt (w : World σ) (slot : ThreadId) : Launch :=
  match w.strands[slot]?.bind Strand.launchee with
  | some t => w.launchReport t
  | none => .pending

/-- The place where the creation of a thread began. -/
def launchPlace? (w : World σ) (t : ThreadId) : Option ThreadId :=
  w.strands.findIdx? (·.launchee == some t)

/-- Lets a parked thread go on. -/
def unpark (w : World σ) (t : ThreadId) : Unparking × World σ :=
  match w.strands[t]? with
  | none => (.noThread, w)
  | some s =>
    if s.parking = .parked then
      (.released, w.modifyStrand t ({ · with parking := .released }))
    else (.notParked, w)

end World

end ThreadEngine
