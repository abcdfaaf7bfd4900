import ThreadEngine.World
set_option autoImplicit false

/-!
# Serving requests

What the world does when a context asks for something: it answers at once, it has the context ask
for something else, or it lets the context wait.
-/

namespace ThreadEngine

/-- What becomes of a request. -/
inductive Served (σ : Type) where
  /-- the context goes on with an answer -/
  | answered (a : Answer) (w : World σ)
  /-- the context has to ask for something else -/
  | deferred (r : Request) (w : World σ)
  /-- nothing can be done now -/
  | blocked

namespace World

variable {σ : Type}

/-- Waits for the application threads of a registry: a context that stands among the waiters is
asleep; one that does not looks at the count, and joins the waiters unless it is zero. -/
def serveAwait (w : World σ) (c : Ctx) (r : RegistryId) : Served σ :=
  match w.registries[r]? with
  | none => .answered .unknown w
  | some reg =>
    if c ∈ reg.waiters then .blocked
    else if reg.appThreads = 0 then .answered .done w
    else .deferred (.awaitApplications r) (w.modifyRegistry r (·.enqueue c))

/-- Parks the execution context of a launched thread; nobody else can be parked. -/
def servePark (w : World σ) (c : Ctx) : Served σ :=
  match c with
  | .host | .creator _ => .answered .parkIgnored w
  | .body t =>
    match w.strands[t]?.map Strand.parking with
    | none => .answered .unknown w
    | some .clear => .deferred .park (w.modifyStrand t ({ · with parking := .parked }))
    | some .parked => .blocked
    | some .released => .answered .done (w.modifyStrand t ({ · with parking := .clear }))

/-- A context goes on only when everybody else has come to rest. -/
def settle (w : World σ) (c : Ctx) : World σ := { w with settling := c :: w.settling }

/-- A context has gone on. -/
def settled (w : World σ) (c : Ctx) : World σ := { w with settling := w.settling.erase c }

/-- Has a held thread created. -/
def serveSpawn (w : World σ) (c : Ctx) (slot : ThreadId) (object : Value) : Served σ :=
  match w.strands[slot]? with
  | none => .answered (.launch .noThread) w
  | some s =>
    match s.held with
    | none => .answered (.launch .gone) w
    | some thread => .deferred (.reportLaunch thread.id) ((w.create slot thread object).settle c)

/-- Lets a parked thread go on. -/
def serveUnpark (w : World σ) (c : Ctx) (t : ThreadId) : Served σ :=
  match w.unpark t with
  | (.released, w') => .deferred .reportUnpark (w'.settle c)
  | (refusal, w') => .answered (.unparked refusal) w'

/-- Serves a request of a context. -/
def serve (w : World σ) (c : Ctx) : Request → Served σ
  | .detach t => .answered .done (w.modifyHandle t Handle.detach)
  | .awaitApplications r => w.serveAwait c r
  | .stateOf t =>
    match w.state? t with
    | some s => .answered (.state s) w
    | none => .answered .unknown w
  | .retire r t =>
    let (fault, w') := w.retire c r t
    .answered (.retired fault) w'
  | .transition r t next =>
    let (result, w') := w.transition c r t next
    .answered (.transitioned result) w'
  | .tally r =>
    match w.tally? r with
    | some t => .answered (.tally t) w
    | none => .answered .unknown w
  | .replace slot => .answered (.replaced (w.held? slot)) (w.takeHeld slot)
  | .park => w.servePark c
  | .spawn slot object => w.serveSpawn c slot object
  | .reportLaunch t => .answered (.launch (w.launchReport t)) (w.settled c)
  | .unpark t => w.serveUnpark c t
  | .reportUnpark => .answered (.unparked .released) (w.settled c)
  | .emit v => .answered .done { w with output := w.output ++ [v] }

end World

end ThreadEngine
