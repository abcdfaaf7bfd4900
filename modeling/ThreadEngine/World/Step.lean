import ThreadEngine.World.Serve
set_option autoImplicit false

/-!
# Steps of the world

`World.step` lets one context take its next step; `none` says that it cannot.  Any order of steps
of any contexts is a possible run.  `World.rest` is the order in which a session runs them: a
context goes on as long as it can, those that wait for everybody else come last, and of those the
latest goes first.
-/

namespace ThreadEngine

/-- The execution context of a thread after a step of its task. -/
def Child.ofTask {σ : Type} (task : Task σ) : Child σ :=
  match task.completion? with
  | none => .running task
  | some (.aborted a) => .ended (some a)
  | some (.returned _) | some .ended => .ended none

namespace World

variable {σ : Type}

/-! ## Steps of tasks -/

/-- The next step of a task in its context; `store` puts the task back. -/
def stepTask (I : Interpreter σ) (w : World σ) (c : Ctx) (task : Task σ)
    (store : World σ → Task σ → World σ) : Option (World σ) :=
  match task.request? with
  | some r =>
    match w.serve c r with
    | .answered a w' =>
      let (task', notes) := task.answer I a
      some ((store w' task').note c notes)
    | .deferred r' w' => some (store w' (task.reask r'))
    | .blocked => none
  | none =>
    match task.advance I with
    | some (task', notes) => some ((store w task').note c notes)
    | none => none

/-- Puts the execution context of a thread back. -/
def storeChild (t : ThreadId) (w : World σ) (child : Child σ) : World σ :=
  w.modifyStrand t ({ · with child := some child })

/-! ## Steps of launched threads -/

/-- The next step of the execution context of a thread. -/
def stepBody (I : Interpreter σ) (w : World σ) (t : ThreadId) : Option (World σ) :=
  match w.strands[t]? with
  | none => none
  | some s =>
    match s.child with
    | none | some (.ended _) => none
    | some (.idle thread) =>
      if s.launchSent then
        some (storeChild t w
          (if thread.kind.isRecorded then .recording thread else .reporting thread))
      -- nobody is left who could give the word
      else if s.creation.any Creation.isOver then some (storeChild t w (.ended none))
      else none
    | some (.recording thread) =>
      let w' := w.note (.body t) [.event (.recording thread.id)]
      some (storeChild t (w'.add (.body t) thread.registry thread.id) (.reporting thread))
    | some (.reporting thread) =>
      let (task, notes) := Task.start I thread []
      some ((storeChild t (w.modifyStrand t ({ · with readySent := true }))
        (.running task)).note (.body t) notes)
    | some (.running task) =>
      w.stepTask I (.body t) task fun w' task' => storeChild t w' (Child.ofTask task')

/-! ## Steps of creators -/

/-- Moves the creation of a thread on. -/
def setCreation (w : World σ) (t : ThreadId) (c : Creation) : World σ :=
  w.modifyStrand t ({ · with creation := some c })

/-- The hook that follows a launch: the entry point is joined, an application thread is not. -/
def hook (w : World σ) (t : ThreadId) (h : Handle) : World σ :=
  if h.kind = .main ∧ h.context = .attached then
    (w.modifyHandle t ({ · with context := .joined })).setCreation t .joining
  else w.setCreation t (.done none)

/-- The next step of the creator of a thread. -/
def stepCreator (w : World σ) (t : ThreadId) : Option (World σ) :=
  match w.strands[t]? with
  | none => none
  | some s =>
    match s.creation with
    | none | some (.done _) | some (.aborted _) => none
    | some (.binding thread object) =>
      if s.handle.object.isSome then
        let a := Abort.invariant .boundTwice
        some ((w.setCreation t (.aborted a)).note (.creator t) a.notes)
      else
        some ((w.modifyHandle t ({ · with object := some object })).setCreation t
          (.spawning thread))
    | some (.spawning thread) =>
      some ((storeChild t w (.idle thread)).setCreation t .attaching)
    | some .attaching =>
      some ((w.modifyHandle t ({ · with context := .attached, launched := true })).setCreation t
        .launching)
    | some .launching =>
      -- the word to go reaches nobody once the execution context has ended
      match s.child with
      | some (.ended _) => some (w.setCreation t (.done (some (.launchAborted t.number))))
      | _ => some ((w.modifyStrand t ({ · with launchSent := true })).setCreation t .awaitingReady)
    | some .awaitingReady =>
      if s.readySent then
        some ((w.setCreation t .hooking).note (.creator t) [.event (.launched t s.handle.kind)])
      else
        match s.child with
        | some (.ended _) => some (w.setCreation t (.done (some (.launchAborted t.number))))
        | _ => none
    | some .hooking => some (w.hook t s.handle)
    | some .joining =>
      match s.child with
      | some (.ended none) => some (w.setCreation t (.done none))
      | some (.ended (some _)) =>
        some (w.setCreation t (.done (some (.threadAborted t.number))))
      | _ => none

/-! ## Steps of the host -/

/-- The next step of the host. -/
def stepHost (I : Interpreter σ) (w : World σ) : Option (World σ) :=
  match w.host with
  | .idle | .waited _ => none
  | .running slot task =>
    w.stepTask I .host task fun w' task' => { w' with host := .running slot task' }
  | .waiting r =>
    match w.serveAwait .host r with
    | .answered _ w' => some { w' with host := .waited true }
    | .deferred _ w' => some w'
    | .blocked => none

/-- The host's time is up: it says whether the count is zero now. -/
def expire (w : World σ) : World σ :=
  match w.host with
  | .waiting r =>
    { w.modifyRegistry r (·.dequeue .host) with
      host := .waited ((w.registries[r]?.map Registry.appThreads) == some 0) }
  | _ => w

/-! ## Runs -/

/-- The next step of a context. -/
def step (I : Interpreter σ) (w : World σ) : Ctx → Option (World σ)
  | .host => w.stepHost I
  | .body t => w.stepBody I t
  | .creator t => w.stepCreator t

/-- All contexts there are. -/
def contexts (w : World σ) : List Ctx :=
  .host :: (List.range w.strands.length).flatMap fun t => [.body t, .creator t]

/-- The first context, of some, that can take a step, with the world after it.  Contexts that
wait for everybody else are passed over. -/
def firstStep (I : Interpreter σ) (w : World σ) (cs : List Ctx) : Option (Ctx × World σ) :=
  cs.findSome? fun c =>
    if c ∈ w.settling then none else (w.step I c).map (c, ·)

/-- The step that a session takes next: the context that moved last goes on if it can. -/
def nextStep (I : Interpreter σ) (w : World σ) (last : Ctx) : Option (Ctx × World σ) :=
  match w.firstStep I (last :: w.contexts) with
  | some next => some next
  | none =>
    match w.settling with
    | [] => none
    | c :: _ => (w.step I c).map (c, ·)

/-- Runs until nobody can take a step, for at most `fuel` steps. -/
def rest (I : Interpreter σ) : Nat → Ctx → World σ → World σ
  | 0, _, w => w
  | fuel + 1, last, w =>
    match w.nextStep I last with
    | none => w
    | some (c, w') => rest I fuel c w'

end World

end ThreadEngine
