import ThreadEngine.World.Host
import ThreadEngine.Body.Program
import Mathlib.Data.List.Basic

set_option autoImplicit false

/-!
# Operations and runs

A run is any sequence of operations: what anybody may do from outside, at any time, and the steps
of the contexts at work, in any order.  Each step may be taken by another interpreter, so that
nothing is assumed about how interpreters depend on each other or on the past; the one thing that no
interpreter can do is to ask for what only the engine itself asks for (`Interpreter.IsPublic`).

Bodies are started in three ways only: by the execution context of a launched thread, by an
interpreter on the very thread that it runs, and by the one host on a thread that it holds, which is
also the only one to call a method on a held thread.  Other direct starts are in no run: a body that
starts a second thread in its own context, or two callers outside that start threads at once.

An operation is carried out as a whole here, as if the locks of all registries were one.  Runs in
which a change of state is not are those of `FineWorld`.

Every operation does at most one thing that concerns who is counted where, its `Deed`, and a run
comes with the list of its deeds.
-/

namespace ThreadEngine

/-! ## What an interpreter can ask for -/

/-- Whether an interpreter has a way to make a request.  Giving up a join handle and retiring a
thread are the engine's own. -/
def Request.isPublic : Request → Bool
  | .detach _ | .retire .. => false
  | _ => true

/-- An interpreter that asks only for what is open to interpreters. -/
def Interpreter.IsPublic {σ : Type} (I : Interpreter σ) : Prop :=
  ∀ s t s' r, (I.act s t).action = .ask s' r → r.isPublic = true

namespace Script

theorem isPublic_exec (lib : Library) (pc : Nat) (t : Thread) (s s' : Activation) (instr : Instr)
    (r : Request) (h : (exec lib pc t s instr).action = .ask s' r) : r.isPublic = true := by
  cases instr with
  | attempt op | perform op =>
      simp only [exec, stepping] at h
      split at h
      · split at h
        · cases h
        · cases h
      · cases h
      · cases h
  | call place args mode =>
      simp only [exec] at h
      split at h
      · cases h
      · cases h
  | transition target next =>
      cases target with
      | self => cases h; rfl
      | thread u => cases h; rfl
  | replace slot | park | spawn slot object | unpark thread | tally => cases h; rfl
  | _ => cases h

theorem isPublic_afterAnswer (t : Thread) (s s' : Activation) (q : Question) (a : Answer)
    (r : Request) (h : (afterAnswer t s q a).action = .ask s' r) : r.isPublic = true := by
  unfold afterAnswer at h
  split at h
  all_goals cases h
  rfl

theorem isPublic_afterCall (t : Thread) (s s' : Activation) (mode : Mode) (c : Completion)
    (r : Request) : (afterCall t s mode c).action ≠ .ask s' r := by
  intro h
  unfold afterCall at h
  split at h
  · cases h
  · split at h
    · cases h
    · cases h
  · cases h
  · cases h

/-- Scripts ask only for what is open to interpreters. -/
theorem isPublic_interpreter (lib : Library) : (interpreter lib).IsPublic := by
  intro s t s' r h
  change (act lib s t).action = .ask s' r at h
  unfold act at h
  split at h
  · split at h
    · cases h
    · exact isPublic_exec lib _ t s s' _ r h
  · exact absurd h (isPublic_afterCall t s s' _ _ r)
  · cases h
    rfl
  · exact isPublic_afterAnswer t s s' _ _ r h
  all_goals cases h

end Script

/-! ## Operations -/

/-- Something that can be done to a world. -/
inductive Operation (σ : Type) where
  /-- a context takes its next step, with the interpreter that is at hand then -/
  | step (I : Interpreter σ) (c : Ctx)
  /-- the time of the host's wait is up -/
  | expire
  /-- an application thread is built -/
  | application (m : MethodRef) (args : List Value) (env : World.Env)
  /-- an entry-point thread is built -/
  | main (m : MethodRef) (args : List Value) (env : World.Env)
  | drop (slot : ThreadId)
  | setPc (slot : ThreadId) (pc : Nat)
  | editFrame (slot : ThreadId) (op : FrameOp)
  /-- the host calls a method on a thread that it holds -/
  | call (I : Interpreter σ) (slot : ThreadId) (m : MethodRef) (args : List Value)
  /-- the host starts a thread that it holds -/
  | start (I : Interpreter σ) (slot : ThreadId)
  /-- the host takes back the thread that it has worked on -/
  | takeBack
  | create (slot : ThreadId) (object : Value)
  /-- somebody records a thread -/
  | add (c : Ctx) (r : RegistryId) (t : ThreadId)
  /-- somebody changes the state of a thread -/
  | transition (c : Ctx) (r : RegistryId) (t : ThreadId) (next : State)
  | unpark (t : ThreadId)
  | beginWait (r : RegistryId)
  | endWait
  | installRegistry (c : Ctx)
  | removeRegistry (c : Ctx)
  | installConfig (config : Config)
  | readConfig

/-- Whoever takes turns in an operation is a public interpreter. -/
def Operation.IsPublic {σ : Type} : Operation σ → Prop
  | .step I _ | .call I .. | .start I _ => I.IsPublic
  | _ => True

namespace World

variable {σ : Type}

/-- Carries out an operation; `none` if it is not possible now.  The host does one thing at a time.
Threads are built for registries that exist, and recorded if they exist. -/
def perform (w : World σ) : Operation σ → Option (World σ)
  | .step I c => w.step I c
  | .expire =>
    match w.host with
    | .waiting _ => some w.expire
    | .idle | .running .. | .waited _ => none
  | .application m args env =>
    if env.registry < w.registries.length then some (w.buildApplication m args env).2 else none
  | .main m args env =>
    if env.registry < w.registries.length then some (w.build .main m args env).2 else none
  | .drop slot => some (w.takeHeld slot)
  | .setPc slot pc => some (w.setPc slot pc)
  | .editFrame slot op => some (w.editFrame slot op)
  | .call I slot m args =>
    match w.host with
    | .idle => some (w.hostCall I slot m args)
    | .running .. | .waiting _ | .waited _ => none
  | .start I slot =>
    match w.host with
    | .idle => some (w.hostStart I slot)
    | .running .. | .waiting _ | .waited _ => none
  | .takeBack =>
    match w.engaged? with
    | some (_, some _) => some w.disengage
    | some (_, none) | none => none
  | .create slot object => some (w.createHeld slot object)
  | .add c r t =>
    if r < w.registries.length ∧ t < w.strands.length then some (w.add c r t) else none
  | .transition c r t next => some (w.transition c r t next).2
  | .unpark t => some (w.unpark t).2
  | .beginWait r =>
    match w.host with
    | .idle => some (w.beginWait r)
    | .running .. | .waiting _ | .waited _ => none
  | .endWait =>
    match w.host with
    | .waited _ => some w.endWait
    | .idle | .running .. | .waiting _ => none
  | .installRegistry c => some (w.installRegistry c).2
  | .removeRegistry c => some (w.removeRegistry c).2
  | .installConfig config => some { w with config := (w.config.install config).2 }
  | .readConfig => some { w with config := w.config.read.2 }

end World

/-! ## What a step can be -/

/-- The world after a request was dealt with, if it could be. -/
def Served.world? {σ : Type} : Served σ → Option (World σ)
  | .answered _ w | .deferred _ w => some w
  | .blocked => none

namespace World

variable {σ : Type}

/-- A task goes on with an answer, asks for something else, or takes a local step. -/
theorem stepTask_cases {I : Interpreter σ} {w v : World σ} {c : Ctx} {task : Task σ}
    {store : World σ → Task σ → World σ} (h : w.stepTask I c task store = some v) :
    (∃ r a w', task.request? = some r ∧ w.serve c r = .answered a w' ∧
        v = (store w' (task.answer I a).1).note c (task.answer I a).2) ∨
      (∃ r r' w', task.request? = some r ∧ w.serve c r = .deferred r' w' ∧
        v = store w' (task.reask r')) ∨
      ∃ task' notes, task.request? = none ∧ task.advance I = some (task', notes) ∧
        v = (store w task').note c notes := by
  unfold stepTask at h
  split at h
  · rename_i r asks
    split at h
    · rename_i a w' served
      cases h
      exact .inl ⟨r, a, w', asks, served, rfl⟩
    · rename_i r' w' served
      cases h
      exact .inr (.inl ⟨r, r', w', asks, served, rfl⟩)
    · cases h
  · rename_i asks
    split at h
    · rename_i task' notes advanced
      cases h
      exact .inr (.inr ⟨task', notes, asks, advanced, rfl⟩)
    · cases h

/-- The same configuration, and nothing noted. -/
structure KeepsRecords (w w' : World σ) : Prop where
  config_eq : w'.config = w.config
  journal_eq : w'.journal = w.journal

theorem keepsRecords_unpark (w : World σ) (t : ThreadId) : KeepsRecords w (w.unpark t).2 := by
  unfold unpark
  split
  · exact ⟨rfl, rfl⟩
  · split
    · exact ⟨rfl, rfl⟩
    · exact ⟨rfl, rfl⟩

theorem keepsRecords_serveAwait {w w' : World σ} {c : Ctx} {r : RegistryId}
    (h : (w.serveAwait c r).world? = some w') : KeepsRecords w w' := by
  unfold serveAwait at h
  split at h
  · cases h
    exact ⟨rfl, rfl⟩
  · split at h
    · cases h
    · split at h <;> (cases h; exact ⟨rfl, rfl⟩)

theorem keepsRecords_servePark {w w' : World σ} {c : Ctx}
    (h : (w.servePark c).world? = some w') : KeepsRecords w w' := by
  unfold servePark at h
  split at h
  · cases h
    exact ⟨rfl, rfl⟩
  · cases h
    exact ⟨rfl, rfl⟩
  · split at h
    · cases h
      exact ⟨rfl, rfl⟩
    · cases h
      exact ⟨rfl, rfl⟩
    · cases h
    · cases h
      exact ⟨rfl, rfl⟩

theorem keepsRecords_serveSpawn {w w' : World σ} {c : Ctx} {slot : ThreadId} {object : Value}
    (h : (w.serveSpawn c slot object).world? = some w') : KeepsRecords w w' := by
  unfold serveSpawn at h
  split at h
  · cases h
    exact ⟨rfl, rfl⟩
  · split at h <;> (cases h; exact ⟨rfl, rfl⟩)

theorem keepsRecords_serveUnpark {w w' : World σ} {c : Ctx} {t : ThreadId}
    (h : (w.serveUnpark c t).world? = some w') : KeepsRecords w w' := by
  have same := keepsRecords_unpark w t
  unfold serveUnpark at h
  split at h
  · rename_i unparked
    rw [unparked] at same
    cases h
    exact ⟨same.config_eq, same.journal_eq⟩
  · rename_i unparked
    rw [unparked] at same
    cases h
    exact same

/-- To serve a request is to retire a thread, to change a state, or to leave the records alone. -/
theorem serve_cases {w w' : World σ} {c : Ctx} {r : Request}
    (h : (w.serve c r).world? = some w') :
    (∃ r' t, r = .retire r' t ∧ w' = (w.retire c r' t).2) ∨
      (∃ r' t next, r = .transition r' t next ∧ w' = (w.transition c r' t next).2) ∨
      (∀ r' t, r ≠ .retire r' t) ∧ KeepsRecords w w' := by
  cases r with
  | retire r' t =>
      cases h
      exact .inl ⟨r', t, rfl, rfl⟩
  | transition r' t next =>
      cases h
      exact .inr (.inl ⟨r', t, next, rfl, rfl⟩)
  | detach t | replace slot | reportLaunch t | reportUnpark | emit v =>
      cases h
      exact .inr (.inr ⟨nofun, rfl, rfl⟩)
  | awaitApplications r => exact .inr (.inr ⟨nofun, keepsRecords_serveAwait h⟩)
  | stateOf t | tally r =>
      simp only [serve] at h
      split at h <;> (cases h; exact .inr (.inr ⟨nofun, rfl, rfl⟩))
  | park => exact .inr (.inr ⟨nofun, keepsRecords_servePark h⟩)
  | spawn slot object => exact .inr (.inr ⟨nofun, keepsRecords_serveSpawn h⟩)
  | unpark t => exact .inr (.inr ⟨nofun, keepsRecords_serveUnpark h⟩)

/-- The execution context of a thread waits for the word to go, records its thread, reports and
starts the body, or goes on with it. -/
theorem stepBody_cases {I : Interpreter σ} {w v : World σ} {t : ThreadId}
    (h : w.stepBody I t = some v) :
    ∃ s, w.strands[t]? = some s ∧
      ((∃ thread, s.child = some (.idle thread) ∧ s.launchSent = true ∧
          v = storeChild t w
            (if thread.kind.isRecorded then .recording thread else .reporting thread)) ∨
        (∃ thread, s.child = some (.idle thread) ∧ s.launchSent = false ∧
          s.creation.any Creation.isOver = true ∧ v = storeChild t w (.ended none)) ∨
        (∃ thread, s.child = some (.recording thread) ∧
          v = storeChild t ((w.note (.body t) [.event (.recording thread.id)]).add (.body t)
            thread.registry thread.id) (.reporting thread)) ∨
        (∃ thread, s.child = some (.reporting thread) ∧
          v = (storeChild t (w.modifyStrand t ({ · with readySent := true }))
            (.running (Task.start I thread []).1)).note (.body t) (Task.start I thread []).2) ∨
        ∃ task, s.child = some (.running task) ∧
          w.stepTask I (.body t) task (fun w' task' => storeChild t w' (Child.ofTask task')) =
            some v) := by
  unfold stepBody at h
  split at h
  · cases h
  · rename_i s strand_eq
    refine ⟨s, strand_eq, ?_⟩
    split at h
    · cases h
    · cases h
    · rename_i thread child_eq
      split at h
      · rename_i sent
        cases h
        exact .inl ⟨thread, child_eq, sent, rfl⟩
      · rename_i silent
        split at h
        · rename_i gone
          cases h
          exact .inr (.inl ⟨thread, child_eq, eq_false_of_ne_true silent, gone, rfl⟩)
        · cases h
    · rename_i thread child_eq
      cases h
      exact .inr (.inr (.inl ⟨thread, child_eq, rfl⟩))
    · rename_i thread child_eq
      cases h
      exact .inr (.inr (.inr (.inl ⟨thread, child_eq, rfl⟩)))
    · rename_i task child_eq
      exact .inr (.inr (.inr (.inr ⟨task, child_eq, h⟩)))

/-- The creator of a thread goes through the launch, one thing after the other.  It fails if the
thread object is bound already, or if the execution context is gone before it has reported. -/
theorem stepCreator_cases {w v : World σ} {t : ThreadId} (h : w.stepCreator t = some v) :
    ∃ s, w.strands[t]? = some s ∧
      ((∃ thread object, s.creation = some (.binding thread object) ∧ s.handle.object = none ∧
          v = (w.modifyHandle t ({ · with object := some object })).setCreation t
            (.spawning thread)) ∨
        (∃ thread, s.creation = some (.spawning thread) ∧
          v = (storeChild t w (.idle thread)).setCreation t .attaching) ∨
        (s.creation = some .attaching ∧
          v = (w.modifyHandle t ({ · with context := .attached, launched := true })).setCreation t
            .launching) ∨
        (s.creation = some .launching ∧
          v = (w.modifyStrand t ({ · with launchSent := true })).setCreation t .awaitingReady) ∨
        (s.creation = some .awaitingReady ∧ s.readySent = true ∧
          v = (w.setCreation t .hooking).note (.creator t)
            [.event (.launched t s.handle.kind)]) ∨
        (s.creation = some .hooking ∧ v = w.hook t s.handle) ∨
        (∃ a, s.creation = some .joining ∧ s.child = some (.ended a) ∧
          v = w.setCreation t (.done (a.map fun _ => .threadAborted t.number))) ∨
        (∃ thread object value, s.creation = some (.binding thread object) ∧
          s.handle.object = some value ∧
          v = (w.setCreation t (.aborted (.invariant .boundTwice))).note (.creator t)
            (Abort.invariant .boundTwice).notes) ∨
        ∃ a, (s.creation = some .launching ∨
            s.creation = some .awaitingReady ∧ s.readySent = false) ∧
          s.child = some (.ended a) ∧
          v = w.setCreation t (.done (some (.launchAborted t.number)))) := by
  unfold stepCreator at h
  split at h
  · cases h
  · rename_i s strand_eq
    refine ⟨s, strand_eq, ?_⟩
    split at h
    · cases h
    · cases h
    · cases h
    · rename_i thread object creation_eq
      split at h
      · rename_i bound
        obtain ⟨value, bound⟩ := Option.isSome_iff_exists.mp bound
        cases h
        exact .inr (.inr (.inr (.inr (.inr (.inr (.inr (.inl
          ⟨thread, object, value, creation_eq, bound, rfl⟩)))))))
      · rename_i unbound
        cases h
        exact .inl ⟨thread, object, creation_eq, Option.not_isSome_iff_eq_none.mp unbound, rfl⟩
    · rename_i thread creation_eq
      cases h
      exact .inr (.inl ⟨thread, creation_eq, rfl⟩)
    · rename_i creation_eq
      cases h
      exact .inr (.inr (.inl ⟨creation_eq, rfl⟩))
    · rename_i creation_eq
      split at h
      · rename_i a child_eq
        cases h
        exact .inr (.inr (.inr (.inr (.inr (.inr (.inr (.inr
          ⟨a, .inl creation_eq, child_eq, rfl⟩)))))))
      · cases h
        exact .inr (.inr (.inr (.inl ⟨creation_eq, rfl⟩)))
    · rename_i creation_eq
      split at h
      · rename_i ready
        cases h
        exact .inr (.inr (.inr (.inr (.inl ⟨creation_eq, ready, rfl⟩))))
      · rename_i unready
        split at h
        · rename_i a child_eq
          cases h
          exact .inr (.inr (.inr (.inr (.inr (.inr (.inr (.inr
            ⟨a, .inr ⟨creation_eq, eq_false_of_ne_true unready⟩, child_eq, rfl⟩)))))))
        · cases h
    · rename_i creation_eq
      cases h
      exact .inr (.inr (.inr (.inr (.inr (.inl ⟨creation_eq, rfl⟩)))))
    · rename_i creation_eq
      split at h
      · rename_i child_eq
        cases h
        exact .inr (.inr (.inr (.inr (.inr (.inr (.inl ⟨none, creation_eq, child_eq, rfl⟩))))))
      · rename_i a child_eq
        cases h
        exact .inr (.inr (.inr (.inr (.inr (.inr (.inl ⟨some a, creation_eq, child_eq, rfl⟩))))))
      · cases h

/-- The host goes on with its task, or looks at the count that it waits for. -/
theorem stepHost_cases {I : Interpreter σ} {w v : World σ} (h : w.stepHost I = some v) :
    (∃ slot task, w.host = .running slot task ∧
        w.stepTask I .host task (fun w' task' => { w' with host := .running slot task' }) =
          some v) ∨
      ∃ r w', w.host = .waiting r ∧ (w.serveAwait .host r).world? = some w' ∧
        (v = w' ∨ v = { w' with host := .waited true }) := by
  unfold stepHost at h
  split at h
  · cases h
  · cases h
  · rename_i slot task host_eq
    exact .inl ⟨slot, task, host_eq, h⟩
  · rename_i r host_eq
    right
    split at h
    · rename_i a w' served
      cases h
      exact ⟨r, w', host_eq, by rw [served]; rfl, .inr rfl⟩
    · rename_i r' w' served
      cases h
      exact ⟨r, _, host_eq, by rw [served]; rfl, .inl rfl⟩
    · cases h

end World

/-! ## Deeds -/

/-- What an operation does that concerns who is counted where. -/
inductive Deed where
  | built (kind : Kind) (home : RegistryId)
  /-- a registry was added -/
  | installed
  /-- the creation of a thread began -/
  | created (t : ThreadId)
  /-- the body of a thread was started -/
  | started (t : ThreadId)
  /-- the execution context of a launched thread recorded it -/
  | enlisted (r : RegistryId) (t : ThreadId)
  /-- somebody else recorded a thread -/
  | added (r : RegistryId) (t : ThreadId)
  | moved (t : ThreadId) (next : State)
  /-- a thread died, and a registry stopped counting it -/
  | retired (r : RegistryId) (t : ThreadId)
  deriving DecidableEq, Repr, Inhabited

/-- Whether a deed has to do with where threads are. -/
def Deed.relocates : Deed → Bool
  | .built .. | .created _ | .started _ | .enlisted .. => true
  | .installed | .added .. | .moved .. | .retired .. => false

namespace World

variable {σ : Type}

/-- The deed of retiring a thread: there is none if it has died already. -/
def retirement? (w : World σ) (r : RegistryId) (t : ThreadId) : Option Deed :=
  match w.state? t, w.registries[r]? with
  | some s, some _ => if s.isTerminal then none else some (.retired r t)
  | _, _ => none

/-- The deed of changing a state: there is none if the change is refused. -/
def change? (w : World σ) (t : ThreadId) (next : State) : Option Deed :=
  match w.state? t with
  | none => none
  | some current =>
    if next.isTerminal || !current.canTransitionTo next then none else some (.moved t next)

/-- A thread that is retired exists, has not died, and is retired in a registry that exists. -/
theorem retirement?_eq_some {w : World σ} {r : RegistryId} {t : ThreadId} {d : Deed}
    (h : w.retirement? r t = some d) :
    d = .retired r t ∧ (∃ s, w.state? t = some s ∧ s ≠ .died) ∧
      ∃ reg, w.registries[r]? = some reg := by
  unfold retirement? at h
  split at h
  · rename_i s reg state_eq registry_eq
    split at h
    · cases h
    · rename_i alive
      rw [State.isTerminal_iff] at alive
      exact ⟨(Option.some.inj h).symm, ⟨s, state_eq, alive⟩, reg, registry_eq⟩
  · cases h

/-- A thread whose state changes has not died, and does not die by that. -/
theorem change?_eq_some {w : World σ} {t : ThreadId} {next : State} {d : Deed}
    (h : w.change? t next = some d) :
    d = .moved t next ∧ next ≠ .died ∧ ∃ s, w.state? t = some s ∧ s ≠ .died := by
  unfold change? at h
  split at h
  · cases h
  · rename_i current state_eq
    split at h
    · cases h
    · rename_i legal
      simp only [Bool.or_eq_true, State.isTerminal_iff, Bool.not_eq_true', not_or,
        Bool.not_eq_false, State.canTransitionTo_iff] at legal
      exact ⟨(Option.some.inj h).symm, legal.1, current, state_eq, legal.2.1⟩

/-- The deed of creating the thread that the host holds at a place. -/
def creation? (w : World σ) (slot : ThreadId) : Option Deed :=
  (w.held? slot).map (.created ·.id)

/-- The deed of serving a request. -/
def requestDeed? (w : World σ) : Request → Option Deed
  | .retire r t => w.retirement? r t
  | .transition _ t next => w.change? t next
  | .spawn slot _ => w.creation? slot
  | _ => none

/-- The deed of a task's next step. -/
def taskDeed? (I : Interpreter σ) (w : World σ) (task : Task σ) : Option Deed :=
  match task.mode with
  | .acting s _ =>
    match (I.act s task.thread).action with
    | .start .. => some (.started task.thread.id)
    | _ => none
  | _ => task.request?.bind w.requestDeed?

/-- The deed of a context's next step. -/
def stepDeed? (I : Interpreter σ) (w : World σ) : Ctx → Option Deed
  | .host =>
    match w.host with
    | .running _ task => w.taskDeed? I task
    | .idle | .waiting _ | .waited _ => none
  | .body t =>
    match w.strands[t]?.bind Strand.child with
    | some (.recording thread) => some (.enlisted thread.registry thread.id)
    | some (.reporting thread) => some (.started thread.id)
    | some (.running task) => w.taskDeed? I task
    | none | some (.idle _) | some (.ended _) => none
  | .creator _ => none

/-- The deed of an operation, if it does anything that concerns who is counted where. -/
def deed? (w : World σ) : Operation σ → Option Deed
  | .step I c => w.stepDeed? I c
  | .application _ args env =>
    if args.length = 1 then some (.built .application env.registry) else none
  | .main _ _ env => some (.built .main env.registry)
  | .start _ slot => (w.held? slot).map (.started ·.id)
  | .create slot _ => w.creation? slot
  | .add _ r t => some (.added r t)
  | .transition _ _ t next => w.change? t next
  | .installRegistry _ => if w.installed = none then some .installed else none
  | _ => none

/-- Runs: any operations in any order, with the deeds they do. -/
inductive Run (w : World σ) : List Deed → World σ → Prop
  | refl : Run w [] w
  | snoc {h : List Deed} {u v : World σ} (op : Operation σ) (run : Run w h u)
      (isPublic : op.IsPublic) (done : u.perform op = some v) : Run w (h ++ (u.deed? op).toList) v

/-- One run after another. -/
theorem Run.trans {w u v : World σ} {h₁ h₂ : List Deed} (first : Run w h₁ u)
    (second : Run u h₂ v) : Run w (h₁ ++ h₂) v := by
  induction second with
  | refl => simpa using first
  | snoc op _ isPublic done ih => simpa using ih.snoc op isPublic done

/-! ## Runs, carried out -/

/-- Carries out operations one after the other, with the deeds they do; `none` if one of them is not
possible then. -/
def performAll (w : World σ) : List (Operation σ) → Option (List Deed × World σ)
  | [] => some ([], w)
  | op :: ops =>
    match w.perform op with
    | none => none
    | some u => (u.performAll ops).map fun done => ((w.deed? op).toList ++ done.1, done.2)

/-- What was carried out is a run. -/
theorem run_of_performAll {w v : World σ} {h : List Deed} {ops : List (Operation σ)}
    (isPublic : ∀ op ∈ ops, op.IsPublic) (done : w.performAll ops = some (h, v)) : Run w h v := by
  induction ops generalizing w h with
  | nil =>
      cases done
      exact .refl
  | cons op ops ih =>
      unfold performAll at done
      split at done
      · cases done
      · rename_i u first
        obtain ⟨⟨h', v'⟩, rest, same⟩ := Option.map_eq_some_iff.mp done
        cases same
        have one : Run w (w.deed? op).toList u :=
          .snoc op .refl (isPublic op List.mem_cons_self) first
        exact one.trans (ih (fun op' member => isPublic op' (List.mem_cons_of_mem op member)) rest)

/-- What was carried out is a run, whatever one looks at in the end. -/
theorem exists_run_of_performAll {α : Type} {w : World σ} {ops : List (Operation σ)}
    {view : List Deed × World σ → α} {x : α} (isPublic : ∀ op ∈ ops, op.IsPublic)
    (done : (w.performAll ops).map view = some x) : ∃ h v, Run w h v ∧ view (h, v) = x := by
  obtain ⟨⟨h, v⟩, reached, seen⟩ := Option.map_eq_some_iff.mp done
  exact ⟨h, v, run_of_performAll isPublic reached, seen⟩

/-- A method that takes one value and returns at once. -/
def promptMethod : MethodRef := ⟨⟨"m", "()V", true, false, 1, 1, [], .void⟩, some 0⟩

/-- Runs that method. -/
def promptInterpreter : Interpreter Script.Activation :=
  Script.interpreter { methods := [promptMethod], codes := [[.give none]] }

theorem isPublic_promptInterpreter : promptInterpreter.IsPublic := Script.isPublic_interpreter _

end World

end ThreadEngine
