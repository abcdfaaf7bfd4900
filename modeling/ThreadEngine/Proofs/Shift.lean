import ThreadEngine.Proofs.Roster

set_option autoImplicit false

/-!
# Shifts of the roster

What an operation can do to the roster, said once and for all.  A launch state changes by itself, a
task goes on in its context, and a few operations take a thread from one place to another.
`shift_perform` says that there is nothing else; every invariant about where threads are is checked
against these cases and never against the operations themselves.
-/

namespace ThreadEngine

/-- Two states of one thread between which its body has used nothing. -/
structure Thread.SameBody (t t' : Thread) : Prop where
  pass_eq : t'.pass = t.pass
  method_eq : t'.method = t.method
  args_eq : t'.args = t.args

/-- The task that the host is at. -/
def Host.task? {σ : Type} : Host σ → Option (Task σ)
  | .running _ task => some task
  | .idle | .waiting _ | .waited _ => none

/-- The task that an execution context is at. -/
def Child.task? {σ : Type} : Child σ → Option (Task σ)
  | .running task => some task
  | .idle _ | .recording _ | .reporting _ | .ended _ => none

namespace Roster

variable {σ : Type}

/-- The task that a context is at. -/
def taskAt (ro : Roster σ) : Ctx → Option (Task σ)
  | .host => ro.host.task?
  | .body t => (ro.launches[t]?.bind LaunchState.child).bind Child.task?
  | .creator _ => none

/-- Puts a task back into its context, where a task that is over is not kept, except by the host. -/
def put (ro : Roster σ) (c : Ctx) (task : Task σ) : Roster σ :=
  match c with
  | .host =>
    match ro.host with
    | .running slot _ => { ro with host := .running slot task }
    | .idle | .waiting _ | .waited _ => ro
  | .body t => ro.modify t ({ · with child := some (Child.ofTask task) })
  | .creator _ => ro

/-- An execution context is at a task while it runs one. -/
theorem launch_of_taskAt {ro : Roster σ} {t : ThreadId} {task : Task σ}
    (task_eq : ro.taskAt (.body t) = some task) :
    ∃ s, ro.launches[t]? = some s ∧ s.child = some (.running task) := by
  rw [taskAt, Option.bind_eq_some_iff] at task_eq
  obtain ⟨child, child_eq, running⟩ := task_eq
  obtain ⟨s, launch_eq, child_eq⟩ := Option.bind_eq_some_iff.mp child_eq
  cases child with
  | running old =>
      cases running
      exact ⟨s, launch_eq, child_eq⟩
  | idle _ | recording _ | reporting _ | ended _ => cases running

theorem modify_eq_of_launch {ro : Roster σ} {t : ThreadId} {s : LaunchState σ}
    (f : LaunchState σ → LaunchState σ)
    (launch_eq : ro.launches[t]? = some s) : ro.modify t f = ro.modify t fun _ => f s := by
  have same : ro.launches.modify t f = ro.launches.modify t fun _ => f s := by
    apply List.ext_getElem?
    intro j
    by_cases at_t : t = j
    · subst at_t
      simp [launch_eq]
    · simp [at_t]
  rw [modify, modify, same]

theorem modify_eq_self {ro : Roster σ} {t : ThreadId} (f : LaunchState σ → LaunchState σ)
    (launch_eq : ro.launches[t]? = none) : ro.modify t f = ro := by
  have short : ro.launches.length ≤ t := List.getElem?_eq_none_iff.mp launch_eq
  rw [modify, List.modify_eq_self short]

theorem modify_modify (ro : Roster σ) (t : ThreadId) (f g : LaunchState σ → LaunchState σ) :
    (ro.modify t f).modify t g = ro.modify t (g ∘ f) := by
  have same : (ro.launches.modify t f).modify t g = ro.launches.modify t (g ∘ f) := by
    apply List.ext_getElem?
    intro j
    by_cases at_t : t = j
    · subst at_t
      simp
    · simp [at_t]
  simp only [modify, same]

/-- Tasks do not show what is done to the threads that nobody works on. -/
theorem taskAt_modify (ro : Roster σ) (c : Ctx) (t : ThreadId) {f : LaunchState σ → LaunchState σ}
    (same : ∀ s, (f s).child = s.child) : (ro.modify t f).taskAt c = ro.taskAt c := by
  cases c with
  | host => rfl
  | creator u => rfl
  | body u =>
      have child_eq : (ro.modify t f).launches[u]?.bind LaunchState.child =
          ro.launches[u]?.bind LaunchState.child := by
        by_cases at_t : t = u
        · subst at_t
          cases launch_eq : ro.launches[t]? with
          | none => simp [modify, launch_eq]
          | some s => simp [modify, launch_eq, same]
        · simp [modify, at_t]
      rw [taskAt, taskAt, child_eq]

@[simp] theorem taskAt_modify_held (ro : Roster σ) (c : Ctx) (t : ThreadId)
    (held : Option Thread) : (ro.modify t ({ · with held := held })).taskAt c = ro.taskAt c :=
  taskAt_modify ro c t fun _ => rfl

@[simp] theorem taskAt_create (ro : Roster σ) (c : Ctx) (slot : ThreadId) (thread : Thread)
    (object : Value) : (ro.create slot thread object).taskAt c = ro.taskAt c := by
  rw [create, taskAt_modify, taskAt_modify_held]
  exact fun _ => rfl

end Roster

/-! ## The cases -/

/-- What can happen at one strand: to the thread that is held there, and in the launch of the thread
whose strand it is, up to the start of its body. -/
inductive LaunchState.Step {σ : Type} (s : LaunchState σ) : Option Deed → LaunchState σ → Prop
  | dropped : Step s none { s with held := none }
  | edited {thread thread' : Thread} (held_eq : s.held = some thread)
      (same : thread.SameBody thread') : Step s none { s with held := some thread' }
  | bound {thread : Thread} {object : Value}
      (creation_eq : s.creation = some (.binding thread object)) :
      Step s none { s with creation := some (.spawning thread) }
  | spawned {thread : Thread} (creation_eq : s.creation = some (.spawning thread)) :
      Step s none { s with creation := some .attaching, child := some (.idle thread) }
  | attached (creation_eq : s.creation = some .attaching) :
      Step s none { s with creation := some .launching }
  | told (creation_eq : s.creation = some .launching) :
      Step s none { s with launchSent := true, creation := some .awaitingReady }
  | heard (creation_eq : s.creation = some .awaitingReady) (ready : s.readySent = true) :
      Step s none { s with creation := some .hooking }
  | hooked {c : Creation} (creation_eq : s.creation = some .hooking)
      (next : c = .joining ∨ c = .done none) : Step s none { s with creation := some c }
  | joined {a : Option Abort} {fault : Option Error} (creation_eq : s.creation = some .joining)
      (child_eq : s.child = some (.ended a)) :
      Step s none { s with creation := some (.done fault) }
  /-- the thread object is bound already -/
  | refused {thread : Thread} {object : Value} {a : Abort}
      (creation_eq : s.creation = some (.binding thread object)) :
      Step s none { s with creation := some (.aborted a) }
  /-- the execution context is gone before it has reported -/
  | abandoned {a : Option Abort} {fault : Option Error}
      (creation_eq : s.creation = some .launching ∨
        s.creation = some .awaitingReady ∧ s.readySent = false)
      (child_eq : s.child = some (.ended a)) :
      Step s none { s with creation := some (.done fault) }
  /-- the creator is gone before it has given the word to go -/
  | deserted {thread : Thread} (child_eq : s.child = some (.idle thread))
      (silent : s.launchSent = false) (gone : s.creation.any Creation.isOver = true) :
      Step s none { s with child := some (.ended none) }
  | woken {thread : Thread} (child_eq : s.child = some (.idle thread))
      (sent : s.launchSent = true) :
      Step s none { s with child := some (if thread.kind.isRecorded then .recording thread
        else .reporting thread) }
  | enlisted {thread : Thread} (child_eq : s.child = some (.recording thread)) :
      Step s (some (.enlisted thread.registry thread.id))
        { s with child := some (.reporting thread) }

namespace World

variable {σ : Type}

/-- What can happen to a task in its context: what is done, the roster without what becomes of the
task, and the task afterwards. -/
inductive TaskStep (u : World σ) (c : Ctx) (task : Task σ) :
    Option Deed → Roster σ → Task σ → Prop
  | advanced {I : Interpreter σ} {task' : Task σ} {notes : List Note} (isPublic : I.IsPublic)
      (advances : task.advance I = some (task', notes)) :
      TaskStep u c task (u.taskDeed? I task) u.roster task'
  | answered {I : Interpreter σ} {r : Request} {a : Answer} {w : World σ}
      (asks : task.request? = some r) (served : u.serve c r = .answered a w)
      (keeps : ∀ thread, Task.threadAfter thread a = thread)
      (stays : ∀ d ∈ u.requestDeed? r, d.relocates = false) :
      TaskStep u c task (u.requestDeed? r) u.roster (task.answer I a).1
  | replaced {I : Interpreter σ} {slot : ThreadId} (asks : task.request? = some (.replace slot)) :
      TaskStep u c task none (u.roster.modify slot ({ · with held := none }))
        (task.answer I (.replaced (u.held? slot))).1
  | deferred {r' : Request} (isPublic : r'.isPublic = true) :
      TaskStep u c task none u.roster (task.reask r')
  | launches {slot : ThreadId} {object : Value} {thread : Thread}
      (held_eq : u.held? slot = some thread) :
      TaskStep u c task (some (.created thread.id)) (u.roster.create slot thread object)
        (task.reask (.reportLaunch thread.id))

/-- What a step of a task does besides leaves all tasks alone. -/
theorem TaskStep.taskAt_eq {u : World σ} {c c' : Ctx} {task task' : Task σ} {d : Option Deed}
    {ro : Roster σ} (step : u.TaskStep c task d ro task') :
    ro.taskAt c' = u.roster.taskAt c' := by
  cases step with
  | advanced _ _ | answered _ _ _ _ | deferred _ => rfl
  | replaced _ => exact Roster.taskAt_modify_held u.roster c' _ none
  | launches _ => exact Roster.taskAt_create u.roster c' _ _ _

/-- What an operation can do to the roster: who does it, what is done, and the roster afterwards. -/
inductive Shift (u : World σ) : Ctx → Option Deed → Roster σ → Prop
  | rest {who : Ctx} {d : Option Deed} (stays : ∀ e ∈ d, e.relocates = false)
      (retires : ∀ r t, d ≠ some (.retired r t)) (admits : ∀ e ∈ d, u.ledger.Admits e) :
      Shift u who d u.roster
  | built {who : Ctx} {kind : Kind} {home : RegistryId} {thread : Thread}
      (pass_eq : thread.pass = ⟨u.strands.length, kind, home⟩)
      (home_lt : home < u.registries.length) :
      Shift u who (some (.built kind home))
        { u.roster with launches := u.roster.launches ++ [⟨some thread, none, false, false, none⟩] }
  | launchStep {who : Ctx} {t : ThreadId} {s s' : LaunchState σ} {d : Option Deed}
      (launch_eq : u.roster.launches[t]? = some s) (step : s.Step d s') :
      Shift u who d (u.roster.modify t fun _ => s')
  | begun {I : Interpreter σ} {t : ThreadId} {s : LaunchState σ} {thread : Thread}
      (launch_eq : u.roster.launches[t]? = some s) (child_eq : s.child = some (.reporting thread)) :
      Shift u (.body t) (some (.started thread.id))
        (u.roster.modify t fun _ =>
          { s with readySent := true, child := some (.running (Task.start I thread []).1) })
  | waits {host' : Host σ} (before : u.host.task? = none) (after : host'.task? = none) :
      Shift u .host none { u.roster with host := host' }
  | called {I : Interpreter σ} {slot : ThreadId} {thread : Thread} {m : MethodRef}
      {args : List Value} (idle : u.host = .idle) (held_eq : u.held? slot = some thread) :
      Shift u .host none
        { u.roster.modify slot ({ · with held := none }) with
          host := .running slot (Task.call I thread [] m args).1 }
  | started {I : Interpreter σ} {slot : ThreadId} {thread : Thread} (idle : u.host = .idle)
      (held_eq : u.held? slot = some thread) :
      Shift u .host (some (.started thread.id))
        { u.roster.modify slot ({ · with held := none }) with
          host := .running slot (Task.start I thread []).1 }
  | takenBack {slot : ThreadId} {task : Task σ} {c : Completion}
      (host_eq : u.host = .running slot task) (finished : task.completion? = some c) :
      Shift u .host none
        { u.roster.modify slot ({ · with held := some task.thread }) with host := .idle }
  | created {slot : ThreadId} {thread : Thread} {object : Value}
      (held_eq : u.held? slot = some thread) :
      Shift u .host (some (.created thread.id)) (u.roster.create slot thread object)
  | stepped {c : Ctx} {task task' : Task σ} {d : Option Deed} {ro : Roster σ}
      (task_eq : u.roster.taskAt c = some task) (step : u.TaskStep c task d ro task') :
      Shift u c d (ro.put c task')

/-! ## There are no others -/

theorem held?_eq (w : World σ) (slot : ThreadId) :
    w.held? slot = w.roster.launches[slot]?.bind LaunchState.held := by
  rw [held?, launches_getElem?]
  cases w.strands[slot]? <;> rfl

theorem Shift.ofLaunch {u : World σ} {who : Ctx} {t : ThreadId} {s : LaunchState σ}
    {d : Option Deed}
    {f : LaunchState σ → LaunchState σ} (launch_eq : u.roster.launches[t]? = some s)
    (step : s.Step d (f s)) :
    Shift u who d (u.roster.modify t f) := by
  have same : u.roster.modify t f = u.roster.modify t fun _ => f s :=
    Roster.modify_eq_of_launch f launch_eq
  rw [same]
  exact .launchStep launch_eq step

/-- Nothing happens. -/
theorem Shift.nothing (u : World σ) (who : Ctx) : Shift u who none u.roster :=
  .rest (fun _ none_eq => nomatch none_eq) (fun _ _ none_eq => nomatch none_eq)
    fun _ none_eq => nomatch none_eq

/-- A step of a task shifts the roster, whatever its context does to keep it. -/
theorem shift_stepTask {I : Interpreter σ} (isPublic : I.IsPublic) {u v : World σ} {c : Ctx}
    {task : Task σ} {store : World σ → Task σ → World σ} (task_eq : u.roster.taskAt c = some task)
    (stores : ∀ w task', w.roster.host = u.host → (store w task').roster = w.roster.put c task')
    (h : u.stepTask I c task store = some v) : Shift u c (u.taskDeed? I task) v.roster := by
  obtain ⟨r, a, w, asks, served, rfl⟩ | ⟨r, r', w, asks, served, rfl⟩ |
    ⟨task', notes, asks, advances, rfl⟩ := stepTask_cases h
  · rw [taskDeed?_of_request u asks, roster_note]
    obtain ⟨slot, rfl, rfl, roster_eq⟩ | ⟨keeps, stays, roster_eq⟩ := roster_of_answered served
    · rw [stores w _ (congrArg Roster.host roster_eq), roster_eq]
      exact .stepped task_eq (.replaced asks)
    · rw [stores w _ (congrArg Roster.host roster_eq), roster_eq]
      exact .stepped task_eq (.answered asks served keeps stays)
  · rw [taskDeed?_of_request u asks]
    obtain ⟨slot, object, thread, rfl, held_eq, rfl, roster_eq⟩ | ⟨isPublic', deed_eq, roster_eq⟩ :=
      roster_of_deferred served
    · have deed_eq : u.requestDeed? (.spawn slot object) = some (.created thread.id) := by
        rw [requestDeed?, creation?, held_eq]
        rfl
      rw [stores w _ (congrArg Roster.host roster_eq), roster_eq, deed_eq]
      exact .stepped task_eq (.launches held_eq)
    · rw [stores w _ (congrArg Roster.host roster_eq), roster_eq, deed_eq]
      exact .stepped task_eq (.deferred isPublic')
  · rw [roster_note, stores u _ rfl]
    exact .stepped task_eq (.advanced isPublic advances)

theorem shift_stepHost {I : Interpreter σ} (isPublic : I.IsPublic) {u v : World σ}
    (h : u.stepHost I = some v) : Shift u .host (u.stepDeed? I .host) v.roster := by
  obtain ⟨slot, task, host_eq, step⟩ | ⟨r, w, host_eq, served, done⟩ := stepHost_cases h
  · simp only [stepDeed?, host_eq]
    refine shift_stepTask isPublic (by simp [Roster.taskAt, roster, host_eq, Host.task?]) ?_ step
    intro w task' same
    rw [host_eq] at same
    simp only [Roster.put, same]
    rfl
  · have same := roster_serveAwait served
    simp only [stepDeed?, host_eq]
    rcases done with rfl | rfl
    · rw [same]
      exact .nothing u .host
    · have roster_eq : ({ w with host := .waited true } : World σ).roster =
          { u.roster with host := .waited true } := by rw [← same]; rfl
      rw [roster_eq]
      exact .waits (by rw [host_eq]; rfl) rfl

theorem shift_stepBody {I : Interpreter σ} (isPublic : I.IsPublic) {u v : World σ} {t : ThreadId}
    (h : u.stepBody I t = some v) : Shift u (.body t) (u.stepDeed? I (.body t)) v.roster := by
  obtain ⟨s, strand_eq, cases⟩ := stepBody_cases h
  have launch_eq : u.roster.launches[t]? = some s.launchState := by
    rw [launches_getElem?, strand_eq]
    rfl
  simp only [stepDeed?, strand_eq, Option.bind_some]
  obtain ⟨thread, child_eq, sent, rfl⟩ | ⟨thread, child_eq, silent, gone, rfl⟩ |
    ⟨thread, child_eq, rfl⟩ | ⟨thread, child_eq, rfl⟩ | ⟨task, child_eq, step⟩ := cases
  · rw [child_eq, roster_storeChild]
    exact .ofLaunch launch_eq (.woken child_eq sent)
  · rw [child_eq, roster_storeChild]
    exact .ofLaunch launch_eq (.deserted child_eq silent gone)
  · rw [child_eq, roster_storeChild, roster_add, roster_note]
    exact .ofLaunch launch_eq (.enlisted child_eq)
  · rw [child_eq, roster_note, roster_storeChild, roster_sendReady, Roster.modify_modify,
      Roster.modify_eq_of_launch _ launch_eq]
    exact .begun (s := s.launchState) launch_eq child_eq
  · simp only [child_eq]
    refine shift_stepTask isPublic ?_ ?_ step
    · simp [Roster.taskAt, launch_eq, Strand.launchState, child_eq, Child.task?]
    · intro w task' _
      exact roster_storeChild t w _

theorem shift_stepCreator {u v : World σ} {t : ThreadId} (h : u.stepCreator t = some v) :
    Shift u (.creator t) none v.roster := by
  obtain ⟨s, strand_eq, cases⟩ := stepCreator_cases h
  have launch_eq : u.roster.launches[t]? = some s.launchState := by
    rw [launches_getElem?, strand_eq]
    rfl
  obtain ⟨thread, object, creation_eq, _, rfl⟩ | ⟨thread, creation_eq, rfl⟩ | ⟨creation_eq, rfl⟩ |
    ⟨creation_eq, rfl⟩ | ⟨creation_eq, ready, rfl⟩ | ⟨creation_eq, rfl⟩ |
    ⟨a, creation_eq, child_eq, rfl⟩ | ⟨thread, object, _, creation_eq, _, rfl⟩ |
    ⟨a, creation_eq, child_eq, rfl⟩ := cases
  · rw [roster_setCreation, roster_modifyHandle]
    exact .ofLaunch launch_eq (.bound creation_eq)
  · rw [roster_setCreation, roster_storeChild, Roster.modify_modify]
    exact .ofLaunch launch_eq (.spawned creation_eq)
  · rw [roster_setCreation, roster_modifyHandle]
    exact .ofLaunch launch_eq (.attached creation_eq)
  · rw [roster_setCreation, roster_sendLaunch, Roster.modify_modify]
    exact .ofLaunch launch_eq (.told creation_eq)
  · rw [roster_note, roster_setCreation]
    exact .ofLaunch launch_eq (.heard creation_eq ready)
  · obtain ⟨c, next, roster_eq⟩ := roster_hook u t s.handle
    rw [roster_eq]
    exact .ofLaunch launch_eq (.hooked creation_eq next)
  · rw [roster_setCreation]
    exact .ofLaunch launch_eq (.joined creation_eq child_eq)
  · rw [roster_note, roster_setCreation]
    exact .ofLaunch launch_eq (.refused creation_eq)
  · rw [roster_setCreation]
    exact .ofLaunch launch_eq (.abandoned creation_eq child_eq)

theorem roster_modifyHeld {w : World σ} {slot : ThreadId} {f : Thread → Thread}
    (who : Ctx) (keeps : ∀ thread : Thread, thread.SameBody (f thread)) :
    Shift w who none (w.modifyHeld slot f).roster := by
  unfold modifyHeld
  cases held_eq : w.held? slot with
  | none => exact .nothing w who
  | some thread =>
      rw [held?_eq, Option.bind_eq_some_iff] at held_eq
      obtain ⟨s, launch_eq, held_eq⟩ := held_eq
      dsimp only
      rw [roster_putHeld]
      exact .ofLaunch launch_eq (.edited held_eq (keeps thread))

end World

/-- Who carries out an operation. -/
def Operation.performer {σ : Type} : Operation σ → Ctx
  | .step _ c => c
  | _ => .host

namespace World

variable {σ : Type}

/-- Every operation shifts the roster in one of these ways. -/
theorem shift_perform {u v : World σ} {op : Operation σ} (isPublic : op.IsPublic)
    (h : u.perform op = some v) : Shift u op.performer (u.deed? op) v.roster := by
  cases op with
  | step I c =>
      cases c with
      | host => exact shift_stepHost isPublic h
      | body t => exact shift_stepBody isPublic h
      | creator t => exact shift_stepCreator h
  | expire =>
      simp only [perform] at h
      split at h <;> cases h
      rename_i r host_eq
      simp only [expire, host_eq]
      exact .waits (by rw [host_eq]; rfl) rfl
  | application m args env =>
      simp only [perform] at h
      split at h <;> cases h
      rename_i home_lt
      simp only [buildApplication, deed?]
      split
      · obtain ⟨thread, pass_eq, roster_eq⟩ := roster_build u .application m args env
        rw [roster_eq]
        exact .built pass_eq home_lt
      · exact .nothing u _
  | main m args env =>
      simp only [perform] at h
      split at h <;> cases h
      rename_i home_lt
      obtain ⟨thread, pass_eq, roster_eq⟩ := roster_build u .main m args env
      rw [roster_eq]
      exact .built pass_eq home_lt
  | drop slot =>
      cases h
      rw [roster_takeHeld]
      cases launch_eq : u.roster.launches[slot]? with
      | none =>
          rw [Roster.modify_eq_self _ launch_eq]
          exact .nothing u _
      | some s => exact .ofLaunch launch_eq .dropped
  | setPc slot pc =>
      cases h
      exact roster_modifyHeld _ fun _ => ⟨rfl, rfl, rfl⟩
  | editFrame slot op =>
      cases h
      exact roster_modifyHeld _ fun _ => ⟨rfl, rfl, rfl⟩
  | call I slot m args =>
      simp only [perform] at h
      split at h <;> cases h
      rename_i idle
      unfold hostCall
      cases held_eq : u.held? slot with
      | none => exact .nothing u _
      | some thread =>
          dsimp only
          rw [roster_engage]
          exact .called idle held_eq
  | start I slot =>
      simp only [perform] at h
      split at h <;> cases h
      rename_i idle
      simp only [hostStart, deed?]
      cases held_eq : u.held? slot with
      | none => exact .nothing u _
      | some thread =>
          dsimp only
          rw [roster_engage]
          exact .started idle held_eq
  | takeBack =>
      simp only [perform] at h
      split at h <;> cases h
      rename_i thread c engaged_eq
      unfold engaged? at engaged_eq
      split at engaged_eq
      · rename_i slot task host_eq
        have finished : task.completion? = some c := congrArg Prod.snd (Option.some.inj engaged_eq)
        rw [roster_disengage host_eq]
        exact .takenBack host_eq finished
      all_goals cases engaged_eq
  | create slot object =>
      cases h
      simp only [deed?, creation?, createHeld]
      cases held_eq : u.held? slot with
      | none => exact .nothing u _
      | some thread =>
          dsimp only
          rw [roster_create]
          exact .created held_eq
  | add c r t =>
      simp only [perform] at h
      split at h <;> cases h
      rename_i known
      rw [roster_add]
      refine .rest (by simp [deed?, Deed.relocates]) (by simp [deed?]) fun d did => ?_
      cases did
      simpa [Ledger.Admits, ledger] using known
  | transition c r t next =>
      cases h
      rw [roster_transition]
      refine .rest (fun d did => ?_) (fun r' t' did => ?_) (fun d did => ?_)
      · obtain ⟨rfl, _⟩ := change?_eq_some did
        rfl
      · cases (change?_eq_some did).1
      · obtain ⟨rfl, lives, alive⟩ := change?_eq_some did
        rw [← ledger_state?] at alive
        exact ⟨lives, alive⟩
  | unpark t =>
      cases h
      rw [roster_unpark]
      exact .nothing u _
  | beginWait r =>
      simp only [perform] at h
      split at h <;> cases h
      rename_i idle
      exact .waits (by rw [idle]; rfl) rfl
  | endWait =>
      simp only [perform] at h
      split at h <;> cases h
      rename_i host_eq
      exact .waits (by rw [host_eq]; rfl) rfl
  | installRegistry c =>
      cases h
      rw [roster_installRegistry]
      refine .rest ?_ ?_ ?_
      · simp only [deed?]
        split <;> simp [Deed.relocates]
      · simp only [deed?]
        split <;> simp
      · simp only [deed?]
        split <;> simp [Ledger.Admits]
  | removeRegistry c =>
      cases h
      rw [roster_removeRegistry]
      exact .nothing u _
  | installConfig config =>
      cases h
      exact .nothing u _
  | readConfig =>
      cases h
      exact .nothing u _

/-! ## Steps of contexts that are at a task -/

/-- The next step of a context that is at a task is the next step of the task, which goes back to
where it was. -/
theorem step_of_taskAt (I : Interpreter σ) {u : World σ} {c : Ctx} {task : Task σ}
    (task_eq : u.roster.taskAt c = some task) :
    ∃ store : World σ → Task σ → World σ, u.step I c = u.stepTask I c task store ∧
      ((∃ slot, c = .host ∧ u.host = .running slot task ∧
          store = fun w task' => { w with host := .running slot task' }) ∨
        ∃ t, c = .body t ∧ store = fun w task' => storeChild t w (Child.ofTask task')) := by
  cases c with
  | host =>
      cases host_eq : u.host with
      | running slot task' =>
          have same : task' = task := by
            simpa [Roster.taskAt, roster, host_eq, Host.task?] using task_eq
          subst same
          refine ⟨_, ?_, .inl ⟨slot, rfl, rfl, rfl⟩⟩
          simp only [step, stepHost, host_eq]
      | idle | waiting r | waited b => simp [Roster.taskAt, roster, host_eq, Host.task?] at task_eq
  | body t =>
      obtain ⟨launch, launch_eq, running⟩ := Roster.launch_of_taskAt task_eq
      obtain ⟨s, strand_eq, rfl⟩ : ∃ s, u.strands[t]? = some s ∧ s.launchState = launch := by
        rwa [launches_getElem?, Option.map_eq_some_iff] at launch_eq
      have child_eq : s.child = some (.running task) := running
      refine ⟨_, ?_, .inr ⟨t, rfl, rfl⟩⟩
      simp only [step, stepBody, strand_eq, child_eq]
  | creator t => cases task_eq

/-- If the task asks for something, the step has it served.  Whatever one looks at, apart from the
journal, what the host is doing and what execution contexts are doing, is as the service leaves
it. -/
theorem served_of_step {α : Type} {I : Interpreter σ} {u v : World σ} {c : Ctx} {task : Task σ}
    {r : Request} (view : World σ → α) (notes : ∀ w c ns, view (w.note c ns) = view w)
    (hosts : ∀ (w : World σ) host, view { w with host := host } = view w)
    (children : ∀ t w child, view (storeChild t w child) = view w)
    (task_eq : u.roster.taskAt c = some task) (asks : task.request? = some r)
    (done : u.step I c = some v) : ∃ w, (u.serve c r).world? = some w ∧ view v = view w := by
  obtain ⟨store, step_eq, kept⟩ := step_of_taskAt I task_eq
  have stores (w : World σ) (task' : Task σ) : view (store w task') = view w := by
    obtain ⟨slot, _, _, rfl⟩ | ⟨t, _, rfl⟩ := kept
    · exact hosts w _
    · exact children t w _
  obtain ⟨r', a, w, asks', served, rfl⟩ | ⟨r', _, w, asks', served, rfl⟩ | ⟨_, _, asks', _, _⟩ :=
    stepTask_cases (step_eq.symm.trans done)
  · cases asks.symm.trans asks'
    exact ⟨w, congrArg Served.world? served, by rw [notes, stores]⟩
  · cases asks.symm.trans asks'
    exact ⟨w, congrArg Served.world? served, stores _ _⟩
  · cases asks.symm.trans asks'

end World

end ThreadEngine
