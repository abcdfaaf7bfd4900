import ThreadEngine.Proofs.Joining
import ThreadEngine.Proofs.Interleaving

set_option autoImplicit false

/-!
# Calls of bodies

The body of an application thread calls its method once it has given up its join handle and has
passed its checks (`Task.bodyCall?`), and it uses up the arguments of its thread by that.  Nothing
else touches the arguments: wherever a thread goes, it takes them along (`threads_perform`).
-/

namespace ThreadEngine

variable {σ : Type}

/-! ## Where threads are -/

/-- The thread that a creator has. -/
def Creation.thread? : Creation → Option Thread
  | .binding thread _ | .spawning thread => some thread
  | .attaching | .launching | .awaitingReady | .hooking | .joining | .done _ | .aborted _ => none

/-- The thread that an execution context has. -/
def Child.thread? : Child σ → Option Thread
  | .idle thread | .recording thread | .reporting thread => some thread
  | .running task => some task.thread
  | .ended _ => none

/-- The thread at a strand. -/
def LaunchState.thread? (s : LaunchState σ) : Role → Option Thread
  | .held => s.held
  | .creator => s.creation.bind Creation.thread?
  | .body => s.child.bind Child.thread?

namespace Roster

variable {ro : Roster σ} {place : Place} {thread : Thread}

/-- The thread at a place. -/
def threadAt (ro : Roster σ) : Place → Option Thread
  | .host => ro.host.task?.map Task.thread
  | .strand t role => ro.launches[t]?.bind (·.thread? role)

theorem threadAt_strand {t : ThreadId} {s : LaunchState σ} (launch_eq : ro.launches[t]? = some s)
    (role : Role) :
    ro.threadAt (.strand t role) = s.thread? role := by
  simp [threadAt, launch_eq]

theorem threadAt_of_taskAt {c : Ctx} {task : Task σ} (task_eq : ro.taskAt c = some task) :
    ro.threadAt c.place = some task.thread := by
  cases c with
  | host =>
      have host_eq : ro.host.task? = some task := task_eq
      simp [threadAt, Ctx.place, host_eq]
  | creator t => cases task_eq
  | body t =>
      obtain ⟨s, launch_eq, child_eq⟩ := launch_of_taskAt task_eq
      rw [Ctx.place, threadAt_strand launch_eq, LaunchState.thread?, child_eq]
      rfl

/-- Whoever has a thread has its pass. -/
theorem mem_passesAt_of_threadAt (found : ro.threadAt place = some thread) :
    thread.pass ∈ ro.passesAt place := by
  cases place with
  | host =>
      obtain ⟨task, task_eq, rfl⟩ := Option.map_eq_some_iff.mp found
      simp [passesAt, task_eq, Task.mem_passes]
  | strand t role =>
      obtain ⟨s, launch_eq, found⟩ := Option.bind_eq_some_iff.mp found
      rw [passesAt_strand launch_eq]
      cases role with
      | held =>
          have held_eq : s.held = some thread := found
          simp [LaunchState.passes, held_eq]
      | creator =>
          obtain ⟨creation, creation_eq, found⟩ := Option.bind_eq_some_iff.mp found
          cases creation with
          | binding _ _ | spawning _ =>
              cases found
              simp [LaunchState.passes, creation_eq, Creation.passes]
          | _ => cases found
      | body =>
          obtain ⟨child, child_eq, found⟩ := Option.bind_eq_some_iff.mp found
          cases child with
          | idle _ | recording _ | reporting _ =>
              cases found
              simp [LaunchState.passes, child_eq, Child.passes]
          | running task =>
              cases found
              simp [LaunchState.passes, child_eq, Child.passes, Task.mem_passes]
          | ended a => cases found

/-- A change of one launch state changes only what is there. -/
theorem threadAt_modify {t : ThreadId} {f : LaunchState σ → LaunchState σ}
    (found : (ro.modify t f).threadAt place = some thread) :
    (∃ s role, place = .strand t role ∧ ro.launches[t]? = some s ∧
        (f s).thread? role = some thread) ∨
      ro.threadAt place = some thread := by
  cases place with
  | host => exact .inr found
  | strand j role =>
      obtain ⟨s', launch_eq', found'⟩ := Option.bind_eq_some_iff.mp found
      obtain ⟨s, rfl, launch_eq, rfl⟩ | ⟨_, launch_eq⟩ := launch_of_modify launch_eq'
      · exact .inl ⟨s, role, rfl, launch_eq, found'⟩
      · right
        rw [threadAt_strand launch_eq]
        exact found'

/-- Taking a held thread away, or putting one there, changes nothing else. -/
theorem threadAt_modify_held {t : ThreadId} {held : Option Thread}
    (found : (ro.modify t ({ · with held := held })).threadAt place = some thread) :
    held = some thread ∨ ro.threadAt place = some thread := by
  obtain ⟨s, role, rfl, launch_eq, found⟩ | other := threadAt_modify found
  · cases role with
    | held => exact .inl found
    | creator | body =>
        right
        rw [threadAt_strand launch_eq]
        exact found
  · exact .inr other

theorem threadAt_takeHeld {t : ThreadId}
    (found : (ro.modify t ({ · with held := none })).threadAt place = some thread) :
    ro.threadAt place = some thread :=
  (threadAt_modify_held found).resolve_left nofun

theorem threadAt_create {slot : ThreadId} {launched : Thread} {object : Value}
    (found : (ro.create slot launched object).threadAt place = some thread) :
    launched = thread ∨ ro.threadAt place = some thread := by
  obtain ⟨s, role, rfl, launch_eq, found⟩ | other := threadAt_modify found
  · cases role with
    | creator =>
        left
        simpa [LaunchState.thread?, Creation.thread?] using found
    | held | body =>
        right
        apply threadAt_takeHeld (t := slot)
        rw [threadAt_strand launch_eq]
        exact found
  · exact .inr (threadAt_takeHeld other)

/-- A task that is put back changes only what its context has. -/
theorem threadAt_put {c : Ctx} {task task' : Task σ} (task_eq : ro.taskAt c = some task)
    (found : (ro.put c task').threadAt place = some thread) :
    place = c.place ∧ thread = task'.thread ∨ ro.threadAt place = some thread := by
  cases c with
  | creator t => cases task_eq
  | host =>
      cases host_eq : ro.host with
      | idle | waiting r | waited b =>
          simp only [taskAt, host_eq, Host.task?] at task_eq
          cases task_eq
      | running slot old =>
          simp only [put, host_eq] at found
          cases place with
          | host => exact .inl ⟨rfl, (Option.some.inj found).symm⟩
          | strand t role => exact .inr found
  | body t =>
      obtain ⟨s, role, rfl, launch_eq, found⟩ | other := threadAt_modify found
      · cases role with
        | body =>
            left
            refine ⟨rfl, ?_⟩
            simp only [LaunchState.thread?, Option.bind_some, Child.ofTask] at found
            split at found
            · exact (Option.some.inj found).symm
            · cases found
            · cases found
            · cases found
        | held | creator =>
            right
            rw [threadAt_strand launch_eq]
            exact found
      · exact .inr other

/-- Some thread has become another by nothing that its body does. -/
def Stems (ro : Roster σ) (thread' : Thread) : Prop :=
  ∃ place thread, ro.threadAt place = some thread ∧ thread.SameBody thread'

end Roster

/-! ## What steps do to a thread -/

namespace Thread.SameBody

theorem refl (t : Thread) : t.SameBody t := ⟨rfl, rfl, rfl⟩

theorem trans {t t' t'' : Thread} (first : t.SameBody t') (second : t'.SameBody t'') :
    t.SameBody t'' :=
  ⟨second.pass_eq.trans first.pass_eq, second.method_eq.trans first.method_eq,
    second.args_eq.trans first.args_eq⟩

theorem revise (t : Thread) (pc : Nat) (frame : Option Frame) : t.SameBody (t.revise pc frame) :=
  ⟨rfl, rfl, rfl⟩

theorem id_eq {t t' : Thread} (same : t.SameBody t') : t'.id = t.id :=
  congrArg Pass.thread same.pass_eq

theorem kind_eq {t t' : Thread} (same : t.SameBody t') : t'.kind = t.kind :=
  congrArg Pass.kind same.pass_eq

end Thread.SameBody

namespace Task

theorem sameBody_call (I : Interpreter σ) (thread : Thread) (layers : List (Layer σ))
    (m : MethodRef) (args : List Value) :
    thread.SameBody (call I thread layers m args).1.thread := by
  rw [call_fst]
  cases entry_eq : (thread.enter m args).2 with
  | refused e | aborted a => exact .refl thread
  | entered thread' =>
      obtain ⟨_, _, rfl⟩ := Thread.enter_entered entry_eq
      exact ⟨rfl, rfl, rfl⟩

/-- The start of an application thread leaves the arguments for later. -/
theorem start_of_application (I : Interpreter σ) {thread : Thread} (layers : List (Layer σ))
    (application : thread.kind = .application) :
    (start I thread layers).1 = ⟨thread, layers, .detaching (guardOf thread)⟩ := by
  have kind_eq : (guardOf thread).kind = .application := application
  simp only [start, kind_eq]

theorem sameBody_turn (I : Interpreter σ) {task : Task σ} (s : σ) (depth : Nat)
    (application : task.thread.kind = .application) :
    task.thread.SameBody (task.turn I s depth).1.thread := by
  have revised := Thread.SameBody.revise task.thread (I.act s task.thread).pc
    (I.act s task.thread).frame
  rw [turn_fst]
  cases (I.act s task.thread).action with
  | proceed s' | ask s' r | abort a => exact revised
  | call s' m args catches => exact revised.trans (sameBody_call I _ _ m args)
  | start s' catches =>
      dsimp only
      rw [start_of_application I _ (revised.kind_eq.trans application)]
      exact revised
  | finish r =>
      dsimp only
      split
      · rename_i thread' left
        obtain ⟨_, _, _, _, rfl⟩ := Thread.leave_eq_some left
        exact revised.trans ⟨rfl, rfl, rfl⟩
      · exact revised

theorem deliver_thread (I : Interpreter σ) (task : Task σ) (c : Completion) :
    (task.deliver I c).1.thread = task.thread := by
  unfold deliver
  split <;> rfl

theorem unwind_thread (I : Interpreter σ) (task : Task σ) (a : Abort) :
    (task.unwind I a).thread = task.thread := by
  unfold unwind
  split
  · rfl
  · split <;> rfl
  · rfl

theorem sameBody_advance {I : Interpreter σ} {task task' : Task σ} {notes : List Note}
    (application : task.thread.kind = .application)
    (advances : task.advance I = some (task', notes)) : task.thread.SameBody task'.thread := by
  obtain ⟨s, depth, _, rfl⟩ | ⟨c, _, rfl⟩ | ⟨a, _, rfl⟩ := advance_cases advances
  · exact sameBody_turn I s depth application
  · rw [deliver_thread]
    exact .refl task.thread
  · rw [unwind_thread]
    exact .refl task.thread

/-- Unless a body comes to its checks, an answer leaves the thread alone or brings another one. -/
theorem answer_thread (I : Interpreter σ) {task : Task σ} (a : Answer)
    (detached : ∀ g, task.mode ≠ .detaching g) :
    (task.answer I a).1.thread = task.thread ∨
      (task.answer I a).1.thread = threadAfter task.thread a := by
  unfold answer
  split
  · exact .inr rfl
  · rename_i g mode_eq
    exact absurd mode_eq (detached g)
  · exact .inl rfl
  · split
    · exact .inl rfl
    · exact .inl rfl
  · rename_i g passing _
    left
    unfold retired
    split <;> cases passing <;> rfl
  all_goals exact .inl rfl

/-! ## Bodies -/

end Task

/-- What happens at one strand by itself leaves the arguments of the threads there alone. -/
theorem LaunchState.Step.stems {s s' : LaunchState σ} {d : Option Deed} {role : Role}
    {thread : Thread}
    (step : s.Step d s') (found : s'.thread? role = some thread) :
    ∃ role' t, s.thread? role' = some t ∧ t.SameBody thread := by
  have stays (same : s.thread? role = some thread) :
      ∃ role' t, s.thread? role' = some t ∧ t.SameBody thread :=
    ⟨role, thread, same, .refl thread⟩
  cases step with
  | dropped =>
      cases role with
      | held => cases found
      | creator | body => exact stays found
  | @edited t t' held_eq same =>
      cases role with
      | held =>
          cases found
          exact ⟨.held, t, held_eq, same⟩
      | creator | body => exact stays found
  | bound creation_eq =>
      cases role with
      | creator =>
          apply stays
          simpa [LaunchState.thread?, creation_eq, Creation.thread?] using found
      | held | body => exact stays found
  | spawned creation_eq =>
      cases role with
      | held => exact stays found
      | creator => cases found
      | body =>
          refine ⟨.creator, thread, ?_, .refl thread⟩
          simpa [LaunchState.thread?, creation_eq, Creation.thread?, Child.thread?] using found
  | hooked creation_eq next =>
      cases role with
      | creator => rcases next with rfl | rfl <;> cases found
      | held | body => exact stays found
  | attached _ | told _ | heard _ _ | joined _ _ | refused _ | abandoned _ _ =>
      cases role with
      | creator => cases found
      | held | body => exact stays found
  | deserted _ _ _ =>
      cases role with
      | body => cases found
      | held | creator => exact stays found
  | @woken t child_eq _ =>
      cases role with
      | body =>
          apply stays
          cases kind_eq : t.kind <;>
            simpa [LaunchState.thread?, child_eq, Child.thread?, kind_eq,
              Kind.isRecorded] using found
      | held | creator => exact stays found
  | enlisted child_eq =>
      cases role with
      | body =>
          apply stays
          simpa [LaunchState.thread?, child_eq, Child.thread?] using found
      | held | creator => exact stays found

/-- What the body of an application thread calls. -/
structure BodyCall where
  thread : ThreadId
  method : MethodRef
  args : List Value
  deriving DecidableEq, Repr, Inhabited

/-- The call that the body of an application thread makes in the next step of a task: the body has
given up its join handle, no frame is active, and there is exactly one argument. -/
def Task.bodyCall? (task : Task σ) : Option BodyCall :=
  match task.mode with
  | .detaching _ =>
    if task.thread.frames.isEmpty ∧ task.thread.args.length = 1 then
      some ⟨task.thread.id, task.thread.method, task.thread.args⟩
    else none
  | _ => none

/-- Why the body of a thread does not get to its call. -/
def Thread.refusal? (t : Thread) : Option Abort := (IntMachine.Job.ofThread t).refusal?

namespace Task

/-- A body fails one of its checks, or calls its method on all that its thread has. -/
theorem runBody_fst (I : Interpreter σ) (thread : Thread) (layers : List (Layer σ)) {g : Guard}
    (kind_eq : g.kind = thread.kind) :
    (runBody I thread layers g).1 =
      match thread.refusal? with
      | some a => ⟨thread, .body g :: layers, .unwinding a⟩
      | none => (call I { thread with args := [] } (.body g :: layers) thread.method
          thread.args).1 := by
  unfold runBody Thread.refusal? IntMachine.Job.refusal? IntMachine.Job.ofThread
  dsimp only
  rw [kind_eq]
  split
  · rfl
  · split
    · rfl
    · rfl

/-- What becomes of the thread of an application body at its checks. -/
theorem runBody_thread (I : Interpreter σ) {task : Task σ} {g : Guard}
    (mode_eq : task.mode = .detaching g) (application : g.kind = .application) :
    match task.bodyCall? with
    | none => (runBody I task.thread task.layers g).1.thread = task.thread
    | some b => b = ⟨task.thread.id, task.thread.method, task.thread.args⟩ ∧
        task.thread.args.length = 1 ∧
        ({ task.thread with args := [] } : Thread).SameBody
          (runBody I task.thread task.layers g).1.thread := by
  unfold bodyCall? runBody
  simp only [mode_eq, application, true_and]
  by_cases empty : task.thread.frames.isEmpty = true
  · by_cases one : task.thread.args.length = 1
    · simp only [empty, one, and_self, if_true, Bool.not_true, Bool.false_eq_true, if_false,
        ne_eq, not_true_eq_false, true_and]
      exact sameBody_call I _ _ _ _
    · simp [empty, one, raise]
  · simp [empty, raise]

end Task

namespace World

variable {u v w : World σ} {op : Operation σ} {c : Ctx} {task : Task σ} {thread : Thread}

/-- The call that an operation has the body of an application thread make. -/
def bodyCall? (u : World σ) : Operation σ → Option BodyCall
  | .step _ c => (u.roster.taskAt c).bind Task.bodyCall?
  | _ => none

/-! ## Threads along operations -/

theorem threadAt_of_held {slot : ThreadId} (held_eq : u.held? slot = some thread) :
    u.roster.threadAt (.strand slot .held) = some thread := by
  rw [held?_eq] at held_eq
  exact held_eq

/-- A step of a task leaves the arguments of an application thread alone, unless a body comes to its
checks. -/
theorem TaskStep.stems {task' : Task σ} {d : Option Deed} {ro : Roster σ}
    (step : u.TaskStep c task d ro task') (task_eq : u.roster.taskAt c = some task)
    (application : task'.thread.kind = .application) (detached : ∀ g, task.mode ≠ .detaching g) :
    u.roster.Stems task'.thread := by
  have stays {t : Thread} (same : task.thread.SameBody t) : u.roster.Stems t :=
    ⟨c.place, task.thread, Roster.threadAt_of_taskAt task_eq, same⟩
  cases step with
  | advanced isPublic advances =>
      obtain ⟨pass_eq, _⟩ := Task.advance_guards advances
      have kind_eq : task.thread.kind = .application :=
        (congrArg Pass.kind pass_eq).symm.trans application
      exact stays (Task.sameBody_advance kind_eq advances)
  | @answered I r a w asks served keeps stays' =>
      rcases Task.answer_thread I a detached with same | after
      · rw [same]
        exact stays (.refl _)
      · rw [after, keeps]
        exact stays (.refl _)
  | @replaced I slot asks =>
      rcases Task.answer_thread I (.replaced (u.held? slot)) detached with same | after
      · rw [same]
        exact stays (.refl _)
      · rw [after]
        cases held_eq : u.held? slot with
        | none => exact stays (.refl _)
        | some thread => exact ⟨_, thread, threadAt_of_held held_eq, .refl thread⟩
  | deferred isPublic | launches held_eq =>
      rw [Task.reask_thread]
      exact stays (.refl _)

/-- Wherever a thread is after an operation, it was somewhere before and still has its arguments,
unless it is new, or it is an application thread whose body has come to its checks, or an entry
point. -/
theorem Shift.stems {who : Ctx} {d : Option Deed} {ro : Roster σ} {place : Place}
    (shift : Shift u who d ro) (found : ro.threadAt place = some thread)
    (application : thread.kind = .application) :
    u.roster.Stems thread ∨
      (∃ kind home, d = some (.built kind home) ∧ thread.id = u.strands.length) ∨
      place = who.place ∧ ∃ (I : Interpreter σ) (task : Task σ) (g : Guard),
        u.roster.taskAt who = some task ∧ task.mode = .detaching g ∧
          thread = (Task.runBody I task.thread task.layers g).1.thread := by
  have stays (place' : Place) (found' : u.roster.threadAt place' = some thread) :
      u.roster.Stems thread := ⟨place', thread, found', .refl thread⟩
  have ofHeld {slot : ThreadId} {held : Thread} (held_eq : u.held? slot = some held)
      (same : held.SameBody thread) : u.roster.Stems thread :=
    ⟨_, held, threadAt_of_held held_eq, same⟩
  -- the host works on what it has held
  have engaged {slot : ThreadId} {task : Task σ} {held : Thread}
      (held_eq : u.held? slot = some held) (same : task.thread = thread → held.SameBody thread)
      (found' : ({ u.roster.modify slot ({ · with held := none }) with
        host := .running slot task } : Roster σ).threadAt place = some thread) :
      u.roster.Stems thread := by
    cases place with
    | host => exact ofHeld held_eq (same (Option.some.inj found'))
    | strand t role =>
        apply stays (.strand t role)
        exact Roster.threadAt_takeHeld found'
  cases shift with
  | rest stays' retires admits => exact .inl (stays _ found)
  | @built _ kind home built pass_eq home_lt =>
      cases place with
      | host => exact .inl (stays .host found)
      | strand t role =>
          obtain ⟨s, launch_eq, found⟩ := Option.bind_eq_some_iff.mp found
          rw [List.getElem?_append] at launch_eq
          split at launch_eq
          · exact .inl (stays _ ((Roster.threadAt_strand launch_eq role).trans found))
          · rw [List.getElem?_singleton] at launch_eq
            split at launch_eq
            · cases launch_eq
              cases role with
              | held =>
                  cases found
                  exact .inr (.inl ⟨kind, home, rfl, congrArg Pass.thread pass_eq⟩)
              | creator | body => cases found
            · cases launch_eq
  | launchStep launch_eq step =>
      left
      obtain ⟨s, role, _, _, found⟩ | other := Roster.threadAt_modify found
      · obtain ⟨role', t, was, same⟩ := step.stems found
        exact ⟨_, t, (Roster.threadAt_strand launch_eq role').trans was, same⟩
      · exact stays _ other
  | @begun I t s reporting launch_eq child_eq =>
      left
      obtain ⟨s', role, _, _, found⟩ | other := Roster.threadAt_modify found
      · cases role with
        | body =>
            have thread_eq : (Task.start I reporting []).1.thread = thread := Option.some.inj found
            have pass_eq := (Task.start_guards I reporting []).1
            rw [thread_eq] at pass_eq
            rw [Task.start_of_application I [] ((congrArg Pass.kind pass_eq).symm.trans
              application)] at thread_eq
            refine ⟨_, reporting, (Roster.threadAt_strand launch_eq .body).trans ?_, ?_⟩
            · simp [LaunchState.thread?, child_eq, Child.thread?]
            · rw [← thread_eq]
              exact .refl reporting
        | held => exact stays _ ((Roster.threadAt_strand launch_eq .held).trans found)
        | creator => exact stays _ ((Roster.threadAt_strand launch_eq .creator).trans found)
      · exact stays _ other
  | @waits host' before after =>
      left
      cases place with
      | host => simp [Roster.threadAt, after] at found
      | strand t role => exact stays (.strand t role) found
  | @called I slot held m args idle held_eq =>
      refine .inl (engaged held_eq (fun thread_eq => ?_) found)
      rw [← thread_eq]
      exact Task.sameBody_call I held [] m args
  | @started I slot held idle held_eq =>
      refine .inl (engaged held_eq (fun thread_eq => ?_) found)
      have pass_eq := (Task.start_guards I held []).1
      rw [thread_eq] at pass_eq
      rw [Task.start_of_application I [] ((congrArg Pass.kind pass_eq).symm.trans
        application)] at thread_eq
      rw [← thread_eq]
      exact .refl held
  | @takenBack slot task x host_eq finished =>
      left
      cases place with
      | host => cases found
      | strand t role =>
          have found' : (u.roster.modify slot ({ · with held := some task.thread })).threadAt
              (.strand t role) = some thread := found
          rcases Roster.threadAt_modify_held found' with own | other
          · cases own
            apply stays .host
            simp [Roster.threadAt, roster, host_eq, Host.task?]
          · exact stays _ other
  | created held_eq =>
      left
      rcases Roster.threadAt_create found with rfl | other
      · exact ofHeld held_eq (.refl _)
      · exact stays _ other
  | @stepped _ task task' _ ro' task_eq step =>
      have task_eq' : ro'.taskAt who = some task := by rw [step.taskAt_eq, task_eq]
      rcases Roster.threadAt_put task_eq' found with ⟨rfl, rfl⟩ | other
      · by_cases detaching : ∃ g, task.mode = .detaching g
        · obtain ⟨g, mode_eq⟩ := detaching
          cases step with
          | advanced isPublic advances => simp [Task.advance, mode_eq] at advances
          | @answered I r a w asks served keeps stays' =>
              refine .inr (.inr ⟨rfl, I, task, g, task_eq, mode_eq, ?_⟩)
              simp only [Task.answer, mode_eq]
          | @replaced I slot asks => simp [Task.request?, mode_eq] at asks
          | deferred isPublic | launches held_eq =>
              left
              rw [Task.reask_thread]
              exact ⟨_, _, Roster.threadAt_of_taskAt task_eq, .refl _⟩
        · exact .inl (step.stems task_eq application fun g mode_eq => detaching ⟨g, mode_eq⟩)
      · left
        cases step with
        | advanced isPublic advances => exact stays _ other
        | answered asks served keeps stays' => exact stays _ other
        | replaced asks => exact stays _ (Roster.threadAt_takeHeld other)
        | deferred isPublic => exact stays _ other
        | launches held_eq =>
            rcases Roster.threadAt_create other with rfl | other
            · exact ofHeld held_eq (.refl _)
            · exact stays _ other

/-- A task that is not over stays as it is when somebody does something else than to step. -/
theorem taskAt_of_no_step (done : u.perform op = some v) (noStep : ∀ I c, op ≠ .step I c)
    (task_eq : u.roster.taskAt op.performer = some task) (going : task.completion? = none) :
    v.roster.taskAt op.performer = some task := by
  have noJob : u.job? op = none := by
    by_contra some_eq
    obtain ⟨job, job_eq⟩ := Option.ne_none_iff_exists'.mp some_eq
    cases op with
    | step I c => exact noStep I c rfl
    | call I slot m args | start I slot =>
        have idle := (taskAt_of_job (I := I) done rfl job_eq).1
        cases idle.symm.trans task_eq
    | _ => cases job_eq
  obtain same | ⟨_, task', x, task_eq', finished⟩ :=
    taskAt_of_no_job done noStep noJob op.performer
  · rw [same, task_eq]
  · cases task_eq.symm.trans task_eq'
    cases going.symm.trans finished

/-- What an operation does to the arguments of application threads: they stay with their thread
until its body comes to its checks, in a step of the context that has the thread. -/
theorem threads_perform {place : Place} (isPublic : op.IsPublic) (done : u.perform op = some v)
    (found : v.roster.threadAt place = some thread) (application : thread.kind = .application) :
    u.roster.Stems thread ∨
      (∃ kind home, u.deed? op = some (.built kind home) ∧ thread.id = u.strands.length) ∨
      ∃ (I J : Interpreter σ) (c : Ctx) (task : Task σ) (g : Guard), op = .step I c ∧
        u.roster.taskAt c = some task ∧ task.mode = .detaching g ∧
        thread = (Task.runBody J task.thread task.layers g).1.thread := by
  rcases (shift_perform isPublic done).stems found application with
    same | new | ⟨rfl, J, task, g, task_eq, mode_eq, thread_eq⟩
  · exact .inl same
  · exact .inr (.inl new)
  · by_cases steps : ∃ I c, op = .step I c
    · obtain ⟨I, c, rfl⟩ := steps
      exact .inr (.inr ⟨I, J, c, task, g, rfl, task_eq, mode_eq, thread_eq⟩)
    · left
      have going : task.completion? = none := by simp [Task.completion?, mode_eq]
      have task_eq' := taskAt_of_no_step done (fun I c same => steps ⟨I, c, same⟩) task_eq going
      have here := Roster.threadAt_of_taskAt task_eq'
      obtain rfl : thread = task.thread := Option.some.inj (found.symm.trans here)
      exact ⟨_, _, Roster.threadAt_of_taskAt task_eq, .refl _⟩

/-- A body that has given up its join handle comes to its checks, whatever the others do. -/
theorem step_of_detaching (I : Interpreter σ) {g : Guard}
    (task_eq : u.roster.taskAt c = some task) (mode_eq : task.mode = .detaching g) :
    ∃ v, u.step I c = some v ∧
      v.roster.taskAt c = some (Task.runBody I task.thread task.layers g).1 := by
  have asks : task.request? = some (.detach g.thread) := by simp [Task.request?, mode_eq]
  have answer_eq : (task.answer I .done).1 = (Task.runBody I task.thread task.layers g).1 := by
    simp only [Task.answer, mode_eq]
  obtain ⟨v, step_eq, after⟩ := taskAt_of_answered (I := I) (a := .done) task_eq asks rfl
    (roster_modifyHandle u g.thread Handle.detach) (by rw [answer_eq, Task.completion?_runBody])
  exact ⟨v, step_eq, after.trans (congrArg some answer_eq)⟩

/-! ## Runs with their body calls -/

/-- Runs, with the calls that the bodies of application threads make, in order. -/
inductive BodyCallRun (w : World σ) : List BodyCall → World σ → Prop
  | refl : BodyCallRun w [] w
  | snoc {calls : List BodyCall} {u v : World σ} (op : Operation σ)
      (calling : BodyCallRun w calls u) (isPublic : op.IsPublic) (done : u.perform op = some v) :
      BodyCallRun w (calls ++ (u.bodyCall? op).toList) v

theorem BodyCallRun.run {calls : List BodyCall}
    (calling : BodyCallRun w calls v) : ∃ h, Run w h v := by
  induction calling with
  | refl => exact ⟨[], .refl⟩
  | snoc op _ isPublic done ih =>
      obtain ⟨h, run⟩ := ih
      exact ⟨_, run.snoc op isPublic done⟩

/-- Every run makes some body calls. -/
theorem Run.bodyCallRun {h : List Deed} (run : Run w h v) : ∃ calls, BodyCallRun w calls v := by
  induction run with
  | refl => exact ⟨[], .refl⟩
  | snoc op _ isPublic done ih =>
      obtain ⟨calls, calling⟩ := ih
      exact ⟨_, calling.snoc op isPublic done⟩

theorem BodyCallRun.trans {calls calls' : List BodyCall} (first : BodyCallRun w calls u)
    (second : BodyCallRun u calls' v) : BodyCallRun w (calls ++ calls') v := by
  induction second with
  | refl => simpa using first
  | snoc op _ isPublic done ih => simpa using ih.snoc op isPublic done

/-- The calls of bodies while operations are carried out one after the other. -/
def bodyCalls (w : World σ) : List (Operation σ) → List BodyCall
  | [] => []
  | op :: ops =>
    match w.perform op with
    | none => []
    | some u => (w.bodyCall? op).toList ++ u.bodyCalls ops

/-- What was carried out is a run with its body calls. -/
theorem bodyCallRun_of_performAll {h : List Deed} {ops : List (Operation σ)}
    (isPublic : ∀ op ∈ ops, op.IsPublic) (done : w.performAll ops = some (h, v)) :
    BodyCallRun w (w.bodyCalls ops) v := by
  induction ops generalizing w h with
  | nil =>
      cases done
      exact .refl
  | cons op ops ih =>
      rw [performAll] at done
      rw [bodyCalls]
      cases first : w.perform op with
      | none =>
          rw [first] at done
          cases done
      | some x =>
          rw [first] at done
          obtain ⟨⟨h', v'⟩, rest, same⟩ := Option.map_eq_some_iff.mp done
          cases same
          have one : BodyCallRun w (w.bodyCall? op).toList x :=
            .snoc op .refl (isPublic op List.mem_cons_self) first
          exact one.trans
            (ih (fun op' member => isPublic op' (List.mem_cons_of_mem op member)) rest)

end World

end ThreadEngine
