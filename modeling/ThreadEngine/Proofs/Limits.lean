import ThreadEngine.Proofs.BodyCalls

set_option autoImplicit false

/-!
# Limits of frame stacks

A thread gets the limit of its frame stack from the environment that it is built from, and keeps it
for good: nothing that is done to a thread, or with it, changes the limit (`Thread.SameLimit`).  So
whatever threads there are after an operation were there before with the same limit, but for the one
that the operation may have built (`limits_perform`).
-/

namespace ThreadEngine

variable {σ : Type}

/-- One thread at two times: neither its number nor the limit of its frame stack changes. -/
structure Thread.SameLimit (t t' : Thread) : Prop where
  id_eq : t'.id = t.id
  limit_eq : t'.frames.maxDepth = t.frames.maxDepth

namespace Thread.SameLimit

theorem refl (t : Thread) : t.SameLimit t := ⟨rfl, rfl⟩

theorem trans {t t' t'' : Thread} (first : t.SameLimit t') (second : t'.SameLimit t'') :
    t.SameLimit t'' :=
  ⟨second.id_eq.trans first.id_eq, second.limit_eq.trans first.limit_eq⟩

theorem revise (t : Thread) (pc : Nat) (frame : Option Frame) : t.SameLimit (t.revise pc frame) :=
  ⟨rfl, maxDepth_revise t pc frame⟩

end Thread.SameLimit

/-! ## Tasks -/

namespace Task

theorem sameLimit_call (I : Interpreter σ) (thread : Thread) (layers : List (Layer σ))
    (m : MethodRef) (args : List Value) :
    thread.SameLimit (call I thread layers m args).1.thread := by
  rw [call_fst]
  cases entry_eq : (thread.enter m args).2 with
  | refused e | aborted a => exact .refl thread
  | entered thread' =>
      obtain ⟨_, _, rfl⟩ := Thread.enter_entered entry_eq
      exact ⟨rfl, rfl⟩

theorem sameLimit_runBody (I : Interpreter σ) (thread : Thread) (layers : List (Layer σ))
    (g : Guard) : thread.SameLimit (runBody I thread layers g).1.thread := by
  unfold runBody
  dsimp only
  split
  · exact .refl thread
  · split
    · exact .refl thread
    · have emptied : thread.SameLimit { thread with args := [] } := ⟨rfl, rfl⟩
      exact emptied.trans (sameLimit_call I _ _ _ _)

theorem sameLimit_start (I : Interpreter σ) (thread : Thread) (layers : List (Layer σ)) :
    thread.SameLimit (start I thread layers).1.thread := by
  unfold start
  dsimp only
  split
  · exact .refl thread
  · exact sameLimit_runBody I thread layers _

theorem sameLimit_turn (I : Interpreter σ) (task : Task σ) (s : σ) (depth : Nat) :
    task.thread.SameLimit (task.turn I s depth).1.thread := by
  have revised := Thread.SameLimit.revise task.thread (I.act s task.thread).pc
    (I.act s task.thread).frame
  rw [turn_fst]
  cases (I.act s task.thread).action with
  | proceed s' | ask s' r | abort a => exact revised
  | call s' m args catches => exact revised.trans (sameLimit_call I _ _ m args)
  | start s' catches => exact revised.trans (sameLimit_start I _ _)
  | finish r =>
      dsimp only
      split
      · rename_i thread' left
        obtain ⟨_, _, _, _, rfl⟩ := Thread.leave_eq_some left
        exact revised.trans ⟨rfl, rfl⟩
      · exact revised

theorem sameLimit_advance {I : Interpreter σ} {task task' : Task σ} {notes : List Note}
    (advances : task.advance I = some (task', notes)) : task.thread.SameLimit task'.thread := by
  obtain ⟨s, depth, _, rfl⟩ | ⟨c, _, rfl⟩ | ⟨a, _, rfl⟩ := advance_cases advances
  · exact sameLimit_turn I task s depth
  · rw [deliver_thread]
    exact .refl task.thread
  · rw [unwind_thread]
    exact .refl task.thread

/-- An answer leaves the limit alone, unless it brings another thread. -/
theorem sameLimit_answer (I : Interpreter σ) (task : Task σ) (a : Answer) :
    task.thread.SameLimit (task.answer I a).1.thread ∨
      (task.answer I a).1.thread = threadAfter task.thread a := by
  by_cases detaching : ∃ g, task.mode = .detaching g
  · obtain ⟨g, mode_eq⟩ := detaching
    left
    simp only [answer, mode_eq]
    exact sameLimit_runBody I task.thread task.layers g
  · rcases answer_thread I a (fun g mode_eq => detaching ⟨g, mode_eq⟩) with same | after
    · left
      rw [same]
      exact .refl task.thread
    · exact .inr after

end Task

/-! ## Rosters -/

namespace Roster

variable {ro ro' : Roster σ}

/-- A thread was somewhere on a roster, with the same limit. -/
def Knows (ro : Roster σ) (thread' : Thread) : Prop :=
  ∃ place thread, ro.threadAt place = some thread ∧ thread.SameLimit thread'

/-- All threads of a roster were on another one before. -/
def Continues (ro ro' : Roster σ) : Prop :=
  ∀ place thread, ro'.threadAt place = some thread → ro.Knows thread

theorem knows_of_threadAt {place : Place} {thread : Thread}
    (found : ro.threadAt place = some thread) : ro.Knows thread :=
  ⟨place, thread, found, .refl thread⟩

theorem Continues.refl (ro : Roster σ) : ro.Continues ro := fun _ _ => knows_of_threadAt

/-- A change of a launch state that brings no new thread there. -/
theorem continues_modify {t : ThreadId} {s : LaunchState σ} {f : LaunchState σ → LaunchState σ}
    (launch_eq : ro.launches[t]? = some s)
    (brings : ∀ role thread', (f s).thread? role = some thread' →
      ∃ role' thread, s.thread? role' = some thread ∧ thread.SameLimit thread') :
    ro.Continues (ro.modify t f) := by
  intro place thread' found
  obtain ⟨s', role, _, launch_eq', found⟩ | other := threadAt_modify found
  · cases launch_eq.symm.trans launch_eq'
    obtain ⟨role', thread, found, same⟩ := brings role thread' found
    exact ⟨_, thread, (threadAt_strand launch_eq role').trans found, same⟩
  · exact knows_of_threadAt other

/-- A change of what the execution context of a thread does. -/
theorem continues_child {t : ThreadId} {s : LaunchState σ} {f : LaunchState σ → LaunchState σ}
    (launch_eq : ro.launches[t]? = some s) (held_eq : (f s).held = s.held)
    (creation_eq : (f s).creation = s.creation)
    (brings : ∀ thread', (f s).thread? .body = some thread' →
      ∃ thread, s.thread? .body = some thread ∧ thread.SameLimit thread') :
    ro.Continues (ro.modify t f) := by
  refine continues_modify launch_eq fun role thread' found => ?_
  cases role with
  | body => exact ⟨.body, brings thread' found⟩
  | held => exact ⟨.held, thread', held_eq.symm.trans found, .refl thread'⟩
  | creator =>
      refine ⟨.creator, thread', ?_, .refl thread'⟩
      rwa [LaunchState.thread?, creation_eq] at found

/-- A change of how far the creation of a thread has come. -/
theorem continues_creation {t : ThreadId} {s : LaunchState σ} {f : LaunchState σ → LaunchState σ}
    (launch_eq : ro.launches[t]? = some s) (held_eq : (f s).held = s.held)
    (child_eq : (f s).child = s.child)
    (brings : ∀ thread, (f s).thread? .creator = some thread →
      s.thread? .creator = some thread) : ro.Continues (ro.modify t f) := by
  refine continues_modify launch_eq fun role thread found => ?_
  cases role with
  | creator => exact ⟨.creator, thread, brings thread found, .refl thread⟩
  | held => exact ⟨.held, thread, held_eq.symm.trans found, .refl thread⟩
  | body =>
      refine ⟨.body, thread, ?_, .refl thread⟩
      rwa [LaunchState.thread?, child_eq] at found

/-- The creator of a thread has it no longer. -/
theorem continues_given {t : ThreadId} {s : LaunchState σ} {f : LaunchState σ → LaunchState σ}
    (launch_eq : ro.launches[t]? = some s) (held_eq : (f s).held = s.held)
    (child_eq : (f s).child = s.child) (given : (f s).thread? .creator = none) :
    ro.Continues (ro.modify t f) := by
  refine continues_creation launch_eq held_eq child_eq fun thread found => ?_
  cases given.symm.trans found

theorem continues_takeHeld (ro : Roster σ) (t : ThreadId) :
    ro.Continues (ro.modify t ({ · with held := none })) :=
  fun _ _ found => knows_of_threadAt (threadAt_takeHeld found)

/-- A thread that was somewhere comes into the host's hands. -/
theorem Continues.putHeld {t : ThreadId} {held : Thread} (continues : ro.Continues ro')
    (known : ro.Knows held) : ro.Continues (ro'.modify t ({ · with held := some held })) := by
  intro place thread found
  rcases threadAt_modify_held found with same | other
  · cases same
    exact known
  · exact continues place thread other

theorem continues_create {slot : ThreadId} {launched : Thread} {object : Value}
    (known : ro.Knows launched) : ro.Continues (ro.create slot launched object) := by
  intro place thread found
  rcases threadAt_create found with rfl | other
  · exact known
  · exact knows_of_threadAt other

/-- A task goes back to its context, whatever its step has done to the roster. -/
theorem Continues.put {c : Ctx} {task task' : Task σ} (continues : ro.Continues ro')
    (task_eq : ro'.taskAt c = some task) (known : ro.Knows task'.thread) :
    ro.Continues (ro'.put c task') := by
  intro place thread found
  rcases threadAt_put task_eq found with ⟨_, rfl⟩ | other
  · exact known
  · exact continues place thread other

/-- The host begins to work on a thread. -/
theorem Continues.engage {slot : ThreadId} {task : Task σ} (continues : ro.Continues ro')
    (known : ro.Knows task.thread) : ro.Continues { ro' with host := .running slot task } := by
  intro place thread found
  cases place with
  | host =>
      cases found
      exact known
  | strand t role => exact continues (.strand t role) thread found

/-- The host works on nothing. -/
theorem Continues.rest {host' : Host σ} (continues : ro.Continues ro')
    (rests : host'.task? = none) : ro.Continues { ro' with host := host' } := by
  intro place thread found
  cases place with
  | host => simp [threadAt, rests] at found
  | strand t role => exact continues (.strand t role) thread found

end Roster

/-! ## Operations -/

/-- The environment that an operation builds a thread from. -/
def Operation.environment? : Operation σ → Option World.Env
  | .application _ args env => if args.length = 1 then some env else none
  | .main _ _ env => some env
  | _ => none

namespace World

variable {u v w : World σ} {op : Operation σ} {c : Ctx} {task : Task σ} {thread : Thread}

theorem knows_of_held {slot : ThreadId} (held_eq : u.held? slot = some thread) :
    u.roster.Knows thread :=
  Roster.knows_of_threadAt (threadAt_of_held held_eq)

/-- A step of a task brings no new thread, whatever its context does to keep it. -/
theorem continues_stepTask {I : Interpreter σ} {store : World σ → Task σ → World σ}
    (task_eq : u.roster.taskAt c = some task)
    (stores : ∀ w task', w.roster.host = u.host → (store w task').roster = w.roster.put c task')
    (h : u.stepTask I c task store = some v) : u.roster.Continues v.roster := by
  have own {t : Thread} (same : task.thread.SameLimit t) : u.roster.Knows t :=
    ⟨c.place, task.thread, Roster.threadAt_of_taskAt task_eq, same⟩
  have stays := Roster.Continues.refl u.roster
  obtain ⟨r, a, w, asks, served, rfl⟩ | ⟨r, r', w, asks, served, rfl⟩ |
    ⟨task', notes, asks, advances, rfl⟩ := stepTask_cases h
  · rw [roster_note]
    obtain ⟨slot, rfl, rfl, roster_eq⟩ | ⟨keeps, _, roster_eq⟩ := roster_of_answered served
    · rw [stores w _ (congrArg Roster.host roster_eq), roster_eq]
      refine (Roster.continues_takeHeld u.roster slot).put (by simpa using task_eq) ?_
      rcases Task.sameLimit_answer I task (.replaced (u.held? slot)) with same | after
      · exact own same
      · rw [after]
        cases held_eq : u.held? slot with
        | none => exact own (.refl _)
        | some thread => exact knows_of_held held_eq
    · rw [stores w _ (congrArg Roster.host roster_eq), roster_eq]
      apply stays.put task_eq
      rcases Task.sameLimit_answer I task a with same | after
      · exact own same
      · rw [after, keeps]
        exact own (.refl _)
  · have reasked : u.roster.Knows (task.reask r').thread := by
      rw [Task.reask_thread]
      exact own (.refl _)
    obtain ⟨slot, object, thread, rfl, held_eq, rfl, roster_eq⟩ | ⟨_, _, roster_eq⟩ :=
      roster_of_deferred served
    · rw [stores w _ (congrArg Roster.host roster_eq), roster_eq]
      exact (Roster.continues_create (knows_of_held held_eq)).put (by simpa using task_eq) reasked
    · rw [stores w _ (congrArg Roster.host roster_eq), roster_eq]
      exact stays.put task_eq reasked
  · rw [roster_note, stores u _ rfl]
    exact stays.put task_eq (own (Task.sameLimit_advance advances))

theorem continues_stepHost {I : Interpreter σ} (h : u.stepHost I = some v) :
    u.roster.Continues v.roster := by
  obtain ⟨slot, task, host_eq, step⟩ | ⟨r, w, host_eq, served, done⟩ := stepHost_cases h
  · refine continues_stepTask (by simp [Roster.taskAt, roster, host_eq, Host.task?]) ?_ step
    intro w task' same
    rw [host_eq] at same
    simp only [Roster.put, same]
    rfl
  · have same := roster_serveAwait served
    rcases done with rfl | rfl
    · rw [same]
      exact .refl _
    · have roster_eq : ({ w with host := .waited true } : World σ).roster =
          { u.roster with host := .waited true } := by rw [← same]; rfl
      rw [roster_eq]
      exact (Roster.Continues.refl u.roster).rest rfl

theorem continues_stepBody {I : Interpreter σ} {t : ThreadId} (h : u.stepBody I t = some v) :
    u.roster.Continues v.roster := by
  obtain ⟨s, strand_eq, cases⟩ := stepBody_cases h
  have launch_eq : u.roster.launches[t]? = some s.launchState := by
    rw [launches_getElem?, strand_eq]
    rfl
  have here {child : Child σ} (child_eq : s.child = some child) :
      s.launchState.thread? .body = child.thread? := by
        simp [LaunchState.thread?, Strand.launchState, child_eq]
  obtain ⟨thread, child_eq, _, rfl⟩ | ⟨thread, child_eq, _, _, rfl⟩ |
    ⟨thread, child_eq, rfl⟩ | ⟨thread, child_eq, rfl⟩ | ⟨task, child_eq, step⟩ := cases
  · rw [roster_storeChild]
    refine Roster.continues_child launch_eq rfl rfl fun thread' found => ?_
    refine ⟨thread', (here child_eq).trans ?_, .refl _⟩
    cases kind_eq : thread.kind <;>
      simpa [LaunchState.thread?, Child.thread?, kind_eq, Kind.isRecorded] using found
  · rw [roster_storeChild]
    refine Roster.continues_child launch_eq rfl rfl fun thread' found => ?_
    cases found
  · rw [roster_storeChild, roster_add, roster_note]
    exact Roster.continues_child launch_eq rfl rfl fun thread' found =>
      ⟨thread', (here child_eq).trans found, .refl _⟩
  · rw [roster_note, roster_storeChild, roster_sendReady, Roster.modify_modify]
    refine Roster.continues_child launch_eq rfl rfl fun thread' found => ?_
    cases found
    exact ⟨thread, here child_eq, Task.sameLimit_start I thread []⟩
  · refine continues_stepTask ?_ ?_ step
    · simp [Roster.taskAt, launch_eq, Strand.launchState, child_eq, Child.task?]
    · intro w task' _
      exact roster_storeChild t w _

theorem continues_stepCreator {t : ThreadId} (h : u.stepCreator t = some v) :
    u.roster.Continues v.roster := by
  obtain ⟨s, strand_eq, cases⟩ := stepCreator_cases h
  have launch_eq : u.roster.launches[t]? = some s.launchState := by
    rw [launches_getElem?, strand_eq]
    rfl
  have here {creation : Creation} (creation_eq : s.creation = some creation) :
      s.launchState.thread? .creator = creation.thread? := by
        simp [LaunchState.thread?, Strand.launchState, creation_eq]
  obtain ⟨thread, object, creation_eq, _, rfl⟩ | ⟨thread, creation_eq, rfl⟩ | ⟨_, rfl⟩ |
    ⟨_, rfl⟩ | ⟨_, _, rfl⟩ | ⟨_, rfl⟩ | ⟨a, _, _, rfl⟩ | ⟨_, _, _, _, _, rfl⟩ |
    ⟨a, _, _, rfl⟩ := cases
  · rw [roster_setCreation, roster_modifyHandle]
    exact Roster.continues_creation launch_eq rfl rfl fun thread' found =>
      (here creation_eq).trans found
  · rw [roster_setCreation, roster_storeChild, Roster.modify_modify]
    refine Roster.continues_modify launch_eq fun role thread' found => ?_
    cases role with
    | held => exact ⟨.held, thread', found, .refl thread'⟩
    | creator => cases found
    | body => exact ⟨.creator, thread', (here creation_eq).trans found, .refl thread'⟩
  · rw [roster_setCreation, roster_modifyHandle]
    exact Roster.continues_given launch_eq rfl rfl rfl
  · rw [roster_setCreation, roster_sendLaunch, Roster.modify_modify]
    exact Roster.continues_given launch_eq rfl rfl rfl
  · rw [roster_note, roster_setCreation]
    exact Roster.continues_given launch_eq rfl rfl rfl
  · obtain ⟨c, next, roster_eq⟩ := roster_hook u t s.handle
    rw [roster_eq]
    refine Roster.continues_given launch_eq rfl rfl ?_
    rcases next with rfl | rfl <;> rfl
  · rw [roster_setCreation]
    exact Roster.continues_given launch_eq rfl rfl rfl
  · rw [roster_note, roster_setCreation]
    exact Roster.continues_given launch_eq rfl rfl rfl
  · rw [roster_setCreation]
    exact Roster.continues_given launch_eq rfl rfl rfl

theorem maxDepth_runTop (s : FrameStack) (op : FrameOp) :
    (op.runTop s).2.maxDepth = s.maxDepth := by
  unfold FrameOp.runTop
  split
  · rfl
  · exact FrameStack.maxDepth_replaceTop s _

theorem continues_modifyHeld (w : World σ) (slot : ThreadId) {f : Thread → Thread}
    (keeps : ∀ thread : Thread, thread.SameLimit (f thread)) :
    w.roster.Continues (w.modifyHeld slot f).roster := by
  unfold modifyHeld
  split
  · exact .refl _
  · rename_i thread held_eq
    rw [roster_putHeld]
    exact (Roster.Continues.refl _).putHeld ⟨_, thread, threadAt_of_held held_eq, keeps thread⟩

/-- The host begins to work on a thread that it holds. -/
theorem continues_engage {slot : ThreadId} {work : Task σ × List Note}
    (held_eq : u.held? slot = some thread) (same : thread.SameLimit work.1.thread) :
    u.roster.Continues (u.engage slot work).roster := by
  rw [roster_engage]
  exact (Roster.continues_takeHeld u.roster slot).engage
    ⟨_, thread, threadAt_of_held held_eq, same⟩

/-- An operation that builds nothing brings no new thread. -/
theorem continues_perform (done : u.perform op = some v) (builds : op.environment? = none) :
    u.roster.Continues v.roster := by
  have stays := Roster.Continues.refl u.roster
  cases op with
  | step I c =>
      cases c with
      | host => exact continues_stepHost done
      | body t => exact continues_stepBody done
      | creator t => exact continues_stepCreator done
  | expire =>
      simp only [perform] at done
      split at done <;> cases done
      rename_i r host_eq
      simp only [expire, host_eq]
      exact stays.rest rfl
  | application m args env =>
      simp only [Operation.environment?] at builds
      split at builds
      · cases builds
      · rename_i many
        simp only [perform, buildApplication, if_neg many] at done
        split at done <;> cases done
        exact stays
  | main m args env => cases builds
  | drop slot =>
      cases done
      rw [roster_takeHeld]
      exact Roster.continues_takeHeld u.roster slot
  | setPc slot pc =>
      cases done
      exact continues_modifyHeld u slot fun _ => ⟨rfl, rfl⟩
  | editFrame slot op =>
      cases done
      exact continues_modifyHeld u slot fun thread => ⟨rfl, maxDepth_runTop thread.frames op⟩
  | call I slot m args =>
      simp only [perform] at done
      split at done <;> cases done
      unfold hostCall
      split
      · exact stays
      · rename_i thread held_eq
        exact continues_engage held_eq (Task.sameLimit_call I thread [] m args)
  | start I slot =>
      simp only [perform] at done
      split at done <;> cases done
      unfold hostStart
      split
      · exact stays
      · rename_i thread held_eq
        exact continues_engage held_eq (Task.sameLimit_start I thread [])
  | takeBack =>
      simp only [perform] at done
      split at done <;> cases done
      unfold disengage
      split
      · rename_i slot task host_eq
        rw [roster_putHeld]
        have idle : u.roster.Continues ({ u with host := .idle } : World σ).roster :=
          stays.rest rfl
        have here : u.roster.threadAt .host = some task.thread := by
          simp [Roster.threadAt, roster, host_eq, Host.task?]
        exact idle.putHeld (Roster.knows_of_threadAt here)
      all_goals exact stays
  | create slot object =>
      cases done
      unfold createHeld
      split
      · exact stays
      · rename_i thread held_eq
        rw [roster_create]
        exact Roster.continues_create (knows_of_held held_eq)
  | add c r t =>
      simp only [perform] at done
      split at done <;> cases done
      rw [roster_add]
      exact stays
  | transition c r t next =>
      cases done
      rw [roster_transition]
      exact stays
  | unpark t =>
      cases done
      rw [roster_unpark]
      exact stays
  | beginWait r | endWait =>
      simp only [perform] at done
      split at done <;> cases done
      exact stays.rest rfl
  | installRegistry c =>
      cases done
      rw [roster_installRegistry]
      exact stays
  | removeRegistry c =>
      cases done
      rw [roster_removeRegistry]
      exact stays
  | installConfig config | readConfig =>
      cases done
      exact stays

/-- The thread that has just been built has the limit of its environment; all others were there
before. -/
theorem threadAt_build {kind : Kind} {m : MethodRef} {args : List Value} {env : Env} {place : Place}
    (found : (u.build kind m args env).2.roster.threadAt place = some thread) :
    u.roster.threadAt place = some thread ∨
      thread.id = u.strands.length ∧ thread.frames = FrameStack.empty env.maxDepth := by
  cases place with
  | host => exact .inl found
  | strand t role =>
      obtain ⟨s, launch_eq, found⟩ := Option.bind_eq_some_iff.mp found
      rw [launches_getElem?] at launch_eq
      obtain ⟨strand, strand_eq, rfl⟩ := Option.map_eq_some_iff.mp launch_eq
      have appended : (u.strands ++ [_])[t]? = some strand := strand_eq
      rw [List.getElem?_append] at appended
      split at appended
      · left
        have launch_eq : u.roster.launches[t]? = some strand.launchState := by
          rw [launches_getElem?, appended]
          rfl
        exact (Roster.threadAt_strand launch_eq role).trans found
      · rw [List.getElem?_singleton] at appended
        split at appended
        · cases appended
          cases role with
          | held =>
              cases found
              exact .inr ⟨rfl, rfl⟩
          | creator | body => cases found
        · cases appended

/-- An operation that builds a thread does nothing else. -/
theorem eq_build {env : Env} (done : u.perform op = some v) (builds : op.environment? = some env) :
    ∃ kind m args, v = (u.build kind m args env).2 := by
  cases op with
  | application m args env' =>
      simp only [Operation.environment?] at builds
      split at builds <;> cases builds
      rename_i one
      simp only [perform, buildApplication, if_pos one] at done
      split at done <;> cases done
      exact ⟨_, _, _, rfl⟩
  | main m args env' =>
      cases builds
      simp only [perform] at done
      split at done <;> cases done
      exact ⟨_, _, _, rfl⟩
  | _ => cases builds

/-- Wherever a thread is after an operation, it was somewhere before and has the same limit, unless
it has just been built. -/
theorem limits_perform {place : Place} (done : u.perform op = some v)
    (found : v.roster.threadAt place = some thread) :
    u.roster.Knows thread ∨
      ∃ env, op.environment? = some env ∧ thread.id = u.strands.length ∧
        thread.frames.maxDepth = env.maxDepth := by
  cases builds : op.environment? with
  | none => exact .inl (continues_perform done builds place thread found)
  | some env =>
      obtain ⟨kind, m, args, rfl⟩ := eq_build done builds
      rcases threadAt_build found with old | ⟨id_eq, frames_eq⟩
      · exact .inl (Roster.knows_of_threadAt old)
      · exact .inr ⟨env, rfl, id_eq, by rw [frames_eq]; rfl⟩

end World

end ThreadEngine
