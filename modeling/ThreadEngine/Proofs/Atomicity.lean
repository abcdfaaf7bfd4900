import ThreadEngine.Proofs.FineInvariants

set_option autoImplicit false

/-!
# Runs in fine steps as runs of whole operations

If no dead thread is revived and no displaced thread is reclaimed, a change of state that is checked
and written in two steps takes effect at its write: a run in fine steps leads where a run of whole
operations leads that does the same deeds (`Run.exists_run`), and the other way round
(`exists_run_of_operations`).  So what is shown of whole operations is true of fine steps until a
thread is revived or reclaimed.  Only what is noted of a change of state may differ, because the
state that it was checked against need not be the one that it overwrites; worlds are compared less
what was noted in them (`World.unnoted`), which nothing ever reads.

A change that somebody else has made between check and write is none any more.  Whole operations
would refuse it, and tell so whoever asked; as nothing is assumed about interpreters, there is one
that goes on as if it had been told otherwise (`Interpreter.answeredWith`).
-/

namespace ThreadEngine

namespace World

variable {σ : Type}

/-! ## What was noted does not matter -/

/-- The world, less what was noted. -/
def unnoted (w : World σ) : World σ := { w with journal := [] }

@[simp] theorem unnoted_note (w : World σ) (c : Ctx) (notes : List Note) :
    (w.note c notes).unnoted = w.unnoted := rfl

theorem add_unnoted (w : World σ) (c : Ctx) (r : RegistryId) (t : ThreadId) :
    (w.unnoted.add c r t).unnoted = (w.add c r t).unnoted := by
  simp only [add, show w.unnoted.registries = w.registries from rfl]
  split <;> rfl

theorem retire_unnoted (w : World σ) (c : Ctx) (r : RegistryId) (t : ThreadId) :
    (w.unnoted.retire c r t).1 = (w.retire c r t).1 ∧
      (w.unnoted.retire c r t).2.unnoted = (w.retire c r t).2.unnoted := by
  simp only [retire, show w.unnoted.state? t = w.state? t from rfl,
    show w.unnoted.registries = w.registries from rfl]
  split
  · split
    · exact ⟨rfl, rfl⟩
    · split
      · exact ⟨rfl, rfl⟩
      · exact ⟨rfl, rfl⟩
  · exact ⟨rfl, rfl⟩

theorem transition_unnoted (w : World σ) (c : Ctx) (r : RegistryId) (t : ThreadId) (next : State) :
    (w.unnoted.transition c r t next).1 = (w.transition c r t next).1 ∧
      (w.unnoted.transition c r t next).2.unnoted = (w.transition c r t next).2.unnoted := by
  simp only [transition, show w.unnoted.state? t = w.state? t from rfl]
  split
  · exact ⟨rfl, rfl⟩
  · split
    · exact ⟨rfl, rfl⟩
    · exact ⟨rfl, rfl⟩

theorem unpark_unnoted (w : World σ) (t : ThreadId) :
    (w.unnoted.unpark t).2.unnoted = (w.unpark t).2.unnoted := by
  simp only [unpark, show w.unnoted.strands = w.strands from rfl]
  split
  · rfl
  · split <;> rfl

end World

/-- What becomes of a request, less what was noted. -/
def Served.unnoted {σ : Type} : Served σ → Served σ
  | .answered a w => .answered a w.unnoted
  | .deferred r w => .deferred r w.unnoted
  | .blocked => .blocked

namespace World

variable {σ : Type}

theorem serveAwait_unnoted (w : World σ) (c : Ctx) (r : RegistryId) :
    (w.unnoted.serveAwait c r).unnoted = (w.serveAwait c r).unnoted := by
  simp only [serveAwait, show w.unnoted.registries = w.registries from rfl]
  split
  · rfl
  · split
    · rfl
    · split <;> rfl

theorem serve_unnoted (w : World σ) (c : Ctx) (r : Request) :
    (w.unnoted.serve c r).unnoted = (w.serve c r).unnoted := by
  cases r with
  | detach t | replace slot | reportLaunch t | reportUnpark | emit v => rfl
  | awaitApplications r => exact serveAwait_unnoted w c r
  | stateOf t =>
      simp only [serve, show w.unnoted.state? t = w.state? t from rfl]
      split <;> rfl
  | retire r t =>
      obtain ⟨fault_eq, world_eq⟩ := retire_unnoted w c r t
      simp only [serve, Served.unnoted, fault_eq, world_eq]
  | transition r t next =>
      obtain ⟨result_eq, world_eq⟩ := transition_unnoted w c r t next
      simp only [serve, Served.unnoted, result_eq, world_eq]
  | tally r =>
      simp only [serve, show w.unnoted.tally? r = w.tally? r from rfl]
      split <;> rfl
  | park =>
      cases c with
      | host | creator t => rfl
      | body t =>
          simp only [serve, servePark, show w.unnoted.strands = w.strands from rfl]
          split <;> rfl
  | spawn slot object =>
      simp only [serve, serveSpawn, show w.unnoted.strands = w.strands from rfl]
      split
      · rfl
      · split <;> rfl
  | unpark t =>
      simp only [serve, serveUnpark, unpark, show w.unnoted.strands = w.strands from rfl]
      cases w.strands[t]? with
      | none => rfl
      | some s =>
          by_cases parked : s.parking = .parked
          · simp only [parked, if_true]
            rfl
          · simp only [parked, if_false]
            rfl

theorem stepTask_unnoted (I : Interpreter σ) (w : World σ) (c : Ctx) (task : Task σ)
    (store : World σ → Task σ → World σ)
    (stores : ∀ u task', (store u task').unnoted = store u.unnoted task') :
    (w.unnoted.stepTask I c task store).map unnoted = (w.stepTask I c task store).map unnoted := by
  unfold stepTask
  split
  · rename_i r asks
    have same := serve_unnoted w c r
    generalize w.serve c r = served at same ⊢
    generalize w.unnoted.serve c r = served' at same ⊢
    cases served with
    | answered a v =>
        cases served' with
        | answered a' v' =>
            obtain ⟨rfl, world_eq⟩ := Served.answered.inj same
            simp only [Option.map_some, unnoted_note, stores, world_eq]
        | deferred | blocked => cases same
    | deferred r' v =>
        cases served' with
        | deferred r'' v' =>
            obtain ⟨rfl, world_eq⟩ := Served.deferred.inj same
            simp only [Option.map_some, stores, world_eq]
        | answered | blocked => cases same
    | blocked =>
        cases served' with
        | blocked => rfl
        | answered | deferred => cases same
  · split
    · simp only [Option.map_some, unnoted_note, stores]
      rfl
    · rfl

theorem stepBody_unnoted (I : Interpreter σ) (w : World σ) (t : ThreadId) :
    (w.unnoted.stepBody I t).map unnoted = (w.stepBody I t).map unnoted := by
  simp only [stepBody, show w.unnoted.strands = w.strands from rfl]
  cases w.strands[t]? with
  | none => rfl
  | some s =>
      dsimp only
      cases s.child with
      | none => rfl
      | some child =>
          cases child with
          | ended a => rfl
          | idle thread =>
              dsimp only
              split
              · rfl
              · split <;> rfl
          | recording thread =>
              dsimp only [add, note, unnoted]
              cases w.registries[thread.registry]? <;> rfl
          | reporting thread => rfl
          | running task => exact stepTask_unnoted I w (.body t) task _ fun _ _ => rfl

theorem stepHost_unnoted (I : Interpreter σ) (w : World σ) :
    (w.unnoted.stepHost I).map unnoted = (w.stepHost I).map unnoted := by
  simp only [stepHost, show w.unnoted.host = w.host from rfl]
  cases w.host with
  | idle | waited reached => rfl
  | running slot task => exact stepTask_unnoted I w .host task _ fun _ _ => rfl
  | waiting r =>
      dsimp only [serveAwait]
      rw [show w.unnoted.registries = w.registries from rfl]
      cases w.registries[r]? with
      | none => rfl
      | some reg =>
          by_cases asleep : Ctx.host ∈ reg.waiters
          · simp only [asleep, if_true]
          · by_cases zero : reg.appThreads = 0
            · simp only [asleep, zero, if_true, if_false]
              rfl
            · simp only [asleep, zero, if_false]
              rfl

theorem stepCreator_unnoted (w : World σ) (t : ThreadId) :
    (w.unnoted.stepCreator t).map unnoted = (w.stepCreator t).map unnoted := by
  simp only [stepCreator, show w.unnoted.strands = w.strands from rfl]
  cases w.strands[t]? with
  | none => rfl
  | some s =>
      dsimp only
      cases s.creation with
      | none => rfl
      | some c =>
          cases c with
          | done fault | aborted a | spawning thread | attaching => rfl
          | binding thread object =>
              dsimp only
              split <;> rfl
          | launching | joining =>
              dsimp only
              split <;> rfl
          | awaitingReady =>
              dsimp only
              split
              · rfl
              · split <;> rfl
          | hooking =>
              simp only [hook]
              split <;> rfl

/-- What an operation does does not depend on what was noted. -/
theorem perform_unnoted (w : World σ) (op : Operation σ) :
    (w.unnoted.perform op).map unnoted = (w.perform op).map unnoted := by
  cases op with
  | step I c =>
      cases c with
      | host => exact stepHost_unnoted I w
      | body t => exact stepBody_unnoted I w t
      | creator t => exact stepCreator_unnoted w t
  | expire =>
      simp only [perform, expire, show w.unnoted.host = w.host from rfl]
      cases w.host <;> rfl
  | application m args env =>
      simp only [perform, buildApplication, show w.unnoted.registries = w.registries from rfl]
      split
      · split <;> rfl
      · rfl
  | main m args env =>
      simp only [perform, show w.unnoted.registries = w.registries from rfl]
      split <;> rfl
  | drop slot | installConfig config | readConfig => rfl
  | setPc slot pc | editFrame slot op =>
      simp only [perform, setPc, editFrame, modifyHeld,
        show w.unnoted.held? slot = w.held? slot from rfl]
      cases w.held? slot <;> rfl
  | call I slot m args | start I slot =>
      simp only [perform, hostCall, hostStart, show w.unnoted.host = w.host from rfl,
        show w.unnoted.held? slot = w.held? slot from rfl]
      cases w.host with
      | idle => cases w.held? slot <;> rfl
      | running | waiting | waited => rfl
  | takeBack =>
      simp only [perform, engaged?, disengage, show w.unnoted.host = w.host from rfl]
      cases w.host with
      | running slot task =>
          dsimp only
          cases task.completion? <;> rfl
      | idle | waiting | waited => rfl
  | create slot object =>
      simp only [perform, createHeld, show w.unnoted.held? slot = w.held? slot from rfl]
      cases w.held? slot <;> rfl
  | add c r t =>
      simp only [perform, show w.unnoted.registries = w.registries from rfl,
        show w.unnoted.strands = w.strands from rfl]
      split
      · exact congrArg some (add_unnoted w c r t)
      · rfl
  | transition c r t next => exact congrArg some (transition_unnoted w c r t next).2
  | unpark t => exact congrArg some (unpark_unnoted w t)
  | beginWait r | endWait =>
      simp only [perform, show w.unnoted.host = w.host from rfl]
      cases w.host <;> rfl
  | installRegistry c =>
      simp only [perform, installRegistry, show w.unnoted.installed = w.installed from rfl]
      cases w.installed <;> rfl
  | removeRegistry c =>
      simp only [perform, removeRegistry, show w.unnoted.installed = w.installed from rfl]
      cases w.installed <;> rfl

theorem deed?_unnoted (w : World σ) (op : Operation σ) : w.unnoted.deed? op = w.deed? op := by
  cases op with
  | step I c => cases c <;> rfl
  | _ => rfl

/-- Worlds that differ in nothing but what was noted do the same. -/
theorem perform_of_unnoted {u v w : World σ} {op : Operation σ} (same : w.unnoted = u.unnoted)
    (done : u.perform op = some v) :
    ∃ v', w.perform op = some v' ∧ v'.unnoted = v.unnoted ∧ w.deed? op = u.deed? op := by
  have world_eq : (w.perform op).map unnoted = some v.unnoted := by
    rw [← perform_unnoted, same, perform_unnoted, done]
    rfl
  obtain ⟨v', done', after_eq⟩ := Option.map_eq_some_iff.mp world_eq
  refine ⟨v', done', after_eq, ?_⟩
  rw [← deed?_unnoted w, same, deed?_unnoted]

/-- Worlds that differ in nothing but what was noted. -/
theorem eq_of_unnoted {u w : World σ} (same : w.unnoted = u.unnoted) :
    u = { w with journal := u.journal } :=
  congrArg (fun x : World σ => { x with journal := u.journal }) same.symm

/-- Nor does a run depend on what was noted before. -/
theorem Run.of_unnoted {u v w : World σ} {h : List Deed} (run : Run u h v)
    (same : w.unnoted = u.unnoted) : ∃ v', Run w h v' ∧ v'.unnoted = v.unnoted := by
  induction run with
  | refl => exact ⟨w, .refl, same⟩
  | snoc op _ isPublic done ih =>
      obtain ⟨x, run', same'⟩ := ih
      obtain ⟨v', done', after_eq, deed_eq⟩ := perform_of_unnoted same' done
      refine ⟨v', ?_, after_eq⟩
      rw [← deed_eq]
      exact run'.snoc op isPublic done'

/-! ## Writing a state -/

theorem withState_withState (w : World σ) (t : ThreadId) (first second : State) :
    (w.withState t first).withState t second = w.withState t second := by
  simp only [withState, modifyHandle, modifyStrand, List.modify_modify_eq]
  rfl

/-- Writing the state that a thread has changes nothing. -/
theorem withState_self {w : World σ} {t : ThreadId} {s : State} (state_eq : w.state? t = some s) :
    w.withState t s = w := by
  have same : w.strands.modify t (fun x => { x with handle := { x.handle with state := s } }) =
      w.strands := by
    apply List.ext_getElem?
    intro u
    by_cases at_t : t = u
    · subst at_t
      obtain ⟨handle, handle_eq, rfl⟩ := Option.map_eq_some_iff.mp state_eq
      obtain ⟨x, strand_eq, rfl⟩ := Option.map_eq_some_iff.mp handle_eq
      simp [strand_eq]
    · simp [at_t]
  simp only [withState, modifyHandle, modifyStrand, same]

/-- A change of state that is refused leaves everything alone. -/
theorem transition_of_no_change {w : World σ} {t : ThreadId} {next : State}
    (refused : w.change? t next = none) (c : Ctx) (r : RegistryId) :
    (w.transition c r t next).2 = w := by
  cases state_eq : w.state? t with
  | none => simp [transition, state_eq]
  | some current =>
      simp only [change?, state_eq] at refused
      simp only [transition, state_eq]
      split at refused
      · rename_i illegal
        rw [if_pos illegal]
      · cases refused

end World

/-! ## Being told otherwise -/

/-- An interpreter that takes note of one answer, whatever it is told. -/
def Interpreter.answeredWith {σ : Type} (I : Interpreter σ) (a : Answer) : Interpreter σ :=
  { I with receive := fun s _ => I.receive s a }

theorem Interpreter.IsPublic.answeredWith {σ : Type} {I : Interpreter σ} (isPublic : I.IsPublic)
    (a : Answer) : (I.answeredWith a).IsPublic := isPublic

namespace Task

variable {σ : Type}

/-- Whoever asked for a change of state goes on as if it had been made. -/
theorem answer_answeredWith (I : Interpreter σ) {task : Task σ} {r : RegistryId} {t : ThreadId}
    {next : State} (asks : task.request? = some (.transition r t next)) (told : Transition) :
    task.answer (I.answeredWith (.transitioned .changed)) (.transitioned told) =
      task.answer I (.transitioned .changed) := by
  obtain ⟨s, depth, mode_eq⟩ := Task.asking_of_transition asks
  simp only [answer, mode_eq]
  rfl

end Task

namespace World

variable {σ : Type} {u v : World σ} {t : ThreadId} {seen s next : State}

/-- Where a thread lives, a change of state that is asked for is made, or has been. -/
theorem transition_of_live (state_eq : u.state? t = some s) (alive : s ≠ .died)
    (lives : next ≠ .died) (c : Ctx) (r : RegistryId) :
    (u.transition c r t next).2.unnoted = (u.withState t next).unnoted := by
  cases change_eq : u.change? t next with
  | some d =>
      obtain ⟨notes, transition_eq⟩ := transition_of_change change_eq c r
      rw [transition_eq, unnoted_note]
  | none =>
      have same := FineWorld.state?_of_no_change state_eq alive lives change_eq
      subst same
      rw [transition_of_no_change change_eq, withState_self state_eq]

/-- A change of state that a task writes late is matched by one that is made at once. -/
theorem stepTask_late {I : Interpreter σ} {c : Ctx} {task : Task σ} {r : RegistryId}
    {store : World σ → Task σ → World σ}
    (stores : ∀ w task', (store w task').unnoted = store w.unnoted task')
    (asks : task.request? = some (.transition r t next))
    (changes : (u.withState t seen).change? t next = some (.moved t next))
    (state_eq : u.state? t = some s) (alive : s ≠ .died)
    (done : (u.withState t seen).stepTask I c task store = some v) :
    ∃ v', u.stepTask (I.answeredWith (.transitioned .changed)) c task store = some v' ∧
      v'.unnoted = v.unnoted := by
  have lives := (change?_eq_some changes).2.1
  obtain ⟨notes, transition_eq⟩ := transition_of_change changes c r
  rw [withState_withState] at transition_eq
  let answered := task.answer I (.transitioned .changed)
  refine ⟨(store (u.transition c r t next).2 answered.1).note c answered.2, ?_, ?_⟩
  · simp only [stepTask, asks, serve, Task.answer_answeredWith I asks, answered]
  · simp only [stepTask, asks, serve, transition_eq, Option.some.injEq] at done
    rw [← done, unnoted_note, unnoted_note, stores, stores, unnoted_note,
      transition_of_live state_eq alive lives]

/-- The execution context of a thread that runs the body goes on with it. -/
theorem stepBody_of_task {w : World σ} {j : ThreadId} {task : Task σ}
    (task_eq : w.roster.taskAt (.body j) = some task) (I : Interpreter σ) :
    w.stepBody I j =
        w.stepTask I (.body j) task (fun w' task' => storeChild j w' (Child.ofTask task')) ∧
      w.stepDeed? I (.body j) = w.taskDeed? I task := by
  obtain ⟨launch, launch_eq, child_eq⟩ := Roster.launch_of_taskAt task_eq
  rw [launches_getElem?] at launch_eq
  obtain ⟨x, strand_eq, rfl⟩ := Option.map_eq_some_iff.mp launch_eq
  have running : x.child = some (.running task) := child_eq
  simp only [stepBody, stepDeed?, strand_eq, Option.bind_some, running, and_self]

/-- The host that works on a thread goes on with it. -/
theorem stepHost_of_task {w : World σ} {task : Task σ}
    (task_eq : w.roster.taskAt .host = some task) :
    ∃ slot, w.host = .running slot task := by
  have host_eq : w.host.task? = some task := task_eq
  cases running : w.host with
  | running slot task' =>
      rw [running] at host_eq
      cases host_eq
      exact ⟨slot, rfl⟩
  | idle | waiting | waited =>
      rw [running] at host_eq
      cases host_eq

/-- A step that writes a state late is matched by one that changes it at once. -/
theorem step_late {I : Interpreter σ} {c : Ctx} {task : Task σ} {r : RegistryId}
    (task_eq : u.roster.taskAt c = some task)
    (asks : task.request? = some (.transition r t next))
    (changes : (u.withState t seen).change? t next = some (.moved t next))
    (state_eq : u.state? t = some s) (alive : s ≠ .died)
    (done : (u.withState t seen).step I c = some v) :
    ∃ v', u.step (I.answeredWith (.transitioned .changed)) c = some v' ∧ v'.unnoted = v.unnoted ∧
      u.stepDeed? (I.answeredWith (.transitioned .changed)) c = u.change? t next := by
  obtain ⟨s', depth, mode_eq⟩ := Task.asking_of_transition asks
  have deed_eq (I : Interpreter σ) : u.taskDeed? I task = u.change? t next := by
    simp only [taskDeed?, mode_eq, asks, Option.bind_some, requestDeed?]
  cases c with
  | host =>
      obtain ⟨slot, host_eq⟩ := stepHost_of_task task_eq
      have host_eq' : (u.withState t seen).host = .running slot task := host_eq
      simp only [World.step, stepHost, host_eq'] at done
      obtain ⟨v', step, after_eq⟩ := stepTask_late (fun _ _ => rfl) asks changes state_eq alive done
      refine ⟨v', ?_, after_eq, ?_⟩
      · simpa only [World.step, stepHost, host_eq] using step
      · simpa only [stepDeed?, host_eq] using deed_eq _
  | body j =>
      obtain ⟨step_eq, deed_eq'⟩ :=
        stepBody_of_task task_eq (I.answeredWith (.transitioned .changed))
      rw [← roster_withState u t seen] at task_eq
      rw [World.step, (stepBody_of_task task_eq I).1] at done
      obtain ⟨v', step, after_eq⟩ := stepTask_late (fun _ _ => rfl) asks changes state_eq alive done
      exact ⟨v', step_eq.trans step, after_eq, deed_eq'.trans (deed_eq _)⟩
  | creator j => cases task_eq

/-- A write of a state that is late is matched by whole operations. -/
theorem perform_late {op : Operation σ} (isPublic : op.IsPublic)
    (deed_eq : (u.withState t seen).deed? op = some (.moved t next))
    (state_eq : u.state? t = some s) (alive : s ≠ .died)
    (done : (u.withState t seen).perform op = some v) :
    ∃ v', Run u (u.change? t next).toList v' ∧ v'.unnoted = v.unnoted := by
  obtain ⟨changes, ⟨c, r, rfl⟩ | ⟨I, c, task, r, rfl, task_eq, asks⟩⟩ := moved_cases deed_eq
  · have lives := (change?_eq_some changes).2.1
    refine ⟨(u.transition c r t next).2, ?_, ?_⟩
    · exact Run.refl.snoc (.transition c r t next) trivial rfl
    · obtain ⟨notes, transition_eq⟩ := transition_of_change changes c r
      rw [withState_withState] at transition_eq
      simp only [perform, transition_eq, Option.some.injEq] at done
      rw [← done, unnoted_note, transition_of_live state_eq alive lives]
  · rw [roster_withState] at task_eq
    obtain ⟨v', step, after_eq, deed_eq'⟩ := step_late task_eq asks changes state_eq alive done
    refine ⟨v', ?_, after_eq⟩
    rw [← deed_eq']
    exact Run.refl.snoc (.step (I.answeredWith (.transitioned .changed)) c)
      (isPublic.answeredWith _) step

end World

/-! ## Runs -/

namespace FineWorld

variable {σ : Type} {n : Nat} {config : ConfigCell} {f g : FineWorld σ} {h : List Deed}
  {log more : List FineDeed} {w : World σ}

/-- What is logged is what could have been done by whole operations as well: no dead thread was
revived, and no displaced thread was reclaimed. -/
structure Regular (log : List FineDeed) : Prop where
  revives : ∀ t next, .revived t next ∉ log
  reclaims : ∀ t, .reclaimed t ∉ log

theorem Regular.of_append_left (regular : Regular (log ++ more)) : Regular log where
  revives t next member := regular.revives t next (List.mem_append_left more member)
  reclaims t member := regular.reclaims t (List.mem_append_left more member)

theorem Regular.of_append_right (regular : Regular (log ++ more)) : Regular more where
  revives t next member := regular.revives t next (List.mem_append_right log member)
  reclaims t member := regular.reclaims t (List.mem_append_right log member)

/-- What one step is matched by. -/
theorem Step.matched (step : Step Operation.IsPublic f more g) (regular : Regular more)
    (reached : World.Run (.ofRegistries n config) h w) (same : w.unnoted = f.world.unnoted) :
    ∃ w', World.Run w (deedsOf more) w' ∧ w'.unnoted = g.world.unnoted := by
  cases step with
  | acted isPublic free fresh done =>
      obtain ⟨w', done', after_eq, deed_eq⟩ := World.perform_of_unnoted same done
      refine ⟨w', ?_, after_eq⟩
      rw [deedsOf_map, ← deed_eq]
      exact World.Run.refl.snoc _ isPublic done'
  | checked => exact ⟨w, .refl, same⟩
  | @stored i p v pending_eq isPublic deed_eq done =>
      have alive : f.world.state? p.thread ≠ some .died := by
        intro died
        refine regular.revives p.thread p.next ?_
        simp [storeDeeds, died]
      obtain ⟨_, _, s, state_eq⟩ := legal_of_store deed_eq
      have alive' : s ≠ .died := by
        rintro rfl
        exact alive state_eq
      have deeds_eq : deedsOf (f.storeDeeds p) = (f.world.change? p.thread p.next).toList := by
        rw [storeDeeds, if_neg alive, deedsOf_map]
      obtain ⟨v', run, after_eq⟩ := World.perform_late isPublic deed_eq state_eq alive' done
      obtain ⟨w', run', after_eq'⟩ := run.of_unnoted same
      rw [deeds_eq]
      exact ⟨w', run', after_eq'.trans after_eq⟩
  | reclaimed displaced_eq strand_eq free =>
      exact absurd (List.mem_singleton.mpr rfl) (regular.reclaims _)
  | @rebound slot thread held_eq begun =>
      rw [World.eq_of_unnoted same] at held_eq begun
      have never := reached.orderly.not_created_of_held held_eq
      rw [creation_of_not_created reached.launching never] at begun
      cases begun

/-- What a run leads to is what a run of whole operations leads to that does the same deeds. -/
theorem Run.matched (run : Run Operation.IsPublic f log g) (regular : Regular log)
    (reached : World.Run (.ofRegistries n config) h w) (same : w.unnoted = f.world.unnoted) :
    ∃ w', World.Run w (deedsOf log) w' ∧ w'.unnoted = g.world.unnoted := by
  induction run with
  | refl => exact ⟨w, .refl, same⟩
  | snoc _ step ih =>
      obtain ⟨x, run', same'⟩ := ih regular.of_append_left
      obtain ⟨w', once, after_eq⟩ :=
        step.matched regular.of_append_right (reached.trans run') same'
      refine ⟨w', ?_, after_eq⟩
      rw [deedsOf_append]
      exact run'.trans once

/-- Where a run from a world without threads leads. -/
theorem Run.exists_run (run : Run Operation.IsPublic (ofRegistries n config) log f)
    (regular : Regular log) :
    ∃ w, World.Run (.ofRegistries n config) (deedsOf log) w ∧ w.unnoted = f.world.unnoted :=
  run.matched regular .refl rfl

/-- Conversely, whole operations that are carried out one after the other are fine steps. -/
theorem exists_run_of_operations (run : World.Run (.ofRegistries n config) h w) :
    ∃ f, Run Operation.IsPublic (ofRegistries n config) (h.map .deed) f ∧ f.world = w ∧
      f.pending = [] := by
  induction run with
  | refl => exact ⟨ofRegistries n config, .refl, rfl, rfl⟩
  | @snoc h u v op run isPublic done ih =>
      obtain ⟨f, run', rfl, idle⟩ := ih
      have free : f.Free op := by simp [Free, idle]
      have fresh : f.world.recreates op = false := by
        unfold World.recreates
        split
        · rename_i t deed_eq
          refine creation_of_not_created run.launching ?_
          intro was
          exact run.orderly.deed_ne_created isPublic done was deed_eq
        · rfl
      rw [List.map_append]
      exact ⟨_, run'.snoc (.acted isPublic free fresh done), rfl, idle⟩

end FineWorld

end ThreadEngine
