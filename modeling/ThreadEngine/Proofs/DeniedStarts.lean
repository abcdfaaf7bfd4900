import ThreadEngine.Proofs.BodyCalls
import ThreadEngine.Proofs.Lifecycles

set_option autoImplicit false

/-!
# Denied starts

A start whose checks fail never gets to an interpreter.  It goes through a few stages
(`Task.Denied`), and then its abort is out, which no other context can keep it from (`Run.denied`,
`Run.denied_progress`).

That a thread is dead is not among the checks.  A start of a dead thread always ends in an abort,
but it runs the body of the thread first whenever the checks succeed (`dead_start_aborts`).
-/

namespace ThreadEngine

variable {σ : Type}

/-! ## Starts that are denied -/

/-- The stages of a start that fails its checks with an abort, for some layers that wait for it: it
has not come to its checks, or the abort is on its way out, past the guard. -/
inductive Task.Denied (thread : Thread) (layers : List (Layer σ)) (a : Abort) : Task σ → Prop
  | detaching (application : thread.kind = .application) :
      Denied thread layers a ⟨thread, layers, .detaching (guardOf thread)⟩
  | failed : Denied thread layers a ⟨thread, .body (guardOf thread) :: layers, .unwinding a⟩
  | inspecting : Denied thread layers a ⟨thread, layers, .inspecting (guardOf thread) a⟩
  | retiring : Denied thread layers a ⟨thread, layers, .retiring (guardOf thread) (some a)⟩

namespace Task

variable {thread : Thread} {layers : List (Layer σ)} {a : Abort} {task : Task σ}

theorem denied_runBody (I : Interpreter σ) (refused : thread.refusal? = some a) :
    (runBody I thread layers (guardOf thread)).1 =
      ⟨thread, .body (guardOf thread) :: layers, .unwinding a⟩ := by
  rw [runBody_fst I thread layers rfl, refused]

theorem denied_start (I : Interpreter σ) (refused : thread.refusal? = some a) :
    Denied thread layers a (start I thread layers).1 := by
  cases kind_eq : thread.kind with
  | application =>
      rw [start_of_application I layers kind_eq]
      exact .detaching kind_eq
  | main =>
      have guard_kind : (guardOf thread).kind = .main := kind_eq
      simp only [start, guard_kind]
      rw [denied_runBody I refused]
      exact .failed

theorem Denied.completion? (denied : Denied thread layers a task) : task.completion? = none := by
  cases denied <;> rfl

theorem Denied.reask (denied : Denied thread layers a task) (r : Request) :
    task.reask r = task := by
  cases denied <;> rfl

end Task

namespace World

variable {n : Nat} {config : ConfigCell} {h h' : List Deed} {u v w : World σ} {op : Operation σ}
  {c : Ctx} {task : Task σ} {thread : Thread} {layers : List (Layer σ)} {a : Abort}

/-- What one step preserves: a start that is denied stays denied until its abort is out, or the
process is lost. -/
theorem TaskStep.denied {task' : Task σ} {d : Option Deed} {ro : Roster σ}
    (step : u.TaskStep c task d ro task') (refused : thread.refusal? = some a)
    (denied : Task.Denied thread layers a task) :
    Task.Denied thread layers a task' ∨ task' = ⟨thread, layers, .unwinding a⟩ ∨
      task'.mode = .lost := by
  cases step with
  | advanced isPublic advances =>
      cases denied with
      | failed =>
          cases advances
          exact .inl .inspecting
      | detaching _ | inspecting | retiring => cases advances
  | @answered I r answer w asks served keeps stays =>
      cases denied with
      | detaching application =>
          left
          change Task.Denied thread layers a (Task.runBody I thread layers _).1
          rw [Task.denied_runBody I refused]
          exact .failed
      | failed => cases asks
      | inspecting =>
          simp only [Task.answer]
          split
          · exact .inr (.inl rfl)
          · exact .inl .retiring
      | retiring =>
          simp only [Task.answer, Task.retired]
          split
          · exact .inr (.inr rfl)
          · exact .inr (.inl rfl)
  | replaced asks => cases denied <;> cases asks
  | deferred isPublic | launches held_eq =>
      rw [denied.reask]
      exact .inl denied

/-- In a run from `w` to `v`, a start has failed its checks with an abort and got to no interpreter:
it is still denied, or its abort has reached what waits for it. -/
def StartAborts (w v : World σ) (c : Ctx) (thread : Thread) (layers : List (Layer σ)) (a : Abort) :
    Prop :=
  (∃ task, v.roster.taskAt c = some task ∧ Task.Denied thread layers a task) ∨
    ∃ (h₁ h₂ : List Deed) (x : World σ), Run w h₁ x ∧
      x.roster.taskAt c = some ⟨thread, layers, .unwinding a⟩ ∧ Run x h₂ v

/-- What a whole run preserves: a start that is denied stays denied until its abort is out. -/
theorem Run.denied (reached : Run (ofRegistries n config) h w) (refused : thread.refusal? = some a)
    (task_eq : w.roster.taskAt c = some task) (denied : Task.Denied thread layers a task)
    (run : Run w h' v) : w.StartAborts v c thread layers a := by
  induction run with
  | refl => exact .inl ⟨task, task_eq, denied⟩
  | @snoc h' x y op run isPublic done ih =>
      have next : Run x (x.deed? op).toList y := .snoc op .refl isPublic done
      rcases ih with ⟨task', task_eq', denied'⟩ | ⟨h₁, h₂, z, before, out, after⟩
      · have turnover := (shift_perform isPublic done).turnover (reached.trans run).launching c
        generalize after_eq : y.roster.taskAt c = after at turnover
        cases turnover with
        | same _ => exact .inl ⟨task', after_eq.trans task_eq', denied'⟩
        | called own none_eq _ | started own none_eq _ => cases none_eq.symm.trans task_eq'
        | takenBack before_eq finished _ =>
            cases before_eq.symm.trans task_eq'
            cases denied'.completion?.symm.trans finished
        | @stepped old new ro own before_eq step =>
            cases before_eq.symm.trans task_eq'
            rcases step.denied refused denied' with still | out | lost
            · exact .inl ⟨new, after_eq, still⟩
            · rw [out] at after_eq
              exact .inr ⟨_, [], y, run.trans next, after_eq, .refl⟩
            · exact absurd lost (((reached.trans run).trans next).soundTask after_eq).present
        | @ended old new ro x own before_eq step finished =>
            cases before_eq.symm.trans task_eq'
            rcases step.denied refused denied' with still | out | lost
            · cases still.completion?.symm.trans finished
            · rw [out] at finished
              cases finished
            · simp [Task.completion?, lost] at finished
      · exact .inr ⟨h₁, _, z, before, out, after.trans next⟩

/-- The context of a start that is denied brings the abort out by its own steps. -/
theorem Run.denied_progress {I : Interpreter σ} (isPublic : I.IsPublic)
    (reached : Run (ofRegistries n config) h w) (refused : thread.refusal? = some a)
    (task_eq : w.roster.taskAt c = some task) (denied : Task.Denied thread layers a task) :
    ∃ v, Alone I c w v ∧ v.roster.taskAt c = some ⟨thread, layers, .unwinding a⟩ := by
  have further {x y : World σ} {h' : List Deed} (reached' : Run (ofRegistries n config) h' x)
      (step_eq : x.step I c = some y) : ∃ h'', Run (ofRegistries n config) h'' y :=
    ⟨_, reached'.snoc (.step I c) isPublic step_eq⟩
  -- one stage after the other, the last one first
  have retires {x : World σ} {h' : List Deed} (reached' : Run (ofRegistries n config) h' x)
      (task_eq' : x.roster.taskAt c =
        some ⟨thread, layers, .retiring (Task.guardOf thread) (some a)⟩) :
      ∃ v, Alone I c x v ∧ v.roster.taskAt c = some ⟨thread, layers, .unwinding a⟩ := by
    have alive : x.state? thread.id ≠ some .died := (reached'.soundTask task_eq').alive _ a rfl
    have faultless := retire_fst_eq_none c alive (r := thread.registry)
      fun reg reg_eq => (reached'.sound.counted reg_eq).1
    obtain ⟨v, step_eq, after⟩ := taskAt_of_answered (I := I)
      (a := .retired (x.retire c thread.registry thread.id).1) task_eq' rfl rfl
      (roster_retire x c thread.registry thread.id) (by rw [faultless]; rfl)
    rw [faultless] at after
    exact ⟨v, .single step_eq, after⟩
  have inspects {x : World σ} {h' : List Deed} (reached' : Run (ofRegistries n config) h' x)
      (task_eq' : x.roster.taskAt c =
        some ⟨thread, layers, .inspecting (Task.guardOf thread) a⟩) :
      ∃ v, Alone I c x v ∧ v.roster.taskAt c = some ⟨thread, layers, .unwinding a⟩ := by
    have served : ∃ answer, x.serve c (.stateOf thread.id) = .answered answer x := by
      simp only [serve]
      split
      · exact ⟨_, rfl⟩
      · exact ⟨_, rfl⟩
    obtain ⟨answer, served⟩ := served
    obtain ⟨v, step_eq, after⟩ := taskAt_of_answered (I := I) task_eq' rfl served rfl
      (by simp only [Task.answer]; split <;> rfl)
    simp only [Task.answer] at after
    split at after
    · exact ⟨v, .single step_eq, after⟩
    · obtain ⟨h'', reached''⟩ := further reached' step_eq
      obtain ⟨y, alone, out⟩ := retires reached'' after
      exact ⟨y, .head step_eq alone, out⟩
  have fails {x : World σ} {h' : List Deed} (reached' : Run (ofRegistries n config) h' x)
      (task_eq' : x.roster.taskAt c =
        some ⟨thread, .body (Task.guardOf thread) :: layers, .unwinding a⟩) :
      ∃ v, Alone I c x v ∧ v.roster.taskAt c = some ⟨thread, layers, .unwinding a⟩ := by
    have moves : Task.move I ⟨thread, .body (Task.guardOf thread) :: layers, .unwinding a⟩ =
        some ([], ⟨thread, layers, .inspecting (Task.guardOf thread) a⟩) := rfl
    obtain ⟨v, step_eq, after, _⟩ := step_of_move task_eq' moves rfl
    obtain ⟨h'', reached''⟩ := further reached' step_eq
    obtain ⟨y, alone, out⟩ := inspects reached'' after
    exact ⟨y, .head step_eq alone, out⟩
  cases denied with
  | detaching application =>
      obtain ⟨v, step_eq, after⟩ := step_of_detaching I task_eq rfl
      rw [Task.denied_runBody I refused] at after
      obtain ⟨h'', reached''⟩ := further reached step_eq
      obtain ⟨y, alone, out⟩ := fails reached'' after
      exact ⟨y, .head step_eq alone, out⟩
  | failed => exact fails reached task_eq
  | inspecting => exact inspects reached task_eq
  | retiring => exact retires reached task_eq

/-! ## Starts in their contexts -/

theorem completion?_start (I : Interpreter σ) (thread : Thread)
    (layers : List (Layer σ)) : (Task.start I thread layers).1.completion? = none := by
  unfold Task.start
  dsimp only
  split
  · rfl
  · exact Task.completion?_runBody I thread layers _

/-- A task starts a body on the thread that it works on. -/
theorem TaskStep.started {task' : Task σ} {d : Option Deed} {ro : Roster σ} {t : ThreadId}
    (step : u.TaskStep c task d ro task') (starts : d = some (.started t)) :
    ∃ (I : Interpreter σ) (thread : Thread) (layers : List (Layer σ)),
      thread.id = t ∧ task' = (Task.start I thread layers).1 := by
  cases step with
  | @advanced I _ notes isPublic advances =>
      obtain ⟨_, ⟨s, depth, s', catches, mode_eq, action_eq, _⟩ | ⟨plain, _⟩⟩ :=
        Task.advance_guards advances
      · have own : task.thread.id = t := by
          rw [taskDeed?_of_start u mode_eq action_eq] at starts
          exact Deed.started.inj (Option.some.inj starts)
        refine ⟨I, task.thread.revise (I.act s task.thread).pc (I.act s task.thread).frame,
          .activation s' depth catches :: task.layers, own, ?_⟩
        have turned : task' = (task.turn I s depth).1 := by
          simp only [Task.advance, mode_eq, Option.some.injEq] at advances
          rw [advances]
        simp only [turned, Task.turn_fst, action_eq]
      · rw [taskDeed?_of_no_start u advances plain] at starts
        cases starts
  | answered asks served keeps stays => cases stays _ starts
  | replaced asks => cases starts
  | deferred isPublic => cases starts
  | launches held_eq => cases starts

/-- Whoever starts a thread is at the start of its body afterwards. -/
theorem Run.start_task {t : ThreadId} (reached : Run (ofRegistries n config) h u)
    (isPublic : op.IsPublic) (done : u.perform op = some w)
    (starts : u.deed? op = some (.started t)) :
    ∃ (I : Interpreter σ) (thread : Thread) (layers : List (Layer σ)), thread.id = t ∧
      w.roster.taskAt op.performer = some (Task.start I thread layers).1 := by
  have turnover := (shift_perform isPublic done).turnover reached.launching op.performer
  generalize after_eq : w.roster.taskAt op.performer = after at turnover
  cases turnover with
  | same aside => cases aside rfl _ starts
  | called own none_eq deed_eq | takenBack before_eq finished deed_eq =>
      cases deed_eq.symm.trans starts
  | @started I thread own none_eq deed_eq =>
      exact ⟨I, thread, [], Deed.started.inj (Option.some.inj (deed_eq.symm.trans starts)), rfl⟩
  | stepped own before_eq step =>
      obtain ⟨I, thread, layers, own, rfl⟩ := step.started starts
      exact ⟨I, thread, layers, own, rfl⟩
  | ended own before_eq step finished =>
      obtain ⟨I, thread, layers, _, rfl⟩ := step.started starts
      cases (completion?_start I thread layers).symm.trans finished

/-! ## Starts of dead threads -/

/-- A guard that finds its thread dead leaves in an abort, the one that passes or its own. -/
theorem TaskStep.unwinds_of_dead {task' : Task σ} {d : Option Deed} {ro : Roster σ} {g : Guard}
    {reg : Registry} (step : u.TaskStep c task d ro task')
    (popped : task.guards = g :: task'.guards) (sound : u.SoundTask task)
    (dead : u.state? g.thread = some .died) (reg_eq : u.registries[g.registry]? = some reg) :
    ∃ a, task'.mode = .unwinding a := by
  have shorter : task.guards ≠ task'.guards := by
    intro same
    rw [same] at popped
    exact List.ne_cons_self popped
  cases step with
  | advanced isPublic advances =>
      obtain ⟨_, ⟨_, _, _, _, _, _, g', _, pushed⟩ | ⟨_, same⟩⟩ := Task.advance_guards advances
      · have lengths := congrArg List.length popped
        rw [pushed, List.length_cons, List.length_cons] at lengths
        omega
      · exact absurd same.symm shorter
  | @answered I r a w asks served keeps stays =>
      obtain ⟨_, _, _, _, same⟩ | ⟨_, ⟨_, same⟩ | ⟨g', popped', why⟩⟩ :=
        Task.answer_guards I asks a
      · exact absurd same.symm shorter
      · exact absurd same.symm shorter
      · obtain ⟨rfl, _⟩ := List.cons.inj (popped.symm.trans popped')
        rcases why with ⟨abort, mode_eq, rfl⟩ | ⟨passing, mode_eq⟩
        · exact ⟨abort, by simp [Task.answer, mode_eq]⟩
        · cases passing with
          | some abort => exact absurd dead (sound.alive g abort mode_eq)
          | none =>
              have asked : r = .retire g.registry g.thread := by
                simpa [Task.request?, mode_eq] using asks.symm
              subst asked
              simp only [serve, Served.answered.injEq, retire_fst_of_died c dead reg_eq] at served
              rw [← served.1]
              exact ⟨.invariant .retiredTwice, by simp [Task.answer, mode_eq, Task.retired,
                Task.raise]⟩
  | @replaced I slot asks =>
      obtain ⟨_, _, _, _, same⟩ | ⟨_, ⟨_, same⟩ | ⟨g', _, why⟩⟩ :=
        Task.answer_guards I asks (.replaced (u.held? slot))
      · exact absurd same.symm shorter
      · exact absurd same.symm shorter
      · rcases why with ⟨abort, _, answer_eq⟩ | ⟨passing, mode_eq⟩
        · cases answer_eq
        · simp [Task.request?, mode_eq] at asks
  | deferred isPublic | launches held_eq => exact absurd (Task.reask_guards task _).symm shorter

/-- When a guard of a dead thread leaves its context, an abort is under way there. -/
theorem Run.unwinds_of_dead {g : Guard} (reached : Run (ofRegistries n config) h u)
    (isPublic : op.IsPublic) (done : u.perform op = some v)
    (dead : u.state? g.thread = some .died) (popped : u.guardsAt c = g :: v.guardsAt c) :
    ∃ task a, v.roster.taskAt c = some task ∧ task.mode = .unwinding a := by
  have shorter : u.guardsAt c ≠ v.guardsAt c := by
    intro same
    rw [same] at popped
    exact List.ne_cons_self popped
  have member : g ∈ u.guardsAt c := by
    rw [popped]
    exact List.mem_cons_self
  obtain ⟨reg, reg_eq⟩ := reached.orderly.registry_of_guard member
  have turnover := (shift_perform isPublic done).turnover reached.launching c
  generalize after_eq : v.roster.taskAt c = after at turnover
  cases turnover with
  | same aside =>
      refine absurd ?_ shorter
      rw [guardsAt, guardsAt, after_eq]
  | called own none_eq deed_eq | started own none_eq deed_eq =>
      rw [guardsAt_of_none none_eq] at member
      cases member
  | takenBack task_eq finished deed_eq =>
      rw [guardsAt_of_task task_eq,
        guards_of_completion (reached.guarded.proper c _ task_eq) finished] at member
      cases member
  | stepped own task_eq step =>
      rw [guardsAt_of_task task_eq, guardsAt_of_task after_eq] at popped
      obtain ⟨a, mode_eq⟩ := step.unwinds_of_dead popped (reached.soundTask task_eq) dead reg_eq
      exact ⟨_, a, rfl, mode_eq⟩
  | ended own task_eq step finished =>
      have none_left := guards_of_completion (step.proper (reached.guarded.proper c _ task_eq))
        finished
      rw [guardsAt_of_task task_eq, guardsAt_of_none after_eq, ← none_left] at popped
      obtain ⟨a, mode_eq⟩ := step.unwinds_of_dead popped (reached.soundTask task_eq) dead reg_eq
      simp [Task.completion?, mode_eq] at finished

/-- What a start of a dead thread does.  Its guard is never left but by an abort, whatever happens
in between, so it does not return.  If a check of the body fails, the start aborts without an
interpreter, and its context needs nobody else for that.  But if the checks succeed, the body calls
its method on all that the thread has, dead or not. -/
theorem dead_start_aborts {t : ThreadId} (reached : Run (ofRegistries n config) h u)
    (isPublic : op.IsPublic) (done : u.perform op = some w)
    (starts : u.deed? op = some (.started t)) (dead : u.state? t = some .died) :
    (∃ g : Guard, g.thread = t ∧ w.guardsAt op.performer = g :: u.guardsAt op.performer) ∧
      (∀ (h' : List Deed) (x y : World σ) (op' : Operation σ) (c : Ctx) (g : Guard),
        Run w h' x → op'.IsPublic → x.perform op' = some y → g.thread = t →
        x.guardsAt c = g :: y.guardsAt c →
        ∃ task a, y.roster.taskAt c = some task ∧ task.mode = .unwinding a) ∧
      ∃ (I : Interpreter σ) (thread : Thread) (layers : List (Layer σ)), thread.id = t ∧
        w.roster.taskAt op.performer = some (Task.start I thread layers).1 ∧
        (∀ a, thread.refusal? = some a →
          (∀ h' v, Run w h' v → w.StartAborts v op.performer thread layers a) ∧
            ∀ J : Interpreter σ, J.IsPublic → ∃ v, Alone J op.performer w v ∧
              v.roster.taskAt op.performer = some ⟨thread, layers, .unwinding a⟩) ∧
        (thread.refusal? = none →
          ∃ (J : Interpreter σ) (v : World σ), Alone J op.performer w v ∧
            v.roster.taskAt op.performer =
              some (Task.call J { thread with args := [] }
                (.body (Task.guardOf thread) :: layers) thread.method thread.args).1) := by
  have next : Run u (u.deed? op).toList w := .snoc op .refl isPublic done
  have reached' := reached.trans next
  refine ⟨reached.sound.guarded_start isPublic done starts, ?_, ?_⟩
  · intro h' x y op' c g run isPublic' done' own popped
    have still := reached.died_of_died (next.trans run) dead
    rw [← own] at still
    exact (reached'.trans run).unwinds_of_dead isPublic' done' still popped
  · obtain ⟨I, thread, layers, own, task_eq⟩ := reached.start_task isPublic done starts
    refine ⟨I, thread, layers, own, task_eq, ?_, ?_⟩
    · intro a refused
      have denied : Task.Denied thread layers a (Task.start I thread layers).1 :=
        Task.denied_start I refused
      refine ⟨?_, ?_⟩
      · intro h' v run
        exact reached'.denied refused task_eq denied run
      · intro J isPublicJ
        exact reached'.denied_progress isPublicJ refused task_eq denied
    · intro admitted
      have calls : (Task.runBody I thread layers (Task.guardOf thread)).1 =
          (Task.call I { thread with args := [] } (.body (Task.guardOf thread) :: layers)
            thread.method thread.args).1 := by
        rw [Task.runBody_fst I thread layers rfl, admitted]
      obtain main | application : thread.kind = .main ∨ thread.kind = .application := by
        cases thread.kind <;> simp
      · have guard_kind : (Task.guardOf thread).kind = .main := main
        refine ⟨I, w, .refl, ?_⟩
        rw [task_eq, ← calls]
        simp only [Task.start, guard_kind]
      · rw [Task.start_of_application I layers application] at task_eq
        obtain ⟨v, step_eq, after⟩ := step_of_detaching I task_eq rfl
        refine ⟨I, v, .single step_eq, ?_⟩
        rw [after, ← calls]

/-- What an entry point is built from, and what brings it to its death and back to the host. -/
def deadMain : List (Operation Script.Activation) :=
  [.main promptMethod [] ⟨0, 4, .script⟩, .start promptInterpreter 0] ++
    List.replicate 5 (.step promptInterpreter .host) ++ [.takeBack]

theorem isPublic_deadMain : ∀ op ∈ deadMain, op.IsPublic := by
  simp [deadMain, Operation.IsPublic, isPublic_promptInterpreter]

/-- An entry point that has died is started again, in vain: the start never returns. -/
theorem dead_start_aborts_of_main :
    ∃ (h : List Deed) (u w : World Script.Activation),
      Run (ofRegistries 1 ConfigCell.fresh) h u ∧ u.state? 0 = some .died ∧
        u.perform (.start promptInterpreter 0) = some w ∧
        (∃ g : Guard, g.thread = 0 ∧ w.guardsAt .host = [g]) ∧
        ∀ h' x y g, Run w h' x → x.perform (.step promptInterpreter .host) = some y →
          g.thread = 0 → x.guardsAt .host = g :: y.guardsAt .host →
          ∃ task a, y.roster.taskAt .host = some task ∧ task.mode = .unwinding a := by
  have reaches : ((ofRegistries 1 ConfigCell.fresh : World Script.Activation).performAll
      deadMain).map (fun done => (done.2.state? 0, done.2.deed? (.start promptInterpreter 0),
        (done.2.perform (.start promptInterpreter 0)).isSome, done.2.guardsAt .host)) =
      some (some .died, some (.started 0), true, []) := rfl
  obtain ⟨h, u, reached, seen⟩ := exists_run_of_performAll isPublic_deadMain reaches
  simp only [Prod.mk.injEq] at seen
  obtain ⟨dead, starts, possible, unguarded⟩ := seen
  obtain ⟨w, done⟩ := Option.isSome_iff_exists.mp possible
  have isPublicStart : (Operation.start promptInterpreter 0).IsPublic := isPublic_promptInterpreter
  obtain ⟨⟨g, own, guards_eq⟩, aborts, _⟩ :=
    dead_start_aborts reached isPublicStart done starts dead
  refine ⟨h, u, w, reached, dead, done, ⟨g, own, ?_⟩, ?_⟩
  · exact guards_eq.trans (congrArg (g :: ·) unguarded)
  · intro h' x y g' run done' own' popped
    exact aborts h' x y (.step promptInterpreter .host) .host g' run isPublic_promptInterpreter
      done' own' popped

/-- An entry point that has died is started again, and an interpreter gets it: the body runs a
second time. -/
theorem dead_thread_runs_its_body :
    ∃ (h : List Deed) (u w : World Script.Activation) (thread : Thread) (s : Script.Activation)
      (g : Guard),
      Run (ofRegistries 1 ConfigCell.fresh) h u ∧ u.state? 0 = some .died ∧
        u.deed? (.start promptInterpreter 0) = some (.started 0) ∧
        u.perform (.start promptInterpreter 0) = some w ∧ thread.id = 0 ∧ g.thread = 0 ∧
        w.roster.taskAt .host = some ⟨thread, [.body g], .acting s 0⟩ := by
  let thread : Thread := ⟨0, .main, 0, .script, .empty 4, promptMethod, [], 0⟩
  have reaches : ((ofRegistries 1 ConfigCell.fresh : World Script.Activation).performAll
      deadMain).map (fun done => (done.2.state? 0, done.2.deed? (.start promptInterpreter 0),
        (done.2.perform (.start promptInterpreter 0)).map fun w => w.roster.taskAt .host)) =
      some (some .died, some (.started 0),
        some (some (Task.start promptInterpreter thread []).1)) := rfl
  obtain ⟨h, u, reached, seen⟩ := exists_run_of_performAll isPublic_deadMain reaches
  simp only [Prod.mk.injEq] at seen
  obtain ⟨dead, starts, restarted⟩ := seen
  obtain ⟨w, done, task_eq⟩ := Option.map_eq_some_iff.mp restarted
  exact ⟨h, u, w, _, _, Task.guardOf thread, reached, dead, starts, done, rfl, rfl, task_eq⟩

end World

end ThreadEngine
