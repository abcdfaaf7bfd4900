import ThreadEngine.Proofs.JobRuns

set_option autoImplicit false

/-!
# Interleavings of int-machine threads

Any number of threads run on one int machine, in the host's context and in contexts of their own,
and their steps come in any order, between any other operations.  Every job ends as it would end
alone, and puts out what it would put out alone; the output of the world is a shuffle of what the
contexts put out (`IntMachine.threads_independent`).

The invariant is about one context at a time (`Stands`): its latest job has not come to its call
yet, or has a call under way that has taken the steps of its input, or has ended, and then its
context only clears up (`Task.Spent`).  One operation keeps it for the context that performs it
(`Kept.perform`) and for all others (`Kept.other`), hence so does every run (`Watched.accounted`).
-/

namespace ThreadEngine

open IntMachine (Job JobRun Library interpreter)

/-! ## Shuffles -/

/-- A list is a shuffle of some lists: each of its elements can be ascribed to one of them so that
what is ascribed to a list is that list. -/
def IsShuffle {ι α : Type} [DecidableEq ι] (parts : ι → List α) (whole : List α) : Prop :=
  ∃ log : List (ι × α), log.map Prod.snd = whole ∧
    ∀ i, (log.filter (·.1 = i)).map Prod.snd = parts i

/-- What one of the lists gets at its end, the shuffle gets at its end. -/
theorem IsShuffle.append {ι α : Type} [DecidableEq ι] {parts parts' : ι → List α} {whole : List α}
    (shuffled : IsShuffle parts whole) {i : ι} {more : List α} (grown : parts' i = parts i ++ more)
    (same : ∀ j, j ≠ i → parts' j = parts j) : IsShuffle parts' (whole ++ more) := by
  obtain ⟨log, whole_eq, parts_eq⟩ := shuffled
  refine ⟨log ++ more.map (i, ·), ?_, fun j => ?_⟩
  · simp [whole_eq, Function.comp_def]
  · rw [List.filter_append, List.map_append, parts_eq]
    by_cases at_i : j = i
    · subst at_i
      simp [grown, List.filter_map, Function.comp_def]
    · have other : ¬ i = j := fun same => at_i same.symm
      simp [same j at_i, List.filter_map, Function.comp_def, other]

/-! ## Clearing up -/

namespace Task

variable {σ : Type} {task : Task σ}

/-- A body that has got to its call, or has not, is not over. -/
theorem completion?_runBody (I : Interpreter σ) (thread : Thread) (layers : List (Layer σ))
    (g : Guard) : (runBody I thread layers g).1.completion? = none := by
  have calm := isCalm_runBody I thread layers g
  unfold completion?
  split
  · rename_i x mode_eq
    rw [IsCalm, mode_eq, runBody_layers] at calm
    cases calm
  · rfl

/-- A task that has no activation left: a body clears up after its call, or the task is over. -/
def Spent (task : Task σ) : Prop :=
  (∀ layer ∈ task.layers, ∃ g, layer = .body g) ∧
    match task.mode with
    | .acting .. | .asking .. | .detaching _ => False
    | .awaiting _ | .inspecting .. | .retiring .. | .delivering _ | .unwinding _ | .done _
    | .lost => True

theorem Spent.emission_eq (spent : task.Spent) : task.emission = [] := by
  obtain ⟨_, mode⟩ := spent
  unfold emission request?
  cases mode_eq : task.mode with
  | asking s depth r =>
      rw [mode_eq] at mode
      exact mode.elim
  | _ => rfl

theorem Spent.advance {I : Interpreter σ} {task' : Task σ} {notes : List Note} (spent : task.Spent)
    (advances : task.advance I = some (task', notes)) : task'.Spent := by
  obtain ⟨bodies, mode⟩ := spent
  obtain ⟨s, depth, mode_eq, _⟩ | ⟨c, mode_eq, rfl⟩ | ⟨a, mode_eq, rfl⟩ := advance_cases advances
  · rw [mode_eq] at mode
    exact mode.elim
  · unfold deliver
    cases layers_eq : task.layers with
    | nil => exact ⟨fun layer member => (List.not_mem_nil member).elim, trivial⟩
    | cons layer layers =>
        rw [layers_eq] at bodies
        obtain ⟨g, rfl⟩ := bodies layer List.mem_cons_self
        refine ⟨fun other member => bodies other (List.mem_cons_of_mem _ member), ?_⟩
        cases kind_eq : g.kind <;> simp [endBody, kind_eq]
  · unfold unwind
    cases layers_eq : task.layers with
    | nil => exact ⟨fun layer member => (List.not_mem_nil member).elim, trivial⟩
    | cons layer layers =>
        rw [layers_eq] at bodies
        obtain ⟨g, rfl⟩ := bodies layer List.mem_cons_self
        exact ⟨fun other member => bodies other (List.mem_cons_of_mem _ member), trivial⟩

theorem Spent.answer (I : Interpreter σ) (spent : task.Spent) (a : Answer) :
    (task.answer I a).1.Spent := by
  obtain ⟨bodies, mode⟩ := spent
  unfold Task.answer
  split
  · rename_i mode_eq
    rw [mode_eq] at mode
    exact mode.elim
  · rename_i mode_eq
    rw [mode_eq] at mode
    exact mode.elim
  · exact ⟨bodies, trivial⟩
  · split
    · exact ⟨bodies, trivial⟩
    · exact ⟨bodies, trivial⟩
  · rename_i passing mode_eq
    unfold retired
    split
    · cases passing with
      | none => exact ⟨bodies, trivial⟩
      | some abort => exact ⟨bodies, trivial⟩
    · cases passing with
      | none => exact ⟨bodies, trivial⟩
      | some abort => exact ⟨bodies, trivial⟩
  all_goals exact ⟨bodies, mode⟩

theorem Spent.reask (spent : task.Spent) (r : Request) : (task.reask r).Spent := by
  unfold Task.reask
  split
  · rename_i mode_eq
    have mode := spent.2
    rw [mode_eq] at mode
    exact mode.elim
  · exact spent

theorem Spent.step {u : World σ} {c : Ctx} {task' : Task σ} {d : Option Deed} {ro : Roster σ}
    (spent : task.Spent) (step : u.TaskStep c task d ro task') : task'.Spent := by
  cases step with
  | advanced _ advances => exact spent.advance advances
  | answered _ _ _ _ => exact spent.answer _ _
  | replaced _ => exact spent.answer _ _
  | deferred _ => exact spent.reask _
  | launches _ => exact spent.reask _

/-- A context that clears up goes on with it. -/
theorem Spent.of_step {I : Interpreter σ} {u v : World σ} {c : Ctx} {h : List Deed}
    {task' : Task σ} (spent : task.Spent) (isPublic : I.IsPublic) (launching : World.Launching h u)
    (task_eq : u.roster.taskAt c = some task) (done : u.step I c = some v)
    (task_eq' : v.roster.taskAt c = some task') : task'.Spent := by
  have performed : u.perform (.step I c) = some v := done
  have isPublic' : (Operation.step I c).IsPublic := isPublic
  have turnover := (World.shift_perform isPublic' performed).turnover launching c
  rw [task_eq'] at turnover
  generalize after_eq : some task' = after at turnover
  cases turnover with
  | same _ =>
      cases after_eq.trans task_eq
      exact spent
  | stepped _ task_eq'' step =>
      cases after_eq
      cases task_eq.symm.trans task_eq''
      exact spent.step step
  | called _ none_eq _ | started _ none_eq _ => cases none_eq.symm.trans task_eq
  | takenBack _ _ _ | ended _ _ _ _ => cases after_eq

end Task

/-! ## How far a job run has come -/

namespace IntMachine

variable {lib : Library} {job : Job} {thread : Thread} {layers : List (Layer Activation)}
  {task : Task Activation} {out : List Int32} {n : Nat} {jobRun : JobRun}

/-- How far the latest job run of a context has come, by the task that the context is at. -/
inductive Stands (lib : Library) (jobRun : JobRun) : Option (Task Activation) → Prop
  /-- a body has yet to give up its join handle -/
  | waiting {thread : Thread} (job_eq : jobRun.job = .ofThread thread) (out_eq : jobRun.out = [])
      (unended : jobRun.ending = none) :
      Stands lib jobRun (some ⟨thread, [], .detaching (Task.guardOf thread)⟩)
  /-- the call is under way -/
  | going {thread : Thread} {layers : List (Layer Activation)} {n : Nat} {task : Task Activation}
      (admitted : jobRun.job.refusal? = none) (suits : jobRun.job.input.Suits thread)
      (bodies : ∀ layer ∈ layers, ∃ g, layer = .body g)
      (length_eq : layers.length = jobRun.job.depth)
      (moves : Task.Moves (interpreter lib) layers n
        (jobRun.job.input.firstTask lib thread layers) jobRun.out task)
      (within : Within lib thread layers task) (going : ¬ task.Over layers)
      (unended : jobRun.ending = none) : Stands lib jobRun (some task)
  /-- the job has ended, and the context clears up -/
  | settled {x : Ending} {task? : Option (Task Activation)} (ended : jobRun.ending = some x)
      (ends : jobRun.job.Ends lib jobRun.out x) (spent : ∀ task, task? = some task → task.Spent) :
      Stands lib jobRun task?

/-- The job runs of a context, the latest first, and the task that the context is at. -/
def Kept (lib : Library) : List JobRun → Option (Task Activation) → Prop
  | [], task? => task? = none
  | jobRun :: past, task? =>
    Stands lib jobRun task? ∧ ∀ old ∈ past, ∃ x, old.ending = some x ∧ old.job.Ends lib old.out x

theorem Stands.of_none (stands : Stands lib jobRun none) :
    ∃ x, jobRun.ending = some x ∧ jobRun.job.Ends lib jobRun.out x := by
  cases stands with
  | settled ended ends spent => exact ⟨_, ended, ends⟩

theorem Stands.of_finished {x : Completion} (stands : Stands lib jobRun (some task))
    (finished : task.completion? = some x) : Stands lib jobRun none := by
  cases stands with
  | waiting job_eq out_eq unended => cases finished
  | going admitted suits bodies length_eq moves within going unended =>
      cases within.completion?.symm.trans finished
  | settled ended ends spent =>
      refine .settled ended ends ?_
      rintro _ ⟨⟩

/-- A call that is not over shows no ending. -/
theorem ended?_of_going (within : Within lib thread layers task) (going : ¬ task.Over layers)
    (length_eq : layers.length = job.depth) : job.ended? task = none := by
  unfold Job.ended?
  split
  · rename_i same
    have whole : layers = task.layers := within.suffix.eq_of_length (length_eq.trans same.symm)
    unfold Task.ending?
    split
    · rename_i r mode_eq
      exact absurd ⟨whole.symm, .inl ⟨_, mode_eq⟩⟩ going
    · rename_i a mode_eq
      exact absurd ⟨whole.symm, .inr ⟨a, mode_eq⟩⟩ going
    · rfl
  · rfl

/-- A call that has taken some steps is under way, or has ended as its input determines. -/
theorem stands_of_moves (admitted : job.refusal? = none) (suits : job.input.Suits thread)
    (bodies : ∀ layer ∈ layers, ∃ g, layer = .body g) (length_eq : layers.length = job.depth)
    (moves : Task.Moves (interpreter lib) layers n (job.input.firstTask lib thread layers) out
      task)
    (within : Within lib thread layers task) :
    Stands lib ⟨job, out, job.ended? task⟩ (some task) := by
  by_cases finished : task.Over layers
  · obtain ⟨x, ending_eq⟩ := CallInput.ending?_of_over within finished
    have ended_eq : job.ended? task = some x := by
      rw [Job.ended?, finished.1, if_pos length_eq, ending_eq]
    refine .settled ended_eq ?_ ?_
    · simp only [Job.Ends, admitted]
      exact CallInput.ends_of_moves suits moves finished ending_eq
    · rintro task' ⟨⟩
      refine ⟨by rw [finished.1]; exact bodies, ?_⟩
      obtain ⟨_, ⟨c, mode_eq⟩ | ⟨a, mode_eq⟩⟩ := finished
      · rw [mode_eq]
        trivial
      · rw [mode_eq]
        trivial
  · exact .going admitted suits bodies length_eq moves within finished
      (ended?_of_going within finished length_eq)

/-- A call that has just been made. -/
theorem stands_of_call (admitted : job.refusal? = none) (suits : job.input.Suits thread)
    (bodies : ∀ layer ∈ layers, ∃ g, layer = .body g) (length_eq : layers.length = job.depth) :
    Stands lib ⟨job, [], job.ended? (job.input.firstTask lib thread layers)⟩
      (some (job.input.firstTask lib thread layers)) :=
  stands_of_moves admitted suits bodies length_eq (.refl _) (within_call lib thread layers _ _)

/-- A body whose preconditions have just been checked. -/
theorem stands_of_runBody (lib : Library) (thread : Thread) :
    let task := (Task.runBody (interpreter lib) thread [] (Task.guardOf thread)).1
    Stands lib ⟨.ofThread thread, [], (Job.ofThread thread).ended? task⟩ (some task) := by
  have bodies : ∀ layer ∈ [Layer.body (Task.guardOf thread)], ∃ g,
      (layer : Layer Activation) = .body g := by simp
  -- a precondition that fails ends the job at once
  have refused {a : Abort} (refusal : (Job.ofThread thread).refusal? = some a) :
      Stands lib ⟨.ofThread thread, [], some ⟨.abort a, thread.pc, thread.frames⟩⟩
        (some ⟨thread, [.body (Task.guardOf thread)], .unwinding a⟩) := by
    refine .settled rfl ?_ ?_
    · simp only [Job.Ends, refusal, true_and]
      rfl
    · rintro task' ⟨⟩
      exact ⟨bodies, trivial⟩
  dsimp only
  unfold Task.runBody
  dsimp only
  split
  · rename_i active
    refine refused ?_
    simp [Job.refusal?, Job.ofThread, active]
  · rename_i inactive
    split
    · rename_i arity
      refine refused ?_
      have arity' : thread.kind = .application ∧ thread.args.length ≠ 1 := arity
      simp [Job.refusal?, Job.ofThread, inactive, arity']
    · rename_i arity
      have arity' : ¬ (thread.kind = .application ∧ thread.args.length ≠ 1) := arity
      have admitted : (Job.ofThread thread).refusal? = none := by
        simp only [Job.refusal?, Job.ofThread]
        rw [if_neg inactive, if_neg arity']
      have suits : (Job.ofThread thread).input.Suits { thread with args := [] } := ⟨rfl, rfl⟩
      exact stands_of_call admitted suits bodies rfl

/-- A body that has just been started. -/
theorem stands_of_start (lib : Library) (thread : Thread) :
    let task := (Task.start (interpreter lib) thread []).1
    Stands lib ⟨.ofThread thread, [], (Job.ofThread thread).ended? task⟩ (some task) := by
  dsimp only
  unfold Task.start
  dsimp only
  cases kind_eq : (Task.guardOf thread).kind with
  | application => exact .waiting rfl rfl rfl
  | main => exact stands_of_runBody lib thread

/-- To look at a context again tells nothing new. -/
theorem Stands.looked {task? : Option (Task Activation)} (stands : Stands lib jobRun task?) :
    jobRun.ending.or (task?.bind jobRun.job.ended?) = jobRun.ending := by
  cases stands with
  | waiting job_eq out_eq unended =>
      rw [unended, job_eq]
      rfl
  | going admitted suits bodies length_eq moves within going unended =>
      rw [unended, Option.none_or, Option.bind_some, ended?_of_going within going length_eq]
  | settled ended ends spent => rw [ended, Option.some_or]

/-- A context that does nothing for its job run leaves it as it is. -/
theorem Stands.same {task? : Option (Task Activation)} (stands : Stands lib jobRun task?) :
    Stands lib { jobRun with
      out := jobRun.out ++ []
      ending := jobRun.ending.or (task?.bind jobRun.job.ended?) } task? := by
  rw [List.append_nil, stands.looked]
  exact stands

/-! ## One operation -/

section Step

variable {u v : World Activation} {c : Ctx} {h : List Deed} {op : Operation Activation}

/-- The step of a context for its latest job run. -/
theorem Stands.step (launching : World.Launching h u) (task_eq : u.roster.taskAt c = some task)
    (done : u.step (interpreter lib) c = some v) (stands : Stands lib jobRun (some task)) :
    Stands lib { jobRun with
      out := jobRun.out ++ task.emission
      ending := jobRun.ending.or ((v.roster.taskAt c).bind jobRun.job.ended?) }
      (v.roster.taskAt c) := by
  cases stands with
  | @waiting thread job_eq out_eq unended =>
      have stays : ((⟨thread, [], .detaching (Task.guardOf thread)⟩ : Task Activation).answer
          (interpreter lib) .done).1.completion? = none :=
        Task.completion?_runBody (interpreter lib) thread [] (Task.guardOf thread)
      obtain ⟨v', done', after⟩ := World.taskAt_of_answered (I := interpreter lib) task_eq rfl
        (World.serve.eq_1 _ _ _) (World.roster_modifyHandle _ _ _) stays
      cases done.symm.trans done'
      rw [after, unended, out_eq, job_eq]
      exact stands_of_runBody lib thread
  | @going thread layers n _ admitted suits bodies length_eq moves within going unended =>
      obtain ⟨emitted, next, move_eq, within'⟩ := within.moves going
      obtain ⟨v', done', after, output_eq⟩ :=
        World.step_of_move task_eq move_eq within'.completion?
      cases done.symm.trans done'
      have emission_eq : task.emission = emitted := by
        have put := World.output_step task_eq done
        rw [output_eq] at put
        exact (List.append_cancel_left put).symm
      have longer := moves.trans (.head going move_eq (.refl next))
      rw [List.append_nil] at longer
      rw [after, unended, emission_eq]
      exact stands_of_moves admitted suits bodies length_eq longer within'
  | settled ended ends spent =>
      have quiet := spent task rfl
      rw [quiet.emission_eq, List.append_nil, ended, Option.some_or]
      refine .settled rfl ends ?_
      intro task' task_eq'
      exact quiet.of_step (isPublic_interpreter lib) launching task_eq done task_eq'

/-- The latest job run of a context, after an operation that the context performs and that sets it
to no other job. -/
theorem Stands.perform (launching : World.Launching h u) (uses : op.Uses (interpreter lib))
    (done : u.perform op = some v) (noJob : u.job? op = none)
    (stands : Stands lib jobRun (u.roster.taskAt op.performer)) :
    Stands lib { jobRun with
      out := jobRun.out ++ u.emission op
      ending := jobRun.ending.or ((v.roster.taskAt op.performer).bind jobRun.job.ended?) }
      (v.roster.taskAt op.performer) := by
  cases task_eq : u.roster.taskAt op.performer with
  | none =>
      rw [task_eq] at stands
      rw [World.emission_of_idle task_eq, World.taskAt_of_idle done noJob task_eq]
      exact stands.same
  | some task =>
      rw [task_eq] at stands
      by_cases steps : ∃ I c, op = .step I c
      · obtain ⟨I, c, rfl⟩ := steps
        cases uses
        have task_eq' : u.roster.taskAt c = some task := task_eq
        rw [World.emission_of_task task_eq']
        exact stands.step launching task_eq' done
      · have noStep : ∀ I c, op ≠ .step I c := fun I c same => steps ⟨I, c, same⟩
        have silent : u.emission op = [] := by
          cases op with
          | step I c => exact absurd rfl (noStep I c)
          | _ => rfl
        rw [silent]
        rcases World.taskAt_of_no_job done noStep noJob op.performer with
          same | ⟨after, old, x, old_eq, finished⟩
        · rw [same, task_eq]
          exact stands.same
        · cases task_eq.symm.trans old_eq
          rw [after]
          exact (stands.of_finished finished).same

/-- The job runs of a context after an operation that it performs. -/
theorem Kept.perform {jobRuns : List JobRun} (launching : World.Launching h u)
    (uses : op.Uses (interpreter lib)) (done : u.perform op = some v)
    (kept : Kept lib jobRuns (u.roster.taskAt op.performer)) :
    Kept lib (u.jobRunsAfter v op jobRuns) (v.roster.taskAt op.performer) := by
  unfold World.jobRunsAfter
  cases job_eq : u.job? op with
  | some job =>
      obtain ⟨idle, begun⟩ := World.taskAt_of_job done uses job_eq
      refine ⟨?_, fun old member => ?_⟩
      · obtain ⟨thread, m, args, rfl, after⟩ | ⟨thread, rfl, after⟩ := begun
        · rw [after]
          have admitted : (Job.call ⟨thread.frames, thread.pc, m, args⟩).refusal? = none := rfl
          exact stands_of_call admitted ⟨rfl, rfl⟩ (fun _ member => nomatch member) rfl
        · rw [after]
          exact stands_of_start lib thread
      · rw [idle] at kept
        cases jobRuns with
        | nil => cases member
        | cons jobRun past =>
            rcases List.mem_cons.mp member with rfl | earlier
            · exact kept.1.of_none
            · exact kept.2 old earlier
  | none =>
      cases jobRuns with
      | nil => exact World.taskAt_of_idle done job_eq kept
      | cons jobRun past =>
          obtain ⟨stands, ended⟩ := kept
          refine ⟨?_, ended⟩
          exact stands.perform launching uses done job_eq

/-- The job runs of a context after an operation that somebody else performs. -/
theorem Kept.other {jobRuns : List JobRun} (launching : World.Launching h u)
    (uses : op.Uses (interpreter lib)) (done : u.perform op = some v) (other : c ≠ op.performer)
    (kept : Kept lib jobRuns (u.roster.taskAt c)) : Kept lib jobRuns (v.roster.taskAt c) := by
  rcases World.taskAt_of_other launching (uses.isPublic (isPublic_interpreter lib)) done other with
    same | ⟨after, task, x, task_eq, finished⟩
  · rw [same]
    exact kept
  · rw [after]
    rw [task_eq] at kept
    cases jobRuns with
    | nil => cases kept
    | cons jobRun past => exact ⟨kept.1.of_finished finished, kept.2⟩

end Step

end IntMachine

/-! ## Along runs -/

/-- What a context has put out for all its job runs, the latest of which comes first. -/
def IntMachine.putOut (jobRuns : List JobRun) : List Int32 := jobRuns.reverse.flatMap JobRun.out

namespace World

open IntMachine (Kept putOut)

variable {lib : Library} {w u v : World IntMachine.Activation} {diary : Ctx → List JobRun}
  {op : Operation IntMachine.Activation}

/-- What the performer of an operation puts out is put out for its latest job run. -/
theorem putOut_jobRunsAfter {jobRuns : List JobRun} (done : u.perform op = some v)
    (uses : op.Uses (interpreter lib)) (kept : Kept lib jobRuns (u.roster.taskAt op.performer)) :
    putOut (u.jobRunsAfter v op jobRuns) = putOut jobRuns ++ u.emission op := by
  unfold jobRunsAfter
  cases job_eq : u.job? op with
  | some job =>
      rw [emission_of_idle (taskAt_of_job done uses job_eq).1]
      simp [putOut]
  | none =>
      cases jobRuns with
      | nil =>
          rw [emission_of_idle kept]
          rfl
      | cons jobRun past => simp [putOut]

/-- Along every watched run the job runs of each context stand as its task says, and the output is a
shuffle of what was put out for them. -/
theorem Watched.accounted {n : Nat} {config : ConfigCell}
    (watched : Watched lib (ofRegistries n config) diary v) :
    (∀ c, Kept lib (diary c) (v.roster.taskAt c)) ∧
      IsShuffle (fun c => putOut (diary c)) v.output := by
  induction watched with
  | refl =>
      refine ⟨fun c => ?_, [], rfl, fun c => rfl⟩
      cases c <;> rfl
  | @snoc diary u v op before uses done ih =>
      obtain ⟨kept, shuffled⟩ := ih
      obtain ⟨h, run⟩ := before.run
      refine ⟨fun c => ?_, ?_⟩
      · by_cases own : c = op.performer
        · subst own
          rw [Function.update_self]
          exact (kept op.performer).perform run.launching uses done
        · rw [Function.update_of_ne own]
          exact (kept c).other run.launching uses done own
      · rw [output_perform done]
        refine shuffled.append (i := op.performer) ?_ ?_
        · rw [Function.update_self]
          exact putOut_jobRunsAfter done uses (kept op.performer)
        · intro c other
          rw [Function.update_of_ne other]

/-! ## Independence -/

/-- Steps of one context, while all others stand still. -/
def Alone {σ : Type} (I : Interpreter σ) (c : Ctx) : World σ → World σ → Prop :=
  Relation.ReflTransGen fun w v => w.step I c = some v

theorem Solo.alone {σ : Type} {I : Interpreter σ} {c : Ctx} {layers : List (Layer σ)}
    {w v : World σ} (solo : Solo I c layers w v) : Alone I c w v :=
  Relation.ReflTransGen.mono (fun _ _ step => step.2) _ _ solo

section Reports

variable {c : Ctx} {jobRun : JobRun} {out : List Int32} {x : IntMachine.Ending}

/-- From here, the steps of a context alone bring its latest job run to an end, with `rest` to be
put out on the way. -/
def Finishes (lib : Library) (v : World IntMachine.Activation) (c : Ctx) (job : Job)
    (rest : List Int32) (x : IntMachine.Ending) : Prop :=
  ∃ final, Alone (interpreter lib) c v final ∧ final.output = v.output ++ rest ∧
    (final.roster.taskAt c).bind job.ended? = some x

/-- A job run that has not ended can take its next step, and goes on to the end of its job, if the
job has one. -/
structure Unhindered (lib : Library) (v : World IntMachine.Activation) (c : Ctx) (jobRun : JobRun) :
    Prop where
  steps : ∃ next, v.step (interpreter lib) c = some next
  finishes : ∀ out x, jobRun.job.Ends lib out x →
    ∃ rest, out = jobRun.out ++ rest ∧ Finishes lib v c jobRun.job rest x

/-- A call that is under way goes on to the end of its job. -/
theorem unhindered_of_going {thread : Thread} {layers : List (Layer IntMachine.Activation)}
    {n : Nat} {task : Task IntMachine.Activation} (admitted : jobRun.job.refusal? = none)
    (suits : jobRun.job.input.Suits thread) (length_eq : layers.length = jobRun.job.depth)
    (moves : Task.Moves (interpreter lib) layers n
      (jobRun.job.input.firstTask lib thread layers)
      jobRun.out task)
    (within : IntMachine.Within lib thread layers task) (going : ¬ task.Over layers)
    (task_eq : v.roster.taskAt c = some task) : Unhindered lib v c jobRun := by
  refine ⟨?_, fun out x ends => ?_⟩
  · obtain ⟨_, _, move_eq, within'⟩ := within.moves going
    obtain ⟨next, done, _⟩ := step_of_move task_eq move_eq within'.completion?
    exact ⟨next, done⟩
  · simp only [Job.Ends, admitted] at ends
    obtain ⟨k, final, whole, finished, ending_eq⟩ :=
      IntMachine.CallInput.moves_of_ends ends suits layers
    obtain ⟨j, rest, _, rfl, last⟩ := moves.cancel whole finished
    obtain ⟨v', solo, final_eq, output_eq⟩ :=
      (IntMachine.Within.steady lib thread layers).solo last within task_eq
    refine ⟨rest, rfl, v', solo.alone, output_eq, ?_⟩
    rw [final_eq, Option.bind_some, Job.ended?, finished.1, if_pos length_eq, ending_eq]

/-- So does a body that has yet to give up its join handle. -/
theorem unhindered_of_waiting {thread : Thread} (job_eq : jobRun.job = .ofThread thread)
    (out_eq : jobRun.out = [])
    (task_eq : v.roster.taskAt c = some ⟨thread, [], .detaching (Task.guardOf thread)⟩) :
    Unhindered lib v c jobRun := by
  obtain ⟨next, done, after⟩ := taskAt_of_answered (I := interpreter lib) task_eq rfl
    (serve.eq_1 _ _ _) (roster_modifyHandle _ _ _)
    (Task.completion?_runBody (interpreter lib) thread [] (Task.guardOf thread))
  have output_eq : next.output = v.output :=
    (output_step task_eq done).trans (List.append_nil _)
  refine ⟨⟨next, done⟩, fun out x ends => ⟨out, by rw [out_eq, List.nil_append], ?_⟩⟩
  have bodyLayers := Task.runBody_layers (interpreter lib) thread [] (Task.guardOf thread)
  have stands := IntMachine.stands_of_runBody lib thread
  dsimp only at stands
  generalize task_eq' : (Task.runBody (interpreter lib) thread [] (Task.guardOf thread)).1 = task
    at stands bodyLayers
  have after' : next.roster.taskAt c = some task := by rw [← task_eq']; exact after
  rw [job_eq] at ends ⊢
  cases stands with
  | waiting _ _ _ => cases bodyLayers
  | going admitted suits _ length_eq moves within going _ =>
      obtain ⟨rest, out_eq', final, alone, final_output, ended⟩ :=
        (unhindered_of_going admitted suits length_eq moves within going after').finishes out x ends
      have rest_eq : rest = out := out_eq'.symm
      subst rest_eq
      exact ⟨final, .head done alone, by rw [final_output, output_eq], ended⟩
  | settled ended ends' _ =>
      obtain ⟨rfl, rfl⟩ := Job.Ends.unique ends ends'
      refine ⟨next, .single done, by rw [output_eq, List.append_nil], ?_⟩
      rw [after', Option.bind_some]
      exact ended

/-- A job run that has ended has gone as its job goes alone, and one that has not is unhindered. -/
theorem stands_report {task? : Option (Task IntMachine.Activation)}
    (stands : IntMachine.Stands lib jobRun task?) (task_eq : v.roster.taskAt c = task?) :
    match jobRun.ending with
    | some x => jobRun.job.Ends lib jobRun.out x
    | none => Unhindered lib v c jobRun := by
  cases stands with
  | waiting job_eq out_eq unended =>
      rw [unended]
      exact unhindered_of_waiting job_eq out_eq task_eq
  | going admitted suits bodies length_eq moves within going unended =>
      rw [unended]
      exact unhindered_of_going admitted suits length_eq moves within going task_eq
  | settled ended ends spent =>
      rw [ended]
      exact ends

end Reports

end World

open World in
/-- Threads that share an int machine do not influence each other.

* What a call puts out, its outcome and what it leaves of the frames and of the program counter are
  determined by the programs, the frames and the program counter at its beginning, the method and
  the arguments (`CallInput.Ends` knows nothing else).
* Whatever the world, the context, the thread and the layers that wait: a call that comes to an end,
  alone, has the ending of its input, and the output is what it was before, followed by what the
  call with that input puts out.  It does come to an end if its input has one.
* In every run in which all turns are taken by the one machine, whatever else happens between the
  steps: the output is a shuffle of what the contexts have put out, each for its jobs in their
  order; every job that has ended has put out what it puts out alone, and has the ending that it has
  alone; and every job that has not ended is unhindered in going there. -/
theorem IntMachine.threads_independent (lib : Library) :
    (∀ (e : CallInput) (out out' : List Int32) (x x' : Ending),
        e.Ends lib out x → e.Ends lib out' x' → out = out' ∧ x = x') ∧
      (∀ (e : CallInput) (thread : Thread) (layers : List (Layer Activation)) (c : Ctx)
          (w : World Activation), e.Suits thread →
        w.roster.taskAt c = some (e.firstTask lib thread layers) →
        (∀ v task, Solo (interpreter lib) c layers w v → v.roster.taskAt c = some task →
          task.Over layers →
          ∃ out x, e.Ends lib out x ∧ task.ending? = some x ∧ v.output = w.output ++ out) ∧
        ∀ out x, e.Ends lib out x →
          ∃ v task, Solo (interpreter lib) c layers w v ∧ v.roster.taskAt c = some task ∧
            task.Over layers ∧ task.ending? = some x ∧ v.output = w.output ++ out) ∧
      ∀ (n : Nat) (config : ConfigCell) (diary : Ctx → List JobRun) (v : World Activation),
        Watched lib (ofRegistries n config) diary v →
        IsShuffle (fun c => putOut (diary c)) v.output ∧
          ∀ c, ∀ jobRun ∈ diary c,
            match jobRun.ending with
            | some x => jobRun.job.Ends lib jobRun.out x
            | none => Unhindered lib v c jobRun := by
  refine ⟨fun e out out' x x' first second => first.unique second, ?_, ?_⟩
  · intro e thread layers c w suits task_eq
    refine ⟨fun v task solo final_eq finished => ?_, fun out x ends => ?_⟩
    · exact CallInput.ends_of_solo suits task_eq solo final_eq finished
    · exact CallInput.solo_of_ends ends suits task_eq
  · intro n config diary v watched
    obtain ⟨kept, shuffled⟩ := watched.accounted
    refine ⟨shuffled, fun c jobRun member => ?_⟩
    have jobRuns := kept c
    cases diary_eq : diary c with
    | nil =>
        rw [diary_eq] at member
        cases member
    | cons latest past =>
        rw [diary_eq] at member jobRuns
        rcases List.mem_cons.mp member with rfl | earlier
        · exact stands_report jobRuns.1 rfl
        · obtain ⟨x, ended, ends⟩ := jobRuns.2 jobRun earlier
          rw [ended]
          exact ends

namespace IntMachine

/-- A method that puts out its argument, and then the int before it. -/
def countdownMethod : MethodRef :=
  ⟨⟨"countdown", "(I)V", true, false, 1, declaredStack, [.int], .void⟩, none⟩

def countdownLibrary : Library :=
  [⟨countdownMethod, [.load 0, .emit, .load 0, .const 1, .sub, .emit, .returnNothing]⟩]

/-- The job of an application thread that counts down. -/
def countdown (v : Int32) : Job :=
  .body .application ⟨.empty 4, 0, countdownMethod, [Value.int v]⟩

/-- Two threads count down, one from 7 and one from 3; both have put out their first int before
either puts out its second, and the second thread overtakes the first. -/
theorem threads_independent_of_countdowns :
    ∃ (diary : Ctx → List JobRun) (v : World Activation) (x : Ending),
      World.Watched countdownLibrary (World.ofRegistries 1 ConfigCell.fresh) diary v ∧
        v.output = [7, 3, 2, 6] ∧ IsShuffle (fun c => putOut (diary c)) [7, 3, 2, 6] ∧
        putOut (diary (.body 0)) = [7, 6] ∧ putOut (diary (.body 1)) = [3, 2] ∧
        (countdown 7).Ends countdownLibrary [7, 6] x ∧
        (countdown 3).Ends countdownLibrary [3, 2] x ∧ x.outcome = .ok none := by
  let I := interpreter countdownLibrary
  let ops : List (Operation Activation) := List.flatten
    [[.application countdownMethod [Value.int 7] ⟨0, 4, .intMachine⟩,
        .application countdownMethod [Value.int 3] ⟨0, 4, .intMachine⟩, .create 0 .null,
        .create 1 .null],
      List.replicate 4 (.step I (.creator 0)), List.replicate 4 (.step I (.creator 1)),
      (List.replicate 11 [.step I (.body 0), .step I (.body 1)]).flatten,
      List.replicate 3 (.step I (.body 1)), List.replicate 2 (.step I (.body 0))]
  have uses : ∀ op ∈ ops, op.Uses I := by
    simp [ops, I, Operation.Uses]
  let x : Ending := ⟨.ok none, 0, .empty 4⟩
  have done : ((World.ofRegistries 1 ConfigCell.fresh : World Activation).watchAll (fun _ => [])
      ops).map (fun done => (done.2.output, done.1 (.body 0), done.1 (.body 1))) =
      some ([7, 3, 2, 6], [⟨countdown 7, [7, 6], some x⟩], [⟨countdown 3, [3, 2], some x⟩]) := by
    decide +kernel
  obtain ⟨⟨diary, v⟩, reached, seen⟩ := Option.map_eq_some_iff.mp done
  simp only [Prod.mk.injEq] at seen
  obtain ⟨output_eq, first_eq, second_eq⟩ := seen
  have watched := World.Watched.refl.watchAll uses reached
  obtain ⟨shuffled, jobRuns⟩ := (threads_independent countdownLibrary).2.2 1 _ diary v watched
  rw [output_eq] at shuffled
  have first := jobRuns (.body 0) ⟨countdown 7, [7, 6], some x⟩ (by rw [first_eq]; simp)
  have second := jobRuns (.body 1) ⟨countdown 3, [3, 2], some x⟩ (by rw [second_eq]; simp)
  exact ⟨diary, v, x, watched, output_eq, shuffled, by rw [first_eq]; rfl, by rw [second_eq]; rfl,
    first, second, rfl⟩

end IntMachine

end ThreadEngine
