import ThreadEngine.Proofs.Commons
import ThreadEngine.Proofs.CallInputs
import ThreadEngine.Proofs.TaskRuns
import Mathlib.Logic.Function.Basic

set_option autoImplicit false

/-!
# Runs of jobs

A context is set to a job when it is to make a call or to run the body of a thread, and what becomes
of that is a run of the job (`JobRun`): the job, what is put out for it, and how it ends.  An
observer of a run on one int machine writes down the job runs of every context (`Watched`), by the
operations and by what can be seen of the world before and after each of them.

The second half says what an operation does to the tasks of contexts, as far as the observer depends
on it: whoever is set to a job was at no task and is at its first task now (`taskAt_of_job`), and an
operation that is no step and sets nobody to a job leaves the tasks alone (`taskAt_of_no_job`).
-/

namespace ThreadEngine

namespace IntMachine

/-! ## Jobs -/

/-- What a context is set to do on a thread: to make a call, or to run the body of the thread. -/
inductive Job where
  | call (e : CallInput)
  | body (kind : Kind) (e : CallInput)
  deriving DecidableEq, Repr, Inhabited

namespace Job

/-- The call that a job is about. -/
def input : Job → CallInput
  | .call e | .body _ e => e

/-- How many layers wait for the call of a job. -/
def depth : Job → Nat
  | .call _ => 0
  | .body .. => 1

/-- Why a body does not get to its call. -/
def refusal? : Job → Option Abort
  | .call _ => none
  | .body kind e =>
    if !e.frames.isEmpty then some (.invariant .activeFrames)
    else if kind = .application ∧ e.args.length ≠ 1 then some (.invariant .receiverArgument)
    else none

/-- The job of running the body of a thread. -/
def ofThread (thread : Thread) : Job :=
  .body thread.kind ⟨thread.frames, thread.pc, thread.method, thread.args⟩

/-- A job that is done alone puts out some ints and comes to an end. -/
def Ends (lib : Library) (job : Job) (out : List Int32) (x : Ending) : Prop :=
  match job.refusal? with
  | some a => out = [] ∧ x = ⟨.abort a, job.input.pc, job.input.frames⟩
  | none => job.input.Ends lib out x

theorem Ends.unique {lib : Library} {job : Job} {out out' : List Int32} {x x' : Ending}
    (first : job.Ends lib out x) (second : job.Ends lib out' x') : out = out' ∧ x = x' := by
  unfold Ends at first second
  split at first
  · rename_i a refusal
    simp only [refusal] at second
    exact ⟨first.1.trans second.1.symm, first.2.trans second.2.symm⟩
  · rename_i admitted
    simp only [admitted] at second
    exact CallInput.Ends.unique first second

/-- How a job has ended, read off the task of its context at that moment. -/
def ended? {σ : Type} (job : Job) (task : Task σ) : Option Ending :=
  if task.layers.length = job.depth then task.ending? else none

end Job

/-- A job, with what has been put out for it and how it has ended. -/
structure JobRun where
  job : Job
  out : List Int32
  ending : Option Ending
  deriving DecidableEq, Repr, Inhabited

end IntMachine

open IntMachine (Job JobRun Library interpreter)

/-- Whoever takes turns in an operation is a given interpreter. -/
def Operation.Uses {σ : Type} (I : Interpreter σ) : Operation σ → Prop
  | .step J _ | .call J .. | .start J _ => J = I
  | _ => True

theorem Operation.Uses.isPublic {σ : Type} {I : Interpreter σ} {op : Operation σ}
    (uses : op.Uses I) (isPublic : I.IsPublic) : op.IsPublic := by
  cases op with
  | step J c | call J slot m args | start J slot =>
      cases uses
      exact isPublic
  | _ => trivial

namespace World

variable {σ : Type} {I : Interpreter σ} {u v : World σ} {op : Operation σ} {c : Ctx} {job : Job}

/-! ## What an observer writes down -/

/-- The job that an operation sets its performer to. -/
def job? (u : World σ) : Operation σ → Option Job
  | .call _ slot m args =>
    (u.held? slot).map fun thread => .call ⟨thread.frames, thread.pc, m, args⟩
  | .start _ slot => (u.held? slot).map .ofThread
  | .step _ (.body t) =>
    match u.strands[t]?.bind Strand.child with
    | some (.reporting thread) => some (.ofThread thread)
    | _ => none
  | _ => none

/-- The job runs of the performer of an operation afterwards, the latest first: a new one, or what
was put out for the latest one and how it has ended, if it has. -/
def jobRunsAfter (u v : World σ) (op : Operation σ) (jobRuns : List JobRun) : List JobRun :=
  match u.job? op, jobRuns with
  | some job, jobRuns => ⟨job, [], (v.roster.taskAt op.performer).bind job.ended?⟩ :: jobRuns
  | none, [] => []
  | none, jobRun :: past =>
    { jobRun with
      out := jobRun.out ++ u.emission op
      ending := jobRun.ending.or ((v.roster.taskAt op.performer).bind jobRun.job.ended?) } :: past

/-- Runs on one int machine, with the job runs of every context. -/
inductive Watched (lib : Library) (w : World IntMachine.Activation) :
    (Ctx → List JobRun) → World IntMachine.Activation → Prop
  | refl : Watched lib w (fun _ => []) w
  | snoc {diary : Ctx → List JobRun} {u v : World IntMachine.Activation}
      (op : Operation IntMachine.Activation) (watched : Watched lib w diary u)
      (uses : op.Uses (interpreter lib)) (done : u.perform op = some v) :
      Watched lib w
        (Function.update diary op.performer (u.jobRunsAfter v op (diary op.performer))) v

/-- Watched runs are runs. -/
theorem Watched.run {lib : Library} {w v : World IntMachine.Activation}
    {diary : Ctx → List JobRun} (watched : Watched lib w diary v) : ∃ h, Run w h v := by
  induction watched with
  | refl => exact ⟨[], .refl⟩
  | snoc op _ uses done ih =>
      obtain ⟨h, run⟩ := ih
      exact ⟨_, run.snoc op (uses.isPublic (IntMachine.isPublic_interpreter lib)) done⟩

/-- Carries out operations one after the other and writes the job runs down; `none` if one of
them is not possible then. -/
def watchAll (u : World σ) (diary : Ctx → List JobRun) :
    List (Operation σ) → Option ((Ctx → List JobRun) × World σ)
  | [] => some (diary, u)
  | op :: ops =>
    match u.perform op with
    | none => none
    | some v =>
      v.watchAll (Function.update diary op.performer (u.jobRunsAfter v op (diary op.performer))) ops

/-- What was carried out is a watched run. -/
theorem Watched.watchAll {lib : Library} {w u v : World IntMachine.Activation}
    {diary diary' : Ctx → List JobRun} {ops : List (Operation IntMachine.Activation)}
    (watched : Watched lib w diary u) (uses : ∀ op ∈ ops, op.Uses (interpreter lib))
    (done : u.watchAll diary ops = some (diary', v)) : Watched lib w diary' v := by
  induction ops generalizing u diary with
  | nil =>
      cases done
      exact watched
  | cons op ops ih =>
      unfold World.watchAll at done
      split at done
      · cases done
      · rename_i next first
        exact ih (watched.snoc op (uses op List.mem_cons_self) first)
          (fun other member => uses other (List.mem_cons_of_mem op member)) done

/-! ## Tasks of contexts -/

theorem taskAt_host (u : World σ) : u.roster.taskAt .host = u.host.task? := rfl

/-- Who is at no task puts nothing out. -/
theorem emission_of_idle (idle : u.roster.taskAt op.performer = none) : u.emission op = [] := by
  cases op with
  | step I c => exact emission_of_none idle
  | _ => rfl

/-- An operation that is no step, and sets nobody to a job, leaves all tasks alone, except that the
host may give up a task that is over. -/
theorem taskAt_of_no_job (done : u.perform op = some v) (noStep : ∀ I c, op ≠ .step I c)
    (noJob : u.job? op = none) (c : Ctx) :
    v.roster.taskAt c = u.roster.taskAt c ∨
      v.roster.taskAt c = none ∧ ∃ task x, u.roster.taskAt c = some task ∧
        task.completion? = some x := by
  -- the host does something else that is no task
  have ofHost {v : World σ} (launches : v.roster.launches = u.roster.launches)
      (before : u.host.task? = none) (after : v.host.task? = none) :
      v.roster.taskAt c = u.roster.taskAt c := by
    cases c with
    | host => exact after.trans before.symm
    | body t => simp only [Roster.taskAt, launches]
    | creator t => rfl
  have ofBuild (kind : Kind) (m : MethodRef) (args : List Value) (env : Env) :
      (u.build kind m args env).2.roster.taskAt c = u.roster.taskAt c := by
    obtain ⟨thread, _, roster_eq⟩ := roster_build u kind m args env
    rw [roster_eq]
    cases c with
    | host | creator t => rfl
    | body t =>
        simp only [Roster.taskAt, List.getElem?_append]
        split
        · rfl
        · rename_i beyond
          rw [List.getElem?_eq_none (Nat.le_of_not_lt beyond), List.getElem?_singleton]
          split <;> rfl
  have ofHeld (slot : ThreadId) (f : Thread → Thread) :
      (u.modifyHeld slot f).roster.taskAt c = u.roster.taskAt c := by
    unfold modifyHeld
    split
    · rfl
    · rw [roster_putHeld, Roster.taskAt_modify_held]
  cases op with
  | step I c => exact absurd rfl (noStep I c)
  | expire =>
      simp only [perform] at done
      split at done <;> cases done
      rename_i r host_eq
      refine .inl (ofHost ?_ (by rw [host_eq]; rfl) ?_)
      · simp [expire, host_eq, roster, modifyRegistry]
      · simp [expire, host_eq, Host.task?]
  | application m args env =>
      simp only [perform] at done
      split at done <;> cases done
      unfold buildApplication
      split
      · exact .inl (ofBuild .application m args env)
      · exact .inl rfl
  | main m args env =>
      simp only [perform] at done
      split at done <;> cases done
      exact .inl (ofBuild .main m args env)
  | drop slot =>
      cases done
      left
      rw [roster_takeHeld, Roster.taskAt_modify_held]
  | setPc slot pc | editFrame slot op =>
      cases done
      exact .inl (ofHeld slot _)
  | call I slot m args =>
      simp only [perform] at done
      split at done <;> cases done
      have held_eq : u.held? slot = none := Option.map_eq_none_iff.mp noJob
      simp [hostCall, held_eq]
  | start I slot =>
      simp only [perform] at done
      split at done <;> cases done
      have held_eq : u.held? slot = none := Option.map_eq_none_iff.mp noJob
      simp [hostStart, held_eq]
  | takeBack =>
      simp only [perform] at done
      split at done <;> cases done
      rename_i thread x engaged_eq
      unfold engaged? at engaged_eq
      split at engaged_eq
      · rename_i slot task host_eq
        have finished : task.completion? = some x := congrArg Prod.snd (Option.some.inj engaged_eq)
        rw [roster_disengage host_eq]
        cases c with
        | host => exact .inr ⟨rfl, task, x, by rw [taskAt_host, host_eq]; rfl, finished⟩
        | body t => exact .inl (u.roster.taskAt_modify_held (.body t) slot (some task.thread))
        | creator t => exact .inl rfl
      all_goals cases engaged_eq
  | create slot object =>
      cases done
      unfold createHeld
      split
      · exact .inl rfl
      · left
        rw [roster_create, Roster.taskAt_create]
  | add c r t =>
      simp only [perform] at done
      split at done <;> cases done
      rw [roster_add]
      exact .inl rfl
  | transition c r t next =>
      cases done
      rw [roster_transition]
      exact .inl rfl
  | unpark t =>
      cases done
      rw [roster_unpark]
      exact .inl rfl
  | beginWait r | endWait =>
      simp only [perform] at done
      split at done <;> cases done
      rename_i host_eq
      exact .inl (ofHost rfl (by rw [host_eq]; rfl) rfl)
  | installRegistry c =>
      cases done
      rw [roster_installRegistry]
      exact .inl rfl
  | removeRegistry c =>
      cases done
      rw [roster_removeRegistry]
      exact .inl rfl
  | installConfig config | readConfig =>
      cases done
      exact .inl rfl

/-- A context that is at no task takes a step to its first task, or is at none afterwards. -/
theorem taskAt_of_idle_step (done : u.step I c = some v) (idle : u.roster.taskAt c = none) :
    match u.job? (.step I c) with
    | none => v.roster.taskAt c = none
    | some job => ∃ thread, job = .ofThread thread ∧
        v.roster.taskAt c = some (Task.start I thread []).1 := by
  cases c with
  | creator t => rfl
  | host =>
      obtain ⟨slot, task, host_eq, _⟩ | ⟨r, w, host_eq, served, after⟩ := stepHost_cases done
      · rw [taskAt_host, host_eq] at idle
        cases idle
      · have roster_eq := roster_serveAwait served
        rcases after with rfl | rfl
        · rw [roster_eq]
          exact idle
        · rfl
  | body t =>
      obtain ⟨s, strand_eq, cases⟩ := stepBody_cases done
      simp only [job?, strand_eq, Option.bind_some]
      have launch_eq : u.roster.launches[t]? = some s.launchState := by
        rw [launches_getElem?, strand_eq]
        rfl
      have after {w : World σ} (child : Child σ) (same : w.roster.launches[t]?.isSome) :
          (storeChild t w child).roster.taskAt (.body t) = child.task? := by
        obtain ⟨launch, launch_eq⟩ := Option.isSome_iff_exists.mp same
        rw [roster_storeChild]
        simp [Roster.taskAt, Roster.modify, launch_eq]
      obtain ⟨thread, child_eq, _, rfl⟩ | ⟨thread, child_eq, _, _, rfl⟩ |
        ⟨thread, child_eq, rfl⟩ | ⟨thread, child_eq, rfl⟩ | ⟨task, child_eq, _⟩ := cases
      · rw [child_eq, after _ (by rw [launch_eq]; rfl)]
        cases thread.kind <;> rfl
      · rw [child_eq, after _ (by rw [launch_eq]; rfl)]
        rfl
      · rw [child_eq, after _ (by rw [roster_add, roster_note, launch_eq]; rfl)]
        rfl
      · rw [child_eq]
        refine ⟨thread, rfl, ?_⟩
        rw [roster_note, after _ (by rw [roster_sendReady]; simp [Roster.modify, launch_eq])]
        rfl
      · rw [taskAt_body strand_eq, child_eq] at idle
        cases idle

/-- An operation that sets its performer to a job finds it at no task, and has it make the call or
start the body. -/
theorem taskAt_of_job (done : u.perform op = some v) (uses : op.Uses I)
    (job_eq : u.job? op = some job) :
    u.roster.taskAt op.performer = none ∧
      ((∃ (thread : Thread) (m : MethodRef) (args : List Value),
          job = .call ⟨thread.frames, thread.pc, m, args⟩ ∧
          v.roster.taskAt op.performer = some (Task.call I thread [] m args).1) ∨
        ∃ thread, job = .ofThread thread ∧
          v.roster.taskAt op.performer = some (Task.start I thread []).1) := by
  cases op with
  | step J c =>
      cases uses
      cases c with
      | host | creator t => cases job_eq
      | body t =>
          have idle : u.roster.taskAt (.body t) = none := by
            rw [Roster.taskAt, launches_getElem?]
            simp only [job?] at job_eq
            cases strand_eq : u.strands[t]? with
            | none => rfl
            | some s =>
                simp only [strand_eq, Option.bind_some] at job_eq
                split at job_eq
                · rename_i thread child_eq
                  simp [Strand.launchState, child_eq, Child.task?]
                · cases job_eq
          have step_eq : u.step I (.body t) = some v := done
          have after := taskAt_of_idle_step step_eq idle
          rw [job_eq] at after
          exact ⟨idle, .inr after⟩
  | call J slot m args =>
      cases uses
      simp only [perform] at done
      split at done <;> cases done
      rename_i host_eq
      obtain ⟨thread, held_eq, rfl⟩ := Option.map_eq_some_iff.mp job_eq
      have idle : u.roster.taskAt .host = none := by rw [taskAt_host, host_eq]; rfl
      refine ⟨idle, .inl ⟨thread, m, args, rfl, ?_⟩⟩
      simp only [hostCall, held_eq]
      rfl
  | start J slot =>
      cases uses
      simp only [perform] at done
      split at done <;> cases done
      rename_i host_eq
      obtain ⟨thread, held_eq, rfl⟩ := Option.map_eq_some_iff.mp job_eq
      have idle : u.roster.taskAt .host = none := by rw [taskAt_host, host_eq]; rfl
      refine ⟨idle, .inr ⟨thread, rfl, ?_⟩⟩
      simp only [hostStart, held_eq]
      rfl
  | _ => cases job_eq

/-- Whoever performs an operation, is at no task and is set to no job is at no task afterwards. -/
theorem taskAt_of_idle (done : u.perform op = some v) (noJob : u.job? op = none)
    (idle : u.roster.taskAt op.performer = none) : v.roster.taskAt op.performer = none := by
  by_cases steps : ∃ I c, op = .step I c
  · obtain ⟨I, c, rfl⟩ := steps
    have after := taskAt_of_idle_step done idle
    rw [noJob] at after
    exact after
  · have noStep : ∀ I c, op ≠ .step I c := fun I c same => steps ⟨I, c, same⟩
    rcases taskAt_of_no_job done noStep noJob op.performer with same | ⟨none_eq, _⟩
    · rw [same, idle]
    · exact none_eq

/-- Contexts do not touch each other's tasks. -/
theorem taskAt_of_other {h : List Deed} (launching : Launching h u) (isPublic : op.IsPublic)
    (done : u.perform op = some v) (other : c ≠ op.performer) :
    v.roster.taskAt c = u.roster.taskAt c ∨
      v.roster.taskAt c = none ∧ ∃ task x, u.roster.taskAt c = some task ∧
        task.completion? = some x := by
  have turnover := (shift_perform isPublic done).turnover launching c
  generalize v.roster.taskAt c = after at turnover
  cases turnover with
  | same _ => exact .inl rfl
  | takenBack task_eq finished _ => exact .inr ⟨rfl, _, _, task_eq, finished⟩
  | called own _ _ | started own _ _ | stepped own _ _ | ended own _ _ _ =>
      exact absurd own.symm other

/-- A task whose request is answered without a change of the roster goes on in its context. -/
theorem taskAt_of_answered {task : Task σ} {r : Request} {a : Answer} {w : World σ}
    (task_eq : u.roster.taskAt c = some task) (asks : task.request? = some r)
    (served : u.serve c r = .answered a w) (kept : w.roster = u.roster)
    (stays : (task.answer I a).1.completion? = none) :
    ∃ v, u.step I c = some v ∧ v.roster.taskAt c = some (task.answer I a).1 := by
  obtain ⟨store, step_eq, stored⟩ := step_of_taskAt I task_eq
  have stepped : u.stepTask I c task store =
      some ((store w (task.answer I a).1).note c (task.answer I a).2) := by
    simp only [stepTask, asks, served]
  refine ⟨_, step_eq.trans stepped, ?_⟩
  rw [roster_note]
  obtain ⟨slot, rfl, host_eq, rfl⟩ | ⟨t, rfl, rfl⟩ := stored
  · rfl
  · obtain ⟨launch, launch_eq, _⟩ := Roster.launch_of_taskAt task_eq
    rw [roster_storeChild, kept]
    simp [Roster.taskAt, Roster.modify, launch_eq, Child.ofTask, stays, Child.task?]

end World

end ThreadEngine
