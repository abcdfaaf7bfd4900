import ThreadEngine.Proofs.Shift

set_option autoImplicit false

/-!
# The commons

Two things belong to nobody in particular: which registry is the process-wide one, and what has been
put out.  An operation changes the first only by initialising or shutting down, and it adds to the
second only what the task that it carries on asks to put out.  `commons_perform` says so for every
operation at once.
-/

namespace ThreadEngine

/-- What a request adds to the output. -/
def Request.emission : Request → List Int32
  | .emit v => [v]
  | _ => []

/-- What a task adds to the output in its next step. -/
def Task.emission {σ : Type} (task : Task σ) : List Int32 :=
  task.request?.elim [] Request.emission

namespace World

variable {σ : Type}

/-- What belongs to nobody in particular: the process-wide registry and the output. -/
def commons (w : World σ) : Option RegistryId × List Int32 := (w.installed, w.output)

/-- The process-wide registry after an operation. -/
def installedAfter (u : World σ) : Operation σ → Option RegistryId
  | .installRegistry _ => some (u.installed.getD u.registries.length)
  | .removeRegistry _ => none
  | _ => u.installed

/-- What an operation adds to the output. -/
def emission (u : World σ) : Operation σ → List Int32
  | .step _ c => (u.roster.taskAt c).elim [] Task.emission
  | _ => []

/-! ## Serving requests -/

@[simp] theorem commons_note (w : World σ) (c : Ctx) (notes : List Note) :
    (w.note c notes).commons = w.commons := rfl

@[simp] theorem commons_add (w : World σ) (c : Ctx) (r : RegistryId) (t : ThreadId) :
    (w.add c r t).commons = w.commons := by
  unfold add
  split <;> rfl

theorem commons_retire (w : World σ) (c : Ctx) (r : RegistryId) (t : ThreadId) :
    (w.retire c r t).2.commons = w.commons := by
  unfold retire
  split
  · split
    · rfl
    · dsimp only
      split <;> rfl
  · rfl

theorem commons_transition (w : World σ) (c : Ctx) (r : RegistryId) (t : ThreadId) (next : State) :
    (w.transition c r t next).2.commons = w.commons := by
  unfold transition
  split
  · rfl
  · split <;> rfl

theorem commons_unpark (w : World σ) (t : ThreadId) : (w.unpark t).2.commons = w.commons := by
  unfold unpark
  split
  · rfl
  · split <;> rfl

theorem commons_serveAwait {w w' : World σ} {c : Ctx} {r : RegistryId}
    (h : (w.serveAwait c r).world? = some w') : w'.commons = w.commons := by
  unfold serveAwait at h
  split at h
  · cases h
    rfl
  · split at h
    · cases h
    · split at h <;> (cases h; rfl)

theorem commons_servePark {w w' : World σ} {c : Ctx} (h : (w.servePark c).world? = some w') :
    w'.commons = w.commons := by
  unfold servePark at h
  split at h
  · cases h
    rfl
  · cases h
    rfl
  · split at h
    · cases h
      rfl
    · cases h
      rfl
    · cases h
    · cases h
      rfl

theorem commons_serveSpawn {w w' : World σ} {c : Ctx} {slot : ThreadId} {object : Value}
    (h : (w.serveSpawn c slot object).world? = some w') : w'.commons = w.commons := by
  unfold serveSpawn at h
  split at h
  · cases h
    rfl
  · split at h <;> (cases h; rfl)

theorem commons_serveUnpark {w w' : World σ} {c : Ctx} {t : ThreadId}
    (h : (w.serveUnpark c t).world? = some w') : w'.commons = w.commons := by
  have same := commons_unpark w t
  unfold serveUnpark at h
  split at h
  · rename_i unparked
    rw [unparked] at same
    cases h
    exact same
  · rename_i unparked
    rw [unparked] at same
    cases h
    exact same

/-- Serving a request adds to the output what the request says. -/
theorem commons_serve {w w' : World σ} {c : Ctx} {r : Request}
    (h : (w.serve c r).world? = some w') : w'.commons = (w.installed, w.output ++ r.emission) := by
  have plain {w' : World σ} (same : w'.commons = w.commons) :
      w'.commons = (w.installed, w.output ++ []) := by rw [List.append_nil, same]; rfl
  cases r with
  | detach t | replace slot | reportLaunch t | reportUnpark =>
      cases h
      exact plain rfl
  | awaitApplications r => exact plain (commons_serveAwait h)
  | stateOf t | tally r =>
      simp only [serve] at h
      split at h <;> (cases h; exact plain rfl)
  | retire r t =>
      cases h
      exact plain (commons_retire w c r t)
  | transition r t next =>
      cases h
      exact plain (commons_transition w c r t next)
  | park => exact plain (commons_servePark h)
  | spawn slot object => exact plain (commons_serveSpawn h)
  | unpark t => exact plain (commons_serveUnpark h)
  | emit v =>
      cases h
      rfl

/-! ## Operations -/

theorem commons_stepTask {I : Interpreter σ} {w v : World σ} {c : Ctx} {task : Task σ}
    {store : World σ → Task σ → World σ} (stores : ∀ w task, (store w task).commons = w.commons)
    (h : w.stepTask I c task store = some v) :
    v.commons = (w.installed, w.output ++ task.emission) := by
  obtain ⟨r, a, w', asks, served, rfl⟩ | ⟨r, r', w', asks, served, rfl⟩ |
    ⟨task', notes, asks, _, rfl⟩ := stepTask_cases h
  · have reached : (w.serve c r).world? = some w' := by rw [served]; rfl
    rw [commons_note, stores, commons_serve reached, Task.emission, asks]
    rfl
  · have reached : (w.serve c r).world? = some w' := by rw [served]; rfl
    rw [stores, commons_serve reached, Task.emission, asks]
    rfl
  · rw [commons_note, stores, Task.emission, asks]
    simp [commons]

/-- A context that is not at a task puts nothing out. -/
theorem emission_of_none {w : World σ} {I : Interpreter σ} {c : Ctx}
    (task_eq : w.roster.taskAt c = none) : w.emission (.step I c) = [] := by
  rw [emission, task_eq]
  rfl

theorem emission_of_task {w : World σ} {I : Interpreter σ} {c : Ctx} {task : Task σ}
    (task_eq : w.roster.taskAt c = some task) : w.emission (.step I c) = task.emission := by
  rw [emission, task_eq]
  rfl

theorem commons_stepHost {I : Interpreter σ} {w v : World σ} (h : w.stepHost I = some v) :
    v.commons = (w.installed, w.output ++ w.emission (.step I .host)) := by
  obtain ⟨slot, task, host_eq, step⟩ | ⟨r, w', host_eq, served, done⟩ := stepHost_cases h
  · have task_eq : w.roster.taskAt .host = some task := by
      simp [Roster.taskAt, roster, host_eq, Host.task?]
    rw [emission_of_task task_eq]
    refine commons_stepTask ?_ step
    exact fun _ _ => rfl
  · rw [emission_of_none (by simp [Roster.taskAt, roster, host_eq, Host.task?]), List.append_nil]
    have same := commons_serveAwait served
    rcases done with rfl | rfl
    · exact same
    · exact same

theorem taskAt_body {w : World σ} {t : ThreadId} {s : Strand σ}
    (strand_eq : w.strands[t]? = some s) :
    w.roster.taskAt (.body t) = s.child.bind Child.task? := by
  rw [Roster.taskAt, launches_getElem?, strand_eq]
  rfl

theorem commons_stepBody {I : Interpreter σ} {w v : World σ} {t : ThreadId}
    (h : w.stepBody I t = some v) :
    v.commons = (w.installed, w.output ++ w.emission (.step I (.body t))) := by
  obtain ⟨s, strand_eq, ⟨thread, child_eq, _, rfl⟩ | ⟨thread, child_eq, _, _, rfl⟩ |
    ⟨thread, child_eq, rfl⟩ | ⟨thread, child_eq, rfl⟩ | ⟨task, child_eq, step⟩⟩ := stepBody_cases h
  · rw [emission_of_none (by rw [taskAt_body strand_eq, child_eq]; rfl), List.append_nil]
    rfl
  · rw [emission_of_none (by rw [taskAt_body strand_eq, child_eq]; rfl), List.append_nil]
    rfl
  · rw [emission_of_none (by rw [taskAt_body strand_eq, child_eq]; rfl), List.append_nil]
    exact commons_add _ _ _ _
  · rw [emission_of_none (by rw [taskAt_body strand_eq, child_eq]; rfl), List.append_nil]
    rfl
  · have task_eq : w.roster.taskAt (.body t) = some task := by
      rw [taskAt_body strand_eq, child_eq]
      rfl
    rw [emission_of_task task_eq]
    refine commons_stepTask ?_ step
    exact fun _ _ => rfl

theorem commons_stepCreator {w v : World σ} {t : ThreadId} (h : w.stepCreator t = some v) :
    v.commons = w.commons := by
  obtain ⟨s, _, ⟨thread, object, _, _, rfl⟩ | ⟨thread, _, rfl⟩ | ⟨_, rfl⟩ | ⟨_, rfl⟩ |
    ⟨_, _, rfl⟩ | ⟨_, rfl⟩ | ⟨a, _, _, rfl⟩ | ⟨_, _, _, _, _, rfl⟩ | ⟨a, _, _, rfl⟩⟩ :=
    stepCreator_cases h
  case inr.inr.inr.inr.inr.inl =>
    unfold hook
    split <;> rfl
  all_goals rfl

/-- What one operation does to the commons. -/
theorem commons_perform {u v : World σ} {op : Operation σ} (h : u.perform op = some v) :
    v.commons = (u.installedAfter op, u.output ++ u.emission op) := by
  have plain {v : World σ} (same : v.commons = u.commons) :
      v.commons = (u.installed, u.output ++ []) := by rw [List.append_nil, same]; rfl
  cases op with
  | step I c =>
      cases c with
      | host => exact commons_stepHost h
      | body t => exact commons_stepBody h
      | creator t => exact plain (commons_stepCreator h)
  | expire =>
      simp only [perform] at h
      split at h <;> cases h
      rename_i r host_eq
      simp only [expire, host_eq]
      exact plain rfl
  | application m args env =>
      simp only [perform] at h
      split at h <;> cases h
      unfold buildApplication
      split
      · exact plain rfl
      · exact plain rfl
  | main m args env =>
      simp only [perform] at h
      split at h <;> cases h
      exact plain rfl
  | drop slot | installConfig config | readConfig =>
      cases h
      exact plain rfl
  | setPc slot pc | editFrame slot op =>
      cases h
      simp only [setPc, editFrame, modifyHeld]
      split
      · exact plain rfl
      · exact plain rfl
  | call I slot m args =>
      simp only [perform] at h
      split at h <;> cases h
      unfold hostCall
      split
      · exact plain rfl
      · exact plain rfl
  | start I slot =>
      simp only [perform] at h
      split at h <;> cases h
      unfold hostStart
      split
      · exact plain rfl
      · exact plain rfl
  | takeBack =>
      simp only [perform] at h
      split at h <;> cases h
      unfold disengage
      split
      all_goals exact plain rfl
  | create slot object =>
      cases h
      unfold createHeld
      split
      · exact plain rfl
      · exact plain rfl
  | add c r t =>
      simp only [perform] at h
      split at h <;> cases h
      exact plain (commons_add u c r t)
  | transition c r t next =>
      cases h
      exact plain (commons_transition u c r t next)
  | unpark t =>
      cases h
      exact plain (commons_unpark u t)
  | beginWait r | endWait =>
      simp only [perform] at h
      split at h <;> cases h
      exact plain rfl
  | installRegistry c =>
      cases h
      unfold installRegistry installedAfter
      cases installed_eq : u.installed with
      | none => simp [commons, note, emission]
      | some r => simp [commons, installed_eq, emission]
  | removeRegistry c =>
      cases h
      unfold removeRegistry installedAfter
      cases installed_eq : u.installed with
      | none => simp [commons, installed_eq, emission]
      | some r => simp [commons, note, emission]

theorem installed_perform {u v : World σ} {op : Operation σ} (h : u.perform op = some v) :
    v.installed = u.installedAfter op := congrArg Prod.fst (commons_perform h)

theorem output_perform {u v : World σ} {op : Operation σ} (h : u.perform op = some v) :
    v.output = u.output ++ u.emission op := congrArg Prod.snd (commons_perform h)

/-- The step of a context that is at a task. -/
theorem output_step {I : Interpreter σ} {u v : World σ} {c : Ctx} {task : Task σ}
    (task_eq : u.roster.taskAt c = some task) (done : u.step I c = some v) :
    v.output = u.output ++ task.emission := by
  have performed : u.perform (.step I c) = some v := done
  rw [output_perform performed, emission_of_task task_eq]

end World

end ThreadEngine
