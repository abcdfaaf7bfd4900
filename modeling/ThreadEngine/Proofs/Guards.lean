import ThreadEngine.Proofs.TaskSteps
import ThreadEngine.Proofs.Operation

set_option autoImplicit false

/-!
# Guards of a task

Starting a body puts a guard on the task, which stays until it has retired its thread or has found
it dead.  Guards are nested like the starts that put them there: a step leaves them as they are,
puts a new one in front, or takes the foremost one away (`advance_guards`, `answer_guards`).  A
guard speaks for the thread that the task worked on when the body was started, which need not be the
one it works on now.
-/

namespace ThreadEngine

/-- What identifies a thread to the world: its number, its kind and the registry it reports to. -/
structure Pass where
  thread : ThreadId
  kind : Kind
  registry : RegistryId
  deriving DecidableEq, Repr, Inhabited

/-- The pass of a thread. -/
def Thread.pass (t : Thread) : Pass := ⟨t.id, t.kind, t.registry⟩

/-- The pass of the thread that a guard speaks for. -/
def Guard.pass (g : Guard) : Pass := ⟨g.thread, g.kind, g.registry⟩

/-- The guard that waits in a layer. -/
def Layer.guards {σ : Type} : Layer σ → List Guard
  | .activation .. => []
  | .body g => [g]

/-- The guard that is at work. -/
def Mode.guards {σ : Type} : Mode σ → List Guard
  | .detaching g | .awaiting g | .inspecting g _ | .retiring g _ => [g]
  | .acting .. | .asking .. | .delivering _ | .unwinding _ | .done _ | .lost => []

theorem Thread.pass_of_entered {t t' : Thread} {m : MethodRef} {args : List Value}
    (h : (t.enter m args).2 = .entered t') : t'.pass = t.pass := by
  obtain ⟨_, _, rfl⟩ := Thread.enter_entered h
  rfl

theorem Thread.pass_of_left {t t' : Thread} {depth : Nat} (h : t.leave depth = some t') :
    t'.pass = t.pass := by
  obtain ⟨_, _, _, _, rfl⟩ := Thread.leave_eq_some h
  rfl

namespace Task

variable {σ : Type}

/-- The guards of a task, innermost first. -/
def guards (task : Task σ) : List Guard := task.mode.guards ++ task.layers.flatMap Layer.guards

/-- The passes that a task has: of the thread it works on, and of its guards. -/
def passes (task : Task σ) : List Pass := task.thread.pass :: task.guards.map Guard.pass

/-! ## Calls and starts -/

theorem call_guards (I : Interpreter σ) (thread : Thread) (layers : List (Layer σ)) (m : MethodRef)
    (args : List Value) :
    (call I thread layers m args).1.thread.pass = thread.pass ∧
      (call I thread layers m args).1.guards = layers.flatMap Layer.guards := by
  rw [call_fst]
  cases entry_eq : (thread.enter m args).2 with
  | refused e => exact ⟨rfl, rfl⟩
  | aborted a => exact ⟨rfl, rfl⟩
  | entered thread' => exact ⟨Thread.pass_of_entered entry_eq, rfl⟩

/-- A body that runs is guarded, whether its checks succeed or not. -/
theorem runBody_guards (I : Interpreter σ) (thread : Thread) (layers : List (Layer σ))
    (g : Guard) :
    (runBody I thread layers g).1.thread.pass = thread.pass ∧
      (runBody I thread layers g).1.guards = g :: layers.flatMap Layer.guards := by
  unfold runBody
  dsimp only
  split
  · exact ⟨rfl, rfl⟩
  · split
    · exact ⟨rfl, rfl⟩
    · exact call_guards I _ (.body g :: layers) _ _

/-- A start puts a guard of the thread in front. -/
theorem start_guards (I : Interpreter σ) (thread : Thread) (layers : List (Layer σ)) :
    (start I thread layers).1.thread.pass = thread.pass ∧
      (start I thread layers).1.guards = guardOf thread :: layers.flatMap Layer.guards := by
  unfold start
  dsimp only
  split
  · exact ⟨rfl, rfl⟩
  · exact runBody_guards I thread layers _

/-! ## Steps -/

theorem turn_guards (I : Interpreter σ) {task : Task σ} {s : σ} {depth : Nat}
    (mode_eq : task.mode = .acting s depth) :
    (task.turn I s depth).1.thread.pass = task.thread.pass ∧
      ((∃ s' catches, (I.act s task.thread).action = .start s' catches ∧
          ∃ g : Guard, g.pass = task.thread.pass ∧
            (task.turn I s depth).1.guards = g :: task.guards) ∨
        (∀ s' catches, (I.act s task.thread).action ≠ .start s' catches) ∧
          (task.turn I s depth).1.guards = task.guards) := by
  have guards_eq : task.guards = task.layers.flatMap Layer.guards := by
    simp [guards, mode_eq, Mode.guards]
  rw [turn_fst, guards_eq]
  cases (I.act s task.thread).action with
  | proceed s' => exact ⟨rfl, .inr ⟨nofun, rfl⟩⟩
  | call s' m args catches =>
      obtain ⟨pass_eq, called⟩ := call_guards I
        (task.thread.revise (I.act s task.thread).pc (I.act s task.thread).frame)
        (.activation s' depth catches :: task.layers) m args
      exact ⟨pass_eq, .inr ⟨nofun, called⟩⟩
  | start s' catches =>
      obtain ⟨pass_eq, started⟩ := start_guards I
        (task.thread.revise (I.act s task.thread).pc (I.act s task.thread).frame)
        (.activation s' depth catches :: task.layers)
      exact ⟨pass_eq, .inl ⟨s', catches, rfl, _, rfl, started⟩⟩
  | ask s' r => exact ⟨rfl, .inr ⟨nofun, rfl⟩⟩
  | finish r =>
      dsimp only
      split
      · rename_i thread' left
        exact ⟨(Thread.pass_of_left left).trans rfl, .inr ⟨nofun, rfl⟩⟩
      · exact ⟨rfl, .inr ⟨nofun, rfl⟩⟩
  | abort a => exact ⟨rfl, .inr ⟨nofun, rfl⟩⟩

theorem deliver_guards (I : Interpreter σ) {task : Task σ} {c : Completion}
    (mode_eq : task.mode = .delivering c) :
    (task.deliver I c).1.thread.pass = task.thread.pass ∧
      (task.deliver I c).1.guards = task.guards := by
  unfold deliver guards
  rw [mode_eq]
  cases layers_eq : task.layers with
  | nil => simp [Mode.guards]
  | cons layer layers =>
      cases layer with
      | activation s depth catches => exact ⟨rfl, rfl⟩
      | body g => cases kind_eq : g.kind <;> simp [endBody, kind_eq, Mode.guards, Layer.guards]

theorem unwind_guards (I : Interpreter σ) {task : Task σ} {a : Abort}
    (mode_eq : task.mode = .unwinding a) :
    (task.unwind I a).thread.pass = task.thread.pass ∧ (task.unwind I a).guards = task.guards := by
  unfold unwind guards
  rw [mode_eq]
  cases layers_eq : task.layers with
  | nil => simp [Mode.guards]
  | cons layer layers =>
      cases layer with
      | activation s depth catches =>
          dsimp only
          split
          · exact ⟨rfl, rfl⟩
          · exact ⟨rfl, rfl⟩
      | body g => exact ⟨rfl, rfl⟩

/-- A local step keeps the thread in its place and the guards as they are, or starts the body of the
thread and puts its guard in front. -/
theorem advance_guards {I : Interpreter σ} {task task' : Task σ} {notes : List Note}
    (h : task.advance I = some (task', notes)) :
    task'.thread.pass = task.thread.pass ∧
      ((∃ s depth s' catches, task.mode = .acting s depth ∧
          (I.act s task.thread).action = .start s' catches ∧
          ∃ g : Guard, g.pass = task.thread.pass ∧ task'.guards = g :: task.guards) ∨
        (∀ s depth s' catches, task.mode = .acting s depth →
            (I.act s task.thread).action ≠ .start s' catches) ∧
          task'.guards = task.guards) := by
  obtain ⟨s, depth, mode_eq, rfl⟩ | ⟨c, mode_eq, rfl⟩ | ⟨a, mode_eq, rfl⟩ := advance_cases h
  · obtain ⟨pass_eq, ⟨s', catches, action_eq, g, guard_eq, pushed⟩ | ⟨plain, same⟩⟩ :=
      turn_guards I mode_eq
    · exact ⟨pass_eq, .inl ⟨s, depth, s', catches, mode_eq, action_eq, g, guard_eq, pushed⟩⟩
    · refine ⟨pass_eq, .inr ⟨fun s₁ depth₁ s' catches mode_eq₁ => ?_, same⟩⟩
      obtain ⟨rfl, rfl⟩ := Mode.acting.inj (mode_eq.symm.trans mode_eq₁)
      exact plain s' catches
  · obtain ⟨pass_eq, same⟩ := deliver_guards I mode_eq
    refine ⟨pass_eq, .inr ⟨fun _ _ _ _ acting => ?_, same⟩⟩
    cases mode_eq.symm.trans acting
  · obtain ⟨pass_eq, same⟩ := unwind_guards I mode_eq
    refine ⟨pass_eq, .inr ⟨fun _ _ _ _ acting => ?_, same⟩⟩
    cases mode_eq.symm.trans acting

theorem retired_guards {task : Task σ} {g : Guard} {passing : Option Abort}
    (mode_eq : task.mode = .retiring g passing) (a : Answer) :
    (task.retired passing a).1.thread = task.thread ∧
      task.guards = g :: (task.retired passing a).1.guards := by
  have guards_eq : task.guards = g :: task.layers.flatMap Layer.guards := by
    simp [guards, mode_eq, Mode.guards]
  rw [guards_eq]
  unfold retired
  split
  · cases passing with
    | none => exact ⟨rfl, rfl⟩
    | some abort => exact ⟨rfl, rfl⟩
  · cases passing with
    | none => exact ⟨rfl, rfl⟩
    | some abort => exact ⟨rfl, rfl⟩

/-- An answer is for an activation, which may find another thread in its place, or for a guard.  A
guard leaves when it has found its thread dead, or has been told how retiring it went. -/
theorem answer_guards (I : Interpreter σ) {task : Task σ} {r : Request}
    (asks : task.request? = some r) (a : Answer) :
    (∃ s depth, task.mode = .asking s depth r ∧
        (task.answer I a).1.thread = threadAfter task.thread a ∧
        (task.answer I a).1.guards = task.guards) ∨
      (task.answer I a).1.thread.pass = task.thread.pass ∧
        ((∀ g passing, task.mode ≠ .retiring g passing) ∧
            (task.answer I a).1.guards = task.guards ∨
          ∃ g, task.guards = g :: (task.answer I a).1.guards ∧
            ((∃ abort, task.mode = .inspecting g abort ∧ a = .state .died) ∨
              ∃ passing, task.mode = .retiring g passing)) := by
  unfold answer
  split
  · rename_i s depth r' mode_eq
    have same : r' = r := by simpa [request?, mode_eq] using asks
    subst same
    exact .inl ⟨s, depth, mode_eq, rfl, by simp [guards, mode_eq, Mode.guards]⟩
  · rename_i g mode_eq
    obtain ⟨pass_eq, guards_eq⟩ := runBody_guards I task.thread task.layers g
    refine .inr ⟨pass_eq, .inl ⟨by simp [mode_eq], ?_⟩⟩
    simpa [guards, mode_eq, Mode.guards] using guards_eq
  · rename_i g mode_eq
    refine .inr ⟨rfl, .inl ⟨by simp [mode_eq], ?_⟩⟩
    simp [guards, mode_eq, Mode.guards]
  · rename_i g abort mode_eq
    right
    split
    · rename_i dead
      refine ⟨rfl, .inr ⟨g, ?_, .inl ⟨abort, mode_eq, dead⟩⟩⟩
      simp [guards, mode_eq, Mode.guards]
    · refine ⟨rfl, .inl ⟨by simp [mode_eq], ?_⟩⟩
      simp [guards, mode_eq, Mode.guards]
  · rename_i g passing mode_eq
    obtain ⟨thread_eq, popped⟩ := retired_guards mode_eq a
    exact .inr ⟨congrArg Thread.pass thread_eq, .inr ⟨g, popped, .inr ⟨passing, mode_eq⟩⟩⟩
  all_goals
    rename_i mode_eq
    simp [request?, mode_eq] at asks

theorem reask_thread (task : Task σ) (r : Request) : (task.reask r).thread = task.thread := by
  unfold reask
  split <;> rfl

theorem reask_guards (task : Task σ) (r : Request) : (task.reask r).guards = task.guards := by
  unfold reask
  split
  · rename_i s depth r' mode_eq
    simp [guards, mode_eq, Mode.guards]
  · rfl

/-! ## Proper tasks -/

/-- A task that asks only for what is open to it, apart from what its guards ask for, and that is
over only when nothing waits for it. -/
def Proper (task : Task σ) : Prop :=
  match task.mode with
  | .asking _ _ r => r.isPublic = true
  | .done _ => task.layers = []
  | _ => True

/-- A proper task that is not lost, and in which no guard retires its thread while an abort
passes. -/
def IsCalm (task : Task σ) : Prop :=
  match task.mode with
  | .asking _ _ r => r.isPublic = true
  | .done _ => task.layers = []
  | .lost | .retiring _ (some _) => False
  | _ => True

theorem IsCalm.proper {task : Task σ} (calm : task.IsCalm) : task.Proper := by
  cases mode_eq : task.mode with
  | asking s depth r | done c => simpa [IsCalm, Proper, mode_eq] using calm
  | _ => simp [Proper, mode_eq]

theorem isCalm_call (I : Interpreter σ) (thread : Thread) (layers : List (Layer σ)) (m : MethodRef)
    (args : List Value) : (call I thread layers m args).1.IsCalm := by
  rw [call_fst]
  cases (thread.enter m args).2 <;> trivial

theorem isCalm_runBody (I : Interpreter σ) (thread : Thread) (layers : List (Layer σ))
    (g : Guard) : (runBody I thread layers g).1.IsCalm := by
  unfold runBody
  dsimp only
  split
  · trivial
  · split
    · trivial
    · exact isCalm_call I _ _ _ _

theorem isCalm_start (I : Interpreter σ) (thread : Thread) (layers : List (Layer σ)) :
    (start I thread layers).1.IsCalm := by
  unfold start
  dsimp only
  split
  · trivial
  · exact isCalm_runBody I thread layers _

/-- A local step of a public interpreter leads to a calm task. -/
theorem isCalm_advance {I : Interpreter σ} (isPublic : I.IsPublic) {task task' : Task σ}
    {notes : List Note} (h : task.advance I = some (task', notes)) : task'.IsCalm := by
  obtain ⟨s, depth, mode_eq, rfl⟩ | ⟨c, mode_eq, rfl⟩ | ⟨a, mode_eq, rfl⟩ := advance_cases h
  · rw [turn_fst]
    cases action_eq : (I.act s task.thread).action with
    | proceed s' => trivial
    | call s' m args catches => exact isCalm_call I _ _ _ _
    | start s' catches => exact isCalm_start I _ _
    | ask s' r => exact isPublic s task.thread s' r action_eq
    | finish r =>
        dsimp only
        split
        · trivial
        · trivial
    | abort a => trivial
  · unfold deliver
    cases layers_eq : task.layers with
    | nil => rfl
    | cons layer layers =>
        cases layer with
        | activation s depth catches => trivial
        | body g => cases kind_eq : g.kind <;> simp [IsCalm, endBody, kind_eq]
  · unfold unwind
    cases layers_eq : task.layers with
    | nil => rfl
    | cons layer layers =>
        cases layer with
        | activation s depth catches =>
            dsimp only
            split
            · trivial
            · trivial
        | body g => trivial

/-- After an answer a task is calm, unless a guard has not found its thread dead while an abort
passes, or could not retire it then. -/
theorem answer_cases (I : Interpreter σ) {task : Task σ} {r : Request}
    (asks : task.request? = some r) (a : Answer) :
    (task.answer I a).1.IsCalm ∨
      (∃ g abort, task.mode = .inspecting g abort ∧ a ≠ .state .died ∧
        (task.answer I a).1.mode = .retiring g (some abort)) ∨
      ∃ g abort broken, task.mode = .retiring g (some abort) ∧ a = .retired (some broken) ∧
        (task.answer I a).1.mode = .lost := by
  unfold answer
  split
  · exact .inl trivial
  · exact .inl (isCalm_runBody I _ _ _)
  · exact .inl trivial
  · rename_i g abort mode_eq
    split
    · exact .inl trivial
    · rename_i alive
      exact .inr (.inl ⟨g, abort, mode_eq, alive, rfl⟩)
  · rename_i g passing mode_eq
    unfold retired
    cases passing with
    | none =>
        left
        split
        · trivial
        · trivial
    | some abort =>
        split
        · rename_i broken
          exact .inr (.inr ⟨g, abort, broken, mode_eq, rfl, rfl⟩)
        · exact .inl trivial
  all_goals
    rename_i mode_eq
    simp [request?, mode_eq] at asks

/-- A task that asks for something else is calm, or goes on as it was. -/
theorem reask_cases (task : Task σ) {r : Request} (isPublic : r.isPublic = true) :
    (task.reask r).IsCalm ∨ task.reask r = task := by
  unfold reask
  split
  · exact .inl isPublic
  · exact .inr rfl

theorem proper_answer (I : Interpreter σ) {task : Task σ} {r : Request}
    (asks : task.request? = some r) (a : Answer) : (task.answer I a).1.Proper := by
  obtain calm | ⟨_, _, _, _, mode_eq⟩ | ⟨_, _, _, _, _, mode_eq⟩ := answer_cases I asks a
  · exact calm.proper
  · rw [Proper, mode_eq]
    trivial
  · rw [Proper, mode_eq]
    trivial

theorem proper_reask {task : Task σ} (proper : task.Proper) {r : Request}
    (isPublic : r.isPublic = true) : (task.reask r).Proper := by
  rcases reask_cases task isPublic with calm | same
  · exact calm.proper
  · rw [same]
    exact proper

/-- Only a guard asks to have a thread retired, and only its own one. -/
theorem retiring_of_request {task : Task σ} (proper : task.Proper) {r : RegistryId} {t : ThreadId}
    (asks : task.request? = some (.retire r t)) :
    ∃ g passing, task.mode = .retiring g passing ∧ g.registry = r ∧ g.thread = t := by
  unfold request? at asks
  split at asks
  · rename_i s depth r' mode_eq
    unfold Proper at proper
    rw [mode_eq, Option.some.inj asks] at proper
    cases proper
  · cases asks
  · cases asks
  · cases asks
  · rename_i g passing mode_eq
    cases asks
    exact ⟨g, passing, mode_eq, rfl, rfl⟩
  all_goals cases asks

end Task

end ThreadEngine
