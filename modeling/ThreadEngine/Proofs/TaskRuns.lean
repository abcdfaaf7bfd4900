import ThreadEngine.Proofs.LaunchOrder

set_option autoImplicit false

/-!
# Tasks along runs

What an operation can do to the task of a context (`Shift.turnover`) and to its guards
(`guards_perform`): contexts do not touch each other's tasks.  Hence every task is proper after
every run, every guard goes back to a start that is on record, and only a guard has its thread
retired.
-/

namespace ThreadEngine

/-- Whether a deed is that of a task at work. -/
def Deed.isOfTask : Deed → Bool
  | .started _ | .retired .. => true
  | .built .. | .installed | .created _ | .enlisted .. | .added .. | .moved .. => false

namespace Roster

variable {σ : Type}

theorem taskAt_put {ro : Roster σ} {c : Ctx} {task : Task σ} (task' : Task σ)
    (task_eq : ro.taskAt c = some task) :
    (ro.put c task').taskAt c = some task' ∨
      (ro.put c task').taskAt c = none ∧ ∃ x, task'.completion? = some x := by
  cases c with
  | creator t => cases task_eq
  | host =>
      left
      cases host_eq : ro.host with
      | running slot old => simp [put, taskAt, host_eq, Host.task?]
      | idle | waiting r | waited b => simp [taskAt, host_eq, Host.task?] at task_eq
  | body t =>
      obtain ⟨s, launch_eq, _⟩ := launch_of_taskAt task_eq
      have after : (ro.put (.body t) task').taskAt (.body t) = (Child.ofTask task').task? := by
        simp [put, taskAt, modify, launch_eq]
      rw [after, Child.ofTask]
      cases task'.completion? with
      | none => exact .inl rfl
      | some x =>
          refine .inr ⟨?_, x, rfl⟩
          cases x <;> rfl

theorem taskAt_put_ne {c c' : Ctx} (ro : Roster σ) (task : Task σ) (ne : c' ≠ c) :
    (ro.put c task).taskAt c' = ro.taskAt c' := by
  cases c with
  | creator t => rfl
  | host =>
      simp only [put]
      split
      · cases c' with
        | host => exact absurd rfl ne
        | body t | creator t => rfl
      all_goals rfl
  | body t =>
      cases c' with
      | host | creator t' => rfl
      | body t' =>
          have other : t ≠ t' := by
            rintro rfl
            exact ne rfl
          simp [put, taskAt, modify, other]

/-- The task of a context after a change of one launch state. -/
theorem taskAt_modify_cases (ro : Roster σ) (c : Ctx) (t : ThreadId)
    (f : LaunchState σ → LaunchState σ) :
    (ro.modify t f).taskAt c = ro.taskAt c ∨
      ∃ s, c = .body t ∧ ro.launches[t]? = some s ∧ ro.taskAt c = s.child.bind Child.task? ∧
        (ro.modify t f).taskAt c = (f s).child.bind Child.task? := by
  cases c with
  | host | creator t' => exact .inl rfl
  | body t' =>
      by_cases same : t = t'
      · subst same
        cases launch_eq : ro.launches[t]? with
        | none => left; simp [taskAt, modify, launch_eq]
        | some s =>
            refine .inr ⟨s, rfl, rfl, ?_, ?_⟩
            · simp [taskAt, launch_eq]
            · simp [taskAt, modify, launch_eq]
      · left
        simp [taskAt, modify, same]

end Roster

namespace World

variable {σ : Type}

/-- What an operation can do to the task of a context: the task that is there afterwards. -/
inductive Turnover (u : World σ) (who : Ctx) (d : Option Deed) (c : Ctx) :
    Option (Task σ) → Prop
  | same (aside : who = c → ∀ e ∈ d, e.isOfTask = false) :
      Turnover u who d c (u.roster.taskAt c)
  | called {I : Interpreter σ} {thread : Thread} {m : MethodRef} {args : List Value}
      (own : who = c) (none_eq : u.roster.taskAt c = none) (deed_eq : d = none) :
      Turnover u who d c (some (Task.call I thread [] m args).1)
  | started {I : Interpreter σ} {thread : Thread} (own : who = c)
      (none_eq : u.roster.taskAt c = none) (deed_eq : d = some (.started thread.id)) :
      Turnover u who d c (some (Task.start I thread []).1)
  | takenBack {task : Task σ} {x : Completion} (task_eq : u.roster.taskAt c = some task)
      (finished : task.completion? = some x) (deed_eq : d = none) : Turnover u who d c none
  | stepped {task task' : Task σ} {ro : Roster σ} (own : who = c)
      (task_eq : u.roster.taskAt c = some task) (step : u.TaskStep c task d ro task') :
      Turnover u who d c (some task')
  /-- the step was the task's last one -/
  | ended {task task' : Task σ} {ro : Roster σ} {x : Completion} (own : who = c)
      (task_eq : u.roster.taskAt c = some task) (step : u.TaskStep c task d ro task')
      (finished : task'.completion? = some x) : Turnover u who d c none

/-- Tasks are not concerned by what happens at a strand while its context has no task. -/
theorem task_of_step {t : ThreadId} {s s' : LaunchState σ} {d : Option Deed} (order : s.InOrder t)
    (step : s.Step d s') : s'.child.bind Child.task? = s.child.bind Child.task? := by
  cases step with
  | spawned creation_eq =>
      simp only [LaunchState.InOrder, creation_eq] at order
      rw [order.2.1]
      rfl
  | @woken thread child_eq _ =>
      rw [child_eq]
      cases thread.kind <;> rfl
  | enlisted child_eq | deserted child_eq _ _ =>
      rw [child_eq]
      rfl
  | _ => rfl

theorem Turnover.of_eq {u : World σ} {who c : Ctx} {d : Option Deed} {after : Option (Task σ)}
    (same : after = u.roster.taskAt c) (aside : who = c → ∀ e ∈ d, e.isOfTask = false) :
    u.Turnover who d c after := by
  rw [same]
  exact .same aside

/-- Every operation does one of these things to the task of each context. -/
theorem Shift.turnover {u : World σ} {who : Ctx} {d : Option Deed} {ro : Roster σ} {h : List Deed}
    (shift : Shift u who d ro) (launching : Launching h u) (c : Ctx) :
    u.Turnover who d c (ro.taskAt c) := by
  cases shift with
  | rest stays retires admits =>
      refine .same fun _ e deed_eq => ?_
      cases e with
      | started t => cases stays _ deed_eq
      | retired r t => exact absurd deed_eq (retires r t)
      | _ => rfl
  | @built _ kind home thread pass_eq home_lt =>
      refine .of_eq ?_ (by simp [Deed.isOfTask])
      cases c with
      | host | creator t => rfl
      | body t =>
          simp only [Roster.taskAt]
          rw [List.getElem?_append]
          split
          · rfl
          · rename_i beyond
            have missing : u.roster.launches[t]? = none :=
              List.getElem?_eq_none_iff.mpr (Nat.le_of_not_lt beyond)
            rw [missing, List.getElem?_singleton]
            split <;> rfl
  | @launchStep _ t s s' _ launch_eq step =>
      refine .of_eq ?_ ?_
      · rcases u.roster.taskAt_modify_cases c t fun _ => s' with
          same | ⟨s₁, rfl, was, before, after⟩
        · exact same
        · obtain rfl : s = s₁ := Option.some.inj (launch_eq.symm.trans was)
          rw [after, before, task_of_step (launching.inOrder t s was) step]
      · rcases step.deed with rfl | ⟨r, t', rfl⟩ <;> simp [Deed.isOfTask]
  | @begun I t s thread launch_eq child_eq =>
      by_cases own : c = .body t
      · subst own
        have after : (u.roster.modify t fun _ => { s with
            readySent := true, child := some (.running (Task.start I thread []).1) }).taskAt
              (.body t) = some (Task.start I thread []).1 := by
          simp [Roster.taskAt, Roster.modify, launch_eq, Child.task?]
        rw [after]
        exact .started rfl (by simp [Roster.taskAt, launch_eq, child_eq, Child.task?]) rfl
      · refine .of_eq ?_ fun who_eq => absurd who_eq.symm own
        rcases u.roster.taskAt_modify_cases c t fun _ => { s with
            readySent := true, child := some (.running (Task.start I thread []).1) } with
          same | ⟨_, body_eq, _⟩
        · exact same
        · exact absurd body_eq own
  | @waits host' before after =>
      refine .of_eq ?_ (by simp)
      cases c with
      | host => exact after.trans before.symm
      | body t | creator t => rfl
  | @called I slot thread m args idle held_eq =>
      cases c with
      | host => exact .called rfl (by simp [Roster.taskAt, roster, idle, Host.task?]) rfl
      | body t =>
          exact .of_eq (u.roster.taskAt_modify_held (.body t) slot none) (by simp)
      | creator t => exact .of_eq rfl (by simp)
  | @started I slot thread idle held_eq =>
      cases c with
      | host => exact .started rfl (by simp [Roster.taskAt, roster, idle, Host.task?]) rfl
      | body t => exact .of_eq (u.roster.taskAt_modify_held (.body t) slot none) (by simp)
      | creator t => exact .of_eq rfl (by simp)
  | @takenBack slot task x host_eq finished =>
      cases c with
      | host => exact .takenBack (by simp [Roster.taskAt, roster, host_eq, Host.task?]) finished rfl
      | body t =>
          exact .of_eq (u.roster.taskAt_modify_held (.body t) slot (some task.thread)) (by simp)
      | creator t => exact .of_eq rfl (by simp)
  | created held_eq =>
      exact .of_eq (Roster.taskAt_create u.roster c _ _ _) (by simp [Deed.isOfTask])
  | @stepped _ task task' _ ro' task_eq step =>
      by_cases own : c = who
      · subst own
        have task_eq' : ro'.taskAt c = some task := by rw [step.taskAt_eq, task_eq]
        rcases Roster.taskAt_put task' task_eq' with after | ⟨after, x, finished⟩
        · rw [after]
          exact .stepped rfl task_eq step
        · rw [after]
          exact .ended rfl task_eq step finished
      · rw [Roster.taskAt_put_ne _ _ own, step.taskAt_eq]
        exact .same fun who_eq => absurd who_eq.symm own

/-! ## Guards -/

/-- The guards of a context, innermost first. -/
def guardsAt (w : World σ) (c : Ctx) : List Guard :=
  (w.roster.taskAt c).toList.flatMap Task.guards

theorem guardsAt_of_task {w : World σ} {c : Ctx} {task : Task σ}
    (task_eq : w.roster.taskAt c = some task) : w.guardsAt c = task.guards := by
  simp [guardsAt, task_eq]

theorem guardsAt_of_none {w : World σ} {c : Ctx} (none_eq : w.roster.taskAt c = none) :
    w.guardsAt c = [] := by
  simp [guardsAt, none_eq]

/-- A proper task that is over has no guards. -/
theorem guards_of_completion {task : Task σ} {x : Completion} (proper : task.Proper)
    (finished : task.completion? = some x) : task.guards = [] := by
  unfold Task.completion? at finished
  split at finished
  · rename_i c mode_eq
    unfold Task.Proper at proper
    rw [mode_eq] at proper
    simp [Task.guards, mode_eq, Mode.guards, proper]
  · cases finished

theorem taskDeed?_of_start {I : Interpreter σ} (u : World σ) {task : Task σ} {s s' : σ}
    {depth : Nat} {catches : Bool} (mode_eq : task.mode = .acting s depth)
    (action_eq : (I.act s task.thread).action = .start s' catches) :
    u.taskDeed? I task = some (.started task.thread.id) := by
  simp [taskDeed?, mode_eq, action_eq]

/-- A local step that starts no body does nothing that concerns who is counted where. -/
theorem taskDeed?_of_no_start {I : Interpreter σ} (u : World σ) {task task' : Task σ}
    {notes : List Note} (advances : task.advance I = some (task', notes))
    (plain : ∀ s depth s' catches, task.mode = .acting s depth →
      (I.act s task.thread).action ≠ .start s' catches) : u.taskDeed? I task = none := by
  unfold taskDeed?
  split
  · rename_i s depth mode_eq
    split
    · rename_i s' catches action_eq
      exact absurd action_eq (plain s depth s' catches mode_eq)
    · rfl
  · obtain ⟨s, depth, mode_eq, _⟩ | ⟨c, mode_eq, _⟩ | ⟨a, mode_eq, _⟩ :=
      Task.advance_cases advances
    · simp [Task.request?, mode_eq]
    · simp [Task.request?, mode_eq]
    · simp [Task.request?, mode_eq]

/-- A step of a task puts a guard in front, takes the foremost one away, or leaves the guards as
they are.  One is taken away when it has found its thread dead, or has had it retired. -/
theorem TaskStep.guards {u : World σ} {c : Ctx} {task task' : Task σ} {d : Option Deed}
    {ro : Roster σ} (step : u.TaskStep c task d ro task') :
    (∃ g : Guard, g.pass = task.thread.pass ∧ d = some (.started g.thread) ∧
        task'.guards = g :: task.guards) ∨
      (∀ t, d ≠ some (.started t)) ∧
        (task'.guards = task.guards ∨
          ∃ g, task.guards = g :: task'.guards ∧
            ((∃ abort, task.mode = .inspecting g abort ∧ u.state? g.thread = some .died) ∨
              ∃ passing, task.mode = .retiring g passing ∧
                d = u.retirement? g.registry g.thread)) := by
  cases step with
  | advanced isPublic advances =>
      obtain ⟨_, ⟨s, depth, s', catches, mode_eq, action_eq, g, guard_eq, pushed⟩ |
        ⟨plain, same⟩⟩ := Task.advance_guards advances
      · refine .inl ⟨g, guard_eq, ?_, pushed⟩
        rw [taskDeed?_of_start u mode_eq action_eq]
        exact congrArg (fun pass => some (Deed.started pass.thread)) guard_eq.symm
      · refine .inr ⟨?_, .inl same⟩
        rw [taskDeed?_of_no_start u advances plain]
        simp
  | @answered I r a w asks served keeps stays =>
      have stays' : ∀ t, u.requestDeed? r ≠ some (.started t) := by
        intro t deed_eq
        cases stays _ deed_eq
      refine .inr ⟨stays', ?_⟩
      obtain ⟨_, _, _, _, same⟩ | ⟨_, ⟨_, same⟩ | ⟨g, popped, why⟩⟩ := Task.answer_guards I asks a
      · exact .inl same
      · exact .inl same
      · refine .inr ⟨g, popped, ?_⟩
        rcases why with ⟨abort, mode_eq, rfl⟩ | ⟨passing, mode_eq⟩
        · refine .inl ⟨abort, mode_eq, ?_⟩
          have asked : r = .stateOf g.thread := by simpa [Task.request?, mode_eq] using asks.symm
          subst asked
          simp only [serve] at served
          split at served
          · rename_i s state_eq
            cases served
            exact state_eq
          · cases served
        · refine .inr ⟨passing, mode_eq, ?_⟩
          have asked : r = .retire g.registry g.thread := by
            simpa [Task.request?, mode_eq] using asks.symm
          rw [asked]
          rfl
  | @replaced I slot asks =>
      refine .inr ⟨by simp, .inl ?_⟩
      obtain ⟨_, _, _, _, same⟩ | ⟨_, ⟨_, same⟩ | ⟨g, _, why⟩⟩ :=
        Task.answer_guards I asks (.replaced (u.held? slot))
      · exact same
      · exact same
      · rcases why with ⟨abort, _, answer_eq⟩ | ⟨passing, mode_eq⟩
        · cases answer_eq
        · simp [Task.request?, mode_eq] at asks
  | deferred isPublic => exact .inr ⟨by simp, .inl (Task.reask_guards task _)⟩
  | launches held_eq => exact .inr ⟨by simp, .inl (Task.reask_guards task _)⟩

/-! ## Along runs -/

/-- Every task is proper, and every guard goes back to a start that is on record. -/
structure Guarded (h : List Deed) (w : World σ) : Prop where
  proper : ∀ c, ∀ task : Task σ, w.roster.taskAt c = some task → task.Proper
  begun : ∀ c, ∀ g ∈ w.guardsAt c, .started g.thread ∈ h

/-- A step leads from a proper task to a proper task. -/
theorem TaskStep.proper {u : World σ} {c : Ctx} {task task' : Task σ} {d : Option Deed}
    {ro : Roster σ} (step : u.TaskStep c task d ro task') (proper : task.Proper) :
    task'.Proper := by
  cases step with
  | advanced isPublic advances => exact (Task.isCalm_advance isPublic advances).proper
  | answered asks served keeps stays => exact Task.proper_answer _ asks _
  | replaced asks => exact Task.proper_answer _ asks _
  | deferred isPublic => exact Task.proper_reask proper isPublic
  | launches held_eq => exact Task.proper_reask proper rfl

/-- What an operation can do to the guards of a context: the guards that are there afterwards. -/
inductive GuardStep (u : World σ) (who : Ctx) (d : Option Deed) (c : Ctx) : List Guard → Prop
  | same (aside : who = c → ∀ t, d ≠ some (.started t)) : GuardStep u who d c (u.guardsAt c)
  /-- a body was started -/
  | pushed {g : Guard} (own : who = c) (deed_eq : d = some (.started g.thread)) :
      GuardStep u who d c (g :: u.guardsAt c)
  /-- a guard has found its thread dead, or has had it retired -/
  | popped {g : Guard} {gs : List Guard} {task : Task σ} (own : who = c)
      (task_eq : u.roster.taskAt c = some task) (guards_eq : u.guardsAt c = g :: gs)
      (aside : ∀ t, d ≠ some (.started t))
      (why : (∃ abort, task.mode = .inspecting g abort ∧ u.state? g.thread = some .died) ∨
        ∃ passing, task.mode = .retiring g passing ∧ d = u.retirement? g.registry g.thread) :
      GuardStep u who d c gs

theorem TaskStep.guardStep {u : World σ} {c : Ctx} {task task' : Task σ} {d : Option Deed}
    {ro : Roster σ} (step : u.TaskStep c task d ro task')
    (task_eq : u.roster.taskAt c = some task) : u.GuardStep c d c task'.guards := by
  have guards_eq := guardsAt_of_task task_eq
  obtain ⟨g, _, deed_eq, pushed⟩ | ⟨aside, same | ⟨g, popped, why⟩⟩ := step.guards
  · rw [pushed, ← guards_eq]
    exact .pushed rfl deed_eq
  · rw [same, ← guards_eq]
    exact .same fun _ => aside
  · exact .popped rfl task_eq (guards_eq.trans popped) aside why

/-- Every operation does one of these things to the guards of each context. -/
theorem guards_perform {u v : World σ} {op : Operation σ} {h : List Deed}
    (isPublic : op.IsPublic) (done : u.perform op = some v) (launching : Launching h u)
    (guarded : Guarded h u) (c : Ctx) :
    u.GuardStep op.performer (u.deed? op) c (v.guardsAt c) := by
  have turnover := (shift_perform isPublic done).turnover launching c
  generalize after_eq : v.roster.taskAt c = after at turnover
  cases turnover with
  | same aside =>
      have same : v.guardsAt c = u.guardsAt c := by rw [guardsAt, guardsAt, after_eq]
      rw [same]
      refine .same fun own t started => ?_
      cases aside own _ started
  | @called I thread m args own none_eq deed_eq =>
      have same : v.guardsAt c = u.guardsAt c := by
        rw [guardsAt_of_task after_eq, guardsAt_of_none none_eq]
        exact (Task.call_guards I thread [] m args).2
      rw [same]
      refine .same fun _ t started => ?_
      cases deed_eq.symm.trans started
  | @started I thread own none_eq deed_eq =>
      have pushed : v.guardsAt c = Task.guardOf thread :: u.guardsAt c := by
        rw [guardsAt_of_task after_eq, guardsAt_of_none none_eq]
        exact (Task.start_guards I thread []).2
      rw [pushed]
      exact .pushed own deed_eq
  | @takenBack task x task_eq finished deed_eq =>
      have same : v.guardsAt c = u.guardsAt c := by
        rw [guardsAt_of_none after_eq, guardsAt_of_task task_eq,
          guards_of_completion (guarded.proper c task task_eq) finished]
      rw [same]
      refine .same fun _ t started => ?_
      cases deed_eq.symm.trans started
  | stepped own task_eq step =>
      rw [guardsAt_of_task after_eq, own]
      exact step.guardStep task_eq
  | ended own task_eq step finished =>
      have none_left := guards_of_completion (step.proper (guarded.proper c _ task_eq)) finished
      rw [guardsAt_of_none after_eq, ← none_left, own]
      exact step.guardStep task_eq

theorem guarded_perform {u v : World σ} {op : Operation σ} {h : List Deed}
    (isPublic : op.IsPublic) (done : u.perform op = some v) (launching : Launching h u)
    (guarded : Guarded h u) : Guarded (h ++ (u.deed? op).toList) v := by
  refine ⟨?_, ?_⟩
  · intro c task' task_eq'
    have turnover := (shift_perform isPublic done).turnover launching c
    generalize after_eq : v.roster.taskAt c = after at turnover task_eq'
    cases turnover with
    | same => exact guarded.proper c task' task_eq'
    | called own none_eq =>
        cases task_eq'
        exact (Task.isCalm_call _ _ _ _ _).proper
    | started own none_eq deed_eq =>
        cases task_eq'
        exact (Task.isCalm_start _ _ _).proper
    | stepped own task_eq step =>
        cases task_eq'
        exact step.proper (guarded.proper c _ task_eq)
    | takenBack task_eq finished => cases task_eq'
    | ended own task_eq step finished => cases task_eq'
  · intro c g member
    rw [List.mem_append]
    have change := guards_perform isPublic done launching guarded c
    generalize after_eq : v.guardsAt c = after at change member
    cases change with
    | same aside => exact .inl (guarded.begun c g member)
    | @pushed g' own deed_eq =>
        rcases List.mem_cons.mp member with rfl | old
        · rw [deed_eq]
          exact .inr (List.mem_singleton.mpr rfl)
        · exact .inl (guarded.begun c g old)
    | @popped g' gs task own task_eq guards_eq aside why =>
        refine .inl (guarded.begun c g ?_)
        rw [guards_eq]
        exact List.mem_cons_of_mem g' member

/-- Tasks are proper and guarded after every run from a world without threads. -/
theorem Run.guarded {n : Nat} {config : ConfigCell} {h : List Deed} {w : World σ}
    (run : Run (ofRegistries n config) h w) : Guarded h w := by
  induction run with
  | refl =>
      have none_eq (c : Ctx) : (ofRegistries n config : World σ).roster.taskAt c = none := by
        cases c <;> rfl
      refine ⟨?_, ?_⟩
      · intro c task task_eq
        cases (none_eq c).symm.trans task_eq
      · intro c g member
        rw [guardsAt_of_none (none_eq c)] at member
        cases member
  | snoc op run isPublic done ih => exact guarded_perform isPublic done run.launching ih

/-- Only a guard has its thread retired, in a step of its own context. -/
theorem Shift.retired_by {u : World σ} {who : Ctx} {d : Option Deed} {ro : Roster σ}
    {r : RegistryId} {t : ThreadId} (shift : Shift u who d ro)
    (proper : ∀ c, ∀ task : Task σ, u.roster.taskAt c = some task → task.Proper)
    (deed_eq : d = some (.retired r t)) :
    ∃ task g passing, u.roster.taskAt who = some task ∧ task.mode = .retiring g passing ∧
      g.registry = r ∧ g.thread = t := by
  cases shift with
  | rest stays retires admits => exact absurd deed_eq (retires r t)
  | launchStep launch_eq step => rcases step.deed with rfl | ⟨r', t', rfl⟩ <;> cases deed_eq
  | stepped task_eq step =>
      obtain ⟨other, _⟩ | ⟨_, r', asks, asked_eq⟩ | ⟨_, other⟩ := step.deed_cases deed_eq
      · cases other
      · have asked : r' = .retire r t := by
          cases r' with
          | retire r₁ t₁ =>
              cases (retirement?_eq_some asked_eq).1
              rfl
          | transition r₁ t₁ next => cases (change?_eq_some asked_eq).1
          | spawn slot object =>
              obtain ⟨thread, _, created_eq⟩ := Option.map_eq_some_iff.mp asked_eq
              cases created_eq
          | _ => cases asked_eq
        subst asked
        obtain ⟨g, passing, mode_eq, registry_eq, thread_eq⟩ :=
          Task.retiring_of_request (proper _ _ task_eq) asks
        exact ⟨_, g, passing, task_eq, mode_eq, registry_eq, thread_eq⟩
      · cases other
  | built pass_eq home_lt | begun launch_eq child_eq | waits before after | called idle held_eq
  | started idle held_eq | takenBack host_eq finished | created held_eq => cases deed_eq

end World

end ThreadEngine
