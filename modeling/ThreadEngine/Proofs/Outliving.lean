import ThreadEngine.Proofs.Joining

set_option autoImplicit false

/-!
# The entry point outlives the application threads

When the method of an entry point has returned, its body waits until the counter of its registry is
zero, and only then retires the thread.  A counter that is zero belongs to a table that is empty,
and whoever was recorded in that table has died (`Sound.died_of_uncounted`).  So a body that is past
its wait has seen all threads dead that were recorded before it began to wait
(`Run.closing_or_died`), whatever the others do in the meantime; but a thread that has died may have
been revived since.
-/

namespace ThreadEngine

namespace Task

variable {σ : Type}

/-- The method of a body has returned, the task still works on the thread of that body, and the wait
for the application threads is not over. -/
structure Closing (g : Guard) (task : Task σ) : Prop where
  own : task.thread.pass = g.pass
  stage : (∃ rest result, task.layers = .body g :: rest ∧
      task.mode = .delivering (.returned result)) ∨ task.mode = .awaiting g

theorem Closing.guards {g : Guard} {task : Task σ} (closing : task.Closing g) :
    ∃ gs, task.guards = g :: gs := by
  obtain ⟨rest, result, layers_eq, mode_eq⟩ | mode_eq := closing.stage
  · exact ⟨rest.flatMap Layer.guards, by simp [Task.guards, layers_eq, mode_eq, Mode.guards,
      Layer.guards]⟩
  · exact ⟨task.layers.flatMap Layer.guards, by simp [Task.guards, mode_eq, Mode.guards]⟩

theorem Closing.completion? {g : Guard} {task : Task σ} (closing : task.Closing g) :
    task.completion? = none := by
  obtain ⟨rest, result, layers_eq, mode_eq⟩ | mode_eq := closing.stage
  · simp [Task.completion?, mode_eq]
  · simp [Task.completion?, mode_eq]

/-- Whoever waits changes no state. -/
theorem Closing.not_transition {g : Guard} {task : Task σ} (closing : task.Closing g)
    (r : RegistryId) (t : ThreadId) (next : State) :
    task.request? ≠ some (.transition r t next) := by
  obtain ⟨rest, result, layers_eq, mode_eq⟩ | mode_eq := closing.stage
  · simp [Task.request?, mode_eq]
  · simp [Task.request?, mode_eq]

/-- A task that waits is not made to ask for anything else. -/
theorem Closing.reask {g : Guard} {task : Task σ} (closing : task.Closing g) (r : Request) :
    (task.reask r).Closing g := by
  have same : task.reask r = task := by
    obtain ⟨rest, result, layers_eq, mode_eq⟩ | mode_eq := closing.stage
    · simp [Task.reask, mode_eq]
    · simp [Task.reask, mode_eq]
  rw [same]
  exact closing

/-- The body of an entry point goes from the end of its method to its wait. -/
theorem Closing.advance {I : Interpreter σ} {g : Guard} {task task' : Task σ} {notes : List Note}
    (closing : task.Closing g) (main : g.kind = .main)
    (advances : task.advance I = some (task', notes)) : task'.Closing g := by
  obtain ⟨rest, result, layers_eq, mode_eq⟩ | mode_eq := closing.stage
  · simp only [Task.advance, mode_eq, deliver, layers_eq, endBody, main, Option.some.injEq,
      Prod.mk.injEq] at advances
    obtain ⟨rfl, _⟩ := advances
    exact ⟨closing.own, .inr rfl⟩
  · simp [Task.advance, mode_eq] at advances

end Task

namespace World

variable {σ : Type}

/-- A wait is answered when the counter is zero. -/
theorem appThreads_of_answered {u w : World σ} {c : Ctx} {r : RegistryId} {a : Answer}
    {reg : Registry} (served : u.serve c (.awaitApplications r) = .answered a w)
    (reg_eq : u.registries[r]? = some reg) : reg.appThreads = 0 := by
  simp only [serve, serveAwait, reg_eq] at served
  split at served
  · cases served
  · split at served
    · assumption
    · cases served

/-- A body leaves its wait only when the counter of its registry is zero. -/
theorem TaskStep.closing {u : World σ} {c : Ctx} {task task' : Task σ} {d : Option Deed}
    {ro : Roster σ} {g : Guard} (step : u.TaskStep c task d ro task') (closing : task.Closing g)
    (main : g.kind = .main) :
    task'.Closing g ∨
      ∀ reg, u.registries[g.registry]? = some reg → reg.appThreads = 0 := by
  cases step with
  | advanced isPublic advances => exact .inl (closing.advance main advances)
  | @answered I r a w asks served keeps stays =>
      right
      intro reg reg_eq
      obtain ⟨rest, result, layers_eq, mode_eq⟩ | mode_eq := closing.stage
      · simp [Task.request?, mode_eq] at asks
      · have registry_eq : task.thread.registry = g.registry := congrArg Pass.registry closing.own
        have asked : r = .awaitApplications g.registry := by
          simpa [Task.request?, mode_eq, registry_eq] using asks.symm
        subst asked
        exact appThreads_of_answered served reg_eq
  | replaced asks =>
      obtain ⟨rest, result, layers_eq, mode_eq⟩ | mode_eq := closing.stage
      · simp [Task.request?, mode_eq] at asks
      · simp [Task.request?, mode_eq] at asks
  | deferred isPublic => exact .inl (closing.reask _)
  | launches held_eq => exact .inl (closing.reask _)

section Outliving

variable {n : Nat} {config : ConfigCell} {h h' : List Deed} {u v w x : World σ}
  {op : Operation σ} {c : Ctx} {g : Guard}

/-- A guard speaks to a registry that exists. -/
theorem Consistent.registry_of_guard (consistent : Consistent u) (member : g ∈ u.guardsAt c) :
    ∃ reg, u.registries[g.registry]? = some reg := by
  obtain ⟨_, _, _, _, housed⟩ := consistent.card_of_pass (mem_passesAt_of_guard member)
  have lives : g.pass.registry < u.registries.length := by simpa [ledger] using housed
  exact ⟨_, List.getElem?_eq_getElem lives⟩

/-- Where nobody is counted, whoever was recorded has died. -/
theorem Sound.died_of_uncounted (sound : Sound h w) {t : ThreadId}
    (entries : w.ledger.Entries h t) {r : RegistryId} {reg : Registry}
    (reg_eq : w.registries[r]? = some reg) (zero : reg.appThreads = 0)
    (recorded : t ∈ recordings r h) : w.state? t = some .died := by
  have empty : w.ledger.table r = [] := by
    rw [ledger_table reg_eq]
    apply List.eq_nil_of_length_eq_zero
    rw [← (sound.counted reg_eq).1, zero]
  rw [← ledger_state?]
  cases entries with
  | live alive retires counts =>
      have present := counts r
      rw [empty, List.count_nil] at present
      exact absurd recorded (List.count_eq_zero.mp present.symm)
  | dead _ died _ _ _ _ => exact died

/-- What one operation preserves: a body whose method has returned is still about to wait, or waits,
unless nobody is counted any more. -/
theorem closing_perform {task : Task σ} (launching : Launching h u) (isPublic : op.IsPublic)
    (done : u.perform op = some v) (task_eq : u.roster.taskAt c = some task)
    (closing : task.Closing g) (main : g.kind = .main) :
    (∃ task', v.roster.taskAt c = some task' ∧ task'.Closing g) ∨
      ∀ reg, u.registries[g.registry]? = some reg → reg.appThreads = 0 := by
  have turnover := (shift_perform isPublic done).turnover launching c
  generalize v.roster.taskAt c = after at turnover ⊢
  cases turnover with
  | same aside => exact .inl ⟨task, task_eq, closing⟩
  | called own none_eq deed_eq => cases none_eq.symm.trans task_eq
  | started own none_eq deed_eq => cases none_eq.symm.trans task_eq
  | takenBack before_eq finished deed_eq =>
      cases before_eq.symm.trans task_eq
      cases closing.completion?.symm.trans finished
  | stepped own before_eq step =>
      cases before_eq.symm.trans task_eq
      rcases step.closing closing main with closing' | zero
      · exact .inl ⟨_, rfl, closing'⟩
      · exact .inr zero
  | ended own before_eq step finished =>
      cases before_eq.symm.trans task_eq
      rcases step.closing closing main with closing' | zero
      · cases closing'.completion?.symm.trans finished
      · exact .inr zero

/-! ## The return of a start -/

/-- The step in which a start returns: the guard has its thread retired, and no abort is passing
before or after. -/
structure StartReturns (u v : World σ) (c : Ctx) (g : Guard) : Prop where
  before : ∃ task, u.roster.taskAt c = some task ∧ task.mode = .retiring g none
  after : ∃ task, v.roster.taskAt c = some task ∧ task.mode = .delivering .ended

/-- If no abort follows the retirement of a thread, the thread was there to be retired. -/
theorem TaskStep.retires {task task' : Task σ} {d : Option Deed} {ro : Roster σ}
    (step : u.TaskStep c task d ro task') (mode_eq : task.mode = .retiring g none)
    (ended : task'.mode = .delivering .ended) :
    d = u.retirement? g.registry g.thread ∧ (u.retire c g.registry g.thread).1 = none := by
  have asks : task.request? = some (.retire g.registry g.thread) := by
    simp [Task.request?, mode_eq]
  cases step with
  | advanced isPublic advances => simp [Task.advance, mode_eq] at advances
  | @answered I r a w asks' served keeps stays =>
      cases asks.symm.trans asks'
      refine ⟨rfl, ?_⟩
      simp only [serve, Served.answered.injEq] at served
      rw [← served.1] at ended
      cases fault : (u.retire c g.registry g.thread).1 with
      | none => rfl
      | some broken => simp [Task.answer, mode_eq, Task.retired, fault, Task.raise] at ended
  | replaced asks' => cases asks.symm.trans asks'
  | deferred isPublic => simp [Task.reask, mode_eq] at ended
  | launches held_eq => simp [Task.reask, mode_eq] at ended

theorem retire_fst_of_died {r : RegistryId} {t : ThreadId} {reg : Registry} (c : Ctx)
    (died : u.state? t = some .died) (reg_eq : u.registries[r]? = some reg) :
    (u.retire c r t).1 = some .retiredTwice := by
  simp [retire, died, reg_eq, State.isTerminal]

/-- The thread of a start dies in the step in which the start returns, and not before. -/
theorem Sound.dies_at_return (sound : Sound h u) (isPublic : op.IsPublic)
    (done : u.perform op = some v) (returns : u.StartReturns v c g) :
    u.state? g.thread ≠ some .died ∧ v.state? g.thread = some .died := by
  obtain ⟨task, task_eq, mode_eq⟩ := returns.before
  obtain ⟨task', task_eq', ended⟩ := returns.after
  have turnover := (shift_perform isPublic done).turnover sound.launching c
  generalize v.roster.taskAt c = after at turnover task_eq'
  cases turnover with
  | same aside =>
      cases task_eq.symm.trans task_eq'
      cases mode_eq.symm.trans ended
  | called own none_eq deed_eq => cases none_eq.symm.trans task_eq
  | started own none_eq deed_eq => cases none_eq.symm.trans task_eq
  | takenBack before_eq finished deed_eq => cases task_eq'
  | ended own before_eq step finished => cases task_eq'
  | stepped own before_eq step =>
      cases before_eq.symm.trans task_eq
      cases task_eq'
      obtain ⟨deed_eq, faultless⟩ := step.retires mode_eq ended
      refine ⟨?_, ?_⟩
      · intro died
        have member := mem_guardsAt_of_retiring task_eq mode_eq
        obtain ⟨reg, reg_eq⟩ := sound.consistent.registry_of_guard member
        have twice := retire_fst_of_died c died reg_eq
        cases faultless.symm.trans twice
      · exact sound.died_of_popped isPublic done task_eq (.inr ⟨none, mode_eq, deed_eq⟩)

/-- When the creation of an entry point is over, there is no guard of it any more. -/
theorem Joinable.unguarded_of_launched {t : ThreadId} {handle : Handle} (joinable : u.Joinable)
    (sound : Sound h u) (orderly : Orderly h u) (handle_eq : u.handle? t = some handle)
    (main : handle.kind = .main) (launched : u.launchReport t = .launched t)
    (member : g ∈ u.guardsAt c) : g.thread ≠ t := by
  rintro rfl
  obtain ⟨left, created⟩ := joinable.taskAt_of_launched sound.launching handle_eq main launched
  have nobody : u.roster.taskAt c = none := by
    rcases orderly.settled _ _ (mem_passesAt_of_guard member) created with at_creator | at_body
    · have at_c : c = .creator g.thread := Ctx.place_inj at_creator
      rw [at_c]
      rfl
    · have at_c : c = .body g.thread := Ctx.place_inj at_body
      rw [at_c]
      exact left
  rw [guardsAt_of_none nobody] at member
  cases member

theorem pass?_of_handle? {t : ThreadId} {handle : Handle} (handle_eq : u.handle? t = some handle) :
    u.ledger.pass? t = some ⟨t, handle.kind, handle.home⟩ := by
  obtain ⟨s, strand_eq, rfl⟩ := Option.map_eq_some_iff.mp handle_eq
  simp [Ledger.pass?, ledger, strand_eq, Handle.card]

theorem handle?_of_pass? {t : ThreadId} {pass : Pass} (known : u.ledger.pass? t = some pass) :
    ∃ handle, u.handle? t = some handle ∧ handle.kind = pass.kind := by
  obtain ⟨card, card_eq, rfl⟩ := Option.map_eq_some_iff.mp known
  simp only [ledger, List.getElem?_map, Option.map_eq_some_iff] at card_eq
  obtain ⟨s, strand_eq, rfl⟩ := card_eq
  exact ⟨s.handle, by simp [handle?, strand_eq], rfl⟩

/-- What a thread is does not change. -/
theorem Run.handle?_of_handle? {t : ThreadId} {handle : Handle} (run : Run u h v)
    (handle_eq : u.handle? t = some handle) :
    ∃ handle', v.handle? t = some handle' ∧ handle'.kind = handle.kind := by
  have kept := Ledger.pass?_foldl h (pass?_of_handle? handle_eq)
  rw [← run.ledger_eq] at kept
  exact handle?_of_pass? kept

end Outliving

end World

namespace FineWorld

open World (promptMethod promptInterpreter isPublic_promptInterpreter)

variable {σ : Type} {n : Nat} {config : ConfigCell} {w x : FineWorld σ}
  {log log' : List FineDeed} {c : Ctx} {gd : Guard} {t : ThreadId}

/-! ## Runs in fine steps -/

/-- What a thread is does not change. -/
theorem Run.handle?_of_handle? {handle : Handle}
    (reached : Run Operation.IsPublic (ofRegistries n config) log x)
    (run : Run Operation.IsPublic x log' w) (handle_eq : x.world.handle? t = some handle) :
    ∃ handle', w.world.handle? t = some handle' ∧ handle'.kind = handle.kind := by
  have kept : w.world.ledger.pass? t = some ⟨t, handle.kind, handle.home⟩ := by
    induction run with
    | refl => exact World.pass?_of_handle? handle_eq
    | snoc run step ih => exact (step.ledgerStep (reached.trans run).sound).pass? ih
  exact World.handle?_of_pass? kept

/-- A body whose method has returned is still about to wait, or waits, or a thread has died that was
recorded in its registry before, if it was never revived. -/
theorem Run.closing_or_died {task : Task σ}
    (reached : Run Operation.IsPublic (ofRegistries n config) log x)
    (task_eq : x.world.roster.taskAt c = some task) (closing : task.Closing gd)
    (main : gd.kind = .main) (recorded : t ∈ recordings gd.registry (deedsOf log))
    (run : Run Operation.IsPublic x log' w) (revives : ∀ next, .revived t next ∉ log ++ log') :
    (∃ task', w.world.roster.taskAt c = some task' ∧ task'.Closing gd) ∨
      w.world.state? t = some .died := by
  induction run with
  | refl => exact .inl ⟨task, task_eq, closing⟩
  | @snoc log' more u v run step ih =>
      rw [← List.append_assoc] at revives
      have earlier (next : State) : .revived t next ∉ log ++ log' := by
        intro member
        exact revives next (List.mem_append_left more member)
      have now (next : State) : .revived t next ∉ more := by
        intro member
        exact revives next (List.mem_append_right _ member)
      have before := reached.trans run
      have dies (died : u.world.state? t = some .died) : v.world.state? t = some .died :=
        (step.died before.sound died now).1
      rcases ih earlier with ⟨task', task_eq', closing'⟩ | died
      · rcases step.tasks before.sound with ⟨op, isPublic, done⟩ | ⟨_, told⟩
        · rcases World.closing_perform before.sound.launching isPublic done task_eq' closing' main
            with waits | zero
          · exact .inl waits
          · -- the wait is over only if nobody is counted, and then whoever was recorded has died
            obtain ⟨gs, guards_eq⟩ := closing'.guards
            have member : gd ∈ u.world.guardsAt c := by
              rw [World.guardsAt_of_task task_eq', guards_eq]
              exact List.mem_cons_self
            obtain ⟨reg, reg_eq⟩ := before.sound.consistent.registry_of_guard member
            refine .inr (dies (before.sound.died_of_uncounted (before.entries earlier) reg_eq
              (zero reg reg_eq) ?_))
            rw [deedsOf_append, recordings_append]
            exact List.mem_append_left _ recorded
        · exact .inl ⟨task', (told c).eq_some task_eq' closing'.not_transition, closing'⟩
      · exact .inr (dies died)

/-- A start returns in an operation of its own, in which its thread dies. -/
theorem Step.dies_at_return {y z : FineWorld σ} {h : List Deed} {more : List FineDeed}
    (step : Step Operation.IsPublic z more y) (sound : Sound h z)
    (returns : z.world.StartReturns y.world c gd) :
    z.world.state? gd.thread ≠ some .died ∧ y.world.state? gd.thread = some .died := by
  rcases step.tasks sound with ⟨op, isPublic, done⟩ | ⟨_, told⟩
  · exact sound.toSound.dies_at_return isPublic done returns
  · obtain ⟨task, task_eq, retiring⟩ := returns.before
    obtain ⟨task', task_eq', ended⟩ := returns.after
    have silent (r : RegistryId) (t : ThreadId) (next : State) :
        task.request? ≠ some (.transition r t next) := by
      simp [Task.request?, retiring]
    cases task_eq'.symm.trans ((told c).eq_some task_eq silent)
    cases retiring.symm.trans ended

/-- The entry point outlives the application threads it could know of.  Let the method of its body
have returned, with a value or an error, while the body still works on its own thread.

* The entry point dies in the step in which its start returns, and every thread that was recorded in
  its registry before is dead by then, unless it was revived.
* If the creation of the entry point succeeds, and no displaced thread was reclaimed, the entry
  point and all those threads are dead by then, apart from those that were revived. -/
theorem main_outlives {task : Task σ} {rest : List (Layer σ)} {result : CallResult}
    {handle : Handle} (reached : Run Operation.IsPublic (ofRegistries n config) log x)
    (task_eq : x.world.roster.taskAt c = some task) (layers_eq : task.layers = .body gd :: rest)
    (mode_eq : task.mode = .delivering (.returned result)) (own : task.thread.id = gd.thread)
    (handle_eq : x.world.handle? gd.thread = some handle) (main : handle.kind = .main) :
    (∀ log' more z y, Run Operation.IsPublic x log' z → Step Operation.IsPublic z more y →
        z.world.StartReturns y.world c gd →
          z.world.state? gd.thread ≠ some .died ∧ y.world.state? gd.thread = some .died ∧
            ∀ t ∈ recordings handle.home (deedsOf log),
              (∀ next, .revived t next ∉ log ++ log') → z.world.state? t = some .died) ∧
      ∀ log' w, Run Operation.IsPublic x log' w →
        w.world.launchReport gd.thread = .launched gd.thread →
        (∀ t, .reclaimed t ∉ log ++ log') →
          ((∀ next, .revived gd.thread next ∉ log') →
              w.world.state? gd.thread = some .died) ∧
            ∀ t ∈ recordings handle.home (deedsOf log),
              (∀ next, .revived t next ∉ log ++ log') → w.world.state? t = some .died := by
  have guards_eq : x.world.guardsAt c = gd :: rest.flatMap Layer.guards := by
    rw [World.guardsAt_of_task task_eq]
    simp [Task.guards, layers_eq, mode_eq, Mode.guards, Layer.guards]
  have member : gd ∈ x.world.guardsAt c := by
    rw [guards_eq]
    exact List.mem_cons_self
  have known := World.pass?_of_handle? handle_eq
  have agrees := reached.sound.consistent.agrees
  have pass_eq : gd.pass = ⟨gd.thread, handle.kind, handle.home⟩ :=
    Option.some.inj ((agrees _ _ (World.mem_passesAt_of_guard member)).symm.trans known)
  have own_pass : task.thread.pass = gd.pass := by
    have present : task.thread.pass ∈ x.world.roster.passesAt c.place := by
      rw [Roster.passesAt_of_taskAt task_eq]
      exact List.mem_cons_self
    have same := agrees _ _ present
    rw [show task.thread.pass.thread = gd.thread from own, known, ← pass_eq] at same
    exact (Option.some.inj same).symm
  have kind_eq : gd.kind = .main := (congrArg Pass.kind pass_eq).trans main
  have home_eq : gd.registry = handle.home := congrArg Pass.registry pass_eq
  have closing : task.Closing gd := ⟨own_pass, .inl ⟨rest, result, layers_eq, mode_eq⟩⟩
  rw [← home_eq]
  refine ⟨?_, ?_⟩
  · intro log' more z y run step returns
    obtain ⟨alive, dies⟩ := step.dies_at_return (reached.trans run).sound returns
    refine ⟨alive, dies, ?_⟩
    intro t recorded revives
    obtain ⟨task', task_eq', waits⟩ | died :=
      reached.closing_or_died task_eq closing kind_eq recorded run revives
    · -- a body that retires its thread is past its wait
      obtain ⟨task'', task_eq'', retiring⟩ := returns.before
      cases task_eq''.symm.trans task_eq'
      obtain ⟨_, _, _, delivering⟩ | awaiting := waits.stage
      · cases retiring.symm.trans delivering
      · cases retiring.symm.trans awaiting
    · exact died
  · intro log' w run launched reclaims
    have whole := reached.trans run
    obtain ⟨handle', handle_eq', kind_eq'⟩ := reached.handle?_of_handle? run handle_eq
    have gone (gd' : Guard) (member' : gd' ∈ w.world.guardsAt c) : gd'.thread ≠ gd.thread :=
      whole.joins.joinable.unguarded_of_launched whole.sound.toSound (whole.orderly reclaims).1
        handle_eq' (kind_eq'.trans main) launched member'
    refine ⟨?_, ?_⟩
    · intro revives
      rcases reached.guard_stays guards_eq run revives with ⟨inner, left⟩ | died
      · refine absurd rfl (gone gd ?_)
        rw [left]
        exact List.mem_append_right inner List.mem_cons_self
      · exact died
    · intro t recorded revives
      obtain ⟨task', task_eq', waits⟩ | died :=
        reached.closing_or_died task_eq closing kind_eq recorded run revives
      · obtain ⟨gs, guards_eq'⟩ := waits.guards
        refine absurd rfl (gone gd ?_)
        rw [World.guardsAt_of_task task_eq', guards_eq']
        exact List.mem_cons_self
      · exact died

/-- An application thread has been recorded and lives on when the method of the entry point returns.
The entry point goes to sleep while the state of that thread is changed, is woken by its death,
dies, and is joined. -/
theorem main_outlives_sleeping :
    ∃ (log log₁ log₂ more : List FineDeed) (x z y w : FineWorld Script.Activation)
      (task : Task Script.Activation) (gd : Guard) (handle : Handle),
      Run Operation.IsPublic (ofRegistries 1 ConfigCell.fresh) log x ∧
        x.world.roster.taskAt (.body 1) = some task ∧ task.layers = [.body gd] ∧
        task.mode = .delivering (.returned (.ok none)) ∧ task.thread.id = gd.thread ∧
        x.world.handle? gd.thread = some handle ∧ handle.kind = .main ∧ gd.thread = 1 ∧
        handle.home = 0 ∧ recordings 0 (deedsOf log) = [0] ∧ x.world.state? 0 = some .running ∧
        Run Operation.IsPublic x log₁ z ∧ Step Operation.IsPublic z more y ∧
        z.world.StartReturns y.world (.body 1) gd ∧ Run Operation.IsPublic x log₂ w ∧
        w.world.launchReport 1 = .launched 1 ∧ z.world.state? 0 = some .died ∧
        z.world.state? 1 ≠ some .died ∧ y.world.state? 1 = some .died ∧
        w.world.state? 0 = some .died ∧ w.world.state? 1 = some .died := by
  let I := promptInterpreter
  let body (t : ThreadId) : FineOperation Script.Activation := .act (.step I (.body t))
  let creator (t : ThreadId) : FineOperation Script.Activation := .act (.step I (.creator t))
  let first : List (FineOperation Script.Activation) := List.flatten
    [[.act (.application promptMethod [.null] ⟨0, 4, .script⟩),
        .act (.main promptMethod [] ⟨0, 4, .script⟩), .act (.create 0 .null)],
      List.replicate 4 (creator 0), List.replicate 2 (body 0), [.act (.create 1 .null)],
      List.replicate 4 (creator 1), List.replicate 3 (body 1)]
  let second : List (FineOperation Script.Activation) := List.flatten
    [[.check (.transition .host 0 0 .waiting), body 1, .store 0, body 1],
      List.replicate 6 (body 0), [body 1]]
  let third : List (FineOperation Script.Activation) := List.flatten
    [second, List.replicate 2 (body 1), List.replicate 3 (creator 1)]
  have within : ∀ op ∈ first ++ second ++ third ++ [body 1], op.Within Operation.IsPublic := by
    simp [first, second, third, body, creator, I, FineOperation.Within, Operation.IsPublic,
      isPublic_promptInterpreter]
  let gd : Guard := ⟨1, 0, .main, "m"⟩
  let handle : Handle := ⟨.main, 0, .running, some .null, .attached, true⟩
  have reaches :
      ((ofRegistries 1 ConfigCell.fresh : FineWorld Script.Activation).performAll first).map
      (fun done => ((done.1, done.2.pending.isEmpty),
        (done.2.world.state? 0, done.2.world.handle? 1,
          (done.2.world.roster.taskAt (.body 1)).map fun task =>
            (task.layers, task.mode, task.thread.id)),
        (done.2.performAll second).map fun done => (done.1,
          (done.2.world.roster.taskAt (.body 1)).map Task.mode,
          (done.2.perform (body 1)).map fun done =>
            (done.2.world.roster.taskAt (.body 1)).map Task.mode),
        (done.2.performAll third).map fun done => (done.1, done.2.world.launchReport 1))) =
      some (([.deed (.built .application 0), .deed (.built .main 0), .deed (.created 0),
          .deed (.enlisted 0 0), .deed (.created 1), .deed (.started 1)], true),
        (some .running, some handle,
          some ([.body gd], .delivering (.returned (.ok none)), 1)),
        some ([.checked 0 0, .deed (.moved 0 .waiting), .deed (.started 0), .deed (.retired 0 0)],
          some (.retiring gd none), some (some (.delivering .ended))),
        some ([.checked 0 0, .deed (.moved 0 .waiting), .deed (.started 0), .deed (.retired 0 0),
          .deed (.retired 0 1)], .launched 1)) := by
    rfl
  obtain ⟨log, x, reached, seen⟩ :=
    exists_run_of_performAll rfl (fun op member => within op (by simp [member])) reaches
  simp only [Prod.mk.injEq] at seen
  obtain ⟨⟨log_eq, idle⟩, ⟨running, handle_eq, entry⟩, returning, creating⟩ := seen
  rw [List.isEmpty_iff] at idle
  obtain ⟨task, task_eq, seen⟩ := Option.map_eq_some_iff.mp entry
  simp only [Prod.mk.injEq] at seen
  obtain ⟨layers_eq, mode_eq, id_eq⟩ := seen
  obtain ⟨log₁, z, run, seen⟩ :=
    exists_run_of_performAll idle (fun op member => within op (by simp [member])) returning
  simp only [Prod.mk.injEq] at seen
  obtain ⟨log_eq₁, before, after⟩ := seen
  obtain ⟨⟨more, y⟩, done, after⟩ := Option.map_eq_some_iff.mp after
  obtain ⟨log₂, w, run', seen⟩ :=
    exists_run_of_performAll idle (fun op member => within op (by simp [member])) creating
  simp only [Prod.mk.injEq] at seen
  obtain ⟨log_eq₂, launched⟩ := seen
  have step : Step Operation.IsPublic z more y :=
    step_of_perform (by rintro _ ⟨⟩; exact isPublic_promptInterpreter) done
  have returns : z.world.StartReturns y.world (.body 1) gd :=
    ⟨Option.map_eq_some_iff.mp before, Option.map_eq_some_iff.mp after⟩
  obtain ⟨atReturn, atLaunch⟩ :=
    main_outlives reached task_eq layers_eq mode_eq id_eq handle_eq rfl
  obtain ⟨alive, dies, died⟩ := atReturn log₁ more z y run step returns
  obtain ⟨died', died''⟩ := atLaunch log₂ w run' launched (by simp [log_eq, log_eq₂])
  have recorded : recordings 0 (deedsOf log) = [0] := by
    rw [log_eq]
    rfl
  have zero : 0 ∈ recordings handle.home (deedsOf log) := by
    rw [show handle.home = 0 from rfl, recorded]
    exact List.mem_singleton.mpr rfl
  exact ⟨log, log₁, log₂, more, x, z, y, w, task, gd, handle, reached, task_eq, layers_eq, mode_eq,
    id_eq, handle_eq, rfl, rfl, rfl, recorded, running, run, step, returns, run', launched,
    died 0 zero (by simp [log_eq, log_eq₁]), alive, dies,
    died'' 0 zero (by simp [log_eq, log_eq₂]), died' (by simp [log_eq₂])⟩

set_option synthInstance.maxSize 256 in
/-- An entry point that dies before a thread it could know of.  The thread was recorded before the
entry point was created, and is retired between the check and the write of a change that the body of
another thread asks its own registry for.  The entry point finds that nobody is counted, and its
creation succeeds, while the thread waits; nobody has put another thread in the place of his own. -/
theorem revived_thread_outlives_main :
    ∃ (before after : List FineDeed) (f : FineWorld Script.Activation),
      Run Operation.IsPublic (ofRegistries 2 ConfigCell.fresh)
          (before ++ .deed (.created 2) :: after) f ∧
        (f.world.handle? 2).map (fun handle => (handle.kind, handle.home)) = some (.main, 0) ∧
        recordings 0 (deedsOf before) = [0] ∧ f.displaced = [] ∧
        f.world.launchReport 2 = .launched 2 ∧ f.world.state? 2 = some .died ∧
        f.world.state? 0 = some .waiting := by
  let I := promptInterpreter
  let body (t : ThreadId) : FineOperation Script.Activation := .act (.step I (.body t))
  let creator (t : ThreadId) : FineOperation Script.Activation := .act (.step I (.creator t))
  let ops : List (FineOperation Script.Activation) := List.flatten
    [[.act (.application promptMethod [.null] ⟨0, 4, .script⟩),
        .act (.application promptMethod [.null] ⟨1, 4, .script⟩),
        .act (.main promptMethod [] ⟨0, 4, .script⟩), .act (.create 0 .null)],
      List.replicate 4 (creator 0), List.replicate 6 (body 0), launchWriter,
      [.check writerStep, body 0, .store 0, .act (.create 2 .null)],
      List.replicate 4 (creator 2), List.replicate 7 (body 2), List.replicate 3 (creator 2)]
  have within : ∀ op ∈ ops, op.Within Operation.IsPublic := by
    simp [ops, body, creator, I, launchWriter, writerStep, FineOperation.Within,
      Operation.IsPublic, isPublic_promptInterpreter, isPublic_writingInterpreter]
  have done : ((ofRegistries 2 ConfigCell.fresh : FineWorld Script.Activation).performAll ops).map
      (fun done => (done.1, (done.2.world.handle? 2).map (fun handle => (handle.kind, handle.home)),
        done.2.displaced.isEmpty, done.2.world.launchReport 2, done.2.world.state? 2,
        done.2.world.state? 0)) =
      some ([.deed (.built .application 0), .deed (.built .application 1),
          .deed (.built .main 0), .deed (.created 0), .deed (.enlisted 0 0), .deed (.started 0),
          .deed (.created 1), .deed (.enlisted 1 1), .deed (.started 1), .checked 1 0,
          .deed (.retired 0 0), .revived 0 .waiting] ++ .deed (.created 2) ::
            [.deed (.started 2), .deed (.retired 0 2)],
        some (.main, 0), true, .launched 2, some .died, some .waiting) := by decide +kernel
  obtain ⟨log, f, run, seen⟩ := exists_run_of_performAll rfl within done
  simp only [Prod.mk.injEq] at seen
  obtain ⟨rfl, handle_eq, undisturbed, launched, died, waits⟩ := seen
  exact ⟨_, _, f, run, handle_eq, rfl, List.isEmpty_iff.mp undisturbed, launched, died, waits⟩

end FineWorld

end ThreadEngine
