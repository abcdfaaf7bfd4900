import ThreadEngine.Proofs.FineInvariants

set_option autoImplicit false

/-!
# Retirement

A body that is started is guarded, and the guard leaves only when its thread is dead
(`Sound.died_of_popped`).  So a start on a live thread is over only after the thread was retired, by
the context that started it; `Retires` says all that this does to tables, counters and states.  In
fine steps a thread that died may be revived by a write that comes late: until that happens, the
thread lives on or is retired once (`Run.lives_or_retires`).

An abort that passes a guard does not make it abort as well.  The guard looks at the state of its
thread first, and what it finds stays true until it acts on it, because nobody else can retire the
thread unless a displaced thread is reclaimed (`Run.soundTask`); and the counter is never zero while
there is an entry to take out (`Run.sound`).
-/

namespace ThreadEngine

namespace World

variable {σ : Type}

/-! ## Lives -/

section Lives

variable {n : Nat} {config : ConfigCell} {h h' : List Deed} {u v : World σ} {op : Operation σ}
  {t : ThreadId}

/-- A thread that has died stays dead. -/
theorem Run.died_of_died (reached : Run (ofRegistries n config) h u) (run : Run u h' v)
    (died : u.state? t = some .died) : v.state? t = some .died := by
  rw [← ledger_state?] at died ⊢
  have retired := (reached.history.entries t).retired_of_died died
  obtain ⟨r, member⟩ := retired
  have whole := (reached.trans run).history.entries t
  exact whole.died_of_retired (List.mem_append_left h' member)

/-- A thread that has died stays dead. -/
theorem Sound.died_perform (sound : Sound h u) (isPublic : op.IsPublic)
    (done : u.perform op = some v) (died : u.state? t = some .died) :
    v.state? t = some .died := by
  rw [← ledger_state?] at died ⊢
  rw [ledger_perform done]
  cases deed_eq : u.deed? op with
  | none => exact died
  | some d => exact Ledger.died_after (sound.admits isPublic done deed_eq) died

/-- A thread that lives and is not retired goes on living. -/
theorem Sound.alive_perform (sound : Sound h u) (isPublic : op.IsPublic)
    (done : u.perform op = some v) (alive : u.state? t ≠ some .died)
    (spared : ∀ r, u.deed? op ≠ some (.retired r t)) : v.state? t ≠ some .died := by
  intro died
  rw [← ledger_state?, ledger_perform done] at died
  rw [← ledger_state?] at alive
  cases deed_eq : u.deed? op with
  | none =>
      rw [deed_eq] at died
      exact alive died
  | some d =>
      have admits := sound.admits isPublic done deed_eq
      rw [deed_eq] at died
      rcases Ledger.died_of_after admits died with before | ⟨r, now⟩
      · exact alive before
      · exact spared r (deed_eq.trans (congrArg some now))

/-- A thread that is retired has lived until then. -/
theorem Sound.alive_of_retirement (sound : Sound h u) (isPublic : op.IsPublic)
    (done : u.perform op = some v) {r : RegistryId}
    (deed_eq : u.deed? op = some (.retired r t)) : u.state? t ≠ some .died := by
  have alive := Ledger.alive_of_retired (sound.admits isPublic done deed_eq)
  rwa [ledger_state?] at alive

/-- A thread that is retired is dead then. -/
theorem Sound.died_of_retirement (sound : Sound h u) (isPublic : op.IsPublic)
    (done : u.perform op = some v) {r : RegistryId}
    (deed_eq : u.deed? op = some (.retired r t)) : v.state? t = some .died := by
  obtain ⟨_, card, card_eq, _⟩ := sound.admits isPublic done deed_eq
  rw [← ledger_state?, ledger_perform done, deed_eq, Option.toList_some, List.foldl_cons,
    List.foldl_nil, Ledger.state?_after]
  simp [Ledger.state?, card_eq]

end Lives

/-! ## Guards while an abort passes -/

/-- A task that is not lost, and none of whose guards is about to retire a dead thread while an
abort passes. -/
structure SoundTask (w : World σ) (task : Task σ) : Prop where
  present : task.mode ≠ .lost
  alive : ∀ g abort, task.mode = .retiring g (some abort) → w.state? g.thread ≠ some .died

theorem soundTask_of_isCalm {task : Task σ} (w : World σ) (calm : task.IsCalm) :
    w.SoundTask task := by
  refine ⟨?_, ?_⟩
  · intro mode_eq
    rw [Task.IsCalm, mode_eq] at calm
    exact calm
  · intro g abort mode_eq
    rw [Task.IsCalm, mode_eq] at calm
    exact calm.elim

/-- Retiring a live thread breaks nothing where the counters are right. -/
theorem retire_fst_eq_none {u : World σ} {r : RegistryId} {t : ThreadId} (c : Ctx)
    (alive : u.state? t ≠ some .died)
    (counts : ∀ reg, u.registries[r]? = some reg → reg.appThreads = reg.table.length) :
    (u.retire c r t).1 = none := by
  unfold retire
  split
  · rename_i s reg state_eq reg_eq
    have living : s.isTerminal = false := by
      rw [Bool.eq_false_iff, ne_eq, State.isTerminal_iff]
      rintro rfl
      exact alive state_eq
    have found : (reg.remove t).2 ≠ none := by
      rw [Registry.remove_eq t (counts reg reg_eq)]
      split
      · simp
      · simp
    simp only [living, Bool.false_eq_true, if_false]
    rcases removed : reg.remove t with ⟨reg', outcome⟩
    rw [removed] at found
    cases outcome with
    | none => exact absurd rfl found
    | some wasRecorded => rfl
  · rfl

/-- A step of a task leads from a sound task to a sound task. -/
theorem TaskStep.soundTask {u v : World σ} {c : Ctx} {task task' : Task σ} {d : Option Deed}
    {ro : Roster σ} (step : u.TaskStep c task d ro task') (sound : u.SoundTask task)
    (counts : ∀ (r : RegistryId) (reg : Registry), u.registries[r]? = some reg →
      reg.appThreads = reg.table.length)
    (lives : ∀ t, u.state? t ≠ some .died → (∀ r, d ≠ some (.retired r t)) →
      v.state? t ≠ some .died) : v.SoundTask task' := by
  cases step with
  | advanced isPublic advances =>
      exact soundTask_of_isCalm v (Task.isCalm_advance isPublic advances)
  | @answered I r a w asks served keeps stays =>
      obtain calm | ⟨g, abort, mode_eq, found, next_eq⟩ | ⟨g, abort, broken, mode_eq, rfl, _⟩ :=
        Task.answer_cases I asks a
      · exact soundTask_of_isCalm v calm
      · -- the guard has just looked, and its thread was not dead
        have asked : r = .stateOf g.thread := by simpa [Task.request?, mode_eq] using asks.symm
        subst asked
        have alive : u.state? g.thread ≠ some .died := by
          intro died
          rw [serve, died] at served
          cases served
          exact found rfl
        refine ⟨by simp [next_eq], ?_⟩
        intro g' abort' next_eq'
        cases next_eq.symm.trans next_eq'
        exact lives g.thread alive (by simp [requestDeed?])
      · -- the guard retires a live thread, which does not fail
        have asked : r = .retire g.registry g.thread := by
          simpa [Task.request?, mode_eq] using asks.symm
        subst asked
        have retires := retire_fst_eq_none c (sound.alive g abort mode_eq) (counts g.registry)
        have fault : (u.retire c g.registry g.thread).1 = some broken := by
          simp only [serve, Served.answered.injEq, Answer.retired.injEq] at served
          exact served.1
        cases retires.symm.trans fault
  | @replaced I slot asks =>
      obtain calm | ⟨g, abort, mode_eq, _, _⟩ | ⟨g, abort, broken, _, answer_eq, _⟩ :=
        Task.answer_cases I asks (.replaced (u.held? slot))
      · exact soundTask_of_isCalm v calm
      · simp [Task.request?, mode_eq] at asks
      · cases answer_eq
  | @deferred r' isPublic =>
      rcases Task.reask_cases task isPublic with calm | same
      · exact soundTask_of_isCalm v calm
      · rw [same]
        refine ⟨sound.present, ?_⟩
        intro g abort mode_eq
        exact lives g.thread (sound.alive g abort mode_eq) (by simp)
  | @launches slot object thread held_eq =>
      rcases Task.reask_cases task (r := .reportLaunch thread.id) rfl with calm | same
      · exact soundTask_of_isCalm v calm
      · rw [same]
        refine ⟨sound.present, ?_⟩
        intro g abort mode_eq
        exact lives g.thread (sound.alive g abort mode_eq) (by simp)

/-- All guards of a thread are in one context. -/
theorem Orderly.ctx_of_guards {h : List Deed} {u : World σ} (orderly : Orderly h u) {c c' : Ctx}
    {g g' : Guard} (member : g ∈ u.guardsAt c) (member' : g' ∈ u.guardsAt c')
    (same : g.thread = g'.thread) : c = c' := by
  have pass := mem_passesAt_of_guard member
  have pass' := mem_passesAt_of_guard member'
  exact Ctx.place_inj (orderly.alone _ _ _ _ pass pass' same)

/-- All guards of a thread have the same pass. -/
theorem Consistent.pass_of_guards {u : World σ} (consistent : Consistent u) {c c' : Ctx}
    {g g' : Guard} (member : g ∈ u.guardsAt c) (member' : g' ∈ u.guardsAt c')
    (same : g.thread = g'.thread) : g.pass = g'.pass := by
  have known := consistent.agrees _ _ (mem_passesAt_of_guard member)
  have known' := consistent.agrees _ _ (mem_passesAt_of_guard member')
  have threads_eq : g.pass.thread = g'.pass.thread := same
  rw [threads_eq] at known
  exact Option.some.inj (known.symm.trans known')

/-- A guard speaks to the home of its thread. -/
theorem Consistent.home_of_guard {u : World σ} (consistent : Consistent u) {c : Ctx}
    {g : Guard} (member : g ∈ u.guardsAt c) :
    u.ledger.cards[g.thread]?.map Card.home = some g.registry := by
  obtain ⟨card, card_eq, _, home_eq, _⟩ := consistent.card_of_pass (mem_passesAt_of_guard member)
  have card_eq' : u.ledger.cards[g.thread]? = some card := card_eq
  rw [card_eq']
  exact congrArg some home_eq

theorem ledger_home? (w : World σ) (t : ThreadId) :
    w.ledger.cards[t]?.map Card.home = (w.handle? t).map Handle.home := by
  simp only [ledger, handle?, List.getElem?_map, Option.map_map]
  rfl

/-- What one operation preserves: all tasks are sound. -/
theorem Sound.soundTask_perform {u v : World σ} {op : Operation σ} {h : List Deed}
    (sound : Sound h u) (orderly : Orderly h u) (isPublic : op.IsPublic)
    (done : u.perform op = some v)
    (tasks : ∀ c task, u.roster.taskAt c = some task → u.SoundTask task) {c : Ctx} {task : Task σ}
    (task_eq : v.roster.taskAt c = some task) : v.SoundTask task := by
  have shift := shift_perform isPublic done
  have lives := fun t => sound.alive_perform (t := t) isPublic done
  have turnover := shift.turnover sound.launching c
  generalize v.roster.taskAt c = next at turnover task_eq
  cases turnover with
  | same aside =>
      have before := tasks c task task_eq
      refine ⟨before.present, ?_⟩
      intro g abort mode_eq
      refine lives g.thread (before.alive g abort mode_eq) ?_
      intro r deed_eq
      -- whoever retires the thread has a guard of it, and nobody else can have one
      obtain ⟨task', g', passing, task_eq', mode_eq', _, thread_eq⟩ :=
        shift.retired_by sound.guarded.proper deed_eq
      have mine := mem_guardsAt_of_retiring task_eq mode_eq
      have theirs := mem_guardsAt_of_retiring task_eq' mode_eq'
      have own := orderly.ctx_of_guards theirs mine thread_eq
      cases aside own _ deed_eq
  | called own none_eq deed_eq =>
      cases task_eq
      exact soundTask_of_isCalm v (Task.isCalm_call _ _ _ _ _)
  | started own none_eq deed_eq =>
      cases task_eq
      exact soundTask_of_isCalm v (Task.isCalm_start _ _ _)
  | stepped own before_eq step =>
      cases task_eq
      have counts (r : RegistryId) (reg : Registry) (reg_eq : u.registries[r]? = some reg) :
          reg.appThreads = reg.table.length := (sound.counted reg_eq).1
      exact step.soundTask (tasks c _ before_eq) counts lives
  | takenBack before_eq finished deed_eq => cases task_eq
  | ended own before_eq step finished => cases task_eq

/-- Every task is sound after every run from a world without threads. -/
theorem Run.soundTask {n : Nat} {config : ConfigCell} {h : List Deed} {w : World σ}
    (run : Run (ofRegistries n config) h w) {c : Ctx} {task : Task σ}
    (task_eq : w.roster.taskAt c = some task) : w.SoundTask task := by
  induction run generalizing c task with
  | refl => cases c <;> cases task_eq
  | snoc op reached isPublic done ih =>
      exact reached.sound.soundTask_perform reached.orderly isPublic done (fun _ _ => ih) task_eq

/-! ## From a start to its end -/

section Pending

variable {n : Nat} {config : ConfigCell} {h h' : List Deed} {u v : World σ} {op : Operation σ}
  {c : Ctx}

/-- A retirement that is no deed finds its thread dead. -/
theorem died_of_no_retirement {r : RegistryId} {t : ThreadId} {card : Card}
    (none_eq : u.retirement? r t = none) (card_eq : u.ledger.cards[t]? = some card)
    (housed : r < u.ledger.books.length) : u.state? t = some .died := by
  have state_eq : u.state? t = some card.state := by
    rw [← ledger_state?, Ledger.state?, card_eq]
    rfl
  have lives : r < u.registries.length := by simpa [ledger] using housed
  have reg_eq : u.registries[r]? = some u.registries[r] := List.getElem?_eq_getElem lives
  rw [retirement?, state_eq, reg_eq] at none_eq
  dsimp only at none_eq
  split at none_eq
  · rename_i terminal
    rw [State.isTerminal_iff] at terminal
    rw [state_eq, terminal]
  · cases none_eq

/-- A guard leaves only when its thread is dead. -/
theorem Sound.died_of_popped (sound : Sound h u) (isPublic : op.IsPublic)
    (done : u.perform op = some v) {g : Guard} {task : Task σ}
    (task_eq : u.roster.taskAt c = some task)
    (why : (∃ abort, task.mode = .inspecting g abort ∧ u.state? g.thread = some .died) ∨
      ∃ passing, task.mode = .retiring g passing ∧
        u.deed? op = u.retirement? g.registry g.thread) : v.state? g.thread = some .died := by
  rcases why with ⟨abort, mode_eq, died⟩ | ⟨passing, mode_eq, deed_eq⟩
  · exact sound.died_perform isPublic done died
  · cases retirement_eq : u.retirement? g.registry g.thread with
    | none =>
        have member := mem_passesAt_of_guard (mem_guardsAt_of_retiring task_eq mode_eq)
        obtain ⟨card, card_eq, _, _, housed⟩ := sound.consistent.card_of_pass member
        have died := died_of_no_retirement retirement_eq card_eq housed
        exact sound.died_perform isPublic done died
    | some d =>
        obtain ⟨rfl, _, _⟩ := retirement?_eq_some retirement_eq
        exact sound.died_of_retirement isPublic done (deed_eq.trans retirement_eq)

/-- What one operation preserves: a guard stays in its place among the guards of its context as
long as its thread lives. -/
theorem Sound.pending_perform {g : Guard} {inner gs : List Guard} (sound : Sound h u)
    (isPublic : op.IsPublic) (done : u.perform op = some v)
    (guards_eq : u.guardsAt c = inner ++ g :: gs) :
    (∃ inner', v.guardsAt c = inner' ++ g :: gs) ∨ v.state? g.thread = some .died := by
  have change := guards_perform isPublic done sound.launching sound.guarded c
  generalize v.guardsAt c = after at change ⊢
  cases change with
  | same aside => exact .inl ⟨inner, guards_eq⟩
  | @pushed g' own deed_eq =>
      refine .inl ⟨g' :: inner, ?_⟩
      rw [guards_eq, List.cons_append]
  | @popped g' _ task own task_eq popped_eq aside why =>
      have shape : inner ++ g :: gs = g' :: after := guards_eq.symm.trans popped_eq
      cases inner with
      | nil =>
          cases shape
          exact .inr (sound.died_of_popped isPublic done task_eq why)
      | cons first rest =>
          cases shape
          exact .inl ⟨rest, rfl⟩

/-- A start puts a guard of its thread in front. -/
theorem Sound.guarded_start {t : ThreadId} (sound : Sound h u) (isPublic : op.IsPublic)
    (done : u.perform op = some v)
    (starts : u.deed? op = some (.started t)) :
    ∃ g : Guard, g.thread = t ∧ v.guardsAt op.performer = g :: u.guardsAt op.performer := by
  have change := guards_perform isPublic done sound.launching sound.guarded op.performer
  generalize v.guardsAt op.performer = after at change ⊢
  cases change with
  | same aside => exact absurd starts (aside rfl t)
  | @pushed g own deed_eq =>
      have same : g.thread = t := by simpa using deed_eq.symm.trans starts
      exact ⟨g, same, rfl⟩
  | popped own task_eq guards_eq aside why => exact absurd starts (aside t)

end Pending

/-! ## What a retirement does -/

/-- A thread dies, and leaves the table of a registry, if it was there; nothing else changes in any
registry, apart from who waits for that one, nor in any state. -/
structure Retires (u v : World σ) (home : RegistryId) (t : ThreadId) : Prop where
  states : ∀ t', v.state? t' = if t' = t then some .died else u.state? t'
  elsewhere : ∀ r, r ≠ home → v.registries[r]? = u.registries[r]?
  /-- the first entry of the thread goes, and the counter goes with it -/
  entry : ∃ reg reg' : Registry,
    u.registries[home]? = some reg ∧ v.registries[home]? = some reg' ∧
      reg'.table = reg.table.erase t ∧ reg'.total = reg.total ∧
      reg.appThreads = reg'.appThreads + if t ∈ reg.table then 1 else 0

theorem count_remove (reg : Registry) (t : ThreadId) (counts : reg.appThreads = reg.table.length) :
    (reg.remove t).1.total = reg.total ∧
      reg.appThreads = (reg.remove t).1.appThreads + if t ∈ reg.table then 1 else 0 := by
  rw [Registry.remove_eq t counts]
  split
  · rename_i present
    have positive := List.length_pos_of_mem present
    refine ⟨rfl, ?_⟩
    simp only [Registry.discount]
    omega
  · exact ⟨rfl, rfl⟩

theorem registries_retire {u : World σ} {r : RegistryId} {t : ThreadId} {d : Deed} (c : Ctx)
    (retires : u.retirement? r t = some d) :
    ∃ reg, u.registries[r]? = some reg ∧
      (u.retire c r t).2.registries = u.registries.modify r fun _ => (reg.remove t).1 := by
  obtain ⟨_, ⟨s, state_eq, alive⟩, reg, reg_eq⟩ := retirement?_eq_some retires
  refine ⟨reg, reg_eq, ?_⟩
  have living : s.isTerminal = false := by
    rwa [Bool.eq_false_iff, ne_eq, State.isTerminal_iff]
  simp only [retire, state_eq, reg_eq, living, Bool.false_eq_true, if_false]
  rcases reg.remove t with ⟨reg', outcome⟩
  cases outcome with
  | none => rfl
  | some wasRecorded => rfl

theorem registries_stepTask {I : Interpreter σ} {u v : World σ} {c : Ctx} {task : Task σ}
    {store : World σ → Task σ → World σ} {g : Guard} {passing : Option Abort}
    (mode_eq : task.mode = .retiring g passing) (step : u.stepTask I c task store = some v)
    (stores : ∀ w task', (store w task').registries = w.registries) :
    v.registries = (u.retire c g.registry g.thread).2.registries := by
  have asks : task.request? = some (.retire g.registry g.thread) := by
    simp [Task.request?, mode_eq]
  simp only [stepTask, asks, serve, Option.some.injEq] at step
  rw [← step]
  exact stores _ _

/-- The step in which a guard retires its thread changes the registries in no other way. -/
theorem registries_step {I : Interpreter σ} {u v : World σ} {c : Ctx} {task : Task σ} {g : Guard}
    {passing : Option Abort} (task_eq : u.roster.taskAt c = some task)
    (mode_eq : task.mode = .retiring g passing) (done : u.step I c = some v) :
    v.registries = (u.retire c g.registry g.thread).2.registries := by
  cases c with
  | host =>
      obtain ⟨slot, task', host_eq, step⟩ | ⟨r, w, host_eq, _⟩ := stepHost_cases done
      · have same : task' = task := by
          simpa [Roster.taskAt, roster, host_eq, Host.task?] using task_eq
        subst same
        exact registries_stepTask mode_eq step fun _ _ => rfl
      · simp [Roster.taskAt, roster, host_eq, Host.task?] at task_eq
  | body t =>
      obtain ⟨launch, launch_eq, running⟩ := Roster.launch_of_taskAt task_eq
      obtain ⟨s, strand_eq, cases⟩ := stepBody_cases done
      have child_eq : s.child = some (.running task) := by
        rw [launches_getElem?, strand_eq] at launch_eq
        cases launch_eq
        exact running
      obtain ⟨thread, other, _⟩ | ⟨thread, other, _⟩ | ⟨thread, other, _⟩ | ⟨thread, other, _⟩ |
        ⟨task', same, step⟩ := cases
      · cases child_eq.symm.trans other
      · cases child_eq.symm.trans other
      · cases child_eq.symm.trans other
      · cases child_eq.symm.trans other
      · cases child_eq.symm.trans same
        exact registries_stepTask mode_eq step fun _ _ => rfl
  | creator t => cases task_eq

/-- Only steps retire threads. -/
theorem step_of_retirement {u : World σ} {op : Operation σ} {r : RegistryId} {t : ThreadId}
    (deed_eq : u.deed? op = some (.retired r t)) : ∃ I, op = .step I op.performer := by
  cases op with
  | step I c => exact ⟨I, rfl⟩
  | application m args env =>
      simp only [deed?] at deed_eq
      split at deed_eq <;> cases deed_eq
  | start I slot | create slot object =>
      obtain ⟨thread, _, other⟩ := Option.map_eq_some_iff.mp deed_eq
      cases other
  | transition c r' t' next => cases (change?_eq_some deed_eq).1
  | installRegistry c =>
      simp only [deed?] at deed_eq
      split at deed_eq <;> cases deed_eq
  | _ => cases deed_eq

/-- A retirement is a step of a context that has a guard of the thread, and does what it is to. -/
theorem Sound.retires {h : List Deed} {u v : World σ} {op : Operation σ} {r : RegistryId}
    {t : ThreadId} (sound : Sound h u) (isPublic : op.IsPublic) (done : u.perform op = some v)
    (deed_eq : u.deed? op = some (.retired r t)) :
    (∃ I, op = .step I op.performer) ∧
      (∃ g ∈ u.guardsAt op.performer, g.thread = t ∧ g.registry = r) ∧ u.Retires v r t := by
  have shift := shift_perform isPublic done
  obtain ⟨task, g, passing, task_eq, mode_eq, rfl, rfl⟩ :=
    shift.retired_by sound.guarded.proper deed_eq
  obtain ⟨I, op_eq⟩ := step_of_retirement deed_eq
  refine ⟨⟨I, op_eq⟩, ⟨g, mem_guardsAt_of_retiring task_eq mode_eq, rfl, rfl⟩, ?_⟩
  obtain ⟨housed, card, card_eq, _, _⟩ := sound.admits isPublic done deed_eq
  have alive := sound.alive_of_retirement isPublic done deed_eq
  have retirement : ∃ d, u.retirement? g.registry g.thread = some d := by
    rw [← Option.ne_none_iff_exists']
    intro none_eq
    exact alive (died_of_no_retirement none_eq card_eq housed)
  obtain ⟨d, retirement_eq⟩ := retirement
  obtain ⟨reg, reg_eq, removed⟩ := registries_retire op.performer retirement_eq
  have registries_eq : v.registries =
      u.registries.modify g.registry fun _ => (reg.remove g.thread).1 := by
    rw [op_eq] at done
    rw [registries_step task_eq mode_eq done, removed]
  refine ⟨?_, ?_, ?_⟩
  · intro t'
    rw [← ledger_state?, ledger_perform done, deed_eq, ← ledger_state?]
    simp only [Option.toList_some, List.foldl_cons, List.foldl_nil]
    rw [Ledger.state?_after]
    by_cases same : t' = g.thread
    · subst same
      simp [Ledger.state?, card_eq]
    · simp [same, Ne.symm same]
  · intro r other
    rw [registries_eq, List.getElem?_modify_ne _ _ (Ne.symm other)]
  · have counts := count_remove reg g.thread (sound.counted reg_eq).1
    refine ⟨reg, (reg.remove g.thread).1, reg_eq, ?_, Ledger.table_remove reg g.thread, counts⟩
    rw [registries_eq, List.getElem?_modify_eq, reg_eq]
    rfl

end World

namespace FineWorld

open World (promptMethod promptInterpreter isPublic_promptInterpreter)

variable {σ : Type} {n : Nat} {config : ConfigCell} {f f' g : FineWorld σ} {h : List Deed}
  {log log' more : List FineDeed} {c : Ctx} {t : ThreadId}

/-! ## Lives, in fine steps -/

/-- A thread that has died stays dead unless it is revived, and nobody retires it. -/
theorem Run.died_of_died (reached : Run Operation.IsPublic (ofRegistries n config) log f)
    (run : Run Operation.IsPublic f log' g) (died : f.world.state? t = some .died)
    (revives : ∀ next, .revived t next ∉ log') :
    g.world.state? t = some .died ∧ ∀ r, .deed (.retired r t) ∉ log' := by
  induction run with
  | refl => exact ⟨died, by simp⟩
  | snoc run step ih =>
      simp only [List.mem_append, not_or] at revives
      obtain ⟨died', retires⟩ := ih fun next => (revives next).1
      obtain ⟨died'', retires'⟩ :=
        step.died (reached.trans run).sound died' fun next => (revives next).2
      refine ⟨died'', ?_⟩
      intro r member
      rcases List.mem_append.mp member with old | new
      · exact retires r old
      · exact retires' r new

/-- A thread that lives, and is not revived, goes on living, or is retired once and is dead then. -/
theorem Run.lives_or_retires (reached : Run Operation.IsPublic (ofRegistries n config) log f)
    (run : Run Operation.IsPublic f log' g) (alive : f.world.state? t ≠ some .died)
    (revives : ∀ next, .revived t next ∉ log') :
    (g.world.state? t ≠ some .died ∧ ∀ r, .deed (.retired r t) ∉ log') ∨
      g.world.state? t = some .died ∧ ∃ r before after x y,
        log' = before ++ .deed (.retired r t) :: after ∧
          (∀ r', .deed (.retired r' t) ∉ before ∧ .deed (.retired r' t) ∉ after) ∧
          Run Operation.IsPublic f before x ∧
          Step Operation.IsPublic x [.deed (.retired r t)] y ∧
          Run Operation.IsPublic y after g := by
  induction run with
  | refl => exact .inl ⟨alive, by simp⟩
  | @snoc log' more x y run step ih =>
      simp only [List.mem_append, not_or] at revives
      have sound := (reached.trans run).sound
      rcases ih fun next => (revives next).1 with
        ⟨alive', retires⟩ | ⟨died, r, before, after, x', y', log_eq, once, earlier, now, later⟩
      · rcases step.alive sound alive' with ⟨alive'', retires'⟩ | ⟨died, r, rfl⟩
        · refine .inl ⟨alive'', ?_⟩
          intro r member
          rcases List.mem_append.mp member with old | new
          · exact retires r old
          · exact retires' r new
        · refine .inr ⟨died, r, log', [], x, y, rfl, ?_, run, step, .refl⟩
          exact fun r' => ⟨retires r', by simp⟩
      · obtain ⟨died', retires⟩ := step.died sound died fun next => (revives next).2
        refine .inr ⟨died', r, before, after ++ more, x', y', ?_, ?_, earlier, now,
          later.snoc step⟩
        · rw [log_eq, List.append_assoc, List.cons_append]
        · intro r'
          refine ⟨(once r').1, ?_⟩
          intro member
          rcases List.mem_append.mp member with old | new
          · exact (once r').2 old
          · exact retires r' new

/-! ## Guards, in fine steps -/

/-- A guard stays in its place among the guards of its context until its thread has died. -/
theorem Run.guard_stays (reached : Run Operation.IsPublic (ofRegistries n config) log f)
    {gd : Guard} {gs : List Guard} (guards_eq : f.world.guardsAt c = gd :: gs)
    (run : Run Operation.IsPublic f log' g) (revives : ∀ next, .revived gd.thread next ∉ log') :
    (∃ inner, g.world.guardsAt c = inner ++ gd :: gs) ∨
      g.world.state? gd.thread = some .died := by
  induction run with
  | refl => exact .inl ⟨[], guards_eq⟩
  | snoc run step ih =>
      simp only [List.mem_append, not_or] at revives
      have sound := (reached.trans run).sound
      rcases ih fun next => (revives next).1 with ⟨inner, guards_eq'⟩ | died
      · rcases step.tasks sound with ⟨op, isPublic, done⟩ | ⟨_, told⟩
        · exact sound.pending_perform isPublic done guards_eq'
        · refine .inl ⟨inner, ?_⟩
          rw [(told c).guardsAt]
          exact guards_eq'
      · exact .inr (step.died sound died fun next => (revives next).2).1

/-- Whoever is told something is sound if it was, unless a thread has died in the meantime. -/
theorem soundTask_of_told {u v : World σ} {task : Task σ} (told : u.Told c (v.roster.taskAt c))
    (tasks : ∀ c task, u.roster.taskAt c = some task → u.SoundTask task)
    (lives : ∀ t, u.state? t ≠ some .died → v.state? t ≠ some .died)
    (task_eq : v.roster.taskAt c = some task) : v.SoundTask task := by
  generalize v.roster.taskAt c = after at told task_eq
  cases told with
  | same =>
      have sound := tasks c task task_eq
      refine ⟨sound.present, ?_⟩
      intro gd abort mode_eq
      exact lives gd.thread (sound.alive gd abort mode_eq)
  | changed task_eq' mode_eq =>
      cases task_eq
      apply World.soundTask_of_isCalm
      simp [Task.IsCalm, Task.answer, mode_eq]

/-- Every task is sound as long as no displaced thread is reclaimed. -/
theorem Run.soundTask (run : Run Operation.IsPublic (ofRegistries n config) log f)
    (reclaims : ∀ t, .reclaimed t ∉ log) {task : Task σ}
    (task_eq : f.world.roster.taskAt c = some task) : f.world.SoundTask task := by
  induction run generalizing c task with
  | refl => cases c <;> cases task_eq
  | @snoc log more f g run step ih =>
      simp only [List.mem_append, not_or] at reclaims
      have tasks : ∀ c task, f.world.roster.taskAt c = some task → f.world.SoundTask task := by
        intro c task
        exact ih fun t => (reclaims t).1
      have sound := run.sound
      rcases step.tasks sound with ⟨op, isPublic, done⟩ | ⟨spared, told⟩
      · have orderly := (run.orderly fun t => (reclaims t).1).1
        exact sound.soundTask_perform orderly isPublic done tasks task_eq
      · exact soundTask_of_told (told c) tasks (fun _ => step.alive_of_spared sound spared) task_eq

theorem perform_act {op : Operation σ} (done : f.perform (.act op) = some (more, g)) :
    f.world.perform op = some g.world ∧ more = (f.world.deed? op).toList.map .deed := by
  simp only [perform] at done
  split at done
  · obtain ⟨v, performed, same⟩ := Option.map_eq_some_iff.mp done
    cases same
    exact ⟨performed, rfl⟩
  · cases done

/-- A retirement is an operation of its own. -/
theorem Step.retirement {r : RegistryId}
    (step : Step Operation.IsPublic f [.deed (.retired r t)] g) :
    ∃ op : Operation σ, op.IsPublic ∧ f.world.perform op = some g.world ∧
      f.world.deed? op = some (.retired r t) ∧
      f.perform (.act op) = some ([.deed (.retired r t)], g) := by
  generalize more_eq : [FineDeed.deed (.retired r t)] = more at step
  cases step with
  | @acted op v isPublic free fresh done =>
      cases deed_eq : f.world.deed? op with
      | none =>
          rw [deed_eq] at more_eq
          cases more_eq
      | some d =>
          rw [deed_eq] at more_eq
          cases more_eq
          refine ⟨op, isPublic, done, deed_eq, ?_⟩
          rw [perform, if_pos ⟨free, fresh⟩, done, deed_eq]
          rfl
  | @stored i p v pending_eq isPublic deed_eq done =>
      refine absurd ?_ (not_retired_storeDeeds f p r t)
      rw [← more_eq]
      exact List.mem_singleton.mpr rfl
  | checked | reclaimed | rebound => cases more_eq

/-- A start retires its thread, however the body ends.  A context has one guard for each start in
it that has neither returned nor been left by an abort.  Let it start the body of a thread that has
not died; after any run that leaves it with no more guards than before, the start is over.

* If the thread was not revived, it is dead then, and stays dead until it is revived.  It has been
  retired exactly once, in its home, and that step did nothing else to tables, counters and states;
  it was a step of the context that started the thread unless displaced threads were reclaimed.
* As long as no displaced thread is reclaimed, no guard aborts while an abort is passing, there or
  anywhere else. -/
theorem start_retires {log₀ log₁ : List FineDeed} {op : Operation σ}
    (reached : Run Operation.IsPublic (ofRegistries n config) log₀ f) (isPublic : op.IsPublic)
    (done : f.perform (.act op) = some (more, f')) (starts : f.world.deed? op = some (.started t))
    (alive : f.world.state? t ≠ some .died) (run : Run Operation.IsPublic f' log₁ g)
    (finished :
      (g.world.guardsAt op.performer).length ≤ (f.world.guardsAt op.performer).length) :
    (∃ gd : Guard, gd.thread = t ∧
        f'.world.guardsAt op.performer = gd :: f.world.guardsAt op.performer) ∧
      ((∀ next, .revived t next ∉ log₁) →
        g.world.state? t = some .died ∧
          (∀ log₂ w, Run Operation.IsPublic g log₂ w → (∀ next, .revived t next ∉ log₂) →
            w.world.state? t = some .died ∧ ∀ r, .deed (.retired r t) ∉ log₂) ∧
          ∃ (home : RegistryId) (before after : List FineDeed) (y z : FineWorld σ)
            (I : Interpreter σ) (c : Ctx),
            (f.world.handle? t).map Handle.home = some home ∧
              log₁ = before ++ .deed (.retired home t) :: after ∧
              (∀ r, .deed (.retired r t) ∉ before ∧ .deed (.retired r t) ∉ after) ∧
              Run Operation.IsPublic f' before y ∧
              y.perform (.act (.step I c)) = some ([.deed (.retired home t)], z) ∧
              Run Operation.IsPublic z after g ∧ y.world.Retires z.world home t ∧
              ((∀ t', .reclaimed t' ∉ log₀ ++ log₁) → c = op.performer)) ∧
      ((∀ t', .reclaimed t' ∉ log₀) →
        ∀ log y, Run Operation.IsPublic f' log y → (∀ t', .reclaimed t' ∉ log) →
          ∀ c task, y.world.roster.taskAt c = some task → task.mode ≠ .lost) := by
  have start : Step Operation.IsPublic f more f' :=
    step_of_perform (by rintro _ ⟨⟩; exact isPublic) done
  have reached' := reached.snoc start
  obtain ⟨performed, more_eq⟩ := perform_act done
  have spares : ∀ t', .reclaimed t' ∉ more := by simp [more_eq]
  obtain ⟨gd, rfl, guards_eq⟩ := reached.sound.guarded_start isPublic performed starts
  refine ⟨⟨gd, rfl, guards_eq⟩, ?_, ?_⟩
  · intro revives
    have alive' : f'.world.state? gd.thread ≠ some .died :=
      reached.sound.alive_perform isPublic performed alive (by simp [starts])
    have died : g.world.state? gd.thread = some .died := by
      rcases reached'.guard_stays guards_eq run revives with ⟨inner, left⟩ | died
      · rw [left, List.length_append, List.length_cons] at finished
        omega
      · exact died
    refine ⟨died, fun _ _ later => (reached'.trans run).died_of_died later died, ?_⟩
    obtain ⟨lives, _⟩ | ⟨_, home, before, after, y, z, log_eq, once, earlier, now, later⟩ :=
      reached'.lives_or_retires run alive' revives
    · exact absurd died lives
    obtain ⟨op', isPublic', done', deed_eq, acted⟩ := now.retirement
    have reached_y := reached'.trans earlier
    have alive_y := reached_y.sound.alive_of_retirement isPublic' done' deed_eq
    obtain ⟨⟨I, step_eq⟩, ⟨gd', member', thread_eq, rfl⟩, retires⟩ :=
      reached_y.sound.retires isPublic' done' deed_eq
    -- the guard of the start is still there when the thread is retired
    have member : gd ∈ y.world.guardsAt op.performer := by
      have revives' : ∀ next, .revived gd.thread next ∉ before := by
        intro next early
        refine revives next ?_
        rw [log_eq]
        exact List.mem_append_left _ early
      rcases reached'.guard_stays guards_eq earlier revives' with ⟨inner, left⟩ | died_y
      · rw [left]
        exact List.mem_append_right inner List.mem_cons_self
      · exact absurd died_y alive_y
    have home_eq : (f.world.handle? gd.thread).map Handle.home = some gd'.registry := by
      have front : gd ∈ f'.world.guardsAt op.performer := by
        rw [guards_eq]
        exact List.mem_cons_self
      have home_f := reached'.sound.consistent.home_of_guard front
      have pass_eq := reached_y.sound.consistent.pass_of_guards member' member thread_eq
      have ledger_eq : f'.world.ledger = f.world.ledger := by
        rw [World.ledger_perform performed, starts]
        rfl
      rw [ledger_eq, World.ledger_home?] at home_f
      rw [home_f]
      exact congrArg (fun pass => some pass.registry) pass_eq.symm
    refine ⟨gd'.registry, before, after, y, z, I, op'.performer, home_eq, log_eq, once, earlier,
      ?_, later, retires, ?_⟩
    · rw [← step_eq]
      exact acted
    · intro reclaims
      have reclaims' : ∀ t', .reclaimed t' ∉ log₀ ++ more ++ before := by
        intro t' member
        refine reclaims t' ?_
        rw [log_eq]
        rcases List.mem_append.mp member with early | late
        · rcases List.mem_append.mp early with first | started
          · exact List.mem_append_left _ first
          · exact absurd started (spares t')
        · exact List.mem_append_right _ (List.mem_append_left _ late)
      exact (reached_y.orderly reclaims').1.ctx_of_guards member' member thread_eq
  · intro reclaims log y between reclaims' c task task_eq
    refine ((reached'.trans between).soundTask ?_ task_eq).present
    intro t' member
    rcases List.mem_append.mp member with early | late
    · rcases List.mem_append.mp early with first | started
      · exact reclaims t' first
      · exact absurd started (spares t')
    · exact reclaims' t' late

/-- A body has the thread that it works on replaced by another one, and aborts, while somebody
changes the state of the thread that was started.  That thread dies all the same, one of its two
entries goes, and the other thread and its registry are left alone. -/
theorem start_retires_of_replaced_and_aborted :
    ∃ (log₀ log₁ more : List FineDeed) (f f' g : FineWorld Script.Activation)
      (op : Operation Script.Activation),
      Run Operation.IsPublic (ofRegistries 2 ConfigCell.fresh) log₀ f ∧ op.IsPublic ∧
        f.perform (.act op) = some (more, f') ∧ f.world.deed? op = some (.started 0) ∧
        f.world.state? 0 ≠ some .died ∧ Run Operation.IsPublic f' log₁ g ∧
        (g.world.guardsAt op.performer).length ≤ (f.world.guardsAt op.performer).length ∧
        log₁ = [.checked 1 0, .deed (.moved 0 .waiting), .deed (.retired 0 0)] ∧
        f.world.registries = [⟨[0, 0], 2, 2, []⟩, ⟨[1], 1, 1, []⟩] ∧
        g.world.registries = [⟨[0], 1, 2, []⟩, ⟨[1], 1, 1, []⟩] ∧
        g.world.state? 1 = some .running ∧ g.world.state? 0 = some .died ∧
        ∀ c task, g.world.roster.taskAt c = some task → task.mode ≠ .lost := by
  let I : Interpreter Script.Activation :=
    Script.interpreter { methods := [promptMethod], codes := [[.replace 1, .raise "out"]] }
  have isPublicI : I.IsPublic := Script.isPublic_interpreter _
  let first : List (FineOperation Script.Activation) :=
    [.act (.application promptMethod [.null] ⟨0, 4, .script⟩),
      .act (.application promptMethod [.null] ⟨1, 4, .script⟩), .act (.add .host 0 0),
      .act (.add .host 1 1), .act (.add .host 0 0)]
  let second : List (FineOperation Script.Activation) := List.flatten
    [List.replicate 4 (.act (.step I .host)), [.check (.transition .host 1 0 .waiting)],
      List.replicate 4 (.act (.step I .host)), [.store 0],
      List.replicate 4 (.act (.step I .host))]
  have within : ∀ op ∈ first, op.Within Operation.IsPublic := by
    simp [first, FineOperation.Within, Operation.IsPublic]
  have within' : ∀ op ∈ second, op.Within Operation.IsPublic := by
    simp [second, FineOperation.Within, Operation.IsPublic, isPublicI]
  have reaches :
      ((ofRegistries 2 ConfigCell.fresh : FineWorld Script.Activation).performAll first).map
      (fun done => (done.1, done.2.pending.length, done.2.world.deed? (.start I 0),
        done.2.world.state? 0, done.2.world.guardsAt .host, done.2.world.registries,
        (done.2.perform (.act (.start I 0))).map fun start => (start.1, start.2.pending.length,
          (start.2.performAll second).map fun done => (done.1, done.2.world.guardsAt .host,
            done.2.world.registries, done.2.world.state? 1)))) =
        some ([.deed (.built .application 0), .deed (.built .application 1), .deed (.added 0 0),
            .deed (.added 1 1), .deed (.added 0 0)], 0, some (.started 0), some .running, [],
          [⟨[0, 0], 2, 2, []⟩, ⟨[1], 1, 1, []⟩],
          some ([.deed (.started 0)], 0,
            some ([.checked 1 0, .deed (.moved 0 .waiting), .deed (.retired 0 0)], [],
              [⟨[0], 1, 2, []⟩, ⟨[1], 1, 1, []⟩], some .running))) := rfl
  obtain ⟨log₀, f, reached, seen⟩ := exists_run_of_performAll rfl within reaches
  simp only [Prod.mk.injEq] at seen
  obtain ⟨log_eq₀, _, starts, state_eq, guards_eq, registries_eq, continues⟩ := seen
  obtain ⟨⟨more, f'⟩, done, seen⟩ := Option.map_eq_some_iff.mp continues
  simp only [Prod.mk.injEq] at seen
  obtain ⟨_, idle, continues⟩ := seen
  obtain ⟨⟨log₁, g⟩, work, seen⟩ := Option.map_eq_some_iff.mp continues
  simp only [Prod.mk.injEq] at seen
  obtain ⟨log_eq₁, guards_eq', registries_eq', state_eq'⟩ := seen
  have idle' : ∀ p ∈ f'.pending, p.op.IsPublic := by
    rw [List.eq_nil_of_length_eq_zero idle]
    simp
  have run := run_of_performAll idle' within' work
  have alive : f.world.state? 0 ≠ some .died := by simp [state_eq]
  have finished : (g.world.guardsAt .host).length ≤ (f.world.guardsAt .host).length := by
    apply Nat.le_of_eq
    rw [guards_eq, guards_eq']
  have isPublicStart : (Operation.start I 0).IsPublic := isPublicI
  obtain ⟨_, retired, sound⟩ :=
    start_retires reached isPublicStart done starts alive run finished
  refine ⟨log₀, log₁, more, f, f', g, .start I 0, reached, isPublicI, done, starts, alive, run,
    finished, log_eq₁, registries_eq, registries_eq', state_eq', ?_, ?_⟩
  · exact (retired (by simp [log_eq₁])).1
  · exact sound (by simp [log_eq₀]) log₁ g run (by simp [log_eq₁])

/-- What can go wrong when a start is over.  A thread is retired between the check and the write of
a change that the body of another thread asks its own registry for: it waits when its start has
returned.  And a thread that its body has had replaced is reclaimed and created, and dies in its own
context after the guard of the first start has found it alive: that guard aborts while an abort is
passing. -/
theorem start_leaves_revived_or_lost :
    (∃ (log : List FineDeed) (f : FineWorld Script.Activation),
      Run Operation.IsPublic (ofRegistries 2 ConfigCell.fresh) log f ∧ .deed (.started 0) ∈ log ∧
        (∀ t, .reclaimed t ∉ log) ∧ f.world.guardsAt .host = [] ∧
        f.world.state? 0 = some .waiting) ∧
      ∃ (log : List FineDeed) (f : FineWorld Script.Activation) (task : Task Script.Activation),
        Run Operation.IsPublic (ofRegistries 1 ConfigCell.fresh) log f ∧
          (∀ t next, .revived t next ∉ log) ∧ f.world.roster.taskAt .host = some task ∧
          task.mode = .lost := by
  refine ⟨?_, ?_⟩
  · let I := promptInterpreter
    let ops : List (FineOperation Script.Activation) := List.flatten
      [[.act (.application promptMethod [.null] ⟨0, 4, .script⟩),
          .act (.application promptMethod [.null] ⟨1, 4, .script⟩)], launchWriter,
        .act (.start I 0) :: List.replicate 3 (.act (.step I .host)),
        [.check writerStep, .act (.step I .host), .store 0]]
    have within : ∀ op ∈ ops, op.Within Operation.IsPublic := by
      simp [ops, I, launchWriter, writerStep, FineOperation.Within, Operation.IsPublic,
        isPublic_promptInterpreter, isPublic_writingInterpreter]
    have done : ((ofRegistries 2 ConfigCell.fresh : FineWorld Script.Activation).performAll ops).map
        (fun done => (done.1, done.2.world.guardsAt .host, done.2.world.state? 0)) =
          some ([.deed (.built .application 0), .deed (.built .application 1), .deed (.created 1),
            .deed (.enlisted 1 1), .deed (.started 1), .deed (.started 0), .checked 1 0,
            .deed (.retired 0 0), .revived 0 .waiting], [], some .waiting) := by decide +kernel
    obtain ⟨log, f, run, seen⟩ := exists_run_of_performAll rfl within done
    simp only [Prod.mk.injEq] at seen
    obtain ⟨log_eq, guards_eq, state_eq⟩ := seen
    exact ⟨log, f, run, by simp [log_eq], by simp [log_eq], guards_eq, state_eq⟩
  · let I : Interpreter Script.Activation :=
      Script.interpreter { methods := [promptMethod], codes := [[.replace 1, .raise "out"]] }
    have isPublicI : I.IsPublic := Script.isPublic_interpreter _
    let ops : List (FineOperation Script.Activation) := List.flatten
      [[.act (.application promptMethod [.null] ⟨0, 4, .script⟩),
          .act (.application promptMethod [.null] ⟨0, 4, .script⟩), .act (.start I 0)],
        List.replicate 3 (.act (.step I .host)), [.reclaim 0 0, .act (.create 0 .null)],
        List.replicate 4 (.act (.step I (.creator 0))), List.replicate 6 (.act (.step I (.body 0))),
        List.replicate 7 (.act (.step I .host)), [.act (.step I (.body 0)), .act (.step I .host)]]
    have within : ∀ op ∈ ops, op.Within Operation.IsPublic := by
      simp [ops, FineOperation.Within, Operation.IsPublic, isPublicI]
    have done : ((ofRegistries 1 ConfigCell.fresh : FineWorld Script.Activation).performAll ops).map
        (fun done => (done.1, (done.2.world.roster.taskAt .host).map Task.mode)) =
          some ([.deed (.built .application 0), .deed (.built .application 0), .deed (.started 0),
            .reclaimed 0, .deed (.created 0), .deed (.enlisted 0 0), .deed (.started 0),
            .deed (.retired 0 0)], some .lost) := rfl
    obtain ⟨log, f, run, seen⟩ := exists_run_of_performAll rfl within done
    simp only [Prod.mk.injEq] at seen
    obtain ⟨log_eq, mode_eq⟩ := seen
    obtain ⟨task, task_eq, lost⟩ := Option.map_eq_some_iff.mp mode_eq
    exact ⟨log, f, task, run, by simp [log_eq], task_eq, lost⟩

end FineWorld

end ThreadEngine
