import ThreadEngine.Proofs.FineSteps

set_option autoImplicit false

/-!
# Invariants of fine steps

Writing a state keeps what the coarse steps keep (`World.Sound`), for nothing in it depends on
states of threads; and so does whoever takes a displaced thread, for that thread is what it was.
`FineWorld.Run.sound` says so of whole runs, and `Run.keeps` is the same for other properties of
that kind.

What a fine step does to the ledger is said once (`LedgerStep`), and what it does to a task, if it
is no whole operation (`World.Told`).  Where nothing is revived, the tables have of a thread what
the log says (`Run.entries`); where nothing is reclaimed, every thread is in one place
(`Run.orderly`).
-/

namespace ThreadEngine

/-! ## What a write does -/

namespace Ledger

/-- Of two states that are written, the second one counts. -/
theorem after_moved_moved (l : Ledger) (t : ThreadId) (first second : State) :
    (l.after (.moved t first)).after (.moved t second) = l.after (.moved t second) := by
  have same : (l.cards.modify t ({ · with state := first })).modify t
      ({ · with state := second }) = l.cards.modify t ({ · with state := second }) := by
    apply List.ext_getElem?
    intro u
    by_cases at_t : t = u
    · subst at_t
      simp [Function.comp_def]
    · simp [at_t]
  simp only [after, same]

/-- Writing the state that a thread has changes nothing. -/
theorem after_moved_self {l : Ledger} {t : ThreadId} {s : State} (state_eq : l.state? t = some s) :
    l.after (.moved t s) = l := by
  have same : l.cards.modify t ({ · with state := s }) = l.cards := by
    apply List.ext_getElem?
    intro u
    by_cases at_t : t = u
    · subst at_t
      obtain ⟨card, card_eq, rfl⟩ := Option.map_eq_some_iff.mp state_eq
      simp [card_eq]
    · simp [at_t]
  simp only [after, same]

end Ledger

namespace FineWorld

variable {σ : Type} {f : FineWorld σ}

/-- A change that is written was legal when it was checked. -/
theorem legal_of_store {p : PendingChange σ}
    (deed_eq : (f.world.withState p.thread p.seen).deed? p.op = some (.moved p.thread p.next)) :
    p.next ≠ .died ∧ p.seen ≠ .died ∧ ∃ s, f.world.state? p.thread = some s := by
  obtain ⟨changes, _⟩ := World.moved_cases deed_eq
  obtain ⟨_, lives, s, state_eq, alive⟩ := World.change?_eq_some changes
  rw [World.state?_withState, if_pos rfl] at state_eq
  obtain ⟨s', state_eq', rfl⟩ := Option.map_eq_some_iff.mp state_eq
  exact ⟨lives, alive, s', state_eq'⟩

/-- A change of a live thread that is no change any more leaves its state alone. -/
theorem state?_of_no_change {w : World σ} {t : ThreadId} {s next : State}
    (state_eq : w.state? t = some s) (alive : s ≠ .died) (lives : next ≠ .died)
    (none_eq : w.change? t next = none) : s = next := by
  simp only [World.change?, state_eq] at none_eq
  split at none_eq
  · rename_i illegal
    simp only [Bool.or_eq_true, State.isTerminal_iff, Bool.not_eq_true', Bool.eq_false_iff, ne_eq,
      State.canTransitionTo_iff, not_and, not_not] at illegal
    rcases illegal with dies | same
    · exact absurd dies lives
    · exact same alive
  · cases none_eq

/-- What is written shows in the ledger as the log says. -/
theorem ledger_store {p : PendingChange σ} {v : World σ}
    (deed_eq : (f.world.withState p.thread p.seen).deed? p.op = some (.moved p.thread p.next))
    (done : (f.world.withState p.thread p.seen).perform p.op = some v) :
    v.ledger = f.world.ledger.after (.moved p.thread p.next) := by
  rw [World.ledger_perform done, deed_eq, World.ledger_withState]
  exact Ledger.after_moved_moved _ _ _ _

end FineWorld

/-! ## What is left of the invariants -/

/-- Only interpreters ask for a change of state. -/
theorem Task.asking_of_transition {σ : Type} {task : Task σ} {r : RegistryId} {t : ThreadId}
    {next : State} (asks : task.request? = some (.transition r t next)) :
    ∃ s depth, task.mode = .asking s depth (.transition r t next) := by
  unfold request? at asks
  split at asks
  · rename_i s depth request mode_eq
    cases asks
    exact ⟨s, depth, mode_eq⟩
  all_goals cases asks

namespace World

variable {σ : Type} {u v : World σ} {h h' : List Deed}

theorem Consistent.withState (consistent : Consistent u) (t : ThreadId) (seen : State) :
    Consistent (u.withState t seen) := by
  have same (t' : ThreadId) : (u.withState t seen).ledger.pass? t' = u.ledger.pass? t' := by
    rw [ledger_withState]
    exact Ledger.pass?_modify_state _ _ _ _
  refine ⟨?_, ?_⟩
  · intro place pass member
    rw [roster_withState] at member
    rw [same]
    exact consistent.agrees place pass member
  · intro t' pass known
    rw [same] at known
    rw [ledger_withState]
    exact consistent.housed t' pass known

theorem Orderly.withState (orderly : Orderly h u) (t : ThreadId) (s : State) :
    Orderly h (u.withState t s) := by
  have same := roster_withState u t s
  refine ⟨orderly.toConsistent.withState t s, ?_, ?_, ?_⟩
  · rw [same]
    exact orderly.alone
  · rw [same]
    exact orderly.settled
  · intro t' was
    rw [← length_launches, same, length_launches]
    exact orderly.known t' was

/-- Of the deeds, only creations matter to where threads may be. -/
theorem Orderly.of_created (orderly : Orderly h u)
    (created : ∀ t, .created t ∈ h' → .created t ∈ h) : Orderly h' u where
  toConsistent := orderly.toConsistent
  alone := orderly.alone
  settled := fun place pass member was => orderly.settled place pass member (created _ was)
  known := fun t was => orderly.known t (created t was)

/-- Only threads that are known come into somebody's hands. -/
theorem Consistent.of_held (consistent : Consistent u) {slot : ThreadId} {held : Option Thread}
    (ledger_eq : v.ledger = u.ledger)
    (roster_eq : v.roster = u.roster.modify slot ({ · with held := held }))
    (known : ∀ thread ∈ held, u.ledger.pass? thread.id = some thread.pass) : Consistent v := by
  refine ⟨?_, ?_⟩
  · intro place pass member
    rw [ledger_eq]
    rw [roster_eq] at member
    obtain ⟨s, role, rfl, launch_eq, member⟩ | ⟨_, member⟩ := Roster.mem_passesAt_modify member
    · cases role with
      | held =>
          obtain ⟨thread, held_eq, rfl⟩ := List.mem_map.mp member
          exact known thread (Option.mem_toList.mp held_eq)
      | creator =>
          refine consistent.agrees (.strand slot .creator) pass ?_
          rw [Roster.passesAt_strand launch_eq]
          exact member
      | body =>
          refine consistent.agrees (.strand slot .body) pass ?_
          rw [Roster.passesAt_strand launch_eq]
          exact member
    · exact consistent.agrees place pass member
  · intro t pass known
    rw [ledger_eq] at known ⊢
    exact consistent.housed t pass known

/-- The order of a launch has to do with creations and execution contexts only. -/
theorem Launching.of_held (launching : Launching h u) {slot : ThreadId} {held : Option Thread}
    (roster_eq : v.roster = u.roster.modify slot ({ · with held := held })) : Launching h v := by
  refine ⟨?_, ?_⟩
  · intro t s launch_eq
    rw [roster_eq] at launch_eq
    obtain ⟨s₀, rfl, was, rfl⟩ | ⟨_, was⟩ := Roster.launch_of_modify launch_eq
    · exact launching.inOrder t s₀ was
    · exact launching.inOrder t s was
  · intro t s launch_eq under
    rw [roster_eq] at launch_eq
    obtain ⟨s₀, rfl, was, rfl⟩ | ⟨_, was⟩ := Roster.launch_of_modify launch_eq
    · exact launching.recorded t s₀ was under
    · exact launching.recorded t s was under

/-- Tasks and guards are as they were where the tasks are. -/
theorem Guarded.of_tasks (guarded : Guarded h u)
    (same : ∀ c, v.roster.taskAt c = u.roster.taskAt c) : Guarded h v := by
  refine ⟨?_, ?_⟩
  · intro c task task_eq
    rw [same] at task_eq
    exact guarded.proper c task task_eq
  · intro c g member
    rw [guardsAt, same] at member
    exact guarded.begun c g member

theorem Sound.withState (sound : Sound h u) (t : ThreadId) (s : State) :
    Sound h (u.withState t s) := by
  have same := roster_withState u t s
  refine ⟨sound.consistent.withState t s, ⟨?_, ?_⟩, sound.guarded.of_tasks ?_, ?_⟩
  · rw [same]
    exact sound.launching.inOrder
  · rw [same]
    exact sound.launching.recorded
  · intro c
    rw [same]
  · rw [ledger_withState]
    exact ⟨sound.accounted.recorded_lt, sound.accounted.counted⟩

/-- Taking threads into one's hands, or out of them, does no harm if they are known. -/
theorem Sound.of_held (sound : Sound h u) {slot : ThreadId} {held : Option Thread}
    (ledger_eq : v.ledger = u.ledger)
    (roster_eq : v.roster = u.roster.modify slot ({ · with held := held }))
    (known : ∀ thread ∈ held, u.ledger.pass? thread.id = some thread.pass) : Sound h v := by
  refine ⟨sound.consistent.of_held ledger_eq roster_eq known, sound.launching.of_held roster_eq,
    sound.guarded.of_tasks ?_, ?_⟩
  · intro c
    rw [roster_eq]
    exact Roster.taskAt_modify_held _ _ _ _
  · rw [ledger_eq]
    exact sound.accounted

/-- Of the deeds, those matter that create, start or record a thread. -/
theorem Sound.of_deeds (sound : Sound h u) (created : ∀ t, .created t ∈ h → .created t ∈ h')
    (started : ∀ t, .started t ∈ h → .started t ∈ h')
    (recorded : ∀ r, recordings r h' = recordings r h) : Sound h' u where
  consistent := sound.consistent
  launching :=
    ⟨sound.launching.inOrder, fun t s launch_eq under =>
      created t (sound.launching.recorded t s launch_eq under)⟩
  guarded :=
    ⟨sound.guarded.proper, fun c g member => started g.thread (sound.guarded.begun c g member)⟩
  accounted := by
    refine ⟨?_, ?_⟩
    · intro r t member
      rw [recorded] at member
      exact sound.accounted.recorded_lt r t member
    · intro r reg reg_eq
      rw [Ledger.Counted, recorded]
      exact sound.accounted.counted r reg reg_eq

/-- An operation that creates nothing twice creates a thread that nobody has created. -/
theorem creation_of_fresh {op : Operation σ} {t : ThreadId} {s : LaunchState σ}
    (fresh : u.recreates op = false) (launch_eq : u.roster.launches[t]? = some s)
    (deed_eq : u.deed? op = some (.created t)) : s.creation = none := by
  rw [launches_getElem?] at launch_eq
  obtain ⟨strand, strand_eq, rfl⟩ := Option.map_eq_some_iff.mp launch_eq
  simp only [recreates, deed_eq, strand_eq, Option.bind_some] at fresh
  exact Option.isNone_iff_eq_none.mp (Option.isSome_eq_false_iff.mp fresh)

/-- What one operation preserves. -/
theorem Sound.perform {op : Operation σ} (sound : Sound h u) (isPublic : op.IsPublic)
    (fresh : u.recreates op = false) (done : u.perform op = some v) :
    Sound (h ++ (u.deed? op).toList) v := by
  refine ⟨consistent_perform isPublic done sound.consistent, ?_,
    guarded_perform isPublic done sound.launching sound.guarded, ?_⟩
  · refine launching_perform isPublic done ?_ sound.launching
    intro t s s' launch_eq _ deed_eq
    exact creation_of_fresh fresh launch_eq deed_eq
  · rw [ledger_perform done]
    cases deed_eq : u.deed? op with
    | none => simpa using sound.accounted
    | some d => exact sound.accounted.after (sound.admits isPublic done deed_eq)

/-- A step of a task that changes a state is the answer to what the task has asked for. -/
theorem TaskStep.of_moved {c : Ctx} {task task' : Task σ} {d : Option Deed} {ro : Roster σ}
    {t : ThreadId} {next : State} (step : u.TaskStep c task d ro task')
    (deed_eq : d = some (.moved t next)) :
    ∃ I r, task.request? = some (.transition r t next) ∧
      task' = (task.answer I (.transitioned .changed)).1 := by
  cases step with
  | advanced isPublic advances =>
      rcases taskDeed?_of_advance u advances with none_eq | starts
      · cases none_eq.symm.trans deed_eq
      · cases starts.symm.trans deed_eq
  | @answered I r a w asks served keeps stays =>
      cases r with
      | transition r' t' next' =>
          cases (change?_eq_some deed_eq).1
          obtain ⟨notes, transition_eq⟩ := transition_of_change deed_eq c r'
          simp only [serve, transition_eq] at served
          cases served
          exact ⟨I, r', asks, rfl⟩
      | retire r' t' => cases (retirement?_eq_some deed_eq).1
      | spawn slot object =>
          obtain ⟨thread, _, other⟩ := Option.map_eq_some_iff.mp deed_eq
          cases other
      | _ => cases deed_eq
  | replaced asks | deferred isPublic | launches held_eq => cases deed_eq

/-- What a fine step that is no operation of its own can do to the task of a context: it may have
asked for a change of state, and is told that the change was made. -/
inductive Told (u : World σ) (c : Ctx) : Option (Task σ) → Prop
  | same : Told u c (u.roster.taskAt c)
  | changed {I : Interpreter σ} {task : Task σ} {s : σ} {depth : Nat} {r : RegistryId}
      {t : ThreadId} {next : State} (task_eq : u.roster.taskAt c = some task)
      (mode_eq : task.mode = .asking s depth (.transition r t next)) :
      Told u c (some (task.answer I (.transitioned .changed)).1)

theorem Told.of_eq {c : Ctx} {after : Option (Task σ)} (same : after = u.roster.taskAt c) :
    u.Told c after := by
  rw [same]
  exact .same

/-- A write tells whoever has asked for it. -/
theorem Sound.told {op : Operation σ} {t : ThreadId} {seen next : State} (sound : Sound h u)
    (isPublic : op.IsPublic) (deed_eq : (u.withState t seen).deed? op = some (.moved t next))
    (done : (u.withState t seen).perform op = some v) (c : Ctx) :
    u.Told c (v.roster.taskAt c) := by
  have launching := (sound.withState t seen).launching
  have turnover := (shift_perform isPublic done).turnover launching c
  rw [deed_eq] at turnover
  generalize v.roster.taskAt c = after at turnover ⊢
  cases turnover with
  | same aside => exact .of_eq (by rw [roster_withState])
  | called own none_eq other | started own none_eq other | takenBack task_eq finished other =>
      cases other
  | stepped own task_eq step =>
      obtain ⟨I, r, asks, rfl⟩ := step.of_moved rfl
      obtain ⟨s, depth, mode_eq⟩ := Task.asking_of_transition asks
      rw [roster_withState] at task_eq
      exact .changed task_eq mode_eq
  | ended own task_eq step finished =>
      obtain ⟨I, r, asks, rfl⟩ := step.of_moved rfl
      obtain ⟨s, depth, mode_eq⟩ := Task.asking_of_transition asks
      simp [Task.answer, mode_eq, Task.completion?] at finished

/-- Whoever is told something keeps its guards. -/
theorem Told.guardsAt {c : Ctx} (told : u.Told c (v.roster.taskAt c)) :
    v.guardsAt c = u.guardsAt c := by
  generalize after_eq : v.roster.taskAt c = after at told
  cases told with
  | same => rw [World.guardsAt, after_eq, World.guardsAt]
  | changed task_eq mode_eq =>
      rw [guardsAt_of_task task_eq, guardsAt_of_task after_eq]
      simp [Task.guards, Task.answer, mode_eq, Mode.guards]

/-- Whoever asks for no change of state is told nothing. -/
theorem Told.eq_some {c : Ctx} {task : Task σ} {after : Option (Task σ)} (told : u.Told c after)
    (task_eq : u.roster.taskAt c = some task)
    (silent : ∀ r t next, task.request? ≠ some (.transition r t next)) : after = some task := by
  cases told with
  | same => exact task_eq
  | @changed I before s depth r t next task_eq' mode_eq =>
      obtain rfl := Option.some.inj (task_eq.symm.trans task_eq')
      have asks : task.request? = some (.transition r t next) := by
        simp [Task.request?, mode_eq]
      exact absurd asks (silent r t next)

/-- A thread that is displaced is the one that a context works on. -/
theorem taskAt_of_displaced {op : Operation σ} {thread : Thread}
    (displaced_eq : u.displaced? op = some thread) :
    ∃ c task, u.roster.taskAt c = some task ∧ task.thread = thread := by
  cases op with
  | step I c =>
      obtain ⟨task, task_eq, displaced_eq⟩ := Option.bind_eq_some_iff.mp displaced_eq
      refine ⟨c, task, task_eq, ?_⟩
      split at displaced_eq
      · obtain ⟨_, _, same⟩ := Option.map_eq_some_iff.mp displaced_eq
        exact same
      · cases displaced_eq
  | _ => cases displaced_eq

end World

namespace FineWorld

variable {σ : Type} {f g : FineWorld σ} {h : List Deed} {log more : List FineDeed} {n : Nat}
  {config : ConfigCell}

/-- What fine steps preserve, whatever is done in them. -/
structure Sound (h : List Deed) (f : FineWorld σ) : Prop extends World.Sound h f.world where
  /-- a displaced thread is what it was -/
  displaced : ∀ thread ∈ f.displaced, f.world.ledger.pass? thread.id = some thread.pass

theorem deedsOf_storeDeeds (f : FineWorld σ) (p : PendingChange σ) :
    deedsOf (f.storeDeeds p) = [] ∨ deedsOf (f.storeDeeds p) = [.moved p.thread p.next] := by
  unfold storeDeeds
  split
  · exact .inl rfl
  · rw [deedsOf_map]
    cases change_eq : f.world.change? p.thread p.next with
    | none => exact .inl rfl
    | some d =>
        obtain ⟨rfl, _⟩ := World.change?_eq_some change_eq
        exact .inr rfl

theorem recordings_storeDeeds (f : FineWorld σ) (p : PendingChange σ) (r : RegistryId) :
    recordings r (deedsOf (f.storeDeeds p)) = [] := by
  rcases deedsOf_storeDeeds f p with none_eq | moved_eq
  · rw [none_eq]
    rfl
  · rw [moved_eq]
    rfl

theorem Sound.acted {op : Operation σ} {v : World σ} (sound : Sound h f)
    (isPublic : op.IsPublic) (fresh : f.world.recreates op = false)
    (done : f.world.perform op = some v) :
    Sound (h ++ (f.world.deed? op).toList)
      { f with world := v, displaced := f.displaced ++ (f.world.displaced? op).toList } := by
  refine ⟨sound.toSound.perform isPublic fresh done, ?_⟩
  intro thread member
  have known : f.world.ledger.pass? thread.id = some thread.pass := by
    rcases List.mem_append.mp member with old | new
    · exact sound.displaced thread old
    · obtain ⟨c, task, task_eq, rfl⟩ := World.taskAt_of_displaced (Option.mem_toList.mp new)
      have present : task.thread.pass ∈ f.world.roster.passesAt c.place := by
        rw [Roster.passesAt_of_taskAt task_eq]
        exact List.mem_cons_self
      exact sound.consistent.agrees c.place _ present
  rw [World.ledger_perform done]
  exact Ledger.pass?_foldl _ known

/-- A write changes nothing but a state and what whoever asked for it is told. -/
theorem Sound.stored {i : Nat} {p : PendingChange σ} {v : World σ} (sound : Sound h f)
    (isPublic : p.op.IsPublic)
    (deed_eq : (f.world.withState p.thread p.seen).deed? p.op = some (.moved p.thread p.next))
    (done : (f.world.withState p.thread p.seen).perform p.op = some v) :
    Sound (h ++ deedsOf (f.storeDeeds p))
      { f with world := v, pending := f.pending.eraseIdx i } := by
  have written := (sound.toSound.withState p.thread p.seen).perform isPublic
    (by simp [World.recreates, deed_eq]) done
  rw [deed_eq] at written
  have kept {d : Deed} (other : d ≠ .moved p.thread p.next)
      (member : d ∈ h ++ [.moved p.thread p.next]) : d ∈ h ++ deedsOf (f.storeDeeds p) := by
    rcases List.mem_append.mp member with old | new
    · exact List.mem_append_left _ old
    · exact absurd (List.mem_singleton.mp new) other
  refine ⟨written.of_deeds (fun t => kept (by simp)) (fun t => kept (by simp)) ?_, ?_⟩
  · intro r
    rw [recordings_append, recordings_append, recordings_storeDeeds]
    rfl
  · intro thread member
    rw [ledger_store deed_eq done]
    exact Ledger.pass?_after _ (sound.displaced thread member)

/-- What one fine step preserves. -/
theorem Sound.step (sound : Sound h f) (step : Step Operation.IsPublic f more g) :
    Sound (h ++ deedsOf more) g := by
  have same : h ++ [] = h := List.append_nil h
  cases step with
  | acted isPublic free fresh done =>
      rw [deedsOf_map]
      exact sound.acted isPublic fresh done
  | checked =>
      rw [show h ++ deedsOf [.checked _ _] = h from same]
      exact ⟨sound.toSound, sound.displaced⟩
  | stored pending_eq isPublic deed_eq done => exact sound.stored isPublic deed_eq done
  | @reclaimed i slot thread s displaced_eq strand_eq free =>
      rw [show h ++ deedsOf [.reclaimed _] = h from same]
      have known := sound.displaced thread (List.mem_of_getElem? displaced_eq)
      have ledger_eq := World.ledger_putHeld f.world slot thread
      refine ⟨sound.toSound.of_held ledger_eq (World.roster_putHeld _ _ _) ?_, ?_⟩
      · intro thread' own
        cases own
        exact known
      · intro thread' member
        rw [ledger_eq]
        exact sound.displaced thread' (List.mem_of_mem_eraseIdx member)
  | @rebound slot thread held_eq begun =>
      rw [show h ++ deedsOf [.rebound _] = h from same]
      have ledger_eq := World.ledger_takeHeld f.world slot
      have roster_eq := World.roster_takeHeld f.world slot
      refine ⟨sound.toSound.of_held ledger_eq roster_eq nofun, ?_⟩
      intro thread' member
      rw [World.ledger_note, ledger_eq]
      exact sound.displaced thread' member

/-- What whole runs preserve. -/
theorem Run.sound (run : Run Operation.IsPublic (ofRegistries n config) log f) :
    Sound (deedsOf log) f := by
  induction run with
  | refl =>
      have start : World.Run (.ofRegistries n config : World σ) [] (.ofRegistries n config) := .refl
      exact ⟨start.sound, List.forall_mem_nil _⟩
  | snoc _ step ih =>
      rw [deedsOf_append]
      exact ih.step step

/-- What every operation keeps, and what depends neither on the states of threads nor on what
somebody holds, is kept by fine steps. -/
theorem Run.keeps {P : World σ → Prop} (start : P (.ofRegistries n config))
    (performs : ∀ (h : List Deed) (u v : World σ) (op : Operation σ), World.Sound h u →
      op.IsPublic → u.recreates op = false → u.perform op = some v → P u → P v)
    (states : ∀ (u : World σ) t s, P u → P (u.withState t s))
    (puts : ∀ (u : World σ) slot thread, P u → P (u.putHeld slot thread))
    (takes : ∀ (u : World σ) slot c notes, P u → P ((u.takeHeld slot).note c notes))
    (run : Run Operation.IsPublic (ofRegistries n config) log f) : P f.world := by
  induction run with
  | refl => exact start
  | snoc run step ih =>
      have sound := run.sound.toSound
      cases step with
      | acted isPublic free fresh done => exact performs _ _ _ _ sound isPublic fresh done ih
      | checked => exact ih
      | @stored i p v pending_eq isPublic deed_eq done =>
          refine performs _ _ _ p.op (sound.withState p.thread p.seen) isPublic ?_ done
            (states _ _ _ ih)
          simp [World.recreates, deed_eq]
      | reclaimed => exact puts _ _ _ ih
      | rebound => exact takes _ _ _ _ ih

theorem not_retired_storeDeeds (f : FineWorld σ) (p : PendingChange σ) (r : RegistryId)
    (t : ThreadId) : .deed (.retired r t) ∉ f.storeDeeds p := by
  rw [← mem_deedsOf]
  rcases deedsOf_storeDeeds f p with none_eq | moved_eq
  · simp [none_eq]
  · simp [moved_eq]

/-- A fine step is a whole operation, or retires nothing and does nothing to tasks but tell them
something. -/
theorem Step.tasks (step : Step Operation.IsPublic f more g) (sound : Sound h f) :
    (∃ op : Operation σ, op.IsPublic ∧ f.world.perform op = some g.world) ∨
      (∀ r t, .deed (.retired r t) ∉ more) ∧ ∀ c, f.world.Told c (g.world.roster.taskAt c) := by
  cases step with
  | acted isPublic free fresh done => exact .inl ⟨_, isPublic, done⟩
  | checked => exact .inr ⟨by simp, fun _ => .same⟩
  | @stored i p v pending_eq isPublic deed_eq done =>
      exact .inr ⟨not_retired_storeDeeds f p, sound.toSound.told isPublic deed_eq done⟩
  | @reclaimed i slot thread s displaced_eq strand_eq free =>
      refine .inr ⟨by simp, fun c => .of_eq ?_⟩
      rw [World.roster_putHeld]
      exact Roster.taskAt_modify_held _ _ _ _
  | @rebound slot thread held_eq begun =>
      refine .inr ⟨by simp, fun c => .of_eq ?_⟩
      rw [World.roster_note, World.roster_takeHeld]
      exact Roster.taskAt_modify_held _ _ _ _

/-! ## What a step does to the ledger -/

/-- What a fine step does to the ledger: a deed that can be done, a state that is written to a dead
thread, or nothing. -/
inductive LedgerStep (l : Ledger) : List FineDeed → Ledger → Prop
  | deed {d : Deed} (admits : l.Admits d) : LedgerStep l [.deed d] (l.after d)
  | revived {t : ThreadId} {next : State} (died : l.state? t = some .died) (lives : next ≠ .died) :
      LedgerStep l [.revived t next] (l.after (.moved t next))
  | rest {more : List FineDeed} (deeds_eq : deedsOf more = [])
      (revives : ∀ t next, .revived t next ∉ more) : LedgerStep l more l

theorem Step.ledgerStep (step : Step Operation.IsPublic f more g) (sound : Sound h f) :
    LedgerStep f.world.ledger more g.world.ledger := by
  cases step with
  | @acted op v isPublic free fresh done =>
      rw [World.ledger_perform done]
      cases deed_eq : f.world.deed? op with
      | none => exact .rest rfl (by simp)
      | some d => exact .deed (sound.admits isPublic done deed_eq)
  | checked => exact .rest rfl (by simp)
  | @stored i p v pending_eq isPublic deed_eq done =>
      rw [ledger_store deed_eq done]
      obtain ⟨lives, _, s, state_eq⟩ := legal_of_store deed_eq
      unfold storeDeeds
      split
      · rename_i died
        rw [← World.ledger_state?] at died
        exact .revived died lives
      · rename_i alive
        cases change_eq : f.world.change? p.thread p.next with
        | some d =>
            obtain ⟨rfl, lives, s', state_eq', alive'⟩ := World.change?_eq_some change_eq
            rw [← World.ledger_state?] at state_eq'
            exact .deed ⟨lives, s', state_eq', alive'⟩
        | none =>
            have alive' : s ≠ .died := by
              rintro rfl
              exact alive state_eq
            have same := state?_of_no_change state_eq alive' lives change_eq
            subst same
            rw [← World.ledger_state?] at state_eq
            rw [Ledger.after_moved_self state_eq]
            exact .rest rfl (by simp)
  | reclaimed =>
      rw [World.ledger_putHeld]
      exact .rest rfl (by simp)
  | rebound =>
      rw [World.ledger_note, World.ledger_takeHeld]
      exact .rest rfl (by simp)

/-- What a thread is does not change. -/
theorem LedgerStep.pass? {l l' : Ledger} {t : ThreadId} {pass : Pass} (step : LedgerStep l more l')
    (known : l.pass? t = some pass) : l'.pass? t = some pass := by
  cases step with
  | deed admits => exact Ledger.pass?_after _ known
  | revived died lives => exact Ledger.pass?_after _ known
  | rest deeds_eq revives => exact known

/-- A thread that has died stays dead unless it is revived, and is not retired. -/
theorem LedgerStep.died {l l' : Ledger} {t : ThreadId} (step : LedgerStep l more l')
    (died : l.state? t = some .died) (revives : ∀ next, .revived t next ∉ more) :
    l'.state? t = some .died ∧ ∀ r, .deed (.retired r t) ∉ more := by
  cases step with
  | deed admits =>
      refine ⟨Ledger.died_after admits died, ?_⟩
      intro r member
      cases List.mem_singleton.mp member
      exact Ledger.alive_of_retired admits died
  | @revived t' next _ _ =>
      have other : t' ≠ t := by
        rintro rfl
        exact revives next (List.mem_singleton.mpr rfl)
      rw [Ledger.state?_after]
      exact ⟨(if_neg other).trans died, by simp⟩
  | rest deeds_eq _ =>
      refine ⟨died, ?_⟩
      intro r member
      have deed := mem_deedsOf.mpr member
      rw [deeds_eq] at deed
      cases deed

/-- A thread that lives goes on living, or is retired and dead then. -/
theorem LedgerStep.alive {l l' : Ledger} {t : ThreadId} (step : LedgerStep l more l')
    (alive : l.state? t ≠ some .died) :
    (l'.state? t ≠ some .died ∧ ∀ r, .deed (.retired r t) ∉ more) ∨
      l'.state? t = some .died ∧ ∃ r, more = [.deed (.retired r t)] := by
  cases step with
  | @deed d admits =>
      by_cases retirement : ∃ r, d = .retired r t
      · obtain ⟨r, rfl⟩ := retirement
        obtain ⟨_, card, card_eq, _⟩ := admits
        refine .inr ⟨?_, r, rfl⟩
        rw [Ledger.state?_after]
        simp [Ledger.state?, card_eq]
      · refine .inl ⟨?_, ?_⟩
        · intro died
          rcases Ledger.died_of_after admits died with before | now
          · exact alive before
          · exact retirement now
        · intro r member
          cases List.mem_singleton.mp member
          exact retirement ⟨r, rfl⟩
  | @revived t' next died lives =>
      refine .inl ⟨?_, by simp⟩
      rw [Ledger.state?_after]
      dsimp only
      split
      · rename_i same
        subst same
        exact absurd died alive
      · exact alive
  | rest deeds_eq _ =>
      refine .inl ⟨alive, ?_⟩
      intro r member
      have deed := mem_deedsOf.mpr member
      rw [deeds_eq] at deed
      cases deed

/-- A thread that has died stays dead unless the step revives it, and is not retired. -/
theorem Step.died (step : Step Operation.IsPublic f more g) (sound : Sound h f) {t : ThreadId}
    (died : f.world.state? t = some .died) (revives : ∀ next, .revived t next ∉ more) :
    g.world.state? t = some .died ∧ ∀ r, .deed (.retired r t) ∉ more := by
  rw [← World.ledger_state?] at died ⊢
  exact (step.ledgerStep sound).died died revives

/-- A thread that lives goes on living unless the step retires it. -/
theorem Step.alive (step : Step Operation.IsPublic f more g) (sound : Sound h f) {t : ThreadId}
    (alive : f.world.state? t ≠ some .died) :
    (g.world.state? t ≠ some .died ∧ ∀ r, .deed (.retired r t) ∉ more) ∨
      g.world.state? t = some .died ∧ ∃ r, more = [.deed (.retired r t)] := by
  rw [← World.ledger_state?] at alive ⊢
  exact (step.ledgerStep sound).alive alive

/-- Whoever is not retired goes on living. -/
theorem Step.alive_of_spared (step : Step Operation.IsPublic f more g) (sound : Sound h f)
    (spared : ∀ r t, .deed (.retired r t) ∉ more) {t : ThreadId}
    (alive : f.world.state? t ≠ some .died) : g.world.state? t ≠ some .died := by
  rcases step.alive sound alive with ⟨alive', _⟩ | ⟨_, r, rfl⟩
  · exact alive'
  · exact absurd (List.mem_singleton.mpr rfl) (spared r t)

/-- What the tables have of a thread does not depend on the states of others. -/
theorem entries_of_other {l : Ledger} {t t' : ThreadId} {next : State} (other : t' ≠ t)
    (entries : l.Entries h t) : (l.after (.moved t' next)).Entries h t := by
  have state_eq : (l.after (.moved t' next)).state? t = l.state? t := by
    rw [Ledger.state?_after]
    exact if_neg other
  cases entries with
  | live alive retires counts => exact .live (state_eq ▸ alive) retires counts
  | dead pass_eq died split first last counts =>
      exact .dead (Ledger.pass?_after _ pass_eq) (state_eq.trans died) split first last counts

/-- What one fine step preserves that does not revive a thread. -/
theorem LedgerStep.entries {l l' : Ledger} {t : ThreadId} (step : LedgerStep l more l')
    (entries : l.Entries h t) (revives : ∀ next, .revived t next ∉ more) :
    l'.Entries (h ++ deedsOf more) t := by
  cases step with
  | deed admits => exact Ledger.entries_after entries admits
  | @revived t' next died lives =>
      have other : t' ≠ t := by
        rintro rfl
        exact revives next (List.mem_singleton.mpr rfl)
      rw [show h ++ deedsOf [.revived t' next] = h from List.append_nil h]
      exact entries_of_other other entries
  | rest deeds_eq _ =>
      rw [deeds_eq, List.append_nil]
      exact entries

/-- What the tables have of each thread that was never revived, by what was done. -/
theorem Run.entries (run : Run Operation.IsPublic (ofRegistries n config) log f) {t : ThreadId}
    (revives : ∀ next, .revived t next ∉ log) : f.world.ledger.Entries (deedsOf log) t := by
  induction run with
  | refl =>
      have start : World.Run (.ofRegistries n config : World σ) [] (.ofRegistries n config) := .refl
      exact start.history.entries t
  | snoc run step ih =>
      simp only [List.mem_append, not_or] at revives
      rw [deedsOf_append]
      exact (step.ledgerStep run.sound).entries (ih fun next => (revives next).1)
        fun next => (revives next).2

/-! ## Threads in order -/

/-- The creation of a thread that was not created has not begun. -/
theorem creation_of_not_created {w : World σ} (launching : World.Launching h w) {t : ThreadId}
    (never : .created t ∉ h) : (w.strands[t]?.bind Strand.creation).isSome = false := by
  rw [Option.isSome_eq_false_iff, Option.isNone_iff_eq_none]
  by_contra under
  obtain ⟨c, creation_eq⟩ := Option.ne_none_iff_exists'.mp under
  obtain ⟨s, strand_eq, creation_eq⟩ := Option.bind_eq_some_iff.mp creation_eq
  have launch_eq : w.roster.launches[t]? = some s.launchState := by
    rw [World.launches_getElem?, strand_eq]
    rfl
  exact never (launching.recorded t s.launchState launch_eq
    (by simp [Strand.launchState, creation_eq]))

/-- What one fine step preserves in which no displaced thread is reclaimed. -/
theorem Step.orderly (step : Step Operation.IsPublic f more g) (sound : Sound h f)
    (orderly : f.world.Orderly h) (reclaims : ∀ t, .reclaimed t ∉ more) :
    g.world.Orderly (h ++ deedsOf more) ∧ ∀ t, .rebound t ∉ more := by
  cases step with
  | acted isPublic free fresh done =>
      rw [deedsOf_map]
      exact ⟨World.orderly_perform isPublic done orderly, by simp⟩
  | checked =>
      refine ⟨?_, by simp⟩
      rw [show h ++ deedsOf [.checked _ _] = h from List.append_nil h]
      exact orderly
  | @stored i p v pending_eq isPublic deed_eq done =>
      have after := World.orderly_perform isPublic done (orderly.withState p.thread p.seen)
      rw [deed_eq] at after
      refine ⟨after.of_created ?_, ?_⟩
      · intro t member
        rcases List.mem_append.mp member with old | new
        · exact List.mem_append_left _ old
        · rcases deedsOf_storeDeeds f p with none_eq | moved_eq
          · rw [none_eq] at new
            cases new
          · rw [moved_eq] at new
            exact List.mem_append_right h new
      · intro t
        unfold storeDeeds
        split
        · simp
        · simp
  | reclaimed displaced_eq strand_eq free =>
      exact absurd (List.mem_singleton.mpr rfl) (reclaims _)
  | rebound held_eq begun =>
      have never := orderly.not_created_of_held held_eq
      rw [creation_of_not_created sound.launching never] at begun
      cases begun

/-- Threads stay in order as long as no displaced thread is reclaimed; in particular, nobody has a
thread to create that was created before. -/
theorem Run.orderly (run : Run Operation.IsPublic (ofRegistries n config) log f)
    (reclaims : ∀ t, .reclaimed t ∉ log) :
    f.world.Orderly (deedsOf log) ∧ ∀ t, .rebound t ∉ log := by
  induction run with
  | refl => exact ⟨World.orderly_ofRegistries n config, by simp⟩
  | @snoc log more f g run step ih =>
      simp only [List.mem_append, not_or] at reclaims
      obtain ⟨orderly, rebinds⟩ := ih fun t => (reclaims t).1
      obtain ⟨orderly', rebinds'⟩ := step.orderly run.sound orderly fun t => (reclaims t).2
      rw [deedsOf_append]
      refine ⟨orderly', ?_⟩
      intro t member
      rcases List.mem_append.mp member with old | new
      · exact rebinds t old
      · exact rebinds' t new

/-- A fine step that reclaims no thread leaves the world as it is, or carries out an operation of a
world that differs from it in nothing but a state.  Except for the writing of states, the log says
what is done then. -/
theorem Step.performed (step : Step Operation.IsPublic f more g) (sound : Sound h f)
    (orderly : f.world.Orderly h) (reclaims : ∀ t, .reclaimed t ∉ more) :
    (deedsOf more).length ≤ 1 ∧
      (g.world = f.world ∧ deedsOf more = [] ∨
        ∃ (u : World σ) (op : Operation σ), u.roster = f.world.roster ∧
          (∀ t, u.ledger.pass? t = f.world.ledger.pass? t) ∧ u.Orderly h ∧ World.Sound h u ∧
          op.IsPublic ∧ u.perform op = some g.world ∧
          ∀ d, (∀ t s, d ≠ .moved t s) → (d ∈ deedsOf more ↔ u.deed? op = some d)) := by
  cases step with
  | @acted op v isPublic free fresh done =>
      rw [deedsOf_map]
      refine ⟨Option.length_toList_le, .inr ⟨f.world, op, rfl, fun _ => rfl, orderly,
        sound.toSound, isPublic, done, ?_⟩⟩
      intro d _
      exact Option.mem_toList
  | checked => exact ⟨Nat.zero_le 1, .inl ⟨rfl, rfl⟩⟩
  | @stored i p v pending_eq isPublic deed_eq done =>
      have deeds_eq := deedsOf_storeDeeds f p
      refine ⟨?_, .inr ⟨f.world.withState p.thread p.seen, p.op, World.roster_withState _ _ _, ?_,
        orderly.withState p.thread p.seen, sound.toSound.withState p.thread p.seen, isPublic, done,
        ?_⟩⟩
      · rcases deeds_eq with none_eq | moved_eq
        · simp [none_eq]
        · simp [moved_eq]
      · intro t
        rw [World.ledger_withState]
        exact Ledger.pass?_modify_state _ _ _ _
      · intro d other
        rw [deed_eq]
        rcases deeds_eq with none_eq | moved_eq
        · simpa [none_eq] using (other p.thread p.next).symm
        · simp [moved_eq, other p.thread p.next, (other p.thread p.next).symm]
  | reclaimed displaced_eq strand_eq free =>
      exact absurd (List.mem_singleton.mpr rfl) (reclaims _)
  | rebound held_eq begun =>
      have never := orderly.not_created_of_held held_eq
      rw [creation_of_not_created sound.launching never] at begun
      cases begun

end FineWorld

end ThreadEngine
