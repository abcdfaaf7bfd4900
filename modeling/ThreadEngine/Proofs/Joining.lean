import ThreadEngine.Proofs.Retirement

set_option autoImplicit false

/-!
# Joining the entry point

The creator of an entry point joins its execution context before creation is over.  This rests on a
join handle that nobody takes away: the creator stores it before it gives the word to go, and only
the body of an application thread gives up its own.  So an entry point keeps its join handle until
the hook of its launch, and its creation is not over before its execution context has ended
(`World.Joins`), in any run and also in fine steps (`Run.joins`).
-/

namespace ThreadEngine

namespace Task

variable {σ : Type}

/-! ## Who gives up a join handle -/

/-- If the task gives up a join handle, it is that of an application thread. -/
def SparesMain (task : Task σ) : Prop := ∀ g, task.mode = .detaching g → g.kind = .application

theorem sparesMain_call (I : Interpreter σ) (thread : Thread) (layers : List (Layer σ))
    (m : MethodRef) (args : List Value) : (call I thread layers m args).1.SparesMain := by
  rw [call_fst]
  cases (thread.enter m args).2 <;> exact nofun

theorem sparesMain_runBody (I : Interpreter σ) (thread : Thread) (layers : List (Layer σ))
    (g : Guard) : (runBody I thread layers g).1.SparesMain := by
  unfold runBody
  dsimp only
  split
  · exact nofun
  · split
    · exact nofun
    · exact sparesMain_call I _ _ _ _

theorem sparesMain_start (I : Interpreter σ) (thread : Thread) (layers : List (Layer σ)) :
    (start I thread layers).1.SparesMain := by
  unfold start
  dsimp only
  split
  · rename_i kind_eq
    intro g mode_eq
    cases mode_eq
    exact kind_eq
  · exact sparesMain_runBody I thread layers _

theorem sparesMain_advance {I : Interpreter σ} {task task' : Task σ} {notes : List Note}
    (h : task.advance I = some (task', notes)) : task'.SparesMain := by
  obtain ⟨s, depth, mode_eq, rfl⟩ | ⟨c, mode_eq, rfl⟩ | ⟨a, mode_eq, rfl⟩ := advance_cases h
  · rw [turn_fst]
    cases (I.act s task.thread).action with
    | proceed s' | ask s' r | abort a => exact nofun
    | call s' m args catches => exact sparesMain_call I _ _ _ _
    | start s' catches => exact sparesMain_start I _ _
    | finish r =>
        dsimp only
        split
        · exact nofun
        · exact nofun
  · intro g detaching
    unfold deliver at detaching
    split at detaching
    · cases detaching
    · cases detaching
    · rename_i g' layers layers_eq
      cases kind_eq : g'.kind <;> simp [endBody, kind_eq] at detaching
  · intro g detaching
    unfold unwind at detaching
    split at detaching
    · cases detaching
    · split at detaching <;> cases detaching
    · cases detaching

theorem sparesMain_answer (I : Interpreter σ) {task : Task σ} {r : Request}
    (asks : task.request? = some r) (a : Answer) : (task.answer I a).1.SparesMain := by
  unfold answer
  split
  · exact nofun
  · exact sparesMain_runBody I _ _ _
  · exact nofun
  · split
    · exact nofun
    · exact nofun
  · rename_i g passing mode_eq
    unfold retired
    split
    · cases passing <;> exact nofun
    · cases passing <;> exact nofun
  all_goals
    rename_i mode_eq
    simp [request?, mode_eq] at asks

theorem sparesMain_reask {task : Task σ} (spares : task.SparesMain) (r : Request) :
    (task.reask r).SparesMain := by
  unfold reask
  split
  · exact nofun
  · exact spares

/-- Only a body asks to have a join handle given up, and only its own one. -/
theorem detaching_of_request {task : Task σ} (proper : task.Proper) {t : ThreadId}
    (asks : task.request? = some (.detach t)) :
    ∃ g, task.mode = .detaching g ∧ g.thread = t := by
  unfold request? at asks
  split at asks
  · rename_i s depth r mode_eq
    unfold Proper at proper
    rw [mode_eq, Option.some.inj asks] at proper
    cases proper
  · rename_i g mode_eq
    cases asks
    exact ⟨g, mode_eq, rfl⟩
  all_goals cases asks

end Task

/-! ## Strands -/

/-- Whether the join handle is stored and the hook that follows the launch is still to come. -/
def Creation.isBeforeHook : Creation → Bool
  | .launching | .awaitingReady | .hooking => true
  | .binding .. | .spawning _ | .attaching | .joining | .done _ | .aborted _ => false

/-- An entry point keeps its join handle until the hook of its launch, and its creation is not over
before its execution context has ended. -/
structure Strand.Joinable {σ : Type} (s : Strand σ) : Prop where
  attached : s.handle.kind = .main → ∀ c, s.creation = some c → c.isBeforeHook = true →
    s.handle.context = .attached
  ended : s.handle.kind = .main → ∀ fault, s.creation = some (.done fault) →
    ∃ a, s.child = some (.ended a)

namespace World

variable {σ : Type}

/-- Every entry point keeps its join handle, and is joined. -/
def Joinable (w : World σ) : Prop :=
  ∀ (t : ThreadId) (s : Strand σ), w.strands[t]? = some s → s.Joinable

theorem modifyStrand_modifyStrand (w : World σ) (t : ThreadId) (f g : Strand σ → Strand σ) :
    (w.modifyStrand t f).modifyStrand t g = w.modifyStrand t (g ∘ f) := by
  simp only [modifyStrand, List.modify_modify_eq]

theorem strands_add (w : World σ) (c : Ctx) (r : RegistryId) (t : ThreadId) :
    (w.add c r t).strands = w.strands := by
  unfold add
  split <;> rfl

/-- A change of one strand that keeps it joinable. -/
theorem Joinable.modifyStrand {w : World σ} (joinable : w.Joinable) (t : ThreadId)
    {f : Strand σ → Strand σ}
    (keeps : ∀ s, w.strands[t]? = some s → s.Joinable → (f s).Joinable) :
    (w.modifyStrand t f).Joinable := by
  intro j s' strand_eq
  rw [World.modifyStrand, List.getElem?_modify] at strand_eq
  obtain ⟨s, was, rfl⟩ := Option.map_eq_some_iff.mp strand_eq
  by_cases at_t : t = j
  · subst at_t
    simpa using keeps s was (joinable t s was)
  · simpa [at_t] using joinable j s was

section Frame

variable {w : World σ} (joinable : w.Joinable)

include joinable

/-- Nothing but the kind of a thread, its join handle, its creation and its context matters. -/
theorem Joinable.modifyHandle (t : ThreadId) {f : Handle → Handle}
    (same : ∀ h, (f h).kind = h.kind ∧ (f h).context = h.context) :
    (w.modifyHandle t f).Joinable := by
  refine joinable.modifyStrand t fun s _ d => ⟨?_, ?_⟩
  · intro main
    rw [(same s.handle).2]
    exact d.attached ((same s.handle).1.symm.trans main)
  · intro main
    exact d.ended ((same s.handle).1.symm.trans main)

theorem Joinable.takeHeld (slot : ThreadId) : (w.takeHeld slot).Joinable :=
  joinable.modifyStrand slot fun _ _ d => ⟨d.attached, d.ended⟩

theorem Joinable.putHeld (slot : ThreadId) (thread : Thread) : (w.putHeld slot thread).Joinable :=
  joinable.modifyStrand slot fun _ _ d => ⟨d.attached, d.ended⟩

/-- A creation that has just begun is far from its end. -/
theorem Joinable.create (slot : ThreadId) (thread : Thread) (object : Value) :
    (w.create slot thread object).Joinable := by
  refine Joinable.modifyStrand ?_ thread.id fun s _ _ => ⟨?_, ?_⟩
  · exact (joinable.takeHeld slot).modifyStrand slot fun _ _ d => ⟨d.attached, d.ended⟩
  · rintro _ c ⟨rfl⟩ early
    cases early
  · rintro _ fault ⟨⟩

theorem Joinable.add (c : Ctx) (r : RegistryId) (t : ThreadId) : (w.add c r t).Joinable := by
  unfold World.add
  split
  · exact joinable
  · exact joinable

theorem Joinable.retire (c : Ctx) (r : RegistryId) (t : ThreadId) :
    (w.retire c r t).2.Joinable := by
  have died : (w.modifyHandle t ({ · with state := .died })).Joinable := by
    refine joinable.modifyHandle t ?_
    exact fun _ => ⟨rfl, rfl⟩
  unfold World.retire
  split
  · split
    · exact joinable
    · dsimp only
      split
      · exact died
      · exact died
  · exact joinable

theorem Joinable.transition (c : Ctx) (r : RegistryId) (t : ThreadId) (next : State) :
    (w.transition c r t next).2.Joinable := by
  unfold World.transition
  split
  · exact joinable
  · split
    · exact joinable
    · have moved : (w.modifyHandle t ({ · with state := next })).Joinable := by
        refine joinable.modifyHandle t ?_
        exact fun _ => ⟨rfl, rfl⟩
      exact moved

theorem Joinable.unpark (t : ThreadId) : (w.unpark t).2.Joinable := by
  unfold World.unpark
  split
  · exact joinable
  · split
    · exact joinable.modifyStrand t fun _ _ d => ⟨d.attached, d.ended⟩
    · exact joinable

theorem Joinable.build (kind : Kind) (m : MethodRef) (args : List Value) (env : Env) :
    (w.build kind m args env).2.Joinable := by
  intro t s strand_eq
  rw [World.build, List.getElem?_append] at strand_eq
  split at strand_eq
  · exact joinable t s strand_eq
  · rw [List.getElem?_singleton] at strand_eq
    split at strand_eq
    · cases strand_eq
      refine ⟨?_, ?_⟩
      · intro _ _ creation_eq
        cases creation_eq
      · intro _ _ creation_eq
        cases creation_eq
    · cases strand_eq

/-- The execution context goes on, if it has not ended. -/
theorem Joinable.storeChild {t : ThreadId} (child : Child σ)
    (goes : ∀ s, w.strands[t]? = some s → ∀ a, s.child ≠ some (.ended a)) :
    (storeChild t w child).Joinable := by
  refine joinable.modifyStrand t fun s was d => ⟨d.attached, ?_⟩
  intro main fault creation_eq
  obtain ⟨a, ended⟩ := d.ended main fault creation_eq
  exact absurd ended (goes s was a)

/-- Giving up the join handle of an application thread does not concern the entry points. -/
theorem Joinable.detach {t : ThreadId}
    (application : ∀ s, w.strands[t]? = some s → s.handle.kind = .application) :
    (w.modifyHandle t Handle.detach).Joinable := by
  refine joinable.modifyStrand t fun s was _ => ?_
  have kind_eq : s.handle.detach.kind = .application := by
    rw [← application s was, Handle.detach]
    split <;> rfl
  refine ⟨fun main => ?_, fun main => ?_⟩
  · cases kind_eq.symm.trans main
  · cases kind_eq.symm.trans main

/-- A creation may end once the execution context has ended. -/
theorem Joinable.endCreation {t : ThreadId} {s : Strand σ} {a : Option Abort}
    (strand_eq : w.strands[t]? = some s) (child_eq : s.child = some (.ended a))
    (fault : Option Error) : (w.setCreation t (.done fault)).Joinable := by
  refine joinable.modifyStrand t fun s' was d => ⟨?_, ?_⟩
  · rintro _ c ⟨rfl⟩ early
    cases early
  · intro _ _ _
    obtain rfl : s' = s := (Option.some.inj (strand_eq.symm.trans was)).symm
    exact ⟨a, child_eq⟩

/-! ## Steps -/

theorem Joinable.serve {w' : World σ} {c : Ctx} {r : Request}
    (application : ∀ t, r = .detach t → ∀ s, w.strands[t]? = some s →
      s.handle.kind = .application)
    (served : (w.serve c r).world? = some w') : w'.Joinable := by
  cases r with
  | detach t =>
      cases served
      exact joinable.detach (application t rfl)
  | awaitApplications r =>
      simp only [World.serve, serveAwait] at served
      split at served
      · cases served
        exact joinable
      · split at served
        · cases served
        · split at served
          · cases served
            exact joinable
          · cases served
            exact joinable
  | stateOf t =>
      simp only [World.serve] at served
      split at served
      · cases served
        exact joinable
      · cases served
        exact joinable
  | retire r t =>
      cases served
      exact joinable.retire c r t
  | transition r t next =>
      cases served
      exact joinable.transition c r t next
  | tally r =>
      simp only [World.serve] at served
      split at served
      · cases served
        exact joinable
      · cases served
        exact joinable
  | replace slot =>
      cases served
      exact joinable.takeHeld slot
  | park =>
      simp only [World.serve, servePark] at served
      split at served
      · cases served
        exact joinable
      · cases served
        exact joinable
      · split at served
        · cases served
          exact joinable
        · cases served
          exact joinable.modifyStrand _ fun _ _ d => ⟨d.attached, d.ended⟩
        · cases served
        · cases served
          exact joinable.modifyStrand _ fun _ _ d => ⟨d.attached, d.ended⟩
  | spawn slot object =>
      simp only [World.serve, serveSpawn] at served
      split at served
      · cases served
        exact joinable
      · split at served
        · cases served
          exact joinable
        · cases served
          exact joinable.create slot _ object
  | unpark t =>
      have kept := joinable.unpark t
      simp only [World.serve, serveUnpark] at served
      split at served
      · rename_i unparked
        rw [unparked] at kept
        cases served
        exact kept
      · rename_i unparked
        rw [unparked] at kept
        cases served
        exact kept
  | reportLaunch t | reportUnpark | emit v =>
      cases served
      exact joinable

end Frame

/-- Serving a request leaves all tasks alone. -/
theorem taskAt_serve {w w' : World σ} {c c' : Ctx} {r : Request}
    (served : (w.serve c r).world? = some w') : w'.roster.taskAt c' = w.roster.taskAt c' := by
  cases outcome : w.serve c r with
  | answered a w₁ =>
      rw [outcome] at served
      cases served
      obtain ⟨slot, _, _, roster_eq⟩ | ⟨_, _, roster_eq⟩ := roster_of_answered outcome
      · rw [roster_eq, Roster.taskAt_modify_held]
      · rw [roster_eq]
  | deferred r' w₁ =>
      rw [outcome] at served
      cases served
      obtain ⟨slot, object, thread, _, _, _, roster_eq⟩ | ⟨_, _, roster_eq⟩ :=
        roster_of_deferred outcome
      · rw [roster_eq, Roster.taskAt_create]
      · rw [roster_eq]
  | blocked =>
      rw [outcome] at served
      cases served

theorem Joinable.stepTask {I : Interpreter σ} {w v : World σ} {c : Ctx} {task : Task σ}
    {store : World σ → Task σ → World σ} (joinable : w.Joinable)
    (application : ∀ t, task.request? = some (.detach t) → ∀ s, w.strands[t]? = some s →
      s.handle.kind = .application)
    (task_eq : w.roster.taskAt c = some task)
    (stores : ∀ (w' : World σ) (task' : Task σ), w'.Joinable → w'.roster.taskAt c = some task →
      (store w' task').Joinable)
    (h : w.stepTask I c task store = some v) : v.Joinable := by
  obtain ⟨r, a, w', asks, served, rfl⟩ | ⟨r, r', w', asks, served, rfl⟩ |
    ⟨task', notes, asks, _, rfl⟩ := stepTask_cases h
  · have reached : (w.serve c r).world? = some w' := by rw [served]; rfl
    exact stores w' _ (joinable.serve (fun t same => application t (same ▸ asks)) reached)
      ((taskAt_serve reached).trans task_eq)
  · have reached : (w.serve c r).world? = some w' := by rw [served]; rfl
    exact stores w' _ (joinable.serve (fun t same => application t (same ▸ asks)) reached)
      ((taskAt_serve reached).trans task_eq)
  · exact stores w _ joinable task_eq

/-- Whoever gives up a join handle gives up that of an application thread. -/
def DetachesApplications (w : World σ) : Prop :=
  ∀ (c : Ctx) (task : Task σ), w.roster.taskAt c = some task → ∀ t,
    task.request? = some (.detach t) → ∀ s, w.strands[t]? = some s → s.handle.kind = .application

theorem Joinable.stepBody {I : Interpreter σ} {w v : World σ} {t : ThreadId} (joinable : w.Joinable)
    (application : w.DetachesApplications) (h : w.stepBody I t = some v) : v.Joinable := by
  obtain ⟨s, strand_eq, cases⟩ := stepBody_cases h
  have goes (child : Child σ) (child_eq : s.child = some child) (lives : ∀ a, child ≠ .ended a) :
      ∀ s', w.strands[t]? = some s' → ∀ a, s'.child ≠ some (.ended a) := by
    intro s' was a ended
    cases strand_eq.symm.trans was
    exact lives a (Option.some.inj (child_eq.symm.trans ended))
  obtain ⟨thread, child_eq, _, rfl⟩ | ⟨thread, child_eq, _, _, rfl⟩ | ⟨thread, child_eq, rfl⟩ |
    ⟨thread, child_eq, rfl⟩ | ⟨task, child_eq, step⟩ := cases
  · exact joinable.storeChild _ (goes _ child_eq nofun)
  · exact joinable.storeChild _ (goes _ child_eq nofun)
  · refine Joinable.storeChild ?_ _ ?_
    · apply Joinable.add
      exact joinable
    · rw [strands_add]
      exact goes _ child_eq nofun
  · refine Joinable.storeChild (w := w.modifyStrand t ({ · with readySent := true })) ?_ _ ?_
    · refine joinable.modifyStrand t ?_
      exact fun _ _ d => ⟨d.attached, d.ended⟩
    · intro s' was a ended
      rw [World.modifyStrand, List.getElem?_modify_eq, strand_eq] at was
      cases was
      cases child_eq.symm.trans ended
  · have task_eq : w.roster.taskAt (.body t) = some task := by
      simp [Roster.taskAt, launches_getElem?, strand_eq, Strand.launchState, child_eq, Child.task?]
    refine joinable.stepTask (application _ task task_eq) task_eq ?_ step
    intro w' task' joinable' task_eq'
    refine joinable'.storeChild _ ?_
    intro s' was a ended
    simp [Roster.taskAt, launches_getElem?, was, Strand.launchState, ended, Child.task?] at task_eq'

theorem Joinable.stepHost {I : Interpreter σ} {w v : World σ} (joinable : w.Joinable)
    (application : w.DetachesApplications) (h : w.stepHost I = some v) : v.Joinable := by
  obtain ⟨slot, task, host_eq, step⟩ | ⟨r, w', host_eq, served, done⟩ := stepHost_cases h
  · have task_eq : w.roster.taskAt .host = some task := by
      simp [Roster.taskAt, roster, host_eq, Host.task?]
    refine joinable.stepTask (application _ task task_eq) task_eq ?_ step
    exact fun _ _ joinable' _ => joinable'
  · have joinable' := joinable.serve (r := .awaitApplications r) (by rintro _ ⟨⟩) served
    rcases done with rfl | rfl
    · exact joinable'
    · exact joinable'

/-- The creator stores the join handle before it gives the word to go, and joins an entry point. -/
theorem Joinable.stepCreator {w v : World σ} {t : ThreadId} (joinable : w.Joinable)
    (h : w.stepCreator t = some v) : v.Joinable := by
  obtain ⟨s, strand_eq, cases⟩ := stepCreator_cases h
  have here (s' : Strand σ) (was : w.strands[t]? = some s') : s' = s :=
    (Option.some.inj (strand_eq.symm.trans was)).symm
  obtain ⟨thread, object, creation_eq, _, rfl⟩ | ⟨thread, creation_eq, rfl⟩ | ⟨creation_eq, rfl⟩ |
    ⟨creation_eq, rfl⟩ | ⟨creation_eq, ready, rfl⟩ | ⟨creation_eq, rfl⟩ |
    ⟨a, creation_eq, child_eq, rfl⟩ | ⟨thread, object, _, creation_eq, _, rfl⟩ |
    ⟨a, creation_eq, child_eq, rfl⟩ := cases
  · rw [setCreation, World.modifyHandle, modifyStrand_modifyStrand]
    refine joinable.modifyStrand t fun s' was d => ⟨?_, by rintro _ _ ⟨⟩⟩
    rintro _ c ⟨rfl⟩ early
    cases early
  · rw [setCreation, World.storeChild, modifyStrand_modifyStrand]
    refine joinable.modifyStrand t fun s' was d => ⟨?_, by rintro _ _ ⟨⟩⟩
    rintro _ c ⟨rfl⟩ early
    cases early
  · rw [setCreation, World.modifyHandle, modifyStrand_modifyStrand]
    exact joinable.modifyStrand t fun s' was d => ⟨fun _ _ _ _ => rfl, by rintro _ _ ⟨⟩⟩
  · rw [setCreation, modifyStrand_modifyStrand]
    refine joinable.modifyStrand t fun s' was d => ⟨?_, by rintro _ _ ⟨⟩⟩
    intro main c _ _
    obtain rfl := here s' was
    exact d.attached main _ creation_eq rfl
  · refine Joinable.modifyStrand joinable t fun s' was d => ⟨?_, by rintro _ _ ⟨⟩⟩
    intro main c _ _
    obtain rfl := here s' was
    exact d.attached main _ creation_eq rfl
  · have attached : s.handle.kind = .main → s.handle.context = .attached :=
      fun main => (joinable t s strand_eq).attached main _ creation_eq rfl
    unfold hook
    split
    · rw [setCreation, World.modifyHandle, modifyStrand_modifyStrand]
      refine joinable.modifyStrand t fun s' was d => ⟨?_, by rintro _ _ ⟨⟩⟩
      rintro _ c ⟨rfl⟩ early
      cases early
    · rename_i other
      refine joinable.modifyStrand t fun s' was d => ?_
      obtain rfl := here s' was
      refine ⟨fun main => ?_, fun main => ?_⟩
      · exact absurd ⟨main, attached main⟩ other
      · exact absurd ⟨main, attached main⟩ other
  · exact joinable.endCreation strand_eq child_eq _
  · refine Joinable.modifyStrand joinable t fun s' was d => ⟨?_, by rintro _ _ ⟨⟩⟩
    rintro _ c ⟨rfl⟩ early
    cases early
  · exact joinable.endCreation strand_eq child_eq _

/-- Every operation keeps the entry points joinable. -/
theorem Joinable.perform {w v : World σ} {op : Operation σ} (joinable : w.Joinable)
    (application : w.DetachesApplications) (h : w.perform op = some v) : v.Joinable := by
  have modifyHeld (slot : ThreadId) (f : Thread → Thread) : (w.modifyHeld slot f).Joinable := by
    unfold World.modifyHeld
    split
    · exact joinable
    · exact joinable.putHeld slot _
  cases op with
  | step I c =>
      cases c with
      | host => exact joinable.stepHost application h
      | body t => exact joinable.stepBody application h
      | creator t => exact joinable.stepCreator h
  | expire =>
      simp only [World.perform] at h
      split at h <;> cases h
      rename_i r host_eq
      simp only [expire, host_eq]
      exact joinable
  | application m args env =>
      simp only [World.perform] at h
      split at h <;> cases h
      unfold buildApplication
      split
      · exact joinable.build .application m args env
      · exact joinable
  | main m args env =>
      simp only [World.perform] at h
      split at h <;> cases h
      exact joinable.build .main m args env
  | drop slot =>
      cases h
      exact joinable.takeHeld slot
  | setPc slot pc | editFrame slot op =>
      cases h
      exact modifyHeld slot _
  | call I slot m args =>
      simp only [World.perform] at h
      split at h <;> cases h
      unfold hostCall
      split
      · exact joinable
      · exact joinable.takeHeld slot
  | start I slot =>
      simp only [World.perform] at h
      split at h <;> cases h
      unfold hostStart
      split
      · exact joinable
      · exact joinable.takeHeld slot
  | takeBack =>
      simp only [World.perform] at h
      split at h <;> cases h
      unfold disengage
      split
      · rename_i slot task host_eq
        have idle : ({ w with host := .idle } : World σ).Joinable := joinable
        exact idle.putHeld slot task.thread
      all_goals exact joinable
  | create slot object =>
      cases h
      unfold createHeld
      split
      · exact joinable
      · exact joinable.create slot _ object
  | add c r t =>
      simp only [World.perform] at h
      split at h <;> cases h
      exact joinable.add c r t
  | transition c r t next =>
      cases h
      exact joinable.transition c r t next
  | unpark t =>
      cases h
      exact joinable.unpark t
  | beginWait r | endWait =>
      simp only [World.perform] at h
      split at h <;> cases h
      exact joinable
  | installRegistry c =>
      cases h
      unfold installRegistry
      split
      · exact joinable
      · exact joinable
  | removeRegistry c =>
      cases h
      unfold removeRegistry
      split
      · exact joinable
      · exact joinable
  | installConfig config | readConfig =>
      cases h
      exact joinable

/-! ## Runs -/

theorem TaskStep.sparesMain {u : World σ} {c : Ctx} {task task' : Task σ} {d : Option Deed}
    {ro : Roster σ} (step : u.TaskStep c task d ro task') (spares : task.SparesMain) :
    task'.SparesMain := by
  cases step with
  | advanced isPublic advances => exact Task.sparesMain_advance advances
  | answered asks served keeps stays => exact Task.sparesMain_answer _ asks _
  | replaced asks => exact Task.sparesMain_answer _ asks _
  | deferred isPublic => exact Task.sparesMain_reask spares _
  | launches held_eq => exact Task.sparesMain_reask spares _

section Runs

variable {n : Nat} {config : ConfigCell} {h : List Deed} {u v w : World σ}

/-- What one operation preserves: a task that gives up a join handle gives up that of an application
thread. -/
theorem sparesMain_perform {op : Operation σ} (launching : Launching h u) (isPublic : op.IsPublic)
    (done : u.perform op = some v)
    (tasks : ∀ c task, u.roster.taskAt c = some task → task.SparesMain) {c : Ctx} {task : Task σ}
    (task_eq : v.roster.taskAt c = some task) : task.SparesMain := by
  have turnover := (shift_perform isPublic done).turnover launching c
  generalize v.roster.taskAt c = next at turnover task_eq
  cases turnover with
  | same aside => exact tasks c task task_eq
  | called own none_eq deed_eq =>
      cases task_eq
      exact Task.sparesMain_call _ _ _ _ _
  | started own none_eq deed_eq =>
      cases task_eq
      exact Task.sparesMain_start _ _ _
  | stepped own before_eq step =>
      cases task_eq
      exact step.sparesMain (tasks c _ before_eq)
  | takenBack before_eq finished deed_eq => cases task_eq
  | ended own before_eq step finished => cases task_eq

/-- After every run, a task that gives up a join handle gives up that of an application thread. -/
theorem Run.sparesMain (run : Run (ofRegistries n config) h w) {c : Ctx} {task : Task σ}
    (task_eq : w.roster.taskAt c = some task) : task.SparesMain := by
  induction run generalizing c task with
  | refl => cases c <;> cases task_eq
  | snoc op reached isPublic done ih =>
      exact sparesMain_perform reached.launching isPublic done (fun _ _ => ih) task_eq

theorem mem_guardsAt_of_detaching {c : Ctx} {task : Task σ} {g : Guard}
    (task_eq : w.roster.taskAt c = some task) (mode_eq : task.mode = .detaching g) :
    g ∈ w.guardsAt c := by
  rw [guardsAt_of_task task_eq]
  simp [Task.guards, mode_eq, Mode.guards]

theorem Sound.detachesApplications (sound : Sound h w)
    (tasks : ∀ c task, w.roster.taskAt c = some task → task.SparesMain) :
    w.DetachesApplications := by
  intro c task task_eq t asks s strand_eq
  obtain ⟨g, mode_eq, rfl⟩ := Task.detaching_of_request (sound.guarded.proper c task task_eq) asks
  have member := mem_guardsAt_of_detaching task_eq mode_eq
  obtain ⟨card, card_eq, kind_eq, _⟩ :=
    sound.consistent.card_of_pass (mem_passesAt_of_guard member)
  have here : s.handle.card = card := by
    simpa [ledger, Guard.pass, strand_eq] using card_eq
  rw [← here] at kind_eq
  exact kind_eq.trans (tasks c task task_eq g mode_eq)

theorem Run.detachesApplications (run : Run (ofRegistries n config) h w) :
    w.DetachesApplications :=
  run.sound.detachesApplications fun _ _ => run.sparesMain

/-- When the creation of an entry point is over, its execution context has no task any more. -/
theorem Joinable.taskAt_of_launched (joinable : w.Joinable) (launching : Launching h w)
    {t : ThreadId} {handle : Handle} (handle_eq : w.handle? t = some handle)
    (main : handle.kind = .main) (launched : w.launchReport t = .launched t) :
    w.roster.taskAt (.body t) = none ∧ .created t ∈ h := by
  obtain ⟨s, strand_eq, rfl⟩ := Option.map_eq_some_iff.mp handle_eq
  rw [launchReport, strand_eq, Option.bind_some] at launched
  split at launched
  · rename_i creation_eq
    obtain ⟨a, ended⟩ := (joinable t s strand_eq).ended main none creation_eq
    have launch_eq : w.roster.launches[t]? = some s.launchState := by
      rw [launches_getElem?, strand_eq]
      rfl
    refine ⟨?_, launching.recorded t s.launchState launch_eq ?_⟩
    · simp [Roster.taskAt, launch_eq, Strand.launchState, ended, Child.task?]
    · simp [Strand.launchState, creation_eq]
  · cases launched
  · cases launched

end Runs

/-! ## Fine steps -/

/-- Entry points keep their join handles, and are joined: what operations keep, and what depends on
neither states nor held threads. -/
structure Joins (w : World σ) : Prop where
  spares : ∀ c task, w.roster.taskAt c = some task → task.SparesMain
  joinable : w.Joinable

namespace Joins

variable {h : List Deed} {u v : World σ}

theorem ofRegistries (n : Nat) (config : ConfigCell) :
    (World.ofRegistries n config : World σ).Joins := by
  refine ⟨?_, ?_⟩
  · intro c task task_eq
    cases c <;> cases task_eq
  · intro t s strand_eq
    cases strand_eq

theorem perform {op : Operation σ} (joins : u.Joins) (sound : Sound h u) (isPublic : op.IsPublic)
    (done : u.perform op = some v) : v.Joins where
  spares := fun _ _ => sparesMain_perform sound.launching isPublic done joins.spares
  joinable := joins.joinable.perform (sound.detachesApplications joins.spares) done

theorem withState (joins : u.Joins) (t : ThreadId) (s : State) : (u.withState t s).Joins := by
  refine ⟨?_, joins.joinable.modifyHandle t fun _ => ⟨rfl, rfl⟩⟩
  rw [roster_withState]
  exact joins.spares

theorem of_held (joins : u.Joins) {slot : ThreadId} {held : Option Thread}
    (roster_eq : v.roster = u.roster.modify slot ({ · with held := held }))
    (joinable : v.Joinable) : v.Joins := by
  refine ⟨?_, joinable⟩
  intro c task task_eq
  rw [roster_eq, Roster.taskAt_modify_held] at task_eq
  exact joins.spares c task task_eq

theorem putHeld (joins : u.Joins) (slot : ThreadId) (thread : Thread) :
    (u.putHeld slot thread).Joins :=
  joins.of_held (roster_putHeld u slot thread) (joins.joinable.putHeld slot thread)

theorem takeHeld (joins : u.Joins) (slot : ThreadId) (c : Ctx) (notes : List Note) :
    ((u.takeHeld slot).note c notes).Joins :=
  joins.of_held (roster_takeHeld u slot) (joins.joinable.takeHeld slot)

end Joins

end World

/-- Every entry point keeps its join handle and is joined, in fine steps as well. -/
theorem FineWorld.Run.joins {σ : Type} {n : Nat} {config : ConfigCell} {f : FineWorld σ}
    {log : List FineDeed} (run : Run Operation.IsPublic (ofRegistries n config) log f) :
    f.world.Joins :=
  run.keeps (.ofRegistries n config)
    (fun _ _ _ _ sound isPublic _ done joins => joins.perform sound isPublic done)
    (fun _ t s joins => joins.withState t s) (fun _ slot thread joins => joins.putHeld slot thread)
    (fun _ slot c notes joins => joins.takeHeld slot c notes)

end ThreadEngine
