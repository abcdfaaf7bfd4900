import ThreadEngine.Proofs.Registration
import ThreadEngine.Proofs.Outliving
import ThreadEngine.Proofs.Stages

set_option autoImplicit false

/-!
# The launch handshake

The creator stores the join handle of a thread before it gives the word to go, and the body of an
application thread begins by giving it up.  So there is a join handle to give up, and once it is
given up it stays so; the entry point never gives up its own.  When everybody has come to rest, the
application threads that were launched are the ones that are detached, and the threads that were
launched are the ones that have a thread object: the one that was passed to their only creation
(`launch_handshake`).
-/

namespace ThreadEngine

/-! ## Launch states -/

namespace LaunchState

variable {σ : Type} {t : ThreadId} {s s' : LaunchState σ} {d : Option Deed}

/-- The execution context of a strand has not given up its join handle: it has not started the body,
or is about to give it up. -/
def HoldsOn (t : ThreadId) (s : LaunchState σ) : Prop :=
  ¬ s.HasBegun ∨
    ∃ task g, s.child = some (.running task) ∧ task.mode = .detaching g ∧ g.thread = t

theorem hasBegun_of_running {task : Task σ} (child_eq : s.child = some (.running task)) :
    s.HasBegun := ⟨_, child_eq, trivial⟩

theorem hasBegun_of_eq (same : s'.child = s.child) (begun : s'.HasBegun) : s.HasBegun := by
  obtain ⟨child, child_eq, hasBegun⟩ := begun
  exact ⟨child, same.symm.trans child_eq, hasBegun⟩

theorem not_hasBegun {child : Child σ} (child_eq : s.child = some child)
    (early : ¬ child.HasBegun) : ¬ s.HasBegun := by
  rintro ⟨child', child_eq', hasBegun⟩
  cases child_eq.symm.trans child_eq'
  exact early hasBegun

/-- A body is begun by its execution context, which has reported. -/
theorem Next.begins {u : World σ} (next : s.Next u t d s') (order : s.InOrder t)
    (before : ¬ s.HasBegun) (after : s'.HasBegun) :
    ∃ (I : Interpreter σ) (thread : Thread), s.child = some (.reporting thread) ∧
      s'.child = some (.running (Task.start I thread []).1) := by
  cases next with
  | same _ held => exact absurd (hasBegun_of_eq rfl after) before
  | created _ _ _ child_eq =>
      rcases child_eq with same | ⟨task, running⟩
      · exact absurd (hasBegun_of_eq same after) before
      · exact absurd (hasBegun_of_running running) before
  | @begun I thread child_eq _ => exact ⟨I, thread, child_eq, rfl⟩
  | ran _ child_eq => exact absurd (hasBegun_of_running child_eq) before
  | step step =>
      cases step with
      | spawned _ => exact absurd after (not_hasBegun rfl id)
      | @woken thread _ _ =>
          refine absurd after (not_hasBegun rfl ?_)
          cases thread.kind <;> exact id
      | enlisted _ => exact absurd after (not_hasBegun rfl id)
      | deserted idle_eq _ gone => exact absurd idle_eq (order.not_deserted gone _)
      | _ => exact absurd (hasBegun_of_eq rfl after) before

end LaunchState

/-- An application thread that was launched has its join handle until the body gives it up, and the
body does so first of all. -/
structure Strand.KeepsHandle {σ : Type} (t : ThreadId) (s : Strand σ) : Prop where
  kept : s.stage.kind = .application → s.stage.launched = true → ¬ s.launchState.HasBegun →
    s.stage.context = .attached
  holdsOn : s.stage.kind = .application → s.stage.context = .attached → s.launchState.HoldsOn t

/-- Whether an execution context has come to rest: it has ended, it is parked in its body, or it
waits for the application threads of a registry. -/
def Child.isAtRest {σ : Type} : Child σ → Bool
  | .ended _ => true
  | .running task =>
    match task.request? with
    | some .park | some (.awaitApplications _) => true
    | _ => false
  | .idle _ | .recording _ | .reporting _ => false

theorem Child.hasBegun_of_isAtRest {σ : Type} {child : Child σ} (atRest : child.isAtRest = true) :
    child.HasBegun := by
  cases child with
  | running task | ended a => trivial
  | idle thread | recording thread | reporting thread => cases atRest

/-- An execution context that has come to rest has given up its join handle. -/
theorem LaunchState.not_holdsOn {σ : Type} {t : ThreadId} {s : LaunchState σ} {child : Child σ}
    (child_eq : s.child = some child) (atRest : child.isAtRest = true) : ¬ s.HoldsOn t := by
  rintro (notBegun | ⟨task, g, running, mode_eq, _⟩)
  · exact notBegun ⟨child, child_eq, Child.hasBegun_of_isAtRest atRest⟩
  · cases child_eq.symm.trans running
    simp [Child.isAtRest, Task.request?, mode_eq] at atRest

/-- The body of an application thread begins by giving up the join handle. -/
theorem Task.start_application {σ : Type} (I : Interpreter σ) {thread : Thread}
    (application : thread.kind = .application) (layers : List (Layer σ)) :
    (Task.start I thread layers).1.mode = .detaching (guardOf thread) := by
  simp [Task.start, guardOf, application]

theorem Handle.detach_not_attached (h : Handle) : h.detach.context ≠ .attached := by
  unfold Handle.detach
  split
  · simp
  · assumption

/-! ## Stages -/

namespace Stage

variable {t : ThreadId} {x x' : Stage}

theorem kind_detach (x : Stage) : x.detach.kind = x.kind := by
  unfold detach
  split <;> rfl

theorem launched_detach (x : Stage) : x.detach.launched = x.launched := by
  unfold detach
  split <;> rfl

theorem object_detach (x : Stage) : x.detach.object = x.object := by
  unfold detach
  split <;> rfl

theorem creation_detach (x : Stage) : x.detach.creation = x.creation := by
  unfold detach
  split <;> rfl

theorem detach_not_attached (x : Stage) : x.detach.context ≠ .attached := by
  unfold detach
  split
  · simp
  · assumption

/-- The creator stores the join handle, or takes that of an entry point; otherwise it leaves it
alone. -/
theorem Step.context (step : x.Step t x') :
    x'.kind = x.kind ∧
      (x'.context = x.context ∧ x'.launched = x.launched ∨
        x.creation = some .attaching ∧ x'.context = .attached ∨
        x.kind = .main ∧ x.context = .attached) := by
  cases step with
  | attached creation_eq => exact ⟨rfl, .inr (.inl ⟨creation_eq, rfl⟩)⟩
  | joins _ main attached => exact ⟨rfl, .inr (.inr ⟨main, attached⟩)⟩
  | _ => exact ⟨rfl, .inl ⟨rfl, rfl⟩⟩

/-- The creator binds the object that it was given; otherwise it leaves the object alone, and it
does not begin again. -/
theorem Step.object (step : x.Step t x') :
    (∀ thread object, x'.creation ≠ some (.binding thread object)) ∧
      (x'.object = x.object ∨
        ∃ thread object, x.creation = some (.binding thread object) ∧ x'.object = some object) := by
  cases step with
  | @bound thread object creation_eq _ =>
      exact ⟨by simp, .inr ⟨thread, object, creation_eq, rfl⟩⟩
  | _ => exact ⟨by simp, .inl rfl⟩

/-- A thread that is launched has been created. -/
theorem Fits.creation_of_launched (fits : x.Fits t) (launched : x.launched = true) :
    x.creation ≠ none := by
  intro creation_eq
  simp only [Fits, creation_eq] at fits
  cases launched.symm.trans fits.2.2

/-- Without a launch there is no join handle; after it there is one, until it is given up or
taken. -/
theorem Fits.marks (fits : x.Fits t) :
    x.launched = false ∧ x.context = .unlaunched ∨
      x.launched = true ∧ x.object.isSome = true ∧
        (x.context = .attached ∨ x.kind = .application ∧ x.context = .detached ∨
          x.kind = .main ∧ x.context = .joined) := by
  unfold Fits at fits
  split at fits
  · exact .inl ⟨fits.2.2, fits.2.1⟩
  · exact .inl ⟨fits.2.2, fits.2.1⟩
  · exact .inl ⟨fits.2.2, fits.2.1⟩
  · exact .inl ⟨fits.2.2, fits.2.1⟩
  · exact .inr ⟨fits.2.2, fits.1, by tauto⟩
  · exact .inr ⟨fits.2.2, fits.1, by tauto⟩
  · exact .inr ⟨fits.2.2, fits.1, by tauto⟩
  · exact .inr ⟨fits.2.2, fits.1, by tauto⟩
  · exact .inr ⟨fits.2.2.1, fits.1, by tauto⟩
  · cases fits

/-- Only application threads give up their join handle. -/
theorem Fits.application_of_detached (fits : x.Fits t) (detached : x.context = .detached) :
    x.kind = .application := by
  obtain ⟨_, unlaunched⟩ | ⟨_, _, attached | ⟨application, _⟩ | ⟨_, joined⟩⟩ := fits.marks
  · cases detached.symm.trans unlaunched
  · cases detached.symm.trans attached
  · exact application
  · cases detached.symm.trans joined

/-- Nobody joins an application thread. -/
theorem Fits.context_of_application (fits : x.Fits t) (application : x.kind = .application)
    (launched : x.launched = true) : x.context = .attached ∨ x.context = .detached := by
  obtain ⟨unlaunched, _⟩ | ⟨_, _, attached | ⟨_, detached⟩ | ⟨main, _⟩⟩ := fits.marks
  · cases launched.symm.trans unlaunched
  · exact .inl attached
  · exact .inr detached
  · cases application.symm.trans main

end Stage

namespace World

variable {σ : Type} {n : Nat} {config : ConfigCell} {h h' : List Deed} {u v w : World σ}
  {op : Operation σ} {I : Interpreter σ} {c : Ctx} {t : ThreadId} {task : Task σ} {g : Guard}

/-! ## Giving up a join handle -/

/-- Whoever gives up the join handle of a thread that has been created is its execution context. -/
theorem Orderly.detacher (orderly : Orderly h u) (task_eq : u.roster.taskAt c = some task)
    (mode_eq : task.mode = .detaching g) (was : .created g.thread ∈ h) : c = .body g.thread := by
  have member := mem_guardsAt_of_detaching task_eq mode_eq
  rcases orderly.settled _ _ (mem_passesAt_of_guard member) was with at_creator | at_body
  · have same : c = .creator g.thread := Ctx.place_inj at_creator
    rw [same] at task_eq
    cases task_eq
  · exact Ctx.place_inj at_body

/-- A step of a task that gives up a join handle gives it up, and changes nothing else that anybody
may observe. -/
theorem handle?_of_detaching (I : Interpreter σ) (task_eq : u.roster.taskAt c = some task)
    (mode_eq : task.mode = .detaching g) :
    ∃ v, u.step I c = some v ∧
      ∀ t, v.handle? t = if t = g.thread then (u.handle? t).map Handle.detach else u.handle? t := by
  have asks : task.request? = some (.detach g.thread) := by simp [Task.request?, mode_eq]
  obtain ⟨store, step_eq, kept⟩ := step_of_taskAt I task_eq
  have stepped : u.stepTask I c task store =
      some ((store (u.modifyHandle g.thread Handle.detach) (task.answer I .done).1).note c
        (task.answer I .done).2) := by
    simp only [stepTask, asks, serve]
  refine ⟨_, step_eq.trans stepped, fun t => ?_⟩
  have stores (w : World σ) (task' : Task σ) : (store w task').handle? t = w.handle? t := by
    obtain ⟨slot, _, _, rfl⟩ | ⟨t', _, rfl⟩ := kept
    · rfl
    · simp only [handle?, storeChild, modifyStrand, List.getElem?_modify]
      cases w.strands[t]? with
      | none => rfl
      | some s => by_cases at_t : t' = t <;> simp [at_t]
  change (store (u.modifyHandle g.thread Handle.detach) (task.answer I .done).1).handle? t = _
  rw [stores]
  simp only [handle?, modifyHandle, modifyStrand, List.getElem?_modify]
  cases u.strands[t]? with
  | none => simp
  | some s => by_cases at_t : t = g.thread <;> simp [at_t, eq_comm]

/-! ## One strand -/

section Strands

variable {s s' : Strand σ}

theorem NextStage.kind {x x' : Stage} (next : u.NextStage op t x x') : x'.kind = x.kind := by
  cases next with
  | same | created _ _ _ _ => rfl
  | detached _ _ _ => exact x.kind_detach
  | advanced _ step => exact step.context.1

/-- A strand after an operation is that of a thread just built, or its stage and its launch state
follow from what they were. -/
theorem strand_next (launching : Launching h u) (isPublic : op.IsPublic)
    (done : u.perform op = some v) (strand_eq' : v.strands[t]? = some s') :
    (∃ kind, u.strands[t]? = none ∧ s'.stage = Stage.first kind) ∨
      ∃ s, u.strands[t]? = some s ∧ u.NextStage op t s.stage s'.stage ∧
        s.launchState.Next u t (u.deed? op) s'.launchState := by
  have stage_eq' := stage_of_strand strand_eq'
  have launch_eq' := launch_of_strand strand_eq'
  obtain ⟨kind, new, first⟩ | ⟨x, was, stage⟩ := (restaged_perform launching done).next stage_eq'
  · refine .inl ⟨kind, List.getElem?_eq_none ?_, first⟩
    simpa [stages] using Nat.le_of_eq new
  · obtain ⟨s, strand_eq, rfl, launch_eq⟩ := launch_of_stage was
    obtain ⟨_, _, _, new, _⟩ | ⟨launch, launch_eq₁, next⟩ :=
      (shift_perform isPublic done).launch_next launch_eq'
    · have beyond : u.roster.launches[t]? = none := List.getElem?_eq_none (Nat.le_of_eq new.symm)
      cases launch_eq.symm.trans beyond
    · cases launch_eq.symm.trans launch_eq₁
      exact .inr ⟨s, strand_eq, stage, next⟩

theorem step_of_performer (own : op.performer = .body t) : ∃ I, op = .step I (.body t) := by
  cases op with
  | step I c => exact ⟨I, congrArg (Operation.step I) own⟩
  | _ => cases own

/-- There was a join handle before, unless the creator has just stored it. -/
theorem NextStage.attached {x x' : Stage} (next : u.NextStage op t x x')
    (application : x'.kind = .application) (attached : x'.context = .attached) :
    x.context = .attached ∨ x.creation = some .attaching := by
  have kind_eq := next.kind
  cases next with
  | same | created _ _ _ _ => exact .inl attached
  | detached _ _ _ => exact absurd attached x.detach_not_attached
  | advanced _ step =>
      obtain ⟨_, ⟨same, _⟩ | ⟨creation_eq, _⟩ | ⟨main, _⟩⟩ := step.context
      · exact .inl (same.symm.trans attached)
      · exact .inr creation_eq
      · cases main.symm.trans (kind_eq.symm.trans application)

/-- Nobody gives up a join handle before the body has begun. -/
theorem Run.kept_next (reached : Run (ofRegistries n config) h u)
    (strand_eq : u.strands[t]? = some s) {x' : Stage} (next : u.NextStage op t s.stage x')
    (application : x'.kind = .application) (launched : x'.launched = true)
    (notBegun : ¬ s.launchState.HasBegun) (keepsHandle : s.KeepsHandle t) :
    x'.context = .attached := by
  have stage_eq := stage_of_strand strand_eq
  have kind_eq := next.kind
  have kept := keepsHandle.kept (kind_eq.symm.trans application)
  cases next with
  | same | created _ _ _ _ => exact kept launched notBegun
  | detached op_eq task_eq asks =>
      rw [Stage.launched_detach] at launched
      have under := (reached.fits stage_eq).creation_of_launched launched
      have was := reached.launching.recorded_stage stage_eq under
      obtain ⟨g, mode_eq, rfl⟩ :=
        Task.detaching_of_request (reached.guarded.proper _ _ task_eq) asks
      rw [reached.orderly.detacher task_eq mode_eq was] at task_eq
      obtain ⟨launch, launch_eq, running⟩ := Roster.launch_of_taskAt task_eq
      cases (launch_of_strand strand_eq).symm.trans launch_eq
      exact absurd (LaunchState.hasBegun_of_running running) notBegun
  | advanced op_eq step =>
      obtain ⟨_, ⟨same, launched_eq⟩ | ⟨_, attached⟩ | ⟨main, _⟩⟩ := step.context
      · rw [launched_eq] at launched
        exact same.trans (kept launched notBegun)
      · exact attached
      · cases main.symm.trans (kind_eq.symm.trans application)

/-- A body that is about to give up its join handle has given it up after its next step. -/
theorem detached_of_performer (done : u.perform op = some v) (strand_eq : u.strands[t]? = some s)
    (strand_eq' : v.strands[t]? = some s') (task_eq : u.roster.taskAt (.body t) = some task)
    (mode_eq : task.mode = .detaching g) (own : g.thread = t) (performs : op.performer = .body t) :
    s'.handle = s.handle.detach := by
  obtain ⟨I, rfl⟩ := step_of_performer performs
  obtain ⟨v', step_eq, handles⟩ := handle?_of_detaching I task_eq mode_eq
  cases done.symm.trans step_eq
  have here := handles t
  rw [if_pos own.symm, handle?, handle?, strand_eq, strand_eq'] at here
  simpa using here

/-- A body that has not given up its join handle has not moved. -/
theorem Run.holdsOn_of_begun (reached : Run (ofRegistries n config) h u) (isPublic : op.IsPublic)
    (done : u.perform op = some v) (strand_eq : u.strands[t]? = some s)
    (strand_eq' : v.strands[t]? = some s') (task_eq : u.roster.taskAt (.body t) = some task)
    (mode_eq : task.mode = .detaching g) (own : g.thread = t)
    (attached : s'.stage.context = .attached) : s'.launchState.HoldsOn t := by
  have launch_eq' := launch_of_strand strand_eq'
  have rests : op.performer ≠ .body t := by
    intro performs
    have handle_eq := detached_of_performer done strand_eq strand_eq' task_eq mode_eq own performs
    have attached' : s'.handle.context = .attached := attached
    rw [handle_eq] at attached'
    exact s.handle.detach_not_attached attached'
  have turnover := (shift_perform isPublic done).turnover reached.launching (.body t)
  generalize after_eq : v.roster.taskAt (.body t) = after at turnover
  cases turnover with
  | same aside =>
      obtain ⟨launch, launch_eq, running⟩ := Roster.launch_of_taskAt (after_eq.trans task_eq)
      cases launch_eq'.symm.trans launch_eq
      exact .inr ⟨task, g, running, mode_eq, own⟩
  | called performs _ _ => exact absurd performs rests
  | started performs _ _ => exact absurd performs rests
  | stepped performs _ _ => exact absurd performs rests
  | ended performs _ _ _ => exact absurd performs rests
  | takenBack before_eq finished _ =>
      cases before_eq.symm.trans task_eq
      simp [Task.completion?, mode_eq] at finished

/-- The body of an application thread has just begun: it is about to give up its join handle. -/
theorem Run.holdsOn_of_begins (reached : Run (ofRegistries n config) h u)
    (strand_eq : u.strands[t]? = some s) (application : s.handle.kind = .application)
    {thread : Thread} (reporting : s.launchState.child = some (.reporting thread))
    {launch' : LaunchState σ}
    (running : launch'.child = some (.running (Task.start I thread []).1)) : launch'.HoldsOn t := by
  have launch_eq := launch_of_strand strand_eq
  have order := reached.launching.inOrder t s.launchState launch_eq
  obtain ⟨_, isEarly, _⟩ := order.early reporting id (.inr (by simp))
  have own : thread.id = t := isEarly
  have member : thread.pass ∈ u.roster.passesAt (.strand t .body) := by
    rw [Roster.passesAt_strand launch_eq]
    simp [LaunchState.passes, reporting, Child.passes]
  obtain ⟨card, card_eq, card_kind, _⟩ := reached.orderly.card_of_pass member
  have here : s.handle.card = card := by
    simpa [ledger, Thread.pass, own, strand_eq] using card_eq
  have thread_kind : thread.kind = .application := by
    rw [← here] at card_kind
    exact card_kind.symm.trans application
  exact .inr ⟨_, _, running, Task.start_application I thread_kind [], own⟩

/-- What one operation preserves. -/
theorem Run.keepsHandle_next (reached : Run (ofRegistries n config) h u) (isPublic : op.IsPublic)
    (done : u.perform op = some v) (strand_eq : u.strands[t]? = some s)
    (strand_eq' : v.strands[t]? = some s') (stage : u.NextStage op t s.stage s'.stage)
    (launch : s.launchState.Next u t (u.deed? op) s'.launchState)
    (keepsHandle : s.KeepsHandle t) : s'.KeepsHandle t := by
  have launch_eq := launch_of_strand strand_eq
  have order := reached.launching.inOrder t s.launchState launch_eq
  have fresh := creation_fresh reached.orderly reached.launching launch_eq launch
  refine ⟨fun application launched notBegun => ?_, fun application attached => ?_⟩
  · refine reached.kept_next strand_eq stage application launched ?_ keepsHandle
    exact fun begun => notBegun (launch.hasBegun order fresh begun)
  · have application₀ : s.stage.kind = .application := stage.kind.symm.trans application
    by_cases begun' : s'.launchState.HasBegun
    · by_cases begun : s.launchState.HasBegun
      · rcases stage.attached application attached with attached₀ | attaching
        · obtain notBegun | ⟨task, g, running, mode_eq, own⟩ :=
            keepsHandle.holdsOn application₀ attached₀
          · exact absurd begun notBegun
          · have task_eq : u.roster.taskAt (.body t) = some task := by
              simp [Roster.taskAt, launch_eq, running, Child.task?]
            exact reached.holdsOn_of_begun isPublic done strand_eq strand_eq' task_eq mode_eq own
              attached
        · -- the word to go has not been given then
          have attaching' : s.launchState.creation = some .attaching := attaching
          simp only [LaunchState.InOrder, attaching'] at order
          obtain ⟨⟨thread, idle_eq, _⟩, _⟩ := order
          exact absurd begun (LaunchState.not_hasBegun idle_eq id)
      · obtain ⟨I, thread, reporting, running⟩ := launch.begins order begun begun'
        exact reached.holdsOn_of_begins strand_eq application₀ reporting running
    · exact .inl begun'

/-- What a whole run preserves. -/
theorem Run.keepsHandle (run : Run (ofRegistries n config) h w)
    (strand_eq : w.strands[t]? = some s) :
    s.KeepsHandle t := by
  induction run generalizing t s with
  | refl => cases strand_eq
  | @snoc h u v op reached isPublic done ih =>
      obtain ⟨kind, _, first⟩ | ⟨s₀, was, stage, launch⟩ :=
        strand_next reached.launching isPublic done strand_eq
      · refine ⟨?_, ?_⟩
        · intro _ launched
          rw [first] at launched
          cases launched
        · intro _ attached
          rw [first] at attached
          cases attached
      · exact reached.keepsHandle_next isPublic done was strand_eq stage launch (ih was)

/-! ## What is given up stays so -/

theorem Run.detached_next (reached : Run (ofRegistries n config) h u)
    (strand_eq : u.strands[t]? = some s) (detached : s.stage.context = .detached) {x' : Stage}
    (next : u.NextStage op t s.stage x') : x'.context = .detached := by
  have stage_eq := stage_of_strand strand_eq
  cases next with
  | same | created _ _ _ _ => exact detached
  | detached _ _ _ => simp [Stage.detach, detached]
  | advanced _ step =>
      obtain ⟨_, ⟨same, _⟩ | ⟨attaching, _⟩ | ⟨_, attached⟩⟩ := step.context
      · exact same.trans detached
      · have fits := reached.fits stage_eq
        simp only [Stage.Fits, attaching] at fits
        cases detached.symm.trans fits.2.1
      · cases detached.symm.trans attached

theorem Run.detached (reached : Run (ofRegistries n config) h u) (run : Run u h' w)
    (strand_eq : u.strands[t]? = some s) (detached : s.stage.context = .detached) :
    ∃ s', w.strands[t]? = some s' ∧ s'.stage.context = .detached := by
  induction run with
  | refl => exact ⟨s, strand_eq, detached⟩
  | @snoc h' y w op run isPublic done ih =>
      obtain ⟨s₁, strand_eq₁, detached₁⟩ := ih
      have reached_y := reached.trans run
      have handle_eq₁ : y.handle? t = some s₁.handle := by rw [handle?, strand_eq₁]; rfl
      obtain ⟨_, handle_eq', _⟩ :=
        (Run.refl.snoc op isPublic done).handle?_of_handle? handle_eq₁
      obtain ⟨s', strand_eq', _⟩ := Option.map_eq_some_iff.mp handle_eq'
      refine ⟨s', strand_eq', ?_⟩
      obtain ⟨_, new, _⟩ | ⟨s₂, strand_eq₂, stage, _⟩ :=
        strand_next reached_y.launching isPublic done strand_eq'
      · cases strand_eq₁.symm.trans new
      · cases strand_eq₁.symm.trans strand_eq₂
        exact reached_y.detached_next strand_eq₁ detached₁ stage

/-! ## Where thread objects come from -/

/-- A run in which a thread is created once, with this thread object. -/
def CreatedWith (start : World σ) (h : List Deed) (w : World σ) (t : ThreadId) (object : Value) :
    Prop :=
  ∃ (h₁ h₂ : List Deed) (x y : World σ) (op : Operation σ) (slot : ThreadId) (thread : Thread),
    h = h₁ ++ .created t :: h₂ ∧ .created t ∉ h₁ ∧ .created t ∉ h₂ ∧ Run start h₁ x ∧
      x.held? slot = some thread ∧ thread.id = t ∧ x.Passes op slot object ∧
      x.perform op = some y ∧ Run y h₂ w

theorem CreatedWith.snoc {start : World σ} {object : Value}
    (created : CreatedWith start h u t object) (orderly : Orderly h u) (isPublic : op.IsPublic)
    (done : u.perform op = some v) :
    CreatedWith start (h ++ (u.deed? op).toList) v t object := by
  obtain ⟨h₁, h₂, x, y, op', slot, thread, rfl, before, after, rest⟩ := created
  obtain ⟨run, held_eq, own, passes, done', run'⟩ := rest
  have once : u.deed? op ≠ some (.created t) := by
    refine orderly.deed_ne_created isPublic done ?_
    exact List.mem_append_right _ List.mem_cons_self
  refine ⟨h₁, h₂ ++ (u.deed? op).toList, x, y, op', slot, thread, ?_, before, ?_, run, held_eq, own,
    passes, done', run'.snoc op isPublic done⟩
  · rw [List.append_assoc, List.cons_append]
  · rw [List.mem_append, Option.mem_toList]
    rintro (again | now)
    · exact after again
    · exact once now

/-- The object that a creator is to bind, and the one that it has bound, were passed to the
creation. -/
theorem Run.createdWith (run : Run (ofRegistries n config) h w) {x : Stage}
    (stage_eq : w.stages[t]? = some x) {object : Value}
    (given : x.object = some object ∨ ∃ thread, x.creation = some (.binding thread object)) :
    CreatedWith (ofRegistries n config) h w t object := by
  induction run generalizing x object with
  | refl => cases stage_eq
  | @snoc h u v op reached isPublic done ih =>
      obtain ⟨kind, _, rfl⟩ | ⟨x₀, was, next⟩ :=
        (restaged_perform reached.launching done).next stage_eq
      · rcases given with bound | ⟨thread, creation_eq⟩
        · cases bound
        · cases creation_eq
      · have goes (object₀ : Value) (given₀ : x₀.object = some object₀ ∨
            ∃ thread, x₀.creation = some (.binding thread object₀)) :
            CreatedWith (ofRegistries n config) (h ++ (u.deed? op).toList) v t object₀ :=
          (ih was given₀).snoc reached.orderly isPublic done
        cases next with
        | same => exact goes object given
        | @created slot thread object₀ held_eq own passes deed_eq =>
            rcases given with bound | ⟨thread', creation_eq⟩
            · exact goes object (.inl bound)
            · cases creation_eq
              refine ⟨h, [], u, v, op, slot, thread, ?_, ?_, ?_, reached, held_eq, own, passes,
                done, .refl⟩
              · rw [deed_eq]
                rfl
              · rw [← own]
                exact reached.orderly.not_created_of_held held_eq
              · exact List.not_mem_nil
        | detached _ _ _ =>
            rw [Stage.object_detach, Stage.creation_detach] at given
            exact goes object given
        | advanced _ step =>
            obtain ⟨unbinds, same | ⟨thread, object₀, creation_eq, bound₀⟩⟩ := step.object
            · rcases given with bound | ⟨thread, creation_eq⟩
              · exact goes object (.inl (same.symm.trans bound))
              · exact absurd creation_eq (unbinds thread object)
            · rcases given with bound | ⟨thread', creation_eq'⟩
              · cases bound₀.symm.trans bound
                exact goes object (.inr ⟨thread, creation_eq⟩)
              · exact absurd creation_eq' (unbinds thread' object)

/-! ## Coming to rest -/

/-- Whether every thread that is being created, or has been, has come to rest. -/
def isQuiescent (w : World σ) : Bool :=
  w.strands.all fun s => s.creation.isNone || s.child.any Child.isAtRest

theorem child_of_quiescent (quiescent : w.isQuiescent = true) (strand_eq : w.strands[t]? = some s)
    (under : s.creation ≠ none) : ∃ child, s.child = some child ∧ child.isAtRest = true := by
  have rests := List.all_eq_true.mp quiescent s (List.mem_of_getElem? strand_eq)
  rw [Bool.or_eq_true, Option.isNone_iff_eq_none] at rests
  rcases rests with fresh | atRest
  · exact absurd fresh under
  · exact (Option.any_eq_true _ _).mp atRest

/-- A thread whose body has begun was launched before. -/
theorem launched_of_hasBegun (order : s.launchState.InOrder t) (fits : s.stage.Fits t)
    (begun : s.launchState.HasBegun) : s.stage.launched = true ∧ s.stage.object.isSome = true := by
  obtain ⟨child, child_eq, hasBegun⟩ := begun
  cases creation_eq : s.launchState.creation with
  | none =>
      simp only [LaunchState.InOrder, creation_eq] at order
      cases child_eq.symm.trans order.1
  | some c =>
      have creation_eq' : s.stage.creation = some c := creation_eq
      simp only [LaunchState.InOrder, creation_eq] at order
      simp only [Stage.Fits, creation_eq'] at fits
      cases c with
      | binding thread object | spawning thread => cases child_eq.symm.trans order.2.1
      | attaching | launching =>
          obtain ⟨⟨thread, idle_eq, _⟩, _⟩ := order
          cases child_eq.symm.trans idle_eq
          cases hasBegun
      | awaitingReady | hooking | joining => exact ⟨fits.2.2, fits.1⟩
      | done fault => exact ⟨fits.2.2.1, fits.1⟩
      | aborted a => cases fits

/-- When everybody has come to rest, the detached threads are the application threads that were
launched, and the threads with a thread object are those that were launched. -/
theorem Run.marks_of_quiescent (reached : Run (ofRegistries n config) h w)
    (quiescent : w.isQuiescent = true)
    (strand_eq : w.strands[t]? = some s) :
    (s.handle.context = .detached ↔ s.handle.kind = .application ∧ s.handle.launched = true) ∧
      (s.handle.object.isSome = true ↔ s.handle.launched = true) := by
  have stage_eq := stage_of_strand strand_eq
  have launch_eq := launch_of_strand strand_eq
  have fits : s.stage.Fits t := reached.fits stage_eq
  by_cases under : s.creation = none
  · have under' : s.stage.creation = none := under
    simp only [Stage.Fits, under'] at fits
    obtain ⟨unbound, context_eq, launched_eq⟩ := fits
    simp only [Strand.stage] at unbound context_eq launched_eq
    simp [unbound, context_eq, launched_eq]
  · obtain ⟨child, child_eq, atRest⟩ := child_of_quiescent quiescent strand_eq under
    have begun : s.launchState.HasBegun := ⟨child, child_eq, Child.hasBegun_of_isAtRest atRest⟩
    obtain ⟨launched, bound⟩ :=
      launched_of_hasBegun (reached.launching.inOrder t s.launchState launch_eq) fits begun
    refine ⟨⟨fun detached => ?_, ?_⟩, fun _ => launched, fun _ => bound⟩
    · exact ⟨fits.application_of_detached detached, launched⟩
    · rintro ⟨application, _⟩
      rcases fits.context_of_application application launched with attached | detached
      · have holdsOn := (reached.keepsHandle strand_eq).holdsOn application attached
        exact absurd holdsOn (LaunchState.not_holdsOn child_eq atRest)
      · exact detached

/-! ## The handshake -/

/-- A thread that has not been created has no thread object and no execution context. -/
theorem Run.marks_of_not_created (reached : Run (ofRegistries n config) h w)
    (strand_eq : w.strands[t]? = some s) (never : .created t ∉ h) :
    s.handle.object = none ∧ s.handle.context = .unlaunched ∧ s.handle.launched = false := by
  have stage_eq := stage_of_strand strand_eq
  have fits : s.stage.Fits t := reached.fits stage_eq
  have fresh : s.stage.creation = none := by
    by_contra under
    exact never (reached.launching.recorded_stage stage_eq under)
  simp only [Stage.Fits, fresh] at fits
  exact fits

/-- Whoever starts an application thread either is its execution context, which was launched and
gives up its join handle, or the thread was never created and nothing happens. -/
theorem Run.detaching (reached : Run (ofRegistries n config) h w) (I : Interpreter σ)
    (task_eq : w.roster.taskAt c = some task) (mode_eq : task.mode = .detaching g) :
    ∃ v handle handle', w.step I c = some v ∧ w.handle? g.thread = some handle ∧
      v.handle? g.thread = some handle' ∧
      (c = .body g.thread ∧ handle.launched = true ∧
          (handle.context = .attached ∨ handle.context = .detached) ∧
          handle' = { handle with context := .detached } ∨
        .created g.thread ∉ h ∧ handle' = handle) := by
  have asks : task.request? = some (.detach g.thread) := by simp [Task.request?, mode_eq]
  have member := mem_guardsAt_of_detaching task_eq mode_eq
  obtain ⟨card, card_eq, _⟩ := reached.orderly.card_of_pass (mem_passesAt_of_guard member)
  obtain ⟨s, strand_eq, _⟩ : ∃ s, w.strands[g.thread]? = some s ∧ s.handle.card = card := by
    simpa [ledger, Guard.pass] using card_eq
  have stage_eq := stage_of_strand strand_eq
  have launch_eq := launch_of_strand strand_eq
  have handle_eq : w.handle? g.thread = some s.handle := by rw [handle?, strand_eq]; rfl
  obtain ⟨v, step_eq, handles⟩ := handle?_of_detaching I task_eq mode_eq
  have handle_eq' : v.handle? g.thread = some s.handle.detach := by
    rw [handles, if_pos rfl, handle_eq]
    rfl
  refine ⟨v, s.handle, s.handle.detach, step_eq, handle_eq, handle_eq', ?_⟩
  by_cases was : .created g.thread ∈ h
  · left
    obtain rfl := reached.orderly.detacher task_eq mode_eq was
    obtain ⟨launch, launch_eq₁, running⟩ := Roster.launch_of_taskAt task_eq
    cases launch_eq.symm.trans launch_eq₁
    have application : s.stage.kind = .application :=
      reached.detachesApplications _ _ task_eq _ asks s strand_eq
    have fits := reached.fits stage_eq
    obtain ⟨launched, _⟩ := launched_of_hasBegun
      (reached.launching.inOrder _ s.launchState launch_eq) fits
      (LaunchState.hasBegun_of_running running)
    have context_eq : s.handle.context = .attached ∨ s.handle.context = .detached :=
      fits.context_of_application application launched
    refine ⟨rfl, launched, context_eq, ?_⟩
    rcases context_eq with attached | detached
    · simp [Handle.detach, attached]
    · simp [Handle.detach, ← detached]
  · obtain ⟨_, unlaunched, _⟩ := reached.marks_of_not_created strand_eq was
    exact .inr ⟨was, by simp [Handle.detach, unlaunched]⟩

end Strands

/-- What a launch leaves behind, whatever order the steps of creators and of the contexts that they
launch are taken in.

The join handle of an entry point is never given up.  An application thread that was launched has
its join handle until the first step of its body, which gives it up; so the join handle is stored
before it is given up, and once it is given up it stays so.  Whoever else starts a thread does it to
one that was never created, and changes nothing.  A thread that was never created has neither a
thread object nor a join handle, and the object of any other thread is the one that was passed to
its only creation.  When everybody has come to rest, the detached threads are the application
threads that were launched, and those with a thread object are those that were launched.  No creator
finds a thread object that is bound already, and none loses the context that it launches. -/
theorem launch_handshake (reached : Run (ofRegistries n config) h w) :
    (∀ (t : ThreadId) (s : Strand σ), w.strands[t]? = some s →
        (s.handle.kind = .main → s.handle.context ≠ .detached) ∧
          (s.handle.kind = .application → s.handle.launched = true →
            s.handle.context = .attached ∧ s.launchState.HoldsOn t ∨
              s.handle.context = .detached ∧ s.launchState.HasBegun) ∧
          (.created t ∉ h → s.handle.object = none ∧ s.handle.context = .unlaunched ∧
            s.handle.launched = false) ∧
          (∀ object, s.handle.object = some object →
            CreatedWith (ofRegistries n config) h w t object) ∧
          (∀ a, s.creation ≠ some (.aborted a)) ∧
          ∀ e, s.creation = some (.done (some e)) → e = .threadAborted t.number) ∧
      (∀ (I : Interpreter σ) (c : Ctx) (task : Task σ) (g : Guard),
        w.roster.taskAt c = some task → task.mode = .detaching g →
        ∃ v handle handle', w.step I c = some v ∧ w.handle? g.thread = some handle ∧
          v.handle? g.thread = some handle' ∧
          (c = .body g.thread ∧ handle.launched = true ∧
              (handle.context = .attached ∨ handle.context = .detached) ∧
              handle' = { handle with context := .detached } ∨
            .created g.thread ∉ h ∧ handle' = handle)) ∧
      (∀ (t : ThreadId) (s : Strand σ) (h' : List Deed) (x : World σ), w.strands[t]? = some s →
        s.handle.context = .detached → Run w h' x →
        ∃ s', x.strands[t]? = some s' ∧ s'.handle.context = .detached) ∧
      (w.isQuiescent = true → ∀ (t : ThreadId) (s : Strand σ), w.strands[t]? = some s →
        (s.handle.context = .detached ↔
            s.handle.kind = .application ∧ s.handle.launched = true) ∧
          (s.handle.object.isSome = true ↔ s.handle.launched = true)) := by
  refine ⟨fun t s strand_eq => ?_, ?_, ?_, ?_⟩
  · have stage_eq := stage_of_strand strand_eq
    have fits : s.stage.Fits t := reached.fits stage_eq
    have keepsHandle := reached.keepsHandle strand_eq
    refine ⟨fun main detached => ?_, fun application launched => ?_,
      reached.marks_of_not_created strand_eq, fun object bound => ?_, fun a creation_eq => ?_,
      fun e creation_eq => ?_⟩
    · have application : s.handle.kind = .application := fits.application_of_detached detached
      cases main.symm.trans application
    · rcases fits.context_of_application application launched with attached | detached
      · exact .inl ⟨attached, keepsHandle.holdsOn application attached⟩
      · refine .inr ⟨detached, ?_⟩
        by_contra notBegun
        have attached := keepsHandle.kept application launched notBegun
        cases detached.symm.trans attached
    · exact reached.createdWith stage_eq (.inl bound)
    · have aborted : s.stage.creation = some (.aborted a) := creation_eq
      simp only [Stage.Fits, aborted] at fits
    · have failed : s.stage.creation = some (.done (some e)) := creation_eq
      simp only [Stage.Fits, failed] at fits
      obtain ⟨_, _, _, none_eq | fault_eq⟩ := fits
      · cases none_eq
      · exact Option.some.inj fault_eq
  · intro I c task g task_eq mode_eq
    exact reached.detaching I task_eq mode_eq
  · intro t s h' x strand_eq detached run
    exact reached.detached run strand_eq detached
  · intro quiescent t s strand_eq
    exact reached.marks_of_quiescent quiescent strand_eq

/-- Parks, in the method that otherwise returns at once. -/
def parkingInterpreter : Interpreter Script.Activation :=
  Script.interpreter { methods := [promptMethod], codes := [[.park, .give none]] }

theorem isPublic_parkingInterpreter : parkingInterpreter.IsPublic := Script.isPublic_interpreter _

/-- Two threads are launched at the same time, and a third one is started by the host. -/
def twoLaunches : List (Operation Script.Activation) :=
  let I := promptInterpreter
  List.flatten
    [[.application promptMethod [.null] ⟨0, 4, .script⟩, .main promptMethod [] ⟨0, 4, .script⟩,
        .application promptMethod [.null] ⟨0, 4, .script⟩, .create 0 .null, .create 1 .null],
      List.replicate 4 (.step I (.creator 0)), List.replicate 4 (.step I (.creator 1)),
      List.replicate 3 (.step I (.body 0)), List.replicate 3 (.step parkingInterpreter (.body 0)),
      List.replicate 2 (.step I (.creator 0)), List.replicate 5 (.step I (.body 1)),
      List.replicate 2 (.step I (.creator 1)), [.start I 2], List.replicate 5 (.step I .host),
      [.takeBack]]

/-- An application thread and an entry point are launched at the same time, and another application
thread is started by the host.  When the first is parked and the entry point waits for it, the first
is the only one that is detached, and the last has no thread object although it was started. -/
theorem launch_handshake_of_two_launches :
    ∃ (h : List Deed) (w : World Script.Activation) (s₀ s₁ s₂ : Strand Script.Activation),
      Run (ofRegistries 1 ConfigCell.fresh) h w ∧ w.isQuiescent = true ∧
        w.strands[0]? = some s₀ ∧ w.strands[1]? = some s₁ ∧ w.strands[2]? = some s₂ ∧
        s₀.handle.kind = .application ∧ s₁.handle.kind = .main ∧
        s₂.handle.kind = .application ∧ .started 2 ∈ h ∧
        s₀.handle.context = .detached ∧ s₁.handle.context ≠ .detached ∧
        s₂.handle.context = .unlaunched ∧ s₂.handle.object = none ∧
        (∃ object, s₀.handle.object = some object ∧
          CreatedWith (ofRegistries 1 ConfigCell.fresh) h w 0 object) ∧
        ∃ object, s₁.handle.object = some object ∧
          CreatedWith (ofRegistries 1 ConfigCell.fresh) h w 1 object := by
  have isPublic : ∀ op ∈ twoLaunches, op.IsPublic := by
    simp [twoLaunches, Operation.IsPublic, isPublic_promptInterpreter, isPublic_parkingInterpreter]
  have reaches : (performAll (ofRegistries 1 ConfigCell.fresh) twoLaunches).map
      (fun done => (done.1, done.2.isQuiescent,
        done.2.strands.map fun s => (s.handle.kind, s.handle.launched))) =
      some ([.built .application 0, .built .main 0, .built .application 0, .created 0, .created 1,
          .enlisted 0 0, .started 0, .started 1, .started 2, .retired 0 2],
        true, [(.application, true), (.main, true), (.application, false)]) := rfl
  obtain ⟨h, w, reached, seen⟩ := exists_run_of_performAll isPublic reaches
  simp only [Prod.mk.injEq] at seen
  obtain ⟨deeds, quiescent, kinds⟩ := seen
  have started : .started 2 ∈ h := by simp [deeds]
  have never : .created 2 ∉ h := by simp [deeds]
  have strand (t : ThreadId) : (w.strands[t]?).map (fun s => (s.handle.kind, s.handle.launched)) =
      [(.application, true), (.main, true), (.application, false)][t]? := by
    rw [← List.getElem?_map, kinds]
  obtain ⟨s₀, strand_eq₀, seen₀⟩ := Option.map_eq_some_iff.mp (strand 0)
  obtain ⟨s₁, strand_eq₁, seen₁⟩ := Option.map_eq_some_iff.mp (strand 1)
  obtain ⟨s₂, strand_eq₂, seen₂⟩ := Option.map_eq_some_iff.mp (strand 2)
  simp only [Prod.mk.injEq] at seen₀ seen₁ seen₂
  obtain ⟨application₀, launched₀⟩ := seen₀
  obtain ⟨main, launched₁⟩ := seen₁
  obtain ⟨application₂, _⟩ := seen₂
  obtain ⟨marks, _, _, rests⟩ := launch_handshake reached
  obtain ⟨_, _, _, created₀, _⟩ := marks 0 s₀ strand_eq₀
  obtain ⟨undetached, _, _, created₁, _⟩ := marks 1 s₁ strand_eq₁
  obtain ⟨_, _, unmarked, _⟩ := marks 2 s₂ strand_eq₂
  obtain ⟨unbound, unlaunched, _⟩ := unmarked never
  obtain ⟨detached, bound₀⟩ := rests quiescent 0 s₀ strand_eq₀
  obtain ⟨_, bound₁⟩ := rests quiescent 1 s₁ strand_eq₁
  obtain ⟨object₀, object_eq₀⟩ := Option.isSome_iff_exists.mp (bound₀.2 launched₀)
  obtain ⟨object₁, object_eq₁⟩ := Option.isSome_iff_exists.mp (bound₁.2 launched₁)
  exact ⟨h, w, s₀, s₁, s₂, reached, quiescent, strand_eq₀, strand_eq₁, strand_eq₂, application₀,
    main, application₂, started, detached.2 ⟨application₀, launched₀⟩, undetached main, unlaunched,
    unbound, ⟨object₀, object_eq₀, created₀ object₀ object_eq₀⟩,
    ⟨object₁, object_eq₁, created₁ object₁ object_eq₁⟩⟩

end World

end ThreadEngine
