import ThreadEngine.Proofs.Holders

set_option autoImplicit false

/-!
# The order of a launch

A creator and the execution context that it launches go through their steps in a fixed order,
whatever happens in between: `LaunchState.InOrder` lists the stages, and `Run.launching` says that
every strand is in one of them after every run.  In particular a thread is created at most once, its
context is set up once, and it is its own thread that it records and starts.
-/

namespace ThreadEngine

/-- An execution context that has not started the body of its thread yet. -/
def Child.IsEarly {σ : Type} (t : ThreadId) : Child σ → Prop
  | .idle thread | .reporting thread => thread.id = t
  | .recording thread => thread.id = t ∧ thread.kind = .application
  | .running _ | .ended _ => False

/-- An execution context that has started the body of its thread. -/
def Child.HasBegun {σ : Type} : Child σ → Prop
  | .running _ | .ended _ => True
  | .idle _ | .recording _ | .reporting _ => False

/-- The stages of the launch of a thread, by how far its creator has come. -/
def LaunchState.InOrder {σ : Type} (t : ThreadId) (s : LaunchState σ) : Prop :=
  match s.creation with
  | none | some (.aborted _) => s.child = none ∧ s.launchSent = false ∧ s.readySent = false
  | some (.binding thread _) | some (.spawning thread) =>
    thread.id = t ∧ s.child = none ∧ s.launchSent = false ∧ s.readySent = false
  | some .attaching | some .launching =>
    (∃ thread, s.child = some (.idle thread) ∧ thread.id = t) ∧
      s.launchSent = false ∧ s.readySent = false
  | some .awaitingReady =>
    ∃ child, s.child = some child ∧
      (child.IsEarly t ∧ s.readySent = false ∨ child.HasBegun ∧ s.readySent = true)
  | some .hooking | some .joining | some (.done _) =>
    ∃ child, s.child = some child ∧ child.HasBegun ∧ s.readySent = true

theorem Child.hasBegun_ofTask {σ : Type} (task : Task σ) : (Child.ofTask task).HasBegun := by
  unfold Child.ofTask
  split <;> trivial

/-! ## What happens at one strand -/

namespace LaunchState

variable {σ : Type}

/-- How a launch state can be changed, wherever the change comes from. -/
inductive Next (u : World σ) (t : ThreadId) (s : LaunchState σ)
    (d : Option Deed) : LaunchState σ → Prop
  | same (creates : d ≠ some (.created t)) (held : Option Thread) :
      Next u t s d { s with held := held }
  | created {slot : ThreadId} {thread : Thread} {object : Value} {held : Option Thread}
      {child : Option (Child σ)} (held_eq : u.held? slot = some thread) (own : thread.id = t)
      (deed_eq : d = some (.created t))
      (child_eq : child = s.child ∨ ∃ task, s.child = some (.running task)) :
      Next u t s d
        { s with held := held, creation := some (.binding thread object), child := child }
  | step {s' : LaunchState σ} (step : s.Step d s') : Next u t s d s'
  | begun {I : Interpreter σ} {thread : Thread} (child_eq : s.child = some (.reporting thread))
      (deed_eq : d = some (.started thread.id)) :
      Next u t s d
        { s with readySent := true, child := some (.running (Task.start I thread []).1) }
  | ran {task task' : Task σ} {held : Option Thread} (creates : d ≠ some (.created t))
      (child_eq : s.child = some (.running task)) :
      Next u t s d { s with held := held, child := some (Child.ofTask task') }

end LaunchState

namespace Roster

variable {σ : Type}

theorem launch_of_modify {ro : Roster σ} {t j : ThreadId} {f : LaunchState σ → LaunchState σ}
    {s' : LaunchState σ}
    (launch_eq : (ro.modify t f).launches[j]? = some s') :
    (∃ s, j = t ∧ ro.launches[t]? = some s ∧ s' = f s) ∨ (j ≠ t ∧ ro.launches[j]? = some s') := by
  by_cases same : t = j
  · subst same
    left
    rw [modify, List.getElem?_modify_eq] at launch_eq
    obtain ⟨s, was, rfl⟩ := Option.map_eq_some_iff.mp launch_eq
    exact ⟨s, rfl, was, rfl⟩
  · refine .inr ⟨fun eq => same eq.symm, ?_⟩
    rw [modify, List.getElem?_modify_ne _ _ same] at launch_eq
    exact launch_eq

/-- Where a creation has begun, or a held thread is gone. -/
theorem launch_of_create {ro : Roster σ} {slot j : ThreadId} {thread : Thread} {object : Value}
    {s' : LaunchState σ} (launch_eq : (ro.create slot thread object).launches[j]? = some s') :
    ∃ s held, ro.launches[j]? = some s ∧
      (j = thread.id ∧ s' = { s with held := held, creation := some (.binding thread object) } ∨
        j ≠ thread.id ∧ s' = { s with held := held }) := by
  have cleared {s₁ : LaunchState σ}
      (launch_eq₁ : (ro.modify slot ({ · with held := none })).launches[j]? = some s₁) :
      ∃ s held, ro.launches[j]? = some s ∧ s₁ = { s with held := held } := by
    obtain ⟨s, rfl, was, rfl⟩ | ⟨_, was⟩ := launch_of_modify launch_eq₁
    · exact ⟨s, none, was, rfl⟩
    · exact ⟨s₁, s₁.held, was, rfl⟩
  obtain ⟨s₁, rfl, launch_eq₁, rfl⟩ | ⟨other, launch_eq₁⟩ := launch_of_modify launch_eq
  · obtain ⟨s, held, was, rfl⟩ := cleared launch_eq₁
    exact ⟨s, held, was, .inl ⟨rfl, rfl⟩⟩
  · obtain ⟨s, held, was, rfl⟩ := cleared launch_eq₁
    exact ⟨s, held, was, .inr ⟨other, rfl⟩⟩

/-- Where a task has been put back. -/
theorem launch_of_put {ro : Roster σ} {c : Ctx} {task task' : Task σ} {j : ThreadId}
    {s' : LaunchState σ}
    (task_eq : ro.taskAt c = some task) (launch_eq : (ro.put c task').launches[j]? = some s') :
    (∃ s, c = .body j ∧ ro.launches[j]? = some s ∧ s.child = some (.running task) ∧
        s' = { s with child := some (Child.ofTask task') }) ∨
      ro.launches[j]? = some s' := by
  cases c with
  | creator t => cases task_eq
  | host =>
      right
      simp only [put] at launch_eq
      split at launch_eq <;> exact launch_eq
  | body t =>
      obtain ⟨s, rfl, was, rfl⟩ | ⟨_, was⟩ := launch_of_modify launch_eq
      · left
        obtain ⟨s₁, was₁, child_eq⟩ := launch_of_taskAt task_eq
        obtain rfl : s = s₁ := Option.some.inj (was.symm.trans was₁)
        exact ⟨s, rfl, was, child_eq, rfl⟩
      · exact .inr was

end Roster

namespace World

variable {σ : Type}

/-- What a step of a task does to a launch state, apart from the task itself. -/
theorem TaskStep.launchState {u : World σ} {c : Ctx} {task task' : Task σ} {d : Option Deed}
    {ro : Roster σ} {t : ThreadId} {s' : LaunchState σ} (step : u.TaskStep c task d ro task')
    (launch_eq : ro.launches[t]? = some s') :
    ∃ s held, u.roster.launches[t]? = some s ∧
      (d ≠ some (.created t) ∧ s' = { s with held := held } ∨
        ∃ slot thread object, u.held? slot = some thread ∧ thread.id = t ∧
          d = some (.created t) ∧
          s' = { s with held := held, creation := some (.binding thread object) }) := by
  cases step with
  | advanced isPublic advances =>
      refine ⟨s', s'.held, launch_eq, .inl ⟨?_, rfl⟩⟩
      rcases taskDeed?_of_advance u advances with none_eq | started_eq
      · rw [none_eq]
        simp
      · rw [started_eq]
        simp
  | answered asks served keeps stays =>
      refine ⟨s', s'.held, launch_eq, .inl ⟨?_, rfl⟩⟩
      intro deed_eq
      cases stays _ deed_eq
  | replaced asks =>
      obtain ⟨s, rfl, was, rfl⟩ | ⟨_, was⟩ := Roster.launch_of_modify launch_eq
      · exact ⟨s, none, was, .inl ⟨by simp, rfl⟩⟩
      · exact ⟨s', s'.held, was, .inl ⟨by simp, rfl⟩⟩
  | deferred isPublic => exact ⟨s', s'.held, launch_eq, .inl ⟨by simp, rfl⟩⟩
  | @launches slot object thread held_eq =>
      obtain ⟨s, held, was, ⟨rfl, rfl⟩ | ⟨other, rfl⟩⟩ := Roster.launch_of_create launch_eq
      · exact ⟨s, held, was, .inr ⟨slot, thread, object, held_eq, rfl, rfl, rfl⟩⟩
      · refine ⟨s, held, was, .inl ⟨?_, rfl⟩⟩
        intro deed_eq
        exact other (Deed.created.inj (Option.some.inj deed_eq)).symm

/-- A launch state after an operation is that of a thread just built, or follows from what it
was. -/
theorem Shift.launch_next {u : World σ} {who : Ctx} {d : Option Deed} {ro : Roster σ}
    {t : ThreadId} {s' : LaunchState σ} (shift : Shift u who d ro)
    (launch_eq : ro.launches[t]? = some s') :
    (∃ thread kind home, t = u.roster.launches.length ∧ d = some (.built kind home) ∧
        s' = ⟨some thread, none, false, false, none⟩) ∨
      ∃ s, u.roster.launches[t]? = some s ∧ s.Next u t d s' := by
  cases shift with
  | rest stays retires admits =>
      refine .inr ⟨s', launch_eq, .same ?_ s'.held⟩
      intro deed_eq
      cases stays _ deed_eq
  | @built _ kind home thread pass_eq home_lt =>
      rcases Nat.lt_trichotomy t u.roster.launches.length with old | new | beyond
      · rw [List.getElem?_append_left old] at launch_eq
        exact .inr ⟨s', launch_eq, .same (by simp) s'.held⟩
      · subst new
        refine .inl ⟨thread, kind, home, rfl, rfl, ?_⟩
        simpa using launch_eq.symm
      · rw [List.getElem?_append_right (Nat.le_of_lt beyond), List.getElem?_singleton] at launch_eq
        split at launch_eq
        · omega
        · cases launch_eq
  | @launchStep _ t' s₁ s₁' _ launch_eq₁ step =>
      right
      obtain ⟨s, rfl, was, rfl⟩ | ⟨_, was⟩ := Roster.launch_of_modify launch_eq
      · obtain rfl : s = s₁ := Option.some.inj (was.symm.trans launch_eq₁)
        exact ⟨s, was, .step step⟩
      · refine ⟨s', was, .same ?_ s'.held⟩
        rcases step.deed with rfl | ⟨r, t₁, rfl⟩ <;> simp
  | begun launch_eq₁ child_eq =>
      right
      obtain ⟨s, rfl, was, rfl⟩ | ⟨_, was⟩ := Roster.launch_of_modify launch_eq
      · obtain rfl := Option.some.inj (was.symm.trans launch_eq₁)
        exact ⟨s, was, .begun child_eq rfl⟩
      · exact ⟨s', was, .same (by simp) s'.held⟩
  | waits before after => exact .inr ⟨s', launch_eq, .same (by simp) s'.held⟩
  | called idle held_eq | started idle held_eq | takenBack host_eq finished =>
      right
      obtain ⟨s, rfl, was, rfl⟩ | ⟨_, was⟩ := Roster.launch_of_modify launch_eq
      · exact ⟨s, was, .same (by simp) _⟩
      · exact ⟨s', was, .same (by simp) s'.held⟩
  | created held_eq =>
      right
      obtain ⟨s, held, was, ⟨rfl, rfl⟩ | ⟨other, rfl⟩⟩ := Roster.launch_of_create launch_eq
      · exact ⟨s, was, .created held_eq rfl rfl (.inl rfl)⟩
      · refine ⟨s, was, .same ?_ held⟩
        intro deed_eq
        exact other (Deed.created.inj (Option.some.inj deed_eq)).symm
  | @stepped _ task task' _ ro' task_eq step =>
      right
      have task_eq' : ro'.taskAt who = some task := by rw [step.taskAt_eq, task_eq]
      obtain ⟨s₁, rfl, was₁, child_eq, rfl⟩ | was₁ := Roster.launch_of_put task_eq' launch_eq
      · obtain ⟨s, held, was,
            ⟨creates, rfl⟩ | ⟨slot, thread, object, held_eq, own, deed_eq, rfl⟩⟩ :=
          step.launchState was₁
        · exact ⟨s, was, .ran creates child_eq⟩
        · exact ⟨s, was, .created held_eq own deed_eq (.inr ⟨task, child_eq⟩)⟩
      · obtain ⟨s, held, was,
            ⟨creates, rfl⟩ | ⟨slot, thread, object, held_eq, own, deed_eq, rfl⟩⟩ :=
          step.launchState was₁
        · exact ⟨s, was, .same creates held⟩
        · exact ⟨s, was, .created held_eq own deed_eq (.inl rfl)⟩

end World

/-! ## Stage after stage -/

namespace LaunchState

variable {σ : Type} {t : ThreadId} {s s' : LaunchState σ} {d : Option Deed}

/-- A context that goes on, and has not started the body, goes on while its creator waits for it to
report. -/
theorem InOrder.early (order : s.InOrder t) {child : Child σ} (child_eq : s.child = some child)
    (notBegun : ¬ child.HasBegun)
    (goes : s.launchSent = true ∨ ∀ thread, child ≠ .idle thread) :
    s.creation = some .awaitingReady ∧ child.IsEarly t ∧ s.readySent = false := by
  have notWaiting : ¬ ((∃ thread, s.child = some (.idle thread) ∧ thread.id = t) ∧
      s.launchSent = false ∧ s.readySent = false) := by
    rintro ⟨⟨thread, idle_eq, _⟩, silent, _⟩
    cases child_eq.symm.trans idle_eq
    rcases goes with sent | notIdle
    · cases silent.symm.trans sent
    · exact notIdle thread rfl
  have notLate : ¬ ∃ child, s.child = some child ∧ child.HasBegun ∧ s.readySent = true := by
    rintro ⟨child', late_eq, hasBegun, _⟩
    cases child_eq.symm.trans late_eq
    exact notBegun hasBegun
  unfold InOrder at order
  split at order
  · cases child_eq.symm.trans order.1
  · cases child_eq.symm.trans order.1
  · cases child_eq.symm.trans order.2.1
  · cases child_eq.symm.trans order.2.1
  · exact absurd order notWaiting
  · exact absurd order notWaiting
  · rename_i creation_eq
    obtain ⟨child', told_eq, ⟨isEarly, unready⟩ | ⟨hasBegun, _⟩⟩ := order
    · cases child_eq.symm.trans told_eq
      exact ⟨creation_eq, isEarly, unready⟩
    · cases child_eq.symm.trans told_eq
      exact absurd hasBegun notBegun
  · exact absurd order notLate
  · exact absurd order notLate
  · exact absurd order notLate

/-- A context that has started the body may be at any point of it. -/
theorem InOrder.of_hasBegun (order : s.InOrder t) {child child' : Child σ}
    (child_eq : s.child = some child) (hasBegun : child.HasBegun) (hasBegun' : child'.HasBegun)
    (held : Option Thread) :
    ({ s with held := held, child := some child' } : LaunchState σ).InOrder t := by
  unfold InOrder at order ⊢
  split at order
  all_goals rename_i creation_eq
  all_goals simp only [creation_eq]
  · cases child_eq.symm.trans order.1
  · cases child_eq.symm.trans order.1
  · cases child_eq.symm.trans order.2.1
  · cases child_eq.symm.trans order.2.1
  · obtain ⟨⟨thread, idle_eq, _⟩, _⟩ := order
    cases child_eq.symm.trans idle_eq
    cases hasBegun
  · obtain ⟨⟨thread, idle_eq, _⟩, _⟩ := order
    cases child_eq.symm.trans idle_eq
    cases hasBegun
  · obtain ⟨old, told_eq, ⟨isEarly, _⟩ | ⟨_, ready⟩⟩ := order
    · cases child_eq.symm.trans told_eq
      cases child with
      | running _ | ended _ => cases isEarly
      | idle _ | recording _ | reporting _ => cases hasBegun
    · exact ⟨child', rfl, .inr ⟨hasBegun', ready⟩⟩
  all_goals
    obtain ⟨_, _, _, ready⟩ := order
    exact ⟨child', rfl, hasBegun', ready⟩

/-- An execution context does not end before it has reported. -/
theorem InOrder.not_abandoned (order : s.InOrder t)
    (creation_eq : s.creation = some .launching ∨
      s.creation = some .awaitingReady ∧ s.readySent = false) (a : Option Abort) :
    s.child ≠ some (.ended a) := by
  intro ended_eq
  rcases creation_eq with creation_eq | ⟨creation_eq, unready⟩
  · simp only [InOrder, creation_eq] at order
    obtain ⟨⟨thread, idle_eq, _⟩, _⟩ := order
    cases ended_eq.symm.trans idle_eq
  · simp only [InOrder, creation_eq] at order
    obtain ⟨child, child_eq, ⟨isEarly, _⟩ | ⟨_, ready⟩⟩ := order
    · cases ended_eq.symm.trans child_eq
      cases isEarly
    · cases unready.symm.trans ready

/-- A creator is not gone before it has given the word to go. -/
theorem InOrder.not_deserted (order : s.InOrder t)
    (gone : s.creation.any Creation.isOver = true) (thread : Thread) :
    s.child ≠ some (.idle thread) := by
  intro idle_eq
  obtain ⟨c, creation_eq, isOver⟩ := (Option.any_eq_true _ _).mp gone
  cases c with
  | done fault =>
      simp only [InOrder, creation_eq] at order
      obtain ⟨child, child_eq, hasBegun, _⟩ := order
      cases idle_eq.symm.trans child_eq
      cases hasBegun
  | aborted a =>
      simp only [InOrder, creation_eq] at order
      cases idle_eq.symm.trans order.1
  | _ => cases isOver

/-- What happens at a strand by itself leads from stage to stage. -/
theorem InOrder.step (order : s.InOrder t) (step : s.Step d s') : s'.InOrder t := by
  cases step with
  | dropped | edited _ _ => exact order
  | bound creation_eq =>
      simp only [InOrder, creation_eq] at order
      exact order
  | spawned creation_eq =>
      simp only [InOrder, creation_eq] at order
      obtain ⟨own, _, silent, unready⟩ := order
      exact ⟨⟨_, rfl, own⟩, silent, unready⟩
  | attached creation_eq =>
      simp only [InOrder, creation_eq] at order
      exact order
  | told creation_eq =>
      simp only [InOrder, creation_eq] at order
      obtain ⟨⟨thread, idle_eq, own⟩, _, unready⟩ := order
      exact ⟨.idle thread, idle_eq, .inl ⟨own, unready⟩⟩
  | heard creation_eq ready =>
      simp only [InOrder, creation_eq] at order
      obtain ⟨child, child_eq, ⟨_, unready⟩ | ⟨hasBegun, _⟩⟩ := order
      · cases ready.symm.trans unready
      · exact ⟨child, child_eq, hasBegun, ready⟩
  | hooked creation_eq next =>
      simp only [InOrder, creation_eq] at order
      rcases next with rfl | rfl
      · exact order
      · exact order
  | joined creation_eq _ =>
      simp only [InOrder, creation_eq] at order
      exact order
  | refused creation_eq =>
      simp only [InOrder, creation_eq] at order
      exact order.2
  | abandoned creation_eq ended_eq => exact absurd ended_eq (order.not_abandoned creation_eq _)
  | deserted idle_eq _ gone => exact absurd idle_eq (order.not_deserted gone _)
  | @woken thread idle_eq sent =>
      obtain ⟨creation_eq, own, unready⟩ := order.early idle_eq id (.inl sent)
      simp only [InOrder, creation_eq]
      refine ⟨_, rfl, .inl ⟨?_, unready⟩⟩
      cases kind_eq : thread.kind with
      | application => exact ⟨own, kind_eq⟩
      | main => exact own
  | enlisted recording_eq =>
      obtain ⟨creation_eq, ⟨own, _⟩, unready⟩ := order.early recording_eq id (.inr (by simp))
      simp only [InOrder, creation_eq]
      exact ⟨_, rfl, .inl ⟨own, unready⟩⟩

/-- Whatever happens at a strand leads from stage to stage, unless a thread is created again. -/
theorem InOrder.next {u : World σ} (order : s.InOrder t) (next : s.Next u t d s')
    (fresh : d = some (.created t) → s.creation = none) : s'.InOrder t := by
  cases next with
  | same _ held => exact order
  | @created slot thread object held child held_eq own deed_eq child_eq =>
      simp only [InOrder, fresh deed_eq] at order
      obtain ⟨none_eq, silent, unready⟩ := order
      refine ⟨own, ?_, silent, unready⟩
      rcases child_eq with rfl | ⟨task, running_eq⟩
      · exact none_eq
      · cases none_eq.symm.trans running_eq
  | step step => exact order.step step
  | begun child_eq deed_eq =>
      obtain ⟨creation_eq, _, _⟩ := order.early child_eq id (.inr (by simp))
      simp only [InOrder, creation_eq]
      exact ⟨_, rfl, .inr ⟨trivial, trivial⟩⟩
  | ran _ child_eq => exact order.of_hasBegun child_eq trivial (Child.hasBegun_ofTask _) _

/-- A creation that is under way has begun, then or before. -/
theorem Next.creation {u : World σ} (next : s.Next u t d s') (under : s'.creation ≠ none) :
    s.creation ≠ none ∨ d = some (.created t) := by
  cases next with
  | same _ held => exact .inl under
  | created _ _ deed_eq _ => exact .inr deed_eq
  | begun _ _ => exact .inl under
  | ran _ _ => exact .inl under
  | step step =>
      left
      cases step with
      | dropped | edited _ _ | woken _ _ | enlisted _ | deserted _ _ _ => exact under
      | bound creation_eq | spawned creation_eq | attached creation_eq | told creation_eq
      | heard creation_eq _ | hooked creation_eq _ | joined creation_eq _
      | refused creation_eq => simp [creation_eq]
      | abandoned creation_eq _ =>
          rcases creation_eq with creation_eq | ⟨creation_eq, _⟩
          · simp [creation_eq]
          · simp [creation_eq]

end LaunchState

namespace World

variable {σ : Type}

/-- All launches are in order, and of threads whose creation is on record. -/
structure Launching (h : List Deed) (w : World σ) : Prop where
  inOrder : ∀ t, ∀ s : LaunchState σ, w.roster.launches[t]? = some s → s.InOrder t
  recorded : ∀ t, ∀ s : LaunchState σ, w.roster.launches[t]? = some s → s.creation ≠ none →
    .created t ∈ h

/-- A thread that is held has not been created. -/
theorem Orderly.not_created_of_held {u : World σ} {h : List Deed} (orderly : Orderly h u)
    {slot : ThreadId} {thread : Thread} (held_eq : u.held? slot = some thread) :
    .created thread.id ∉ h := by
  intro was
  have member : thread.pass ∈ u.roster.passesAt (.strand slot .held) := by
    rw [passesAt_of_held held_eq]
    exact List.mem_singleton.mpr rfl
  rcases orderly.settled _ _ member was with at_creator | at_body
  · cases at_creator
  · cases at_body

/-- A thread is created where no creation has begun. -/
theorem creation_fresh {u : World σ} {h : List Deed} {t : ThreadId} {s s' : LaunchState σ}
    {d : Option Deed} (orderly : Orderly h u) (launching : Launching h u)
    (was : u.roster.launches[t]? = some s) (next : s.Next u t d s')
    (deed_eq : d = some (.created t)) : s.creation = none := by
  by_contra under
  have before := launching.recorded t s was under
  cases next with
  | created held_eq own _ _ => exact orderly.not_created_of_held held_eq (own ▸ before)
  | same creates _ => exact creates deed_eq
  | ran creates _ => exact creates deed_eq
  | begun _ started_eq => cases started_eq.symm.trans deed_eq
  | step step =>
      rcases step.deed with none_eq | ⟨r, t', enlisted_eq⟩
      · cases none_eq.symm.trans deed_eq
      · cases enlisted_eq.symm.trans deed_eq

/-- Every operation leads from stage to stage, at every strand, unless a thread is created again. -/
theorem launching_perform {u v : World σ} {op : Operation σ} {h : List Deed}
    (isPublic : op.IsPublic) (done : u.perform op = some v)
    (fresh : ∀ t, ∀ s s' : LaunchState σ, u.roster.launches[t]? = some s →
      s.Next u t (u.deed? op) s' → u.deed? op = some (.created t) → s.creation = none)
    (launching : Launching h u) : Launching (h ++ (u.deed? op).toList) v := by
  have shift := shift_perform isPublic done
  refine ⟨?_, ?_⟩
  · intro t s' launch_eq
    obtain ⟨thread, kind, home, _, _, rfl⟩ | ⟨s, was, next⟩ := shift.launch_next launch_eq
    · exact ⟨rfl, rfl, rfl⟩
    · exact (launching.inOrder t s was).next next (fresh t s s' was next)
  · intro t s' launch_eq under
    rw [List.mem_append, Option.mem_toList]
    obtain ⟨thread, kind, home, _, _, rfl⟩ | ⟨s, was, next⟩ := shift.launch_next launch_eq
    · exact absurd rfl under
    · rcases next.creation under with before | now
      · exact .inl (launching.recorded t s was before)
      · exact .inr now

/-- All launches are in order after every run from a world without threads. -/
theorem Run.launching {n : Nat} {config : ConfigCell} {h : List Deed} {w : World σ}
    (run : Run (ofRegistries n config) h w) : Launching h w := by
  induction run with
  | refl =>
      refine ⟨?_, ?_⟩
      · intro t s launch_eq
        cases launch_eq
      · intro t s launch_eq
        cases launch_eq
  | snoc op run isPublic done ih =>
      exact launching_perform isPublic done (fun _ _ _ => creation_fresh run.orderly ih) ih

end World

end ThreadEngine
