import ThreadEngine.Proofs.Outliving

set_option autoImplicit false

/-!
# Waiting for the application threads

Everything that happens at a registry happens in a visit, which nothing can interrupt.  A wait looks
at the count.  If it is zero, the wait is over; otherwise the visitor falls asleep in the same
visit, and stays asleep until the retirement that brings the count to zero wakes everybody, or
until it is woken for no reason, or until its time is up.  Whoever was woken looks again, and may
find that threads have been recorded in the meantime.

`Visited` is what any number of visitors can make of a registry.  Nobody is asleep there while the
count is zero (`Visited.attentive`), and the registries of a world are such registries
(`Run.visited`), so nobody in a world sleeps for good after the last thread has gone.
-/

namespace ThreadEngine

namespace Registry

/-! ## Visits -/

/-- What can happen at a registry. -/
inductive Visit where
  | add (t : ThreadId)
  | retire (t : ThreadId)
  /-- a wait begins, or somebody who was woken goes on with it -/
  | look (c : Ctx)
  /-- a waiter is woken for no reason -/
  | rouse (c : Ctx)
  /-- the time of a wait is up -/
  | expire (c : Ctx)
  deriving DecidableEq, Repr, Inhabited

/-- The registry after a visit, and what a wait returns that is over by it; `none` if the visitor is
asleep. -/
def visit (reg : Registry) : Visit → Option (Registry × Option Bool)
  | .add t => some (reg.add t, none)
  | .retire t => some ((reg.remove t).1, none)
  | .look c =>
    if c ∈ reg.waiters then none
    else if reg.appThreads = 0 then some (reg, some true)
    else some (reg.enqueue c, none)
  | .rouse c => some (reg.dequeue c, none)
  | .expire c => some (reg.dequeue c, some (reg.appThreads == 0))

/-- A registry that any number of visits has led to. -/
inductive Visited : Registry → Prop
  | empty : Visited Registry.empty
  | visit {reg reg' : Registry} {x : Visit} {returned : Option Bool} (before : Visited reg)
      (done : reg.visit x = some (reg', returned)) : Visited reg'

/-- Nobody is asleep while the count is zero. -/
def Attentive (reg : Registry) : Prop := reg.appThreads = 0 → reg.waiters = []

theorem Attentive.remove {reg : Registry} (h : reg.Attentive) (t : ThreadId) :
    (reg.remove t).1.Attentive := by
  unfold Registry.remove
  split
  · dsimp only
    split
    · exact h
    · intro zero
      exact if_pos zero
  · exact h

theorem Attentive.dequeue {reg : Registry} (h : reg.Attentive) (c : Ctx) :
    (reg.dequeue c).Attentive := by
  intro zero
  have nobody : reg.waiters = [] := h zero
  simp [Registry.dequeue, nobody]

/-- What one visit preserves: nobody falls asleep while the count is zero, and whoever brings it to
zero wakes everybody. -/
theorem Attentive.visit {reg reg' : Registry} {x : Visit} {returned : Option Bool}
    (h : reg.Attentive) (done : reg.visit x = some (reg', returned)) : reg'.Attentive := by
  cases x with
  | add t =>
      cases done
      exact fun zero => absurd zero (Nat.succ_ne_zero _)
  | retire t =>
      cases done
      exact h.remove t
  | look c =>
      simp only [Registry.visit] at done
      split at done
      · cases done
      · split at done
        · cases done
          exact h
        · rename_i counted
          cases done
          exact fun zero => absurd zero counted
  | rouse c =>
      cases done
      exact h.dequeue c
  | expire c =>
      cases done
      exact h.dequeue c

/-- What any number of visits preserves. -/
theorem Visited.attentive {reg : Registry} (h : reg.Visited) : reg.Attentive := by
  induction h with
  | empty => exact fun _ => rfl
  | visit before done ih => exact ih.visit done

/-- With the count at zero, whoever looks is done. -/
theorem Visited.look_of_zero {reg : Registry} (h : reg.Visited) (zero : reg.appThreads = 0)
    (c : Ctx) : reg.visit (.look c) = some (reg, some true) := by
  have awake : c ∉ reg.waiters := by
    rw [h.attentive zero]
    exact List.not_mem_nil
  simp [Registry.visit, awake, zero]

/-- A wait that is over by a visit returns whether the count is zero, and it is over without its
time being up only if the count is zero. -/
theorem returned_of_visit {reg reg' : Registry} {x : Visit} {b : Bool}
    (done : reg.visit x = some (reg', some b)) :
    (b = true ↔ reg.appThreads = 0) ∧ reg'.appThreads = reg.appThreads ∧
      (∀ c, x = .look c → b = true) := by
  cases x with
  | look c =>
      simp only [Registry.visit] at done
      split at done
      · cases done
      · split at done
        · rename_i zero
          cases done
          exact ⟨by simp [zero], rfl, fun _ _ => rfl⟩
        · cases done
  | expire c =>
      cases done
      exact ⟨beq_iff_eq, rfl, nofun⟩
  | add t | retire t | rouse c => cases done

end Registry

namespace World

variable {σ : Type}

/-! ## Waits in a world -/

/-- A wait in a world is a look at the registry. -/
theorem serveAwait_eq {u : World σ} {r : RegistryId} {reg : Registry} (c : Ctx)
    (reg_eq : u.registries[r]? = some reg) :
    u.serveAwait c r =
      match reg.visit (.look c) with
      | none => .blocked
      | some (_, some _) => .answered .done u
      | some (reg', none) =>
        .deferred (.awaitApplications r) (u.modifyRegistry r fun _ => reg') := by
  simp only [serveAwait, reg_eq, Registry.visit]
  split
  · rfl
  · split
    · rfl
    · have same : u.registries.modify r (·.enqueue c) =
          u.registries.modify r fun _ => reg.enqueue c := by
        apply List.ext_getElem?
        intro j
        by_cases at_r : r = j
        · subst at_r
          simp [reg_eq]
        · simp [at_r]
      simp only [modifyRegistry, same]

/-! ## Registries of a world -/

/-- Every registry was there before, and at most one visit has been paid to it, or it is new. -/
def Visits (u v : World σ) : Prop :=
  ∀ (r : RegistryId) (reg' : Registry), v.registries[r]? = some reg' →
    reg' = Registry.empty ∨
      ∃ reg, u.registries[r]? = some reg ∧
        (reg' = reg ∨ ∃ x returned, reg.visit x = some (reg', returned))

theorem Visits.of_eq {u v : World σ} (same : v.registries = u.registries) : u.Visits v := by
  intro r reg' reg_eq
  rw [same] at reg_eq
  exact .inr ⟨reg', reg_eq, .inl rfl⟩

theorem Visits.of_modify {u v : World σ} {r : RegistryId} {f : Registry → Registry}
    (changed : v.registries = u.registries.modify r f)
    (visits : ∀ reg, u.registries[r]? = some reg →
      f reg = reg ∨ ∃ x returned, reg.visit x = some (f reg, returned)) : u.Visits v := by
  intro j reg' reg_eq
  rw [changed, List.getElem?_modify] at reg_eq
  obtain ⟨reg, before, rfl⟩ := Option.map_eq_some_iff.mp reg_eq
  refine .inr ⟨reg, before, ?_⟩
  by_cases at_r : r = j
  · subst at_r
    simpa using visits reg before
  · simp [at_r]

theorem visits_add (u : World σ) (c : Ctx) (r : RegistryId) (t : ThreadId) :
    u.Visits (u.add c r t) := by
  unfold add
  split
  · exact .of_eq rfl
  · refine Visits.of_modify (r := r) (f := (·.add t)) rfl ?_
    intro reg _
    exact .inr ⟨.add t, none, rfl⟩

theorem visits_retire (u : World σ) (c : Ctx) (r : RegistryId) (t : ThreadId) :
    u.Visits (u.retire c r t).2 := by
  cases retires : u.retirement? r t with
  | none =>
      refine .of_eq ?_
      cases state_eq : u.state? t with
      | none => simp only [retire, state_eq]
      | some state =>
          cases reg_eq : u.registries[r]? with
          | none => simp only [retire, state_eq, reg_eq]
          | some reg =>
              simp only [retirement?, state_eq, reg_eq] at retires
              split at retires
              · rename_i terminal
                simp only [retire, state_eq, reg_eq, terminal, if_true]
              · cases retires
  | some d =>
      obtain ⟨reg, reg_eq, removed⟩ := registries_retire c retires
      refine Visits.of_modify removed ?_
      intro reg₁ before
      cases reg_eq.symm.trans before
      exact .inr ⟨.retire t, none, rfl⟩

theorem visits_serveAwait {u w : World σ} {c : Ctx} {r : RegistryId}
    (h : (u.serveAwait c r).world? = some w) : u.Visits w := by
  cases reg_eq : u.registries[r]? with
  | none =>
      simp only [serveAwait, reg_eq] at h
      cases h
      exact .of_eq rfl
  | some reg =>
      rw [serveAwait_eq c reg_eq] at h
      split at h
      · cases h
      · cases h
        exact .of_eq rfl
      · rename_i reg' looked
        cases h
        refine Visits.of_modify (r := r) (f := fun _ => reg') rfl ?_
        intro reg₁ before
        cases reg_eq.symm.trans before
        exact .inr ⟨.look c, none, looked⟩

theorem visits_serve {u w : World σ} {c : Ctx} {r : Request}
    (h : (u.serve c r).world? = some w) : u.Visits w := by
  cases r with
  | awaitApplications r => exact visits_serveAwait h
  | retire r t =>
      cases h
      exact visits_retire u c r t
  | transition r t next =>
      cases h
      refine .of_eq ?_
      split
      · rfl
      · split <;> rfl
  | stateOf t | tally r =>
      simp only [serve] at h
      split at h <;> cases h <;> exact .of_eq rfl
  | park =>
      simp only [serve, servePark] at h
      split at h
      · cases h
        exact .of_eq rfl
      · cases h
        exact .of_eq rfl
      · split at h <;> cases h <;> exact .of_eq rfl
  | spawn slot object =>
      simp only [serve, serveSpawn] at h
      split at h
      · cases h
        exact .of_eq rfl
      · split at h <;> cases h <;> exact .of_eq rfl
  | unpark t =>
      have same : (u.unpark t).2.registries = u.registries := by
        unfold unpark
        split
        · rfl
        · split <;> rfl
      simp only [serve, serveUnpark] at h
      split at h
      all_goals
        rename_i unparked
        rw [unparked] at same
        cases h
        exact .of_eq same
  | detach t | replace slot | reportLaunch t | reportUnpark | emit v =>
      cases h
      exact .of_eq rfl

theorem visits_stepTask {I : Interpreter σ} {u v : World σ} {c : Ctx} {task : Task σ}
    {store : World σ → Task σ → World σ}
    (stores : ∀ w task', (store w task').registries = w.registries)
    (step : u.stepTask I c task store = some v) : u.Visits v := by
  obtain ⟨r, a, w, _, served, rfl⟩ | ⟨r, r', w, _, served, rfl⟩ | ⟨task', notes, _, _, rfl⟩ :=
    stepTask_cases step
  · have reached := visits_serve (congrArg Served.world? served)
    intro j reg' reg_eq
    exact reached j reg' (by rw [← reg_eq, ← stores w (task.answer I a).1]; rfl)
  · have reached := visits_serve (congrArg Served.world? served)
    intro j reg' reg_eq
    exact reached j reg' (by rw [← reg_eq, ← stores w (task.reask r')])
  · exact .of_eq (stores u task')

theorem visits_step {I : Interpreter σ} {u v : World σ} {c : Ctx} (step : u.step I c = some v) :
    u.Visits v := by
  cases c with
  | host =>
      obtain ⟨slot, task, _, step⟩ | ⟨r, w, _, served, done⟩ := stepHost_cases step
      · refine visits_stepTask ?_ step
        exact fun _ _ => rfl
      · have reached := visits_serveAwait served
        rcases done with rfl | rfl
        · exact reached
        · exact reached
  | body t =>
      obtain ⟨s, _, ⟨thread, _, _, rfl⟩ | ⟨thread, _, _, _, rfl⟩ | ⟨thread, _, rfl⟩ |
        ⟨thread, _, rfl⟩ | ⟨task, _, step⟩⟩ := stepBody_cases step
      · exact .of_eq rfl
      · exact .of_eq rfl
      · exact visits_add _ _ _ _
      · exact .of_eq rfl
      · refine visits_stepTask ?_ step
        exact fun _ _ => rfl
  | creator t =>
      obtain ⟨s, _, ⟨_, _, _, _, rfl⟩ | ⟨_, _, rfl⟩ | ⟨_, rfl⟩ | ⟨_, rfl⟩ | ⟨_, _, rfl⟩ |
        ⟨_, rfl⟩ | ⟨_, _, _, rfl⟩ | ⟨_, _, _, _, _, rfl⟩ | ⟨_, _, _, rfl⟩⟩ := stepCreator_cases step
      · exact .of_eq rfl
      · exact .of_eq rfl
      · exact .of_eq rfl
      · exact .of_eq rfl
      · exact .of_eq rfl
      · refine .of_eq ?_
        unfold hook
        split <;> rfl
      · exact .of_eq rfl
      · exact .of_eq rfl
      · exact .of_eq rfl

/-- What one operation does to the registries: it visits one of them, or adds one. -/
theorem visits_perform {u v : World σ} {op : Operation σ} (done : u.perform op = some v) :
    u.Visits v := by
  cases op with
  | step I c => exact visits_step done
  | expire =>
      simp only [perform] at done
      split at done <;> cases done
      rename_i r host_eq
      have changed : u.expire.registries = u.registries.modify r (·.dequeue .host) := by
        simp only [expire, host_eq]
        rfl
      refine Visits.of_modify changed ?_
      intro reg _
      exact .inr ⟨.expire .host, _, rfl⟩
  | application m args env =>
      simp only [perform] at done
      split at done <;> cases done
      refine .of_eq ?_
      unfold buildApplication
      split <;> rfl
  | setPc slot pc | editFrame slot op =>
      cases done
      refine .of_eq ?_
      simp only [setPc, editFrame, modifyHeld]
      split <;> rfl
  | call I slot m args =>
      simp only [perform] at done
      split at done <;> cases done
      refine .of_eq ?_
      unfold hostCall
      split <;> rfl
  | start I slot =>
      simp only [perform] at done
      split at done <;> cases done
      refine .of_eq ?_
      unfold hostStart
      split <;> rfl
  | takeBack =>
      simp only [perform] at done
      split at done <;> cases done
      refine .of_eq ?_
      unfold disengage
      split <;> rfl
  | create slot object =>
      cases done
      refine .of_eq ?_
      unfold createHeld
      split <;> rfl
  | add c r t =>
      simp only [perform] at done
      split at done <;> cases done
      exact visits_add u c r t
  | transition c r t next => exact visits_serve (c := c) (r := .transition r t next) done
  | unpark t =>
      cases done
      refine .of_eq ?_
      unfold unpark
      split
      · rfl
      · split <;> rfl
  | installRegistry c =>
      cases done
      unfold installRegistry
      split
      · exact .of_eq rfl
      · intro r reg' reg_eq
        simp only [note, List.getElem?_append] at reg_eq
        split at reg_eq
        · exact .inr ⟨reg', reg_eq, .inl rfl⟩
        · rw [List.getElem?_singleton] at reg_eq
          split at reg_eq <;> cases reg_eq
          exact .inl rfl
  | removeRegistry c =>
      cases done
      refine .of_eq ?_
      unfold removeRegistry
      split <;> rfl
  | main m args env | beginWait r | endWait =>
      simp only [perform] at done
      split at done <;> cases done
      exact .of_eq rfl
  | drop slot | installConfig config | readConfig =>
      cases done
      exact .of_eq rfl

/-- The registries of a world are made by visits. -/
theorem Run.visited {n : Nat} {config : ConfigCell} {h : List Deed} {w : World σ}
    (run : Run (ofRegistries n config) h w) {r : RegistryId} {reg : Registry}
    (reg_eq : w.registries[r]? = some reg) : reg.Visited := by
  induction run generalizing r reg with
  | refl =>
      have member := List.mem_of_getElem? reg_eq
      rw [(List.mem_replicate.mp member).2]
      exact .empty
  | snoc op run isPublic done ih =>
      rcases visits_perform done r reg reg_eq with rfl | ⟨before, before_eq, rfl | ⟨x, b, visit⟩⟩
      · exact .empty
      · exact ih before_eq
      · exact (ih before_eq).visit visit

/-! ## Steps of waiters -/

section Steps

variable {I : Interpreter σ} {u v : World σ} {c : Ctx} {task : Task σ} {r : RegistryId}
  {reg : Registry}

/-- A task that waits goes on in the same way whatever it was made to ask for. -/
theorem reask_of_wait (asks : task.request? = some (.awaitApplications r)) :
    task.reask (.awaitApplications r) = task := by
  unfold Task.reask
  split
  · rename_i s depth r' mode_eq
    have same : r' = .awaitApplications r := by simpa [Task.request?, mode_eq] using asks
    rw [← same, ← mode_eq]
  · rfl

theorem completion?_of_wait (asks : task.request? = some (.awaitApplications r)) :
    task.completion? = none ∧ (task.answer I .done).1.completion? = none := by
  unfold Task.request? at asks
  unfold Task.completion? Task.answer
  cases mode_eq : task.mode with
  | asking s depth r' => simp
  | awaiting g => simp
  | detaching g | inspecting g a | retiring g passing =>
      rw [mode_eq] at asks
      cases asks
  | acting s depth | delivering x | unwinding a | done x | lost =>
      rw [mode_eq] at asks
      cases asks

/-- A task that is not over is put back where it was. -/
theorem taskAt_put_of_unfinished {ro : Roster σ} {task' : Task σ}
    (task_eq : ro.taskAt c = some task) (unfinished : task'.completion? = none) :
    (ro.put c task').taskAt c = some task' := by
  rcases Roster.taskAt_put task' task_eq with kept | ⟨_, x, finished⟩
  · exact kept
  · cases unfinished.symm.trans finished

/-- What a step of a context does that waits: if it is asleep there is none; with the count at zero
its wait is over; otherwise it falls asleep. -/
theorem step_of_wait (I : Interpreter σ) (task_eq : u.roster.taskAt c = some task)
    (asks : task.request? = some (.awaitApplications r)) (reg_eq : u.registries[r]? = some reg) :
    match reg.visit (.look c) with
    | none => u.step I c = none
    | some (_, some _) =>
      ∃ v, u.step I c = some v ∧ v.registries = u.registries ∧
        v.roster.taskAt c = some (task.answer I .done).1
    | some (reg', none) =>
      ∃ v, u.step I c = some v ∧ v.registries = u.registries.modify r (fun _ => reg') ∧
        v.roster.taskAt c = some task := by
  obtain ⟨store, step_eq, kept⟩ := step_of_taskAt I task_eq
  obtain ⟨unfinished, unfinished'⟩ := completion?_of_wait (I := I) asks
  have stores (w : World σ) (task' : Task σ) (same : w.roster = u.roster) :
      (store w task').registries = w.registries ∧
        (store w task').roster = u.roster.put c task' := by
    obtain ⟨slot, rfl, host_eq, rfl⟩ | ⟨t, rfl, rfl⟩ := kept
    · refine ⟨rfl, ?_⟩
      have host_eq' : u.roster.host = .running slot task := host_eq
      rw [Roster.put, host_eq', ← same]
      rfl
    · exact ⟨rfl, by rw [roster_storeChild, same]; rfl⟩
  have served := serveAwait_eq c reg_eq
  rw [step_eq]
  split
  · rename_i looked
    simp only [looked] at served
    simp only [stepTask, asks, serve, served]
  · rename_i looked
    simp only [looked] at served
    obtain ⟨registries_eq, roster_eq⟩ := stores u (task.answer I .done).1 rfl
    have done : u.stepTask I c task store =
        some ((store u (task.answer I .done).1).note c (task.answer I .done).2) := by
      simp only [stepTask, asks, serve, served]
    refine ⟨_, done, registries_eq, ?_⟩
    rw [roster_note, roster_eq]
    exact taskAt_put_of_unfinished task_eq unfinished'
  · rename_i reg' looked
    simp only [looked] at served
    obtain ⟨registries_eq, roster_eq⟩ := stores (u.modifyRegistry r fun _ => reg')
      (task.reask (.awaitApplications r)) rfl
    have done : u.stepTask I c task store = some (store (u.modifyRegistry r fun _ => reg')
        (task.reask (.awaitApplications r))) := by
      simp only [stepTask, asks, serve, served]
    refine ⟨_, done, registries_eq, ?_⟩
    rw [roster_eq, reask_of_wait asks]
    exact taskAt_put_of_unfinished task_eq unfinished

end Steps

/-! ## Bodies that wait -/

section Awaiting

variable {n : Nat} {config : ConfigCell} {h h' : List Deed} {u v x : World σ} {op : Operation σ}
  {c : Ctx} {task : Task σ} {g : Guard}

/-- The thread that a context works on reports to a registry that exists. -/
theorem Orderly.registry_of_task (orderly : Orderly h u)
    (task_eq : u.roster.taskAt c = some task) :
    ∃ reg, u.registries[task.thread.registry]? = some reg := by
  have member : task.thread.pass ∈ u.roster.passesAt c.place := by
    rw [Roster.passesAt_of_taskAt task_eq]
    exact List.mem_cons_self
  obtain ⟨_, _, _, _, housed⟩ := orderly.card_of_pass member
  have lives : task.thread.pass.registry < u.registries.length := by simpa [ledger] using housed
  exact ⟨_, List.getElem?_eq_getElem lives⟩

theorem request?_of_awaiting (mode_eq : task.mode = .awaiting g) :
    task.request? = some (.awaitApplications task.thread.registry) := by
  simp [Task.request?, mode_eq]

/-- A step of a task that waits leaves it waiting, or the count is zero. -/
theorem TaskStep.awaiting {task' : Task σ} {d : Option Deed} {ro : Roster σ}
    (step : u.TaskStep c task d ro task') (mode_eq : task.mode = .awaiting g) :
    task' = task ∨
      ∀ reg, u.registries[task.thread.registry]? = some reg → reg.appThreads = 0 := by
  have asks := request?_of_awaiting mode_eq
  cases step with
  | advanced isPublic advances => simp [Task.advance, mode_eq] at advances
  | answered asks' served keeps stays =>
      cases asks.symm.trans asks'
      exact .inr fun reg reg_eq => appThreads_of_answered served reg_eq
  | replaced asks' => cases asks.symm.trans asks'
  | deferred isPublic => exact .inl (by simp [Task.reask, mode_eq])
  | launches held_eq => exact .inl (by simp [Task.reask, mode_eq])

/-- What one operation preserves: a body goes on waiting, unless it takes a step of its own while
the count is zero. -/
theorem Run.awaiting_perform (reached : Run (ofRegistries n config) h u) (isPublic : op.IsPublic)
    (done : u.perform op = some v) (task_eq : u.roster.taskAt c = some task)
    (mode_eq : task.mode = .awaiting g) :
    v.roster.taskAt c = some task ∨
      op.performer = c ∧
        ∀ reg, u.registries[task.thread.registry]? = some reg → reg.appThreads = 0 := by
  have unfinished : task.completion? = none := by simp [Task.completion?, mode_eq]
  have turnover := (shift_perform isPublic done).turnover reached.launching c
  generalize v.roster.taskAt c = after at turnover
  cases turnover with
  | same aside => exact .inl task_eq
  | called own none_eq deed_eq => cases none_eq.symm.trans task_eq
  | started own none_eq deed_eq => cases none_eq.symm.trans task_eq
  | takenBack before_eq finished deed_eq =>
      cases before_eq.symm.trans task_eq
      cases unfinished.symm.trans finished
  | stepped own before_eq step =>
      cases before_eq.symm.trans task_eq
      rcases step.awaiting mode_eq with rfl | zero
      · exact .inl rfl
      · exact .inr ⟨own, zero⟩
  | ended own before_eq step finished =>
      cases before_eq.symm.trans task_eq
      rcases step.awaiting mode_eq with rfl | zero
      · cases unfinished.symm.trans finished
      · exact .inr ⟨own, zero⟩

/-- What a whole run preserves: a body still waits, or has taken a step of its own while the count
was zero. -/
theorem Run.awaiting (reached : Run (ofRegistries n config) h u)
    (task_eq : u.roster.taskAt c = some task) (mode_eq : task.mode = .awaiting g)
    (run : Run u h' x) :
    x.roster.taskAt c = some task ∨
      ∃ (h₁ h₂ : List Deed) (y z : World σ) (op : Operation σ) (reg : Registry),
        Run u h₁ y ∧ y.roster.taskAt c = some task ∧ op.performer = c ∧ y.perform op = some z ∧
          Run z h₂ x ∧ y.registries[task.thread.registry]? = some reg ∧ reg.appThreads = 0 := by
  induction run with
  | refl => exact .inl task_eq
  | @snoc h' y x op run isPublic done ih =>
      rcases ih with waits | ⟨h₁, h₂, y', z, op', reg, before, at_y, own, left, after, reg_eq, zero⟩
      · have reached_y := reached.trans run
        rcases reached_y.awaiting_perform isPublic done waits mode_eq with still | ⟨own, zero⟩
        · exact .inl still
        · obtain ⟨reg, reg_eq⟩ := reached_y.orderly.registry_of_task waits
          exact .inr ⟨h', [], y, x, op, reg, run, waits, own, done, .refl, reg_eq, zero reg reg_eq⟩
      · exact .inr ⟨h₁, _, y', z, op', reg, before, at_y, own, left, after.snoc op isPublic done,
          reg_eq, zero⟩

end Awaiting

/-- The host waits: with the count at zero its wait is over, otherwise it falls asleep, and when its
time is up it is told whether the count is zero. -/
theorem host_wait (I : Interpreter σ) {u : World σ} {r : RegistryId} {reg : Registry}
    (host_eq : u.host = .waiting r) (reg_eq : u.registries[r]? = some reg)
    (visited : reg.Visited) :
    (∀ v, u.step I .host = some v →
        v.host = .waited true ∧ reg.appThreads = 0 ∨ v.host = .waiting r ∧ reg.appThreads ≠ 0) ∧
      (u.step I .host = none → reg.appThreads ≠ 0) ∧
      ∃ b, u.expire.host = .waited b ∧ (b = true ↔ reg.appThreads = 0) := by
  have served := serveAwait_eq .host reg_eq
  refine ⟨fun v stepped => ?_, fun stuck zero => ?_, ?_⟩
  · simp only [step, stepHost, host_eq, served, Registry.visit] at stepped
    by_cases asleep : Ctx.host ∈ reg.waiters
    · simp [asleep] at stepped
    · by_cases zero : reg.appThreads = 0
      · simp only [asleep, zero, if_true, if_false, Option.some.injEq] at stepped
        rw [← stepped]
        exact .inl ⟨rfl, zero⟩
      · simp only [asleep, zero, if_false, Option.some.injEq] at stepped
        rw [← stepped]
        exact .inr ⟨host_eq, zero⟩
  · rw [visited.look_of_zero zero] at served
    simp [step, stepHost, host_eq, served] at stuck
  · refine ⟨reg.appThreads == 0, ?_, beq_iff_eq⟩
    simp only [expire, host_eq, reg_eq, Option.map_some]
    rfl

/-- What a context that waits can do, after any run: go on if the count is zero, and otherwise fall
asleep, or nothing. -/
theorem Run.wait_cases {n : Nat} {config : ConfigCell} {h : List Deed} {w : World σ}
    (reached : Run (ofRegistries n config) h w) {r : RegistryId} {reg : Registry}
    (reg_eq : w.registries[r]? = some reg) (I : Interpreter σ) {c : Ctx} {task : Task σ}
    (task_eq : w.roster.taskAt c = some task)
    (asks : task.request? = some (.awaitApplications r)) :
    (∃ v, w.step I c = some v ∧ reg.appThreads = 0 ∧ v.registries = w.registries ∧
        v.roster.taskAt c = some (task.answer I .done).1) ∨
      (∃ v, w.step I c = some v ∧ reg.appThreads ≠ 0 ∧
        v.registries = w.registries.modify r (fun _ => reg.enqueue c) ∧
        v.roster.taskAt c = some task) ∨
      w.step I c = none ∧ reg.appThreads ≠ 0 := by
  have stepped := step_of_wait I task_eq asks reg_eq
  by_cases zero : reg.appThreads = 0
  · rw [(reached.visited reg_eq).look_of_zero zero] at stepped
    obtain ⟨v, done, registries_eq, next_eq⟩ := stepped
    exact .inl ⟨v, done, zero, registries_eq, next_eq⟩
  · by_cases asleep : c ∈ reg.waiters
    · simp only [Registry.visit, asleep, if_true] at stepped
      exact .inr (.inr ⟨stepped, zero⟩)
    · simp only [Registry.visit, asleep, zero, if_false] at stepped
      obtain ⟨v, done, registries_eq, next_eq⟩ := stepped
      exact .inr (.inl ⟨v, done, zero, registries_eq, next_eq⟩)

/-- A body that waits goes on if and only if the count of its registry is zero. -/
theorem Run.released_iff {n : Nat} {config : ConfigCell} {h : List Deed} {w : World σ}
    (reached : Run (ofRegistries n config) h w) (I : Interpreter σ) {c : Ctx} {task : Task σ}
    {g : Guard} {reg : Registry} (task_eq : w.roster.taskAt c = some task)
    (mode_eq : task.mode = .awaiting g)
    (reg_eq : w.registries[task.thread.registry]? = some reg) :
    reg.appThreads = 0 ↔
      ∃ v task', w.step I c = some v ∧ v.roster.taskAt c = some task' ∧
        task'.mode = .retiring g none := by
  have next := reached.wait_cases reg_eq I task_eq (request?_of_awaiting mode_eq)
  constructor
  · intro zero
    obtain ⟨v, done, _, _, next_eq⟩ | ⟨_, _, counted, _⟩ | ⟨_, counted⟩ := next
    · exact ⟨v, _, done, next_eq, by simp [Task.answer, mode_eq]⟩
    · exact absurd zero counted
    · exact absurd zero counted
  · rintro ⟨v, task', done, next_eq, retiring⟩
    obtain ⟨_, _, zero, _⟩ | ⟨v', done', _, _, next_eq'⟩ | ⟨stuck, _⟩ := next
    · exact zero
    · cases done.symm.trans done'
      cases next_eq.symm.trans next_eq'
      cases mode_eq.symm.trans retiring
    · cases stuck.symm.trans done

/-- No waiter is forgotten, and none is let go early.  At a registry to which any number of visitors
come, in any order, nobody is asleep while the count is zero, and whoever looks then is done.  A
wait that is over returns whether the count is zero at that moment, and without its time being up it
is over only if it is.

So it is in a world, after any run.  The step of a context that waits ends its wait if the count is
zero, and puts it to sleep otherwise; a context that cannot take a step waits for a count that is
not zero; and the host is told whether the count is zero.  A body that waits for the application
threads of its registry goes on exactly if the count is zero.  However things go from there, it has
either taken a step of its own while the count was zero, or it still waits; and if it cannot take a
step then, as when everybody has come to rest, the count is not zero. -/
theorem waits_end_at_zero {n : Nat} {config : ConfigCell} {h : List Deed} {w : World σ}
    (reached : Run (ofRegistries n config) h w) :
    (∀ reg : Registry, reg.Visited →
        (reg.appThreads = 0 → reg.waiters = [] ∧
          ∀ c, reg.visit (.look c) = some (reg, some true)) ∧
        ∀ x reg' b, reg.visit x = some (reg', some b) →
          (b = true ↔ reg.appThreads = 0) ∧ reg'.appThreads = reg.appThreads ∧
            ∀ c, x = .look c → b = true) ∧
      (∀ (r : RegistryId) (reg : Registry), w.registries[r]? = some reg →
        reg.Visited ∧
          (∀ (I : Interpreter σ) (c : Ctx) (task : Task σ), w.roster.taskAt c = some task →
            task.request? = some (.awaitApplications r) →
            (∀ v, w.step I c = some v →
              reg.appThreads = 0 ∧ v.registries = w.registries ∧
                  v.roster.taskAt c = some (task.answer I .done).1 ∨
                reg.appThreads ≠ 0 ∧
                  v.registries = w.registries.modify r (fun _ => reg.enqueue c) ∧
                  v.roster.taskAt c = some task) ∧
              (w.step I c = none → reg.appThreads ≠ 0)) ∧
          (w.host = .waiting r → ∀ I : Interpreter σ,
            (∀ v, w.step I .host = some v →
              v.host = .waited true ∧ reg.appThreads = 0 ∨
                v.host = .waiting r ∧ reg.appThreads ≠ 0) ∧
              (w.step I .host = none → reg.appThreads ≠ 0) ∧
              ∃ b, w.expire.host = .waited b ∧ (b = true ↔ reg.appThreads = 0))) ∧
      (∀ (c : Ctx) (task : Task σ) (g : Guard), w.roster.taskAt c = some task →
        task.mode = .awaiting g →
        (∃ reg, w.registries[task.thread.registry]? = some reg ∧
          ∀ I : Interpreter σ, reg.appThreads = 0 ↔
            ∃ v task', w.step I c = some v ∧ v.roster.taskAt c = some task' ∧
              task'.mode = .retiring g none) ∧
          ∀ (h' : List Deed) (x : World σ), Run w h' x →
            (x.roster.taskAt c = some task ∧
                ∀ (I : Interpreter σ) (reg : Registry),
                  x.registries[task.thread.registry]? = some reg → x.step I c = none →
                  reg.appThreads ≠ 0) ∨
              ∃ (h₁ h₂ : List Deed) (y z : World σ) (op : Operation σ) (reg : Registry),
                Run w h₁ y ∧ y.roster.taskAt c = some task ∧ op.performer = c ∧
                  y.perform op = some z ∧ Run z h₂ x ∧
                  y.registries[task.thread.registry]? = some reg ∧ reg.appThreads = 0) := by
  refine ⟨fun reg visited => ?_, fun r reg reg_eq => ?_, fun c task g task_eq mode_eq => ?_⟩
  · refine ⟨fun zero => ⟨visited.attentive zero, visited.look_of_zero zero⟩, ?_⟩
    intro x reg' b done
    exact Registry.returned_of_visit done
  · have visited := reached.visited reg_eq
    refine ⟨visited, fun I c task task_eq asks => ?_, fun host_eq I =>
      host_wait I host_eq reg_eq visited⟩
    obtain ⟨v, done, zero, registries_eq, next_eq⟩ |
      ⟨v, done, counted, registries_eq, next_eq⟩ | ⟨stuck, counted⟩ :=
      reached.wait_cases reg_eq I task_eq asks
    · refine ⟨fun v' done' => ?_, fun stuck => ?_⟩
      · cases done.symm.trans done'
        exact .inl ⟨zero, registries_eq, next_eq⟩
      · cases done.symm.trans stuck
    · refine ⟨fun v' done' => ?_, fun _ => counted⟩
      cases done.symm.trans done'
      exact .inr ⟨counted, registries_eq, next_eq⟩
    · refine ⟨fun v' done' => ?_, fun _ => counted⟩
      cases stuck.symm.trans done'
  · refine ⟨?_, fun h' x run => ?_⟩
    · obtain ⟨reg, reg_eq⟩ := reached.orderly.registry_of_task task_eq
      exact ⟨reg, reg_eq, fun I => reached.released_iff I task_eq mode_eq reg_eq⟩
    · rcases reached.awaiting task_eq mode_eq run with still | left
      · refine .inl ⟨still, fun I reg reg_eq stuck zero => ?_⟩
        have released := ((reached.trans run).released_iff I still mode_eq reg_eq).1 zero
        obtain ⟨v, _, done, _⟩ := released
        cases stuck.symm.trans done
      · exact .inr left

/-- An entry point whose body is over has fallen asleep: an application thread of its registry has
been recorded.  It cannot go on, whoever interprets it, until that thread has died; and then it
does. -/
theorem waits_end_at_zero_of_sleeping_main :
    ∃ (h h' : List Deed) (w x : World Script.Activation) (task task' : Task Script.Activation)
      (g : Guard),
      Run (ofRegistries 1 ConfigCell.fresh) h w ∧ w.roster.taskAt (.body 1) = some task ∧
        task.mode = .awaiting g ∧ g.kind = .main ∧
        (w.registries[0]?).map Registry.waiters = some [.body 1] ∧
        (∀ (I : Interpreter Script.Activation) (v : World Script.Activation)
          (next : Task Script.Activation), w.step I (.body 1) = some v →
          v.roster.taskAt (.body 1) = some next → next.mode ≠ .retiring g none) ∧
        Run w h' x ∧ x.roster.taskAt (.body 1) = some task' ∧ task'.mode = .awaiting g ∧
        (x.registries[0]?).map Registry.waiters = some [] ∧
        ∀ I : Interpreter Script.Activation, ∃ v next, x.step I (.body 1) = some v ∧
          v.roster.taskAt (.body 1) = some next ∧ next.mode = .retiring g none := by
  let I := promptInterpreter
  let first : List (Operation Script.Activation) := List.flatten
    [[.application promptMethod [.null] ⟨0, 4, .script⟩, .main promptMethod [] ⟨0, 4, .script⟩,
        .create 0 .null],
      List.replicate 4 (.step I (.creator 0)), List.replicate 2 (.step I (.body 0)),
      [.create 1 .null], List.replicate 4 (.step I (.creator 1)),
      List.replicate 5 (.step I (.body 1))]
  let second : List (Operation Script.Activation) := List.replicate 6 (.step I (.body 0))
  have isPublic : ∀ op ∈ first ++ second, op.IsPublic := by
    simp [first, second, I, Operation.IsPublic, isPublic_promptInterpreter]
  let g : Guard := ⟨1, 0, .main, "m"⟩
  have reaches : ((ofRegistries 1 ConfigCell.fresh : World Script.Activation).performAll first).map
      (fun done => ((done.2.registries[0]?).map fun reg => (reg.waiters, reg.appThreads),
        (done.2.roster.taskAt (.body 1)).map fun task => (task.mode, task.thread.registry),
        (done.2.performAll second).map fun done =>
          ((done.2.registries[0]?).map (fun reg => (reg.waiters, reg.appThreads)),
            (done.2.roster.taskAt (.body 1)).map fun task =>
              (task.mode, task.thread.registry)))) =
      some (some ([.body 1], 1), some (.awaiting g, 0),
        some (some ([], 0), some (.awaiting g, 0))) := rfl
  obtain ⟨h, w, reached, seen⟩ :=
    exists_run_of_performAll (fun op member => isPublic op (by simp [member])) reaches
  simp only [Prod.mk.injEq] at seen
  obtain ⟨asleep, entry, retiring⟩ := seen
  obtain ⟨task, task_eq, seen⟩ := Option.map_eq_some_iff.mp entry
  simp only [Prod.mk.injEq] at seen
  obtain ⟨mode_eq, home_eq⟩ := seen
  obtain ⟨reg, reg_eq, seen⟩ := Option.map_eq_some_iff.mp asleep
  simp only [Prod.mk.injEq] at seen
  obtain ⟨waiters_eq, counted⟩ := seen
  obtain ⟨h', x, run, seen⟩ :=
    exists_run_of_performAll (fun op member => isPublic op (by simp [member])) retiring
  simp only [Prod.mk.injEq] at seen
  obtain ⟨awake, waits⟩ := seen
  obtain ⟨reg', reg_eq', seen⟩ := Option.map_eq_some_iff.mp awake
  simp only [Prod.mk.injEq] at seen
  obtain ⟨nobody, zero⟩ := seen
  obtain ⟨task', task_eq', seen⟩ := Option.map_eq_some_iff.mp waits
  simp only [Prod.mk.injEq] at seen
  obtain ⟨mode_eq', home_eq'⟩ := seen
  obtain ⟨_, _, waiting⟩ := waits_end_at_zero reached
  obtain ⟨⟨reg₁, reg_eq₁, released⟩, _⟩ := waiting (.body 1) task g task_eq mode_eq
  obtain ⟨_, _, waiting'⟩ := waits_end_at_zero (reached.trans run)
  obtain ⟨⟨reg₂, reg_eq₂, released'⟩, _⟩ := waiting' (.body 1) task' g task_eq' mode_eq'
  rw [home_eq] at reg_eq₁
  rw [home_eq'] at reg_eq₂
  cases reg_eq.symm.trans reg_eq₁
  cases reg_eq'.symm.trans reg_eq₂
  refine ⟨h, h', w, x, task, task', g, reached, task_eq, mode_eq, rfl, ?_, ?_, run, task_eq',
    mode_eq', ?_, ?_⟩
  · rw [reg_eq, Option.map_some, waiters_eq]
  · intro J v next stepped next_eq retiring
    have gone : reg.appThreads = 0 := (released J).2 ⟨v, next, stepped, next_eq, retiring⟩
    omega
  · rw [reg_eq', Option.map_some, nobody]
  · exact fun J => (released' J).1 zero

end World

end ThreadEngine
