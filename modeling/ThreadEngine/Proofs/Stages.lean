import ThreadEngine.Proofs.Joining

set_option autoImplicit false

/-!
# Stages of a launch

A launch leaves marks on the observable side of its thread: the thread object, the join handle, and
that there was one.  A `Stage` is these marks, together with how far the creator has come.  Only the
creator changes them, step by step (`Stage.Step`), except that a body gives up the join handle of an
application thread; everything else that is done to a world leaves all stages alone (`Restaged`).
So the marks can be read off the creator's progress, after every run (`Run.fits`), and no creator
finds that its thread object is bound already.
-/

namespace ThreadEngine

/-- How far the launch of a thread has come, and what it has left on the observable side of the
thread. -/
structure Stage where
  kind : Kind
  object : Option Value
  context : Context
  launched : Bool
  creation : Option Creation
  deriving DecidableEq, Repr, Inhabited

def Strand.stage {σ : Type} (s : Strand σ) : Stage :=
  ⟨s.handle.kind, s.handle.object, s.handle.context, s.handle.launched, s.creation⟩

namespace Stage

/-- The stage of a thread that has just been built. -/
def first (kind : Kind) : Stage := ⟨kind, none, .unlaunched, false, none⟩

/-- The join handle is given up, if it is still there. -/
def detach (x : Stage) : Stage :=
  if x.context = .attached then { x with context := .detached } else x

/-- The creator has been given the thread and its object. -/
def create (thread : Thread) (object : Value) (x : Stage) : Stage :=
  { x with creation := some (.binding thread object) }

/-- The steps of the creator of a thread. -/
inductive Step (t : ThreadId) (x : Stage) : Stage → Prop
  | bound {thread : Thread} {object : Value}
      (creation_eq : x.creation = some (.binding thread object)) (unbound : x.object = none) :
      Step t x { x with object := some object, creation := some (.spawning thread) }
  | refused {thread : Thread} {object value : Value}
      (creation_eq : x.creation = some (.binding thread object)) (bound : x.object = some value) :
      Step t x { x with creation := some (.aborted (.invariant .boundTwice)) }
  | spawned {thread : Thread} (creation_eq : x.creation = some (.spawning thread)) :
      Step t x { x with creation := some .attaching }
  | attached (creation_eq : x.creation = some .attaching) :
      Step t x { x with context := .attached, launched := true, creation := some .launching }
  | told (creation_eq : x.creation = some .launching) :
      Step t x { x with creation := some .awaitingReady }
  | heard (creation_eq : x.creation = some .awaitingReady) :
      Step t x { x with creation := some .hooking }
  | joins (creation_eq : x.creation = some .hooking) (main : x.kind = .main)
      (attached : x.context = .attached) :
      Step t x { x with context := .joined, creation := some .joining }
  | returns (creation_eq : x.creation = some .hooking)
      (aside : ¬ (x.kind = .main ∧ x.context = .attached)) :
      Step t x { x with creation := some (.done none) }
  | joined {a : Option Abort} (creation_eq : x.creation = some .joining) :
      Step t x { x with creation := some (.done (a.map fun _ => .threadAborted t.number)) }

/-- What the creator's progress says about the marks: nothing is bound before the creator binds it,
there is no join handle before it stores one, and then there is one until the body of an application
thread gives it up, or the creator of an entry point takes it.  Creation fails only because the
entry point was aborted. -/
def Fits (t : ThreadId) (x : Stage) : Prop :=
  match x.creation with
  | none | some (.binding ..) => x.object = none ∧ x.context = .unlaunched ∧ x.launched = false
  | some (.spawning _) | some .attaching =>
    x.object.isSome = true ∧ x.context = .unlaunched ∧ x.launched = false
  | some .launching | some .awaitingReady | some .hooking =>
    x.object.isSome = true ∧
      (x.context = .attached ∨ x.kind = .application ∧ x.context = .detached) ∧ x.launched = true
  | some .joining =>
    x.object.isSome = true ∧ (x.kind = .main ∧ x.context = .joined) ∧ x.launched = true
  | some (.done fault) =>
    x.object.isSome = true ∧
      (x.kind = .main ∧ x.context = .joined ∨
        x.kind = .application ∧ (x.context = .attached ∨ x.context = .detached)) ∧
      x.launched = true ∧ (fault = none ∨ fault = some (.threadAborted t.number))
  | some (.aborted _) => False

section Fits

variable {t : ThreadId} {x x' : Stage}

theorem fits_first (t : ThreadId) (kind : Kind) : (first kind).Fits t := ⟨rfl, rfl, rfl⟩

/-- Every step of the creator leads from stage to stage. -/
theorem Fits.step (fits : x.Fits t) (step : x.Step t x') : x'.Fits t := by
  cases step with
  | bound creation_eq unbound =>
      simp only [Fits, creation_eq] at fits
      exact ⟨rfl, fits.2⟩
  | refused creation_eq bound =>
      simp only [Fits, creation_eq] at fits
      cases fits.1.symm.trans bound
  | spawned creation_eq =>
      simp only [Fits, creation_eq] at fits
      exact fits
  | attached creation_eq =>
      simp only [Fits, creation_eq] at fits
      exact ⟨fits.1, .inl rfl, rfl⟩
  | told creation_eq =>
      simp only [Fits, creation_eq] at fits
      exact fits
  | heard creation_eq =>
      simp only [Fits, creation_eq] at fits
      exact fits
  | joins creation_eq main attached =>
      simp only [Fits, creation_eq] at fits
      exact ⟨fits.1, ⟨main, rfl⟩, fits.2.2⟩
  | returns creation_eq aside =>
      simp only [Fits, creation_eq] at fits
      obtain ⟨bound, context, launched⟩ := fits
      refine ⟨bound, .inr ?_, launched, .inl rfl⟩
      rcases context with attached | ⟨application, detached⟩
      · refine ⟨?_, .inl attached⟩
        cases kind_eq : x.kind with
        | application => rfl
        | main => exact absurd ⟨kind_eq, attached⟩ aside
      · exact ⟨application, .inr detached⟩
  | @joined a creation_eq =>
      simp only [Fits, creation_eq] at fits
      obtain ⟨bound, context, launched⟩ := fits
      refine ⟨bound, .inl context, launched, ?_⟩
      cases a with
      | none => exact .inl rfl
      | some a => exact .inr rfl

/-- Giving up the join handle of an application thread fits every stage. -/
theorem Fits.detach (fits : x.Fits t) (application : x.kind = .application) : x.detach.Fits t := by
  unfold Stage.detach
  split
  · rename_i attached
    unfold Fits at fits ⊢
    split at fits
    all_goals rename_i creation_eq
    all_goals rw [creation_eq]
    · cases attached.symm.trans fits.2.1
    · cases attached.symm.trans fits.2.1
    · cases attached.symm.trans fits.2.1
    · cases attached.symm.trans fits.2.1
    · exact ⟨fits.1, .inr ⟨application, rfl⟩, fits.2.2⟩
    · exact ⟨fits.1, .inr ⟨application, rfl⟩, fits.2.2⟩
    · exact ⟨fits.1, .inr ⟨application, rfl⟩, fits.2.2⟩
    · cases application.symm.trans fits.2.1.1
    · exact ⟨fits.1, .inr ⟨application, .inr rfl⟩, fits.2.2⟩
    · exact fits
  · exact fits

/-- A creation begins where none has begun. -/
theorem Fits.create (fits : x.Fits t) (fresh : x.creation = none) (thread : Thread)
    (object : Value) : (x.create thread object).Fits t := by
  simp only [Fits, fresh] at fits
  exact fits

end Fits

end Stage

namespace World

variable {σ : Type}

def stages (w : World σ) : List Stage := w.strands.map Strand.stage

theorem stages_getElem? (w : World σ) (t : ThreadId) :
    w.stages[t]? = w.strands[t]?.map Strand.stage := by simp [stages]

theorem stage_of_strand {w : World σ} {t : ThreadId} {s : Strand σ}
    (strand_eq : w.strands[t]? = some s) : w.stages[t]? = some s.stage := by
  rw [stages_getElem?, strand_eq]
  rfl

theorem launch_of_strand {w : World σ} {t : ThreadId} {s : Strand σ}
    (strand_eq : w.strands[t]? = some s) : w.roster.launches[t]? = some s.launchState := by
  rw [launches_getElem?, strand_eq]
  rfl

/-! ## What leaves all stages alone -/

/-- A change of a strand shows on its stage. -/
theorem stages_modifyStrand (w : World σ) (t : ThreadId) {f : Strand σ → Strand σ}
    {f' : Stage → Stage} (carries : ∀ s, (f s).stage = f' s.stage) :
    (w.modifyStrand t f).stages = w.stages.modify t f' := by
  simp only [stages, modifyStrand, map_modify _ f f' carries]

theorem stages_modifyStrand_of_same (w : World σ) (t : ThreadId) {f : Strand σ → Strand σ}
    (same : ∀ s, (f s).stage = s.stage) : (w.modifyStrand t f).stages = w.stages := by
  have changed : (w.modifyStrand t f).stages = w.stages.modify t id := stages_modifyStrand w t same
  rw [changed, List.modify_id]

@[simp] theorem stages_note (w : World σ) (c : Ctx) (notes : List Note) :
    (w.note c notes).stages = w.stages := rfl

@[simp] theorem stages_storeChild (t : ThreadId) (w : World σ) (child : Child σ) :
    (storeChild t w child).stages = w.stages := stages_modifyStrand_of_same w t fun _ => rfl

@[simp] theorem stages_takeHeld (w : World σ) (slot : ThreadId) :
    (w.takeHeld slot).stages = w.stages := stages_modifyStrand_of_same w slot fun _ => rfl

@[simp] theorem stages_putHeld (w : World σ) (slot : ThreadId) (thread : Thread) :
    (w.putHeld slot thread).stages = w.stages := stages_modifyStrand_of_same w slot fun _ => rfl

@[simp] theorem stages_modifyHeld (w : World σ) (slot : ThreadId) (f : Thread → Thread) :
    (w.modifyHeld slot f).stages = w.stages := by
  unfold modifyHeld
  split
  · rfl
  · exact stages_putHeld w slot _

@[simp] theorem stages_add (w : World σ) (c : Ctx) (r : RegistryId) (t : ThreadId) :
    (w.add c r t).stages = w.stages := by
  rw [stages, strands_add]
  rfl

@[simp] theorem stages_retire (w : World σ) (c : Ctx) (r : RegistryId) (t : ThreadId) :
    (w.retire c r t).2.stages = w.stages := by
  have died : (w.modifyHandle t ({ · with state := .died })).stages = w.stages :=
    stages_modifyStrand_of_same w t fun _ => rfl
  unfold retire
  split
  · split
    · rfl
    · dsimp only
      split
      · exact died
      · exact died
  · rfl

@[simp] theorem stages_transition (w : World σ) (c : Ctx) (r : RegistryId) (t : ThreadId)
    (next : State) : (w.transition c r t next).2.stages = w.stages := by
  unfold transition
  split
  · rfl
  · split
    · rfl
    · exact stages_modifyStrand_of_same w t fun _ => rfl

@[simp] theorem stages_unpark (w : World σ) (t : ThreadId) :
    (w.unpark t).2.stages = w.stages := by
  unfold unpark
  split
  · rfl
  · split
    · exact stages_modifyStrand_of_same w t fun _ => rfl
    · rfl

theorem stages_serveAwait {w w' : World σ} {c : Ctx} {r : RegistryId}
    (served : (w.serveAwait c r).world? = some w') : w'.stages = w.stages := by
  unfold serveAwait at served
  split at served
  · cases served
    rfl
  · split at served
    · cases served
    · split at served <;> cases served <;> rfl

/-! ## What does not -/

@[simp] theorem stages_create (w : World σ) (slot : ThreadId) (thread : Thread) (object : Value) :
    (w.create slot thread object).stages =
      w.stages.modify thread.id (Stage.create thread object) := by
  unfold create
  rw [stages_modifyStrand, stages_modifyStrand_of_same, stages_takeHeld]
  · exact fun _ => rfl
  · exact fun _ => rfl

@[simp] theorem stages_build (w : World σ) (kind : Kind) (m : MethodRef) (args : List Value)
    (env : Env) : (w.build kind m args env).2.stages = w.stages ++ [Stage.first kind] := by
  simp [build, stages, Strand.stage, Stage.first]

@[simp] theorem stages_detach (w : World σ) (t : ThreadId) :
    (w.modifyHandle t Handle.detach).stages = w.stages.modify t Stage.detach := by
  refine stages_modifyStrand w t fun s => ?_
  by_cases attached : s.handle.context = .attached
  · simp [Strand.stage, Handle.detach, Stage.detach, attached]
  · simp [Strand.stage, Handle.detach, Stage.detach, attached]

/-- What serving a request does to the stages: a join handle is given up, a creation begins, or
nothing happens. -/
theorem stages_serve {w w' : World σ} {c : Ctx} {r : Request}
    (served : (w.serve c r).world? = some w') :
    w'.stages = w.stages ∨
      (∃ t, r = .detach t ∧ w'.stages = w.stages.modify t Stage.detach) ∨
      ∃ slot object thread, r = .spawn slot object ∧ w.held? slot = some thread ∧
        w'.stages = w.stages.modify thread.id (Stage.create thread object) := by
  cases r with
  | detach t =>
      cases served
      exact .inr (.inl ⟨t, rfl, stages_detach w t⟩)
  | spawn slot object =>
      simp only [serve, serveSpawn] at served
      split at served
      · cases served
        exact .inl rfl
      · rename_i s strand_eq
        split at served
        · cases served
          exact .inl rfl
        · rename_i thread held_eq
          cases served
          refine .inr (.inr ⟨slot, object, thread, rfl, ?_, stages_create w slot thread object⟩)
          simp [held?, strand_eq, held_eq]
  | awaitApplications r => exact .inl (stages_serveAwait served)
  | stateOf t | tally r =>
      simp only [serve] at served
      split at served <;> cases served <;> exact .inl rfl
  | retire r t =>
      cases served
      exact .inl (stages_retire w c r t)
  | transition r t next =>
      cases served
      exact .inl (stages_transition w c r t next)
  | replace slot =>
      cases served
      exact .inl (stages_takeHeld w slot)
  | park =>
      left
      simp only [serve, servePark] at served
      split at served
      · cases served
        rfl
      · cases served
        rfl
      · split at served
        · cases served
          rfl
        · cases served
          exact stages_modifyStrand_of_same w _ fun _ => rfl
        · cases served
        · cases served
          exact stages_modifyStrand_of_same w _ fun _ => rfl
  | unpark t =>
      left
      have same := stages_unpark w t
      simp only [serve, serveUnpark] at served
      split at served
      all_goals
        rename_i unparked
        rw [unparked] at same
        cases served
        exact same
  | reportLaunch t | reportUnpark | emit v =>
      cases served
      exact .inl rfl

/-- An operation passes a thread object to the creation of the thread that is held at a place. -/
def Passes (u : World σ) (op : Operation σ) (slot : ThreadId) (object : Value) : Prop :=
  op = .create slot object ∨
    ∃ I c task, op = .step I c ∧ u.roster.taskAt c = some task ∧
      task.request? = some (.spawn slot object)

/-- What an operation can do to the stages. -/
inductive Restaged (u : World σ) (op : Operation σ) : List Stage → Prop
  | same : Restaged u op u.stages
  | built (kind : Kind) : Restaged u op (u.stages ++ [Stage.first kind])
  | created {slot : ThreadId} {thread : Thread} {object : Value}
      (held_eq : u.held? slot = some thread) (passes : u.Passes op slot object)
      (deed_eq : u.deed? op = some (.created thread.id)) :
      Restaged u op (u.stages.modify thread.id (Stage.create thread object))
  | detached {I : Interpreter σ} {c : Ctx} {task : Task σ} {t : ThreadId}
      (op_eq : op = .step I c) (task_eq : u.roster.taskAt c = some task)
      (asks : task.request? = some (.detach t)) :
      Restaged u op (u.stages.modify t Stage.detach)
  | advanced {I : Interpreter σ} {t : ThreadId} {x x' : Stage} (op_eq : op = .step I (.creator t))
      (stage_eq : u.stages[t]? = some x) (step : x.Step t x') :
      Restaged u op (u.stages.modify t fun _ => x')

section Restaged

variable {I : Interpreter σ} {u v : World σ} {op : Operation σ} {c : Ctx} {t : ThreadId}

theorem Restaged.of_eq {stages : List Stage} (same : stages = u.stages) : u.Restaged op stages := by
  rw [same]
  exact .same

theorem restaged_stepTask {task : Task σ} {store : World σ → Task σ → World σ}
    (task_eq : u.roster.taskAt c = some task)
    (deed_eq : u.stepDeed? I c = u.taskDeed? I task)
    (stores : ∀ w task', (store w task').stages = w.stages)
    (step : u.stepTask I c task store = some v) : u.Restaged (.step I c) v.stages := by
  have served {r : Request} {w : World σ} (asks : task.request? = some r)
      (reached : (u.serve c r).world? = some w) : u.Restaged (.step I c) w.stages := by
    obtain same | ⟨t, rfl, stages_eq⟩ | ⟨slot, object, thread, rfl, held_eq, stages_eq⟩ :=
      stages_serve reached
    · exact .of_eq same
    · rw [stages_eq]
      exact .detached rfl task_eq asks
    · rw [stages_eq]
      refine .created held_eq (.inr ⟨I, c, task, rfl, task_eq, asks⟩) ?_
      simp [deed?, deed_eq, taskDeed?_of_request u asks, requestDeed?, creation?, held_eq]
  obtain ⟨r, a, w, asks, answered, rfl⟩ | ⟨r, r', w, asks, deferred, rfl⟩ |
    ⟨task', notes, _, _, rfl⟩ := stepTask_cases step
  · rw [stages_note, stores]
    exact served asks (congrArg Served.world? answered)
  · rw [stores]
    exact served asks (congrArg Served.world? deferred)
  · rw [stages_note, stores]
    exact .same

theorem restaged_stepHost (step : u.stepHost I = some v) :
    u.Restaged (.step I .host) v.stages := by
  obtain ⟨slot, task, host_eq, step⟩ | ⟨r, w, _, served, done⟩ := stepHost_cases step
  · have task_eq : u.roster.taskAt .host = some task := by
      simp [Roster.taskAt, roster, host_eq, Host.task?]
    refine restaged_stepTask task_eq ?_ ?_ step
    · simp only [stepDeed?, host_eq]
    · exact fun _ _ => rfl
  · have same := stages_serveAwait served
    rcases done with rfl | rfl
    · exact .of_eq same
    · exact .of_eq same

theorem restaged_stepBody (step : u.stepBody I t = some v) :
    u.Restaged (.step I (.body t)) v.stages := by
  obtain ⟨s, strand_eq, ⟨thread, _, _, rfl⟩ | ⟨thread, _, _, _, rfl⟩ | ⟨thread, _, rfl⟩ |
    ⟨thread, _, rfl⟩ | ⟨task, child_eq, step⟩⟩ := stepBody_cases step
  · exact .of_eq (stages_storeChild t u _)
  · exact .of_eq (stages_storeChild t u _)
  · refine .of_eq ?_
    rw [stages_storeChild, stages_add, stages_note]
  · refine .of_eq ?_
    rw [stages_note, stages_storeChild]
    exact stages_modifyStrand_of_same u t fun _ => rfl
  · have task_eq : u.roster.taskAt (.body t) = some task := by
      simp [Roster.taskAt, launches_getElem?, strand_eq, Strand.launchState, child_eq, Child.task?]
    refine restaged_stepTask task_eq ?_ ?_ step
    · simp [stepDeed?, strand_eq, child_eq]
    · exact fun w _ => stages_storeChild t w _

/-- A change of the strand that the creator works on. -/
theorem Restaged.of_strand {s : Strand σ} (strand_eq : u.strands[t]? = some s)
    {f : Strand σ → Strand σ} (step : s.stage.Step t (f s).stage)
    (stages_eq : v.stages = (u.modifyStrand t f).stages) :
    u.Restaged (.step I (.creator t)) v.stages := by
  have changed : (u.modifyStrand t f).stages = u.stages.modify t fun _ => (f s).stage := by
    apply List.ext_getElem?
    intro j
    rw [stages_getElem?, modifyStrand, List.getElem?_modify, List.getElem?_modify, stages_getElem?]
    by_cases at_t : t = j
    · subst at_t
      simp [strand_eq]
    · cases u.strands[j]? <;> simp [at_t]
  rw [stages_eq, changed]
  exact .advanced rfl (stage_of_strand strand_eq) step

/-- The creator goes on, and finds the execution context there until it has reported. -/
theorem restaged_stepCreator {h : List Deed} (launching : Launching h u)
    (step : u.stepCreator t = some v) : u.Restaged (.step I (.creator t)) v.stages := by
  obtain ⟨s, strand_eq, cases⟩ := stepCreator_cases step
  have inOrder : s.launchState.InOrder t :=
    launching.inOrder t s.launchState (launch_of_strand strand_eq)
  obtain ⟨thread, object, creation_eq, unbound, rfl⟩ | ⟨thread, creation_eq, rfl⟩ |
    ⟨creation_eq, rfl⟩ | ⟨creation_eq, rfl⟩ | ⟨creation_eq, ready, rfl⟩ | ⟨creation_eq, rfl⟩ |
    ⟨a, creation_eq, child_eq, rfl⟩ | ⟨thread, object, value, creation_eq, bound, rfl⟩ |
    ⟨a, creation_eq, child_eq, rfl⟩ := cases
  · rw [setCreation, modifyHandle, modifyStrand_modifyStrand]
    exact .of_strand strand_eq (.bound creation_eq unbound) rfl
  · rw [setCreation, storeChild, modifyStrand_modifyStrand]
    exact .of_strand strand_eq (.spawned creation_eq) rfl
  · rw [setCreation, modifyHandle, modifyStrand_modifyStrand]
    exact .of_strand strand_eq (.attached creation_eq) rfl
  · rw [setCreation, modifyStrand_modifyStrand]
    exact .of_strand strand_eq (.told creation_eq) rfl
  · exact .of_strand strand_eq (.heard creation_eq) rfl
  · unfold hook
    split
    · rename_i takes
      rw [setCreation, modifyHandle, modifyStrand_modifyStrand]
      exact .of_strand strand_eq (.joins creation_eq takes.1 takes.2) rfl
    · rename_i aside
      exact .of_strand strand_eq (.returns creation_eq aside) rfl
  · exact .of_strand strand_eq (.joined creation_eq) rfl
  · exact .of_strand strand_eq (.refused creation_eq bound) rfl
  · exact absurd child_eq (inOrder.not_abandoned creation_eq a)

end Restaged

/-- Every operation does one of these things to the stages. -/
theorem restaged_perform {u v : World σ} {op : Operation σ} {h : List Deed}
    (launching : Launching h u) (done : u.perform op = some v) : u.Restaged op v.stages := by
  cases op with
  | step I c =>
      cases c with
      | host => exact restaged_stepHost done
      | body t => exact restaged_stepBody done
      | creator t => exact restaged_stepCreator launching done
  | expire =>
      simp only [perform] at done
      split at done <;> cases done
      rename_i r host_eq
      refine .of_eq ?_
      simp only [expire, host_eq]
      rfl
  | application m args env =>
      simp only [perform] at done
      split at done <;> cases done
      unfold buildApplication
      split
      · dsimp only
        rw [stages_build]
        exact .built .application
      · exact .same
  | main m args env =>
      simp only [perform] at done
      split at done <;> cases done
      rw [stages_build]
      exact .built .main
  | drop slot =>
      cases done
      exact .of_eq (stages_takeHeld u slot)
  | setPc slot pc | editFrame slot op =>
      cases done
      exact .of_eq (stages_modifyHeld u slot _)
  | call I slot m args =>
      simp only [perform] at done
      split at done <;> cases done
      unfold hostCall
      split
      · exact .same
      · exact .of_eq (stages_takeHeld u slot)
  | start I slot =>
      simp only [perform] at done
      split at done <;> cases done
      unfold hostStart
      split
      · exact .same
      · exact .of_eq (stages_takeHeld u slot)
  | takeBack =>
      simp only [perform] at done
      split at done <;> cases done
      unfold disengage
      split
      · exact .of_eq (stages_putHeld { u with host := .idle } _ _)
      all_goals exact .same
  | create slot object =>
      cases done
      unfold createHeld
      cases held_eq : u.held? slot with
      | none => exact .same
      | some thread =>
          dsimp only
          rw [stages_create]
          refine .created held_eq (.inl rfl) ?_
          simp [deed?, creation?, held_eq]
  | add c r t =>
      simp only [perform] at done
      split at done <;> cases done
      exact .of_eq (stages_add u c r t)
  | transition c r t next =>
      cases done
      exact .of_eq (stages_transition u c r t next)
  | unpark t =>
      cases done
      exact .of_eq (stages_unpark u t)
  | beginWait r | endWait =>
      simp only [perform] at done
      split at done <;> cases done
      exact .same
  | installRegistry c =>
      cases done
      unfold installRegistry
      split
      · exact .same
      · exact .same
  | removeRegistry c =>
      cases done
      unfold removeRegistry
      split
      · exact .same
      · exact .same
  | installConfig config | readConfig =>
      cases done
      exact .same

/-! ## One stage -/

/-- How a stage can be changed, wherever the change comes from. -/
inductive NextStage (u : World σ) (op : Operation σ) (t : ThreadId) (x : Stage) : Stage → Prop
  | same : NextStage u op t x x
  | created {slot : ThreadId} {thread : Thread} {object : Value}
      (held_eq : u.held? slot = some thread) (own : thread.id = t)
      (passes : u.Passes op slot object) (deed_eq : u.deed? op = some (.created t)) :
      NextStage u op t x (x.create thread object)
  | detached {I : Interpreter σ} {c : Ctx} {task : Task σ} (op_eq : op = .step I c)
      (task_eq : u.roster.taskAt c = some task) (asks : task.request? = some (.detach t)) :
      NextStage u op t x x.detach
  | advanced {I : Interpreter σ} {x' : Stage} (op_eq : op = .step I (.creator t))
      (step : x.Step t x') : NextStage u op t x x'

theorem stage_of_modify {stages : List Stage} {t j : ThreadId} {f : Stage → Stage} {x' : Stage}
    (stage_eq : (stages.modify t f)[j]? = some x') :
    ∃ x, stages[j]? = some x ∧ (j = t ∧ x' = f x ∨ j ≠ t ∧ x' = x) := by
  rw [List.getElem?_modify] at stage_eq
  obtain ⟨x, was, rfl⟩ := Option.map_eq_some_iff.mp stage_eq
  refine ⟨x, was, ?_⟩
  by_cases at_t : t = j
  · exact .inl ⟨at_t.symm, by simp [at_t]⟩
  · exact .inr ⟨fun same => at_t same.symm, by simp [at_t]⟩

/-- A stage after an operation is that of a thread just built, or follows from what it was. -/
theorem Restaged.next {u : World σ} {op : Operation σ} {stages : List Stage} {t : ThreadId}
    {x' : Stage} (restaged : u.Restaged op stages) (stage_eq : stages[t]? = some x') :
    (∃ kind, u.stages.length = t ∧ x' = Stage.first kind) ∨
      ∃ x, u.stages[t]? = some x ∧ u.NextStage op t x x' := by
  cases restaged with
  | same => exact .inr ⟨x', stage_eq, .same⟩
  | built kind =>
      rw [List.getElem?_append] at stage_eq
      split at stage_eq
      · exact .inr ⟨x', stage_eq, .same⟩
      · rename_i beyond
        rw [List.getElem?_singleton] at stage_eq
        split at stage_eq
        · cases stage_eq
          exact .inl ⟨kind, by omega, rfl⟩
        · cases stage_eq
  | created held_eq passes deed_eq =>
      obtain ⟨x, was, ⟨rfl, rfl⟩ | ⟨_, rfl⟩⟩ := stage_of_modify stage_eq
      · exact .inr ⟨x, was, .created held_eq rfl passes deed_eq⟩
      · exact .inr ⟨x', was, .same⟩
  | detached op_eq task_eq asks =>
      obtain ⟨x, was, ⟨rfl, rfl⟩ | ⟨_, rfl⟩⟩ := stage_of_modify stage_eq
      · exact .inr ⟨x, was, .detached op_eq task_eq asks⟩
      · exact .inr ⟨x', was, .same⟩
  | advanced op_eq before step =>
      obtain ⟨x, was, ⟨rfl, rfl⟩ | ⟨_, rfl⟩⟩ := stage_of_modify stage_eq
      · cases before.symm.trans was
        exact .inr ⟨_, was, .advanced op_eq step⟩
      · exact .inr ⟨x', was, .same⟩

/-! ## Runs -/

section Runs

variable {n : Nat} {config : ConfigCell} {h : List Deed} {u v w : World σ} {op : Operation σ}
  {t : ThreadId} {x x' : Stage}

theorem launch_of_stage (stage_eq : w.stages[t]? = some x) :
    ∃ s, w.strands[t]? = some s ∧ s.stage = x ∧ w.roster.launches[t]? = some s.launchState := by
  rw [stages_getElem?] at stage_eq
  obtain ⟨s, strand_eq, rfl⟩ := Option.map_eq_some_iff.mp stage_eq
  exact ⟨s, strand_eq, rfl, launch_of_strand strand_eq⟩

/-- The creation of a thread is on record once it has begun. -/
theorem Launching.recorded_stage (launching : Launching h w) (stage_eq : w.stages[t]? = some x)
    (under : x.creation ≠ none) : .created t ∈ h := by
  obtain ⟨s, _, rfl, launch_eq⟩ := launch_of_stage stage_eq
  exact launching.recorded t s.launchState launch_eq under

/-- What one operation preserves, if it creates no thread whose creation has begun. -/
theorem NextStage.fits (next : u.NextStage op t x x') (was : u.stages[t]? = some x)
    (fresh : ∀ slot thread, u.held? slot = some thread → thread.id = t →
      u.deed? op = some (.created t) → x.creation = none)
    (application : u.DetachesApplications) (fits : x.Fits t) : x'.Fits t := by
  cases next with
  | same => exact fits
  | created held_eq own passes deed_eq => exact fits.create (fresh _ _ held_eq own deed_eq) _ _
  | detached op_eq task_eq asks =>
      obtain ⟨s, strand_eq, rfl, _⟩ := launch_of_stage was
      exact fits.detach (application _ _ task_eq t asks s strand_eq)
  | advanced op_eq step => exact fits.step step

/-- What a whole run preserves: the marks of every launch fit its creator's progress. -/
theorem Run.fits (run : Run (ofRegistries n config) h w) (stage_eq : w.stages[t]? = some x) :
    x.Fits t := by
  induction run generalizing t x with
  | refl => cases stage_eq
  | @snoc h u v op reached isPublic done ih =>
      have restaged := restaged_perform reached.launching done
      obtain ⟨kind, _, rfl⟩ | ⟨x₀, was, next⟩ := restaged.next stage_eq
      · exact Stage.fits_first t kind
      · refine next.fits was ?_ reached.detachesApplications (ih was)
        intro slot thread held_eq own _
        -- nobody holds a thread whose creation has begun
        by_contra under
        have recorded := reached.launching.recorded_stage was under
        rw [← own] at recorded
        exact reached.orderly.not_created_of_held held_eq recorded

end Runs

end World

end ThreadEngine
