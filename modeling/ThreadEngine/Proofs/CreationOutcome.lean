import ThreadEngine.Proofs.StartEnds

set_option autoImplicit false

/-!
# The outcome of a creation

The creator of an application thread reports success whatever the body does, and only waits for its
context to report.  The creator of an entry point joins its context, and reports an abort exactly if
the start of the body has ended in one there (`SoundCreations`).  How a start ends is decided when
the method of the body is over.  That a creator gets to its report is shown by counting the steps
that are left (`goesOn`).
-/

namespace ThreadEngine

/-! ## What a creator reports -/

/-- The creator of an application thread reports success; that of an entry point reports an abort of
the execution context. -/
structure Strand.Reported {σ : Type} (t : ThreadId) (s : Strand σ) : Prop where
  application : s.handle.kind = .application → ∀ fault, s.creation = some (.done fault) →
    fault = none
  main : s.handle.kind = .main → ∀ fault, s.creation = some (.done fault) →
    ∃ a, s.child = some (.ended a) ∧ fault = a.map fun _ => .threadAborted t.number

namespace World

variable {σ : Type} {n : Nat} {config : ConfigCell} {h h' : List Deed} {u v w x : World σ}
  {op : Operation σ} {t : ThreadId} {s s' : Strand σ} {fault : Option Error}

theorem strand_of_setCreation {c : Creation}
    (strand_eq' : (w.setCreation t c).strands[t]? = some s') :
    ∃ s, w.strands[t]? = some s ∧ s' = { s with creation := some c } := by
  rw [setCreation, modifyStrand, List.getElem?_modify_eq] at strand_eq'
  obtain ⟨s, strand_eq, rfl⟩ := Option.map_eq_some_iff.mp strand_eq'
  exact ⟨s, strand_eq, rfl⟩

/-- The last step of a creator: the hook of a thread that is not joined, or the join. -/
theorem creator_ends (done : u.stepCreator t = some v) (strand_eq : u.strands[t]? = some s)
    (order : s.launchState.InOrder t) (strand_eq' : v.strands[t]? = some s')
    (ends : s'.creation = some (.done fault)) :
    (s.creation = some .hooking ∧ fault = none ∧ ¬ (s.handle.kind = .main ∧
        s.handle.context = .attached)) ∨
      ∃ a, s.creation = some .joining ∧ s'.child = some (.ended a) ∧
        fault = a.map fun _ => .threadAborted t.number := by
  have other {c : Creation} {w : World σ} (strand_eq' : (w.setCreation t c).strands[t]? = some s') :
      c = .done fault := by
    obtain ⟨_, _, rfl⟩ := strand_of_setCreation strand_eq'
    exact Option.some.inj ends
  obtain ⟨s₁, strand_eq₁, cases⟩ := stepCreator_cases done
  obtain rfl : s = s₁ := Option.some.inj (strand_eq.symm.trans strand_eq₁)
  obtain ⟨thread, object, creation_eq, _, rfl⟩ | ⟨thread, creation_eq, rfl⟩ | ⟨creation_eq, rfl⟩ |
    ⟨creation_eq, rfl⟩ | ⟨creation_eq, ready, rfl⟩ | ⟨creation_eq, rfl⟩ |
    ⟨a, creation_eq, child_eq, rfl⟩ | ⟨thread, object, _, creation_eq, _, rfl⟩ |
    ⟨a, creation_eq, child_eq, rfl⟩ := cases
  · cases other strand_eq'
  · cases other strand_eq'
  · cases other strand_eq'
  · cases other strand_eq'
  · cases other (w := u) strand_eq'
  · left
    unfold hook at strand_eq'
    split at strand_eq'
    · cases other strand_eq'
    · rename_i aside
      cases other strand_eq'
      exact ⟨creation_eq, rfl, aside⟩
  · right
    cases other strand_eq'
    obtain ⟨s₂, strand_eq₂, rfl⟩ := strand_of_setCreation strand_eq'
    obtain rfl : s = s₂ := Option.some.inj (strand_eq.symm.trans strand_eq₂)
    exact ⟨a, creation_eq, child_eq, rfl⟩
  · cases other (w := u) strand_eq'
  · exact absurd child_eq (order.not_abandoned creation_eq a)

/-- What one operation preserves. -/
theorem reported_perform (launching : Launching h u) (fits : s.stage.Fits t)
    (joinable : s.Joinable) (done : u.perform op = some v) (strand_eq : u.strands[t]? = some s)
    (strand_eq' : v.strands[t]? = some s') (stage : u.NextStage op t s.stage s'.stage)
    (next : s.launchState.Next u t (u.deed? op) s'.launchState)
    (reported : s.Reported t) : s'.Reported t := by
  have kind_eq : s'.handle.kind = s.handle.kind := stage.kind
  have order := launching.inOrder t s.launchState (launch_of_strand strand_eq)
  -- the creation was over before
  have stays (same : s'.creation = s.creation) : s'.Reported t := by
    refine ⟨?_, ?_⟩
    · intro application fault ends
      exact reported.application (kind_eq.symm.trans application) fault (same.symm.trans ends)
    · intro main fault ends
      obtain ⟨a, ended, fault_eq⟩ :=
        reported.main (kind_eq.symm.trans main) fault (same.symm.trans ends)
      exact ⟨a, next.ended order ended, fault_eq⟩
  generalize stage_eq' : s'.stage = x' at stage
  have creation_eq' : s'.creation = x'.creation := congrArg Stage.creation stage_eq'
  cases stage with
  | same => exact stays creation_eq'
  | created _ _ _ _ =>
      refine ⟨?_, ?_⟩
      · intro _ fault ends
        cases creation_eq'.symm.trans ends
      · intro _ fault ends
        cases creation_eq'.symm.trans ends
  | detached _ _ _ => exact stays (creation_eq'.trans s.stage.creation_detach)
  | advanced op_eq step =>
      subst op_eq
      have creator : u.stepCreator t = some v := done
      have ends (fault : Option Error) (ends : s'.creation = some (.done fault)) :=
        creator_ends creator strand_eq order strand_eq' ends
      refine ⟨?_, ?_⟩
      · intro application fault closed
        obtain ⟨_, none_eq, _⟩ | ⟨a, joining, _⟩ := ends fault closed
        · exact none_eq
        · have joins : s.stage.creation = some .joining := joining
          simp only [Stage.Fits, joins] at fits
          cases (kind_eq.symm.trans application).symm.trans fits.2.1.1
      · intro main fault closed
        obtain ⟨hooking, _, aside⟩ | ⟨a, _, ended, fault_eq⟩ := ends fault closed
        · have was := kind_eq.symm.trans main
          have attached := joinable.attached was _ hooking rfl
          exact absurd ⟨was, attached⟩ aside
        · exact ⟨a, ended, fault_eq⟩

end World

/-- A creator that waits for the report has told the context to go. -/
theorem LaunchState.Next.told {σ : Type} {u : World σ} {t : ThreadId} {s s' : LaunchState σ}
    {d : Option Deed}
    (next : s.Next u t d s')
    (told : s.creation = some .awaitingReady → s.launchSent = true) :
    s'.creation = some .awaitingReady → s'.launchSent = true := by
  intro awaits
  cases next with
  | same | begun | ran => exact told awaits
  | created => cases awaits
  | step step =>
      cases step with
      | told => rfl
      | dropped | edited | woken | enlisted | deserted => exact told awaits
      | hooked creation_eq next => rcases next with rfl | rfl <;> cases awaits
      | bound | spawned | attached | heard | joined | refused | abandoned => cases awaits

namespace World

variable {σ : Type} {h : List Deed} {u v : World σ} {op : Operation σ}

/-- What is true of all creations: the marks of a launch fit its creator's progress, a creation that
is over has reported what it should, and a creator that waits for a report has told the context to
go. -/
structure SoundCreations (w : World σ) : Prop extends Joins w where
  fits : ∀ (t : ThreadId) (x : Stage), w.stages[t]? = some x → x.Fits t
  reported : ∀ (t : ThreadId) (s : Strand σ), w.strands[t]? = some s → s.Reported t
  told : ∀ (t : ThreadId) (s : Strand σ), w.strands[t]? = some s →
    s.creation = some .awaitingReady → s.launchSent = true

namespace SoundCreations

theorem fits_of_strand {t : ThreadId} {s : Strand σ} (creations : u.SoundCreations)
    (strand_eq : u.strands[t]? = some s) : s.stage.Fits t :=
  creations.fits t s.stage (stage_of_strand strand_eq)

/-- What one operation preserves, if it creates no thread whose creation has begun. -/
theorem perform (creations : u.SoundCreations) (sound : Sound h u) (isPublic : op.IsPublic)
    (fresh : u.recreates op = false) (done : u.perform op = some v) : v.SoundCreations := by
  refine ⟨creations.toJoins.perform sound isPublic done, ?_, ?_, ?_⟩
  · intro t x stage_eq
    obtain ⟨kind, _, rfl⟩ | ⟨x₀, was, next⟩ :=
      (restaged_perform sound.launching done).next stage_eq
    · exact Stage.fits_first t kind
    · refine next.fits was ?_ (sound.detachesApplications creations.spares)
        (creations.fits t x₀ was)
      intro slot thread _ _ deed_eq
      obtain ⟨s, _, rfl, launch_eq⟩ := launch_of_stage was
      exact creation_of_fresh fresh launch_eq deed_eq
  · intro t s strand_eq
    obtain ⟨kind, _, first⟩ | ⟨s₀, was, stage, next⟩ :=
      strand_next sound.launching isPublic done strand_eq
    · have none_eq : s.creation = none := congrArg Stage.creation first
      refine ⟨?_, ?_⟩
      · intro _ fault closed
        cases none_eq.symm.trans closed
      · intro _ fault closed
        cases none_eq.symm.trans closed
    · exact reported_perform sound.launching (creations.fits_of_strand was)
        (creations.joinable t s₀ was) done was strand_eq stage next (creations.reported t s₀ was)
  · intro t s strand_eq
    obtain ⟨_, _, first⟩ | ⟨s₀, was, _, next⟩ :=
      strand_next sound.launching isPublic done strand_eq
    · intro awaits
      have none_eq : s.creation = none := congrArg Stage.creation first
      cases none_eq.symm.trans awaits
    · exact next.told (creations.told t s₀ was)

/-- Nothing matters but the marks, the creator's progress and the execution context. -/
theorem of_strands (creations : u.SoundCreations) (joins : v.Joins)
    (same : ∀ (t : ThreadId) (s' : Strand σ), v.strands[t]? = some s' →
      ∃ s, u.strands[t]? = some s ∧
        s'.stage = s.stage ∧ s'.child = s.child ∧ s'.launchSent = s.launchSent) :
    v.SoundCreations := by
  refine ⟨joins, ?_, ?_, ?_⟩
  · intro t x stage_eq
    obtain ⟨s', strand_eq', rfl, _⟩ := launch_of_stage stage_eq
    obtain ⟨s, strand_eq, stage_eq', _⟩ := same t s' strand_eq'
    rw [stage_eq']
    exact creations.fits_of_strand strand_eq
  · intro t s' strand_eq'
    obtain ⟨s, strand_eq, stage_eq, child_eq, _⟩ := same t s' strand_eq'
    have kind_eq : s'.handle.kind = s.handle.kind := congrArg Stage.kind stage_eq
    have creation_eq : s'.creation = s.creation := congrArg Stage.creation stage_eq
    obtain ⟨application, main⟩ := creations.reported t s strand_eq
    refine ⟨?_, ?_⟩
    · rw [kind_eq, creation_eq]
      exact application
    · rw [kind_eq, creation_eq, child_eq]
      exact main
  · intro t s' strand_eq'
    obtain ⟨s, strand_eq, stage_eq, _, sent_eq⟩ := same t s' strand_eq'
    have creation_eq : s'.creation = s.creation := congrArg Stage.creation stage_eq
    rw [creation_eq, sent_eq]
    exact creations.told t s strand_eq

theorem withState (creations : u.SoundCreations) (t : ThreadId) (st : State) :
    (u.withState t st).SoundCreations := by
  refine creations.of_strands (creations.toJoins.withState t st) ?_
  intro j s' strand_eq'
  obtain ⟨s, strand_eq, rfl | rfl⟩ := strand_of_modifyStrand strand_eq'
  · exact ⟨s', strand_eq, rfl, rfl, rfl⟩
  · exact ⟨s, strand_eq, rfl, rfl, rfl⟩

theorem putHeld (creations : u.SoundCreations) (slot : ThreadId) (thread : Thread) :
    (u.putHeld slot thread).SoundCreations := by
  refine creations.of_strands (creations.toJoins.putHeld slot thread) ?_
  intro j s' strand_eq'
  obtain ⟨s, strand_eq, rfl | rfl⟩ := strand_of_modifyStrand strand_eq'
  · exact ⟨s', strand_eq, rfl, rfl, rfl⟩
  · exact ⟨s, strand_eq, rfl, rfl, rfl⟩

theorem takeHeld (creations : u.SoundCreations) (slot : ThreadId) (c : Ctx) (notes : List Note) :
    ((u.takeHeld slot).note c notes).SoundCreations := by
  refine creations.of_strands (creations.toJoins.takeHeld slot c notes) ?_
  intro j s' strand_eq'
  obtain ⟨s, strand_eq, rfl | rfl⟩ := strand_of_modifyStrand (u := u) strand_eq'
  · exact ⟨s', strand_eq, rfl, rfl, rfl⟩
  · exact ⟨s, strand_eq, rfl, rfl, rfl⟩

end SoundCreations

end World

/-- What whole runs preserve. -/
theorem FineWorld.Run.creations {σ : Type} {n : Nat} {config : ConfigCell} {f : FineWorld σ}
    {log : List FineDeed} (run : Run Operation.IsPublic (ofRegistries n config) log f) :
    f.world.SoundCreations := by
  refine run.keeps ?_ ?_ ?_ ?_ ?_
  · refine ⟨.ofRegistries n config, ?_, ?_, ?_⟩
    · intro t x stage_eq
      cases stage_eq
    · intro t s strand_eq
      cases strand_eq
    · intro t s strand_eq
      cases strand_eq
  · intro h u v op sound isPublic fresh done creations
    exact creations.perform sound isPublic fresh done
  · intro u t st creations
    exact creations.withState t st
  · intro u slot thread creations
    exact creations.putHeld slot thread
  · intro u slot c notes creations
    exact creations.takeHeld slot c notes

/-! ## Creators get done -/

/-- How many steps a creator has to take before it has come to the end or to its join. -/
def Creation.stepsLeft : Creation → Nat
  | .binding .. => 6
  | .spawning _ => 5
  | .attaching => 4
  | .launching => 3
  | .awaitingReady => 2
  | .hooking => 1
  | .joining | .done _ | .aborted _ => 0

/-- How many steps an execution context has to take before it has begun the body. -/
def Child.stepsLeft {σ : Type} : Child σ → Nat
  | .idle _ => 3
  | .recording _ => 2
  | .reporting _ => 1
  | .running _ | .ended _ => 0

/-- How many steps are left in a creation; an execution context that is not there has them all. -/
def Strand.stepsLeft {σ : Type} (s : Strand σ) : Nat :=
  (s.creation.map Creation.stepsLeft).getD 0 + (s.child.map Child.stepsLeft).getD 3

namespace World

variable {σ : Type} {h : List Deed} {w : World σ} {t : ThreadId} {s : Strand σ} {c : Creation}

theorem strands_modifyStrand (strand_eq : w.strands[t]? = some s) (f : Strand σ → Strand σ) :
    (w.modifyStrand t f).strands[t]? = some (f s) := by
  simp [modifyStrand, strand_eq]

/-- Whoever is to go on with a creation can do so, and less is left to do then. -/
def GoesOn (I : Interpreter σ) (w : World σ) (t : ThreadId) (s : Strand σ) (c : Ctx) : Prop :=
  ∃ v s', w.step I c = some v ∧ w.recreates (.step I c) = false ∧ v.strands[t]? = some s' ∧
    s'.stepsLeft < s.stepsLeft ∧ s'.creation.isSome = true

/-- An execution context that has been told to go begins the body. -/
theorem goesOn_of_early (I : Interpreter σ) {child : Child σ} (strand_eq : w.strands[t]? = some s)
    (child_eq : s.child = some child) (sent : s.launchSent = true) (early : ¬ child.HasBegun)
    (under : s.creation.isSome = true) : GoesOn I w t s (.body t) := by
  have fresh : w.recreates (.step I (.body t)) = false := by
    cases child with
    | idle | recording | reporting =>
        simp [recreates, deed?, stepDeed?, strand_eq, child_eq]
    | running | ended => exact absurd trivial early
  cases child with
  | idle thread =>
      let next : Child σ := if thread.kind.isRecorded then .recording thread else .reporting thread
      refine ⟨storeChild t w next, { s with child := some next }, ?_, fresh,
        strands_modifyStrand strand_eq _, ?_, under⟩
      · simp only [step, stepBody, strand_eq, child_eq, sent, if_true, next]
      · simp only [Strand.stepsLeft, child_eq, next]
        split <;> simp [Child.stepsLeft]
  | recording thread =>
      let u := (w.note (.body t) [.event (.recording thread.id)]).add (.body t) thread.registry
        thread.id
      have added : u.strands[t]? = some s := by
        rw [strands_add]
        exact strand_eq
      refine ⟨storeChild t u (.reporting thread), { s with child := some (.reporting thread) }, ?_,
        fresh, strands_modifyStrand added _, ?_, under⟩
      · simp only [step, stepBody, strand_eq, child_eq, u]
      · simp [Strand.stepsLeft, child_eq, Child.stepsLeft]
  | reporting thread =>
      let start := Task.start I thread []
      refine ⟨(storeChild t (w.modifyStrand t ({ · with readySent := true }))
          (.running start.1)).note (.body t) start.2,
        { s with readySent := true, child := some (.running start.1) }, ?_, fresh,
        strands_modifyStrand (strands_modifyStrand strand_eq _) _, ?_, under⟩
      · simp only [step, stepBody, strand_eq, child_eq, start]
      · simp [Strand.stepsLeft, child_eq, Child.stepsLeft]
  | running task | ended a => exact absurd trivial early

/-- A creation that is under way goes on: the creator takes its next step, or it waits for the
report of a context that has not begun and takes its own. -/
theorem SoundCreations.goesOn (I : Interpreter σ) (creations : w.SoundCreations)
    (launching : Launching h w) (strand_eq : w.strands[t]? = some s)
    (creation_eq : s.creation = some c) (left : c.stepsLeft ≠ 0) :
    GoesOn I w t s (.creator t) ∨ GoesOn I w t s (.body t) := by
  have order := launching.inOrder t s.launchState (launch_of_strand strand_eq)
  have fits := creations.fits_of_strand strand_eq
  have under : s.launchState.creation = some c := creation_eq
  have under' : s.stage.creation = some c := creation_eq
  cases c with
  | binding thread object =>
      simp only [LaunchState.InOrder, under] at order
      simp only [Stage.Fits, under'] at fits
      have unbound : s.handle.object = none := fits.1
      left
      refine ⟨(w.modifyHandle t ({ · with object := some object })).setCreation t
        (.spawning thread), _, ?_, rfl,
        strands_modifyStrand (strands_modifyStrand strand_eq _) _, ?_, rfl⟩
      · simp [step, stepCreator, strand_eq, creation_eq, unbound]
      · simp [Strand.stepsLeft, creation_eq, Creation.stepsLeft]
  | spawning thread =>
      simp only [LaunchState.InOrder, under] at order
      have absent : s.child = none := order.2.1
      left
      refine ⟨(storeChild t w (.idle thread)).setCreation t .attaching, _, ?_, rfl,
        strands_modifyStrand (strands_modifyStrand strand_eq _) _, ?_, rfl⟩
      · simp only [step, stepCreator, strand_eq, creation_eq]
      · simp [Strand.stepsLeft, creation_eq, Creation.stepsLeft, absent, Child.stepsLeft]
  | attaching =>
      left
      refine ⟨(w.modifyHandle t ({ · with context := .attached, launched := true })).setCreation t
        .launching, _, ?_, rfl, strands_modifyStrand (strands_modifyStrand strand_eq _) _, ?_, rfl⟩
      · simp only [step, stepCreator, strand_eq, creation_eq]
      · simp [Strand.stepsLeft, creation_eq, Creation.stepsLeft]
  | launching =>
      simp only [LaunchState.InOrder, under] at order
      obtain ⟨⟨thread, idle, _⟩, _⟩ := order
      have child_eq : s.child = some (.idle thread) := idle
      left
      refine ⟨(w.modifyStrand t ({ · with launchSent := true })).setCreation t .awaitingReady, _,
        ?_, rfl, strands_modifyStrand (strands_modifyStrand strand_eq _) _, ?_, rfl⟩
      · simp only [step, stepCreator, strand_eq, creation_eq, child_eq]
      · simp [Strand.stepsLeft, creation_eq, Creation.stepsLeft]
  | awaitingReady =>
      simp only [LaunchState.InOrder, under] at order
      obtain ⟨child, child_eq, ⟨early, _⟩ | ⟨_, ready⟩⟩ := order
      · have notBegun : ¬ child.HasBegun := by cases child <;> first | exact id | cases early
        right
        have told := creations.told t s strand_eq creation_eq
        exact goesOn_of_early I strand_eq child_eq told notBegun (by rw [creation_eq]; rfl)
      · have reported : s.readySent = true := ready
        left
        refine ⟨(w.setCreation t .hooking).note (.creator t) [.event (.launched t s.handle.kind)],
          _, ?_, rfl, strands_modifyStrand strand_eq _, ?_, rfl⟩
        · simp only [step, stepCreator, strand_eq, creation_eq, reported, if_true]
        · simp [Strand.stepsLeft, creation_eq, Creation.stepsLeft]
  | hooking =>
      left
      have step_eq : w.step I (.creator t) = some (w.hook t s.handle) := by
        simp only [step, stepCreator, strand_eq, creation_eq]
      simp only [hook] at step_eq
      split at step_eq
      · refine ⟨_, _, step_eq, rfl, strands_modifyStrand (strands_modifyStrand strand_eq _) _, ?_,
          rfl⟩
        simp [Strand.stepsLeft, creation_eq, Creation.stepsLeft]
      · refine ⟨_, _, step_eq, rfl, strands_modifyStrand strand_eq _, ?_, rfl⟩
        simp [Strand.stepsLeft, creation_eq, Creation.stepsLeft]
  | joining | done _ | aborted _ => exact absurd rfl left

end World

/-! ## The outcome -/

/-- What the creator of an entry point reports when the context has ended, possibly by an abort. -/
def Launch.ofEnd (t : ThreadId) : Option Abort → Launch
  | none => .launched t
  | some _ => .failed (.threadAborted t.number)

namespace World

variable {σ : Type} {w : World σ} {t : ThreadId} {s : Strand σ} {a : Option Abort}

theorem launchReport_of_done (strand_eq : w.strands[t]? = some s)
    (creation_eq : s.creation = some (.done (a.map fun _ => .threadAborted t.number))) :
    w.launchReport t = Launch.ofEnd t a := by
  simp only [launchReport, strand_eq, Option.bind_some, creation_eq]
  cases a <;> rfl

theorem done_of_launchReport (strand_eq : w.strands[t]? = some s)
    (returned : w.launchReport t ≠ .pending) : ∃ fault, s.creation = some (.done fault) := by
  simp only [launchReport, strand_eq, Option.bind_some] at returned
  split at returned
  · exact ⟨none, ‹_›⟩
  · exact ⟨some _, ‹_›⟩
  · exact absurd rfl returned

theorem SoundCreations.not_aborted (creations : w.SoundCreations)
    (strand_eq : w.strands[t]? = some s) (a : Abort) : s.creation ≠ some (.aborted a) := by
  intro aborted
  have fits := creations.fits_of_strand strand_eq
  have stage_eq : s.stage.creation = some (.aborted a) := aborted
  simp only [Stage.Fits, stage_eq] at fits

end World

namespace FineWorld

open World (promptMethod promptInterpreter isPublic_promptInterpreter)

variable {σ : Type} {n : Nat} {config : ConfigCell} {log log' : List FineDeed} {f g : FineWorld σ}
  {t : ThreadId} {s : Strand σ} {c : Creation} {a : Option Abort}

/-- Steps of the creator and of the execution context of a thread, while all others stand still. -/
def Together (I : Interpreter σ) (t : ThreadId) : FineWorld σ → FineWorld σ → Prop :=
  Relation.ReflTransGen fun f g =>
    ∃ more, f.perform (.act (.step I (.creator t))) = some (more, g) ∨
      f.perform (.act (.step I (.body t))) = some (more, g)

/-- While no change of state is pending, every operation can be carried out as a whole. -/
theorem perform_of_idle {op : Operation σ} {v : World σ} (idle : f.pending = [])
    (fresh : f.world.recreates op = false) (done : f.world.perform op = some v) :
    ∃ more g, f.perform (.act op) = some (more, g) ∧ g.world = v ∧ g.pending = [] := by
  have free : f.Free op := by simp [Free, idle]
  let g : FineWorld σ :=
    { f with world := v, displaced := f.displaced ++ (f.world.displaced? op).toList }
  refine ⟨(f.world.deed? op).toList.map .deed, g, ?_, rfl, idle⟩
  rw [perform, if_pos ⟨free, fresh⟩, done]
  rfl

theorem Run.strand_of_strand (reached : Run Operation.IsPublic (ofRegistries n config) log f)
    (run : Run Operation.IsPublic f log' g) (strand_eq : f.world.strands[t]? = some s) :
    ∃ s', g.world.strands[t]? = some s' ∧ s'.handle.kind = s.handle.kind := by
  have handle_eq : f.world.handle? t = some s.handle := by simp [World.handle?, strand_eq]
  obtain ⟨_, handle_eq', kind_eq⟩ := reached.handle?_of_handle? run handle_eq
  obtain ⟨s', strand_eq', rfl⟩ := Option.map_eq_some_iff.mp handle_eq'
  exact ⟨s', strand_eq', kind_eq⟩

/-- A context that has ended stays as it is. -/
theorem Run.ended (reached : Run Operation.IsPublic (ofRegistries n config) log f)
    (run : Run Operation.IsPublic f log' g) (strand_eq : f.world.strands[t]? = some s)
    (ended : s.child = some (.ended a)) :
    ∃ s', g.world.strands[t]? = some s' ∧ s'.child = some (.ended a) := by
  induction run with
  | refl => exact ⟨s, strand_eq, ended⟩
  | snoc before step ih =>
      obtain ⟨s₁, strand_eq₁, ended₁⟩ := ih
      have here := reached.trans before
      obtain ⟨s', strand_eq', _⟩ := here.strand_of_strand (Run.refl.snoc step) strand_eq₁
      exact ⟨s', strand_eq', step.ended here.sound strand_eq₁ ended₁ strand_eq'⟩

/-- A creation gets to its end or its join, whatever the others have done. -/
theorem Run.comes_to_rest {I : Interpreter σ} (isPublic : I.IsPublic)
    (reached : Run Operation.IsPublic (ofRegistries n config) log f) (idle : f.pending = [])
    (strand_eq : f.world.strands[t]? = some s) (creation_eq : s.creation = some c) :
    ∃ log' g s' c', Together I t f g ∧ Run Operation.IsPublic f log' g ∧ g.pending = [] ∧
      g.world.strands[t]? = some s' ∧ s'.creation = some c' ∧ c'.stepsLeft = 0 := by
  induction left : s.stepsLeft using Nat.strong_induction_on generalizing f log s c with
  | _ k ih =>
      by_cases rests : c.stepsLeft = 0
      · exact ⟨[], f, s, c, .refl, .refl, idle, strand_eq, creation_eq, rests⟩
      -- what follows the step of either context
      have next {ctx : Ctx} (goesOn : World.GoesOn I f.world t s ctx)
          (mine : ctx = .creator t ∨ ctx = .body t) :
          ∃ log' g s' c', Together I t f g ∧ Run Operation.IsPublic f log' g ∧ g.pending = [] ∧
            g.world.strands[t]? = some s' ∧ s'.creation = some c' ∧ c'.stepsLeft = 0 := by
        obtain ⟨u, s₁, step_eq, fresh, strand_eq₁, less, under⟩ := goesOn
        obtain ⟨c₁, creation_eq₁⟩ := Option.isSome_iff_exists.mp under
        obtain ⟨more, f₁, done, rfl, idle₁⟩ := perform_of_idle idle fresh step_eq
        have step : Step Operation.IsPublic f more f₁ :=
          step_of_perform (by rintro _ ⟨⟩; exact isPublic) done
        have once := Run.refl.snoc step
        obtain ⟨log', g, s', c', together, run, rests⟩ :=
          ih s₁.stepsLeft (left ▸ less) (reached.trans once) idle₁ strand_eq₁ creation_eq₁ rfl
        refine ⟨_, g, s', c', .head ⟨more, ?_⟩ together, once.trans run, rests⟩
        rcases mine with rfl | rfl
        · exact .inl done
        · exact .inr done
      obtain goesOn | goesOn :=
        reached.creations.goesOn I reached.sound.launching strand_eq creation_eq rests
      · exact next goesOn (.inl rfl)
      · exact next goesOn (.inr rfl)

/-- The creator of an application thread gets done, and reports success. -/
theorem Run.launches_application {I : Interpreter σ} (isPublic : I.IsPublic)
    (reached : Run Operation.IsPublic (ofRegistries n config) log f) (idle : f.pending = [])
    (strand_eq : f.world.strands[t]? = some s) (creation_eq : s.creation = some c)
    (application : s.handle.kind = .application) :
    ∃ g, Together I t f g ∧ g.world.launchReport t = .launched t := by
  obtain ⟨log', g, s', c', together, run, _, strand_eq', creation_eq', rests⟩ :=
    reached.comes_to_rest isPublic idle strand_eq creation_eq
  have creations := (reached.trans run).creations
  obtain ⟨_, same, kind_eq⟩ := reached.strand_of_strand run strand_eq
  obtain rfl := Option.some.inj (strand_eq'.symm.trans same)
  have application' := kind_eq.trans application
  refine ⟨g, together, ?_⟩
  cases c' with
  | done fault =>
      obtain rfl := (creations.reported t s' strand_eq').application application' fault creation_eq'
      exact World.launchReport_of_done (a := none) strand_eq' creation_eq'
  | joining =>
      have fits := creations.fits_of_strand strand_eq'
      have joins : s'.stage.creation = some .joining := creation_eq'
      simp only [Stage.Fits, joins] at fits
      cases application'.symm.trans fits.2.1.1
  | aborted a => exact absurd creation_eq' (creations.not_aborted strand_eq' a)
  | binding | spawning | attaching | launching | awaitingReady | hooking => cases rests

/-- The creator of an entry point gets done when the context has ended. -/
theorem Run.joins_main {I : Interpreter σ} (isPublic : I.IsPublic)
    (reached : Run Operation.IsPublic (ofRegistries n config) log f) (idle : f.pending = [])
    (strand_eq : f.world.strands[t]? = some s) (creation_eq : s.creation = some c)
    (main : s.handle.kind = .main) (ended : s.child = some (.ended a)) :
    ∃ g, Together I t f g ∧ g.world.launchReport t = Launch.ofEnd t a := by
  obtain ⟨log', g, s', c', together, run, idle', strand_eq', creation_eq', rests⟩ :=
    reached.comes_to_rest isPublic idle strand_eq creation_eq
  have creations := (reached.trans run).creations
  obtain ⟨_, same, kind_eq⟩ := reached.strand_of_strand run strand_eq
  obtain rfl := Option.some.inj (strand_eq'.symm.trans same)
  obtain ⟨_, same, ended'⟩ := reached.ended run strand_eq ended
  obtain rfl := Option.some.inj (strand_eq'.symm.trans same)
  cases c' with
  | done fault =>
      obtain ⟨a', ended₁, rfl⟩ :=
        (creations.reported t s' strand_eq').main (kind_eq.trans main) fault creation_eq'
      obtain rfl := Child.ended.inj (Option.some.inj (ended'.symm.trans ended₁))
      exact ⟨g, together, World.launchReport_of_done strand_eq' creation_eq'⟩
  | joining =>
      let x := g.world.setCreation t (.done (a.map fun _ => .threadAborted t.number))
      have last : g.world.step I (.creator t) = some x := by
        simp only [World.step, World.stepCreator, strand_eq', creation_eq', ended']
        cases a <;> rfl
      have fresh : g.world.recreates (.step I (.creator t)) = false := rfl
      obtain ⟨more, y, done, world_eq, _⟩ := perform_of_idle idle' fresh last
      refine ⟨y, together.tail ⟨more, .inl done⟩, ?_⟩
      rw [world_eq]
      exact World.launchReport_of_done (World.strands_modifyStrand strand_eq' _) rfl
  | aborted a => exact absurd creation_eq' (creations.not_aborted strand_eq' a)
  | binding | spawning | attaching | launching | awaitingReady | hooking => cases rests

/-- The outcome of a creation, in any run.

* The creator is never torn down, and unless displaced threads were reclaimed, nobody else has tried
  to create a thread once more.
* The creator of an application thread reports nothing but success.  While no change of state is
  pending, it gets to that from wherever it is.
* The creator of an entry point that has reported has waited for the end of the context, and the
  method of the body has been over.  It reports an abort if the context has ended by one, and
  success otherwise.  Unless displaced threads were reclaimed, or the thread was revived since the
  method was over, the thread is dead then; and the report is an abort if one has come out of the
  method, or if the thread was dead already, and a success otherwise, also if the method has failed.
* Once the context of an entry point has ended, and while no change of state is pending, the creator
  gets to its report. -/
theorem creation_outcome (reached : Run Operation.IsPublic (ofRegistries n config) log f)
    (strand_eq : f.world.strands[t]? = some s) (creation_eq : s.creation = some c) :
    ((∀ a, c ≠ .aborted a) ∧
        ((∀ t', .reclaimed t' ∉ log) → ∀ t', .rebound t' ∉ log)) ∧
      (s.handle.kind = .application →
        (f.world.launchReport t = .pending ∨ f.world.launchReport t = .launched t) ∧
          ∀ I : Interpreter σ, I.IsPublic → f.pending = [] →
            ∃ g, Together I t f g ∧ g.world.launchReport t = .launched t) ∧
      (s.handle.kind = .main →
        (f.world.launchReport t ≠ .pending →
          (∃ a, s.child = some (.ended a) ∧ f.world.launchReport t = Launch.ofEnd t a) ∧
            WasOver (ofRegistries n config) log f t ∧
            ((∀ t', .reclaimed t' ∉ log) → ∀ log₁ log₂ x passing, log = log₁ ++ log₂ →
              Run Operation.IsPublic (ofRegistries n config) log₁ x →
              x.world.BodyOver t passing → Run Operation.IsPublic x log₂ f →
              (∀ next, .revived t next ∉ log₂) →
              f.world.state? t = some .died ∧
                (f.world.launchReport t = .failed (.threadAborted t.number) ↔
                  passing ≠ none ∨ x.world.state? t = some .died) ∧
                (f.world.launchReport t = .launched t ↔
                  passing = none ∧ x.world.state? t ≠ some .died))) ∧
          ∀ a, s.child = some (.ended a) → ∀ I : Interpreter σ, I.IsPublic → f.pending = [] →
            ∃ g, Together I t f g ∧ g.world.launchReport t = Launch.ofEnd t a) := by
  have creations := reached.creations
  refine ⟨⟨?_, fun reclaims => (reached.orderly reclaims).2⟩, ?_, ?_⟩
  · rintro a rfl
    exact creations.not_aborted strand_eq a creation_eq
  · intro application
    refine ⟨?_, fun I isPublic idle =>
      reached.launches_application isPublic idle strand_eq creation_eq application⟩
    by_cases returned : f.world.launchReport t = .pending
    · exact .inl returned
    · obtain ⟨fault, done⟩ := World.done_of_launchReport strand_eq returned
      obtain rfl := (creations.reported t s strand_eq).application application fault done
      exact .inr (World.launchReport_of_done (a := none) strand_eq done)
  · intro main
    refine ⟨?_, fun a ended I isPublic idle =>
      reached.joins_main isPublic idle strand_eq creation_eq main ended⟩
    intro returned
    obtain ⟨fault, done⟩ := World.done_of_launchReport strand_eq returned
    obtain ⟨a, ended, rfl⟩ := (creations.reported t s strand_eq).main main fault done
    have report_eq := World.launchReport_of_done strand_eq done
    refine ⟨⟨a, ended, report_eq⟩, reached.wasOver_of_ended strand_eq ended, ?_⟩
    rintro reclaims log₁ log₂ x passing rfl before atEnd after revives
    obtain ⟨abort_eq, died⟩ :=
      before.eq_startAbort atEnd after reclaims revives strand_eq ended
    refine ⟨died, ?_⟩
    rw [report_eq, abort_eq]
    unfold World.startAbort
    by_cases already : x.world.state? t = some .died
    · cases passing <;> simp [already, Launch.ofEnd]
    · cases passing <;> simp [already, Launch.ofEnd]

/-- Runs one instruction in the method that otherwise returns at once. -/
def singleStep (instr : Script.Instr) : Interpreter Script.Activation :=
  Script.interpreter { methods := [promptMethod], codes := [[instr]] }

theorem isPublic_singleStep (instr : Script.Instr) : (singleStep instr).IsPublic :=
  Script.isPublic_interpreter _

/-- Three threads are launched one after the other: an application thread that aborts, an entry
point that fails while its state is changed, and an entry point that aborts. -/
def threeLaunches : List (FineOperation Script.Activation) :=
  let failing := singleStep (.fail .registryNotInitialized)
  let raising := singleStep (.raise "!")
  List.flatten
    [[.act (.application promptMethod [.null] ⟨0, 4, .script⟩),
        .act (.main promptMethod [] ⟨0, 4, .script⟩), .act (.main promptMethod [] ⟨0, 4, .script⟩),
        .act (.create 0 .null), .act (.create 1 .null), .act (.create 2 .null)],
      List.replicate 4 (.act (.step raising (.creator 0))),
      List.replicate 9 (.act (.step raising (.body 0))),
      List.replicate 2 (.act (.step raising (.creator 0))),
      [.check (.transition .host 0 1 .waiting)],
      List.replicate 4 (.act (.step failing (.creator 1))), [.store 0],
      List.replicate 7 (.act (.step failing (.body 1))),
      List.replicate 3 (.act (.step failing (.creator 1))),
      List.replicate 4 (.act (.step raising (.creator 2))),
      List.replicate 7 (.act (.step raising (.body 2))),
      List.replicate 3 (.act (.step raising (.creator 2)))]

/-- Only the abort of an entry point is reported: the one that fails ends without an abort while it
is alive, the other one does not. -/
theorem creation_outcome_of_three_launches :
    ∃ (log : List FineDeed) (f : FineWorld Script.Activation),
      Run Operation.IsPublic (ofRegistries 1 ConfigCell.fresh) log f ∧
        f.world.launchReport 0 = .launched 0 ∧ f.world.launchReport 1 = .launched 1 ∧
        f.world.launchReport 2 = .failed (.threadAborted 3) ∧ f.world.state? 1 = some .died ∧
        f.world.state? 2 = some .died ∧
        (∃ (log₁ log₂ : List FineDeed) (x : FineWorld Script.Activation), log = log₁ ++ log₂ ∧
          Run Operation.IsPublic (ofRegistries 1 ConfigCell.fresh) log₁ x ∧
          x.world.BodyOver 1 none ∧ x.world.state? 1 ≠ some .died) ∧
        ∃ (log₁ log₂ : List FineDeed) (x : FineWorld Script.Activation) (passing : Option Abort),
          log = log₁ ++ log₂ ∧ Run Operation.IsPublic (ofRegistries 1 ConfigCell.fresh) log₁ x ∧
          x.world.BodyOver 2 passing ∧ (passing ≠ none ∨ x.world.state? 2 = some .died) := by
  have within : ∀ op ∈ threeLaunches, op.Within Operation.IsPublic := by
    simp [threeLaunches, FineOperation.Within, Operation.IsPublic, isPublic_singleStep]
  have reaches : (performAll (ofRegistries 1 ConfigCell.fresh) threeLaunches).map
      (fun done => (done.1, done.2.world.strands.map fun s => (s.handle.kind, s.creation),
        [0, 1, 2].map done.2.world.launchReport)) =
      some ([.deed (.built .application 0), .deed (.built .main 0), .deed (.built .main 0),
          .deed (.created 0), .deed (.created 1), .deed (.created 2), .deed (.enlisted 0 0),
          .deed (.started 0), .deed (.retired 0 0), .checked 0 1, .deed (.moved 1 .waiting),
          .deed (.started 1), .deed (.retired 0 1), .deed (.started 2), .deed (.retired 0 2)],
        [(.application, some (.done none)), (.main, some (.done none)),
          (.main, some (.done (some (.threadAborted 3))))],
        [.launched 0, .launched 1, .failed (.threadAborted 3)]) := rfl
  obtain ⟨log, f, reached, seen⟩ := exists_run_of_performAll rfl within reaches
  simp only [Prod.mk.injEq, List.map_cons, List.map_nil, List.cons.injEq, and_true] at seen
  obtain ⟨log_eq, strands, report₀, report₁, report₂⟩ := seen
  have reclaims : ∀ t, .reclaimed t ∉ log := by simp [log_eq]
  have revives {log₁ log₂ : List FineDeed} (split : log = log₁ ++ log₂) (t : ThreadId)
      (next : State) : .revived t next ∉ log₂ := by
    intro late
    have member : .revived t next ∈ log := by
      rw [split]
      exact List.mem_append_right log₁ late
    simp [log_eq] at member
  have strand (t : ThreadId) : (f.world.strands[t]?).map (fun s => (s.handle.kind, s.creation)) =
      [(.application, some (.done none)), (.main, some (.done none)),
        (.main, some (.done (some (.threadAborted 3))))][t]? := by
    rw [← List.getElem?_map, strands]
  obtain ⟨s₁, strand_eq₁, seen₁⟩ := Option.map_eq_some_iff.mp (strand 1)
  obtain ⟨s₂, strand_eq₂, seen₂⟩ := Option.map_eq_some_iff.mp (strand 2)
  obtain ⟨main₁, creation_eq₁⟩ := Prod.mk.inj seen₁
  obtain ⟨main₂, creation_eq₂⟩ := Prod.mk.inj seen₂
  obtain ⟨_, _, outcome₁⟩ := creation_outcome reached strand_eq₁ creation_eq₁
  obtain ⟨_, _, outcome₂⟩ := creation_outcome reached strand_eq₂ creation_eq₂
  obtain ⟨_, ⟨log₁, log₁', x₁, passing₁, split₁, before₁, atEnd₁, after₁⟩, decided₁⟩ :=
    (outcome₁ main₁).1 (by rw [report₁]; simp)
  obtain ⟨_, ⟨log₂, log₂', x₂, passing₂, split₂, before₂, atEnd₂, after₂⟩, decided₂⟩ :=
    (outcome₂ main₂).1 (by rw [report₂]; simp)
  obtain ⟨died₁, _, launched₁⟩ := decided₁ reclaims log₁ log₁' x₁ passing₁ split₁ before₁ atEnd₁
    after₁ (revives split₁ 1)
  obtain ⟨died₂, failed₂, _⟩ := decided₂ reclaims log₂ log₂' x₂ passing₂ split₂ before₂ atEnd₂
    after₂ (revives split₂ 2)
  obtain ⟨rfl, alive₁⟩ := launched₁.mp report₁
  exact ⟨log, f, reached, report₀, report₁, report₂, died₁, died₂,
    ⟨log₁, log₁', x₁, split₁, before₁, atEnd₁, alive₁⟩,
    ⟨log₂, log₂', x₂, passing₂, split₂, before₂, atEnd₂, failed₂.mp report₂⟩⟩

/-- What can go wrong with a creation.  An entry point is retired between the check and the write of
a change that the body of another thread asks its own registry for: it waits when its creation has
succeeded.  And a thread that its body has had replaced is reclaimed, and created once more: whoever
does that finds the thread object bound. -/
theorem creation_leaves_revived_or_rebound :
    (∃ (log : List FineDeed) (f : FineWorld Script.Activation),
      Run Operation.IsPublic (ofRegistries 2 ConfigCell.fresh) log f ∧ (∀ t, .reclaimed t ∉ log) ∧
        (f.world.handle? 0).map Handle.kind = some .main ∧
        f.world.launchReport 0 = .launched 0 ∧ f.world.state? 0 = some .waiting) ∧
      ∃ (log : List FineDeed) (f : FineWorld Script.Activation),
        Run Operation.IsPublic (ofRegistries 1 ConfigCell.fresh) log f ∧
          (∀ t next, .revived t next ∉ log) ∧ .deed (.created 0) ∈ log ∧ .rebound 0 ∈ log := by
  refine ⟨?_, ?_⟩
  · let I := promptInterpreter
    let body : FineOperation Script.Activation := .act (.step I (.body 0))
    let creator : FineOperation Script.Activation := .act (.step I (.creator 0))
    let ops : List (FineOperation Script.Activation) := List.flatten
      [[.act (.main promptMethod [] ⟨0, 4, .script⟩),
          .act (.application promptMethod [.null] ⟨1, 4, .script⟩), .act (.create 0 .null)],
        List.replicate 4 creator, List.replicate 5 body, launchWriter,
        [.check writerStep, body, .store 0, body], List.replicate 3 creator]
    have within : ∀ op ∈ ops, op.Within Operation.IsPublic := by
      simp [ops, body, creator, I, launchWriter, writerStep, FineOperation.Within,
        Operation.IsPublic, isPublic_promptInterpreter, isPublic_writingInterpreter]
    have done : ((ofRegistries 2 ConfigCell.fresh : FineWorld Script.Activation).performAll ops).map
        (fun done => ((done.1, (done.2.world.handle? 0).map Handle.kind),
          decide (done.2.world.launchReport 0 = .launched 0), done.2.world.state? 0)) =
        some (([.deed (.built .main 0), .deed (.built .application 1), .deed (.created 0),
            .deed (.started 0), .deed (.created 1), .deed (.enlisted 1 1), .deed (.started 1),
            .checked 1 0, .deed (.retired 0 0), .revived 0 .waiting], some .main),
          true, some .waiting) := by decide +kernel
    obtain ⟨log, f, run, seen⟩ := exists_run_of_performAll rfl within done
    simp only [Prod.mk.injEq, decide_eq_true_eq] at seen
    obtain ⟨⟨log_eq, kind_eq⟩, launched, waits⟩ := seen
    exact ⟨log, f, run, by simp [log_eq], kind_eq, launched, waits⟩
  · let I := singleStep (.replace 1)
    let body : FineOperation Script.Activation := .act (.step I (.body 0))
    let ops : List (FineOperation Script.Activation) := List.flatten
      [[.act (.application promptMethod [.null] ⟨0, 4, .script⟩),
          .act (.application promptMethod [.null] ⟨0, 4, .script⟩), .act (.create 0 .null)],
        List.replicate 4 (.act (.step I (.creator 0))), List.replicate 6 body,
        [.reclaim 0 0, .recreate 0]]
    have within : ∀ op ∈ ops, op.Within Operation.IsPublic := by
      simp [ops, body, I, FineOperation.Within, Operation.IsPublic, isPublic_singleStep]
    have done : ((ofRegistries 1 ConfigCell.fresh : FineWorld Script.Activation).performAll ops).map
        Prod.fst =
        some [.deed (.built .application 0), .deed (.built .application 0), .deed (.created 0),
          .deed (.enlisted 0 0), .deed (.started 0), .reclaimed 0, .rebound 0] := by decide +kernel
    obtain ⟨log, f, run, log_eq⟩ := exists_run_of_performAll rfl within done
    dsimp only at log_eq
    exact ⟨log, f, run, by simp [log_eq], by simp [log_eq], by simp [log_eq]⟩

end FineWorld

end ThreadEngine
