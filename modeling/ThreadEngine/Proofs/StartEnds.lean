import ThreadEngine.Proofs.Handshake
import ThreadEngine.Proofs.DeniedStarts

set_option autoImplicit false

/-!
# How a start ends

How a start ends is decided when the method of the body is over: by an abort that comes out of it,
or by whether the thread is dead already.  `StartProgress` says what has become of the start since
then, and `Run.progress` that this goes on until the context has ended; the thread is dead by then.
Nobody else may have a guard of the thread for that, so no displaced thread may be reclaimed, and
the thread may not be revived in the meantime.  A context that has begun is inside its body until
the method is over, whatever the others do (`Run.inside`).
-/

namespace ThreadEngine

/-- A context that has ended stays as it is. -/
theorem LaunchState.Next.ended {σ : Type} {u : World σ} {t : ThreadId} {s s' : LaunchState σ}
    {d : Option Deed}
    {a : Option Abort} (next : s.Next u t d s') (order : s.InOrder t)
    (ended : s.child = some (.ended a)) : s'.child = some (.ended a) := by
  cases next with
  | same _ held => exact ended
  | created _ _ _ child_eq =>
      rcases child_eq with same | ⟨task, running⟩
      · exact same.trans ended
      · cases ended.symm.trans running
  | begun child_eq _ | ran _ child_eq => cases ended.symm.trans child_eq
  | step step =>
      cases step with
      | spawned spawning_eq =>
          simp only [LaunchState.InOrder, spawning_eq] at order
          cases ended.symm.trans order.2.1
      | woken child_eq _ | enlisted child_eq | deserted child_eq _ _ =>
          cases ended.symm.trans child_eq
      | _ => exact ended

/-! ## From the end of the method to the end of the start -/

namespace Task

variable {σ : Type} {g : Guard} {passing : Option Abort} {task : Task σ}

/-- The method of the outermost body is over, possibly by an abort that comes out of it. -/
inductive BodyOver (g : Guard) : Option Abort → Task σ → Prop
  | delivered (thread : Thread) (c : Completion) :
      BodyOver g none ⟨thread, [.body g], .delivering c⟩
  | aborted (thread : Thread) (a : Abort) :
      BodyOver g (some a) ⟨thread, [.body g], .unwinding a⟩

/-- From the end of the method until the guard has done its work. -/
inductive Concluding (g : Guard) : Option Abort → Task σ → Prop
  | atEnd {passing : Option Abort} {task : Task σ} (atEnd : task.BodyOver g passing) :
      Concluding g passing task
  | awaiting (thread : Thread) : Concluding g none ⟨thread, [], .awaiting g⟩
  | inspecting (thread : Thread) (a : Abort) : Concluding g (some a) ⟨thread, [], .inspecting g a⟩
  | retiring (thread : Thread) (passing : Option Abort) :
      Concluding g passing ⟨thread, [], .retiring g passing⟩

/-- The guard has done its work, and the start is about to end, possibly by an abort. -/
inductive Settled : Option Abort → Task σ → Prop
  | returned (thread : Thread) : Settled none ⟨thread, [], .delivering .ended⟩
  | aborted (thread : Thread) (a : Abort) : Settled (some a) ⟨thread, [], .unwinding a⟩

theorem Concluding.mem_guards (concluding : task.Concluding g passing) : g ∈ task.guards := by
  cases concluding with
  | atEnd atEnd => cases atEnd <;> simp [guards, Mode.guards, Layer.guards]
  | awaiting | inspecting | retiring => simp [guards, Mode.guards]

theorem Concluding.completion? (concluding : task.Concluding g passing) :
    task.completion? = none := by
  cases concluding with
  | atEnd atEnd => cases atEnd <;> rfl
  | awaiting | inspecting | retiring => rfl

theorem Concluding.reask (concluding : task.Concluding g passing) (r : Request) :
    task.reask r = task := by
  cases concluding with
  | atEnd atEnd => cases atEnd <;> rfl
  | awaiting | inspecting | retiring => rfl

/-- Whoever is at the end of its method changes no state. -/
theorem Concluding.not_transition (concluding : task.Concluding g passing) (r : RegistryId)
    (t : ThreadId) (next : State) : task.request? ≠ some (.transition r t next) := by
  cases concluding with
  | atEnd atEnd => cases atEnd <;> simp [request?]
  | awaiting | inspecting | retiring => simp [request?]

theorem Settled.not_transition (settled : task.Settled passing) (r : RegistryId) (t : ThreadId)
    (next : State) : task.request? ≠ some (.transition r t next) := by
  cases settled <;> simp [request?]

theorem Settled.completion? (settled : task.Settled passing) : task.completion? = none := by
  cases settled <;> rfl

/-- A start that is about to end ends at the next step. -/
theorem Settled.advance (I : Interpreter σ) (settled : task.Settled passing) :
    ∃ task', task.request? = none ∧ task.advance I = some (task', []) ∧
      Child.ofTask task' = .ended passing := by
  cases settled with
  | returned thread => exact ⟨⟨thread, [], .done .ended⟩, rfl, rfl, rfl⟩
  | aborted thread a => exact ⟨⟨thread, [], .done (.aborted a)⟩, rfl, rfl, rfl⟩

/-- The end of the method is handed to the guard. -/
theorem BodyOver.advance {I : Interpreter σ} {task' : Task σ} {notes : List Note}
    (atEnd : task.BodyOver g passing) (advances : task.advance I = some (task', notes)) :
    task'.Concluding g passing := by
  cases atEnd with
  | delivered thread c =>
      obtain rfl : (⟨thread, [], endBody g⟩ : Task σ) = task' :=
        congrArg Prod.fst (Option.some.inj advances)
      unfold endBody
      split
      · exact .retiring thread none
      · exact .awaiting thread
  | aborted thread a =>
      obtain rfl : (⟨thread, [], .inspecting g a⟩ : Task σ) = task' :=
        congrArg Prod.fst (Option.some.inj advances)
      exact .inspecting thread a

end Task

namespace World

variable {σ : Type} {n : Nat} {config : ConfigCell} {h h' : List Deed} {u v w x : World σ}
  {op : Operation σ} {c : Ctx} {t : ThreadId} {g : Guard} {passing : Option Abort}
  {task task' : Task σ}

/-- How the start of a thread ends whose method is over: by the abort that comes out of the method,
or by one of the guard, which finds the thread dead. -/
def startAbort (w : World σ) (t : ThreadId) (passing : Option Abort) : Option Abort :=
  passing.or (if w.state? t = some .died then some (.invariant .retiredTwice) else none)

/-- What the guard does at its last step, and how the start ends then. -/
theorem TaskStep.concluding {d : Option Deed} {ro : Roster σ} {reg : Registry}
    (step : u.TaskStep c task d ro task') (concluding : task.Concluding g passing)
    (sound : u.SoundTask task) (reg_eq : u.registries[g.registry]? = some reg)
    (counts : reg.appThreads = reg.table.length) :
    task'.Concluding g passing ∧ (∀ r t, d ≠ some (.retired r t)) ∨
      task'.Settled (u.startAbort g.thread passing) ∧
        ((∃ abort, task.mode = .inspecting g abort ∧ u.state? g.thread = some .died) ∨
          ∃ passing, task.mode = .retiring g passing ∧
            d = u.retirement? g.registry g.thread) := by
  cases step with
  | advanced isPublic advances =>
      left
      refine ⟨?_, ?_⟩
      · cases concluding with
        | atEnd atEnd => exact atEnd.advance advances
        | awaiting | inspecting | retiring => cases advances
      · intro r t deed_eq
        obtain none_eq | starts := taskDeed?_of_advance u advances
        · cases none_eq.symm.trans deed_eq
        · cases starts.symm.trans deed_eq
  | @answered I r answer w asks served keeps stays =>
      cases concluding with
      | atEnd atEnd => cases atEnd <;> cases asks
      | awaiting thread =>
          obtain rfl := Option.some.inj asks
          left
          exact ⟨.retiring thread none, by simp [requestDeed?]⟩
      | inspecting thread a =>
          obtain rfl := Option.some.inj asks
          simp only [Task.answer]
          split
          · rename_i answer_eq
            right
            have died : u.state? g.thread = some .died := by
              simp only [serve] at served
              split at served
              · rename_i s state_eq
                obtain ⟨rfl, _⟩ := Served.answered.inj served
                rw [state_eq, Answer.state.inj answer_eq]
              · cases answer_eq.symm.trans (Served.answered.inj served).1.symm
            exact ⟨.aborted thread a, .inl ⟨a, rfl, died⟩⟩
          · left
            exact ⟨.retiring thread (some a), by simp [requestDeed?]⟩
      | retiring thread =>
          obtain rfl := Option.some.inj asks
          right
          refine ⟨?_, .inr ⟨passing, rfl, rfl⟩⟩
          have answer_eq : answer = .retired (u.retire c g.registry g.thread).1 :=
            (Served.answered.inj served).1.symm
          rw [answer_eq]
          by_cases died : u.state? g.thread = some .died
          · cases passing with
            | none =>
                rw [retire_fst_of_died c died reg_eq, startAbort, if_pos died]
                exact .aborted thread (.invariant .retiredTwice)
            | some a => exact absurd died (sound.alive g a rfl)
          · have faultless : (u.retire c g.registry g.thread).1 = none := by
              apply retire_fst_eq_none c died
              intro reg' reg_eq'
              obtain rfl := Option.some.inj (reg_eq.symm.trans reg_eq')
              exact counts
            rw [faultless, startAbort, if_neg died]
            cases passing with
            | none => exact .returned thread
            | some a => exact .aborted thread a
  | replaced asks =>
      cases concluding with
      | atEnd atEnd => cases atEnd <;> cases asks
      | awaiting | inspecting | retiring => cases asks
  | deferred isPublic =>
      rw [concluding.reask]
      exact .inl ⟨concluding, by simp⟩
  | launches held_eq =>
      rw [concluding.reask]
      exact .inl ⟨concluding, by simp⟩

/-- What has become of a start whose method was over at `x`. -/
inductive StartProgress (x w : World σ) (t : ThreadId) (g : Guard) (passing : Option Abort) : Prop
  | concluding {task : Task σ} (task_eq : w.roster.taskAt (.body t) = some task)
      (concluding : task.Concluding g passing)
      (same : w.state? t = some .died ↔ x.state? t = some .died)
  | settled {task : Task σ} (task_eq : w.roster.taskAt (.body t) = some task)
      (settled : task.Settled (x.startAbort t passing)) (died : w.state? t = some .died)
  | ended {s : Strand σ} (strand_eq : w.strands[t]? = some s)
      (child_eq : s.child = some (.ended (x.startAbort t passing)))
      (died : w.state? t = some .died)

theorem startAbort_congr (passing : Option Abort)
    (same : u.state? t = some .died ↔ x.state? t = some .died) :
    u.startAbort t passing = x.startAbort t passing := by
  unfold startAbort
  rw [if_congr same rfl rfl]

theorem strand_of_state {st : State} (state_eq : w.state? t = some st) :
    ∃ s, w.strands[t]? = some s := by
  obtain ⟨handle, handle_eq, _⟩ := Option.map_eq_some_iff.mp state_eq
  obtain ⟨s, strand_eq, _⟩ := Option.map_eq_some_iff.mp handle_eq
  exact ⟨s, strand_eq⟩

/-- A thread dies only when it is retired. -/
theorem Sound.died_iff (sound : Sound h u) (isPublic : op.IsPublic)
    (done : u.perform op = some v) (spared : ∀ r, u.deed? op ≠ some (.retired r t)) :
    v.state? t = some .died ↔ u.state? t = some .died := by
  refine ⟨?_, ?_⟩
  · intro died
    by_contra alive
    exact sound.alive_perform isPublic done alive spared died
  · intro died
    exact sound.died_perform isPublic done died

theorem strand_of_taskAt (task_eq : w.roster.taskAt (.body t) = some task) :
    ∃ s, w.strands[t]? = some s ∧ s.child = some (.running task) := by
  obtain ⟨launch, launch_eq, child_eq⟩ := Roster.launch_of_taskAt task_eq
  rw [launches_getElem?] at launch_eq
  obtain ⟨s, strand_eq, rfl⟩ := Option.map_eq_some_iff.mp launch_eq
  exact ⟨s, strand_eq, child_eq⟩

/-- The last step of a context whose start is about to end. -/
theorem step_of_settled (I : Interpreter σ) {a : Option Abort}
    (task_eq : u.roster.taskAt (.body t) = some task) (settled : task.Settled a) :
    ∃ v s', u.step I (.body t) = some v ∧ v.strands[t]? = some s' ∧
      s'.child = some (.ended a) := by
  obtain ⟨s, strand_eq, child_eq⟩ := strand_of_taskAt task_eq
  obtain ⟨task', silent, advances, ends⟩ := settled.advance I
  refine ⟨(storeChild t u (.ended a)).note (.body t) [], { s with child := some (.ended a) },
    ?_, ?_, rfl⟩
  · simp only [step, stepBody, strand_eq, child_eq, stepTask, silent, advances, ends]
  · simp [note, storeChild, modifyStrand, strand_eq]

/-- What one operation preserves. -/
theorem StartProgress.perform (progress : StartProgress x u t g passing) (own : g.thread = t)
    (sound : Sound h u) (orderly : Orderly h u)
    (tasks : ∀ c task, u.roster.taskAt c = some task → u.SoundTask task) (isPublic : op.IsPublic)
    (done : u.perform op = some v) : StartProgress x v t g passing := by
  have shift := shift_perform isPublic done
  have turnover := shift.turnover sound.launching (.body t)
  cases progress with
  | @concluding task task_eq concluding same =>
      have member : g ∈ u.guardsAt (.body t) := by
        rw [guardsAt_of_task task_eq]
        exact concluding.mem_guards
      generalize after_eq : v.roster.taskAt (.body t) = after at turnover
      cases turnover with
      | same aside =>
          refine .concluding (after_eq.trans task_eq) concluding ?_
          refine (sound.died_iff isPublic done ?_).trans same
          intro r deed_eq
          -- whoever retires the thread has a guard of it, and nobody else can have one
          obtain ⟨task', g', _, task_eq', mode_eq', _, thread_eq⟩ :=
            shift.retired_by sound.guarded.proper deed_eq
          have theirs := mem_guardsAt_of_retiring task_eq' mode_eq'
          have mine := orderly.ctx_of_guards theirs member (thread_eq.trans own.symm)
          cases aside mine _ deed_eq
      | called _ none_eq _ | started _ none_eq _ => cases task_eq.symm.trans none_eq
      | takenBack before_eq finished _ =>
          obtain rfl := Option.some.inj (task_eq.symm.trans before_eq)
          cases concluding.completion?.symm.trans finished
      | stepped _ before_eq step =>
          obtain rfl := Option.some.inj (task_eq.symm.trans before_eq)
          obtain ⟨reg, reg_eq⟩ := sound.consistent.registry_of_guard member
          obtain ⟨goesOn, spared⟩ | ⟨settled, why⟩ :=
            step.concluding concluding (tasks _ _ task_eq) reg_eq (sound.counted reg_eq).1
          · refine .concluding after_eq goesOn ?_
            exact (sound.died_iff isPublic done fun r => spared r t).trans same
          · rw [own, startAbort_congr passing same] at settled
            refine .settled after_eq settled ?_
            rw [← own]
            exact sound.died_of_popped isPublic done task_eq why
      | ended _ before_eq step finished =>
          obtain rfl := Option.some.inj (task_eq.symm.trans before_eq)
          obtain ⟨reg, reg_eq⟩ := sound.consistent.registry_of_guard member
          obtain ⟨goesOn, _⟩ | ⟨settled, _⟩ :=
            step.concluding concluding (tasks _ _ task_eq) reg_eq (sound.counted reg_eq).1
          · cases goesOn.completion?.symm.trans finished
          · cases settled.completion?.symm.trans finished
  | @settled task task_eq settled died =>
      have died' := sound.died_perform isPublic done died
      by_cases performs : op.performer = .body t
      · obtain ⟨I, rfl⟩ := step_of_performer performs
        obtain ⟨v', s', step_eq, strand_eq', child_eq'⟩ := step_of_settled I task_eq settled
        obtain rfl : v' = v := Option.some.inj (step_eq.symm.trans done)
        exact .ended strand_eq' child_eq' died'
      · generalize after_eq : v.roster.taskAt (.body t) = after at turnover
        cases turnover with
        | same aside => exact .settled (after_eq.trans task_eq) settled died'
        | called mine | started mine | stepped mine | ended mine => exact absurd mine performs
        | takenBack before_eq finished _ =>
            obtain rfl := Option.some.inj (task_eq.symm.trans before_eq)
            cases settled.completion?.symm.trans finished
  | @ended s strand_eq child_eq died =>
      have died' := sound.died_perform isPublic done died
      obtain ⟨s', strand_eq'⟩ := strand_of_state died'
      obtain ⟨_, none_eq, _⟩ | ⟨s₀, was, _, next⟩ :=
        strand_next sound.launching isPublic done strand_eq'
      · cases strand_eq.symm.trans none_eq
      · obtain rfl := Option.some.inj (strand_eq.symm.trans was)
        have order := sound.launching.inOrder t s.launchState (launch_of_strand strand_eq)
        exact .ended strand_eq' (next.ended order child_eq) died'

/-- The method of the body at a context is over, possibly by an abort that comes out of it. -/
def BodyOver (w : World σ) (t : ThreadId) (passing : Option Abort) : Prop :=
  ∃ (task : Task σ) (g : Guard), w.roster.taskAt (.body t) = some task ∧ g.thread = t ∧
    task.BodyOver g passing

end World

/-! ## From the start to the end of the method -/

namespace Task

variable {σ : Type} {g : Guard} {task : Task σ}

/-- A task is inside its outermost body, or about to get there. -/
def Inside (g : Guard) (task : Task σ) : Prop :=
  task.mode = .detaching g ∧ task.layers = [] ∨ [.body g] <:+ task.layers

theorem inside_start (I : Interpreter σ) (thread : Thread) :
    (start I thread []).1.Inside (guardOf thread) := by
  simp only [start]
  split
  · exact .inl ⟨rfl, rfl⟩
  · right
    rw [runBody_layers]

theorem Inside.mem_guards (inside : task.Inside g) : g ∈ task.guards := by
  rcases inside with ⟨mode_eq, _⟩ | ⟨inner, layers_eq⟩
  · simp [guards, mode_eq, Mode.guards]
  · simp [guards, ← layers_eq, Layer.guards]

theorem retired_layers (task : Task σ) (passing : Option Abort) (a : Answer) :
    (task.retired passing a).1.layers = task.layers := by
  unfold retired
  split <;> split <;> rfl

/-- An answer lets a body begin, or leaves what waits as it is. -/
theorem answer_layers (I : Interpreter σ) (task : Task σ) (a : Answer) :
    (∃ g, task.mode = .detaching g ∧ (task.answer I a).1.layers = .body g :: task.layers) ∨
      (∀ g, task.mode ≠ .detaching g) ∧ (task.answer I a).1.layers = task.layers := by
  obtain ⟨thread, layers, mode⟩ := task
  cases mode with
  | detaching g => exact .inl ⟨g, rfl, runBody_layers I thread layers g⟩
  | inspecting g abort =>
      refine .inr ⟨by simp, ?_⟩
      simp only [answer]
      split <;> rfl
  | retiring g passing => exact .inr ⟨by simp, retired_layers _ passing a⟩
  | asking | awaiting | acting | delivering | unwinding | done | lost =>
      exact .inr ⟨by simp, rfl⟩

theorem Inside.answer (I : Interpreter σ) (inside : task.Inside g) (a : Answer) :
    (task.answer I a).1.Inside g := by
  right
  obtain ⟨g', mode_eq, layers_eq⟩ | ⟨plain, layers_eq⟩ := answer_layers I task a
  · rw [layers_eq]
    rcases inside with ⟨mode_eq', empty⟩ | suffix
    · obtain rfl := Mode.detaching.inj (mode_eq'.symm.trans mode_eq)
      rw [empty]
    · exact suffix.trans (List.suffix_cons _ _)
  · rw [layers_eq]
    rcases inside with ⟨mode_eq, _⟩ | suffix
    · exact absurd mode_eq (plain g)
    · exact suffix

theorem Inside.reask (inside : task.Inside g) (r : Request) : (task.reask r).Inside g := by
  obtain ⟨thread, layers, mode⟩ := task
  rcases inside with ⟨mode_eq, empty⟩ | suffix
  · obtain rfl : mode = .detaching g := mode_eq
    exact .inl ⟨rfl, empty⟩
  · right
    cases mode <;> exact suffix

/-- A task leaves its outermost body only at the end of the method. -/
theorem Inside.advance {I : Interpreter σ} {task' : Task σ} {notes : List Note}
    (inside : task.Inside g) (goesOn : ∀ passing, ¬ task.BodyOver g passing)
    (advances : task.advance I = some (task', notes)) : task'.Inside g := by
  rcases inside with ⟨mode_eq, _⟩ | suffix
  · simp [Task.advance, mode_eq] at advances
  right
  -- an end that is not the end of the method is handed to something inside the body
  have inner (ending : (∃ c, task.mode = .delivering c) ∨ ∃ a, task.mode = .unwinding a) :
      [.body g] <:+ task'.layers := by
    obtain ⟨layers, layers_eq⟩ := suffix
    obtain _ | ⟨layer, layers⟩ := layers
    · obtain ⟨thread, layers, mode⟩ := task
      obtain rfl : layers = [.body g] := layers_eq.symm
      rcases ending with ⟨c, mode_eq⟩ | ⟨a, mode_eq⟩
      · obtain rfl : mode = .delivering c := mode_eq
        exact absurd (.delivered thread c) (goesOn none)
      · obtain rfl : mode = .unwinding a := mode_eq
        exact absurd (.aborted thread a) (goesOn (some a))
    · rw [layers_of_ending layers_eq.symm ending advances]
      exact List.suffix_append layers _
  obtain ⟨s, depth, _, rfl⟩ | ⟨c, mode_eq, _⟩ | ⟨a, mode_eq, _⟩ := advance_cases advances
  · exact suffix.trans (suffix_turn I task s depth)
  · exact inner (.inl ⟨c, mode_eq⟩)
  · exact inner (.inr ⟨a, mode_eq⟩)

end Task

namespace World

variable {σ : Type} {n : Nat} {config : ConfigCell} {h h' : List Deed} {u v w x : World σ}
  {op : Operation σ} {c : Ctx} {t : ThreadId} {g : Guard} {passing : Option Abort}
  {task task' : Task σ} {s : Strand σ}

theorem TaskStep.inside {d : Option Deed} {ro : Roster σ} (step : u.TaskStep c task d ro task')
    (inside : task.Inside g) (goesOn : ∀ passing, ¬ task.BodyOver g passing) : task'.Inside g := by
  cases step with
  | advanced isPublic advances => exact inside.advance goesOn advances
  | answered asks served keeps stays => exact inside.answer _ _
  | replaced asks => exact inside.answer _ _
  | deferred isPublic => exact inside.reask _
  | launches held_eq => exact inside.reask _

/-- What one operation preserves. -/
theorem inside_perform (launching : Launching h u) (proper : task.Proper) (isPublic : op.IsPublic)
    (done : u.perform op = some v) (task_eq : u.roster.taskAt (.body t) = some task)
    (inside : task.Inside g) (goesOn : ∀ passing, ¬ task.BodyOver g passing) :
    ∃ task', v.roster.taskAt (.body t) = some task' ∧ task'.Inside g := by
  have unfinished {task₁ : Task σ} {end₁ : Completion} (proper : task₁.Proper)
      (inside : task₁.Inside g) : task₁.completion? ≠ some end₁ := by
    intro finished
    have member := inside.mem_guards
    rw [guards_of_completion proper finished] at member
    cases member
  have turnover := (shift_perform isPublic done).turnover launching (.body t)
  generalize v.roster.taskAt (.body t) = after at turnover
  cases turnover with
  | same aside => exact ⟨task, task_eq, inside⟩
  | called _ none_eq _ | started _ none_eq _ => cases task_eq.symm.trans none_eq
  | takenBack before_eq finished _ =>
      obtain rfl := Option.some.inj (task_eq.symm.trans before_eq)
      exact absurd finished (unfinished proper inside)
  | stepped _ before_eq step =>
      obtain rfl := Option.some.inj (task_eq.symm.trans before_eq)
      exact ⟨_, rfl, step.inside inside goesOn⟩
  | ended _ before_eq step finished =>
      obtain rfl := Option.some.inj (task_eq.symm.trans before_eq)
      exact absurd finished (unfinished (step.proper proper) (step.inside inside goesOn))

/-- Changes of one strand leave the others alone. -/
theorem strand_of_modifyStrand {j : ThreadId} {f : Strand σ → Strand σ} {s' : Strand σ}
    (strand_eq' : (u.modifyStrand j f).strands[t]? = some s') :
    ∃ s, u.strands[t]? = some s ∧ (s' = s ∨ s' = f s) := by
  rw [modifyStrand, List.getElem?_modify] at strand_eq'
  obtain ⟨s, strand_eq, rfl⟩ := Option.map_eq_some_iff.mp strand_eq'
  refine ⟨s, strand_eq, ?_⟩
  by_cases at_t : j = t
  · exact .inr (by simp [at_t])
  · exact .inl (by simp [at_t])

end World

/-! ## Runs -/

namespace FineWorld

variable {σ : Type} {n : Nat} {config : ConfigCell} {h : List Deed} {log log' more : List FineDeed}
  {f f' x : FineWorld σ} {t : ThreadId} {gd : Guard} {passing : Option Abort} {task : Task σ}
  {s s' : Strand σ}

/-- A strand after a fine step is that of a thread just built, or its launch state follows from what
it was. -/
theorem Step.strand_next (step : Step Operation.IsPublic f more f') (sound : Sound h f)
    (strand_eq' : f'.world.strands[t]? = some s') :
    (∃ kind, f.world.strands[t]? = none ∧ s'.stage = Stage.first kind) ∨
      ∃ s u d, f.world.strands[t]? = some s ∧ s.launchState.Next u t d s'.launchState := by
  have same {s : Strand σ} (strand_eq : f.world.strands[t]? = some s)
      (same : s' = s ∨ ∃ held, s' = { s with held := held }) :
      ∃ s u d, f.world.strands[t]? = some s ∧ s.launchState.Next u t d s'.launchState := by
    rcases same with rfl | ⟨held, rfl⟩
    · exact ⟨s', f.world, none, strand_eq, .same (by simp) s'.held⟩
    · exact ⟨s, f.world, none, strand_eq, .same (by simp) held⟩
  cases step with
  | acted isPublic free fresh done =>
      obtain first | ⟨s, strand_eq, _, next⟩ :=
        World.strand_next sound.launching isPublic done strand_eq'
      · exact .inl first
      · exact .inr ⟨s, _, _, strand_eq, next⟩
  | checked => exact .inr (same strand_eq' (.inl rfl))
  | @stored i p v pending_eq isPublic deed_eq done =>
      have launching := (sound.toSound.withState p.thread p.seen).launching
      obtain ⟨kind, none_eq, first⟩ | ⟨s, strand_eq, _, next⟩ :=
        World.strand_next launching isPublic done strand_eq'
      · refine .inl ⟨kind, ?_, first⟩
        rw [World.withState, World.modifyHandle, World.modifyStrand] at none_eq
        simpa using none_eq
      · obtain ⟨s₀, was, seen⟩ := World.strand_of_modifyStrand strand_eq
        have launch_eq : s.launchState = s₀.launchState := by
          rcases seen with rfl | rfl <;> rfl
        rw [launch_eq] at next
        exact .inr ⟨s₀, _, _, was, next⟩
  | reclaimed =>
      obtain ⟨s, strand_eq, rfl | rfl⟩ := World.strand_of_modifyStrand strand_eq'
      · exact .inr (same strand_eq (.inl rfl))
      · exact .inr (same strand_eq (.inr ⟨_, rfl⟩))
  | @rebound slot thread held_eq begun =>
      obtain ⟨s, strand_eq, rfl | rfl⟩ := World.strand_of_modifyStrand (u := f.world) strand_eq'
      · exact .inr (same strand_eq (.inl rfl))
      · exact .inr (same strand_eq (.inr ⟨_, rfl⟩))

/-- A context that has ended stays as it is. -/
theorem Step.ended (step : Step Operation.IsPublic f more f') (sound : Sound h f)
    {a : Option Abort} (strand_eq : f.world.strands[t]? = some s)
    (ended : s.child = some (.ended a)) (strand_eq' : f'.world.strands[t]? = some s') :
    s'.child = some (.ended a) := by
  obtain ⟨_, none_eq, _⟩ | ⟨s₀, u, d, was, next⟩ := step.strand_next sound strand_eq'
  · cases strand_eq.symm.trans none_eq
  · obtain rfl := Option.some.inj (strand_eq.symm.trans was)
    exact next.ended (sound.launching.inOrder t s.launchState (World.launch_of_strand was)) ended

/-- What one fine step preserves, in which nobody reclaims a thread or revives this one. -/
theorem Step.progress (step : Step Operation.IsPublic f more f') (sound : Sound h f)
    (orderly : f.world.Orderly h)
    (tasks : ∀ c task, f.world.roster.taskAt c = some task → f.world.SoundTask task)
    (revives : ∀ next, .revived t next ∉ more) (own : gd.thread = t)
    (progress : x.world.StartProgress f.world t gd passing) :
    x.world.StartProgress f'.world t gd passing := by
  obtain ⟨op, isPublic, done⟩ | ⟨spared, told⟩ := step.tasks sound
  · exact progress.perform own sound.toSound orderly tasks isPublic done
  have dies (died : f.world.state? t = some .died) : f'.world.state? t = some .died :=
    (step.died sound died revives).1
  have lives (alive : f.world.state? t ≠ some .died) : f'.world.state? t ≠ some .died :=
    step.alive_of_spared sound spared alive
  cases progress with
  | concluding task_eq concluding same =>
      refine .concluding ((told _).eq_some task_eq concluding.not_transition) concluding ?_
      refine Iff.trans ⟨?_, dies⟩ same
      intro died
      by_contra alive
      exact lives alive died
  | settled task_eq settled died =>
      exact .settled ((told _).eq_some task_eq settled.not_transition) settled (dies died)
  | ended strand_eq child_eq died =>
      obtain ⟨s', strand_eq'⟩ := World.strand_of_state (dies died)
      exact .ended strand_eq' (step.ended sound strand_eq child_eq strand_eq') (dies died)

/-- What a whole run preserves: the end of the method decides how the start ends. -/
theorem Run.progress (reached : Run Operation.IsPublic (ofRegistries n config) log x)
    (atEnd : x.world.BodyOver t passing) (run : Run Operation.IsPublic x log' f)
    (reclaims : ∀ t', .reclaimed t' ∉ log ++ log') (revives : ∀ next, .revived t next ∉ log') :
    ∃ gd, x.world.StartProgress f.world t gd passing := by
  obtain ⟨task, gd, task_eq, own, atEnd⟩ := atEnd
  refine ⟨gd, ?_⟩
  induction run with
  | refl => exact .concluding task_eq (.atEnd atEnd) Iff.rfl
  | @snoc log' more f f' before step ih =>
      simp only [← List.append_assoc, List.mem_append (t := more), not_or] at reclaims
      simp only [List.mem_append, not_or] at revives
      have here := reached.trans before
      have earlier := fun t' => (reclaims t').1
      exact step.progress here.sound (here.orderly earlier).1 (fun _ _ => here.soundTask earlier)
        (fun next => (revives next).2) own (ih earlier fun next => (revives next).1)

/-- In a run to `f`, the method of the body at a context has been over. -/
def WasOver (start : FineWorld σ) (log : List FineDeed) (f : FineWorld σ) (t : ThreadId) : Prop :=
  ∃ (log₁ log₂ : List FineDeed) (x : FineWorld σ) (passing : Option Abort), log = log₁ ++ log₂ ∧
    Run Operation.IsPublic start log₁ x ∧ x.world.BodyOver t passing ∧
    Run Operation.IsPublic x log₂ f

theorem WasOver.snoc {start : FineWorld σ} (wasOver : WasOver start log f t)
    (step : Step Operation.IsPublic f more f') : WasOver start (log ++ more) f' t := by
  obtain ⟨log₁, log₂, x, passing, rfl, before, atEnd, after⟩ := wasOver
  exact ⟨log₁, log₂ ++ more, x, passing, List.append_assoc .., before, atEnd, after.snoc step⟩

/-- What one fine step preserves. -/
theorem Step.inside (step : Step Operation.IsPublic f more f') (sound : Sound h f)
    (task_eq : f.world.roster.taskAt (.body t) = some task) (inside : task.Inside gd)
    (goesOn : ∀ passing, ¬ task.BodyOver gd passing) :
    ∃ task', f'.world.roster.taskAt (.body t) = some task' ∧ task'.Inside gd := by
  obtain ⟨op, isPublic, done⟩ | ⟨_, told⟩ := step.tasks sound
  · have proper := sound.guarded.proper (.body t) task task_eq
    exact World.inside_perform sound.launching proper isPublic done task_eq inside goesOn
  · have told := told (.body t)
    generalize f'.world.roster.taskAt (.body t) = after at told ⊢
    cases told with
    | same => exact ⟨task, task_eq, inside⟩
    | changed task_eq' mode_eq =>
        obtain rfl := Option.some.inj (task_eq.symm.trans task_eq')
        exact ⟨_, rfl, inside.answer _ _⟩

/-- A context that has begun is inside the body of its thread, or the method has been over. -/
theorem Run.inside (run : Run Operation.IsPublic (ofRegistries n config) log f)
    (strand_eq : f.world.strands[t]? = some s) (begun : s.launchState.HasBegun) :
    (∃ task gd, f.world.roster.taskAt (.body t) = some task ∧ gd.thread = t ∧ task.Inside gd) ∨
      WasOver (ofRegistries n config) log f t := by
  induction run generalizing s with
  | refl => cases strand_eq
  | @snoc log more f f' reached step ih =>
      have sound := reached.sound
      obtain ⟨_, _, first⟩ | ⟨s₀, u, d, was, next⟩ := step.strand_next sound strand_eq
      · have none_eq : s.launchState.creation = none := congrArg Stage.creation first
        have order := (reached.snoc step).sound.launching.inOrder t s.launchState
          (World.launch_of_strand strand_eq)
        simp only [LaunchState.InOrder, none_eq] at order
        obtain ⟨child, child_eq, _⟩ := begun
        cases child_eq.symm.trans order.1
      · have order := sound.launching.inOrder t s₀.launchState (World.launch_of_strand was)
        by_cases before : s₀.launchState.HasBegun
        · obtain ⟨task, gd, task_eq, own, inside⟩ | wasOver := ih was before
          · by_cases atEnd : ∃ passing, task.BodyOver gd passing
            · obtain ⟨passing, atEnd⟩ := atEnd
              right
              exact WasOver.snoc ⟨log, [], f, passing, (List.append_nil log).symm, reached,
                ⟨task, gd, task_eq, own, atEnd⟩, .refl⟩ step
            · obtain ⟨task', task_eq', inside'⟩ :=
                step.inside sound task_eq inside (not_exists.mp atEnd)
              exact .inl ⟨task', gd, task_eq', own, inside'⟩
          · exact .inr (wasOver.snoc step)
        · obtain ⟨I, thread, reporting, running⟩ := next.begins order before begun
          obtain ⟨_, isEarly, _⟩ := order.early reporting id (.inr (by simp))
          have own : (Task.guardOf thread).thread = t := isEarly
          left
          refine ⟨_, Task.guardOf thread, ?_, own, Task.inside_start I thread⟩
          simp only [Roster.taskAt, World.launch_of_strand strand_eq, Option.bind_some, running,
            Child.task?]

/-- A context has ended only if the method of the body has been over. -/
theorem Run.wasOver_of_ended {a : Option Abort}
    (run : Run Operation.IsPublic (ofRegistries n config) log f)
    (strand_eq : f.world.strands[t]? = some s) (ended : s.child = some (.ended a)) :
    WasOver (ofRegistries n config) log f t := by
  obtain ⟨task, gd, task_eq, _⟩ | wasOver := run.inside strand_eq ⟨_, ended, trivial⟩
  · obtain ⟨s', strand_eq', running⟩ := World.strand_of_taskAt task_eq
    obtain rfl := Option.some.inj (strand_eq.symm.trans strand_eq')
    cases ended.symm.trans running
  · exact wasOver

/-- A context ends as the end of the method has decided, and its thread is dead by then. -/
theorem Run.eq_startAbort {a : Option Abort}
    (reached : Run Operation.IsPublic (ofRegistries n config) log x)
    (atEnd : x.world.BodyOver t passing) (run : Run Operation.IsPublic x log' f)
    (reclaims : ∀ t', .reclaimed t' ∉ log ++ log') (revives : ∀ next, .revived t next ∉ log')
    (strand_eq : f.world.strands[t]? = some s) (ended : s.child = some (.ended a)) :
    a = x.world.startAbort t passing ∧ f.world.state? t = some .died := by
  obtain ⟨gd, progress⟩ := reached.progress atEnd run reclaims revives
  cases progress with
  | concluding task_eq | settled task_eq =>
      obtain ⟨s', strand_eq', running⟩ := World.strand_of_taskAt task_eq
      obtain rfl := Option.some.inj (strand_eq.symm.trans strand_eq')
      cases ended.symm.trans running
  | ended strand_eq' child_eq died =>
      obtain rfl := Option.some.inj (strand_eq.symm.trans strand_eq')
      exact ⟨Child.ended.inj (Option.some.inj (ended.symm.trans child_eq)), died⟩

end FineWorld

end ThreadEngine
