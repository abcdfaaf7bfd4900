import ThreadEngine.Proofs.FrameDiscipline

set_option autoImplicit false

/-!
# Leaked frames

An abort leaves the frames of the activations that it passes where they are, and nothing takes them
away again.  So frames are counted against activations: `Task.excess` is the number of frames of a
task for which no activation is left.  A step keeps it, except one that abandons an activation
(`Abandons`), which adds one.  A call can hand back its result only if it has added nothing.

What follows is that a leaked frame is noticed by the first call that tries to hand back something
above it, and that the cause is always the same: a nested call that was entered, abandoned, and the
abort caught.  For the cause to be found, every layer that waits is traced to the turn that put it
there (`Traced`).  A thread that has frames left when nobody works on it keeps them for good, and
can never be started again (`Barred`).
-/

namespace ThreadEngine

/-- A call can be left if and only if the stack is one frame deeper than at entry. -/
theorem Thread.leave_eq_none_iff (t : Thread) (depth : Nat) :
    t.leave depth = none ↔ t.depth ≠ depth + 1 := by
  unfold leave Thread.depth FrameStack.depth
  cases t.frames.frames with
  | nil => simp
  | cons callee rest => simp

/-- A thread with a frame has a frame stack that is not empty. -/
theorem Thread.isEmpty_eq_false_of_depth {t : Thread} (deep : 0 < t.depth) :
    t.frames.isEmpty = false := by
  unfold Thread.depth FrameStack.depth at deep
  unfold FrameStack.isEmpty
  cases frames_eq : t.frames.frames with
  | nil => simp [frames_eq] at deep
  | cons top rest => rfl

variable {σ : Type}

/-- How many activations a layer stands for. -/
def Layer.activations : Layer σ → Int
  | .activation .. => 1
  | .body _ => 0

/-- How many activations have the thread. -/
def Mode.activations : Mode σ → Int
  | .acting .. | .asking .. => 1
  | _ => 0

@[simp] theorem Mode.activations_endBody (g : Guard) :
    (Task.endBody g : Mode σ).activations = 0 := by
  unfold Task.endBody
  cases g.kind <;> rfl

namespace Task

/-- How many activations wait in some layers. -/
def waiting (layers : List (Layer σ)) : Int := (layers.map Layer.activations).sum

@[simp] theorem waiting_activation (s : σ) (depth : Nat) (catches : Bool)
    (layers : List (Layer σ)) :
    waiting (.activation s depth catches :: layers) = waiting layers + 1 := by
  simp [waiting, Layer.activations]
  omega

@[simp] theorem waiting_body (g : Guard) (layers : List (Layer σ)) :
    waiting (.body g :: layers) = waiting layers := by
  simp [waiting, Layer.activations]

/-- The frames of a task for which there is no activation. -/
def excess (task : Task σ) : Int :=
  task.thread.depth - waiting task.layers - task.mode.activations

/-! ## What a step does to the excess -/

/-- A step that abandons the innermost activation: it raises an abort itself, or lets one pass. -/
def Abandons (task task' : Task σ) : Prop :=
  (∃ a, task'.mode = .unwinding a) ∧
    ((∃ s depth, task.mode = .acting s depth ∧ task'.layers = task.layers) ∨
      ∃ s depth catches, task.layers = .activation s depth catches :: task'.layers)

/-- What a step does to what waits. -/
inductive Move (may : Task σ → Turn σ → Prop) (task task' : Task σ) : Prop
  /-- nothing, and nothing was on its way to the innermost layer -/
  | stays (layers_eq : task'.layers = task.layers)
      (busy : ∀ layer layers, ¬ task.Over (layer :: layers))
  /-- the activation that has the thread starts something and waits for it -/
  | waits (I : Interpreter σ) {s s' : σ} {depth : Nat} {catches : Bool}
      (acts : task.mode = .acting s depth) (admits : may task (I.act s task.thread))
      (task'_eq : task' = (task.turn I s depth).1)
      (starts : (∃ m args, (I.act s task.thread).action = .call s' m args catches) ∨
        (I.act s task.thread).action = .start s' catches)
      (suffix : .activation s' depth catches :: task.layers <:+ task'.layers)
  /-- a body gets past its first step -/
  | guards (I : Interpreter σ) (g : Guard) (detaches : task.mode = .detaching g)
      (task'_eq : task' = (runBody I task.thread task.layers g).1)
  /-- the innermost layer goes on -/
  | pops (layer : Layer σ) (layers_eq : task.layers = layer :: task'.layers)

theorem excess_call (I : Interpreter σ) (thread : Thread) (layers : List (Layer σ)) (m : MethodRef)
    (args : List Value) :
    (call I thread layers m args).1.excess = thread.depth - waiting layers := by
  rw [call_fst]
  cases entry_eq : (thread.enter m args).2 with
  | refused e => simp [excess, Mode.activations]
  | aborted a => simp [excess, Mode.activations]
  | entered thread' =>
      obtain ⟨callee, _, rfl⟩ := Thread.enter_entered entry_eq
      simp [excess, Mode.activations, Thread.depth, FrameStack.depth]
      omega

theorem excess_runBody (I : Interpreter σ) (thread : Thread) (layers : List (Layer σ))
    (g : Guard) : (runBody I thread layers g).1.excess = thread.depth - waiting layers := by
  unfold runBody
  dsimp only
  split
  · simp [raise, excess, Mode.activations]
  · split
    · simp [raise, excess, Mode.activations]
    · rw [excess_call, waiting_body]
      rfl

theorem excess_start (I : Interpreter σ) (thread : Thread) (layers : List (Layer σ)) :
    (start I thread layers).1.excess = thread.depth - waiting layers := by
  unfold start
  dsimp only
  split
  · simp [excess, Mode.activations]
  · exact excess_runBody ..

variable {may : Task σ → Turn σ → Prop} {task task' : Task σ}

theorem Abandons.of_turn {s : σ} {depth : Nat} {a : Abort} (acts : task.mode = .acting s depth)
    (layers_eq : task'.layers = task.layers) (mode_eq : task'.mode = .unwinding a) :
    task.Abandons task' :=
  ⟨⟨a, mode_eq⟩, .inl ⟨s, depth, acts, layers_eq⟩⟩

theorem not_abandons_of_mode (other : ∀ a, task'.mode ≠ .unwinding a) : ¬ task.Abandons task' :=
  fun abandons => abandons.1.elim other

/-- A step that adds layers abandons nothing. -/
theorem not_abandons_of_longer (longer : task.layers.length < task'.layers.length) :
    ¬ task.Abandons task' := by
  rintro ⟨_, ⟨_, _, _, same⟩ | ⟨_, _, _, popped⟩⟩
  · rw [same] at longer
    exact Nat.lt_irrefl _ longer
  · rw [popped, List.length_cons] at longer
    omega

/-- A step that leaves the layers to somebody else than the activation abandons nothing. -/
theorem not_abandons_of_idle (idle : ∀ s depth, task.mode ≠ .acting s depth)
    (layers_eq : task'.layers = task.layers) : ¬ task.Abandons task' := by
  rintro ⟨_, ⟨s, depth, acts, _⟩ | ⟨_, _, _, popped⟩⟩
  · exact idle s depth acts
  · have lengths := congrArg List.length popped
    rw [layers_eq, List.length_cons] at lengths
    omega

/-- The excess after a step, which goes up if the step abandons an activation. -/
def Balance (task task' : Task σ) : Prop :=
  (task.Abandons task' ∧ task'.excess = task.excess + 1) ∨
    (¬ task.Abandons task' ∧ task'.excess = task.excess)

theorem balance_turn (I : Interpreter σ) {s : σ} {depth : Nat}
    (acts : task.mode = .acting s depth) : task.Balance (task.turn I s depth).1 := by
  have before : task.excess = task.thread.depth - waiting task.layers - 1 := by
    simp [excess, acts, Mode.activations]
  unfold Balance
  rw [turn_fst, before]
  generalize I.act s task.thread = turn
  cases turn.action with
  | proceed s' =>
      refine .inr ⟨not_abandons_of_mode nofun, ?_⟩
      simp [excess, Mode.activations]
  | call s' m args catches =>
      refine .inr ⟨not_abandons_of_longer ?_, ?_⟩
      · simp [call_layers]
      · simp [excess_call]
        omega
  | start s' catches =>
      refine .inr ⟨not_abandons_of_longer ?_, ?_⟩
      · exact (suffix_start I (task.thread.revise turn.pc turn.frame)
          (.activation s' depth catches :: task.layers)).length_le
      · simp [excess_start]
        omega
  | ask s' r =>
      refine .inr ⟨not_abandons_of_mode nofun, ?_⟩
      simp [excess, Mode.activations]
  | finish r =>
      dsimp only
      split
      · rename_i thread' left
        refine .inr ⟨not_abandons_of_mode nofun, ?_⟩
        obtain ⟨callee, rest, frames_eq, rfl, rfl⟩ := Thread.leave_eq_some left
        have deep := Thread.depth_revise task.thread turn.pc turn.frame
        simp only [Thread.depth, FrameStack.depth, frames_eq, List.length_cons] at deep
        simp [excess, Mode.activations, Thread.depth, FrameStack.depth]
        omega
      · refine .inl ⟨.of_turn acts rfl rfl, ?_⟩
        simp [excess, Mode.activations]
  | abort a =>
      refine .inl ⟨.of_turn acts rfl rfl, ?_⟩
      simp [excess, Mode.activations]

theorem balance_deliver (I : Interpreter σ) {c : Completion}
    (delivers : task.mode = .delivering c) : task.Balance (task.deliver I c).1 := by
  refine .inr ⟨not_abandons_of_mode ?_, ?_⟩
  · intro a
    unfold deliver
    split
    · exact nofun
    · exact nofun
    · rename_i g layers _
      cases kind_eq : g.kind <;> simp [endBody, kind_eq]
  · have before : task.excess = task.thread.depth - waiting task.layers := by
      simp [excess, delivers, Mode.activations]
    rw [before]
    unfold deliver
    split
    · simp [excess, Mode.activations]
    · rename_i s depth catches layers layers_eq
      simp [excess, layers_eq, Mode.activations]
      omega
    · rename_i g layers layers_eq
      simp [excess, layers_eq]

theorem balance_unwind (I : Interpreter σ) {a : Abort} (unwinds : task.mode = .unwinding a) :
    task.Balance (task.unwind I a) := by
  unfold Balance unwind
  split
  · rename_i layers_eq
    refine .inr ⟨not_abandons_of_mode nofun, ?_⟩
    simp [excess, Mode.activations, unwinds]
  · rename_i s depth catches layers layers_eq
    split
    · refine .inr ⟨not_abandons_of_mode nofun, ?_⟩
      simp [excess, Mode.activations, unwinds, layers_eq]
      omega
    · refine .inl ⟨⟨⟨a, rfl⟩, .inr ⟨s, depth, catches, layers_eq⟩⟩, ?_⟩
      simp [excess, Mode.activations, unwinds, layers_eq]
      omega
  · rename_i g layers layers_eq
    refine .inr ⟨not_abandons_of_mode nofun, ?_⟩
    simp [excess, Mode.activations, unwinds, layers_eq]

/-- A step by which a guard or an activation that has asked goes on with the same layers. -/
theorem balance_of_idle (idle : ∀ s depth, task.mode ≠ .acting s depth)
    (layers_eq : task'.layers = task.layers) (thread_eq : task'.thread = task.thread)
    (same : task'.mode.activations = task.mode.activations) : task.Balance task' := by
  refine .inr ⟨not_abandons_of_idle idle layers_eq, ?_⟩
  simp [excess, layers_eq, thread_eq, same]

theorem balance_answer (I : Interpreter σ) {r : Request} {a : Answer}
    (asks : task.request? = some r) (keeps : a.KeepsThread) : task.Balance (task.answer I a).1 := by
  have idle : ∀ s depth, task.mode ≠ .acting s depth := by
    intro s depth mode_eq
    simp [request?, mode_eq] at asks
  unfold answer
  split
  · rename_i s depth r' mode_eq
    refine balance_of_idle idle rfl ?_ ?_
    · exact threadAfter_of_keepsThread task.thread keeps
    · rw [mode_eq]
      rfl
  · rename_i g mode_eq
    refine .inr ⟨not_abandons_of_longer ?_, ?_⟩
    · rw [runBody_layers, List.length_cons]
      omega
    · rw [excess_runBody]
      simp [excess, mode_eq, Mode.activations]
  · rename_i g mode_eq
    exact balance_of_idle idle rfl rfl (by rw [mode_eq]; rfl)
  · rename_i g abort mode_eq
    split
    · exact balance_of_idle idle rfl rfl (by rw [mode_eq]; rfl)
    · exact balance_of_idle idle rfl rfl (by rw [mode_eq]; rfl)
  · rename_i g passing mode_eq
    unfold retired
    split <;> cases passing <;> exact balance_of_idle idle rfl rfl (by rw [mode_eq]; rfl)
  all_goals
    rename_i mode_eq
    simp [request?, mode_eq] at asks

theorem balance_reask {r : Request} (asks : task.request? = some r) (r' : Request) :
    task.Balance (task.reask r') := by
  have idle : ∀ s depth, task.mode ≠ .acting s depth := by
    intro s depth mode_eq
    simp [request?, mode_eq] at asks
  unfold reask
  split
  · rename_i s depth r' mode_eq
    exact balance_of_idle idle rfl rfl (by rw [mode_eq]; rfl)
  · exact balance_of_idle idle rfl rfl rfl

/-- What one step does: the excess goes up by one exactly if the step abandons an activation. -/
theorem Step.balance (step : Step may task task') : task.Balance task' := by
  cases step with
  | advance I turns step =>
      obtain ⟨s, depth, mode_eq, rfl⟩ | ⟨c, mode_eq, rfl⟩ | ⟨a, mode_eq, rfl⟩ :=
        advance_cases step
      · exact balance_turn I mode_eq
      · exact balance_deliver I mode_eq
      · exact balance_unwind I mode_eq
  | answer I asks keeps => exact balance_answer I asks keeps
  | reask asks r' => exact balance_reask asks r'

theorem Step.excess_le (step : Step may task task') : task.excess ≤ task'.excess := by
  rcases step.balance with ⟨_, up⟩ | ⟨_, same⟩ <;> omega

/-- What a whole run does: the excess never goes down. -/
theorem CallRun.excess_le {layers : List (Layer σ)} (run : CallRun may layers task task') :
    task.excess ≤ task'.excess := by
  induction run with
  | refl => exact Int.le_refl _
  | tail run step ih => exact Int.le_trans ih step.2.excess_le

/-! ## What a step does to what waits -/

/-- Nothing is over while something is asked. -/
theorem not_over_of_asks {r : Request} (asks : task.request? = some r) (layers : List (Layer σ)) :
    ¬ task.Over layers := by
  rintro ⟨_, ⟨_, mode_eq⟩ | ⟨_, mode_eq⟩⟩ <;> simp [request?, mode_eq] at asks

/-- An admitted turn of the activation that has the thread is a step. -/
theorem step_turn (I : Interpreter σ) {s : σ} {depth : Nat} (acts : task.mode = .acting s depth)
    (admits : may task (I.act s task.thread)) : Step may task (task.turn I s depth).1 := by
  have step_eq : task.advance I = some (task.turn I s depth) := by
    simp only [advance, acts]
  refine .advance I (fun s' depth' mode_eq => ?_) step_eq
  obtain ⟨rfl, rfl⟩ := Mode.acting.inj (acts.symm.trans mode_eq)
  exact admits

theorem move_turn (I : Interpreter σ) {s : σ} {depth : Nat} (acts : task.mode = .acting s depth)
    (admits : may task (I.act s task.thread)) : Move may task (task.turn I s depth).1 := by
  have busy : ∀ layer layers, ¬ task.Over (layer :: layers) :=
    fun layer layers ended => ended.not_acting _ _ acts
  cases action_eq : (I.act s task.thread).action with
  | proceed s' =>
      refine .stays ?_ busy
      simp only [turn_fst, action_eq]
  | call s' m args catches =>
      refine .waits I acts admits rfl (.inl ⟨m, args, action_eq⟩) ?_
      simp only [turn_fst, action_eq, call_layers]
      exact List.suffix_refl _
  | start s' catches =>
      refine .waits I acts admits rfl (.inr action_eq) ?_
      simp only [turn_fst, action_eq]
      exact suffix_start ..
  | ask s' r =>
      refine .stays ?_ busy
      simp only [turn_fst, action_eq]
  | finish r =>
      refine .stays ?_ busy
      simp only [turn_fst, action_eq]
      split <;> rfl
  | abort a =>
      refine .stays ?_ busy
      simp only [turn_fst, action_eq]

theorem move_answer (I : Interpreter σ) {r : Request} {a : Answer}
    (asks : task.request? = some r) : Move may task (task.answer I a).1 := by
  have busy : ∀ layer layers, ¬ task.Over (layer :: layers) :=
    fun layer layers => not_over_of_asks asks _
  by_cases detaches : ∃ g, task.mode = .detaching g
  · obtain ⟨g, mode_eq⟩ := detaches
    refine .guards I g mode_eq ?_
    simp only [answer, mode_eq]
  · refine .stays ?_ busy
    unfold answer
    split
    · rfl
    · rename_i g mode_eq
      exact absurd ⟨g, mode_eq⟩ detaches
    · rfl
    · split <;> rfl
    · rename_i passing _
      unfold retired
      split <;> cases passing <;> rfl
    all_goals rfl

/-- What one step does to what waits. -/
theorem Step.move (step : Step may task task') : Move may task task' := by
  cases step with
  | advance I turns step =>
      obtain ⟨s, depth, mode_eq, rfl⟩ | ⟨c, mode_eq, rfl⟩ | ⟨a, mode_eq, rfl⟩ :=
        advance_cases step
      · exact move_turn I mode_eq (turns s depth mode_eq)
      · cases layers_eq : task.layers with
        | nil =>
            refine .stays ?_ fun layer layers ended => ?_
            · simp [deliver, layers_eq]
            · cases ended.1.symm.trans layers_eq
        | cons layer layers =>
            refine .pops layer ?_
            cases layer <;> simp [deliver, layers_eq]
      · cases layers_eq : task.layers with
        | nil =>
            refine .stays ?_ fun layer layers ended => ?_
            · simp [unwind, layers_eq]
            · cases ended.1.symm.trans layers_eq
        | cons layer layers =>
            refine .pops layer ?_
            cases layer with
            | activation s depth catches => cases catches <;> simp [unwind, layers_eq]
            | body g => simp [unwind, layers_eq]
  | answer I asks keeps => exact move_answer I asks
  | reask asks r' =>
      refine .stays ?_ fun layer layers => not_over_of_asks asks _
      unfold Task.reask
      split <;> rfl

/-! ## Starts that are barred by a frame -/

/-- The start of a thread that has frames already, for some layers: it has not come to its checks,
or it has failed them and the abort is on its way out, past the guard. -/
inductive Barred (thread : Thread) (layers : List (Layer σ)) (task : Task σ) : Prop
  | detaching (g : Guard) (task_eq : task = ⟨thread, layers, .detaching g⟩)
  | failed (g : Guard)
      (task_eq : task = ⟨thread, .body g :: layers, .unwinding (.invariant .activeFrames)⟩)
  | inspecting (g : Guard)
      (task_eq : task = ⟨thread, layers, .inspecting g (.invariant .activeFrames)⟩)
  | retiring (g : Guard)
      (task_eq : task = ⟨thread, layers, .retiring g (some (.invariant .activeFrames))⟩)
  | unwinding (task_eq : task = ⟨thread, layers, .unwinding (.invariant .activeFrames)⟩)
  | lost (task_eq : task = ⟨thread, layers, .lost⟩)

theorem barred_runBody (I : Interpreter σ) {thread : Thread} (deep : 0 < thread.depth)
    (layers : List (Layer σ)) (g : Guard) :
    Barred thread layers (runBody I thread layers g).1 := by
  refine .failed g ?_
  simp [runBody, Thread.isEmpty_eq_false_of_depth deep, raise]

theorem barred_start (I : Interpreter σ) {thread : Thread} (deep : 0 < thread.depth)
    (layers : List (Layer σ)) : Barred thread layers (start I thread layers).1 := by
  unfold start
  dsimp only
  split
  · exact .detaching _ rfl
  · exact barred_runBody I deep layers _

/-- What one step preserves: a barred start never gets at its method. -/
theorem Barred.step {thread : Thread} {layers : List (Layer σ)} (h : Barred thread layers task)
    (deep : 0 < thread.depth) (running : ¬ task.Over layers) (step : Step may task task') :
    Barred thread layers task' := by
  cases h with
  | detaching g task_eq =>
      subst task_eq
      cases step with
      | advance I turns step => cases step
      | answer I asks keeps => exact barred_runBody I deep layers g
      | reask asks r' => exact .detaching g rfl
  | failed g task_eq =>
      subst task_eq
      cases step with
      | advance I turns step =>
          cases step
          exact .inspecting g rfl
      | answer I asks keeps => cases asks
      | reask asks r' => cases asks
  | inspecting g task_eq =>
      subst task_eq
      cases step with
      | advance I turns step => cases step
      | answer I asks keeps =>
          simp only [Task.answer]
          split
          · exact .unwinding rfl
          · exact .retiring g rfl
      | reask asks r' => exact .inspecting g rfl
  | retiring g task_eq =>
      subst task_eq
      cases step with
      | advance I turns step => cases step
      | answer I asks keeps =>
          simp only [Task.answer, Task.retired]
          split
          · exact .lost rfl
          · exact .unwinding rfl
      | reask asks r' => exact .retiring g rfl
  | unwinding task_eq => exact absurd ⟨by rw [task_eq], .inr ⟨_, by rw [task_eq]⟩⟩ running
  | lost task_eq =>
      subst task_eq
      cases step with
      | advance I turns step => cases step
      | answer I asks keeps => cases asks
      | reask asks r' => cases asks

/-- What a whole run preserves. -/
theorem Barred.run {thread : Thread} {layers : List (Layer σ)} (h : Barred thread layers task)
    (deep : 0 < thread.depth) (run : CallRun may layers task task') :
    Barred thread layers task' := by
  induction run with
  | refl => exact h
  | tail run step ih => exact ih.step deep step.1 step.2

/-- No activation works or waits above the layers of a barred start. -/
theorem Barred.not_abandons {thread : Thread} {layers : List (Layer σ)}
    (h : Barred thread layers task) (layers_eq : task'.layers = layers) :
    ¬ task.Abandons task' := by
  rintro ⟨_, ⟨s, depth, acts, _⟩ | ⟨s, depth, catches, popped⟩⟩
  · cases h <;> rename_i task_eq <;> simp [task_eq] at acts
  · rw [layers_eq] at popped
    cases h <;> rename_i task_eq <;> simp [task_eq] at popped

/-! ## Calls that are abandoned -/

/-- In its next turn, after which the task is `started`, the activation that has the thread makes a
call that gets past its checks, and `layer` waits for it. -/
inductive EntersCall (may : Task σ → Turn σ → Prop) (layer : Layer σ) (task started : Task σ) : Prop
  | intro (I : Interpreter σ) {s s' : σ} {depth : Nat} {m : MethodRef} {args : List Value}
      {catches : Bool} {thread' : Thread} (acts : task.mode = .acting s depth)
      (admits : may task (I.act s task.thread))
      (calls : (I.act s task.thread).action = .call s' m args catches)
      (enters : ((task.thread.revise (I.act s task.thread).pc (I.act s task.thread).frame).enter
        m args).2 = .entered thread')
      (layer_eq : layer = .activation s' depth catches)
      (started_eq : started = (task.turn I s depth).1)

/-- The call that is made at `task` gets past its checks and is abandoned at `task'`, where an abort
has reached the layer that waits for the call; `catches` says whether it is caught there. -/
def AbandonedCall (may : Task σ → Turn σ → Prop) (catches : Bool) (task task' : Task σ) : Prop :=
  ∃ (s : σ) (depth : Nat) (started : Task σ),
    EntersCall may (.activation s depth catches) task started ∧
      CallRun may (.activation s depth catches :: task.layers) started task' ∧
      task'.layers = .activation s depth catches :: task.layers ∧ ∃ a, task'.mode = .unwinding a

theorem EntersCall.started_eq_call {layer : Layer σ} {started : Task σ}
    (h : EntersCall may layer task started) :
    ∃ (I : Interpreter σ) (thread thread' : Thread) (m : MethodRef) (args : List Value),
      (thread.enter m args).2 = .entered thread' ∧
        started = (call I thread (layer :: task.layers) m args).1 := by
  obtain ⟨I, acts, admits, calls, enters, rfl, rfl⟩ := h
  refine ⟨I, _, _, _, _, enters, ?_⟩
  simp only [turn_fst, calls]

theorem EntersCall.not_over {layer : Layer σ} {started : Task σ}
    (h : EntersCall may layer task started) (layers : List (Layer σ)) : ¬ task.Over layers := by
  obtain ⟨_, acts, _⟩ := h
  exact fun ended => ended.not_acting _ _ acts

theorem EntersCall.step {layer : Layer σ} {started : Task σ}
    (h : EntersCall may layer task started) : Step may task started := by
  obtain ⟨I, acts, admits, calls, enters, rfl, rfl⟩ := h
  exact step_turn I acts admits

/-- The step that ends a call with an abort abandons the activation of the call. -/
theorem InCall.abandons {entry : FrameStack} {layers : List (Layer σ)} {ok : Nat → Prop} {a : Abort}
    (h : InCall entry layers ok task) (step : Step may task task')
    (layers_eq : task'.layers = layers) (mode_eq : task'.mode = .unwinding a) :
    task.Abandons task' := by
  cases h with
  | own callee resumes own_eq acts keeps =>
      rcases acts with ⟨s, acting⟩ | ⟨s, r, asking⟩
      · exact .of_turn acting (layers_eq.trans own_eq.symm) mode_eq
      · cases step with
        | advance I turns step => simp [advance, asking] at step
        | answer I asks keeps => simp [answer, asking] at mode_eq
        | reask asks r' => simp [reask, asking] at mode_eq
  | nested callee resumes s catches inner above =>
      have longer : layers.length < task.layers.length := by
        rw [above.layers_eq, List.length_append, List.length_cons]
        omega
      cases step.move with
      | stays stays_eq busy =>
          rw [← stays_eq, layers_eq] at longer
          exact absurd longer (Nat.lt_irrefl _)
      | waits I acts admits task'_eq starts suffix =>
          have shorter := suffix.length_le
          rw [layers_eq, List.length_cons] at shorter
          omega
      | guards I g detaches task'_eq =>
          rw [task'_eq, runBody_layers] at layers_eq
          rw [← layers_eq, List.length_cons] at longer
          omega
      | pops layer pops_eq =>
          have innermost : inner = [] := by
            have lengths := congrArg List.length (above.layers_eq.symm.trans pops_eq)
            rw [layers_eq] at lengths
            simpa using lengths
          refine ⟨⟨a, mode_eq⟩, .inr ⟨s, entry.depth, catches, ?_⟩⟩
          rw [above.layers_eq, innermost, layers_eq]
          rfl

/-- An abandoned call leaves its frame behind. -/
theorem AbandonedCall.excess_lt {catches : Bool} (h : AbandonedCall may catches task task') :
    task.excess < task'.excess := by
  obtain ⟨s, depth, started, enters, run, layers_eq, a, mode_eq⟩ := h
  obtain ⟨I, thread, thread', m, args, entered, started_eq⟩ := enters.started_eq_call
  have under : InCall thread.frames (.activation s depth catches :: task.layers) (fun _ => True)
      started := started_eq ▸ inCall_of_entered I _ trivial entered
  rcases Relation.ReflTransGen.cases_tail run with rfl | ⟨before, path, running, last⟩
  · exact absurd ⟨layers_eq, .inr ⟨a, mode_eq⟩⟩ under.not_over
  · have still : InCall thread.frames (.activation s depth catches :: task.layers) (fun _ => True)
        before := by
      rcases under.run (fun _ _ _ _ _ _ _ _ _ => trivial) path with still | ⟨_, _, exit⟩
      · exact still
      · exact absurd exit.isOver running
    have abandons := still.abandons last layers_eq mode_eq
    have opened := enters.step.excess_le
    have kept := CallRun.excess_le path
    rcases last.balance with ⟨_, up⟩ | ⟨not, _⟩
    · omega
    · exact absurd abandons not

/-! ## Where the layers of a call come from -/

/-- What the layer `layer`, above `outer`, waits for at `task`, in a run that began at `start` of a
call for `layers`. -/
inductive Trace (may : Task σ → Turn σ → Prop) (layers : List (Layer σ)) (start : Task σ)
    (layer : Layer σ) (outer : List (Layer σ)) (task : Task σ) : Prop
  /-- a call that got past its checks -/
  | called (caller started : Task σ) (reached : CallRun may layers start caller)
      (outer_eq : caller.layers = outer) (enters : EntersCall may layer caller started)
      (run : CallRun may (layer :: outer) started task)
  /-- a start that will fail -/
  | barred (thread : Thread) (deep : 0 < thread.depth) (h : Barred thread (layer :: outer) task)
  /-- nothing: the call was refused, or aborted before it was entered -/
  | ended (h : task.Over (layer :: outer))

/-- Every layer of a call is traced to what it waits for. -/
def Traced (may : Task σ → Turn σ → Prop) (layers : List (Layer σ)) (start task : Task σ) : Prop :=
  ∀ layer outer, layer :: outer <:+ task.layers → layers <:+ outer →
    Trace may layers start layer outer task

variable {layers : List (Layer σ)} {start : Task σ}

theorem Trace.step {layer : Layer σ} {outer : List (Layer σ)}
    (h : Trace may layers start layer outer task) (running : ¬ task.Over (layer :: outer))
    (step : Step may task task') : Trace may layers start layer outer task' := by
  cases h with
  | called caller started reached outer_eq enters run =>
      exact .called caller started reached outer_eq enters (run.tail ⟨running, step⟩)
  | barred thread deep h => exact .barred thread deep (h.step deep running step)
  | ended h => exact absurd h running

/-- The layer that a turn adds waits for an entered call, for a barred start, or for nothing. -/
theorem trace_waits (I : Interpreter σ) {s s' : σ} {depth : Nat} {catches : Bool}
    (reached : CallRun may layers start task) (acts : task.mode = .acting s depth)
    (deep : 0 < task.thread.depth) (admits : may task (I.act s task.thread))
    (starts : (∃ m args, (I.act s task.thread).action = .call s' m args catches) ∨
      (I.act s task.thread).action = .start s' catches) :
    Trace may layers start (.activation s' depth catches) task.layers (task.turn I s depth).1 := by
  rcases starts with ⟨m, args, calls⟩ | starts
  · cases entry_eq : ((task.thread.revise (I.act s task.thread).pc
        (I.act s task.thread).frame).enter m args).2 with
    | refused e =>
        refine .ended ⟨?_, .inl ⟨.returned (.error e), ?_⟩⟩ <;>
          simp only [turn_fst, calls, call_fst, entry_eq]
    | aborted a =>
        refine .ended ⟨?_, .inr ⟨a, ?_⟩⟩ <;> simp only [turn_fst, calls, call_fst, entry_eq]
    | entered thread' =>
        exact .called task _ reached rfl (.intro I acts admits calls entry_eq rfl rfl) .refl
  · have revised : 0 < (task.thread.revise (I.act s task.thread).pc
        (I.act s task.thread).frame).depth := by rwa [Thread.depth_revise]
    refine .barred _ revised ?_
    simp only [turn_fst, starts]
    exact barred_start I revised _

/-- A layer of a barred start was there before it, or is the one that the abort has reached. -/
theorem Barred.suffix {thread : Thread} (h : Barred thread layers task) {layer : Layer σ}
    {outer : List (Layer σ)} (suffix : layer :: outer <:+ task.layers) :
    layer :: outer <:+ layers ∨ task.Over (layer :: outer) := by
  cases h with
  | failed g task_eq =>
      subst task_eq
      rcases List.suffix_cons_iff.mp suffix with whole | old
      · exact .inr ⟨whole.symm, .inr ⟨_, rfl⟩⟩
      · exact .inl old
  | _ =>
      rename_i task_eq
      subst task_eq
      exact .inl suffix

/-- What a turn adds is the activation that waits, and the body of a start that has just failed. -/
theorem suffix_waits (I : Interpreter σ) {s s' : σ} {depth : Nat} {catches : Bool}
    (deep : 0 < task.thread.depth)
    (starts : (∃ m args, (I.act s task.thread).action = .call s' m args catches) ∨
      (I.act s task.thread).action = .start s' catches) {layer : Layer σ} {outer : List (Layer σ)}
    (suffix : layer :: outer <:+ (task.turn I s depth).1.layers) :
    layer :: outer <:+ .activation s' depth catches :: task.layers ∨
      (task.turn I s depth).1.Over (layer :: outer) := by
  rcases starts with ⟨m, args, calls⟩ | starts
  · simp only [turn_fst, calls, call_layers] at suffix
    exact .inl suffix
  · simp only [turn_fst, starts] at suffix ⊢
    exact (barred_start I (by rwa [Thread.depth_revise]) _).suffix suffix

/-- What one step preserves: what is traced stays traced, and what is added is traced to the
step. -/
theorem Traced.step (h : Traced may layers start task) (reached : CallRun may layers start task)
    (deep : 0 < task.thread.depth) (step : Step may task task') :
    Traced may layers start task' := by
  intro layer outer suffix above
  have old : layer :: outer <:+ task.layers → ¬ task.Over (layer :: outer) →
      Trace may layers start layer outer task' :=
    fun old running => (h layer outer old above).step running step
  cases step.move with
  | stays layers_eq busy => exact old (layers_eq ▸ suffix) (busy layer outer)
  | waits I acts admits task'_eq starts added =>
      have busy : ¬ task.Over (layer :: outer) := fun ended => ended.not_acting _ _ acts
      subst task'_eq
      rcases suffix_waits I deep starts suffix with inside | ended
      · rcases List.suffix_cons_iff.mp inside with new | inside
        · obtain ⟨rfl, rfl⟩ := List.cons.inj new
          exact trace_waits I reached acts deep admits starts
        · exact old inside busy
      · exact .ended ended
  | guards I g detaches task'_eq =>
      have busy : ¬ task.Over (layer :: outer) := by
        refine not_over_of_asks (r := .detach g.thread) ?_ _
        simp [request?, detaches]
      subst task'_eq
      rcases (barred_runBody I deep task.layers g).suffix suffix with inside | ended
      · exact old inside busy
      · exact .ended ended
  | pops popped layers_eq =>
      refine old ?_ fun ended => ?_
      · rw [layers_eq]
        exact suffix.trans (List.suffix_cons _ _)
      · have le := suffix.length_le
        rw [← ended.1, layers_eq, List.length_cons] at le
        omega

/-! ## The cause of an excess -/

theorem InCall.deep {entry : FrameStack} {ok : Nat → Prop} (h : InCall entry layers ok task) :
    entry.depth < task.thread.depth := by
  cases h with
  | own callee resumes layers_eq acts keeps => exact keeps.depth_le
  | nested callee resumes s catches inner above => exact above.keeps.depth_le

theorem InCall.suffix {entry : FrameStack} {ok : Nat → Prop} (h : InCall entry layers ok task) :
    layers <:+ task.layers := by
  cases h with
  | own callee resumes layers_eq acts keeps => exact layers_eq ▸ List.suffix_refl _
  | nested callee resumes s catches inner above =>
      rw [above.layers_eq]
      exact (List.suffix_cons _ _).trans (List.suffix_append _ _)

/-- In a run that began at `start` of a call for `layers`, a nested call that had been entered was
abandoned, and the abort was caught. -/
def CaughtLeak (may : Task σ → Turn σ → Prop) (layers : List (Layer σ)) (start task : Task σ) :
    Prop :=
  ∃ caller abandoned caught : Task σ,
    CallRun may layers start caller ∧ AbandonedCall may true caller abandoned ∧
      Step may abandoned caught ∧ CallRun may layers caught task

/-- An activation that is abandoned belongs to the call itself, or to a nested call that has been
entered. -/
theorem abandonedCall_of_abandons (suffix' : layers <:+ task'.layers)
    (traced : Traced may layers start task) (step : Step may task task')
    (abandons : task.Abandons task') :
    task'.Over layers ∨
      ∃ caller catches,
        CallRun may layers start caller ∧ AbandonedCall may catches caller task' := by
  obtain ⟨⟨a, mode_eq⟩, how⟩ := abandons
  obtain ⟨inner, layers_eq⟩ := suffix'
  cases inner with
  | nil => exact .inl ⟨layers_eq.symm, .inr ⟨a, mode_eq⟩⟩
  | cons layer inner =>
      right
      have inside : layer :: (inner ++ layers) <:+ task.layers := by
        rcases how with ⟨_, _, _, same⟩ | ⟨_, _, _, popped⟩
        · rw [← same, ← layers_eq]
          exact List.suffix_refl _
        · rw [popped, ← layers_eq]
          exact List.suffix_cons _ _
      have running : ¬ task.Over (layer :: (inner ++ layers)) := by
        rcases how with ⟨_, _, acts, _⟩ | ⟨_, _, _, popped⟩
        · exact fun ended => ended.not_acting _ _ acts
        · rintro ⟨whole, _⟩
          rw [popped, ← layers_eq] at whole
          have lengths := congrArg List.length whole
          simp at lengths
      cases traced layer (inner ++ layers) inside (List.suffix_append _ _) with
      | called caller started reached outer_eq enters run =>
          obtain ⟨I, acts, admits, calls, entered, rfl, rfl⟩ := enters
          refine ⟨caller, _, reached, _, _, _, .intro I acts admits calls entered rfl rfl, ?_⟩
          rw [outer_eq]
          exact ⟨run.tail ⟨running, step⟩, layers_eq.symm, a, mode_eq⟩
      | barred thread deep barred =>
          exact absurd ⟨⟨a, mode_eq⟩, how⟩ (barred.not_abandons layers_eq.symm)
      | ended ended => exact absurd ended running

/-- An abort that is not caught by the innermost activation abandons it. -/
theorem Step.catches_or_abandons (step : Step may task task') {s : σ} {depth : Nat}
    {catches : Bool} {outer : List (Layer σ)} {a : Abort}
    (layers_eq : task.layers = .activation s depth catches :: outer)
    (mode_eq : task.mode = .unwinding a) : catches = true ∨ task.Abandons task' := by
  cases step with
  | advance I turns step =>
      simp only [Task.advance, mode_eq, unwind, layers_eq] at step
      cases catches with
      | true => exact .inl rfl
      | false =>
          cases step
          exact .inr ⟨⟨a, rfl⟩, .inr ⟨s, depth, false, layers_eq⟩⟩
  | answer I asks keeps => simp [request?, mode_eq] at asks
  | reask asks r' => simp [request?, mode_eq] at asks

section Entered

variable (I : Interpreter σ) {thread thread' : Thread} {m : MethodRef} {args : List Value}

/-- An entered call is under way until it is over. -/
theorem inCall_of_run (entered : (thread.enter m args).2 = .entered thread')
    (run : CallRun may layers (call I thread layers m args).1 task) :
    InCall thread.frames layers (fun _ => True) task ∨ task.Over layers := by
  have under : InCall thread.frames layers (fun _ => True) (call I thread layers m args).1 :=
    inCall_of_entered I layers trivial entered
  rcases under.run (fun _ _ _ _ _ _ _ _ _ => trivial) run with still | ⟨_, _, exit⟩
  · exact .inl still
  · exact .inr exit.isOver

theorem traced_of_run (entered : (thread.enter m args).2 = .entered thread')
    (run : CallRun may layers (call I thread layers m args).1 task) :
    Traced may layers (call I thread layers m args).1 task := by
  induction run with
  | refl =>
      intro layer outer suffix above
      rw [call_layers] at suffix
      have longer := suffix.length_le
      have shorter := above.length_le
      rw [List.length_cons] at longer
      omega
  | tail run step ih =>
      rcases inCall_of_run I entered run with under | ended
      · exact ih.step run (Nat.zero_lt_of_lt under.deep) step.2
      · exact absurd ended step.1

/-- Along a run of an entered call, the excess is the one at entry, unless an abandoned call has
been caught, or its abort is on its way, or the call itself is over. -/
theorem leak_cases (entered : (thread.enter m args).2 = .entered thread')
    (run : CallRun may layers (call I thread layers m args).1 task) :
    CaughtLeak may layers (call I thread layers m args).1 task ∨
      task.excess = (call I thread layers m args).1.excess ∨
      (∃ caller catches, CallRun may layers (call I thread layers m args).1 caller ∧
        AbandonedCall may catches caller task) ∨
      task.Over layers := by
  induction run with
  | refl => exact .inr (.inl rfl)
  | @tail task task' run step ih =>
      have suffix' : layers <:+ task'.layers := by
        rcases inCall_of_run I entered (run.tail step) with under' | ended
        · exact under'.suffix
        · exact ended.1 ▸ List.suffix_refl _
      have abandoned := abandonedCall_of_abandons suffix' (traced_of_run I entered run) step.2
      rcases ih with ⟨caller, y, z, reached, leak, caught, rest⟩ | same |
        ⟨caller, catches, reached, leak⟩ | ended
      · exact .inl ⟨caller, y, z, reached, leak, caught, rest.tail step⟩
      · rcases step.2.balance with ⟨abandons, _⟩ | ⟨_, kept⟩
        · rcases abandoned abandons with ended | leak
          · exact .inr (.inr (.inr ended))
          · exact .inr (.inr (.inl leak))
        · exact .inr (.inl (kept.trans same))
      · obtain ⟨s, depth, started, enters, nested, layers_eq, a, mode_eq⟩ := leak
        rcases step.2.catches_or_abandons layers_eq mode_eq with rfl | abandons
        · refine .inl ⟨caller, task, task', reached, ?_, step.2, .refl⟩
          exact ⟨s, depth, started, enters, nested, layers_eq, a, mode_eq⟩
        · rcases abandoned abandons with ended | leak
          · exact .inr (.inr (.inr ended))
          · exact .inr (.inr (.inl leak))
      · exact absurd ended step.1

theorem CaughtLeak.excess_lt (h : CaughtLeak may layers start task) :
    start.excess < task.excess := by
  obtain ⟨caller, abandoned, caught, reached, leak, step, rest⟩ := h
  have before := CallRun.excess_le reached
  have lost := leak.excess_lt
  have passed := step.excess_le
  have after := CallRun.excess_le rest
  omega

/-- While an activation has the thread, there are more frames than at entry if and only if a nested
call was abandoned and caught. -/
theorem caughtLeak_iff_excess (entered : (thread.enter m args).2 = .entered thread')
    (run : CallRun may layers (call I thread layers m args).1 task) {s : σ} {depth : Nat}
    (acts : task.mode = .acting s depth) :
    CaughtLeak may layers (call I thread layers m args).1 task ↔
      (call I thread layers m args).1.excess < task.excess := by
  refine ⟨CaughtLeak.excess_lt, fun more => ?_⟩
  rcases leak_cases I entered run with leak | same | ⟨_, _, _, leak⟩ | ended
  · exact leak
  · omega
  · obtain ⟨_, _, _, _, _, _, a, mode_eq⟩ := leak
    cases acts.symm.trans mode_eq
  · exact absurd acts (ended.not_acting _ _)

/-- A call that hands something back has left no frame behind. -/
theorem excess_of_over (entered : (thread.enter m args).2 = .entered thread')
    (run : CallRun may layers (call I thread layers m args).1 task) (ended : task.Over layers) :
    (∃ a, task.mode = .unwinding a) ∨
      task.excess = (call I thread layers m args).1.excess := by
  have under : InCall thread.frames layers (fun _ => True) (call I thread layers m args).1 :=
    inCall_of_entered I layers trivial entered
  rcases under.run (fun _ _ _ _ _ _ _ _ _ => trivial) run with still | ⟨_, _, exit⟩
  · exact absurd ended still.not_over
  · cases exit with
    | returned J r callee hands resumes layers_eq mode_eq frames_eq pc_eq =>
        right
        rw [excess_call]
        simp [excess, layers_eq, mode_eq, Mode.activations, Thread.depth, frames_eq]
    | unwound a layers_eq mode_eq keeps => exact .inl ⟨a, mode_eq⟩

end Entered

/-- The steps of a nested call are steps of the calls around it. -/
theorem EntersCall.outer {layer : Layer σ} {caller started : Task σ}
    (enters : EntersCall may layer caller started) (above : layers <:+ caller.layers)
    (run : CallRun may (layer :: caller.layers) started task) :
    CallRun may layers caller task := by
  obtain ⟨I, thread, thread', m, args, entered, started_eq⟩ := enters.started_eq_call
  have opens := enters.not_over layers
  subst started_eq
  induction run with
  | refl => exact .single ⟨opens, enters.step⟩
  | tail run step ih =>
      refine ih.tail ⟨fun ended => ?_, step.2⟩
      have deeper := ((inCall_of_run I entered run).resolve_right step.1).suffix.length_le
      have shorter := above.length_le
      rw [ended.1, List.length_cons] at deeper
      omega

/-! ## Threads that nobody works on -/

/-- A computation on a thread, from nothing that waits, takes no frame of the thread away. -/
theorem depth_le_of_run {inner : List (Layer σ)} {entry : FrameStack}
    (above : Above entry [] inner task) (run : CallRun may [] task task') :
    entry.depth ≤ task'.thread.depth := by
  have kept : ∃ inner', Above entry [] inner' task' := by
    induction run with
    | refl => exact ⟨inner, above⟩
    | tail run step ih =>
        obtain ⟨_, above'⟩ := ih
        exact above'.step step.1 step.2
  obtain ⟨_, above'⟩ := kept
  exact above'.keeps.depth_le

theorem depth_le_of_callRun (I : Interpreter σ) (thread : Thread) (m : MethodRef)
    (args : List Value) (run : CallRun may [] (call I thread [] m args).1 task) :
    thread.depth ≤ task.thread.depth :=
  depth_le_of_run
    (Above.call I [] ⟨rfl, List.suffix_refl _⟩ (Nat.le_refl thread.depth) m args) run

theorem depth_le_of_startRun (I : Interpreter σ) (thread : Thread)
    (run : CallRun may [] (Task.start I thread []).1 task) : thread.depth ≤ task.thread.depth := by
  have keeps : thread.Keeps thread.frames := ⟨rfl, List.suffix_refl _⟩
  have stacked : Stacked thread.frames.depth ([] : List (Layer σ)) thread.depth := Nat.le_refl _
  obtain ⟨_, above⟩ := Above.start I [] keeps stacked
  exact depth_le_of_run above run

end Task

/-- What the owner of a thread can do with it between its calls: write its program counter and its
innermost frame, or see a call or a start through to its end. -/
inductive Thread.Use (may : Task σ → Turn σ → Prop) (thread : Thread) : Thread → Prop
  | revise (pc : Nat) (frame : Option Frame) : Use may thread (thread.revise pc frame)
  | call (I : Interpreter σ) (m : MethodRef) (args : List Value) {final : Task σ}
      (run : Task.CallRun may [] (Task.call I thread [] m args).1 final) (ended : final.Over []) :
      Use may thread final.thread
  | start (I : Interpreter σ) {final : Task σ}
      (run : Task.CallRun may [] (Task.start I thread []).1 final) (ended : final.Over []) :
      Use may thread final.thread

/-- What one use preserves: no frame goes away. -/
theorem Thread.Use.depth_le {may : Task σ → Turn σ → Prop} {thread thread' : Thread}
    (use : Use may thread thread') : thread.depth ≤ thread'.depth := by
  cases use with
  | revise pc frame => rw [depth_revise]
  | call I m args run ended => exact Task.depth_le_of_callRun I thread m args run
  | start I run ended => exact Task.depth_le_of_startRun I thread run

/-- What any number of uses preserves. -/
theorem Thread.depth_le_of_uses {may : Task σ → Turn σ → Prop} {thread thread' : Thread}
    (uses : Relation.ReflTransGen (Use may) thread thread') : thread.depth ≤ thread'.depth := by
  induction uses with
  | refl => exact Nat.le_refl _
  | tail uses use ih => exact Nat.le_trans ih use.depth_le

namespace Task

variable {may : Task σ → Turn σ → Prop} {layers : List (Layer σ)} {task : Task σ}

/-! ## Leaks are detected -/

/-- The activation of a call for some layers hands back `r` in its next turn, of the interpreter
`I`, after which the task is `task'`. -/
def Returns (task : Task σ) (I : Interpreter σ) (layers : List (Layer σ)) (r : CallResult)
    (task' : Task σ) : Prop :=
  task.layers = layers ∧ ∃ s depth, task.mode = .acting s depth ∧
    (I.act s task.thread).action = .finish r ∧ task' = (task.turn I s depth).1

section Entered

variable (I : Interpreter σ) {thread thread' : Thread} {m : MethodRef} {args : List Value}

/-- A call that hands back something is left if there is no excess, and is aborted otherwise. -/
theorem Returns.mode_eq (entered : (thread.enter m args).2 = .entered thread')
    {before after : Task σ} {J : Interpreter σ} {r : CallResult}
    (run : CallRun may layers (call I thread layers m args).1 before)
    (returns : before.Returns J layers r after) :
    after.mode = if (call I thread layers m args).1.excess < before.excess then
      .unwinding (.invariant .unbalancedFrames) else .delivering (.returned r) := by
  obtain ⟨layers_eq, s, depth, acts, finishes, rfl⟩ := returns
  -- nothing of the call waits, so it is the call's own activation that hands back
  have depth_eq : depth = thread.depth := by
    cases (inCall_of_run I entered run).resolve_right fun ended =>
      ended.not_acting _ _ acts with
    | own callee resumes own_eq own keeps =>
        rcases own with ⟨_, own⟩ | ⟨_, _, own⟩
        · exact (Mode.acting.inj (acts.symm.trans own)).2
        · cases acts.symm.trans own
    | nested callee resumes s catches inner above =>
        have lengths := congrArg List.length (layers_eq.symm.trans above.layers_eq)
        simp at lengths
        omega
  have entry_eq := excess_call I thread layers m args
  have now_eq : before.excess = before.thread.depth - waiting layers - 1 := by
    simp [excess, layers_eq, acts, Mode.activations]
  have grown := CallRun.excess_le run
  have revised := Thread.depth_revise before.thread (J.act s before.thread).pc
    (J.act s before.thread).frame
  simp only [turn_fst, finishes]
  split
  · rename_i left_thread left
    obtain ⟨callee, rest, frames_eq, rest_eq, rfl⟩ := Thread.leave_eq_some left
    simp only [Thread.depth, FrameStack.depth, frames_eq, List.length_cons] at revised
    rw [if_neg]
    simp only [Thread.depth, FrameStack.depth] at *
    omega
  · rename_i stuck
    rw [Thread.leave_eq_none_iff] at stuck
    rw [if_pos]
    omega

/-- An abort that is raised before a nested call is entered, and is caught, leaves everything as it
was at the call. -/
theorem caught_of_aborted {caller caught : Task σ} {J : Interpreter σ} {s s' : σ} {depth : Nat}
    {a : Abort} (calls : (J.act s caller.thread).action = .call s' m args true)
    (aborted : ((caller.thread.revise (J.act s caller.thread).pc
      (J.act s caller.thread).frame).enter m args).2 = .aborted a)
    (step : Step may (caller.turn J s depth).1 caught) :
    caught.thread = caller.thread.revise (J.act s caller.thread).pc (J.act s caller.thread).frame ∧
      caught.layers = caller.layers ∧
      ∃ K : Interpreter σ, caught.mode = .acting (K.resume s' (.aborted a)) depth := by
  have turned : (caller.turn J s depth).1 =
      ⟨caller.thread.revise (J.act s caller.thread).pc (J.act s caller.thread).frame,
        .activation s' depth true :: caller.layers, .unwinding a⟩ := by
    simp only [turn_fst, calls, call_fst, aborted]
  rw [turned] at step
  cases step with
  | advance K turns step =>
      cases step
      exact ⟨rfl, rfl, K, rfl⟩
  | answer K asks keeps => cases asks
  | reask asks r' => cases asks

end Entered

/-- Leaked frames are detected.  Of a call that has been entered:

* when its activation hands back a result, the call is aborted for unbalanced frames if and only if
  a nested call that had been entered was abandoned and caught, and returns the result otherwise;
* after a nested call that had been entered was abandoned, whether it is caught or not, the call
  can only end in an abort, which is the one for unbalanced frames if its activation hands back a
  result;
* an abort of a nested call that is caught before the call was entered leaves the thread as it was,
  and counts for nothing.

A thread that nobody works on keeps the frames it has, whatever is done with it and at every moment
of a call; and as long as it has any, its start is barred and aborts for active frames. -/
theorem leaked_frames_are_detected (may : Task σ → Turn σ → Prop) (I : Interpreter σ)
    {thread thread' : Thread} (layers : List (Layer σ)) {m : MethodRef} {args : List Value}
    (entered : (thread.enter m args).2 = .entered thread') :
    (∀ (before after : Task σ) (J : Interpreter σ) (r : CallResult),
        CallRun may layers (call I thread layers m args).1 before →
        before.Returns J layers r after →
        (after.mode = .unwinding (.invariant .unbalancedFrames) ↔
            CaughtLeak may layers (call I thread layers m args).1 before) ∧
          (after.mode = .delivering (.returned r) ↔
            ¬ CaughtLeak may layers (call I thread layers m args).1 before)) ∧
      (∀ (caller abandoned final : Task σ) (catches : Bool),
        CallRun may layers (call I thread layers m args).1 caller →
        AbandonedCall may catches caller abandoned → CallRun may layers abandoned final →
        (final.Over layers → ∃ a, final.mode = .unwinding a) ∧
          ∀ (J : Interpreter σ) (r : CallResult) (after : Task σ), final.Returns J layers r after →
            after.mode = .unwinding (.invariant .unbalancedFrames)) ∧
      (∀ (caller caught : Task σ) (J : Interpreter σ) (s s' : σ) (depth : Nat) (m' : MethodRef)
        (args' : List Value) (a : Abort),
        CallRun may layers (call I thread layers m args).1 caller →
        caller.mode = .acting s depth → may caller (J.act s caller.thread) →
        (J.act s caller.thread).action = .call s' m' args' true →
        ((caller.thread.revise (J.act s caller.thread).pc
          (J.act s caller.thread).frame).enter m' args').2 = .aborted a →
        Step may (caller.turn J s depth).1 caught →
        caught.thread.depth = caller.thread.depth ∧
          caught.thread.pc = (J.act s caller.thread).pc ∧
          caught.layers = caller.layers ∧
          (∃ K : Interpreter σ, caught.mode = .acting (K.resume s' (.aborted a)) depth) ∧
          (CaughtLeak may layers (call I thread layers m args).1 caught ↔
            CaughtLeak may layers (call I thread layers m args).1 caller)) ∧
      (∀ t u : Thread, Relation.ReflTransGen (Thread.Use may) t u →
        t.depth ≤ u.depth ∧
          (∀ (J : Interpreter σ) (m' : MethodRef) (args' : List Value) (task : Task σ),
            CallRun may [] (call J u [] m' args').1 task → t.depth ≤ task.thread.depth) ∧
          (0 < t.depth → ∀ (J : Interpreter σ) (task : Task σ),
            CallRun may [] (start J u []).1 task →
            Barred u [] task ∧
              (task.Over [] → task.mode = .unwinding (.invariant .activeFrames)))) := by
  refine ⟨?_, ?_, ?_, ?_⟩
  · intro before after J r run returns
    have mode_eq := returns.mode_eq I entered run
    obtain ⟨layers_eq, s, depth, acts, finishes, rfl⟩ := returns
    rw [mode_eq, caughtLeak_iff_excess I entered run acts]
    split <;> simp_all
  · intro caller abandoned final catches reached leak rest
    have lost : (call I thread layers m args).1.excess < final.excess := by
      have before := CallRun.excess_le reached
      have leaked := leak.excess_lt
      have after := CallRun.excess_le rest
      omega
    have run : CallRun may layers (call I thread layers m args).1 final := by
      obtain ⟨s, depth, started, enters, nested, _⟩ := leak
      have under := (inCall_of_run I entered reached).resolve_right (enters.not_over layers)
      exact (reached.trans (enters.outer under.suffix nested)).trans rest
    refine ⟨fun ended => ?_, fun J r after returns => ?_⟩
    · rcases excess_of_over I entered run ended with unwinds | same
      · exact unwinds
      · omega
    · rw [returns.mode_eq I entered run, if_pos lost]
  · intro caller caught J s s' depth m' args' a reached acts admits calls aborted step
    obtain ⟨thread_eq, layers_eq, K, mode_eq⟩ := caught_of_aborted calls aborted step
    have turns := step_turn J acts admits
    have same : caught.excess = caller.excess := by
      simp [excess, thread_eq, layers_eq, mode_eq, acts, Mode.activations]
    have opens : ¬ caller.Over layers := fun ended => ended.not_acting _ _ acts
    have waits : ¬ (caller.turn J s depth).1.Over layers := by
      intro ended
      have above := ((inCall_of_run I entered reached).resolve_right opens).suffix.length_le
      have shorter := congrArg List.length ended.1
      simp only [turn_fst, calls, call_layers, List.length_cons] at shorter
      omega
    have run := (reached.tail ⟨opens, turns⟩).tail ⟨waits, step⟩
    refine ⟨?_, ?_, layers_eq, ⟨K, mode_eq⟩, ?_⟩
    · rw [thread_eq, Thread.depth_revise]
    · rw [thread_eq]
      rfl
    · rw [caughtLeak_iff_excess I entered run mode_eq, caughtLeak_iff_excess I entered reached acts,
        same]
  · intro t u uses
    have kept := Thread.depth_le_of_uses uses
    refine ⟨kept, fun J m' args' task run => ?_, fun deep J task run => ?_⟩
    · exact Nat.le_trans kept (depth_le_of_callRun J u m' args' run)
    · have still : 0 < u.depth := Nat.lt_of_lt_of_le deep kept
      have barred := (barred_start J still []).run still run
      refine ⟨barred, fun ended => ?_⟩
      cases barred with
      | unwinding task_eq => rw [task_eq]
      | failed g task_eq => cases (task_eq ▸ ended.1 : [Layer.body g] = [])
      | _ =>
          rename_i task_eq
          subst task_eq
          rcases ended.2 with ⟨_, mode_eq⟩ | ⟨_, mode_eq⟩ <;> cases mode_eq

/-- The method at place 0 calls the one at place 1, which aborts, and then calls it again with an
argument that cannot be copied; both aborts are caught. -/
def leakingLibrary : Script.Library :=
  { methods := [bareMethod 0, bareMethod 1]
    codes := [[.call 1 [] .catchAll, .call 1 [.value (.returnAddress 0)] .catchAll, .give none],
      [.raise "abandoned"]] }

/-- The first nested call leaks a frame; the second one, which is never entered, leaves the depth
alone.  The caller cannot return, and its thread cannot be started any more. -/
theorem leaked_frames_of_caught_aborts :
    ∃ start calling caught before after : Task Script.Activation,
      caught.thread.depth = calling.thread.depth ∧
        CaughtLeak (fun _ _ => True) [] start before ∧
        after.mode = .unwinding (.invariant .unbalancedFrames) ∧ after.thread.depth = 3 ∧
        ∀ (J : Interpreter Script.Activation) (task : Task Script.Activation),
          CallRun (fun _ _ => True) [] (Task.start J after.thread []).1 task → task.Over [] →
            task.mode = .unwinding (.invariant .activeFrames) := by
  let I := Script.interpreter leakingLibrary
  let start := (call I busyThread [] (bareMethod 0) []).1
  have entered : (busyThread.enter (bareMethod 0) []).2 = .entered start.thread := rfl
  obtain ⟨detects, _, uncounted, keeps⟩ :=
    leaked_frames_are_detected (fun _ _ => True) I [] entered
  have run : ∀ n, n ≤ 7 → CallRun (fun _ _ => True) [] start (drive I n start) := by
    intro n small
    refine callRun_drive I [] n start fun k below => ⟨?_, fun _ _ _ => trivial⟩
    have early : k < 7 := Nat.lt_of_lt_of_le below small
    rintro ⟨layers_eq, ⟨c, mode_eq⟩ | ⟨a, mode_eq⟩⟩
    · interval_cases k <;> cases mode_eq
    · interval_cases k <;> cases mode_eq <;> cases layers_eq
  have unentered := uncounted (drive I 4 start) (drive I 6 start) I _ _ _ _ _ _
    (run 4 (by decide)) rfl trivial rfl rfl (.advance I (fun _ _ _ => trivial) rfl)
  have returns : (drive I 7 start).Returns I [] (.ok none) (drive I 8 start) :=
    ⟨rfl, _, _, rfl, rfl, rfl⟩
  have unbalanced : (drive I 8 start).mode = .unwinding (.invariant .unbalancedFrames) := rfl
  refine ⟨start, drive I 4 start, drive I 6 start, drive I 7 start, drive I 8 start, unentered.1,
    ?_, unbalanced, rfl, ?_⟩
  · exact (detects _ _ I _ (run 7 (by decide)) returns).1.1 unbalanced
  · intro J task started ended
    exact ((keeps _ _ .refl).2.2 (by decide) J task started).2 ended

end Task

end ThreadEngine
