import ThreadEngine.Proofs.RecursiveCalls

set_option autoImplicit false

/-!
# Inputs of calls

The input of a call of the int machine is some frames, a program counter, a method and arguments.
What the call puts out, its outcome and what it leaves of the frames and of the program counter
follow from these alone (`CallInput.Ends`).  The machine sees nothing else of a thread (`IsBlind`),
so the same call on another thread, for other layers, takes the same steps (`Task.Alike.moves`).  In
every world, on every thread and in every context a call ends as its input determines
(`CallInput.ends_of_solo`), and it ends if its input has an end (`CallInput.solo_of_ends`).
-/

namespace ThreadEngine

/-! ## Threads that look alike -/

/-- Two threads with the same frames and the same program counter. -/
structure Thread.Alike (t t' : Thread) : Prop where
  frames_eq : t.frames = t'.frames
  pc_eq : t.pc = t'.pc

namespace Thread.Alike

variable {t t' : Thread}

theorem symm (alike : t.Alike t') : t'.Alike t := ⟨alike.frames_eq.symm, alike.pc_eq.symm⟩

theorem depth_eq (alike : t.Alike t') : t.depth = t'.depth := by
  rw [Thread.depth, Thread.depth, alike.frames_eq]

theorem revise (alike : t.Alike t') (pc : Nat) (frame : Option Frame) :
    (t.revise pc frame).Alike (t'.revise pc frame) := by
  refine ⟨?_, rfl⟩
  simp only [Thread.revise, alike.frames_eq]

/-- The entry phase of a call looks at the frames and the program counter. -/
theorem enter (alike : t.Alike t') (m : MethodRef) (args : List Value) :
    match (t.enter m args).2 with
    | .refused e => (t'.enter m args).2 = .refused e
    | .aborted a => (t'.enter m args).2 = .aborted a
    | .entered next => ∃ next', (t'.enter m args).2 = .entered next' ∧ next.Alike next' := by
  have callee_eq : t'.calleeFrame m = t.calleeFrame m := by
    unfold Thread.calleeFrame
    rw [alike.pc_eq]
  unfold Thread.enter
  rw [callee_eq, ← alike.frames_eq]
  by_cases many : m.method.maxLocals < args.length
  · simp only [many, if_true]
  · simp only [many, if_false]
    cases Frame.allocate m.method.maxLocals m.method.maxStack with
    | error a => rfl
    | ok blank =>
        dsimp only
        cases (m.method.marshal blank.locals args).outcome with
        | abort a | error e => rfl
        | ok _ =>
            dsimp only
            cases t.frames.push (t.calleeFrame m
              { blank with locals := (m.method.marshal blank.locals args).locals }) with
            | error e => rfl
            | ok frames => exact ⟨_, rfl, rfl, rfl⟩

/-- So does the exit phase. -/
theorem leave (alike : t.Alike t') (depth : Nat) :
    match t.leave depth with
    | none => t'.leave depth = none
    | some next => ∃ next', t'.leave depth = some next' ∧ next.Alike next' := by
  unfold Thread.leave
  rw [← alike.frames_eq]
  cases t.frames.frames with
  | nil => rfl
  | cons callee rest =>
      by_cases fits : rest.length = depth
      · simp only [fits, if_true]
        exact ⟨_, rfl, rfl, rfl⟩
      · simp only [fits, if_false]

end Thread.Alike

/-- An interpreter that sees of a thread only its frames and its program counter, and that never
starts a body. -/
structure Interpreter.IsBlind {σ : Type} (I : Interpreter σ) : Prop where
  enter : ∀ t t' : Thread, t.Alike t' → I.enter t = I.enter t'
  act : ∀ (s : σ) (t t' : Thread), t.Alike t' → I.act s t = I.act s t'
  never_starts : ∀ (s : σ) (t : Thread) (s' : σ) (catches : Bool),
    (I.act s t).action ≠ .start s' catches

/-! ## Tasks that look alike -/

namespace Task

variable {σ : Type} {I : Interpreter σ} {below below' : List (Layer σ)} {task task' : Task σ}

/-- Two tasks that differ at most in the layers below a call, and in what an interpreter does not
see of their threads. -/
structure Alike (below below' : List (Layer σ)) (task task' : Task σ) : Prop where
  thread : task.thread.Alike task'.thread
  mode_eq : task.mode = task'.mode
  layers : ∃ inner, task.layers = inner ++ below ∧ task'.layers = inner ++ below'

namespace Alike

theorem symm (alike : Alike below below' task task') : Alike below' below task' task := by
  obtain ⟨thread, mode_eq, inner, layers_eq, layers_eq'⟩ := alike
  exact ⟨thread.symm, mode_eq.symm, inner, layers_eq', layers_eq⟩

/-- Either both calls are over or none. -/
theorem isOver (alike : Alike below below' task task') (finished : task.Over below) :
    task'.Over below' := by
  obtain ⟨inner, layers_eq, layers_eq'⟩ := alike.layers
  obtain ⟨whole, ending⟩ := finished
  rw [layers_eq, List.append_left_eq_self] at whole
  refine ⟨?_, ?_⟩
  · rw [layers_eq', whole, List.nil_append]
  · rw [← alike.mode_eq]
    exact ending

/-- A call on two threads that look alike. -/
theorem call (blind : I.IsBlind) {t t' : Thread} (alike : t.Alike t') (inner : List (Layer σ))
    (m : MethodRef) (args : List Value) :
    Alike below below' (Task.call I t (inner ++ below) m args).1
      (Task.call I t' (inner ++ below') m args).1 := by
  have entry := alike.enter m args
  rw [call_fst, call_fst]
  cases entry_eq : (t.enter m args).2 with
  | refused e =>
      simp only [entry_eq] at entry
      rw [entry]
      exact ⟨alike, rfl, inner, rfl, rfl⟩
  | aborted a =>
      simp only [entry_eq] at entry
      rw [entry]
      exact ⟨alike, rfl, inner, rfl, rfl⟩
  | entered next =>
      simp only [entry_eq] at entry
      obtain ⟨next', entry_eq', alike'⟩ := entry
      rw [entry_eq']
      dsimp only
      rw [blind.enter next next' alike', alike.depth_eq]
      exact ⟨alike', rfl, inner, rfl, rfl⟩

theorem turn (blind : I.IsBlind) (alike : Alike below below' task task') (s : σ) (depth : Nat) :
    Alike below below' (task.turn I s depth).1 (task'.turn I s depth).1 := by
  obtain ⟨inner, layers_eq, layers_eq'⟩ := alike.layers
  rw [turn_fst, turn_fst, layers_eq, layers_eq', ← blind.act s _ _ alike.thread]
  have plain := blind.never_starts s task.thread
  generalize I.act s task.thread = turn at plain
  have revised := alike.thread.revise turn.pc turn.frame
  dsimp only
  cases action_eq : turn.action with
  | proceed s' | ask s' r | abort a => exact ⟨revised, rfl, inner, rfl, rfl⟩
  | call s' m args catches =>
      exact .call blind revised (.activation s' depth catches :: inner) m args
  | start s' catches => exact absurd action_eq (plain s' catches)
  | finish r =>
      have left := revised.leave depth
      dsimp only
      split at left
      · rename_i left_eq
        rw [left_eq, left]
        exact ⟨revised, rfl, inner, rfl, rfl⟩
      · rename_i next left_eq
        obtain ⟨next', left_eq', alike'⟩ := left
        rw [left_eq, left_eq']
        exact ⟨alike', rfl, inner, rfl, rfl⟩

/-- As long as the call is not over, what ends goes to a layer of its own. -/
theorem inner_of_ending (alike : Alike below below' task task') (going : ¬ task.Over below)
    (ending : (∃ c, task.mode = .delivering c) ∨ ∃ a, task.mode = .unwinding a) :
    ∃ layer inner, task.layers = layer :: (inner ++ below) ∧
      task'.layers = layer :: (inner ++ below') := by
  obtain ⟨inner, layers_eq, layers_eq'⟩ := alike.layers
  cases inner with
  | nil => exact absurd ⟨layers_eq, ending⟩ going
  | cons layer inner => exact ⟨layer, inner, layers_eq, layers_eq'⟩

theorem deliver (alike : Alike below below' task task') (going : ¬ task.Over below)
    {c : Completion} (mode_eq : task.mode = .delivering c) :
    Alike below below' (task.deliver I c).1 (task'.deliver I c).1 := by
  obtain ⟨layer, inner, layers_eq, layers_eq'⟩ := alike.inner_of_ending going (.inl ⟨c, mode_eq⟩)
  unfold Task.deliver
  rw [layers_eq, layers_eq']
  cases layer with
  | activation s depth catches => exact ⟨alike.thread, rfl, inner, rfl, rfl⟩
  | body g => exact ⟨alike.thread, rfl, inner, rfl, rfl⟩

theorem unwind (alike : Alike below below' task task') (going : ¬ task.Over below) {a : Abort}
    (mode_eq : task.mode = .unwinding a) :
    Alike below below' (task.unwind I a) (task'.unwind I a) := by
  obtain ⟨layer, inner, layers_eq, layers_eq'⟩ := alike.inner_of_ending going (.inr ⟨a, mode_eq⟩)
  unfold Task.unwind
  rw [layers_eq, layers_eq']
  cases layer with
  | activation s depth catches =>
      cases catches with
      | false => exact ⟨alike.thread, rfl, inner, rfl, rfl⟩
      | true => exact ⟨alike.thread, rfl, inner, rfl, rfl⟩
  | body g => exact ⟨alike.thread, rfl, inner, rfl, rfl⟩

end Alike

/-- What the next step of a task is, if it asks for nothing but to put out an int. -/
theorem move_cases {out : List Int32} {next : Task σ} (moves : task.move I = some (out, next)) :
    (∃ s depth, task.mode = .acting s depth ∧ out = [] ∧ next = (task.turn I s depth).1) ∨
      (∃ c, task.mode = .delivering c ∧ out = [] ∧ next = (task.deliver I c).1) ∨
      (∃ a, task.mode = .unwinding a ∧ out = [] ∧ next = task.unwind I a) ∨
      ∃ s depth v, task.mode = .asking s depth (.emit v) ∧ out = [v] ∧
        next = ⟨task.thread, task.layers, .acting (I.receive s .done) depth⟩ := by
  unfold move at moves
  split at moves
  · obtain ⟨⟨next', notes⟩, advances, same⟩ := Option.map_eq_some_iff.mp moves
    cases same
    obtain ⟨s, depth, mode_eq, rfl⟩ | ⟨c, mode_eq, rfl⟩ | ⟨a, mode_eq, rfl⟩ :=
      advance_cases advances
    · exact .inl ⟨s, depth, mode_eq, rfl, rfl⟩
    · exact .inr (.inl ⟨c, mode_eq, rfl, rfl⟩)
    · exact .inr (.inr (.inl ⟨a, mode_eq, rfl, rfl⟩))
  · rename_i v asks
    cases moves
    unfold request? at asks
    split at asks
    · rename_i s depth r mode_eq
      cases asks
      refine .inr (.inr (.inr ⟨s, depth, v, mode_eq, rfl, ?_⟩))
      simp [answer, mode_eq, threadAfter]
    all_goals cases asks
  · cases moves

/-- Tasks that look alike take the same step. -/
theorem Alike.move (blind : I.IsBlind) (alike : Alike below below' task task')
    (going : ¬ task.Over below) {out : List Int32} {next : Task σ}
    (moves : task.move I = some (out, next)) :
    ∃ next', task'.move I = some (out, next') ∧ Alike below below' next next' := by
  obtain ⟨s, depth, mode_eq, rfl, rfl⟩ | ⟨c, mode_eq, rfl, rfl⟩ | ⟨a, mode_eq, rfl, rfl⟩ |
    ⟨s, depth, v, mode_eq, rfl, rfl⟩ := move_cases moves
  · have mode_eq' := alike.mode_eq.symm.trans mode_eq
    refine ⟨(task'.turn I s depth).1, ?_, alike.turn blind s depth⟩
    simp [Task.move, request?, advance, mode_eq']
  · have mode_eq' := alike.mode_eq.symm.trans mode_eq
    refine ⟨(task'.deliver I c).1, ?_, alike.deliver going mode_eq⟩
    simp [Task.move, request?, advance, mode_eq']
  · have mode_eq' := alike.mode_eq.symm.trans mode_eq
    refine ⟨task'.unwind I a, ?_, alike.unwind going mode_eq⟩
    simp [Task.move, request?, advance, mode_eq']
  · have mode_eq' := alike.mode_eq.symm.trans mode_eq
    refine ⟨⟨task'.thread, task'.layers, .acting (I.receive s .done) depth⟩, ?_, alike.thread, rfl,
      alike.layers⟩
    simp [Task.move, request?, mode_eq', answer, threadAfter]

/-- Tasks that look alike go the same way. -/
theorem Alike.moves (blind : I.IsBlind) {n : Nat} {out : List Int32} {final : Task σ}
    (alike : Alike below below' task task') (moves : Moves I below n task out final) :
    ∃ final', Moves I below' n task' out final' ∧ Alike below below' final final' := by
  induction moves generalizing task' with
  | refl task => exact ⟨task', .refl task', alike⟩
  | @head n task next final out out' going moves rest ih =>
      obtain ⟨next', moves', alike'⟩ := alike.move blind going moves
      obtain ⟨final', rest', alike''⟩ := ih alike'
      have going' : ¬ task'.Over below' := fun finished => going (alike.symm.isOver finished)
      exact ⟨final', .head going' moves' rest', alike''⟩

end Task

namespace IntMachine

variable {lib : Library}

/-! ## The int machine -/

/-- What the int machine can end a turn with: it starts no body, and asks for nothing but that an
int is put out. -/
def IsPlain : Action Activation → Prop
  | .start .. => False
  | .ask _ r => ∃ v, r = .emit v
  | .proceed _ | .call .. | .finish _ | .abort _ => True

theorem pushing_isPlain (code : List Op) (pc : Nat) (f : Frame) (v : Int32) :
    IsPlain (pushing code pc f v).action := by
  unfold pushing
  split <;> trivial

theorem combining_isPlain (code : List Op) (pc : Nat) (f : Frame) (op : Int → Int → Int)
    (overflow : Abort) : IsPlain (combining code pc f op overflow).action := by
  unfold combining
  split
  · trivial
  · split
    · exact pushing_isPlain code pc _ _
    · trivial

theorem exec_isPlain (lib : Library) (code : List Op) (pc : Nat) (f : Frame) (op : Op) :
    IsPlain (exec lib code pc f op).action := by
  cases op with
  | const v => exact pushing_isPlain code pc f v
  | load i =>
      simp only [exec]
      split
      · exact pushing_isPlain code pc f _
      · trivial
  | sub | mul => exact combining_isPlain code pc f _ _
  | ifGreater target | returnInt =>
      simp only [exec]
      split <;> trivial
  | invoke name =>
      simp only [exec]
      split
      · trivial
      · split <;> trivial
  | emit =>
      simp only [exec]
      split
      · trivial
      · exact ⟨_, rfl⟩
  | returnNothing => trivial

theorem afterCall_isPlain (code : List Op) (pc : Nat) (f : Frame) (c : Completion) :
    IsPlain (afterCall code pc f c).action := by
  unfold afterCall
  split
  · trivial
  · split
    · exact pushing_isPlain code pc f _
    · trivial
  all_goals trivial

theorem act_isPlain (lib : Library) (s : Activation) (t : Thread) :
    IsPlain (act lib s t).action := by
  unfold act
  split
  · trivial
  · trivial
  · split
    · trivial
    · exact exec_isPlain lib _ _ _ _
  · exact afterCall_isPlain _ _ _ _
  · trivial
  · trivial

/-- The int machine sees only the innermost frame and the program counter. -/
theorem isBlind_interpreter (lib : Library) : (interpreter lib).IsBlind := by
  refine ⟨fun t t' alike => ?_, fun s t t' alike => ?_, fun s t s' catches starts => ?_⟩
  · change enter lib t = enter lib t'
    rw [enter, enter, alike.frames_eq]
  · change act lib s t = act lib s t'
    unfold act
    rw [alike.frames_eq, alike.pc_eq]
  · have plain := act_isPlain lib s t
    rw [show (act lib s t).action = .start s' catches from starts] at plain
    exact plain

/-- The int machine asks only for what is open to interpreters. -/
theorem isPublic_interpreter (lib : Library) : (interpreter lib).IsPublic := by
  intro s t s' r asks
  have plain := act_isPlain lib s t
  rw [show (act lib s t).action = .ask s' r from asks] at plain
  obtain ⟨v, rfl⟩ := plain
  rfl

/-! ## Inputs -/

/-- A call that is to be made: on which frames, at which program counter, of which method and with
which arguments. -/
structure CallInput where
  frames : FrameStack
  pc : Nat
  method : MethodRef
  args : List Value
  deriving DecidableEq, Repr, Inhabited

/-- How a call has ended, and what it has left of the frames and of the program counter. -/
structure Ending where
  outcome : Outcome (Option Value)
  pc : Nat
  frames : FrameStack
  deriving DecidableEq, Repr, Inhabited

end IntMachine

open IntMachine (CallInput Ending)

/-- How the call has ended that is on its way to the innermost layer. -/
def Task.ending? {σ : Type} (task : Task σ) : Option Ending :=
  match task.mode with
  | .delivering (.returned r) => some ⟨.ofExcept r, task.thread.pc, task.thread.frames⟩
  | .unwinding a => some ⟨.abort a, task.thread.pc, task.thread.frames⟩
  | _ => none

theorem Task.Alike.ending?_eq {σ : Type} {below below' : List (Layer σ)} {task task' : Task σ}
    (alike : task.Alike below below' task') : task.ending? = task'.ending? := by
  unfold ending?
  rw [alike.mode_eq, alike.thread.pc_eq, alike.thread.frames_eq]

namespace IntMachine

variable {lib : Library} {e : CallInput} {thread : Thread} {layers : List (Layer Activation)}
  {final : Task Activation} {out out' : List Int32} {x x' : Ending} {n : Nat}

namespace CallInput

/-- A thread is as an input says. -/
def Suits (e : CallInput) (thread : Thread) : Prop := thread.frames = e.frames ∧ thread.pc = e.pc

/-- A thread that is as an input says, and nothing in particular besides. -/
def blankThread (e : CallInput) : Thread :=
    { (default : Thread) with frames := e.frames, pc := e.pc }

/-- The call with an input, when it begins. -/
def firstTask (lib : Library) (e : CallInput) (thread : Thread)
    (layers : List (Layer Activation)) :
    Task Activation :=
  (Task.call (interpreter lib) thread layers e.method e.args).1

/-- The call with an input puts out some ints and comes to an end.  There is no world in this, no
registry and no other thread. -/
def Ends (lib : Library) (e : CallInput) (out : List Int32) (x : Ending) : Prop :=
  ∃ n final, Task.Moves (interpreter lib) [] n (e.firstTask lib e.blankThread []) out final ∧
    final.Over [] ∧ final.ending? = some x

theorem alike_firstTask {thread' : Thread} {layers' : List (Layer Activation)} (lib : Library)
    (suits : e.Suits thread) (suits' : e.Suits thread') :
    (e.firstTask lib thread layers).Alike layers layers' (e.firstTask lib thread' layers') := by
  have alike : thread.Alike thread' :=
    ⟨suits.1.trans suits'.1.symm, suits.2.trans suits'.2.symm⟩
  exact .call (isBlind_interpreter lib) alike [] e.method e.args

/-- A call that suits an input and has ended, has ended as the input determines. -/
theorem ends_of_moves (suits : e.Suits thread)
    (moves : Task.Moves (interpreter lib) layers n (e.firstTask lib thread layers) out final)
    (finished : final.Over layers) (ending_eq : final.ending? = some x) : e.Ends lib out x := by
  have alike : (e.firstTask lib thread layers).Alike layers [] (e.firstTask lib e.blankThread []) :=
    alike_firstTask lib suits ⟨rfl, rfl⟩
  obtain ⟨final', moves', alike'⟩ := alike.moves (isBlind_interpreter lib) moves
  exact ⟨n, final', moves', alike'.isOver finished, by rw [← alike'.ending?_eq, ending_eq]⟩

/-- A call that suits an input with an end, comes to that end. -/
theorem moves_of_ends (ends : e.Ends lib out x) (suits : e.Suits thread)
    (layers : List (Layer Activation)) :
    ∃ n final, Task.Moves (interpreter lib) layers n (e.firstTask lib thread layers) out final ∧
      final.Over layers ∧ final.ending? = some x := by
  obtain ⟨n, final, moves, finished, ending_eq⟩ := ends
  have alike : (e.firstTask lib e.blankThread []).Alike [] layers (e.firstTask lib thread layers) :=
    alike_firstTask lib ⟨rfl, rfl⟩ suits
  obtain ⟨final', moves', alike'⟩ := alike.moves (isBlind_interpreter lib) moves
  exact ⟨n, final', moves', alike'.isOver finished, by rw [← alike'.ending?_eq, ending_eq]⟩

/-- The call with an input comes to one end at most, and puts out one list. -/
theorem Ends.unique (first : e.Ends lib out x) (second : e.Ends lib out' x') :
    out = out' ∧ x = x' := by
  obtain ⟨n, final, moves, finished, ending_eq⟩ := first
  obtain ⟨k, final', moves', finished', ending_eq'⟩ := second
  obtain ⟨j, rest, _, rfl, last⟩ := moves.cancel moves' finished'
  obtain ⟨_, rfl, rfl⟩ := last.of_over finished
  exact ⟨(List.append_nil out).symm, Option.some.inj (ending_eq.symm.trans ending_eq')⟩

/-- A call that is over has an ending that shows. -/
theorem ending?_of_over (within : Within lib thread layers final) (finished : final.Over layers) :
    ∃ x, final.ending? = some x := by
  obtain ⟨o, concludes⟩ := within.concludes finished
  cases o with
  | ok r | error e =>
      cases concludes
      exact ⟨_, rfl⟩
  | abort a => exact ⟨⟨.abort a, final.thread.pc, final.thread.frames⟩, by
      simp [Task.ending?, concludes.2]⟩

section Worlds

variable {c : Ctx} {w v : World Activation}

/-- In whatever world a call is made, on whatever thread and for whatever layers: if it comes to an
end, alone, then to the end of its input, and it has added to the output what the call with that
input puts out. -/
theorem ends_of_solo (suits : e.Suits thread)
    (task_eq : w.roster.taskAt c = some (e.firstTask lib thread layers))
    (solo : World.Solo (interpreter lib) c layers w v) (final_eq : v.roster.taskAt c = some final)
    (finished : final.Over layers) :
    ∃ out x, e.Ends lib out x ∧ final.ending? = some x ∧ v.output = w.output ++ out := by
  have steady := Within.steady lib thread layers
  have within := within_call lib thread layers e.method e.args
  obtain ⟨n, out, final', moves, under, final_eq', output_eq⟩ :=
    steady.moves_of_solo solo within task_eq
  cases final_eq.symm.trans final_eq'
  obtain ⟨x, ending_eq⟩ := ending?_of_over under finished
  exact ⟨out, x, ends_of_moves suits moves finished ending_eq, ending_eq, output_eq⟩

/-- In every world the call with an input that has an end comes to that end, alone. -/
theorem solo_of_ends (ends : e.Ends lib out x) (suits : e.Suits thread)
    (task_eq : w.roster.taskAt c = some (e.firstTask lib thread layers)) :
    ∃ v final, World.Solo (interpreter lib) c layers w v ∧ v.roster.taskAt c = some final ∧
      final.Over layers ∧ final.ending? = some x ∧ v.output = w.output ++ out := by
  have steady := Within.steady lib thread layers
  have within := within_call lib thread layers e.method e.args
  obtain ⟨n, final, moves, finished, ending_eq⟩ := moves_of_ends ends suits layers
  obtain ⟨v, solo, final_eq, output_eq⟩ := steady.solo moves within task_eq
  exact ⟨v, final, solo, final_eq, finished, ending_eq, output_eq⟩

end Worlds

end CallInput

end IntMachine

end ThreadEngine
