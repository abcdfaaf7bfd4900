import ThreadEngine.Proofs.Evaluator
import ThreadEngine.Proofs.SoloRuns

set_option autoImplicit false

/-!
# Calls of the int machine are recursive calls

The int machine runs all its activations on one thread, with one program counter and one stack of
frames.  Nevertheless a call does what the evaluator says: `call_evaluates` ties the two in both
directions, so that neither ends without the other.

An activation runs at a `Site`: the thread as its caller left it, the layers that wait for it, and
its own frame.  `Site.Leads` says which task stands for which effect of the evaluator.  Each turn of
the machine is the step of the evaluator that it should be (`exec_fits`, `afterCall_fits`), and a
nested call is a call at a site of its own, one frame deeper.
-/

namespace ThreadEngine

/-- The frame with some ints on its operand stack, and nothing else. -/
def Frame.holding (f : Frame) (ints : List Int32) : Frame :=
  { f with stack := { f.stack with slots := ints.map .int } }

/-- A call on a thread, for some layers, has ended with an outcome.  If it hands something back, the
thread is what it was before the call. -/
def Task.Concludes {σ : Type} (thread : Thread) (layers : List (Layer σ)) (task : Task σ) :
    Outcome (Option Value) → Prop
  | .ok r => task = ⟨thread, layers, .delivering (.returned (.ok r))⟩
  | .error e => task = ⟨thread, layers, .delivering (.returned (.error e))⟩
  | .abort a => task.layers = layers ∧ task.mode = .unwinding a

theorem Task.Concludes.isOver {σ : Type} {thread : Thread} {layers : List (Layer σ)} {task : Task σ}
    {o : Outcome (Option Value)} (concludes : task.Concludes thread layers o) :
    task.Over layers := by
  cases o with
  | ok r =>
      cases concludes
      exact ⟨rfl, .inl ⟨_, rfl⟩⟩
  | error e =>
      cases concludes
      exact ⟨rfl, .inl ⟨_, rfl⟩⟩
  | abort a => exact ⟨concludes.1, .inr ⟨a, concludes.2⟩⟩

theorem Task.Concludes.unique {σ : Type} {thread : Thread} {layers : List (Layer σ)} {task : Task σ}
    {o o' : Outcome (Option Value)} (first : task.Concludes thread layers o)
    (second : task.Concludes thread layers o') : o = o' := by
  cases o <;> cases o' <;> simp_all [Task.Concludes]

namespace IntMachine

/-! ## Operand stacks of ints -/

theorem pushInt_holding (f : Frame) (ints : List Int32) (v : Int32) :
    pushInt (f.holding ints) v =
      if ints.length < f.stack.bound then .ok (f.holding (v :: ints))
      else .error (.operandStackOverflow f.stack.bound) := by
  simp only [pushInt, OperandStack.push, OperandStack.size, Frame.holding, List.length_map]
  split <;> rfl

theorem popInt_holding (f : Frame) (ints : List Int32) :
    popInt (f.holding ints) =
      match ints with
      | [] => (.error .operandStackUnderflow, f.holding [])
      | v :: rest => (.ok v, f.holding rest) := by
  cases ints <;> rfl

theorem popTwo_holding (f : Frame) (ints : List Int32) :
    popTwo (f.holding ints) =
      match ints with
      | b :: a :: rest => (.ok (a, b), f.holding rest)
      | _ => (.error .operandStackUnderflow, f.holding []) := by
  rcases ints with _ | ⟨b, _ | ⟨a, rest⟩⟩ <;> rfl

/-! ## Sites -/

/-- Where an activation runs. -/
structure Site where
  /-- the thread as the caller left it -/
  thread : Thread
  /-- what waits for the call -/
  layers : List (Layer Activation)
  /-- the frame of the activation, whatever it holds -/
  callee : Frame
  code : List Op
  /-- the caller goes on where it was -/
  resumes : callee.returnPc = thread.pc

namespace Site

variable (lib : Library) (site : Site)

/-- What the evaluator knows of an activation. -/
def scope : Scope := ⟨site.code, site.callee.locals, site.callee.stack.bound⟩

/-- The thread while the activation has it. -/
def inside (pc : Nat) (ints : List Int32) : Thread :=
  { site.thread with frames := site.thread.frames.cons (site.callee.holding ints), pc := pc }

/-- The task while the activation has the thread. -/
def acting (s : Activation) (pc : Nat) (ints : List Int32) : Task Activation :=
  ⟨site.inside pc ints, site.layers, .acting s site.thread.depth⟩

/-- The task while the activation waits until its int has been put out. -/
def emitting (v : Int32) (pc : Nat) (ints : List Int32) : Task Activation :=
  ⟨site.inside pc ints, site.layers, .asking (.emitting site.code) site.thread.depth (.emit v)⟩

/-- What waits for a call that the activation makes. -/
def waiting : List (Layer Activation) :=
  .activation (.calling site.code) site.thread.depth false :: site.layers

/-- The task when a call that the activation makes begins. -/
def calling (m : MethodRef) (v : Int32) (pc : Nat) (ints : List Int32) : Task Activation :=
  (Task.call (interpreter lib) (site.inside pc ints) site.waiting m [Value.int v]).1

/-- The turns that have a given effect. -/
def Fits (turn : Turn Activation) : Effect → Prop
  | .goes pc ints =>
    turn = ⟨pc, some (site.callee.holding ints), [], .proceed (.ready site.code)⟩
  | .puts v pc ints =>
    turn = ⟨pc, some (site.callee.holding ints), [], .ask (.emitting site.code) (.emit v)⟩
  | .calls m v pc ints =>
    turn = ⟨pc, some (site.callee.holding ints), [],
      .call (.calling site.code) m [Value.int v] false⟩
  | .ends (.ok r) =>
    ∃ pc ints, turn = ⟨pc, some (site.callee.holding ints), [], .finish (.ok r)⟩
  | .ends (.error e) =>
    ∃ pc ints, turn = ⟨pc, some (site.callee.holding ints), [], .finish (.error e)⟩
  | .ends (.abort a) =>
    ∃ pc ints, turn = ⟨pc, some (site.callee.holding ints), [], .abort a⟩

/-- The tasks that stand for a given effect. -/
def Leads (task : Task Activation) : Effect → Prop
  | .goes pc ints => task = site.acting (.ready site.code) pc ints
  | .puts v pc ints => task = site.emitting v pc ints
  | .calls m v pc ints => task = site.calling lib m v pc ints
  | .ends o => task.Concludes site.thread site.layers o

/-- An activation has one call less for the calls that it makes. -/
theorem budget_inside (pc : Nat) (ints : List Int32) {b : Nat}
    (budget_eq : b + 1 = site.thread.frames.maxDepth - site.thread.depth) :
    b = (site.inside pc ints).frames.maxDepth - (site.inside pc ints).depth := by
  have maxDepth_eq : (site.inside pc ints).frames.maxDepth = site.thread.frames.maxDepth := rfl
  have depth_eq : (site.inside pc ints).depth = site.thread.depth + 1 := rfl
  omega

/-! ## Turns -/

variable {lib site}

theorem pushing_fits (pc : Nat) (ints : List Int32) (v : Int32) :
    site.Fits (pushing site.code pc (site.callee.holding ints) v) (site.scope.put pc ints v) := by
  unfold pushing Scope.put
  rw [pushInt_holding]
  by_cases room : ints.length < site.callee.stack.bound
  · simp [room, scope, Fits]
  · simp [room, scope, Fits, failing]

theorem combining_fits (pc : Nat) (ints : List Int32) (op : Int → Int → Int) (overflow : Abort) :
    site.Fits (combining site.code pc (site.callee.holding ints) op overflow)
      (site.scope.combine pc op overflow ints) := by
  unfold combining
  rw [popTwo_holding]
  rcases ints with _ | ⟨b, _ | ⟨a, rest⟩⟩
  · exact ⟨pc, [], rfl⟩
  · exact ⟨pc, [], rfl⟩
  · simp only [Scope.combine]
    cases checked? (op a.toInt b.toInt) with
    | none => exact ⟨pc, rest, rfl⟩
    | some v => exact pushing_fits pc rest v

/-- Every instruction has the effect that the evaluator says. -/
theorem exec_fits (pc : Nat) (ints : List Int32) (op : Op) :
    site.Fits (exec lib site.code pc (site.callee.holding ints) op)
      (site.scope.execute lib pc ints op) := by
  cases op with
  | const v => exact pushing_fits pc ints v
  | load i =>
      have locals_eq : (site.callee.holding ints).locals = site.scope.locals := rfl
      simp only [exec, Scope.execute, locals_eq]
      cases site.scope.locals.getInt? i with
      | none => exact ⟨pc, ints, rfl⟩
      | some v => exact pushing_fits pc ints v
  | sub => exact combining_fits pc ints _ _
  | mul => exact combining_fits pc ints _ _
  | ifGreater target =>
      simp only [exec, Scope.execute, popTwo_holding]
      rcases ints with _ | ⟨b, _ | ⟨a, rest⟩⟩
      · exact ⟨pc, [], rfl⟩
      · exact ⟨pc, [], rfl⟩
      · rfl
  | invoke name =>
      simp only [exec, Scope.execute, popInt_holding]
      cases lib.find? name with
      | none => exact ⟨pc, ints, rfl⟩
      | some d =>
          cases ints with
          | nil => exact ⟨pc, [], rfl⟩
          | cons v rest => rfl
  | emit =>
      simp only [exec, Scope.execute, popInt_holding]
      cases ints with
      | nil => exact ⟨pc, [], rfl⟩
      | cons v rest => rfl
  | returnInt =>
      simp only [exec, Scope.execute, popInt_holding]
      cases ints with
      | nil => exact ⟨pc, [], rfl⟩
      | cons v rest => exact ⟨pc, rest, rfl⟩
  | returnNothing => exact ⟨pc, ints, rfl⟩

/-- An activation goes on after a call as the evaluator says. -/
theorem afterCall_fits (pc : Nat) (ints : List Int32) (r : CallResult) :
    site.Fits (afterCall site.code pc (site.callee.holding ints) (.returned r))
      (site.scope.resume pc ints (.ofExcept r)) := by
  rcases r with e | _ | v
  · exact ⟨pc, ints, rfl⟩
  · exact ⟨pc, ints, rfl⟩
  · cases v with
    | primitive p =>
        simp only [afterCall, Outcome.ofExcept, Scope.resume]
        cases p.asInt? with
        | none => exact ⟨pc, ints, rfl⟩
        | some v => exact pushing_fits pc ints v
    | _ => exact ⟨pc, ints, rfl⟩

theorem leave_inside (site : Site) (pc : Nat) (ints : List Int32) :
    (site.inside pc ints).leave site.thread.depth = some site.thread := by
  have returns : (site.callee.holding ints).returnPc = site.thread.pc := site.resumes
  simp [Thread.leave, inside, FrameStack.cons, Thread.depth, FrameStack.depth, returns]

/-- A turn leads to the task that stands for its effect. -/
theorem leads_of_fits {s : Activation} {pc : Nat} {ints : List Int32} {e : Effect}
    (fits : site.Fits (act lib s (site.inside pc ints)) e) :
    ∃ task, (site.acting s pc ints).move (interpreter lib) = some ([], task) ∧
      site.Leads lib task e := by
  refine ⟨((site.acting s pc ints).turn (interpreter lib) s site.thread.depth).1, rfl, ?_⟩
  rw [Task.turn_fst]
  have act_eq : (interpreter lib).act s (site.acting s pc ints).thread =
      act lib s (site.inside pc ints) := rfl
  rw [act_eq]
  generalize act lib s (site.inside pc ints) = turn at fits ⊢
  cases e with
  | goes pc' ints' | puts v pc' ints' | calls m v pc' ints' =>
      cases fits
      rfl
  | ends o =>
      cases o with
      | ok r | error e =>
          obtain ⟨pc', ints', rfl⟩ := fits
          have revised : (site.acting s pc ints).thread.revise pc'
              (some (site.callee.holding ints')) = site.inside pc' ints' := rfl
          simp only [revised, site.leave_inside, Leads, Task.Concludes]
          rfl
      | abort a =>
          obtain ⟨pc', ints', rfl⟩ := fits
          exact ⟨rfl, rfl⟩

/-- An activation that has the thread executes the instruction that the program counter says. -/
theorem ready_moves (lib : Library) (site : Site) (pc : Nat) (ints : List Int32) :
    ∃ task, (site.acting (.ready site.code) pc ints).move (interpreter lib) = some ([], task) ∧
      site.Leads lib task (site.scope.effect lib pc ints) := by
  refine leads_of_fits ?_
  have current_eq : (site.inside pc ints).frames.current? = some (site.callee.holding ints) := rfl
  have pc_eq : (site.inside pc ints).pc = pc := rfl
  have code_eq : site.scope.code = site.code := rfl
  rw [Scope.effect, code_eq]
  simp only [act, current_eq, pc_eq]
  cases site.code[pc]? with
  | none => exact ⟨pc, ints, rfl⟩
  | some op => exact exec_fits (pc + 1) ints op

theorem called_moves (lib : Library) (site : Site) (r : CallResult) (pc : Nat) (ints : List Int32) :
    ∃ task, (site.acting (.called site.code (.returned r)) pc ints).move (interpreter lib) =
        some ([], task) ∧
      site.Leads lib task (site.scope.resume pc ints (.ofExcept r)) :=
  leads_of_fits (afterCall_fits pc ints r)

theorem emitting_moves (lib : Library) (site : Site) (v : Int32) (pc : Nat) (ints : List Int32) :
    (site.emitting v pc ints).move (interpreter lib) =
      some ([v], site.acting (.ready site.code) pc ints) := rfl

/-- What a call hands back goes to the activation that made it; an abort passes it. -/
theorem concluded_moves (lib : Library) (site : Site) {pc : Nat} {ints : List Int32}
    {task : Task Activation} {o : Outcome (Option Value)}
    (concludes : task.Concludes (site.inside pc ints) site.waiting o) :
    (∃ r, o = .ofExcept r ∧ task.move (interpreter lib) =
        some ([], site.acting (.called site.code (.returned r)) pc ints)) ∨
      ∃ a task', o = .abort a ∧ task.move (interpreter lib) = some ([], task') ∧
        task'.Concludes site.thread site.layers (.abort a) := by
  cases o with
  | ok v =>
      cases concludes
      exact .inl ⟨.ok v, rfl, rfl⟩
  | error e =>
      cases concludes
      exact .inl ⟨.error e, rfl, rfl⟩
  | abort a =>
      obtain ⟨layers_eq, mode_eq⟩ := concludes
      refine .inr ⟨a, ⟨task.thread, site.layers, .unwinding a⟩, rfl, ?_, rfl, rfl⟩
      simp [Task.move, Task.request?, Task.advance, mode_eq, Task.unwind, layers_eq, waiting]

/-! ## Steps -/

theorem not_over_acting (site : Site) (s : Activation) (pc : Nat) (ints : List Int32) :
    ¬ (site.acting s pc ints).Over site.layers :=
  fun finished => finished.not_acting s site.thread.depth rfl

theorem not_over_emitting (site : Site) (v : Int32) (pc : Nat) (ints : List Int32) :
    ¬ (site.emitting v pc ints).Over site.layers := by
  rintro ⟨_, ⟨c, mode_eq⟩ | ⟨a, mode_eq⟩⟩
  · cases mode_eq
  · cases mode_eq

theorem suffix_calling (lib : Library) (site : Site) (m : MethodRef) (v : Int32) (pc : Nat)
    (ints : List Int32) : site.waiting <:+ (site.calling lib m v pc ints).layers := by
  rw [calling, Task.call_layers]

theorem not_over_concluded {pc : Nat} {ints : List Int32} {task : Task Activation}
    {o : Outcome (Option Value)} (concludes : task.Concludes (site.inside pc ints) site.waiting o) :
    ¬ task.Over site.layers := by
  have kept : site.waiting <:+ task.layers := by rw [concludes.isOver.1]
  exact Task.not_over_of_suffix kept

/-- When a call has ended, its caller goes on as the evaluator says. -/
theorem moves_of_concluded (lib : Library) {pc : Nat} {ints : List Int32} {task : Task Activation}
    {o : Outcome (Option Value)} (concludes : task.Concludes (site.inside pc ints) site.waiting o) :
    ∃ n task', Task.Moves (interpreter lib) site.layers (n + 1) task [] task' ∧
      site.Leads lib task' (site.scope.resume pc ints o) := by
  have going := not_over_concluded concludes
  obtain ⟨r, rfl, handed⟩ | ⟨a, task', rfl, passed, passes⟩ := site.concluded_moves lib concludes
  · obtain ⟨task', moves, leads⟩ := site.called_moves lib r pc ints
    have acting := site.not_over_acting (.called site.code (.returned r)) pc ints
    exact ⟨1, task', .head going handed (.head acting moves (.refl task')), leads⟩
  · exact ⟨0, task', .head going passed (.refl task'), passes⟩

/-! ## One activation, against the evaluator -/

section Activation

variable {callee : MethodRef → List Value → List Int32 → Outcome (Option Value) → Prop}
  {task final : Task Activation} {e : Effect} {out : List Int32} {o : Outcome (Option Value)}
  {n : Nat}

/-- What the evaluator says of an activation, the machine does, if this is so of its calls. -/
theorem moves_of_yields
    (calls : ∀ m v pc ints out r, callee m [Value.int v] out r → ∃ n final,
      Task.Moves (interpreter lib) site.waiting n (site.calling lib m v pc ints) out final ∧
        final.Concludes (site.inside pc ints) site.waiting r)
    (yields : Yields lib callee site.scope e out o) (leads : site.Leads lib task e) :
    ∃ n final, Task.Moves (interpreter lib) site.layers n task out final ∧
      final.Concludes site.thread site.layers o := by
  induction yields generalizing task with
  | ends o => exact ⟨0, task, .refl task, leads⟩
  | @goes pc ints out o rest ih =>
      obtain rfl : task = site.acting (.ready site.code) pc ints := leads
      obtain ⟨next, moves, leads'⟩ := site.ready_moves lib pc ints
      obtain ⟨n, final, path, concludes⟩ := ih leads'
      exact ⟨n + 1, final, .head (site.not_over_acting _ pc ints) moves path, concludes⟩
  | @puts v pc ints out o rest ih =>
      obtain rfl : task = site.emitting v pc ints := leads
      obtain ⟨next, moves, leads'⟩ := site.ready_moves lib pc ints
      obtain ⟨n, final, path, concludes⟩ := ih leads'
      refine ⟨n + 2, final, ?_, concludes⟩
      apply Task.Moves.head (site.not_over_emitting v pc ints) (site.emitting_moves lib v pc ints)
      exact .head (site.not_over_acting _ pc ints) moves path
  | @calls m v pc ints out out' r o call rest ih =>
      obtain rfl : task = site.calling lib m v pc ints := leads
      obtain ⟨n, mid, inner, concluded⟩ := calls m v pc ints out r call
      obtain ⟨k, next, resumed, leads'⟩ := moves_of_concluded lib concluded
      obtain ⟨j, final, outer, concludes⟩ := ih leads'
      refine ⟨n + (k + 1 + j), final, ?_, concludes⟩
      exact (inner.outward (site.suffix_calling lib m v pc ints)).trans (resumed.trans outer)

/-- What an activation of the machine does until it ends, the evaluator says, if this is so of its
calls. -/
theorem yields_of_moves
    (calls : ∀ m v pc ints n out mid,
      Task.Moves (interpreter lib) site.waiting n (site.calling lib m v pc ints) out mid →
        mid.Over site.waiting → ∃ r, callee m [Value.int v] out r ∧
          mid.Concludes (site.inside pc ints) site.waiting r)
    (moves : Task.Moves (interpreter lib) site.layers n task out final)
    (finished : final.Over site.layers) (leads : site.Leads lib task e) :
    ∃ o, Yields lib callee site.scope e out o ∧ final.Concludes site.thread site.layers o := by
  -- a call is skipped as a whole, so the induction is on the number of steps that are left
  induction n using Nat.strongRecOn generalizing e task out with
  | ind n ih =>
      cases e with
      | ends o =>
          obtain ⟨rfl, rfl, rfl⟩ := moves.of_over leads.isOver
          exact ⟨o, .ends o, leads⟩
      | goes pc ints =>
          obtain rfl : task = site.acting (.ready site.code) pc ints := leads
          obtain ⟨next, move_eq, leads'⟩ := site.ready_moves lib pc ints
          obtain ⟨k, out', rfl, rfl, rest⟩ :=
            moves.of_going finished (site.not_over_acting _ pc ints) move_eq
          obtain ⟨o, yields, concludes⟩ := ih k (Nat.lt_succ_self k) rest leads'
          exact ⟨o, .goes yields, concludes⟩
      | puts v pc ints =>
          obtain rfl : task = site.emitting v pc ints := leads
          have going := site.not_over_emitting v pc ints
          obtain ⟨k, out', rfl, rfl, rest⟩ :=
            moves.of_going finished going (site.emitting_moves lib v pc ints)
          obtain ⟨o, yields, concludes⟩ := ih k (Nat.lt_succ_self k) (e := .goes pc ints) rest rfl
          cases yields with
          | goes yields => exact ⟨o, .puts yields, concludes⟩
      | calls m v pc ints =>
          obtain rfl : task = site.calling lib m v pc ints := leads
          -- the end of the whole is also the end of the nested call, so that one has an outcome
          obtain ⟨k, j, out₁, out₂, mid, rfl, rfl, inner, ended, outer⟩ :=
            moves.split (site.suffix_calling lib m v pc ints) finished
          obtain ⟨r, call, concluded⟩ := calls m v pc ints k out₁ mid inner ended
          obtain ⟨i, next, resumed, leads'⟩ := moves_of_concluded lib concluded
          obtain ⟨l, out₃, rfl, rfl, rest⟩ := resumed.cancel outer finished
          obtain ⟨o, yields, concludes⟩ := ih l (by omega) rest leads'
          exact ⟨o, .calls call yields, concludes⟩

end Activation

end Site

/-! ## Calls, against the evaluator -/

/-- The site of a call that gets past its checks. -/
def Site.ofCall (thread : Thread) (layers : List (Layer Activation)) (m : MethodRef)
    (locals : Locals) (code : List Op) : Site where
  thread := thread
  layers := layers
  callee := thread.calleeFrame m (Frame.unbound locals (OperandStack.empty m.method.maxStack))
  code := code
  resumes := rfl

/-- How the entry phase of a call ends. -/
theorem enter_snd (thread : Thread) (m : MethodRef) (args : List Value) :
    (thread.enter m args).2 =
      match prepare m args with
      | .error e => .refused e
      | .abort a => .aborted a
      | .ok locals =>
        if thread.depth < thread.frames.maxDepth then
          .entered ((Site.ofCall thread [] m locals []).inside 0 [])
        else .refused (.stackOverflow thread.frames.maxDepth) := by
  by_cases many : m.method.maxLocals < args.length
  · simp [Thread.enter, prepare, many]
  · by_cases fits : m.method.maxLocals < Nat.pow 2 59 ∧ m.method.maxStack < Nat.pow 2 59
    · simp only [Thread.enter, prepare, many, Frame.allocate_eq, fits, and_self, if_true, if_false]
      generalize m.method.marshal (Frame.ofSizes m.method.maxLocals m.method.maxStack).locals args =
        copied
      obtain ⟨locals, events, outcome⟩ := copied
      cases outcome with
      | error e => rfl
      | abort a => rfl
      | ok done =>
          have depth_eq : thread.frames.depth = thread.depth := rfl
          by_cases room : thread.depth < thread.frames.maxDepth
          · simp only [FrameStack.push, depth_eq, room, if_true]
            rfl
          · simp only [FrameStack.push, depth_eq, room, if_false]
    · simp only [Thread.enter, prepare, many, Frame.allocate_eq, fits, if_false]

/-- The activation of a method runs the code that goes by the name of the method. -/
theorem enter_inside (lib : Library) (thread : Thread) (m : MethodRef) (locals : Locals) :
    (interpreter lib).enter ((Site.ofCall thread [] m locals []).inside 0 []) =
      match lib.find? m.name with
      | none => .stuck .unknownMethod
      | some d => .ready d.code := rfl

section Calls

variable {lib : Library} {thread : Thread} {layers : List (Layer Activation)} {m : MethodRef}
  {args : List Value} {task final : Task Activation} {out : List Int32}
  {o : Outcome (Option Value)} {budget n : Nat}

/-- A call is over at once, or finds no code, or is an activation that has a smaller budget for its
own calls.  Each time the evaluator says the same. -/
theorem call_cases (lib : Library) (thread : Thread) (layers : List (Layer Activation))
    (m : MethodRef) (args : List Value)
    (budget_eq : budget = thread.frames.maxDepth - thread.depth) :
    (∃ o, (Task.call (interpreter lib) thread layers m args).1.Concludes thread layers o ∧
        ∀ out o', Evaluates lib thread.frames.maxDepth budget m args out o' ↔ out = [] ∧ o' = o) ∨
      (∃ a, (Task.call (interpreter lib) thread layers m args).1.layers = layers ∧
          (Task.call (interpreter lib) thread layers m args).1.mode =
            .acting (.stuck a) thread.depth ∧
          ∀ out o', Evaluates lib thread.frames.maxDepth budget m args out o' ↔
            out = [] ∧ o' = .abort a) ∨
      ∃ b d locals, budget = b + 1 ∧ d ∈ lib ∧
        (Task.call (interpreter lib) thread layers m args).1 =
          (Site.ofCall thread layers m locals d.code).acting (.ready d.code) 0 [] ∧
        ∀ out o', Evaluates lib thread.frames.maxDepth budget m args out o' ↔
          Yields lib (Evaluates lib thread.frames.maxDepth b)
            (Site.ofCall thread layers m locals d.code).scope (.goes 0 []) out o' := by
  rw [Task.call_fst, enter_snd]
  cases prepared : prepare m args with
  | error e =>
      refine .inl ⟨.error e, rfl, fun out o' => ?_⟩
      unfold Evaluates
      simp only [prepared]
  | abort a =>
      refine .inl ⟨.abort a, ⟨rfl, rfl⟩, fun out o' => ?_⟩
      unfold Evaluates
      simp only [prepared]
  | ok locals =>
      by_cases room : thread.depth < thread.frames.maxDepth
      · obtain ⟨b, rfl⟩ : ∃ b, budget = b + 1 := ⟨budget - 1, by omega⟩
        simp only [room, if_true]
        cases found : lib.find? m.name with
        | none =>
            refine .inr (.inl ⟨.unknownMethod, trivial, ?_, fun out o' => ?_⟩)
            · rw [enter_inside, found]
            · unfold Evaluates
              simp only [prepared, found]
        | some d =>
            have member := List.mem_of_find?_eq_some found
            refine .inr (.inr ⟨b, d, locals, rfl, member, ?_, fun out o' => ?_⟩)
            · rw [enter_inside, found]
              rfl
            · rw [Evaluates.eq_def]
              simp only [prepared, found]
              rfl
      · obtain rfl : budget = 0 := by omega
        simp only [room, if_false]
        refine .inl ⟨.error (.stackOverflow thread.frames.maxDepth), rfl, fun out o' => ?_⟩
        unfold Evaluates
        simp only [prepared]

/-- An activation without code aborts. -/
theorem stuck_moves (lib : Library) (thread : Thread) {a : Abort} {depth : Nat}
    (layers_eq : task.layers = layers) (mode_eq : task.mode = .acting (.stuck a) depth) :
    ¬ task.Over layers ∧ ∃ task', task.move (interpreter lib) = some ([], task') ∧
      task'.Concludes thread layers (.abort a) := by
  refine ⟨?_, ⟨task.thread.revise task.thread.pc none, layers, .unwinding a⟩, ?_, rfl, rfl⟩
  · exact fun finished => finished.not_acting _ _ mode_eq
  · have act_eq : (interpreter lib).act (.stuck a) task.thread =
        ⟨task.thread.pc, none, [], .abort a⟩ := rfl
    simp [Task.move, Task.request?, Task.advance, mode_eq, Task.turn_fst, act_eq, layers_eq]

/-- What the evaluator says of a call, the machine does. -/
theorem moves_of_evaluates (budget_eq : budget = thread.frames.maxDepth - thread.depth)
    (evaluates : Evaluates lib thread.frames.maxDepth budget m args out o) :
    ∃ n final, Task.Moves (interpreter lib) layers n
        (Task.call (interpreter lib) thread layers m args).1 out final ∧
      final.Concludes thread layers o := by
  induction budget using Nat.strongRecOn generalizing thread layers m args out o with
  | ind budget ih =>
      obtain ⟨o', concludes, same⟩ | ⟨a, layers_eq, mode_eq, same⟩ |
        ⟨b, d, locals, rfl, known, start_eq, same⟩ := call_cases lib thread layers m args budget_eq
      · obtain ⟨rfl, rfl⟩ := (same out o).mp evaluates
        exact ⟨0, _, .refl _, concludes⟩
      · obtain ⟨rfl, rfl⟩ := (same out o).mp evaluates
        obtain ⟨going, task', moves, concludes⟩ := stuck_moves lib thread layers_eq mode_eq
        exact ⟨1, task', .head going moves (.refl task'), concludes⟩
      · -- a call that the activation makes is one frame deeper, which is one call less
        rw [start_eq]
        refine Site.moves_of_yields ?_ ((same out o).mp evaluates) rfl
        intro m v pc ints out r call
        exact ih b (Nat.lt_succ_self b) (Site.budget_inside _ pc ints budget_eq) call

/-- What a call of the machine does until it ends, the evaluator says. -/
theorem evaluates_of_moves (budget_eq : budget = thread.frames.maxDepth - thread.depth)
    (moves : Task.Moves (interpreter lib) layers n
      (Task.call (interpreter lib) thread layers m args).1 out final)
    (finished : final.Over layers) :
    ∃ o, Evaluates lib thread.frames.maxDepth budget m args out o ∧
      final.Concludes thread layers o := by
  induction budget using Nat.strongRecOn generalizing thread layers m args n out final with
  | ind budget ih =>
      obtain ⟨o, concludes, same⟩ | ⟨a, layers_eq, mode_eq, same⟩ |
        ⟨b, d, locals, rfl, known, start_eq, same⟩ := call_cases lib thread layers m args budget_eq
      · obtain ⟨rfl, rfl, rfl⟩ := moves.of_over concludes.isOver
        exact ⟨o, (same [] o).mpr ⟨rfl, rfl⟩, concludes⟩
      · obtain ⟨going, task', move_eq, concludes⟩ := stuck_moves lib thread layers_eq mode_eq
        obtain ⟨k, out', rfl, rfl, rest⟩ := moves.of_going finished going move_eq
        obtain ⟨rfl, rfl, rfl⟩ := rest.of_over concludes.isOver
        exact ⟨.abort a, (same [] _).mpr ⟨rfl, rfl⟩, concludes⟩
      · rw [start_eq] at moves
        have yields : ∃ o, Yields lib (Evaluates lib thread.frames.maxDepth b)
            (Site.ofCall thread layers m locals d.code).scope (.goes 0 []) out o ∧
            final.Concludes thread layers o := by
          refine Site.yields_of_moves ?_ moves finished rfl
          intro m v pc ints n out mid inner ended
          exact ih b (Nat.lt_succ_self b) (Site.budget_inside _ pc ints budget_eq) inner ended
        obtain ⟨o, yields, concludes⟩ := yields
        exact ⟨o, (same out o).mpr yields, concludes⟩

/-! ## Calls under way -/

/-- The code at a site is that of some definition. -/
def Site.Known (lib : Library) (site : Site) : Prop := ∃ d ∈ lib, d.code = site.code

/-- The tasks that a call on a thread, for some layers, goes through. -/
inductive Within (lib : Library) : Thread → List (Layer Activation) → Task Activation → Prop
  | ended {thread : Thread} {layers : List (Layer Activation)} {task : Task Activation}
      {o : Outcome (Option Value)} (concludes : task.Concludes thread layers o) :
      Within lib thread layers task
  | stuck {thread : Thread} {layers : List (Layer Activation)} {task : Task Activation} {a : Abort}
      {depth : Nat} (layers_eq : task.layers = layers)
      (mode_eq : task.mode = .acting (.stuck a) depth) : Within lib thread layers task
  | ready (site : Site) (known : site.Known lib) (pc : Nat) (ints : List Int32) :
      Within lib site.thread site.layers (site.acting (.ready site.code) pc ints)
  | called (site : Site) (known : site.Known lib) (r : CallResult) (pc : Nat) (ints : List Int32) :
      Within lib site.thread site.layers (site.acting (.called site.code (.returned r)) pc ints)
  | emitting (site : Site) (known : site.Known lib) (v : Int32) (pc : Nat) (ints : List Int32) :
      Within lib site.thread site.layers (site.emitting v pc ints)
  | nested (site : Site) (known : site.Known lib) {pc : Nat} {ints : List Int32}
      {task : Task Activation} (inner : Within lib (site.inside pc ints) site.waiting task) :
      Within lib site.thread site.layers task

theorem within_call (lib : Library) (thread : Thread) (layers : List (Layer Activation))
    (m : MethodRef) (args : List Value) :
    Within lib thread layers (Task.call (interpreter lib) thread layers m args).1 := by
  obtain ⟨o, concludes, _⟩ | ⟨a, layers_eq, mode_eq, _⟩ | ⟨b, d, locals, _, known, start_eq, _⟩ :=
    call_cases lib thread layers m args rfl
  · exact .ended concludes
  · exact .stuck layers_eq mode_eq
  · rw [start_eq]
    exact .ready (Site.ofCall thread layers m locals d.code) ⟨d, known, rfl⟩ 0 []

theorem within_of_leads {site : Site} {e : Effect} (known : site.Known lib)
    (leads : site.Leads lib task e) : Within lib site.thread site.layers task := by
  cases e with
  | goes pc ints =>
      cases leads
      exact .ready site known pc ints
  | puts v pc ints =>
      cases leads
      exact .emitting site known v pc ints
  | calls m v pc ints =>
      cases leads
      exact .nested site known (within_call lib (site.inside pc ints) site.waiting m [Value.int v])
  | ends o => exact .ended leads

namespace Within

theorem suffix (within : Within lib thread layers task) : layers <:+ task.layers := by
  induction within with
  | ended concludes => rw [concludes.isOver.1]
  | stuck layers_eq mode_eq => rw [layers_eq]
  | ready site known pc ints | called site known r pc ints | emitting site known v pc ints =>
      exact List.suffix_refl _
  | nested site known inner ih => exact (List.suffix_cons _ _).trans ih

/-- A call that is over has an outcome. -/
theorem concludes (within : Within lib thread layers task) (finished : task.Over layers) :
    ∃ o, task.Concludes thread layers o := by
  cases within with
  | ended concludes => exact ⟨_, concludes⟩
  | stuck layers_eq mode_eq => exact absurd finished (stuck_moves lib thread layers_eq mode_eq).1
  | ready site known pc ints => exact absurd finished (site.not_over_acting _ pc ints)
  | called site known r pc ints => exact absurd finished (site.not_over_acting _ pc ints)
  | emitting site known v pc ints => exact absurd finished (site.not_over_emitting v pc ints)
  | nested site known inner => exact absurd finished (Task.not_over_of_suffix inner.suffix)

/-- A call that is not over can take its next step, and is still under way then, or over. -/
theorem moves (within : Within lib thread layers task) (going : ¬ task.Over layers) :
    ∃ out task', task.move (interpreter lib) = some (out, task') ∧
      Within lib thread layers task' := by
  induction within with
  | ended concludes => exact absurd concludes.isOver going
  | @stuck thread layers task a depth layers_eq mode_eq =>
      obtain ⟨_, task', moves, concludes⟩ := stuck_moves lib thread layers_eq mode_eq
      exact ⟨[], task', moves, .ended concludes⟩
  | ready site known pc ints =>
      obtain ⟨task', moves, leads⟩ := site.ready_moves lib pc ints
      exact ⟨[], task', moves, within_of_leads known leads⟩
  | called site known r pc ints =>
      obtain ⟨task', moves, leads⟩ := site.called_moves lib r pc ints
      exact ⟨[], task', moves, within_of_leads known leads⟩
  | emitting site known v pc ints =>
      exact ⟨[v], _, site.emitting_moves lib v pc ints, .ready site known pc ints⟩
  | @nested site known pc ints task inner ih =>
      by_cases ended : task.Over site.waiting
      · obtain ⟨o, concluded⟩ := inner.concludes ended
        obtain ⟨r, _, handed⟩ | ⟨a, task', _, passed, passes⟩ := site.concluded_moves lib concluded
        · exact ⟨[], _, handed, .called site known r pc ints⟩
        · exact ⟨[], task', passed, .ended passes⟩
      · obtain ⟨out, task', moves, inner'⟩ := ih ended
        exact ⟨out, task', moves, .nested site known inner'⟩

theorem completion? (within : Within lib thread layers task) : task.completion? = none := by
  induction within with
  | @ended thread layers task o concludes =>
      obtain ⟨_, ⟨c, mode_eq⟩ | ⟨a, mode_eq⟩⟩ := concludes.isOver
      · simp [Task.completion?, mode_eq]
      · simp [Task.completion?, mode_eq]
  | stuck layers_eq mode_eq => simp [Task.completion?, mode_eq]
  | ready site known pc ints | called site known r pc ints | emitting site known v pc ints => rfl
  | nested site known inner ih => exact ih

theorem steady (lib : Library) (thread : Thread) (layers : List (Layer Activation)) :
    World.Steady (interpreter lib) layers (Within lib thread layers) :=
  ⟨fun _ within going => within.moves going, fun _ within => within.completion?⟩

/-- An activation that executes an instruction has a frame with nothing but ints on its operand
stack, and a code that is that of some definition. -/
theorem ready_holds {code : List Op} {depth : Nat} (within : Within lib thread layers task)
    (mode_eq : task.mode = .acting (.ready code) depth) :
    (∃ (f : Frame) (ints : List Int32), task.thread.frames.current? = some f ∧
        f.stack.slots = ints.map Slot.int) ∧
      ∃ d ∈ lib, d.code = code := by
  induction within with
  | ended concludes => exact absurd mode_eq (concludes.isOver.not_acting _ _)
  | stuck layers_eq other => cases mode_eq.symm.trans other
  | ready site known pc ints =>
      cases mode_eq
      exact ⟨⟨site.callee.holding ints, ints, rfl, rfl⟩, known⟩
  | called site known r pc ints => cases mode_eq
  | emitting site known v pc ints => cases mode_eq
  | nested site known inner ih => exact ih mode_eq

end Within

/-- A context that goes on alone comes to the end of its call on a thread, for some layers: the call
has an outcome, and some ints have been put out by then. -/
def Completes (lib : Library) (c : Ctx) (thread : Thread) (layers : List (Layer Activation))
    (w : World Activation) (out : List Int32) (o : Outcome (Option Value)) : Prop :=
  ∃ v task, World.Solo (interpreter lib) c layers w v ∧ v.roster.taskAt c = some task ∧
    task.Concludes thread layers o ∧ v.output = w.output ++ out

/-- A context comes to the end of its call if the task does by itself. -/
theorem completes_iff_moves {c : Ctx} {w : World Activation}
    (task_eq : w.roster.taskAt c = some (Task.call (interpreter lib) thread layers m args).1) :
    Completes lib c thread layers w out o ↔
      ∃ n final, Task.Moves (interpreter lib) layers n
          (Task.call (interpreter lib) thread layers m args).1 out final ∧
        final.Concludes thread layers o := by
  have steady := Within.steady lib thread layers
  have within := within_call lib thread layers m args
  constructor
  · rintro ⟨v, task, solo, final_eq, concludes, output_eq⟩
    obtain ⟨n, out', final, moves, _, final_eq', output_eq'⟩ :=
      steady.moves_of_solo solo within task_eq
    cases final_eq.symm.trans final_eq'
    obtain rfl : out' = out := List.append_cancel_left (output_eq'.symm.trans output_eq)
    exact ⟨n, task, moves, concludes⟩
  · rintro ⟨n, final, moves, concludes⟩
    obtain ⟨v, solo, final_eq, output_eq⟩ := steady.solo moves within task_eq
    exact ⟨v, final, solo, final_eq, concludes, output_eq⟩

/-- A context whose call has an outcome for the evaluator comes to this end, and to no other. -/
theorem completes_iff_of_evaluates {c : Ctx} {w : World Activation} {out' : List Int32}
    {o' : Outcome (Option Value)}
    (task_eq : w.roster.taskAt c = some (Task.call (interpreter lib) thread layers m args).1)
    (evaluates : Evaluates lib thread.frames.maxDepth (thread.frames.maxDepth - thread.depth) m args
      out o) :
    Completes lib c thread layers w out' o' ↔ out' = out ∧ o' = o := by
  obtain ⟨n, final, moves, concludes⟩ := moves_of_evaluates rfl evaluates
  rw [completes_iff_moves task_eq]
  constructor
  · rintro ⟨k, final', moves', concludes'⟩
    obtain ⟨rfl, rfl⟩ := moves.unique concludes.isOver moves' concludes'.isOver
    exact ⟨rfl, concludes'.unique concludes⟩
  · rintro ⟨rfl, rfl⟩
    exact ⟨n, final, moves, concludes⟩

/-- A call of the int machine does what the evaluator says, and ends only if it says so.  Let a
context begin a call, and let it go on alone.  The evaluator, on a budget of as many calls as there
may be further frames, comes to an outcome with some output exactly if the context does; unless the
outcome is an abort, the context then has its thread back as it was before the call.  On the way,
every operand stack that an instruction finds holds nothing but ints, and no program counter goes
beyond the longest code. -/
theorem call_evaluates (lib : Library) (c : Ctx) (thread : Thread)
    (layers : List (Layer Activation)) (m : MethodRef) (args : List Value) (w : World Activation)
    (task_eq : w.roster.taskAt c = some (Task.call (interpreter lib) thread layers m args).1) :
    (∀ out o, Evaluates lib thread.frames.maxDepth (thread.frames.maxDepth - thread.depth) m args
          out o ↔
        ∃ v task, World.Solo (interpreter lib) c layers w v ∧ v.roster.taskAt c = some task ∧
          task.Concludes thread layers o ∧ v.output = w.output ++ out) ∧
      ∀ v, World.Solo (interpreter lib) c layers w v → ∃ task, v.roster.taskAt c = some task ∧
        (task.Over layers → ∃ o, task.Concludes thread layers o) ∧
        ∀ code depth, task.mode = .acting (.ready code) depth →
          (∃ (f : Frame) (ints : List Int32), task.thread.frames.current? = some f ∧
              f.stack.slots = ints.map Slot.int) ∧
            ∀ size, (∀ d ∈ lib, d.code.length ≤ size) →
              ∀ op, code[task.thread.pc]? = some op → task.thread.pc + 1 ≤ size := by
  have steady := Within.steady lib thread layers
  have within := within_call lib thread layers m args
  refine ⟨fun out o => ⟨fun evaluates => ?_, ?_⟩, fun v solo => ?_⟩
  · obtain ⟨n, final, moves, concludes⟩ := moves_of_evaluates rfl evaluates
    obtain ⟨v, solo, final_eq, output_eq⟩ := steady.solo moves within task_eq
    exact ⟨v, final, solo, final_eq, concludes, output_eq⟩
  · rintro ⟨v, task, solo, final_eq, concludes, output_eq⟩
    obtain ⟨n, out', final, moves, _, final_eq', output_eq'⟩ :=
      steady.moves_of_solo solo within task_eq
    cases final_eq.symm.trans final_eq'
    obtain ⟨o', evaluates, concludes'⟩ := evaluates_of_moves rfl moves concludes.isOver
    have same_out : out' = out := List.append_cancel_left (output_eq'.symm.trans output_eq)
    rw [← same_out, concludes.unique concludes']
    exact evaluates
  · obtain ⟨n, out, final, moves, under, final_eq, _⟩ := steady.moves_of_solo solo within task_eq
    refine ⟨final, final_eq, under.concludes, fun code depth mode_eq => ?_⟩
    obtain ⟨holds, d, known, rfl⟩ := under.ready_holds mode_eq
    refine ⟨holds, fun size longest op fetched => ?_⟩
    have inCode : final.thread.pc < d.code.length := (List.getElem?_eq_some_iff.mp fetched).1
    have short := longest d known
    omega

end Calls

/-- The method of the recursive factorial. -/
def factorialMethod : MethodRef :=
  ⟨⟨"fact", "(I)I", true, false, 1, declaredStack, [.int], .int⟩, none⟩

/-- A method that calls the factorial. -/
def driverMethod : MethodRef := ⟨⟨"driver", "()V", true, false, 0, declaredStack, [], .void⟩, none⟩

/-- The recursive factorial, and a method that puts out the factorial of two. -/
def factorialLibrary : Library :=
  [⟨factorialMethod, factorialCode⟩,
    ⟨driverMethod, [.const 2, .invoke "fact", .emit, .returnNothing]⟩]

theorem evaluates_driver : Evaluates factorialLibrary 3 3 driverMethod [] [2] (.ok none) := by
  have one : Evaluates factorialLibrary 3 1 factorialMethod [Value.int 1] []
      (.ok (some (Value.int 1))) := .goes (.goes (.goes (.goes (.goes (.ends _)))))
  have two : Evaluates factorialLibrary 3 2 factorialMethod [Value.int 2] []
      (.ok (some (Value.int 2))) := by
    refine .goes (.goes (.goes (.goes (.goes (.goes (.goes (.goes ?_)))))))
    exact .calls one (.goes (.goes (.ends _)))
  refine .goes (.goes ?_)
  exact .calls two (.goes (.puts (.ends _)))

/-- The host calls the driver on a thread whose program counter is not zero, with room for just the
three frames that are needed.  It puts out 2, and has its thread back as it was. -/
theorem call_evaluates_factorial :
    ∃ (thread : Thread) (w v : World Activation) (task : Task Activation),
      thread.pc = 40 ∧ thread.frames = .empty 3 ∧
        w.roster.taskAt .host =
          some (Task.call (interpreter factorialLibrary) thread [] driverMethod []).1 ∧
        World.Solo (interpreter factorialLibrary) .host [] w v ∧ v.roster.taskAt .host = some task ∧
        task = ⟨thread, [], .delivering (.returned (.ok none))⟩ ∧ v.output = w.output ++ [2] := by
  let I := interpreter factorialLibrary
  let built : World Activation :=
    ((World.ofRegistries 1 ConfigCell.fresh).build .main driverMethod [] ⟨0, 3, .intMachine⟩).2
  let thread : Thread := ⟨0, .main, 0, .intMachine, .empty 3, driverMethod, [], 40⟩
  have task_eq : ((built.setPc 0 40).hostCall I 0 driverMethod []).roster.taskAt .host =
      some (Task.call I thread [] driverMethod []).1 := rfl
  have sameOutcomes := (call_evaluates factorialLibrary .host thread [] driverMethod [] _ task_eq).1
  obtain ⟨v, task, solo, final_eq, concludes, output_eq⟩ :=
    (sameOutcomes [2] (.ok none)).mp evaluates_driver
  exact ⟨thread, _, v, task, rfl, rfl, task_eq, solo, final_eq, concludes, output_eq⟩

end IntMachine

end ThreadEngine
