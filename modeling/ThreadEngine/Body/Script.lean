import ThreadEngine.Body.Interpreter
set_option autoImplicit false

/-!
# Scripts

Bodies that exercise the engine.  A script runs the code of the method bound to the innermost
frame, with the thread's program counter as instruction pointer, until the counter leaves the code.
Each instruction is one use of the engine, and most write a remark about what came of it.
-/

namespace ThreadEngine.Script

/-- An argument of an instruction. -/
inductive Operand where
  | value (v : Value)
  /-- the content of a local slot; an empty or missing one counts as null -/
  | slot (index : Nat)
  /-- the result of the latest call that returned; none counts as null -/
  | last
  deriving DecidableEq, Repr, Inhabited

/-- What is done about a call that does not return a value. -/
inductive Mode where
  /-- errors and aborts are passed on -/
  | pass
  /-- errors are caught -/
  | catchErrors
  /-- errors and aborts are caught -/
  | catchAll
  deriving DecidableEq, Repr, Inhabited

/-- Whose state is to be changed. -/
inductive Target where
  | self
  | thread (t : ThreadId)
  deriving DecidableEq, Repr, Inhabited

/-- An instruction. -/
inductive Instr where
  | log
  | setPc (pc : Nat)
  /-- jump if the frame stack is at least this deep -/
  | jumpIfDeep (depth target : Nat)
  /-- take a step on the innermost frame -/
  | attempt (op : FrameOp)
  /-- the same, but a failing push, pop or int write ends the activation with its error -/
  | perform (op : FrameOp)
  /-- call a loaded method, by its place -/
  | call (method : Nat) (args : List Operand) (mode : Mode)
  | start (catches : Bool)
  | replace (slot : ThreadId)
  | park
  | spawn (slot : ThreadId) (object : Value)
  | unpark (thread : ThreadId)
  | transition (target : Target) (next : State)
  | tally
  | give (result : Option Operand)
  | fail (e : Error)
  | raise (text : String)
  deriving DecidableEq, Repr, Inhabited

/-- A question that the script has asked, and what it needs to remember until it can write its
remark. -/
inductive Question where
  | replace
  | park
  | spawn
  | unpark
  | transition
  /-- the own state, after a change -/
  | stateAfterTransition (result : Transition)
  /-- the own state, after the body was started -/
  | stateAfterStart (c : Completion)
  | tally

/-- Where an activation is. -/
inductive Phase where
  | ready
  | calling (mode : Mode)
  | called (mode : Mode) (c : Completion)
  | starting
  | started (c : Completion)
  | asked (q : Question)
  | answered (q : Question) (a : Answer)

/-- The private state of an activation. -/
structure Activation where
  code : List Instr
  /-- the result of the latest call that returned -/
  last : Option Value
  phase : Phase

/-- The loaded methods and their codes, by place. -/
structure Library where
  methods : List MethodRef
  codes : List (List Instr)
  deriving DecidableEq, Repr, Inhabited

/-- The activation of the method bound to the innermost frame. -/
def enter (lib : Library) (t : Thread) : Activation :=
  let place := t.frames.current?.bind Frame.method |>.bind MethodRef.place
  { code := (place.bind (lib.codes[·]?)).getD []
    last := none
    phase := .ready }

/-- The value of an operand. -/
def Operand.eval (t : Thread) (last : Option Value) : Operand → Value
  | .value v => v
  | .slot i =>
    ((t.frames.current?.bind (·.locals.get? i)).bind Slot.value?).getD .null
  | .last => last.getD .null

/-! ## Turns -/

/-- A turn that only moves the program counter, writes remarks and goes on. -/
def remarking (pc : Nat) (s : Activation) (remarks : List Remark) : Turn Activation :=
  ⟨pc, none, remarks.map .remark, .proceed { s with phase := .ready }⟩

/-- A turn that asks a question. -/
def asking (pc : Nat) (s : Activation) (q : Question) (r : Request) : Turn Activation :=
  ⟨pc, none, [], .ask { s with phase := .asked q } r⟩

/-- Whether an error of this step ends an activation that performs it. -/
def isStrict : FrameOp → Bool
  | .push _ | .pop | .setInt .. => true
  | _ => false

/-- A step on the innermost frame, with its remark.  An abort is caught on the spot. -/
def stepping (pc : Nat) (t : Thread) (s : Activation) (strict : Bool) (op : FrameOp) :
    Turn Activation :=
  let (reply, frames) := op.runTop t.frames
  match reply with
  | .error e =>
    if strict && isStrict op then ⟨pc, none, [], .finish (.error e)⟩
    else remarking pc s [.step op.name reply]
  | .abort a =>
    ⟨pc, none, a.notes ++ [.remark (.step op.name reply)], .proceed { s with phase := .ready }⟩
  | _ => { remarking pc s [.step op.name reply] with frame := frames.current? }

/-- Executes an instruction; `pc` is the one after it. -/
def exec (lib : Library) (pc : Nat) (t : Thread) (s : Activation) : Instr → Turn Activation
  | .log => remarking pc s [.frame t.frames.current? pc t.depth]
  | .setPc n => remarking n s []
  | .jumpIfDeep depth target => remarking (if depth ≤ t.depth then target else pc) s []
  | .attempt op => stepping pc t s false op
  | .perform op => stepping pc t s true op
  | .call place args mode =>
    match lib.methods[place]? with
    | none => ⟨pc, none, [], .abort .unknownMethod⟩
    | some m =>
      ⟨pc, none, [], .call { s with phase := .calling mode } m (args.map (·.eval t s.last))
        (mode == .catchAll)⟩
  | .start catches => ⟨pc, none, [], .start { s with phase := .starting } catches⟩
  | .replace slot => asking pc s .replace (.replace slot)
  | .park => asking pc s .park .park
  | .spawn slot object => asking pc s .spawn (.spawn slot object)
  | .unpark thread => asking pc s .unpark (.unpark thread)
  | .transition .self next => asking pc s .transition (.transition t.registry t.id next)
  | .transition (.thread u) next => asking pc s .transition (.transition t.registry u next)
  | .tally => asking pc s .tally (.tally t.registry)
  | .give result => ⟨pc, none, [], .finish (.ok (result.map (·.eval t s.last)))⟩
  | .fail e => ⟨pc, none, [], .finish (.error e)⟩
  | .raise text => ⟨pc, none, [], .abort (.raised text)⟩

/-- Goes on after a call. -/
def afterCall (t : Thread) (s : Activation) (mode : Mode) : Completion → Turn Activation
  | .returned (.ok v) => remarking t.pc { s with last := v } [.returned v t.pc t.depth]
  | .returned (.error e) =>
    if mode = .pass then ⟨t.pc, none, [], .finish (.error e)⟩
    else remarking t.pc s [.caught e t.pc t.depth]
  | .aborted a => remarking t.pc s [.caughtAbort a t.pc t.depth]
  | .ended => remarking t.pc s []

/-- The state in an answer. -/
def stateIn : Answer → Option State
  | .state s => some s
  | _ => none

/-- Goes on after an answer. -/
def afterAnswer (t : Thread) (s : Activation) : Question → Answer → Turn Activation
  | .replace, .replaced u => remarking t.pc s [.replaced u.isSome]
  | .park, .parkIgnored => remarking t.pc s [.parkIgnored]
  | .spawn, .launch l => remarking t.pc s [.spawned l]
  | .unpark, .unparked u => remarking t.pc s [.unparked u]
  | .transition, .transitioned result =>
    asking t.pc s (.stateAfterTransition result) (.stateOf t.id)
  | .stateAfterTransition result, a => remarking t.pc s [.transitioned result (stateIn a)]
  | .stateAfterStart (.aborted abort), a => remarking t.pc s [.startAborted abort (stateIn a)]
  | .stateAfterStart _, a => remarking t.pc s [.started (stateIn a)]
  | .tally, .tally tally => remarking t.pc s [.tally (some tally)]
  | .tally, _ => remarking t.pc s [.tally none]
  | _, _ => remarking t.pc s []

/-- The next turn of an activation. -/
def act (lib : Library) (s : Activation) (t : Thread) : Turn Activation :=
  match s.phase with
  | .ready =>
    match s.code[t.pc]? with
    | none => ⟨t.pc, none, [], .finish (.ok none)⟩
    | some instr => exec lib (t.pc + 1) t s instr
  | .called mode c => afterCall t s mode c
  | .started c => asking t.pc s (.stateAfterStart c) (.stateOf t.id)
  | .answered q a => afterAnswer t s q a
  | .calling _ | .starting | .asked _ => remarking t.pc s []

/-- The script interpreter over a library. -/
def interpreter (lib : Library) : Interpreter Activation where
  enter := enter lib
  act := act lib
  resume s c :=
    match s.phase with
    | .calling mode => { s with phase := .called mode c }
    | .starting => { s with phase := .started c }
    | _ => s
  receive s a :=
    match s.phase with
    | .asked q => { s with phase := .answered q a }
    | _ => s

end ThreadEngine.Script
