import ThreadEngine.Body.Interpreter
set_option autoImplicit false

/-!
# The int machine

A small stack machine on ints.  Its instructions work on the innermost frame of the thread, with
the thread's program counter as instruction pointer; a call goes through the engine, on the same
thread.  Arithmetic is exact: a difference or product that is no 32-bit int aborts.

Programs are kept under the name of their method, and a later definition replaces an earlier one.
-/

namespace ThreadEngine.IntMachine

/-- An instruction. -/
inductive Op where
  /-- push a constant -/
  | const (value : Int32)
  /-- push the int in a local slot -/
  | load (index : Nat)
  /-- pop b, pop a, push a - b -/
  | sub
  /-- pop b, pop a, push a * b -/
  | mul
  /-- pop b, pop a, and jump if a > b -/
  | ifGreater (target : Nat)
  /-- pop an int, call a method with it, push the int result -/
  | invoke (method : String)
  /-- pop an int and put it out -/
  | emit
  /-- pop an int and return it -/
  | returnInt
  /-- return nothing -/
  | returnNothing
  deriving DecidableEq, Repr, Inhabited

/-- A method with its program. -/
structure Definition where
  method : MethodRef
  code : List Op
  deriving DecidableEq, Repr, Inhabited

/-- Definitions, the latest first. -/
abbrev Library := List Definition

namespace Library

/-- The definition of a name: the latest one. -/
def find? (lib : Library) (name : String) : Option Definition :=
  List.find? (fun d => d.method.name == name) lib

/-- Adds a definition, which takes the place of an earlier one of the same name. -/
def define (lib : Library) (d : Definition) : Library := d :: lib

end Library

/-- The recursive factorial. -/
def factorialCode : List Op :=
  [.load 0, .const 1, .ifGreater 5, .const 1, .returnInt, .load 0, .load 0, .const 1, .sub,
    .invoke "fact", .mul, .returnInt]

/-! ## Arithmetic -/

/-- Whether an integer is a 32-bit int. -/
def InRange (n : Int) : Prop := Int32.minValue.toInt ≤ n ∧ n ≤ Int32.maxValue.toInt

instance (n : Int) : Decidable (InRange n) := inferInstanceAs (Decidable (_ ∧ _))

/-- The exact int, if it is in range. -/
def checked? (n : Int) : Option Int32 := if InRange n then some (Int32.ofInt n) else none

/-! ## The operand stack as a stack of ints -/

/-- Pops an int.  A slot of another width is popped all the same, and reported as missing. -/
def popInt (f : Frame) : Except Error Int32 × Frame :=
  match f.stack.pop with
  | .error e => (.error e, f)
  | .ok (.int v, stack) => (.ok v, { f with stack := stack })
  | .ok (_, stack) => (.error .operandStackUnderflow, { f with stack := stack })

/-- Pushes an int. -/
def pushInt (f : Frame) (v : Int32) : Except Error Frame :=
  (f.stack.push (.int v)).map fun stack => { f with stack := stack }

/-- Pops b and then a, in this order, and hands back (a, b). -/
def popTwo (f : Frame) : Except Error (Int32 × Int32) × Frame :=
  match popInt f with
  | (.error e, f') => (.error e, f')
  | (.ok b, f') =>
    match popInt f' with
    | (.error e, f'') => (.error e, f'')
    | (.ok a, f'') => (.ok (a, b), f'')

/-! ## Activations -/

/-- The private state of an activation. -/
inductive Activation where
  /-- there is nothing to execute -/
  | stuck (a : Abort)
  /-- about to fetch an instruction -/
  | ready (code : List Op)
  /-- waits for a call to end -/
  | calling (code : List Op)
  /-- a call has ended -/
  | called (code : List Op) (c : Completion)
  /-- waits until its int has been put out -/
  | emitting (code : List Op)

/-- The activation of the method bound to the innermost frame. -/
def enter (lib : Library) (t : Thread) : Activation :=
  match t.frames.current?.bind Frame.method with
  | none => .stuck .unboundFrame
  | some m =>
    match lib.find? m.name with
    | none => .stuck .unknownMethod
    | some d => .ready d.code

/-- A turn that ends the activation with an error. -/
def failing (pc : Nat) (f : Frame) (e : Error) : Turn Activation :=
  ⟨pc, some f, [], .finish (.error e)⟩

/-- A turn that aborts. -/
def aborting (pc : Nat) (f : Frame) (a : Abort) : Turn Activation :=
  ⟨pc, some f, [], .abort a⟩

/-- A turn that pushes an int and goes on. -/
def pushing (code : List Op) (pc : Nat) (f : Frame) (v : Int32) : Turn Activation :=
  match pushInt f v with
  | .ok f' => ⟨pc, some f', [], .proceed (.ready code)⟩
  | .error e => failing pc f e

/-- A turn that pushes the result of an operation on two ints, or aborts if there is none. -/
def combining (code : List Op) (pc : Nat) (f : Frame) (op : Int → Int → Int) (overflow : Abort) :
    Turn Activation :=
  match popTwo f with
  | (.error e, f') => failing pc f' e
  | (.ok (a, b), f') =>
    match checked? (op a.toInt b.toInt) with
    | some v => pushing code pc f' v
    | none => aborting pc f' overflow

/-- Executes an instruction on the innermost frame; `pc` is the one after it. -/
def exec (lib : Library) (code : List Op) (pc : Nat) (f : Frame) : Op → Turn Activation
  | .const v => pushing code pc f v
  | .load i =>
    match f.locals.getInt? i with
    | some v => pushing code pc f v
    | none => aborting pc f .noIntLocal
  | .sub => combining code pc f (· - ·) .subtractOverflow
  | .mul => combining code pc f (· * ·) .multiplyOverflow
  | .ifGreater target =>
    match popTwo f with
    | (.error e, f') => failing pc f' e
    | (.ok (a, b), f') => ⟨if a > b then target else pc, some f', [], .proceed (.ready code)⟩
  | .invoke name =>
    match lib.find? name with
    | none => aborting pc f .unknownMethod
    | some d =>
      match popInt f with
      | (.error e, f') => failing pc f' e
      | (.ok v, f') => ⟨pc, some f', [], .call (.calling code) d.method [Value.int v] false⟩
  | .emit =>
    match popInt f with
    | (.error e, f') => failing pc f' e
    | (.ok v, f') => ⟨pc, some f', [], .ask (.emitting code) (.emit v)⟩
  | .returnInt =>
    match popInt f with
    | (.error e, f') => failing pc f' e
    | (.ok v, f') => ⟨pc, some f', [], .finish (.ok (some (Value.int v)))⟩
  | .returnNothing => ⟨pc, some f, [], .finish (.ok none)⟩

/-- Goes on after a call: an int result is pushed, an error is passed on. -/
def afterCall (code : List Op) (pc : Nat) (f : Frame) : Completion → Turn Activation
  | .returned (.error e) => failing pc f e
  | .returned (.ok (some (.primitive p))) =>
    match p.asInt? with
    | some v => pushing code pc f v
    | none => aborting pc f .noIntResult
  | .returned (.ok r) => aborting pc f (.unexpectedResult r)
  | .aborted a => aborting pc f a
  | .ended => aborting pc f (.unexpectedResult none)

/-- The next turn of an activation. -/
def act (lib : Library) (s : Activation) (t : Thread) : Turn Activation :=
  match s, t.frames.current? with
  | .stuck a, _ => ⟨t.pc, none, [], .abort a⟩
  | _, none => ⟨t.pc, none, [], .abort .noActiveFrame⟩
  | .ready code, some f =>
    match code[t.pc]? with
    | none => aborting t.pc f (.codeIndex code.length t.pc)
    | some op => exec lib code (t.pc + 1) f op
  | .called code c, some f => afterCall code t.pc f c
  | .calling code, some f | .emitting code, some f =>
    ⟨t.pc, some f, [], .proceed (.ready code)⟩

/-- The int machine over a library. -/
def interpreter (lib : Library) : Interpreter Activation where
  enter := enter lib
  act := act lib
  resume
    | .calling code, c => .called code c
    | s, _ => s
  receive
    | .emitting code, _ => .ready code
    | s, _ => s

end ThreadEngine.IntMachine
