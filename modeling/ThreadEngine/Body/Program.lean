import ThreadEngine.Body.Script
import ThreadEngine.Body.IntMachine
set_option autoImplicit false

/-!
# Programs

The methods that are loaded, with their scripts and int-machine programs, and the one interpreter
that runs each thread in the dialect it was built with.
-/

namespace ThreadEngine

/-- The private state of an activation in either dialect. -/
inductive Activation where
  | script (s : Script.Activation)
  | intMachine (s : IntMachine.Activation)

/-- The same action with its state in another type. -/
def Action.map {σ τ : Type} (f : σ → τ) : Action σ → Action τ
  | .proceed s => .proceed (f s)
  | .call s m args catches => .call (f s) m args catches
  | .start s catches => .start (f s) catches
  | .ask s r => .ask (f s) r
  | .finish r => .finish r
  | .abort a => .abort a

/-- The same turn with its state in another type. -/
def Turn.map {σ τ : Type} (f : σ → τ) (t : Turn σ) : Turn τ :=
  ⟨t.pc, t.frame, t.notes, t.action.map f⟩

/-- What is loaded. -/
structure Program where
  scripts : Script.Library
  definitions : IntMachine.Library
  deriving DecidableEq, Repr, Inhabited

/-- The loaded methods, by place. -/
def Program.methods (p : Program) : List MethodRef := p.scripts.methods

/-- Runs each thread in its own dialect. -/
def Program.interpreter (p : Program) : Interpreter Activation :=
  let script := Script.interpreter p.scripts
  let machine := IntMachine.interpreter p.definitions
  { enter := fun t =>
      match t.dialect with
      | .script => .script (script.enter t)
      | .intMachine => .intMachine (machine.enter t)
    act := fun s t =>
      match s with
      | .script s => (script.act s t).map .script
      | .intMachine s => (machine.act s t).map .intMachine
    resume := fun s c =>
      match s with
      | .script s => .script (script.resume s c)
      | .intMachine s => .intMachine (machine.resume s c)
    receive := fun s a =>
      match s with
      | .script s => .script (script.receive s a)
      | .intMachine s => .intMachine (machine.receive s a) }

/-! ## Loading -/

/-- A method to be loaded, with its script and, if it has one, its int-machine program. -/
structure Declaration where
  spec : MethodSpec
  script : List Script.Instr
  machine : Option (List IntMachine.Op)
  /-- whether the int machine declares the method, and not only its program -/
  byMachine : Bool
  deriving DecidableEq, Repr, Inhabited

namespace IntMachine

/-- Bound of the operand stack of a method that the int machine declares. -/
def declaredStack : Nat := 8

/-- A method declared by the int machine is static and has a fixed stack bound. -/
def declare (spec : MethodSpec) : Outcome Method :=
  match { spec with isStatic := true, isNative := false, maxStack := declaredStack }.build with
  | .ok m => .ok m
  | .error (.invalidDescriptor descriptor reason) =>
    .abort (.rejectedDefinition descriptor reason)
  | .error e => .error e

end IntMachine

namespace Program

/-- Nothing is loaded. -/
def empty : Program := ⟨⟨[], []⟩, []⟩

/-- The method of a declaration. -/
def methodOf (d : Declaration) : Outcome Method :=
  if d.machine.isSome && d.byMachine then IntMachine.declare d.spec
  else .ofExcept d.spec.build

/-- Loads a method at the next place. -/
def add (p : Program) (d : Declaration) (m : Method) : Program :=
  let ref : MethodRef := ⟨m, some p.methods.length⟩
  { scripts := ⟨p.scripts.methods ++ [ref], p.scripts.codes ++ [d.script]⟩
    definitions :=
      match d.machine with
      | none => p.definitions
      | some code => p.definitions.define ⟨ref, code⟩ }

/-- Loads declarations in turn; the first that cannot be loaded decides. -/
def load (p : Program) : List Declaration → Outcome Program
  | [] => .ok p
  | d :: ds =>
    match methodOf d with
    | .ok m => load (p.add d m) ds
    | .error e => .error e
    | .abort a => .abort a

end Program

end ThreadEngine
