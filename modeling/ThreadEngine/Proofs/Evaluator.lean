import ThreadEngine.Body.IntMachine

set_option autoImplicit false

/-!
# An evaluator for the int machine

What a program of the int machine means, without threads and frame stacks.  Every activation has a
program counter, a list of ints and a table of locals to itself.  A call is evaluated recursively,
on a budget of calls that is one smaller, and the caller goes on with the outcome.

The evaluator is a relation, because programs need not end.  `Yields` follows one activation, for
any meaning of the calls that it makes; `Evaluates` ties the knot by recursion on the budget.
-/

namespace ThreadEngine.IntMachine

/-- What does not change while an activation runs. -/
structure Scope where
  code : List Op
  locals : Locals
  /-- the most ints there may be -/
  bound : Nat

/-- What an activation does next. -/
inductive Effect where
  /-- goes on at another instruction, with other ints -/
  | goes (pc : Nat) (ints : List Int32)
  /-- puts out an int and goes on -/
  | puts (v : Int32) (pc : Nat) (ints : List Int32)
  /-- calls a method with an int, and goes on when it has ended -/
  | calls (m : MethodRef) (v : Int32) (pc : Nat) (ints : List Int32)
  /-- is over -/
  | ends (o : Outcome (Option Value))

namespace Scope

/-- There are fewer ints than an instruction takes. -/
def underflow : Effect := .ends (.error .operandStackUnderflow)

/-- Adds an int, if there is room for it. -/
def put (sc : Scope) (pc : Nat) (ints : List Int32) (v : Int32) : Effect :=
  if ints.length < sc.bound then .goes pc (v :: ints)
  else .ends (.error (.operandStackOverflow sc.bound))

/-- Replaces two ints by the result of an operation on them, if it is an int. -/
def combine (sc : Scope) (pc : Nat) (op : Int → Int → Int) (overflow : Abort) :
    List Int32 → Effect
  | b :: a :: ints =>
    match checked? (op a.toInt b.toInt) with
    | some v => sc.put pc ints v
    | none => .ends (.abort overflow)
  | _ => underflow

/-- Executes an instruction; `pc` is the one after it. -/
def execute (lib : Library) (sc : Scope) (pc : Nat) (ints : List Int32) : Op → Effect
  | .const v => sc.put pc ints v
  | .load i =>
    match sc.locals.getInt? i with
    | some v => sc.put pc ints v
    | none => .ends (.abort .noIntLocal)
  | .sub => sc.combine pc (· - ·) .subtractOverflow ints
  | .mul => sc.combine pc (· * ·) .multiplyOverflow ints
  | .ifGreater target =>
    match ints with
    | b :: a :: rest => .goes (if a > b then target else pc) rest
    | _ => underflow
  | .invoke name =>
    match lib.find? name, ints with
    | none, _ => .ends (.abort .unknownMethod)
    | some d, v :: rest => .calls d.method v pc rest
    | some _, [] => underflow
  | .emit =>
    match ints with
    | v :: rest => .puts v pc rest
    | [] => underflow
  | .returnInt =>
    match ints with
    | v :: _ => .ends (.ok (some (Value.int v)))
    | [] => underflow
  | .returnNothing => .ends (.ok none)

/-- Executes the instruction that the program counter says. -/
def effect (lib : Library) (sc : Scope) (pc : Nat) (ints : List Int32) : Effect :=
  match sc.code[pc]? with
  | none => .ends (.abort (.codeIndex sc.code.length pc))
  | some op => sc.execute lib (pc + 1) ints op

/-- Goes on after a call: an int result is added, and anything else is the end of the caller too. -/
def resume (sc : Scope) (pc : Nat) (ints : List Int32) : Outcome (Option Value) → Effect
  | .ok (some (.primitive p)) =>
    match p.asInt? with
    | some v => sc.put pc ints v
    | none => .ends (.abort .noIntResult)
  | .ok r => .ends (.abort (.unexpectedResult r))
  | .error e => .ends (.error e)
  | .abort a => .ends (.abort a)

end Scope

/-- An activation puts out some ints and ends with an outcome.  `callee` says what the calls that it
makes put out and end with. -/
inductive Yields (lib : Library)
    (callee : MethodRef → List Value → List Int32 → Outcome (Option Value) → Prop) (sc : Scope) :
    Effect → List Int32 → Outcome (Option Value) → Prop
  | ends (o : Outcome (Option Value)) : Yields lib callee sc (.ends o) [] o
  | goes {pc : Nat} {ints out : List Int32} {o : Outcome (Option Value)}
      (rest : Yields lib callee sc (sc.effect lib pc ints) out o) :
      Yields lib callee sc (.goes pc ints) out o
  | puts {v : Int32} {pc : Nat} {ints out : List Int32} {o : Outcome (Option Value)}
      (rest : Yields lib callee sc (sc.effect lib pc ints) out o) :
      Yields lib callee sc (.puts v pc ints) (v :: out) o
  | calls {m : MethodRef} {v : Int32} {pc : Nat} {ints out out' : List Int32}
      {r o : Outcome (Option Value)} (call : callee m [Value.int v] out r)
      (rest : Yields lib callee sc (sc.resume pc ints r) out' o) :
      Yields lib callee sc (.calls m v pc ints) (out ++ out') o

/-- The locals that a method begins with: its arguments must be admitted and copied, and there must
be memory for its slots. -/
def prepare (m : MethodRef) (args : List Value) : Outcome Locals :=
  if m.method.maxLocals < args.length then
    .error (.tooManyArguments m.name m.method.maxLocals args.length)
  else
    match Frame.allocate m.method.maxLocals m.method.maxStack with
    | .error a => .abort a
    | .ok blank =>
      let copied := m.method.marshal blank.locals args
      match copied.outcome with
      | .ok () => .ok copied.locals
      | .error e => .error e
      | .abort a => .abort a

/-- A method, called with arguments on a budget of calls, puts out some ints and ends with an
outcome.  Without a budget left it fails, and says that `limit` calls were too many. -/
def Evaluates (lib : Library) (limit : Nat) :
    Nat → MethodRef → List Value → List Int32 → Outcome (Option Value) → Prop
  | budget, m, args, out, o =>
    match prepare m args, budget with
    | .error e, _ => out = [] ∧ o = .error e
    | .abort a, _ => out = [] ∧ o = .abort a
    | .ok _, 0 => out = [] ∧ o = .error (.stackOverflow limit)
    | .ok locals, budget + 1 =>
      match lib.find? m.name with
      | none => out = [] ∧ o = .abort .unknownMethod
      | some d =>
        Yields lib (Evaluates lib limit budget) ⟨d.code, locals, m.method.maxStack⟩ (.goes 0 [])
          out o

end ThreadEngine.IntMachine
