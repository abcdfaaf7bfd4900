import ThreadEngine.Body.IntMachine

set_option autoImplicit false

/-!
# The int machine on other numbers

The int machine once more, without threads and frame stacks, and for any numbers: those of the
machine itself (`Numbers.words`), whose operations have no result when the exact one is out of
range, and the integers (`Numbers.integers`), whose operations always have one.  All else is the
same definition.

As long as every exact result is in range, the two machines take the same steps (`step_exact`).  At
the first one that is not, the machine on words aborts, and the abort ends all its activations
(`step_of_overflow`, `Runs.of_aborted`).  So each run on words is an exact run in range, or one that
has come to such a place and is on its way out (`exact_or_overflow`).
-/

namespace ThreadEngine

/-- The same outcome with another result. -/
def Outcome.map {α β : Type} (f : α → β) : Outcome α → Outcome β
  | .ok a => .ok (f a)
  | .error e => .error e
  | .abort a => .abort a

/-- Why an int is not copied into a slot. -/
def Method.intRefusal? (m : Method) (slot : Nat) : Option UnreachableKind :=
  match m.argType? slot with
  | none => some (.declared none)
  | some declared =>
    match declared.width? with
    | none => some (.declared (some declared))
    | some .int => none
    | some _ => some (.mismatch declared .int)

namespace IntMachine

/-! ## The machine -/

/-- Numbers to compute with.  An operation may have no result. -/
structure Numbers (α : Type) where
  const : Int32 → α
  sub : α → α → Option α
  mul : α → α → Option α
  greater : α → α → Bool

/-- The ints of the int machine. -/
def Numbers.words : Numbers Int32 where
  const v := v
  sub a b := checked? (a.toInt - b.toInt)
  mul a b := checked? (a.toInt * b.toInt)
  greater a b := a > b

/-- The integers. -/
def Numbers.integers : Numbers Int where
  const := Int32.toInt
  sub a b := some (a - b)
  mul a b := some (a * b)
  greater a b := a > b

/-- An activation of a method. -/
structure Invocation (α : Type) where
  method : MethodRef
  args : List α
  code : List Op
  pc : Nat
  /-- the operand stack, the top first -/
  ints : List α
  deriving DecidableEq, Repr

/-- What goes on right now. -/
inductive Focus (α : Type) where
  /-- an activation is about to execute an instruction -/
  | executing (i : Invocation α)
  /-- an activation is about to put out a number, and goes on -/
  | emitting (v : α) (i : Invocation α)
  /-- a call has ended, and the activation that made it goes on -/
  | resuming (r : Except Error (Option α)) (i : Invocation α)
  /-- a method was entered that has no code -/
  | stuck
  /-- an activation has ended -/
  | ended (o : Outcome (Option α))

/-- What goes on, and the activations that wait for it, the innermost first. -/
structure Snapshot (α : Type) where
  focus : Focus α
  callers : List (Invocation α)

/-- What a machine runs on, whatever its numbers: a library, and room for some activations. -/
structure Setting where
  lib : Library
  room : Nat
  /-- the bound that is reported when there is no room -/
  limit : Nat

/-- The checks of a call with some ints. -/
def precheck (m : MethodRef) (count : Nat) : Outcome Unit :=
  if m.method.maxLocals < count then
    .error (.tooManyArguments m.name m.method.maxLocals count)
  else
    match Frame.allocate m.method.maxLocals m.method.maxStack with
    | .error a => .abort a
    | .ok _ =>
      match (List.range count).findSome? fun slot =>
        (m.method.intRefusal? slot).map (Abort.unreachableKind · slot) with
      | some a => .abort a
      | none => .ok ()

section Invocation

variable {α : Type}

/-- There are fewer numbers than an instruction takes. -/
def Focus.underflow : Focus α := .ended (.error .operandStackUnderflow)

namespace Invocation

/-- Adds a number, if there is room for it. -/
def push (i : Invocation α) (v : α) : Focus α :=
  if i.ints.length < i.method.method.maxStack then .executing { i with ints := v :: i.ints }
  else .ended (.error (.operandStackOverflow i.method.method.maxStack))

/-- Replaces two numbers by the result of an operation on them, if there is one. -/
def combine (i : Invocation α) (op : α → α → Option α) (overflow : Abort) : Focus α :=
  match i.ints with
  | b :: a :: ints =>
    match op a b with
    | some v => { i with ints := ints }.push v
    | none => .ended (.abort overflow)
  | _ => .underflow

/-- Goes on after a call. -/
def resume (i : Invocation α) : Except Error (Option α) → Focus α
  | .ok (some v) => i.push v
  | .ok none => .ended (.abort (.unexpectedResult none))
  | .error e => .ended (.error e)

end Invocation

namespace Setting

variable (S : Setting) (N : Numbers α)

/-- Begins a call. -/
def enter (m : MethodRef) (args : List α) (callers : List (Invocation α)) : Snapshot α :=
  match precheck m args.length with
  | .error e => ⟨.ended (.error e), callers⟩
  | .abort a => ⟨.ended (.abort a), callers⟩
  | .ok () =>
    if callers.length < S.room then
      match S.lib.find? m.name with
      | none => ⟨.stuck, callers⟩
      | some d => ⟨.executing ⟨m, args, d.code, 0, []⟩, callers⟩
    else ⟨.ended (.error (.stackOverflow S.limit)), callers⟩

/-- Executes an instruction; the program counter is at the one after it. -/
def execute (i : Invocation α) (callers : List (Invocation α)) : Op → Snapshot α
  | .const v => ⟨i.push (N.const v), callers⟩
  | .load index =>
    match i.args[index]? with
    | some v => ⟨i.push v, callers⟩
    | none => ⟨.ended (.abort .noIntLocal), callers⟩
  | .sub => ⟨i.combine N.sub .subtractOverflow, callers⟩
  | .mul => ⟨i.combine N.mul .multiplyOverflow, callers⟩
  | .ifGreater target =>
    match i.ints with
    | b :: a :: ints =>
      ⟨.executing { i with pc := if N.greater a b then target else i.pc, ints := ints },
        callers⟩
    | _ => ⟨.underflow, callers⟩
  | .invoke name =>
    match S.lib.find? name, i.ints with
    | none, _ => ⟨.ended (.abort .unknownMethod), callers⟩
    | some d, v :: ints => S.enter d.method [v] ({ i with ints := ints } :: callers)
    | some _, [] => ⟨.underflow, callers⟩
  | .emit =>
    match i.ints with
    | v :: ints => ⟨.emitting v { i with ints := ints }, callers⟩
    | [] => ⟨.underflow, callers⟩
  | .returnInt =>
    match i.ints with
    | v :: _ => ⟨.ended (.ok (some v)), callers⟩
    | [] => ⟨.underflow, callers⟩
  | .returnNothing => ⟨.ended (.ok none), callers⟩

/-- The next step, with what it puts out; `none` when the first activation has ended. -/
def step : Snapshot α → Option (List α × Snapshot α)
  | ⟨.executing i, callers⟩ =>
    match i.code[i.pc]? with
    | none => some ([], ⟨.ended (.abort (.codeIndex i.code.length i.pc)), callers⟩)
    | some op => some ([], S.execute N { i with pc := i.pc + 1 } callers op)
  | ⟨.emitting v i, callers⟩ => some ([v], ⟨.executing i, callers⟩)
  | ⟨.resuming r i, callers⟩ => some ([], ⟨i.resume r, callers⟩)
  | ⟨.stuck, callers⟩ => some ([], ⟨.ended (.abort .unknownMethod), callers⟩)
  | ⟨.ended _, []⟩ => none
  | ⟨.ended (.ok r), i :: callers⟩ => some ([], ⟨.resuming (.ok r) i, callers⟩)
  | ⟨.ended (.error e), i :: callers⟩ => some ([], ⟨.resuming (.error e) i, callers⟩)
  | ⟨.ended (.abort a), _ :: callers⟩ => some ([], ⟨.ended (.abort a), callers⟩)

/-- Some steps, each from a snapshot with a property, and what they put out. -/
inductive Runs (P : Snapshot α → Prop) : Nat → Snapshot α → List α → Snapshot α → Prop
  | refl (c : Snapshot α) : Runs P 0 c [] c
  | head {n : Nat} {c c' final : Snapshot α} {out out' : List α} (holds : P c)
      (steps : S.step N c = some (out, c')) (rest : Runs P n c' out' final) :
      Runs P (n + 1) c (out ++ out') final

end Setting

end Invocation

/-! ## Snapshots on other numbers -/

section Map

variable {α β : Type} (f : α → β)

/-- The same activation with other numbers. -/
def Invocation.map (i : Invocation α) : Invocation β :=
  ⟨i.method, i.args.map f, i.code, i.pc, i.ints.map f⟩

def Focus.map : Focus α → Focus β
  | .executing i => .executing (i.map f)
  | .emitting v i => .emitting (f v) (i.map f)
  | .resuming r i => .resuming (r.map (Option.map f)) (i.map f)
  | .stuck => .stuck
  | .ended o => .ended (o.map (Option.map f))

def Snapshot.map (c : Snapshot α) : Snapshot β := ⟨c.focus.map f, c.callers.map (Invocation.map f)⟩

theorem Invocation.map_push (i : Invocation α) (v : α) :
    (i.map f).push (f v) = (i.push v).map f := by
  simp only [push, map, List.length_map]
  split <;> rfl

theorem Invocation.map_resume (i : Invocation α) (r : Except Error (Option α)) :
    (i.map f).resume (r.map (Option.map f)) = (i.resume r).map f := by
  rcases r with e | _ | v
  · rfl
  · rfl
  · exact i.map_push f v

theorem Setting.map_enter (S : Setting) (m : MethodRef) (args : List α)
    (callers : List (Invocation α)) :
    S.enter m (args.map f) (callers.map (Invocation.map f)) = (S.enter m args callers).map f := by
  simp only [enter, List.length_map]
  cases precheck m args.length with
  | error e => rfl
  | abort a => rfl
  | ok done =>
      by_cases room : callers.length < S.room
      · simp only [room, if_true]
        cases S.lib.find? m.name <;> rfl
      · simp only [room, if_false]
        rfl

end Map

/-! ## Words and integers -/

theorem inRange_iff (n : Int) : InRange n ↔ -2147483648 ≤ n ∧ n ≤ 2147483647 := by
  have least : Int32.minValue.toInt = -2147483648 := by decide
  have greatest : Int32.maxValue.toInt = 2147483647 := by decide
  rw [InRange, least, greatest]

theorem checked?_of_inRange {n : Int} (inRange : InRange n) :
    ∃ v, checked? n = some v ∧ v.toInt = n := by
  refine ⟨Int32.ofInt n, if_pos inRange, ?_⟩
  obtain ⟨lower, upper⟩ := (inRange_iff n).mp inRange
  apply Int32.toInt_ofInt_of_le
  · omega
  · omega

theorem checked?_of_not_inRange {n : Int} (outside : ¬ InRange n) : checked? n = none :=
  if_neg outside

example : checked? (-2147483649) = none ∧ checked? (-2147483648) = some Int32.minValue ∧
    checked? 2147483647 = some Int32.maxValue ∧ checked? 2147483648 = none := by decide

theorem greater_toInt (a b : Int32) :
    Numbers.integers.greater a.toInt b.toInt = Numbers.words.greater a b := by
  simp [Numbers.integers, Numbers.words, Int32.lt_iff_toInt_lt]

/-- The difference or product that an instruction computes, with the abort for the case that it is
out of range. -/
def Invocation.result? (i : Invocation Int) : Op → Option (Abort × Int)
  | .sub =>
    match i.ints with
    | b :: a :: _ => some (.subtractOverflow, a - b)
    | _ => none
  | .mul =>
    match i.ints with
    | b :: a :: _ => some (.multiplyOverflow, a * b)
    | _ => none
  | _ => none

/-- The difference or product that is computed next. -/
def Snapshot.result? (c : Snapshot Int) : Option (Abort × Int) :=
  match c.focus with
  | .executing i => i.code[i.pc]?.bind i.result?
  | .emitting .. | .resuming .. | .stuck | .ended _ => none

/-- What is computed next, if anything, is in range. -/
def Snapshot.IsSafe (c : Snapshot Int) : Prop := ∀ r ∈ c.result?, InRange r.2

instance (c : Snapshot Int) : Decidable c.IsSafe :=
  inferInstanceAs (Decidable (∀ r ∈ c.result?, InRange r.2))

theorem Snapshot.isSafe_or_overflows (c : Snapshot Int) :
    c.IsSafe ∨ ∃ a n, c.result? = some (a, n) ∧ ¬ InRange n := by
  by_cases overflows : ∃ a n, c.result? = some (a, n) ∧ ¬ InRange n
  · exact .inr overflows
  · left
    intro r computed
    by_cases inRange : InRange r.2
    · exact inRange
    · exact absurd ⟨r.1, r.2, computed, inRange⟩ overflows

/-- The same snapshot on integers. -/
def Snapshot.exact (c : Snapshot Int32) : Snapshot Int := c.map Int32.toInt

theorem Snapshot.exact_eq_ended {c : Snapshot Int32} {o : Outcome (Option Int)}
    (ended : c.exact = ⟨.ended o, []⟩) :
    ∃ r : Outcome (Option Int32), c = ⟨.ended r, []⟩ ∧ r.map (Option.map Int32.toInt) = o := by
  obtain ⟨focus, callers⟩ := c
  obtain ⟨focus_eq, callers_eq⟩ := Snapshot.mk.inj ended
  obtain rfl := List.map_eq_nil_iff.mp callers_eq
  cases focus with
  | ended r => exact ⟨r, rfl, Focus.ended.inj focus_eq⟩
  | executing | emitting | resuming | stuck => cases focus_eq

section Exact

variable (S : Setting) (i : Invocation Int32) (callers : List (Invocation Int32))

/-- An operation on words has the exact result, if that is in range. -/
theorem Invocation.combine_exact (op : Int → Int → Int) (overflow : Abort)
    (safe : ∀ b a ints, i.ints = b :: a :: ints → InRange (op a.toInt b.toInt)) :
    (i.map Int32.toInt).combine (fun a b => some (op a b)) overflow =
      (i.combine (fun a b => checked? (op a.toInt b.toInt)) overflow).map Int32.toInt := by
  obtain ⟨m, args, code, pc, ints⟩ := i
  obtain _ | ⟨b, _ | ⟨a, ints⟩⟩ := ints
  · rfl
  · rfl
  · obtain ⟨v, checked, exact⟩ := checked?_of_inRange (safe b a ints rfl)
    simp only [combine, map, List.map_cons, checked]
    rw [← exact]
    exact Invocation.map_push Int32.toInt ⟨m, args, code, pc, ints⟩ v

/-- An instruction that computes nothing out of range has the same effect on words and on
integers. -/
theorem Setting.execute_exact {op : Op}
    (safe : ∀ a n, (i.map Int32.toInt).result? op = some (a, n) → InRange n) :
    S.execute .integers (i.map Int32.toInt) (callers.map (Invocation.map Int32.toInt)) op =
      (S.execute .words i callers op).exact := by
  have pushes (v : Int32) : (⟨(i.map Int32.toInt).push v.toInt,
      callers.map (Invocation.map Int32.toInt)⟩ : Snapshot Int) =
      (⟨i.push v, callers⟩ : Snapshot Int32).exact := by
    rw [Invocation.map_push]
    rfl
  cases op with
  | const v => exact pushes v
  | load index =>
      have loaded : (i.map Int32.toInt).args[index]? = i.args[index]?.map Int32.toInt :=
        List.getElem?_map
      simp only [execute, loaded]
      cases i.args[index]? with
      | none => rfl
      | some v => exact pushes v
  | sub =>
      have combined := i.combine_exact (· - ·) .subtractOverflow (by
        intro b a ints ints_eq
        apply safe .subtractOverflow
        simp [Invocation.result?, Invocation.map, ints_eq])
      exact congrArg (Snapshot.mk · (callers.map (Invocation.map Int32.toInt))) combined
  | mul =>
      have combined := i.combine_exact (· * ·) .multiplyOverflow (by
        intro b a ints ints_eq
        apply safe .multiplyOverflow
        simp [Invocation.result?, Invocation.map, ints_eq])
      exact congrArg (Snapshot.mk · (callers.map (Invocation.map Int32.toInt))) combined
  | ifGreater target =>
      obtain ⟨m, args, code, pc, ints⟩ := i
      obtain _ | ⟨b, _ | ⟨a, ints⟩⟩ := ints
      · rfl
      · rfl
      · simp only [execute, Invocation.map, List.map_cons, greater_toInt]
        rfl
  | invoke name =>
      obtain ⟨m, args, code, pc, ints⟩ := i
      simp only [execute]
      cases S.lib.find? name with
      | none => rfl
      | some d =>
          cases ints with
          | nil => rfl
          | cons v ints =>
              exact S.map_enter Int32.toInt d.method [v] (⟨m, args, code, pc, ints⟩ :: callers)
  | emit =>
      obtain ⟨m, args, code, pc, ints⟩ := i
      cases ints <;> rfl
  | returnInt =>
      obtain ⟨m, args, code, pc, ints⟩ := i
      cases ints <;> rfl
  | returnNothing => rfl

variable {S} {c c' : Snapshot Int32} {n : Nat} {out : List Int32} {a : Abort}

/-- As long as nothing out of range is computed, words and integers take the same steps. -/
theorem Setting.step_exact (safe : c.exact.IsSafe) :
    S.step .integers c.exact =
      (S.step .words c).map (Prod.map (List.map Int32.toInt) Snapshot.exact) := by
  obtain ⟨focus, callers⟩ := c
  cases focus with
  | executing i =>
      have fetch : S.step .integers (⟨.executing i, callers⟩ : Snapshot Int32).exact =
          match i.code[i.pc]? with
          | none => some ([], ⟨.ended (.abort (.codeIndex i.code.length i.pc)),
              callers.map (Invocation.map Int32.toInt)⟩)
          | some op => some ([], S.execute .integers (({ i with pc := i.pc + 1 } :
              Invocation Int32).map Int32.toInt) (callers.map (Invocation.map Int32.toInt)) op) :=
        rfl
      rw [fetch]
      simp only [step]
      cases fetched : i.code[i.pc]? with
      | none => rfl
      | some op =>
          simp only
          rw [S.execute_exact { i with pc := i.pc + 1 } callers]
          · rfl
          · intro a n result_eq
            have computed : i.code[i.pc]?.bind (i.map Int32.toInt).result? = some (a, n) := by
              rw [fetched]
              exact result_eq
            exact safe (a, n) computed
  | emitting v i => rfl
  | resuming r i =>
      exact congrArg (fun focus => some ([], Snapshot.mk focus _)) (i.map_resume Int32.toInt r)
  | stuck => rfl
  | ended o =>
      cases callers with
      | nil => rfl
      | cons i callers => cases o <;> rfl

/-- Where the exact result is out of range, words abort. -/
theorem Setting.step_of_overflow {n : Int} (result_eq : c.exact.result? = some (a, n))
    (outside : ¬ InRange n) : S.step .words c = some ([], ⟨.ended (.abort a), c.callers⟩) := by
  obtain ⟨focus, callers⟩ := c
  cases focus with
  | executing i =>
      have bound : i.code[i.pc]?.bind (i.map Int32.toInt).result? = some (a, n) := result_eq
      obtain ⟨op, fetched, computes⟩ := Option.bind_eq_some_iff.mp bound
      obtain ⟨m, args, code, pc, ints⟩ := i
      simp only [step, fetched]
      cases op with
      | sub | mul =>
          obtain _ | ⟨b, _ | ⟨x, ints⟩⟩ := ints
          · cases computes
          · cases computes
          · obtain ⟨rfl, rfl⟩ := Prod.mk.inj (Option.some.inj computes)
            simp only [execute, Invocation.combine, Numbers.words, checked?_of_not_inRange outside]
      | const | load | ifGreater | invoke | emit | returnInt | returnNothing => cases computes
  | emitting | resuming | stuck | ended => cases result_eq

/-! ## Integers do not overflow -/

/-- The aborts of operations that have no result. -/
def Overflows (a : Abort) : Prop := a = .subtractOverflow ∨ a = .multiplyOverflow

/-- What goes on is not the end of an activation for lack of a result. -/
def Focus.IsFine {α : Type} (focus : Focus α) : Prop :=
  ∀ a, focus = .ended (.abort a) → ¬ Overflows a

theorem Focus.isFine_abort {α : Type} {a : Abort} (other : ¬ Overflows a) :
    (Focus.ended (.abort a) : Focus α).IsFine := by
  rintro _ ⟨⟩
  exact other

theorem Invocation.isFine_push {α : Type} (i : Invocation α) (v : α) : (i.push v).IsFine := by
  intro a ended
  unfold push at ended
  split at ended
  · cases ended
  · cases ended

theorem Invocation.isFine_resume {α : Type} (i : Invocation α) (r : Except Error (Option α)) :
    (i.resume r).IsFine := by
  rcases r with e | _ | v
  · rintro a ⟨⟩
  · exact Focus.isFine_abort (by simp [Overflows])
  · exact i.isFine_push v

theorem Invocation.isFine_combine {α : Type} (i : Invocation α) (op : α → α → α)
    (overflow : Abort) : (i.combine (fun a b => some (op a b)) overflow).IsFine := by
  unfold combine
  split
  · exact isFine_push _ _
  · rintro a ⟨⟩

theorem not_overflows_of_precheck {m : MethodRef} {count : Nat} {a : Abort}
    (aborts : precheck m count = .abort a) : ¬ Overflows a := by
  unfold precheck at aborts
  rw [Frame.allocate_eq] at aborts
  by_cases many : m.method.maxLocals < count
  · simp [many] at aborts
  by_cases addressable : m.method.maxLocals < Nat.pow 2 59 ∧ m.method.maxStack < Nat.pow 2 59
  · simp only [many, addressable, and_self, if_true, if_false] at aborts
    split at aborts
    · rename_i abort found
      obtain ⟨slot, _, refused⟩ := List.exists_of_findSome?_eq_some found
      obtain ⟨kind, _, rfl⟩ := Option.map_eq_some_iff.mp refused
      obtain rfl := Outcome.abort.inj aborts
      simp [Overflows]
    · cases aborts
  · simp only [many, addressable, if_false] at aborts
    obtain rfl := Outcome.abort.inj aborts
    simp [Overflows]

namespace Setting

theorem isFine_enter {α : Type} (S : Setting) (m : MethodRef) (args : List α)
    (callers : List (Invocation α)) : (S.enter m args callers).focus.IsFine := by
  unfold enter
  split
  · rintro a ⟨⟩
  · exact Focus.isFine_abort (not_overflows_of_precheck ‹_›)
  · split
    · split <;> rintro a ⟨⟩
    · rintro a ⟨⟩

/-- An operation on integers has a result. -/
theorem isFine_execute (S : Setting) (i : Invocation Int) (callers : List (Invocation Int))
    (op : Op) : (S.execute .integers i callers op).focus.IsFine := by
  cases op with
  | const v => exact i.isFine_push _
  | load index =>
      simp only [execute]
      split
      · exact i.isFine_push _
      · exact Focus.isFine_abort (by simp [Overflows])
  | sub => exact i.isFine_combine (· - ·) .subtractOverflow
  | mul => exact i.isFine_combine (· * ·) .multiplyOverflow
  | invoke name =>
      simp only [execute]
      split
      · exact Focus.isFine_abort (by simp [Overflows])
      · exact S.isFine_enter _ _ _
      · rintro a ⟨⟩
  | ifGreater | emit | returnInt =>
      simp only [execute]
      split <;> rintro a ⟨⟩
  | returnNothing => rintro a ⟨⟩

theorem isFine_step {S : Setting} {c c' : Snapshot Int} {out : List Int}
    (steps : S.step .integers c = some (out, c')) (fine : c.focus.IsFine) : c'.focus.IsFine := by
  obtain ⟨focus, callers⟩ := c
  cases focus with
  | executing i =>
      simp only [step] at steps
      split at steps
      · cases steps
        exact Focus.isFine_abort (by simp [Overflows])
      · cases steps
        exact S.isFine_execute _ _ _
  | emitting v i =>
      cases steps
      rintro a ⟨⟩
  | resuming r i =>
      cases steps
      exact i.isFine_resume r
  | stuck =>
      cases steps
      exact Focus.isFine_abort (by simp [Overflows])
  | ended o =>
      cases callers with
      | nil => cases steps
      | cons i callers =>
          cases o with
          | ok r | error e =>
              cases steps
              rintro a ⟨⟩
          | abort a =>
              cases steps
              exact fine

theorem Runs.isFine {S : Setting} {P : Snapshot Int → Prop} {n : Nat} {c c' : Snapshot Int}
    {out : List Int} (runs : S.Runs .integers P n c out c') (fine : c.focus.IsFine) :
    c'.focus.IsFine := by
  induction runs with
  | refl c => exact fine
  | head holds steps rest ih => exact ih (isFine_step steps fine)

end Setting

/-! ## Runs -/

namespace Setting

/-- A machine stops when its first activation has ended, and only then. -/
theorem step_eq_none_iff {α : Type} {S : Setting} {N : Numbers α} {c : Snapshot α} :
    S.step N c = none ↔ ∃ o, c = ⟨.ended o, []⟩ := by
  refine ⟨?_, ?_⟩
  · intro none_eq
    obtain ⟨focus, callers⟩ := c
    cases focus with
    | executing i =>
        simp only [step] at none_eq
        split at none_eq
        · cases none_eq
        · cases none_eq
    | emitting | resuming | stuck => cases none_eq
    | ended o =>
        cases callers with
        | nil => exact ⟨o, rfl⟩
        | cons i callers => cases o <;> cases none_eq
  · rintro ⟨o, rfl⟩
    rfl

/-- An abort passes the activations that wait, and nothing else happens. -/
theorem Runs.of_aborted {P : Snapshot Int32 → Prop} {a : Abort} {callers : List (Invocation Int32)}
    (runs : S.Runs .words P n ⟨.ended (.abort a), callers⟩ out c') :
    out = [] ∧ ∃ left, c' = ⟨.ended (.abort a), left⟩ := by
  induction n generalizing callers out with
  | zero =>
      cases runs
      exact ⟨rfl, callers, rfl⟩
  | succ n ih =>
      cases runs with
      | head holds steps rest =>
          cases callers with
          | nil => cases steps
          | cons i callers =>
              cases steps
              exact ih rest

/-- An abort gets to the end. -/
theorem runs_of_aborted (S : Setting) (a : Abort) (callers : List (Invocation Int32)) :
    S.Runs .words (fun _ => True) callers.length ⟨.ended (.abort a), callers⟩ []
      ⟨.ended (.abort a), []⟩ := by
  induction callers with
  | nil => exact .refl _
  | cons i callers ih =>
      have steps : S.step .words ⟨.ended (.abort a), i :: callers⟩ =
        some ([], ⟨.ended (.abort a), callers⟩) := rfl
      exact .head trivial steps ih

/-- Some steps on integers, as long as all results are in range. -/
def exactRun? (S : Setting) : Nat → Snapshot Int → Option (List Int × Snapshot Int)
  | 0, c => some ([], c)
  | n + 1, c =>
    if c.IsSafe then
      (S.step .integers c).bind fun next =>
        (S.exactRun? n next.2).map fun rest => (next.1 ++ rest.1, rest.2)
    else none

theorem runs_of_exactRun? {S : Setting} {n : Nat} {c x : Snapshot Int} {out : List Int}
    (run : S.exactRun? n c = some (out, x)) : S.Runs .integers Snapshot.IsSafe n c out x := by
  induction n generalizing c out with
  | zero =>
      obtain ⟨rfl, rfl⟩ := Prod.mk.inj (Option.some.inj run)
      exact .refl c
  | succ n ih =>
      unfold exactRun? at run
      split at run
      · rename_i safe
        obtain ⟨next, steps, goesOn⟩ := Option.bind_eq_some_iff.mp run
        obtain ⟨rest, run', together⟩ := Option.map_eq_some_iff.mp goesOn
        obtain ⟨rfl, rfl⟩ := Prod.mk.inj together
        exact .head safe steps (ih run')
      · cases run

/-- A run of the integers in which nothing is out of range is a run of the words. -/
theorem runs_of_exact {c : Snapshot Int32} {out : List Int} {final : Snapshot Int}
    (runs : S.Runs .integers Snapshot.IsSafe n c.exact out final) :
    ∃ out' final', S.Runs .words (fun _ => True) n c out' final' ∧ out'.map Int32.toInt = out ∧
      final'.exact = final := by
  induction n generalizing c out with
  | zero =>
      cases runs
      exact ⟨[], c, .refl c, rfl, rfl⟩
  | succ n ih =>
      cases runs with
      | head safe steps rest =>
          rw [step_exact safe] at steps
          obtain ⟨⟨emitted, next⟩, steps', moved⟩ := Option.map_eq_some_iff.mp steps
          obtain ⟨rfl, rfl⟩ := Prod.mk.inj moved
          obtain ⟨out', final', runs', rfl, rfl⟩ := ih rest
          exact ⟨emitted ++ out', final', .head trivial steps' runs', List.map_append, rfl⟩

/-- A run of the words is a run of the integers in which nothing is out of range, or has come to the
first place where something is, and is on its way out with the abort for that. -/
theorem exact_or_overflow (runs : S.Runs .words (fun _ => True) n c out c') :
    S.Runs .integers Snapshot.IsSafe n c.exact (out.map Int32.toInt) c'.exact ∨
      ∃ k x a r left, k < n ∧ S.Runs .integers Snapshot.IsSafe k c.exact (out.map Int32.toInt) x ∧
        x.result? = some (a, r) ∧ ¬ InRange r ∧ c' = ⟨.ended (.abort a), left⟩ := by
  induction runs with
  | refl c => exact .inl (.refl c.exact)
  | @head n c next final emitted out holds steps rest ih =>
      obtain safe | ⟨a, r, result_eq, outside⟩ := c.exact.isSafe_or_overflows
      · have steps' : S.step .integers c.exact = some (emitted.map Int32.toInt, next.exact) := by
          rw [step_exact safe, steps]
          rfl
        rw [List.map_append]
        obtain goesOn | ⟨k, x, a, r, left, earlier, runs, result_eq, outside, ended⟩ := ih
        · exact .inl (.head safe steps' goesOn)
        · exact .inr ⟨k + 1, x, a, r, left, Nat.succ_lt_succ earlier, .head safe steps' runs,
            result_eq, outside, ended⟩
      · right
        rw [step_of_overflow result_eq outside] at steps
        obtain ⟨rfl, rfl⟩ := Prod.mk.inj (Option.some.inj steps)
        obtain ⟨rfl, left, ended⟩ := rest.of_aborted
        exact ⟨0, c.exact, a, r, left, Nat.succ_pos n, .refl _, result_eq, outside, ended⟩

end Setting

end Exact

end IntMachine

end ThreadEngine
