import ThreadEngine.Proofs.RecursiveCalls
import ThreadEngine.Proofs.ExactMachine

set_option autoImplicit false

/-!
# The arithmetic of the int machine is exact, or aborts

A call of the int machine against the same call on integers.  The activations of a call lie on the
frames that were there before it, its `Ground`, and `Ground.Shows` says which task a snapshot of the
machine on words describes: one frame for each activation, with its ints and its arguments.  The two
go step by step (`Shows.step`), because the evaluator says of each turn what it does and the machine
does the same (`execute_reaches`, `resume_reaches`).

`arithmetic_is_exact` puts this together with the comparison of words and integers.
-/

namespace ThreadEngine

theorem Method.slotContent_int (m : Method) (slot : Nat) (v : Int32) :
    m.slotContent slot (Value.int v) =
      match m.intRefusal? slot with
      | none => .ok (.int v)
      | some kind => .error kind := by
  simp only [slotContent, Value.int, intRefusal?]
  cases m.argType? slot with
  | none => rfl
  | some declared => cases declared <;> rfl

namespace IntMachine

/-! ## Arguments -/

/-- The locals of an activation that was given some ints. -/
def table (size : Nat) (args : List Int32) : Locals :=
  ⟨args.map .int ++ List.replicate (size - args.length) .empty⟩

theorem getInt?_table (size : Nat) (args : List Int32) (i : Nat) :
    (table size args).getInt? i = args[i]? := by
  simp only [Locals.getInt?, Locals.get?, table, List.getElem?_append, List.length_map,
    List.getElem?_map, List.getElem?_replicate]
  by_cases inside : i < args.length
  · simp [inside, Slot.asInt?]
  · rw [if_neg inside, List.getElem?_eq_none (Nat.le_of_not_lt inside)]
    split <;> rfl

theorem set_table {size : Nat} {args : List Int32} (v : Int32) (room : args.length < size) :
    (table size args).set args.length (.int v) = .ok (table size (args ++ [v])) := by
  obtain ⟨k, left⟩ : ∃ k, size - args.length = k + 1 := ⟨size - args.length - 1, by omega⟩
  have left' : size - (args.length + 1) = k := by omega
  simp [Locals.set, Locals.size, table, left, left', List.replicate_succ]

/-- Ints are copied into ascending slots up to the first that refuses one. -/
theorem marshalFrom_ints (m : Method) (size : Nat) (copied args : List Int32)
    (fits : copied.length + args.length ≤ size) :
    match (List.range' copied.length args.length).findSome? fun slot =>
      (m.intRefusal? slot).map (Abort.unreachableKind · slot) with
    | some a => (m.marshalFrom copied.length (table size copied) (args.map Value.int)).outcome =
        .abort a
    | none => (m.marshalFrom copied.length (table size copied) (args.map Value.int)).outcome =
        .ok () ∧
      (m.marshalFrom copied.length (table size copied) (args.map Value.int)).locals =
        table size (copied ++ args) := by
  induction args generalizing copied with
  | nil => exact ⟨rfl, by rw [List.append_nil]; rfl⟩
  | cons v args ih =>
      rw [List.length_cons] at fits
      have next := ih (copied ++ [v]) (by simp; omega)
      rw [List.length_append, List.append_assoc] at next
      simp only [List.length_cons, List.range'_succ, List.findSome?_cons, List.map_cons,
        Method.marshalFrom, Method.slotContent_int]
      cases m.intRefusal? copied.length with
      | some kind => rfl
      | none =>
          simp only [Option.map_none, set_table v (show copied.length < size by omega)]
          exact next

/-- The checks of a call with some ints. -/
theorem prepare_ints (m : MethodRef) (args : List Int32) :
    prepare m (args.map Value.int) =
      (precheck m args.length).map fun _ => table m.method.maxLocals args := by
  simp only [prepare, precheck, List.length_map]
  by_cases many : m.method.maxLocals < args.length
  · simp only [many, if_true]
    rfl
  · simp only [many, if_false, Frame.allocate_eq]
    by_cases addressable : m.method.maxLocals < Nat.pow 2 59 ∧ m.method.maxStack < Nat.pow 2 59
    · simp only [addressable, and_self, if_true]
      have copied := marshalFrom_ints m.method m.method.maxLocals [] args
        (by simpa using Nat.le_of_not_lt many)
      have blank : (Frame.ofSizes m.method.maxLocals m.method.maxStack).locals =
        table m.method.maxLocals [] := rfl
      rw [blank, Method.marshal, List.range_eq_range']
      simp only [List.length_nil] at copied
      revert copied
      cases (List.range' 0 args.length).findSome? fun slot =>
          (m.method.intRefusal? slot).map (Abort.unreachableKind · slot) with
      | some a =>
          intro copied
          simp only [copied]
          rfl
      | none =>
          rintro ⟨copied, locals_eq⟩
          simp only [copied, locals_eq]
          rfl
    · simp only [addressable, if_false]
      rfl

/-! ## Tasks and snapshots -/

/-- What lies under an activation: the thread as its caller left it, and what waits for it. -/
structure Ground where
  thread : Thread
  layers : List (Layer Activation)

namespace Ground

/-- Where an activation runs. -/
def site (g : Ground) (i : Invocation Int32) : Site :=
  .ofCall g.thread g.layers i.method (table i.method.method.maxLocals i.args) i.code

/-- What lies under the calls that an activation makes. -/
def above (g : Ground) (i : Invocation Int32) : Ground :=
  ⟨(g.site i).inside i.pc i.ints, (g.site i).waiting⟩

/-- What lies on top of some activations. -/
def under (g : Ground) : List (Invocation Int32) → Ground
  | [] => g
  | i :: callers => (g.under callers).above i

/-- There is room for as many activations as there may be further frames. -/
def setting (lib : Library) (g : Ground) : Setting :=
  ⟨lib, g.thread.frames.maxDepth - g.thread.depth, g.thread.frames.maxDepth⟩

/-- The tasks that a snapshot describes: every activation has a frame with its ints and its
arguments, and the thread goes on where the snapshot says. -/
def Shows (g : Ground) (task : Task Activation) (c : Snapshot Int32) : Prop :=
  match c.focus with
  | .executing i => task = ((g.under c.callers).site i).acting (.ready i.code) i.pc i.ints
  | .emitting v i => task = ((g.under c.callers).site i).emitting v i.pc i.ints
  | .resuming r i =>
    task = ((g.under c.callers).site i).acting
      (.called i.code (.returned (r.map (Option.map Value.int)))) i.pc i.ints
  | .stuck =>
    task.layers = (g.under c.callers).layers ∧
      task.mode = .acting (.stuck .unknownMethod) (g.under c.callers).thread.depth
  | .ended o =>
    task.Concludes (g.under c.callers).thread (g.under c.callers).layers
      (o.map (Option.map Value.int))

variable {lib : Library} {g : Ground} {callers : List (Invocation Int32)}
  {task task' : Task Activation} {c c' : Snapshot Int32} {out : List Int32} {n : Nat}

theorem depth_under (g : Ground) (callers : List (Invocation Int32)) :
    (g.under callers).thread.frames.maxDepth = g.thread.frames.maxDepth ∧
      (g.under callers).thread.depth = g.thread.depth + callers.length := by
  induction callers with
  | nil => exact ⟨rfl, rfl⟩
  | cons i callers ih =>
      refine ⟨ih.1, ?_⟩
      have deeper : (g.under (i :: callers)).thread.depth = (g.under callers).thread.depth + 1 :=
        rfl
      rw [deeper, ih.2, List.length_cons, Nat.add_assoc]

theorem suffix_under (g : Ground) (callers : List (Invocation Int32)) :
    g.layers <:+ (g.under callers).layers := by
  induction callers with
  | nil => exact List.suffix_refl _
  | cons i callers ih => exact ih.trans (List.suffix_cons _ _)

/-- A call begins as the machine says. -/
theorem shows_enter (lib : Library) (g : Ground) (m : MethodRef) (args : List Int32)
    (callers : List (Invocation Int32)) :
    g.Shows (Task.call (interpreter lib) (g.under callers).thread (g.under callers).layers m
      (args.map Value.int)).1 ((g.setting lib).enter m args callers) := by
  obtain ⟨maxDepth_eq, depth_eq⟩ := g.depth_under callers
  have room_iff : (g.under callers).thread.depth < (g.under callers).thread.frames.maxDepth ↔
      callers.length < (g.setting lib).room := by
    have room_eq : (g.setting lib).room = g.thread.frames.maxDepth - g.thread.depth := rfl
    omega
  rw [Task.call_fst, enter_snd, prepare_ints, Setting.enter]
  cases precheck m args.length with
  | error e => rfl
  | abort a => exact ⟨rfl, rfl⟩
  | ok done =>
      simp only [Outcome.map, room_iff]
      by_cases room : callers.length < (g.setting lib).room
      · simp only [room, if_true, enter_inside]
        have lib_eq : (g.setting lib).lib = lib := rfl
        rw [lib_eq]
        cases lib.find? m.name with
        | none => exact ⟨rfl, rfl⟩
        | some d => rfl
      · simp only [room, if_false, maxDepth_eq]
        rfl

end Ground

/-- A snapshot is what an effect of an activation leads to. -/
inductive Effect.Reaches (S : Setting) (i : Invocation Int32) (callers : List (Invocation Int32)) :
    Effect → Snapshot Int32 → Prop
  | goes (pc : Nat) (ints : List Int32) :
      Reaches S i callers (.goes pc ints) ⟨.executing { i with pc := pc, ints := ints }, callers⟩
  | puts (v : Int32) (pc : Nat) (ints : List Int32) :
      Reaches S i callers (.puts v pc ints) ⟨.emitting v { i with pc := pc, ints := ints }, callers⟩
  | calls (m : MethodRef) (v : Int32) (pc : Nat) (ints : List Int32) :
      Reaches S i callers (.calls m v pc ints)
        (S.enter m [v] ({ i with pc := pc, ints := ints } :: callers))
  | ends (o : Outcome (Option Int32)) :
      Reaches S i callers (.ends (o.map (Option.map Value.int))) ⟨.ended o, callers⟩

namespace Invocation

variable (S : Setting) (i : Invocation Int32) (callers : List (Invocation Int32))

/-- What the evaluator knows of an activation. -/
def scope : Scope := ⟨i.code, table i.method.method.maxLocals i.args, i.method.method.maxStack⟩

theorem put_reaches (pc : Nat) (ints : List Int32) (v : Int32) :
    Effect.Reaches S i callers (i.scope.put pc ints v)
      ⟨({ i with pc := pc, ints := ints } : Invocation Int32).push v, callers⟩ := by
  simp only [Scope.put, push, scope]
  by_cases room : ints.length < i.method.method.maxStack
  · simp only [room, if_true]
    exact .goes pc (v :: ints)
  · simp only [room, if_false]
    exact .ends (.error _)

theorem combine_reaches (pc : Nat) (op : Int → Int → Int) (overflow : Abort) (ints : List Int32) :
    Effect.Reaches S i callers (i.scope.combine pc op overflow ints)
      ⟨({ i with pc := pc, ints := ints } : Invocation Int32).combine
        (fun a b => checked? (op a.toInt b.toInt)) overflow, callers⟩ := by
  obtain _ | ⟨b, _ | ⟨a, ints⟩⟩ := ints
  · exact .ends (.error _)
  · exact .ends (.error _)
  · simp only [Scope.combine, combine]
    cases checked? (op a.toInt b.toInt) with
    | none => exact .ends (.abort overflow)
    | some v => exact put_reaches S i callers pc ints v

/-- Evaluator and machine agree on what an instruction does. -/
theorem execute_reaches (pc : Nat) (ints : List Int32) (op : Op) :
    Effect.Reaches S i callers (i.scope.execute S.lib pc ints op)
      (S.execute .words { i with pc := pc, ints := ints } callers op) := by
  cases op with
  | const v => exact put_reaches S i callers pc ints v
  | load index =>
      have loaded : i.scope.locals.getInt? index = i.args[index]? :=
        getInt?_table i.method.method.maxLocals i.args index
      simp only [Scope.execute, Setting.execute, loaded]
      cases i.args[index]? with
      | none => exact .ends (.abort .noIntLocal)
      | some v => exact put_reaches S i callers pc ints v
  | sub => exact combine_reaches S i callers pc (· - ·) .subtractOverflow ints
  | mul => exact combine_reaches S i callers pc (· * ·) .multiplyOverflow ints
  | ifGreater target =>
      obtain _ | ⟨b, _ | ⟨a, ints⟩⟩ := ints
      · exact .ends (.error _)
      · exact .ends (.error _)
      · simp only [Scope.execute, Setting.execute, Numbers.words, decide_eq_true_eq]
        exact .goes _ ints
  | invoke name =>
      simp only [Scope.execute, Setting.execute]
      cases S.lib.find? name with
      | none => exact .ends (.abort .unknownMethod)
      | some d =>
          cases ints with
          | nil => exact .ends (.error _)
          | cons v ints => exact .calls d.method v pc ints
  | emit =>
      cases ints with
      | nil => exact .ends (.error _)
      | cons v ints => exact .puts v pc ints
  | returnInt =>
      cases ints with
      | nil => exact .ends (.error _)
      | cons v ints => exact .ends (.ok (some v))
  | returnNothing => exact .ends (.ok none)

/-- Evaluator and machine agree on how an activation goes on after a call. -/
theorem resume_reaches (r : Except Error (Option Int32)) :
    Effect.Reaches S i callers
      (i.scope.resume i.pc i.ints (.ofExcept (r.map (Option.map Value.int))))
      ⟨i.resume r, callers⟩ := by
  rcases r with e | _ | v
  · exact .ends (.error e)
  · exact .ends (.abort (.unexpectedResult none))
  · exact put_reaches S i callers i.pc i.ints v

end Invocation

namespace Ground

variable {lib : Library} {g : Ground} {task task' : Task Activation} {c c' : Snapshot Int32}
  {x : Snapshot Int} {out : List Int32} {n : Nat}

theorem shows_of_leads {i : Invocation Int32} {callers : List (Invocation Int32)} {e : Effect}
    (leads : ((g.under callers).site i).Leads lib task e)
    (reaches : e.Reaches (g.setting lib) i callers c) : g.Shows task c := by
  cases reaches with
  | goes pc ints => exact leads
  | puts v pc ints => exact leads
  | calls m v pc ints =>
      obtain rfl : task = ((g.under callers).site i).calling lib m v pc ints := leads
      exact g.shows_enter lib m [v] ({ i with pc := pc, ints := ints } :: callers)
  | ends o => exact leads

/-- Each step of the task is the step that the machine takes. -/
theorem Shows.step (lib : Library) (shows : g.Shows task c) :
    match (g.setting lib).step .words c with
    | none => task.Over g.layers
    | some (out, c') => ¬ task.Over g.layers ∧
      ∃ task', task.move (interpreter lib) = some (out, task') ∧ g.Shows task' c' := by
  obtain ⟨focus, callers⟩ := c
  have acts {s : Activation} {depth : Nat} (mode_eq : task.mode = .acting s depth) :
      ¬ task.Over g.layers := fun finished => finished.not_acting s depth mode_eq
  cases focus with
  | executing i =>
      obtain rfl : task = ((g.under callers).site i).acting (.ready i.code) i.pc i.ints := shows
      obtain ⟨task', moves, leads⟩ := ((g.under callers).site i).ready_moves lib i.pc i.ints
      have scope_eq : ((g.under callers).site i).scope = i.scope := rfl
      have code_eq : i.scope.code = i.code := rfl
      rw [scope_eq, Scope.effect, code_eq] at leads
      simp only [Setting.step]
      cases fetched : i.code[i.pc]? with
      | none =>
          rw [fetched] at leads
          refine ⟨acts rfl, task', moves, ?_⟩
          exact shows_of_leads (i := i) leads (.ends (.abort (.codeIndex i.code.length i.pc)))
      | some op =>
          rw [fetched] at leads
          refine ⟨acts rfl, task', moves, shows_of_leads leads ?_⟩
          exact i.execute_reaches (g.setting lib) callers (i.pc + 1) i.ints op
  | emitting v i =>
      obtain rfl : task = ((g.under callers).site i).emitting v i.pc i.ints := shows
      refine ⟨?_, _, ((g.under callers).site i).emitting_moves lib v i.pc i.ints, rfl⟩
      rintro ⟨_, ⟨_, mode_eq⟩ | ⟨_, mode_eq⟩⟩
      · cases mode_eq
      · cases mode_eq
  | resuming r i =>
      obtain rfl : task = ((g.under callers).site i).acting
        (.called i.code (.returned (r.map (Option.map Value.int)))) i.pc i.ints := shows
      obtain ⟨task', moves, leads⟩ := ((g.under callers).site i).called_moves lib
        (r.map (Option.map Value.int)) i.pc i.ints
      refine ⟨acts rfl, task', moves, shows_of_leads leads ?_⟩
      exact i.resume_reaches (g.setting lib) callers r
  | stuck =>
      obtain ⟨layers_eq, mode_eq⟩ := shows
      obtain ⟨_, task', moves, concludes⟩ :=
        stuck_moves lib (g.under callers).thread layers_eq mode_eq
      exact ⟨acts mode_eq, task', moves, concludes⟩
  | ended o =>
      cases callers with
      | nil =>
          have concludes : task.Concludes g.thread g.layers (o.map (Option.map Value.int)) := shows
          cases o <;> exact concludes.isOver
      | cons i callers =>
          have concludes : task.Concludes (((g.under callers).site i).inside i.pc i.ints)
            ((g.under callers).site i).waiting (o.map (Option.map Value.int)) := shows
          have kept : .activation (.calling i.code) (g.under callers).thread.depth false ::
              (g.under callers).layers <:+ task.layers := by
            rw [concludes.isOver.1]
            exact List.suffix_refl _
          have going : ¬ task.Over g.layers := by
            rintro ⟨layers_eq, _⟩
            rw [layers_eq] at kept
            have longer := kept.length_le
            have deeper := (g.suffix_under callers).length_le
            rw [List.length_cons] at longer
            omega
          obtain ⟨r, o_eq, moves⟩ | ⟨a, task', o_eq, moves, passes⟩ :=
            ((g.under callers).site i).concluded_moves lib concludes
          · cases o with
            | ok v =>
                cases r <;> cases o_eq
                exact ⟨going, _, moves, rfl⟩
            | error e =>
                cases r <;> cases o_eq
                exact ⟨going, _, moves, rfl⟩
            | abort a => cases r <;> cases o_eq
          · cases o <;> cases o_eq
            exact ⟨going, task', moves, passes⟩

/-- What the machine does in some steps, the task does. -/
theorem Shows.moves (shows : g.Shows task c)
    (runs : (g.setting lib).Runs .words (fun _ => True) n c out c') :
    ∃ task', Task.Moves (interpreter lib) g.layers n task out task' ∧ g.Shows task' c' := by
  induction runs generalizing task with
  | refl c => exact ⟨task, .refl task, shows⟩
  | head holds steps rest ih =>
      have step := shows.step lib
      rw [steps] at step
      obtain ⟨going, next, moves, shows'⟩ := step
      obtain ⟨task', path, shown⟩ := ih shows'
      exact ⟨task', .head going moves path, shown⟩

/-- What the task does in some steps, the machine does. -/
theorem Shows.runs (shows : g.Shows task c)
    (moves : Task.Moves (interpreter lib) g.layers n task out task') :
    ∃ c', (g.setting lib).Runs .words (fun _ => True) n c out c' ∧ g.Shows task' c' := by
  induction n generalizing task c out with
  | zero =>
      cases moves
      exact ⟨c, .refl c, shows⟩
  | succ n ih =>
      cases moves with
      | head going move_eq rest =>
          have step := shows.step lib
          cases steps : (g.setting lib).step .words c with
          | none =>
              rw [steps] at step
              exact absurd step going
          | some next =>
              obtain ⟨emitted, c₁⟩ := next
              rw [steps] at step
              obtain ⟨_, task₁, move_eq', shows'⟩ := step
              obtain ⟨rfl, rfl⟩ := Prod.mk.inj (Option.some.inj (move_eq'.symm.trans move_eq))
              obtain ⟨c', runs, shown⟩ := ih shows' rest
              exact ⟨c', .head trivial steps runs, shown⟩

/-- The task stands where the machine on integers stands: the same activations, with the same
numbers. -/
def Mirrors (g : Ground) (task : Task Activation) (x : Snapshot Int) : Prop :=
  ∃ c, g.Shows task c ∧ c.exact = x

/-- When the machine on integers has come to an outcome, the task has come to the same one. -/
theorem Mirrors.concludes {o : Outcome (Option Int)} (mirrors : g.Mirrors task ⟨.ended o, []⟩) :
    ∃ r : Outcome (Option Int32), r.map (Option.map Int32.toInt) = o ∧
      task.Concludes g.thread g.layers (r.map (Option.map Value.int)) := by
  obtain ⟨c, shows, ended⟩ := mirrors
  obtain ⟨r, rfl, same⟩ := c.exact_eq_ended ended
  exact ⟨r, same, shows⟩

/-- A task is over only when the machine on integers has come to an outcome. -/
theorem Mirrors.ended (lib : Library) (mirrors : g.Mirrors task x) (finished : task.Over g.layers) :
    ∃ o, x = ⟨.ended o, []⟩ := by
  obtain ⟨c, shows, rfl⟩ := mirrors
  have step := shows.step lib
  cases steps : (g.setting lib).step .words c with
  | none =>
      obtain ⟨r, rfl⟩ := Setting.step_eq_none_iff.mp steps
      exact ⟨r.map (Option.map Int32.toInt), rfl⟩
  | some next =>
      rw [steps] at step
      exact absurd finished step.1

/-- A task that unwinds for lack of a result is not where the machine on integers could be. -/
theorem Mirrors.not_overflows {a : Abort} (mirrors : g.Mirrors task x) (fine : x.focus.IsFine)
    (mode_eq : task.mode = .unwinding a) : ¬ Overflows a := by
  obtain ⟨⟨focus, callers⟩, shows, rfl⟩ := mirrors
  cases focus with
  | executing i | emitting v i | resuming r i =>
      cases shows
      cases mode_eq
  | stuck => cases shows.2.symm.trans mode_eq
  | ended o =>
      cases o with
      | ok r | error e =>
          cases shows
          cases mode_eq
      | abort a' =>
          obtain rfl := Mode.unwinding.inj (shows.2.symm.trans mode_eq)
          exact fine a' rfl

/-- The task of a call with some ints, when it begins. -/
def firstTask (lib : Library) (g : Ground) (m : MethodRef) (args : List Int32) : Task Activation :=
  (Task.call (interpreter lib) g.thread g.layers m (args.map Value.int)).1

/-- The machine on integers comes from the beginning of a call to a snapshot, and all results on the
way are in range. -/
def ExactRun (lib : Library) (g : Ground) (m : MethodRef) (args : List Int32) (n : Nat)
    (out : List Int) (x : Snapshot Int) : Prop :=
  (g.setting lib).Runs .integers Snapshot.IsSafe n
    ((g.setting lib).enter m (args.map Int32.toInt) []) out x

theorem shows_firstTask (lib : Library) (g : Ground) (m : MethodRef) (args : List Int32) :
    ∃ c, g.Shows (g.firstTask lib m args) c ∧
      c.exact = (g.setting lib).enter m (args.map Int32.toInt) [] :=
  ⟨_, g.shows_enter lib m args [], ((g.setting lib).map_enter Int32.toInt m args []).symm⟩

/-- What the machine on integers does with all results in range, the task does. -/
theorem ExactRun.moves {m : MethodRef} {args : List Int32} {exactOut : List Int}
    (run : g.ExactRun lib m args n exactOut x) :
    ∃ emitted task, Task.Moves (interpreter lib) g.layers n (g.firstTask lib m args) emitted task ∧
      emitted.map Int32.toInt = exactOut ∧ g.Mirrors task x := by
  obtain ⟨c₀, shows, exact_eq⟩ := g.shows_firstTask lib m args
  rw [ExactRun, ← exact_eq] at run
  obtain ⟨emitted, c', words, out_eq, x_eq⟩ := Setting.runs_of_exact run
  obtain ⟨task, moves, shown⟩ := shows.moves words
  exact ⟨emitted, task, moves, out_eq, c', shown, x_eq⟩

/-- What the task does, the machine on integers does with all results in range, unless it has come
to one that is not. -/
theorem exactRun_of_moves {m : MethodRef} {args : List Int32}
    (moves : Task.Moves (interpreter lib) g.layers n (g.firstTask lib m args) out task) :
    (∃ x, g.ExactRun lib m args n (out.map Int32.toInt) x ∧ g.Mirrors task x ∧
        ∀ a, task.mode = .unwinding a → ¬ Overflows a) ∨
      ∃ k x a r, k < n ∧ g.ExactRun lib m args k (out.map Int32.toInt) x ∧
        x.result? = some (a, r) ∧ ¬ InRange r ∧ task.mode = .unwinding a := by
  obtain ⟨c₀, shows, exact_eq⟩ := g.shows_firstTask lib m args
  obtain ⟨c', words, shown⟩ := shows.runs moves
  obtain run | ⟨k, x, a, r, left, earlier, run, result_eq, outside, rfl⟩ :=
    Setting.exact_or_overflow words
  · left
    rw [exact_eq] at run
    have mirrors : g.Mirrors task c'.exact := ⟨c', shown, rfl⟩
    refine ⟨c'.exact, run, mirrors, ?_⟩
    intro a mode_eq
    exact mirrors.not_overflows (run.isFine (Setting.isFine_enter _ _ _ _)) mode_eq
  · right
    rw [exact_eq] at run
    exact ⟨k, x, a, r, earlier, run, result_eq, outside, shown.2⟩

/-- Where the exact result is out of range, the task raises the abort for that, and the call ends
with it. -/
theorem Mirrors.aborts (lib : Library) {a : Abort} {r : Int} (mirrors : g.Mirrors task x)
    (result_eq : x.result? = some (a, r)) (outside : ¬ InRange r) :
    ∃ task' k final, task.move (interpreter lib) = some ([], task') ∧ task'.mode = .unwinding a ∧
      Task.Moves (interpreter lib) g.layers (k + 1) task [] final ∧
      final.Concludes g.thread g.layers (.abort a) := by
  obtain ⟨c, shows, rfl⟩ := mirrors
  have steps : (g.setting lib).step .words c = some ([], ⟨.ended (.abort a), c.callers⟩) :=
    Setting.step_of_overflow result_eq outside
  have step := shows.step lib
  rw [steps] at step
  obtain ⟨going, task', moves, raised⟩ := step
  obtain ⟨final, path, shown⟩ := raised.moves ((g.setting lib).runs_of_aborted a c.callers)
  exact ⟨task', c.callers.length, final, moves, raised.2, .head going moves path, shown⟩

end Ground

/-- The arithmetic of the int machine is exact, or aborts.  Let a context begin a call with some
ints, and compare what it does alone with what the machine on integers does.

As long as every difference and product of that machine is in range, the context takes the same
steps: after each number of them it has the same activations with the same numbers, has put out the
same numbers, and has come to the same outcome if there is one.  Where the next result is out of
range, the context aborts, and the call ends with that.  Conversely, wherever the context gets to,
the machine on integers gets to the same place with all results in range, or has come to one that is
not, at some earlier step; the context has put out no more since, and is about to end with the abort
for that one.  It aborts for lack of a result in no other case. -/
theorem arithmetic_is_exact (lib : Library) (c : Ctx) (g : Ground) (m : MethodRef)
    (args : List Int32) (w : World Activation)
    (task_eq : w.roster.taskAt c = some (g.firstTask lib m args)) :
    (∀ n out x, g.ExactRun lib m args n out x →
      ∃ emitted task v,
        Task.Moves (interpreter lib) g.layers n (g.firstTask lib m args) emitted task ∧
        World.Solo (interpreter lib) c g.layers w v ∧ v.roster.taskAt c = some task ∧
        v.output = w.output ++ emitted ∧ emitted.map Int32.toInt = out ∧ g.Mirrors task x ∧
        (∀ o, x = ⟨.ended o, []⟩ → ∃ r : Outcome (Option Int32),
          r.map (Option.map Int32.toInt) = o ∧
            task.Concludes g.thread g.layers (r.map (Option.map Value.int))) ∧
        (task.Over g.layers → ∃ o, x = ⟨.ended o, []⟩) ∧
        ∀ a r, x.result? = some (a, r) → ¬ (-2147483648 ≤ r ∧ r ≤ 2147483647) →
          ∃ task' k final, task.move (interpreter lib) = some ([], task') ∧
            task'.mode = .unwinding a ∧
            Task.Moves (interpreter lib) g.layers (k + 1) task [] final ∧
            final.Concludes g.thread g.layers (.abort a)) ∧
      ∀ v, World.Solo (interpreter lib) c g.layers w v →
        ∃ n emitted task,
          Task.Moves (interpreter lib) g.layers n (g.firstTask lib m args) emitted task ∧
          v.roster.taskAt c = some task ∧ v.output = w.output ++ emitted ∧
          ((∃ x, g.ExactRun lib m args n (emitted.map Int32.toInt) x ∧ g.Mirrors task x ∧
              ∀ a, task.mode = .unwinding a → ¬ Overflows a) ∨
            ∃ k x a r, k < n ∧ g.ExactRun lib m args k (emitted.map Int32.toInt) x ∧
              x.result? = some (a, r) ∧ ¬ (-2147483648 ≤ r ∧ r ≤ 2147483647) ∧
              task.mode = .unwinding a) := by
  have steady := Within.steady lib g.thread g.layers
  have within := within_call lib g.thread g.layers m (args.map Value.int)
  refine ⟨?_, ?_⟩
  · intro n out x run
    obtain ⟨emitted, task, moves, out_eq, mirrors⟩ := run.moves
    obtain ⟨v, solo, after, output_eq⟩ := steady.solo moves within task_eq
    refine ⟨emitted, task, v, moves, solo, after, output_eq, out_eq, mirrors, ?_, ?_, ?_⟩
    · rintro o rfl
      exact mirrors.concludes
    · intro finished
      exact mirrors.ended lib finished
    · intro a r result_eq outside
      exact mirrors.aborts lib result_eq (mt (inRange_iff r).mp outside)
  · intro v solo
    obtain ⟨n, emitted, task, moves, _, after, output_eq⟩ :=
      steady.moves_of_solo solo within task_eq
    refine ⟨n, emitted, task, moves, after, output_eq, ?_⟩
    obtain exactly | ⟨k, x, a, r, earlier, run, result_eq, outside, mode_eq⟩ :=
      Ground.exactRun_of_moves moves
    · exact .inl exactly
    · exact .inr ⟨k, x, a, r, earlier, run, result_eq, mt (inRange_iff r).mpr outside, mode_eq⟩

/-- The host calls the factorial with 14, with room for just the frames that are needed.  The
factorial of 13, which the activation next to the outermost computes at the 156th step, is the first
result that is out of range, so the call ends there with an abort and puts out nothing. -/
theorem arithmetic_is_exact_in_factorial :
    ∃ (g : Ground) (w v : World Activation) (task : Task Activation) (x : Snapshot Int) (k : Nat)
      (final : Task Activation),
      w.roster.taskAt .host = some (g.firstTask factorialLibrary factorialMethod [14]) ∧
        g.ExactRun factorialLibrary factorialMethod [14] 155 [] x ∧ x.callers.length = 1 ∧
        x.result? = some (.multiplyOverflow, 6227020800) ∧
        World.Solo (interpreter factorialLibrary) .host [] w v ∧ v.output = w.output ∧
        v.roster.taskAt .host = some task ∧ g.Mirrors task x ∧
        Task.Moves (interpreter factorialLibrary) [] (k + 1) task [] final ∧
        final.Concludes g.thread [] (.abort .multiplyOverflow) := by
  let I := interpreter factorialLibrary
  let thread : Thread := ⟨0, .main, 0, .intMachine, .empty 14, factorialMethod, [], 0⟩
  let g : Ground := ⟨thread, []⟩
  let built : World Activation :=
    ((World.ofRegistries 1 ConfigCell.fresh).build .main factorialMethod [] ⟨0, 14, .intMachine⟩).2
  have task_eq : (built.hostCall I 0 factorialMethod [Value.int 14]).roster.taskAt .host =
      some (g.firstTask factorialLibrary factorialMethod [14]) := rfl
  have computed : ((g.setting factorialLibrary).exactRun? 155
      ((g.setting factorialLibrary).enter factorialMethod [14] [])).map
        (fun done => (done.1, done.2.callers.length, done.2.result?)) =
      some ([], 1, some (.multiplyOverflow, 6227020800)) := by decide +kernel
  obtain ⟨⟨out, x⟩, run_eq, seen⟩ := Option.map_eq_some_iff.mp computed
  simp only [Prod.mk.injEq] at seen
  obtain ⟨rfl, depth_eq, result_eq⟩ := seen
  have run : g.ExactRun factorialLibrary factorialMethod [14] 155 [] x :=
    Setting.runs_of_exactRun? run_eq
  obtain ⟨emitted, task, v, _, solo, after, output_eq, silent, mirrors, _, _, aborts⟩ :=
    (arithmetic_is_exact factorialLibrary .host g factorialMethod [14] _ task_eq).1 155 [] x run
  obtain rfl := List.map_eq_nil_iff.mp silent
  obtain ⟨_, k, final, _, _, path, concludes⟩ := aborts _ _ result_eq (by decide)
  exact ⟨g, _, v, task, x, k, final, task_eq, run, depth_eq, result_eq, solo,
    output_eq.trans (List.append_nil _), after, mirrors, path, concludes⟩

end IntMachine

end ThreadEngine
