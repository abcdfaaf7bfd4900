import ThreadEngine.Proofs.CallInputs
import ThreadEngine.Proofs.CallEntry
import Mathlib.Order.Defs.Unbundled

set_option autoImplicit false

/-!
# Depth limits

A call of the int machine under two limits on the depth of the frame stack.  Nothing but the entry
phase of a call looks at the limit, so under both limits the task takes the same steps until a call
is refused under the lower one (`Tracks`, `move_tracks`).  From there on the lower run does nothing
but pass the error on to the end (`Within.fails`): no activation handles an error of a call that it
makes.

So the lower run is the higher one, or is cut off (`limit_cuts_off`).
-/

namespace ThreadEngine

/-- The same thread under another limit on its frames. -/
def Thread.withLimit (t : Thread) (limit : Nat) : Thread :=
  { t with frames := { t.frames with maxDepth := limit } }

theorem Thread.revise_withLimit (t : Thread) (limit pc : Nat) (frame : Option Frame) :
    (t.withLimit limit).revise pc frame = (t.revise pc frame).withLimit limit := by
  obtain ⟨id, kind, registry, dialect, ⟨frames, maxDepth⟩, method, args, pc'⟩ := t
  cases frame with
  | none => rfl
  | some f => cases frames <;> rfl

theorem Thread.leave_withLimit (t : Thread) (limit depth : Nat) :
    (t.withLimit limit).leave depth = (t.leave depth).map (·.withLimit limit) := by
  have frames_eq : (t.withLimit limit).frames.frames = t.frames.frames := rfl
  unfold leave
  rw [frames_eq]
  cases t.frames.frames with
  | nil => rfl
  | cons callee rest =>
      by_cases same : rest.length = depth
      · simp only [same, if_true]
        rfl
      · simp only [same, if_false]
        rfl

namespace Task

variable {σ : Type}

/-- The same task under another limit on the frames of its thread. -/
def withLimit (task : Task σ) (limit : Nat) : Task σ :=
  { task with thread := task.thread.withLimit limit }

theorem deliver_withLimit (I : Interpreter σ) (task : Task σ) (c : Completion) (limit : Nat) :
    ((task.withLimit limit).deliver I c).1 = (task.deliver I c).1.withLimit limit := by
  have layers_eq : (task.withLimit limit).layers = task.layers := rfl
  unfold deliver
  rw [layers_eq]
  rcases task.layers with _ | ⟨⟨s, depth, catches⟩ | ⟨g⟩, rest⟩
  · rfl
  · rfl
  · rfl

theorem unwind_withLimit (I : Interpreter σ) (task : Task σ) (a : Abort) (limit : Nat) :
    (task.withLimit limit).unwind I a = (task.unwind I a).withLimit limit := by
  have layers_eq : (task.withLimit limit).layers = task.layers := rfl
  unfold unwind
  rw [layers_eq]
  rcases task.layers with _ | ⟨⟨s, depth, catches⟩ | ⟨g⟩, rest⟩
  · rfl
  · cases catches <;> rfl
  · rfl

/-- A call has been refused for lack of frames under a limit, and those who wait are told. -/
def Overflows (task : Task σ) (limit : Nat) : Prop :=
  task.mode = .delivering (.returned (.error (.stackOverflow limit)))

/-- Two tasks are the same but for their limits, unless a call has just been refused under the lower
one. -/
def Tracks (d d' : Nat) (low high : Task σ) : Prop :=
  ∃ task : Task σ, low = task.withLimit d ∧ (high = task.withLimit d' ∨ low.Overflows d)

theorem Tracks.same {d d' : Nat} (task : Task σ) :
    Tracks d d' (task.withLimit d) (task.withLimit d') := ⟨task, rfl, .inl rfl⟩

end Task

namespace IntMachine

variable {lib : Library} {thread : Thread} {layers : List (Layer Activation)} {d d' : Nat}
  {task low high : Task Activation} {out : List Int32} {n : Nat}

/-! ## Steps under two limits -/

/-- The entry phase of a call is the same, unless there is room under the higher limit only. -/
theorem call_tracks (lib : Library) (thread : Thread) (layers : List (Layer Activation))
    (m : MethodRef) (args : List Value) (le : d ≤ d') :
    Task.Tracks d d' (Task.call (interpreter lib) (thread.withLimit d) layers m args).1
      (Task.call (interpreter lib) (thread.withLimit d') layers m args).1 := by
  rw [Task.call_fst, Task.call_fst, enter_snd, enter_snd]
  cases prepare m args with
  | error e => exact .same ⟨thread, layers, .delivering (.returned (.error e))⟩
  | abort a => exact .same ⟨thread, layers, .unwinding a⟩
  | ok locals =>
      have depth_eq (limit : Nat) : (thread.withLimit limit).depth = thread.depth := rfl
      have limit_eq (limit : Nat) : (thread.withLimit limit).frames.maxDepth = limit := rfl
      simp only [depth_eq, limit_eq]
      by_cases room : thread.depth < d
      · have room' : thread.depth < d' := Nat.lt_of_lt_of_le room le
        simp only [room, room', if_true]
        let inside := (Site.ofCall thread [] m locals []).inside 0 []
        exact .same ⟨inside, layers, .acting ((interpreter lib).enter inside) thread.depth⟩
      · simp only [room, if_false]
        exact ⟨⟨thread, layers, .delivering (.returned (.error (.stackOverflow d)))⟩, rfl, .inr rfl⟩

theorem turn_tracks (lib : Library) (task : Task Activation) (s : Activation) (depth : Nat)
    (le : d ≤ d') :
    Task.Tracks d d' ((task.withLimit d).turn (interpreter lib) s depth).1
      ((task.withLimit d').turn (interpreter lib) s depth).1 := by
  have act_eq (limit : Nat) : (interpreter lib).act s (task.withLimit limit).thread =
      (interpreter lib).act s task.thread := rfl
  have plain := (isBlind_interpreter lib).never_starts s task.thread
  rw [Task.turn_fst, Task.turn_fst, act_eq, act_eq]
  generalize (interpreter lib).act s task.thread = turn at plain
  have revised (limit : Nat) : (task.withLimit limit).thread.revise turn.pc turn.frame =
      (task.thread.revise turn.pc turn.frame).withLimit limit :=
    task.thread.revise_withLimit limit turn.pc turn.frame
  dsimp only
  rw [revised, revised]
  generalize task.thread.revise turn.pc turn.frame = thread
  cases action_eq : turn.action with
  | proceed s' => exact .same ⟨thread, task.layers, .acting s' depth⟩
  | ask s' r => exact .same ⟨thread, task.layers, .asking s' depth r⟩
  | abort a => exact .same ⟨thread, task.layers, .unwinding a⟩
  | call s' m args catches =>
      exact call_tracks lib thread (.activation s' depth catches :: task.layers) m args le
  | start s' catches => exact absurd action_eq (plain s' catches)
  | finish r =>
      dsimp only
      rw [thread.leave_withLimit, thread.leave_withLimit]
      cases thread.leave depth with
      | none => exact .same ⟨thread, task.layers, .unwinding (.invariant .unbalancedFrames)⟩
      | some thread' => exact .same ⟨thread', task.layers, .delivering (.returned r)⟩

/-- Under two limits a task takes the same step, unless a call is refused under the lower one. -/
theorem move_tracks (le : d ≤ d')
    (moves : (task.withLimit d).move (interpreter lib) = some (out, low)) :
    ∃ high, (task.withLimit d').move (interpreter lib) = some (out, high) ∧
      Task.Tracks d d' low high := by
  obtain ⟨s, depth, mode_eq, rfl, rfl⟩ | ⟨c, mode_eq, rfl, rfl⟩ | ⟨a, mode_eq, rfl, rfl⟩ |
    ⟨s, depth, v, mode_eq, rfl, rfl⟩ := Task.move_cases moves
  · have mode_eq' : (task.withLimit d').mode = .acting s depth := mode_eq
    refine ⟨((task.withLimit d').turn (interpreter lib) s depth).1, ?_,
      turn_tracks lib task s depth le⟩
    simp [Task.move, Task.request?, Task.advance, mode_eq']
  · have mode_eq' : (task.withLimit d').mode = .delivering c := mode_eq
    refine ⟨((task.withLimit d').deliver (interpreter lib) c).1, ?_, ?_⟩
    · simp [Task.move, Task.request?, Task.advance, mode_eq']
    · rw [Task.deliver_withLimit, Task.deliver_withLimit]
      exact .same _
  · have mode_eq' : (task.withLimit d').mode = .unwinding a := mode_eq
    refine ⟨(task.withLimit d').unwind (interpreter lib) a, ?_, ?_⟩
    · simp [Task.move, Task.request?, Task.advance, mode_eq']
    · rw [Task.unwind_withLimit, Task.unwind_withLimit]
      exact .same _
  · have mode_eq' : (task.withLimit d').mode = .asking s depth (.emit v) := mode_eq
    let next : Task Activation :=
      ⟨task.thread, task.layers, .acting ((interpreter lib).receive s .done) depth⟩
    refine ⟨next.withLimit d', ?_, .same next⟩
    simp only [Task.move, Task.request?, mode_eq', Task.answer, Task.threadAfter]
    rfl

/-! ## Runs under two limits -/

/-- An error that is handed back gets to the end of the call: nobody handles it, and nothing is put
out on the way. -/
theorem Within.fails (within : Within lib thread layers task) {e : Error}
    (mode_eq : task.mode = .delivering (.returned (.error e))) :
    ∃ n final, Task.Moves (interpreter lib) layers n task [] final ∧
      final.Concludes thread layers (.error e) := by
  induction within with
  | @ended thread layers task o concludes =>
      refine ⟨0, task, .refl task, ?_⟩
      cases o with
      | ok r =>
          cases concludes
          cases mode_eq
      | error e' =>
          cases concludes
          cases mode_eq
          rfl
      | abort a => cases concludes.2.symm.trans mode_eq
  | stuck layers_eq other => cases mode_eq.symm.trans other
  | ready site known pc ints | called site known r pc ints | emitting site known v pc ints =>
      cases mode_eq
  | @nested site known pc ints task inner ih =>
      obtain ⟨n, mid, path, concluded⟩ := ih mode_eq
      obtain ⟨k, final, resumed, leads⟩ := Site.moves_of_concluded lib concluded
      exact ⟨n + (k + 1), final, (path.outward inner.suffix).trans resumed, leads⟩

/-- What a task does under the lower limit until it ends, it does under the higher one, or the end
is that a call was refused. -/
theorem moves_raised (le : d ≤ d') (within : Within lib thread layers (task.withLimit d))
    {final : Task Activation}
    (moves : Task.Moves (interpreter lib) layers n (task.withLimit d) out final)
    (finished : final.Over layers) :
    (∃ task' : Task Activation, final = task'.withLimit d ∧
        Task.Moves (interpreter lib) layers n (task.withLimit d') out (task'.withLimit d')) ∨
      (final.Concludes thread layers (.error (.stackOverflow d)) ∧
        ∃ k other, Task.Moves (interpreter lib) layers k (task.withLimit d') out other) := by
  induction n generalizing task out with
  | zero =>
      cases moves
      exact .inl ⟨task, rfl, .refl _⟩
  | succ n ih =>
      cases moves with
      | @head _ _ next _ emitted rest_out going move_eq rest =>
          obtain ⟨_, _, move_eq', within'⟩ := within.moves going
          cases move_eq.symm.trans move_eq'
          have going' : ¬ (task.withLimit d').Over layers := going
          obtain ⟨high, raised, task₁, rfl, rfl | overflows⟩ := move_tracks le move_eq
          · obtain ⟨task', rfl, path⟩ | ⟨concludes, k, other, path⟩ := ih within' rest
            · exact .inl ⟨task', rfl, .head going' raised path⟩
            · exact .inr ⟨concludes, k + 1, other, .head going' raised path⟩
          · obtain ⟨j, final', path, concludes⟩ := within'.fails overflows
            obtain ⟨rfl, rfl⟩ := path.unique concludes.isOver rest finished
            exact .inr ⟨concludes, 1, high, .head going' raised (.refl high)⟩

/-- What a task does under the higher limit, it does under the lower one, unless that run ends
because a call was refused. -/
theorem moves_lowered (le : d ≤ d') (within : Within lib thread layers (task.withLimit d))
    {final : Task Activation}
    (moves : Task.Moves (interpreter lib) layers n (task.withLimit d') out final) :
    (∃ task' : Task Activation, final = task'.withLimit d' ∧
        Task.Moves (interpreter lib) layers n (task.withLimit d) out (task'.withLimit d)) ∨
      ∃ k out' final', Task.Moves (interpreter lib) layers k (task.withLimit d) out' final' ∧
        final'.Concludes thread layers (.error (.stackOverflow d)) := by
  induction n generalizing task out with
  | zero =>
      cases moves
      exact .inl ⟨task, rfl, .refl _⟩
  | succ n ih =>
      cases moves with
      | head going move_eq rest =>
          have going' : ¬ (task.withLimit d).Over layers := going
          obtain ⟨emitted, low, lowered, within'⟩ := within.moves going'
          obtain ⟨high, move_eq', task₁, rfl, rfl | overflows⟩ := move_tracks le lowered
          · cases move_eq.symm.trans move_eq'
            obtain ⟨task', rfl, path⟩ | ⟨k, out', final', path, concludes⟩ := ih within' rest
            · exact .inl ⟨task', rfl, .head going' lowered path⟩
            · exact .inr ⟨k + 1, _, final', .head going' lowered path, concludes⟩
          · obtain ⟨j, final', path, concludes⟩ := within'.fails overflows
            exact .inr ⟨j + 1, _, final', .head going' lowered path, concludes⟩

/-! ## The limit that an error shows -/

theorem prepare_ne_overflow (m : MethodRef) (args : List Value) (limit : Nat) :
    prepare m args ≠ .error (.stackOverflow limit) := by
  unfold prepare
  by_cases many : m.method.maxLocals < args.length
  · simp [many]
  · rw [Frame.allocate_eq]
    by_cases fits : m.method.maxLocals < Nat.pow 2 59 ∧ m.method.maxStack < Nat.pow 2 59
    · have locals_eq : (Frame.ofSizes m.method.maxLocals m.method.maxStack).locals =
          .ofSize m.method.maxLocals := rfl
      simp only [many, fits, and_self, if_true, if_false, locals_eq]
      obtain ⟨_, copied, _⟩ | ⟨i, kind, _, aborts⟩ :=
        m.method.marshal_ofSize (Nat.le_of_not_lt many)
      · simp [copied]
      · simp [aborts]
    · simp [many, fits]

/-- An effect may be the end of an activation for lack of frames, but only under one limit. -/
def Effect.Limited (limit : Nat) (e : Effect) : Prop :=
  ∀ limit', e = .ends (.error (.stackOverflow limit')) → limit' = limit

namespace Scope

theorem put_limited (sc : Scope) (limit pc : Nat) (ints : List Int32) (v : Int32) :
    (sc.put pc ints v).Limited limit := by
  intro limit' ends
  unfold put at ends
  split at ends <;> cases ends

theorem combine_limited (sc : Scope) (limit pc : Nat) (op : Int → Int → Int) (overflow : Abort)
    (ints : List Int32) : (sc.combine pc op overflow ints).Limited limit := by
  unfold combine
  split
  · split
    · exact sc.put_limited limit _ _ _
    · rintro limit' ⟨⟩
  · rintro limit' ⟨⟩

/-- No instruction is the end of its activation for lack of frames. -/
theorem effect_limited (lib : Library) (sc : Scope) (limit pc : Nat) (ints : List Int32) :
    (sc.effect lib pc ints).Limited limit := by
  unfold effect
  split
  · rintro limit' ⟨⟩
  · rename_i op _
    cases op with
    | const v => exact sc.put_limited limit _ _ _
    | load i =>
        simp only [execute]
        split
        · exact sc.put_limited limit _ _ _
        · rintro limit' ⟨⟩
    | sub | mul => exact sc.combine_limited limit _ _ _ _
    | ifGreater target | invoke name | emit | returnInt =>
        simp only [execute]
        split <;> rintro limit' ⟨⟩
    | returnNothing => rintro limit' ⟨⟩

/-- An activation ends for lack of frames if a call that it makes does. -/
theorem resume_limited (sc : Scope) {limit : Nat} (pc : Nat) (ints : List Int32)
    {r : Outcome (Option Value)} (limited : ∀ limit', r = .error (.stackOverflow limit') →
      limit' = limit) : (sc.resume pc ints r).Limited limit := by
  unfold resume
  split
  · split
    · exact sc.put_limited limit _ _ _
    · rintro limit' ⟨⟩
  · rintro limit' ⟨⟩
  · rintro limit' ⟨⟩
    exact limited limit' rfl
  · rintro limit' ⟨⟩

end Scope

/-- An activation that ends for lack of frames shows the limit that its calls show. -/
theorem Yields.limit_eq
    {callee : MethodRef → List Value → List Int32 → Outcome (Option Value) → Prop} {sc : Scope}
    {e : Effect} {o : Outcome (Option Value)} {limit limit' : Nat}
    (calls : ∀ m args out limit', callee m args out (.error (.stackOverflow limit')) →
      limit' = limit)
    (yields : Yields lib callee sc e out o) (limited : e.Limited limit)
    (overflow : o = .error (.stackOverflow limit')) : limit' = limit := by
  induction yields with
  | ends o => exact limited limit' (by rw [overflow])
  | goes rest ih | puts rest ih => exact ih (sc.effect_limited lib limit _ _) overflow
  | calls call rest ih =>
      refine ih (sc.resume_limited _ _ ?_) overflow
      rintro limit'' rfl
      exact calls _ _ _ _ call

/-- A call that ends for lack of frames shows the limit of its thread. -/
theorem Evaluates.limit_eq {limit limit' budget : Nat} {m : MethodRef} {args : List Value}
    (evaluates : Evaluates lib limit budget m args out (.error (.stackOverflow limit'))) :
    limit' = limit := by
  induction budget using Nat.strongRecOn generalizing m args out limit' with
  | ind budget ih =>
      rw [Evaluates.eq_def] at evaluates
      cases prepared : prepare m args with
      | error e =>
          simp only [prepared] at evaluates
          obtain rfl := Outcome.error.inj evaluates.2
          exact absurd prepared (prepare_ne_overflow m args limit')
      | abort a =>
          simp only [prepared] at evaluates
          cases evaluates.2
      | ok locals =>
          cases budget with
          | zero =>
              simp only [prepared] at evaluates
              exact Error.stackOverflow.inj (Outcome.error.inj evaluates.2)
          | succ budget =>
              simp only [prepared] at evaluates
              split at evaluates
              · cases evaluates.2
              · refine Yields.limit_eq ?_ evaluates nofun rfl
                intro m args out limit' call
                exact ih budget (Nat.lt_succ_self budget) call

/-! ## Calls under two limits -/

theorem concludes_withLimit {o : Outcome (Option Value)}
    (concludes : (task.withLimit d).Concludes (thread.withLimit d) layers o) (d' : Nat) :
    (task.withLimit d').Concludes (thread.withLimit d') layers o := by
  cases o with
  | ok r | error e => exact congrArg (Task.withLimit · d') concludes
  | abort a => exact concludes

section Calls

variable {m : MethodRef} {args : List Value} {final : Task Activation} {o : Outcome (Option Value)}

/-- A call that ends under the lower limit ends in the same way under the higher one, or has been
cut off: what it has put out by then, it also puts out first under the higher one. -/
theorem call_raised (le : d ≤ d')
    (moves : Task.Moves (interpreter lib) layers n
      (Task.call (interpreter lib) (thread.withLimit d) layers m args).1 out final)
    (concludes : final.Concludes (thread.withLimit d) layers o) :
    (∃ n final', Task.Moves (interpreter lib) layers n
        (Task.call (interpreter lib) (thread.withLimit d') layers m args).1 out final' ∧
        final'.Concludes (thread.withLimit d') layers o) ∨
      (o = .error (.stackOverflow d) ∧ ∃ k other, Task.Moves (interpreter lib) layers k
        (Task.call (interpreter lib) (thread.withLimit d') layers m args).1 out other) := by
  have within := within_call lib (thread.withLimit d) layers m args
  obtain ⟨task, low_eq, high_eq | overflows⟩ := call_tracks lib thread layers m args le
  · rw [low_eq] at moves within
    rw [high_eq]
    obtain ⟨task', rfl, path⟩ | ⟨cut, k, other, path⟩ :=
      moves_raised le within moves concludes.isOver
    · exact .inl ⟨n, task'.withLimit d', path, concludes_withLimit concludes d'⟩
    · exact .inr ⟨concludes.unique cut, k, other, path⟩
  · obtain ⟨j, final', path, cut⟩ := within.fails overflows
    obtain ⟨rfl, rfl⟩ := path.unique cut.isOver moves concludes.isOver
    exact .inr ⟨concludes.unique cut, 0, _, .refl _⟩

/-- A call that ends under the higher limit ends under the lower one, in the same way or cut off. -/
theorem call_lowered (le : d ≤ d')
    (moves : Task.Moves (interpreter lib) layers n
      (Task.call (interpreter lib) (thread.withLimit d') layers m args).1 out final)
    (concludes : final.Concludes (thread.withLimit d') layers o) :
    ∃ o', (o' = o ∨ o' = .error (.stackOverflow d)) ∧
      ∃ n out' final', Task.Moves (interpreter lib) layers n
        (Task.call (interpreter lib) (thread.withLimit d) layers m args).1 out' final' ∧
        final'.Concludes (thread.withLimit d) layers o' := by
  have within := within_call lib (thread.withLimit d) layers m args
  obtain ⟨task, low_eq, high_eq | overflows⟩ := call_tracks lib thread layers m args le
  · rw [high_eq] at moves
    rw [low_eq] at within ⊢
    obtain ⟨task', rfl, path⟩ | ⟨k, out', final', path, cut⟩ := moves_lowered le within moves
    · exact ⟨o, .inl rfl, n, out, task'.withLimit d, path, concludes_withLimit concludes d⟩
    · exact ⟨_, .inr rfl, k, out', final', path, cut⟩
  · obtain ⟨j, final', path, cut⟩ := within.fails overflows
    exact ⟨_, .inr rfl, j, [], final', path, cut⟩

end Calls

/-- A limit on the depth of the frame stack does nothing but cut runs off.  Let a context begin the
same call in some worlds, one for each limit, and let it come to an end under one of them, alone.
If the call has not run out of frames, it comes to the same end under every higher limit.  If it
has, then the error shows its limit, and under every higher limit the call puts out the same ints
first.  A call that runs out of frames under some limit does so under every lower one. -/
theorem limit_cuts_off (lib : Library) (c : Ctx) (thread : Thread)
    (layers : List (Layer Activation)) (m : MethodRef) (args : List Value)
    (w : Nat → World Activation)
    (begun : ∀ d, (w d).roster.taskAt c =
      some (Task.call (interpreter lib) (thread.withLimit d) layers m args).1) :
    (∀ d d' out o, d ≤ d' → Completes lib c (thread.withLimit d) layers (w d) out o →
        ((∀ limit, o ≠ .error (.stackOverflow limit)) →
          Completes lib c (thread.withLimit d') layers (w d') out o) ∧
        ∀ limit, o = .error (.stackOverflow limit) →
          limit = d ∧
          (∃ v, World.Solo (interpreter lib) c layers (w d') v ∧
            v.output = (w d').output ++ out) ∧
          ∀ out' o', Completes lib c (thread.withLimit d') layers (w d') out' o' → out <+: out') ∧
      IsLowerSet {d | ∃ out limit,
        Completes lib c (thread.withLimit d) layers (w d) out (.error (.stackOverflow limit))} := by
  refine ⟨?_, ?_⟩
  · intro d d' out o le completes
    obtain ⟨n, final, moves, concludes⟩ := (completes_iff_moves (begun d)).mp completes
    have raised := call_raised le moves concludes
    refine ⟨fun other => ?_, ?_⟩
    · obtain same | ⟨overflow, _⟩ := raised
      · exact (completes_iff_moves (begun d')).mpr same
      · exact absurd overflow (other d)
    · rintro limit rfl
      have ⟨k, mid, path⟩ : ∃ k mid, Task.Moves (interpreter lib) layers k
          (Task.call (interpreter lib) (thread.withLimit d') layers m args).1 out mid := by
        obtain ⟨k, mid, path, _⟩ | ⟨_, k, mid, path⟩ := raised
        · exact ⟨k, mid, path⟩
        · exact ⟨k, mid, path⟩
      refine ⟨?_, ?_, ?_⟩
      · obtain ⟨o, evaluates, concludes'⟩ := evaluates_of_moves rfl moves concludes.isOver
        obtain rfl := concludes.unique concludes'
        exact evaluates.limit_eq
      · have steady := Within.steady lib (thread.withLimit d') layers
        have within := within_call lib (thread.withLimit d') layers m args
        obtain ⟨v, solo, _, output_eq⟩ := steady.solo path within (begun d')
        exact ⟨v, solo, output_eq⟩
      · intro out' o' completes'
        obtain ⟨n', final', moves', concludes'⟩ := (completes_iff_moves (begun d')).mp completes'
        obtain ⟨j, rest, _, rfl, _⟩ := path.cancel moves' concludes'.isOver
        exact List.prefix_append out rest
  · rintro d' d le ⟨out, limit, completes⟩
    obtain ⟨n, final, moves, concludes⟩ := (completes_iff_moves (begun d')).mp completes
    obtain ⟨o', rfl | rfl, k, out', final', path, ends⟩ := call_lowered le moves concludes
    · exact ⟨out', limit, (completes_iff_moves (begun d)).mpr ⟨k, final', path, ends⟩⟩
    · exact ⟨out', d, (completes_iff_moves (begun d)).mpr ⟨k, final', path, ends⟩⟩

/-- A method that hands back its argument. -/
def echoMethod : MethodRef :=
  ⟨⟨"echo", "(I)I", true, false, 1, declaredStack, [.int], .int⟩, none⟩

/-- A method that puts out an int, and then another one that it gets from a call. -/
def relayMethod : MethodRef := ⟨⟨"relay", "()V", true, false, 0, declaredStack, [], .void⟩, none⟩

/-- Both methods. -/
def relayLibrary : Library :=
  [⟨echoMethod, [.load 0, .returnInt]⟩,
    ⟨relayMethod, [.const 5, .emit, .const 2, .invoke "echo", .emit, .returnNothing]⟩]

theorem evaluates_relay_refused :
    Evaluates relayLibrary 1 1 relayMethod [] [5] (.error (.stackOverflow 1)) := by
  have refused : Evaluates relayLibrary 1 0 echoMethod [Value.int 2] []
      (.error (.stackOverflow 1)) := ⟨rfl, rfl⟩
  refine .goes (.goes (.puts (.goes ?_)))
  exact .calls refused (.ends _)

theorem evaluates_relay : Evaluates relayLibrary 2 2 relayMethod [] [5, 2] (.ok none) := by
  have echoed : Evaluates relayLibrary 2 1 echoMethod [Value.int 2] []
      (.ok (some (Value.int 2))) := .goes (.goes (.ends _))
  refine .goes (.goes (.puts (.goes ?_)))
  exact .calls echoed (.goes (.puts (.ends _)))

/-- The host calls the method that makes a call, under every limit.  With room for one frame it is
cut off between the two ints, and without any room before the first; with room for two frames it
comes to its end, and so it does under every higher limit. -/
theorem limit_cuts_off_between_two_ints :
    ∃ (thread : Thread) (w : Nat → World Activation),
      (∀ d, (w d).roster.taskAt .host =
        some (Task.call (interpreter relayLibrary) (thread.withLimit d) [] relayMethod []).1) ∧
      Completes relayLibrary .host (thread.withLimit 1) [] (w 1) [5] (.error (.stackOverflow 1)) ∧
      (∃ out limit, Completes relayLibrary .host (thread.withLimit 0) [] (w 0) out
        (.error (.stackOverflow limit))) ∧
      (∀ out o, Completes relayLibrary .host (thread.withLimit 2) [] (w 2) out o → [5] <+: out) ∧
      ∀ d, 2 ≤ d →
        Completes relayLibrary .host (thread.withLimit d) [] (w d) [5, 2] (.ok none) := by
  let I := interpreter relayLibrary
  let thread : Thread := ⟨0, .main, 0, .intMachine, .empty 0, relayMethod, [], 0⟩
  let w (d : Nat) : World Activation :=
    ((World.ofRegistries 1 ConfigCell.fresh).build .main relayMethod []
      ⟨0, d, .intMachine⟩).2.hostCall I 0 relayMethod []
  have begun (d : Nat) : (w d).roster.taskAt .host =
      some (Task.call I (thread.withLimit d) [] relayMethod []).1 := rfl
  have refused : Completes relayLibrary .host (thread.withLimit 1) [] (w 1) [5]
      (.error (.stackOverflow 1)) :=
    (completes_iff_moves (begun 1)).mpr (moves_of_evaluates rfl evaluates_relay_refused)
  have returned : Completes relayLibrary .host (thread.withLimit 2) [] (w 2) [5, 2] (.ok none) :=
    (completes_iff_moves (begun 2)).mpr (moves_of_evaluates rfl evaluates_relay)
  obtain ⟨raised, lower⟩ := limit_cuts_off relayLibrary .host thread [] relayMethod [] w begun
  refine ⟨thread, w, begun, refused, lower (Nat.zero_le 1) ⟨[5], 1, refused⟩, ?_, ?_⟩
  · exact ((raised 1 2 [5] _ (by decide) refused).2 1 rfl).2.2
  · intro d le
    exact (raised 2 d [5, 2] _ le returned).1 nofun

end IntMachine

end ThreadEngine
