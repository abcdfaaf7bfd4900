import ThreadEngine.Proofs.FrameDiscipline
import ThreadEngine.Proofs.Shift

set_option autoImplicit false

/-!
# Runs of one context

A call in one context, while all others stand still and the world is needed for nothing but to put
out ints.  Such a call is a matter of its task alone: `Task.move` is its next step, and `Moves`
counts the steps and collects what is put out.

Calls nest.  The layers that wait for a call stay where they are until it is over
(`suffix_of_move`), so the steps of a nested call are steps of the outer call
(`Moves.outward`), and a call that ends has, for each nested call that it has begun, come to the end
of that one first (`Moves.split`).
-/

namespace ThreadEngine

namespace Task

variable {σ : Type} {I : Interpreter σ} {layers : List (Layer σ)} {task task' mid final : Task σ}
  {out out' : List Int32} {n k : Nat}

/-- The next step of a task that asks for nothing but to put out an int: what is put out, and the
task afterwards. -/
def move (I : Interpreter σ) (task : Task σ) : Option (List Int32 × Task σ) :=
  match task.request? with
  | none => (task.advance I).map fun next => ([], next.1)
  | some (.emit v) => some ([v], (task.answer I .done).1)
  | some _ => none

/-- Some steps of a call for some layers, until it is over at the latest. -/
inductive Moves (I : Interpreter σ) (layers : List (Layer σ)) :
    Nat → Task σ → List Int32 → Task σ → Prop
  | refl (task : Task σ) : Moves I layers 0 task [] task
  | head {n : Nat} {task task' final : Task σ} {out out' : List Int32}
      (going : ¬ task.Over layers) (moves : task.move I = some (out, task'))
      (rest : Moves I layers n task' out' final) : Moves I layers (n + 1) task (out ++ out') final

theorem Moves.trans (first : Moves I layers n task out mid)
    (second : Moves I layers k mid out' final) :
    Moves I layers (n + k) task (out ++ out') final := by
  induction first with
  | refl task => simpa using second
  | @head n task task' mid out₁ out₂ going moves rest ih =>
      rw [List.append_assoc, Nat.add_right_comm]
      exact .head going moves (ih second)

/-- A call that is over takes no steps. -/
theorem Moves.of_over (moves : Moves I layers n task out final) (finished : task.Over layers) :
    n = 0 ∧ out = [] ∧ final = task := by
  cases moves with
  | refl task => exact ⟨rfl, rfl, rfl⟩
  | head going moves rest => exact absurd finished going

/-- A call that is not over, and comes to its end, takes the one step that it can take. -/
theorem Moves.of_going (moves : Moves I layers n task out final) (finished : final.Over layers)
    (going : ¬ task.Over layers) {emitted : List Int32}
    (next : task.move I = some (emitted, task')) :
    ∃ k out', n = k + 1 ∧ out = emitted ++ out' ∧ Moves I layers k task' out' final := by
  cases moves with
  | refl task => exact absurd finished going
  | head going' moves' rest =>
      cases next.symm.trans moves'
      exact ⟨_, _, rfl, rfl, rest⟩

/-- A call takes the same steps again, and goes on from there to its end. -/
theorem Moves.cancel (first : Moves I layers n task out mid)
    (whole : Moves I layers k task out' final) (finished : final.Over layers) :
    ∃ j out₂, k = n + j ∧ out' = out ++ out₂ ∧ Moves I layers j mid out₂ final := by
  induction first generalizing k out' with
  | refl task => exact ⟨k, out', (Nat.zero_add k).symm, rfl, whole⟩
  | head going moves rest ih =>
      obtain ⟨k', out'', rfl, rfl, whole'⟩ := whole.of_going finished going moves
      obtain ⟨j, out₂, rfl, rfl, last⟩ := ih whole'
      refine ⟨j, out₂, ?_, ?_, last⟩
      · omega
      · rw [List.append_assoc]

/-- A call comes to one end at most. -/
theorem Moves.unique (first : Moves I layers n task out mid) (ended : mid.Over layers)
    (second : Moves I layers k task out' final) (finished : final.Over layers) :
    out = out' ∧ mid = final := by
  obtain ⟨j, rest, _, rfl, last⟩ := first.cancel second finished
  obtain ⟨_, rfl, rfl⟩ := last.of_over ended
  exact ⟨(List.append_nil out).symm, rfl⟩

/-! ## Layers -/

theorem suffix_turn (I : Interpreter σ) (task : Task σ) (s : σ) (depth : Nat) :
    task.layers <:+ (task.turn I s depth).1.layers := by
  rw [turn_fst]
  cases (I.act s task.thread).action with
  | proceed s' | ask s' r | abort a => exact List.suffix_refl _
  | call s' m args catches =>
      dsimp only
      rw [call_layers]
      exact List.suffix_cons _ _
  | start s' catches => exact (List.suffix_cons _ _).trans (suffix_start I _ _)
  | finish r =>
      dsimp only
      split
      · exact List.suffix_refl _
      · exact List.suffix_refl _

/-- What ends goes to the innermost layer, which then waits no more. -/
theorem layers_of_ending {layer : Layer σ} {rest : List (Layer σ)} {notes : List Note}
    (layers_eq : task.layers = layer :: rest)
    (ending : (∃ c, task.mode = .delivering c) ∨ ∃ a, task.mode = .unwinding a)
    (advances : task.advance I = some (task', notes)) : task'.layers = rest := by
  rcases ending with ⟨c, mode_eq⟩ | ⟨a, mode_eq⟩
  · simp only [advance, mode_eq, deliver, layers_eq] at advances
    cases layer with
    | activation s depth catches =>
        cases advances
        rfl
    | body g =>
        cases advances
        rfl
  · simp only [advance, mode_eq, unwind, layers_eq] at advances
    cases layer with
    | activation s depth catches =>
        cases catches with
        | false =>
            cases advances
            rfl
        | true =>
            cases advances
            rfl
    | body g =>
        cases advances
        rfl

/-- The layers that wait for a call stay where they are until it is over. -/
theorem suffix_of_move (kept : layers <:+ task.layers) (going : ¬ task.Over layers)
    (moves : task.move I = some (out, task')) : layers <:+ task'.layers := by
  unfold move at moves
  split at moves
  · obtain ⟨⟨next, notes⟩, advances, same⟩ := Option.map_eq_some_iff.mp moves
    cases same
    have popped (ending : (∃ c, task.mode = .delivering c) ∨ ∃ a, task.mode = .unwinding a) :
        layers <:+ next.layers := by
      cases layers_eq : task.layers with
      | nil =>
          rw [layers_eq] at kept
          cases List.suffix_nil.mp kept
          exact absurd ⟨layers_eq, ending⟩ going
      | cons layer rest =>
          rw [layers_of_ending layers_eq ending advances]
          rw [layers_eq] at kept
          rcases List.suffix_cons_iff.mp kept with whole | below
          · exact absurd ⟨layers_eq.trans whole.symm, ending⟩ going
          · exact below
    obtain ⟨s, depth, mode_eq, rfl⟩ | ⟨c, mode_eq, _⟩ | ⟨a, mode_eq, _⟩ := advance_cases advances
    · exact kept.trans (suffix_turn I task s depth)
    · exact popped (.inl ⟨c, mode_eq⟩)
    · exact popped (.inr ⟨a, mode_eq⟩)
  · rename_i v asks
    cases moves
    unfold request? at asks
    split at asks
    · rename_i s depth r mode_eq
      simpa [answer, mode_eq] using kept
    all_goals cases asks
  · cases moves

/-- While a layer waits for a nested call, the outer call is not over. -/
theorem not_over_of_suffix {layer : Layer σ} (kept : layer :: layers <:+ task.layers) :
    ¬ task.Over layers := by
  rintro ⟨layers_eq, _⟩
  have longer := kept.length_le
  rw [layers_eq, List.length_cons] at longer
  omega

/-- The steps of a nested call are steps of the outer call. -/
theorem Moves.outward {layer : Layer σ} (kept : layer :: layers <:+ task.layers)
    (moves : Moves I (layer :: layers) n task out mid) : Moves I layers n task out mid := by
  induction moves with
  | refl task => exact .refl task
  | head going moves rest ih =>
      exact .head (not_over_of_suffix kept) moves (ih (suffix_of_move kept going moves))

/-- A call that comes to its end comes to the end of each nested call that it has begun. -/
theorem Moves.split {layer : Layer σ} (kept : layer :: layers <:+ task.layers)
    (moves : Moves I layers n task out final) (finished : final.Over layers) :
    ∃ k j out₁ out₂ mid, n = k + j ∧ out = out₁ ++ out₂ ∧
      Moves I (layer :: layers) k task out₁ mid ∧ mid.Over (layer :: layers) ∧
      Moves I layers j mid out₂ final := by
  induction moves with
  | refl task => exact absurd finished (not_over_of_suffix kept)
  | @head n task task' final out₁ out₂ going moves rest ih =>
      by_cases ended : task.Over (layer :: layers)
      · exact ⟨0, n + 1, [], out₁ ++ out₂, task, (Nat.zero_add _).symm, rfl, .refl task, ended,
          .head going moves rest⟩
      · obtain ⟨k, j, out₃, out₄, mid, rfl, rfl, inner, over_mid, outer⟩ :=
          ih (suffix_of_move kept ended moves) finished
        refine ⟨k + 1, j, out₁ ++ out₃, out₄, mid, ?_, ?_, .head ended moves inner, over_mid, outer⟩
        · omega
        · rw [List.append_assoc]

end Task

namespace World

variable {σ : Type} {I : Interpreter σ} {c : Ctx} {layers : List (Layer σ)} {w v : World σ}
  {task task' final : Task σ} {out : List Int32} {n : Nat}

/-- Steps of one context alone, until its call for some layers is over at the latest. -/
def Solo (I : Interpreter σ) (c : Ctx) (layers : List (Layer σ)) : World σ → World σ → Prop :=
  Relation.ReflTransGen fun w v =>
    (∃ task, w.roster.taskAt c = some task ∧ ¬ task.Over layers) ∧ w.step I c = some v

/-- A task that moves needs nothing from the world but that its ints are put out. -/
theorem stepTask_of_move (w : World σ) (c : Ctx) (store : World σ → Task σ → World σ)
    (moves : task.move I = some (out, task')) :
    ∃ u notes, w.stepTask I c task store = some ((store u task').note c notes) ∧
      u.roster = w.roster ∧ u.output = w.output ++ out := by
  unfold Task.move at moves
  unfold stepTask
  split at moves
  · rename_i asks
    obtain ⟨⟨next, notes⟩, advances, same⟩ := Option.map_eq_some_iff.mp moves
    cases same
    exact ⟨w, notes, by simp [asks, advances], rfl, (List.append_nil _).symm⟩
  · rename_i v asks
    cases moves
    refine ⟨{ w with output := w.output ++ [v] }, (task.answer I .done).2, ?_, rfl, rfl⟩
    simp [asks, serve]
  · cases moves

/-- A task that moves, and is not over by that, moves in its context. -/
theorem step_of_move (task_eq : w.roster.taskAt c = some task)
    (moves : task.move I = some (out, task')) (stays : task'.completion? = none) :
    ∃ v, w.step I c = some v ∧ v.roster.taskAt c = some task' ∧ v.output = w.output ++ out := by
  cases c with
  | host =>
      cases host_eq : w.host with
      | running slot old =>
          have same : old = task := by
            simpa [Roster.taskAt, roster, host_eq, Host.task?] using task_eq
          subst same
          obtain ⟨u, notes, step_eq, _, output_eq⟩ := stepTask_of_move w .host
            (fun w' task' => { w' with host := .running slot task' }) moves
          refine ⟨({ u with host := .running slot task' } : World σ).note .host notes, ?_, rfl,
            output_eq⟩
          simp only [step, stepHost, host_eq]
          exact step_eq
      | idle | waiting r | waited b => simp [Roster.taskAt, roster, host_eq, Host.task?] at task_eq
  | body t =>
      obtain ⟨launch, launch_eq, running⟩ := Roster.launch_of_taskAt task_eq
      obtain ⟨s, strand_eq, rfl⟩ : ∃ s, w.strands[t]? = some s ∧ s.launchState = launch := by
        rwa [launches_getElem?, Option.map_eq_some_iff] at launch_eq
      have child_eq : s.child = some (.running task) := running
      obtain ⟨u, notes, step_eq, roster_eq, output_eq⟩ := stepTask_of_move w (.body t)
        (fun w' task' => storeChild t w' (Child.ofTask task')) moves
      refine ⟨(storeChild t u (Child.ofTask task')).note (.body t) notes, ?_, ?_, output_eq⟩
      · simp only [step, stepBody, strand_eq, child_eq]
        exact step_eq
      · rw [roster_note, roster_storeChild, roster_eq]
        simp [Roster.taskAt, Roster.modify, launch_eq, Child.ofTask, stays, Child.task?]
  | creator t => cases task_eq

/-- A property of tasks that a call keeps until it is over, and that lets it take its next step. -/
structure Steady (I : Interpreter σ) (layers : List (Layer σ)) (P : Task σ → Prop) : Prop where
  moves : ∀ task, P task → ¬ task.Over layers →
    ∃ out task', task.move I = some (out, task') ∧ P task'
  stays : ∀ task, P task → task.completion? = none

/-- What a task does by itself, its context does alone. -/
theorem Steady.solo {P : Task σ → Prop} (steady : Steady I layers P)
    (moves : Task.Moves I layers n task out final) (holds : P task)
    (task_eq : w.roster.taskAt c = some task) :
    ∃ v, Solo I c layers w v ∧ v.roster.taskAt c = some final ∧ v.output = w.output ++ out := by
  induction moves generalizing w with
  | refl task => exact ⟨w, .refl, task_eq, (List.append_nil _).symm⟩
  | @head n task task' final out out' going move_eq rest ih =>
      obtain ⟨_, _, move_eq', holds'⟩ := steady.moves task holds going
      cases move_eq.symm.trans move_eq'
      obtain ⟨u, step_eq, task_eq', output_eq⟩ :=
        step_of_move task_eq move_eq (steady.stays task' holds')
      obtain ⟨v, solo, final_eq, output_eq'⟩ := ih holds' task_eq'
      refine ⟨v, .head ⟨⟨task, task_eq, going⟩, step_eq⟩ solo, final_eq, ?_⟩
      rw [output_eq', output_eq, List.append_assoc]

/-- What a context does alone, its task does by itself. -/
theorem Steady.moves_of_solo {P : Task σ → Prop} (steady : Steady I layers P)
    (solo : Solo I c layers w v) (holds : P task) (task_eq : w.roster.taskAt c = some task) :
    ∃ n out final, Task.Moves I layers n task out final ∧ P final ∧
      v.roster.taskAt c = some final ∧ v.output = w.output ++ out := by
  induction solo using Relation.ReflTransGen.head_induction_on generalizing task with
  | refl => exact ⟨0, [], task, .refl task, holds, task_eq, (List.append_nil _).symm⟩
  | @head w u first rest ih =>
      obtain ⟨⟨task₀, task_eq₀, going⟩, step_eq⟩ := first
      cases task_eq₀.symm.trans task_eq
      obtain ⟨out, task', move_eq, holds'⟩ := steady.moves task holds going
      obtain ⟨u', step_eq', task_eq', output_eq⟩ :=
        step_of_move task_eq move_eq (steady.stays task' holds')
      cases step_eq.symm.trans step_eq'
      obtain ⟨n, out', final, moves, holdsFinal, final_eq, output_eq'⟩ := ih holds' task_eq'
      refine ⟨n + 1, out ++ out', final, .head going move_eq moves, holdsFinal, final_eq, ?_⟩
      rw [output_eq', output_eq, List.append_assoc]

end World

end ThreadEngine
