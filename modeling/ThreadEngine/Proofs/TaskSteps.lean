import ThreadEngine.Body.Task

set_option autoImplicit false

/-!
# Steps of tasks, opened up

The two ends of a call, what a local step of a task can be, and what waits while a call or a start
goes on.
-/

namespace ThreadEngine

namespace Thread

/-- A call that gets past its checks has pushed one frame, which resumes at the caller's program
counter. -/
theorem enter_entered {t t' : Thread} {m : MethodRef} {args : List Value}
    (h : (t.enter m args).2 = .entered t') :
    ∃ callee : Frame, callee.returnPc = t.pc ∧
      t' = { t with frames := { t.frames with frames := callee :: t.frames.frames }, pc := 0 } := by
  unfold enter at h
  split at h
  · cases h
  · split at h
    · cases h
    · rename_i blank _
      dsimp only at h
      split at h
      · cases h
      · cases h
      · unfold FrameStack.push at h
        split at h
        · cases h
        · rename_i frames pushed
          split at pushed
          · cases pushed
            cases h
            exact ⟨_, rfl, rfl⟩
          · cases pushed

/-- A call that is left takes one frame away, at the depth it was entered. -/
theorem leave_eq_some {t t' : Thread} {depth : Nat} (h : t.leave depth = some t') :
    ∃ (callee : Frame) (rest : List Frame), t.frames.frames = callee :: rest ∧
      rest.length = depth ∧
      t' = { t with frames := { t.frames with frames := rest }, pc := callee.returnPc } := by
  unfold leave at h
  split at h
  · cases h
  · rename_i callee rest frames_eq
    split at h
    · rename_i same
      cases h
      exact ⟨callee, rest, frames_eq, same, rfl⟩
    · cases h

end Thread

namespace Task

variable {σ : Type}

/-- A local step is a turn, a delivery, or an abort that passes. -/
theorem advance_cases {I : Interpreter σ} {task task' : Task σ} {notes : List Note}
    (h : task.advance I = some (task', notes)) :
    (∃ s depth, task.mode = .acting s depth ∧ task' = (task.turn I s depth).1) ∨
      (∃ c, task.mode = .delivering c ∧ task' = (task.deliver I c).1) ∨
      ∃ a, task.mode = .unwinding a ∧ task' = task.unwind I a := by
  unfold advance at h
  split at h
  · rename_i s depth mode_eq
    exact .inl ⟨s, depth, mode_eq, (congrArg Prod.fst (Option.some.inj h)).symm⟩
  · rename_i c mode_eq
    exact .inr (.inl ⟨c, mode_eq, (congrArg Prod.fst (Option.some.inj h)).symm⟩)
  · rename_i a mode_eq
    exact .inr (.inr ⟨a, mode_eq, (congrArg Prod.fst (Option.some.inj h)).symm⟩)
  all_goals cases h

/-- The task after a call was made, by how its entry phase ends. -/
theorem call_fst (I : Interpreter σ) (thread : Thread) (layers : List (Layer σ)) (m : MethodRef)
    (args : List Value) :
    (call I thread layers m args).1 =
      match (thread.enter m args).2 with
      | .refused e => ⟨thread, layers, .delivering (.returned (.error e))⟩
      | .aborted a => ⟨thread, layers, .unwinding a⟩
      | .entered thread' => ⟨thread', layers, .acting (I.enter thread') thread.depth⟩ := by
  unfold call
  rcases thread.enter m args with ⟨events, entry⟩
  cases entry <;> rfl

/-- The task after a turn, by what the turn ends with. -/
theorem turn_fst (I : Interpreter σ) (task : Task σ) (s : σ) (depth : Nat) :
    (task.turn I s depth).1 =
      let thread := task.thread.revise (I.act s task.thread).pc (I.act s task.thread).frame
      match (I.act s task.thread).action with
      | .proceed s' => ⟨thread, task.layers, .acting s' depth⟩
      | .call s' m args catches =>
        (Task.call I thread (.activation s' depth catches :: task.layers) m args).1
      | .start s' catches => (Task.start I thread (.activation s' depth catches :: task.layers)).1
      | .ask s' r => ⟨thread, task.layers, .asking s' depth r⟩
      | .finish r =>
        match thread.leave depth with
        | some thread' => ⟨thread', task.layers, .delivering (.returned r)⟩
        | none => ⟨thread, task.layers, .unwinding (.invariant .unbalancedFrames)⟩
      | .abort a => ⟨thread, task.layers, .unwinding a⟩ := by
  unfold turn
  dsimp only
  cases (I.act s task.thread).action with
  | finish r => cases ((task.thread.revise _ _).leave depth) <;> rfl
  | _ => rfl

/-! ## What waits for a call or a start -/

theorem call_layers (I : Interpreter σ) (thread : Thread) (layers : List (Layer σ)) (m : MethodRef)
    (args : List Value) : (call I thread layers m args).1.layers = layers := by
  rw [call_fst]
  cases (thread.enter m args).2 <;> rfl

theorem runBody_layers (I : Interpreter σ) (thread : Thread) (layers : List (Layer σ))
    (g : Guard) : (runBody I thread layers g).1.layers = .body g :: layers := by
  unfold runBody
  dsimp only
  split
  · rfl
  · split
    · rfl
    · exact call_layers ..

theorem suffix_start (I : Interpreter σ) (thread : Thread) (layers : List (Layer σ)) :
    layers <:+ (start I thread layers).1.layers := by
  unfold start
  dsimp only
  split
  · exact List.suffix_refl _
  · rw [runBody_layers]
    exact List.suffix_cons _ _

end Task

end ThreadEngine
