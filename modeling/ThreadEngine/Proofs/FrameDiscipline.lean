import ThreadEngine.Proofs.TaskSteps
import ThreadEngine.Body.Script
import Mathlib.Logic.Relation
import Mathlib.Data.List.Infix
import Mathlib.Tactic.IntervalCases

set_option autoImplicit false

/-!
# Frame discipline of calls

A call is entered by `Task.call` and is over when what waits is again what waited at entry.  What
happens in between is up to the interpreters: the statements below hold whoever takes each turn,
however nested calls end, whatever is caught, and whatever the world answers, as long as no answer
puts another thread in the place of the running one.

The frames that were there at entry stay where they are, however the call ends.  A call that
returns leaves exactly these frames, and the program counter that the callee's own frame holds when
its interpreter returns.

The invariant is about depth.  Every activation that waits was entered at a smaller depth than the
one it waits for, and a turn reaches only the innermost frame, so nothing below the activation's
own depth is ever touched (`Stacked`, `Above`).
-/

namespace ThreadEngine

/-! ## Frame stacks -/

/-- Other content in the innermost frame leaves a shorter stack below it alone. -/
theorem FrameStack.suffix_replaceTop {entry : List Frame} {s : FrameStack} (f : Frame)
    (kept : entry <:+ s.frames) (short : entry.length < s.depth) :
    entry <:+ (s.replaceTop f).frames := by
  obtain ⟨frames, maxDepth⟩ := s
  cases frames with
  | nil => exact absurd short (Nat.not_lt_zero _)
  | cons top rest =>
      rcases List.suffix_cons_iff.mp kept with whole | below
      · rw [whole] at short
        exact absurd short (Nat.lt_irrefl _)
      · exact below.trans (List.suffix_cons f rest)

/-- The stack with one more frame, whatever the limit says. -/
def FrameStack.cons (s : FrameStack) (f : Frame) : FrameStack := { s with frames := f :: s.frames }

@[simp] theorem FrameStack.depth_cons (s : FrameStack) (f : Frame) :
    (s.cons f).depth = s.depth + 1 := rfl

namespace Thread

@[simp] theorem depth_revise (t : Thread) (pc : Nat) (frame : Option Frame) :
    (t.revise pc frame).depth = t.depth := by
  cases frame <;> simp [revise, depth]

@[simp] theorem maxDepth_revise (t : Thread) (pc : Nat) (frame : Option Frame) :
    (t.revise pc frame).frames.maxDepth = t.frames.maxDepth := by
  cases frame <;> simp [revise]

/-- A thread that still has the frames `entry` at the outer end of its stack. -/
structure Keeps (entry : FrameStack) (t : Thread) : Prop where
  maxDepth_eq : t.frames.maxDepth = entry.maxDepth
  suffix : entry.frames <:+ t.frames.frames

namespace Keeps

variable {entry : FrameStack} {t t' : Thread}

theorem revise (h : t.Keeps entry) (pc : Nat) (frame : Option Frame)
    (short : entry.depth < t.depth) : (t.revise pc frame).Keeps entry := by
  refine ⟨(maxDepth_revise t pc frame).trans h.maxDepth_eq, ?_⟩
  cases frame with
  | none => exact h.suffix
  | some f => exact FrameStack.suffix_replaceTop f h.suffix short

theorem enter (h : t.Keeps entry) {m : MethodRef} {args : List Value}
    (entered : (t.enter m args).2 = .entered t') : t'.Keeps entry := by
  obtain ⟨callee, _, rfl⟩ := enter_entered entered
  exact ⟨h.maxDepth_eq, h.suffix.trans (List.suffix_cons _ _)⟩

theorem leave (h : t.Keeps entry) {depth : Nat} (left : t.leave depth = some t')
    (floor : entry.depth ≤ depth) : t'.Keeps entry := by
  obtain ⟨callee, rest, frames_eq, rfl, rfl⟩ := leave_eq_some left
  refine ⟨h.maxDepth_eq, ?_⟩
  have suffix := h.suffix
  rw [frames_eq] at suffix
  rcases List.suffix_cons_iff.mp suffix with whole | below
  · have longer : entry.depth = rest.length + 1 := by simp [FrameStack.depth, whole]
    omega
  · exact below

theorem depth_le (h : t.Keeps entry) : entry.depth ≤ t.depth := h.suffix.length_le

theorem outer {callee : Frame} (h : t.Keeps (entry.cons callee)) : t.Keeps entry :=
  ⟨h.maxDepth_eq, (List.suffix_cons callee entry.frames).trans h.suffix⟩

/-- The frame right above some frames is the innermost one and takes what a turn writes, or it is
out of reach. -/
theorem revise_own {callee : Frame} (h : t.Keeps (entry.cons callee)) (pc : Nat)
    (frame : Option Frame) :
    ∃ callee' : Frame, (t.revise pc frame).Keeps (entry.cons callee') ∧
      (callee' = callee ∨ frame = some callee' ∧ t.frames.current? = some callee) := by
  cases frame with
  | none => exact ⟨callee, ⟨h.maxDepth_eq, h.suffix⟩, .inl rfl⟩
  | some f =>
      by_cases short : (entry.cons callee).depth < t.depth
      · exact ⟨callee, h.revise pc (some f) short, .inl rfl⟩
      · have whole : entry.frames.cons callee = t.frames.frames :=
          h.suffix.eq_of_length (Nat.le_antisymm h.depth_le (Nat.le_of_not_lt short))
        refine ⟨f, ⟨?_, ?_⟩, .inr ⟨rfl, ?_⟩⟩
        · exact (maxDepth_revise t pc (some f)).trans h.maxDepth_eq
        · simp [Thread.revise, FrameStack.replaceTop, ← whole, FrameStack.cons]
        · simp [FrameStack.current?, ← whole]

end Keeps

end Thread

/-- An answer that puts no other thread in the place of the running one. -/
def Answer.KeepsThread (a : Answer) : Prop := ∀ t : Thread, a ≠ .replaced (some t)

namespace Task

variable {σ : Type}

theorem threadAfter_of_keepsThread (thread : Thread) {a : Answer} (keeps : a.KeepsThread) :
    threadAfter thread a = thread := by
  unfold threadAfter
  split
  · rename_i t
    exact absurd rfl (keeps t)
  · rfl

/-! ## Steps of a call -/

/-- A step of a task, whoever takes the turn and whatever is answered, as long as the running
thread stays in its place.  The turns are among those that `may` admits. -/
inductive Step (may : Task σ → Turn σ → Prop) : Task σ → Task σ → Prop
  | advance (I : Interpreter σ) {task task' : Task σ} {notes : List Note}
      (turns : ∀ s depth, task.mode = .acting s depth → may task (I.act s task.thread))
      (step : task.advance I = some (task', notes)) : Step may task task'
  | answer (I : Interpreter σ) {task : Task σ} {r : Request} {a : Answer}
      (asks : task.request? = some r) (keeps : a.KeepsThread) : Step may task (task.answer I a).1
  | reask {task : Task σ} {r : Request} (asks : task.request? = some r) (r' : Request) :
      Step may task (task.reask r')

/-- A call for some layers is over: these layers wait again, and a completion or an abort is on its
way to them. -/
def Over (layers : List (Layer σ)) (task : Task σ) : Prop :=
  task.layers = layers ∧ ((∃ c, task.mode = .delivering c) ∨ ∃ a, task.mode = .unwinding a)

/-- A call that is over has no activation that could act. -/
theorem Over.not_acting {layers : List (Layer σ)} {task : Task σ} (finished : task.Over layers)
    (s : σ) (depth : Nat) : task.mode ≠ .acting s depth := by
  obtain ⟨_, ⟨c, mode_eq⟩ | ⟨a, mode_eq⟩⟩ := finished
  · simp [mode_eq]
  · simp [mode_eq]

/-- The steps of a call for some layers, until it is over. -/
def CallRun (may : Task σ → Turn σ → Prop) (layers : List (Layer σ)) : Task σ → Task σ → Prop :=
  Relation.ReflTransGen fun task task' => ¬ task.Over layers ∧ Step may task task'

/-- The task after at most `n` local steps of one interpreter. -/
def drive (I : Interpreter σ) : Nat → Task σ → Task σ
  | 0, task => task
  | n + 1, task =>
      match task.advance I with
      | some (task', _) => drive I n task'
      | none => task

/-- Local steps of one interpreter are steps of a call as long as it is not over. -/
theorem callRun_drive (I : Interpreter σ) {may : Task σ → Turn σ → Prop} (layers : List (Layer σ))
    (n : Nat) (task : Task σ)
    (running : ∀ k, k < n → ¬ (drive I k task).Over layers ∧
      ∀ s depth, (drive I k task).mode = .acting s depth →
        may (drive I k task) (I.act s (drive I k task).thread)) :
    CallRun may layers task (drive I n task) := by
  induction n generalizing task with
  | zero => exact .refl
  | succ n ih =>
      rw [drive]
      cases step_eq : task.advance I with
      | none => exact .refl
      | some next =>
          obtain ⟨task', notes⟩ := next
          obtain ⟨unfinished, admits⟩ := running 0 (Nat.succ_pos n)
          refine .head ⟨unfinished, .advance I admits step_eq⟩ (ih task' fun k small => ?_)
          have shifted := running (k + 1) (Nat.succ_lt_succ small)
          simpa only [drive, step_eq] using shifted

/-! ## The depths of waiting activations -/

/-- Going outwards from `top` frames, every activation was entered at a smaller depth than the one
before, and none of them below `floor`. -/
def Stacked (floor : Nat) : List (Layer σ) → Nat → Prop
  | [], top => floor ≤ top
  | .activation _ depth _ :: layers, top => depth < top ∧ Stacked floor layers depth
  | .body _ :: layers, top => Stacked floor layers top

theorem Stacked.mono {floor : Nat} {layers : List (Layer σ)} {top top' : Nat}
    (stacked : Stacked floor layers top) (le : top ≤ top') : Stacked floor layers top' := by
  induction layers with
  | nil => exact Nat.le_trans stacked le
  | cons layer layers ih =>
      cases layer with
      | activation s depth catches => exact ⟨Nat.lt_of_lt_of_le stacked.1 le, stacked.2⟩
      | body g => exact ih stacked

theorem Stacked.floor_le {floor : Nat} {layers : List (Layer σ)} {top : Nat}
    (stacked : Stacked floor layers top) : floor ≤ top := by
  induction layers generalizing top with
  | nil => exact stacked
  | cons layer layers ih =>
      cases layer with
      | activation s depth catches =>
          exact Nat.le_of_lt (Nat.lt_of_le_of_lt (ih stacked.2) stacked.1)
      | body g => exact ih stacked

/-- The activations that wait, and the one that has the thread if there is one, are stacked below
the frames that the thread has now. -/
def Balanced (floor : Nat) (inner : List (Layer σ)) (task : Task σ) : Prop :=
  match task.mode with
  | .acting _ depth | .asking _ depth _ => depth < task.thread.depth ∧ Stacked floor inner depth
  | _ => Stacked floor inner task.thread.depth

/-- A computation above some layers, with `inner` of its own, that has left the frames `entry`
where they were. -/
structure Above (entry : FrameStack) (layers inner : List (Layer σ)) (task : Task σ) : Prop where
  layers_eq : task.layers = inner ++ layers
  keeps : task.thread.Keeps entry
  balanced : task.Balanced entry.depth inner

namespace Above

variable {entry : FrameStack} {layers : List (Layer σ)}

/-- An abort leaves everything where it is. -/
theorem raise {inner : List (Layer σ)} {thread : Thread} (keeps : thread.Keeps entry)
    (stacked : Stacked entry.depth inner thread.depth) (a : Abort) :
    Above entry layers inner (Task.raise thread (inner ++ layers) a).1 :=
  ⟨rfl, keeps, stacked⟩

/-- A call adds at most a frame of its own. -/
theorem call (I : Interpreter σ) (inner : List (Layer σ)) {thread : Thread}
    (keeps : thread.Keeps entry)
    (stacked : Stacked entry.depth inner thread.depth) (m : MethodRef) (args : List Value) :
    Above entry layers inner (Task.call I thread (inner ++ layers) m args).1 := by
  rw [call_fst]
  cases entry_eq : (thread.enter m args).2 with
  | refused e => exact ⟨rfl, keeps, stacked⟩
  | aborted a => exact ⟨rfl, keeps, stacked⟩
  | entered thread' =>
      refine ⟨rfl, keeps.enter entry_eq, ?_, stacked⟩
      obtain ⟨callee, _, rfl⟩ := Thread.enter_entered entry_eq
      exact Nat.lt_succ_self _

theorem runBody (I : Interpreter σ) (inner : List (Layer σ)) {thread : Thread}
    (keeps : thread.Keeps entry)
    (stacked : Stacked entry.depth inner thread.depth) (g : Guard) :
    ∃ inner', Above entry layers inner' (Task.runBody I thread (inner ++ layers) g).1 := by
  refine ⟨.body g :: inner, ?_⟩
  have guarded : Stacked entry.depth (Layer.body g :: inner) thread.depth := stacked
  unfold Task.runBody
  dsimp only
  split
  · exact Above.raise keeps guarded _
  · split
    · exact Above.raise keeps guarded _
    · have unchanged : Thread.Keeps entry { thread with args := [] } := ⟨keeps.1, keeps.2⟩
      exact Above.call I (.body g :: inner) unchanged guarded _ _

theorem start (I : Interpreter σ) (inner : List (Layer σ)) {thread : Thread}
    (keeps : thread.Keeps entry)
    (stacked : Stacked entry.depth inner thread.depth) :
    ∃ inner', Above entry layers inner' (Task.start I thread (inner ++ layers)).1 := by
  unfold Task.start
  dsimp only
  split
  · exact ⟨inner, rfl, keeps, stacked⟩
  · exact Above.runBody I inner keeps stacked _

variable {inner : List (Layer σ)} {task : Task σ}

/-- A turn reaches only the innermost frame, which is not one of those at entry. -/
theorem turn (h : Above entry layers inner task) (I : Interpreter σ) {s : σ} {depth : Nat}
    (mode_eq : task.mode = .acting s depth) :
    ∃ inner', Above entry layers inner' (task.turn I s depth).1 := by
  obtain ⟨layers_eq, keeps, balanced⟩ := h
  simp only [Balanced, mode_eq] at balanced
  obtain ⟨below, stacked⟩ := balanced
  have short : entry.depth < task.thread.depth := Nat.lt_of_le_of_lt stacked.floor_le below
  rw [turn_fst, layers_eq]
  generalize I.act s task.thread = turn
  have revised := keeps.revise turn.pc turn.frame short
  have deep : depth < (task.thread.revise turn.pc turn.frame).depth := by simpa using below
  cases turn.action with
  | proceed s' => exact ⟨inner, rfl, revised, deep, stacked⟩
  | call s' m args catches =>
      exact ⟨_, Above.call I (.activation s' depth catches :: inner) revised ⟨deep, stacked⟩ m args⟩
  | start s' catches =>
      exact Above.start I (.activation s' depth catches :: inner) revised ⟨deep, stacked⟩
  | ask s' r => exact ⟨inner, rfl, revised, deep, stacked⟩
  | finish r =>
      dsimp only
      split
      · rename_i thread' left
        refine ⟨inner, rfl, revised.leave left stacked.floor_le, ?_⟩
        obtain ⟨callee, rest, _, rfl, rfl⟩ := Thread.leave_eq_some left
        exact stacked
      · exact ⟨inner, Above.raise revised (stacked.mono (Nat.le_of_lt deep)) _⟩
  | abort a => exact ⟨inner, Above.raise revised (stacked.mono (Nat.le_of_lt deep)) _⟩

/-- A completion goes to the innermost layer. -/
theorem deliver (h : Above entry layers inner task) (I : Interpreter σ) {c : Completion}
    (mode_eq : task.mode = .delivering c) (running : inner ≠ []) :
    ∃ inner', Above entry layers inner' (task.deliver I c).1 := by
  obtain ⟨layers_eq, keeps, balanced⟩ := h
  simp only [Balanced, mode_eq] at balanced
  cases inner with
  | nil => exact absurd rfl running
  | cons layer inner' =>
      unfold Task.deliver
      rw [layers_eq]
      cases layer with
      | activation s depth catches => exact ⟨inner', rfl, keeps, balanced⟩
      | body g =>
          refine ⟨inner', rfl, keeps, ?_⟩
          cases kind_eq : g.kind <;> simpa [Balanced, endBody, kind_eq, Stacked] using balanced

/-- An abort passes the innermost layer, or is caught there. -/
theorem unwind (h : Above entry layers inner task) (I : Interpreter σ) {a : Abort}
    (mode_eq : task.mode = .unwinding a) (running : inner ≠ []) :
    ∃ inner', Above entry layers inner' (task.unwind I a) := by
  obtain ⟨layers_eq, keeps, balanced⟩ := h
  simp only [Balanced, mode_eq] at balanced
  cases inner with
  | nil => exact absurd rfl running
  | cons layer inner' =>
      unfold Task.unwind
      rw [layers_eq]
      cases layer with
      | activation s depth catches =>
          simp only [List.cons_append]
          split
          · exact ⟨inner', rfl, keeps, balanced⟩
          · exact ⟨inner', rfl, keeps, balanced.2.mono (Nat.le_of_lt balanced.1)⟩
      | body g => exact ⟨inner', rfl, keeps, balanced⟩

theorem retired (layers_eq : task.layers = inner ++ layers) (keeps : task.thread.Keeps entry)
    (stacked : Stacked entry.depth inner task.thread.depth) (passing : Option Abort) (a : Answer) :
    Above entry layers inner (task.retired passing a).1 := by
  unfold Task.retired
  split
  · cases passing with
    | none => exact layers_eq ▸ Above.raise keeps stacked _
    | some abort => exact ⟨layers_eq, keeps, stacked⟩
  · cases passing with
    | none => exact ⟨layers_eq, keeps, stacked⟩
    | some abort => exact ⟨layers_eq, keeps, stacked⟩

/-- An answer that keeps the thread in its place concerns only the guard or the activation that
asked. -/
theorem answer (h : Above entry layers inner task) (I : Interpreter σ) {a : Answer}
    (keepsThread : a.KeepsThread) : ∃ inner', Above entry layers inner' (task.answer I a).1 := by
  obtain ⟨layers_eq, keeps, balanced⟩ := h
  unfold Balanced at balanced
  unfold Task.answer
  split
  · rename_i s depth r mode_eq
    rw [mode_eq] at balanced
    rw [threadAfter_of_keepsThread _ keepsThread]
    exact ⟨inner, layers_eq, keeps, balanced⟩
  · rename_i g mode_eq
    rw [mode_eq] at balanced
    rw [layers_eq]
    exact Above.runBody I inner keeps balanced g
  · rename_i g mode_eq
    rw [mode_eq] at balanced
    exact ⟨inner, layers_eq, keeps, balanced⟩
  · rename_i g abort mode_eq
    rw [mode_eq] at balanced
    split
    · exact ⟨inner, layers_eq, keeps, balanced⟩
    · exact ⟨inner, layers_eq, keeps, balanced⟩
  · rename_i g passing mode_eq
    rw [mode_eq] at balanced
    exact ⟨inner, Above.retired layers_eq keeps balanced passing a⟩
  all_goals exact ⟨inner, layers_eq, keeps, balanced⟩

theorem reask (h : Above entry layers inner task) (r : Request) :
    Above entry layers inner (task.reask r) := by
  obtain ⟨layers_eq, keeps, balanced⟩ := h
  unfold Task.reask
  split
  · rename_i s depth r' mode_eq
    simp only [Balanced, mode_eq] at balanced
    exact ⟨layers_eq, keeps, balanced⟩
  · exact ⟨layers_eq, keeps, balanced⟩

/-- What one step preserves: as long as the computation is not over, the frames at entry stay. -/
theorem step {may : Task σ → Turn σ → Prop} {task' : Task σ} (h : Above entry layers inner task)
    (running : ¬ task.Over layers) (step : Step may task task') :
    ∃ inner', Above entry layers inner' task' := by
  have unfinished : (∃ c, task.mode = .delivering c) ∨ (∃ a, task.mode = .unwinding a) →
      inner ≠ [] := by
    rintro ending rfl
    exact running ⟨by simpa using h.layers_eq, ending⟩
  cases step with
  | advance I turns step =>
      obtain ⟨s, depth, mode_eq, rfl⟩ | ⟨c, mode_eq, rfl⟩ | ⟨a, mode_eq, rfl⟩ :=
        advance_cases step
      · exact h.turn I mode_eq
      · exact h.deliver I mode_eq (unfinished (.inl ⟨c, mode_eq⟩))
      · exact h.unwind I mode_eq (unfinished (.inr ⟨a, mode_eq⟩))
  | answer I asks keepsThread => exact h.answer I keepsThread
  | reask asks r' => exact ⟨inner, h.reask r'⟩

end Above

/-! ## One call -/

/-- The activation that was entered at `depth` for some layers hands back `r` in its next turn, of
the interpreter `I`, and has `callee` on top of the frames `entry` when it does. -/
def HandsBack (task : Task σ) (I : Interpreter σ) (layers : List (Layer σ)) (entry : FrameStack)
    (r : CallResult) (callee : Frame) : Prop :=
  ∃ s : σ, task.layers = layers ∧ task.mode = .acting s entry.depth ∧
    (I.act s task.thread).action = .finish r ∧
    (task.thread.revise (I.act s task.thread).pc (I.act s task.thread).frame).frames =
      entry.cons callee

/-- A call on top of the frames `entry`, for some layers, that is under way: its activation has the
thread or waits for something nested, its own frame is right above `entry`, and `ok` holds of where
this frame resumes. -/
inductive InCall (entry : FrameStack) (layers : List (Layer σ)) (ok : Nat → Prop) (task : Task σ) :
    Prop
  | own (callee : Frame) (resumes : ok callee.returnPc) (layers_eq : task.layers = layers)
      (acts : (∃ s, task.mode = .acting s entry.depth) ∨
        ∃ s r, task.mode = .asking s entry.depth r)
      (keeps : task.thread.Keeps (entry.cons callee))
  | nested (callee : Frame) (resumes : ok callee.returnPc) (s : σ) (catches : Bool)
      (inner : List (Layer σ))
      (above : Above (entry.cons callee) (.activation s entry.depth catches :: layers) inner task)

/-- The step with which a call is over. -/
inductive Exit (entry : FrameStack) (layers : List (Layer σ)) (ok : Nat → Prop)
    (task task' : Task σ) : Prop
  | returned (I : Interpreter σ) (r : CallResult) (callee : Frame)
      (hands : task.HandsBack I layers entry r callee) (resumes : ok callee.returnPc)
      (layers_eq : task'.layers = layers) (mode_eq : task'.mode = .delivering (.returned r))
      (frames_eq : task'.thread.frames = entry) (pc_eq : task'.thread.pc = callee.returnPc)
  | unwound (a : Abort) (layers_eq : task'.layers = layers) (mode_eq : task'.mode = .unwinding a)
      (keeps : task'.thread.Keeps entry)

section Call

variable {entry : FrameStack} {layers : List (Layer σ)} {ok : Nat → Prop} {task task' : Task σ}

theorem Exit.isOver (h : Exit entry layers ok task task') : task'.Over layers := by
  cases h with
  | returned I r callee hands resumes layers_eq mode_eq => exact ⟨layers_eq, .inl ⟨_, mode_eq⟩⟩
  | unwound a layers_eq mode_eq => exact ⟨layers_eq, .inr ⟨a, mode_eq⟩⟩

theorem InCall.not_over (h : InCall entry layers ok task) : ¬ task.Over layers := by
  rintro ⟨over_eq, ending⟩
  cases h with
  | own callee resumes layers_eq acts keeps =>
      rcases acts with ⟨s, acting⟩ | ⟨s, r, asking⟩ <;> simp_all
  | nested callee resumes s catches inner above =>
      have lengths := congrArg List.length (over_eq.symm.trans above.layers_eq)
      simp at lengths
      omega

/-- A turn of the call's own activation: the call goes on, or this turn ends it. -/
theorem inCall_turn (I : Interpreter σ) {s : σ} {callee : Frame} (resumes : ok callee.returnPc)
    (layers_eq : task.layers = layers) (mode_eq : task.mode = .acting s entry.depth)
    (keeps : task.thread.Keeps (entry.cons callee))
    (writes : ∀ f, (I.act s task.thread).frame = some f →
      task.thread.frames.current? = some callee → ok f.returnPc) :
    InCall entry layers ok (task.turn I s entry.depth).1 ∨
      Exit entry layers ok task (task.turn I s entry.depth).1 := by
  obtain ⟨callee', revised, written⟩ :=
    keeps.revise_own (I.act s task.thread).pc (I.act s task.thread).frame
  have resumes' : ok callee'.returnPc := by
    rcases written with rfl | ⟨frame_eq, current⟩
    · exact resumes
    · exact writes callee' frame_eq current
  have deep := revised.depth_le
  rw [FrameStack.depth_cons] at deep
  cases action_eq : (I.act s task.thread).action with
  | proceed s' =>
      simp only [turn_fst, action_eq, layers_eq]
      exact .inl (.own callee' resumes' rfl (.inl ⟨s', rfl⟩) revised)
  | call s' m args catches =>
      simp only [turn_fst, action_eq, layers_eq]
      exact .inl (.nested callee' resumes' s' catches []
        (Above.call I [] revised deep m args))
  | start s' catches =>
      simp only [turn_fst, action_eq, layers_eq]
      obtain ⟨inner, above⟩ := Above.start I [] revised deep
      exact .inl (.nested callee' resumes' s' catches inner above)
  | ask s' r =>
      simp only [turn_fst, action_eq, layers_eq]
      exact .inl (.own callee' resumes' rfl (.inr ⟨s', r, rfl⟩) revised)
  | finish r =>
      right
      simp only [turn_fst, action_eq, layers_eq]
      split
      · rename_i thread' left
        obtain ⟨top, rest, frames_eq, depth_eq, rfl⟩ := Thread.leave_eq_some left
        -- the stack is one deeper than at entry, so the own frame is the innermost one
        have whole : entry.frames.cons callee' = top :: rest := by
          refine (frames_eq ▸ revised.suffix).eq_of_length ?_
          simpa [FrameStack.cons, FrameStack.depth] using depth_eq.symm
        obtain ⟨rfl, rfl⟩ := List.cons.inj whole
        have stack_eq : (task.thread.revise (I.act s task.thread).pc
            (I.act s task.thread).frame).frames = entry.cons callee' := by
          rw [FrameStack.mk.injEq]
          exact ⟨frames_eq, revised.maxDepth_eq⟩
        refine .returned I r callee' ⟨s, layers_eq, mode_eq, action_eq, stack_eq⟩ resumes'
          rfl rfl ?_ rfl
        rw [FrameStack.mk.injEq]
        exact ⟨rfl, revised.maxDepth_eq⟩
      · exact .unwound _ rfl rfl revised.outer
  | abort a =>
      simp only [turn_fst, action_eq, layers_eq]
      exact .inr (.unwound a rfl rfl revised.outer)

/-- What one step preserves: the call goes on, or the step ends it. -/
theorem InCall.step {may : Task σ → Turn σ → Prop} (h : InCall entry layers ok task)
    (writes : ∀ task turn f callee, may task turn → task.layers = layers → turn.frame = some f →
      task.thread.frames.current? = some callee → ok callee.returnPc → ok f.returnPc)
    (step : Step may task task') :
    InCall entry layers ok task' ∨ Exit entry layers ok task task' := by
  cases h with
  | own callee resumes layers_eq acts keeps =>
      rcases acts with ⟨s, acting⟩ | ⟨s, r, asking⟩
      · cases step with
        | advance I turns step =>
            rcases advance_cases step with ⟨s', depth, mode_eq, rfl⟩ | ⟨c, mode_eq, rfl⟩ |
              ⟨a, mode_eq, rfl⟩
            · obtain ⟨rfl, rfl⟩ := Mode.acting.inj (acting.symm.trans mode_eq)
              refine inCall_turn I resumes layers_eq acting keeps fun f frame_eq current => ?_
              exact writes task _ f callee (turns s _ acting) layers_eq frame_eq current resumes
            · cases acting.symm.trans mode_eq
            · cases acting.symm.trans mode_eq
        | answer I asks keepsThread => simp [request?, acting] at asks
        | reask asks r' => simp [request?, acting] at asks
      · left
        cases step with
        | advance I turns step => simp [advance, asking] at step
        | answer I asks keepsThread =>
            simp only [answer, asking, threadAfter_of_keepsThread _ keepsThread]
            exact .own callee resumes layers_eq (.inl ⟨_, rfl⟩) keeps
        | reask asks r' =>
            simp only [reask, asking]
            exact .own callee resumes layers_eq (.inr ⟨s, r', rfl⟩) keeps
  | nested callee resumes s catches inner above =>
      by_cases finished : task.Over (.activation s entry.depth catches :: layers)
      · -- what was nested is over: its end goes to the waiting activation
        obtain ⟨layers_eq, ⟨c, mode_eq⟩ | ⟨a, mode_eq⟩⟩ := finished
        · cases step with
          | advance I turns step =>
              simp only [advance, mode_eq, deliver, layers_eq] at step
              cases step
              exact .inl (.own callee resumes rfl (.inl ⟨_, rfl⟩) above.keeps)
          | answer I asks keepsThread => simp [request?, mode_eq] at asks
          | reask asks r' => simp [request?, mode_eq] at asks
        · cases step with
          | advance I turns step =>
              simp only [advance, mode_eq, unwind, layers_eq] at step
              cases catches with
              | false =>
                  cases step
                  exact .inr (.unwound a rfl rfl above.keeps.outer)
              | true =>
                  cases step
                  exact .inl (.own callee resumes rfl (.inl ⟨_, rfl⟩) above.keeps)
          | answer I asks keepsThread => simp [request?, mode_eq] at asks
          | reask asks r' => simp [request?, mode_eq] at asks
      · obtain ⟨inner', above'⟩ := above.step finished step
        exact .inl (.nested callee resumes s catches inner' above')

/-- What a whole run preserves: the call is still under way, or it was until its last step. -/
theorem InCall.run {may : Task σ → Turn σ → Prop} (h : InCall entry layers ok task)
    (writes : ∀ task turn f callee, may task turn → task.layers = layers → turn.frame = some f →
      task.thread.frames.current? = some callee → ok callee.returnPc → ok f.returnPc)
    (run : CallRun may layers task task') :
    InCall entry layers ok task' ∨
      ∃ before, CallRun may layers task before ∧ Exit entry layers ok before task' := by
  induction run with
  | refl => exact .inl h
  | tail run step ih =>
      rcases ih with under | ⟨before, _, exit⟩
      · rcases under.step writes step.2 with under' | exit
        · exact .inl under'
        · exact .inr ⟨_, run, exit⟩
      · exact absurd exit.isOver step.1

/-- A call that gets past its checks is under way. -/
theorem inCall_of_entered (I : Interpreter σ) {thread thread' : Thread} {m : MethodRef}
    {args : List Value} (layers : List (Layer σ)) (starts : ok thread.pc)
    (entered : (thread.enter m args).2 = .entered thread') :
    InCall thread.frames layers ok (call I thread layers m args).1 := by
  obtain ⟨callee, resumes, rfl⟩ := Thread.enter_entered entered
  rw [call_fst, entered]
  refine .own callee (resumes ▸ starts) rfl (.inl ⟨_, rfl⟩) ⟨rfl, ?_⟩
  exact List.suffix_refl _

end Call

/-! ## What a call leaves behind -/

/-- A method without arguments, at a place of a library. -/
def bareMethod (place : Nat) : MethodRef :=
  ⟨⟨"m", "()V", true, false, 1, 1, [], .void⟩, some place⟩

/-- The method at place 0 calls the one at place 1, which moves the program counter and fails; the
error is caught. -/
def catchingLibrary : Script.Library :=
  { methods := [bareMethod 0, bareMethod 1]
    codes := [[.call 1 [] .catchErrors, .give none], [.setPc 1, .fail .registryNotInitialized]] }

/-- A thread with one active frame, in the middle of its code. -/
def busyThread : Thread :=
  { id := 0, kind := .main, registry := 0, dialect := .script,
    frames := ⟨[Frame.ofSizes 1 1], 4⟩, method := bareMethod 0, args := [], pc := 5 }

end Task

end ThreadEngine
