import ThreadEngine.Proofs.LeakedFrames
import ThreadEngine.Proofs.Marshalling

set_option autoImplicit false

/-!
# The entry phase of a call

A call looks at four things before it hands the thread to an interpreter, in this order: the number
of arguments, the memory that a frame of the method takes, the arguments one after the other, and
the depth of the frame stack.  If one of them fails the call is over at once, and the thread is as
it was, because the frame that was being filled is not on the stack yet.  Otherwise the interpreter
gets the thread once, with the new frame on top (`Thread.Calls`).
-/

namespace ThreadEngine

namespace Method

/-- Whether every argument is accepted at its slot. -/
def AcceptsAll (m : Method) (args : List Value) : Prop := ∀ j v, args[j]? = some v → m.Accepts j v

/-- Whether the memory for a frame of the method can be asked for. -/
def LaysOut (m : Method) : Prop :=
  Slot.isAddressable m.maxLocals = true ∧ Slot.isAddressable m.maxStack = true

/-- The first argument that is not accepted, with what is said of it. -/
def FirstRefused (m : Method) (args : List Value) (i : Nat) (kind : UnreachableKind) : Prop :=
  ∃ v, args[i]? = some v ∧ ¬ m.Accepts i v ∧ m.Refuses i v kind ∧
    ∀ j u, j < i → args[j]? = some u → m.Accepts j u

theorem FirstRefused.not_acceptsAll {m : Method} {args : List Value} {i : Nat}
    {kind : UnreachableKind} (refused : m.FirstRefused args i kind) : ¬ m.AcceptsAll args := by
  obtain ⟨v, found, refused, _⟩ := refused
  exact fun all => refused (all i v found)

/-- Copying into a table with room for all arguments fails only at an argument that is not
accepted. -/
theorem marshal_ofSize (m : Method) {args : List Value} {size : Nat} (few : args.length ≤ size) :
    (m.AcceptsAll args ∧ (m.marshal (.ofSize size) args).outcome = .ok () ∧
        (m.marshal (.ofSize size) args).locals.size = size ∧
        (∀ j v, args[j]? = some v → (m.marshal (.ofSize size) args).locals.Holds j v) ∧
        ∀ j, args.length ≤ j → j < size →
          (m.marshal (.ofSize size) args).locals.get? j = some .empty) ∨
      ∃ i kind, m.FirstRefused args i kind ∧
        (m.marshal (.ofSize size) args).outcome = .abort (.unreachableKind kind i) := by
  obtain ⟨n, copied, ending⟩ := m.marshalFrom_copied 0 (.ofSize size) args
  have accepted : ∀ j v, j < n → args[j]? = some v → m.Accepts j v := by
    intro j v below found
    have accepts := (copied.holds j v below found).1
    rwa [Nat.zero_add] at accepts
  rcases ending with ⟨rfl, finished⟩ | ⟨v, found, stops⟩
  · have below : ∀ j v, args[j]? = some v → j < args.length :=
      fun j v found => (List.getElem?_eq_some_iff.mp found).1
    refine .inl ⟨fun j v found => accepted j v (below j v found) found, finished, ?_, ?_, ?_⟩
    · exact copied.size_eq.trans (Locals.size_ofSize size)
    · intro j v found
      have held := (copied.holds j v (below j v found) found).2
      rwa [Nat.zero_add] at held
    · intro j past inside
      have kept := copied.kept j (.inr (by omega))
      rwa [Locals.get?_ofSize, if_pos inside] at kept
  · rw [Nat.zero_add, Locals.size_ofSize] at stops
    have inside := (List.getElem?_eq_some_iff.mp found).1
    have refused : ¬ m.Accepts n v := by
      intro accepts
      have past := (stops.of_accepts accepts).1
      omega
    obtain ⟨kind, reason, aborts⟩ := stops.of_refused refused
    exact .inr ⟨n, kind, ⟨v, found, refused, reason, accepted⟩, aborts⟩

end Method

namespace Thread

/-- The frame for a call: it has room for the method's slots, holds the arguments first and nothing
behind them, has an empty operand stack, and resumes where the caller is. -/
structure Calls (t : Thread) (m : MethodRef) (args : List Value) (callee : Frame) : Prop where
  size_eq : callee.locals.size = m.method.maxLocals
  holds : ∀ j v, args[j]? = some v → callee.locals.Holds j v
  empty : ∀ j, args.length ≤ j → j < m.method.maxLocals → callee.locals.get? j = some .empty
  stack_eq : callee.stack = .empty m.method.maxStack
  method_eq : callee.method = some m
  returnPc_eq : callee.returnPc = t.pc
  native_eq : callee.native = m.method.isNative

/-- The thread with a callee's frame on top, at the callee's first instruction. -/
def inside (t : Thread) (callee : Frame) : Thread :=
  { t with frames := t.frames.cons callee, pc := 0 }

variable {t : Thread} {m : MethodRef} {args : List Value}

theorem enter_of_many (many : m.method.maxLocals < args.length) :
    (t.enter m args).2 = .refused (.tooManyArguments m.name m.method.maxLocals args.length) := by
  simp [enter, many]

theorem allocate_of_laysOut (lays : m.method.LaysOut) :
    Frame.allocate m.method.maxLocals m.method.maxStack =
      .ok (.ofSizes m.method.maxLocals m.method.maxStack) := by
  obtain ⟨table, stack⟩ := lays
  rw [Slot.isAddressable_iff] at table stack
  rw [Frame.allocate_eq, if_pos ⟨table, stack⟩]

theorem enter_of_not_laysOut (few : args.length ≤ m.method.maxLocals)
    (large : ¬ m.method.LaysOut) : (t.enter m args).2 = .aborted .capacityOverflow := by
  rw [Method.LaysOut, Slot.isAddressable_iff, Slot.isAddressable_iff] at large
  simp [enter, Nat.not_lt.mpr few, Frame.allocate_eq, large]

theorem enter_of_abort (few : args.length ≤ m.method.maxLocals) (lays : m.method.LaysOut)
    {a : Abort} (aborts : (m.method.marshal (.ofSize m.method.maxLocals) args).outcome = .abort a) :
    (t.enter m args).2 = .aborted a := by
  have locals_eq : (Frame.ofSizes m.method.maxLocals m.method.maxStack).locals =
      .ofSize m.method.maxLocals := rfl
  simp only [enter, Nat.not_lt.mpr few, if_false, allocate_of_laysOut lays, locals_eq, aborts]

theorem enter_of_copied (few : args.length ≤ m.method.maxLocals) (lays : m.method.LaysOut)
    (copied : (m.method.marshal (.ofSize m.method.maxLocals) args).outcome = .ok ()) :
    (t.enter m args).2 =
      if t.depth < t.frames.maxDepth then
        .entered (t.inside (t.calleeFrame m (.unbound
          (m.method.marshal (.ofSize m.method.maxLocals) args).locals (.empty m.method.maxStack))))
      else .refused (.stackOverflow t.frames.maxDepth) := by
  have locals_eq : (Frame.ofSizes m.method.maxLocals m.method.maxStack).locals =
      .ofSize m.method.maxLocals := rfl
  have depth_eq : t.frames.depth = t.depth := rfl
  simp only [enter, Nat.not_lt.mpr few, if_false, allocate_of_laysOut lays, locals_eq, copied,
    FrameStack.push, depth_eq]
  by_cases room : t.depth < t.frames.maxDepth
  · simp only [room, if_true]
    rfl
  · simp only [room, if_false]

theorem enter_of_not_acceptsAll (few : args.length ≤ m.method.maxLocals)
    (lays : m.method.LaysOut) (refused : ¬ m.method.AcceptsAll args) :
    ∃ i kind, m.method.FirstRefused args i kind ∧
      (t.enter m args).2 = .aborted (.unreachableKind kind i) := by
  obtain ⟨accepts, _⟩ | ⟨i, kind, first, aborts⟩ := m.method.marshal_ofSize few
  · exact absurd accepts refused
  · exact ⟨i, kind, first, enter_of_abort few lays aborts⟩

/-- Once the arguments are copied only the depth of the stack counts. -/
theorem enter_of_acceptsAll (few : args.length ≤ m.method.maxLocals) (lays : m.method.LaysOut)
    (accepts : m.method.AcceptsAll args) :
    ∃ callee, t.Calls m args callee ∧
      (t.enter m args).2 =
        if t.depth < t.frames.maxDepth then .entered (t.inside callee)
        else .refused (.stackOverflow t.frames.maxDepth) := by
  obtain ⟨_, copied, size_eq, holds, empty⟩ | ⟨i, kind, first, _⟩ := m.method.marshal_ofSize few
  · exact ⟨_, ⟨size_eq, holds, empty, rfl, rfl, rfl, rfl⟩, enter_of_copied few lays copied⟩
  · exact absurd accepts first.not_acceptsAll

/-- The entry phase writes nothing past the end of a table. -/
theorem enter_ne_outOfBounds (t : Thread) (m : MethodRef) (args : List Value) (i size : Nat) :
    (t.enter m args).2 ≠ .refused (.localIndexOutOfBounds i size) := by
  by_cases few : args.length ≤ m.method.maxLocals
  · by_cases lays : m.method.LaysOut
    · by_cases accepts : m.method.AcceptsAll args
      · obtain ⟨callee, _, enter_eq⟩ := enter_of_acceptsAll (t := t) few lays accepts
        rw [enter_eq]
        split <;> simp
      · obtain ⟨j, kind, _, enter_eq⟩ := enter_of_not_acceptsAll (t := t) few lays accepts
        simp [enter_eq]
    · simp [enter_of_not_laysOut few lays]
  · simp [enter_of_many (Nat.lt_of_not_le few)]

end Thread

namespace Task

variable {σ : Type}

/-! ## One activation for one call -/

/-- In its next step the task makes a call that some layers wait for: the activation that has the
thread calls a method or starts a body, or a body that has given up its join handle calls its
method. -/
inductive CallsFor (layers : List (Layer σ)) (task : Task σ) : Prop
  | called (I : Interpreter σ) {s s' : σ} {depth : Nat} {m : MethodRef} {args : List Value}
      {catches : Bool} (acts : task.mode = .acting s depth)
      (calls : (I.act s task.thread).action = .call s' m args catches)
      (layers_eq : layers = .activation s' depth catches :: task.layers)
  | started (I : Interpreter σ) {s s' : σ} {depth : Nat} {catches : Bool} {g : Guard}
      (acts : task.mode = .acting s depth)
      (starts : (I.act s task.thread).action = .start s' catches)
      (layers_eq : layers = .body g :: .activation s' depth catches :: task.layers)
  | detached {g : Guard} (detaches : task.mode = .detaching g)
      (layers_eq : layers = .body g :: task.layers)

/-- What is called waits in more layers than there are. -/
theorem CallsFor.longer {layers : List (Layer σ)} {task : Task σ} (h : task.CallsFor layers) :
    task.layers.length < layers.length := by
  cases h with
  | called I acts calls layers_eq =>
      rw [layers_eq, List.length_cons]
      omega
  | started I acts starts layers_eq =>
      rw [layers_eq, List.length_cons, List.length_cons]
      omega
  | detached detaches layers_eq =>
      rw [layers_eq, List.length_cons]
      omega

/-- While a call goes on, nothing is called for the layers that wait for it. -/
theorem not_callsFor {may : Task σ → Turn σ → Prop} {I : Interpreter σ} {thread thread' : Thread}
    {layers : List (Layer σ)} {m : MethodRef} {args : List Value} {task : Task σ}
    (entered : (thread.enter m args).2 = .entered thread')
    (run : CallRun may layers (call I thread layers m args).1 task) : ¬ task.CallsFor layers := by
  intro again
  have longer := again.longer
  rcases inCall_of_run I entered run with under | finished
  · have shorter := under.suffix.length_le
    omega
  · rw [finished.1] at longer
    exact Nat.lt_irrefl _ longer

/-- The entry phase of a call, in the order in which it looks at things.  Too many arguments are
refused; then a frame that cannot be laid out aborts; then the first argument that is not accepted
aborts, by its slot; then a full frame stack is refused.  Each time the call is over at once,
without an interpreter, and the thread is as it was.  Otherwise an interpreter gets the thread with
the callee's frame on top, and gets it for this call only once.  No slot past the end of a table is
ever written. -/
theorem call_entry (I : Interpreter σ) (thread : Thread) (layers : List (Layer σ)) (m : MethodRef)
    (args : List Value) :
    (m.method.maxLocals < args.length →
        (call I thread layers m args).1 = ⟨thread, layers, .delivering (.returned (.error
          (.tooManyArguments m.name m.method.maxLocals args.length)))⟩) ∧
      (args.length ≤ m.method.maxLocals → ¬ m.method.LaysOut →
        (call I thread layers m args).1 = ⟨thread, layers, .unwinding .capacityOverflow⟩) ∧
      (args.length ≤ m.method.maxLocals → m.method.LaysOut → ¬ m.method.AcceptsAll args →
        ∃ i kind, m.method.FirstRefused args i kind ∧
          (call I thread layers m args).1 =
            ⟨thread, layers, .unwinding (.unreachableKind kind i)⟩) ∧
      (args.length ≤ m.method.maxLocals → m.method.LaysOut → m.method.AcceptsAll args →
        thread.frames.maxDepth ≤ thread.depth →
        (call I thread layers m args).1 = ⟨thread, layers, .delivering (.returned (.error
          (.stackOverflow thread.frames.maxDepth)))⟩) ∧
      (args.length ≤ m.method.maxLocals → m.method.LaysOut → m.method.AcceptsAll args →
        thread.depth < thread.frames.maxDepth →
        ∃ callee, thread.Calls m args callee ∧
          (call I thread layers m args).1 = ⟨thread.inside callee, layers,
            .acting (I.enter (thread.inside callee)) thread.depth⟩ ∧
          ∀ may task, CallRun may layers (call I thread layers m args).1 task →
            ¬ task.CallsFor layers) ∧
      ∀ i size, (thread.enter m args).2 ≠ .refused (.localIndexOutOfBounds i size) := by
  refine ⟨fun many => ?_, fun few large => ?_, fun few lays refused => ?_,
    fun few lays accepts full => ?_, fun few lays accepts room => ?_,
    thread.enter_ne_outOfBounds m args⟩
  · rw [call_fst, Thread.enter_of_many many]
  · rw [call_fst, Thread.enter_of_not_laysOut few large]
  · obtain ⟨i, kind, first, enter_eq⟩ := Thread.enter_of_not_acceptsAll few lays refused
    exact ⟨i, kind, first, by rw [call_fst, enter_eq]⟩
  · obtain ⟨callee, _, enter_eq⟩ := Thread.enter_of_acceptsAll few lays accepts
    rw [call_fst, enter_eq, if_neg (Nat.not_lt.mpr full)]
  · obtain ⟨callee, calls, enter_eq⟩ := Thread.enter_of_acceptsAll few lays accepts
    rw [if_pos room] at enter_eq
    refine ⟨callee, calls, by rw [call_fst, enter_eq], fun may task run => ?_⟩
    exact not_callsFor enter_eq run

/-- A method with an int and a long. -/
def wideMethod : MethodRef := ⟨⟨"wide", "(IJ)V", true, false, 2, 1, [.int, .long], .void⟩, none⟩

/-- A thread that can have no frame. -/
def crampedThread : Thread := ⟨0, .main, 0, .script, .empty 0, wideMethod, [], 7⟩

/-- An argument that is not accepted aborts the call even if there is no room for a frame. -/
theorem call_entry_of_full_stack :
    (call (Script.interpreter catchingLibrary) crampedThread [] wideMethod
        [Value.int 1, .returnAddress 3]).1 =
      ⟨crampedThread, [], .unwinding (.unreachableKind (.tag .returnAddress) 1)⟩ := by
  have refused : ¬ wideMethod.method.AcceptsAll [Value.int 1, .returnAddress 3] :=
    fun accepts => accepts 1 (.returnAddress 3) rfl
  obtain ⟨i, kind, ⟨v, found, rejects, reason, _⟩, start_eq⟩ :=
    (call_entry (Script.interpreter catchingLibrary) crampedThread [] wideMethod
      [Value.int 1, .returnAddress 3]).2.2.1 (Nat.le_refl 2) ⟨rfl, rfl⟩ refused
  match i, found with
  | 0, found =>
      cases found
      exact absurd ⟨.int, by simp [Primitive.kinds], rfl⟩ rejects
  | 1, found =>
      cases found
      cases reason
      exact start_eq

/-- A method with more local slots than a table can have. -/
def oversizedMethod : MethodRef := ⟨⟨"m", "()V", true, false, Nat.pow 2 60, 1, [], .void⟩, some 0⟩

/-- A thread without frames that is to run it. -/
def oversizedThread : Thread := ⟨0, .main, 0, .script, .empty 8, oversizedMethod, [], 0⟩

/-- A call without arguments, on a thread with room for a frame, aborts because of the frame's
size. -/
theorem oversized_frame_aborts :
    ¬ oversizedMethod.method.maxLocals < ([] : List Value).length ∧
      oversizedMethod.method.AcceptsAll [] ∧
      oversizedThread.depth < oversizedThread.frames.maxDepth ∧
      (oversizedThread.enter oversizedMethod []).2 = .aborted .capacityOverflow := by
  have large : ¬ oversizedMethod.method.LaysOut := by
    rintro ⟨table, _⟩
    rw [Slot.isAddressable_iff] at table
    exact absurd table (by decide)
  refine ⟨by decide, nofun, by decide, Thread.enter_of_not_laysOut (Nat.zero_le _) large⟩

end Task

end ThreadEngine
