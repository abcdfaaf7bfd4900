import ThreadEngine.Frame.Op
import Mathlib.Data.List.Basic

set_option autoImplicit false

/-!
# Frames and their plain model

What frames and frame stacks do is said here once more, plainly.  A plain table knows its size and
everything that was written to it, and a typed reading returns what was written last, if that was
written as the same kind.  A plain operand stack is a list that cannot be longer than its bound, and
a plain frame stack is a list of frames that cannot be longer than its limit.

A plain frame stack stands for a frame stack (`PlainStack.realize`), and every frame stack that is
within its bounds is one of those (`inBounds_iff`).  All steps give the same answers on both and
lead to the same contents, so that whole runs do (`runAll_realize`).
-/

namespace ThreadEngine

/-! ## Plain tables -/

/-- What something is written or read as. -/
inductive SlotKind where
  | reference
  | int
  | float
  | long
  | double
  deriving DecidableEq, Repr, Inhabited

/-- What a slot was written as, if it was written. -/
def Slot.kind? : Slot → Option SlotKind
  | empty => none
  | reference _ => some .reference
  | int _ => some .int
  | float _ => some .float
  | long _ => some .long
  | double _ => some .double

/-- A table of fixed size, with everything that was written to it. -/
structure PlainLocals where
  size : Nat
  /-- where, and what, latest first -/
  writes : List (Nat × Slot)
  inside : ∀ w ∈ writes, w.1 < size

namespace PlainLocals

variable (l : PlainLocals)

/-- A table that nothing was written to. -/
def ofSize (n : Nat) : PlainLocals := ⟨n, [], nofun⟩

/-- What was written last at an index. -/
def last? (i : Nat) : Option Slot := l.writes.lookup i

/-- Reads what was written last at an index, if it was written as the given kind. -/
def read (kind : SlotKind) (i : Nat) : Option Value :=
  (l.last? i).bind fun s => if s.kind? = some kind then s.value? else none

/-- The slot at an index; one that was never written is empty. -/
def slot? (i : Nat) : Option Slot := if i < l.size then some ((l.last? i).getD .empty) else none

/-- The table after something was written inside. -/
def record (i : Nat) (s : Slot) (inside : i < l.size) : PlainLocals where
  size := l.size
  writes := (i, s) :: l.writes
  inside := by
    intro w member
    rcases List.mem_cons.mp member with rfl | earlier
    · exact inside
    · exact l.inside w earlier

/-- Writes to the table, unless the index is outside. -/
def write (i : Nat) (s : Slot) : Except Error PlainLocals :=
  if inside : i < l.size then .ok (l.record i s inside)
  else .error (.localIndexOutOfBounds i l.size)

/-- The table that a plain one stands for. -/
def realize : Locals := ⟨(List.range l.size).map fun i => (l.last? i).getD .empty⟩

@[simp] theorem size_realize : l.realize.size = l.size := by
  simp [realize, Locals.size]

theorem isEmpty_realize : l.realize.isEmpty = (l.size == 0) := by
  rw [Bool.eq_iff_iff, Locals.isEmpty, List.isEmpty_iff, ← List.length_eq_zero_iff, beq_iff_eq]
  exact Eq.congr_left l.size_realize

theorem get?_realize (i : Nat) : l.realize.get? i = l.slot? i := by
  by_cases inside : i < l.size
  · simp [realize, Locals.get?, slot?, inside]
  · simp [realize, Locals.get?, slot?, inside]

/-- Nothing was written outside. -/
theorem last?_of_le {i : Nat} (outside : l.size ≤ i) : l.last? i = none := by
  rw [last?, List.lookup_eq_none_iff]
  intro w member
  have inside := l.inside w member
  simp only [bne_iff_ne]
  omega

/-- A typed reading sees neither that an index is outside nor that a slot is empty. -/
theorem bind_get?_realize (kind : SlotKind) (i : Nat) :
    ((l.realize.get? i).bind fun s => if s.kind? = some kind then s.value? else none) =
      l.read kind i := by
  rw [get?_realize, slot?, read]
  by_cases inside : i < l.size
  · rw [if_pos inside, Option.bind_some]
    cases l.last? i with
    | none => rfl
    | some s => rfl
  · rw [if_neg inside, l.last?_of_le (Nat.le_of_not_lt inside)]

/-- A typed reading, whatever it returns of a slot of its kind. -/
theorem read_realize {α : Type} (kind : SlotKind) {view : Slot → Option α} {box : α → Value}
    (typed : ∀ s, (view s).map box = if s.kind? = some kind then s.value? else none) (i : Nat) :
    ((l.realize.get? i).bind view).map box = l.read kind i := by
  rw [← bind_get?_realize, Option.map_bind]
  exact congrArg _ (funext typed)

theorem last?_record (i j : Nat) (s : Slot) (inside : i < l.size) :
    (l.record i s inside).last? j = if j = i then some s else l.last? j := by
  by_cases same : j = i
  · simp [last?, record, same]
  · have other : (j == i) = false := by simpa using same
    simp [last?, record, List.lookup_cons, same, other]

theorem realize_record (i : Nat) (s : Slot) (inside : i < l.size) :
    (l.record i s inside).realize = ⟨l.realize.slots.set i s⟩ := by
  refine congrArg Locals.mk (List.ext_getElem? fun j => ?_)
  simp only [last?_record]
  by_cases same : j = i
  · subst same
    simp [realize, record, inside]
  · rw [List.getElem?_set_ne (Ne.symm same)]
    simp only [realize, record, List.getElem?_map]
    by_cases within : j < l.size
    · simp [within, same]
    · simp [within]

theorem set_realize (i : Nat) (s : Slot) : l.realize.set i s = (l.write i s).map realize := by
  rw [Locals.set, size_realize, write]
  by_cases inside : i < l.size
  · rw [if_pos inside, dif_pos inside, Except.map, realize_record]
  · rw [if_neg inside, dif_neg inside, Except.map]

/-- The plain table with the same contents as a table. -/
def ofLocals (t : Locals) : PlainLocals where
  size := t.size
  writes := (List.range t.size).map fun i => (i, (t.get? i).getD .empty)
  inside := by simp

theorem realize_ofLocals (t : Locals) : (ofLocals t).realize = t := by
  have found (i : Nat) (inside : i < t.size) :
      (ofLocals t).last? i = some ((t.get? i).getD .empty) :=
    List.lookup_graph (fun i => (t.get? i).getD .empty) (List.mem_range.mpr inside)
  have size_eq : (ofLocals t).size = t.size := rfl
  refine congrArg Locals.mk (List.ext_getElem? fun i => ?_)
  by_cases inside : i < t.size
  · have present : t.slots[i]? = some (t.slots[i]) := List.getElem?_eq_getElem inside
    simp [size_eq, inside, found i inside, Locals.get?, present]
  · have absent : t.slots[i]? = none := List.getElem?_eq_none (Nat.le_of_not_lt inside)
    simp [size_eq, inside, absent]

end PlainLocals

/-! ## Plain operand stacks -/

/-- A list of slots, topmost first, that cannot be longer than its bound. -/
structure PlainOperands where
  slots : List Slot
  bound : Nat
  bounded : slots.length ≤ bound

namespace PlainOperands

variable (s : PlainOperands)

/-- A list without slots. -/
def empty (bound : Nat) : PlainOperands := ⟨[], bound, Nat.zero_le bound⟩

/-- Puts a slot on top, if there is room. -/
def push (x : Slot) : Except Error PlainOperands :=
  if room : s.slots.length < s.bound then .ok ⟨x :: s.slots, s.bound, room⟩
  else .error (.operandStackOverflow s.bound)

/-- Takes the slot that was put there last. -/
def pop : PlainOperands → Except Error (Slot × PlainOperands)
  | ⟨[], _, _⟩ => .error .operandStackUnderflow
  | ⟨x :: rest, bound, bounded⟩ => .ok (x, ⟨rest, bound, Nat.le_of_succ_le bounded⟩)

/-- The operand stack that a plain one stands for. -/
def realize : OperandStack := ⟨s.slots, s.bound⟩

theorem push_realize (x : Slot) : s.realize.push x = (s.push x).map realize := by
  unfold OperandStack.push push
  by_cases room : s.slots.length < s.bound
  · rw [dif_pos room]
    exact if_pos room
  · rw [dif_neg room]
    exact if_neg room

theorem pop_realize : s.realize.pop = s.pop.map fun (x, s') => (x, s'.realize) := by
  obtain ⟨slots, bound, bounded⟩ := s
  cases slots with
  | nil => rfl
  | cons x rest => rfl

end PlainOperands

/-! ## Plain frames -/

/-- A frame with a plain table and a plain operand stack. -/
structure PlainFrame where
  locals : PlainLocals
  stack : PlainOperands
  method : Option MethodRef
  returnPc : Nat
  native : Bool

namespace PlainFrame

variable (p : PlainFrame)

/-- A frame with the given capacities and without contents, bound to nothing. -/
def ofSizes (maxLocals maxStack : Nat) : PlainFrame :=
  { locals := .ofSize maxLocals
    stack := .empty maxStack
    method := none
    returnPc := 0
    native := false }

/-- The frame that a plain one stands for. -/
def realize : Frame :=
  { locals := p.locals.realize
    stack := p.stack.realize
    method := p.method
    returnPc := p.returnPc
    native := p.native }

/-- Writes to the table. -/
def write (i : Nat) (s : Slot) : FrameReply × PlainFrame :=
  match p.locals.write i s with
  | .ok l => (.done, { p with locals := l })
  | .error e => (.error e, p)

/-- Takes a step on a plain frame. -/
def run : FrameOp → FrameReply × PlainFrame
  | .setReference i v =>
    if v.isReference then p.write i (.reference v) else (.abort (.storedReference v.tag), p)
  | .setInt i v => p.write i (.int v)
  | .setFloat i b => p.write i (.float b)
  | .setLong i v => p.write i (.long v)
  | .setDouble i b => p.write i (.double b)
  | .get i => (.slot (p.locals.slot? i), p)
  | .getReference i => (.value (p.locals.read .reference i), p)
  | .getInt i => (.value (p.locals.read .int i), p)
  | .getFloat i => (.value (p.locals.read .float i), p)
  | .getLong i => (.value (p.locals.read .long i), p)
  | .getDouble i => (.value (p.locals.read .double i), p)
  | .localsSize => (.localsSize p.locals.size (p.locals.size == 0), p)
  | .localsAll => (.slots p.locals.realize.slots, p)
  | .push s =>
    match p.stack.push s with
    | .ok stack => (.done, { p with stack := stack })
    | .error e => (.error e, p)
  | .pop =>
    match p.stack.pop with
    | .ok (s, stack) => (.slot (some s), { p with stack := stack })
    | .error e => (.error e, p)
  | .stackSize => (.stackSize p.stack.slots.length p.stack.slots.isEmpty p.stack.bound, p)
  | .stackAll => (.slots p.stack.slots.reverse, p)
  | .setReturnPc pc => (.done, { p with returnPc := pc })
  | .setNative native => (.done, { p with native := native })
  | .setMethod spec =>
    match spec.build with
    | .ok m => (.done, { p with method := some ⟨m, none⟩ })
    | .error e => (.error e, p)
  | .whole => (.frame p.realize, p)

theorem written_realize (i : Nat) (s : Slot) :
    FrameOp.written p.realize (.ofExcept (p.realize.locals.set i s)) =
      ((p.write i s).1, (p.write i s).2.realize) := by
  have set_eq : p.realize.locals.set i s = (p.locals.write i s).map PlainLocals.realize :=
    p.locals.set_realize i s
  rw [set_eq, write]
  cases p.locals.write i s with
  | ok l => rfl
  | error e => rfl

/-- A step on a frame is the step on the plain one. -/
theorem run_realize (op : FrameOp) : op.run p.realize = ((p.run op).1, (p.run op).2.realize) := by
  cases op with
  | setReference i v =>
      simp only [FrameOp.run, Locals.setReference, run]
      by_cases isReference : v.isReference = true
      · rw [if_pos isReference, if_pos isReference]
        exact p.written_realize i _
      · rw [if_neg isReference, if_neg isReference]
        rfl
  | setInt i v => exact p.written_realize i _
  | setFloat i b => exact p.written_realize i _
  | setLong i v => exact p.written_realize i _
  | setDouble i b => exact p.written_realize i _
  | get i => exact congrArg (fun s => (FrameReply.slot s, p.realize)) (p.locals.get?_realize i)
  | getReference i =>
      have typed : Slot.asReference? = fun s =>
          if s.kind? = some .reference then s.value? else none := by
        funext s
        cases s <;> rfl
      have read_eq : p.realize.locals.getReference? i = p.locals.read .reference i := by
        rw [Locals.getReference?, typed]
        exact p.locals.bind_get?_realize .reference i
      rw [FrameOp.run, read_eq, run]
  | getInt i =>
      refine congrArg (fun v => (FrameReply.value v, p.realize))
        (p.locals.read_realize .int ?_ i)
      intro s
      cases s <;> rfl
  | getFloat i =>
      refine congrArg (fun v => (FrameReply.value v, p.realize))
        (p.locals.read_realize .float ?_ i)
      intro s
      cases s <;> rfl
  | getLong i =>
      refine congrArg (fun v => (FrameReply.value v, p.realize))
        (p.locals.read_realize .long ?_ i)
      intro s
      cases s <;> rfl
  | getDouble i =>
      refine congrArg (fun v => (FrameReply.value v, p.realize))
        (p.locals.read_realize .double ?_ i)
      intro s
      cases s <;> rfl
  | localsSize =>
      simp only [FrameOp.run, run, realize, PlainLocals.size_realize, PlainLocals.isEmpty_realize]
  | localsAll => rfl
  | push s =>
      have push_eq : p.realize.stack.push s = (p.stack.push s).map PlainOperands.realize :=
        p.stack.push_realize s
      simp only [FrameOp.run, run, push_eq]
      cases p.stack.push s with
      | ok stack => rfl
      | error e => rfl
  | pop =>
      have pop_eq : p.realize.stack.pop = p.stack.pop.map fun (x, s') => (x, s'.realize) :=
        p.stack.pop_realize
      simp only [FrameOp.run, run, pop_eq]
      cases p.stack.pop with
      | ok popped => rfl
      | error e => rfl
  | setMethod spec =>
      simp only [FrameOp.run, run]
      cases spec.build with
      | ok m => rfl
      | error e => rfl
  | stackSize | stackAll | setReturnPc pc | setNative native | whole => rfl

/-- The plain frame with the same contents as a frame whose operand stack is within its bound. -/
def ofFrame (f : Frame) (bounded : f.stack.size ≤ f.stack.bound) : PlainFrame :=
  { locals := .ofLocals f.locals
    stack := ⟨f.stack.slots, f.stack.bound, bounded⟩
    method := f.method
    returnPc := f.returnPc
    native := f.native }

theorem realize_ofFrame (f : Frame) (bounded : f.stack.size ≤ f.stack.bound) :
    (ofFrame f bounded).realize = f := by
  simp only [realize, ofFrame, PlainLocals.realize_ofLocals, PlainOperands.realize]

theorem realize_ofSizes (maxLocals maxStack : Nat) :
    (ofSizes maxLocals maxStack).realize = Frame.ofSizes maxLocals maxStack := by
  have empty_eq : (PlainLocals.ofSize maxLocals).realize = Locals.ofSize maxLocals := by
    simp [PlainLocals.realize, PlainLocals.ofSize, PlainLocals.last?, Locals.ofSize]
  simp only [realize, ofSizes, empty_eq]
  rfl

end PlainFrame

/-! ## Plain frame stacks -/

/-- A list of frames, innermost call first, that cannot be longer than its limit. -/
structure PlainStack where
  frames : List PlainFrame
  limit : Nat
  bounded : frames.length ≤ limit

namespace PlainStack

variable (s : PlainStack)

/-- A list without frames. -/
def empty (limit : Nat) : PlainStack := ⟨[], limit, Nat.zero_le limit⟩

/-- Adds a frame, if there is room. -/
def push (p : PlainFrame) : Except Error PlainStack :=
  if room : s.frames.length < s.limit then .ok ⟨p :: s.frames, s.limit, room⟩
  else .error (.stackOverflow s.limit)

/-- Takes the frame that was added last. -/
def pop? : PlainStack → Option (PlainFrame × PlainStack)
  | ⟨[], _, _⟩ => none
  | ⟨p :: rest, limit, bounded⟩ => some (p, ⟨rest, limit, Nat.le_of_succ_le bounded⟩)

/-- Takes a step on the innermost frame. -/
def runTop (op : FrameOp) : PlainStack → FrameReply × PlainStack
  | ⟨[], limit, bounded⟩ => (.noFrame, ⟨[], limit, bounded⟩)
  | ⟨p :: rest, limit, bounded⟩ => ((p.run op).1, ⟨(p.run op).2 :: rest, limit, bounded⟩)

/-- The frame stack that a plain one stands for. -/
def realize : FrameStack := ⟨s.frames.map PlainFrame.realize, s.limit⟩

/-- Takes a step on a plain frame stack.  A frame whose slots do not fit in memory cannot be laid
out. -/
def run : StackOp → Except Abort (StackReply × PlainStack)
  | .pushFrame maxLocals maxStack returnPc =>
    if maxLocals < Nat.pow 2 59 ∧ maxStack < Nat.pow 2 59 then
      match s.push { PlainFrame.ofSizes maxLocals maxStack with returnPc := returnPc } with
      | .ok s' => .ok (.pushed s'.frames.length, s')
      | .error e => .ok (.error e, s)
    else .error .capacityOverflow
  | .popFrame =>
    match s.pop? with
    | some (p, s') => .ok (.frame (some p.realize), s')
    | none => .ok (.frame none, s)
  | .current => .ok (.frame (s.frames.head?.map PlainFrame.realize), s)
  | .depth => .ok (.depth s.frames.length s.frames.isEmpty s.limit, s)
  | .returnPcs => .ok (.returnPcs (s.frames.reverse.map PlainFrame.returnPc), s)
  | .top op => .ok (.top (s.runTop op).1, (s.runTop op).2)

/-- Takes steps one after the other, until one of them aborts. -/
def runAll (s : PlainStack) : List StackOp → Except Abort (List StackReply × PlainStack)
  | [] => .ok ([], s)
  | op :: ops =>
    match s.run op with
    | .error a => .error a
    | .ok (reply, s') => (s'.runAll ops).map fun (replies, last) => (reply :: replies, last)

theorem push_realize (p : PlainFrame) : s.realize.push p.realize = (s.push p).map realize := by
  unfold FrameStack.push push
  have depth_eq : s.realize.depth = s.frames.length := by simp [realize, FrameStack.depth]
  rw [depth_eq]
  by_cases room : s.frames.length < s.limit
  · rw [dif_pos room]
    exact if_pos room
  · rw [dif_neg room]
    exact if_neg room

theorem pop?_realize : s.realize.pop? = s.pop?.map fun (p, s') => (p.realize, s'.realize) := by
  obtain ⟨frames, limit, bounded⟩ := s
  cases frames with
  | nil => rfl
  | cons p rest => rfl

theorem runTop_realize (op : FrameOp) :
    op.runTop s.realize = ((s.runTop op).1, (s.runTop op).2.realize) := by
  obtain ⟨frames, limit, bounded⟩ := s
  cases frames with
  | nil => rfl
  | cons p rest =>
      have run_eq := p.run_realize op
      simp only [FrameOp.runTop, realize, FrameStack.current?, List.map_cons, List.head?_cons,
        run_eq, runTop, FrameStack.replaceTop]

/-- A step on a frame stack is the step on the plain one. -/
theorem run_realize (op : StackOp) :
    op.run s.realize = (s.run op).map fun (reply, s') => (reply, s'.realize) := by
  cases op with
  | pushFrame maxLocals maxStack returnPc =>
      rw [StackOp.run, Frame.allocate_eq, run]
      by_cases fits : maxLocals < Nat.pow 2 59 ∧ maxStack < Nat.pow 2 59
      · rw [if_pos fits, if_pos fits, ← PlainFrame.realize_ofSizes]
        let p : PlainFrame := { PlainFrame.ofSizes maxLocals maxStack with returnPc := returnPc }
        have push_eq : s.realize.push p.realize = (s.push p).map realize := s.push_realize p
        change Except.ok (StackOp.pushed s.realize p.realize) = _
        rw [StackOp.pushed, push_eq]
        cases s.push p with
        | ok s' => simp [Except.map, realize, FrameStack.depth]
        | error e => rfl
      · rw [if_neg fits, if_neg fits]
        rfl
  | popFrame =>
      simp only [StackOp.run, StackOp.popped, s.pop?_realize, run]
      cases s.pop? with
      | none => rfl
      | some popped => rfl
  | current => simp [StackOp.run, run, realize, FrameStack.current?, Except.map]
  | depth => simp [StackOp.run, run, realize, FrameStack.depth, FrameStack.isEmpty, Except.map]
  | returnPcs =>
      simp only [StackOp.run, run, realize, Except.map, ← List.map_reverse, List.map_map]
      rfl
  | top op => simp only [StackOp.run, run, s.runTop_realize, Except.map]

/-- A run on a frame stack is the run on the plain one. -/
theorem runAll_realize (ops : List StackOp) :
    StackOp.runAll s.realize ops =
      (s.runAll ops).map fun (replies, s') => (replies, s'.realize) := by
  induction ops generalizing s with
  | nil => rfl
  | cons op ops ih =>
      rw [StackOp.runAll, s.run_realize, runAll]
      cases s.run op with
      | error a => rfl
      | ok next =>
          obtain ⟨reply, s'⟩ := next
          simp only [Except.map, ih s']
          cases s'.runAll ops with
          | error a => rfl
          | ok last => rfl

end PlainStack

/-! ## Bounds -/

/-- Neither the frame stack nor any operand stack on it is longer than it may be. -/
structure FrameStack.InBounds (s : FrameStack) : Prop where
  depth_le : s.depth ≤ s.maxDepth
  size_le : ∀ f ∈ s.frames, f.stack.size ≤ f.stack.bound

/-- Plain frame stacks stand for the frame stacks that are within their bounds. -/
theorem inBounds_iff (s : FrameStack) : s.InBounds ↔ ∃ p : PlainStack, p.realize = s := by
  constructor
  · rintro ⟨depth_le, size_le⟩
    let frames : List PlainFrame :=
      s.frames.attach.map fun f => PlainFrame.ofFrame f.1 (size_le f.1 f.2)
    have frames_eq : frames.map PlainFrame.realize = s.frames := by
      simp [frames, PlainFrame.realize_ofFrame, Function.comp_def]
    have bounded : frames.length ≤ s.maxDepth := by simpa [frames, FrameStack.depth] using depth_le
    exact ⟨⟨frames, s.maxDepth, bounded⟩, by rw [PlainStack.realize, frames_eq]⟩
  · rintro ⟨p, rfl⟩
    refine ⟨by simpa [PlainStack.realize, FrameStack.depth] using p.bounded, ?_⟩
    intro f member
    obtain ⟨q, _, rfl⟩ := List.mem_map.mp member
    exact q.stack.bounded

/-! ## What a step changes -/

/-- Whether an answer says that a step has failed. -/
def FrameReply.isFailure : FrameReply → Bool
  | error _ | abort _ | noFrame => true
  | done | slot _ | value _ | localsSize .. | stackSize .. | slots _ | frame _ => false

/-- Whether an answer says that a step has failed. -/
def StackReply.isFailure : StackReply → Bool
  | error _ | frame none => true
  | top reply => reply.isFailure
  | pushed _ | frame (some _) | depth .. | returnPcs _ => false

/-- What a step can do to a frame stack: nothing, or it puts a frame on top, takes the innermost one
away, or changes the innermost one within its sizes. -/
inductive StackOp.Effect (s : FrameStack) : StackOp → FrameStack → Prop
  | none (op : StackOp) : Effect s op s
  | pushed {maxLocals maxStack returnPc : Nat} :
      Effect s (.pushFrame maxLocals maxStack returnPc)
        { s with
          frames := { Frame.ofSizes maxLocals maxStack with returnPc := returnPc } :: s.frames }
  | popped {f : Frame} {rest : List Frame} (frames_eq : s.frames = f :: rest) :
      Effect s .popFrame { s with frames := rest }
  | changed {op : FrameOp} {f f' : Frame} {rest : List Frame} (frames_eq : s.frames = f :: rest)
      (size_eq : f'.locals.size = f.locals.size) (bound_eq : f'.stack.bound = f.stack.bound) :
      Effect s (.top op) { s with frames := f' :: rest }

namespace FrameOp

variable {f : Frame}

/-- What a step on a frame leaves alone: its sizes, and everything if it fails. -/
structure Keeps (f : Frame) (result : FrameReply × Frame) : Prop where
  size_eq : result.2.locals.size = f.locals.size
  bound_eq : result.2.stack.bound = f.stack.bound
  failed : result.1.isFailure = true → result.2 = f

theorem keeps_unchanged (f : Frame) (reply : FrameReply) : Keeps f (reply, f) :=
  ⟨rfl, rfl, fun _ => rfl⟩

/-- A step that does not fail may change what it likes, but no size. -/
theorem keeps_changed {f f' : Frame} {reply : FrameReply}
    (size_eq : f'.locals.size = f.locals.size) (bound_eq : f'.stack.bound = f.stack.bound)
    (succeeds : reply.isFailure = false) : Keeps f (reply, f') := by
  refine ⟨size_eq, bound_eq, ?_⟩
  intro fails
  rw [succeeds] at fails
  cases fails

theorem keeps_written {o : Outcome Locals} (sized : ∀ l, o = .ok l → l.size = f.locals.size) :
    Keeps f (written f o) := by
  cases o with
  | ok l => exact keeps_changed (sized l rfl) rfl rfl
  | error e => exact keeps_unchanged f (.error e)
  | abort a => exact keeps_unchanged f (.abort a)

theorem keeps_set (f : Frame) (i : Nat) (x : Slot) :
    Keeps f (written f (.ofExcept (f.locals.set i x))) := by
  apply keeps_written
  intro l stores
  cases set_eq : f.locals.set i x with
  | error e =>
      rw [set_eq] at stores
      cases stores
  | ok l' =>
      rw [set_eq] at stores
      cases stores
      exact Locals.size_of_set set_eq

/-- A step on a frame keeps its sizes, and does nothing if it fails. -/
theorem keeps_run (f : Frame) (op : FrameOp) : Keeps f (op.run f) := by
  cases op with
  | setReference i v =>
      simp only [run, Locals.setReference]
      split
      · exact keeps_set f i _
      · exact keeps_unchanged f _
  | setInt i v => exact keeps_set f i _
  | setFloat i b => exact keeps_set f i _
  | setLong i v => exact keeps_set f i _
  | setDouble i b => exact keeps_set f i _
  | push x =>
      simp only [run, OperandStack.push]
      by_cases room : f.stack.size < f.stack.bound
      · simp only [if_pos room]
        exact keeps_changed rfl rfl rfl
      · simp only [if_neg room]
        exact keeps_unchanged f _
  | pop =>
      simp only [run, OperandStack.pop]
      cases f.stack.slots with
      | nil => exact keeps_unchanged f _
      | cons x rest => exact keeps_changed rfl rfl rfl
  | setMethod spec =>
      simp only [run]
      cases spec.build with
      | ok m => exact keeps_changed rfl rfl rfl
      | error e => exact keeps_unchanged f _
  | setReturnPc pc | setNative native => exact keeps_changed rfl rfl rfl
  | _ => exact keeps_unchanged f _

end FrameOp

namespace StackOp

variable {s s' : FrameStack} {op : StackOp} {reply : StackReply}

/-- What a step does to a frame stack, and that it does nothing if it fails. -/
theorem effect_of_run (done : op.run s = .ok (reply, s')) :
    Effect s op s' ∧ (reply.isFailure = true → s' = s) := by
  cases op with
  | pushFrame maxLocals maxStack returnPc =>
      rw [run, Frame.allocate_eq] at done
      split at done
      · simp only [Except.map, pushed, FrameStack.push] at done
        by_cases room : s.depth < s.maxDepth
        · simp only [if_pos room] at done
          cases done
          exact ⟨.pushed, nofun⟩
        · simp only [if_neg room] at done
          cases done
          exact ⟨.none _, fun _ => rfl⟩
      · cases done
  | popFrame =>
      simp only [run, popped, FrameStack.pop?] at done
      cases frames_eq : s.frames with
      | nil =>
          simp only [frames_eq] at done
          cases done
          exact ⟨.none _, fun _ => rfl⟩
      | cons f rest =>
          simp only [frames_eq] at done
          cases done
          exact ⟨.popped frames_eq, nofun⟩
  | top op =>
      simp only [run, FrameOp.runTop, FrameStack.current?] at done
      cases frames_eq : s.frames with
      | nil =>
          simp only [frames_eq, List.head?_nil] at done
          cases done
          exact ⟨.none _, fun _ => rfl⟩
      | cons f rest =>
          have keeps := FrameOp.keeps_run f op
          simp only [frames_eq, List.head?_cons, FrameStack.replaceTop] at done
          cases done
          refine ⟨.changed frames_eq keeps.size_eq keeps.bound_eq, fun failed => ?_⟩
          rw [keeps.failed failed, ← frames_eq]
  | current | depth | returnPcs =>
      cases done
      exact ⟨.none _, fun _ => rfl⟩

/-- A whole run ends early only where a frame cannot be laid out and is not there to be pushed. -/
theorem run_eq_error_iff (s : FrameStack) (op : StackOp) (a : Abort) :
    op.run s = .error a ↔
      a = .capacityOverflow ∧ ∃ maxLocals maxStack returnPc,
        op = .pushFrame maxLocals maxStack returnPc ∧
          Frame.allocate maxLocals maxStack = .error .capacityOverflow := by
  constructor
  · intro aborts
    cases op with
    | pushFrame maxLocals maxStack returnPc =>
        rw [run, Frame.allocate_eq] at aborts
        split at aborts
        · cases aborts
        · rename_i large
          cases aborts
          refine ⟨rfl, maxLocals, maxStack, returnPc, rfl, ?_⟩
          rw [Frame.allocate_eq, if_neg large]
    | _ => cases aborts
  · rintro ⟨rfl, maxLocals, maxStack, returnPc, rfl, large⟩
    rw [run, large]
    rfl

end StackOp

/-- Frame stacks and plain ones do the same:

* an empty one is what an empty plain one stands for, every frame stack within its bounds is what
  some plain one stands for, and nothing else is;
* from there, every run gives the same answers and leads to the same contents, and so does the
  pushing of any frame;
* a step that fails changes nothing; any other puts a frame on top, takes the innermost one away or
  changes it, and changes neither a size, nor a bound, nor another frame;
* a step is not taken at all only if the frame that it is to push cannot be laid out;
* to store as a reference what is none aborts, be the index inside or outside. -/
theorem frame_stacks_match_plain_ones :
    (∀ limit, (PlainStack.empty limit).realize = FrameStack.empty limit) ∧
      (∀ s : FrameStack, s.InBounds ↔ ∃ p : PlainStack, p.realize = s) ∧
      (∀ (p : PlainStack) (ops : List StackOp), StackOp.runAll p.realize ops =
        (p.runAll ops).map fun (replies, p') => (replies, p'.realize)) ∧
      (∀ (p : PlainStack) (f : PlainFrame),
        p.realize.push f.realize = (p.push f).map PlainStack.realize) ∧
      (∀ (s : FrameStack) (op : StackOp) (reply : StackReply) (s' : FrameStack),
        op.run s = .ok (reply, s') → op.Effect s s' ∧ (reply.isFailure = true → s' = s)) ∧
      (∀ (s : FrameStack) (op : StackOp) (a : Abort), op.run s = .error a ↔
        a = .capacityOverflow ∧ ∃ maxLocals maxStack returnPc,
          op = .pushFrame maxLocals maxStack returnPc ∧
            Frame.allocate maxLocals maxStack = .error .capacityOverflow) ∧
      ∀ (f : Frame) (i : Nat) (v : Value), v.isReference = false →
        (FrameOp.setReference i v).run f = (.abort (.storedReference v.tag), f) := by
  refine ⟨fun limit => rfl, inBounds_iff, PlainStack.runAll_realize, PlainStack.push_realize, ?_,
    StackOp.run_eq_error_iff, ?_⟩
  · intro s op reply s' done
    exact StackOp.effect_of_run done
  · intro f i v notReference
    simp [FrameOp.run, Locals.setReference, notReference, FrameOp.written]

end ThreadEngine
