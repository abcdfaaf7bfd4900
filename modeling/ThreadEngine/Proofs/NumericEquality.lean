import ThreadEngine.Proofs.IeeeFloats
import ThreadEngine.Frame.Locals
import ThreadEngine.Frame.OperandStack
import Mathlib.Data.List.Forall2

set_option autoImplicit false

/-!
# Equality of what frames hold

Values, slots, locals tables and operand stacks are compared variant by variant: references by
allocation, floats as numbers.  What is compared has a `shape`, everything but the bits of floats,
and the list of its `floats`, from left to right and also those of a value that a slot keeps as a
reference.  Two things are equal exactly if their shapes are, and if their floats agree place by
place (`Value.same_iff`, `Slot.same_iff`, `Locals.same_iff`, `OperandStack.same_iff`).  That makes
each of the four equalities symmetric and transitive, and reflexive but for NaNs
(`equality_compares_numbers`).
-/

namespace ThreadEngine

/-! ## Places that hold a float -/

/-- The bits at a place that holds a float or a double. -/
structure FloatBits where
  format : Number.Ieee
  bits : Nat
  deriving DecidableEq, Repr, Inhabited

namespace FloatBits

/-- The bits of a float. -/
def single (bits : UInt32) : FloatBits := ⟨.binary32, bits.toNat⟩

/-- The bits of a double. -/
def double (bits : UInt64) : FloatBits := ⟨.binary64, bits.toNat⟩

/-- Whether the place holds a NaN. -/
def isNaN (p : FloatBits) : Bool := p.format.isNaN p.bits

/-- Whether the place holds a zero of either sign. -/
def isZero (p : FloatBits) : Bool := p.format.isZero p.bits

/-- Two places of one format hold the same number: neither is a NaN, and the bits are the same or
both are zeros. -/
structure Agree (p q : FloatBits) : Prop where
  format_eq : p.format = q.format
  left : p.isNaN = false
  right : q.isNaN = false
  same : p.bits = q.bits ∨ p.isZero = true ∧ q.isZero = true

variable {p q r : FloatBits}

theorem Agree.symm (agree : p.Agree q) : q.Agree p := by
  refine ⟨agree.format_eq.symm, agree.right, agree.left, ?_⟩
  rcases agree.same with same | ⟨zero, zero'⟩
  · exact .inl same.symm
  · exact .inr ⟨zero', zero⟩

theorem isZero_congr (format_eq : p.format = q.format) (bits_eq : p.bits = q.bits) :
    p.isZero = q.isZero := by
  rw [isZero, isZero, format_eq, bits_eq]

theorem Agree.trans (first : p.Agree q) (second : q.Agree r) : p.Agree r := by
  refine ⟨first.format_eq.trans second.format_eq, first.left, second.right, ?_⟩
  rcases first.same with same | ⟨zero, zero'⟩
  · rcases second.same with same' | ⟨zero, zero'⟩
    · exact .inl (same.trans same')
    · exact .inr ⟨(isZero_congr first.format_eq same).trans zero, zero'⟩
  · rcases second.same with same' | ⟨_, zero''⟩
    · exact .inr ⟨zero, (isZero_congr second.format_eq same').symm.trans zero'⟩
    · exact .inr ⟨zero, zero''⟩

/-- A place agrees with itself unless it holds a NaN. -/
theorem agree_self_iff (p : FloatBits) : p.Agree p ↔ p.isNaN = false :=
  ⟨fun agree => agree.left, fun number => ⟨rfl, number, number, .inl rfl⟩⟩

@[simp] theorem agree_single_iff (a b : UInt32) :
    (single a).Agree (single b) ↔ sameFloat a b = true := by
  rw [sameFloat, Number.Ieee.sameNumber_iff]
  constructor
  · intro agree
    exact ⟨agree.left, agree.right, agree.same⟩
  · rintro ⟨left, right, same⟩
    exact ⟨rfl, left, right, same⟩

@[simp] theorem agree_double_iff (a b : UInt64) :
    (double a).Agree (double b) ↔ sameDouble a b = true := by
  rw [sameDouble, Number.Ieee.sameNumber_iff]
  constructor
  · intro agree
    exact ⟨agree.left, agree.right, agree.same⟩
  · rintro ⟨left, right, same⟩
    exact ⟨rfl, left, right, same⟩

end FloatBits

/-- Place by place, two sequences of floats hold the same numbers. -/
abbrev FloatsAgree (ps qs : List FloatBits) : Prop := List.Forall₂ FloatBits.Agree ps qs

theorem FloatsAgree.symm {ps qs : List FloatBits} (agree : FloatsAgree ps qs) :
    FloatsAgree qs ps :=
  (agree.imp fun _ _ => FloatBits.Agree.symm).flip

theorem FloatsAgree.trans {ps qs rs : List FloatBits} (first : FloatsAgree ps qs)
    (second : FloatsAgree qs rs) : FloatsAgree ps rs := by
  induction first generalizing rs with
  | nil => exact second
  | cons head _ ih =>
    cases second with
    | cons head' tail' => exact .cons (head.trans head') (ih tail')

theorem floatsAgree_append_iff {ps qs ps' qs' : List FloatBits}
    (length_eq : ps.length = qs.length) :
    FloatsAgree (ps ++ ps') (qs ++ qs') ↔ FloatsAgree ps qs ∧ FloatsAgree ps' qs' := by
  constructor
  · intro agree
    have front := List.forall₂_take_append _ _ _ agree
    have back := List.forall₂_drop_append _ _ _ agree
    rw [← length_eq, List.take_left] at front
    rw [← length_eq, List.drop_left] at back
    exact ⟨front, back⟩
  · rintro ⟨front, back⟩
    exact List.rel_append front back

/-! ## Shapes -/

/-- What a value is but for the bits of a float: of a reference, the allocation. -/
inductive Value.Shape where
  | null
  | object (allocation : Nat)
  | objectArray (allocation : Nat)
  | typeArray (allocation : Nat)
  | int (value : Int32)
  | float
  | long (value : Int64)
  | double
  | returnAddress (target : Nat)
  deriving DecidableEq, Repr, Inhabited

/-- How many floats a value of the shape holds. -/
def Value.Shape.floatCount : Value.Shape → Nat
  | float | double => 1
  | null | object _ | objectArray _ | typeArray _ | int _ | long _ | returnAddress _ => 0

/-- What a slot is but for the bits of a float. -/
inductive Slot.Shape where
  | empty
  | reference (value : Value.Shape)
  | int (value : Int32)
  | float
  | long (value : Int64)
  | double
  deriving DecidableEq, Repr, Inhabited

/-- How many floats a slot of the shape holds. -/
def Slot.Shape.floatCount : Slot.Shape → Nat
  | reference v => v.floatCount
  | float | double => 1
  | empty | int _ | long _ => 0

/-- What an operand stack is but for the bits of floats. -/
structure OperandStack.Shape where
  slots : List Slot.Shape
  bound : Nat
  deriving DecidableEq, Repr, Inhabited

namespace Value

/-- The shape of a value. -/
def shape : Value → Shape
  | null => .null
  | object ref => .object ref.allocation
  | objectArray ref => .objectArray ref.allocation
  | typeArray ref => .typeArray ref.allocation
  | primitive (.int v) => .int v
  | primitive (.float _) => .float
  | primitive (.long v) => .long v
  | primitive (.double _) => .double
  | returnAddress target => .returnAddress target

/-- The floats in a value. -/
def floats : Value → List FloatBits
  | primitive (.float b) => [.single b]
  | primitive (.double b) => [.double b]
  | null | object _ | objectArray _ | typeArray _ | primitive (.int _) | primitive (.long _)
  | returnAddress _ => []

theorem length_floats (v : Value) : v.floats.length = v.shape.floatCount := by
  cases v with
  | primitive p => cases p <;> rfl
  | _ => rfl

/-- Equality of values, place by place. -/
theorem same_iff (a b : Value) :
    a.same b = true ↔ a.shape = b.shape ∧ FloatsAgree a.floats b.floats := by
  cases a with
  | primitive p =>
    cases b with
    | primitive q =>
      cases p <;> cases q <;> simp [same, Primitive.same, shape, floats, FloatsAgree]
    | _ => cases p <;> simp [same, shape]
  | _ =>
    cases b with
    | primitive q => cases q <;> simp [same, shape]
    | _ => simp [same, shape, floats, ObjectRef.same, ArrayRef.same, FloatsAgree]

end Value

namespace Slot

/-- The shape of a slot. -/
def shape : Slot → Shape
  | empty => .empty
  | reference v => .reference v.shape
  | int v => .int v
  | float _ => .float
  | long v => .long v
  | double _ => .double

/-- The floats in a slot, also those of a value that is kept as a reference. -/
def floats : Slot → List FloatBits
  | reference v => v.floats
  | float b => [.single b]
  | double b => [.double b]
  | empty | int _ | long _ => []

theorem length_floats (s : Slot) : s.floats.length = s.shape.floatCount := by
  cases s with
  | reference v => exact v.length_floats
  | _ => rfl

/-- Equality of slots, place by place. -/
theorem same_iff (a b : Slot) :
    a.same b = true ↔ a.shape = b.shape ∧ FloatsAgree a.floats b.floats := by
  cases a with
  | reference v =>
    cases b with
    | reference u => simp [same, shape, floats, Value.same_iff]
    | _ => simp [same, shape]
  | _ => cases b <;> simp [same, shape, floats, FloatsAgree]

/-- Equality of sequences of slots, place by place. -/
theorem sameAll_iff (as bs : List Slot) :
    sameAll as bs = true ↔
      as.map shape = bs.map shape ∧ FloatsAgree (as.flatMap floats) (bs.flatMap floats) := by
  induction as generalizing bs with
  | nil => cases bs <;> simp [sameAll, FloatsAgree]
  | cons a as ih =>
    cases bs with
    | nil => simp [sameAll]
    | cons b bs =>
      -- The floats of the two heads are only next to each other because their shapes are equal.
      have heads (shape_eq : a.shape = b.shape) : a.floats.length = b.floats.length := by
        rw [length_floats, length_floats, shape_eq]
      simp only [sameAll, Bool.and_eq_true, same_iff, ih, List.map_cons, List.cons.injEq,
        List.flatMap_cons]
      constructor
      · rintro ⟨⟨shape_eq, agree⟩, shapes_eq, agreeAll⟩
        exact ⟨⟨shape_eq, shapes_eq⟩,
          (floatsAgree_append_iff (heads shape_eq)).mpr ⟨agree, agreeAll⟩⟩
      · rintro ⟨⟨shape_eq, shapes_eq⟩, agreeBoth⟩
        obtain ⟨agree, agreeAll⟩ := (floatsAgree_append_iff (heads shape_eq)).mp agreeBoth
        exact ⟨⟨shape_eq, agree⟩, shapes_eq, agreeAll⟩

end Slot

namespace Locals

/-- The shapes of the slots. -/
def shape (l : Locals) : List Slot.Shape := l.slots.map Slot.shape

/-- The floats in the table. -/
def floats (l : Locals) : List FloatBits := l.slots.flatMap Slot.floats

/-- Equality of locals tables, place by place. -/
theorem same_iff (a b : Locals) :
    a.same b = true ↔ a.shape = b.shape ∧ FloatsAgree a.floats b.floats :=
  Slot.sameAll_iff a.slots b.slots

end Locals

namespace OperandStack

/-- The bound, and the shapes of the slots. -/
def shape (s : OperandStack) : Shape := ⟨s.slots.map Slot.shape, s.bound⟩

/-- The floats on the stack. -/
def floats (s : OperandStack) : List FloatBits := s.slots.flatMap Slot.floats

/-- Equality of operand stacks, place by place. -/
theorem same_iff (a b : OperandStack) :
    a.same b = true ↔ a.shape = b.shape ∧ FloatsAgree a.floats b.floats := by
  simp only [same, Bool.and_eq_true, beq_iff_eq, Slot.sameAll_iff, shape, Shape.mk.injEq, floats]
  tauto

end OperandStack

/-! ## Partial equivalence -/

/-- An equality that compares shapes, and numbers wherever there is a float. -/
structure IsNumericEquality {α σ : Type} (same : α → α → Bool) (shape : α → σ)
    (floats : α → List FloatBits) : Prop where
  symm : ∀ x y, same x y = true → same y x = true
  trans : ∀ x y z, same x y = true → same y z = true → same x z = true
  same_self_iff : ∀ x, same x x = true ↔ ∀ p ∈ floats x, p.isNaN = false
  same_iff : ∀ x y, same x y = true ↔ shape x = shape y ∧ FloatsAgree (floats x) (floats y)

theorem isNumericEquality_of_iff {α σ : Type} {same : α → α → Bool} {shape : α → σ}
    {floats : α → List FloatBits}
    (same_iff : ∀ x y, same x y = true ↔ shape x = shape y ∧ FloatsAgree (floats x) (floats y)) :
    IsNumericEquality same shape floats where
  symm x y equal := by
    rw [same_iff] at equal ⊢
    exact ⟨equal.1.symm, equal.2.symm⟩
  trans x y z first second := by
    rw [same_iff] at first second ⊢
    exact ⟨first.1.trans second.1, first.2.trans second.2⟩
  same_self_iff x := by
    rw [same_iff, FloatsAgree, List.forall₂_same]
    simp only [FloatBits.agree_self_iff, true_and]
  same_iff := same_iff

/-- The bits of floats and doubles are compared as the floats they stand for.  Equality of values,
slots, locals tables and operand stacks is a partial equivalence that is reflexive but for NaNs, and
compares shapes, and numbers wherever there is a float.  An array of references is never an array of
numbers, also where it is the same array. -/
theorem equality_compares_numbers :
    (∀ a b, sameFloat a b = (Float32.ofBits a == Float32.ofBits b)) ∧
      (∀ a b, sameDouble a b = (Float.ofBits a == Float.ofBits b)) ∧
      IsNumericEquality Value.same Value.shape Value.floats ∧
      IsNumericEquality Slot.same Slot.shape Slot.floats ∧
      IsNumericEquality Locals.same Locals.shape Locals.floats ∧
      IsNumericEquality OperandStack.same OperandStack.shape OperandStack.floats ∧
      ∀ a, (Value.objectArray a).same (.typeArray a) = false := by
  refine ⟨sameFloat_eq, sameDouble_eq, isNumericEquality_of_iff Value.same_iff,
    isNumericEquality_of_iff Slot.same_iff, isNumericEquality_of_iff Locals.same_iff,
    isNumericEquality_of_iff OperandStack.same_iff, ?_⟩
  intro a
  rw [← Bool.not_eq_true, Value.same_iff]
  rintro ⟨shape_eq, -⟩
  cases shape_eq

/-- The two zeros are the same number, a NaN is not even itself, and a NaN is also seen in a value
that a slot keeps as a reference. -/
example :
    (Value.primitive (.float 0)).same (.primitive (.float 0x80000000)) = true ∧
      (Slot.reference (.primitive (.double 0x7FF8000000000000))).same
        (.reference (.primitive (.double 0x7FF8000000000000))) = false := by
  decide

end ThreadEngine
