import ThreadEngine.Method
import Mathlib.Logic.ExistsUnique

set_option autoImplicit false

/-!
# The grammar of descriptors

Field types as trees, and descriptors as forms: a list of parameters and a result.  A tree has one
text and one kind, and the readers of `ThreadEngine.Method.Descriptor` are held against them.

Reading a field type takes exactly the text of one tree from the front and hands the rest back
(`fieldType?_eq_some_iff`), and no two trees can be taken from the same front (`text_append_inj`).
So a list of trees can be recovered from the concatenation of their texts, and a descriptor is read
exactly if it is the text of a form, which is then the only one (`build_reads_descriptor`).
-/

namespace ThreadEngine

namespace Descriptor

/-! ## Names -/

/-- Skipping a name goes past the first `;`. -/
theorem skipName?_eq_some_iff {s r : List Char} :
    skipName? s = some r ↔ ∃ name : List Char, ';' ∉ name ∧ s = name ++ ';' :: r := by
  induction s with
  | nil => simp [skipName?]
  | cons c rest ih =>
      by_cases ends : c = ';'
      · subst ends
        simp only [skipName?, if_true, Option.some.injEq]
        constructor
        · rintro rfl
          exact ⟨[], List.not_mem_nil, rfl⟩
        · rintro ⟨name, unended, split⟩
          cases name with
          | nil => exact (List.cons.inj split).2
          | cons c' name =>
              refine absurd ?_ unended
              rw [(List.cons.inj split).1]
              exact List.mem_cons_self
      · simp only [skipName?, ends, if_false, ih]
        constructor
        · rintro ⟨name, unended, rfl⟩
          exact ⟨c :: name, by simp [unended, Ne.symm ends], rfl⟩
        · rintro ⟨name, unended, split⟩
          cases name with
          | nil => exact absurd (List.cons.inj split).1 ends
          | cons c' name =>
              exact ⟨name, fun member => unended (List.mem_cons_of_mem c' member),
                (List.cons.inj split).2⟩

/-! ## Field types -/

/-- The types that are one letter. -/
inductive Basic where
  | byte
  | boolean
  | char
  | short
  | int
  | float
  | long
  | double
  deriving DecidableEq, Repr, Inhabited

/-- The letter of a basic type. -/
def Basic.letter : Basic → Char
  | byte => 'B'
  | boolean => 'Z'
  | char => 'C'
  | short => 'S'
  | int => 'I'
  | float => 'F'
  | long => 'J'
  | double => 'D'

/-- The kind of a basic type. -/
def Basic.kind : Basic → ValueType
  | byte => .byte
  | boolean => .boolean
  | char => .char
  | short => .short
  | int => .int
  | float => .float
  | long => .long
  | double => .double

/-- A class name: it is not empty, and the `;` that ends it does not occur in it. -/
structure ClassName where
  chars : List Char
  nonempty : chars ≠ []
  unended : ';' ∉ chars

/-- A field type. -/
inductive FieldType where
  | basic (b : Basic)
  | object (name : ClassName)
  | array (element : FieldType)

namespace FieldType

/-- The text of a field type. -/
def text : FieldType → List Char
  | basic b => [b.letter]
  | object name => 'L' :: (name.chars ++ [';'])
  | array element => '[' :: element.text

/-- The kind of a field type: arrays are of one kind, whatever their elements are. -/
def kind : FieldType → ValueType
  | basic b => b.kind
  | object _ => .object
  | array _ => .array

/-- The texts of some field types, one after the other. -/
def texts (ts : List FieldType) : List Char := ts.flatMap text

@[simp] theorem texts_nil : texts [] = [] := rfl

@[simp] theorem texts_cons (t : FieldType) (ts : List FieldType) :
    texts (t :: ts) = t.text ++ texts ts := List.flatMap_cons

theorem text_ne_nil (t : FieldType) : t.text ≠ [] := by
  cases t <;> simp [text]

theorem kind_ne_void (t : FieldType) : t.kind ≠ .void := by
  cases t with
  | basic b => cases b <;> nofun
  | object name | array element => nofun

/-- No two field types can be taken from the same front, so none begins with another one. -/
theorem text_append_inj {t u : FieldType} {r s : List Char} (h : t.text ++ r = u.text ++ s) :
    t = u ∧ r = s := by
  induction t generalizing u with
  | basic b =>
      cases u with
      | basic b' =>
          obtain ⟨letter_eq, rest_eq⟩ := List.cons.inj h
          refine ⟨?_, rest_eq⟩
          cases b <;> cases b' <;> first | rfl | exact absurd letter_eq (by decide)
      | object name | array element =>
          have letter_eq := (List.cons.inj h).1
          cases b <;> exact absurd letter_eq (by decide)
  | object name =>
      cases u with
      | object name' =>
          obtain ⟨chars, _, unended⟩ := name
          obtain ⟨chars', _, unended'⟩ := name'
          simp only [text, List.cons_append, List.append_assoc, List.nil_append,
            List.cons.injEq, true_and] at h
          have rest_eq : r = s := by
            have skipped : skipName? (chars ++ ';' :: r) = some r :=
              skipName?_eq_some_iff.mpr ⟨chars, unended, rfl⟩
            have skipped' : skipName? (chars ++ ';' :: r) = some s :=
              skipName?_eq_some_iff.mpr ⟨chars', unended', h⟩
            exact Option.some.inj (skipped.symm.trans skipped')
          subst rest_eq
          cases List.append_cancel_right h
          exact ⟨rfl, rfl⟩
      | basic b =>
          have letter_eq := (List.cons.inj h).1
          cases b <;> exact absurd letter_eq (by decide)
      | array element => exact absurd (List.cons.inj h).1 (by decide)
  | array element ih =>
      cases u with
      | array element' =>
          obtain ⟨rfl, rest_eq⟩ := ih (List.cons.inj h).2
          exact ⟨rfl, rest_eq⟩
      | basic b =>
          have letter_eq := (List.cons.inj h).1
          cases b <;> exact absurd letter_eq (by decide)
      | object name => exact absurd (List.cons.inj h).1 (by decide)

/-- Field types can be recovered from their concatenation. -/
theorem texts_inj {ts us : List FieldType} (h : texts ts = texts us) : ts = us := by
  induction ts generalizing us with
  | nil =>
      cases us with
      | nil => rfl
      | cons u us => simp [text_ne_nil] at h
  | cons t ts ih =>
      cases us with
      | nil => simp [text_ne_nil] at h
      | cons u us =>
          rw [texts_cons, texts_cons] at h
          obtain ⟨rfl, rest_eq⟩ := text_append_inj h
          rw [ih rest_eq]

end FieldType

/-! ## Reading field types -/

theorem exists_basic_of_letter? {c : Char} {k : ValueType} (h : letter? c = some k) :
    ∃ b : Basic, b.letter = c ∧ b.kind = k := by
  unfold letter? at h
  split at h
  · exact ⟨.byte, rfl, Option.some.inj h⟩
  · exact ⟨.boolean, rfl, Option.some.inj h⟩
  · exact ⟨.char, rfl, Option.some.inj h⟩
  · exact ⟨.short, rfl, Option.some.inj h⟩
  · exact ⟨.int, rfl, Option.some.inj h⟩
  · exact ⟨.float, rfl, Option.some.inj h⟩
  · exact ⟨.long, rfl, Option.some.inj h⟩
  · exact ⟨.double, rfl, Option.some.inj h⟩
  · cases h

/-- Skipping a class type goes past the `;` that ends its name. -/
theorem skipClass?_eq_some_iff {s r : List Char} :
    skipClass? s = some r ↔ ∃ name : ClassName, s = name.chars ++ ';' :: r := by
  cases s with
  | nil => simp [skipClass?]
  | cons c rest =>
      by_cases ends : c = ';'
      · subst ends
        simp only [skipClass?, if_true, reduceCtorEq, false_iff, not_exists]
        rintro ⟨chars, nonempty, unended⟩ split
        cases chars with
        | nil => exact nonempty rfl
        | cons c' chars =>
            refine unended ?_
            rw [(List.cons.inj split).1]
            exact List.mem_cons_self
      · simp only [skipClass?, ends, if_false, skipName?_eq_some_iff]
        constructor
        · rintro ⟨name, unended, rfl⟩
          refine ⟨⟨c :: name, List.cons_ne_nil c name, ?_⟩, rfl⟩
          simp [unended, Ne.symm ends]
        · rintro ⟨⟨chars, nonempty, unended⟩, split⟩
          cases chars with
          | nil => exact absurd rfl nonempty
          | cons c' chars =>
              exact ⟨chars, fun member => unended (List.mem_cons_of_mem c' member),
                (List.cons.inj split).2⟩

/-- A field type is read from the front, whatever follows it. -/
theorem fieldType?_text_append (t : FieldType) (r : List Char) :
    fieldType? (t.text ++ r) = some (t.kind, r) := by
  induction t with
  | basic b => cases b <;> rfl
  | object name =>
      have skipped : skipClass? (name.chars ++ ';' :: r) = some r :=
        skipClass?_eq_some_iff.mpr ⟨name, rfl⟩
      simp [FieldType.text, fieldType?, skipped, FieldType.kind]
  | array element ih => simp [FieldType.text, fieldType?, ih, FieldType.kind]

/-- Reading a field type takes the text of one from the front, and hands back the rest. -/
theorem fieldType?_eq_some_iff {s r : List Char} {k : ValueType} :
    fieldType? s = some (k, r) ↔ ∃ t : FieldType, s = t.text ++ r ∧ t.kind = k := by
  constructor
  · intro h
    induction s generalizing k with
    | nil => cases h
    | cons c rest ih =>
        simp only [fieldType?] at h
        split at h
        · rename_i class_eq
          obtain ⟨r', skipped, read_eq⟩ := Option.map_eq_some_iff.mp h
          obtain ⟨name, rfl⟩ := skipClass?_eq_some_iff.mp skipped
          cases read_eq
          exact ⟨.object name, by simp [FieldType.text, class_eq], rfl⟩
        · split at h
          · rename_i array_eq
            obtain ⟨⟨k', r'⟩, element_eq, read_eq⟩ := Option.map_eq_some_iff.mp h
            cases read_eq
            obtain ⟨element, rfl, _⟩ := ih element_eq
            exact ⟨.array element, by simp [FieldType.text, array_eq], rfl⟩
          · obtain ⟨k', letter_eq, read_eq⟩ := Option.map_eq_some_iff.mp h
            cases read_eq
            obtain ⟨b, rfl, rfl⟩ := exists_basic_of_letter? letter_eq
            exact ⟨.basic b, rfl, rfl⟩
  · rintro ⟨t, rfl, rfl⟩
    exact fieldType?_text_append t r

/-- After a field type, reading goes on with the rest. -/
theorem fieldTypes?_of_read {s r : List Char} {k : ValueType}
    (read : fieldType? s = some (k, r)) : fieldTypes? s = (fieldTypes? r).map (k :: ·) := by
  cases s with
  | nil => cases read
  | cons c cs =>
      rw [fieldTypes?.eq_def]
      dsimp only
      split
      · rename_i unread
        cases read.symm.trans unread
      · rename_i read'
        cases read.symm.trans read'
        rfl

/-- Reading field types until nothing is left takes a concatenation apart. -/
theorem fieldTypes?_eq_some_iff {s : List Char} {ks : List ValueType} :
    fieldTypes? s = some ks ↔
      ∃ ts : List FieldType, s = FieldType.texts ts ∧ ts.map FieldType.kind = ks := by
  constructor
  · intro h
    fun_induction fieldTypes? s generalizing ks with
    | case1 =>
        cases h
        exact ⟨[], rfl, rfl⟩
    | case2 c cs unread => cases h
    | case3 c cs k rest read _ ih =>
        obtain ⟨ks', rest_eq, rfl⟩ := Option.map_eq_some_iff.mp h
        obtain ⟨ts, rfl, rfl⟩ := ih rest_eq
        obtain ⟨t, split, rfl⟩ := fieldType?_eq_some_iff.mp read
        exact ⟨t :: ts, by rw [FieldType.texts_cons, split], rfl⟩
  · rintro ⟨ts, rfl, rfl⟩
    induction ts with
    | nil => rw [FieldType.texts_nil, fieldTypes?, List.map_nil]
    | cons t ts ih =>
        rw [FieldType.texts_cons, fieldTypes?_of_read (fieldType?_text_append t _), ih]
        rfl

/-! ## Descriptors -/

/-- A result type: nothing, or a field type. -/
inductive ResultType where
  | void
  | field (t : FieldType)

/-- The text of a result type. -/
def ResultType.text : ResultType → List Char
  | void => ['V']
  | field t => t.text

/-- The kind of a result type. -/
def ResultType.kind : ResultType → ValueType
  | void => .void
  | field t => t.kind

/-- No field type is written as nothing is. -/
theorem FieldType.text_ne_void (t : FieldType) : t.text ≠ ResultType.void.text := by
  cases t with
  | basic b => cases b <;> decide
  | object name => simp [text, ResultType.text]
  | array element => simp [text, ResultType.text]

theorem ResultType.text_inj {r r' : ResultType} (h : r.text = r'.text) : r = r' := by
  cases r with
  | void =>
      cases r' with
      | void => rfl
      | field t => exact absurd h.symm t.text_ne_void
  | field t =>
      cases r' with
      | void => exact absurd h t.text_ne_void
      | field u =>
          have same : t.text ++ [] = u.text ++ [] := congrArg (· ++ []) h
          rw [(FieldType.text_append_inj same).1]

/-- Only nothing is of the kind of nothing. -/
theorem ResultType.kind_eq_void_iff (r : ResultType) : r.kind = .void ↔ r.text = ['V'] := by
  cases r with
  | void => exact ⟨fun _ => rfl, fun _ => rfl⟩
  | field t => exact ⟨fun h => absurd h t.kind_ne_void, fun h => absurd h t.text_ne_void⟩

/-- Reading a result type takes a whole text. -/
theorem result_eq_ok_iff {s : List Char} {k : ValueType} :
    result s = .ok k ↔ ∃ r : ResultType, s = r.text ∧ r.kind = k := by
  unfold result
  split
  · rename_i void_eq
    subst void_eq
    constructor
    · intro h
      exact ⟨.void, rfl, Except.ok.inj h⟩
    · rintro ⟨r, same, rfl⟩
      rw [(ResultType.kind_eq_void_iff r).mpr same.symm]
  · rename_i not_void
    constructor
    · intro h
      split at h
      · cases h
      · rename_i k' read
        cases h
        obtain ⟨t, rfl, rfl⟩ := fieldType?_eq_some_iff.mp read
        exact ⟨.field t, by simp [ResultType.text], rfl⟩
      · cases h
    · rintro ⟨r, rfl, rfl⟩
      cases r with
      | void => exact absurd rfl not_void
      | field t =>
          have read : fieldType? t.text = some (t.kind, []) := by
            simpa using fieldType?_text_append t []
          simp only [ResultType.text, read, ResultType.kind]

/-- Splitting cuts at the first closing parenthesis. -/
theorem splitClose?_eq_some_iff {s inside after : List Char} :
    splitClose? s = some (inside, after) ↔ ')' ∉ inside ∧ s = inside ++ ')' :: after := by
  induction s generalizing inside after with
  | nil => simp [splitClose?]
  | cons c rest ih =>
      by_cases closes : c = ')'
      · subst closes
        simp only [splitClose?, if_true, Option.some.injEq, Prod.mk.injEq]
        constructor
        · rintro ⟨rfl, rfl⟩
          exact ⟨List.not_mem_nil, rfl⟩
        · rintro ⟨unclosed, split⟩
          cases inside with
          | nil => exact ⟨rfl, (List.cons.inj split).2⟩
          | cons c' inside =>
              refine absurd ?_ unclosed
              rw [(List.cons.inj split).1]
              exact List.mem_cons_self
      · simp only [splitClose?, closes, if_false, Option.map_eq_some_iff, Prod.exists,
          Prod.mk.injEq, ih]
        constructor
        · rintro ⟨inside', after', ⟨unclosed, rfl⟩, rfl, rfl⟩
          exact ⟨by simp [unclosed, Ne.symm closes], rfl⟩
        · rintro ⟨unclosed, split⟩
          cases inside with
          | nil => exact absurd (List.cons.inj split).1 closes
          | cons c' inside =>
              obtain ⟨rfl, rfl⟩ := List.cons.inj split
              exact ⟨inside, after,
                ⟨fun member => unclosed (List.mem_cons_of_mem c member), rfl⟩, rfl, rfl⟩

/-- A descriptor, taken apart.  A closing parenthesis inside a parameter would end the parameters,
so none has one; the result may have them. -/
structure Form where
  params : List FieldType
  result : ResultType
  unclosed : ∀ t ∈ params, ')' ∉ t.text

namespace Form

/-- The text of a descriptor. -/
def text (form : Form) : List Char :=
  '(' :: (FieldType.texts form.params ++ ')' :: form.result.text)

/-- What a descriptor means. -/
def signature (form : Form) : Signature := ⟨form.params.map FieldType.kind, form.result.kind⟩

theorem unclosed_texts (form : Form) : ')' ∉ FieldType.texts form.params := by
  intro member
  obtain ⟨t, among, inside⟩ := List.mem_flatMap.mp member
  exact form.unclosed t among inside

/-- The parameters of a form are what stands before the first closing parenthesis. -/
theorem splitClose?_text (form : Form) :
    splitClose? (FieldType.texts form.params ++ ')' :: form.result.text) =
      some (FieldType.texts form.params, form.result.text) :=
  splitClose?_eq_some_iff.mpr ⟨form.unclosed_texts, rfl⟩

/-- A descriptor can be taken apart in one way only. -/
theorem text_inj {form form' : Form} (h : form.text = form'.text) : form = form' := by
  have inner := (List.cons.inj h).2
  have split := form.splitClose?_text
  rw [inner, form'.splitClose?_text, Option.some.injEq, Prod.mk.injEq] at split
  obtain ⟨params, result, _⟩ := form
  obtain ⟨params', result', _⟩ := form'
  cases FieldType.texts_inj split.1
  cases ResultType.text_inj split.2
  rfl

end Form

/-- A descriptor is read exactly if it is the text of a form, and means what the form means. -/
theorem parse_eq_ok_iff {s : List Char} {sig : Signature} :
    parse s = .ok sig ↔ ∃ form : Form, form.text = s ∧ form.signature = sig := by
  constructor
  · intro h
    unfold parse at h
    split at h
    · cases h
    · split at h
      · rename_i c rest open_eq
        split at h
        · cases h
        · rename_i inside after split_eq
          split at h
          · cases h
          · rename_i ks params_eq
            cases result_eq : result after with
            | error fault =>
                rw [result_eq] at h
                cases h
            | ok k =>
                rw [result_eq] at h
                cases h
                obtain ⟨unclosed, rfl⟩ := splitClose?_eq_some_iff.mp split_eq
                obtain ⟨ts, rfl, rfl⟩ := fieldTypes?_eq_some_iff.mp params_eq
                obtain ⟨r, rfl, rfl⟩ := result_eq_ok_iff.mp result_eq
                refine ⟨⟨ts, r, fun t among inside => unclosed ?_⟩, ?_, rfl⟩
                · exact List.mem_flatMap.mpr ⟨t, among, inside⟩
                · rw [Form.text, open_eq]
      · cases h
  · rintro ⟨form, rfl, rfl⟩
    have params_eq : fieldTypes? (FieldType.texts form.params) =
        some (form.params.map FieldType.kind) := fieldTypes?_eq_some_iff.mpr ⟨_, rfl, rfl⟩
    have result_eq : result form.result.text = .ok form.result.kind :=
      result_eq_ok_iff.mpr ⟨_, rfl, rfl⟩
    simp only [parse, Form.text, if_true, form.splitClose?_text, params_eq, result_eq]
    rfl

end Descriptor

namespace MethodSpec

open Descriptor

/-- The method that a specification declares, if its descriptor is the text of a form. -/
def methodOf (spec : MethodSpec) (form : Form) : Method :=
  { name := spec.name
    descriptor := spec.descriptor
    isStatic := spec.isStatic
    isNative := spec.isNative
    maxLocals := spec.maxLocals
    maxStack := spec.maxStack
    argTypes := (if spec.isStatic then [] else [.object]) ++ form.params.map FieldType.kind
    returnType := form.result.kind }

/-- A method is built exactly from the descriptors that can be taken apart.  There is one way to
take such a descriptor apart, and the kinds of its parts are the kinds of the method, after an
object for the receiver if it has one; only `V` is of the kind of nothing.  Every other descriptor
is refused with an error that holds it as it was given. -/
theorem build_reads_descriptor (spec : MethodSpec) :
    ((∃ m, spec.build = .ok m) ↔ ∃! form : Form, form.text = spec.descriptor.toList) ∧
      (∀ m, spec.build = .ok m ↔
        ∃ form : Form, form.text = spec.descriptor.toList ∧ m = spec.methodOf form) ∧
      (∀ form : Form, (spec.methodOf form).returnType = .void ↔ form.result.text = ['V']) ∧
      ((∃ m, spec.build = .ok m) ∨
        ∃ reason, spec.build = .error (.invalidDescriptor spec.descriptor reason)) := by
  have built : ∀ m, spec.build = .ok m ↔
      ∃ form : Form, form.text = spec.descriptor.toList ∧ m = spec.methodOf form := by
    intro m
    unfold build
    split
    · rename_i sig parsed
      obtain ⟨form, text_eq, rfl⟩ := parse_eq_ok_iff.mp parsed
      constructor
      · intro h
        exact ⟨form, text_eq, (Except.ok.inj h).symm⟩
      · rintro ⟨form', text_eq', rfl⟩
        rw [Form.text_inj (text_eq'.trans text_eq.symm)]
        rfl
    · rename_i fault refused
      constructor
      · intro h
        cases h
      · rintro ⟨form, text_eq, _⟩
        cases refused.symm.trans (parse_eq_ok_iff.mpr ⟨form, text_eq, rfl⟩)
  refine ⟨⟨?_, ?_⟩, built, fun form => form.result.kind_eq_void_iff, ?_⟩
  · rintro ⟨m, m_eq⟩
    obtain ⟨form, text_eq, _⟩ := (built m).mp m_eq
    exact ⟨form, text_eq, fun form' text_eq' => Form.text_inj (text_eq'.trans text_eq.symm)⟩
  · rintro ⟨form, text_eq, _⟩
    exact ⟨_, (built _).mpr ⟨form, text_eq, rfl⟩⟩
  · unfold build
    split
    · exact .inl ⟨_, rfl⟩
    · exact .inr ⟨_, rfl⟩

end MethodSpec

end ThreadEngine
