import ThreadEngine.Proofs.Grammar

set_option autoImplicit false

/-!
# Faults of descriptors

Which fault a text is refused for that is no descriptor.  The faults are looked for in a fixed
order, and `Refused` says of each text, by the grammar alone, which one is found: the readers fail
exactly where the grammar has nothing to offer (`fieldType?_eq_none_iff`,
`fieldTypes?_eq_none_iff`), so a text is refused for one reason or is the text of a form
(`build_refuses`).

The first closing parenthesis ends the parameters, wherever it stands.  So a type can stand as a
parameter exactly if it can stand as the result and has no closing parenthesis in it
(`parameter_iff_result`).
-/

namespace ThreadEngine

namespace Descriptor

/-! ## Where the readers fail -/

/-- Reading a field type fails if no field type stands at the front. -/
theorem fieldType?_eq_none_iff {s : List Char} :
    fieldType? s = none ↔ ∀ t : FieldType, ¬ t.text <+: s := by
  constructor
  · rintro unread t ⟨r, rfl⟩
    rw [fieldType?_text_append] at unread
    cases unread
  · intro absent
    cases read : fieldType? s with
    | none => rfl
    | some p =>
        obtain ⟨t, rfl, _⟩ := fieldType?_eq_some_iff.mp read
        exact absurd (List.prefix_append t.text p.2) (absent t)

/-- A text is some field types, one after the other. -/
def IsTypes (s : List Char) : Prop := ∃ ts : List FieldType, s = FieldType.texts ts

/-- Reading field types until nothing is left fails on everything else. -/
theorem fieldTypes?_eq_none_iff {s : List Char} : fieldTypes? s = none ↔ ¬ IsTypes s := by
  constructor
  · rintro unread ⟨ts, rfl⟩
    cases unread.symm.trans (fieldTypes?_eq_some_iff.mpr ⟨ts, rfl, rfl⟩)
  · intro other
    cases read : fieldTypes? s with
    | none => rfl
    | some ks =>
        obtain ⟨ts, rfl, _⟩ := fieldTypes?_eq_some_iff.mp read
        exact absurd ⟨ts, rfl⟩ other

/-- Splitting fails without a closing parenthesis. -/
theorem splitClose?_eq_none_iff {s : List Char} : splitClose? s = none ↔ ')' ∉ s := by
  constructor
  · intro unsplit closes
    obtain ⟨inside, after, rfl, unclosed⟩ := List.eq_append_cons_of_mem closes
    cases unsplit.symm.trans (splitClose?_eq_some_iff.mpr ⟨unclosed, rfl⟩)
  · intro unclosed
    cases split : splitClose? s with
    | none => rfl
    | some p =>
        obtain ⟨_, rfl⟩ := splitClose?_eq_some_iff.mp split
        exact absurd (by simp) unclosed

/-- A text is not `V`, and no field type stands at its front. -/
def NoResult (s : List Char) : Prop := s ≠ ['V'] ∧ ∀ t : FieldType, ¬ t.text <+: s

/-- A field type stands at the front of a text, and something follows it. -/
def OverlongResult (s : List Char) : Prop := ∃ t : FieldType, t.text <+: s ∧ t.text ≠ s

theorem result_eq_badResult {s : List Char} (none : NoResult s) : result s = .error .badResult := by
  obtain ⟨not_void, absent⟩ := none
  simp only [result, not_void, if_false, fieldType?_eq_none_iff.mpr absent]

theorem result_eq_trailing {s : List Char} (overlong : OverlongResult s) :
    result s = .error .trailing := by
  obtain ⟨t, ⟨r, rfl⟩, proper⟩ := overlong
  have not_void : t.text ++ r ≠ ['V'] := by
    intro void_eq
    obtain ⟨empty, _⟩ | ⟨whole, _⟩ := List.append_eq_singleton_iff.mp void_eq
    · exact t.text_ne_nil empty
    · exact t.text_ne_void whole
  cases r with
  | nil => exact absurd (List.append_nil _).symm proper
  | cons c r => simp only [result, not_void, if_false, fieldType?_text_append]

/-- A result type is refused only if there is none, or one with something behind it. -/
theorem fault_of_result {s : List Char} {fault : DescriptorFault}
    (refused : result s = .error fault) :
    (fault = .badResult ∧ NoResult s) ∨ (fault = .trailing ∧ OverlongResult s) := by
  unfold result at refused
  split at refused
  · cases refused
  · rename_i not_void
    split at refused
    · rename_i unread
      cases refused
      exact .inl ⟨rfl, not_void, fieldType?_eq_none_iff.mp unread⟩
    · cases refused
    · rename_i k c r read
      cases refused
      obtain ⟨t, rfl, _⟩ := fieldType?_eq_some_iff.mp read
      exact .inr ⟨rfl, t, List.prefix_append _ _, by simp⟩

/-! ## Why a text is no descriptor -/

/-- A text opens, and is divided by its first closing parenthesis. -/
structure Divides (s inside after : List Char) : Prop where
  whole : s = '(' :: (inside ++ ')' :: after)
  first : ')' ∉ inside

theorem Divides.splitClose? {s inside after : List Char} (divides : Divides s inside after) :
    splitClose? (inside ++ ')' :: after) = some (inside, after) :=
  splitClose?_eq_some_iff.mpr ⟨divides.first, rfl⟩

/-- A text is refused for a reason. -/
inductive Refused (s : List Char) : String → Prop
  | missingOpen (opens : ¬ ['('] <+: s) : Refused s "missing '('"
  | missingClose (opens : ['('] <+: s) (unclosed : ')' ∉ s) : Refused s "missing ')'"
  | badParameter {inside after : List Char} (divides : Divides s inside after)
      (params : ¬ IsTypes inside) : Refused s "bad parameter type"
  | badResult {inside after : List Char} (divides : Divides s inside after)
      (params : IsTypes inside) (none : NoResult after) : Refused s "bad return type"
  | trailing {inside after : List Char} (divides : Divides s inside after)
      (params : IsTypes inside) (overlong : OverlongResult after) :
      Refused s "trailing characters after return type"

/-- A divided text whose parameters can be read is read on at its result. -/
theorem parse_of_divides {s inside after : List Char} (divides : Divides s inside after)
    (params : IsTypes inside) {fault : DescriptorFault} (refused : result after = .error fault) :
    parse s = .error fault := by
  obtain ⟨ts, ts_eq⟩ := params
  have read := fieldTypes?_eq_some_iff.mpr ⟨ts, ts_eq, rfl⟩
  rw [divides.whole]
  simp only [parse, if_true, divides.splitClose?, read, refused]
  rfl

/-- What the grammar refuses is not read, and the fault that is found has the wording that the
grammar gives. -/
theorem Refused.parse_eq {s : List Char} {reason : String} (refused : Refused s reason) :
    ∃ fault, parse s = .error fault ∧ fault.reason = reason := by
  cases refused with
  | missingOpen opens =>
      refine ⟨.missingOpen, ?_, rfl⟩
      cases s with
      | nil => rfl
      | cons c rest =>
          have other : c ≠ '(' := by
            rintro rfl
            exact opens ⟨rest, rfl⟩
          simp only [parse, other, if_false]
  | missingClose opens unclosed =>
      obtain ⟨rest, rfl⟩ := opens
      have unsplit : splitClose? rest = none :=
        splitClose?_eq_none_iff.mpr fun closes => unclosed (List.mem_cons_of_mem _ closes)
      refine ⟨.missingClose, ?_, rfl⟩
      simp only [parse, List.cons_append, List.nil_append, if_true, unsplit]
  | badParameter divides params =>
      refine ⟨.badParameter, ?_, rfl⟩
      rw [divides.whole]
      simp only [parse, if_true, divides.splitClose?, fieldTypes?_eq_none_iff.mpr params]
  | badResult divides params none =>
      exact ⟨.badResult, parse_of_divides divides params (result_eq_badResult none), rfl⟩
  | trailing divides params overlong =>
      exact ⟨.trailing, parse_of_divides divides params (result_eq_trailing overlong), rfl⟩

/-- What is not read is refused by the grammar, for the fault that was found. -/
theorem refused_of_parse {s : List Char} {fault : DescriptorFault}
    (unread : parse s = .error fault) : Refused s fault.reason := by
  unfold parse at unread
  split at unread
  · cases unread
    exact .missingOpen (by simp)
  · rename_i c rest
    split at unread
    · rename_i open_eq
      subst open_eq
      split at unread
      · rename_i unsplit
        cases unread
        refine .missingClose ⟨rest, rfl⟩ ?_
        simpa using splitClose?_eq_none_iff.mp unsplit
      · rename_i inside after split_eq
        obtain ⟨first, rfl⟩ := splitClose?_eq_some_iff.mp split_eq
        have divides : Divides ('(' :: (inside ++ ')' :: after)) inside after := ⟨rfl, first⟩
        split at unread
        · rename_i params
          cases unread
          exact .badParameter divides (fieldTypes?_eq_none_iff.mp params)
        · rename_i ks read
          obtain ⟨ts, ts_eq, _⟩ := fieldTypes?_eq_some_iff.mp read
          cases result_eq : result after with
          | ok k =>
              rw [result_eq] at unread
              cases unread
          | error fault' =>
              rw [result_eq] at unread
              cases unread
              obtain ⟨rfl, none⟩ | ⟨rfl, overlong⟩ := fault_of_result result_eq
              · exact .badResult divides ⟨ts, ts_eq⟩ none
              · exact .trailing divides ⟨ts, ts_eq⟩ overlong
    · rename_i other
      cases unread
      refine .missingOpen ?_
      rintro ⟨rest', same⟩
      exact other (List.cons.inj same).1.symm

end Descriptor

namespace MethodSpec

open Descriptor

/-- A method is not built if its descriptor is not read. -/
theorem build_eq_error_iff {spec : MethodSpec} {e : Error} :
    spec.build = .error e ↔ ∃ fault, parse spec.descriptor.toList = .error fault ∧
      e = .invalidDescriptor spec.descriptor fault.reason := by
  unfold build
  split
  · rename_i sig read
    simp [read]
  · rename_i fault unread
    simp [unread, eq_comm]

/-- A method is not built exactly from the descriptors that the grammar refuses, and the error gives
the reason.  The reasons exclude each other: a descriptor that no method is built from is refused
for one of them, and the others are refused for none. -/
theorem build_refuses (spec : MethodSpec) :
    (∀ reason, spec.build = .error (.invalidDescriptor spec.descriptor reason) ↔
        Refused spec.descriptor.toList reason) ∧
      (∀ e, spec.build = .error e → ∃ reason, e = .invalidDescriptor spec.descriptor reason) ∧
      ((¬ ∃ m, spec.build = .ok m) ↔ ∃! reason, Refused spec.descriptor.toList reason) := by
  have refused_iff : ∀ reason, spec.build = .error (.invalidDescriptor spec.descriptor reason) ↔
      Refused spec.descriptor.toList reason := by
    intro reason
    rw [build_eq_error_iff]
    constructor
    · rintro ⟨fault, unread, same⟩
      obtain rfl := (Error.invalidDescriptor.inj same).2
      exact refused_of_parse unread
    · intro refused
      obtain ⟨fault, unread, rfl⟩ := refused.parse_eq
      exact ⟨fault, unread, rfl⟩
  refine ⟨refused_iff, ?_, ?_, ?_⟩
  · intro e unbuilt
    obtain ⟨fault, _, rfl⟩ := build_eq_error_iff.mp unbuilt
    exact ⟨fault.reason, rfl⟩
  · intro never
    cases built : spec.build with
    | ok m => exact absurd ⟨m, built⟩ never
    | error e =>
        obtain ⟨fault, _, rfl⟩ := build_eq_error_iff.mp built
        refine ⟨fault.reason, (refused_iff _).mp built, ?_⟩
        intro reason refused
        have again := built.symm.trans ((refused_iff reason).mpr refused)
        exact (Error.invalidDescriptor.inj (Except.error.inj again)).2.symm
  · rintro ⟨reason, refused, _⟩ ⟨m, built⟩
    cases built.symm.trans ((refused_iff reason).mpr refused)

end MethodSpec

/-! ## Parameters and results -/

namespace Descriptor

/-- No field type ends in `V`. -/
theorem FieldType.text_ne_append_void (t : FieldType) (s : List Char) : t.text ≠ s ++ ['V'] := by
  intro ends
  induction t generalizing s with
  | basic b =>
      have ends' : [] ++ [b.letter] = s ++ ['V'] := ends
      have letter_eq := (List.append_singleton_inj.mp ends').2
      cases b <;> exact absurd letter_eq (by decide)
  | object name =>
      have ends' : ('L' :: name.chars) ++ [';'] = s ++ ['V'] := ends
      exact absurd (List.append_singleton_inj.mp ends').2 (by decide)
  | array element ih =>
      cases s with
      | nil => exact absurd (List.cons.inj ends).1 (by decide)
      | cons c s => exact ih s (List.cons.inj ends).2

/-- What can stand as the only parameter, before `V`: a field type without a closing parenthesis. -/
theorem parse_parameter_iff {s : List Char} {k : ValueType} :
    (∃ sig, parse ('(' :: (s ++ [')', 'V'])) = .ok sig ∧ sig.params = [k]) ↔
      ')' ∉ s ∧ ∃ t : FieldType, s = t.text ∧ t.kind = k := by
  constructor
  · rintro ⟨sig, read, params_eq⟩
    obtain ⟨⟨params, result, unclosed⟩, text_eq, rfl⟩ := parse_eq_ok_iff.mp read
    obtain ⟨t, rfl, rfl⟩ := List.map_eq_singleton_iff.mp params_eq
    have inner : t.text ++ ')' :: result.text = s ++ [')', 'V'] := by
      simpa [Form.text] using text_eq
    cases result with
    | void =>
        have same : t.text = s := List.append_cancel_right inner
        subst same
        exact ⟨unclosed t (List.mem_singleton_self t), t, rfl, rfl⟩
    | field u =>
        -- the text ends in `V`, so no field type is its result
        have ends : (t.text ++ [')']) ++ u.text = (s ++ [')']) ++ ['V'] := by
          simpa [ResultType.text] using inner
        obtain ⟨front, _, u_eq⟩ | ⟨back, _, void_eq⟩ := List.append_eq_append_iff.mp ends
        · exact absurd u_eq (u.text_ne_append_void front)
        · obtain ⟨_, whole⟩ | ⟨_, empty⟩ := List.append_eq_singleton_iff.mp void_eq.symm
          · exact absurd whole u.text_ne_void
          · exact absurd empty u.text_ne_nil
  · rintro ⟨unclosed, t, rfl, rfl⟩
    let form : Form := ⟨[t], .void, by simpa using unclosed⟩
    refine ⟨form.signature, parse_eq_ok_iff.mpr ⟨form, ?_, rfl⟩, rfl⟩
    simp [form, Form.text, ResultType.text]

/-- What can stand as a result that is not nothing, behind no parameters: a field type. -/
theorem parse_result_iff {s : List Char} {k : ValueType} (value : k ≠ .void) :
    (∃ sig, parse ('(' :: ')' :: s) = .ok sig ∧ sig.result = k) ↔
      ∃ t : FieldType, s = t.text ∧ t.kind = k := by
  constructor
  · rintro ⟨sig, read, rfl⟩
    obtain ⟨form, text_eq, rfl⟩ := parse_eq_ok_iff.mp read
    have split := form.splitClose?_text
    rw [(List.cons.inj text_eq).2] at split
    have after_eq : s = form.result.text := (Prod.mk.inj (Option.some.inj split)).2
    obtain ⟨params, result, _⟩ := form
    cases result with
    | void => exact absurd rfl value
    | field t => exact ⟨t, after_eq, rfl⟩
  · rintro ⟨t, rfl, rfl⟩
    let form : Form := ⟨[], .field t, nofun⟩
    exact ⟨form.signature, parse_eq_ok_iff.mpr ⟨form, rfl, rfl⟩, rfl⟩

end Descriptor

namespace MethodSpec

open Descriptor

/-- What holds of the kinds of a method, holds of what its descriptor means. -/
theorem exists_build_iff {spec : MethodSpec} {P : List ValueType → ValueType → Prop} :
    (∃ m, spec.build = .ok m ∧ P m.argTypes m.returnType) ↔
      ∃ sig, parse spec.descriptor.toList = .ok sig ∧
        P (spec.receiver ++ sig.params) sig.result := by
  unfold build
  split
  · rename_i sig read
    simp [read]
  · rename_i fault unread
    simp [unread]

/-- The static method with a text as its only parameter, and nothing as its result. -/
def withParameter (spec : MethodSpec) (t : String) : MethodSpec :=
  { spec with isStatic := true, descriptor := "(" ++ t ++ ")V" }

/-- The static method without parameters, and with a text as its result. -/
def withResult (spec : MethodSpec) (t : String) : MethodSpec :=
  { spec with isStatic := true, descriptor := "()" ++ t }

theorem build_withParameter_iff {spec : MethodSpec} {t : String} {k : ValueType} :
    (∃ m, (spec.withParameter t).build = .ok m ∧ m.argTypes = [k]) ↔
      ')' ∉ t.toList ∧ ∃ u : FieldType, t.toList = u.text ∧ u.kind = k := by
  have chars : (spec.withParameter t).descriptor.toList = '(' :: (t.toList ++ [')', 'V']) := by
    simp [withParameter]
  rw [exists_build_iff (P := fun args _ => args = [k]), chars]
  exact parse_parameter_iff

theorem build_withResult_iff {spec : MethodSpec} {t : String} {k : ValueType} (value : k ≠ .void) :
    (∃ m, (spec.withResult t).build = .ok m ∧ m.returnType = k) ↔
      ∃ u : FieldType, t.toList = u.text ∧ u.kind = k := by
  have chars : (spec.withResult t).descriptor.toList = '(' :: ')' :: t.toList := by
    simp [withResult]
  rw [exists_build_iff (P := fun _ result => result = k), chars]
  exact parse_result_iff value

/-- A text can stand as a parameter of some kind exactly if it can stand as a result of that kind
and no closing parenthesis is in it. -/
theorem parameter_iff_result (spec spec' : MethodSpec) (t : String) (k : ValueType)
    (value : k ≠ .void) :
    (∃ m, (spec.withParameter t).build = .ok m ∧ m.argTypes = [k]) ↔
      ')' ∉ t.toList ∧ ∃ m, (spec'.withResult t).build = .ok m ∧ m.returnType = k := by
  rw [build_withParameter_iff, build_withResult_iff value]

/-- A method that is declared with nothing in particular. -/
def plainSpec : MethodSpec := ⟨"m", "()V", true, false, 4, 4⟩

/-- An array of arrays of some class is a parameter and a result. -/
theorem parameter_iff_result_of_nested_arrays :
    (∃ m, (plainSpec.withParameter "[[Lx/y;").build = .ok m ∧ m.argTypes = [.array]) ∧
      ∃ m, (plainSpec.withResult "[[Lx/y;").build = .ok m ∧ m.returnType = .array := by
  have result : ∃ m, (plainSpec.withResult "[[Lx/y;").build = .ok m ∧ m.returnType = .array := by
    refine (build_withResult_iff (by decide)).mpr
      ⟨.array (.array (.object ⟨"x/y".toList, ?_, ?_⟩)), ?_, rfl⟩
    · decide
    · decide
    · decide
  exact ⟨(parameter_iff_result plainSpec plainSpec "[[Lx/y;" .array (by decide)).mpr
    ⟨by decide, result⟩, result⟩

/-- A class whose name has a closing parenthesis is a result, but no parameter. -/
theorem closing_name_is_no_parameter :
    ¬ ((∃ m, (plainSpec.withParameter "L);").build = .ok m ∧ m.argTypes = [.object]) ↔
      ∃ m, (plainSpec.withResult "L);").build = .ok m ∧ m.returnType = .object) := by
  intro agree
  have result : ∃ m, (plainSpec.withResult "L);").build = .ok m ∧ m.returnType = .object := by
    refine (build_withResult_iff (by decide)).mpr ⟨.object ⟨[')'], ?_, ?_⟩, ?_, rfl⟩
    · decide
    · decide
    · decide
  exact (build_withParameter_iff.mp (agree.mpr result)).1 (by decide)

end MethodSpec

end ThreadEngine
