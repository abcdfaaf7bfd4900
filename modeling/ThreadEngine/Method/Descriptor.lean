import ThreadEngine.Value
set_option autoImplicit false

/-!
# Method descriptors

A descriptor is `(` parameter types `)` result type.  A field type is one of eight letters, a
class name between `L` and `;`, or `[` before another field type; the result may also be `V`.  The
parameter part ends at the first closing parenthesis, also when that one stands inside a class
name.

Field types are read from the front of a character list, and what is left over is handed back.
-/

namespace ThreadEngine

/-- What is wrong with a descriptor, in the order in which it is looked for. -/
inductive DescriptorFault where
  | missingOpen
  | missingClose
  | badParameter
  | badResult
  | trailing
  deriving DecidableEq, Repr, Inhabited

/-- The wording of a fault. -/
def DescriptorFault.reason : DescriptorFault → String
  | .missingOpen => "missing '('"
  | .missingClose => "missing ')'"
  | .badParameter => "bad parameter type"
  | .badResult => "bad return type"
  | .trailing => "trailing characters after return type"

/-- The meaning of a descriptor: the kinds of its parameters and of its result. -/
structure Signature where
  params : List ValueType
  result : ValueType
  deriving DecidableEq, Repr, Inhabited

namespace Descriptor

/-- The kind that a single letter stands for. -/
def letter? : Char → Option ValueType
  | 'B' => some .byte
  | 'Z' => some .boolean
  | 'C' => some .char
  | 'S' => some .short
  | 'I' => some .int
  | 'F' => some .float
  | 'J' => some .long
  | 'D' => some .double
  | _ => none

/-- What follows the `;` that ends a class name; `none` if the name never ends. -/
def skipName? : List Char → Option (List Char)
  | [] => none
  | c :: rest => if c = ';' then some rest else skipName? rest

/-- What follows a class type whose `L` has been read; the name may not be empty. -/
def skipClass? : List Char → Option (List Char)
  | [] => none
  | c :: rest => if c = ';' then none else skipName? rest

/-- Reads one field type from the front. -/
def fieldType? : List Char → Option (ValueType × List Char)
  | [] => none
  | c :: rest =>
    if c = 'L' then (skipClass? rest).map (.object, ·)
    else if c = '[' then (fieldType? rest).map fun r => (.array, r.2)
    else (letter? c).map (·, rest)

theorem length_of_skipName? {s r : List Char} (h : skipName? s = some r) :
    r.length < s.length := by
  induction s with
  | nil => simp [skipName?] at h
  | cons c rest ih =>
    simp only [skipName?] at h
    split at h
    · simp_all
    · have := ih h
      simp only [List.length_cons]
      omega

theorem length_of_skipClass? {s r : List Char} (h : skipClass? s = some r) :
    r.length < s.length := by
  cases s with
  | nil => simp [skipClass?] at h
  | cons c rest =>
    simp only [skipClass?] at h
    split at h
    · simp at h
    · have := length_of_skipName? h
      simp only [List.length_cons]
      omega

/-- Reading a field type uses up at least one character. -/
theorem length_of_fieldType? {s r : List Char} {t : ValueType}
    (h : fieldType? s = some (t, r)) : r.length < s.length := by
  induction s generalizing t r with
  | nil => simp [fieldType?] at h
  | cons c rest ih =>
    simp only [fieldType?] at h
    split at h
    · obtain ⟨u, hu, hp⟩ := Option.map_eq_some_iff.1 h
      have := length_of_skipClass? hu
      simp only [Prod.mk.injEq] at hp
      simp only [List.length_cons, ← hp.2]
      omega
    · split at h
      · obtain ⟨⟨t', r'⟩, hu, hp⟩ := Option.map_eq_some_iff.1 h
        have := ih hu
        simp only [Prod.mk.injEq] at hp
        simp only [List.length_cons, ← hp.2]
        omega
      · obtain ⟨u, _, hp⟩ := Option.map_eq_some_iff.1 h
        simp only [Prod.mk.injEq] at hp
        simp [← hp.2]

/-- Reads field types until nothing is left. -/
def fieldTypes? (s : List Char) : Option (List ValueType) :=
  match s with
  | [] => some []
  | c :: cs =>
    match h : fieldType? (c :: cs) with
    | none => none
    | some (t, rest) =>
      have : rest.length < (c :: cs).length := length_of_fieldType? h
      (fieldTypes? rest).map (t :: ·)
termination_by s.length
decreasing_by assumption

/-- Reads a result type, which must be all there is. -/
def result (s : List Char) : Except DescriptorFault ValueType :=
  if s = ['V'] then .ok .void
  else match fieldType? s with
    | none => .error .badResult
    | some (t, []) => .ok t
    | some (_, _ :: _) => .error .trailing

/-- Splits at the first closing parenthesis. -/
def splitClose? : List Char → Option (List Char × List Char)
  | [] => none
  | c :: rest =>
    if c = ')' then some ([], rest)
    else (splitClose? rest).map fun p => (c :: p.1, p.2)

/-- Reads a whole descriptor. -/
def parse : List Char → Except DescriptorFault Signature
  | [] => .error .missingOpen
  | c :: rest =>
    if c = '(' then
      match splitClose? rest with
      | none => .error .missingClose
      | some (inside, after) =>
        match fieldTypes? inside with
        | none => .error .badParameter
        | some params => (result after).map (⟨params, ·⟩)
    else .error .missingOpen

end Descriptor

end ThreadEngine
