import ThreadEngine.Proofs.DescriptorFaults
import Mathlib.Data.Set.List
import Mathlib.InformationTheory.Coding.UniquelyDecodable
import Mathlib.Order.Antichain

set_option autoImplicit false

/-!
# Field types as a code

The texts of field types are the words of a code in which no word begins another one
(`code_isAntichain`).  At most one word stands at the front of a text, and the reader of field types
finds it.  So a text is a concatenation of words in one way only (`code_uniquelyDecodable`), and
words taken from the front of a concatenation are its first ones (`texts_eq_append_iff`).

The parameters of a descriptor are read in rounds, one word a round.  After any number of rounds on
a concatenation, the reading stands between two of its words: what is before it has been noted, and
what is behind it is unread (`rounds?_start_texts_iff`).
-/

namespace ThreadEngine

namespace Descriptor

open InformationTheory

/-! ## The code -/

namespace FieldType

/-- The texts of all field types. -/
def code : Set (List Char) := Set.range text

/-- At most one field type stands at the front of a text. -/
theorem eq_of_prefix_of_prefix {t u : FieldType} {s : List Char} (ht : t.text <+: s)
    (hu : u.text <+: s) : t = u := by
  obtain ⟨r, rfl⟩ := ht
  obtain ⟨r', same⟩ := hu
  exact (text_append_inj same).1.symm

/-- The text of a field type begins with that of no other one. -/
theorem code_isAntichain : IsAntichain (· <+: ·) code := by
  rintro _ ⟨t, rfl⟩ _ ⟨u, rfl⟩ different front
  have same : t = u := eq_of_prefix_of_prefix front List.prefix_rfl
  exact different (congrArg text same)

theorem flatten_map_text (ts : List FieldType) : (ts.map text).flatten = texts ts :=
  List.flatMap_def.symm

/-- Texts of field types can be recovered from their concatenation. -/
theorem code_uniquelyDecodable : UniquelyDecodable code := by
  have exists_types : ∀ words : List (List Char), (∀ w ∈ words, w ∈ code) →
      ∃ ts : List FieldType, ts.map text = words := by
    intro words coded
    have among : words ∈ Set.range (List.map text) := by
      rw [Set.range_list_map]
      exact coded
    exact among
  intro words words' coded coded' same
  obtain ⟨ts, rfl⟩ := exists_types words coded
  obtain ⟨us, rfl⟩ := exists_types words' coded'
  rw [flatten_map_text, flatten_map_text] at same
  rw [texts_inj same]

theorem texts_append (ts us : List FieldType) : texts (ts ++ us) = texts ts ++ texts us :=
  List.flatMap_append

/-- Field types that stand at the front of a concatenation are the first ones of it. -/
theorem texts_eq_append_iff {ts us : List FieldType} {r : List Char} :
    texts ts = texts us ++ r ↔ ∃ vs, ts = us ++ vs ∧ r = texts vs := by
  constructor
  · intro same
    induction us generalizing ts with
    | nil => exact ⟨ts, rfl, same.symm⟩
    | cons u us ih =>
        cases ts with
        | nil => simp [text_ne_nil] at same
        | cons t ts =>
            rw [texts_cons, texts_cons, List.append_assoc] at same
            obtain ⟨rfl, rest_eq⟩ := text_append_inj same
            obtain ⟨vs, rfl, r_eq⟩ := ih rest_eq
            exact ⟨vs, rfl, r_eq⟩
  · rintro ⟨vs, rfl, rfl⟩
    exact texts_append us vs

end FieldType

/-! ## The reading of parameters -/

/-- The reading of parameters, between two of its rounds. -/
structure Reading where
  /-- the kinds of what has been read -/
  kinds : List ValueType
  /-- what is left to read -/
  unread : List Char
  deriving DecidableEq, Repr, Inhabited

namespace Reading

/-- The reading of a text, before its first round. -/
def start (s : List Char) : Reading := ⟨[], s⟩

/-- One round: a field type is read from the front, and its kind is noted behind the others. -/
def round? (reading : Reading) : Option Reading :=
  (fieldType? reading.unread).map fun (k, rest) => ⟨reading.kinds ++ [k], rest⟩

/-- Some rounds, one after the other. -/
def rounds? : Nat → Reading → Option Reading
  | 0, reading => some reading
  | n + 1, reading => reading.round?.bind (rounds? n)

/-- Some field types have been read between two readings, and nothing else has. -/
structure Passes (reading : Reading) (ts : List FieldType) (reading' : Reading) : Prop where
  unread_eq : reading.unread = FieldType.texts ts ++ reading'.unread
  kinds_eq : reading'.kinds = reading.kinds ++ ts.map FieldType.kind

variable {reading reading' : Reading}

/-- A round passes one field type. -/
theorem round?_eq_some_iff :
    reading.round? = some reading' ↔ ∃ t : FieldType, reading.Passes [t] reading' := by
  simp only [round?, Option.map_eq_some_iff, Prod.exists, fieldType?_eq_some_iff]
  constructor
  · rintro ⟨k, rest, ⟨t, unread_eq, rfl⟩, rfl⟩
    exact ⟨t, by simp [unread_eq], rfl⟩
  · rintro ⟨t, unread_eq, kinds_eq⟩
    refine ⟨t.kind, reading'.unread, ⟨t, by simpa using unread_eq, rfl⟩, ?_⟩
    rw [← List.map_singleton, ← kinds_eq]

theorem passes_nil_iff : reading.Passes [] reading' ↔ reading = reading' := by
  constructor
  · rintro ⟨unread_eq, kinds_eq⟩
    cases reading
    cases reading'
    simp_all
  · rintro rfl
    exact ⟨rfl, by simp⟩

/-- To pass some field types is to pass the first one, and then the others. -/
theorem passes_cons_iff {t : FieldType} {ts : List FieldType} :
    reading.Passes (t :: ts) reading' ↔
      ∃ between : Reading, reading.Passes [t] between ∧ between.Passes ts reading' := by
  constructor
  · rintro ⟨unread_eq, kinds_eq⟩
    refine ⟨⟨reading.kinds ++ [t.kind], FieldType.texts ts ++ reading'.unread⟩, ⟨?_, rfl⟩, rfl, ?_⟩
    · simpa using unread_eq
    · simpa using kinds_eq
  · rintro ⟨between, first, others⟩
    constructor
    · rw [first.unread_eq, others.unread_eq]
      simp
    · rw [others.kinds_eq, first.kinds_eq]
      simp

/-- Rounds pass as many field types as there are rounds. -/
theorem rounds?_eq_some_iff {n : Nat} :
    reading.rounds? n = some reading' ↔
      ∃ ts : List FieldType, ts.length = n ∧ reading.Passes ts reading' := by
  induction n generalizing reading with
  | zero =>
      simp only [rounds?, Option.some.injEq, List.length_eq_zero_iff, exists_eq_left]
      exact passes_nil_iff.symm
  | succ n ih =>
      simp only [rounds?, Option.bind_eq_some_iff, round?_eq_some_iff, ih]
      constructor
      · rintro ⟨between, ⟨t, first⟩, ts, rfl, others⟩
        exact ⟨t :: ts, rfl, passes_cons_iff.mpr ⟨between, first, others⟩⟩
      · rintro ⟨ts, length_eq, passes⟩
        obtain ⟨t, ts, rfl⟩ := List.exists_cons_of_length_eq_add_one length_eq
        obtain ⟨between, first, others⟩ := passes_cons_iff.mp passes
        exact ⟨between, ⟨t, first⟩, ts, Nat.succ.inj length_eq, others⟩

/-- Reading field types until nothing is left is to go through rounds until nothing is left. -/
theorem fieldTypes?_eq_some_iff_rounds? {s : List Char} {ks : List ValueType} :
    fieldTypes? s = some ks ↔ ∃ n, (start s).rounds? n = some ⟨ks, []⟩ := by
  simp only [fieldTypes?_eq_some_iff, rounds?_eq_some_iff]
  constructor
  · rintro ⟨ts, rfl, rfl⟩
    exact ⟨ts.length, ts, rfl, by simp [start], rfl⟩
  · rintro ⟨n, ts, _, unread_eq, kinds_eq⟩
    exact ⟨ts, by simpa [start] using unread_eq, kinds_eq.symm⟩

/-- After some rounds on a concatenation, the reading stands between two of its field types. -/
theorem rounds?_start_texts_iff {ts : List FieldType} {n : Nat} :
    (start (FieldType.texts ts)).rounds? n = some reading ↔
      ∃ us vs, us ++ vs = ts ∧ us.length = n ∧
        reading = ⟨us.map FieldType.kind, FieldType.texts vs⟩ := by
  rw [rounds?_eq_some_iff]
  constructor
  · obtain ⟨kinds, unread⟩ := reading
    rintro ⟨us, length_eq, unread_eq, rfl⟩
    obtain ⟨vs, rfl, rfl⟩ := FieldType.texts_eq_append_iff.mp unread_eq
    exact ⟨us, vs, rfl, length_eq, rfl⟩
  · rintro ⟨us, vs, rfl, length_eq, rfl⟩
    exact ⟨us, length_eq, FieldType.texts_append us vs, rfl⟩

-- the first `;` ends the class name, and the brackets belong to what follows them
example : (start "[[ILx/y;[ZJ".toList).rounds? 2 = some ⟨[.array, .object], "[ZJ".toList⟩ := by
  decide

end Reading

/-! ## Reading the code -/

/-- The reader of field types reads the words of a code in which no word begins another one:

* at most one field type stands at the front of a text; if there is one, its kind is read and what
  follows it is handed back, and reading fails if there is none;
* the text of a field type begins with that of no other one, so texts of field types can be
  recovered from their concatenation;
* the parameters are read in rounds, until nothing is left.  On a concatenation of field types,
  each round takes the next one of them, and in the end the kinds of all of them have been noted. -/
theorem field_types_read_as_prefix_code :
    (∀ s : List Char, {t : FieldType | t.text <+: s}.Subsingleton ∧
        (∀ k r, fieldType? s = some (k, r) ↔ ∃ t : FieldType, s = t.text ++ r ∧ t.kind = k) ∧
        (fieldType? s = none ↔ ∀ t : FieldType, ¬ t.text <+: s)) ∧
      IsAntichain (· <+: ·) FieldType.code ∧
      UniquelyDecodable FieldType.code ∧
      (∀ s ks, fieldTypes? s = some ks ↔ ∃ n, (Reading.start s).rounds? n = some ⟨ks, []⟩) ∧
      ∀ ts : List FieldType,
        fieldTypes? (FieldType.texts ts) = some (ts.map FieldType.kind) ∧
          ∀ n reading, (Reading.start (FieldType.texts ts)).rounds? n = some reading ↔
            ∃ us vs, us ++ vs = ts ∧ us.length = n ∧
              reading = ⟨us.map FieldType.kind, FieldType.texts vs⟩ := by
  refine ⟨?_, FieldType.code_isAntichain, FieldType.code_uniquelyDecodable,
    fun s ks => Reading.fieldTypes?_eq_some_iff_rounds?, ?_⟩
  · intro s
    refine ⟨?_, fun k r => fieldType?_eq_some_iff, fieldType?_eq_none_iff⟩
    intro t front u front'
    exact FieldType.eq_of_prefix_of_prefix front front'
  · intro ts
    refine ⟨?_, fun n reading => Reading.rounds?_start_texts_iff⟩
    have finished := Reading.rounds?_start_texts_iff.mpr ⟨ts, [], ts.append_nil, rfl, rfl⟩
    exact Reading.fieldTypes?_eq_some_iff_rounds?.mpr ⟨ts.length, finished⟩

end Descriptor

end ThreadEngine
