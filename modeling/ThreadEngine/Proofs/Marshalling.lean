import ThreadEngine.Call.Marshal
import Mathlib.Data.List.Basic

set_option autoImplicit false

/-!
# What marshalling leaves behind

Arguments are copied one after the other until one of them stops the copying: it is not accepted at
its slot (`Method.Accepts`), or the table ends there.  `Copied` says what a table looks like after
some arguments have been copied and the next ones have not; `marshalFrom_copied` says, along the
recursion, how many that are and how copying ends.  Whether the argument is accepted is looked at
before the size of the table, so an argument that is not accepted aborts even past its end.
-/

namespace ThreadEngine

/-! ## Accepted arguments -/

/-- The declared kinds that take a box. -/
def Primitive.kinds : Primitive → List ValueType
  | .int _ => [.boolean, .byte, .char, .short, .int]
  | .float _ => [.float]
  | .long _ => [.long]
  | .double _ => [.double]

theorem Primitive.mem_kinds_iff (p : Primitive) (t : ValueType) :
    t ∈ p.kinds ↔ t.width? = some p.width := by
  cases p <;> cases t <;> simp [kinds, ValueType.width?, width]

namespace Method

/-- Whether an argument is accepted at a slot.  A reference is, whatever the slot is declared as and
even if it is not declared; a box is if the declared kind takes it. -/
def Accepts (m : Method) (slot : Nat) : Value → Prop
  | .null | .object _ | .objectArray _ | .typeArray _ => True
  | .primitive p => ∃ declared ∈ p.kinds, m.argType? slot = some declared
  | .returnAddress _ => False

/-- What is said of an argument that is not accepted at a slot. -/
inductive Refuses (m : Method) (slot : Nat) : Value → UnreachableKind → Prop
  | returnAddress (target : Nat) : Refuses m slot (.returnAddress target) (.tag .returnAddress)
  /-- no primitive is declared there -/
  | declared (p : Primitive)
      (other : m.argType? slot ∈ [none, some .void, some .object, some .array]) :
      Refuses m slot (.primitive p) (.declared (m.argType? slot))
  /-- a primitive of another width is declared there -/
  | mismatch (p : Primitive) (declared : ValueType) (declared_eq : m.argType? slot = some declared)
      (primitive : declared.isPrimitive = true) (other : declared ∉ p.kinds) :
      Refuses m slot (.primitive p) (.mismatch declared p.naturalType)

end Method

namespace Locals

/-- What the five typed readings find at a slot, boxed. -/
def readings (l : Locals) (i : Nat) : List (Option Value) :=
  [l.getReference? i, (l.getInt? i).map fun v => .primitive (.int v),
    (l.getFloat? i).map fun b => .primitive (.float b),
    (l.getLong? i).map fun v => .primitive (.long v),
    (l.getDouble? i).map fun b => .primitive (.double b)]

/-- A slot holds a value: exactly one typed reading finds something there, and boxed it is the
value. -/
def Holds (l : Locals) (i : Nat) (v : Value) : Prop := (l.readings i).filterMap id = [v]

end Locals

namespace Method

variable {m : Method} {slot : Nat} {v : Value}

/-- An argument that is accepted is copied as it is. -/
theorem slotContent_of_accepts (accepts : m.Accepts slot v) :
    ∃ s, m.slotContent slot v = .ok s ∧ ∀ (l : Locals) i, l.get? i = some s → l.Holds i v := by
  cases v with
  | null | object ref | objectArray ref | typeArray ref =>
      refine ⟨_, rfl, fun l i found => ?_⟩
      simp [Locals.Holds, Locals.readings, Locals.getReference?, Locals.getInt?, Locals.getFloat?,
        Locals.getLong?, Locals.getDouble?, found, Slot.asReference?, Slot.asInt?, Slot.asFloat?,
        Slot.asLong?, Slot.asDouble?]
  | primitive p =>
      obtain ⟨declared, taken, declared_eq⟩ := accepts
      rw [Primitive.mem_kinds_iff] at taken
      refine ⟨.ofPrimitive p, by simp [slotContent, declared_eq, taken], fun l i found => ?_⟩
      cases p <;>
        simp [Locals.Holds, Locals.readings, Locals.getReference?, Locals.getInt?,
          Locals.getFloat?, Locals.getLong?, Locals.getDouble?, found, Slot.ofPrimitive,
          Slot.asReference?, Slot.asInt?, Slot.asFloat?, Slot.asLong?, Slot.asDouble?]
  | returnAddress target => exact accepts.elim

/-- An argument that is not accepted is not copied, for the reason that is given. -/
theorem slotContent_of_not_accepts (refused : ¬ m.Accepts slot v) :
    ∃ kind, m.slotContent slot v = .error kind ∧ m.Refuses slot v kind := by
  cases v with
  | null | object ref | objectArray ref | typeArray ref => exact absurd trivial refused
  | returnAddress target => exact ⟨_, rfl, .returnAddress target⟩
  | primitive p =>
      cases declared_eq : m.argType? slot with
      | none =>
          refine ⟨.declared none, by simp [slotContent, declared_eq], ?_⟩
          have reason := @Refuses.declared m slot p (by simp [declared_eq])
          rwa [declared_eq] at reason
      | some declared =>
          have other : declared ∉ p.kinds := fun taken => refused ⟨declared, taken, declared_eq⟩
          cases width_eq : declared.width? with
          | none =>
              refine ⟨.declared (some declared), by simp [slotContent, declared_eq, width_eq], ?_⟩
              have reserved : declared = .void ∨ declared = .object ∨ declared = .array := by
                cases declared <;> simp [ValueType.width?] at width_eq ⊢
              have reason := @Refuses.declared m slot p (by simpa [declared_eq] using reserved)
              rwa [declared_eq] at reason
          | some w =>
              have different : w ≠ p.width := by
                rintro rfl
                exact other ((p.mem_kinds_iff declared).mpr width_eq)
              have primitive : declared.isPrimitive = true := by
                rw [ValueType.isPrimitive_eq_isSome, width_eq]
                rfl
              refine ⟨_, ?_, .mismatch p declared declared_eq primitive other⟩
              simp [slotContent, declared_eq, width_eq, different]

end Method

/-! ## Copying -/

namespace Method

/-- The first `n` of some arguments have been copied into the slots from a given one on, and nothing
else has changed. -/
structure Copied (m : Method) (slot : Nat) (before : Locals) (args : List Value) (n : Nat)
    (after : Locals) : Prop where
  size_eq : after.size = before.size
  inside : n = 0 ∨ slot + n ≤ before.size
  holds : ∀ j v, j < n → args[j]? = some v → m.Accepts (slot + j) v ∧ after.Holds (slot + j) v
  kept : ∀ i, i < slot ∨ slot + n ≤ i → after.get? i = before.get? i

/-- How copying stops at an argument, and what comes of it. -/
inductive Stops (m : Method) (size slot : Nat) (v : Value) : Outcome Unit → Prop
  | refused {kind : UnreachableKind} (refused : ¬ m.Accepts slot v)
      (reason : m.Refuses slot v kind) :
      Stops m size slot v (.abort (.unreachableKind kind slot))
  | beyond (accepts : m.Accepts slot v) (past : size ≤ slot) :
      Stops m size slot v (.error (.localIndexOutOfBounds slot size))

theorem Stops.of_refused {m : Method} {size slot : Nat} {v : Value} {o : Outcome Unit}
    (stops : m.Stops size slot v o) (refused : ¬ m.Accepts slot v) :
    ∃ kind, m.Refuses slot v kind ∧ o = .abort (.unreachableKind kind slot) := by
  cases stops with
  | refused _ reason => exact ⟨_, reason, rfl⟩
  | beyond accepts _ => exact absurd accepts refused

theorem Stops.of_accepts {m : Method} {size slot : Nat} {v : Value} {o : Outcome Unit}
    (stops : m.Stops size slot v o) (accepts : m.Accepts slot v) :
    size ≤ slot ∧ o = .error (.localIndexOutOfBounds slot size) := by
  cases stops with
  | refused refused _ => exact absurd accepts refused
  | beyond _ past => exact ⟨past, rfl⟩

theorem Copied.none (m : Method) (slot : Nat) (l : Locals) (args : List Value) :
    m.Copied slot l args 0 l :=
  ⟨rfl, .inl rfl, fun _ _ none => absurd none (Nat.not_lt_zero _), fun _ _ => rfl⟩

/-- One more argument in front. -/
theorem Copied.cons {m : Method} {slot n : Nat} {before mid after : Locals} {v : Value} {s : Slot}
    {vs : List Value} (accepts : m.Accepts slot v)
    (holds : ∀ (l : Locals) i, l.get? i = some s → l.Holds i v) (inside : slot < before.size)
    (set_eq : before.set slot s = .ok mid) (copied : m.Copied (slot + 1) mid vs n after) :
    m.Copied slot before (v :: vs) (n + 1) after := by
  have size_eq := Locals.size_of_set set_eq
  have get_eq := Locals.get?_of_set set_eq
  refine ⟨copied.size_eq.trans size_eq, .inr ?_, ?_, ?_⟩
  · rcases copied.inside with rfl | within <;> omega
  · intro j u below found
    cases j with
    | zero =>
        cases found
        refine ⟨accepts, holds after slot ?_⟩
        rw [copied.kept slot (.inl (Nat.lt_succ_self slot)), get_eq, if_pos rfl]
    | succ j =>
        have next := copied.holds j u (Nat.lt_of_succ_lt_succ below) found
        rwa [Nat.add_right_comm] at next
  · intro i outside
    rw [copied.kept i (by omega), get_eq, if_neg (by omega)]

/-- Copying goes on until all arguments are copied or one of them stops it. -/
theorem marshalFrom_copied (m : Method) (slot : Nat) (l : Locals) (args : List Value) :
    ∃ n, m.Copied slot l args n (m.marshalFrom slot l args).locals ∧
      ((n = args.length ∧ (m.marshalFrom slot l args).outcome = .ok ()) ∨
        ∃ v, args[n]? = some v ∧
          m.Stops l.size (slot + n) v (m.marshalFrom slot l args).outcome) := by
  induction args generalizing slot l with
  | nil => exact ⟨0, .none m slot l [], .inl ⟨rfl, rfl⟩⟩
  | cons v vs ih =>
      by_cases accepts : m.Accepts slot v
      · obtain ⟨s, content_eq, holds⟩ := slotContent_of_accepts accepts
        by_cases inside : slot < l.size
        · have set_eq : l.set slot s = .ok ⟨l.slots.set slot s⟩ := by rw [Locals.set, if_pos inside]
          obtain ⟨n, copied, ending⟩ := ih (slot + 1) ⟨l.slots.set slot s⟩
          have size_eq := Locals.size_of_set set_eq
          refine ⟨n + 1, ?_, ?_⟩
          · simp only [marshalFrom, content_eq, set_eq]
            exact .cons accepts holds inside set_eq copied
          · simp only [marshalFrom, content_eq, set_eq]
            rcases ending with ⟨all, finished⟩ | ⟨u, found, stops⟩
            · exact .inl ⟨by rw [all, List.length_cons], finished⟩
            · refine .inr ⟨u, found, ?_⟩
              rwa [size_eq, Nat.add_right_comm] at stops
        · have past := Nat.le_of_not_lt inside
          have set_eq : l.set slot s = .error (.localIndexOutOfBounds slot l.size) := by
            rw [Locals.set, if_neg inside]
          refine ⟨0, ?_, .inr ⟨v, rfl, ?_⟩⟩
          · simp only [marshalFrom, content_eq, set_eq]
            exact .none m slot l (v :: vs)
          · simp only [marshalFrom, content_eq, set_eq]
            exact .beyond accepts past
      · obtain ⟨kind, content_eq, reason⟩ := slotContent_of_not_accepts accepts
        refine ⟨0, ?_, .inr ⟨v, rfl, ?_⟩⟩
        · simp only [marshalFrom, content_eq]
          exact .none m slot l (v :: vs)
        · simp only [marshalFrom, content_eq]
          exact .refused accepts reason

/-! ## The whole list -/

/-- An argument at which copying into a table of some size, from slot 0 on, cannot go on. -/
def Blocks (m : Method) (size : Nat) (args : List Value) (i : Nat) : Prop :=
  ∃ v, args[i]? = some v ∧ (¬ m.Accepts i v ∨ i = size)

/-- What was copied did not block. -/
theorem Copied.not_blocks {m : Method} {before after : Locals} {args : List Value} {n : Nat}
    (copied : m.Copied 0 before args n after) {j : Nat} (below : j < n) :
    ¬ m.Blocks before.size args j := by
  rintro ⟨v, found, refused | past⟩
  · have accepts := (copied.holds j v below found).1
    rw [Nat.zero_add] at accepts
    exact refused accepts
  · rcases copied.inside with rfl | within <;> omega

/-- Where copying stops, something blocks: nothing before did, so the table ends just there. -/
theorem Copied.blocks {m : Method} {before after : Locals} {args : List Value} {n : Nat} {v : Value}
    {o : Outcome Unit} (copied : m.Copied 0 before args n after) (found : args[n]? = some v)
    (stops : m.Stops before.size n v o) : m.Blocks before.size args n := by
  cases stops with
  | refused refused reason => exact ⟨v, found, .inl refused⟩
  | beyond accepts past =>
      refine ⟨v, found, .inr ?_⟩
      rcases copied.inside with rfl | within <;> omega

/-- The exact effect of copying arguments.  If nothing blocks, every argument is held by its slot
and all slots behind them are as they were.  Otherwise the first argument that blocks decides: the
arguments before it are held by their slots, all slots from there on are as they were, and copying
aborts if the argument is not accepted, with the reason and the slot, and fails if it is accepted
and the table ends there. -/
theorem marshal_effect (m : Method) (l : Locals) (args : List Value) :
    (m.marshal l args).locals.size = l.size ∧
      ((∀ i, ¬ m.Blocks l.size args i) →
        (m.marshal l args).outcome = .ok () ∧
          (∀ j v, args[j]? = some v → (m.marshal l args).locals.Holds j v) ∧
          ∀ j, args.length ≤ j → (m.marshal l args).locals.get? j = l.get? j) ∧
      ∀ i v, args[i]? = some v → m.Blocks l.size args i →
        (∀ j, j < i → ¬ m.Blocks l.size args j) →
        (∀ j u, j < i → args[j]? = some u → (m.marshal l args).locals.Holds j u) ∧
          (∀ j, i ≤ j → (m.marshal l args).locals.get? j = l.get? j) ∧
          (¬ m.Accepts i v → ∃ kind, m.Refuses i v kind ∧
            (m.marshal l args).outcome = .abort (.unreachableKind kind i)) ∧
          (m.Accepts i v →
            (m.marshal l args).outcome = .error (.localIndexOutOfBounds i l.size)) := by
  obtain ⟨n, copied, ending⟩ := m.marshalFrom_copied 0 l args
  have holds : ∀ j v, j < n → args[j]? = some v → (m.marshal l args).locals.Holds j v := by
    intro j v below found
    have held := (copied.holds j v below found).2
    rwa [Nat.zero_add] at held
  have kept : ∀ j, n ≤ j → (m.marshal l args).locals.get? j = l.get? j := by
    intro j above
    exact copied.kept j (.inr (by omega))
  refine ⟨copied.size_eq, fun free => ?_, fun i v found blocks first => ?_⟩
  · rcases ending with ⟨all, finished⟩ | ⟨v, found, stops⟩
    · refine ⟨finished, fun j v found => ?_, fun j past => kept j (by omega)⟩
      exact holds j v (all ▸ (List.getElem?_eq_some_iff.mp found).1) found
    · rw [Nat.zero_add] at stops
      exact absurd (copied.blocks found stops) (free n)
  · -- nothing that was copied blocks, and nothing before `i` does, so copying stopped at `i`
    have reached : n ≤ i := Nat.le_of_not_lt fun below => copied.not_blocks below blocks
    rcases ending with ⟨all, _⟩ | ⟨u, at_n, stops⟩
    · have inside := (List.getElem?_eq_some_iff.mp found).1
      omega
    · rw [Nat.zero_add] at stops
      have same : n = i := by
        rcases Nat.lt_or_eq_of_le reached with before | same
        · exact absurd (copied.blocks at_n stops) (first n before)
        · exact same
      subst same
      cases found.symm.trans at_n
      refine ⟨holds, kept, stops.of_refused, fun accepts => ?_⟩
      exact (stops.of_accepts accepts).2

/-- A method with a float and a long. -/
def mixedMethod : Method := ⟨"mixed", "(FJ)V", true, false, 2, 1, [.float, .long], .void⟩

/-- A NaN is copied with its bits; an int that comes where the table ends and a long is declared
aborts for its width. -/
theorem marshal_effect_of_mismatch_at_the_end :
    let copied := mixedMethod.marshal ⟨[.int 5]⟩
      [.primitive (.float 0x7fc00001), .primitive (.int 8), .null]
    copied.locals.Holds 0 (.primitive (.float 0x7fc00001)) ∧ copied.locals.get? 1 = none ∧
      copied.outcome = .abort (.unreachableKind (.mismatch .long .int) 1) := by
  have refused : ¬ mixedMethod.Accepts 1 (.primitive (.int 8)) := by
    rintro ⟨declared, taken, declared_eq⟩
    cases declared_eq
    simp [Primitive.kinds] at taken
  have first : ∀ j, j < 1 → ¬ mixedMethod.Blocks 1
      [.primitive (.float 0x7fc00001), .primitive (.int 8), .null] j := by
    intro j below
    obtain rfl : j = 0 := by omega
    rintro ⟨v, found, refused | past⟩
    · cases found
      exact refused ⟨.float, by simp [Primitive.kinds], rfl⟩
    · cases past
  obtain ⟨holds, kept, aborts, _⟩ := (mixedMethod.marshal_effect ⟨[.int 5]⟩ _).2.2 1 _ rfl
    ⟨_, rfl, .inl refused⟩ first
  obtain ⟨kind, reason, outcome_eq⟩ := aborts refused
  refine ⟨holds 0 _ Nat.zero_lt_one rfl, kept 1 (Nat.le_refl 1), ?_⟩
  cases reason with
  | declared p other => simp [mixedMethod, argType?] at other
  | mismatch p declared declared_eq primitive other =>
      cases declared_eq
      exact outcome_eq

end Method

end ThreadEngine
