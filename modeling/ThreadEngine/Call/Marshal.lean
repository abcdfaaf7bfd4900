import ThreadEngine.Journal.Event
import ThreadEngine.Frame.Locals
import ThreadEngine.Method
set_option autoImplicit false

/-!
# Argument marshalling

Arguments are copied into ascending local slots, from slot 0.  A reference goes anywhere, whatever
the slot was declared as.  A primitive goes only where a kind of its own width is declared; anything
else aborts, and so does a return address.  What was copied before the failing argument stays.
-/

namespace ThreadEngine

namespace Method

/-- What a slot holds once an argument has been copied into it. -/
def slotContent (m : Method) (slot : Nat) : Value → Except UnreachableKind Slot
  | .primitive p =>
    match m.argType? slot with
    | none => .error (.declared none)
    | some declared =>
      match declared.width? with
      | none => .error (.declared (some declared))
      | some w =>
        if w = p.width then .ok (.ofPrimitive p)
        else .error (.mismatch declared p.naturalType)
  | .returnAddress n => .error (.tag (Value.returnAddress n).tag)
  | v => .ok (.reference v)

/-- The event that announces a copy; a copy that cannot even be attempted has none. -/
def copyEvent? (m : Method) (slot : Nat) : Value → Option Event
  | .null => some (.copyingNull slot)
  | .primitive _ => ((m.argType? slot).bind ValueType.width?).map (.copyingPrimitive slot)
  | .returnAddress _ => none
  | v => some (.copyingReference slot v.tag)

end Method

/-- How copying arguments ended, with the table as it was then. -/
structure Marshalled where
  locals : Locals
  events : List Event
  outcome : Outcome Unit
  deriving DecidableEq, Repr, Inhabited

namespace Method

/-- Copies arguments into ascending slots from a given one. -/
def marshalFrom (m : Method) (slot : Nat) (locals : Locals) : List Value → Marshalled
  | [] => ⟨locals, [], .ok ()⟩
  | v :: vs =>
    let events := (m.copyEvent? slot v).toList
    match m.slotContent slot v with
    | .error kind => ⟨locals, events, .abort (.unreachableKind kind slot)⟩
    | .ok s =>
      match locals.set slot s with
      | .error e => ⟨locals, events, .error e⟩
      | .ok locals' =>
        let rest := m.marshalFrom (slot + 1) locals' vs
        { rest with events := events ++ rest.events }

/-- Copies arguments into the slots from 0 on. -/
def marshal (m : Method) (locals : Locals) (args : List Value) : Marshalled :=
  m.marshalFrom 0 locals args

end Method

end ThreadEngine
