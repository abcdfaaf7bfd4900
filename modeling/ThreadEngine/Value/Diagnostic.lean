import ThreadEngine.Value
import ThreadEngine.Number.Shortest
import ThreadEngine.Text.Quoted
set_option autoImplicit false

/-!
# Diagnostic text

How values look in events and in the text of an abort.  An allocation has no text of its own, so
its place is marked by `@_`.
-/

namespace ThreadEngine

/-- A name applied to an argument. -/
def applied (head argument : String) : String := head ++ "(" ++ argument ++ ")"

/-- An optional thing. -/
def diagnosticOption : Option String → String
  | none => "None"
  | some s => applied "Some" s

/-- A list of things between brackets. -/
def diagnosticList (items : List String) : String :=
  "[" ++ String.intercalate ", " items ++ "]"

/-- The diagnostic text of a boxed primitive. -/
def Primitive.diagnostic : Primitive → String
  | .int v => applied "Int" (toString v.toInt)
  | .float b =>
    applied "Float" (Number.Ieee.binary32.render Number.diagnosticStyle b.toNat)
  | .long v => applied "Long" (toString v.toInt)
  | .double b =>
    applied "Double" (Number.Ieee.binary64.render Number.diagnosticStyle b.toNat)

/-- The diagnostic text of an object reference. -/
def ObjectRef.diagnostic (r : ObjectRef) : String :=
  applied "ObjectRef" (r.className ++ "@_")

/-- The diagnostic text of an array reference. -/
def ArrayRef.diagnostic (r : ArrayRef) : String :=
  applied "ArrayRef" ("[" ++ r.component ++ "; " ++ toString r.length ++ "]@_")

/-- The diagnostic text of a value. -/
def Value.diagnostic : Value → String
  | .null => "Null"
  | .object r => applied "Instance" r.diagnostic
  | .objectArray r => applied "ObjectArray" r.diagnostic
  | .typeArray r => applied "TypeArray" r.diagnostic
  | .primitive p => applied "Primitive" p.diagnostic
  | .returnAddress n => applied "ReturnAddress" (toString n)

end ThreadEngine
