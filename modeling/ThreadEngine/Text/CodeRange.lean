set_option autoImplicit false

/-!
# Ranges of code points

A property of characters is written as a table: a list of ranges of code points, in ascending
order.
-/

namespace ThreadEngine.Text

/-- A range of code points, both ends included. -/
structure CodeRange where
  first : Nat
  last : Nat
  deriving DecidableEq, Repr, Inhabited

namespace CodeRange

/-- Whether a code point lies in a range. -/
def contains (r : CodeRange) (n : Nat) : Bool := r.first ≤ n && n ≤ r.last

end CodeRange

/-- Whether a table lists a code point. -/
def isListed (table : List CodeRange) (n : Nat) : Bool := table.any (·.contains n)

end ThreadEngine.Text
