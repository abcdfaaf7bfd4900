import ThreadEngine.Number.Ieee
set_option autoImplicit false

/-!
# Shortest decimals

The fewest decimal digits that read back as a given binary floating-point number.  The number is
`m · 2 ^ q`; the reals that round to it form an interval, whose ends belong to it exactly when `m`
is even.  On the grid of decimals with `n` digits only the two neighbours of the number can lie in
that interval, so `n = 1, 2, 3, …` are tried in turn with exact natural-number arithmetic.
-/

namespace ThreadEngine.Number

/-- A positive decimal `0.d₁d₂… · 10 ^ point`. -/
structure Decimal where
  digits : List Char
  point : Int
  deriving DecidableEq, Repr, Inhabited

/-- A positive number and the interval of reals that round to it, over one denominator. -/
structure Interval where
  value : Nat
  low : Nat
  high : Nat
  den : Nat
  closed : Bool
  deriving DecidableEq, Repr, Inhabited

namespace Interval

/-- The rounding interval of a positive finite pattern, in quarters of its last place. -/
def ofBits (f : Ieee) (bits : Nat) : Interval :=
  let m := f.significand bits
  let q := f.scale bits - 2
  let up := Nat.pow 2 q.toNat
  { value := 4 * m * up
    low := (4 * m - if f.narrowBelow bits then 1 else 2) * up
    high := (4 * m + 2) * up
    den := Nat.pow 2 (-q).toNat
    closed := m % 2 == 0 }

/-- Whether `n / d` lies in the interval. -/
def contains (i : Interval) (n d : Nat) : Bool :=
  let l := i.low * d
  let x := n * i.den
  let h := i.high * d
  if i.closed then l ≤ x && x ≤ h else l < x && x < h

/-- The exponent `e` with `10 ^ e ≤ value < 10 ^ (e + 1)`, for values of at least `10 ^ (-400)`. -/
def magnitude (i : Interval) : Int :=
  ((Nat.toDigits 10 (i.value * Nat.pow 10 400 / i.den)).length : Int) - 401

/-- The neighbour of the value on the grid of multiples of `10 ^ s` that reads back, if any: of
two that do, the nearer, and of two equally near the upper. -/
def onGrid? (i : Interval) (s : Int) : Option Nat :=
  let step := Nat.pow 10 s.toNat
  let part := Nat.pow 10 (-s).toNat
  let below := i.value * part / (i.den * step)
  let above := below + 1
  let fits := fun k => i.contains (k * step) part
  let x := i.value * part
  let gapBelow := x - below * step * i.den
  let gapAbove := above * step * i.den - x
  match fits below, fits above with
  | true, true => some (if gapBelow < gapAbove then below else above)
  | true, false => some below
  | false, true => some above
  | false, false => none

end Interval

/-- Drops the trailing zeros of a digit string. -/
def trimZeros (ds : List Char) : List Char :=
  (ds.reverse.dropWhile (· == '0')).reverse

/-- The decimal `k · 10 ^ s`. -/
def Decimal.ofGrid (k : Nat) (s : Int) : Decimal :=
  let ds := Nat.toDigits 10 k
  { digits := trimZeros ds, point := ds.length + s }

/-- Tries grids of `n`, `n + 1`, … digits, `fuel` of them. -/
def Interval.search (i : Interval) (e : Int) : Nat → Nat → Option Decimal
  | 0, _ => none
  | fuel + 1, n =>
    let s := e + 1 - n
    match i.onGrid? s with
    | some k => some (Decimal.ofGrid k s)
    | none => i.search e fuel (n + 1)

/-- The shortest decimal that reads back as a positive finite pattern.  Twenty digits always
suffice for the formats in use. -/
def shortest (f : Ieee) (bits : Nat) : Option Decimal :=
  let i := Interval.ofBits f bits
  i.search i.magnitude 20 1

/-! ## Writing a floating-point number -/

/-- How floating-point numbers are written. -/
structure FloatStyle where
  /-- decimal exponents from this one on are still written positionally -/
  firstPositional : Int
  /-- and from this one on no longer -/
  firstScientific : Int
  notANumber : String
  infinity : String
  deriving DecidableEq, Repr, Inhabited

/-- Numbers from `10 ^ (-4)` up to `10 ^ 16` are written positionally with at least one digit
after the point, all others with an exponent. -/
def diagnosticStyle : FloatStyle :=
  { firstPositional := -4, firstScientific := 16, notANumber := "NaN", infinity := "inf" }

/-- Positional notation, with a digit on both sides of the point. -/
def Decimal.positional (d : Decimal) : List Char :=
  if d.point ≤ 0 then
    '0' :: '.' :: (List.replicate (-d.point).toNat '0' ++ d.digits)
  else
    let n := d.point.toNat
    let whole := d.digits.take n ++ List.replicate (n - d.digits.length) '0'
    let rest := d.digits.drop n
    whole ++ '.' :: (if rest.isEmpty then ['0'] else rest)

/-- Scientific notation: one digit, the others after a point if there are any, an exponent. -/
def Decimal.scientific (d : Decimal) : List Char :=
  let rest := d.digits.drop 1
  d.digits.take 1 ++ (if rest.isEmpty then [] else '.' :: rest) ++
    'e' :: (toString (d.point - 1)).toList

/-- The text of a decimal in a given style. -/
def Decimal.render (style : FloatStyle) (d : Decimal) : String :=
  let e := d.point - 1
  String.ofList <|
    if style.firstPositional ≤ e && e < style.firstScientific then d.positional else d.scientific

/-- The text of a bit pattern: a NaN has no sign, a zero keeps its own. -/
def Ieee.render (f : Ieee) (style : FloatStyle) (bits : Nat) : String :=
  let sign := if f.negative bits then "-" else ""
  if f.isNaN bits then style.notANumber
  else if f.isInfinite bits then sign ++ style.infinity
  else if f.isZero bits then sign ++ "0.0"
  else match shortest f (bits % Nat.pow 2 (f.fractionBits + f.exponentBits)) with
    | some d => sign ++ d.render style
    | none => style.notANumber

end ThreadEngine.Number
