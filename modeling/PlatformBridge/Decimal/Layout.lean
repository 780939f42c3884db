import PlatformBridge.Decimal.Shortest

/-!
# Decimal Layouts

How a floating-point number is written once its digits are known. Three texts need numbers, and each
has a layout of its own: JSON documents, their canonical form, and error messages that quote a value
of the platform.

## Main definitions

* `Layout`: Where positional notation ends, and how its parts are spelled.
* `Layout.text`: A number in a layout.
* `Layout.json`, `Layout.canonical`, `Layout.plain`: The three layouts.
-/

namespace PlatformBridge

/-- The spelling of floating-point numbers. The exponent that decides between the notations is the
    one of scientific notation, with one digit before the point. -/
structure Layout where
  /-- The exponents written positionally; `none` is all of them. -/
  positional : Option (Int × Int)
  /-- Whether a number without fraction ends in `.0`. -/
  pointZero : Bool
  /-- Whether zero shows its sign. -/
  signedZero : Bool
  /-- Whether the larger of two equally near decimals is taken. -/
  halfUp : Bool

namespace Layout

/-- Numbers of a JSON document: positional from `0.00001` up to below `1e16`, always with a point.
    -/
def json : Layout := ⟨some (-5, 15), true, true, false⟩

/-- Numbers of a canonical document: positional from `0.000001` up to below `1e21`, an integral one
    without a point, and zero without a sign. -/
def canonical : Layout := ⟨some (-6, 20), false, false, false⟩

/-- Numbers in messages: positional at any size. -/
def plain : Layout := ⟨none, false, true, true⟩

/-- Digits with a point after the first `place` of them, padded with zeros on either side. -/
def positionalText (pointZero : Bool) (digits : List Char) (place : Int) : List Char :=
  if place ≤ 0 then '0' :: '.' :: List.replicate (-place).toNat '0' ++ digits
  else
    let n := place.toNat
    if digits.length ≤ n then
      digits ++ List.replicate (n - digits.length) '0' ++ if pointZero then ['.', '0'] else []
    else digits.take n ++ '.' :: digits.drop n

/-- Digits with a point after the first one, then the exponent with its sign. -/
def scientificText (digits : List Char) (exponent : Int) : List Char :=
  let mantissa := match digits with
    | first :: second :: rest => first :: '.' :: second :: rest
    | short => short
  mantissa ++ 'e' :: (if exponent < 0 then '-' else '+') :: Nat.toDigits 10 exponent.natAbs

/-- The text of a positive finite number. -/
def positiveText (l : Layout) (x : Binary64) : List Char :=
  let d := Decimal.shortest l.halfUp (.of x)
  let digits := Nat.toDigits 10 d.digits
  let place := d.exponent + digits.length
  let isPositional := match l.positional with
    | none => true
    | some (low, high) => low ≤ place - 1 && place - 1 ≤ high
  if isPositional then positionalText l.pointZero digits place
  else scientificText digits (place - 1)

/-- The text of a number. -/
def text (l : Layout) (x : Binary64) : List Char :=
  if x.isNaN then ['N', 'a', 'N']
  else
    let sign := if x.isNegative && (l.signedZero || x.magnitude ≠ 0) then ['-'] else []
    sign ++
      if !x.isFinite then ['i', 'n', 'f']
      else if x.magnitude = 0 then if l.pointZero then ['0', '.', '0'] else ['0']
      else l.positiveText x

end Layout

end PlatformBridge
