import PlatformBridge.Decimal.Binary64

/-!
# Shortest Decimals

The decimal with the fewest digits among those that round to a given binary number, and of these the
nearest to it. All of it is decided in exact integer arithmetic: the number and the ends of the
interval of reals that round to it are numerators over one denominator, and a grid of decimals of
`n` digits is searched at the two neighbours of the number on it.

## Main definitions

* `Decimal`: Significant digits and the place of the point.
* `Interval`: A number between the ends of the reals that round to it.
* `Decimal.shortest`: The shortest decimal in an interval.
-/

namespace PlatformBridge

/-- The decimal `digits · 10 ^ exponent`. -/
structure Decimal where
  digits : Nat
  exponent : Int
  deriving DecidableEq, Repr

/-- A positive number `value / scale` and the bounds `low / scale` and `high / scale` of the reals
    that round to it, which belong to them when `closed`. -/
structure Interval where
  low : Nat
  value : Nat
  high : Nat
  scale : Nat
  closed : Bool

namespace Interval

/-- The reals that round to a positive finite number: half a step on either side, a quarter below
    the first number of a power of two, whose lower neighbour is nearer. A tie goes to the even
    significand, so the ends belong to it exactly then. -/
def of (x : Binary64) : Interval :=
  let (m, e) := x.parts
  let below := if m = 0x10000000000000 && Format.double.leastExponent < e then 1 else 2
  let unit := Nat.pow 2 e.toNat
  { low := (4 * m - below) * unit
    value := 4 * m * unit
    high := (4 * m + 2) * unit
    scale := 4 * Nat.pow 2 (-e).toNat
    closed := m % 2 = 0 }

/-- Whether the real `n / d` is in the interval. -/
def contains (i : Interval) (n d : Nat) : Bool :=
  if i.closed then i.low * d ≤ n * i.scale && n * i.scale ≤ i.high * d
  else i.low * d < n * i.scale && n * i.scale < i.high * d

end Interval

namespace Decimal

/-- The decimal without zeros at its end; zero is `0 · 10 ^ 0`. -/
def trimmed (fuel digits : Nat) (exponent : Int) : Decimal :=
  match fuel with
  | 0 => ⟨digits, exponent⟩
  | fuel + 1 =>
    if digits % 10 = 0 then trimmed fuel (digits / 10) (exponent + 1) else ⟨digits, exponent⟩

/-- The number of digits before the point of `n / d`, counted downwards from zero when there are
    none: `n / d < 10 ^ k`. -/
def pointPlace (n d : Nat) : Int :=
  if d ≤ n then (Nat.toDigits 10 (n / d)).length
  else 1 - (Nat.toDigits 10 (d / n)).length

/-- The decimal of `n` digits that lies in the interval, if any: of two the nearer, of two equally
    near ones the larger when `halfUp` and otherwise the one with an even last digit. -/
def onGrid? (halfUp : Bool) (i : Interval) (place : Int) (n : Nat) : Option Decimal :=
  let step := place - n
  let up := Nat.pow 10 step.toNat
  let down := Nat.pow 10 (-step).toNat
  let floor := i.value * down / (i.scale * up)
  let rest := i.value * down % (i.scale * up)
  let lower := i.contains (floor * up) down
  let upper := i.contains ((floor + 1) * up) down
  let pick :=
    if lower && upper then
      if 2 * rest < i.scale * up then some floor
      else if i.scale * up < 2 * rest then some (floor + 1)
      else if !halfUp && floor % 2 = 0 then some floor
      else some (floor + 1)
    else if lower then some floor
    else if upper then some (floor + 1)
    else none
  pick.map fun digits => trimmed n digits step

/-- The shortest decimal in the interval; seventeen digits always suffice in double precision. -/
def shortest (halfUp : Bool) (i : Interval) : Decimal :=
  let place := pointPlace i.value i.scale
  ((List.range 17).findSome? fun n => onGrid? halfUp i place (n + 1)).getD ⟨0, 0⟩

end Decimal

end PlatformBridge
