/-!
# Binary Floating-Point Numbers

Numbers of a binary interchange format as the words that store them, with exact integer arithmetic
in place of machine operations: a finite number is a significand times a power of two, and every
operation either reads that pair off the word or rounds an exact ratio back into a word.

The words of one sign are in the order of the magnitudes they store, infinity being the word after
the largest finite one. Rounding uses this: the significand that rounding picks, added to the word
that begins its power of two, is the word of the result, also when the significand overflows into
the next power or past the last one.

## Main definitions

* `Format`: Width of the significand and range of the exponent.
* `Format.roundRatio`: The word nearest to a ratio of naturals.
* `Binary64`: A number in double precision.
* `Binary64.ofInt`: Rounding of an integer.
* `Binary64.toSingle`, `Binary64.singleOfInt`: Rounding to single precision.
-/

namespace PlatformBridge

/-- `n / d` to the nearest natural number, a half going to the even neighbour. -/
def roundHalfEven (n d : Nat) : Nat :=
  let q := n / d
  let r := n % d
  if 2 * r < d then q
  else if d < 2 * r then q + 1
  else if q % 2 = 0 then q
  else q + 1

/-- A binary interchange format: a significand of `precision` bits, the leading one included, and
    `exponents` powers of two for the last bit, the least of them being `2 ^ leastExponent`. -/
structure Format where
  precision : Nat
  leastExponent : Int
  exponents : Nat

namespace Format

/-- Single precision. -/
def single : Format := ⟨24, -149, 254⟩

/-- Double precision. -/
def double : Format := ⟨53, -1074, 2046⟩

/-- The word of infinity, the one after the largest finite magnitude. -/
def infinity (f : Format) : Nat :=
  (f.exponents + 1) * Nat.pow 2 (f.precision - 1)

/-- The magnitude stored in a finite word, as a significand and the exponent of its last bit. -/
def parts (f : Format) (word : Nat) : Nat × Int :=
  let hidden := Nat.pow 2 (f.precision - 1)
  let fraction := word % hidden
  let biased := word / hidden
  if biased = 0 then (fraction, f.leastExponent)
  else (fraction + hidden, f.leastExponent + (biased - 1 : Nat))

/-- The largest `k` with `2 ^ k ≤ n / d`, for positive `n` and `d`. -/
def floorLog2 (n d : Nat) : Int :=
  let k : Int := n.log2 - d.log2
  if d * Nat.pow 2 k.toNat ≤ n * Nat.pow 2 (-k).toNat then k else k - 1

/-- The word of the magnitude nearest to `n / d`, a tie going to the even significand. -/
def roundRatio (f : Format) (n d : Nat) : Nat :=
  if n = 0 then 0
  else
    let e := max f.leastExponent (floorLog2 n d - (f.precision - 1 : Nat))
    let significand := roundHalfEven (n * Nat.pow 2 (-e).toNat) (d * Nat.pow 2 e.toNat)
    min f.infinity ((e - f.leastExponent).toNat * Nat.pow 2 (f.precision - 1) + significand)

end Format

/-- A number in double precision, as its word: the sign in the top bit, the magnitude below it. -/
structure Binary64 where
  bits : UInt64
  deriving DecidableEq, Repr, Inhabited

namespace Binary64

/-- The number with a given sign and magnitude word. -/
def ofParts (negative : Bool) (word : Nat) : Binary64 :=
  ⟨(if negative then 0x8000000000000000 else 0) + word.toUInt64⟩

/-- Whether the sign bit is set, which it is for negative zero too. -/
def isNegative (x : Binary64) : Bool :=
  0x8000000000000000 ≤ x.bits

/-- The word without its sign. -/
def magnitude (x : Binary64) : Nat :=
  x.bits.toNat % 0x8000000000000000

/-- Whether the number is neither infinite nor a NaN. -/
def isFinite (x : Binary64) : Bool :=
  x.magnitude < Format.double.infinity

/-- Whether the word stores no number at all. -/
def isNaN (x : Binary64) : Bool :=
  Format.double.infinity < x.magnitude

/-- The integer as a number, rounded to the nearest. -/
def ofInt (n : Int) : Binary64 :=
  ofParts (n < 0) (Format.double.roundRatio n.natAbs 1)

/-- The number of `digits · 10 ^ exponent`, rounded to the nearest.

    The two bounds keep the powers of ten small: at `10 ^ 310` and above the result is infinite, and
    below `10 ^ (-330)` it is zero. -/
def ofDecimal (negative : Bool) (digits : Nat) (exponent : Int) : Binary64 :=
  let length : Int := (Nat.toDigits 10 digits).length
  if digits = 0 then ofParts negative 0
  else if 310 < length + exponent then ofParts negative Format.double.infinity
  else if length + exponent < -330 then ofParts negative 0
  else ofParts negative
    (Format.double.roundRatio (digits * Nat.pow 10 exponent.toNat)
      (Nat.pow 10 (-exponent).toNat))

/-- The magnitude of a finite number as a significand and a power of two. -/
def parts (x : Binary64) : Nat × Int :=
  Format.double.parts x.magnitude

/-- The largest finite magnitude of single precision. -/
def singleMax : Binary64 := ⟨0x47EFFFFFE0000000⟩

/-- Whether the number is at most `bound` in magnitude; no NaN is. -/
def absLe (x bound : Binary64) : Bool :=
  x.magnitude ≤ bound.magnitude

/-- The number stored in a word of single precision. -/
def ofSingle (negative : Bool) (word : Nat) : Binary64 :=
  if word = Format.single.infinity then ofParts negative Format.double.infinity
  else
    let (m, e) := Format.single.parts word
    ofParts negative (Format.double.roundRatio (m * Nat.pow 2 e.toNat) (Nat.pow 2 (-e).toNat))

/-- A finite number rounded to single precision and read back in double precision; a magnitude above
    the range of single precision becomes infinite. Infinities and NaNs stay. -/
def toSingle (x : Binary64) : Binary64 :=
  if x.isFinite then
    let (m, e) := x.parts
    ofSingle x.isNegative (Format.single.roundRatio (m * Nat.pow 2 e.toNat) (Nat.pow 2 (-e).toNat))
  else x

/-- An integer rounded to single precision and read back in double precision. -/
def singleOfInt (n : Int) : Binary64 :=
  ofSingle (n < 0) (Format.single.roundRatio n.natAbs 1)

end Binary64

end PlatformBridge
