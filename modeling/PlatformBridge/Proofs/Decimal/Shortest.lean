import PlatformBridge.Decimal.Shortest
import PlatformBridge.Proofs.Decimal.Rounding
import Mathlib.Data.Nat.Cast.Order.Field

/-!
# Shortest Decimals Read Back

The shortest decimal of a number lies in the interval of the reals that round
to the number, so the number is what is read from it. Nothing depends on the
decimal being the shortest one, only on some being found: the interval is wide
enough for the grid of seventeen digits, which has a point within half a step
of the number.

The interval is kept in quarters of the last bit, as its lower end may be half
a step or a quarter of one away. Its ends are natural numbers over a scale,
and the lemmas on quarters turn a comparison with such an end into one between
rationals. `rounds_of_covers` puts the two ends together and arrives at the
interval that rounding is proved about.

A grid of some number of digits is tried after the other, coarsest first. What
is taken from a grid has been checked to be in the interval, so being found is
enough. That something is found on the last grid is a matter of size:
`grid_step_le` bounds the step of that grid by the number, and an interval is
wide in proportion to its number.

## Main definitions

* `Decimal.value`: The real that a decimal stands for.
* `Interval.Covers`, `Interval.IsWide`: The reals in an interval, and how many
  digits it needs.

## Theorems

* `Interval.covers_of_contains`, `Interval.contains_of_lt`: The check for
  being in an interval.
* `Interval.exists_low_of`: The lower end of the interval of a number.
* `Interval.isWide_of`: The interval of a number is wide enough.
* `Interval.rounds_of_covers`: What is in the interval of a number rounds to
  it.
* `Decimal.value_trimmed`: Zeros at the end may be dropped.
* `Decimal.covers_of_onGrid?`: What is found on a grid is in the interval.
* `Decimal.grid_step_le`, `Decimal.isSome_onGrid?`: Something is found on the
  grid of seventeen digits.
* `Decimal.covers_shortest`: The shortest decimal is in the interval.
* `Binary64.ofDecimal_shortest`: A number is read back from its shortest
  decimal.
-/

namespace PlatformBridge

/-- The real that a decimal stands for. -/
def Decimal.value (d : Decimal) : Rat := d.digits * 10 ^ d.exponent

theorem Format.IsParts.pos {f : Format} {word m : Nat} {e : Int} (h : f.IsParts word m e)
    (hpos : 0 < word) : 0 < m := by
  have hword := h.word_eq
  rcases h.isNormal with hnormal | hleast
  · exact (Nat.two_pow_pos _).trans_le hnormal
  · rw [hleast, Int.sub_self, Int.toNat_zero, Nat.zero_mul, Nat.zero_add] at hword
    rwa [hword]

theorem Binary64.isParts (x : Binary64) :
    Format.double.IsParts x.magnitude x.parts.1 x.parts.2 :=
  Format.isParts_parts Format.double x.magnitude

namespace Interval

/-- The reals in an interval. -/
def Covers (i : Interval) (v : Rat) : Prop :=
  (i.low ≤ v * i.scale ∧ v * i.scale ≤ i.high) ∧
    (i.closed = true ∨ (i.low < v * i.scale ∧ v * i.scale < i.high))

/-- A ratio that is checked to be in an interval is in it. -/
theorem covers_of_contains (i : Interval) (n d : Nat) (hd : 0 < d)
    (h : i.contains n d = true) : i.Covers ((n : Rat) / d) := by
  have hd' : (0 : Rat) < d := Nat.cast_pos.mpr hd
  have hproduct : (n : Rat) / d * i.scale = (n * i.scale : Nat) / d := by
    push_cast
    ring
  rw [Covers, hproduct, le_div_iff₀ hd', div_le_iff₀ hd', lt_div_iff₀ hd', div_lt_iff₀ hd']
  norm_cast
  rw [contains] at h
  grind

/-- A ratio between the ends of an interval passes the check, whether the ends belong to it or not.
    -/
theorem contains_of_lt (i : Interval) {n d : Nat} (hlow : i.low * d < n * i.scale)
    (hhigh : n * i.scale < i.high * d) : i.contains n d = true := by
  rw [contains]
  grind

/-- An interval that is wide enough for a grid of seventeen digits. -/
structure IsWide (i : Interval) : Prop where
  low_pos : 0 < i.low
  scale_pos : 0 < i.scale
  below : i.value < 2 * 10 ^ 16 * (i.value - i.low)
  above : i.value < 2 * 10 ^ 16 * (i.high - i.value)

/-- Zero is below every such interval. -/
theorem IsWide.digits_pos {i : Interval} (h : i.IsWide) {digits : Nat} {exponent : Int}
    (hcovers : i.Covers (digits * 10 ^ exponent)) : 0 < digits := by
  by_contra hzero
  have hlow := hcovers.1.1
  rw [Nat.eq_zero_of_not_pos hzero, Nat.cast_zero, zero_mul, zero_mul] at hlow
  exact absurd h.low_pos (Nat.not_lt.mpr (by exact_mod_cast hlow))

section Quarters

variable (c : Nat) (e : Int) (v : Rat)

/-- The ends of an interval are multiples of a quarter of the last bit, so comparing a number with
    one is comparing two multiples of it, with no division. -/
theorem quarters_le_iff : ((c * 2 ^ e.toNat : Nat) : Rat) ≤ v * (4 * 2 ^ (-e).toNat : Nat)
    ↔ (c : Rat) / 4 * 2 ^ e ≤ v := by
  rw [zpow_eq_div 2 two_ne_zero, ← mul_div_assoc, div_le_iff₀ (by positivity)]
  push_cast
  constructor
  · intro h
    linarith
  · intro h
    linarith

/-- The same for what is below an end. -/
theorem le_quarters_iff : v * (4 * 2 ^ (-e).toNat : Nat) ≤ ((c * 2 ^ e.toNat : Nat) : Rat)
    ↔ v ≤ (c : Rat) / 4 * 2 ^ e := by
  rw [zpow_eq_div 2 two_ne_zero, ← mul_div_assoc, le_div_iff₀ (by positivity)]
  push_cast
  constructor
  · intro h
    linarith
  · intro h
    linarith

/-- The same for what is strictly above an end. -/
theorem quarters_lt_iff : ((c * 2 ^ e.toNat : Nat) : Rat) < v * (4 * 2 ^ (-e).toNat : Nat)
    ↔ (c : Rat) / 4 * 2 ^ e < v := by
  rw [← not_le, le_quarters_iff, not_le]

/-- The same for what is strictly below one. -/
theorem lt_quarters_iff : v * (4 * 2 ^ (-e).toNat : Nat) < ((c * 2 ^ e.toNat : Nat) : Rat)
    ↔ v < (c : Rat) / 4 * 2 ^ e := by
  rw [← not_le, quarters_le_iff, not_le]

end Quarters

section Numbers

variable (x : Binary64)

/-- The step down is a half of the last bit, and a quarter from the first number of a power of two.
    -/
theorem exists_low_of :
    ∃ below, (Interval.of x).low = (4 * x.parts.1 - below) * 2 ^ x.parts.2.toNat
    ∧ (below = 1 ∧ x.parts.1 = 2 ^ 52 ∧ Format.double.leastExponent < x.parts.2
      ∨ below = 2 ∧ ¬ (x.parts.1 = 2 ^ 52 ∧ Format.double.leastExponent < x.parts.2)) := by
  refine ⟨if x.parts.1 = 2 ^ 52 && Format.double.leastExponent < x.parts.2 then 1 else 2, rfl, ?_⟩
  by_cases hfirst : x.parts.1 = 2 ^ 52 ∧ Format.double.leastExponent < x.parts.2
  · exact .inl ⟨if_pos (by simpa using hfirst), hfirst⟩
  · exact .inr ⟨if_neg (by simpa using hfirst), hfirst⟩

variable (hpos : 0 < x.magnitude)
include hpos

/-- The interval of a number that is not zero is wide enough. -/
theorem isWide_of : (Interval.of x).IsWide := by
  have hm : 0 < x.parts.1 := x.isParts.pos hpos
  have hlt : x.parts.1 < 2 * 2 ^ 52 := x.isParts.lt_double
  have hunit : 0 < 2 ^ x.parts.2.toNat := Nat.two_pow_pos _
  obtain ⟨below, hlow, hbelow⟩ := exists_low_of x
  have hvalue : (Interval.of x).value = 4 * x.parts.1 * 2 ^ x.parts.2.toNat := rfl
  have hhigh : (Interval.of x).high = (4 * x.parts.1 + 2) * 2 ^ x.parts.2.toNat := rfl
  refine ⟨?_, Nat.mul_pos (by decide) (Nat.two_pow_pos _), ?_, ?_⟩
  · rw [hlow]
    exact Nat.mul_pos (by omega) hunit
  · rw [hlow, hvalue, ← Nat.sub_mul, ← Nat.mul_assoc]
    exact Nat.mul_lt_mul_of_pos_right (by omega) hunit
  · rw [hhigh, hvalue, ← Nat.sub_mul, ← Nat.mul_assoc]
    exact Nat.mul_lt_mul_of_pos_right (by omega) hunit

/-- What is in the interval of a number rounds to it. -/
theorem rounds_of_covers {v : Rat} (h : (Interval.of x).Covers v) :
    Format.double.Rounds x.parts.1 x.parts.2 v := by
  have hm : 0 < x.parts.1 := x.isParts.pos hpos
  obtain ⟨below, hlow, hbelow⟩ := exists_low_of x
  have hhigh : (Interval.of x).high = (4 * x.parts.1 + 2) * 2 ^ x.parts.2.toNat := rfl
  have hscale : (Interval.of x).scale = 4 * 2 ^ (-x.parts.2).toNat := rfl
  have hclosed : (Interval.of x).closed = decide (x.parts.1 % 2 = 0) := rfl
  rw [Covers, hlow, hhigh, hscale, hclosed, decide_eq_true_eq, quarters_le_iff, le_quarters_iff,
    quarters_lt_iff, lt_quarters_iff] at h
  -- The ends of the interval are read in quarters of the step between two numbers.
  push_cast [show below ≤ 4 * x.parts.1 by omega] at h
  obtain ⟨⟨hlower, hupper⟩, htie⟩ := h
  have hstep : (0 : Rat) < 2 ^ x.parts.2 := by positivity
  have hbelow' : (below : Rat) ≤ 2 := by exact_mod_cast (by omega : below ≤ 2)
  have hhalf : ((x.parts.1 : Rat) - 1 / 2) * 2 ^ x.parts.2
      ≤ (4 * x.parts.1 - below) / 4 * 2 ^ x.parts.2 := by
    gcongr
    linarith
  refine ⟨⟨hhalf.trans hlower, by linarith, htie.imp_right fun h => ⟨hhalf.trans_lt h.1, ?_⟩⟩, ?_⟩
  · linarith
  · intro hfirst hleast
    have hone : below = 1 := by
      rcases hbelow with hone | htwo
      · exact hone.1
      · exact absurd ⟨hfirst, hleast⟩ htwo.2
    rw [hone, Nat.cast_one] at hlower
    linarith

end Numbers

end Interval

namespace Decimal

/-- Trimming keeps the value. -/
theorem value_trimmed (fuel : Nat) :
    ∀ digits exponent, (trimmed fuel digits exponent).value = digits * 10 ^ exponent := by
  induction fuel with
  | zero =>
      intro digits exponent
      rfl
  | succ fuel ih =>
      intro digits exponent
      rw [trimmed]
      split
      · rename_i hlast
        have hdigits : 10 * (digits / 10) = digits := by omega
        rw [ih, ← hdigits, zpow_add_one₀ (by norm_num)]
        push_cast
        rw [Nat.mul_div_cancel_left _ (by decide)]
        ring
      · rfl

/-- The place of the point is not past the first digit. -/
theorem pow_pointPlace_le (n d : Nat) (hn : 0 < n) (hd : 0 < d) :
    (10 : Rat) ^ (pointPlace n d - 1) ≤ (n : Rat) / d := by
  rw [pointPlace]
  by_cases hle : d ≤ n
  · have hlength := Nat.length_toDigits_pos (b := 10) (n := n / d)
    have hplace : ((Nat.toDigits 10 (n / d)).length : Int) - 1
        = ((Nat.toDigits 10 (n / d)).length - 1 : Nat) := by omega
    rw [if_pos hle, hplace, zpow_natCast]
    calc (10 : Rat) ^ ((Nat.toDigits 10 (n / d)).length - 1)
        ≤ (n / d : Nat) := by exact_mod_cast pow_length_le (Nat.div_pos hle hd)
      _ ≤ (n : Rat) / d := Nat.cast_div_le
  · have hplace : (1 : Int) - (Nat.toDigits 10 (d / n)).length - 1
        = -((Nat.toDigits 10 (d / n)).length : Int) := by omega
    have hlt : d < n * 10 ^ (Nat.toDigits 10 (d / n)).length := by
      rw [mul_comm, ← Nat.div_lt_iff_lt_mul hn]
      exact lt_pow_length (d / n)
    rw [if_neg hle, hplace, zpow_neg, zpow_natCast, inv_eq_one_div,
      div_le_div_iff₀ (by positivity) (by positivity), one_mul]
    exact_mod_cast hlt.le

section Grids

variable {i : Interval} {place : Int} {n : Nat} (halfUp : Bool)

/-- What is found on a grid is one of the neighbours of the number, and is in the interval. -/
theorem exists_of_onGrid? {d : Decimal} (h : onGrid? halfUp i place n = some d) :
    ∃ k, d = trimmed n k (place - n) ∧
      i.contains (k * Nat.pow 10 (place - n).toNat) (Nat.pow 10 (-(place - n)).toNat) = true := by
  obtain ⟨k, hpick, hd⟩ := Option.map_eq_some_iff.mp h
  exact ⟨k, hd.symm, by grind⟩

/-- What is found on a grid is in the interval. -/
theorem covers_of_onGrid? {d : Decimal} (h : onGrid? halfUp i place n = some d) :
    i.Covers d.value := by
  obtain ⟨k, rfl, hcontains⟩ := exists_of_onGrid? halfUp h
  have hdown : 0 < Nat.pow 10 (-(place - n)).toNat := Nat.pow_pos (by decide)
  have hcovers := i.covers_of_contains _ _ hdown hcontains
  have hvalue : ((k * Nat.pow 10 (place - n).toNat : Nat) : Rat)
      / (Nat.pow 10 (-(place - n)).toNat : Nat) = (trimmed n k (place - n)).value := by
    rw [value_trimmed, zpow_eq_div 10 (by norm_num), Nat.pow_eq, Nat.pow_eq]
    push_cast
    ring
  rwa [hvalue] at hcovers

/-- One of the neighbours is enough. -/
theorem isSome_onGrid?_of_contains {up down floor : Nat}
    (hup : Nat.pow 10 (place - n).toNat = up) (hdown : Nat.pow 10 (-(place - n)).toNat = down)
    (hfloor : i.value * down / (i.scale * up) = floor)
    (h : i.contains (floor * up) down = true ∨ i.contains ((floor + 1) * up) down = true) :
    (onGrid? halfUp i place n).isSome = true := by
  subst hup hdown hfloor
  rw [onGrid?, Option.isSome_map]
  grind

/-- The first of seventeen digits has at most the place of the point. -/
theorem grid_step_le (hwide : i.IsWide) (hplace : place = pointPlace i.value i.scale) :
    10 ^ 16 * (i.scale * 10 ^ (place - 17).toNat) ≤ i.value * 10 ^ (-(place - 17)).toNat := by
  have hvalue : 0 < i.value := by
    have := hwide.below
    omega
  have hscale := hwide.scale_pos
  have hle := pow_pointPlace_le i.value i.scale hvalue hscale
  have hpower : (10 : Rat) ^ (place - 1)
      = 10 ^ 16 * 10 ^ (place - 17).toNat / 10 ^ (-(place - 17)).toNat := by
    rw [mul_div_assoc, ← zpow_eq_div 10 (by norm_num), ← zpow_natCast, ← zpow_add₀ (by norm_num)]
    congr 1
    push_cast
    ring
  rw [← hplace, hpower, div_le_div_iff₀ (by positivity) (by exact_mod_cast hscale)] at hle
  have hle' : 10 ^ 16 * 10 ^ (place - 17).toNat * i.scale
      ≤ i.value * 10 ^ (-(place - 17)).toNat := by exact_mod_cast hle
  linarith

/-- In a wide interval something is found on the grid of seventeen digits: the nearer neighbour is
    within half a step of the grid. -/
theorem isSome_onGrid? (hwide : i.IsWide) :
    (onGrid? halfUp i (pointPlace i.value i.scale) 17).isSome = true := by
  generalize hplace : pointPlace i.value i.scale = place
  have hstep := grid_step_le hwide hplace.symm
  have hdown : 0 < 10 ^ (-(place - 17)).toNat := Nat.pow_pos (by decide)
  have hup : 0 < 10 ^ (place - 17).toNat := Nat.pow_pos (by decide)
  have hbelow := Nat.mul_lt_mul_of_pos_right hwide.below hdown
  have habove := Nat.mul_lt_mul_of_pos_right hwide.above hdown
  refine isSome_onGrid?_of_contains halfUp rfl rfl rfl ?_
  rw [Nat.pow_eq, Nat.pow_eq, Nat.cast_ofNat]
  -- From here on the powers are unknown numbers, and the rest is about a division.
  generalize 10 ^ (-(place - 17)).toNat = down at *
  generalize 10 ^ (place - 17).toNat = up at *
  have hT : 0 < i.scale * up := Nat.mul_pos hwide.scale_pos hup
  have hdivision : i.value * down / (i.scale * up) * (i.scale * up)
      + i.value * down % (i.scale * up) = i.value * down := Nat.div_add_mod' _ _
  have hrest : i.value * down % (i.scale * up) < i.scale * up := Nat.mod_lt _ hT
  generalize i.value * down % (i.scale * up) = rest at *
  generalize i.value * down / (i.scale * up) = floor at *
  rw [Nat.mul_assoc, Nat.sub_mul] at hbelow habove
  have hgrid : ∀ k, k * up * i.scale = k * (i.scale * up) := fun k => by ring
  -- One of the two neighbours on the grid is no further away than half a step.
  by_cases hnear : 2 * rest ≤ i.scale * up
  · left
    apply i.contains_of_lt
    · rw [hgrid]
      omega
    · rw [hgrid]
      omega
  · right
    apply i.contains_of_lt
    · rw [hgrid, Nat.add_mul, Nat.one_mul]
      omega
    · rw [hgrid, Nat.add_mul, Nat.one_mul]
      omega

/-- The shortest decimal is in the interval. -/
theorem covers_shortest (hwide : i.IsWide) : i.Covers (shortest halfUp i).value := by
  rw [shortest]
  cases hfound : (List.range 17).findSome? fun n =>
      onGrid? halfUp i (pointPlace i.value i.scale) (n + 1) with
  | none =>
      have hnone := List.findSome?_eq_none_iff.mp hfound 16 (List.mem_range.mpr (by decide))
      have hsome := isSome_onGrid? halfUp hwide
      rw [hnone] at hsome
      cases hsome
  | some d =>
      obtain ⟨n, -, hd⟩ := List.exists_of_findSome?_eq_some hfound
      exact covers_of_onGrid? halfUp hd

end Grids

end Decimal

/-- A number is read back from its shortest decimal, however this is written. -/
theorem Binary64.ofDecimal_shortest (x : Binary64) (hfinite : x.isFinite = true)
    (hpos : 0 < x.magnitude) (halfUp : Bool) (digits : Nat) (exponent : Int)
    (h : digits * 10 ^ exponent = (Decimal.shortest halfUp (.of x)).value) :
    ofDecimal x.isNegative digits exponent = x := by
  have hwide := Interval.isWide_of x hpos
  have hcovers := Decimal.covers_shortest halfUp hwide
  rw [← h] at hcovers
  have hdigits : 0 < digits := hwide.digits_pos hcovers
  rw [ofDecimal_eq x.isParts (of_decide_eq_true hfinite) (x.isParts.pos hpos) hdigits
    (Interval.rounds_of_covers x hpos hcovers), ofParts_eq]

end PlatformBridge
