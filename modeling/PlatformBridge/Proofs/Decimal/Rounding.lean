import PlatformBridge.Decimal.Binary64
import Mathlib.Algebra.Order.Field.Power
import Mathlib.Data.Int.Log
import Mathlib.Data.Rat.Floor
import Mathlib.Tactic.Linarith
import Mathlib.Tactic.Ring
import Mathlib.Tactic.FieldSimp
import Mathlib.Tactic.Positivity
import Mathlib.Tactic.NormNum
import Mathlib.Tactic.GCongr

/-!
# Rounding to Binary

The ratio that lies within half a step of a finite number is rounded to this
number. The reals are rationals here, and a number is known by its significand
and the exponent of its last bit.

At most magnitudes the steps up and down are equal, and rounding keeps the
power of two. Below the first magnitude of a power of two the step down is
halved: the logarithm of a ratio there is one less, its significand is rounded
up to twice the least one, and the word comes out the same because words
follow on each other across powers. `Rounds` states the interval with this
exception in it, so that it is the same interval that shortest decimals are
chosen from.

The program computes with naturals: numerators, denominators, and powers of
two on either side. The proof first leaves these for rationals, in
`floorLog2_eq_log` and `IsNear.roundHalfEven_eq`. What remains is about where a
real lies between powers of two, and Mathlib's integer logarithm is used for
it. `log_le` and `eq_of_log_lt` say that the logarithm is that of the
magnitude or, in the exceptional case, one less, and the word is computed in
both cases.

A decimal of absurd size is not computed but taken for zero or for infinity.
The two lemmas before `ofDecimal_eq` say that no decimal which rounds to a
finite magnitude is of such a size.

## Main definitions

* `Format.IsNear`: A real within half a step of a multiple of a power of two.
* `Format.IsParts`: The significand and the exponent of a word.
* `Format.Rounds`: The reals that round to a magnitude.

## Theorems

* `roundHalfEven_eq`: What a ratio near a natural number is rounded to.
* `Format.floorLog2_eq_log`: The logarithm that rounding starts from.
* `Format.IsNear.roundHalfEven_eq`: The same at any power of two.
* `Format.isParts_parts`: Every word has parts.
* `Format.Rounds.log_le`, `Format.Rounds.eq_of_log_lt`: The powers of two
  that a real is between.
* `Format.Rounds.roundRatio_eq`: The ratio that rounds to a magnitude has its
  word.
* `Binary64.ofParts_eq`: A number is made of its sign and its magnitude.
* `Binary64.rounds_lt`, `Binary64.lt_rounds`: Bounds for decimals.
* `Binary64.ofDecimal_eq`: The decimal that rounds to a magnitude is read as
  it.
-/

namespace PlatformBridge

/-- A ratio within half a step of a natural number rounds to it, at exactly half a step if it is
    even. -/
theorem roundHalfEven_eq {n d m : Nat} (hd : 0 < d) (hlow : 2 * (m * d) ≤ 2 * n + d)
    (hhigh : 2 * n ≤ 2 * (m * d) + d)
    (htie : m % 2 = 0 ∨ (2 * (m * d) < 2 * n + d ∧ 2 * n < 2 * (m * d) + d)) :
    roundHalfEven n d = m := by
  have hdivision : n / d * d + n % d = n := Nat.div_add_mod' n d
  have hrest : n % d < d := Nat.mod_lt n hd
  -- The quotient without its fraction is the number itself or the one below it.
  have hquotient : n / d = m ∨ n / d + 1 = m := by
    have hupper : n / d < m + 1 := by
      rw [Nat.div_lt_iff_lt_mul hd, Nat.add_mul, Nat.one_mul]
      omega
    have hlower : m - 1 ≤ n / d := by
      rw [Nat.le_div_iff_mul_le hd, Nat.sub_mul, Nat.one_mul]
      omega
    omega
  rw [roundHalfEven]
  rcases hquotient with hquotient | hquotient
  · rw [hquotient] at hdivision ⊢
    generalize m * d = p at *
    grind
  · rw [← hquotient, Nat.add_mul, Nat.one_mul] at hlow hhigh htie
    rw [← hquotient]
    generalize n / d * d = p at *
    grind

/-- A power of any integral exponent as a ratio of powers of natural ones. -/
theorem zpow_eq_div (b : Rat) (hb : b ≠ 0) (e : Int) :
    b ^ e = b ^ e.toNat / b ^ (-e).toNat := by
  rw [← zpow_natCast, ← zpow_natCast, ← zpow_sub₀ hb, Int.toNat_sub_toNat_neg]

/-- The first digit of a number that is not zero is not zero. -/
theorem pow_length_le {n : Nat} (h : 0 < n) : 10 ^ ((Nat.toDigits 10 n).length - 1) ≤ n := by
  have hlength := Nat.length_toDigits_pos (b := 10) (n := n)
  by_contra hlt
  by_cases hone : (Nat.toDigits 10 n).length = 1
  · rw [hone] at hlt
    omega
  · have hshorter := (Nat.length_toDigits_le_iff (by decide) (by omega)).mpr (Nat.lt_of_not_le hlt)
    omega

theorem lt_pow_length (n : Nat) : n < 10 ^ (Nat.toDigits 10 n).length :=
  (Nat.length_toDigits_le_iff (by decide) Nat.length_toDigits_pos).mp (le_refl _)

/-- Powers of two and of ten compare as natural numbers do. -/
theorem zpow_lt_zpow_of_pow_lt {k l : Nat} (h : 2 ^ k < 10 ^ l) :
    (2 : Rat) ^ (k : Int) < 10 ^ (l : Int) := by
  rw [zpow_natCast, zpow_natCast]
  exact_mod_cast h

namespace Format

/-- The binary logarithm of a ratio is found from those of its parts and one comparison. -/
theorem floorLog2_eq_log (n d : Nat) (hn : 0 < n) (hd : 0 < d) :
    floorLog2 n d = Int.log 2 ((n : Rat) / d) := by
  have hn' : (0 : Rat) < n := Nat.cast_pos.mpr hn
  have hd' : (0 : Rat) < d := Nat.cast_pos.mpr hd
  have hratio : 0 < (n : Rat) / d := div_pos hn' hd'
  rw [floorLog2]
  -- The logarithms of both numbers give the one of the ratio up to one, and a comparison decides.
  generalize hk : (n.log2 - d.log2 : Int) = k
  have hcompare : d * Nat.pow 2 k.toNat ≤ n * Nat.pow 2 (-k).toNat
      ↔ k ≤ Int.log 2 ((n : Rat) / d) := by
    rw [← Int.zpow_le_iff_le_log Nat.one_lt_two hratio, Nat.cast_two, zpow_eq_div 2 two_ne_zero,
      div_le_div_iff₀ (by positivity) hd', mul_comm (2 ^ k.toNat : Rat)]
    exact_mod_cast Iff.rfl
  have hupper : Int.log 2 ((n : Rat) / d) < k + 1 := by
    have hpower : (2 : Rat) ^ (k + 1) = 2 ^ (n.log2 + 1) / 2 ^ d.log2 := by
      rw [← hk, ← zpow_natCast, ← zpow_natCast, ← zpow_sub₀ two_ne_zero]
      congr 1
      push_cast
      ring
    rw [← Int.lt_zpow_iff_log_lt Nat.one_lt_two hratio, Nat.cast_two, hpower]
    gcongr
    · exact_mod_cast Nat.lt_log2_self
    · exact_mod_cast Nat.log2_self_le hd.ne'
  have hlower : k - 1 ≤ Int.log 2 ((n : Rat) / d) := by
    have hpower : (2 : Rat) ^ (k - 1) = 2 ^ n.log2 / 2 ^ (d.log2 + 1) := by
      rw [← hk, ← zpow_natCast, ← zpow_natCast, ← zpow_sub₀ two_ne_zero]
      congr 1
      push_cast
      ring
    rw [← Int.zpow_le_iff_le_log Nat.one_lt_two hratio, Nat.cast_two, hpower]
    gcongr
    · exact_mod_cast Nat.log2_self_le hn.ne'
    · exact_mod_cast Nat.lt_log2_self.le
  simp only [hcompare]
  split <;> omega

/-- A real is within half a step of a multiple of a power of two, at exactly half a step only if the
    multiple is even. -/
structure IsNear (m : Nat) (e : Int) (v : Rat) : Prop where
  low : (m - 1 / 2) * 2 ^ e ≤ v
  high : v ≤ (m + 1 / 2) * 2 ^ e
  tie : m % 2 = 0 ∨ ((m - 1 / 2) * 2 ^ e < v ∧ v < (m + 1 / 2) * 2 ^ e)

/-- A ratio near a multiple of a power of two is rounded to this multiple. The power goes into the
    numerator or into the denominator, by its sign. -/
theorem IsNear.roundHalfEven_eq {n d m : Nat} {e : Int} (hd : 0 < d)
    (h : IsNear m e ((n : Rat) / d)) :
    roundHalfEven (n * Nat.pow 2 (-e).toNat) (d * Nat.pow 2 e.toNat) = m := by
  rcases h with ⟨hlow, hhigh, htie⟩
  have hd' : (0 : Rat) < d := Nat.cast_pos.mpr hd
  have hdown : (0 : Rat) < 2 ^ (-e).toNat := by positivity
  rw [zpow_eq_div 2 two_ne_zero, ← mul_div_assoc, div_le_div_iff₀ hdown hd'] at hlow
  rw [zpow_eq_div 2 two_ne_zero, ← mul_div_assoc, div_le_div_iff₀ hd' hdown] at hhigh
  rw [zpow_eq_div 2 two_ne_zero, ← mul_div_assoc, ← mul_div_assoc, div_lt_div_iff₀ hdown hd',
    div_lt_div_iff₀ hd' hdown] at htie
  simp only [Nat.pow_eq]
  refine PlatformBridge.roundHalfEven_eq (by positivity) ?_ ?_ (htie.imp_right fun h => ⟨?_, ?_⟩)
  · rw [← @Nat.cast_le Rat]
    push_cast
    linarith
  · rw [← @Nat.cast_le Rat]
    push_cast
    linarith
  · rw [← @Nat.cast_lt Rat]
    push_cast
    linarith
  · rw [← @Nat.cast_lt Rat]
    push_cast
    linarith

/-- What a significand and an exponent are of a word. The significand is below a power of two and,
    except for the least exponent, not below the one before it. -/
structure IsParts (f : Format) (word m : Nat) (e : Int) : Prop where
  least_le : f.leastExponent ≤ e
  lt_double : m < 2 * 2 ^ (f.precision - 1)
  isNormal : 2 ^ (f.precision - 1) ≤ m ∨ e = f.leastExponent
  word_eq : (e - f.leastExponent).toNat * 2 ^ (f.precision - 1) + m = word

/-- The parts of a word are what its format says they are. -/
theorem isParts_parts (f : Format) (word : Nat) :
    f.IsParts word (f.parts word).1 (f.parts word).2 := by
  have hdivision : word / 2 ^ (f.precision - 1) * 2 ^ (f.precision - 1)
      + word % 2 ^ (f.precision - 1) = word := Nat.div_add_mod' _ _
  have hfraction : word % 2 ^ (f.precision - 1) < 2 ^ (f.precision - 1) :=
    Nat.mod_lt word (Nat.two_pow_pos _)
  simp only [parts, Nat.pow_eq]
  by_cases hbiased : word / 2 ^ (f.precision - 1) = 0
  · rw [if_pos hbiased]
    rw [hbiased] at hdivision
    exact ⟨le_refl _, by omega, .inr rfl, by simpa using hdivision⟩
  · obtain ⟨biased, hsucc⟩ := Nat.exists_eq_succ_of_ne_zero hbiased
    rw [if_neg hbiased]
    rw [hsucc, Nat.succ_mul] at hdivision
    refine ⟨by simp, ?_, .inl (Nat.le_add_left _ _), ?_⟩
    · simp only
      omega
    · simp only [hsucc, Nat.succ_sub_one, add_sub_cancel_left, Int.toNat_natCast]
      omega

/-- A real rounds to a magnitude if it is within half a step of it. The step down from the first
    magnitude of a power of two is half of the step up, unless there is no lesser power. -/
structure Rounds (f : Format) (m : Nat) (e : Int) (v : Rat) : Prop where
  isNear : IsNear m e v
  low : m = 2 ^ (f.precision - 1) → f.leastExponent < e → (m - 1 / 4) * 2 ^ e ≤ v

variable {f : Format} {word m n d : Nat} {e : Int} {v : Rat}

/-- Just below a power of two the significand is rounded to twice the least one. -/
theorem Rounds.isNear_pred (h : f.Rounds m e v) (hm : m = 2 ^ (f.precision - 1))
    (he : f.leastExponent < e) (hv : v ≤ m * 2 ^ e) : IsNear (2 * m) (e - 1) v := by
  have hlow := h.low hm he
  have hpower : (2 : Rat) ^ e = 2 * 2 ^ (e - 1) := by
    rw [← zpow_one_add₀ two_ne_zero, add_sub_cancel]
  have hpos : (0 : Rat) < 2 ^ (e - 1) := by positivity
  rw [hpower] at hlow hv
  refine ⟨?_, ?_, .inl (Nat.mul_mod_right 2 m)⟩
  · push_cast
    linarith
  · push_cast
    linarith

/-- What rounds to a magnitude is less than the next power of two. -/
theorem Rounds.log_le (hparts : f.IsParts word m e) (h : f.Rounds m e v) (hv : 0 < v) :
    Int.log 2 v ≤ e + (f.precision - 1 : Nat) := by
  have hlt : (m : Rat) + 1 / 2 < 2 * 2 ^ (f.precision - 1) := by
    have : (m : Rat) + 1 ≤ 2 * 2 ^ (f.precision - 1) := by exact_mod_cast hparts.lt_double
    linarith
  rw [← Int.lt_add_one_iff, ← Int.lt_zpow_iff_log_lt Nat.one_lt_two hv]
  calc v ≤ (m + 1 / 2) * 2 ^ e := h.isNear.high
    _ < 2 * 2 ^ (f.precision - 1) * 2 ^ e := by gcongr
    _ = ((2 : Nat) : Rat) ^ (e + (f.precision - 1 : Nat) + 1) := by
        rw [Nat.cast_two, zpow_add_one₀ two_ne_zero, zpow_add₀ two_ne_zero, zpow_natCast]
        ring

/-- What rounds to a magnitude is not less than the power of two before it, or else this is the
    first magnitude of its power. -/
theorem Rounds.eq_of_log_lt (hparts : f.IsParts word m e) (h : f.Rounds m e v) (hv : 0 < v)
    (he : f.leastExponent < e) (hlog : Int.log 2 v < e + (f.precision - 1 : Nat)) :
    m = 2 ^ (f.precision - 1) ∧ v < m * 2 ^ e ∧
      Int.log 2 v = e - 1 + (f.precision - 1 : Nat) := by
  have hlt : v < 2 ^ (f.precision - 1) * 2 ^ e := by
    rw [← Int.lt_zpow_iff_log_lt Nat.one_lt_two hv, Nat.cast_two, zpow_add₀ two_ne_zero,
      zpow_natCast, mul_comm] at hlog
    exact hlog
  have hnormal : 2 ^ (f.precision - 1) ≤ m := hparts.isNormal.resolve_right he.ne'
  -- The ratio is less than the least number of this exponent, and rounds to it all the same.
  have hm : m = 2 ^ (f.precision - 1) := by
    have hless := h.isNear.low.trans_lt hlt
    rw [mul_lt_mul_iff_left₀ (by positivity)] at hless
    have : (m : Rat) < 2 ^ (f.precision - 1) + 1 := by linarith
    have : m < 2 ^ (f.precision - 1) + 1 := by exact_mod_cast this
    omega
  refine ⟨hm, by rw [hm]; exact_mod_cast hlt, le_antisymm ?_ ?_⟩
  · omega
  · rw [← Int.zpow_le_iff_le_log Nat.one_lt_two hv]
    calc ((2 : Nat) : Rat) ^ (e - 1 + (f.precision - 1 : Nat))
        = m / 2 * 2 ^ e := by
          rw [hm, Nat.cast_two, zpow_add₀ two_ne_zero, zpow_sub_one₀ two_ne_zero, zpow_natCast]
          push_cast
          ring
      _ ≤ (m - 1 / 4) * 2 ^ e := by
          have : (1 : Rat) ≤ m := by
            rw [hm]
            exact_mod_cast Nat.two_pow_pos _
          gcongr
          linarith
      _ ≤ v := h.low hm he

/-- The ratio that rounds to a magnitude has its word. -/
theorem Rounds.roundRatio_eq (hparts : f.IsParts word m e) (hfinite : word < f.infinity)
    (hn : 0 < n) (hd : 0 < d) (h : f.Rounds m e ((n : Rat) / d)) : f.roundRatio n d = word := by
  have hratio : 0 < (n : Rat) / d := by positivity
  have hlog := h.log_le hparts hratio
  have hleast := hparts.least_le
  have hword := hparts.word_eq
  rw [roundRatio, if_neg hn.ne', floorLog2_eq_log n d hn hd, Nat.pow_eq]
  by_cases hlow : f.leastExponent < e ∧ Int.log 2 ((n : Rat) / d) < e + (f.precision - 1 : Nat)
  · obtain ⟨hm, hlt, hlog⟩ := h.eq_of_log_lt hparts hratio hlow.1 hlow.2
    have hmax : max f.leastExponent (Int.log 2 ((n : Rat) / d) - (f.precision - 1 : Nat))
        = e - 1 := by omega
    have hstep : (e - f.leastExponent).toNat = (e - 1 - f.leastExponent).toNat + 1 := by omega
    simp only [hmax, (h.isNear_pred hm hlow.1 hlt.le).roundHalfEven_eq hd]
    rw [hstep, Nat.succ_mul] at hword
    omega
  · have hmax : max f.leastExponent (Int.log 2 ((n : Rat) / d) - (f.precision - 1 : Nat))
        = e := by omega
    simp only [hmax, h.isNear.roundHalfEven_eq hd, hword]
    exact Nat.min_eq_right hfinite.le

end Format

namespace Binary64

/-- A number is made of its sign and its magnitude. -/
theorem ofParts_eq (x : Binary64) : ofParts x.isNegative x.magnitude = x := by
  rcases x with ⟨bits⟩
  have hbits := bits.toNat_lt
  rw [ofParts, isNegative, magnitude, mk.injEq]
  apply UInt64.toNat_inj.mp
  by_cases hsign : 0x8000000000000000 ≤ bits
  · rw [if_pos (decide_eq_true hsign)]
    simp [UInt64.le_iff_toNat_le] at hsign ⊢
    omega
  · rw [if_neg (by simpa using hsign)]
    simp [UInt64.le_iff_toNat_le] at hsign ⊢
    omega

section Decimals

variable {word m digits : Nat} {e exponent : Int}

/-- A decimal is between two powers of ten. -/
theorem pow_le_decimal (h : 0 < digits) :
    (10 : Rat) ^ ((Nat.toDigits 10 digits).length + exponent - 1) ≤ digits * 10 ^ exponent := by
  have hlength := Nat.length_toDigits_pos (b := 10) (n := digits)
  have hle := pow_length_le h
  calc (10 : Rat) ^ ((Nat.toDigits 10 digits).length + exponent - 1)
      = 10 ^ ((Nat.toDigits 10 digits).length - 1) * 10 ^ exponent := by
        rw [← zpow_natCast, ← zpow_add₀ (by norm_num)]
        congr 1
        omega
    _ ≤ digits * 10 ^ exponent := by
        gcongr
        exact_mod_cast hle

theorem decimal_lt_pow :
    (digits : Rat) * 10 ^ exponent < 10 ^ ((Nat.toDigits 10 digits).length + exponent) := by
  rw [zpow_add₀ (by norm_num), zpow_natCast]
  gcongr
  exact_mod_cast lt_pow_length digits

variable (hparts : Format.double.IsParts word m e)
include hparts

/-- What rounds to a finite magnitude is below every bound for large decimals. -/
theorem rounds_lt (hfinite : word < Format.double.infinity) {v : Rat}
    (h : Format.double.Rounds m e v) : v < 10 ^ (310 : Int) := by
  have hexponent : e ≤ 971 := by
    have hword := hparts.word_eq
    have hnormal := hparts.isNormal
    simp only [Format.double, Format.infinity, Nat.pow_eq] at hfinite hword hnormal
    omega
  have hm : (m : Rat) + 1 / 2 ≤ 2 ^ (53 : Int) := by
    have : (m : Rat) + 1 ≤ 2 * 2 ^ 52 := by exact_mod_cast hparts.lt_double
    norm_num at this ⊢
    linarith
  calc v ≤ (m + 1 / 2) * 2 ^ e := h.isNear.high
    _ ≤ 2 ^ (53 : Int) * 2 ^ (971 : Int) := by
        gcongr
        norm_num
    _ = 2 ^ (1024 : Int) := by
        rw [← zpow_add₀ two_ne_zero, show (53 + 971 : Int) = 1024 from rfl]
    _ < 10 ^ (310 : Int) := zpow_lt_zpow_of_pow_lt (k := 1024) (by decide +kernel)

/-- What rounds to a magnitude that is not zero is above every bound for small decimals. -/
theorem lt_rounds (hm : 0 < m) {v : Rat} (h : Format.double.Rounds m e v) :
    10 ^ (-330 : Int) < v := by
  have hm' : (1 : Rat) / 2 ≤ m - 1 / 2 := by
    have : (1 : Rat) ≤ m := by exact_mod_cast hm
    linarith
  calc (10 : Rat) ^ (-330 : Int)
      < 2 ^ (-1075 : Int) := by
        rw [zpow_neg, zpow_neg]
        exact inv_strictAnti₀ (by positivity)
          (zpow_lt_zpow_of_pow_lt (k := 1075) (by decide +kernel))
    _ = 1 / 2 * 2 ^ (-1074 : Int) := by
        rw [one_div, ← zpow_neg_one, ← zpow_add₀ two_ne_zero,
          show (-1 + -1074 : Int) = -1075 from rfl]
    _ ≤ (m - 1 / 2) * 2 ^ e := by
        gcongr
        · norm_num
        · exact hparts.least_le
    _ ≤ v := h.isNear.low

/-- The decimal that rounds to a magnitude is read as it. The bounds that keep powers of ten small
    are beyond every magnitude. -/
theorem ofDecimal_eq (hfinite : word < Format.double.infinity) (hm : 0 < m)
    (hdigits : 0 < digits) (h : Format.double.Rounds m e (digits * 10 ^ exponent))
    (negative : Bool) : ofDecimal negative digits exponent = ofParts negative word := by
  have hlarge : ¬ 310 < ((Nat.toDigits 10 digits).length : Int) + exponent := by
    intro hlength
    have := (rounds_lt hparts hfinite h).trans_le' (pow_le_decimal hdigits)
    rw [zpow_lt_zpow_iff_right₀ (by norm_num)] at this
    omega
  have hsmall : ¬ ((Nat.toDigits 10 digits).length : Int) + exponent < -330 := by
    intro hlength
    have := (lt_rounds hparts hm h).trans decimal_lt_pow
    rw [zpow_lt_zpow_iff_right₀ (by norm_num)] at this
    omega
  have hratio : ((digits * 10 ^ exponent.toNat : Nat) : Rat) / (10 ^ (-exponent).toNat : Nat)
      = digits * 10 ^ exponent := by
    rw [zpow_eq_div 10 (by norm_num)]
    push_cast
    ring
  rw [← hratio] at h
  simp only [ofDecimal, if_neg hdigits.ne', if_neg hlarge, if_neg hsmall, Nat.pow_eq]
  rw [h.roundRatio_eq hparts hfinite (by positivity) (by positivity)]

end Decimals

end Binary64

end PlatformBridge
