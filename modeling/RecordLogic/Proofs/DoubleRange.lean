import Mathlib
import RecordLogic.Number.Binary

/-!
# Range of doubles

A double is finite unless all bits of its exponent are set. The double nearest to a quotient or to a decimal numeral has
such bits just where the number is not below the middle between the greatest double and the power of two that comes
next, since a number in the middle goes to the even neighbour.

Mathlib is imported whole for `pack_unpack`, which no module of Mathlib makes available by itself.
-/

namespace RecordLogic.Number

/-! ## Bits -/

section Bits
open Float.Model (UnpackedFloat)
open Float.Model.UnpackedFloat

theorem eq_ones_iff (v : BitVec 11) : v = -1#11 ↔ v.toNat = 2047 := by
  rw [← BitVec.toNat_inj]
  rfl

def exponentOf (b : BitVec 64) : Nat := (@unpackExponent .binary64 b).toNat

theorem exponentOf_toBitVec (b : UInt64) : exponentOf b.toBitVec = b.toNat / twoTo 52 % twoTo 11 := by
  simp only [exponentOf, unpackExponent, BitVec.toNat_cast, BitVec.extractLsb_toNat, Nat.shiftRight_eq_div_pow]
  rfl

theorem isFinite_unpack (b : BitVec 64) : (unpack .binary64 b).isFinite ↔ exponentOf b ≠ 2047 := by
  rw [exponentOf, ne_eq, ← eq_ones_iff]
  unfold unpack
  dsimp only
  split_ifs with hones <;>
    simp only [isFinite, hones, not_true, not_false_iff, iff_self, Bool.false_eq_true]

/-- A double keeps the bits that it is made of, unless they are those of no number. -/
theorem exponentOf_pack (b : BitVec 64) :
    exponentOf (UnpackedFloat.pack .binary64 (unpack .binary64 b)) = exponentOf b := by
  rw [@pack_unpack .binary64 b (by decide)]
  split
  · rename_i hnan
    obtain ⟨hb, -⟩ := of_decide_eq_true hnan
    unfold exponentOf
    rw [hb, packedNaN, unpackExponent_packComponents]
  · rfl

theorem isFinite_ofBits (b : UInt64) : (Float.ofBits b).isFinite ↔ b.toNat / twoTo 52 % twoTo 11 ≠ 2047 := by
  have hfinite : (Float.ofBits b).isFinite =
      (unpack .binary64 (UnpackedFloat.pack .binary64 (unpack .binary64 b.toBitVec))).isFinite := rfl
  rw [hfinite, isFinite_unpack, exponentOf_pack, exponentOf_toBitVec]

end Bits

theorem isFinite_pack (q : Nat) (e : Int) :
    (pack false q e).isFinite ↔ (e + 1074).toNat * twoTo 52 + q < 2047 * twoTo 52 := by
  have hbody : min ((e + 1074).toNat * twoTo 52 + q) (2047 * twoTo 52) < 2 ^ 64 :=
    Nat.lt_of_le_of_lt (Nat.min_le_right _ _) (by decide)
  have htwo : twoTo 52 = 4503599627370496 ∧ twoTo 11 = 2048 := by decide
  unfold pack
  rw [isFinite_ofBits, if_neg Bool.false_ne_true, UInt64.toNat_ofNat', Nat.mod_eq_of_lt hbody]
  rw [htwo.1, htwo.2]
  omega

/-! ## Quotients -/

section
variable {num den : Nat} {e : Int}

/-- A quotient is rounded up to an even number from the middle before it on. -/
theorem le_halfEven_iff {k : Nat} (hk : k % 2 = 0) (hpos : 0 < k) (hden : 0 < den) :
    k ≤ halfEven num den ↔ (2 * k - 1) * den ≤ 2 * num := by
  have hnum := Nat.div_add_mod num den
  have hr : num % den < den := Nat.mod_lt num hden
  unfold halfEven
  dsimp only
  generalize num / den = q at hnum ⊢
  generalize num % den = r at hnum hr ⊢
  subst hnum
  obtain ⟨j, rfl⟩ : ∃ j, k = j + 1 := ⟨k - 1, by omega⟩
  have hodd : (2 * (j + 1) - 1) * den = 2 * (den * j) + den := by
    rw [show 2 * (j + 1) - 1 = 2 * j + 1 by omega, Nat.add_mul, Nat.one_mul, Nat.mul_assoc, Nat.mul_comm j]
  rw [hodd]
  rcases Nat.lt_trichotomy q j with h | rfl | h
  · have hle : den * (q + 1) ≤ den * j := Nat.mul_le_mul_left den h
    rw [Nat.mul_add, Nat.mul_one] at hle
    split <;> omega
  · split <;> omega
  · have hle : den * (j + 1) ≤ den * q := Nat.mul_le_mul_left den h
    rw [Nat.mul_add, Nat.mul_one] at hle
    split <;> omega

theorem unscaled_spec (num : Nat) (hden : 0 < den) (e : Int) :
    0 < (unscaled num den e).2 ∧ ((unscaled num den e).1 : ℚ) / (unscaled num den e).2 = num / den / 2 ^ e := by
  have htwo : ∀ k : Nat, ((twoTo k : Nat) : ℚ) = 2 ^ k := by simp [twoTo]
  unfold unscaled
  by_cases he : 0 ≤ e
  · obtain ⟨k, rfl⟩ := Int.eq_ofNat_of_zero_le he
    rw [if_pos he]
    refine ⟨Nat.mul_pos hden (Nat.two_pow_pos _), ?_⟩
    simp only [Int.toNat_natCast, Nat.cast_mul, htwo, zpow_natCast, div_div]
  · obtain ⟨k, hk⟩ := Int.eq_ofNat_of_zero_le (show 0 ≤ -e by omega)
    obtain rfl : e = -(k : Int) := by omega
    rw [if_neg he]
    refine ⟨hden, ?_⟩
    simp only [neg_neg, Int.toNat_natCast, Nat.cast_mul, htwo, zpow_neg, zpow_natCast, div_inv_eq_mul,
      div_mul_eq_mul_div]

theorem mul_unscaled_le_iff (num : Nat) (hden : 0 < den) (e : Int) (a b : Nat) :
    a * (unscaled num den e).2 ≤ b * (unscaled num den e).1 ↔ (a : ℚ) * 2 ^ e ≤ b * (num / den) := by
  obtain ⟨hpos, hvalue⟩ := unscaled_spec num hden e
  generalize unscaled num den e = p at hpos hvalue ⊢
  have hcast : (0 : ℚ) < p.2 := by exact_mod_cast hpos
  have hpow : (0 : ℚ) < 2 ^ e := by positivity
  rw [← Nat.cast_le (α := ℚ), Nat.cast_mul, Nat.cast_mul, ← le_div_iff₀ hcast, mul_div_assoc, hvalue, ← mul_div_assoc,
    le_div_iff₀ hpow]

theorem log2_bounds {n : Nat} (h : n ≠ 0) : (2 : ℚ) ^ (n.log2 : Int) ≤ n ∧ (n : ℚ) < 2 ^ ((n.log2 : Int) + 1) := by
  have hlow : ((2 ^ n.log2 : Nat) : ℚ) ≤ n := Nat.cast_le.mpr (Nat.log2_self_le h)
  have hhigh : (n : ℚ) < (2 ^ (n.log2 + 1) : Nat) := Nat.cast_lt.mpr Nat.lt_log2_self
  rw [zpow_natCast, ← Nat.cast_succ, zpow_natCast]
  exact ⟨by simpa using hlow, by simpa using hhigh⟩

/-- The last bit that a format keeps is the one that leaves it all its bits, unless it is too small. -/
theorem unitOf_spec (w : Width) (hnum : num ≠ 0) (hden : den ≠ 0) : ∃ e : Int, unitOf w num den = max w.least e ∧
    (2 : ℚ) ^ (e + w.bits - 1) ≤ num / den ∧ (num / den : ℚ) < 2 ^ (e + w.bits) := by
  obtain ⟨hnlow, hnhigh⟩ := log2_bounds hnum
  obtain ⟨hdlow, hdhigh⟩ := log2_bounds hden
  have hpos : (0 : ℚ) < den := Nat.cast_pos.mpr (Nat.pos_of_ne_zero hden)
  let e : Int := num.log2 - den.log2 - w.bits
  have hlow : (2 : ℚ) ^ (e + w.bits - 1) ≤ num / den := by
    rw [le_div_iff₀ hpos]
    calc (2 : ℚ) ^ (e + w.bits - 1) * den
      _ ≤ 2 ^ (e + w.bits - 1) * 2 ^ ((den.log2 : Int) + 1) := by gcongr
      _ = 2 ^ (num.log2 : Int) := by
        rw [← zpow_add₀ two_ne_zero]
        congr 1
        omega
      _ ≤ num := hnlow
  have hhigh : (num / den : ℚ) < 2 ^ (e + 1 + w.bits) := by
    rw [div_lt_iff₀ hpos]
    calc (num : ℚ)
      _ < 2 ^ ((num.log2 : Int) + 1) := hnhigh
      _ = 2 ^ (e + 1 + w.bits) * 2 ^ (den.log2 : Int) := by
        rw [← zpow_add₀ two_ne_zero]
        congr 1
        omega
      _ ≤ 2 ^ (e + 1 + w.bits) * den := by gcongr
  have hfull : twoTo w.bits ≤ (unscaled num den e).1 / (unscaled num den e).2 ↔
      (2 : ℚ) ^ (e + w.bits) ≤ num / den := by
    have hle := mul_unscaled_le_iff num (Nat.pos_of_ne_zero hden) e (twoTo w.bits) 1
    rw [Nat.one_mul, Nat.cast_one, one_mul] at hle
    rw [Nat.le_div_iff_mul_le (unscaled_spec num (Nat.pos_of_ne_zero hden) e).1, hle, zpow_add₀ two_ne_zero, mul_comm,
      zpow_natCast]
    simp [twoTo]
  have hunit : unitOf w num den = max w.least
      (if twoTo w.bits ≤ (unscaled num den e).1 / (unscaled num den e).2 then e + 1 else e) := rfl
  by_cases hbits : twoTo w.bits ≤ (unscaled num den e).1 / (unscaled num den e).2
  · refine ⟨e + 1, by rw [hunit, if_pos hbits], ?_, hhigh⟩
    rw [show e + 1 + w.bits - 1 = e + w.bits by omega]
    exact hfull.mp hbits
  · exact ⟨e, by rw [hunit, if_neg hbits], hlow, lt_of_not_ge (mt hfull.mpr hbits)⟩

theorem le_nearest_iff (w : Width) {k : Nat} (hk : k % 2 = 0) (hpos : 0 < k) (hden : 0 < den) :
    k ≤ (nearest w num den).1 ↔ ((2 * k - 1 : Nat) : ℚ) * 2 ^ unitOf w num den ≤ 2 * (num / den) := by
  have hnearest : (nearest w num den).1 =
      halfEven (unscaled num den (unitOf w num den)).1 (unscaled num den (unitOf w num den)).2 := rfl
  rw [hnearest, le_halfEven_iff hk hpos (unscaled_spec num hden _).1, mul_unscaled_le_iff num hden]
  rfl

def overflow : ℚ := 2 ^ 1024 - 2 ^ 970

theorem overflow_eq : overflow = (2 ^ 54 - 1) * 2 ^ (970 : Int) := by
  rw [overflow, show 1024 = 54 + 970 from rfl, pow_add, sub_one_mul]
  rfl

theorem one_lt_overflow : 1 < overflow := by
  have hunit : (0 : ℚ) < 2 ^ (970 : Int) := by positivity
  rw [overflow_eq]
  calc (1 : ℚ)
    _ ≤ 2 ^ (970 : Int) := one_le_zpow₀ one_le_two (by decide)
    _ = 1 * 2 ^ (970 : Int) := (one_mul _).symm
    _ < _ := by
      gcongr
      norm_num

theorem overflow_le_ten_pow : overflow ≤ 10 ^ (400 : Int) := by
  have hunit : (0 : ℚ) ≤ 2 ^ 970 := by positivity
  calc overflow
    _ ≤ 2 ^ 1024 := sub_le_self _ hunit
    _ ≤ 10 ^ 400 := by exact_mod_cast (by decide +kernel : 2 ^ 1024 ≤ 10 ^ 400)
    _ = 10 ^ (400 : Int) := rfl

/-- A positive number and the coefficient `q` that it is rounded to where the last bit that is kept would be `2 ^ e`. -/
structure Rounds (v : ℚ) (q : Nat) (e : Int) : Prop where
  low : 2 ^ (e + 52) ≤ v
  high : v < 2 ^ (e + 53)
  le_iff : ∀ k : Nat, k % 2 = 0 → 0 < k → (k ≤ q ↔ ((2 * k - 1 : Nat) : ℚ) * 2 ^ max (-1074) e ≤ 2 * v)

namespace Rounds

variable {v : ℚ} {q : Nat}

/-- Under the greatest exponent the coefficient may reach the next power of two, and the double is finite. -/
theorem below (h : Rounds v q e) (he : e < 971) : q < 2 ^ 53 + 2 ∧ v < overflow := by
  constructor
  · have hmax : (2 : ℚ) ^ (e + 53) ≤ 2 ^ (max (-1074) e + 53) := zpow_le_zpow_right₀ one_le_two (by omega)
    rw [← not_le, h.le_iff _ (by decide) (by decide), not_le]
    calc 2 * v
      _ < 2 * 2 ^ (max (-1074) e + 53) := by linarith [h.high]
      _ = 2 ^ 54 * 2 ^ max (-1074) e := by
        rw [zpow_add₀ two_ne_zero, show (53 : Int) = (53 : Nat) from rfl, zpow_natCast]
        ring
      _ < _ := by
        gcongr
        norm_num
  · rw [overflow_eq]
    calc v
      _ < 2 ^ (e + 53) := h.high
      _ ≤ 2 ^ ((53 : Nat) + (970 : Int)) := zpow_le_zpow_right₀ one_le_two (by omega)
      _ = 2 ^ 53 * 2 ^ (970 : Int) := by rw [zpow_add₀ two_ne_zero, zpow_natCast]
      _ < _ := by
        gcongr
        norm_num

/-- At the greatest exponent only the next power of two is too much. -/
theorem at_greatest (h : Rounds v q 971) : q < 2 ^ 53 ↔ v < overflow := by
  rw [← not_le, h.le_iff _ (by decide) (by decide), not_le, overflow_eq]
  have hunit : (2 : ℚ) ^ max (-1074) (971 : Int) = 2 * 2 ^ (970 : Int) := by
    rw [show max (-1074) (971 : Int) = 1 + 970 from rfl, zpow_add₀ two_ne_zero, zpow_one]
  rw [hunit, mul_left_comm, mul_lt_mul_iff_right₀ two_pos]
  norm_num

theorem above (h : Rounds v q e) (he : 971 < e) : 2 ^ 52 ≤ q ∧ overflow ≤ v := by
  constructor
  · rw [h.le_iff _ (by decide) (by decide), max_eq_right (by omega)]
    calc ((2 * 2 ^ 52 - 1 : Nat) : ℚ) * 2 ^ e
      _ ≤ 2 * 2 ^ 52 * 2 ^ e := by
        gcongr
        norm_num
      _ = 2 * 2 ^ (e + 52) := by
        rw [zpow_add₀ two_ne_zero, show (52 : Int) = (52 : Nat) from rfl, zpow_natCast]
        ring
      _ ≤ 2 * v := by linarith [h.low]
  · rw [overflow_eq]
    calc (2 ^ 54 - 1) * (2 : ℚ) ^ (970 : Int)
      _ ≤ 2 ^ 54 * 2 ^ (970 : Int) := by
        gcongr
        norm_num
      _ = 2 ^ ((54 : Nat) + (970 : Int)) := by rw [zpow_add₀ two_ne_zero, zpow_natCast]
      _ ≤ 2 ^ (e + 52) := zpow_le_zpow_right₀ one_le_two (by omega)
      _ ≤ v := h.low

theorem isFinite_pack (h : Rounds v q e) : (pack false q (max (-1074) e)).isFinite ↔ v < overflow := by
  have hwidth : twoTo 52 = 2 ^ 52 := rfl
  rw [Number.isFinite_pack, hwidth]
  rcases lt_trichotomy e 971 with he | rfl | he
  · obtain ⟨hq, hv⟩ := h.below he
    exact iff_of_true (by omega) hv
  · rw [← h.at_greatest]
    omega
  · obtain ⟨hq, hv⟩ := h.above he
    exact iff_of_false (by omega) (not_lt.mpr hv)

end Rounds

theorem isFinite_zero (negative : Bool) : (zero negative).isFinite := by
  cases negative <;> exact (isFinite_ofBits _).mpr (by decide)

theorem not_isFinite_infinity (negative : Bool) : ¬ (infinity negative).isFinite := by
  cases negative <;> exact mt (isFinite_ofBits _).mp (by decide)

theorem isFinite_ofRatio (hden : den ≠ 0) : (ofRatio false num den).isFinite ↔ (num / den : ℚ) < overflow := by
  by_cases hnum : num = 0
  · subst hnum
    exact iff_of_true (isFinite_zero false) (by simpa using zero_lt_one.trans one_lt_overflow)
  obtain ⟨e, hunit, hlow, hhigh⟩ := unitOf_spec double hnum hden
  have hrounds : Rounds (num / den) (nearest double num den).1 e := by
    refine ⟨by rwa [show e + 52 = e + double.bits - 1 by simp [double]; omega], hhigh, fun k hk hpos => ?_⟩
    rw [le_nearest_iff double hk hpos (Nat.pos_of_ne_zero hden), hunit]
    rfl
  have hratio : ofRatio false num den = pack false (nearest double num den).1 (unitOf double num den) := if_neg hnum
  rw [hratio, hunit]
  exact hrounds.isFinite_pack

/-! ## Decimals -/

theorem digits_bounds {n : Nat} (h : n ≠ 0) :
    (10 : ℚ) ^ ((digits n).length - 1 : Int) ≤ n ∧ (n : ℚ) < 10 ^ ((digits n).length : Int) := by
  have hle : ∀ {k : Nat}, 0 < k → ((digits n).length ≤ k ↔ n < 10 ^ k) := Nat.length_toDigits_le_iff (by decide)
  obtain ⟨k, hk⟩ : ∃ k, (digits n).length = k + 1 := Nat.exists_eq_add_one.mpr Nat.length_toDigits_pos
  have hlow : 10 ^ k ≤ n := by
    rcases Nat.eq_zero_or_pos k with rfl | hpos
    · exact Nat.pos_of_ne_zero h
    · exact Nat.le_of_not_lt (mt (hle hpos).mpr (by omega))
  have hhigh : n < 10 ^ (k + 1) := (hle k.succ_pos).mp hk.le
  rw [hk]
  constructor
  · rw [Nat.cast_succ, add_sub_cancel_right, zpow_natCast]
    exact_mod_cast hlow
  · rw [zpow_natCast]
    exact_mod_cast hhigh

/-- **Range.** The double nearest to a coefficient times a power of ten is finite just below the overflow, also where
the power is so far outside the range that it is not computed. -/
theorem isFinite_ofDecimal (coefficient : Nat) (exponent : Int) :
    (ofDecimal false coefficient exponent).isFinite ↔ (coefficient : ℚ) * 10 ^ exponent < overflow := by
  have hten : (0 : ℚ) < 10 ^ exponent := by positivity
  by_cases hzero : coefficient = 0
  · subst hzero
    refine iff_of_true ?_ (by simpa using zero_lt_one.trans one_lt_overflow)
    exact isFinite_zero false
  obtain ⟨hlow, hhigh⟩ := digits_bounds hzero
  unfold ofDecimal
  dsimp only
  split_ifs with hsmall hlarge hexponent
  · refine iff_of_true (isFinite_zero false) ?_
    calc (coefficient : ℚ) * 10 ^ exponent
      _ ≤ 10 ^ ((digits coefficient).length : Int) * 10 ^ exponent := by gcongr
      _ = 10 ^ ((digits coefficient).length + exponent) := (zpow_add₀ (by norm_num) _ _).symm
      _ ≤ 1 := zpow_le_one_of_nonpos₀ (by norm_num) (by omega)
      _ < overflow := one_lt_overflow
  · refine iff_of_false (not_isFinite_infinity false) (not_lt.mpr ?_)
    calc overflow
      _ ≤ 10 ^ (400 : Int) := overflow_le_ten_pow
      _ ≤ 10 ^ ((digits coefficient).length - 1 + exponent) := zpow_le_zpow_right₀ (by norm_num) (by omega)
      _ = 10 ^ ((digits coefficient).length - 1 : Int) * 10 ^ exponent := zpow_add₀ (by norm_num) _ _
      _ ≤ coefficient * 10 ^ exponent := by gcongr
  · obtain ⟨k, rfl⟩ := Int.eq_ofNat_of_zero_le hexponent
    rw [isFinite_ofRatio one_ne_zero, Int.toNat_natCast, zpow_natCast]
    simp [tenTo]
  · obtain ⟨k, hk⟩ := Int.eq_ofNat_of_zero_le (show 0 ≤ -exponent by omega)
    obtain rfl : exponent = -(k : Int) := by omega
    have hden : tenTo k ≠ 0 := (Nat.pow_pos (by decide)).ne'
    rw [neg_neg, Int.toNat_natCast, isFinite_ofRatio hden, zpow_neg, zpow_natCast, div_eq_mul_inv]
    simp [tenTo]

end

end RecordLogic.Number
