import Mathlib.Algebra.Order.Field.Power
import RecordLogic.Proofs.Conformance

/-!
# Doubles as rationals

A finite double denotes the rational number that its bits write, so a number has one value whatever its representation.
The integer that a double or a decimal denotes is found just where its value is one.
-/

namespace RecordLogic

open Number

namespace Number

variable {f : Float} {n : Int}

def Reading.toRat? : Reading → Option ℚ
  | .finite negative m e => some (Decimal.signOf negative * (m * 2 ^ e))
  | _ => none

def toRat? (f : Float) : Option ℚ := (Reading.of f).toRat?

theorem unscaled_one (m : Nat) (e : Int) :
    0 < (unscaled m 1 (-e)).2 ∧ ((unscaled m 1 (-e)).1 : ℚ) = m * 2 ^ e * (unscaled m 1 (-e)).2 := by
  have htwo : ∀ k : Nat, ((twoTo k : Nat) : ℚ) = 2 ^ k := by simp [twoTo]
  unfold unscaled
  by_cases he : 0 ≤ -e
  · rw [if_pos he]
    obtain ⟨k, hk⟩ := Int.eq_ofNat_of_zero_le he
    obtain rfl : e = -(k : Int) := by omega
    refine ⟨Nat.mul_pos Nat.one_pos (Nat.two_pow_pos _), ?_⟩
    simp only [neg_neg, Int.toNat_natCast, one_mul, htwo, zpow_neg, zpow_natCast]
    field_simp
  · rw [if_neg he, neg_neg]
    obtain ⟨k, rfl⟩ := Int.eq_ofNat_of_zero_le (show 0 ≤ e by omega)
    refine ⟨Nat.one_pos, ?_⟩
    simp only [Int.toNat_natCast, Nat.cast_mul, htwo, zpow_natCast, Nat.cast_one, mul_one]

theorem signOf_mul_natCast (negative : Bool) (k : Nat) :
    Decimal.signOf negative * (k : ℚ) = ((if negative then -(k : Int) else k : Int) : ℚ) := by
  cases negative <;> simp [Decimal.signOf]

theorem natAbs_of_signOf_mul {negative : Bool} {q : ℚ} (hq : 0 ≤ q) (h : Decimal.signOf negative * q = n) :
    q = n.natAbs := by
  have habs := congrArg abs h
  rwa [abs_mul, Decimal.abs_signOf, one_mul, abs_of_nonneg hq, ← Int.cast_abs, Int.abs_eq_natAbs,
    Int.cast_natCast] at habs

theorem whole?_eq_some : whole? f = some n ↔ toRat? f = some (n : ℚ) := by
  unfold whole? toRat?
  cases Reading.of f with
  | nan | infinite _ => simp [Reading.toRat?]
  | finite negative m e =>
    obtain ⟨hpos, hvalue⟩ := unscaled_one m e
    simp only [Reading.toRat?, Option.some.injEq]
    generalize unscaled m 1 (-e) = p at *
    obtain ⟨num, den⟩ := p
    dsimp only at hpos hvalue ⊢
    have hden : (den : ℚ) ≠ 0 := Nat.cast_ne_zero.mpr hpos.ne'
    by_cases hmod : num % den = 0
    · obtain ⟨k, rfl⟩ := Nat.dvd_of_mod_eq_zero hmod
      have hk : (m : ℚ) * 2 ^ e = k := by
        rw [Nat.cast_mul, mul_comm] at hvalue
        exact (mul_right_cancel₀ hden hvalue).symm
      rw [if_pos hmod, Nat.mul_div_cancel_left k hpos, hk, signOf_mul_natCast, Int.cast_inj, Option.some.injEq]
    · rw [if_neg hmod]
      refine iff_of_false (by simp) fun h => hmod ?_
      have hnonneg : (0 : ℚ) ≤ m * 2 ^ e := by positivity
      rw [natAbs_of_signOf_mul hnonneg h] at hvalue
      have hnum : num = n.natAbs * den := by exact_mod_cast hvalue
      rw [hnum, Nat.mul_mod_left]

end Number

theorem Decimal.whole?_eq_some {d : Decimal} {n : Int} : d.whole? = some n ↔ d.toRat = n := by
  refine ⟨toRat_of_whole?, fun h => ?_⟩
  have hvalue : ((d.coefficient : Nat) : ℚ) = n.natAbs * (tenTo d.scale : Nat) := by
    rw [toRat_eq] at h
    have hnonneg : (0 : ℚ) ≤ d.coefficient / 10 ^ d.scale := by positivity
    have hquotient := natAbs_of_signOf_mul hnonneg h
    rw [div_eq_iff (by positivity)] at hquotient
    rw [hquotient, tenTo_eq]
    norm_cast
  have hdvd : d.coefficient = n.natAbs * tenTo d.scale := by exact_mod_cast hvalue
  have hmod : d.coefficient % tenTo d.scale = 0 := by rw [hdvd, Nat.mul_mod_left]
  obtain ⟨k, hk⟩ : ∃ k, d.whole? = some k := by
    unfold whole?
    rw [if_pos hmod]
    exact ⟨_, rfl⟩
  rw [hk, Option.some.injEq]
  exact_mod_cast (toRat_of_whole? hk).symm.trans h

def Value.quantity? : Value → Option ℚ
  | .int n => some n
  | .float f => Number.toRat? f
  | .decimal d => some d.toRat
  | _ => none

end RecordLogic
