import Mathlib.Data.List.Find
import Mathlib.Tactic.Ring
import RecordLogic.Decimal.Reading
import RecordLogic.Proofs.Rationals

/-!
# Decimals and powers of ten

A decimal times a power of ten is exact whenever there is a result. Divided by one it is exact just where a decimal
equals the quotient, since the digits that drop out behind the last place are zeros then.
-/

namespace RecordLogic

open Number

theorem Number.tenTo_eq (k : Nat) : tenTo k = 10 ^ k := rfl

namespace Decimal

variable {d : Decimal} {negative : Bool} {n s : Nat}

/-! ## Parts of a decimal -/

def signOf (negative : Bool) : ℚ := if negative then -1 else 1

theorem abs_signOf (negative : Bool) : |signOf negative| = 1 := by
  cases negative <;> simp [signOf]

theorem toRat_eq (d : Decimal) : d.toRat = signOf d.negative * (d.coefficient / 10 ^ d.scale) := by
  unfold toRat signedCoefficient signOf
  by_cases h : d.negative
  · simp [h, neg_div]
  · simp [h]

theorem abs_toRat (d : Decimal) : |d.toRat| = d.coefficient / 10 ^ d.scale := by
  have hpos : (0 : ℚ) ≤ d.coefficient / 10 ^ d.scale := by positivity
  rw [toRat_eq, abs_mul, abs_signOf, one_mul, abs_of_nonneg hpos]

theorem abs_toRat_le (d : Decimal) : |d.toRat| ≤ 2 ^ 96 - 1 := by
  have hcoefficient : (d.coefficient : ℚ) + 1 ≤ 2 ^ 96 := by exact_mod_cast d.coefficient_lt
  rw [abs_toRat]
  exact (div_le_self (by positivity) (one_le_pow₀ (by norm_num))).trans (le_sub_right_of_add_le hcoefficient)

theorem abs_toRat_lt (d : Decimal) : |d.toRat| < 2 ^ 96 := d.abs_toRat_le.trans_lt (sub_lt_self _ one_pos)

theorem make?_eq_some (h : make? negative n s = some d) :
    n < twoTo 96 ∧ s ≤ 28 ∧ d.negative = (negative && n != 0) ∧ d.coefficient = n ∧ d.scale = s := by
  unfold make? at h
  split at h
  · rename_i hbounds
    cases h
    exact ⟨hbounds.1, hbounds.2, rfl, rfl, rfl⟩
  · cases h

theorem exists_make? (negative : Bool) (hn : n < twoTo 96) (hs : s ≤ 28) : ∃ d, make? negative n s = some d := by
  unfold make?
  rw [dif_pos ⟨hn, hs⟩]
  exact ⟨_, rfl⟩

theorem toRat_of_make? (h : make? negative n s = some d) : d.toRat = signOf negative * (n / 10 ^ s) := by
  obtain ⟨-, -, hnegative, hcoefficient, hscale⟩ := make?_eq_some h
  rw [toRat_eq, hnegative, hcoefficient, hscale]
  -- A zero is the same number under either sign.
  by_cases hn : n = 0
  · simp [hn]
  · simp [hn, signOf]

theorem toRat_of_make?_false (h : make? false n s = some d) : d.toRat = n / 10 ^ s :=
  (toRat_of_make? h).trans (one_mul _)

end Decimal

/-! ## What a decimal can equal -/

def Representable (q : ℚ) : Prop := ∃ d : Decimal, d.toRat = q

theorem div_pow_eq (n : ℚ) (k s : Nat) : n * 10 ^ k / 10 ^ (s + k) = n / 10 ^ s := by
  rw [pow_add, mul_div_mul_right _ _ (by positivity)]

namespace Representable

variable {q : ℚ} {n m : Nat}

theorem exists_coefficient (h : Representable q) (hq : |q| = n / 10 ^ m) :
    ∃ C k, C < twoTo 96 ∧ k ≤ 28 ∧ n * 10 ^ k = C * 10 ^ m := by
  obtain ⟨d, rfl⟩ := h
  rw [d.abs_toRat, div_eq_div_iff (by positivity) (by positivity)] at hq
  exact ⟨d.coefficient, d.scale, d.coefficient_lt, d.scale_le, by exact_mod_cast hq.symm⟩

theorem pow_dvd (h : Representable q) (hq : |q| = n / 10 ^ m) : 10 ^ (m - 28) ∣ n := by
  obtain ⟨C, k, -, hk, heq⟩ := h.exists_coefficient hq
  by_cases hkm : k ≤ m
  · obtain ⟨i, rfl⟩ := Nat.exists_eq_add_of_le' hkm
    have hn : n = C * 10 ^ i := by
      rw [Nat.pow_add, ← Nat.mul_assoc] at heq
      exact Nat.eq_of_mul_eq_mul_right (by positivity) heq
    rw [hn]
    exact (Nat.pow_dvd_pow 10 (by omega)).mul_left C
  · rw [Nat.sub_eq_zero_of_le (by omega), Nat.pow_zero]
    exact Nat.one_dvd n

end Representable

namespace Decimal

variable {a b c d : Decimal} {negative : Bool} {n s e : Nat}

/-! ## Multiplied by a power of ten -/

theorem halfEven_mul_right {k : Nat} (hk : 0 < k) : halfEven (n * k) k = n := by
  unfold halfEven
  simp [Nat.mul_div_cancel n hk]
  omega

/-- Zeros of the power are dropped until there is room, and no other digit is. -/
theorem fit_cases (negative : Bool) (hn : n < twoTo 96) (hs : s ≤ 28) (e : Nat) :
    (∃ i k, e = i + k ∧ k ≤ s ∧ n * 10 ^ i < twoTo 96 ∧
      fit negative (n * 10 ^ e) s = make? negative (n * 10 ^ i) (s - k)) ∨
    twoTo 96 ≤ n * 10 ^ (e - s) ∧ fit negative (n * 10 ^ e) s = none := by
  unfold fit
  simp only [tenTo_eq]
  split
  · rename_i hnone
    right
    have hscale : s - min e s ≤ 28 := by omega
    have hfull : ¬ n * 10 ^ e / 10 ^ min e s < twoTo 96 := by
      simpa [hscale] using List.find?_eq_none.mp hnone (min e s) (List.mem_range.mpr (by omega))
    have hquotient : n * 10 ^ e / 10 ^ min e s = n * 10 ^ (e - s) := by
      rw [Nat.mul_div_assoc _ (Nat.pow_dvd_pow 10 (Nat.min_le_left e s)),
        Nat.pow_div (Nat.min_le_left e s) (by decide), show e - min e s = e - s by omega]
    rw [hquotient] at hfull
    exact ⟨Nat.le_of_not_lt hfull, rfl⟩
  · rename_i k hk
    left
    obtain ⟨hroom, hks, hmin⟩ := List.find?_range_eq_some.mp hk
    have hks : k ≤ s := Nat.le_of_lt_succ (List.mem_range.mp hks)
    -- Without the zeros of the power the coefficient has room, so no other digit is dropped.
    have hke : k ≤ e := by
      by_contra hlt
      have hfull := hmin e (by omega)
      simp [hn] at hfull
      omega
    obtain ⟨i, rfl⟩ := Nat.exists_eq_add_of_le' hke
    have hsplit : n * 10 ^ (i + k) = n * 10 ^ i * 10 ^ k := by
      rw [Nat.pow_add, Nat.mul_assoc]
    have hroom : n * 10 ^ i < twoTo 96 := by
      have hquotient := of_decide_eq_true (Bool.and_eq_true_iff.mp hroom).2
      rwa [hsplit, Nat.mul_div_cancel _ (by positivity)] at hquotient
    refine ⟨i, k, rfl, hks, hroom, ?_⟩
    rw [hsplit, halfEven_mul_right (by positivity), if_pos hroom]

theorem toRat_of_fit (h : fit negative (n * 10 ^ e) s = some d) (hn : n < twoTo 96) (hs : s ≤ 28) :
    d.toRat = signOf negative * (n * 10 ^ e / 10 ^ s) := by
  obtain ⟨i, k, rfl, hks, -, hfit⟩ | ⟨-, hfit⟩ := fit_cases negative hn hs e
  · have hscale := div_pow_eq (n * 10 ^ i) k (s - k)
    rw [Nat.sub_add_cancel hks, mul_assoc, ← pow_add] at hscale
    rw [hfit] at h
    rw [toRat_of_make? h, hscale]
    norm_cast
  · rw [hfit] at h
    cases h

theorem toRat_of_mul (h : a.mul b = some c) (hb : b.negative = false ∧ b.coefficient = 10 ^ e ∧ b.scale = 0) :
    c.toRat = a.toRat * 10 ^ e := by
  obtain ⟨hnegative, hcoefficient, hscale⟩ := hb
  unfold mul at h
  dsimp only at h
  split at h
  · rename_i hzero
    cases h
    have ha : a.coefficient = 0 := by simpa [isZero, hcoefficient] using hzero
    simp [toRat_eq, ha, zero]
  split at h
  · have := a.scale_le
    omega
  rw [hnegative, hcoefficient, hscale, Nat.add_zero] at h
  rw [toRat_of_fit h a.coefficient_lt a.scale_le, toRat_eq a, Bool.bne_false]
  ring

theorem exists_mul (hb : b.negative = false ∧ b.coefficient = 10 ^ e ∧ b.scale = 0) (h : |a.toRat| * 10 ^ e < 2 ^ 96) :
    ∃ c, a.mul b = some c := by
  obtain ⟨-, hcoefficient, hscale⟩ := hb
  unfold mul
  dsimp only
  split
  · exact ⟨_, rfl⟩
  split
  · exact ⟨_, rfl⟩
  rw [hcoefficient, hscale, Nat.add_zero]
  obtain ⟨i, k, -, -, hroom, hfit⟩ | ⟨hlarge, -⟩ :=
    fit_cases (a.negative != b.negative) a.coefficient_lt a.scale_le e
  · rw [hfit]
    exact exists_make? _ hroom (Nat.le_trans (Nat.sub_le _ _) a.scale_le)
  · -- Then the power is greater than the scale, and the product is as large as what is left of it.
    have hlt := a.coefficient_lt
    obtain ⟨i, rfl⟩ : ∃ i, e = i + a.scale := Nat.exists_eq_add_of_le' (by
      by_contra hle
      rw [Nat.sub_eq_zero_of_le (by omega), Nat.pow_zero, Nat.mul_one] at hlarge
      omega)
    rw [Nat.add_sub_cancel] at hlarge
    have hlarge : (2 : ℚ) ^ 96 ≤ a.coefficient * 10 ^ i := by exact_mod_cast hlarge
    have hvalue : |a.toRat| * 10 ^ (i + a.scale) = a.coefficient * 10 ^ i := by
      rw [abs_toRat, pow_add]
      field_simp
    rw [hvalue] at h
    exact absurd hlarge (not_le.mpr h)

theorem toRat_of_stripped (n s : Nat) : ((stripped n s).1 : ℚ) / 10 ^ (stripped n s).2 = n / 10 ^ s := by
  induction s generalizing n with
  | zero => rfl
  | succ s ih =>
    rw [stripped]
    split
    · rename_i hmod
      obtain ⟨k, rfl⟩ := Nat.dvd_of_mod_eq_zero hmod
      rw [Nat.mul_div_cancel_left k (by decide), ih, ← div_pow_eq k 1]
      norm_num [mul_comm]
    · rfl

theorem stripped_le (n s : Nat) : (stripped n s).1 ≤ n ∧ (stripped n s).2 ≤ s := by
  induction s generalizing n with
  | zero => exact ⟨le_rfl, le_rfl⟩
  | succ s ih =>
    rw [stripped]
    split
    · obtain ⟨hle, hscale⟩ := ih (n / 10)
      exact ⟨hle.trans (Nat.div_le_self n 10), Nat.le_succ_of_le hscale⟩
    · exact ⟨le_rfl, le_rfl⟩

theorem exists_normalize (d : Decimal) : ∃ c, d.normalize = some c := by
  obtain ⟨hle, hscale⟩ := stripped_le d.coefficient d.scale
  exact exists_make? _ (hle.trans_lt d.coefficient_lt) (hscale.trans d.scale_le)

theorem toRat_of_normalize (h : d.normalize = some c) : c.toRat = d.toRat := by
  rw [toRat_of_make? h, toRat_of_stripped, toRat_eq]

theorem toRat_of_shiftUp (h : d.shiftUp e = some c) : c.toRat = d.toRat * 10 ^ e := by
  unfold shiftUp at h
  split at h
  · rename_i hle
    cases h
    have hscale := div_pow_eq d.coefficient e (d.scale - e)
    rw [Nat.sub_add_cancel hle] at hscale
    rw [toRat_eq, toRat_eq, ← hscale]
    ring
  split at h
  · cases h
  obtain ⟨big, hbig, h⟩ := Option.bind_eq_some_iff.mp h
  obtain ⟨rest, hrest, h⟩ := Option.bind_eq_some_iff.mp h
  obtain ⟨once, honce, h⟩ := Option.bind_eq_some_iff.mp h
  obtain ⟨-, -, hbig⟩ := make?_eq_some hbig
  obtain ⟨-, -, hrest⟩ := make?_eq_some hrest
  have honce := toRat_of_mul honce hbig
  dsimp only at h
  split at h
  · rename_i hsmall
    rw [toRat_of_normalize h, honce, Nat.min_eq_left hsmall]
  · rename_i hlarge
    obtain ⟨twice, htwice, h⟩ := Option.bind_eq_some_iff.mp h
    have hexponent : min e 19 + (e - min e 19) = e := Nat.add_sub_cancel' (Nat.min_le_left e 19)
    rw [toRat_of_normalize h, toRat_of_mul htwice hrest, honce, mul_assoc, ← pow_add, hexponent]

theorem exists_shiftUp_iff : (∃ c, d.shiftUp e = some c) ↔ e ≤ 28 ∧ |d.toRat| * 10 ^ e < 2 ^ 96 := by
  constructor
  · rintro ⟨c, hc⟩
    have hvalue : |d.toRat| * 10 ^ e = |c.toRat| := by
      rw [toRat_of_shiftUp hc, abs_mul, abs_of_pos (by positivity : (0 : ℚ) < 10 ^ e)]
    refine ⟨?_, hvalue ▸ c.abs_toRat_lt⟩
    have hscale := d.scale_le
    unfold shiftUp at hc
    split at hc
    · omega
    · split at hc
      · cases hc
      · omega
  · rintro ⟨he, hroom⟩
    unfold shiftUp
    split
    · exact ⟨_, rfl⟩
    rw [if_neg (by omega)]
    have hten : ∀ k ≤ 28, 10 ^ k < twoTo 96 := fun k hk =>
      (Nat.pow_le_pow_right (by decide) hk).trans_lt (by decide)
    obtain ⟨big, hbig⟩ := exists_make? false (hten (min e 19) (by omega)) (Nat.zero_le 28)
    obtain ⟨rest, hrest⟩ := exists_make? false (hten (e - min e 19) (by omega)) (Nat.zero_le 28)
    obtain ⟨-, -, hbigparts⟩ := make?_eq_some hbig
    obtain ⟨-, -, hrestparts⟩ := make?_eq_some hrest
    have hpow : (10 : ℚ) ^ min e 19 ≤ 10 ^ e := pow_le_pow_right₀ (by norm_num) (Nat.min_le_left e 19)
    obtain ⟨once, honce⟩ := exists_mul hbigparts
      ((mul_le_mul_of_nonneg_left hpow (abs_nonneg d.toRat)).trans_lt hroom)
    have hvalue := toRat_of_mul honce hbigparts
    simp only [tenTo_eq, hbig, hrest, honce, Option.bind_eq_bind, Option.bind_some]
    split
    · exact once.exists_normalize
    · have htwice : |once.toRat| * 10 ^ (e - min e 19) = |d.toRat| * 10 ^ e := by
        rw [hvalue, abs_mul, abs_of_pos (by positivity : (0 : ℚ) < 10 ^ min e 19), mul_assoc, ← pow_add,
          Nat.add_sub_cancel' (Nat.min_le_left e 19)]
      obtain ⟨twice, htwice⟩ := exists_mul hrestparts (htwice ▸ hroom)
      rw [htwice]
      exact twice.exists_normalize

/-! ## Divided by a power of ten -/

theorem exists_shiftDown (d : Decimal) (he : e ≤ 28) : ∃ c, d.shiftDown e = some c := by
  unfold shiftDown
  rw [if_neg (by omega)]
  split
  · exact ⟨_, rfl⟩
  · have hsmall : (d.coefficient / tenTo (d.scale + e - 28 - 1) + 5) / 10 < twoTo 96 := by
      have hlt := d.coefficient_lt
      have hdiv := Nat.div_le_self d.coefficient (tenTo (d.scale + e - 28 - 1))
      omega
    obtain ⟨r, hr⟩ := exists_make? false hsmall (Nat.le_refl 28)
    dsimp only
    rw [hr]
    exact ⟨_, rfl⟩

theorem le_of_shiftDown (h : d.shiftDown e = some c) : e ≤ 28 := by
  unfold shiftDown at h
  split at h
  · cases h
  · omega

theorem shiftDown_exact_iff (h : d.shiftDown e = some c) :
    c.toRat = d.toRat / 10 ^ e ↔ Representable (d.toRat / 10 ^ e) := by
  refine ⟨fun hexact => ⟨c, hexact⟩, fun hrep => ?_⟩
  have hvalue : d.toRat / 10 ^ e = signOf d.negative * (d.coefficient / 10 ^ (d.scale + e)) := by
    rw [toRat_eq, mul_div_assoc, div_div, pow_add]
  have habs : |d.toRat / 10 ^ e| = d.coefficient / 10 ^ (d.scale + e) := by
    rw [abs_div, abs_toRat, abs_of_pos (by positivity), div_div, pow_add]
  rw [hvalue]
  unfold shiftDown at h
  split at h
  · cases h
  split at h
  · cases h
    rw [toRat_eq]
  rename_i hlong
  obtain ⟨r, hr, rfl⟩ := Option.map_eq_some_iff.mp h
  obtain ⟨m, hm⟩ := hrep.pow_dvd habs
  obtain ⟨k, hk⟩ := Nat.exists_eq_add_of_le' (show 29 ≤ d.scale + e by omega)
  rw [hk] at hm hr ⊢
  have hcoefficient : d.coefficient = m * 10 * 10 ^ k := by
    rw [hm, show k + 29 - 28 = k + 1 by omega]
    ring
  -- All that is cut off are zeros, so the half that is added for rounding has no effect.
  have hdrop : (d.coefficient / tenTo (k + 29 - 28 - 1) + 5) / 10 = m := by
    rw [hcoefficient, show k + 29 - 28 - 1 = k by omega, tenTo_eq, Nat.mul_div_cancel _ (by positivity)]
    omega
  rw [hdrop] at hr
  obtain ⟨-, -, -, hr, hscale⟩ := make?_eq_some hr
  have hshift := div_pow_eq m (k + 1) 28
  rw [toRat_eq]
  dsimp only
  rw [hr, hscale, ← hshift, hcoefficient]
  push_cast
  ring

/-! ## Either way -/

def shift (d : Decimal) (e : Int) : Option Decimal := if e < 0 then d.shiftDown e.natAbs else d.shiftUp e.natAbs

theorem shift_natCast (d : Decimal) (e : Nat) : d.shift e = d.shiftUp e := by
  simp [shift]

@[simp] theorem shift_zero (d : Decimal) : d.shift 0 = some d := by
  simp [shift, shiftUp]

theorem shift_neg (d : Decimal) (e : Nat) : d.shift (-e) = d.shiftDown e := by
  by_cases he : e = 0
  · subst he
    simp [shift, shiftUp, shiftDown, d.scale_le]
  · rw [shift, if_pos (by omega), Int.natAbs_neg, Int.natAbs_natCast]

section
variable {i : Int}

theorem toRat_of_shift (h : d.shift i = some c) (hi : 0 ≤ i) : c.toRat = d.toRat * 10 ^ i := by
  obtain ⟨e, rfl⟩ := Int.eq_ofNat_of_zero_le hi
  rw [shift_natCast] at h
  rw [zpow_natCast]
  exact toRat_of_shiftUp h

theorem exists_shift_iff : (∃ c, d.shift i = some c) ↔ i.natAbs ≤ 28 ∧ |d.toRat| * 10 ^ i < 2 ^ 96 := by
  by_cases hi : 0 ≤ i
  · obtain ⟨e, rfl⟩ := Int.eq_ofNat_of_zero_le hi
    rw [shift_natCast, zpow_natCast, Int.natAbs_natCast]
    exact exists_shiftUp_iff
  · obtain ⟨e, rfl⟩ := Int.exists_eq_neg_ofNat (le_of_not_ge hi)
    have hsmall : |d.toRat| * 10 ^ (-(e : Int)) < 2 ^ 96 :=
      (mul_le_of_le_one_right (abs_nonneg _) (zpow_le_one_of_nonpos₀ (by norm_num) (by omega))).trans_lt d.abs_toRat_lt
    rw [shift_neg, Int.natAbs_neg, Int.natAbs_natCast]
    exact ⟨fun ⟨c, hc⟩ => ⟨le_of_shiftDown hc, hsmall⟩, fun h => d.exists_shiftDown h.1⟩

theorem shift_exact_iff (h : d.shift i = some c) : c.toRat = d.toRat * 10 ^ i ↔ Representable (d.toRat * 10 ^ i) := by
  by_cases hi : 0 ≤ i
  · have hexact := toRat_of_shift h hi
    exact iff_of_true hexact ⟨c, hexact⟩
  · obtain ⟨e, rfl⟩ := Int.exists_eq_neg_ofNat (le_of_not_ge hi)
    rw [shift_neg] at h
    rw [zpow_neg, zpow_natCast, ← div_eq_mul_inv]
    exact shiftDown_exact_iff h

end

end Decimal

end RecordLogic
