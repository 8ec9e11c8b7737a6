import Mathlib.Tactic.Linarith
import RecordLogic.Proofs.DecimalReading

/-!
# Numerals read without a loss

Figures that fit are taken over, and others are rounded to the last place that there is room for. A power then shifts
the decimal, and a negative one may move digits behind the last place. So nothing is lost just where the figures denote
a decimal both without their power and with it.
-/

namespace RecordLogic

open Number Text

namespace Figures

variable {f : Figures}

theorem coefficient_eq (f : Figures) :
    f.coefficient = ofDigits f.whole * 10 ^ f.places.length + ofDigitsFrom 0 f.places := by
  have happend : f.coefficient = ofDigitsFrom (ofDigits f.whole) f.places := ofDigitsFrom_append 0 f.whole f.places
  rw [happend, ofDigitsFrom_eq]

theorem abs_significand (f : Figures) : |f.significand| = f.coefficient / 10 ^ f.places.length := by
  unfold significand
  rw [abs_of_nonneg (by positivity)]

theorem whole_le_significand (f : Figures) : (ofDigits f.whole : ℚ) ≤ f.significand := by
  unfold significand
  rw [le_div_iff₀ (by positivity), coefficient_eq]
  push_cast
  exact le_add_of_nonneg_right (by positivity)

/-! ## Where the room ends -/

namespace StopsAt

variable {kept lost : List Char} {c : Char}

theorem coefficient_eq_append (h : f.StopsAt kept c lost) :
    f.coefficient = ofDigitsFrom (ofDigits (f.whole ++ kept)) (c :: lost) := by
  unfold coefficient
  rw [h.places, ← List.append_assoc]
  exact ofDigitsFrom_append 0 _ _

theorem coefficient_eq (h : f.StopsAt kept c lost) : f.coefficient =
    (10 * ofDigits (f.whole ++ kept) + (c.toNat - 48)) * 10 ^ lost.length + ofDigitsFrom 0 lost := by
  rw [h.coefficient_eq_append, ofDigitsFrom_cons, ofDigitsFrom_eq]

theorem length_eq (h : f.StopsAt kept c lost) : f.places.length = kept.length + 1 + lost.length := by
  rw [h.places, List.length_append, List.length_cons]
  omega

theorem lost_lt (h : f.StopsAt kept c lost) : ofDigitsFrom 0 lost < 10 ^ lost.length :=
  ofDigitsFrom_lt fun d hd => h.digits d (.tail _ hd)

theorem isDigit (h : f.StopsAt kept c lost) : Text.isDigit c := h.digits c (.head _)

theorem digit_lt (h : f.StopsAt kept c lost) : c.toNat - 48 < 10 := Number.digit_lt h.isDigit

theorem scaled_eq (h : f.StopsAt kept c lost) :
    f.significand * 10 ^ (kept.length + 1) = f.coefficient / 10 ^ lost.length := by
  unfold significand
  rw [h.length_eq, pow_add _ (kept.length + 1)]
  field_simp

theorem le_scaled (h : f.StopsAt kept c lost) :
    10 * (ofDigits (f.whole ++ kept) : ℚ) + (c.toNat - 48 : Nat) ≤ f.significand * 10 ^ (kept.length + 1) := by
  rw [h.scaled_eq, le_div_iff₀ (by positivity), h.coefficient_eq]
  push_cast
  exact le_add_of_nonneg_right (by positivity)

theorem scaled_lt (h : f.StopsAt kept c lost) :
    f.significand * 10 ^ (kept.length + 1) < 10 * (ofDigits (f.whole ++ kept) : ℚ) + (c.toNat - 48 : Nat) + 1 := by
  rw [h.scaled_eq, div_lt_iff₀ (by positivity), h.coefficient_eq]
  have hlost : (ofDigitsFrom 0 lost : ℚ) < 10 ^ lost.length := by exact_mod_cast h.lost_lt
  push_cast
  linarith

/-- Another place would have made the coefficient too large, so a decimal that equals the number has no more places. -/
theorem places_le {C k : Nat} (h : f.StopsAt kept c lost) (hC : C < twoTo 96) (hk : k ≤ 28)
    (heq : f.coefficient * 10 ^ k = C * 10 ^ f.places.length) : k ≤ kept.length := by
  by_contra hmore
  have hfull := h.full.resolve_left (by omega)
  have hlarge : twoTo 96 * 10 ^ lost.length ≤ f.coefficient := by
    rw [h.coefficient_eq]
    exact (Nat.mul_le_mul_right _ hfull).trans (Nat.le_add_right _ _)
  have hcontra : f.coefficient * 10 ^ k < f.coefficient * 10 ^ k := by
    calc f.coefficient * 10 ^ k
      _ = C * 10 ^ (kept.length + 1 + lost.length) := by rw [heq, h.length_eq]
      _ < twoTo 96 * 10 ^ (kept.length + 1 + lost.length) := Nat.mul_lt_mul_of_pos_right hC (by positivity)
      _ ≤ twoTo 96 * 10 ^ (lost.length + k) := Nat.mul_le_mul_left _ (Nat.pow_le_pow_right (by decide) (by omega))
      _ = twoTo 96 * 10 ^ lost.length * 10 ^ k := by rw [pow_add, mul_assoc]
      _ ≤ f.coefficient * 10 ^ k := Nat.mul_le_mul_right _ hlarge
  exact Nat.lt_irrefl _ hcontra

/-- What a decimal equals has only zeros where the room ends. -/
theorem coefficient_of_representable (h : f.StopsAt kept c lost) (hrep : Representable f.significand) :
    f.coefficient = ofDigits (f.whole ++ kept) * 10 ^ (lost.length + 1) := by
  obtain ⟨C, k, hC, hk, heq⟩ := hrep.exists_coefficient f.abs_significand
  obtain ⟨i, hi⟩ := Nat.exists_eq_add_of_le' (h.places_le hC hk heq)
  -- The number is a multiple of the last place taken over, and what is dropped is less than that.
  have hmultiple : f.coefficient = C * 10 ^ i * 10 ^ (lost.length + 1) := by
    apply Nat.eq_of_mul_eq_mul_right (show 0 < 10 ^ k by positivity)
    rw [heq, h.length_eq, hi]
    ring
  have hsplit : f.coefficient = ofDigits (f.whole ++ kept) * 10 ^ (lost.length + 1) + ofDigitsFrom 0 (c :: lost) := by
    rw [h.coefficient_eq_append, ofDigitsFrom_eq, List.length_cons]
  have hdvd : 10 ^ (lost.length + 1) ∣ ofDigitsFrom 0 (c :: lost) := by
    apply (Nat.dvd_add_right (Nat.dvd_mul_left _ (ofDigits (f.whole ++ kept)))).mp
    rw [← hsplit, hmultiple]
    exact Nat.dvd_mul_left _ _
  rw [hsplit, Nat.eq_zero_of_dvd_of_lt hdvd (ofDigitsFrom_lt h.digits), Nat.add_zero]

end StopsAt

/-! ## The rounded decimal -/

section
variable {c : Char} {m j : Nat} {d : Decimal}

theorem roundAt_digit (hc : isDigit c) (m j : Nat) : Decimal.roundAt false m j c =
    if 5 ≤ c.toNat - 48 then
      if m + 1 < twoTo 96 then Decimal.make? false (m + 1) j
      else if j = 0 then none
      else Decimal.make? false ((m + 5) / 10) (j - 1)
    else Decimal.make? false m j := by
  simp [Decimal.roundAt, hc, five_le_digit hc]

/-- The digit decides which way it is rounded. -/
theorem toRat_of_roundAt (hc : isDigit c) (hm : m < twoTo 96) (h : Decimal.roundAt false m j c = some d) :
    ∃ n : Nat, d.toRat = n / 10 ^ j ∧ (c.toNat - 48 < 5 ∧ n = m ∨ 5 ≤ c.toNat - 48 ∧ m + 1 < twoTo 96 ∧ n = m + 1 ∨
      5 ≤ c.toNat - 48 ∧ m + 1 = twoTo 96 ∧ n = m + 5) := by
  rw [roundAt_digit hc] at h
  split at h
  · rename_i hup
    split at h
    · rename_i hroom
      exact ⟨m + 1, Decimal.toRat_of_make?_false h, .inr (.inl ⟨hup, hroom, rfl⟩)⟩
    split at h
    · cases h
    · rename_i hlarge hplace
      -- Only the greatest coefficient has no room for one more, and with one more it ends in a 6.
      have hten : (m + 5) / 10 * 10 = m + 5 := by
        have h96 : twoTo 96 = 79228162514264337593543950336 := rfl
        omega
      obtain ⟨i, rfl⟩ := Nat.exists_eq_succ_of_ne_zero hplace
      have hcast : (((m + 5) / 10 : Nat) : ℚ) * 10 = (m + 5 : Nat) := by exact_mod_cast hten
      have hshift := div_pow_eq (((m + 5) / 10 : Nat) : ℚ) 1 i
      rw [pow_one, hcast] at hshift
      refine ⟨m + 5, ?_, .inr (.inr ⟨hup, by omega, rfl⟩)⟩
      rw [Decimal.toRat_of_make?_false h, Nat.succ_eq_add_one, Nat.add_sub_cancel, hshift]
  · rename_i hdown
    exact ⟨m, Decimal.toRat_of_make?_false h, .inl ⟨by omega, rfl⟩⟩

theorem exists_roundAt (hc : isDigit c) (hm : m < twoTo 96) (hj : j ≤ 28)
    (h : c.toNat - 48 < 5 ∨ m + 1 < twoTo 96 ∨ j ≠ 0) : ∃ d, Decimal.roundAt false m j c = some d := by
  rw [roundAt_digit hc]
  by_cases hup : 5 ≤ c.toNat - 48
  · rw [if_pos hup]
    by_cases hroom : m + 1 < twoTo 96
    · rw [if_pos hroom]
      exact Decimal.exists_make? false hroom hj
    · rw [if_neg hroom, if_neg ((h.resolve_left (by omega)).resolve_left hroom)]
      exact Decimal.exists_make? false (by omega) (by omega)
  · rw [if_neg hup]
    exact Decimal.exists_make? false hm hj

theorem roundAt_eq_none (hc : isDigit c) (hup : 5 ≤ c.toNat - 48) (hm : ¬ m + 1 < twoTo 96) :
    Decimal.roundAt false m 0 c = none := by
  rw [roundAt_digit hc, if_pos hup, if_neg hm, if_pos rfl]

end

namespace StopsAt

variable {kept lost : List Char} {c : Char} {d : Decimal}

theorem exact_iff (h : f.StopsAt kept c lost)
    (hd : Decimal.roundAt false (ofDigits (f.whole ++ kept)) kept.length c = some d) :
    d.toRat = f.significand ↔ Representable f.significand := by
  refine ⟨fun hexact => ⟨d, hexact⟩, fun hrep => ?_⟩
  have hscaled : f.significand * 10 ^ (kept.length + 1) = 10 * (ofDigits (f.whole ++ kept) : ℚ) := by
    rw [h.scaled_eq, h.coefficient_of_representable hrep, pow_succ']
    push_cast
    field_simp
  -- So the digit is a zero, and nothing is rounded up.
  have hzero : c.toNat - 48 = 0 := by
    have hle := h.le_scaled
    rw [hscaled] at hle
    have hcast : ((c.toNat - 48 : Nat) : ℚ) ≤ 0 := by linarith
    exact Nat.le_zero.mp (by exact_mod_cast hcast)
  obtain ⟨n, hn, ⟨-, rfl⟩ | ⟨hup, -⟩ | ⟨hup, -⟩⟩ := toRat_of_roundAt h.isDigit h.room hd
  · rw [hn, div_eq_iff (by positivity)]
    rw [pow_succ] at hscaled
    linarith
  · omega
  · omega

/-- There is no result just where the number is rounded up to more than 96 bits before the point. -/
theorem exists_iff (h : f.StopsAt kept c lost) :
    (∃ d, Decimal.roundAt false (ofDigits (f.whole ++ kept)) kept.length c = some d) ↔
      f.significand + 1 / 2 < 2 ^ 96 := by
  have hlo := h.le_scaled
  have hhi := h.scaled_lt
  have hdigit := h.isDigit
  have hten := h.digit_lt
  have hroom := h.room
  generalize ofDigits (f.whole ++ kept) = m at hlo hhi hroom ⊢
  have h96 : twoTo 96 = 79228162514264337593543950336 := rfl
  have hunit : (m : ℚ) + 1 ≤ 2 ^ 96 := by exact_mod_cast hroom
  have hten' : ((c.toNat - 48 : Nat) : ℚ) + 1 ≤ 10 := by exact_mod_cast hten
  constructor
  · rintro ⟨d, hd⟩
    by_contra hlarge
    have hkept : kept.length = 0 := by
      by_contra hne
      have hpow : (10 : ℚ) ^ 2 ≤ 10 ^ (kept.length + 1) := pow_le_pow_right₀ (by norm_num) (by omega)
      have hmore : f.significand * 10 ^ 2 ≤ f.significand * 10 ^ (kept.length + 1) :=
        mul_le_mul_of_nonneg_left hpow (by linarith)
      linarith
    rw [hkept, Nat.zero_add, pow_one] at hhi
    have hcast : (10 * 2 ^ 96 : ℚ) < 10 * m + (c.toNat - 48 : Nat) + 6 := by linarith
    have hnat : 10 * 2 ^ 96 < 10 * m + (c.toNat - 48) + 6 := by exact_mod_cast hcast
    rw [hkept, roundAt_eq_none hdigit (by omega) (by omega)] at hd
    cases hd
  · intro hsmall
    apply exists_roundAt hdigit hroom h.scale
    by_contra hnot
    simp only [not_or, not_lt, ne_eq, not_not] at hnot
    obtain ⟨hup, hfull, hkept⟩ := hnot
    rw [hkept, Nat.zero_add, pow_one] at hlo
    have hup : (5 : ℚ) ≤ (c.toNat - 48 : Nat) := by exact_mod_cast hup
    have hfull : (2 : ℚ) ^ 96 ≤ m + 1 := by exact_mod_cast hfull
    linarith

theorem significand_lt (h : f.StopsAt kept c lost) :
    f.significand * 10 ^ kept.length < (ofDigits (f.whole ++ kept) : ℚ) + 1 := by
  have hhi := h.scaled_lt
  have hdigit : ((c.toNat - 48 : Nat) : ℚ) + 1 ≤ 10 := by exact_mod_cast h.digit_lt
  rw [pow_succ] at hhi
  linarith

theorem toRat_scaled (h : f.StopsAt kept c lost)
    (hd : Decimal.roundAt false (ofDigits (f.whole ++ kept)) kept.length c = some d) :
    ∃ n : Nat, d.toRat * 10 ^ kept.length = n ∧ (c.toNat - 48 < 5 ∧ n = ofDigits (f.whole ++ kept) ∨
      5 ≤ c.toNat - 48 ∧ ofDigits (f.whole ++ kept) + 1 < twoTo 96 ∧ n = ofDigits (f.whole ++ kept) + 1 ∨
      5 ≤ c.toNat - 48 ∧ ofDigits (f.whole ++ kept) + 1 = twoTo 96 ∧ n = ofDigits (f.whole ++ kept) + 5) := by
  obtain ⟨n, hn, hround⟩ := toRat_of_roundAt h.isDigit h.room hd
  exact ⟨n, by rw [hn, div_mul_cancel₀ _ (by positivity)], hround⟩

theorem toRat_nonneg (h : f.StopsAt kept c lost)
    (hd : Decimal.roundAt false (ofDigits (f.whole ++ kept)) kept.length c = some d) : 0 ≤ d.toRat := by
  obtain ⟨n, hn, -⟩ := toRat_of_roundAt h.isDigit h.room hd
  rw [hn]
  positivity

/-! How far the rounded decimal can be shifted: there is room before its last place, none behind it, and at that place
as much as for the number before rounding, the half counted in. -/

theorem shift_lt_of_lt {e : Nat} (h : f.StopsAt kept c lost) (hpos : 0 ≤ f.significand)
    (hd : Decimal.roundAt false (ofDigits (f.whole ++ kept)) kept.length c = some d) (he : e < kept.length) :
    d.toRat * 10 ^ e < 2 ^ 96 ∧ f.significand * 10 ^ e + 1 / 2 < 2 ^ 96 := by
  obtain ⟨n, hn, hround⟩ := h.toRat_scaled hd
  have hroom : (ofDigits (f.whole ++ kept) : ℚ) + 1 ≤ 2 ^ 96 := by exact_mod_cast h.room
  have hvalue := h.significand_lt
  have hrounded : (n : ℚ) ≤ ofDigits (f.whole ++ kept) + 5 := by
    have hle : n ≤ ofDigits (f.whole ++ kept) + 5 := by omega
    exact_mod_cast hle
  have hpow : (10 : ℚ) ^ e * 10 ≤ 10 ^ kept.length := by
    rw [← pow_succ]
    exact pow_le_pow_right₀ (by norm_num) he
  have hdecimal := mul_le_mul_of_nonneg_left hpow (h.toRat_nonneg hd)
  have hnumber := mul_le_mul_of_nonneg_left hpow hpos
  constructor <;> linarith

theorem shift_lt_iff_of_last (h : f.StopsAt kept c lost)
    (hd : Decimal.roundAt false (ofDigits (f.whole ++ kept)) kept.length c = some d) :
    d.toRat * 10 ^ kept.length < 2 ^ 96 ↔ f.significand * 10 ^ kept.length + 1 / 2 < 2 ^ 96 := by
  obtain ⟨n, hn, hround⟩ := h.toRat_scaled hd
  have hlo := h.le_scaled
  have hhi := h.scaled_lt
  have hroom : (ofDigits (f.whole ++ kept) : ℚ) + 1 ≤ 2 ^ 96 := by exact_mod_cast h.room
  rw [pow_succ] at hlo hhi
  rw [hn]
  obtain ⟨hdown, rfl⟩ | ⟨-, hmore, rfl⟩ | ⟨hup, hfull, rfl⟩ := hround
  · have hdown : ((c.toNat - 48 : Nat) : ℚ) + 1 ≤ 5 := by exact_mod_cast hdown
    exact iff_of_true (by linarith) (by linarith)
  · have hmore : (ofDigits (f.whole ++ kept) : ℚ) + 2 ≤ 2 ^ 96 := by exact_mod_cast hmore
    have hvalue := h.significand_lt
    push_cast
    exact iff_of_true (by linarith) (by linarith)
  · have hup : (5 : ℚ) ≤ (c.toNat - 48 : Nat) := by exact_mod_cast hup
    have hfull : (ofDigits (f.whole ++ kept) : ℚ) + 1 = 2 ^ 96 := by exact_mod_cast hfull
    push_cast
    exact iff_of_false (by linarith) (by linarith)

theorem le_shift_of_gt {e : Nat} (h : f.StopsAt kept c lost) (hpos : 0 ≤ f.significand)
    (hd : Decimal.roundAt false (ofDigits (f.whole ++ kept)) kept.length c = some d) (hgt : kept.length < e)
    (he : e ≤ 28) : 2 ^ 96 ≤ d.toRat * 10 ^ e ∧ 2 ^ 96 ≤ f.significand * 10 ^ e := by
  obtain ⟨n, hn, hround⟩ := h.toRat_scaled hd
  have hlo := h.le_scaled
  have hdigit := h.digit_lt
  have hfull := h.full.resolve_left (by omega)
  have h96 : twoTo 96 = 79228162514264337593543950336 := rfl
  have hlarge : (2 : ℚ) ^ 96 ≤ n * 10 := by
    have hten : 2 ^ 96 ≤ n * 10 := by omega
    exact_mod_cast hten
  have hfull : (2 : ℚ) ^ 96 ≤ 10 * ofDigits (f.whole ++ kept) + (c.toNat - 48 : Nat) := by exact_mod_cast hfull
  have hpow : (10 : ℚ) ^ kept.length * 10 ≤ 10 ^ e := by
    rw [← pow_succ]
    exact pow_le_pow_right₀ (by norm_num) hgt
  have hdecimal := mul_le_mul_of_nonneg_left hpow (h.toRat_nonneg hd)
  have hnumber := mul_le_mul_of_nonneg_left hpow hpos
  rw [← mul_assoc, hn] at hdecimal
  rw [pow_succ] at hlo
  constructor <;> linarith

theorem shift_lt_iff {e : Nat} (h : f.StopsAt kept c lost) (hpos : 0 ≤ f.significand)
    (hd : Decimal.roundAt false (ofDigits (f.whole ++ kept)) kept.length c = some d) (he : e ≤ 28) :
    d.toRat * 10 ^ e < 2 ^ 96 ↔ f.significand * 10 ^ e + 1 / 2 < 2 ^ 96 := by
  rcases Nat.lt_trichotomy e kept.length with hlt | rfl | hgt
  · obtain ⟨hdecimal, hnumber⟩ := h.shift_lt_of_lt hpos hd hlt
    exact iff_of_true hdecimal hnumber
  · exact h.shift_lt_iff_of_last hd
  · obtain ⟨hdecimal, hnumber⟩ := h.le_shift_of_gt hpos hd hgt he
    exact iff_of_false (not_lt.mpr hdecimal) (by linarith)

end StopsAt

/-! ## What is read exactly -/

/-- There is room for the digits before the point, with the power and without it, and the power is not too large. -/
structure InRange (f : Figures) : Prop where
  power : f.power.natAbs ≤ 28
  significand : f.significand + 1 / 2 < 2 ^ 96
  value : f.toRat + 1 / 2 < 2 ^ 96

/-- Nothing is lost in reading: the number is a decimal without its power and with it. -/
def Lossless (f : Figures) : Prop := f.InRange → Representable f.significand ∧ Representable f.toRat

theorem significand_nonneg (f : Figures) : 0 ≤ f.significand := by
  unfold significand
  positivity

theorem toRat_le_significand (f : Figures) (hneg : f.power ≤ 0) : f.toRat ≤ f.significand :=
  mul_le_of_le_one_right f.significand_nonneg (zpow_le_one_of_nonpos₀ (by norm_num) hneg)

/-- A rounded decimal can be shifted by the power just where there is room for the number. -/
theorem StopsAt.room_iff {kept lost : List Char} {c : Char} {d : Decimal} (h : f.StopsAt kept c lost)
    (hd : Decimal.roundAt false (ofDigits (f.whole ++ kept)) kept.length c = some d) (hpower : f.power.natAbs ≤ 28) :
    |d.toRat| * 10 ^ f.power < 2 ^ 96 ↔ f.toRat + 1 / 2 < 2 ^ 96 := by
  by_cases hneg : f.power ≤ 0
  · have hshrink : (10 : ℚ) ^ f.power ≤ 1 := zpow_le_one_of_nonpos₀ (by norm_num) hneg
    have hle := f.toRat_le_significand hneg
    have hroom := h.exists_iff.mp ⟨d, hd⟩
    exact iff_of_true ((mul_le_of_le_one_right (abs_nonneg _) hshrink).trans_lt d.abs_toRat_lt) (by linarith)
  · obtain ⟨e, he⟩ := Int.eq_ofNat_of_zero_le (by omega : 0 ≤ f.power)
    unfold toRat
    rw [abs_of_nonneg (h.toRat_nonneg hd), he, zpow_natCast]
    exact h.shift_lt_iff f.significand_nonneg hd (by omega)

namespace ReadAs

variable {o : Option Decimal}

theorem exists_iff (h : f.ReadAs o) : (∃ d, o.bind (·.shift f.power) = some d) ↔ f.InRange := by
  cases h with
  | overflow hlarge =>
    refine iff_of_false (fun ⟨d, hd⟩ => nomatch hd) fun hrange => ?_
    have hwhole := f.whole_le_significand
    have hsignificand := hrange.significand
    have hlarge : (2 : ℚ) ^ 96 ≤ ofDigits f.whole := by exact_mod_cast hlarge
    linarith
  | @exact base hfits hbase =>
    have hvalue : |base.toRat| * 10 ^ f.power = f.toRat := by
      rw [hbase, abs_of_nonneg f.significand_nonneg]
      rfl
    have hsignificand : f.significand ≤ 2 ^ 96 - 1 := hbase ▸ (le_abs_self _).trans base.abs_toRat_le
    simp only [Option.bind_some, Decimal.exists_shift_iff, hvalue]
    refine ⟨fun ⟨hpower, hroom⟩ => ⟨hpower, by linarith, ?_⟩, fun hrange => ⟨hrange.power, ?_⟩⟩
    · by_cases hneg : f.power ≤ 0
      · have hle := f.toRat_le_significand hneg
        linarith
      · -- The number is a decimal again, and no decimal is so close below the bound.
        obtain ⟨d, hd⟩ := Decimal.exists_shift_iff.mpr ⟨hpower, hvalue.symm ▸ hroom⟩
        have hexact : d.toRat = f.toRat := by
          rw [Decimal.toRat_of_shift hd (by omega), hbase]
          rfl
        have hle := (le_abs_self _).trans d.abs_toRat_le
        linarith
    · have hroom := hrange.value
      linarith
  | @rounded kept lost c hstop =>
    constructor
    · rintro ⟨d, hd⟩
      obtain ⟨base, hbase, hd⟩ := Option.bind_eq_some_iff.mp hd
      obtain ⟨hpower, hroom⟩ := Decimal.exists_shift_iff.mp ⟨d, hd⟩
      exact ⟨hpower, hstop.exists_iff.mp ⟨base, hbase⟩, (hstop.room_iff hbase hpower).mp hroom⟩
    · intro hrange
      obtain ⟨base, hbase⟩ := hstop.exists_iff.mpr hrange.significand
      simp only [hbase, Option.bind_some, Decimal.exists_shift_iff]
      exact ⟨hrange.power, (hstop.room_iff hbase hrange.power).mpr hrange.value⟩

/-- What is taken over or rounded is the number without its power just where a decimal equals that. -/
theorem base_exact_iff {base : Decimal} (h : f.ReadAs (some base)) :
    base.toRat = f.significand ↔ Representable f.significand := by
  generalize ho : some base = o at h
  cases h with
  | overflow => cases ho
  | exact hfits hbase =>
    cases ho
    exact iff_of_true hbase ⟨base, hbase⟩
  | rounded hstop => exact hstop.exact_iff ho.symm

theorem exact_iff {d : Decimal} (h : f.ReadAs o) (hd : o.bind (·.shift f.power) = some d) :
    d.toRat = f.toRat ↔ Representable f.significand ∧ Representable f.toRat := by
  have hrange := h.exists_iff.mp ⟨d, hd⟩
  obtain ⟨base, rfl, hd⟩ := Option.bind_eq_some_iff.mp hd
  constructor
  · intro hvalue
    refine ⟨?_, d, hvalue⟩
    by_cases hneg : f.power ≤ 0
    · -- Shifted back, the decimal is the number without its power.
      have hback : d.toRat * 10 ^ (-f.power) = f.significand := by
        rw [hvalue, toRat, mul_assoc, ← zpow_add₀ (by norm_num), add_neg_cancel, zpow_zero, mul_one]
      have habs : |d.toRat| * 10 ^ (-f.power) = f.significand := by
        rw [← abs_of_nonneg f.significand_nonneg, ← hback, abs_mul, abs_of_pos (zpow_pos (by norm_num : (0 : ℚ) < 10) _)]
      have hroom := hrange.significand
      have hpower := hrange.power
      obtain ⟨c, hc⟩ := (Decimal.exists_shift_iff (i := -f.power)).mpr ⟨by omega, by linarith⟩
      exact ⟨c, (Decimal.toRat_of_shift hc (by omega)).trans hback⟩
    · apply h.base_exact_iff.mp
      rw [Decimal.toRat_of_shift hd (by omega)] at hvalue
      exact mul_right_cancel₀ (zpow_ne_zero _ (by norm_num)) hvalue
  · rintro ⟨hsignificand, hrep⟩
    have hbase := h.base_exact_iff.mpr hsignificand
    unfold toRat at hrep ⊢
    rw [← hbase] at hrep ⊢
    exact (Decimal.shift_exact_iff hd).mpr hrep

end ReadAs

end Figures

namespace Decimal

variable {text : String}

/-- A numeral has a decimal just where it is in range. -/
theorem exists_read?_iff (h : IsNumeral text.toList) :
    (∃ d, read? text = some d) ↔ (Figures.ofNumeral text.toList).InRange := by
  obtain ⟨o, hread, heq⟩ := Figures.readAs h
  rw [heq]
  exact hread.exists_iff

/-- The decimal of a numeral, if there is one, is the number that it denotes just where nothing is lost. -/
theorem read?_exact_iff (h : IsNumeral text.toList) :
    (∀ d, read? text = some d → d.toRat = (Figures.ofNumeral text.toList).toRat) ↔
      (Figures.ofNumeral text.toList).Lossless := by
  have hexists := exists_read?_iff h
  obtain ⟨o, hread, heq⟩ := Figures.readAs h
  rw [heq] at hexists ⊢
  constructor
  · intro hexact hrange
    obtain ⟨d, hd⟩ := hexists.mpr hrange
    exact (hread.exact_iff hd).mp (hexact d hd)
  · intro hlossless d hd
    exact (hread.exact_iff hd).mpr (hlossless (hexists.mp ⟨d, hd⟩))

end Decimal

end RecordLogic
