import Mathlib.Data.Int.ModEq
import RecordLogic.Predicate.Operation

/-!
# Wrapping

A number that does not fit its kind loses multiples of two to the width of the kind, and the 128 bits before it lose
multiples of a higher power. So what a kind is left with agrees with the exact number modulo two to its width, and no
other number of the kind does.
-/

namespace RecordLogic

open Number

namespace NumericKind

variable {k : NumericKind} {m n : Int}

def width (k : NumericKind) : Nat := (k.integral?.map (·.1)).getD 0

theorem twoTo_eq_twice {w : Nat} {signed : Bool} (hw : k.integral? = some (w, signed)) :
    twoTo w = 2 * twoTo (w - 1) := by
  cases k <;> cases hw <;> decide

theorem width_le (k : NumericKind) : k.width ≤ 128 := by
  cases k <;> decide

theorem wrap_modEq (hk : k.isIntegral) (n : Int) : k.wrap n ≡ n [ZMOD twoTo k.width] := by
  obtain ⟨⟨w, signed⟩, hw⟩ := Option.isSome_iff_exists.mp hk
  unfold wrap width
  rw [hw]
  cases signed with
  | false => exact Int.mod_modEq n _
  | true => exact Int.bmod_emod

theorem carry_modEq (k : NumericKind) (n : Int) : Value.carry n ≡ n [ZMOD twoTo k.width] := by
  have hdvd : (twoTo k.width : Int) ∣ (twoTo 128 : Nat) := Int.natCast_dvd_natCast.mpr (Nat.pow_dvd_pow 2 k.width_le)
  have hcarry : Value.carry n ≡ n [ZMOD twoTo 128] := Int.bmod_emod
  exact hcarry.of_dvd hdvd

theorem wrap_congr (hk : k.isIntegral) (h : m ≡ n [ZMOD twoTo k.width]) : k.wrap m = k.wrap n := by
  obtain ⟨⟨w, signed⟩, hw⟩ := Option.isSome_iff_exists.mp hk
  unfold width at h
  rw [hw] at h
  have hmod : m % twoTo w = n % twoTo w := h
  unfold wrap
  rw [hw]
  cases signed with
  | false => exact hmod
  | true =>
    show m.bmod (twoTo w) = n.bmod (twoTo w)
    rw [Int.bmod_def, Int.bmod_def, hmod]

theorem fits_wrap (hk : k.isIntegral) (n : Int) : k.fits (k.wrap n) := by
  obtain ⟨⟨w, signed⟩, hw⟩ := Option.isSome_iff_exists.mp hk
  have hpos : 0 < twoTo w := Nat.two_pow_pos w
  unfold fits bounds wrap
  rw [hw]
  cases signed with
  | false =>
    have hlo : 0 ≤ n % twoTo w := Int.emod_nonneg n (by omega)
    have hhi : n % twoTo w < twoTo w := Int.emod_lt_of_pos n (by omega)
    dsimp only [Option.map_some]
    rw [Bool.and_eq_true, decide_eq_true_eq, decide_eq_true_eq]
    omega
  | true =>
    -- For omega the two powers are atoms, of which one is twice the other.
    have hhalf := twoTo_eq_twice hw
    have hlo : -((twoTo w : Int) / 2) ≤ n.bmod (twoTo w) := Int.le_bmod hpos
    have hhi : n.bmod (twoTo w) < ((twoTo w : Int) + 1) / 2 := Int.bmod_lt hpos
    dsimp only [Option.map_some]
    rw [Bool.and_eq_true, decide_eq_true_eq, decide_eq_true_eq]
    omega

theorem isIntegral_of_fits (h : k.fits n) : k.isIntegral := by
  unfold fits bounds at h
  unfold isIntegral
  cases hw : k.integral? with
  | none =>
    rw [hw] at h
    cases h
  | some p => rfl

theorem wrap_of_fits (h : k.fits n) : k.wrap n = n := by
  obtain ⟨⟨w, signed⟩, hw⟩ := Option.isSome_iff_exists.mp (isIntegral_of_fits h)
  unfold fits bounds at h
  unfold wrap
  rw [hw] at h ⊢
  cases signed with
  | false =>
    have hrange : 0 ≤ n ∧ n ≤ (twoTo w : Int) - 1 := by simpa using h
    exact Int.emod_eq_of_lt hrange.1 (by omega)
  | true =>
    have hrange : -(twoTo (w - 1) : Int) ≤ n ∧ n ≤ (twoTo (w - 1) : Int) - 1 := by simpa using h
    have hhalf := twoTo_eq_twice hw
    apply Int.bmod_eq_of_le_mul_two
    · omega
    · omega

theorem eq_of_fits (hm : k.fits m) (hn : k.fits n) (h : m ≡ n [ZMOD twoTo k.width]) : m = n := by
  calc m = k.wrap m := (wrap_of_fits hm).symm
    _ = k.wrap n := wrap_congr (isIntegral_of_fits hm) h
    _ = n := wrap_of_fits hn

end NumericKind

/-- The negative in a kind is the number of the kind that agrees with the exact one. -/
theorem Value.negate_int {k : NumericKind} {m n : Int} (hm : k.fits m) (h : -n ≡ m [ZMOD twoTo k.width]) :
    (Value.int n).negate (some k) = .int m := by
  have hcarry : carry (-n) ≡ m [ZMOD twoTo k.width] := (NumericKind.carry_modEq k (-n)).trans h
  have hwrap : k.wrap (carry (-n)) = m := by
    rw [NumericKind.wrap_congr (NumericKind.isIntegral_of_fits hm) hcarry, NumericKind.wrap_of_fits hm]
  rw [negate, Option.map_some, hwrap]
  rfl

end RecordLogic
