import Mathlib.Algebra.Order.Field.Basic
import Mathlib.Data.Rat.Cast.Order
import Mathlib.Tactic.FieldSimp
import Mathlib.Tactic.Positivity
import RecordLogic.Proofs.TypeSound

/-!
# Numbers as rationals

Integers and decimals denote rational numbers, whatever their kinds and scales. Comparing two of one representation
is comparing what they denote, and null denotes no number.
-/

namespace RecordLogic

open Number

namespace Decimal

def toRat (d : Decimal) : ℚ := d.signedCoefficient / 10 ^ d.scale

theorem cast_scaled (d : Decimal) (k : Nat) :
    ((d.signedCoefficient * tenTo k : Int) : ℚ) = d.toRat * (10 ^ d.scale * 10 ^ k) := by
  have hten : ((tenTo k : Nat) : ℚ) = 10 ^ k := by simp [tenTo]
  unfold toRat
  rw [Int.cast_mul, Int.cast_natCast, hten]
  field_simp

theorem order_eq_compare (a b : Decimal) : a.order b = compare a.toRat b.toRat := by
  have hcommon : (0 : ℚ) < 10 ^ a.scale * 10 ^ b.scale := by positivity
  -- Over the common denominator the numerators are what is compared.
  unfold order
  rw [← cmp_eq_compare, ← cmp_eq_compare, ← (Int.cast_strictMono (R := ℚ)).cmp_map_eq, cast_scaled, cast_scaled,
    mul_comm (10 ^ b.scale : ℚ), cmp_mul_pos_right hcommon]

theorem toRat_of_ofInt? {n : Int} {d : Decimal} (h : ofInt? n = some d) : d.toRat = n := by
  have hsigned : (if (decide (n < 0) && n.natAbs != 0) = true then -(n.natAbs : Int) else n.natAbs) = n := by
    by_cases hn : n < 0
    · simp [hn, hn.ne, abs_of_neg hn]
    · simp [hn, not_lt.mp hn]
  unfold ofInt? make? at h
  split at h <;> cases h
  unfold toRat signedCoefficient
  dsimp only
  rw [hsigned, pow_zero, div_one]

end Decimal

/-- A comparison of numbers either of which may be absent: two absent ones are equal, and no order holds between an
absent one and anything. -/
def Relation.onRationals (c : Relation) : Option ℚ → Option ℚ → Bool
  | some p, some q =>
    match c with
    | .equal => p = q
    | .notEqual => p ≠ q
    | .less => p < q
    | .greater => q < p
    | .lessEqual => p ≤ q
    | .greaterEqual => q ≤ p
  | p, q =>
    match c with
    | .equal => p.isNone && q.isNone
    | .notEqual => !(p.isNone && q.isNone)
    | _ => false

namespace Value

def toRat? : Value → Option ℚ
  | .int n => some n
  | .decimal d => some d.toRat
  | _ => none

variable {c : Relation} {k : NumericKind} {x y : Value}

theorem relate_of_compare {p q : ℚ} (horder : order? x y = some (compare p q))
    (hsame : x.same y = (compare p q == .eq)) : x.relate c y = c.onRationals (some p) (some q) := by
  rcases lt_trichotomy p q with h | h | h
  · rw [compare_lt_iff_lt.mpr h] at horder hsame
    cases c <;> simp [relate, Relation.onRationals, horder, hsame, h, h.le, h.ne, h.not_gt]
  · rw [compare_eq_iff_eq.mpr h] at horder hsame
    cases c <;> simp [relate, Relation.onRationals, horder, hsame, h]
  · rw [compare_gt_iff_gt.mpr h] at horder hsame
    cases c <;> simp [relate, Relation.onRationals, horder, hsame, h, h.le, h.ne', h.not_gt]

theorem Fits.null_or_rational (hx : x.Fits (.number k)) (hk : ¬ k.isFloating) :
    x = .null ∨ ∃ q, x.toRat? = some q := by
  obtain rfl | ⟨n, rfl, -⟩ | ⟨f, -, hf⟩ | ⟨d, rfl, -⟩ := hx.number
  · exact .inl rfl
  · exact .inr ⟨_, rfl⟩
  · exact absurd hf hk
  · exact .inr ⟨_, rfl⟩

theorem relate_null_left (hy : y = .null ∨ ∃ q, y.toRat? = some q) :
    Value.null.relate c y = c.onRationals none y.toRat? := by
  obtain rfl | ⟨q, hq⟩ := hy
  · cases c <;> rfl
  · rw [hq]
    cases y <;> cases hq <;> cases c <;> rfl

theorem relate_null_right (hx : x = .null ∨ ∃ q, x.toRat? = some q) :
    x.relate c .null = c.onRationals x.toRat? none := by
  obtain rfl | ⟨q, hq⟩ := hx
  · cases c <;> rfl
  · rw [hq]
    cases x <;> cases hq <;> cases c <;> rfl

/-- Two values of one kind that is not floating compare as the rational numbers they denote. -/
theorem relate_eq_onRationals (hx : x.Fits (.number k)) (hy : y.Fits (.number k)) (hk : ¬ k.isFloating) :
    x.relate c y = c.onRationals x.toRat? y.toRat? := by
  by_cases hxn : x = .null
  · subst hxn
    exact relate_null_left (hy.null_or_rational hk)
  by_cases hyn : y = .null
  · subst hyn
    exact relate_null_right (hx.null_or_rational hk)
  obtain ⟨m, n, rfl, rfl⟩ | ⟨f, g, rfl, rfl⟩ | ⟨d, e, rfl, rfl⟩ :=
    number_cases (hx.resolve_left hxn) (hy.resolve_left hyn)
  · have hcompare : compare m n = compare (m : ℚ) n := by
      rw [← cmp_eq_compare, ← cmp_eq_compare, (Int.cast_strictMono (R := ℚ)).cmp_map_eq]
    have hsame : (m == n) = (compare (m : ℚ) n == .eq) := by
      rw [← hcompare, Bool.eq_iff_iff, beq_iff_eq, beq_iff_eq, compare_eq_iff_eq]
    exact relate_of_compare (congrArg some hcompare) hsame
  · obtain ⟨q, hq⟩ := (hx.null_or_rational hk).resolve_left hxn
    cases hq
  · have hcompare := d.order_eq_compare e
    exact relate_of_compare (congrArg some hcompare) (congrArg (· == .eq) hcompare)

end Value

end RecordLogic
