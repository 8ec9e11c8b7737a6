import RecordLogic.Proofs.DecimalRounding
import RecordLogic.Proofs.OperandOrder

/-!
# Decimals compared with numerals

A numeral that meets a decimal is read as one from its text, and refused at its place if it has none. So the
comparison is with the number that the text denotes as far as nothing is lost in reading.
-/

namespace RecordLogic

open Number

namespace Lowering

variable {s : Scope} {t : Typed} {v : Float} {text : String} {l location : Location}

theorem ofLiteral_kind_ne_decimal (v : Float) (text : String) (location : Location) :
    (Numeral.ofLiteral v text location).kind ≠ .decimal := by
  unfold Numeral.ofLiteral
  cases hn : natural? text.toList with
  | none => exact nofun
  | some n =>
    cases hk : NumericKind.ofLiteral? (n : Int) with
    | none => simp [hk, Numeral.kind]
    | some k =>
      have hshape := shape_of_ofLiteral? hk
      simp [hk, Numeral.kind]
      rintro rfl
      cases hshape

theorem coerce_literal_decimal (v : Float) (text : String) (location : Location) :
    coerce (literal (.number v text) location) .decimal =
      match Decimal.read? text with
      | some d => .ok (.const (.decimal d))
      | none => .error ⟨.literalRange text (.number .decimal), location⟩ := by
  have hkind := ofLiteral_kind_ne_decimal v text location
  have hkept : ¬ ((literal (.number v text) location).type.kind? = some .decimal ∨
      (literal (.number v text) location).type.kind?.any NumericKind.isIntegral ∧ NumericKind.decimal.isIntegral) := by
    simp [literal, Typed.type, ValueType.kind?, ValueType.underlying, hkind, NumericKind.isIntegral,
      NumericKind.integral?]
  exact if_neg hkept

theorem relation_equal_literal (ht : t.type.kind? = some .decimal) (v : Float) (text : String) (l location : Location) :
    relation .equal t (literal (.number v text) l) location =
      match Decimal.read? text with
      | some d => .ok (.part (.relate .equal t.node (.const (.decimal d))) .bool)
      | none => .error ⟨.literalRange text (.number .decimal), l⟩ := by
  have hwiden : ∀ k, NumericKind.decimal.widen k = .decimal := by
    intro k
    cases k <;> rfl
  have hself : coerce t .decimal = .ok t.node := by
    unfold coerce
    simp [ht]
  unfold relation
  rw [unify_numbers ht rfl, hwiden, hself, coerce_literal_decimal]
  cases Decimal.read? text with
  | none => rfl
  | some d => rfl

end Lowering

namespace Scope

variable {s : Scope} {d : Expr} {t : Typed} {v : Float} {text : String}

theorem compileTree_equal_literal (hd : Lowering.lower s d = .ok t) (ht : t.type.kind? = some .decimal)
    (v : Float) (text : String) (l location : Location) (source : String) :
    s.compileTree (.binary (.relation .equal) d (.literal (.number v text) l) location) source =
      match Decimal.read? text with
      | some c => .ok ⟨source, s.model, .relate .equal t.node (.const (.decimal c))⟩
      | none => .error (.located ⟨.literalRange text (.number .decimal), l, source⟩) := by
  have hlower : Lowering.lower s (.binary (.relation .equal) d (.literal (.number v text) l) location) =
      Lowering.relation .equal t (Lowering.literal (.number v text) l) location := by
    rw [Lowering.lower, hd]
    rfl
  unfold Scope.compileTree
  rw [hlower, Lowering.relation_equal_literal ht]
  cases Decimal.read? text with
  | none => rfl
  | some c => rfl

end Scope

theorem Value.same_decimal_iff {w : Value} {c : Decimal} :
    w.same (.decimal c) ↔ ∃ x, w = .decimal x ∧ x.toRat = c.toRat := by
  by_cases h : w.shape = .decimal
  · obtain ⟨x, rfl⟩ := shape_eq_decimal.mp h
    simp [same, Decimal.same, Decimal.order_eq_compare]
  · have hne : w.same (.decimal c) = false := same_of_shape_ne h
    simp [hne]
    rintro x rfl
    exact absurd rfl h

theorem Predicate.holds_equal_decimal {source : String} {m : Model} {n : Node} {c : Decimal} {r : Record}
    (hr : r.model.id = m.id) : (⟨source, m, .relate .equal n (.const (.decimal c))⟩ : Predicate).holds r ↔
      ∃ x, n.valueOn r = .decimal x ∧ x.toRat = c.toRat := by
  have hholds : (⟨source, m, .relate .equal n (.const (.decimal c))⟩ : Predicate).holds r =
      (n.valueOn r).same (.decimal c) := by
    unfold Predicate.holds Predicate.run
    rw [if_pos hr]
    rfl
  rw [hholds, Value.same_decimal_iff]

/-- **Decimals and numerals.** Where nothing is lost in reading, a decimal that is compared with a numeral equals it just
on the records on which it is a decimal equal to the number that the text denotes. If no decimal equals that number,
the numeral is refused at its place. It is accepted just where it is in range. -/
theorem Scope.decimal_meets_numeral {s : Scope} {d : Expr} {t : Typed} {text : String} (hd : Lowering.lower s d = .ok t)
    (ht : t.type.kind? = some .decimal) (htext : IsNumeral text.toList)
    (hlossless : (Figures.ofNumeral text.toList).Lossless) (v : Float) (l location : Location) (source : String) :
    let e : Expr := .binary (.relation .equal) d (.literal (.number v text) l) location
    let f := Figures.ofNumeral text.toList
    (∀ p, s.compileTree e source = .ok p → ∀ r : Record, r.model.id = s.model.id →
      (p.holds r ↔ ∃ x, t.node.valueOn r = .decimal x ∧ x.toRat = f.toRat)) ∧
    (¬ Representable f.toRat →
      s.compileTree e source = .error (.located ⟨.literalRange text (.number .decimal), l, source⟩)) ∧
    ((∃ p, s.compileTree e source = .ok p) ↔ f.InRange) := by
  intro e f
  have hcompile : s.compileTree e source = _ := compileTree_equal_literal hd ht v text l location source
  have hexact := (Decimal.read?_exact_iff htext).mpr hlossless
  have hexists := Decimal.exists_read?_iff htext
  rw [hcompile]
  cases hread : Decimal.read? text with
  | none =>
    rw [hread] at hexists
    refine ⟨nofun, fun _ => rfl, iff_of_false nofun fun hrange => ?_⟩
    obtain ⟨c, hc⟩ := hexists.mpr hrange
    cases hc
  | some c =>
    have hvalue : c.toRat = f.toRat := hexact c hread
    refine ⟨?_, fun hnot => absurd ⟨c, hvalue⟩ hnot, iff_of_true ⟨_, rfl⟩ (hexists.mp ⟨c, hread⟩)⟩
    rintro p ⟨⟩ r hr
    rw [Predicate.holds_equal_decimal hr, hvalue]

/-- A quarter, with a power of ten and a zero at the end. -/
theorem Scope.decimal_meets_numeral_quarter :
    let m : Model := ⟨0, "One", [⟨"D", .nullable (.number .decimal), none⟩]⟩
    let s : Scope := ⟨m, .empty, .sensitive⟩
    let e : Expr := .binary (.relation .equal) (.field ["D"] ⟨1, 1⟩) (.literal (.number 0.25 "2.50e-1") ⟨1, 6⟩) ⟨1, 3⟩
    ∃ p, s.compileTree e "D == 2.50e-1" = .ok p ∧
      p.holds ⟨m, [.decimal ⟨false, 25, 2, by decide, by decide⟩]⟩ ∧ ¬ p.holds ⟨m, [.null]⟩ := by
  intro m s e
  let f : Figures := ⟨['2'], ['5', '0'], -1⟩
  let quarter : Decimal := ⟨false, 25, 2, by decide, by decide⟩
  have hfigures : Figures.ofNumeral "2.50e-1".toList = f := rfl
  have hcoefficient : f.coefficient = 250 := by decide
  have hsignificand : f.significand = 5 / 2 := by
    show (f.coefficient : ℚ) / 10 ^ 2 = 5 / 2
    norm_num [hcoefficient]
  have hquarter : f.toRat = 1 / 4 := by
    rw [Figures.toRat, hsignificand]
    norm_num [f]
  have hvalue : quarter.toRat = f.toRat := by
    rw [hquarter]
    norm_num [quarter, Decimal.toRat, Decimal.signedCoefficient]
  have hrange : f.InRange := ⟨by decide, by norm_num [hsignificand], by norm_num [hquarter]⟩
  have hlossless : f.Lossless := by
    refine fun _ => ⟨⟨⟨false, 25, 1, by decide, by decide⟩, ?_⟩, quarter, hvalue⟩
    norm_num [hsignificand, Decimal.toRat, Decimal.signedCoefficient]
  have hdigits : ∀ (c : Char) (cs : List Char), (c :: cs).all Text.isDigit → IsDigits (c :: cs) :=
    fun c cs hall => ⟨List.cons_ne_nil c cs, List.all_eq_true.mp hall⟩
  have hnumeral : IsNumeral "2.50e-1".toList :=
    ⟨['2'], ['.', '5', '0'], ['e', '-', '1'], rfl, hdigits '2' [] rfl, .inr ⟨['5', '0'], rfl, hdigits '5' ['0'] rfl⟩,
      .inr ⟨'e', ['-'], ['1'], rfl, .inl rfl, .inr (.inr rfl), hdigits '1' [] rfl⟩⟩
  obtain ⟨t, hd, ht, hnode⟩ : ∃ t, Lowering.lower s (.field ["D"] ⟨1, 1⟩) = .ok t ∧ t.type.kind? = some .decimal ∧
      ∀ v, t.node.valueOn ⟨m, [v]⟩ = v := ⟨_, rfl, rfl, fun v => rfl⟩
  obtain ⟨hholds, -, haccepted⟩ := Scope.decimal_meets_numeral hd ht hnumeral (hfigures ▸ hlossless) 0.25 ⟨1, 6⟩ ⟨1, 3⟩
    "D == 2.50e-1"
  obtain ⟨p, hp⟩ := haccepted.mpr (hfigures ▸ hrange)
  refine ⟨p, hp, (hholds p hp _ rfl).mpr ⟨quarter, hnode _, hfigures ▸ hvalue⟩, ?_⟩
  intro hnull
  obtain ⟨x, hx, -⟩ := (hholds p hp _ rfl).mp hnull
  rw [hnode] at hx
  cases hx

/-- A place too many is rounded off, even from a number that is not zero. -/
theorem Scope.decimal_meets_rounded_numeral :
    let m : Model := ⟨0, "One", [⟨"D", .number .decimal, none⟩]⟩
    let s : Scope := ⟨m, .empty, .sensitive⟩
    let tiny := "0.00000000000000000000000000001"
    let e : Expr := .binary (.relation .equal) (.field ["D"] ⟨1, 1⟩) (.literal (.number 0 tiny) ⟨1, 6⟩) ⟨1, 3⟩
    ¬ Representable (Figures.ofNumeral tiny.toList).toRat ∧
      ∃ p, s.compileTree e ("D == " ++ tiny) = .ok p ∧ p.holds ⟨m, [.decimal .zero]⟩ := by
  intro m s tiny e
  obtain ⟨t, hd, ht, hnode⟩ : ∃ t, Lowering.lower s (.field ["D"] ⟨1, 1⟩) = .ok t ∧ t.type.kind? = some .decimal ∧
      ∀ v, t.node.valueOn ⟨m, [v]⟩ = v := ⟨_, rfl, rfl, fun v => rfl⟩
  have hread : Decimal.read? tiny = some ⟨false, 0, 28, by decide, by decide⟩ := by decide +kernel
  have hcompile := compileTree_equal_literal hd ht 0 tiny ⟨1, 6⟩ ⟨1, 3⟩ ("D == " ++ tiny)
  rw [hread] at hcompile
  refine ⟨?_, _, hcompile, ?_⟩
  · have hcoefficient : (Figures.ofNumeral tiny.toList).coefficient = 1 := by decide +kernel
    have hlength : (Figures.ofNumeral tiny.toList).places.length = 29 := by decide +kernel
    have hpower : (Figures.ofNumeral tiny.toList).power = 0 := by decide +kernel
    intro hrep
    have hdvd := hrep.pow_dvd (n := 1) (m := 29) (by simp [Figures.toRat, Figures.significand, *])
    revert hdvd
    decide
  · apply (Predicate.holds_equal_decimal rfl).mpr
    exact ⟨.zero, hnode _, by simp [Decimal.toRat, Decimal.signedCoefficient, Decimal.zero]⟩

end RecordLogic
