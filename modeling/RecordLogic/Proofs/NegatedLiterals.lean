import RecordLogic.Proofs.IntegralBounds
import RecordLogic.Proofs.Wrapping

/-!
# Negated integer literals

The minus sign before an integer literal is folded into it as long as some kind holds the negative number, which is as
far as the least number of 64 bits. Under that no kind does, and the literal is negated like any other number of `u64`:
in `i64`, where it wraps to a positive number. Under further signs either number only changes its sign.
-/

namespace RecordLogic

open Number

namespace NumericKind

variable {n : Int}

theorem exists_ofLiteral? (hlo : -(twoTo 63 : Int) ≤ n) (hhi : n < twoTo 64) : ∃ k, ofLiteral? n = some k := by
  have h63 : twoTo 63 = 9223372036854775808 := by decide
  have h64 : twoTo 64 = 18446744073709551616 := by decide
  rw [← Option.isSome_iff_exists]
  unfold ofLiteral?
  rw [List.find?_isSome]
  by_cases h : n < twoTo 63
  · refine ⟨.i64, by simp, ?_⟩
    simp [fits, bounds, integral?]
    omega
  · refine ⟨.u64, by simp, ?_⟩
    simp [fits, bounds, integral?]
    omega

theorem ofLiteral?_eq_none (h : n < -(twoTo 63 : Int)) : ofLiteral? n = none := by
  have h31 : twoTo 31 = 2147483648 := by decide
  have h63 : twoTo 63 = 9223372036854775808 := by decide
  simp [ofLiteral?, fits, bounds, integral?]
  omega

theorem ofLiteral?_large (hlo : (twoTo 63 : Int) ≤ n) (hhi : n < twoTo 64) : ofLiteral? n = some .u64 := by
  have h31 : twoTo 31 = 2147483648 := by decide
  have h63 : twoTo 63 = 9223372036854775808 := by decide
  have h64 : twoTo 64 = 18446744073709551616 := by decide
  have hi32 : ¬ i32.fits n := by
    simp [fits, bounds, integral?]
    omega
  have hi64 : ¬ i64.fits n := by
    simp [fits, bounds, integral?]
    omega
  have hu64 : u64.fits n := by
    simp [fits, bounds, integral?]
    omega
  simp [ofLiteral?, hi32, hi64, hu64]

theorem fits_i64 (h : n.natAbs < twoTo 63) : i64.fits n := by
  have h63 : twoTo 63 = 9223372036854775808 := by decide
  simp [fits, bounds, integral?]
  omega

end NumericKind

def Expr.negated (e : Expr) : List Location → Expr
  | [] => e
  | l :: ls => .unary .negate (e.negated ls) l

namespace Lowering

variable {s : Scope} {r : Record} {t : Typed} {location : Location} {m : Int} {n : Nat} {text : String}

/-- The part comes to an integer that has its negative in 64 bits: a numeral into which a minus sign is folded, or a
part of kind `i64` that is not the least number of it. -/
inductive Signed (r : Record) (m : Int) : Typed → Prop
  | numeral {text : String} {l : Location} {k : NumericKind} (hm : m.natAbs ≤ twoTo 63) :
      Signed r m (.numeral ⟨text, l, .whole m k⟩)
  | part {node : Node} (hm : m.natAbs < twoTo 63) (hnode : node.valueOn r = .int m) :
      Signed r m (.part node (.number .i64))

theorem Signed.value (h : Signed r m t) : t.node.valueOn r = .int m := by
  cases h with
  | numeral => rfl
  | part hm hnode => exact hnode

theorem Signed.negate (h : Signed r m t) (location : Location) :
    ∃ u, unary .negate t location = .ok u ∧ Signed r (-m) u := by
  have htwo : twoTo 63 < twoTo 64 := by decide
  cases h with
  | numeral hm =>
    obtain ⟨k, hk⟩ := NumericKind.exists_ofLiteral? (n := -m) (by omega) (by omega)
    exact ⟨_, negate_numeral location hk, .numeral (by simpa using hm)⟩
  | @part node hm hnode =>
    have hneg : (-m).natAbs < twoTo 63 := by simpa using hm
    refine ⟨.part (.negate (some .i64) node) (.number .i64), rfl, .part hneg ?_⟩
    rw [Node.valueOn_negate, hnode]
    exact Value.negate_int (NumericKind.fits_i64 hneg) (Int.ModEq.refl _)

theorem lower_negated {e : Expr} (he : lower s e = .ok t) (h : Signed r m t) (ls : List Location) :
    ∃ u, lower s (e.negated ls) = .ok u ∧ Signed r (underSigns m ls.length) u := by
  induction ls with
  | nil => exact ⟨t, he, h⟩
  | cons l ls ih =>
    obtain ⟨u, hu, hsigned⟩ := ih
    obtain ⟨w, hw, hw'⟩ := hsigned.negate l
    refine ⟨w, ?_, hw'⟩
    rw [Expr.negated, lower, hu]
    exact hw

/-- No kind holds the negative, and in `i64` it wraps. -/
theorem negate_wraps (location : Location) {l : Location} (hlo : twoTo 63 < n) (hhi : n < twoTo 64) :
    ∃ u, unary .negate (.numeral ⟨text, l, .whole n .u64⟩) location = .ok u ∧
      Signed r ((twoTo 64 : Int) - n) u := by
  have hnone : NumericKind.ofLiteral? (-(n : Int)) = none := NumericKind.ofLiteral?_eq_none (by omega)
  have htwice : twoTo 64 = 2 * twoTo 63 := by decide
  have hsmall : ((twoTo 64 : Int) - n).natAbs < twoTo 63 := by omega
  have hnegate : unary .negate (.numeral ⟨text, l, .whole n .u64⟩) location =
      .ok (.part (.negate (some .i64) (.const (.int n))) (.number .i64)) := by
    simp [unary, negate, Typed.type, Numeral.kind, ValueType.underlying, Numeral.negated?, hnone]
    rfl
  refine ⟨_, hnegate, .part hsmall ?_⟩
  rw [Node.valueOn_negate, Node.valueOn_const]
  apply Value.negate_int (NumericKind.fits_i64 hsmall)
  apply Int.modEq_iff_dvd.mpr
  show (twoTo 64 : Int) ∣ (twoTo 64 : Int) - n - -n
  exact ⟨1, by omega⟩

end Lowering

/-- **Negated integer literals.** Under a minus sign an integer literal of up to 64 bits comes to the exact negative as
far as `i64` reaches, and from there on to a positive number, two to the 64 more than the negative. Further signs only
change the sign. -/
theorem Scope.lower_negated_literal (s : Scope) (r : Record) {v : Float} {text : String} {n : Nat} (l l' : Location)
    (htext : natural? text.toList = some n) (hn : n < twoTo 64) (ls : List Location) :
    ∃ t, Lowering.lower s ((Expr.unary .negate (.literal (.number v text) l) l').negated ls) = .ok t ∧
      t.node.valueOn r = .int (underSigns (if n ≤ twoTo 63 then -n else (twoTo 64 : Int) - n) ls.length) := by
  obtain ⟨k, hk⟩ := NumericKind.exists_ofLiteral? (n := n) (by omega) (by omega)
  have hliteral : Lowering.lower s (.literal (.number v text) l) = .ok (.numeral ⟨text, l, .whole n k⟩) := by
    rw [Lowering.lower, Lowering.literal_natural l htext hk]
  have hfirst : ∃ u, Lowering.lower s (.unary .negate (.literal (.number v text) l) l') = .ok u ∧
      Lowering.Signed r (if n ≤ twoTo 63 then -n else (twoTo 64 : Int) - n) u := by
    rw [Lowering.lower, hliteral]
    by_cases hle : n ≤ twoTo 63
    · rw [if_pos hle]
      have hsigned : Lowering.Signed r n (.numeral ⟨text, l, .whole n k⟩) := .numeral (by simpa using hle)
      exact hsigned.negate l'
    · rw [if_neg hle]
      rw [NumericKind.ofLiteral?_large (by omega) (by omega)] at hk
      cases hk
      exact Lowering.negate_wraps l' (by omega) hn
  obtain ⟨u, hu, hsigned⟩ := hfirst
  obtain ⟨t, ht, hvalue⟩ := Lowering.lower_negated hu hsigned ls
  exact ⟨t, ht, hvalue.value⟩

/-- The least number of 64 bits. -/
theorem Scope.lower_negated_literal_least :
    let m : Model := ⟨0, "One", [⟨"F", .number .i32, none⟩]⟩
    let s : Scope := ⟨m, .empty, .sensitive⟩
    let r : Record := ⟨m, [.int 0]⟩
    let e : Expr := .unary .negate (.literal (.number 9223372036854775808 "9223372036854775808") ⟨1, 2⟩) ⟨1, 1⟩
    natural? "9223372036854775808".toList = some 9223372036854775808 ∧ 9223372036854775808 < twoTo 64 ∧
      ∃ t, Lowering.lower s e = .ok t ∧ t.node.valueOn r = .int (-9223372036854775808) := by
  intro m s r e
  have htext : natural? "9223372036854775808".toList = some 9223372036854775808 := by decide
  have hn : 9223372036854775808 < twoTo 64 := by decide
  obtain ⟨t, ht, hvalue⟩ := Scope.lower_negated_literal s r ⟨1, 2⟩ ⟨1, 1⟩ htext hn []
  exact ⟨htext, hn, t, ht, hvalue⟩

/-- The greatest number of 64 bits without a sign comes to 1 under a minus sign, so it is not below 0 there. -/
theorem Scope.negated_literal_wraps :
    let m : Model := ⟨0, "One", [⟨"F", .number .i32, none⟩]⟩
    let s : Scope := ⟨m, .empty, .sensitive⟩
    let r : Record := ⟨m, [.int 0]⟩
    let e : Expr := .unary .negate (.literal (.number 18446744073709551615 "18446744073709551615") ⟨1, 2⟩) ⟨1, 1⟩
    let below : Expr := .binary (.relation .less) e (.literal (.number 0 "0") ⟨1, 25⟩) ⟨1, 23⟩
    natural? "18446744073709551615".toList = some 18446744073709551615 ∧
      (∃ t, Lowering.lower s e = .ok t ∧ t.node.valueOn r = .int 1 ∧ t.node.valueOn r ≠ .int (-18446744073709551615)) ∧
      ∃ p, s.compileTree below "-18446744073709551615 < 0" = .ok p ∧ ¬ p.holds r := by
  intro m s r e below
  refine ⟨by decide, ⟨_, rfl, rfl, ?_⟩, _, rfl, ?_⟩
  · intro h
    cases h
  · intro h
    cases h

end RecordLogic
