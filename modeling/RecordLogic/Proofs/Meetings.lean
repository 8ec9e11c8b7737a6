import RecordLogic.Proofs.Likeness

/-!
# Where two parts meet

Operands and branches are lowered before they meet. Two numbers go over to the wider of their kinds. Null meets
everything, an enumeration meets itself, and all else meets what is of its sort; these stay as they are.
-/

namespace RecordLogic

theorem NumericKind.widen_comm (j k : NumericKind) : j.widen k = k.widen j := by
  cases j <;> cases k <;> rfl

theorem ValueType.kind?_of_underlying {t u : ValueType} (h : t.underlying = u) (hu : ∀ k, u ≠ .number k) :
    t.kind? = none := by
  unfold kind?
  rw [h]
  cases u with
  | number k => exact absurd rfl (hu k)
  | _ => rfl

namespace Lowering

variable {s : Scope} {a b t : Typed} {location : Location}

theorem lower_binary {op : BinaryOp} {x y : Expr} (h : lower s (.binary op x y location) = .ok t) :
    ∃ u v, lower s x = .ok u ∧ lower s y = .ok v ∧ binary op u v location = .ok t := by
  rw [lower] at h
  obtain ⟨u, hu, h⟩ := bind_eq_ok.mp h
  obtain ⟨v, hv, h⟩ := bind_eq_ok.mp h
  exact ⟨u, v, hu, hv, h⟩

theorem lower_conditional {x y z : Expr} (h : lower s (.conditional x y z location) = .ok t) :
    ∃ u v w, lower s x = .ok u ∧ lower s y = .ok v ∧ lower s z = .ok w ∧ conditional u v w location = .ok t := by
  rw [lower] at h
  obtain ⟨u, hu, h⟩ := bind_eq_ok.mp h
  split at h
  · obtain ⟨v, hv, h⟩ := bind_eq_ok.mp h
    obtain ⟨w, hw, h⟩ := bind_eq_ok.mp h
    exact ⟨u, v, w, hu, hv, hw, h⟩
  · cases h

theorem relation_node {c : Relation} (h : relation c a b location = .ok t) :
    ∃ left right, t = .part (.relate c left right) .bool := by
  unfold relation at h
  obtain ⟨m, -, h⟩ := bind_eq_ok.mp h
  split at h <;> cases h
  exact ⟨m.left, m.right, rfl⟩

theorem unify_null_left {symbol : String} (h : a.type.underlying = .null) :
    unify symbol a b location = .ok ⟨a.node, b.node, b.type.underlying.orNull⟩ := by
  unfold unify
  rw [h]
  cases b.type.underlying <;> rfl

theorem unify_null_right {symbol : String} (h : b.type.underlying = .null) :
    unify symbol a b location = .ok ⟨a.node, b.node, a.type.underlying.orNull⟩ := by
  unfold unify
  rw [h]
  cases a.type.underlying <;> rfl

def isOneSort : ValueType → ValueType → Bool
  | .enum e, .enum f => e = f
  | t, u => t.coarse? = u.coarse?

theorem unify_others {symbol : String} (ha : a.type.underlying ≠ .null) (hb : b.type.underlying ≠ .null)
    (h : a.type.kind? = none ∨ b.type.kind? = none) :
    unify symbol a b location =
      if isOneSort a.type.underlying b.type.underlying then
        .ok ⟨a.node, b.node, a.type.underlying.orNullIf (a.type.isNullable || b.type.isNullable)⟩
      else .error ⟨.operands symbol a.type b.type, location⟩ := by
  unfold unify
  dsimp only
  split
  · rename_i hnull _
    exact absurd hnull ha
  · rename_i hnull _
    exact absurd hnull ha
  · rename_i hnull _
    exact absurd hnull hb
  · rename_i j k hj hk
    rw [ValueType.kind?_eq_some.mpr hj, ValueType.kind?_eq_some.mpr hk] at h
    simp at h
  · rename_i e f he hf
    simp [he, hf, isOneSort]
  · rename_i henums
    have hsort : isOneSort a.type.underlying b.type.underlying =
        decide (a.type.underlying.coarse? = b.type.underlying.coarse?) := by
      unfold isOneSort
      split
      · rename_i e f he hf
        exact absurd hf (henums e f he)
      · rfl
    simp [hsort]

theorem unify_numbers {symbol : String} {j k : NumericKind} (ha : a.type.kind? = some j) (hb : b.type.kind? = some k) :
    unify symbol a b location = (do
      let n ← coerce a (j.widen k)
      let q ← coerce b (j.widen k)
      return ⟨n, q, (ValueType.number (j.widen k)).orNullIf (a.type.isNullable || b.type.isNullable)⟩) := by
  unfold unify
  rw [ValueType.kind?_eq_some.mp ha, ValueType.kind?_eq_some.mp hb]

theorem exists_kind?_of_not_none (h : ¬ (a.type.kind? = none ∨ b.type.kind? = none)) :
    ∃ j k, a.type.kind? = some j ∧ b.type.kind? = some k := by
  rw [not_or, ← ne_eq, ← ne_eq, Option.ne_none_iff_exists', Option.ne_none_iff_exists'] at h
  obtain ⟨⟨j, hj⟩, k, hk⟩ := h
  exact ⟨j, k, hj, hk⟩

/-- Two numbers go over to the wider of their kinds; all else meets as it is. -/
theorem unify_cases {symbol : String} {p : Meeting} (h : unify symbol a b location = .ok p) :
    (∃ j k, a.type.kind? = some j ∧ b.type.kind? = some k ∧ coerce a (j.widen k) = .ok p.left ∧
      coerce b (j.widen k) = .ok p.right) ∨
    (a.type.kind? = none ∨ b.type.kind? = none) ∧ p.left = a.node ∧ p.right = b.node := by
  by_cases ha : a.type.underlying = .null
  · rw [unify_null_left ha] at h
    cases h
    exact .inr ⟨.inl (ValueType.kind?_of_underlying ha nofun), rfl, rfl⟩
  by_cases hb : b.type.underlying = .null
  · rw [unify_null_right hb] at h
    cases h
    exact .inr ⟨.inr (ValueType.kind?_of_underlying hb nofun), rfl, rfl⟩
  by_cases hnone : a.type.kind? = none ∨ b.type.kind? = none
  · rw [unify_others ha hb hnone] at h
    split at h <;> cases h
    exact .inr ⟨hnone, rfl, rfl⟩
  · obtain ⟨j, k, hj, hk⟩ := exists_kind?_of_not_none hnone
    rw [unify_numbers hj hk] at h
    obtain ⟨n, hn, h⟩ := bind_eq_ok.mp h
    obtain ⟨q, hq, h⟩ := bind_eq_ok.mp h
    cases h
    exact .inl ⟨j, k, hj, hk, hn, hq⟩

end Lowering

end RecordLogic
