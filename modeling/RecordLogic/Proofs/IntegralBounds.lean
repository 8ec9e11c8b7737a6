import RecordLogic.Proofs.Interchange
import RecordLogic.Proofs.OperandOrder
import RecordLogic.Proofs.Widths

/-!
# Integers within the bounds of their types

Whatever is read, returned, written or computed is within the bounds of its integral kind. The wider of two integral
kinds need not hold every number of the other, and a branch of a conditional is passed on as it is; so a conditional of
an unsigned kind may come to a negative number, if a branch is of a signed kind that has it.
-/

namespace RecordLogic

open Number

namespace NumericKind

variable {j k : NumericKind} {n : Int}

def isSigned (k : NumericKind) : Bool := k.integral?.any (·.2)

/-- An integral kind has the numbers of the less precise ones, negative numbers under an unsigned kind apart. -/
theorem fits_of_precision_le (hj : j.isIntegral) (hk : k.isIntegral) (hle : j.precision ≤ k.precision)
    (hn : j.fits n) : k.fits n ∨ n < 0 ∧ j.isSigned ∧ ¬ k.isSigned := by
  have h8 : twoTo 8 = 256 := by decide
  have h16 : twoTo 16 = 65536 := by decide
  have h32 : twoTo 32 = 4294967296 := by decide
  have h64 : twoTo 64 = 18446744073709551616 := by decide
  have h7 : twoTo 7 = 128 := by decide
  have h15 : twoTo 15 = 32768 := by decide
  have h31 : twoTo 31 = 2147483648 := by decide
  have h63 : twoTo 63 = 9223372036854775808 := by decide
  cases j <;> cases hj <;> cases k <;> cases hk <;> simp [precision] at hle <;>
    simp [fits, bounds, integral?, isSigned, *] at hn ⊢ <;> omega

theorem precision_le_widen (j k : NumericKind) : j.precision ≤ (j.widen k).precision := by
  unfold widen
  split
  · exact Nat.le_refl _
  · omega

end NumericKind

theorem ValueType.kind?_orNullIf (b : Bool) (t : ValueType) : (t.orNullIf b).kind? = t.kind? := by
  have hunder : (t.orNullIf b).underlying = t.underlying := by
    unfold orNullIf orNull
    split
    · split <;> rfl
    · rfl
  unfold kind?
  rw [hunder]

def Value.Within (v : Value) (k : NumericKind) : Prop := v = .null ∨ ∃ n, v = .int n ∧ k.fits n

namespace Value

variable {v w x y : Value} {t : ValueType} {k : NumericKind}

theorem OfKind.within (h : w.OfKind k) (hk : k.isIntegral) : w.Within k := by
  cases w with
  | int n => exact .inr ⟨n, rfl, h.2⟩
  | float f => exact absurd hk h.1
  | decimal d => exact absurd hk h.1
  | _ => cases h

theorem conform_within (hk : k.isIntegral) : ∀ {t : ValueType} {v w : Value}, t.kind? = some k →
    v.conform t = .ok w → w.Within k
  | .nullable t, v, w, ht, h => by
    by_cases hv : v = .null
    · subst hv
      cases h
      exact .inl rfl
    · rw [conform.eq_2 _ _ hv] at h
      exact conform_within hk (t := t) ht h
  | .number j, v, w, ht, h => by
    obtain rfl : j = k := Option.some.inj ht
    cases v with
    | int n => exact (intOfKind_ofKind h).within hk
    | float f => exact (floatOfKind_ofKind h).within hk
    | decimal d => exact (decimalOfKind_ofKind h).within hk
    | _ => cases h
  | .null, v, w, ht, _ | .bool, v, w, ht, _ | .string, v, w, ht, _ | .dateTime, v, w, ht, _
  | .timeSpan, v, w, ht, _ | .guid, v, w, ht, _ | .enum _, v, w, ht, _ | .array _, v, w, ht, _
  | .model _, v, w, ht, _ => by cases ht

theorem Fits.integral (h : v.Fits (.number k)) (hk : k.isIntegral) : v = .null ∨ ∃ n, v = .int n := by
  obtain h | h := h
  · exact .inl h
  · exact .inr (shape_eq_int.mp (h.trans (NumericKind.shape_of_isIntegral hk)))

theorem negate_within (hv : v.Fits (.number k)) (hk : k.isIntegral) : (v.negate (some k)).Within k := by
  obtain rfl | ⟨n, rfl⟩ := hv.integral hk
  · exact .inl rfl
  · exact .inr ⟨_, rfl, NumericKind.fits_wrap hk _⟩

theorem operate_within (o : Operation) (hx : x.Fits (.number k)) (hy : y.Fits (.number k)) (hk : k.isIntegral) :
    (x.operate o k y).Within k := by
  obtain rfl | ⟨m, rfl⟩ := hx.integral hk
  · exact .inl rfl
  obtain rfl | ⟨n, rfl⟩ := hy.integral hk
  · exact .inl rfl
  show (((onIntegers o m n).map fun i => Value.int (k.wrap i)).getD .null).Within k
  cases onIntegers o m n with
  | none => exact .inl rfl
  | some i => exact .inr ⟨_, rfl, NumericKind.fits_wrap hk i⟩

end Value

namespace Lowering

variable {C : Catalogue} {r : Record} {s : Scope} {t a b : Typed} {location : Location} {j k : NumericKind}

/-! ## All parts but conditionals -/

theorem numeral_within {n : Numeral} (h : ∀ i j, n.amount = .whole i j → j.fits i) (hk : n.kind.isIntegral) :
    n.value.Within n.kind := by
  unfold Numeral.kind at hk ⊢
  unfold Numeral.value
  split
  · rename_i i j hamount
    exact .inr ⟨i, rfl, h i j hamount⟩
  · rename_i f hamount
    rw [hamount] at hk
    cases hk

theorem fits_of_ofLiteral {f : Float} {text : String} {i : Int} {k : NumericKind}
    (h : (Numeral.ofLiteral f text location).amount = .whole i k) : k.fits i := by
  unfold Numeral.ofLiteral at h
  cases hn : natural? text.toList with
  | none =>
    rw [hn] at h
    cases h
  | some v =>
    cases hj : NumericKind.ofLiteral? (v : Int) with
    | none => simp [hn, hj] at h
    | some j =>
      simp [hn, hj] at h
      obtain ⟨rfl, rfl⟩ := h
      exact NumericKind.fits_of_ofLiteral? hj

theorem fits_of_negated {n m : Numeral} {i : Int} (hn : n.negated? = some m) (h : m.amount = .whole i k) :
    k.fits i := by
  unfold Numeral.negated? at hn
  split at hn
  · obtain ⟨j, hj, rfl⟩ := Option.map_eq_some_iff.mp hn
    cases h
    exact NumericKind.fits_of_ofLiteral? hj
  · cases hn
    cases h

def Bounded (r : Record) (t : Typed) : Prop :=
  ∀ k, t.type.kind? = some k → k.isIntegral → (t.node.valueOn r).Within k

theorem bounded_of_none (h : t.type.kind? = none) : Bounded r t := by
  intro k hk
  rw [h] at hk
  cases hk

theorem bounded_numeral {n : Numeral} (h : ∀ i j, n.amount = .whole i j → j.fits i) : Bounded r (.numeral n) := by
  intro k hk hi
  obtain rfl : n.kind = k := Option.some.inj hk
  exact numeral_within h hi

theorem bounded_number {n : Node} {nullable : Bool} (h : k.isIntegral → (n.valueOn r).Within k) :
    Bounded r (.part n ((ValueType.number k).orNullIf nullable)) := by
  intro j hj
  obtain rfl : k = j := Option.some.inj ((ValueType.kind?_orNullIf _ _).symm.trans hj)
  exact h

theorem literal_bounded (v : Literal) : Bounded r (literal v location) := by
  cases v with
  | number f text => exact bounded_numeral fun _ _ => fits_of_ofLiteral
  | _ => exact bounded_of_none rfl

theorem field_bounded {path : List String} (hr : r.Built C) (hm : r.model = s.model) (hshort : r.Short)
    (h : field s path location = .ok t) : Bounded r t := by
  unfold field at h
  rw [← hm] at h
  split at h
  · rename_i q hq
    cases h
    intro k hk hi
    rw [Typed.node, Node.valueOn_field]
    exact Value.conform_within hi hk (hr.follow_conforms hshort hq).1
  · split at h
    · rename_i u hu
      cases h
      obtain ⟨_, _, _, -, -, -, -, rfl⟩ := member?_eq_some.mp hu
      exact bounded_of_none rfl
    · cases h

theorem call_bounded {name : String} {args : List Typed} (h : call s name args location = .ok t) : Bounded r t := by
  unfold call at h
  dsimp only at h
  split at h
  · rename_i f hf
    cases h
    intro k hk hi
    rw [Typed.node, Node.valueOn_call, Signature.result]
    split
    · rename_i v hv
      exact Value.conform_within hi hk hv
    · exact .inl rfl
  · split at h <;> cases h

theorem negateNumber_bounded (ht : t.Good r) (hk : t.type.underlying = .number k) (h : negateNumber t k = .ok a) :
    Bounded r a := by
  unfold negateNumber at h
  obtain ⟨n, hn, h⟩ := bind_eq_ok.mp h
  cases h
  refine bounded_number fun hi => ?_
  obtain ⟨hfits, -⟩ := coerce_good ht (.inr ⟨k, hk, isIntegral_of_negationKind⟩) hn
  exact Value.negate_within hfits hi

theorem unary_bounded {op : UnaryOp} (ht : t.Good r) (h : unary op t location = .ok a) : Bounded r a := by
  cases op with
  | not =>
    unfold unary at h
    dsimp only at h
    split at h <;> cases h
    exact bounded_of_none (ValueType.kind?_orNullIf _ _)
  | negate =>
    change negate t location = .ok a at h
    unfold negate at h
    split at h
    · rename_i k hk
      split at h
      · split at h
        · rename_i m hm
          cases h
          exact bounded_numeral fun _ _ => fits_of_negated hm
        · exact negateNumber_bounded ht hk h
      · exact negateNumber_bounded ht hk h
    · cases h
      exact bounded_of_none (ValueType.kind?_orNullIf _ _)
    · cases h

theorem kind?_of_timeType {o : Operation} {u v type : ValueType} (h : timeType? o u v = some type) :
    type.kind? = none := by
  unfold timeType? at h
  split at h <;> cases h <;> rfl

theorem operation_bounded {o : Operation} (ha : a.Good r) (hb : b.Good r) (h : operation o a b location = .ok t) :
    Bounded r t := by
  unfold operation at h
  dsimp only at h
  split at h
  · cases h
    exact bounded_of_none rfl
  split at h
  · rename_i k hk
    obtain ⟨n, hn, h⟩ := bind_eq_ok.mp h
    obtain ⟨p, hp, h⟩ := bind_eq_ok.mp h
    cases h
    obtain ⟨hwa, hwb⟩ := widens_of_commonKind hk
    exact bounded_number (Value.operate_within o (coerce_good ha hwa hn).1 (coerce_good hb hwb hp).1)
  split at h
  · rename_i type htype
    cases h
    exact bounded_of_none ((ValueType.kind?_orNullIf _ _).trans (kind?_of_timeType htype))
  · cases h

theorem binary_bounded {op : BinaryOp} (ha : a.Good r) (hb : b.Good r) (h : binary op a b location = .ok t) :
    Bounded r t := by
  cases op with
  | and | or =>
    change logical _ _ a b location = .ok t at h
    unfold logical at h
    split at h <;> cases h
    exact bounded_of_none rfl
  | relation c =>
    obtain ⟨left, right, rfl⟩ := relation_node h
    exact bounded_of_none rfl
  | operation o => exact operation_bounded ha hb h

end Lowering

/-! ## Conditionals -/

namespace Expr

def IsConditional : Expr → Prop
  | .conditional .. => True
  | _ => False

/-- The branches that a conditional may come to, those of a branch that is a conditional itself in its place. All else
may come to itself only. -/
def tips : Expr → List Expr
  | .conditional _ y n _ => y.tips ++ n.tips
  | e => [e]

theorem tips_eq {e : Expr} (h : ¬ e.IsConditional) : e.tips = [e] := by
  cases e with
  | conditional c y n l => exact absurd trivial h
  | _ => rfl

def ComesTo (s : Scope) (r : Record) (e : Expr) (k : NumericKind) (n : Int) : Prop :=
  ∃ t, Lowering.lower s e = .ok t ∧ t.type.kind? = some k ∧ k.isIntegral ∧ t.node.valueOn r = .int n ∧ k.fits n

end Expr

namespace ValueType

variable {t : ValueType} {k : NumericKind}

theorem exists_kind?_of_coarse (h : t.coarse? = some .number) : ∃ k, t.kind? = some k := by
  induction t using underlying.induct with
  | case1 t ih => exact ih h
  | case2 t ht =>
    cases t with
    | number k => exact ⟨k, rfl⟩
    | nullable t => exact absurd rfl (ht t)
    | _ => cases h

theorem kind?_underlying (t : ValueType) : t.underlying.kind? = t.kind? := by
  induction t using underlying.induct with
  | case1 t ih => exact ih
  | case2 t ht => rw [underlying.eq_2 t ht]

def Below (t : ValueType) (k : NumericKind) : Prop :=
  t.underlying = .null ∨ ∃ j, t.kind? = some j ∧ j.isIntegral ∧ j.precision ≤ k.precision

theorem below_self (h : t.kind? = some k) (hk : k.isIntegral) : t.Below k := .inr ⟨k, h, hk, Nat.le_refl _⟩

end ValueType

namespace Lowering

variable {C : Catalogue} {r : Record} {s : Scope} {t a b c : Typed} {location : Location} {j k : NumericKind}

/-- No operand has to be within its bounds for that: operators wrap, and the rest is checked when it is read, returned
or written. -/
theorem lower_bounded (hr : r.Built C) (hm : r.model = s.model) (hshort : r.Short) {e : Expr}
    (he : ¬ e.IsConditional) (h : lower s e = .ok t) : Bounded r t := by
  cases e with
  | literal v l =>
    rw [lower] at h
    cases h
    exact literal_bounded v
  | field path l =>
    rw [lower] at h
    exact field_bounded hr hm hshort h
  | call name args l =>
    rw [lower] at h
    obtain ⟨ts, -, h⟩ := bind_eq_ok.mp h
    exact call_bounded h
  | unary op e l =>
    rw [lower] at h
    obtain ⟨u, hu, h⟩ := bind_eq_ok.mp h
    exact unary_bounded (lower_good hr.sound.2 hm hu) h
  | binary op a b l =>
    obtain ⟨u, v, hu, hv, h⟩ := lower_binary h
    exact binary_bounded (lower_good hr.sound.2 hm hu) (lower_good hr.sound.2 hm hv) h
  | conditional c y n l => exact absurd trivial he

theorem unify_integral {symbol : String} {m : Meeting} (h : unify symbol a b location = .ok m)
    (hk : m.type.kind? = some k) (hi : k.isIntegral) :
    m.left = a.node ∧ m.right = b.node ∧ a.type.Below k ∧ b.type.Below k := by
  by_cases ha : a.type.underlying = .null
  · rw [unify_null_left ha] at h
    cases h
    have hb : b.type.kind? = some k := by
      rw [← hk, ← b.type.kind?_underlying]
      exact (ValueType.kind?_orNullIf true _).symm
    exact ⟨rfl, rfl, .inl ha, ValueType.below_self hb hi⟩
  by_cases hb : b.type.underlying = .null
  · rw [unify_null_right hb] at h
    cases h
    have ha : a.type.kind? = some k := by
      rw [← hk, ← a.type.kind?_underlying]
      exact (ValueType.kind?_orNullIf true _).symm
    exact ⟨rfl, rfl, ValueType.below_self ha hi, .inl hb⟩
  by_cases hnone : a.type.kind? = none ∨ b.type.kind? = none
  · rw [unify_others ha hb hnone] at h
    split at h <;> cases h
    rename_i hsort
    -- A number is of one sort with numbers only.
    dsimp only at hk
    rw [ValueType.kind?_orNullIf, ValueType.kind?_underlying] at hk
    have hnumber : b.type.coarse? = some .number := by
      rw [← b.type.coarse?_underlying, ← coarse?_of_isOneSort hsort, ValueType.kind?_eq_some.mp hk]
      rfl
    obtain ⟨j, hj⟩ := ValueType.exists_kind?_of_coarse hnumber
    rw [hk, hj] at hnone
    obtain hnone | hnone := hnone <;> cases hnone
  · obtain ⟨i, j, ha, hb⟩ := exists_kind?_of_not_none hnone
    rw [unify_numbers ha hb] at h
    obtain ⟨n, hn, h⟩ := bind_eq_ok.mp h
    obtain ⟨q, hq, h⟩ := bind_eq_ok.mp h
    cases h
    obtain rfl : i.widen j = k := Option.some.inj ((ValueType.kind?_orNullIf _ _).symm.trans hk)
    obtain ⟨hi', hj'⟩ := isIntegral_of_widen hi
    rw [coerce_of_integral ha hi' hi] at hn
    rw [coerce_of_integral hb hj' hi] at hq
    cases hn
    cases hq
    have hle : j.precision ≤ (i.widen j).precision := NumericKind.widen_comm j i ▸ j.precision_le_widen i
    exact ⟨rfl, rfl, .inr ⟨i, ha, hi', i.precision_le_widen j⟩, .inr ⟨j, hb, hj', hle⟩⟩

theorem conditional_integral (h : conditional c a b location = .ok t) (hk : t.type.kind? = some k)
    (hi : k.isIntegral) : a.type.Below k ∧ b.type.Below k ∧
      ∀ r, t.node.valueOn r = a.node.valueOn r ∨ t.node.valueOn r = b.node.valueOn r := by
  unfold conditional at h
  obtain ⟨m, hm, h⟩ := bind_eq_ok.mp h
  cases h
  obtain ⟨hleft, hright, ha, hb⟩ := unify_integral hm hk hi
  refine ⟨ha, hb, fun r => ?_⟩
  rw [Typed.node, Node.valueOn_conditional, hleft, hright]
  split
  · exact .inl rfl
  · exact .inr rfl

def FromTip (s : Scope) (r : Record) (e : Expr) (k : NumericKind) (v : Value) : Prop :=
  v = .null ∨ ∃ n, v = .int n ∧ ∃ d ∈ e.tips, ∃ j, j.precision ≤ k.precision ∧ d.ComesTo s r j n

theorem FromTip.mono {e d : Expr} {v : Value} (h : FromTip s r e j v) (hle : j.precision ≤ k.precision)
    (htips : e.tips ⊆ d.tips) : FromTip s r d k v := by
  obtain h | ⟨n, hn, b, hb, i, hi, hcomes⟩ := h
  · exact .inl h
  · exact .inr ⟨n, hn, b, htips hb, i, Nat.le_trans hi hle, hcomes⟩

theorem fromTip_self (hr : r.Built C) (hm : r.model = s.model) (hshort : r.Short) {e : Expr}
    (he : ¬ e.IsConditional) (h : lower s e = .ok t) (hk : t.type.kind? = some k) (hi : k.isIntegral) :
    FromTip s r e k (t.node.valueOn r) := by
  obtain hv | ⟨n, hv, hn⟩ := lower_bounded hr hm hshort he h k hk hi
  · exact .inl hv
  · rw [FromTip, Expr.tips_eq he]
    exact .inr ⟨n, hv, e, .head _, k, Nat.le_refl _, t, h, hk, hi, hv, hn⟩

/-- An integer comes from a part that is no conditional, through branches that are passed on as they are, by induction
on the branches. -/
theorem lower_fromTip (hr : r.Built C) (hm : r.model = s.model) (hshort : r.Short) :
    ∀ {e : Expr} {t : Typed} {k : NumericKind}, lower s e = .ok t → t.type.kind? = some k → k.isIntegral →
      FromTip s r e k (t.node.valueOn r)
  | .conditional x y z l, t, k, h, hk, hi => by
    obtain ⟨u, v, w, -, hv, hw, h⟩ := lower_conditional h
    obtain ⟨hbv, hbw, hvalue⟩ := conditional_integral h hk hi
    -- What a branch comes to, the conditional may come to.
    have hbranch : ∀ {e : Expr} {q : Typed}, lower s e = .ok q → q.type.Below k →
        (∀ j, q.type.kind? = some j → j.isIntegral → FromTip s r e j (q.node.valueOn r)) →
        e.tips ⊆ (Expr.conditional x y z l).tips → FromTip s r (.conditional x y z l) k (q.node.valueOn r) := by
      intro e q hq hbelow hfrom htips
      obtain hnull | ⟨j, hj, hji, hle⟩ := hbelow
      · exact .inl ((lower_good hr.sound.2 hm hq).fits.eq_null (ValueType.shape_of_underlying hnull))
      · exact (hfrom j hj hji).mono hle htips
    obtain hy | hz := hvalue r
    · rw [hy]
      exact hbranch hv hbv (fun _ => lower_fromTip hr hm hshort hv) (List.subset_append_left _ _)
    · rw [hz]
      exact hbranch hw hbw (fun _ => lower_fromTip hr hm hshort hw) (List.subset_append_right _ _)
  | .literal .., t, k, h, hk, hi | .field .., t, k, h, hk, hi | .call .., t, k, h, hk, hi | .unary .., t, k, h, hk, hi
  | .binary .., t, k, h, hk, hi => fromTip_self hr hm hshort id h hk hi

end Lowering

theorem Record.short_of_scalars {m : Model} {values : List Value}
    (h : ∀ v ∈ values, v.IsScalar ∧ v.size < twoTo 31) : Record.Short ⟨m, values⟩ := by
  intro v hv
  cases hv with
  | self => exact Nat.two_pow_pos 31
  | @field _ _ w hw hv =>
    obtain ⟨⟨harray, hrecord⟩, hsize⟩ := h w hw
    cases hv with
    | self => exact hsize
    | item => exact absurd rfl harray
    | field => exact absurd rfl hrecord

/-- **Integers are within the bounds of their types.** When an expression compiles, every part of it of an integral kind
comes to null or to an integer of the kind, on every record of the model, but for one case: a conditional of an unsigned
kind passes on a negative number from a branch of a signed kind that has it. -/
theorem Predicate.integral_within {C : Catalogue} {s : Scope} {e : Expr} {source : String} {p : Predicate} {r : Record}
    (hs : C.Has s.model) (hp : s.compileTree e source = .ok p) (hr : r.Built C) (hm : r.model.id = s.model.id)
    (hshort : r.Short) : ∀ d ∈ e.parts, ∃ t, Lowering.lower s d = .ok t ∧ ∀ k, t.type.kind? = some k → k.isIntegral →
      t.node.valueOn r = .null ∨ ∃ n, t.node.valueOn r = .int n ∧
        (k.fits n ∨ n < 0 ∧ ¬ k.isSigned ∧ d.IsConditional ∧ ∃ b ∈ d.tips, ∃ j, j.isSigned ∧ b.ComesTo s r j n) := by
  obtain ⟨hhas, hsound⟩ := hr.sound
  have hmodel := C.unique hhas hs hm
  obtain ⟨root, hroot⟩ := Scope.lower_of_compileTree hp
  intro d hd
  obtain ⟨t, ht⟩ := Lowering.lower_parts hroot d hd
  refine ⟨t, ht, fun k hk hi => ?_⟩
  by_cases hconditional : d.IsConditional
  · obtain hv | ⟨n, hv, b, hb, j, hle, hcomes⟩ := Lowering.lower_fromTip hr hmodel hshort ht hk hi
    · exact .inl hv
    obtain ⟨u, hu, huj, hj, hvalue, hn⟩ := hcomes
    refine .inr ⟨n, hv, ?_⟩
    obtain hfits | ⟨hneg, hsigned, hunsigned⟩ := NumericKind.fits_of_precision_le hj hi hle hn
    · exact .inl hfits
    · exact .inr ⟨hneg, hunsigned, hconditional, b, hb, j, hsigned, u, hu, huj, hj, hvalue, hn⟩
  · obtain hv | ⟨n, hv, hn⟩ := Lowering.lower_bounded hr hmodel hshort hconditional ht k hk hi
    · exact .inl hv
    · exact .inr ⟨n, hv, .inl hn⟩

/-- A conditional of a signed and an unsigned branch has the unsigned kind, and passes on the number of the signed. -/
theorem Predicate.integral_within_branch :
    let m : Model := ⟨0, "Mixed", [⟨"B", .bool, none⟩, ⟨"I", .number .i32, none⟩, ⟨"U", .number .u32, none⟩]⟩
    let s : Scope := ⟨m, .empty, .sensitive⟩
    let d : Expr := .conditional (.field ["B"] ⟨1, 2⟩) (.field ["I"] ⟨1, 6⟩) (.field ["U"] ⟨1, 10⟩) ⟨1, 4⟩
    let e : Expr := .binary (.relation .equal) d (.field ["I"] ⟨1, 16⟩) ⟨1, 13⟩
    let r : Record := ⟨m, [.bool true, .int (-1), .int 0]⟩
    ∃ p, s.compileTree e "(B ? I : U) == I" = .ok p ∧ Record.ofValues m [.bool true, .int (-1), .int 0] = .ok r ∧
      r.Short ∧ ∃ t, Lowering.lower s d = .ok t ∧ t.type.kind? = some .u32 ∧ t.node.valueOn r = .int (-1) ∧
        ∃ b ∈ d.tips, ∃ j, j.isSigned ∧ b.ComesTo s r j (-1) := by
  intro m s d e r
  let C : Catalogue :=
    { Has := fun n => n = m
      unique := fun hm hn _ => hm.trans hn.symm
      nested := by
        intro n hn f hf k hk
        subst hn
        simp only [m, List.mem_cons, List.not_mem_nil, or_false] at hf
        obtain rfl | rfl | rfl := hf <;> cases hk }
  have hp : s.compileTree e "(B ? I : U) == I" = .ok _ := rfl
  have hvalues : Record.ofValues m [.bool true, .int (-1), .int 0] = .ok r := rfl
  have hbuilt : r.Built C := by
    refine .ofValues rfl (fun v hv q hq => ?_) hvalues
    simp only [List.mem_cons, List.not_mem_nil, or_false] at hv
    obtain rfl | rfl | rfl := hv <;> cases hq
  have hshort : r.Short := by
    refine Record.short_of_scalars fun v hv => ?_
    simp only [List.mem_cons, List.not_mem_nil, or_false] at hv
    obtain rfl | rfl | rfl := hv <;> exact ⟨⟨nofun, nofun⟩, by decide⟩
  have hd : d ∈ e.parts := .tail _ (List.mem_append_left _ (.head _))
  obtain ⟨t, ht, hwithin⟩ := Predicate.integral_within rfl hp hbuilt rfl hshort d hd
  have hlower : Lowering.lower s d = .ok _ := rfl
  obtain rfl := Except.ok.inj (hlower.symm.trans ht)
  obtain hnull | ⟨n, hn, hfits | ⟨-, -, -, hbranch⟩⟩ := hwithin .u32 rfl rfl
  · cases hnull
  · cases hn
    cases hfits
  · cases hn
    exact ⟨_, hp, hvalues, hshort, _, ht, rfl, rfl, hbranch⟩

/-- `(B ? I : U) < 0` holds, although the conditional has an unsigned kind. -/
theorem Predicate.conditional_below_bounds :
    let m : Model := ⟨0, "Mixed", [⟨"B", .bool, none⟩, ⟨"I", .number .i32, none⟩, ⟨"U", .number .u32, none⟩]⟩
    let s : Scope := ⟨m, .empty, .sensitive⟩
    let d : Expr := .conditional (.field ["B"] ⟨1, 2⟩) (.field ["I"] ⟨1, 6⟩) (.field ["U"] ⟨1, 10⟩) ⟨1, 4⟩
    let e : Expr := .binary (.relation .less) d (.literal (.number 0 "0") ⟨1, 15⟩) ⟨1, 13⟩
    let r : Record := ⟨m, [.bool true, .int (-1), .int 0]⟩
    ∃ p t, s.compileTree e "(B ? I : U) < 0" = .ok p ∧ Record.ofValues m [.bool true, .int (-1), .int 0] = .ok r ∧
      r.Short ∧ d ∈ e.parts ∧ Lowering.lower s d = .ok t ∧ t.type.kind? = some .u32 ∧
      t.node.valueOn r = .int (-1) ∧ ¬ (t.node.valueOn r).Within .u32 ∧ p.holds r := by
  intro m s d e r
  have hshort : r.Short := by
    refine Record.short_of_scalars fun v hv => ?_
    simp only [List.mem_cons, List.not_mem_nil, or_false] at hv
    obtain rfl | rfl | rfl := hv <;> exact ⟨⟨nofun, nofun⟩, by decide⟩
  have hd : d ∈ e.parts := .tail _ (List.mem_append_left _ (.head _))
  refine ⟨_, _, rfl, rfl, hshort, hd, rfl, rfl, rfl, ?_, rfl⟩
  intro h
  obtain h | ⟨n, hn, hfits⟩ := h
  · cases h
  · cases hn
    cases hfits

end RecordLogic
