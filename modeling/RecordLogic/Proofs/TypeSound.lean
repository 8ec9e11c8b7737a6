import RecordLogic.Predicate.Basic
import RecordLogic.Proofs.Evaluation
import RecordLogic.Proofs.RecordSound

/-!
# Soundness of types

Evaluation never looks at types. It need not: whatever a part of an expression was lowered to gives null or a value
of the shape that the type of the part asks for, and every operator meets operands that it has an answer for.
-/

namespace RecordLogic

namespace Node

/-- The operands of the node, if it has an operator, are of the sorts that the operator is for. -/
def Regular (r : Record) : Node → Prop
  | .relate c a b =>
    a.valueOn r = .null ∨ b.valueOn r = .null ∨
      (a.valueOn r).shape = (b.valueOn r).shape ∧ (c.isOrder → (a.valueOn r).isComparable (b.valueOn r))
  | .operate o k a b =>
    (a.valueOn r).Fits (.number k) ∧ (b.valueOn r).Fits (.number k) ∧
      (a.valueOn r = .null ∨ b.valueOn r = .null ∨ (a.valueOn r).computes o (b.valueOn r) ∨
        (o = .divide ∨ o = .modulo) ∧ b.valueOn r = .int 0)
  | .operateOnTimes o a b =>
    a.valueOn r = .null ∨ b.valueOn r = .null ∨ Value.computesOnTimes o (a.valueOn r) (b.valueOn r)
  | .negate k a => a.valueOn r = .null ∨ (a.valueOn r).hasNegative k
  | _ => True

def AllRegular (r : Record) (n : Node) : Prop := ∀ p ∈ n.parts, p.Regular r

section
variable {r : Record} {a b c : Node}

theorem allRegular_of_leaf (hp : a.parts = [a]) (ha : a.Regular r) : a.AllRegular r := by
  intro p h
  rw [hp] at h
  obtain rfl := List.mem_singleton.mp h
  exact ha

theorem allRegular_of_one (hp : a.parts = a :: b.parts) (ha : a.Regular r) (hb : b.AllRegular r) :
    a.AllRegular r := by
  intro p h
  rw [hp] at h
  rcases List.mem_cons.mp h with rfl | h
  · exact ha
  · exact hb p h

theorem allRegular_of_two (hp : a.parts = a :: (b.parts ++ c.parts)) (ha : a.Regular r) (hb : b.AllRegular r)
    (hc : c.AllRegular r) : a.AllRegular r := by
  intro p h
  rw [hp] at h
  rcases List.mem_cons.mp h with rfl | h
  · exact ha
  · rcases List.mem_append.mp h with h | h
    · exact hb p h
    · exact hc p h

theorem allRegular_conditional (ha : a.AllRegular r) (hb : b.AllRegular r) (hc : c.AllRegular r) :
    (Node.conditional a b c).AllRegular r := by
  intro p h
  rw [parts] at h
  rcases List.mem_cons.mp h with rfl | h
  · exact trivial
  · rcases List.mem_append.mp h with h | h
    · exact ha p h
    · rcases List.mem_append.mp h with h | h
      · exact hb p h
      · exact hc p h

theorem allRegular_call {s : Signature} {args : List Node} (h : ∀ a ∈ args, a.AllRegular r) :
    (Node.call s args).AllRegular r := by
  intro p hp
  rw [parts] at hp
  rcases List.mem_cons.mp hp with rfl | hp
  · exact trivial
  · obtain ⟨a, ha, hp⟩ := mem_partsOfAll.mp hp
    exact h a ha p hp

end

end Node

/-! ## Operands that fit -/

namespace Value

variable {x y : Value} {t : ValueType} {k : NumericKind}

theorem number_cases (hx : x.shape = k.shape) (hy : y.shape = k.shape) : (∃ m n, x = .int m ∧ y = .int n) ∨
    (∃ f g, x = .float f ∧ y = .float g) ∨ ∃ d e, x = .decimal d ∧ y = .decimal e := by
  rcases k.isIntegral_or_isFloating_or_eq with hk | hk | rfl
  · rw [NumericKind.shape_of_isIntegral hk] at hx hy
    obtain ⟨m, rfl⟩ := shape_eq_int.mp hx
    obtain ⟨n, rfl⟩ := shape_eq_int.mp hy
    exact .inl ⟨m, n, rfl, rfl⟩
  · rw [NumericKind.shape_of_isFloating hk] at hx hy
    obtain ⟨f, rfl⟩ := shape_eq_float.mp hx
    obtain ⟨g, rfl⟩ := shape_eq_float.mp hy
    exact .inr (.inl ⟨f, g, rfl, rfl⟩)
  · obtain ⟨d, rfl⟩ := shape_eq_decimal.mp hx
    obtain ⟨e, rfl⟩ := shape_eq_decimal.mp hy
    exact .inr (.inr ⟨d, e, rfl, rfl⟩)

theorem isComparable_of_fits (hx : x.Fits t) (hy : y.Fits t) (ht : t.isOrdered) :
    x = .null ∨ y = .null ∨ x.isComparable y := by
  obtain rfl | hx := hx
  · exact .inl rfl
  obtain rfl | hy := hy
  · exact .inr (.inl rfl)
  unfold ValueType.isOrdered at ht
  rw [← ValueType.coarse?_underlying] at ht
  rw [← ValueType.shape_underlying] at hx hy
  have hnot := t.underlying_ne_nullable
  generalize t.underlying = u at ht hx hy hnot
  cases u with
  | null => exact .inl (shape_eq_null.mp hx)
  | dateTime =>
    obtain ⟨_, rfl⟩ := shape_eq_dateTime.mp hx
    obtain ⟨_, rfl⟩ := shape_eq_dateTime.mp hy
    exact .inr (.inr rfl)
  | timeSpan =>
    obtain ⟨_, rfl⟩ := shape_eq_timeSpan.mp hx
    obtain ⟨_, rfl⟩ := shape_eq_timeSpan.mp hy
    exact .inr (.inr rfl)
  | number k =>
    rcases number_cases hx hy with ⟨_, _, rfl, rfl⟩ | ⟨_, _, rfl, rfl⟩ | ⟨_, _, rfl, rfl⟩ <;> exact .inr (.inr rfl)
  | nullable u => exact absurd rfl (hnot u)
  | _ => cases ht

theorem computes_of_fits (o : Operation) (hx : x.Fits (.number k)) (hy : y.Fits (.number k)) :
    x = .null ∨ y = .null ∨ x.computes o y ∨ (o = .divide ∨ o = .modulo) ∧ y = .int 0 := by
  obtain rfl | hx := hx
  · exact .inl rfl
  obtain rfl | hy := hy
  · exact .inr (.inl rfl)
  refine .inr (.inr ?_)
  rcases number_cases hx hy with ⟨m, n, rfl, rfl⟩ | ⟨_, _, rfl, rfl⟩ | ⟨_, _, rfl, rfl⟩
  · by_cases hn : n = 0
    · subst hn
      cases o <;> simp [computes]
    · left
      simp [computes, hn]
  · exact .inl rfl
  · exact .inl rfl

end Value

/-! ## What each way of lowering keeps -/

structure Typed.Good (r : Record) (t : Typed) : Prop where
  fits : (t.node.valueOn r).Fits t.type
  regular : t.node.AllRegular r

namespace Lowering

variable {r : Record} {s : Scope} {t a b : Typed} {location : Location}

theorem good_const {v : Value} {type : ValueType} (h : v.Fits type) : (Typed.part (.const v) type).Good r where
  fits := by
    show ((Node.const v).valueOn r).Fits type
    rwa [Node.valueOn_const]
  regular := Node.allRegular_of_leaf rfl trivial

theorem good_numeral {n : Numeral} (h : n.value.shape = n.kind.shape) : (Typed.numeral n).Good r where
  fits := by
    show ((Node.const n.value).valueOn r).Fits _
    rw [Node.valueOn_const]
    exact .inr h
  regular := Node.allRegular_of_leaf rfl trivial

theorem shape_of_ofLiteral? {n : Int} {k : NumericKind} (h : NumericKind.ofLiteral? n = some k) : k.shape = .int := by
  have hk := List.mem_of_find?_eq_some h
  simp only [List.mem_cons, List.not_mem_nil, or_false] at hk
  rcases hk with rfl | rfl | rfl <;> rfl

theorem good_whole {n : Int} {k : NumericKind} {text : String} (h : NumericKind.ofLiteral? n = some k) :
    (Typed.numeral ⟨text, location, .whole n k⟩).Good r :=
  good_numeral (shape_of_ofLiteral? h).symm

theorem good_double {f : Float} {text : String} : (Typed.numeral ⟨text, location, .double f⟩).Good r :=
  good_numeral rfl

theorem ofLiteral_good (f : Float) (text : String) : (Typed.numeral (.ofLiteral f text location)).Good r := by
  unfold Numeral.ofLiteral
  cases hn : Number.natural? text.toList with
  | none => exact good_double
  | some n =>
    simp only [Option.pure_def, Option.bind_eq_bind, Option.bind_some]
    cases hk : NumericKind.ofLiteral? (n : Int) with
    | none => exact good_double
    | some k => exact good_whole hk

theorem negated_good {n m : Numeral} (h : n.negated? = some m) : (Typed.numeral m).Good r := by
  unfold Numeral.negated? at h
  split at h
  · obtain ⟨k, hk, rfl⟩ := Option.map_eq_some_iff.mp h
    exact good_whole hk
  · cases h
    exact good_double

theorem literal_good (v : Literal) : (literal v location).Good r := by
  cases v with
  | bool b => exact good_const (.inr rfl)
  | string text => exact good_const (.inr rfl)
  | null => exact good_const (.inr rfl)
  | number f text => exact ofLiteral_good f text

theorem member_good {path : List String} (h : member? s path = some t) : t.Good r := by
  unfold member? at h
  obtain ⟨member, -, h⟩ := Option.bind_eq_some_iff.mp h
  split at h
  · cases h
  obtain ⟨e, -, h⟩ := Option.bind_eq_some_iff.mp h
  obtain ⟨n, -, h⟩ := Option.bind_eq_some_iff.mp h
  cases h
  exact good_const (.inr rfl)

theorem field_good {path : List String} (hr : r.Sound) (hm : r.model = s.model)
    (h : field s path location = .ok t) : t.Good r := by
  unfold field at h
  rw [← hm] at h
  split at h
  · rename_i q hq
    cases h
    refine ⟨?_, Node.allRegular_of_leaf rfl trivial⟩
    show ((Node.field _ q.steps).valueOn r).Fits q.type
    rw [Node.valueOn_field]
    exact hr.follow hq
  · split at h
    · rename_i u hu
      cases h
      exact member_good hu
    · cases h

theorem call_good {name : String} {args : List Typed} (hargs : ∀ u ∈ args, u.Good r)
    (h : call s name args location = .ok t) : t.Good r := by
  unfold call at h
  dsimp only at h
  split at h
  · rename_i f hf
    cases h
    refine ⟨?_, ?_⟩
    · show ((Node.call f _).valueOn r).Fits f.returns
      rw [Node.valueOn_call]
      exact f.result_fits _
    · refine Node.allRegular_call fun n hn => ?_
      obtain ⟨u, hu, rfl⟩ := List.mem_map.mp hn
      exact (hargs u hu).regular
  · split at h <;> cases h

/-! ### Numbers -/

def Widens (t : ValueType) (k : NumericKind) : Prop :=
  t.underlying = .null ∨ ∃ j, t.underlying = .number j ∧ (k.isIntegral → j.isIntegral)

theorem convert_good {n : Node} {type : ValueType} {k : NumericKind} (hfits : (n.valueOn r).Fits type)
    (hreg : n.AllRegular r) (hk : Widens type k) :
    ((Node.convert k n).valueOn r).Fits (.number k) ∧ (Node.convert k n).AllRegular r := by
  refine ⟨?_, Node.allRegular_of_one rfl trivial hreg⟩
  rw [Node.valueOn_convert]
  obtain hnull | ⟨j, hj, hjk⟩ := hk
  · rw [hfits.eq_null (ValueType.shape_of_underlying hnull)]
    exact Value.fits_null _
  · exact Value.convert_fits (hfits.congr (ValueType.shape_of_underlying hj)) hjk

theorem shape_of_given {k : NumericKind} (hk : Widens t.type k)
    (h : t.type.kind? = some k ∨ (t.type.kind?.any NumericKind.isIntegral ∧ k.isIntegral)) :
    t.type.shape = (ValueType.number k).shape := by
  unfold ValueType.kind? at h
  obtain hnull | ⟨j, hj, -⟩ := hk
  · rw [hnull] at h
    obtain h | ⟨h, -⟩ := h <;> cases h
  · rw [ValueType.shape_of_underlying hj]
    rw [hj] at h
    obtain h | ⟨hji, hki⟩ := h
    · cases h
      rfl
    · exact (NumericKind.shape_of_isIntegral hji).trans (NumericKind.shape_of_isIntegral hki).symm

theorem coerce_good {k : NumericKind} {n : Node} (ht : t.Good r) (hk : Widens t.type k) (h : coerce t k = .ok n) :
    (n.valueOn r).Fits (.number k) ∧ n.AllRegular r := by
  unfold coerce at h
  dsimp only at h
  split at h
  -- The node stays as it is: one kind already, or two integral kinds with one representation.
  · rename_i hgiven
    cases h
    exact ⟨ht.fits.congr (shape_of_given hk hgiven), ht.regular⟩
  split at h
  · cases h
    exact convert_good ht.fits ht.regular hk
  rename_i m _
  split at h
  · rename_i hd
    subst hd
    split at h
    · cases h
      exact ⟨.inr (by rw [Node.valueOn_const]; rfl), Node.allRegular_of_leaf rfl trivial⟩
    · cases h
  split at h
  · cases h
    refine ⟨?_, Node.allRegular_of_leaf rfl trivial⟩
    have hconv := (convert_good ht.fits ht.regular hk).1
    rw [Node.valueOn_convert] at hconv
    rw [Node.valueOn_const]
    have hm : (Typed.numeral m).node.valueOn r = m.value := Node.valueOn_const r m.value
    rwa [hm] at hconv
  · cases h
    exact convert_good ht.fits ht.regular hk

theorem isIntegral_of_widen {j k : NumericKind} (h : (j.widen k).isIntegral) : j.isIntegral ∧ k.isIntegral := by
  cases j <;> cases k <;> first | exact ⟨rfl, rfl⟩ | cases h

theorem isIntegral_of_promote {k : NumericKind} (h : k.promote.isIntegral) : k.isIntegral := by
  cases k <;> first | rfl | cases h

theorem isIntegral_of_negationKind {k : NumericKind} (h : (negationKind k).isIntegral) : k.isIntegral := by
  cases k <;> first | rfl | cases h

/-! ### Minus signs -/

theorem negateNumber_good {k : NumericKind} (ht : t.Good r) (hk : t.type.underlying = .number k)
    (h : negateNumber t k = .ok a) : a.Good r := by
  unfold negateNumber at h
  obtain ⟨n, hn, h⟩ := bind_eq_ok.mp h
  cases h
  obtain ⟨hfits, hreg⟩ := coerce_good ht (.inr ⟨k, hk, isIntegral_of_negationKind⟩) hn
  refine ⟨?_, ?_⟩
  · show ((Node.negate _ n).valueOn r).Fits (ValueType.orNullIf _ _)
    rw [Node.valueOn_negate]
    exact (Value.negate_fits hfits).congr (ValueType.shape_orNullIf _ _).symm
  · refine Node.allRegular_of_one rfl ?_ hreg
    obtain hv | ⟨m, hv, -⟩ | ⟨f, hv, -⟩ | ⟨d, hv, -⟩ := hfits.number
    · exact .inl hv
    all_goals
      right
      rw [hv]
      rfl

theorem negate_good (ht : t.Good r) (h : negate t location = .ok a) : a.Good r := by
  unfold negate at h
  split at h
  · rename_i k hk
    split at h
    · split at h
      · rename_i m hm
        cases h
        exact negated_good hm
      · exact negateNumber_good ht hk h
    · exact negateNumber_good ht hk h
  · rename_i hspan
    cases h
    have hfits := ht.fits.congr (ValueType.shape_of_underlying hspan)
    refine ⟨?_, ?_⟩
    · show ((Node.negate none t.node).valueOn r).Fits (ValueType.orNullIf _ _)
      rw [Node.valueOn_negate]
      exact (Value.negate_fits_timeSpan hfits).congr (ValueType.shape_orNullIf _ _).symm
    · refine Node.allRegular_of_one rfl ?_ ht.regular
      obtain hv | hv := hfits
      · exact .inl hv
      · obtain ⟨d, hd⟩ := Value.shape_eq_timeSpan.mp hv
        right
        rw [hd]
        rfl
  · cases h

theorem unary_good {op : UnaryOp} (ht : t.Good r) (h : unary op t location = .ok a) : a.Good r := by
  cases op with
  | negate => exact negate_good ht h
  | not =>
    unfold unary at h
    dsimp only at h
    split at h <;> cases h
    refine ⟨?_, ?_⟩
    · show ((Node.not t.node).valueOn r).Fits (ValueType.orNullIf _ _)
      rw [Node.valueOn_not]
      exact (Value.complement_fits _).congr (ValueType.shape_orNullIf _ _).symm
    · exact Node.allRegular_of_one rfl trivial ht.regular

/-! ### Meetings -/

structure Meeting.Good (r : Record) (m : Meeting) : Prop where
  left : (m.left.valueOn r).Fits m.type
  right : (m.right.valueOn r).Fits m.type
  leftRegular : m.left.AllRegular r
  rightRegular : m.right.AllRegular r

theorem shape_eq_of_coarse {t u : ValueType} (h : t.underlying.coarse? = u.underlying.coarse?)
    (hn : ∀ j k, t.underlying = .number j → u.underlying = .number k → False) :
    t.underlying.shape = u.underlying.shape := by
  have ht := t.underlying_ne_nullable
  have hu := u.underlying_ne_nullable
  generalize t.underlying = t' at *
  generalize u.underlying = u' at *
  cases t' <;> cases u' <;> simp_all [ValueType.coarse?, ValueType.shape]

theorem unify_good {symbol : String} {m : Meeting} (ha : a.Good r) (hb : b.Good r)
    (h : unify symbol a b location = .ok m) : m.Good r := by
  unfold unify at h
  dsimp only at h
  split at h
  · rename_i hta htb
    cases h
    exact ⟨ha.fits.congr (ValueType.shape_of_underlying hta), hb.fits.congr (ValueType.shape_of_underlying htb),
      ha.regular, hb.regular⟩
  · rename_i hta _
    cases h
    have hnull := ha.fits.eq_null (ValueType.shape_of_underlying hta)
    have htype : b.type.shape = b.type.underlying.orNull.shape := by simp
    exact ⟨hnull ▸ Value.fits_null _, hb.fits.congr htype, ha.regular, hb.regular⟩
  · rename_i htb _
    cases h
    have hnull := hb.fits.eq_null (ValueType.shape_of_underlying htb)
    have htype : a.type.shape = a.type.underlying.orNull.shape := by simp
    exact ⟨ha.fits.congr htype, hnull ▸ Value.fits_null _, ha.regular, hb.regular⟩
  · rename_i j k hta htb
    obtain ⟨n, hn, h⟩ := bind_eq_ok.mp h
    obtain ⟨p, hp, h⟩ := bind_eq_ok.mp h
    cases h
    obtain ⟨hnfits, hnreg⟩ := coerce_good ha (.inr ⟨j, hta, fun hi => (isIntegral_of_widen hi).1⟩) hn
    obtain ⟨hpfits, hpreg⟩ := coerce_good hb (.inr ⟨k, htb, fun hi => (isIntegral_of_widen hi).2⟩) hp
    have htype := (ValueType.shape_orNullIf (a.type.isNullable || b.type.isNullable) (.number (j.widen k))).symm
    exact ⟨hnfits.congr htype, hpfits.congr htype, hnreg, hpreg⟩
  · rename_i e f hta htb
    split at h <;> cases h
    rename_i hef
    subst hef
    have htype := (ValueType.shape_orNullIf (a.type.isNullable || b.type.isNullable) (.enum e)).symm
    exact ⟨ha.fits.congr ((ValueType.shape_of_underlying hta).trans htype),
      hb.fits.congr ((ValueType.shape_of_underlying htb).trans htype), ha.regular, hb.regular⟩
  · rename_i hnumbers _
    split at h <;> cases h
    rename_i hcoarse
    -- Two numbers of different kinds have one coarse type but two shapes; they met above.
    have hshape := shape_eq_of_coarse hcoarse hnumbers
    rw [ValueType.shape_underlying, ValueType.shape_underlying] at hshape
    have htype : a.type.shape = (a.type.underlying.orNullIf (a.type.isNullable || b.type.isNullable)).shape := by simp
    exact ⟨ha.fits.congr htype, hb.fits.congr (hshape.symm.trans htype), ha.regular, hb.regular⟩

theorem relation_good {c : Relation} (ha : a.Good r) (hb : b.Good r) (h : relation c a b location = .ok t) :
    t.Good r := by
  unfold relation at h
  obtain ⟨m, hm, h⟩ := bind_eq_ok.mp h
  have hgood := unify_good ha hb hm
  split at h
  · cases h
  rename_i hc
  cases h
  refine ⟨?_, ?_⟩
  · show ((Node.relate c m.left m.right).valueOn r).Fits .bool
    rw [Node.valueOn_relate]
    exact .inr rfl
  · refine Node.allRegular_of_two rfl ?_ hgood.leftRegular hgood.rightRegular
    show _ ∨ _ ∨ _
    by_cases horder : c.isOrder
    · have hordered : m.type.isOrdered := by simpa [horder] using hc
      obtain hn | hn | hcmp := Value.isComparable_of_fits hgood.left hgood.right hordered
      · exact .inl hn
      · exact .inr (.inl hn)
      · obtain hn | hn | hshape := hgood.left.same hgood.right
        · exact .inl hn
        · exact .inr (.inl hn)
        · exact .inr (.inr ⟨hshape, fun _ => hcmp⟩)
    · obtain hn | hn | hshape := hgood.left.same hgood.right
      · exact .inl hn
      · exact .inr (.inl hn)
      · exact .inr (.inr ⟨hshape, fun ho => absurd ho horder⟩)

theorem conditional_good {c : Typed} (hc : c.Good r) (ha : a.Good r) (hb : b.Good r)
    (h : conditional c a b location = .ok t) : t.Good r := by
  unfold conditional at h
  obtain ⟨m, hm, h⟩ := bind_eq_ok.mp h
  have hgood := unify_good ha hb hm
  cases h
  refine ⟨?_, ?_⟩
  · show ((Node.conditional c.node m.left m.right).valueOn r).Fits m.type
    rw [Node.valueOn_conditional]
    split
    · exact hgood.left
    · exact hgood.right
  · exact Node.allRegular_conditional hc.regular hgood.leftRegular hgood.rightRegular

theorem logical_good {op : BinaryOp} {make : Node → Node → Node} (ha : a.Good r) (hb : b.Good r)
    (hmake : make = .and ∨ make = .or) (h : logical op make a b location = .ok t) : t.Good r := by
  unfold logical at h
  split at h <;> cases h
  obtain rfl | rfl := hmake
  · refine ⟨?_, ?_⟩
    · show ((Node.and a.node b.node).valueOn r).Fits .bool
      rw [Node.valueOn_and]
      exact .inr rfl
    · exact Node.allRegular_of_two rfl trivial ha.regular hb.regular
  · refine ⟨?_, ?_⟩
    · show ((Node.or a.node b.node).valueOn r).Fits .bool
      rw [Node.valueOn_or]
      exact .inr rfl
    · exact Node.allRegular_of_two rfl trivial ha.regular hb.regular

/-! ### Sums and products -/

theorem textual_regular (ht : t.Good r) : (textual t).AllRegular r := by
  unfold textual
  split
  · exact Node.allRegular_of_one rfl trivial ht.regular
  · exact ht.regular

theorem widens_of_commonKind {u v : ValueType} {k : NumericKind} (h : commonKind? u v = some k) :
    Widens u k ∧ Widens v k := by
  unfold commonKind? at h
  split at h
  · rename_i i j hu hv
    cases h
    refine ⟨.inr ⟨i, hu, fun hi => ?_⟩, .inr ⟨j, hv, fun hi => ?_⟩⟩
    · exact (isIntegral_of_widen (isIntegral_of_promote hi)).1
    · exact (isIntegral_of_widen (isIntegral_of_promote hi)).2
  · rename_i j hu hv
    cases h
    exact ⟨.inr ⟨j, hu, isIntegral_of_promote⟩, .inl hv⟩
  · rename_i j hu hv
    cases h
    exact ⟨.inl hu, .inr ⟨j, hv, isIntegral_of_promote⟩⟩
  · cases h

theorem operate_good {o : Operation} {k : NumericKind} {n p : Node} {b : Bool}
    (hn : (n.valueOn r).Fits (.number k) ∧ n.AllRegular r) (hp : (p.valueOn r).Fits (.number k) ∧ p.AllRegular r) :
    (Typed.part (.operate o k n p) ((ValueType.number k).orNullIf b)).Good r := by
  refine ⟨?_, ?_⟩
  · show ((Node.operate o k n p).valueOn r).Fits (ValueType.orNullIf _ _)
    rw [Node.valueOn_operate]
    exact (Value.operate_fits o hn.1 hp.1).congr (ValueType.shape_orNullIf _ _).symm
  · refine Node.allRegular_of_two rfl ?_ hn.2 hp.2
    exact ⟨hn.1, hp.1, Value.computes_of_fits o hn.1 hp.1⟩

theorem onTimes_of_fits {o : Operation} {u v type : ValueType} {x y : Value} (h : timeType? o u v = some type)
    (hx : x.Fits u) (hy : y.Fits v) : (Value.operateOnTimes o x y).Fits type ∧
      (x = .null ∨ y = .null ∨ Value.computesOnTimes o x y) := by
  obtain rfl | hx := hx
  · refine ⟨?_, .inl rfl⟩
    rw [Value.operateOnTimes_of_not_computes (by cases o <;> rfl)]
    exact Value.fits_null _
  obtain rfl | hy := hy
  · refine ⟨?_, .inr (.inl rfl)⟩
    rw [Value.operateOnTimes_of_not_computes (by cases o <;> cases x <;> rfl)]
    exact Value.fits_null _
  unfold timeType? at h
  split at h
  case h_1 hu hv =>
    cases h
    obtain ⟨d, rfl⟩ := Value.shape_eq_dateTime.mp (hx.trans (ValueType.shape_of_underlying hu))
    obtain ⟨e, rfl⟩ := Value.shape_eq_dateTime.mp (hy.trans (ValueType.shape_of_underlying hv))
    exact ⟨.inr rfl, .inr (.inr rfl)⟩
  case h_2 hu hv =>
    cases h
    obtain ⟨d, rfl⟩ := Value.shape_eq_dateTime.mp (hx.trans (ValueType.shape_of_underlying hu))
    obtain ⟨e, rfl⟩ := Value.shape_eq_timeSpan.mp (hy.trans (ValueType.shape_of_underlying hv))
    exact ⟨Value.fits_getD (fun _ => rfl) (d.add e), .inr (.inr rfl)⟩
  case h_3 hu hv =>
    cases h
    obtain ⟨d, rfl⟩ := Value.shape_eq_dateTime.mp (hx.trans (ValueType.shape_of_underlying hu))
    obtain ⟨e, rfl⟩ := Value.shape_eq_timeSpan.mp (hy.trans (ValueType.shape_of_underlying hv))
    exact ⟨Value.fits_getD (fun _ => rfl) (d.sub e), .inr (.inr rfl)⟩
  case h_4 hu hv =>
    cases h
    obtain ⟨d, rfl⟩ := Value.shape_eq_timeSpan.mp (hx.trans (ValueType.shape_of_underlying hu))
    obtain ⟨e, rfl⟩ := Value.shape_eq_timeSpan.mp (hy.trans (ValueType.shape_of_underlying hv))
    exact ⟨Value.fits_getD (fun _ => rfl) (d.add e), .inr (.inr rfl)⟩
  case h_5 hu hv =>
    cases h
    obtain ⟨d, rfl⟩ := Value.shape_eq_timeSpan.mp (hx.trans (ValueType.shape_of_underlying hu))
    obtain ⟨e, rfl⟩ := Value.shape_eq_timeSpan.mp (hy.trans (ValueType.shape_of_underlying hv))
    exact ⟨Value.fits_getD (fun _ => rfl) (d.sub e), .inr (.inr rfl)⟩
  case h_6 => cases h

theorem operateOnTimes_good {o : Operation} {type : ValueType} {n : Bool} (ha : a.Good r) (hb : b.Good r)
    (h : timeType? o a.type b.type = some type) :
    (Typed.part (.operateOnTimes o a.node b.node) (type.orNullIf n)).Good r := by
  obtain ⟨hfits, hoperands⟩ := onTimes_of_fits h ha.fits hb.fits
  refine ⟨?_, ?_⟩
  · show ((Node.operateOnTimes o a.node b.node).valueOn r).Fits (ValueType.orNullIf _ _)
    rw [Node.valueOn_operateOnTimes]
    exact hfits.congr (ValueType.shape_orNullIf _ _).symm
  · exact Node.allRegular_of_two rfl hoperands ha.regular hb.regular

theorem operation_good {o : Operation} (ha : a.Good r) (hb : b.Good r) (h : operation o a b location = .ok t) :
    t.Good r := by
  unfold operation at h
  dsimp only at h
  split at h
  · cases h
    refine ⟨?_, ?_⟩
    · show ((Node.join (textual a) (textual b)).valueOn r).Fits .string
      rw [Node.valueOn_join]
      exact .inr rfl
    · exact Node.allRegular_of_two rfl trivial (textual_regular ha) (textual_regular hb)
  split at h
  · rename_i k hk
    obtain ⟨hwa, hwb⟩ := widens_of_commonKind hk
    obtain ⟨n, hn, h⟩ := bind_eq_ok.mp h
    obtain ⟨p, hp, h⟩ := bind_eq_ok.mp h
    cases h
    exact operate_good (coerce_good ha hwa hn) (coerce_good hb hwb hp)
  split at h
  · rename_i type htype
    cases h
    exact operateOnTimes_good ha hb htype
  · cases h

theorem binary_good {op : BinaryOp} (ha : a.Good r) (hb : b.Good r) (h : binary op a b location = .ok t) :
    t.Good r := by
  cases op with
  | and => exact logical_good ha hb (.inl rfl) h
  | or => exact logical_good ha hb (.inr rfl) h
  | relation c => exact relation_good ha hb h
  | operation o => exact operation_good ha hb h

mutual

/-- Every part of an expression is lowered to something good, by induction on the expression. -/
theorem lower_good (hr : r.Sound) (hm : r.model = s.model) : ∀ {e : Expr} {t : Typed}, lower s e = .ok t → t.Good r
  | .literal v l, t, h => by
    rw [lower] at h
    cases h
    exact literal_good v
  | .field path l, t, h => by
    rw [lower] at h
    exact field_good hr hm h
  | .call name args l, t, h => by
    rw [lower] at h
    obtain ⟨ts, hts, h⟩ := bind_eq_ok.mp h
    exact call_good (lowerAll_good hr hm hts) h
  | .unary op e l, t, h => by
    rw [lower] at h
    obtain ⟨u, hu, h⟩ := bind_eq_ok.mp h
    exact unary_good (lower_good hr hm hu) h
  | .binary op a b l, t, h => by
    rw [lower] at h
    obtain ⟨u, hu, h⟩ := bind_eq_ok.mp h
    obtain ⟨v, hv, h⟩ := bind_eq_ok.mp h
    exact binary_good (lower_good hr hm hu) (lower_good hr hm hv) h
  | .conditional c y n l, t, h => by
    rw [lower] at h
    obtain ⟨u, hu, h⟩ := bind_eq_ok.mp h
    split at h
    · obtain ⟨v, hv, h⟩ := bind_eq_ok.mp h
      obtain ⟨w, hw, h⟩ := bind_eq_ok.mp h
      exact conditional_good (lower_good hr hm hu) (lower_good hr hm hv) (lower_good hr hm hw) h
    · cases h

theorem lowerAll_good (hr : r.Sound) (hm : r.model = s.model) : ∀ {es : List Expr} {ts : List Typed},
    lowerAll s es = .ok ts → ∀ t ∈ ts, t.Good r
  | [], ts, h, t, ht => by
    rw [lowerAll] at h
    cases h
    cases ht
  | e :: es, ts, h, t, ht => by
    rw [lowerAll] at h
    obtain ⟨u, hu, h⟩ := bind_eq_ok.mp h
    obtain ⟨us, hus, h⟩ := bind_eq_ok.mp h
    cases h
    rcases List.mem_cons.mp ht with rfl | ht
    · exact lower_good hr hm hu
    · exact lowerAll_good hr hm hus t ht

end

mutual

theorem lower_parts : ∀ {e : Expr} {t : Typed}, lower s e = .ok t → ∀ d ∈ e.parts, ∃ u, lower s d = .ok u
  | .literal v l, t, h, d, hd => by
    rw [Expr.parts] at hd
    obtain rfl := List.mem_singleton.mp hd
    exact ⟨t, h⟩
  | .field path l, t, h, d, hd => by
    rw [Expr.parts] at hd
    obtain rfl := List.mem_singleton.mp hd
    exact ⟨t, h⟩
  | .call name args l, t, h, d, hd => by
    rw [Expr.parts] at hd
    rcases List.mem_cons.mp hd with rfl | hd
    · exact ⟨t, h⟩
    rw [lower] at h
    obtain ⟨ts, hts, -⟩ := bind_eq_ok.mp h
    exact lowerAll_parts hts d hd
  | .unary op e l, t, h, d, hd => by
    rw [Expr.parts] at hd
    rcases List.mem_cons.mp hd with rfl | hd
    · exact ⟨t, h⟩
    rw [lower] at h
    obtain ⟨u, hu, -⟩ := bind_eq_ok.mp h
    exact lower_parts hu d hd
  | .binary op a b l, t, h, d, hd => by
    rw [Expr.parts] at hd
    rcases List.mem_cons.mp hd with rfl | hd
    · exact ⟨t, h⟩
    rw [lower] at h
    obtain ⟨u, hu, h⟩ := bind_eq_ok.mp h
    obtain ⟨v, hv, -⟩ := bind_eq_ok.mp h
    rcases List.mem_append.mp hd with hd | hd
    · exact lower_parts hu d hd
    · exact lower_parts hv d hd
  | .conditional c y n l, t, h, d, hd => by
    rw [Expr.parts] at hd
    rcases List.mem_cons.mp hd with rfl | hd
    · exact ⟨t, h⟩
    rw [lower] at h
    obtain ⟨u, hu, h⟩ := bind_eq_ok.mp h
    split at h
    · obtain ⟨v, hv, h⟩ := bind_eq_ok.mp h
      obtain ⟨w, hw, -⟩ := bind_eq_ok.mp h
      rcases List.mem_append.mp hd with hd | hd
      · exact lower_parts hu d hd
      · rcases List.mem_append.mp hd with hd | hd
        · exact lower_parts hv d hd
        · exact lower_parts hw d hd
    · cases h

theorem lowerAll_parts : ∀ {es : List Expr} {ts : List Typed}, lowerAll s es = .ok ts →
    ∀ d ∈ Expr.partsOfAll es, ∃ u, lower s d = .ok u
  | [], _, _, d, hd => by
    rw [Expr.partsOfAll] at hd
    cases hd
  | e :: es, ts, h, d, hd => by
    rw [lowerAll] at h
    obtain ⟨u, hu, h⟩ := bind_eq_ok.mp h
    obtain ⟨us, hus, -⟩ := bind_eq_ok.mp h
    rw [Expr.partsOfAll] at hd
    rcases List.mem_append.mp hd with hd | hd
    · exact lower_parts hu d hd
    · exact lowerAll_parts hus d hd

end

end Lowering

/-- **Soundness of types.** When an expression compiles, every part of it gives null or a value of the shape that
its type asks for, on every record of the model, and every operator of the predicate finds operands that it has an
answer for, null operands and zero divisors apart. -/
theorem Predicate.well_typed {C : Catalogue} {s : Scope} {e : Expr} {source : String} {p : Predicate} {r : Record}
    (hs : C.Has s.model) (hp : s.compileTree e source = .ok p) (hr : r.Built C) (hm : r.model.id = s.model.id) :
    (∀ d ∈ e.parts, ∃ t, Lowering.lower s d = .ok t ∧ (t.node.valueOn r).Fits t.type) ∧
    (∃ t, Lowering.lower s e = .ok t ∧ p.root = t.node) ∧ ∀ n ∈ p.root.parts, n.Regular r := by
  obtain ⟨hhas, hsound⟩ := hr.sound
  have hmodel := C.unique hhas hs hm
  unfold Scope.compileTree at hp
  split at hp
  · cases hp
  rename_i t ht
  split at hp <;> cases hp
  refine ⟨fun d hd => ?_, ⟨t, ht, rfl⟩, (Lowering.lower_good hsound hmodel ht).regular⟩
  obtain ⟨u, hu⟩ := Lowering.lower_parts ht d hd
  exact ⟨u, hu, (Lowering.lower_good hsound hmodel hu).fits⟩

/-- `Age + Age > Age` for somebody of 30. -/
theorem Predicate.well_typed_age :
    let m : Model := ⟨0, "Person", [⟨"Age", .number .i32, none⟩]⟩
    let s : Scope := ⟨m, .empty, .sensitive⟩
    let age : Expr := .field ["Age"] .start
    let e : Expr := .binary (.relation .greater) (.binary (.operation .add) age age .start) age .start
    let r : Record := ⟨m, [.int 30]⟩
    ∃ p, s.compileTree e "Age + Age > Age" = .ok p ∧ Record.ofValues m [.int 30] = .ok r ∧
      (∀ d ∈ e.parts, ∃ t, Lowering.lower s d = .ok t ∧ (t.node.valueOn r).Fits t.type) ∧
      ∀ n ∈ p.root.parts, n.Regular r := by
  intro m s age e r
  let C : Catalogue :=
    { Has := fun n => n = m
      unique := fun hm hn _ => hm.trans hn.symm
      nested := by
        intro n hn f hf k hk
        subst hn
        obtain rfl := List.mem_singleton.mp hf
        cases hk }
  have hp : s.compileTree e "Age + Age > Age" = .ok _ := rfl
  have hr : Record.ofValues m [.int 30] = .ok r := rfl
  have hbuilt : r.Built C := by
    refine .ofValues rfl (fun v hv q hq => ?_) hr
    obtain rfl := List.mem_singleton.mp hv
    cases hq
  obtain ⟨hparts, -, hregular⟩ := Predicate.well_typed rfl hp hbuilt rfl
  exact ⟨_, hp, hr, hparts, hregular⟩

end RecordLogic
