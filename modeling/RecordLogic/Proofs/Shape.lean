import RecordLogic.Function.Signature
import RecordLogic.Predicate.Operation
import RecordLogic.Proofs.Outcome

/-!
# Shapes of values

Every value has a shape and every type asks for one. Whatever conforms to a type has the type's shape or is null,
and the operations keep to the shapes of their types.
-/

namespace RecordLogic

inductive Shape where
  | null | bool | int | float | decimal | string | dateTime | timeSpan | guid | enum | array | record
  deriving DecidableEq, Repr

def Value.shape : Value → Shape
  | .null => .null
  | .bool _ => .bool
  | .int _ => .int
  | .float _ => .float
  | .decimal _ => .decimal
  | .string _ => .string
  | .dateTime _ => .dateTime
  | .timeSpan _ => .timeSpan
  | .guid _ => .guid
  | .enum _ => .enum
  | .array _ => .array
  | .record _ => .record

def NumericKind.shape (k : NumericKind) : Shape :=
  if k.isIntegral then .int else if k.isFloating then .float else .decimal

def ValueType.shape : ValueType → Shape
  | .null => .null
  | .bool => .bool
  | .number k => k.shape
  | .string => .string
  | .dateTime => .dateTime
  | .timeSpan => .timeSpan
  | .guid => .guid
  | .enum _ => .enum
  | .array _ => .array
  | .model _ => .record
  | .nullable t => t.shape

def Value.Fits (v : Value) (t : ValueType) : Prop := v = .null ∨ v.shape = t.shape

/-! ## Shapes of types -/

namespace ValueType

@[simp] theorem shape_underlying (t : ValueType) : t.underlying.shape = t.shape := by
  induction t using underlying.induct with
  | case1 t ih => rw [underlying, ih, shape]
  | case2 t h => rw [underlying.eq_2 t h]

theorem shape_of_underlying {t u : ValueType} (h : t.underlying = u) : t.shape = u.shape := by
  rw [← h, shape_underlying]

@[simp] theorem shape_orNull (t : ValueType) : t.orNull.shape = t.shape := by
  rw [orNull]
  split <;> rfl

@[simp] theorem shape_orNullIf (b : Bool) (t : ValueType) : (t.orNullIf b).shape = t.shape := by
  rw [orNullIf]
  split
  · exact shape_orNull t
  · rfl

theorem coarse?_underlying (t : ValueType) : t.underlying.coarse? = t.coarse? := by
  induction t using underlying.induct with
  | case1 t ih => rw [underlying, ih, coarse?]
  | case2 t h => rw [underlying.eq_2 t h]

theorem underlying_ne_nullable (t u : ValueType) : t.underlying ≠ .nullable u := by
  induction t using underlying.induct with
  | case1 t ih => rwa [underlying]
  | case2 t h => rw [underlying.eq_2 t h]; exact h u

end ValueType

/-! ## Fitting values -/

namespace Value

variable {v w x y : Value} {t u : ValueType} {k : NumericKind}

@[simp] theorem shape_eq_null : v.shape = .null ↔ v = .null := by
  cases v <;> simp [shape]

theorem fits_null (t : ValueType) : Value.null.Fits t := .inl rfl

theorem Fits.congr (h : v.Fits t) (ht : t.shape = u.shape) : v.Fits u := by
  rwa [Fits, ← ht]

theorem Fits.eq_null (h : v.Fits t) (ht : t.shape = .null) : v = .null := by
  obtain h | h := h
  · exact h
  · exact shape_eq_null.mp (h.trans ht)

theorem Fits.same (hx : x.Fits t) (hy : y.Fits t) : x = .null ∨ y = .null ∨ x.shape = y.shape := by
  obtain rfl | hx := hx
  · exact .inl rfl
  · obtain rfl | hy := hy
    · exact .inr (.inl rfl)
    · exact .inr (.inr (hx.trans hy.symm))

end Value

namespace NumericKind

variable {k : NumericKind}

theorem shape_of_isIntegral (h : k.isIntegral) : k.shape = .int := if_pos h

theorem shape_of_isFloating (h : k.isFloating) : k.shape = .float := by
  cases k <;> first | rfl | cases h

theorem isIntegral_or_isFloating_or_eq (k : NumericKind) : k.isIntegral ∨ k.isFloating ∨ k = .decimal := by
  cases k <;> decide

theorem shape_of_neither (hi : ¬ k.isIntegral) (hf : ¬ k.isFloating) : k.shape = .decimal := by
  rw [shape, if_neg hi, if_neg hf]

theorem fits_i32 {n : Int} (h : n.natAbs < Number.twoTo 31) : NumericKind.i32.fits n = true := by
  have htwo : Number.twoTo 31 = 2147483648 := by decide
  unfold fits bounds integral?
  simp only [Option.map_some, htwo]
  simp
  omega

end NumericKind

namespace Value

variable {v w x y : Value} {t u : ValueType} {k : NumericKind}

def IsScalar (v : Value) : Prop := v.shape ≠ .array ∧ v.shape ≠ .record

theorem intOfKind_ok {n : Int} (h : intOfKind n k = .ok v) : v.shape = k.shape ∧ v.IsScalar := by
  rw [intOfKind] at h
  split at h
  · rename_i hi
    split at h <;> cases h
    exact ⟨(NumericKind.shape_of_isIntegral hi).symm, nofun, nofun⟩
  · rename_i hi
    split at h
    · rename_i hf
      cases h
      exact ⟨(NumericKind.shape_of_isFloating hf).symm, nofun, nofun⟩
    · rename_i hf
      split at h <;> cases h
      exact ⟨(NumericKind.shape_of_neither hi hf).symm, nofun, nofun⟩

theorem floatOfKind_ok {f : Float} (h : floatOfKind f k = .ok v) : v.shape = k.shape ∧ v.IsScalar := by
  rw [floatOfKind] at h
  split at h
  · rename_i hi
    split at h <;> cases h
    exact ⟨(NumericKind.shape_of_isIntegral hi).symm, nofun, nofun⟩
  · rename_i hi
    split at h
    · rename_i hf
      cases h
      exact ⟨(NumericKind.shape_of_isFloating hf).symm, nofun, nofun⟩
    · rename_i hf
      split at h <;> cases h
      exact ⟨(NumericKind.shape_of_neither hi hf).symm, nofun, nofun⟩

theorem decimalOfKind_ok {d : Decimal} (h : decimalOfKind d k = .ok v) : v.shape = k.shape ∧ v.IsScalar := by
  rw [decimalOfKind] at h
  split at h
  · rename_i hi
    split at h <;> cases h
    exact ⟨(NumericKind.shape_of_isIntegral hi).symm, nofun, nofun⟩
  · rename_i hi
    split at h
    · rename_i hf
      cases h
      exact ⟨(NumericKind.shape_of_isFloating hf).symm, nofun, nofun⟩
    · rename_i hf
      cases h
      exact ⟨(NumericKind.shape_of_neither hi hf).symm, nofun, nofun⟩

/-- What conforms to a type. Only arrays and records have anything inside. -/
theorem conform_ok (h : conform t v = .ok w) :
    w = .null ∨
    w.shape = t.shape ∧ w.IsScalar ∨
    (∃ u items values, t.underlying = .array u ∧ v = .array items ∧ items.mapM (conform u) = .ok values ∧
      w = .array values) ∨
    ∃ m r, t.underlying = .model m ∧ v = .record r ∧ r.model.id = m.id ∧ w = .record r := by
  induction t, v using conform.induct with
  | case1 | case3 | case4 | case5 | case6 =>
    cases h
    exact .inl rfl
  | case2 t v hv ih =>
    rw [conform.eq_2 v t hv] at h
    rw [ValueType.underlying]
    exact ih h
  | case7 | case11 | case12 | case13 | case14 =>
    cases h
    exact .inr (.inl ⟨rfl, nofun, nofun⟩)
  | case8 k n => exact .inr (.inl (intOfKind_ok h))
  | case9 k f => exact .inr (.inl (floatOfKind_ok h))
  | case10 k d => exact .inr (.inl (decimalOfKind_ok h))
  | case15 e n | case16 e n =>
    rw [conform, memberOf] at h
    split at h <;> cases h
    exact .inr (.inl ⟨rfl, nofun, nofun⟩)
  | case17 t items =>
    rw [conform] at h
    obtain ⟨values, hvalues, rfl⟩ := map_eq_ok.mp h
    exact .inr (.inr (.inl ⟨t, items, values, rfl, rfl, hvalues, rfl⟩))
  | case18 m r hr =>
    rw [conform, if_pos hr] at h
    cases h
    exact .inr (.inr (.inr ⟨m, r, rfl, rfl, hr, rfl⟩))
  | case19 m r hr =>
    rw [conform, if_neg hr] at h
    cases h
  | case20 t v =>
    rw [conform] at h
    · cases h
    all_goals assumption

theorem conform_fits (h : conform t v = .ok w) : w.Fits t := by
  obtain rfl | ⟨hs, -⟩ | ⟨u, _, _, ht, -, -, rfl⟩ | ⟨m, _, ht, -, -, rfl⟩ := conform_ok h
  · exact fits_null t
  · exact .inr hs
  · exact .inr (ValueType.shape_of_underlying ht).symm
  · exact .inr (ValueType.shape_of_underlying ht).symm

theorem conform_record {r : Record} (h : conform t v = .ok (.record r)) :
    v = .record r ∧ ∃ m, t.underlying = .model m ∧ r.model.id = m.id := by
  obtain hw | ⟨-, -, hs⟩ | ⟨_, _, _, -, -, -, hw⟩ | ⟨m, _, ht, rfl, hid, hw⟩ := conform_ok h
  · cases hw
  · exact absurd rfl hs
  · cases hw
  · cases hw
    exact ⟨rfl, m, ht, hid⟩

/-! ## Operations -/

theorem shape_eq_int : v.shape = .int ↔ ∃ n, v = .int n := by cases v <;> simp [shape]

theorem shape_eq_float : v.shape = .float ↔ ∃ f, v = .float f := by cases v <;> simp [shape]

theorem shape_eq_decimal : v.shape = .decimal ↔ ∃ d, v = .decimal d := by cases v <;> simp [shape]

theorem shape_eq_dateTime : v.shape = .dateTime ↔ ∃ d, v = .dateTime d := by cases v <;> simp [shape]

theorem shape_eq_string : v.shape = .string ↔ ∃ s, v = .string s := by cases v <;> simp [shape]

theorem shape_eq_array : v.shape = .array ↔ ∃ items, v = .array items := by cases v <;> simp [shape]

theorem shape_eq_record : v.shape = .record ↔ ∃ r, v = .record r := by cases v <;> simp [shape]

theorem shape_eq_timeSpan : v.shape = .timeSpan ↔ ∃ t, v = .timeSpan t := by cases v <;> simp [shape]

theorem Fits.number (h : v.Fits (.number k)) : v = .null ∨ (∃ n, v = .int n ∧ k.isIntegral) ∨
    (∃ f, v = .float f ∧ k.isFloating) ∨ ∃ d, v = .decimal d ∧ k.shape = .decimal := by
  obtain h | h := h
  · exact .inl h
  · have hv : v.shape = k.shape := h
    by_cases hi : k.isIntegral
    · obtain ⟨n, rfl⟩ := shape_eq_int.mp (hv.trans (NumericKind.shape_of_isIntegral hi))
      exact .inr (.inl ⟨n, rfl, hi⟩)
    by_cases hf : k.isFloating
    · obtain ⟨f, rfl⟩ := shape_eq_float.mp (hv.trans (NumericKind.shape_of_isFloating hf))
      exact .inr (.inr (.inl ⟨f, rfl, hf⟩))
    have hd := NumericKind.shape_of_neither hi hf
    obtain ⟨d, rfl⟩ := shape_eq_decimal.mp (hv.trans hd)
    exact .inr (.inr (.inr ⟨d, rfl, hd⟩))

theorem fits_getD {α : Type} {f : α → Value} (hf : ∀ a, (f a).shape = t.shape) (o : Option α) :
    ((o.map f).getD .null).Fits t := by
  cases o with
  | none => exact fits_null t
  | some a => exact .inr (hf a)

theorem fits_of_int {n : Int} (h : k.isIntegral) : (Value.int n).Fits (.number k) :=
  .inr (NumericKind.shape_of_isIntegral h).symm

theorem fits_of_float {f : Float} (h : k.isFloating) : (Value.float f).Fits (.number k) :=
  .inr (NumericKind.shape_of_isFloating h).symm

/-- A number of one kind brought to another is of that kind, unless the kind is integral and the number is not. -/
theorem convert_fits {j : NumericKind} (hv : v.Fits (.number j)) (h : k.isIntegral → j.isIntegral) :
    (v.convert k).Fits (.number k) := by
  unfold convert
  by_cases hnull : v.isNull
  · rw [if_pos hnull]
    exact fits_null _
  rw [if_neg hnull]
  by_cases hd : k = .decimal
  · rw [if_pos hd]
    subst hd
    exact fits_getD (fun _ => rfl) _
  rw [if_neg hd]
  by_cases hf : k.isFloating
  · rw [if_pos hf]
    apply fits_getD
    exact fun _ => (NumericKind.shape_of_isFloating hf).symm
  rw [if_neg hf]
  have hi : k.isIntegral := k.isIntegral_or_isFloating_or_eq.resolve_right (by simp [hf, hd])
  refine hv.congr ?_
  exact (NumericKind.shape_of_isIntegral (h hi)).trans (NumericKind.shape_of_isIntegral hi).symm

theorem operate_fits (o : Operation) (hx : x.Fits (.number k)) (hy : y.Fits (.number k)) :
    (x.operate o k y).Fits (.number k) := by
  obtain rfl | ⟨m, rfl, hi⟩ | ⟨f, rfl, hf⟩ | ⟨d, rfl, hd⟩ := hx.number
  · exact fits_null _
  · cases y with
    | int n =>
      unfold operate
      apply fits_getD
      exact fun _ => (NumericKind.shape_of_isIntegral hi).symm
    | _ => exact fits_null _
  · cases y with
    | float g => exact fits_of_float hf
    | _ => exact fits_null _
  · cases y with
    | decimal e =>
      unfold operate
      apply fits_getD
      exact fun _ => hd.symm
    | _ => exact fits_null _

theorem negate_fits (hv : v.Fits (.number k)) : (v.negate (some k)).Fits (.number k) := by
  obtain rfl | ⟨m, rfl, hi⟩ | ⟨f, rfl, hf⟩ | ⟨d, rfl, hd⟩ := hv.number
  · exact fits_null _
  · exact fits_of_int hi
  · exact fits_of_float hf
  · exact .inr hd.symm

theorem negate_fits_timeSpan (hv : v.Fits .timeSpan) : (v.negate none).Fits .timeSpan := by
  obtain rfl | h := hv
  · exact fits_null _
  · obtain ⟨t, rfl⟩ := shape_eq_timeSpan.mp h
    exact .inr rfl

theorem complement_fits (v : Value) : v.complement.Fits .bool := by
  cases v with
  | bool b => exact .inr rfl
  | _ => exact fits_null _

/-! ## Where an operation answers

Off these pairs of values the operations have nothing to say. -/

def isComparable : Value → Value → Bool
  | .int _, .int _ | .float _, .float _ | .decimal _, .decimal _ | .dateTime _, .dateTime _
  | .timeSpan _, .timeSpan _ => true
  | _, _ => false

def computes (o : Operation) : Value → Value → Bool
  | .int _, .int n => !((o == .divide || o == .modulo) && n == 0)
  | .float _, .float _ | .decimal _, .decimal _ => true
  | _, _ => false

def computesOnTimes : Operation → Value → Value → Bool
  | .subtract, .dateTime _, .dateTime _ | .add, .dateTime _, .timeSpan _ | .subtract, .dateTime _, .timeSpan _
  | .add, .timeSpan _, .timeSpan _ | .subtract, .timeSpan _, .timeSpan _ => true
  | _, _, _ => false

def hasNegative (kind : Option NumericKind) : Value → Bool
  | .int _ => kind.isSome
  | .float _ | .decimal _ | .timeSpan _ => true
  | _ => false

theorem order?_of_not_comparable (h : x.isComparable y = false) : order? x y = none := by
  unfold order?
  split <;> simp_all [isComparable]

theorem operate_of_not_computes {o : Operation} (h : x.computes o y = false) : x.operate o k y = .null := by
  unfold operate
  split <;> simp_all [computes]
  cases o <;> simp_all [onIntegers]

theorem operateOnTimes_of_not_computes {o : Operation} (h : computesOnTimes o x y = false) :
    operateOnTimes o x y = .null := by
  unfold operateOnTimes
  split <;> simp_all [computesOnTimes]

theorem negate_of_not_hasNegative {kind : Option NumericKind} (h : v.hasNegative kind = false) :
    v.negate kind = .null := by
  unfold negate
  split <;> simp_all [hasNegative]

end Value

theorem Signature.result_fits (s : Signature) (args : List Value) : (s.result args).Fits s.returns := by
  unfold Signature.result
  split
  · rename_i v hv
    exact Value.conform_fits hv
  · exact Value.fits_null _

end RecordLogic
