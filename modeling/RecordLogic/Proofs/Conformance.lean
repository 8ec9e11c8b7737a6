import Mathlib.Data.Nat.Cast.Field
import RecordLogic.Proofs.DecimalShifts
import RecordLogic.Proofs.NormalForm

/-!
# What conforming keeps

A value that conforms becomes one of the type at every level of arrays, and null only where it was null already. A
number stays the same number as a value of an integral kind, a decimal or a member of an enumeration.
-/

namespace RecordLogic

open Number

theorem Decimal.toRat_of_whole? {d : Decimal} {n : Int} (h : d.whole? = some n) : d.toRat = n := by
  unfold whole? at h
  split at h
  · rename_i hmod
    have hdvd : 10 ^ d.scale ∣ d.coefficient := Nat.dvd_of_mod_eq_zero hmod
    have hquotient : ((d.coefficient / tenTo d.scale : Nat) : ℚ) = d.coefficient / 10 ^ d.scale := by
      rw [tenTo_eq, Nat.cast_div hdvd (by positivity), Nat.cast_pow]
      rfl
    obtain rfl := Option.some.inj h
    rw [toRat_eq, ← hquotient, signOf]
    by_cases hneg : d.negative
    · simp only [hneg, ite_true, neg_one_mul, Int.cast_neg, Int.cast_natCast]
    · simp only [hneg, Bool.false_eq_true, ite_false, one_mul, Int.cast_natCast]
  · cases h

namespace NumericKind

variable {k : NumericKind}

theorem bounds_of_fits {n lo hi : Int} (h : k.fits n) (hk : k.bounds = some (lo, hi)) : lo ≤ n ∧ n ≤ hi := by
  unfold fits at h
  simpa [hk] using h

theorem isIntegral_of_bounds {b : Int × Int} (h : k.bounds = some b) : k.isIntegral := by
  cases k <;> simp_all [bounds, integral?, isIntegral]

theorem not_isFloating_of_bounds {b : Int × Int} (h : k.bounds = some b) : ¬ k.isFloating := by
  cases k <;> simp_all [bounds, integral?, isFloating]

end NumericKind

theorem EnumType.mem_of_nameOf? {e : EnumType} {n : Int} (h : (e.nameOf? n).isSome) : ∃ name, (name, n) ∈ e.members := by
  unfold nameOf? at h
  rw [Option.isSome_map, List.find?_isSome] at h
  obtain ⟨⟨name, m⟩, hmem, hm⟩ := h
  obtain rfl : m = n := by simpa using hm
  exact ⟨name, hmem⟩

namespace Value

variable {t : ValueType} {k : NumericKind} {v w : Value} {q : ℚ}

/-- `v.HasForm t`: null if the type is nullable, and else of the type's shape, as are the items of an array. -/
inductive HasForm : Value → ValueType → Prop
  | null {t : ValueType} (h : t.isNullable) : HasForm .null t
  | shaped {v : Value} {t : ValueType} (h : v.shape = t.shape)
      (hitems : ∀ u items, t.underlying = .array u → v = .array items → ∀ x ∈ items, HasForm x u) : HasForm v t

def number? : Value → Option ℚ
  | .int n | .enum n => some n
  | .decimal d => some d.toRat
  | _ => none

/-! ## Null and forms -/

theorem memberOf_eq_ok {e : EnumType} {n : Int} (h : memberOf n e = .ok w) :
    w = .enum n ∧ ∃ name, (name, n) ∈ e.members := by
  unfold memberOf at h
  split at h
  · rename_i hn
    cases h
    exact ⟨rfl, EnumType.mem_of_nameOf? hn.1⟩
  · cases h

theorem eq_null_of_conform : ∀ (t : ValueType) {v : Value}, v.conform t = .ok .null → v = .null
  | .nullable t, v, h => by
    by_cases hv : v = .null
    · exact hv
    · rw [conform.eq_2 _ _ hv] at h
      exact eq_null_of_conform t h
  | .number k, v, h => by
    -- No kind of numbers has null.
    cases v with
    | int n => exact (intOfKind_ofKind h).elim
    | float f => exact (floatOfKind_ofKind h).elim
    | decimal d => exact (decimalOfKind_ofKind h).elim
    | _ => cases h
  | .array t, v, h => by
    cases v with
    | null => rfl
    | array items =>
      rw [conform] at h
      obtain ⟨values, -, hw⟩ := map_eq_ok.mp h
      cases hw
    | _ => cases h
  | .enum e, v, h => by
    cases v with
    | int n | enum n =>
      obtain ⟨hw, -⟩ := memberOf_eq_ok h
      cases hw
    | _ => cases h
  | .model m, v, h => by
    cases v with
    | null => rfl
    | record r =>
      rw [conform] at h
      split at h <;> cases h
    | _ => cases h
  | .null, v, h | .bool, v, h | .string, v, h | .dateTime, v, h | .timeSpan, v, h | .guid, v, h => by
    cases v <;> cases h <;> rfl

theorem conform_hasForm : ∀ (t : ValueType) {v w : Value}, v.conform t = .ok w → w.HasForm t
  | .nullable t, v, w, h => by
    by_cases hv : v = .null
    · subst hv
      cases h
      exact .null rfl
    · rw [conform.eq_2 _ _ hv] at h
      cases conform_hasForm t h with
      | null => exact .null rfl
      | shaped hs hitems => exact .shaped hs hitems
  | .array t, v, w, h => by
    cases v with
    | null =>
      cases h
      exact .null rfl
    | array items =>
      rw [conform] at h
      obtain ⟨values, hvalues, rfl⟩ := map_eq_ok.mp h
      refine .shaped rfl fun u ws hu hws x hx => ?_
      cases hu
      cases hws
      obtain ⟨item, -, hitem⟩ := mem_of_mapM_eq_ok hvalues hx
      exact conform_hasForm t hitem
    | _ => cases h
  | .null, v, w, h | .bool, v, w, h | .number _, v, w, h | .string, v, w, h | .dateTime, v, w, h | .timeSpan, v, w, h
  | .guid, v, w, h | .enum _, v, w, h | .model _, v, w, h => by
    by_cases hw : w = .null
    · subst hw
      exact .null (conform_null_iff.mp (conform_idem _ h)).1
    · exact .shaped ((conform_fits h).resolve_left hw) fun u _ hu => by cases hu

/-! ## Numbers -/

theorem intOfKind_number {n : Int} (hk : ¬ k.isFloating) (h : intOfKind n k = .ok w) : w.number? = some (n : ℚ) := by
  unfold intOfKind at h
  split at h
  · split at h <;> cases h
    rfl
  · split at h <;> cases h
    rename_i d hd
    exact congrArg some (Decimal.toRat_of_ofInt? hd)

theorem decimalOfKind_number {d : Decimal} (hk : ¬ k.isFloating) (h : decimalOfKind d k = .ok w) :
    w.number? = some d.toRat := by
  unfold decimalOfKind at h
  split at h
  · split at h <;> cases h
    rename_i n hn
    have hwhole := (Option.filter_eq_some_iff.mp hn).1
    exact congrArg some (Decimal.toRat_of_whole? hwhole).symm
  · cases h
    rfl

theorem conform_number (hk : ¬ k.isFloating) (hv : v.number? = some q) (h : v.conform (.number k) = .ok w) :
    w.number? = some q ∧ w.OfKind k := by
  cases v with
  | int n =>
    cases hv
    exact ⟨intOfKind_number hk h, intOfKind_ofKind h⟩
  | decimal d =>
    cases hv
    exact ⟨decimalOfKind_number hk h, decimalOfKind_ofKind h⟩
  | enum n => cases h
  | _ => cases hv

theorem conform_member {e : EnumType} (hv : v.number? = some q) (h : v.conform (.enum e) = .ok w) :
    ∃ name n, w = .enum n ∧ (n : ℚ) = q ∧ (name, n) ∈ e.members := by
  cases v with
  | int n | enum n =>
    cases hv
    obtain ⟨rfl, name, hmem⟩ := memberOf_eq_ok h
    exact ⟨name, n, rfl, rfl, hmem⟩
  | decimal d => cases h
  | _ => cases hv

theorem conform_underlying (hv : v ≠ .null) : v.conform t.underlying = v.conform t := by
  induction t using ValueType.underlying.induct with
  | case1 t ih => rw [ValueType.underlying, ih, conform.eq_2 _ _ hv]
  | case2 t ht => rw [ValueType.underlying.eq_2 t ht]

theorem OfKind.int_of_bounds {lo hi : Int} (h : w.OfKind k) (hw : w.number? = some q) (hk : k.bounds = some (lo, hi)) :
    ∃ n : Int, w = .int n ∧ (n : ℚ) = q ∧ lo ≤ n ∧ n ≤ hi := by
  have hint := NumericKind.isIntegral_of_bounds hk
  cases w with
  | int n =>
    cases hw
    exact ⟨n, rfl, rfl, NumericKind.bounds_of_fits h.2 hk⟩
  | float f => exact absurd hint h.1
  | decimal d => exact absurd hint h.1
  | _ => cases h

theorem OfKind.decimal (h : w.OfKind .decimal) (hw : w.number? = some q) : ∃ d, w = .decimal d ∧ d.toRat = q := by
  cases w with
  | decimal d =>
    cases hw
    exact ⟨d, rfl, rfl⟩
  | int n => exact absurd h.1 (by decide)
  | float f => exact absurd h.2 (by decide)
  | _ => cases h

/-- **Conforming is a normal form that keeps numbers.** What a value becomes conforms as it is, is null only if the
value was and the type allows it, and has the form of the type. A number that becomes one of an integral kind, a
decimal or a member of an enumeration is the same number. -/
theorem conform_keeps (h : v.conform t = .ok w) :
    w.conform t = .ok w ∧ (w = .null → v = .null ∧ t.isNullable) ∧ w.HasForm t ∧
      ∀ q, v.number? = some q →
        (∀ k lo hi, t.underlying = .number k → k.bounds = some (lo, hi) →
          ∃ n : Int, w = .int n ∧ (n : ℚ) = q ∧ lo ≤ n ∧ n ≤ hi) ∧
        (t.underlying = .number .decimal → ∃ d, w = .decimal d ∧ d.toRat = q) ∧
        ∀ e, t.underlying = .enum e → ∃ name n, w = .enum n ∧ (n : ℚ) = q ∧ (name, n) ∈ e.members := by
  have hidem := conform_idem t h
  refine ⟨hidem, ?_, conform_hasForm t h, ?_⟩
  · intro hw
    subst hw
    exact ⟨eq_null_of_conform t h, (conform_null_iff.mp hidem).1⟩
  intro q hq
  have hv : v ≠ .null := by
    intro hv
    subst hv
    cases hq
  rw [← conform_underlying hv] at h
  refine ⟨?_, ?_, ?_⟩
  · intro k lo hi hk hbounds
    rw [hk] at h
    obtain ⟨hw, hkind⟩ := conform_number (NumericKind.not_isFloating_of_bounds hbounds) hq h
    exact hkind.int_of_bounds hw hbounds
  · intro hk
    rw [hk] at h
    obtain ⟨hw, hkind⟩ := conform_number (by decide) hq h
    exact hkind.decimal hw
  · intro e he
    rw [he] at h
    exact conform_member hq h

/-- A decimal with zeros behind the point as a byte that may be absent, by itself and beside an absent one. -/
theorem conform_keeps_byte :
    let byte : ValueType := .nullable (.number .u8)
    let d : Decimal := ⟨false, 25500, 2, by decide, by decide⟩
    (Value.decimal d).conform byte = .ok (.int 255) ∧
      (∃ n : Int, Value.int 255 = .int n ∧ (n : ℚ) = d.toRat ∧ 0 ≤ n ∧ n ≤ 255) ∧
      (Value.array [.decimal d, .null]).conform (.array byte) = .ok (.array [.int 255, .null]) ∧
      (Value.array [.int 255, .null]).HasForm (.array byte) := by
  intro byte d
  have hone : (Value.decimal d).conform byte = .ok (.int 255) := by
    have hnull : Value.decimal d ≠ .null := by simp
    have hbyte : decimalOfKind ⟨false, 25500, 2, by decide, by decide⟩ .u8 = .ok (.int 255) := rfl
    exact (conform.eq_2 _ _ hnull).trans hbyte
  have htwo : (Value.array [.decimal d, .null]).conform (.array byte) = .ok (.array [.int 255, .null]) := by
    rw [conform, List.mapM_cons, hone]
    rfl
  obtain ⟨-, -, -, hnumber⟩ := conform_keeps hone
  obtain ⟨-, -, hform, -⟩ := conform_keeps htwo
  exact ⟨hone, (hnumber d.toRat rfl).1 .u8 0 255 rfl rfl, htwo, hform⟩

end Value

end RecordLogic
