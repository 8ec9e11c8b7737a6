import RecordLogic.Proofs.Shape

/-!
# Normal forms

What conforms to a type becomes a value that conforms to it as it is. Null is such a value for the nullable types
and for no other.
-/

namespace RecordLogic.Value

variable {t : ValueType} {k : NumericKind} {v w : Value}

def OfKind (k : NumericKind) : Value → Prop
  | .int n => k.isIntegral ∧ k.fits n
  | .float _ => ¬ k.isIntegral ∧ k.isFloating
  | .decimal _ => ¬ k.isIntegral ∧ ¬ k.isFloating
  | _ => False

theorem intOfKind_ofKind {n : Int} (h : intOfKind n k = .ok w) : w.OfKind k := by
  unfold intOfKind at h
  split at h
  · rename_i hi
    split at h <;> cases h
    exact ⟨hi, by assumption⟩
  · rename_i hi
    split at h
    · cases h
      exact ⟨hi, by assumption⟩
    · split at h <;> cases h
      exact ⟨hi, by assumption⟩

theorem floatOfKind_ofKind {f : Float} (h : floatOfKind f k = .ok w) : w.OfKind k := by
  unfold floatOfKind at h
  split at h
  · rename_i hi
    split at h <;> cases h
    rename_i n hn
    exact ⟨hi, (Option.filter_eq_some_iff.mp hn).2⟩
  · rename_i hi
    split at h
    · cases h
      exact ⟨hi, by assumption⟩
    · split at h <;> cases h
      exact ⟨hi, by assumption⟩

theorem decimalOfKind_ofKind {d : Decimal} (h : decimalOfKind d k = .ok w) : w.OfKind k := by
  unfold decimalOfKind at h
  split at h
  · rename_i hi
    split at h <;> cases h
    rename_i n hn
    exact ⟨hi, (Option.filter_eq_some_iff.mp hn).2⟩
  · rename_i hi
    split at h <;> cases h
    · exact ⟨hi, by assumption⟩
    · exact ⟨hi, by assumption⟩

theorem OfKind.conform (h : w.OfKind k) : w.conform (.number k) = .ok w := by
  cases w with
  | int n =>
    obtain ⟨hi, hn⟩ := h
    rw [Value.conform, intOfKind, if_pos hi, if_pos hn]
  | float f =>
    obtain ⟨hi, hf⟩ := h
    rw [Value.conform, floatOfKind, if_neg hi, if_pos hf]
  | decimal d =>
    obtain ⟨hi, hf⟩ := h
    rw [Value.conform, decimalOfKind, if_neg hi, if_neg hf]
  | _ => cases h

theorem conform_memberOf {e : EnumType} {n : Int} (h : memberOf n e = .ok w) : w.conform (.enum e) = .ok w := by
  have hw : w = .enum n := by
    unfold memberOf at h
    split at h <;> cases h
    rfl
  subst hw
  rwa [Value.conform]

/-- **Normal forms.** What conforming gives conforms as it is. -/
theorem conform_idem : ∀ (t : ValueType) {v w : Value}, v.conform t = .ok w → w.conform t = .ok w
  | .nullable t, v, w, h => by
    by_cases hw : w = .null
    · subst hw
      rfl
    by_cases hv : v = .null
    · subst hv
      cases h
      rfl
    rw [conform.eq_2 _ _ hv] at h
    rw [conform.eq_2 _ _ hw]
    exact conform_idem t h
  | .array t, v, w, h => by
    cases v with
    | null =>
      cases h
      rfl
    | array items =>
      rw [conform] at h
      obtain ⟨values, hvalues, rfl⟩ := map_eq_ok.mp h
      rw [conform, mapM_of_mapM_eq_ok (fun _ _ => conform_idem t) hvalues]
      rfl
    | _ => cases h
  | .number k, v, w, h => by
    cases v with
    | int n => exact (intOfKind_ofKind h).conform
    | float f => exact (floatOfKind_ofKind h).conform
    | decimal d => exact (decimalOfKind_ofKind h).conform
    | _ => cases h
  | .enum e, v, w, h => by
    cases v with
    | int n => exact conform_memberOf h
    | enum n => exact conform_memberOf h
    | _ => cases h
  | .model m, v, w, h => by
    cases v with
    | null =>
      cases h
      rfl
    | record r =>
      rw [conform] at h
      split at h <;> cases h
      rename_i hr
      rw [conform, if_pos hr]
    | _ => cases h
  | .null, v, w, h | .bool, v, w, h | .string, v, w, h | .dateTime, v, w, h | .timeSpan, v, w, h
  | .guid, v, w, h => by
    cases v <;> cases h <;> rfl

theorem conform_null_iff : conform t .null = .ok w ↔ t.isNullable ∧ w = .null := by
  cases t <;> simp [conform, ValueType.isNullable, eq_comm]

theorem conform_orNull (h : v.conform t = .ok v) : v.conform t.orNull = .ok v := by
  unfold ValueType.orNull
  split
  · exact h
  by_cases hv : v = .null
  · subst hv
    rfl
  · rwa [conform.eq_2 _ _ hv]

theorem conform_orNull_null (t : ValueType) : Value.null.conform t.orNull = .ok .null := by
  unfold ValueType.orNull
  split
  · rename_i hn
    exact conform_null_iff.mpr ⟨hn, rfl⟩
  · rfl

end RecordLogic.Value
