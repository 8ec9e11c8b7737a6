import Mathlib.Order.Defs.Unbundled
import RecordLogic.Proofs.Clashes
import RecordLogic.Proofs.DoubleDecimals

/-!
# The least and the greatest number of an array

A number counts if its magnitude is below `2 ^ 96`, and as itself unless it is a double that a decimal only comes near.
The least and the greatest are among what the items count as, bound all of it, and do not depend on its order.
-/

namespace RecordLogic

open Number

/-! ## What counts -/

namespace Decimal

theorem exists_ofInt?_iff {n : Int} : (∃ d, ofInt? n = some d) ↔ |(n : ℚ)| < 2 ^ 96 := by
  constructor
  · rintro ⟨d, hd⟩
    rw [← toRat_of_ofInt? hd]
    exact d.abs_toRat_lt
  · intro h
    rw [← Int.cast_abs, Int.abs_eq_natAbs, Int.cast_natCast] at h
    exact exists_make? _ (by exact_mod_cast h : n.natAbs < twoTo 96) (Nat.zero_le 28)

end Decimal

namespace Value

variable {v : Value} {x q : ℚ}

def counted? (v : Value) : Option ℚ := v.asDecimal?.map Decimal.toRat

/-- A number counts if it is not too large, an integer or a decimal as itself, and a double as a number near it that is
itself if it is short. -/
structure Counts (v : Value) (x : ℚ) : Prop where
  range : (∃ q, v.counted? = some q) ↔ |x| < 2 ^ 96
  near : ∀ q, v.counted? = some q → |q - x| ≤ |x| / 2 ^ 48 + 1 / 10 ^ 28
  exact : ∀ q, v.counted? = some q → (q = x ↔ ((∃ f, v = .float f) → IsShort x))

theorem counts_of_exact (hv : ∀ f, v ≠ .float f) (hrange : (∃ q, v.counted? = some q) ↔ |x| < 2 ^ 96)
    (hexact : ∀ q, v.counted? = some q → q = x) : v.Counts x where
  range := hrange
  near q hq := by
    rw [hexact q hq, sub_self, abs_zero]
    positivity
  exact q hq := iff_of_true (hexact q hq) fun ⟨f, hf⟩ => absurd hf (hv f)

theorem counted?_eq_some : v.counted? = some q ↔ ∃ d, v.asDecimal? = some d ∧ d.toRat = q := Option.map_eq_some_iff

theorem counts_of_quantity (h : v.quantity? = some x) : v.Counts x := by
  cases v with
  | int n =>
    obtain rfl := Option.some.inj h
    refine counts_of_exact (fun f => by simp) ?_ fun q hq => ?_
    · rw [← Decimal.exists_ofInt?_iff]
      simp [counted?, asDecimal?]
    · obtain ⟨d, hd, rfl⟩ := counted?_eq_some.mp hq
      exact Decimal.toRat_of_ofInt? hd
  | float f =>
    refine ⟨?_, fun q hq => ?_, fun q hq => ?_⟩
    · rw [← Decimal.exists_ofDouble? h]
      simp [counted?, asDecimal?]
    · obtain ⟨d, hd, rfl⟩ := counted?_eq_some.mp hq
      exact (Decimal.toRat_of_ofDouble? h hd).1
    · obtain ⟨d, hd, rfl⟩ := counted?_eq_some.mp hq
      simpa using (Decimal.toRat_of_ofDouble? h hd).2
  | decimal d =>
    obtain rfl := Option.some.inj h
    exact counts_of_exact (fun f => by simp) (iff_of_true ⟨d.toRat, rfl⟩ d.abs_toRat_lt) fun q hq =>
      (Option.some.inj hq).symm
  | _ => cases h

theorem counted?_of_quantity (h : v.quantity? = none) : v.counted? = none := by
  cases v with
  | int | decimal => cases h
  | float f =>
    have hf : Decimal.ofDouble? f = none := by
      unfold quantity? Number.toRat? at h
      unfold Decimal.ofDouble?
      cases hreading : Reading.of f with
      | nan | infinite _ => rfl
      | finite => simp [hreading, Reading.toRat?] at h
    simp [counted?, asDecimal?, hf]
  | _ => rfl

end Value

/-! ## Bounds of what counts -/

section
variable {R : ℚ → ℚ → Prop} {items items' : List Value} {a b : Value}

/-- A bound of the items: null where none of them counts, and otherwise a decimal that equals what one of them counts as
and stands in the relation to what each of them counts as. -/
inductive Bounds (R : ℚ → ℚ → Prop) (items : List Value) : Value → Prop
  | none : (∀ v ∈ items, v.counted? = none) → Bounds R items .null
  | some {d : Decimal} {v : Value} : v ∈ items → v.counted? = some d.toRat →
      (∀ w ∈ items, ∀ q, w.counted? = some q → R d.toRat q) → Bounds R items (.decimal d)

theorem Bounds.quantity_eq [IsPartialOrder ℚ R] (ha : Bounds R items a) (hb : Bounds R items' b)
    (hitems : items.Perm items') : a.quantity? = b.quantity? := by
  cases ha with
  | none hnone =>
    cases hb with
    | none => rfl
    | some hv hcounted => simp [hnone _ (hitems.mem_iff.mpr hv)] at hcounted
  | some hv hcounted hle =>
    cases hb with
    | none hnone => simp [hnone _ (hitems.mem_iff.mp hv)] at hcounted
    | some hw hcounted' hle' =>
      refine congrArg Option.some (antisymm (r := R) ?_ ?_)
      · exact hle _ (hitems.mem_iff.mpr hw) _ hcounted'
      · exact hle' _ (hitems.mem_iff.mp hv) _ hcounted

/-- What is picked of two decimals again and again is one of them all, and stands in the relation to each. -/
theorem foldl_picked [IsPartialOrder ℚ R] {pick : Decimal → Decimal → Decimal}
    (hpick : ∀ m e, (pick m e = m ∨ pick m e = e) ∧ R (pick m e).toRat m.toRat ∧ R (pick m e).toRat e.toRat)
    (ds : List Decimal) (d : Decimal) :
    ds.foldl pick d ∈ d :: ds ∧ ∀ e ∈ d :: ds, R (ds.foldl pick d).toRat e.toRat := by
  induction ds generalizing d with
  | nil => exact ⟨.head _, fun e he => List.mem_singleton.mp he ▸ refl _⟩
  | cons c ds ih =>
    obtain ⟨hmem, hbound⟩ := ih (pick d c)
    obtain ⟨hone, hd, hc⟩ := hpick d c
    rw [List.foldl_cons]
    have hfirst := hbound _ (.head _)
    constructor
    · obtain hmem | hmem := List.mem_cons.mp hmem
      · rw [hmem]
        obtain h | h := hone <;> simp [h]
      · exact .tail _ (.tail _ hmem)
    · intro e he
      obtain rfl | he := List.mem_cons.mp he
      · exact IsTrans.trans _ _ _ hfirst hd
      · obtain rfl | he := List.mem_cons.mp he
        · exact IsTrans.trans _ _ _ hfirst hc
        · exact hbound e (.tail _ he)

theorem order_eq_lt {d e : Decimal} : d.order e = .lt ↔ d.toRat < e.toRat := by
  rw [Decimal.order_eq_compare, compare_lt_iff_lt]

theorem bounds_of_picked [IsPartialOrder ℚ R] {pick : Decimal → Decimal → Decimal}
    (hpick : ∀ m e, (pick m e = m ∨ pick m e = e) ∧ R (pick m e).toRat m.toRat ∧ R (pick m e).toRat e.toRat)
    {extreme? : List Decimal → Option Decimal} (hnil : extreme? [] = none)
    (hcons : ∀ d ds, extreme? (d :: ds) = some (ds.foldl pick d)) :
    Bounds R items (Library.decimalOrNull (extreme? (Library.decimals [.array items]))) := by
  have hmem : ∀ d, d ∈ Library.decimals [.array items] ↔ ∃ v ∈ items, v.asDecimal? = some d :=
    fun d => List.mem_filterMap
  cases hds : Library.decimals [.array items] with
  | nil =>
    rw [hnil]
    refine .none fun v hv => Option.eq_none_iff_forall_ne_some.mpr fun q hq => ?_
    obtain ⟨d, hd, -⟩ := Value.counted?_eq_some.mp hq
    have hin := (hmem d).mpr ⟨v, hv, hd⟩
    rw [hds] at hin
    cases hin
  | cons d ds =>
    rw [hcons]
    rw [hds] at hmem
    obtain ⟨hin, hbound⟩ := foldl_picked hpick ds d
    obtain ⟨v, hv, hd⟩ := (hmem _).mp hin
    refine .some hv (Value.counted?_eq_some.mpr ⟨_, hd, rfl⟩) fun w hw q hq => ?_
    obtain ⟨e, he, rfl⟩ := Value.counted?_eq_some.mp hq
    exact hbound e ((hmem e).mpr ⟨w, hw, he⟩)

theorem least_bounds (items : List Value) : Bounds (· ≤ ·) items (Library.least [.array items]) := by
  refine bounds_of_picked (fun m e => ?_) rfl fun d ds => rfl
  by_cases h : e.order m = .lt
  · simp only [h, beq_self_eq_true, ↓reduceIte]
    exact ⟨.inr trivial, (order_eq_lt.mp h).le, le_rfl⟩
  · simp only [beq_iff_eq, h, ↓reduceIte]
    exact ⟨.inl trivial, le_rfl, not_lt.mp (mt order_eq_lt.mpr h)⟩

theorem greatest_bounds (items : List Value) : Bounds (· ≥ ·) items (Library.greatest [.array items]) := by
  refine bounds_of_picked (fun m e => ?_) rfl fun d ds => rfl
  by_cases h : e.order m = .lt
  · simp only [h, beq_self_eq_true, ↓reduceIte]
    exact ⟨.inl trivial, le_rfl, (order_eq_lt.mp h).le⟩
  · simp only [beq_iff_eq, h, ↓reduceIte]
    exact ⟨.inr trivial, not_lt.mp (mt order_eq_lt.mpr h), le_rfl⟩

end

namespace Registry

/-- **Least and greatest of an array.** Both bound what the items count as and do not depend on their order. An item
that is no number does not count, and a number does if it is not too large. -/
theorem extremes_of_items (now : DateTime) (items : List Value) :
    ∃ low high, (standard now).call? "Min" [.array items] = some low ∧
      (standard now).call? "Max" [.array items] = some high ∧ Bounds (· ≤ ·) items low ∧ Bounds (· ≥ ·) items high ∧
      (∀ items', items.Perm items' → ∃ low' high', (standard now).call? "Min" [.array items'] = some low' ∧
        (standard now).call? "Max" [.array items'] = some high' ∧ low'.quantity? = low.quantity? ∧
        high'.quantity? = high.quantity?) ∧
      ∀ v ∈ items, (v.quantity? = none → v.counted? = none) ∧ ∀ x, v.quantity? = some x → v.Counts x := by
  refine ⟨_, _, rfl, rfl, least_bounds items, greatest_bounds items, fun items' hitems => ⟨_, _, rfl, rfl, ?_, ?_⟩,
    fun v _ => ⟨Value.counted?_of_quantity, fun x => Value.counts_of_quantity⟩⟩
  · exact (least_bounds items').quantity_eq (least_bounds items) hitems.symm
  · exact (greatest_bounds items').quantity_eq (greatest_bounds items) hitems.symm

theorem quantity?_of_reading {f : Float} {r : Reading} (h : Reading.of f = r) :
    (Value.float f).quantity? = r.toRat? := congrArg Reading.toRat? h

theorem max_of_greatest {now : DateTime} {items : List Value} {o : Option Decimal}
    (h : Decimal.greatest? (items.filterMap Value.asDecimal?) = o) :
    (standard now).call? "Max" [.array items] = some (Library.decimalOrNull o) :=
  congrArg (fun o => some (Library.decimalOrNull o)) h

/-- A double of 97 bits does not count, even alone, and `2 ^ (-23)` counts as a decimal of 22 places that it is not. -/
theorem extremes_of_doubles : let greatest (items : List Value) := (standard ⟨0, 0, 0⟩).call? "Max" [.array items]
    (Value.float 79228162514264337593543950336).quantity? = some (2 ^ 96) ∧
      greatest [.float 79228162514264337593543950336] = some .null ∧
      greatest [.int 1, .float 79228162514264337593543950336] = some (.decimal ⟨false, 1, 0, by decide, by decide⟩) ∧
      (Value.float 0.00000011920928955078125).quantity? = some (1 / 2 ^ 23) ∧
      greatest [.float 0.00000011920928955078125] =
        some (.decimal ⟨false, 1192092895507813, 22, by decide, by decide⟩) := by
  refine ⟨?_, ?_, ?_, ?_, ?_⟩
  · rw [quantity?_of_reading (show _ = .finite false (twoTo 52) 44 by decide +kernel)]
    norm_num [Reading.toRat?, Decimal.signOf]
  · exact max_of_greatest (show _ = none by decide +kernel)
  · exact max_of_greatest (show _ = some ⟨false, 1, 0, by decide, by decide⟩ by decide +kernel)
  · rw [quantity?_of_reading (show _ = .finite false (twoTo 52) (-75) by decide +kernel)]
    norm_num [Reading.toRat?, Decimal.signOf]
  · exact max_of_greatest (show _ = some ⟨false, 1192092895507813, 22, by decide, by decide⟩ by decide +kernel)

end Registry

end RecordLogic
