import Mathlib.Data.List.Basic
import RecordLogic.Model.TypeName
import RecordLogic.Proofs.Outcome

/-!
# Types and their names

A name gives a type built from scalars by arrays and by adding null, and every such type is given by its own text.
-/

namespace RecordLogic.ValueType

open Text

def scalars : List ValueType := [.bool, .string, .dateTime, .timeSpan, .guid] ++ NumericKind.all.map .number

inductive Nameable : ValueType → Prop
  | scalar {t : ValueType} (h : t ∈ scalars) : Nameable t
  | array {t : ValueType} (h : Nameable t) : Nameable (.array t)
  | orNull {t : ValueType} (h : Nameable t) : Nameable t.orNull

variable {t : ValueType} {c : Char} {cs rest : List Char}

/-! ## From names to types -/

theorem mem_scalars {name : String} (h : scalar? name = some t) : t ∈ scalars := by
  unfold scalar? at h
  split at h <;> cases h <;> simp [scalars, NumericKind.all]

theorem nameable_of_readReversed (h : readReversed cs = .ok t) : t.Nameable := by
  fun_induction readReversed cs generalizing t with
  | case1 cs rest _ ih =>
    obtain ⟨u, hu, rfl⟩ := map_eq_ok.mp h
    exact .array (ih hu)
  | case2 cs rest _ ih =>
    obtain ⟨u, hu, rfl⟩ := map_eq_ok.mp h
    exact .orNull (ih hu)
  | case3 cs _ _ u hu =>
    cases h
    exact .scalar (mem_scalars hu)
  | case4 => cases h

/-! ## From types to names -/

theorem trimStart_eq_self (h : ∀ c ∈ cs.head?, isBlank c = false) : trimStart cs = cs := by
  cases cs with
  | nil => rfl
  | cons c cs => exact List.dropWhile_cons_of_neg (by simp [h c rfl])

theorem last_not_blank (hc : isBlank c = false) (hcs : ∀ d ∈ cs.getLast?, isBlank d = false) :
    ∀ d ∈ (c :: cs).getLast?, isBlank d = false := by
  intro d hd
  rw [List.getLast?_cons] at hd
  obtain rfl := Option.some.inj hd
  cases hlast : cs.getLast? with
  | none => exact hc
  | some e => exact hcs e hlast

theorem head_append_not_blank (hcs : ∀ d ∈ cs.head?, isBlank d = false) (hrest : ∀ d ∈ rest.head?, isBlank d = false) :
    ∀ d ∈ (cs ++ rest).head?, isBlank d = false := by
  cases cs with
  | nil => exact hrest
  | cons c cs => exact hcs

theorem trim_reversed (hc : isBlank c = false) (hcs : ∀ d ∈ cs.getLast?, isBlank d = false) :
    trimStart (trimStart (c :: cs).reverse).reverse = c :: cs := by
  have hstart : trimStart (c :: cs).reverse = (c :: cs).reverse := by
    apply trimStart_eq_self
    rw [List.head?_reverse]
    exact last_not_blank hc hcs
  rw [hstart, List.reverse_reverse]
  exact trimStart_eq_self (by simpa using hc)

theorem readReversed_array (h : ∀ d ∈ cs.getLast?, isBlank d = false) :
    readReversed (']' :: '[' :: cs) = (readReversed cs).map .array := by
  have htrim := trim_reversed (c := ']') (by decide) (last_not_blank (c := '[') (by decide) h)
  rw [readReversed, htrim]
  rfl

theorem readReversed_orNull (h : ∀ d ∈ cs.getLast?, isBlank d = false) :
    readReversed ('?' :: cs) = (readReversed cs).map orNull := by
  have htrim := trim_reversed (c := '?') (by decide) h
  rw [readReversed, htrim]
  rfl

theorem readReversed_scalar (h : t ∈ scalars) : readReversed t.text.toList.reverse = .ok t := by
  simp only [scalars, NumericKind.all, List.map_cons, List.map_nil, List.cons_append, List.nil_append, List.mem_cons,
    List.not_mem_nil, or_false] at h
  rcases h with rfl | rfl | rfl | rfl | rfl | rfl | rfl | rfl | rfl | rfl | rfl | rfl | rfl | rfl | rfl | rfl <;>
    (rw [readReversed]; rfl)

namespace Nameable

theorem first_not_blank (h : t.Nameable) : ∀ c ∈ t.text.toList.head?, isBlank c = false := by
  induction h with
  | @scalar t h =>
    have hall : ∀ t ∈ scalars, t.text.toList.head?.all (isBlank · == false) := by decide
    intro c hc
    have hfirst := (Option.all_eq_true _ _).mp (hall t h) c hc
    exact beq_iff_eq.mp hfirst
  | array h ih =>
    rw [text, String.toList_append]
    refine head_append_not_blank ih ?_
    rintro _ ⟨⟩
    rfl
  | @orNull t h ih =>
    by_cases hn : t.isNullable
    · have hself : t.orNull = t := if_pos hn
      rwa [hself]
    · have hnull : t.orNull = .nullable t := if_neg hn
      rw [hnull, text, String.toList_append]
      refine head_append_not_blank ih ?_
      rintro _ ⟨⟩
      rfl

theorem readReversed_text (h : t.Nameable) : readReversed t.text.toList.reverse = .ok t := by
  induction h with
  | scalar h => exact readReversed_scalar h
  | @array t h ih =>
    have htext : (ValueType.array t).text.toList.reverse = ']' :: '[' :: t.text.toList.reverse := by
      simp [text]
    rw [htext, readReversed_array (by simpa using h.first_not_blank), ih]
    rfl
  | @orNull t h ih =>
    by_cases hn : t.isNullable
    · have hself : t.orNull = t := if_pos hn
      rwa [hself]
    · have htext : t.orNull.text.toList.reverse = '?' :: t.text.toList.reverse := by
        simp [text, ValueType.orNull, hn]
      rw [htext, readReversed_orNull (by simpa using h.first_not_blank), ih]
      rfl

end Nameable

/-- **Names of types.** The text of a type built from the scalars by arrays and added nulls is a name of that type. A
name has no other type than such a one, whose text is then a name of the same type. -/
theorem ofName_text :
    (∀ t : ValueType, t.Nameable → ofName t.text = .ok t) ∧
    ∀ (name : String) (t : ValueType), ofName name = .ok t → t.Nameable ∧ ofName t.text = .ok t := by
  have htext : ∀ t : ValueType, t.Nameable → ofName t.text = .ok t := fun t h => h.readReversed_text
  refine ⟨htext, ?_⟩
  intro name t h
  have hnameable := nameable_of_readReversed h
  exact ⟨hnameable, htext t hnameable⟩

end RecordLogic.ValueType
