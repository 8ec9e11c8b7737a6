import RecordLogic.Proofs.CallOrder
import RecordLogic.Proofs.Numerals
import RecordLogic.Proofs.PathReads
import RecordLogic.Proofs.TypeSound

/-!
# Widths of integers

Whatever is computed, read or returned, an integer among it is of 64 bits, under any kind. So each has a decimal,
and the text of a numeral that is an integer is its digits under its minus signs.
-/

namespace RecordLogic

open Number

namespace NumericKind

variable {k : NumericKind} {n : Int}

theorem natAbs_of_fits (h : k.fits n) : n.natAbs < twoTo 64 := by
  have htwo : twoTo 64 = 18446744073709551616 := by decide
  rw [htwo]
  cases k <;> simp [fits, bounds, integral?] at h <;> omega

theorem fits_of_ofLiteral? (h : ofLiteral? n = some k) : k.fits n := by
  unfold ofLiteral? at h
  have hfits := List.find?_some h
  exact hfits

end NumericKind

def Value.Narrow (v : Value) : Prop := ∀ n, v = .int n → n.natAbs < twoTo 64

def Record.InMemory (r : Record) : Prop := ∀ v : Value, v.Inside (.record r) → v.size < twoTo 64

namespace Value

variable {v w x y : Value} {t : ValueType} {k : NumericKind}

theorem narrow_of_shape {shape : Shape} (hv : v.shape = shape) (h : shape ≠ .int) : v.Narrow := by
  intro n hn
  subst hn
  exact absurd hv.symm h

theorem narrow_of_fits {n : Int} (h : k.fits n) : (Value.int n).Narrow := by
  intro m hm
  cases hm
  exact NumericKind.natAbs_of_fits h

theorem narrow_null : Value.null.Narrow := narrow_of_shape rfl nofun

theorem narrow_getD {α : Type} {f : α → Value} (hf : ∀ a, (f a).Narrow) (o : Option α) :
    ((o.map f).getD .null).Narrow := by
  cases o with
  | none => exact narrow_null
  | some a => exact hf a

theorem OfKind.narrow (h : w.OfKind k) : w.Narrow := by
  intro n hn
  subst hn
  exact NumericKind.natAbs_of_fits h.2

theorem conform_narrow : ∀ {t : ValueType} {v w : Value}, v.conform t = .ok w → w.Narrow
  | .nullable t, v, w, h => by
    by_cases hv : v = .null
    · subst hv
      cases h
      exact narrow_null
    · rw [conform.eq_2 _ _ hv] at h
      exact conform_narrow h
  | .number k, v, w, h => by
    cases v with
    | int n => exact (intOfKind_ofKind h).narrow
    | float f => exact (floatOfKind_ofKind h).narrow
    | decimal d => exact (decimalOfKind_ofKind h).narrow
    | _ => cases h
  | .null, v, w, h | .bool, v, w, h | .string, v, w, h | .dateTime, v, w, h | .timeSpan, v, w, h
  | .guid, v, w, h | .enum _, v, w, h | .array _, v, w, h | .model _, v, w, h => by
    obtain rfl | hshape := conform_fits h
    · exact narrow_null
    · exact narrow_of_shape hshape (by simp [ValueType.shape])

/-! ## Operations -/

theorem complement_narrow (v : Value) : v.complement.Narrow := by
  cases v <;> exact narrow_of_shape rfl nofun

theorem convert_narrow (hv : v.Narrow) : (v.convert k).Narrow := by
  unfold convert
  split
  · exact narrow_null
  split
  · apply narrow_getD
    exact fun _ => narrow_of_shape rfl nofun
  split
  · apply narrow_getD
    exact fun _ => narrow_of_shape rfl nofun
  · exact hv

theorem negate_narrow (hv : v.Fits (.number k)) : (v.negate (some k)).Narrow := by
  obtain rfl | ⟨n, rfl, hk⟩ | ⟨f, rfl, -⟩ | ⟨d, rfl, -⟩ := hv.number
  · exact narrow_null
  · exact narrow_of_fits (NumericKind.fits_wrap hk _)
  · exact narrow_of_shape rfl nofun
  · exact narrow_of_shape rfl nofun

theorem negate_none_narrow (v : Value) : (v.negate none).Narrow := by
  cases v <;> exact narrow_of_shape rfl nofun

theorem operate_narrow (o : Operation) (hx : x.Fits (.number k)) : (x.operate o k y).Narrow := by
  unfold operate
  split
  · obtain hx | ⟨m, -, hk⟩ | ⟨f, hx, -⟩ | ⟨d, hx, -⟩ := hx.number
    · cases hx
    · apply narrow_getD
      exact fun n => narrow_of_fits (NumericKind.fits_wrap hk n)
    · cases hx
    · cases hx
  · exact narrow_of_shape rfl nofun
  · apply narrow_getD
    exact fun _ => narrow_of_shape rfl nofun
  · exact narrow_null

theorem operateOnTimes_narrow (o : Operation) (x y : Value) : (operateOnTimes o x y).Narrow := by
  unfold operateOnTimes
  split
  case h_1 => exact narrow_of_shape rfl nofun
  case h_6 => exact narrow_null
  all_goals
    apply narrow_getD
    exact fun _ => narrow_of_shape rfl nofun

theorem Reads.narrow (h : v.Reads t w) (hsize : ∀ u : Value, u.Inside v → u.size < twoTo 64) : w.Narrow := by
  cases h with
  | absent => exact narrow_null
  | value h => exact conform_narrow h
  | @length u hu =>
    intro n hn
    cases hn
    exact hsize u hu

end Value

/-! ## What is lowered -/

def Numeral.Plain (n : Numeral) : Prop :=
  ∀ i k, n.amount = .whole i k → i.natAbs < twoTo 64 ∧ ∃ (signs : Nat) (digits : List Char) (m : Nat),
    n.text.toList = List.replicate signs '-' ++ digits ∧ natural? digits = some m ∧ i = underSigns m signs

structure Typed.Plain (r : Record) (t : Typed) : Prop where
  narrow : (t.node.valueOn r).Narrow
  numeral : ∀ n, t = .numeral n → n.Plain

namespace Numeral

variable {n m : Numeral}

theorem ofLiteral_plain (f : Float) (text : String) (location : Location) : (ofLiteral f text location).Plain := by
  intro i k h
  unfold ofLiteral at h ⊢
  cases hn : natural? text.toList with
  | none =>
    rw [hn] at h
    cases h
  | some v =>
    rw [hn] at h
    cases hk : NumericKind.ofLiteral? (v : Int) with
    | none =>
      simp [hk] at h
    | some j =>
      simp [hk] at h
      obtain ⟨rfl, rfl⟩ := h
      exact ⟨NumericKind.natAbs_of_fits (NumericKind.fits_of_ofLiteral? hk), 0, _, v, rfl, hn, rfl⟩

theorem negated_plain (hn : n.Plain) (h : n.negated? = some m) : m.Plain := by
  intro i k hm
  unfold negated? at h
  split at h
  · rename_i j l hamount
    obtain ⟨k', hk, rfl⟩ := Option.map_eq_some_iff.mp h
    cases hm
    obtain ⟨-, signs, digits, v, htext, hv, rfl⟩ := hn j l hamount
    refine ⟨NumericKind.natAbs_of_fits (NumericKind.fits_of_ofLiteral? hk), signs + 1, digits, v, ?_, hv, rfl⟩
    rw [String.toList_append, htext]
    rfl
  · cases h
    cases hm

theorem Plain.narrow (hn : n.Plain) : n.value.Narrow := by
  unfold value
  split
  · rename_i i k hamount
    intro j hj
    cases hj
    exact (hn i k hamount).1
  · exact Value.narrow_of_shape rfl nofun

end Numeral

namespace Lowering

variable {r : Record} {s : Scope} {t a b : Typed} {location : Location}

theorem plain_part {n : Node} {type : ValueType} (h : (n.valueOn r).Narrow) : (Typed.part n type).Plain r :=
  ⟨h, nofun⟩

theorem plain_numeral {n : Numeral} (h : n.Plain) : (Typed.numeral n).Plain r where
  narrow := by
    show ((Node.const n.value).valueOn r).Narrow
    rw [Node.valueOn_const]
    exact h.narrow
  numeral := by
    intro m hm
    cases hm
    exact h

theorem literal_plain (v : Literal) : (literal v location).Plain r := by
  cases v with
  | number f text => exact plain_numeral (Numeral.ofLiteral_plain f text location)
  | _ => exact plain_part (Value.narrow_of_shape rfl nofun)

theorem field_plain {C : Catalogue} {path : List String} (hr : r.Built C) (hm : r.model = s.model)
    (hmemory : r.InMemory) (h : field s path location = .ok t) : t.Plain r := by
  unfold field at h
  rw [← hm] at h
  split at h
  · rename_i q hq
    cases h
    obtain ⟨-, p, hp, rfl⟩ := Model.resolve_eq_ok.mp hq
    apply plain_part
    rw [Node.valueOn_field]
    exact (hr.normalAs.follow hp).narrow hmemory
  · split at h
    · rename_i u hu
      cases h
      obtain ⟨_, _, _, -, -, -, -, rfl⟩ := member?_eq_some.mp hu
      exact plain_part (Value.narrow_of_shape rfl nofun)
    · cases h

theorem call_plain {name : String} {args : List Typed} (h : call s name args location = .ok t) : t.Plain r := by
  unfold call at h
  dsimp only at h
  split at h
  · rename_i f hf
    cases h
    apply plain_part
    rw [Node.valueOn_call, Signature.result]
    split
    · rename_i v hv
      exact Value.conform_narrow hv
    · exact Value.narrow_null
  · split at h <;> cases h

theorem coerce_valueOn {k : NumericKind} {n : Node} (h : coerce t k = .ok n) :
    n.valueOn r = t.inKind k (t.node.valueOn r) := by
  unfold Node.valueOn
  rw [Node.eval_eq_evalWith, coerce_evalWith h, ← Node.eval_eq_evalWith]
  rfl

theorem coerce_narrow {k : NumericKind} {n : Node} (ht : t.Plain r) (h : coerce t k = .ok n) :
    (n.valueOn r).Narrow := by
  rw [coerce_valueOn h]
  unfold Typed.inKind
  split
  · exact ht.narrow
  split
  · exact Value.convert_narrow ht.narrow
  split
  · apply Value.narrow_getD
    exact fun _ => Value.narrow_of_shape rfl nofun
  · exact Value.convert_narrow ht.narrow

theorem negateNumber_plain {k : NumericKind} (ht : t.Good r) (hk : t.type.underlying = .number k)
    (h : negateNumber t k = .ok a) : a.Plain r := by
  unfold negateNumber at h
  obtain ⟨n, hn, h⟩ := bind_eq_ok.mp h
  cases h
  obtain ⟨hfits, -⟩ := coerce_good ht (.inr ⟨k, hk, isIntegral_of_negationKind⟩) hn
  exact plain_part (Value.negate_narrow hfits)

theorem negate_plain (ht : t.Good r) (hplain : t.Plain r) (h : negate t location = .ok a) : a.Plain r := by
  unfold negate at h
  split at h
  · rename_i k hk
    split at h
    · rename_i n
      split at h
      · rename_i m hm
        cases h
        exact plain_numeral (Numeral.negated_plain (hplain.numeral n rfl) hm)
      · exact negateNumber_plain ht hk h
    · exact negateNumber_plain ht hk h
  · cases h
    exact plain_part (Value.negate_none_narrow _)
  · cases h

theorem unary_plain {op : UnaryOp} (ht : t.Good r) (hplain : t.Plain r) (h : unary op t location = .ok a) :
    a.Plain r := by
  cases op with
  | negate => exact negate_plain ht hplain h
  | not =>
    unfold unary at h
    dsimp only at h
    split at h <;> cases h
    exact plain_part (Value.complement_narrow _)

theorem unify_narrow {symbol : String} {m : Meeting} (ha : a.Plain r) (hb : b.Plain r)
    (h : unify symbol a b location = .ok m) : (m.left.valueOn r).Narrow ∧ (m.right.valueOn r).Narrow := by
  obtain ⟨j, k, -, -, hleft, hright⟩ | ⟨-, hleft, hright⟩ := unify_cases h
  · exact ⟨coerce_narrow ha hleft, coerce_narrow hb hright⟩
  · rw [hleft, hright]
    exact ⟨ha.narrow, hb.narrow⟩

theorem relation_plain {c : Relation} (h : relation c a b location = .ok t) : t.Plain r := by
  obtain ⟨left, right, rfl⟩ := relation_node h
  exact plain_part (Value.narrow_of_shape rfl nofun)

theorem logical_plain {op : BinaryOp} {make : Node → Node → Node} (hmake : make = .and ∨ make = .or)
    (h : logical op make a b location = .ok t) : t.Plain r := by
  unfold logical at h
  split at h <;> cases h
  apply plain_part
  obtain rfl | rfl := hmake
  · rw [Node.valueOn_and]
    exact Value.narrow_of_shape rfl nofun
  · rw [Node.valueOn_or]
    exact Value.narrow_of_shape rfl nofun

theorem operation_plain {o : Operation} (ha : a.Good r) (h : operation o a b location = .ok t) : t.Plain r := by
  unfold operation at h
  dsimp only at h
  split at h
  · cases h
    exact plain_part (Value.narrow_of_shape rfl nofun)
  split at h
  · rename_i k hk
    obtain ⟨n, hn, h⟩ := bind_eq_ok.mp h
    obtain ⟨p, hp, h⟩ := bind_eq_ok.mp h
    cases h
    apply plain_part
    rw [Node.valueOn_operate]
    exact Value.operate_narrow o (coerce_good ha (widens_of_commonKind hk).1 hn).1
  split at h
  · cases h
    apply plain_part
    rw [Node.valueOn_operateOnTimes]
    exact Value.operateOnTimes_narrow o _ _
  · cases h

theorem binary_plain {op : BinaryOp} (ha : a.Good r) (h : binary op a b location = .ok t) : t.Plain r := by
  cases op with
  | and => exact logical_plain (.inl rfl) h
  | or => exact logical_plain (.inr rfl) h
  | relation c => exact relation_plain h
  | operation o => exact operation_plain ha h

theorem conditional_plain {c : Typed} (ha : a.Plain r) (hb : b.Plain r) (h : conditional c a b location = .ok t) :
    t.Plain r := by
  unfold conditional at h
  obtain ⟨m, hm, h⟩ := bind_eq_ok.mp h
  obtain ⟨hleft, hright⟩ := unify_narrow ha hb hm
  cases h
  apply plain_part
  rw [Node.valueOn_conditional]
  split
  · exact hleft
  · exact hright

/-- No part of an expression comes to an integer of more than 64 bits, by induction on the expression: what operators
compute is wrapped, and the rest is read, returned or written. -/
theorem lower_plain {C : Catalogue} (hr : r.Built C) (hm : r.model = s.model) (hmemory : r.InMemory) {e : Expr}
    {t : Typed} (h : lower s e = .ok t) : t.Plain r := by
  cases e with
  | literal v l =>
    rw [lower] at h
    cases h
    exact literal_plain v
  | field path l =>
    rw [lower] at h
    exact field_plain hr hm hmemory h
  | call name args l =>
    rw [lower] at h
    -- A result conforms to its type whatever the arguments are.
    obtain ⟨ts, -, h⟩ := bind_eq_ok.mp h
    exact call_plain h
  | unary op e l =>
    rw [lower] at h
    obtain ⟨u, hu, h⟩ := bind_eq_ok.mp h
    exact unary_plain (lower_good hr.sound.2 hm hu) (lower_plain hr hm hmemory hu) h
  | binary op a b l =>
    obtain ⟨u, v, hu, -, h⟩ := lower_binary h
    exact binary_plain (lower_good hr.sound.2 hm hu) h
  | conditional c y n l =>
    obtain ⟨u, v, w, -, hv, hw, h⟩ := lower_conditional h
    exact conditional_plain (lower_plain hr hm hmemory hv) (lower_plain hr hm hmemory hw) h

end Lowering

end RecordLogic
