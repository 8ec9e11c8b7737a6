import Mathlib.Data.List.Forall2
import RecordLogic.Predicate.Lowering
import RecordLogic.Proofs.Contexts

/-!
# Parts that are alike

Two typed parts are alike on some records if they have one type, evaluate alike there and go over to other kinds
alike. Whatever is lowered around them comes out alike, or is refused around both.
-/

namespace RecordLogic

def Node.Like (S : Record → Prop) (a b : Node) : Prop := ∀ r, S r → a.eval r = b.eval r

/-- One type and nodes that are alike. Without `exact` the two are no decimals, and nothing is known of what becomes
of them where they meet one. -/
structure Typed.Alike (S : Record → Prop) (exact : Prop) (a b : Typed) : Prop where
  type : a.type = b.type
  node : Node.Like S a.node b.node
  decimal : a.type.kind? = some .decimal → exact
  coerce : ∀ k, (k = .decimal → exact) → Parallel (Node.Like S) (Lowering.coerce a k) (Lowering.coerce b k)

inductive Typed.Twins (S : Record → Prop) : Typed → Typed → Prop where
  | parts {m n : Node} (type : ValueType) (h : Node.Like S m n) : Twins S (.part m type) (.part n type)

section
variable {S : Record → Prop} {a b : Typed}

theorem Node.Like.refl (n : Node) : Node.Like S n n := fun _ _ => rfl

theorem Lowering.coerce_part {m n : Node} {type : ValueType} (h : Node.Like S m n) (k : NumericKind) :
    Parallel (Node.Like S) (coerce (.part m type) k) (coerce (.part n type) k) := by
  unfold coerce
  by_cases hk : type.kind? = some k ∨ (type.kind?.any NumericKind.isIntegral ∧ k.isIntegral)
  · simp only [Typed.type, hk, ↓reduceIte]
    exact .ok h
  · simp only [Typed.type, hk, ↓reduceIte]
    exact .ok fun r hr => by rw [Node.eval, Node.eval, h r hr]

theorem Typed.Alike.refl (t : Typed) : t.Alike S True t :=
  ⟨rfl, .refl _, fun _ => trivial, fun _ _ => .refl Node.Like.refl _⟩

theorem Typed.Twins.alike (h : a.Twins S b) : a.Alike S True b := by
  cases h with
  | parts type h => exact ⟨rfl, h, fun _ => trivial, fun k _ => Lowering.coerce_part h k⟩

end

/-! ## Decimals among kinds -/

theorem ValueType.kind?_eq_some {t : ValueType} {k : NumericKind} : t.kind? = some k ↔ t.underlying = .number k := by
  unfold ValueType.kind?
  cases t.underlying <;> simp

theorem NumericKind.widen_eq_decimal {j k : NumericKind} : j.widen k = .decimal ↔ j = .decimal ∨ k = .decimal := by
  cases j <;> cases k <;> decide

theorem NumericKind.promote_eq_decimal {k : NumericKind} : k.promote = .decimal ↔ k = .decimal := by
  cases k <;> decide

namespace Lowering

variable {S : Record → Prop} {exact exact' : Prop} {a b c d : Typed} {s : Scope} {location : Location}

theorem evalAll_like {as bs : List Node} (h : List.Forall₂ (Node.Like S) as bs) {r : Record} (hr : S r) :
    Node.evalAll r as = Node.evalAll r bs := by
  induction h with
  | nil => rfl
  | cons hab _ ih => rw [Node.evalAll, Node.evalAll, hab r hr, ih]

/-! ## One step around them -/

structure Meeting.Alike (S : Record → Prop) (m n : Meeting) : Prop where
  left : Node.Like S m.left n.left
  right : Node.Like S m.right n.right
  type : m.type = n.type

/-- Two numbers are computed as decimals only where one of them is one. -/
theorem decimal_of_commonKind {t u : ValueType} (h : commonKind? t u = some .decimal) :
    t.kind? = some .decimal ∨ u.kind? = some .decimal := by
  rw [ValueType.kind?_eq_some, ValueType.kind?_eq_some]
  unfold commonKind? at h
  split at h
  · rename_i j k hj hk
    rw [Option.some.injEq, NumericKind.promote_eq_decimal, NumericKind.widen_eq_decimal] at h
    obtain rfl | rfl := h
    · exact .inl hj
    · exact .inr hk
  · rename_i k hk _
    rw [Option.some.injEq, NumericKind.promote_eq_decimal] at h
    subst h
    exact .inl hk
  · rename_i k _ hk
    rw [Option.some.injEq, NumericKind.promote_eq_decimal] at h
    subst h
    exact .inr hk
  · cases h

theorem unify_alike (symbol : String) (h : a.Alike S exact b) (hc : c.Alike S exact' d)
    (ha : c.type.kind? = some .decimal → exact) (hb : a.type.kind? = some .decimal → exact') :
    Parallel (Meeting.Alike S) (unify symbol a c location) (unify symbol b d location) := by
  unfold unify
  rw [← h.type, ← hc.type]
  dsimp only
  split
  · exact .ok ⟨h.node, hc.node, rfl⟩
  · exact .ok ⟨h.node, hc.node, rfl⟩
  · exact .ok ⟨h.node, hc.node, rfl⟩
  · rename_i j k hj hk
    have hmeets : j.widen k = .decimal → a.type.kind? = some .decimal ∨ c.type.kind? = some .decimal := by
      intro hd
      rw [ValueType.kind?_eq_some, ValueType.kind?_eq_some]
      obtain rfl | rfl := NumericKind.widen_eq_decimal.mp hd
      · exact .inl hj
      · exact .inr hk
    refine (h.coerce _ fun hd => (hmeets hd).elim h.decimal ha).bind fun m n hmn => ?_
    exact (hc.coerce _ fun hd => (hmeets hd).elim hb hc.decimal).bind fun p q hpq => .ok ⟨hmn, hpq, rfl⟩
  · split
    · exact .ok ⟨h.node, hc.node, rfl⟩
    · exact .error _ _
  · split
    · exact .ok ⟨h.node, hc.node, rfl⟩
    · exact .error _ _

theorem relation_alike (t : Relation) (h : a.Alike S exact b) (hc : c.Alike S exact' d)
    (ha : c.type.kind? = some .decimal → exact) (hb : a.type.kind? = some .decimal → exact') :
    Parallel (Typed.Twins S) (relation t a c location) (relation t b d location) := by
  unfold relation
  refine (unify_alike t.symbol h hc ha hb).bind fun m n hmn => ?_
  rw [hmn.type]
  by_cases horder : (t.isOrder && !n.type.isOrdered) = true
  · simp only [horder, ↓reduceIte]
    exact .error _ _
  · simp only [horder]
    exact .ok (.parts .bool fun r hr => by rw [Node.eval, Node.eval, hmn.left r hr, hmn.right r hr])

theorem textual_alike (h : a.Alike S exact b) : Node.Like S (textual a) (textual b) := by
  unfold textual
  rw [h.type]
  cases b.type.enum? with
  | none => exact h.node
  | some e => exact fun r hr => by rw [Node.eval, Node.eval, h.node r hr]

theorem operation_alike (o : Operation) (h : a.Alike S exact b) (hc : c.Alike S exact' d)
    (ha : c.type.kind? = some .decimal → exact) (hb : a.type.kind? = some .decimal → exact') :
    Parallel (Typed.Twins S) (operation o a c location) (operation o b d location) := by
  unfold operation
  rw [← h.type, ← hc.type]
  dsimp only
  split
  · have hj := textual_alike h
    have hk := textual_alike hc
    exact .ok (.parts _ fun r hr => by rw [Node.eval, Node.eval, hj r hr, hk r hr])
  split
  · rename_i k hk
    have hmeets : k = .decimal → a.type.kind? = some .decimal ∨ c.type.kind? = some .decimal := by
      intro hd
      exact decimal_of_commonKind (hd ▸ hk)
    refine (h.coerce k fun hd => (hmeets hd).elim h.decimal ha).bind fun m n hmn => ?_
    refine (hc.coerce k fun hd => (hmeets hd).elim hb hc.decimal).bind fun p q hpq => ?_
    exact .ok (.parts _ fun r hr => by rw [Node.eval, Node.eval, hmn r hr, hpq r hr])
  split
  · exact .ok (.parts _ fun r hr => by rw [Node.eval, Node.eval, h.node r hr, hc.node r hr])
  · exact .error _ _

theorem logical_alike (op : BinaryOp) {make : Node → Node → Node}
    (hmake : Node.Like S (make a.node c.node) (make b.node d.node)) (h : a.type = b.type) (hc : c.type = d.type) :
    Parallel (Typed.Twins S) (logical op make a c location) (logical op make b d location) := by
  unfold logical
  rw [← h, ← hc]
  split
  · exact .ok (.parts _ hmake)
  · exact .error _ _

theorem binary_alike (op : BinaryOp) (h : a.Alike S exact b) (hc : c.Alike S exact' d)
    (ha : c.type.kind? = some .decimal → exact) (hb : a.type.kind? = some .decimal → exact') :
    Parallel (Typed.Twins S) (binary op a c location) (binary op b d location) := by
  cases op with
  | and =>
    refine logical_alike .and (fun r hr => ?_) h.type hc.type
    rw [Node.eval, Node.eval, h.node r hr, hc.node r hr]
  | or =>
    refine logical_alike .or (fun r hr => ?_) h.type hc.type
    rw [Node.eval, Node.eval, h.node r hr, hc.node r hr]
  | relation t => exact relation_alike t h hc ha hb
  | operation o => exact operation_alike o h hc ha hb

theorem conditional_alike {t u : Typed} (ht : Node.Like S t.node u.node) (h : a.Alike S exact b)
    (hc : c.Alike S exact' d) (ha : c.type.kind? = some .decimal → exact) (hb : a.type.kind? = some .decimal → exact') :
    Parallel (Typed.Twins S) (conditional t a c location) (conditional u b d location) := by
  unfold conditional
  refine (unify_alike "?:" h hc ha hb).bind fun m n hmn => ?_
  rw [hmn.type]
  exact .ok (.parts _ fun r hr => by rw [Node.eval, Node.eval, ht r hr, hmn.left r hr, hmn.right r hr])

def AlikeInCall (S : Record → Prop) (a b : Typed) : Prop := a.type = b.type ∧ Node.Like S a.node b.node

theorem call_alike (name : String) {as bs : List Typed} (h : List.Forall₂ (AlikeInCall S) as bs) :
    Parallel (Typed.Twins S) (call s name as location) (call s name bs location) := by
  have hsorts : (as.map fun t => t.type.coarse?) = bs.map fun t => t.type.coarse? := by
    induction h with
    | nil => rfl
    | cons hab _ ih => rw [List.map_cons, List.map_cons, hab.1, ih]
  have hnodes : List.Forall₂ (Node.Like S) (as.map Typed.node) (bs.map Typed.node) := by
    rw [List.forall₂_map_left_iff, List.forall₂_map_right_iff]
    exact h.imp fun _ _ hab => hab.2
  unfold call
  rw [hsorts, h.length_eq]
  dsimp only
  split
  · exact .ok (.parts _ fun r hr => by rw [Node.eval, Node.eval, evalAll_like hnodes hr])
  · split
    · exact .error _ _
    · exact .error _ _

theorem not_alike (h : a.Alike S exact b) :
    Parallel (Typed.Twins S) (unary .not a location) (unary .not b location) := by
  unfold unary
  dsimp only
  rw [h.type]
  split
  · exact .ok (.parts _ fun r hr => by rw [Node.eval, Node.eval, h.node r hr])
  · exact .error _ _

theorem negateNumber_twins (k : NumericKind) (h : a.Twins S b) :
    Parallel (Typed.Twins S) (negateNumber a k) (negateNumber b k) := by
  cases h with
  | parts type h =>
    unfold negateNumber
    refine (coerce_part h _).bind fun m n hmn => ?_
    exact .ok (.parts _ fun r hr => by rw [Node.eval, Node.eval, hmn r hr])

theorem unary_twins (op : UnaryOp) (h : a.Twins S b) :
    Parallel (Typed.Twins S) (unary op a location) (unary op b location) := by
  cases op with
  | not => exact not_alike h.alike
  | negate =>
    cases h with
    | parts type h =>
      unfold unary negate
      dsimp only [Typed.type, Typed.node]
      split
      · exact negateNumber_twins _ (.parts type h)
      · exact .ok (.parts _ fun r hr => by rw [Node.eval, Node.eval, h r hr])
      · exact .error _ _

/-! ## A frame around them -/

theorem lowerAll_alike {e e' : Expr} (h : Parallel (Typed.Alike S exact) (lower s e) (lower s e'))
    (before after : List Expr) :
    Parallel (List.Forall₂ (AlikeInCall S)) (lowerAll s (before ++ e :: after)) (lowerAll s (before ++ e' :: after)) := by
  have hrefl : ∀ ts : List Typed, List.Forall₂ (AlikeInCall S) ts ts := by
    intro ts
    exact List.forall₂_same.mpr fun t _ => ⟨rfl, .refl _⟩
  induction before with
  | nil =>
    rw [List.nil_append, List.nil_append, lowerAll, lowerAll]
    refine h.bind fun a b hab => ?_
    exact .bind_left fun ts _ => .ok (.cons ⟨hab.type, hab.node⟩ (hrefl ts))
  | cons x before ih =>
    rw [List.cons_append, List.cons_append, lowerAll, lowerAll]
    refine .bind_left fun t _ => ?_
    exact ih.bind fun as bs hab => .ok (.cons ⟨rfl, .refl _⟩ hab)

end Lowering

namespace Expr.Frame

open Lowering

variable {S : Record → Prop} {exact : Prop} {s : Scope} {e e' : Expr}

def MeetsDecimal (s : Scope) (f : Frame) : Prop :=
  ∃ d t, f.beside? = some d ∧ lower s d = .ok t ∧ t.type.kind? = some .decimal

theorem lower_alike {f : Frame} (h : Parallel (Typed.Alike S exact) (lower s e) (lower s e'))
    (hminus : f.isMinus = false) (hexact : f.MeetsDecimal s → exact) :
    Parallel (Typed.Twins S) (lower s (f.fill e)) (lower s (f.fill e')) := by
  cases f with
  | call name before after l =>
    rw [fill, fill, lower, lower]
    exact (lowerAll_alike h before after).bind fun as bs hab => call_alike name hab
  | unary op l =>
    cases op with
    | negate => cases hminus
    | not =>
      rw [fill, fill, lower, lower]
      exact h.bind fun a b hab => not_alike hab
  | left op x l =>
    rw [fill, fill, lower, lower]
    refine h.bind fun a b hab => .bind_left fun t ht => ?_
    exact binary_alike op hab (.refl t) (fun hd => hexact ⟨x, t, rfl, ht, hd⟩) fun _ => trivial
  | right op x l =>
    rw [fill, fill, lower, lower]
    refine .bind_left fun t ht => h.bind fun a b hab => ?_
    exact binary_alike op (.refl t) hab (fun _ => trivial) fun hd => hexact ⟨x, t, rfl, ht, hd⟩
  | condition y n l =>
    rw [fill, fill, lower, lower]
    refine h.bind fun a b hab => ?_
    rw [hab.type]
    split
    · refine .bind_left fun t _ => .bind_left fun u _ => ?_
      exact conditional_alike hab.node (.refl t) (.refl u) (fun _ => trivial) fun _ => trivial
    · exact .error _ _
  | yes c n l =>
    rw [fill, fill, lower, lower]
    refine .bind_left fun t _ => ?_
    split
    · refine h.bind fun a b hab => .bind_left fun u hu => ?_
      exact conditional_alike (.refl _) hab (.refl u) (fun hd => hexact ⟨n, u, rfl, hu, hd⟩) fun _ => trivial
    · exact .error _ _
  | no c y l =>
    rw [fill, fill, lower, lower]
    refine .bind_left fun t _ => ?_
    split
    · refine .bind_left fun u hu => h.bind fun a b hab => ?_
      exact conditional_alike (.refl _) (.refl u) hab (fun _ => trivial) fun hd => hexact ⟨y, u, rfl, hu, hd⟩
    · exact .error _ _

theorem lower_twins (f : Frame) (h : Parallel (Typed.Twins S) (lower s e) (lower s e')) :
    Parallel (Typed.Twins S) (lower s (f.fill e)) (lower s (f.fill e')) := by
  by_cases hminus : f.isMinus = false
  · exact lower_alike (h.mono fun _ _ hab => hab.alike) hminus fun _ => trivial
  · cases f with
    | unary op l =>
      rw [fill, fill, lower, lower]
      exact h.bind fun a b hab => unary_twins op hab
    | _ => exact absurd rfl hminus

/-- Whatever is around two twins comes out as twins. -/
theorem lower_fill_twins (C : Context) (h : Parallel (Typed.Twins S) (lower s e) (lower s e')) :
    Parallel (Typed.Twins S) (lower s (C.fill e)) (lower s (C.fill e')) := by
  induction C using List.reverseRecOn with
  | nil => exact h
  | append_singleton C f ih =>
    rw [Context.fill_append, Context.fill_append]
    exact f.lower_twins ih

end Expr.Frame

end RecordLogic
