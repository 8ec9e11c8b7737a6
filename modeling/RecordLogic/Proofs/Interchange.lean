import Mathlib.Data.List.TakeWhile
import RecordLogic.Predicate.Basic
import RecordLogic.Proofs.Numerals
import RecordLogic.Proofs.TypeSound

/-!
# A literal in the place of a field

A literal can stand wherever a field of its value can, but for one case: under two or more minus signs it has no
decimal, and an expression in which it meets one is refused. Everywhere else the two expressions are accepted or
refused together and give the same answers.
-/

namespace RecordLogic

open Number

namespace Lowering

variable {a b t : Typed} {s : Scope} {location : Location} {j k : NumericKind}

/-! ## Where a decimal is met -/

theorem isCondition_of_kind? {u : ValueType} (h : u.kind? = some k) : u.isCondition = false := by
  unfold ValueType.isCondition
  rw [ValueType.kind?_eq_some.mp h]

theorem isText_of_kind? {u : ValueType} (h : u.kind? = some k) : isText u = false := by
  unfold isText
  rw [← ValueType.coarse?_underlying, ValueType.kind?_eq_some.mp h]
  rfl

def BothDecimal (a b : Typed) : Prop := (∃ m, coerce a .decimal = .ok m) ∧ ∃ n, coerce b .decimal = .ok n

theorem unify_decimal {symbol : String} {m : Meeting} (ha : a.type.kind? = some j) (hb : b.type.kind? = some k)
    (hd : j = .decimal ∨ k = .decimal) (h : unify symbol a b location = .ok m) : BothDecimal a b := by
  unfold unify at h
  rw [ValueType.kind?_eq_some.mp ha, ValueType.kind?_eq_some.mp hb] at h
  dsimp only at h
  rw [NumericKind.widen_eq_decimal.mpr hd] at h
  obtain ⟨p, hp, h⟩ := bind_eq_ok.mp h
  obtain ⟨q, hq, -⟩ := bind_eq_ok.mp h
  exact ⟨⟨p, hp⟩, q, hq⟩

theorem operation_decimal {o : Operation} (ha : a.type.kind? = some j) (hb : b.type.kind? = some k)
    (hd : j = .decimal ∨ k = .decimal) (h : operation o a b location = .ok t) : BothDecimal a b := by
  have hcommon : commonKind? a.type b.type = some .decimal := by
    unfold commonKind?
    rw [ValueType.kind?_eq_some.mp ha, ValueType.kind?_eq_some.mp hb]
    dsimp only
    rw [NumericKind.widen_eq_decimal.mpr hd]
    rfl
  unfold operation at h
  rw [isText_of_kind? ha, isText_of_kind? hb, hcommon] at h
  simp only [Bool.or_self, Bool.false_eq_true, and_false, ↓reduceIte] at h
  obtain ⟨p, hp, h⟩ := bind_eq_ok.mp h
  obtain ⟨q, hq, -⟩ := bind_eq_ok.mp h
  exact ⟨⟨p, hp⟩, q, hq⟩

theorem binary_decimal {op : BinaryOp} (ha : a.type.kind? = some j) (hb : b.type.kind? = some k)
    (hd : j = .decimal ∨ k = .decimal) (h : binary op a b location = .ok t) : BothDecimal a b := by
  have hlogical : ∀ op make, logical op make a b location ≠ .ok t := by
    intro op make h
    unfold logical at h
    rw [isCondition_of_kind? ha] at h
    cases h
  cases op with
  | and => exact absurd h (hlogical _ _)
  | or => exact absurd h (hlogical _ _)
  | relation c =>
    obtain ⟨m, hm, -⟩ := bind_eq_ok.mp h
    exact unify_decimal ha hb hd hm
  | operation o => exact operation_decimal ha hb hd h

theorem conditional_decimal {c : Typed} (ha : a.type.kind? = some j) (hb : b.type.kind? = some k)
    (hd : j = .decimal ∨ k = .decimal) (h : conditional c a b location = .ok t) : BothDecimal a b := by
  obtain ⟨m, hm, -⟩ := bind_eq_ok.mp h
  exact unify_decimal ha hb hd hm

end Lowering

open Lowering

namespace Expr

variable {s : Scope}

theorem Frame.coerce_of_meetsDecimal {f : Frame} {e : Expr} {a t : Typed} {j : NumericKind} (hf : f.MeetsDecimal s)
    (ha : lower s e = .ok a) (hj : a.type.kind? = some j) (h : lower s (f.fill e) = .ok t) :
    ∃ m, coerce a .decimal = .ok m := by
  obtain ⟨d, u, hbeside, hu, hd⟩ := hf
  cases f with
  | call | unary | condition => cases hbeside
  | left op x l =>
    cases hbeside
    rw [fill, lower, ha, hu] at h
    exact (binary_decimal hj hd (.inr rfl) h).1
  | right op x l =>
    cases hbeside
    rw [fill, lower, ha, hu] at h
    exact (binary_decimal hd hj (.inl rfl) h).2
  | yes c n l =>
    cases hbeside
    rw [fill, lower] at h
    obtain ⟨v, -, h⟩ := bind_eq_ok.mp h
    split at h
    · rw [ha, hu] at h
      exact (conditional_decimal hj hd (.inr rfl) h).1
    · cases h
  | no c y l =>
    cases hbeside
    rw [fill, lower] at h
    obtain ⟨v, -, h⟩ := bind_eq_ok.mp h
    split at h
    · rw [ha, hu] at h
      exact (conditional_decimal hd hj (.inl rfl) h).2
    · cases h

namespace Context

/-- The hole is under two or more minus signs, and what they give meets a decimal. -/
def Clashes (s : Scope) (C : Context) : Prop :=
  2 ≤ (C.takeWhile Frame.isMinus).length ∧ ∃ f ∈ (C.dropWhile Frame.isMinus).head?, f.MeetsDecimal s

variable {S : Record → Prop} {digits : List Char} {n k : Nat} {e e' : Expr}

theorem lower_signs {signs : Context} (hsigns : ∀ f ∈ signs, f.isMinus) (hn : n < twoTo 31)
    (h : Parallel (SignedPair S digits n k) (lower s e) (lower s e')) :
    Parallel (SignedPair S digits n (k + signs.length)) (lower s (fill signs e)) (lower s (fill signs e')) := by
  induction signs generalizing k e e' with
  | nil => exact h
  | cons f signs ih =>
    have hf : f.isMinus = true := hsigns f (.head _)
    have hnext : Parallel (SignedPair S digits n (k + 1)) (lower s (f.fill e)) (lower s (f.fill e')) := by
      unfold Frame.isMinus at hf
      split at hf
      · rw [Frame.fill, Frame.fill, lower, lower]
        exact h.bind fun a b hab => hab.negate hn
      · cases hf
    have hrest := ih (fun g hg => hsigns g (.tail _ hg)) hnext
    rw [Nat.add_right_comm] at hrest
    exact hrest

/-- The innermost part of a context, up to the first frame that is no minus sign. -/
theorem lower_leading (C : Context) (hn : n < twoTo 31)
    (h : Parallel (SignedPair S digits n 0) (lower s e) (lower s e')) :
    Parallel (SignedPair S digits n (C.takeWhile Frame.isMinus).length)
      (lower s (fill (C.takeWhile Frame.isMinus) e)) (lower s (fill (C.takeWhile Frame.isMinus) e')) := by
  have hsigns : ∀ f ∈ C.takeWhile Frame.isMinus, f.isMinus := fun f hf => List.mem_takeWhile_imp hf
  have hleading := lower_signs hsigns hn h
  rwa [Nat.zero_add] at hleading

theorem lower_fill_of_not_clashes {C : Context} (h : Parallel (SignedPair S digits n 0) (lower s e) (lower s e'))
    (hdigits : natural? digits = some n) (hn : n < twoTo 31) (hC : ¬ C.Clashes s) :
    ∃ exact, Parallel (Typed.Alike S exact) (lower s (C.fill e)) (lower s (C.fill e')) := by
  have halike := (lower_leading C hn h).mono fun _ _ hab => hab.alike hdigits hn
  unfold Clashes at hC
  rw [← List.takeWhile_append_dropWhile (p := Frame.isMinus) (l := C), fill_append, fill_append]
  cases houter : C.dropWhile Frame.isMinus with
  | nil => exact ⟨_, halike⟩
  | cons f outer =>
    have hminus : f.isMinus = false := by
      have hhead := List.head?_dropWhile_not Frame.isMinus C
      rw [houter] at hhead
      simpa using hhead
    have hexact : f.MeetsDecimal s → (C.takeWhile Frame.isMinus).length ≤ 1 := by
      intro hmeets
      by_contra hlong
      exact hC ⟨by omega, f, by rw [houter]; rfl, hmeets⟩
    have htwins := Frame.lower_fill_twins outer (Frame.lower_alike halike hminus hexact)
    exact ⟨True, htwins.mono fun _ _ hab => hab.alike⟩

theorem not_lower_fill_of_clashes {C : Context} (h : Parallel (SignedPair S digits n 0) (lower s e) (lower s e'))
    (hn : n < twoTo 31) (hC : C.Clashes s) (t : Typed) : lower s (C.fill e) ≠ .ok t := by
  intro ht
  obtain ⟨hlong, f, hf, hmeets⟩ := hC
  have hsigns := lower_leading C hn h
  rw [← List.takeWhile_append_dropWhile (p := Frame.isMinus) (l := C), fill_append] at ht
  cases houter : C.dropWhile Frame.isMinus with
  | nil =>
    rw [houter] at hf
    cases hf
  | cons g outer =>
    rw [houter] at hf ht
    obtain rfl : g = f := Option.some.inj hf
    generalize fill (C.takeWhile Frame.isMinus) e = signed at hsigns ht
    obtain ⟨u, hu⟩ := lower_parts ht (g.fill signed) (Context.mem_parts_fill outer (g.fill signed))
    obtain ⟨a, ha⟩ := lower_parts hu signed (g.mem_parts_fill (mem_parts_self signed))
    obtain ⟨b, -, hab⟩ := hsigns.exists_right ha
    have hkind : a.type.kind? = some .i32 := by
      cases hab
      rfl
    obtain ⟨m, hm⟩ := Frame.coerce_of_meetsDecimal hmeets ha hkind hu
    exact hab.coerce_decimal_ne_ok hlong m hm

end Context

end Expr

/-! ## The literal and the field -/

section
variable {s : Scope} {name raw : String} {i n : Nat} {f : Field}

theorem lower_literal (hraw : natural? raw.toList = some n) (hn : n < twoTo 31) (v : Float) (l : Location) :
    lower s (.literal (.number v raw) l) = .ok (.numeral ⟨raw, l, .whole n .i32⟩) := by
  have hsmall : (n : Int).natAbs < twoTo 31 := by simpa using hn
  rw [lower, literal_natural l hraw (NumericKind.ofLiteral?_small hsmall)]

theorem lower_field (hf : s.model.field? s.mode name = some (i, f)) (hi : f.type = .number .i32) (l : Location) :
    lower s (.field [name] l) = .ok (.part (.field (Text.dotted [name]) [.field i]) (.number .i32)) := by
  have hresolve : s.model.resolve s.mode [name] = .ok ⟨.number .i32, [.field i]⟩ := by
    simp [Model.resolve, Model.walk, Model.advance?, ValueType.underlying, hf, hi, ValueType.orNullIf]
  rw [lower, field, hresolve]

theorem literal_field_pair (hf : s.model.field? s.mode name = some (i, f)) (hi : f.type = .number .i32)
    (hraw : natural? raw.toList = some n) (hn : n < twoTo 31) (v : Float) (l l' : Location) :
    Parallel (SignedPair (fun r => r.values[i]? = some (.int n)) raw.toList n 0)
      (lower s (.literal (.number v raw) l)) (lower s (.field [name] l')) := by
  rw [lower_literal hraw hn, lower_field hf hi]
  refine .ok (.intro l rfl fun r hr => ?_)
  rw [Node.eval, Record.follow, Value.follow, hr]
  rfl

theorem Scope.lower_of_compileTree {e : Expr} {source : String} {p : Predicate} (h : s.compileTree e source = .ok p) :
    ∃ t, lower s e = .ok t := by
  unfold Scope.compileTree at h
  split at h
  · cases h
  · rename_i t ht
    exact ⟨t, ht⟩

theorem Scope.compileTree_parallel {S : Record → Prop} {exact : Prop} {e e' : Expr}
    (h : Parallel (Typed.Alike S exact) (lower s e) (lower s e')) (source source' : String) :
    Parallel (fun p q => ∀ r, S r → p.run r = q.run r) (s.compileTree e source) (s.compileTree e' source') := by
  unfold Scope.compileTree
  generalize lower s e = x at h ⊢
  generalize lower s e' = y at h ⊢
  cases h with
  | error c d => exact .error _ _
  | ok hab =>
    dsimp only
    rw [hab.type]
    split
    · refine .ok fun r hr => ?_
      unfold Predicate.run
      rw [hab.node r hr]
    · exact .error _ _

/-- **Literals in the place of fields.** Put a literal and a field of its kind into any context: the literal is
accepted just where the field is and no decimal is met under two or more minus signs, and the two predicates
give the same answer, through the same calls, on every record whose field has the value of the literal. -/
theorem Scope.compileTree_literal_iff_field (hf : s.model.field? s.mode name = some (i, f))
    (hi : f.type = .number .i32) (hraw : natural? raw.toList = some n) (hn : n < twoTo 31) (v : Float)
    (C : Expr.Context) (l l' : Location) (source source' : String) :
    ((∃ p, s.compileTree (C.fill (.literal (.number v raw) l)) source = .ok p) ↔
      (∃ q, s.compileTree (C.fill (.field [name] l')) source' = .ok q) ∧ ¬ C.Clashes s) ∧
    ∀ p q, s.compileTree (C.fill (.literal (.number v raw) l)) source = .ok p →
      s.compileTree (C.fill (.field [name] l')) source' = .ok q →
      ∀ r : Record, r.values[i]? = some (.int n) → p.run r = q.run r := by
  have hpair := literal_field_pair hf hi hraw hn v l l'
  by_cases hC : C.Clashes s
  · have hrefused : ∀ p, s.compileTree (C.fill (.literal (.number v raw) l)) source ≠ .ok p := by
      intro p hp
      obtain ⟨t, ht⟩ := Scope.lower_of_compileTree hp
      exact Expr.Context.not_lower_fill_of_clashes hpair hn hC t ht
    exact ⟨⟨fun ⟨p, hp⟩ => absurd hp (hrefused p), fun h => absurd hC h.2⟩, fun p q hp => absurd hp (hrefused p)⟩
  · obtain ⟨exact, hlower⟩ := Expr.Context.lower_fill_of_not_clashes hpair hraw hn hC
    have hparallel := Scope.compileTree_parallel hlower source source'
    exact ⟨hparallel.exists_ok_iff.trans (iff_self_and.mpr fun _ => hC), fun p q hp hq => hparallel.rel hp hq⟩

end

/-- Under one sign a literal meets a decimal as a field does. -/
theorem Scope.compileTree_literal_iff_field_signed :
    let m : Model := ⟨0, "Pair", [⟨"F", .number .i32, none⟩, ⟨"D", .number .decimal, none⟩]⟩
    let s : Scope := ⟨m, .empty, .sensitive⟩
    let C : Expr.Context := [.unary .negate ⟨1, 1⟩, .left (.relation .equal) (.field ["D"] ⟨1, 7⟩) ⟨1, 4⟩]
    ∃ p q, s.compileTree (C.fill (.literal (.number 5 "5") ⟨1, 2⟩)) "-5 == D" = .ok p ∧
      s.compileTree (C.fill (.field ["F"] ⟨1, 2⟩)) "-F == D" = .ok q ∧
      p.run ⟨m, [.int 5, .decimal .zero]⟩ = q.run ⟨m, [.int 5, .decimal .zero]⟩ := by
  intro m s C
  have hfield : ∃ q, s.compileTree (C.fill (.field ["F"] ⟨1, 2⟩)) "-F == D" = .ok q := ⟨_, rfl⟩
  have hf : s.model.field? s.mode "F" = some (0, ⟨"F", .number .i32, none⟩) := rfl
  have hraw : natural? "5".toList = some 5 := rfl
  have hC : ¬ C.Clashes s := fun h => absurd h.1 (by decide)
  obtain ⟨haccepted, hrun⟩ := Scope.compileTree_literal_iff_field hf rfl hraw (by decide) 5 C ⟨1, 2⟩ ⟨1, 2⟩ "-5 == D"
    "-F == D"
  obtain ⟨q, hq⟩ := hfield
  obtain ⟨p, hp⟩ := haccepted.mpr ⟨⟨q, hq⟩, hC⟩
  exact ⟨p, q, hp, hq, hrun p q hp hq _ rfl⟩

/-- Under two signs it does not, where a field still does. -/
theorem Scope.compileTree_signed_twice :
    let m : Model := ⟨0, "Pair", [⟨"F", .number .i32, none⟩, ⟨"D", .number .decimal, none⟩]⟩
    let s : Scope := ⟨m, .empty, .sensitive⟩
    let C : Expr.Context :=
      [.unary .negate ⟨1, 2⟩, .unary .negate ⟨1, 1⟩, .left (.relation .equal) (.field ["D"] ⟨1, 8⟩) ⟨1, 5⟩]
    s.compileTree (C.fill (.literal (.number 5 "5") ⟨1, 3⟩)) "--5 == D" =
        .error (.located ⟨.literalRange "--5" (.number .decimal), ⟨1, 3⟩, "--5 == D"⟩) ∧
      ∃ q, s.compileTree (C.fill (.field ["F"] ⟨1, 3⟩)) "--F == D" = .ok q ∧
        q.holds ⟨m, [.int 5, .decimal ⟨false, 5, 0, by decide, by decide⟩]⟩ = true := by
  intro m s C
  exact ⟨rfl, _, rfl, rfl⟩

end RecordLogic
