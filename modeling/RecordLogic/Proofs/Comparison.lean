import Mathlib.Tactic.NormNum
import RecordLogic.Proofs.Contexts
import RecordLogic.Proofs.Rationals
import RecordLogic.Proofs.Widths

/-!
# Comparisons are exact

The kind at which two numbers meet need not hold every number of both. It does not have to: integers of all kinds
share one representation, and where a decimal is met the decimal of an integer of 64 bits is exact. So integers and
decimals compare as the rational numbers that they were before they met.
-/

namespace RecordLogic

open Number

namespace Value

variable {v : Value} {j k : NumericKind}

theorem convert_toRat? (hv : v.Fits (.number j)) (hnarrow : v.Narrow) (hj : ¬ j.isFloating) (hk : ¬ k.isFloating) :
    (v.convert k).toRat? = v.toRat? := by
  obtain rfl | ⟨n, rfl, -⟩ | ⟨f, -, hf⟩ | ⟨d, rfl, -⟩ := hv.number
  · rfl
  · by_cases hd : k = .decimal
    · subst hd
      have hroom : n.natAbs < twoTo 96 := Nat.lt_trans (hnarrow n rfl) (by decide)
      obtain ⟨d, hd⟩ := Decimal.exists_ofInt? hroom
      simp [convert, isNull, asDecimal?, hd, toRat?, Decimal.toRat_of_ofInt? hd]
    · simp [convert, isNull, hd, hk]
  · exact absurd hf hj
  · by_cases hd : k = .decimal
    · subst hd
      rfl
    · simp [convert, isNull, hd, hk]

end Value

theorem Numeral.Plain.toRat?_eq {n : Numeral} {d : Decimal} (hn : n.Plain) (hk : ¬ n.kind.isFloating)
    (h : Decimal.read? n.text = some d) : n.value.toRat? = some d.toRat := by
  unfold kind at hk
  unfold value
  split
  · rename_i i k hamount
    obtain ⟨hi, signs, digits, m, htext, hm, rfl⟩ := hn i k hamount
    rw [natAbs_underSigns, Int.natAbs_natCast] at hi
    by_cases hsigns : signs ≤ 1
    · rw [Decimal.read?_underSigns htext hsigns hm (Nat.lt_trans hi (by decide))] at h
      rw [Value.toRat?, Decimal.toRat_of_ofInt? h]
    · obtain ⟨rest, rfl⟩ := Nat.exists_eq_add_of_le' (not_le.mp hsigns)
      -- No decimal begins with two minus signs.
      rw [List.replicate_succ, List.replicate_succ, List.cons_append, List.cons_append] at htext
      rw [Decimal.read?_twice_negative htext] at h
      cases h
  · rename_i f hamount
    rw [hamount] at hk
    exact absurd rfl hk

theorem NumericKind.not_isFloating_widen {j k : NumericKind} (hj : ¬ j.isFloating) (hk : ¬ k.isFloating) :
    ¬ (j.widen k).isFloating := by
  unfold widen
  split
  · exact hj
  · exact hk

namespace Lowering

variable {r : Record} {s : Scope} {t a b : Typed} {location : Location} {j k : NumericKind}

theorem coerce_toRat? {n : Node} (ht : t.Good r) (hplain : t.Plain r) (hj : t.type.kind? = some j)
    (hjf : ¬ j.isFloating) (hkf : ¬ k.isFloating) (h : coerce t k = .ok n) :
    (n.valueOn r).toRat? = (t.node.valueOn r).toRat? := by
  have hfits := ht.fits.congr (ValueType.shape_of_underlying (ValueType.kind?_eq_some.mp hj))
  have hconvert := Value.convert_toRat? hfits hplain.narrow hjf hkf
  unfold coerce at h
  dsimp only at h
  split at h
  -- Integral kinds share one representation, however wide they are.
  · cases h
    rfl
  split at h
  · cases h
    exact hconvert
  rename_i m _
  split at h
  · split at h
    · rename_i d hd
      cases h
      have hkind : m.kind = j := by simpa [Typed.type, ValueType.kind?, ValueType.underlying] using hj
      have hvalue := (hplain.numeral m rfl).toRat?_eq (hkind ▸ hjf) hd
      rw [Node.valueOn_const]
      exact hvalue.symm
    · cases h
  · cases h
    exact hconvert

theorem relation_exact {c : Relation} (ha : a.Good r) (hb : b.Good r) (hpa : a.Plain r) (hpb : b.Plain r)
    (hj : a.type.kind? = some j) (hk : b.type.kind? = some k) (hjf : ¬ j.isFloating) (hkf : ¬ k.isFloating)
    (h : relation c a b location = .ok t) :
    t.node.valueOn r = .bool (c.onRationals (a.node.valueOn r).toRat? (b.node.valueOn r).toRat?) := by
  unfold relation at h
  obtain ⟨m, hm, h⟩ := bind_eq_ok.mp h
  split at h <;> cases h
  obtain ⟨j', k', hj', hk', hleft, hright⟩ | ⟨hnone, -, -⟩ := unify_cases hm
  · obtain rfl : j = j' := Option.some.inj (hj.symm.trans hj')
    obtain rfl : k = k' := Option.some.inj (hk.symm.trans hk')
    have hwiden := NumericKind.not_isFloating_widen hjf hkf
    have ht : Widens a.type (j.widen k) :=
      .inr ⟨j, ValueType.kind?_eq_some.mp hj, fun hi => (isIntegral_of_widen hi).1⟩
    have hu : Widens b.type (j.widen k) :=
      .inr ⟨k, ValueType.kind?_eq_some.mp hk, fun hi => (isIntegral_of_widen hi).2⟩
    obtain ⟨hfits, -⟩ := coerce_good ha ht hleft
    obtain ⟨hfits', -⟩ := coerce_good hb hu hright
    rw [Typed.node, Node.valueOn_relate, Value.relate_eq_onRationals hfits hfits' hwiden,
      coerce_toRat? ha hpa hj hjf hwiden hleft, coerce_toRat? hb hpb hk hkf hwiden hright]
  · rw [hj, hk] at hnone
    obtain hnone | hnone := hnone <;> cases hnone

end Lowering

/-! ## Comparisons stay in the tree -/

def Node.IsComparison (n : Node) : Prop := ∃ c a b, n = .relate c a b

/-- `n.Keeps m`: the comparisons among the nodes of `m` are among those of `n`. -/
def Node.Keeps (n m : Node) : Prop := ∀ x ∈ m.parts, x.IsComparison → x ∈ n.parts

namespace Lowering

variable {s : Scope} {t a b c : Typed} {n : Node} {location : Location}

theorem keeps_of_subset {m : Node} (h : m.parts ⊆ n.parts) : n.Keeps m := fun _ hx _ => h hx

theorem keeps_refl (n : Node) : n.Keeps n := keeps_of_subset (List.Subset.refl _)

theorem keeps_numeral (n : Node) (m : Numeral) : n.Keeps (Typed.numeral m).node := by
  intro x hx hcomparison
  obtain rfl := List.mem_singleton.mp hx
  obtain ⟨_, _, _, h⟩ := hcomparison
  cases h

theorem coerce_keeps {k : NumericKind} (h : coerce t k = .ok n) : n.Keeps t.node := by
  unfold coerce at h
  dsimp only at h
  split at h
  · cases h
    exact keeps_refl _
  split at h
  · cases h
    exact keeps_of_subset (List.subset_cons_self _ _)
  -- A numeral is replaced as a whole, but there is no comparison in it.
  · exact keeps_numeral n _

theorem negateNumber_keeps {k : NumericKind} (h : negateNumber t k = .ok a) : a.node.Keeps t.node := by
  unfold negateNumber at h
  obtain ⟨n, hn, h⟩ := bind_eq_ok.mp h
  cases h
  exact fun x hx hc => .tail _ (coerce_keeps hn x hx hc)

theorem unary_keeps {op : UnaryOp} (h : unary op t location = .ok a) : a.node.Keeps t.node := by
  cases op with
  | not =>
    unfold unary at h
    dsimp only at h
    split at h <;> cases h
    exact keeps_of_subset (List.subset_cons_self _ _)
  | negate =>
    change negate t location = .ok a at h
    unfold negate at h
    split at h
    · split at h
      · split at h
        · exact keeps_numeral _ _
        · exact negateNumber_keeps h
      · exact negateNumber_keeps h
    · cases h
      exact keeps_of_subset (List.subset_cons_self _ _)
    · cases h

theorem unify_keeps {symbol : String} {m : Meeting} (h : unify symbol a b location = .ok m) :
    m.left.Keeps a.node ∧ m.right.Keeps b.node := by
  obtain ⟨j, k, -, -, hleft, hright⟩ | ⟨-, hleft, hright⟩ := unify_cases h
  · exact ⟨coerce_keeps hleft, coerce_keeps hright⟩
  · rw [hleft, hright]
    exact ⟨keeps_refl _, keeps_refl _⟩

theorem textual_keeps (t : Typed) : (textual t).Keeps t.node := by
  unfold textual
  split
  · exact keeps_of_subset (List.subset_cons_self _ _)
  · exact keeps_refl _

theorem keeps_operands {p q m : Node} (hparts : n.parts = n :: (p.parts ++ q.parts)) (hp : p.Keeps a.node)
    (hq : q.Keeps b.node) (hm : m ∈ [a.node, b.node]) : n.Keeps m := by
  intro x hx hc
  rw [hparts]
  simp only [List.mem_cons, List.not_mem_nil, or_false] at hm
  obtain rfl | rfl := hm
  · exact .tail _ (List.mem_append_left _ (hp x hx hc))
  · exact .tail _ (List.mem_append_right _ (hq x hx hc))

theorem operation_keeps {o : Operation} (h : operation o a b location = .ok t) :
    ∀ m ∈ [a.node, b.node], t.node.Keeps m := by
  unfold operation at h
  dsimp only at h
  intro m
  split at h
  · cases h
    exact keeps_operands rfl (textual_keeps a) (textual_keeps b)
  split at h
  · obtain ⟨p, hp, h⟩ := bind_eq_ok.mp h
    obtain ⟨q, hq, h⟩ := bind_eq_ok.mp h
    cases h
    exact keeps_operands rfl (coerce_keeps hp) (coerce_keeps hq)
  split at h <;> cases h
  exact keeps_operands rfl (keeps_refl _) (keeps_refl _)

theorem binary_keeps {op : BinaryOp} (h : binary op a b location = .ok t) :
    ∀ m ∈ [a.node, b.node], t.node.Keeps m := by
  intro m
  cases op with
  | and | or =>
    change logical _ _ a b location = .ok t at h
    unfold logical at h
    split at h <;> cases h
    exact keeps_operands rfl (keeps_refl _) (keeps_refl _)
  | relation c =>
    change relation c a b location = .ok t at h
    unfold relation at h
    obtain ⟨m, hm, h⟩ := bind_eq_ok.mp h
    obtain ⟨hleft, hright⟩ := unify_keeps hm
    split at h <;> cases h
    exact keeps_operands rfl hleft hright
  | operation o => exact operation_keeps h m

theorem conditional_keeps (h : conditional c a b location = .ok t) :
    ∀ m ∈ [c.node, a.node, b.node], t.node.Keeps m := by
  unfold conditional at h
  obtain ⟨q, hq, h⟩ := bind_eq_ok.mp h
  obtain ⟨hleft, hright⟩ := unify_keeps hq
  cases h
  intro m hm x hx hc
  simp only [List.mem_cons, List.not_mem_nil, or_false] at hm
  rw [Typed.node, Node.parts]
  obtain rfl | rfl | rfl := hm
  · exact .tail _ (List.mem_append_left _ hx)
  · exact .tail _ (List.mem_append_right _ (List.mem_append_left _ (hleft x hx hc)))
  · exact .tail _ (List.mem_append_right _ (List.mem_append_right _ (hright x hx hc)))

theorem call_keeps {name : String} {args : List Typed} (h : call s name args location = .ok t) :
    ∀ u ∈ args, t.node.Keeps u.node := by
  unfold call at h
  dsimp only at h
  intro u hu
  split at h
  · cases h
    apply keeps_of_subset
    intro x hx
    rw [Typed.node, Node.parts]
    exact .tail _ (Node.mem_partsOfAll.mpr ⟨u.node, List.mem_map_of_mem hu, hx⟩)
  · split at h <;> cases h

theorem exists_lower_of_mem {e : Expr} : ∀ {es : List Expr} {ts : List Typed}, lowerAll s es = .ok ts → e ∈ es →
    ∃ u ∈ ts, lower s e = .ok u
  | d :: es, ts, h, he => by
    rw [lowerAll] at h
    obtain ⟨u, hu, h⟩ := bind_eq_ok.mp h
    obtain ⟨us, hus, h⟩ := bind_eq_ok.mp h
    cases h
    rcases List.mem_cons.mp he with rfl | he
    · exact ⟨u, .head _, hu⟩
    · obtain ⟨v, hv, hlower⟩ := exists_lower_of_mem hus he
      exact ⟨v, .tail _ hv, hlower⟩

theorem lower_frame {f : Expr.Frame} {e : Expr} (h : lower s (f.fill e) = .ok t) :
    ∃ u, lower s e = .ok u ∧ t.node.Keeps u.node := by
  cases f with
  | call name before after l =>
    rw [Expr.Frame.fill, lower] at h
    obtain ⟨ts, hts, h⟩ := bind_eq_ok.mp h
    obtain ⟨u, hmem, hu⟩ := exists_lower_of_mem hts (by simp : e ∈ before ++ e :: after)
    exact ⟨u, hu, call_keeps h u hmem⟩
  | unary op l =>
    rw [Expr.Frame.fill, lower] at h
    obtain ⟨u, hu, h⟩ := bind_eq_ok.mp h
    exact ⟨u, hu, unary_keeps h⟩
  | left op b l =>
    obtain ⟨u, v, hu, -, h⟩ := lower_binary h
    exact ⟨u, hu, binary_keeps h u.node (by simp)⟩
  | right op a l =>
    obtain ⟨u, v, -, hv, h⟩ := lower_binary h
    exact ⟨v, hv, binary_keeps h v.node (by simp)⟩
  | condition y n l =>
    obtain ⟨u, v, w, hu, -, -, h⟩ := lower_conditional h
    exact ⟨u, hu, conditional_keeps h u.node (by simp)⟩
  | yes c n l =>
    obtain ⟨u, v, w, -, hv, -, h⟩ := lower_conditional h
    exact ⟨v, hv, conditional_keeps h v.node (by simp)⟩
  | no c y l =>
    obtain ⟨u, v, w, -, -, hw, h⟩ := lower_conditional h
    exact ⟨w, hw, conditional_keeps h w.node (by simp)⟩

/-- A part of an expression is lowered, and its comparisons are among those of the whole, by induction on what is
around it. -/
theorem lower_context (C : Expr.Context) {e : Expr} (h : lower s (C.fill e) = .ok t) :
    ∃ u, lower s e = .ok u ∧ t.node.Keeps u.node := by
  induction C using List.reverseRecOn generalizing t with
  | nil => exact ⟨t, h, keeps_refl _⟩
  | append_singleton C f ih =>
    rw [Expr.Context.fill_append] at h
    obtain ⟨u, hu, hkeeps⟩ := lower_frame (f := f) h
    obtain ⟨v, hv, hkeeps'⟩ := ih hu
    exact ⟨v, hv, fun x hx hc => hkeeps x (hkeeps' x hx hc) hc⟩

end Lowering

open Lowering

/-- **Exact comparisons.** Every comparison of a compiled expression is a node of its predicate. Where its operands are
of integral or decimal types, nullable or not, each comes to null or to a rational number, and the comparison to that
of the two numbers, whatever the kind at which they meet. A null operand equals null only and is in no order. -/
theorem Predicate.comparison_exact {C : Catalogue} {s : Scope} {e : Expr} {source : String} {p : Predicate} {r : Record}
    (hs : C.Has s.model) (hp : s.compileTree e source = .ok p) (hr : r.Built C) (hm : r.model.id = s.model.id)
    (hmemory : r.InMemory) {c : Relation} {a b : Expr} {l : Location} (hd : .binary (.relation c) a b l ∈ e.parts) :
    ∃ t u n, lower s a = .ok t ∧ lower s b = .ok u ∧ lower s (.binary (.relation c) a b l) = .ok (.part n .bool) ∧
      n ∈ p.root.parts ∧
      ∀ j k, t.type.kind? = some j → u.type.kind? = some k → ¬ j.isFloating → ¬ k.isFloating →
        (t.node.valueOn r = .null ∨ ∃ q, (t.node.valueOn r).toRat? = some q) ∧
        (u.node.valueOn r = .null ∨ ∃ q, (u.node.valueOn r).toRat? = some q) ∧
        n.valueOn r = .bool (c.onRationals (t.node.valueOn r).toRat? (u.node.valueOn r).toRat?) := by
  obtain ⟨hhas, hsound⟩ := hr.sound
  have hmodel := C.unique hhas hs hm
  unfold Scope.compileTree at hp
  split at hp
  · cases hp
  rename_i root hroot
  split at hp <;> cases hp
  obtain ⟨D, rfl⟩ := Expr.mem_parts_iff.mp hd
  obtain ⟨v, hv, hkeeps⟩ := lower_context D hroot
  obtain ⟨t, u, ht, hu, hlower⟩ := lower_binary hv
  have hrelation : relation c t u l = .ok v := hlower
  obtain ⟨left, right, rfl⟩ := relation_node hrelation
  refine ⟨t, u, _, ht, hu, hv, hkeeps _ (.head _) ⟨_, _, _, rfl⟩, fun j k hj hk hjf hkf => ?_⟩
  have hgood := lower_good hsound hmodel ht
  have hgood' := lower_good hsound hmodel hu
  have hfits := hgood.fits.congr (ValueType.shape_of_underlying (ValueType.kind?_eq_some.mp hj))
  have hfits' := hgood'.fits.congr (ValueType.shape_of_underlying (ValueType.kind?_eq_some.mp hk))
  exact ⟨hfits.null_or_rational hjf, hfits'.null_or_rational hkf,
    relation_exact hgood hgood' (lower_plain hr hmodel hmemory ht) (lower_plain hr hmodel hmemory hu) hj hk hjf hkf
      hrelation⟩

/-- A negative number of 32 bits is less than what its bits are without a sign. -/
theorem Predicate.comparison_exact_signs :
    let m : Model := ⟨0, "Pair", [⟨"I", .number .i32, none⟩, ⟨"U", .number .u32, none⟩]⟩
    let s : Scope := ⟨m, .empty, .sensitive⟩
    let i : Expr := .field ["I"] ⟨1, 1⟩
    let u : Expr := .field ["U"] ⟨1, 5⟩
    let e : Expr := .binary (.relation .less) i u ⟨1, 3⟩
    let r : Record := ⟨m, [.int (-1), .int 4294967295]⟩
    ∃ p, s.compileTree e "I < U" = .ok p ∧ ∃ n ∈ p.root.parts,
      n.valueOn r = .bool (Relation.less.onRationals (some (-1)) (some 4294967295)) ∧ n.valueOn r = .bool true := by
  intro m s i u e r
  let C : Catalogue :=
    { Has := fun n => n = m
      unique := fun hm hn _ => hm.trans hn.symm
      nested := by
        intro n hn f hf k hk
        subst hn
        simp only [m, List.mem_cons, List.not_mem_nil, or_false] at hf
        obtain rfl | rfl := hf <;> cases hk }
  have hp : s.compileTree e "I < U" = .ok _ := rfl
  have hr : Record.ofValues m [.int (-1), .int 4294967295] = .ok r := rfl
  have hbuilt : r.Built C := by
    refine .ofValues rfl (fun v hv q hq => ?_) hr
    simp only [List.mem_cons, List.not_mem_nil, or_false] at hv
    obtain rfl | rfl := hv <;> cases hq
  have hmemory : r.InMemory := by
    intro v hv
    cases hv with
    | self => decide
    | field hw hv =>
      simp only [r, List.mem_cons, List.not_mem_nil, or_false] at hw
      obtain rfl | rfl := hw <;> cases hv <;> decide
  obtain ⟨x, y, n, hx, hy, -, hn, hexact⟩ := Predicate.comparison_exact rfl hp hbuilt rfl hmemory
    (Expr.mem_parts_self e)
  cases hx
  cases hy
  obtain ⟨-, -, hvalue⟩ := hexact .i32 .u32 rfl rfl nofun nofun
  have hrational : n.valueOn r = .bool (Relation.less.onRationals (some (-1)) (some 4294967295)) := by
    rw [hvalue]
    show Value.bool (Relation.less.onRationals (some ((-1 : Int) : ℚ)) (some ((4294967295 : Int) : ℚ))) = _
    rw [Int.cast_neg, Int.cast_one, Int.cast_ofNat]
  refine ⟨_, hp, n, hn, hrational, ?_⟩
  rw [hrational]
  norm_num [Relation.onRationals]

end RecordLogic
