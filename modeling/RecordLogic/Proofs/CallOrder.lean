import RecordLogic.Proofs.Interpretation
import RecordLogic.Proofs.Meetings
import RecordLogic.Proofs.Reads

/-!
# Lowering keeps the calls

Evaluating a lowered expression is evaluating the expression along its own tree, whatever the calls do and answer.
So the calls are the same, with the same arguments and in the same order, and the same ones are left out.
-/

namespace RecordLogic

universe u

instance : LawfulMonad Traced := LawfulMonad.mk' Traced
  (by
    intro α x
    simp [Functor.map])
  (by
    intro α β x f
    simp [bind, pure])
  (by
    intro α β γ x f g
    simp [bind])

namespace Lowering

variable {m : Type → Type u} [Monad m] {answer : Signature → List Value → m Value} {r : Record}
variable {s : Scope} {t a b c : Typed} {location : Location}

/-! ## Leaves and calls -/

theorem typed_eq {e : Expr} (h : lower s e = .ok t) : s.typed e = t := by
  unfold Scope.typed
  rw [h]
  rfl

theorem typed_map_eq {es : List Expr} {ts : List Typed} (h : lowerAll s es = .ok ts) : es.map s.typed = ts := by
  induction es generalizing ts with
  | nil =>
    cases h
    rfl
  | cons e es ih =>
    rw [lowerAll] at h
    obtain ⟨u, hu, h⟩ := bind_eq_ok.mp h
    obtain ⟨us, hus, h⟩ := bind_eq_ok.mp h
    cases h
    rw [List.map_cons, typed_eq hu, ih hus]

def IsLeaf (n : Node) : Prop := (∃ v, n = .const v) ∨ ∃ path steps, n = .field path steps

theorem IsLeaf.evalWith {n : Node} (h : IsLeaf n) : n.evalWith answer r = pure (n.eval r).value := by
  obtain ⟨v, rfl⟩ | ⟨path, steps, rfl⟩ := h
  · rw [Node.evalWith, Node.eval]
    rfl
  · rw [Node.evalWith, Node.eval]
    rfl

theorem literal_isLeaf (v : Literal) : IsLeaf (literal v location).node := by
  cases v <;> exact .inl ⟨_, rfl⟩

theorem member_isLeaf {path : List String} (h : member? s path = some t) : IsLeaf t.node := by
  obtain ⟨_, _, _, -, -, -, -, rfl⟩ := member?_eq_some.mp h
  exact .inl ⟨_, rfl⟩

theorem field_isLeaf {path : List String} (h : field s path location = .ok t) : IsLeaf t.node := by
  unfold field at h
  split at h
  · cases h
    exact .inr ⟨_, _, rfl⟩
  · split at h
    · rename_i u hu
      cases h
      exact member_isLeaf hu
    · cases h

theorem leaf_evalWith {e : Expr} (h : lower s e = .ok t) (hleaf : IsLeaf t.node) :
    t.node.evalWith answer r = pure (s.leaf r e) := by
  unfold Scope.leaf
  rw [typed_eq h]
  exact hleaf.evalWith

theorem call_evalWith {name : String} {args : List Expr} {ts : List Typed} (hargs : lowerAll s args = .ok ts)
    (h : call s name ts location = .ok t) :
    t.node.evalWith answer r = (do
      let values ← Node.evalAllWith answer r (ts.map Typed.node)
      match s.callee? name args with
      | some f => answer f values
      | none => pure .null) := by
  have hcallee : s.callee? name args = s.registry.resolve? s.mode name (ts.map fun u => u.type.coarse?) := by
    unfold Scope.callee?
    rw [← typed_map_eq hargs, List.map_map]
    rfl
  unfold call at h
  dsimp only at h
  rw [hcallee]
  cases hf : s.registry.resolve? s.mode name (ts.map fun u => u.type.coarse?) with
  | none =>
    rw [hf] at h
    dsimp only at h
    split at h <;> cases h
  | some f =>
    rw [hf] at h
    cases h
    rw [Typed.node, Node.evalWith]

/-! ## Operators -/

section
variable [LawfulMonad m]

theorem coerce_evalWith {k : NumericKind} {n : Node} (h : coerce t k = .ok n) :
    n.evalWith answer r = t.inKind k <$> t.node.evalWith answer r := by
  unfold coerce at h
  unfold Typed.inKind
  by_cases hkeep : t.type.kind? = some k ∨ (t.type.kind?.any NumericKind.isIntegral ∧ k.isIntegral)
  · simp only [hkeep, ↓reduceIte] at h ⊢
    cases h
    exact (id_map _).symm
  simp only [hkeep, ↓reduceIte] at h ⊢
  cases t with
  | part node type =>
    cases h
    rw [Node.evalWith, map_eq_pure_bind]
    rfl
  -- A constant takes the place of the numeral; neither calls anything.
  | numeral u =>
    have hnode : (Typed.numeral u).node.evalWith answer r = pure u.value := by
      rw [Typed.node, Node.evalWith]
    rw [hnode, map_pure]
    by_cases hd : k = .decimal
    · simp only [hd, ↓reduceIte] at h ⊢
      split at h <;> cases h
      rename_i d hread
      rw [Node.evalWith, hread]
      rfl
    · simp only [hd, ↓reduceIte] at h ⊢
      split at h <;> cases h
      · rw [Node.evalWith]
      · rw [Node.evalWith, hnode, pure_bind]

theorem negateNumber_evalWith {k : NumericKind} (h : negateNumber t k = .ok a) :
    a.node.evalWith answer r =
      (fun v => (t.inKind (negationKind k) v).negate (some (negationKind k))) <$> t.node.evalWith answer r := by
  unfold negateNumber at h
  obtain ⟨n, hn, h⟩ := bind_eq_ok.mp h
  cases h
  rw [Typed.node, Node.evalWith, coerce_evalWith hn, bind_map_left, map_eq_pure_bind]

theorem negate_evalWith (h : negate t location = .ok a) :
    a.node.evalWith answer r = t.negated <$> t.node.evalWith answer r := by
  unfold negate at h
  unfold Typed.negated
  split at h
  · rename_i k hk
    rw [ValueType.kind?_eq_some.mpr hk]
    split at h
    · rename_i u
      split at h
      · rename_i u' hu
        cases h
        simp only [hu]
        rw [Typed.node, Typed.node, Node.evalWith, Node.evalWith, map_pure]
      · rename_i hu
        simp only [hu]
        exact negateNumber_evalWith h
    · exact negateNumber_evalWith h
  · rename_i hspan
    cases h
    rw [ValueType.kind?_of_underlying hspan nofun, Typed.node, Node.evalWith, map_eq_pure_bind]
  · cases h

theorem unary_evalWith {op : UnaryOp} (h : unary op t location = .ok a) :
    a.node.evalWith answer r = op.apply t <$> t.node.evalWith answer r := by
  cases op with
  | negate => exact negate_evalWith h
  | not =>
    unfold unary at h
    dsimp only at h
    split at h <;> cases h
    rw [Typed.node, Node.evalWith, map_eq_pure_bind]
    rfl

variable (answer r) in
theorem unify_evalWith {symbol : String} {p : Meeting} (h : unify symbol a b location = .ok p) :
    p.left.evalWith answer r = a.meeting b <$> a.node.evalWith answer r ∧
    p.right.evalWith answer r = b.meeting a <$> b.node.evalWith answer r := by
  obtain ⟨j, k, hj, hk, hleft, hright⟩ | ⟨hnone, hleft, hright⟩ := unify_cases h
  · have ha : a.meeting b = a.inKind (j.widen k) := by
      funext v
      simp only [Typed.meeting, hj, hk]
    have hb : b.meeting a = b.inKind (j.widen k) := by
      funext v
      simp only [Typed.meeting, hj, hk, NumericKind.widen_comm k j]
    rw [ha, hb]
    exact ⟨coerce_evalWith hleft, coerce_evalWith hright⟩
  · have ha : a.meeting b = id := by
      funext v
      obtain hnone | hnone := hnone <;> simp [Typed.meeting, hnone]
    have hb : b.meeting a = id := by
      funext v
      obtain hnone | hnone := hnone <;> simp [Typed.meeting, hnone]
    rw [ha, hb, id_map, id_map, hleft, hright]
    exact ⟨rfl, rfl⟩

theorem relation_evalWith {c : Relation} (h : relation c a b location = .ok t) :
    t.node.evalWith answer r = (do
      let x ← a.node.evalWith answer r
      let y ← b.node.evalWith answer r
      return c.apply a b x y) := by
  unfold relation at h
  obtain ⟨p, hp, h⟩ := bind_eq_ok.mp h
  obtain ⟨hleft, hright⟩ := unify_evalWith answer r hp
  split at h <;> cases h
  rw [Typed.node, Node.evalWith, hleft, hright, bind_map_left]
  simp only [bind_map_left]
  rfl

theorem textual_evalWith (t : Typed) :
    (textual t).evalWith answer r = t.inText <$> t.node.evalWith answer r := by
  unfold textual Typed.inText
  cases t.type.enum? with
  | none => exact (id_map _).symm
  | some e =>
    dsimp only
    rw [Node.evalWith, map_eq_pure_bind]

theorem operation_evalWith {o : Operation} (h : operation o a b location = .ok t) :
    t.node.evalWith answer r = (do
      let x ← a.node.evalWith answer r
      let y ← b.node.evalWith answer r
      return o.apply a b x y) := by
  unfold operation at h
  unfold Operation.apply
  by_cases htext : o = .add ∧ (isText a.type || isText b.type) = true
  · simp only [if_pos htext] at h ⊢
    cases h
    rw [Typed.node, Node.evalWith, textual_evalWith, textual_evalWith, bind_map_left]
    simp only [bind_map_left]
  simp only [if_neg htext] at h ⊢
  cases hk : commonKind? a.type b.type with
  | some k =>
    rw [hk] at h
    obtain ⟨n, hn, h⟩ := bind_eq_ok.mp h
    obtain ⟨q, hq, h⟩ := bind_eq_ok.mp h
    cases h
    rw [Typed.node, Node.evalWith, coerce_evalWith hn, coerce_evalWith hq, bind_map_left]
    simp only [bind_map_left]
  | none =>
    rw [hk] at h
    dsimp only at h
    split at h <;> cases h
    rw [Typed.node, Node.evalWith]

theorem conditional_evalWith (h : conditional c a b location = .ok t) :
    t.node.evalWith answer r = (do
      let x ← c.node.evalWith answer r
      if x.isTrue then
        let v ← a.node.evalWith answer r
        return a.meeting b v
      else
        let v ← b.node.evalWith answer r
        return b.meeting a v) := by
  unfold conditional at h
  obtain ⟨p, hp, h⟩ := bind_eq_ok.mp h
  obtain ⟨hleft, hright⟩ := unify_evalWith answer r hp
  cases h
  rw [Typed.node, Node.evalWith, hleft, hright, map_eq_pure_bind, map_eq_pure_bind]

end

theorem logical_node {op : BinaryOp} {make : Node → Node → Node} (h : logical op make a b location = .ok t) :
    t.node = make a.node b.node := by
  unfold logical at h
  split at h <;> cases h
  rfl

/-! ## Whole expressions -/

mutual

/-- Evaluating a lowered expression is evaluating the expression as it is written. -/
theorem lower_evalWith [LawfulMonad m] : ∀ {e : Expr} {t : Typed}, lower s e = .ok t →
    t.node.evalWith answer r = e.evalWith s answer r
  | .literal v l, t, h => by
    have ht := h
    rw [lower] at ht
    cases ht
    rw [leaf_evalWith h (literal_isLeaf v), Expr.evalWith]
  | .field path l, t, h => by
    have ht := h
    rw [lower] at ht
    rw [leaf_evalWith h (field_isLeaf ht), Expr.evalWith]
  | .call name args l, t, h => by
    rw [lower] at h
    obtain ⟨ts, hts, h⟩ := bind_eq_ok.mp h
    have hcall : t.node.evalWith answer r = _ := call_evalWith hts h
    rw [lowerAll_evalWith hts] at hcall
    rw [Expr.evalWith]
    exact hcall
  | .unary op e l, t, h => by
    rw [lower] at h
    obtain ⟨u, hu, h⟩ := bind_eq_ok.mp h
    rw [unary_evalWith h, lower_evalWith hu, Expr.evalWith, typed_eq hu, map_eq_pure_bind]
  | .binary (.relation c) a b l, t, h => by
    obtain ⟨u, v, hu, hv, h⟩ := lower_binary h
    rw [relation_evalWith h, lower_evalWith hu, lower_evalWith hv, Expr.evalWith, typed_eq hu, typed_eq hv]
  | .binary (.operation o) a b l, t, h => by
    obtain ⟨u, v, hu, hv, h⟩ := lower_binary h
    rw [operation_evalWith h, lower_evalWith hu, lower_evalWith hv, Expr.evalWith, typed_eq hu, typed_eq hv]
  | .binary .and a b l, t, h => by
    obtain ⟨u, v, hu, hv, h⟩ := lower_binary h
    rw [logical_node h, Node.evalWith, lower_evalWith hu, lower_evalWith hv, Expr.evalWith]
  | .binary .or a b l, t, h => by
    obtain ⟨u, v, hu, hv, h⟩ := lower_binary h
    rw [logical_node h, Node.evalWith, lower_evalWith hu, lower_evalWith hv, Expr.evalWith]
  | .conditional c y n l, t, h => by
    obtain ⟨u, v, w, hu, hv, hw, h⟩ := lower_conditional h
    rw [conditional_evalWith h, lower_evalWith hu, lower_evalWith hv, lower_evalWith hw, Expr.evalWith,
      typed_eq hv, typed_eq hw]

theorem lowerAll_evalWith [LawfulMonad m] : ∀ {es : List Expr} {ts : List Typed}, lowerAll s es = .ok ts →
    Node.evalAllWith answer r (ts.map Typed.node) = Expr.evalAllWith s answer r es
  | [], ts, h => by
    rw [lowerAll] at h
    cases h
    rfl
  | e :: es, ts, h => by
    rw [lowerAll] at h
    obtain ⟨u, hu, h⟩ := bind_eq_ok.mp h
    obtain ⟨us, hus, h⟩ := bind_eq_ok.mp h
    cases h
    rw [List.map_cons, Node.evalAllWith, lower_evalWith hu, lowerAll_evalWith hus, Expr.evalAllWith]

end

end Lowering

/-- **Calls keep their order.** A compiled expression is evaluated as it is written, with the answers to its calls from
any monad: from left to right, the right side of a logical operator and the branches of a conditional only where they
count. So on every record of the model the predicate makes the calls of the expression, with the same arguments and in
the same order, and no others. -/
theorem Predicate.run_eq_evalWith {s : Scope} {e : Expr} {source : String} {p : Predicate}
    (hp : s.compileTree e source = .ok p) :
    (∀ (m : Type → Type u) [Monad m] [LawfulMonad m] (answer : Signature → List Value → m Value) (r : Record),
      p.root.evalWith answer r = e.evalWith s answer r) ∧
    ∀ r : Record, p.run r =
      if r.model.id = s.model.id then Value.isTrue <$> e.evalWith s Traced.call r else pure false := by
  unfold Scope.compileTree at hp
  split at hp
  · cases hp
  rename_i t ht
  split at hp <;> cases hp
  refine ⟨fun m _ _ answer r => Lowering.lower_evalWith ht, fun r => ?_⟩
  unfold Predicate.run
  rw [Node.eval_eq_evalWith, Lowering.lower_evalWith ht]

/-- In `Nil() + One() == null || Yes()` the second operand of the sum is called although the first is null, and `Yes`
is not called. -/
theorem Predicate.run_eq_evalWith_null_operand :
    let nil : Signature := ⟨"Nil", [], .nullable (.number .i32), fun _ => .null⟩
    let one : Signature := ⟨"One", [], .number .i32, fun _ => .int 1⟩
    let yes : Signature := ⟨"Yes", [], .bool, fun _ => .bool true⟩
    let m : Model := ⟨0, "Person", []⟩
    let s : Scope := ⟨m, ⟨[nil, one, yes]⟩, .sensitive⟩
    let sum : Expr := .binary (.operation .add) (.call "Nil" [] ⟨1, 1⟩) (.call "One" [] ⟨1, 9⟩) ⟨1, 7⟩
    let e : Expr := .binary .or (.binary (.relation .equal) sum (.literal .null ⟨1, 18⟩) ⟨1, 15⟩)
      (.call "Yes" [] ⟨1, 26⟩) ⟨1, 23⟩
    ∃ p, s.compileTree e "Nil() + One() == null || Yes()" = .ok p ∧
      p.run ⟨m, []⟩ = ⟨true, [⟨nil, []⟩, ⟨one, []⟩]⟩ := by
  intro nil one yes m s sum e
  have hp : s.compileTree e "Nil() + One() == null || Yes()" = .ok _ := rfl
  refine ⟨_, hp, ?_⟩
  rw [(Predicate.run_eq_evalWith.{0} hp).2]
  rfl

end RecordLogic
