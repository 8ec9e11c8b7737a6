import RecordLogic.Predicate.Basic
import RecordLogic.Proofs.Outcome

/-!
# What a predicate reads

A record enters an evaluation through the steps of field nodes only, and these come from the paths of the
expression, in their order and with none left out.
-/

namespace RecordLogic

namespace Node

mutual

def reads : Node → List (String × List Step)
  | .const _ => []
  | .field path steps => [(path, steps)]
  | .call _ args => readsOfAll args
  | .not e | .negate _ e | .convert _ e | .memberName _ e => e.reads
  | .relate _ a b | .operate _ _ a b | .operateOnTimes _ a b | .join a b | .and a b | .or a b => a.reads ++ b.reads
  | .conditional c y n => c.reads ++ y.reads ++ n.reads

def readsOfAll : List Node → List (String × List Step)
  | [] => []
  | e :: es => e.reads ++ readsOfAll es

end

mutual

theorem paths_eq : ∀ n : Node, n.paths = n.reads.map Prod.fst
  | .const _ => rfl
  | .field _ _ => rfl
  | .call _ args => by rw [paths, reads, pathsOfAll_eq args]
  | .not e | .negate _ e | .convert _ e | .memberName _ e => by rw [paths, reads, paths_eq e]
  | .relate _ a b | .operate _ _ a b | .operateOnTimes _ a b | .join a b | .and a b | .or a b => by
    rw [paths, reads, paths_eq a, paths_eq b, List.map_append]
  | .conditional c y n => by
    rw [paths, reads, paths_eq c, paths_eq y, paths_eq n, List.map_append, List.map_append]

theorem pathsOfAll_eq : ∀ ns : List Node, pathsOfAll ns = (readsOfAll ns).map Prod.fst
  | [] => rfl
  | n :: ns => by rw [pathsOfAll, readsOfAll, paths_eq n, pathsOfAll_eq ns, List.map_append]

end

def Agree (q r : Record) (reads : List (String × List Step)) : Prop := ∀ x ∈ reads, q.follow x.2 = r.follow x.2

section
variable {q r : Record}

theorem Agree.left {as bs : List (String × List Step)} (h : Agree q r (as ++ bs)) : Agree q r as :=
  fun x hx => h x (List.mem_append_left _ hx)

theorem Agree.right {as bs : List (String × List Step)} (h : Agree q r (as ++ bs)) : Agree q r bs :=
  fun x hx => h x (List.mem_append_right _ hx)

mutual

/-- Records that agree on what a tree reads give it the same value, through the same calls. -/
theorem eval_congr : ∀ n : Node, Agree q r n.reads → n.eval q = n.eval r
  | .const _, _ => by rw [eval, eval]
  | .field path steps, h => by
    have hread : q.follow steps = r.follow steps := h (path, steps) (.head _)
    rw [eval, eval, hread]
  | .call _ args, h => by
    rw [reads] at h
    rw [eval, eval, evalAll_congr args h]
  | .not e, h | .negate _ e, h | .convert _ e, h | .memberName _ e, h => by
    rw [reads] at h
    rw [eval, eval, eval_congr e h]
  | .relate _ a b, h | .operate _ _ a b, h | .operateOnTimes _ a b, h | .join a b, h | .and a b, h | .or a b, h => by
    rw [reads] at h
    rw [eval, eval, eval_congr a h.left, eval_congr b h.right]
  | .conditional c y n, h => by
    rw [reads] at h
    rw [eval, eval, eval_congr c h.left.left, eval_congr y h.left.right, eval_congr n h.right]

theorem evalAll_congr : ∀ ns : List Node, Agree q r (readsOfAll ns) → evalAll q ns = evalAll r ns
  | [], _ => rfl
  | n :: ns, h => by
    rw [readsOfAll] at h
    rw [evalAll, evalAll, eval_congr n h.left, evalAll_congr ns h.right]

end

end

end Node

/-! ## Where the reads come from -/

namespace Expr

mutual

def routes : Expr → List (List String)
  | .literal .. => []
  | .field path _ => [path]
  | .call _ args _ => routesOfAll args
  | .unary _ e _ => e.routes
  | .binary _ a b _ => a.routes ++ b.routes
  | .conditional c y n _ => c.routes ++ y.routes ++ n.routes

def routesOfAll : List Expr → List (List String)
  | [] => []
  | e :: es => e.routes ++ routesOfAll es

end

end Expr

def Scope.read? (s : Scope) (route : List String) : Option (String × List Step) :=
  match s.model.resolve s.mode route with
  | .ok q => some (Text.dotted route, q.steps)
  | .error _ => none

namespace Lowering

variable {s : Scope} {t a b : Typed} {location : Location}

theorem literal_reads (v : Literal) : (literal v location).node.reads = [] := by
  cases v <;> rfl

theorem member?_eq_some {path : List String} : member? s path = some t ↔ ∃ member e n, path.getLast? = some member ∧
    path.dropLast ≠ [] ∧ (s.model.enums.find? fun e => s.mode.agree e.name (Text.dotted path.dropLast)) = some e ∧
    e.valueOf? s.mode member = some n ∧ t = .part (.const (.enum n)) (.enum e) := by
  unfold member?
  refine ⟨fun h => ?_, fun h => ?_⟩
  · obtain ⟨member, hlast, h⟩ := Option.bind_eq_some_iff.mp h
    dsimp only at h
    split at h
    · cases h
    rename_i hne
    obtain ⟨e, he, h⟩ := Option.bind_eq_some_iff.mp h
    obtain ⟨n, hn, h⟩ := Option.bind_eq_some_iff.mp h
    cases h
    exact ⟨member, e, n, hlast, by simpa using hne, he, hn, rfl⟩
  · obtain ⟨member, e, n, hlast, hne, he, hn, rfl⟩ := h
    simp [hlast, hne, he, hn]

theorem member_reads {path : List String} (h : member? s path = some t) : t.node.reads = [] := by
  obtain ⟨_, _, _, -, -, -, -, rfl⟩ := member?_eq_some.mp h
  rfl

theorem field_reads {path : List String} (h : field s path location = .ok t) :
    t.node.reads = [path].filterMap s.read? := by
  unfold field at h
  split at h
  · rename_i q hq
    cases h
    have hread : s.read? path = some (Text.dotted path, q.steps) := by
      unfold Scope.read?
      rw [hq]
    rw [List.filterMap_cons_some hread]
    rfl
  · rename_i u hu
    have hread : s.read? path = none := by
      unfold Scope.read?
      rw [hu]
    split at h
    · rename_i v hv
      cases h
      rw [List.filterMap_cons_none hread, member_reads hv]
      rfl
    · cases h

theorem coerce_reads {k : NumericKind} {n : Node} (h : coerce t k = .ok n) : n.reads = t.node.reads := by
  unfold coerce at h
  dsimp only at h
  split at h
  · cases h
    rfl
  split at h
  · cases h
    rfl
  split at h
  · split at h <;> cases h
    rfl
  · split at h <;> cases h <;> rfl

theorem negateNumber_reads {k : NumericKind} (h : negateNumber t k = .ok a) : a.node.reads = t.node.reads := by
  unfold negateNumber at h
  obtain ⟨n, hn, h⟩ := bind_eq_ok.mp h
  cases h
  show n.reads = _
  exact coerce_reads hn

theorem unary_reads {op : UnaryOp} (h : unary op t location = .ok a) : a.node.reads = t.node.reads := by
  cases op with
  | not =>
    unfold unary at h
    dsimp only at h
    split at h <;> cases h
    rfl
  | negate =>
    change negate t location = .ok a at h
    unfold negate at h
    split at h
    · split at h
      · split at h
        · cases h
          rfl
        · exact negateNumber_reads h
      · exact negateNumber_reads h
    · cases h
      rfl
    · cases h

theorem unify_reads {symbol : String} {m : Meeting} (h : unify symbol a b location = .ok m) :
    m.left.reads = a.node.reads ∧ m.right.reads = b.node.reads := by
  unfold unify at h
  dsimp only at h
  split at h
  case h_4 =>
    obtain ⟨n, hn, h⟩ := bind_eq_ok.mp h
    obtain ⟨p, hp, h⟩ := bind_eq_ok.mp h
    cases h
    exact ⟨coerce_reads hn, coerce_reads hp⟩
  case h_5 | h_6 =>
    split at h <;> cases h
    exact ⟨rfl, rfl⟩
  all_goals
    cases h
    exact ⟨rfl, rfl⟩

theorem textual_reads (t : Typed) : (textual t).reads = t.node.reads := by
  unfold textual
  split <;> rfl

theorem operation_reads {o : Operation} (h : operation o a b location = .ok t) :
    t.node.reads = a.node.reads ++ b.node.reads := by
  unfold operation at h
  dsimp only at h
  split at h
  · cases h
    show (textual a).reads ++ (textual b).reads = _
    rw [textual_reads, textual_reads]
  split at h
  · obtain ⟨n, hn, h⟩ := bind_eq_ok.mp h
    obtain ⟨p, hp, h⟩ := bind_eq_ok.mp h
    cases h
    show n.reads ++ p.reads = _
    rw [coerce_reads hn, coerce_reads hp]
  split at h <;> cases h
  rfl

theorem logical_reads {op : BinaryOp} {make : Node → Node → Node} (hmake : make = .and ∨ make = .or)
    (h : logical op make a b location = .ok t) : t.node.reads = a.node.reads ++ b.node.reads := by
  unfold logical at h
  split at h <;> cases h
  obtain rfl | rfl := hmake <;> rfl

theorem binary_reads {op : BinaryOp} (h : binary op a b location = .ok t) :
    t.node.reads = a.node.reads ++ b.node.reads := by
  cases op with
  | and => exact logical_reads (.inl rfl) h
  | or => exact logical_reads (.inr rfl) h
  | operation o => exact operation_reads h
  | relation c =>
    change relation c a b location = .ok t at h
    unfold relation at h
    obtain ⟨m, hm, h⟩ := bind_eq_ok.mp h
    obtain ⟨hleft, hright⟩ := unify_reads hm
    split at h <;> cases h
    show m.left.reads ++ m.right.reads = _
    rw [hleft, hright]

theorem conditional_reads {c : Typed} (h : conditional c a b location = .ok t) :
    t.node.reads = c.node.reads ++ a.node.reads ++ b.node.reads := by
  unfold conditional at h
  obtain ⟨m, hm, h⟩ := bind_eq_ok.mp h
  obtain ⟨hleft, hright⟩ := unify_reads hm
  cases h
  show c.node.reads ++ m.left.reads ++ m.right.reads = _
  rw [hleft, hright]

theorem call_reads {name : String} {args : List Typed} (h : call s name args location = .ok t) :
    t.node.reads = Node.readsOfAll (args.map Typed.node) := by
  unfold call at h
  dsimp only at h
  split at h
  · cases h
    rfl
  · split at h <;> cases h

mutual

/-- A lowered expression reads what the paths of the expression read that lead to fields. -/
theorem lower_reads : ∀ {e : Expr} {t : Typed}, lower s e = .ok t → t.node.reads = e.routes.filterMap s.read?
  | .literal v l, t, h => by
    rw [lower] at h
    cases h
    exact literal_reads v
  | .field path l, t, h => by
    rw [lower] at h
    exact field_reads h
  | .call name args l, t, h => by
    rw [lower] at h
    obtain ⟨ts, hts, h⟩ := bind_eq_ok.mp h
    rw [call_reads h, lowerAll_reads hts]
    rfl
  | .unary op e l, t, h => by
    rw [lower] at h
    obtain ⟨u, hu, h⟩ := bind_eq_ok.mp h
    rw [unary_reads h, lower_reads hu]
    rfl
  | .binary op a b l, t, h => by
    rw [lower] at h
    obtain ⟨u, hu, h⟩ := bind_eq_ok.mp h
    obtain ⟨v, hv, h⟩ := bind_eq_ok.mp h
    rw [binary_reads h, lower_reads hu, lower_reads hv, Expr.routes, List.filterMap_append]
  | .conditional c y n l, t, h => by
    rw [lower] at h
    obtain ⟨u, hu, h⟩ := bind_eq_ok.mp h
    split at h
    · obtain ⟨v, hv, h⟩ := bind_eq_ok.mp h
      obtain ⟨w, hw, h⟩ := bind_eq_ok.mp h
      rw [conditional_reads h, lower_reads hu, lower_reads hv, lower_reads hw, Expr.routes, List.filterMap_append,
        List.filterMap_append]
    · cases h

theorem lowerAll_reads : ∀ {es : List Expr} {ts : List Typed}, lowerAll s es = .ok ts →
    Node.readsOfAll (ts.map Typed.node) = (Expr.routesOfAll es).filterMap s.read?
  | [], ts, h => by
    rw [lowerAll] at h
    cases h
    rfl
  | e :: es, ts, h => by
    rw [lowerAll] at h
    obtain ⟨u, hu, h⟩ := bind_eq_ok.mp h
    obtain ⟨us, hus, h⟩ := bind_eq_ok.mp h
    cases h
    rw [List.map_cons, Node.readsOfAll, lower_reads hu, lowerAll_reads hus, Expr.routesOfAll, List.filterMap_append]

end

end Lowering

end RecordLogic
