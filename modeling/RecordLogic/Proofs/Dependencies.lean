import Mathlib.Data.List.Induction
import RecordLogic.Proofs.Meetings
import RecordLogic.Proofs.Noninterference

/-!
# Dependencies and the paths of an expression

Two traversals collect paths: one of the tree as it was read, and one of the lowered tree. Lowering keeps the parts in
their order, and puts a constant in the place of a path only where the path leads to a member of an enumeration. So
the dependencies are the paths of the tree without those of members, in the order in which they first appear.
-/

namespace RecordLogic

/-! ## First appearances -/

section
variable {α : Type} [BEq α] [LawfulBEq α]

theorem eraseDups_concat (l : List α) (a : α) :
    (l ++ [a]).eraseDups = if a ∈ l then l.eraseDups else l.eraseDups ++ [a] := by
  rw [List.eraseDups_append]
  by_cases h : a ∈ l
  · simp [List.removeAll, h]
  · simp [List.removeAll, h, List.eraseDups_cons]

theorem eraseDups_filter (p : α → Bool) (l : List α) : (l.filter p).eraseDups = l.eraseDups.filter p := by
  induction l using List.reverseRecOn with
  | nil => rfl
  | append_singleton l a ih =>
    rw [List.filter_append, eraseDups_concat]
    by_cases hp : p a
    · rw [List.filter_cons_of_pos hp, List.filter_nil, eraseDups_concat, ih]
      by_cases h : a ∈ l
      · simp [h, hp]
      · simp [h, hp]
    · rw [List.filter_cons_of_neg hp, List.filter_nil, List.append_nil, ih]
      split
      · rfl
      · simp [hp]

/-- What is left stands in the order of the first appearances. -/
theorem pairwise_idxOf_eraseDups (l : List α) : l.eraseDups.Pairwise fun a b => l.idxOf a < l.idxOf b := by
  induction l using List.reverseRecOn with
  | nil => exact .nil
  | append_singleton l a ih =>
    have hfirst : ∀ b ∈ l, (l ++ [a]).idxOf b = l.idxOf b := fun b hb => List.idxOf_append_of_mem hb
    have hold : l.eraseDups.Pairwise fun b c => (l ++ [a]).idxOf b < (l ++ [a]).idxOf c := by
      refine ih.imp_of_mem fun hb hc h => ?_
      rwa [hfirst _ (List.mem_eraseDups.mp hb), hfirst _ (List.mem_eraseDups.mp hc)]
    rw [eraseDups_concat]
    by_cases h : a ∈ l
    · rwa [if_pos h]
    · rw [if_neg h]
      refine List.pairwise_append.mpr ⟨hold, List.pairwise_singleton _ _, fun b hb c hc => ?_⟩
      have hb := List.mem_eraseDups.mp hb
      rw [List.mem_singleton.mp hc, hfirst b hb, List.idxOf_append_of_notMem h]
      exact Nat.lt_of_lt_of_le (List.idxOf_lt_length_of_mem hb) (Nat.le_add_right _ _)

end

/-! ## Paths of the tree -/

namespace Expr

mutual

theorem paths_eq : ∀ e : Expr, e.paths = e.routes.map Text.dotted
  | .literal .. => rfl
  | .field .. => rfl
  | .call _ args _ => by rw [paths, routes, pathsOfAll_eq args]
  | .unary _ e _ => by rw [paths, routes, paths_eq e]
  | .binary _ a b _ => by rw [paths, routes, paths_eq a, paths_eq b, List.map_append]
  | .conditional c y n _ => by
    rw [paths, routes, paths_eq c, paths_eq y, paths_eq n, List.map_append, List.map_append]

theorem pathsOfAll_eq : ∀ es : List Expr, pathsOfAll es = (routesOfAll es).map Text.dotted
  | [] => rfl
  | e :: es => by rw [pathsOfAll, routesOfAll, paths_eq e, pathsOfAll_eq es, List.map_append]

end

end Expr

def Scope.isField (s : Scope) (path : String) : Bool := (s.model.resolve s.mode (Text.segments path)).isOk

theorem Scope.isField_iff {s : Scope} {path : String} :
    s.isField path ↔ ∃ q, s.model.resolve s.mode (Text.segments path) = .ok q := by
  unfold isField
  cases s.model.resolve s.mode (Text.segments path) <;> simp [Except.isOk, Except.toBool]

section
variable {s : Scope}

theorem map_fst_filterMap_read? {routes : List (List String)} (h : ∀ route ∈ routes, Written route) :
    (routes.filterMap s.read?).map Prod.fst = (routes.map Text.dotted).filter s.isField := by
  induction routes with
  | nil => rfl
  | cons route routes ih =>
    have hrest := ih fun r hr => h r (.tail _ hr)
    have hwritten := (h route (.head _)).segments_dotted
    rw [List.map_cons]
    by_cases hfield : s.isField (Text.dotted route)
    · obtain ⟨q, hq⟩ := Scope.isField_iff.mp hfield
      rw [hwritten] at hq
      have hread : s.read? route = some (Text.dotted route, q.steps) := by simp [Scope.read?, hq]
      rw [List.filterMap_cons_some hread, List.map_cons, List.filter_cons_of_pos hfield, hrest]
    · have hread : s.read? route = none := by
        unfold Scope.read?
        split
        · rename_i q hq
          exact absurd (Scope.isField_iff.mpr ⟨q, by rwa [hwritten]⟩) hfield
        · rfl
      rw [List.filterMap_cons_none hread, List.filter_cons_of_neg hfield, hrest]

def Scope.Leads (s : Scope) (route : List String) : Prop :=
  (∃ q, s.model.resolve s.mode route = .ok q) ∨ ∃ t, Lowering.member? s route = some t

namespace Lowering

theorem field_leads {route : List String} {location : Location} {t : Typed} (h : field s route location = .ok t) :
    s.Leads route := by
  unfold field at h
  split at h
  · rename_i q hq
    exact .inl ⟨q, hq⟩
  · split at h
    · rename_i u hu
      exact .inr ⟨u, hu⟩
    · cases h

mutual

theorem lower_leads : ∀ {e : Expr} {t : Typed}, lower s e = .ok t → ∀ route ∈ e.routes, s.Leads route
  | .literal _ _, _, _, route, hroute => by
    rw [Expr.routes] at hroute
    cases hroute
  | .field path l, t, h, route, hroute => by
    rw [Expr.routes] at hroute
    obtain rfl := List.mem_singleton.mp hroute
    rw [lower] at h
    exact field_leads h
  | .call name args l, t, h, route, hroute => by
    rw [lower] at h
    obtain ⟨ts, hts, -⟩ := bind_eq_ok.mp h
    exact lowerAll_leads hts route hroute
  | .unary op e l, t, h, route, hroute => by
    rw [lower] at h
    obtain ⟨u, hu, -⟩ := bind_eq_ok.mp h
    exact lower_leads hu route hroute
  | .binary op a b l, t, h, route, hroute => by
    obtain ⟨u, v, hu, hv, -⟩ := lower_binary h
    rw [Expr.routes] at hroute
    rcases List.mem_append.mp hroute with hroute | hroute
    · exact lower_leads hu route hroute
    · exact lower_leads hv route hroute
  | .conditional c y n l, t, h, route, hroute => by
    obtain ⟨u, v, w, hu, hv, hw, -⟩ := lower_conditional h
    rw [Expr.routes] at hroute
    rcases List.mem_append.mp hroute with hroute | hroute
    · rcases List.mem_append.mp hroute with hroute | hroute
      · exact lower_leads hu route hroute
      · exact lower_leads hv route hroute
    · exact lower_leads hw route hroute

theorem lowerAll_leads : ∀ {es : List Expr} {ts : List Typed}, lowerAll s es = .ok ts →
    ∀ route ∈ Expr.routesOfAll es, s.Leads route
  | [], _, _, route, hroute => by
    rw [Expr.routesOfAll] at hroute
    cases hroute
  | e :: es, ts, h, route, hroute => by
    rw [lowerAll] at h
    obtain ⟨u, hu, h⟩ := bind_eq_ok.mp h
    obtain ⟨us, hus, -⟩ := bind_eq_ok.mp h
    rw [Expr.routesOfAll] at hroute
    rcases List.mem_append.mp hroute with hroute | hroute
    · exact lower_leads hu route hroute
    · exact lowerAll_leads hus route hroute

end

end Lowering

end

/-! ## Paths noted down while lowering -/

def note (met : List String) (path : String) : List String :=
  if met.contains path then met else met ++ [path]

theorem foldl_note (paths : List String) : paths.foldl note [] = paths.eraseDups := by
  induction paths using List.reverseRecOn with
  | nil => rfl
  | append_singleton paths path ih => simp [ih, note, eraseDups_concat]

namespace Lowering

abbrev Noting := StateT (List String) (Except Objection)

def fieldNoting (s : Scope) (path : List String) (location : Location) : Noting Typed := do
  if (s.model.resolve s.mode path).isOk then modify (note · (Text.dotted path))
  field s path location

mutual

/-- Lowers as `lower` does, and notes down the paths of fields on the way. -/
def lowerNoting (s : Scope) : Expr → Noting Typed
  | .literal v l => return literal v l
  | .field path l => fieldNoting s path l
  | .call name args l => do
    let args ← lowerAllNoting s args
    call s name args l
  | .unary op e l => do
    let t ← lowerNoting s e
    unary op t l
  | .binary op a b l => do
    let a ← lowerNoting s a
    let b ← lowerNoting s b
    binary op a b l
  | .conditional c y n l => do
    let c ← lowerNoting s c
    if c.type.isCondition then
      let y ← lowerNoting s y
      let n ← lowerNoting s n
      conditional c y n l
    else throw ⟨.condition c.type, l⟩

def lowerAllNoting (s : Scope) : List Expr → Noting (List Typed)
  | [] => return []
  | e :: es => do
    let t ← lowerNoting s e
    let ts ← lowerAllNoting s es
    return t :: ts

end

variable {s : Scope}

def noted (s : Scope) (routes : List (List String)) (met : List String) : List String :=
  ((routes.filterMap s.read?).map Prod.fst).foldl note met

theorem noted_append (as bs : List (List String)) (met : List String) :
    noted s (as ++ bs) met = noted s bs (noted s as met) := by
  simp [noted]

/-- `x` gives what `y` gives, and notes down the fields that these segments lead to. -/
def Notes {α : Type} (s : Scope) (x : Noting α) (y : Except Objection α) (routes : List (List String)) : Prop :=
  ∀ met, x.run met = y.map fun a => (a, noted s routes met)

theorem Notes.pure {α : Type} (a : α) : Notes s (pure a) (pure a) [] := fun _ => rfl

theorem Notes.throw {α : Type} (o : Objection) (routes : List (List String)) :
    Notes s (throw o : Noting α) (throw o) routes := fun _ => rfl

theorem Notes.lift {α : Type} (y : Except Objection α) : Notes s (liftM y) y [] := by
  intro met
  cases y <;> rfl

theorem Notes.bind {α β : Type} {x : Noting α} {y : Except Objection α} {f : α → Noting β}
    {g : α → Except Objection β} {as bs : List (List String)} (hx : Notes s x y as) (hf : ∀ a, Notes s (f a) (g a) bs) :
    Notes s (x >>= f) (y >>= g) (as ++ bs) := by
  intro met
  rw [StateT.run_bind, hx met, noted_append]
  cases y with
  | error o => rfl
  | ok a => exact hf a (noted s as met)

theorem fieldNoting_notes (path : List String) (l : Location) : Notes s (fieldNoting s path l) (field s path l) [path] := by
  intro met
  unfold fieldNoting noted
  cases h : s.model.resolve s.mode path with
  | ok q =>
    have hread : s.read? path = some (Text.dotted path, q.steps) := by simp [Scope.read?, h]
    cases field s path l <;> simp [Except.isOk, Except.toBool, hread, Except.map]
  | error u =>
    have hread : s.read? path = none := by simp [Scope.read?, h]
    cases field s path l <;> simp [Except.isOk, Except.toBool, hread, Except.map]

mutual

theorem lowerNoting_notes : ∀ e : Expr, Notes s (lowerNoting s e) (lower s e) e.routes
  | .literal v l => by
    rw [lowerNoting, lower, Expr.routes]
    exact .pure _
  | .field path l => by
    rw [lowerNoting, lower, Expr.routes]
    exact fieldNoting_notes path l
  | .call name args l => by
    rw [lowerNoting, lower, Expr.routes, ← List.append_nil (Expr.routesOfAll args)]
    exact (lowerAllNoting_notes args).bind fun ts => .lift _
  | .unary op e l => by
    rw [lowerNoting, lower, Expr.routes, ← List.append_nil e.routes]
    exact (lowerNoting_notes e).bind fun t => .lift _
  | .binary op a b l => by
    rw [lowerNoting, lower, Expr.routes, ← List.append_nil b.routes]
    exact (lowerNoting_notes a).bind fun t => (lowerNoting_notes b).bind fun u => .lift _
  | .conditional c y n l => by
    rw [lowerNoting, lower, Expr.routes, List.append_assoc, ← List.append_nil n.routes]
    refine (lowerNoting_notes c).bind fun t => ?_
    split
    · exact (lowerNoting_notes y).bind fun u => (lowerNoting_notes n).bind fun v => .lift _
    · exact .throw _ _

theorem lowerAllNoting_notes : ∀ es : List Expr,
    Notes s (lowerAllNoting s es) (lowerAll s es) (Expr.routesOfAll es)
  | [] => by
    rw [lowerAllNoting, lowerAll, Expr.routesOfAll]
    exact .pure _
  | e :: es => by
    rw [lowerAllNoting, lowerAll, Expr.routesOfAll, ← List.append_nil (Expr.routesOfAll es)]
    exact (lowerNoting_notes e).bind fun t => (lowerAllNoting_notes es).bind fun ts => .pure _

end

end Lowering

/-- The dependencies are what is noted down while the expression is lowered. -/
theorem Predicate.dependencies_noted {s : Scope} {e : Expr} {source : String} {p : Predicate}
    (hp : s.compileTree e source = .ok p) :
    ∃ t, (Lowering.lowerNoting s e).run [] = .ok (t, p.dependencies) ∧ p.root = t.node := by
  obtain ⟨t, ht, rfl⟩ := Scope.compileTree_ok hp
  refine ⟨t, ?_, rfl⟩
  rw [Lowering.lowerNoting_notes e [], ht]
  unfold Predicate.dependencies Lowering.noted
  rw [Node.paths_eq, Lowering.lower_reads ht, foldl_note]
  rfl

/-- **Dependencies.** The dependencies of a compiled predicate are the paths of its expression that lead to fields, each
once and in the order in which they first appear. What is left out are members of enumerations. -/
theorem Predicate.dependencies_eq_fieldPaths {s : Scope} {source : String} {p : Predicate}
    (hp : s.compile source = .ok p) :
    ∃ e, parse source = .ok e ∧ p.dependencies = e.fieldPaths.filter s.isField ∧
      (∀ path ∈ e.fieldPaths, ¬ s.isField path → ∃ t, Lowering.member? s (Text.segments path) = some t) ∧
      p.dependencies.Nodup ∧ p.dependencies.Pairwise fun a b => e.paths.idxOf a < e.paths.idxOf b := by
  obtain ⟨e, t, he, ht, rfl⟩ := Scope.compile_ok hp
  have hwritten := written_of_parse he
  have hdependencies : Predicate.dependencies ⟨source, s.model, t.node⟩ = e.fieldPaths.filter s.isField := by
    unfold Predicate.dependencies Expr.fieldPaths
    rw [Node.paths_eq, Lowering.lower_reads ht, map_fst_filterMap_read? hwritten, ← Expr.paths_eq, eraseDups_filter]
  have horder : (e.fieldPaths.filter s.isField).Pairwise fun a b => e.paths.idxOf a < e.paths.idxOf b :=
    (pairwise_idxOf_eraseDups e.paths).sublist List.filter_sublist
  refine ⟨e, he, hdependencies, fun path hpath hfield => ?_, ?_, ?_⟩
  · unfold Expr.fieldPaths at hpath
    rw [List.mem_eraseDups, Expr.paths_eq] at hpath
    obtain ⟨route, hroute, rfl⟩ := List.mem_map.mp hpath
    have hsegments := (hwritten route hroute).segments_dotted
    obtain ⟨q, hq⟩ | hmember := Lowering.lower_leads ht route hroute
    · exact absurd (Scope.isField_iff.mpr ⟨q, by rwa [hsegments]⟩) hfield
    · rwa [hsegments]
  · rw [hdependencies]
    apply horder.imp
    intro a b h heq
    rw [heq] at h
    exact Nat.lt_irrefl _ h
  · rw [hdependencies]
    exact horder

/-- A field that is read twice counts once, and the member of an enumeration not at all. -/
theorem Predicate.dependencies_eq_fieldPaths_color :
    let m : Model := ⟨0, "Car", [⟨"New", .bool, none⟩, ⟨"Paint", .enum ⟨"Color", [("Red", 0)]⟩, none⟩]⟩
    let s : Scope := ⟨m, .empty, .sensitive⟩
    ∃ p e, s.compile "New&&Paint==Color.Red&&New" = .ok p ∧ parse "New&&Paint==Color.Red&&New" = .ok e ∧
      e.paths = ["New", "Paint", "Color.Red", "New"] ∧ p.dependencies = ["New", "Paint"] ∧
      p.dependencies = e.fieldPaths.filter s.isField := by
  intro m s
  have htokens : tokenize "New&&Paint==Color.Red&&New" = .ok [⟨.name, none, "New", ⟨1, 1⟩⟩, ⟨.and, none, "&&", ⟨1, 4⟩⟩,
      ⟨.name, none, "Paint", ⟨1, 6⟩⟩, ⟨.equal, none, "==", ⟨1, 11⟩⟩, ⟨.name, none, "Color.Red", ⟨1, 13⟩⟩,
      ⟨.and, none, "&&", ⟨1, 22⟩⟩, ⟨.name, none, "New", ⟨1, 24⟩⟩, ⟨.stop, none, "", ⟨1, 27⟩⟩] := rfl
  have hname : ∀ t : Token, t.kind = .name → Grammar.Chain 3 [t] (.field (Text.segments t.raw) t.location) 0 0 :=
    fun t ht => .operand (.operand (.operand (.unary (.operand (.field ht)))))
  have hparse : parse "New&&Paint==Color.Red&&New" = .ok (.binary .and (.binary .and
      (.field (Text.segments "New") ⟨1, 1⟩) (.binary (.relation .equal) (.field (Text.segments "Paint") ⟨1, 6⟩)
        (.field (Text.segments "Color.Red") ⟨1, 13⟩) ⟨1, 11⟩) ⟨1, 4⟩) (.field (Text.segments "New") ⟨1, 24⟩) ⟨1, 22⟩) :=
    parse_eq_ok.mpr ⟨_, htokens, 2, by decide, .binary (.operand (.operator (.operator (.operand (.operand
      (hname _ rfl))) .and (.operator (.operand (hname _ rfl)) .equal (hname _ rfl))) .and
      (.operand (hname _ rfl))))⟩
  obtain ⟨p, hp, hdependencies⟩ : ∃ p, s.compile "New&&Paint==Color.Red&&New" = .ok p ∧
      p.dependencies = ["New", "Paint"] := by
    unfold Scope.compile
    rw [hparse]
    exact ⟨_, rfl, rfl⟩
  obtain ⟨e, he, hfields, -⟩ := Predicate.dependencies_eq_fieldPaths hp
  refine ⟨p, e, hp, he, ?_, hdependencies, hfields⟩
  rw [hparse] at he
  cases he
  rfl

end RecordLogic
