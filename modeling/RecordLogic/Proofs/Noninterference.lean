import RecordLogic.Proofs.ParserExact
import RecordLogic.Proofs.Reads

/-!
# Records that agree on the dependencies

A path in a parsed expression is the segments of a text, so a dependency can be split again into the very path that
was resolved. Two records that show the same along all dependencies are the same to the predicate.
-/

namespace RecordLogic

namespace Text

theorem joined_eq_intercalate (sep : Char) (ps : List (List Char)) : joined sep ps = [sep].intercalate ps := by
  induction ps with
  | nil => rfl
  | cons p ps ih =>
    cases ps with
    | nil => rw [joined, List.intercalate_singleton]
    | cons q qs =>
      rw [joined, ih, List.intercalate_cons_cons]
      · simp
      · exact List.cons_ne_nil q qs

theorem dotted_segments (text : String) : dotted (segments text) = text := by
  have hmap : (segments text).map String.toList = pieces '.' text.toList := by
    unfold segments split
    simp [Function.comp_def]
  apply String.toList_injective
  unfold dotted
  rw [String.toList_intercalate, hmap]
  exact (joined_eq_intercalate _ _).symm.trans (joined_pieces _ _)

end Text

def Written (route : List String) : Prop := ∃ raw, route = Text.segments raw

theorem Written.segments_dotted {route : List String} (h : Written route) :
    Text.segments (Text.dotted route) = route := by
  obtain ⟨raw, rfl⟩ := h
  rw [Text.dotted_segments]

/-! ## Parsed expressions -/

namespace Grammar

mutual

theorem Operand.written : ∀ {ts : List Token} {e : Expr} {n : Nat}, Operand ts e n → ∀ route ∈ e.routes, Written route
  | _, _, _, .literal _, route, h => by
    rw [Expr.routes] at h
    cases h
  | _, _, _, @Operand.field t _, route, h => by
    rw [Expr.routes] at h
    obtain rfl := List.mem_singleton.mp h
    exact ⟨t.raw, rfl⟩
  | _, _, _, .call _ _ _, route, h => by
    rw [Expr.routes, Expr.routesOfAll] at h
    cases h
  | _, _, _, .callWith _ _ hargs _, route, h => by
    rw [Expr.routes] at h
    exact hargs.written route h
  | _, _, _, .parens _ he _, route, h => he.written route h

theorem Unary.written : ∀ {ts : List Token} {e : Expr} {n : Nat}, Unary ts e n → ∀ route ∈ e.routes, Written route
  | _, _, _, .operand ho, route, h => ho.written route h
  | _, _, _, .signed _ hu, route, h => by
    rw [Expr.routes] at h
    exact hu.written route h

theorem Chain.written : ∀ {rank : Nat} {ts : List Token} {e : Expr} {n k : Nat}, Chain rank ts e n k →
    ∀ route ∈ e.routes, Written route
  | _, _, _, _, _, .unary hu, route, h => hu.written route h
  | _, _, _, _, _, .operand hc, route, h => hc.written route h
  | _, _, _, _, _, .operator ha _ hb, route, h => by
    rw [Expr.routes] at h
    rcases List.mem_append.mp h with h | h
    · exact ha.written route h
    · exact hb.written route h

theorem Conditional.written : ∀ {ts : List Token} {e : Expr} {n : Nat}, Conditional ts e n →
    ∀ route ∈ e.routes, Written route
  | _, _, _, .binary hc, route, h => hc.written route h
  | _, _, _, .branches hc _ hy _ hz, route, h => by
    rw [Expr.routes] at h
    rcases List.mem_append.mp h with h | h
    · rcases List.mem_append.mp h with h | h
      · exact hc.written route h
      · exact hy.written route h
    · exact hz.written route h

theorem Arguments.written : ∀ {ts : List Token} {es : List Expr} {n : Nat}, Arguments ts es n →
    ∀ route ∈ Expr.routesOfAll es, Written route
  | _, _, _, .last he, route, h => by
    rw [Expr.routesOfAll, Expr.routesOfAll, List.append_nil] at h
    exact he.written route h
  | _, _, _, .more he _ hargs, route, h => by
    rw [Expr.routesOfAll] at h
    rcases List.mem_append.mp h with h | h
    · exact he.written route h
    · exact hargs.written route h

end

end Grammar

theorem written_of_parse {source : String} {e : Expr} (h : parse source = .ok e) :
    ∀ route ∈ e.routes, Written route := by
  obtain ⟨tokens, -, n, -, he⟩ := parse_eq_ok.mp h
  exact he.written

/-! ## Compiled predicates -/

section
variable {s : Scope} {source : String} {p : Predicate}

theorem Scope.compileTree_ok {e : Expr} (h : s.compileTree e source = .ok p) :
    ∃ t, Lowering.lower s e = .ok t ∧ p = ⟨source, s.model, t.node⟩ := by
  unfold Scope.compileTree at h
  split at h
  · cases h
  rename_i t ht
  split at h <;> cases h
  exact ⟨t, ht, rfl⟩

theorem Scope.compile_ok (h : s.compile source = .ok p) :
    ∃ e t, parse source = .ok e ∧ Lowering.lower s e = .ok t ∧ p = ⟨source, s.model, t.node⟩ := by
  unfold Scope.compile at h
  split at h
  · cases h
  rename_i e he
  obtain ⟨t, ht, hp⟩ := Scope.compileTree_ok h
  exact ⟨e, t, he, ht, hp⟩

theorem mem_dependencies {path : String} : path ∈ p.dependencies ↔ ∃ steps, (path, steps) ∈ p.root.reads := by
  unfold Predicate.dependencies
  rw [List.mem_eraseDups, Node.paths_eq]
  simp

theorem reads_of_compile (hp : s.compile source = .ok p) {path : String} {steps : List Step}
    (h : (path, steps) ∈ p.root.reads) :
    ∃ q, s.model.resolve s.mode (Text.segments path) = .ok q ∧ q.steps = steps := by
  obtain ⟨e, t, he, ht, rfl⟩ := Scope.compile_ok hp
  rw [Lowering.lower_reads ht] at h
  obtain ⟨route, hroute, hread⟩ := List.mem_filterMap.mp h
  unfold Scope.read? at hread
  split at hread
  · rename_i q hq
    cases hread
    -- Only a written path is found again by splitting the dependency at its dots.
    rw [(written_of_parse he route hroute).segments_dotted]
    exact ⟨q, hq, rfl⟩
  · cases hread

theorem Predicate.run_congr {q r : Record} (hid : q.model.id = r.model.id) (h : Node.Agree q r p.root.reads) :
    p.run q = p.run r := by
  unfold Predicate.run
  rw [hid, Node.eval_congr p.root h]

/-- **Noninterference.** Every dependency of a compiled predicate resolves, and two records of the model of which
the dependencies read the same get the same answer. -/
theorem Predicate.noninterference (hp : s.compile source = .ok p) :
    (∀ path ∈ p.dependencies, ∃ q, s.model.resolve s.mode (Text.segments path) = .ok q) ∧
    ∀ r₁ r₂ : Record, r₁.model.id = s.model.id → r₂.model.id = s.model.id →
      (∀ path ∈ p.dependencies, ∀ q, s.model.resolve s.mode (Text.segments path) = .ok q →
        r₁.follow q.steps = r₂.follow q.steps) →
      p.run r₁ = p.run r₂ ∧ p.holds r₁ = p.holds r₂ := by
  refine ⟨fun path hpath => ?_, fun r₁ r₂ h₁ h₂ hsame => ?_⟩
  · obtain ⟨steps, hread⟩ := mem_dependencies.mp hpath
    obtain ⟨q, hq, -⟩ := reads_of_compile hp hread
    exact ⟨q, hq⟩
  · have hagree : Node.Agree r₁ r₂ p.root.reads := by
      intro ⟨path, steps⟩ hread
      obtain ⟨q, hq, rfl⟩ := reads_of_compile hp hread
      exact hsame path (mem_dependencies.mpr ⟨_, hread⟩) q hq
    have hrun := Predicate.run_congr (h₁.trans h₂.symm) hagree
    exact ⟨hrun, congrArg Traced.value hrun⟩

end

/-- The predicate `Ok` does not look at an age. -/
theorem Predicate.noninterference_ok :
    let m : Model := ⟨0, "Person", [⟨"Ok", .bool, none⟩, ⟨"Age", .number .i32, none⟩]⟩
    let s : Scope := ⟨m, .empty, .sensitive⟩
    ∃ p, s.compile "Ok" = .ok p ∧ p.dependencies = ["Ok"] ∧
      p.holds ⟨m, [.bool true, .int 30]⟩ = p.holds ⟨m, [.bool true, .int 40]⟩ := by
  intro m s
  have htokens : tokenize "Ok" = .ok [⟨.name, none, "Ok", ⟨1, 1⟩⟩, ⟨.stop, none, "", ⟨1, 3⟩⟩] := rfl
  have hparse := parse_name htokens rfl rfl
  have hp : s.compile "Ok" = .ok ⟨"Ok", m, .field "Ok" [.field 0]⟩ := by
    unfold Scope.compile
    rw [hparse]
    rfl
  refine ⟨_, hp, rfl, ?_⟩
  refine ((Predicate.noninterference hp).2 _ _ rfl rfl fun path hpath q hq => ?_).2
  obtain rfl := List.mem_singleton.mp hpath
  cases hq
  rfl

end RecordLogic
