import RecordLogic.Proofs.Inclusion
import RecordLogic.Proofs.ParserExact

/-!
# Registering one more function

A call takes the first function that accepts it, and a new function is the last. So no call that was resolved before
comes to the new one, whatever the case of its name and however many of its arguments are null, and no expression that
compiled before compiles to anything else.
-/

namespace RecordLogic

namespace Registry

variable {g g' : Registry} {f c : Signature} {mode : Text.Case} {name : String} {args : List (Option CoarseType)}

theorem push_of_clash (h : ∃ d ∈ g.signatures, d.clashes f) :
    g.push f = (g, some (.duplicateSignature f.name f.params)) := by
  unfold push
  rw [if_pos (List.any_eq_true.mpr h)]

theorem push_of_apart (h : ∀ d ∈ g.signatures, ¬ d.clashes f) : g.push f = (⟨g.signatures ++ [f]⟩, none) := by
  unfold push
  rw [if_neg (by simpa using h)]

theorem add_eq_ok : g.add f = .ok g' ↔ (∀ d ∈ g.signatures, ¬ d.clashes f) ∧ g' = ⟨g.signatures ++ [f]⟩ := by
  unfold add
  by_cases h : ∃ d ∈ g.signatures, d.clashes f
  · rw [push_of_clash h]
    obtain ⟨d, hd, hclash⟩ := h
    exact ⟨fun he => (nomatch he), fun he => absurd hclash (he.1 d hd)⟩
  · have hapart : ∀ d ∈ g.signatures, ¬ d.clashes f := fun d hd hclash => h ⟨d, hd, hclash⟩
    rw [push_of_apart hapart]
    simp only [Except.ok.injEq]
    exact ⟨fun he => ⟨hapart, he.symm⟩, fun he => he.2.symm⟩

theorem overloads_add (h : g.add f = .ok g') :
    g'.overloads mode name = g.overloads mode name ++ overloads ⟨[f]⟩ mode name := by
  obtain ⟨-, rfl⟩ := add_eq_ok.mp h
  exact List.filter_append _ _

/-- The new function is asked where no other accepts the arguments. -/
theorem resolve?_add (h : g.add f = .ok g') :
    g'.resolve? mode name args = (g.resolve? mode name args).or (resolve? ⟨[f]⟩ mode name args) := by
  unfold resolve?
  rw [overloads_add h, List.find?_append]

theorem resolve?_add_of_some (h : g.add f = .ok g') (hc : g.resolve? mode name args = some c) :
    g'.resolve? mode name args = some c := by
  rw [resolve?_add h, hc]
  rfl

end Registry

theorem Lowering.call_add {g g' : Registry} {f : Signature} (h : g.add f = .ok g') {m : Model} {mode : Text.Case}
    {name : String} {args : List Typed} {l : Location} {t : Typed} (ht : call ⟨m, g, mode⟩ name args l = .ok t) :
    call ⟨m, g', mode⟩ name args l = .ok t := by
  unfold call at ht ⊢
  dsimp only at ht ⊢
  split at ht
  · rename_i c hc
    rw [Registry.resolve?_add_of_some h hc]
    exact ht
  · split at ht <;> cases ht

theorem Scope.compileTree_add {g g' : Registry} {f : Signature} (h : g.add f = .ok g') {m : Model} {mode : Text.Case}
    {e : Expr} {source : String} {p : Predicate} (hp : Scope.compileTree ⟨m, g, mode⟩ e source = .ok p) :
    Scope.compileTree ⟨m, g', mode⟩ e source = .ok p := by
  refine Scope.compileTree_mono (s := ⟨m, g, mode⟩) rfl (fun t ht => ?_) hp
  -- Fields are looked up in the model, which is the same.
  have hfield : ∀ path l t, True → Lowering.field ⟨m, g, mode⟩ path l = .ok t →
      Lowering.field ⟨m, g', mode⟩ path l = .ok t := fun _ _ _ _ ht => ht
  exact Lowering.lower_mono hfield (fun _ _ _ _ => Lowering.call_add h) (fun _ _ => trivial) ht

/-- **Registration is conservative.** When a function was added to a registry, every call that was resolved is resolved
to the same function, and every tree and every text that compiled compiles to the very same predicate, so with the same
dependencies and the same answer on every record. -/
theorem Registry.add_conservative {g g' : Registry} {f : Signature} (h : g.add f = .ok g') :
    (∀ mode name args c, g.resolve? mode name args = some c → g'.resolve? mode name args = some c) ∧
    (∀ m mode e source p, Scope.compileTree ⟨m, g, mode⟩ e source = .ok p →
      Scope.compileTree ⟨m, g', mode⟩ e source = .ok p) ∧
    ∀ m mode source p, Scope.compile ⟨m, g, mode⟩ source = .ok p → Scope.compile ⟨m, g', mode⟩ source = .ok p := by
  refine ⟨fun _ _ _ _ hc => resolve?_add_of_some h hc, fun _ _ _ _ _ hp => Scope.compileTree_add h hp, ?_⟩
  intro m mode source p hp
  unfold Scope.compile at hp ⊢
  split at hp
  · cases hp
  · exact Scope.compileTree_add h hp

/-- A null argument goes to the function on texts as before, though one on numbers has the name now, but for case. -/
theorem Registry.add_conservative_null :
    let onTexts : Signature := ⟨"Pick", [.string], .bool, fun _ => .bool true⟩
    let onNumbers : Signature := ⟨"PICK", [.number], .bool, fun _ => .bool false⟩
    let m : Model := ⟨0, "Unit", []⟩
    let g : Registry := ⟨[onTexts]⟩
    let g' : Registry := ⟨[onTexts, onNumbers]⟩
    g.add onNumbers = .ok g' ∧ (g'.resolve? .ignored "pick" [some .number]).isSome ∧
      (g.resolve? .ignored "pick" [none] = some onTexts ∧ g'.resolve? .ignored "pick" [none] = some onTexts) ∧
      ∃ p, Scope.compile ⟨m, g, .ignored⟩ "pick(null)" = .ok p ∧ Scope.compile ⟨m, g', .ignored⟩ "pick(null)" = .ok p ∧
        p.holds ⟨m, []⟩ := by
  intro onTexts onNumbers m g g'
  have hadd : g.add onNumbers = .ok g' := Registry.add_eq_ok.mpr ⟨by decide, rfl⟩
  have hcall : g.resolve? .ignored "pick" [none] = some onTexts := by
    have hname : Text.Case.ignored.agree "Pick" "pick" := by decide +kernel
    simp [Registry.resolve?, Registry.overloads, Signature.accepts, g, onTexts, hname]
  have htokens : tokenize "pick(null)" = .ok [⟨.function, none, "pick", ⟨1, 1⟩⟩, ⟨.openParen, none, "(", ⟨1, 5⟩⟩,
      ⟨.null, some .null, "null", ⟨1, 6⟩⟩, ⟨.closeParen, none, ")", ⟨1, 10⟩⟩, ⟨.stop, none, "", ⟨1, 11⟩⟩] := rfl
  have hnull : Grammar.Conditional [⟨.null, some .null, "null", ⟨1, 6⟩⟩] (.literal .null ⟨1, 6⟩) 0 :=
    .binary (.operand (.operand (.operand (.operand (.operand (.operand (.unary (.operand (.literal .null)))))))))
  have hparse : parse "pick(null)" = .ok (.call "pick" [.literal .null ⟨1, 6⟩] ⟨1, 1⟩) :=
    parse_eq_ok.mpr ⟨_, htokens, 1, by decide, .binary (.operand (.operand (.operand (.operand (.operand (.operand
      (.unary (.operand (.callWith rfl rfl (.last hnull) rfl)))))))))⟩
  have hlower : Lowering.lower ⟨m, g, .ignored⟩ (.call "pick" [.literal .null ⟨1, 6⟩] ⟨1, 1⟩) =
      .ok (.part (.call onTexts [.const .null]) .bool) := by
    show Lowering.call _ _ [.part (.const .null) .null] _ = _
    unfold Lowering.call
    dsimp only [List.map, Typed.type, ValueType.coarse?]
    rw [hcall]
    rfl
  have hp : Scope.compile ⟨m, g, .ignored⟩ "pick(null)" = .ok ⟨"pick(null)", m, .call onTexts [.const .null]⟩ := by
    unfold Scope.compile Scope.compileTree
    rw [hparse]
    dsimp only
    rw [hlower]
    rfl
  obtain ⟨hresolve, -, hcompile⟩ := Registry.add_conservative hadd
  exact ⟨hadd, by decide, ⟨hcall, hresolve _ _ _ _ hcall⟩, _, hp, hcompile _ _ _ _ hp, rfl⟩

end RecordLogic
