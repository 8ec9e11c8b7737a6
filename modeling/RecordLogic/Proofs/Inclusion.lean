import RecordLogic.Proofs.Reads

/-!
# Scopes that know more

Lowering looks names up in two places, at paths and at calls. Where one scope finds whatever another finds there, it
lowers every expression that the other lowers, and to the same.
-/

namespace RecordLogic

namespace Lowering

variable {s s' : Scope} {known : List String → Prop}

mutual

/-- What is lowered in one scope is lowered to the same in the other, if that holds of its paths and of calls. -/
theorem lower_mono (hfield : ∀ path l t, known path → field s path l = .ok t → field s' path l = .ok t)
    (hcall : ∀ name args l t, call s name args l = .ok t → call s' name args l = .ok t) :
    ∀ {e : Expr} {t : Typed}, (∀ route ∈ e.routes, known route) → lower s e = .ok t → lower s' e = .ok t
  | .literal v l, t, _, ht => ht
  | .field path l, t, hw, ht => by
    rw [lower] at ht ⊢
    exact hfield path l t (hw path (.head _)) ht
  | .call name args l, t, hw, ht => by
    rw [lower] at ht ⊢
    obtain ⟨ts, hts, ht⟩ := bind_eq_ok.mp ht
    exact bind_eq_ok.mpr ⟨ts, lowerAll_mono hfield hcall hw hts, hcall name ts l t ht⟩
  | .unary op e l, t, hw, ht => by
    rw [lower] at ht ⊢
    obtain ⟨u, hu, ht⟩ := bind_eq_ok.mp ht
    exact bind_eq_ok.mpr ⟨u, lower_mono hfield hcall hw hu, ht⟩
  | .binary op a b l, t, hw, ht => by
    rw [lower] at ht ⊢
    rw [Expr.routes] at hw
    obtain ⟨u, hu, ht⟩ := bind_eq_ok.mp ht
    obtain ⟨v, hv, ht⟩ := bind_eq_ok.mp ht
    have hu' := lower_mono hfield hcall (fun route hr => hw route (List.mem_append_left _ hr)) hu
    have hv' := lower_mono hfield hcall (fun route hr => hw route (List.mem_append_right _ hr)) hv
    exact bind_eq_ok.mpr ⟨u, hu', bind_eq_ok.mpr ⟨v, hv', ht⟩⟩
  | .conditional c y n l, t, hw, ht => by
    rw [lower] at ht ⊢
    rw [Expr.routes] at hw
    obtain ⟨u, hu, ht⟩ := bind_eq_ok.mp ht
    have hwc : ∀ route ∈ c.routes, known route :=
      fun route hr => hw route (List.mem_append_left _ (List.mem_append_left _ hr))
    have hwy : ∀ route ∈ y.routes, known route :=
      fun route hr => hw route (List.mem_append_left _ (List.mem_append_right _ hr))
    have hwn : ∀ route ∈ n.routes, known route := fun route hr => hw route (List.mem_append_right _ hr)
    refine bind_eq_ok.mpr ⟨u, lower_mono hfield hcall hwc hu, ?_⟩
    split at ht
    · rename_i hcondition
      obtain ⟨v, hv, ht⟩ := bind_eq_ok.mp ht
      obtain ⟨w, hz, ht⟩ := bind_eq_ok.mp ht
      rw [if_pos hcondition]
      exact bind_eq_ok.mpr ⟨v, lower_mono hfield hcall hwy hv, bind_eq_ok.mpr ⟨w, lower_mono hfield hcall hwn hz, ht⟩⟩
    · cases ht

theorem lowerAll_mono (hfield : ∀ path l t, known path → field s path l = .ok t → field s' path l = .ok t)
    (hcall : ∀ name args l t, call s name args l = .ok t → call s' name args l = .ok t) :
    ∀ {es : List Expr} {ts : List Typed}, (∀ route ∈ Expr.routesOfAll es, known route) →
      lowerAll s es = .ok ts → lowerAll s' es = .ok ts
  | [], ts, _, hts => hts
  | e :: es, ts, hw, hts => by
    rw [lowerAll] at hts ⊢
    rw [Expr.routesOfAll] at hw
    obtain ⟨u, hu, hts⟩ := bind_eq_ok.mp hts
    obtain ⟨us, hus, hts⟩ := bind_eq_ok.mp hts
    have hu' := lower_mono hfield hcall (fun route hr => hw route (List.mem_append_left _ hr)) hu
    have hus' := lowerAll_mono hfield hcall (fun route hr => hw route (List.mem_append_right _ hr)) hus
    exact bind_eq_ok.mpr ⟨u, hu', bind_eq_ok.mpr ⟨us, hus', hts⟩⟩

end

end Lowering

theorem Scope.compileTree_mono {s s' : Scope} {e : Expr} {source : String} {p : Predicate} (hm : s.model = s'.model)
    (h : ∀ t, Lowering.lower s e = .ok t → Lowering.lower s' e = .ok t) (hp : s.compileTree e source = .ok p) :
    s'.compileTree e source = .ok p := by
  unfold Scope.compileTree at hp ⊢
  split at hp
  · cases hp
  rename_i t ht
  rw [h t ht, ← hm]
  exact hp

end RecordLogic
