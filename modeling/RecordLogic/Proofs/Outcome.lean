import Mathlib.Data.List.Basic

/-!
# Outcomes

What it takes for steps that may fail to succeed one after another, what holds of their failures and results, and two
sequences of such steps side by side.
-/

namespace RecordLogic

variable {ε α β : Type}

theorem bind_eq_ok {x : Except ε α} {f : α → Except ε β} {b : β} :
    x >>= f = .ok b ↔ ∃ a, x = .ok a ∧ f a = .ok b := by
  cases x with
  | error e => exact ⟨fun h => (nomatch h), fun ⟨_, h, _⟩ => (nomatch h)⟩
  | ok a => exact ⟨fun h => ⟨a, rfl, h⟩, fun ⟨_, ha, h⟩ => by cases ha; exact h⟩

theorem bind_eq_error {x : Except ε α} {f : α → Except ε β} {e : ε} :
    x >>= f = .error e ↔ x = .error e ∨ ∃ a, x = .ok a ∧ f a = .error e := by
  cases x with
  | error d =>
    refine ⟨fun h => ?_, fun h => ?_⟩
    · cases h
      exact .inl rfl
    · obtain h | ⟨_, h, _⟩ := h
      · cases h
        rfl
      · cases h
  | ok a =>
    refine ⟨fun h => .inr ⟨a, rfl, h⟩, fun h => ?_⟩
    obtain h | ⟨_, ha, h⟩ := h
    · cases h
    · cases ha
      exact h

theorem map_eq_ok {x : Except ε α} {f : α → β} {b : β} : x.map f = .ok b ↔ ∃ a, x = .ok a ∧ f a = b := by
  cases x with
  | error e => exact ⟨fun h => (nomatch h), fun ⟨_, h, _⟩ => (nomatch h)⟩
  | ok a => exact ⟨fun h => ⟨a, rfl, by cases h; rfl⟩, fun ⟨_, ha, h⟩ => by cases ha; rw [← h]; rfl⟩

theorem map_eq_error {x : Except ε α} {f : α → β} {e : ε} : x.map f = .error e ↔ x = .error e := by
  cases x <;> simp [Except.map]

theorem mem_of_mapM_eq_ok {f : α → Except ε β} {l : List α} {bs : List β} (h : l.mapM f = .ok bs) {b : β}
    (hb : b ∈ bs) : ∃ a ∈ l, f a = .ok b := by
  induction l generalizing bs with
  | nil =>
    cases h
    cases hb
  | cons a l ih =>
    rw [List.mapM_cons] at h
    obtain ⟨c, hc, h⟩ := bind_eq_ok.mp h
    obtain ⟨cs, hcs, h⟩ := bind_eq_ok.mp h
    cases h
    rcases List.mem_cons.mp hb with rfl | hb
    · exact ⟨a, .head _, hc⟩
    · obtain ⟨x, hx, hf⟩ := ih hcs hb
      exact ⟨x, .tail _ hx, hf⟩

/-- Where a step leaves its own results as they are, so does the step on each element of a list. -/
theorem mapM_of_mapM_eq_ok {f : α → Except ε α} (hf : ∀ a b, f a = .ok b → f b = .ok b) {l bs : List α}
    (h : l.mapM f = .ok bs) : bs.mapM f = .ok bs := by
  induction l generalizing bs with
  | nil =>
    cases h
    rfl
  | cons a l ih =>
    rw [List.mapM_cons] at h
    obtain ⟨c, hc, h⟩ := bind_eq_ok.mp h
    obtain ⟨cs, hcs, h⟩ := bind_eq_ok.mp h
    cases h
    rw [List.mapM_cons, hf a c hc, ih hcs]
    rfl

inductive Yields (P : ε → Prop) (Q : α → Prop) : Except ε α → Prop where
  | error {e : ε} (h : P e) : Yields P Q (.error e)
  | ok {a : α} (h : Q a) : Yields P Q (.ok a)

namespace Yields

variable {P : ε → Prop} {Q : α → Prop}

theorem bind {R : β → Prop} {x : Except ε α} {f : α → Except ε β} (h : Yields P Q x)
    (hf : ∀ a, Q a → Yields P R (f a)) : Yields P R (x >>= f) := by
  cases h with
  | error h => exact .error h
  | ok h => exact hf _ h

theorem of_error {e : ε} (h : Yields P Q (.error e)) : P e := by
  cases h with
  | error h => exact h

theorem of_ok {a : α} (h : Yields P Q (.ok a)) : Q a := by
  cases h with
  | ok h => exact h

end Yields

inductive Parallel (R : α → β → Prop) : Except ε α → Except ε β → Prop where
  | error (d e : ε) : Parallel R (.error d) (.error e)
  | ok {a : α} {b : β} (h : R a b) : Parallel R (.ok a) (.ok b)

namespace Parallel

variable {γ δ : Type} {R : α → β → Prop} {x : Except ε α} {y : Except ε β}

theorem refl {R : α → α → Prop} (h : ∀ a, R a a) (x : Except ε α) : Parallel R x x := by
  cases x with
  | error e => exact .error e e
  | ok a => exact .ok (h a)

theorem mono {R' : α → β → Prop} (h : Parallel R x y) (hR : ∀ a b, R a b → R' a b) : Parallel R' x y := by
  cases h with
  | error d e => exact .error d e
  | ok h => exact .ok (hR _ _ h)

theorem bind {Q : γ → δ → Prop} {f : α → Except ε γ} {g : β → Except ε δ} (h : Parallel R x y)
    (hf : ∀ a b, R a b → Parallel Q (f a) (g b)) : Parallel Q (x >>= f) (y >>= g) := by
  cases h with
  | error d e => exact .error d e
  | ok h => exact hf _ _ h

/-- One step and then two sequences side by side. -/
theorem bind_left {Q : γ → δ → Prop} {f : α → Except ε γ} {g : α → Except ε δ}
    (hf : ∀ a, x = .ok a → Parallel Q (f a) (g a)) : Parallel Q (x >>= f) (x >>= g) := by
  cases x with
  | error e => exact .error e e
  | ok a => exact hf a rfl

theorem exists_ok_iff (h : Parallel R x y) : (∃ a, x = .ok a) ↔ ∃ b, y = .ok b := by
  cases h with
  | error d e => exact ⟨fun ⟨_, h⟩ => (nomatch h), fun ⟨_, h⟩ => (nomatch h)⟩
  | ok h => exact ⟨fun _ => ⟨_, rfl⟩, fun _ => ⟨_, rfl⟩⟩

theorem exists_right (h : Parallel R x y) {a : α} (hx : x = .ok a) : ∃ b, y = .ok b ∧ R a b := by
  cases h with
  | error d e => cases hx
  | ok h =>
    cases hx
    exact ⟨_, rfl, h⟩

theorem rel (h : Parallel R x y) {a : α} {b : β} (hx : x = .ok a) (hy : y = .ok b) : R a b := by
  cases h with
  | error d e => cases hx
  | ok h =>
    cases hx
    cases hy
    exact h

end Parallel

end RecordLogic
