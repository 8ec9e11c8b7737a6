import Mathlib.Data.List.TakeWhile
import RecordLogic.Proofs.CacheRun
import RecordLogic.Proofs.Targets

/-!
# Verdicts of rules

What a rule on a field reports is decided by the value of the field and by what the expression compiles to. What the
engine was used for before has no part in it.
-/

namespace RecordLogic

theorem Text.trim_eq_nil {cs : List Char} : trim cs = [] ↔ ∀ c ∈ cs, isBlank c := by
  unfold trim trimEnd trimStart
  rw [List.reverse_eq_nil_iff, List.dropWhile_eq_nil_iff]
  refine ⟨fun h => ?_, fun h c hc => ?_⟩
  · -- What is left after the leading blanks would begin with another character.
    rw [← List.dropWhile_eq_nil_iff]
    have hfirst := List.head?_dropWhile_not isBlank cs
    cases hrest : cs.dropWhile isBlank with
    | nil => rfl
    | cons c rest =>
      rw [hrest] at h hfirst
      have hc : isBlank c = true := h c (by simp)
      simp [hc] at hfirst
  · apply h
    exact (List.dropWhile_sublist isBlank).mem (List.mem_reverse.mp hc)

variable {g : Engine} {m : Model} {r : Record} {source field : String} {e : Error} {v : Violation}

theorem Engine.evaluate_eq (g : Engine) (m : Model) (source : String) (r : Record) :
    g.evaluate m source r =
      ((g.cache.get ⟨m, g.registry, g.mode⟩ source).1.map (·.predicate.holds r),
        { g with cache := (g.cache.get ⟨m, g.registry, g.mode⟩ source).2 }) := by
  unfold evaluate compile
  rcases g.cache.get ⟨m, g.registry, g.mode⟩ source with ⟨_ | _, _⟩ <;> rfl

/-! ## What a rule can come to -/

namespace RequiredIf

/-- Null, or a text of which trimming leaves nothing unless such texts are allowed. -/
def Absent (rule : RequiredIf) (w : Value) : Prop :=
  w = .null ∨ rule.allowEmpty = false ∧ ∃ s, w = .string s ∧ Text.trim s.toList = []

theorem lacks_iff {rule : RequiredIf} {w : Value} : rule.lacks w ↔ rule.Absent w := by
  unfold lacks Absent
  cases w <;> simp [Value.isNull, Value.asString?, Text.trim_eq_nil]

structure Broken (rule : RequiredIf) (s : Scope) (r : Record) (field : String) : Prop where
  target : rule.checkTarget r.model field = .ok ()
  absent : ∃ w, r.read? field = some w ∧ rule.Absent w
  holds : ∃ p, s.compile rule.expression = .ok p ∧ p.holds r = true

theorem target_error {rule : RequiredIf} (h : rule.checkTarget m field = .error e) : ∀ d, e ≠ .located d := by
  rintro d rfl
  obtain ⟨_, -, hcheck⟩ | ⟨_, -, -, hcheck⟩ | ⟨_, -, -, hcheck⟩ := rule.checkTarget_cases m field <;>
    simp [hcheck] at h

theorem read_of_target {rule : RequiredIf} (h : rule.checkTarget r.model field = .ok ()) :
    ∃ w, r.read? field = some w := by
  obtain ⟨_, -, hcheck⟩ | ⟨_, -, -, hcheck⟩ | ⟨f, hf, -, -⟩ := rule.checkTarget_cases r.model field
  · simp [hcheck] at h
  · simp [hcheck] at h
  · exact Record.exists_read? hf

theorem validate_cases (rule : RequiredIf) (g : Engine) (r : Record) (field : String) :
    (∃ e, rule.checkTarget r.model field = .error e ∧ rule.validate g r field = (.error e, g)) ∨
    rule.checkTarget r.model field = .ok () ∧ ∃ w, r.read? field = some w ∧
      (¬ rule.Absent w ∧ rule.validate g r field = (.ok none, g) ∨
        rule.Absent w ∧ rule.validate g r field =
          ((g.evaluate r.model rule.expression r).1.map fun holds =>
            if holds then some (rule.violation r.model field) else none, (g.evaluate r.model rule.expression r).2)) := by
  unfold validate Record.valueAt
  cases hcheck : rule.checkTarget r.model field with
  | error e => exact .inl ⟨e, rfl, rfl⟩
  | ok =>
    obtain ⟨w, hw⟩ := read_of_target hcheck
    refine .inr ⟨rfl, w, hw, ?_⟩
    by_cases hlacks : rule.lacks w
    · exact .inr ⟨lacks_iff.mp hlacks, by simp [hw, hlacks]⟩
    · exact .inl ⟨fun h => hlacks (lacks_iff.mpr h), by simp [hw, hlacks]⟩

theorem validate_of_refused {rule : RequiredIf} (h : rule.checkTarget r.model field = .error e) :
    rule.validate g r field = (.error e, g) := by
  obtain ⟨d, hcheck, hvalidate⟩ | ⟨hcheck, -⟩ := rule.validate_cases g r field
  · rw [hcheck] at h
    cases h
    exact hvalidate
  · simp [hcheck] at h

theorem validate_of_present {rule : RequiredIf} {w : Value} (h : rule.checkTarget r.model field = .ok ())
    (hw : r.read? field = some w) (hpresent : ¬ rule.Absent w) : rule.validate g r field = (.ok none, g) := by
  obtain ⟨d, hcheck, -⟩ | ⟨-, x, hx, ⟨-, hvalidate⟩ | ⟨habsent, -⟩⟩ := rule.validate_cases g r field
  · simp [hcheck] at h
  · exact hvalidate
  · rw [hw] at hx
    cases hx
    exact absurd habsent hpresent

end RequiredIf

namespace AssertThat

structure Broken (rule : AssertThat) (s : Scope) (r : Record) (field : String) : Prop where
  present : ∃ w, r.read? field = some w ∧ w ≠ .null
  fails : ∃ p, s.compile rule.expression = .ok p ∧ p.holds r = false

theorem validate_cases (rule : AssertThat) (g : Engine) (r : Record) (field : String) :
    (r.read? field = none ∧ rule.validate g r field = (.error (.rejected ⟨field, .noField r.model⟩), g)) ∨
    (r.read? field = some .null ∧ rule.validate g r field = (.ok none, g)) ∨
    ∃ w, r.read? field = some w ∧ w ≠ .null ∧ rule.validate g r field =
      ((g.evaluate r.model rule.expression r).1.map fun holds =>
        if holds then none else some (rule.violation r.model field), (g.evaluate r.model rule.expression r).2) := by
  unfold validate Record.valueAt
  cases hread : r.read? field with
  | none => exact .inl ⟨rfl, rfl⟩
  | some w =>
    by_cases hnull : w = .null
    · subst hnull
      exact .inr (.inl ⟨rfl, rfl⟩)
    · refine .inr (.inr ⟨w, rfl, hnull, ?_⟩)
      cases w <;> first | rfl | exact absurd rfl hnull

end AssertThat

/-! ## Histories of an engine -/

namespace Engine

inductive Use where
  | options (mode : Text.Case)
  | cached (u : Cache.Use)
  | compile (m : Model) (source : String)
  | evaluate (m : Model) (source : String) (r : Record)
  | required (rule : RequiredIf) (r : Record) (field : String)
  | asserted (rule : AssertThat) (r : Record) (field : String)

def Use.Within (Has : Model → Prop) : Use → Prop
  | .options _ => True
  | .cached u => u.Within Has
  | .compile m _ | .evaluate m _ _ => Has m
  | .required _ r _ | .asserted _ r _ => Has r.model

def use (g : Engine) : Use → Engine
  | .options mode => { g with mode }
  | .cached u => { g with cache := g.cache.use g.registry u }
  | .compile m source => (g.compile m source).2
  | .evaluate m source r => (g.evaluate m source r).2
  | .required rule r field => (rule.validate g r field).2
  | .asserted rule r field => (rule.validate g r field).2

def after (registry : Registry) (mode : Text.Case) (uses : List Use) : Engine := uses.foldl use (start registry mode)

variable {C : Catalogue} {registry : Registry} {mode : Text.Case} {uses : List Use} {u : Use}

theorem use_cases {Has : Model → Prop} (g : Engine) (hu : u.Within Has) : (∃ mode, g.use u = { g with mode }) ∨
    ∃ w, w.Within Has ∧ g.use u = { g with cache := g.cache.use g.registry w } := by
  have hevaluate {m : Model} (hm : Has m) (source : String) (r : Record) :
      ∃ w, w.Within Has ∧ (g.evaluate m source r).2 = { g with cache := g.cache.use g.registry w } := by
    refine ⟨.get m source g.mode, hm, ?_⟩
    rw [evaluate_eq]
    rfl
  cases u with
  | options mode => exact .inl ⟨mode, rfl⟩
  | cached w => exact .inr ⟨w, hu, rfl⟩
  | compile m source => exact .inr ⟨.get m source g.mode, hu, rfl⟩
  | evaluate m source r => exact .inr (hevaluate hu source r)
  | required rule r field =>
    obtain ⟨e, -, h⟩ | ⟨-, w, -, ⟨-, h⟩ | ⟨-, h⟩⟩ := rule.validate_cases g r field
    · exact .inl ⟨g.mode, by rw [use, h]⟩
    · exact .inl ⟨g.mode, by rw [use, h]⟩
    · rw [use, h]
      exact .inr (hevaluate hu rule.expression r)
  | asserted rule r field =>
    obtain ⟨-, h⟩ | ⟨-, h⟩ | ⟨w, -, -, h⟩ := rule.validate_cases g r field
    · exact .inl ⟨g.mode, by rw [use, h]⟩
    · exact .inl ⟨g.mode, by rw [use, h]⟩
    · rw [use, h]
      exact .inr (hevaluate hu rule.expression r)

structure Sound (C : Catalogue) (registry : Registry) (g : Engine) : Prop where
  registered : g.registry = registry
  compiled : g.cache.Compiled registry C.Has

theorem Sound.use (hg : g.Sound C registry) (hu : u.Within C.Has) : (g.use u).Sound C registry := by
  obtain ⟨rfl, hcompiled⟩ := hg
  obtain ⟨mode, h⟩ | ⟨w, hw, h⟩ := g.use_cases hu
  · rw [h]
    exact ⟨rfl, hcompiled⟩
  · rw [h]
    exact ⟨rfl, Cache.compiled_use hcompiled hw⟩

theorem sound_foldl (hg : g.Sound C registry) (hu : ∀ u ∈ uses, u.Within C.Has) :
    (uses.foldl use g).Sound C registry := by
  induction uses generalizing g with
  | nil => exact hg
  | cons u uses ih =>
    have hstep := hg.use (hu u (.head _))
    exact ih hstep fun w hw => hu w (.tail _ hw)

theorem sound_after (hu : ∀ u ∈ uses, u.Within C.Has) : (after registry mode uses).Sound C registry := by
  refine sound_foldl ⟨rfl, ?_⟩ hu
  intro e he
  cases he

theorem Sound.evaluate (hg : g.Sound C registry) (hm : C.Has m) (source : String) (r : Record) :
    (g.evaluate m source r).1 = (Scope.compile ⟨m, registry, g.mode⟩ source).map (·.holds r) := by
  obtain ⟨rfl, hcompiled⟩ := hg
  have hget := Cache.get_eq_compile (fun _ _ => C.unique) hcompiled hm source g.mode
  rw [evaluate_eq, ← hget]
  cases (g.cache.get ⟨m, g.registry, g.mode⟩ source).1 <;> rfl

theorem Sound.map_evaluate_eq_ok {α : Type} {f : Bool → α} {a : α} (hg : g.Sound C registry) (hm : C.Has m) :
    (g.evaluate m source r).1.map f = .ok a ↔
      ∃ p, Scope.compile ⟨m, registry, g.mode⟩ source = .ok p ∧ f (p.holds r) = a := by
  rw [map_eq_ok, hg.evaluate hm]
  constructor
  · rintro ⟨_, hmap, hf⟩
    obtain ⟨p, hp, rfl⟩ := map_eq_ok.mp hmap
    exact ⟨p, hp, hf⟩
  · rintro ⟨p, hp, hf⟩
    exact ⟨_, map_eq_ok.mpr ⟨p, hp, rfl⟩, hf⟩

theorem Sound.map_evaluate_eq_error {α : Type} {f : Bool → α} (hg : g.Sound C registry) (hm : C.Has m) :
    (g.evaluate m source r).1.map f = .error e ↔ Scope.compile ⟨m, registry, g.mode⟩ source = .error e := by
  rw [map_eq_error, hg.evaluate hm, map_eq_error]

end Engine

/-! ## Verdicts -/

section
variable {C : Catalogue} {registry : Registry}

namespace RequiredIf

variable {rule : RequiredIf}

theorem validate_eq_some (hg : g.Sound C registry) (hr : C.Has r.model) :
    (rule.validate g r field).1 = .ok (some v) ↔
      v = rule.violation r.model field ∧ rule.Broken ⟨r.model, registry, g.mode⟩ r field := by
  obtain ⟨e, hcheck, h⟩ | ⟨hcheck, w, hw, ⟨hpresent, h⟩ | ⟨habsent, h⟩⟩ := rule.validate_cases g r field
  · rw [h]
    refine ⟨fun h => (nomatch h), fun ⟨_, hbroken⟩ => ?_⟩
    simp [hbroken.target] at hcheck
  · rw [h]
    refine ⟨fun h => (nomatch h), fun ⟨_, hbroken⟩ => ?_⟩
    obtain ⟨x, hx, habsent⟩ := hbroken.absent
    rw [hw] at hx
    cases hx
    exact absurd habsent hpresent
  · rw [h, hg.map_evaluate_eq_ok hr]
    constructor
    · rintro ⟨p, hp, hsome⟩
      obtain ⟨hholds, rfl⟩ : p.holds r = true ∧ rule.violation r.model field = v := by simpa using hsome
      exact ⟨rfl, hcheck, ⟨w, hw, habsent⟩, p, hp, hholds⟩
    · rintro ⟨rfl, -, -, p, hp, hholds⟩
      exact ⟨p, hp, by simp [hholds]⟩

theorem validate_eq_error (hg : g.Sound C registry) (hr : C.Has r.model) :
    (rule.validate g r field).1 = .error e ↔ rule.checkTarget r.model field = .error e ∨
      rule.checkTarget r.model field = .ok () ∧ (∃ w, r.read? field = some w ∧ rule.Absent w) ∧
        Scope.compile ⟨r.model, registry, g.mode⟩ rule.expression = .error e := by
  obtain ⟨d, hcheck, h⟩ | ⟨hcheck, w, hw, ⟨hpresent, h⟩ | ⟨habsent, h⟩⟩ := rule.validate_cases g r field
  · simp [h, hcheck]
  · simp [h, hcheck, hw, hpresent]
  · rw [h, hg.map_evaluate_eq_error hr]
    simp [hcheck, hw, habsent]

end RequiredIf

namespace AssertThat

variable {rule : AssertThat}

theorem validate_eq_some (hg : g.Sound C registry) (hr : C.Has r.model) :
    (rule.validate g r field).1 = .ok (some v) ↔
      v = rule.violation r.model field ∧ rule.Broken ⟨r.model, registry, g.mode⟩ r field := by
  obtain ⟨hread, h⟩ | ⟨hread, h⟩ | ⟨w, hw, hnull, h⟩ := rule.validate_cases g r field
  · rw [h]
    refine ⟨fun h => (nomatch h), fun ⟨_, hbroken⟩ => ?_⟩
    obtain ⟨x, hx, -⟩ := hbroken.present
    simp [hread] at hx
  · rw [h]
    refine ⟨fun h => (nomatch h), fun ⟨_, hbroken⟩ => ?_⟩
    obtain ⟨x, hx, hpresent⟩ := hbroken.present
    rw [hread] at hx
    cases hx
    exact absurd rfl hpresent
  · rw [h, hg.map_evaluate_eq_ok hr]
    constructor
    · rintro ⟨p, hp, hsome⟩
      obtain ⟨hholds, rfl⟩ : p.holds r = false ∧ rule.violation r.model field = v := by simpa using hsome
      exact ⟨rfl, ⟨w, hw, hnull⟩, p, hp, hholds⟩
    · rintro ⟨rfl, -, p, hp, hholds⟩
      exact ⟨p, hp, by simp [hholds]⟩

theorem validate_eq_error (hg : g.Sound C registry) (hr : C.Has r.model) :
    (rule.validate g r field).1 = .error e ↔
      r.read? field = none ∧ e = .rejected ⟨field, .noField r.model⟩ ∨
      (∃ w, r.read? field = some w ∧ w ≠ .null) ∧
        Scope.compile ⟨r.model, registry, g.mode⟩ rule.expression = .error e := by
  obtain ⟨hread, h⟩ | ⟨hread, h⟩ | ⟨w, hw, hnull, h⟩ := rule.validate_cases g r field
  · simp [h, hread, eq_comm]
  · simp [h, hread]
  · rw [h, hg.map_evaluate_eq_error hr]
    simp [hw, hnull]

end AssertThat

theorem RequiredIf.Broken.not_asserted {required : RequiredIf} {asserted : AssertThat} {s : Scope}
    (h : required.Broken s r field) (hsame : asserted.expression = required.expression) :
    ¬ asserted.Broken s r field := by
  rintro ⟨-, q, hq, hfails⟩
  obtain ⟨p, hp, hholds⟩ := h.holds
  rw [hsame, hp] at hq
  cases hq
  simp [hholds] at hfails

end

/-- **Verdicts.** After any history of an engine, a rule that requires a field reports it just if the field may be
absent, is absent and the expression compiles and holds; the rule fails as the check of the field does, or else, for
an absent field only, as the expression does. If the check fails or the field has a value, the engine stays as it is,
and what passes the check can be read. A rule that asserts of a field reports it just if the field has a value and
the expression compiles and does not hold. So the two never report one field of one record for one expression, in
whichever order and after whatever else they are asked. -/
theorem rule_verdicts {C : Catalogue} {registry : Registry} {mode : Text.Case} {uses : List Engine.Use} {r : Record}
    (hu : ∀ u ∈ uses, u.Within C.Has) (hr : C.Has r.model) (expression field : String) (allowEmpty : Bool) :
    let g := Engine.after registry mode uses
    let s : Scope := ⟨r.model, registry, g.mode⟩
    let required : RequiredIf := ⟨expression, allowEmpty⟩
    let asserted : AssertThat := ⟨expression⟩
    (∀ v, (required.validate g r field).1 = .ok (some v) ↔
      v = required.violation r.model field ∧ required.Broken s r field) ∧
    (∀ e, (required.validate g r field).1 = .error e ↔ required.checkTarget r.model field = .error e ∨
      required.checkTarget r.model field = .ok () ∧ (∃ w, r.read? field = some w ∧ required.Absent w) ∧
        s.compile expression = .error e) ∧
    (∀ e, required.checkTarget r.model field = .error e →
      required.validate g r field = (.error e, g) ∧ ∀ d, e ≠ .located d) ∧
    (required.checkTarget r.model field = .ok () → ∃ w, r.read? field = some w ∧
      (¬ required.Absent w → required.validate g r field = (.ok none, g))) ∧
    (∀ v, (asserted.validate g r field).1 = .ok (some v) ↔
      v = asserted.violation r.model field ∧ asserted.Broken s r field) ∧
    (∀ e, (asserted.validate g r field).1 = .error e ↔
      r.read? field = none ∧ e = .rejected ⟨field, .noField r.model⟩ ∨
        (∃ w, r.read? field = some w ∧ w ≠ .null) ∧ s.compile expression = .error e) ∧
    ∀ others, (∀ u ∈ others, u.Within C.Has) → (Engine.after registry mode others).mode = g.mode → ∀ v w,
      (required.validate g r field).1 = .ok (some v) →
        (asserted.validate (Engine.after registry mode others) r field).1 ≠ .ok (some w) := by
  intro g s required asserted
  have hg : g.Sound C registry := Engine.sound_after hu
  refine ⟨fun v => RequiredIf.validate_eq_some hg hr, fun e => RequiredIf.validate_eq_error hg hr, fun e h => ?_,
    fun h => ?_, fun v => AssertThat.validate_eq_some hg hr, fun e => AssertThat.validate_eq_error hg hr, ?_⟩
  · exact ⟨RequiredIf.validate_of_refused h, RequiredIf.target_error h⟩
  · obtain ⟨w, hw⟩ := RequiredIf.read_of_target h
    exact ⟨w, hw, RequiredIf.validate_of_present h hw⟩
  · intro others hothers hmode v w hrequired hasserted
    have hother : (Engine.after registry mode others).Sound C registry := Engine.sound_after hothers
    obtain ⟨-, hbroken⟩ := (RequiredIf.validate_eq_some hg hr).mp hrequired
    obtain ⟨-, hassertion⟩ := (AssertThat.validate_eq_some hother hr).mp hasserted
    rw [hmode] at hassertion
    exact hbroken.not_asserted rfl hassertion

/-- A person who is ok, and without a name. -/
theorem rule_verdicts_name :
    let m : Model := ⟨0, "Person", [⟨"Ok", .bool, none⟩, ⟨"Name", .string, none⟩]⟩
    let r : Record := ⟨m, [.bool true, .null]⟩
    let g := Engine.after .empty .sensitive [.evaluate m "Ok" r, .cached .clear]
    let required : RequiredIf := ⟨"Ok", false⟩
    let asserted : AssertThat := ⟨"Ok"⟩
    Record.ofValues m [.bool true, .null] = .ok r ∧
      (required.validate g r "Name").1 = .ok (some (required.violation m "Name")) ∧
      ∀ w, (asserted.validate g r "Name").1 ≠ .ok (some w) := by
  intro m r g required asserted
  let C : Catalogue :=
    { Has := (· = m)
      unique := by
        rintro k n rfl rfl -
        rfl
      nested := by
        rintro k rfl f hf n hn
        rcases List.mem_cons.mp hf with rfl | hf
        · cases hn
        · obtain rfl := List.mem_singleton.mp hf
          cases hn }
  have hu : ∀ u ∈ ([.evaluate m "Ok" r, .cached .clear] : List Engine.Use), u.Within C.Has := by
    simp [Engine.Use.Within, Cache.Use.Within, C]
  have htokens : tokenize "Ok" = .ok [⟨.name, none, "Ok", ⟨1, 1⟩⟩, ⟨.stop, none, "", ⟨1, 3⟩⟩] := rfl
  have hparse := parse_name htokens rfl rfl
  have hmode : g.mode = .sensitive := by
    simp [g, Engine.after, Engine.start, Engine.use, Engine.evaluate_eq]
  have hp : Scope.compile ⟨m, .empty, g.mode⟩ "Ok" = .ok ⟨"Ok", m, .field "Ok" [.field 0]⟩ := by
    unfold Scope.compile
    rw [hmode, hparse]
    rfl
  obtain ⟨hreports, -, -, -, -, -, hnever⟩ := @rule_verdicts C .empty .sensitive _ r hu rfl "Ok" "Name" false
  have hrequired := (hreports _).mpr ⟨rfl, rfl, ⟨.null, rfl, .inl rfl⟩, _, hp, rfl⟩
  exact ⟨rfl, hrequired, fun w => hnever _ hu rfl _ w hrequired⟩

end RecordLogic
