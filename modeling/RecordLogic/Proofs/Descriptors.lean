import RecordLogic.Proofs.Noninterference
import RecordLogic.Proofs.PathReads

/-!
# Fields at the ends of paths

Looking up the field at the end of a path and resolving the path walk the same models, but only a resolved path may
go on to the length of a text or an array. Until then both lead to the same fields, and both stop at the same segment.
-/

namespace RecordLogic

open Text (segments)

namespace Model

def fieldBy (m : Model) : List Step → Option Field
  | [.field i] => m.fields[i]?
  | .field i :: rest => do
    let f ← m.fields[i]?
    match f.type.underlying with
    | .model inner => inner.fieldBy rest
    | _ => none
  | _ => none

def Leads (t : ValueType) (path : List String) (steps : List Step) : Prop :=
  ∃ q, walk .sensitive t path = .ok q ∧ q.steps = steps

/-- What the two walks of a path give, the first one with `n` segments before it: the same field, or the same segment
that leads nowhere, or a length, at which the first walk stops and the second one goes on or ends. -/
inductive Beside (m : Model) (path : List String) (n : Nat) :
    Except (Nat × String) Field → Except (Nat × String) Resolved → Prop
  | field {f : Field} {steps : List Step} : .length ∉ steps → m.fieldBy steps = some f →
      Beside m path n (.ok f) (.ok ⟨f.type, steps⟩)
  | unknown {segment : String} (steps : List Step) : .length ∉ steps → Leads (.model m) (path.take steps.length) steps →
      Beside m path n (.error (n + steps.length, segment)) (.error (steps.length, segment))
  | length {t : ValueType} (steps : List Step) :
      Beside m path n (.error (n + steps.length, lengthMember)) (.ok ⟨t, steps ++ [.length]⟩)
  | behind {segment : String} (steps : List Step) :
      Leads (.model m) (path.take (steps.length + 1)) (steps ++ [.length]) →
      Beside m path n (.error (n + steps.length, lengthMember)) (.error (steps.length + 1, segment))

variable {m inner : Model} {t next : ValueType} {path rest : List String} {segment : String} {step : Step}
  {steps : List Step} {f : Field} {i n : Nat}

/-! ## One segment -/

theorem advance?_model {mode : Text.Case} (ht : t.underlying = .model m) :
    advance? mode t segment = (m.field? mode segment).map fun (i, f) => (.field i, f.type) := by
  unfold advance?
  rw [ht]

theorem advance?_field {mode : Text.Case} (h : m.field? mode segment = some (i, f)) :
    advance? mode (.model m) segment = some (.field i, f.type) := by
  rw [advance?_model rfl, h]
  rfl

theorem walk_model {mode : Text.Case} (ht : t.underlying = .model m) (hne : path ≠ []) :
    walk mode t path = walk mode (.model m) path := by
  cases path with
  | nil => exact absurd rfl hne
  | cons segment rest => rw [walk, walk, advance?_model ht, advance?_model rfl]

/-- Where there is no model, a segment can only be that of the length. -/
theorem advance?_length (ht : ∀ m, t.underlying ≠ .model m) (h : advance? .sensitive t segment = some (step, next)) :
    step = .length ∧ next = .number .i32 ∧ segment = lengthMember := by
  obtain ⟨m, -, -, hm, -⟩ | ⟨-, rfl, rfl⟩ := advance?_cases h
  · exact absurd hm (ht m)
  refine ⟨rfl, rfl, ?_⟩
  unfold advance? at h
  split at h
  · rename_i m hm
    exact absurd hm (ht m)
  · split at h
    · rename_i hagree
      simpa [Text.Case.agree] using hagree
    · cases h
  · split at h
    · rename_i hagree
      simpa [Text.Case.agree] using hagree
    · cases h
  · cases h

theorem Leads.nil (t : ValueType) : Leads t [] [] := ⟨⟨t, []⟩, rfl, rfl⟩

theorem Leads.cons (h : advance? .sensitive t segment = some (step, next)) (hrest : Leads next rest steps) :
    Leads t (segment :: rest) (step :: steps) := by
  obtain ⟨q, hq, rfl⟩ := hrest
  refine ⟨⟨q.type, step :: q.steps⟩, ?_, rfl⟩
  rw [walk, h]
  dsimp only
  rw [hq]

theorem Leads.of_model (ht : t.underlying = .model m) (h : Leads (.model m) path steps) : Leads t path steps := by
  cases path with
  | nil =>
    obtain ⟨q, hq, rfl⟩ := h
    cases hq
    exact .nil t
  | cons segment rest =>
    unfold Leads at h ⊢
    rwa [walk_model ht (List.cons_ne_nil _ _)]

theorem fieldBy_cons (hget : m.fields[i]? = some f) (hinner : f.type.underlying = .model inner) (hne : steps ≠ []) :
    m.fieldBy (.field i :: steps) = inner.fieldBy steps := by
  cases steps with
  | nil => exact absurd rfl hne
  | cons step steps =>
    rw [fieldBy, hget]
    · simp [hinner]
    · exact List.cons_ne_nil step steps

/-! ## The walks side by side -/

def after (step : Step) : Except (Nat × String) Resolved → Except (Nat × String) Resolved
  | .error (depth, segment) => .error (depth + 1, segment)
  | .ok q => .ok ⟨q.type, step :: q.steps⟩

theorem walk_eq_after {mode : Text.Case} (h : advance? mode t segment = some (step, next)) :
    walk mode t (segment :: rest) = after step (walk mode next rest) := by
  rw [walk, h]
  dsimp only
  cases walk mode next rest <;> rfl

theorem Beside.cons {x : Except (Nat × String) Field} {y : Except (Nat × String) Resolved}
    (hfield : m.field? .sensitive segment = some (i, f)) (hinner : f.type.underlying = .model inner)
    (h : Beside inner rest (n + 1) x y) : Beside m (segment :: rest) n x (after (.field i) y) := by
  have hleads : ∀ {path steps}, Leads (.model inner) path steps →
      Leads (.model m) (segment :: path) (.field i :: steps) :=
    fun h => .cons (advance?_field hfield) (h.of_model hinner)
  cases h with
  | @field g steps hlength hg =>
    have hne : steps ≠ [] := by
      intro hnil
      rw [hnil] at hg
      cases hg
    refine .field (by simpa using hlength) ?_
    rw [fieldBy_cons (field?_get hfield) hinner hne, hg]
  | unknown steps hlength hsteps =>
    rw [Nat.add_assoc, Nat.add_comm 1]
    exact .unknown (.field i :: steps) (by simpa using hlength) (hleads hsteps)
  | length steps =>
    rw [Nat.add_assoc, Nat.add_comm 1]
    exact .length (.field i :: steps)
  | behind steps hsteps =>
    rw [Nat.add_assoc, Nat.add_comm 1]
    exact .behind (.field i :: steps) (hleads hsteps)

/-- A field that is no record: the look-up stops at the segment behind it, and the walk goes over a length at most. -/
theorem Beside.leaf (hfield : m.field? .sensitive segment = some (i, f))
    (hleaf : ∀ inner, f.type.underlying ≠ .model inner) (second : String) (rest : List String) :
    Beside m (segment :: second :: rest) n (.error (n + 1, second))
      (after (.field i) (walk .sensitive f.type (second :: rest))) := by
  cases hsecond : advance? .sensitive f.type second with
  | none =>
    rw [walk, hsecond]
    exact .unknown [.field i] (by simp) (.cons (advance?_field hfield) (.nil f.type))
  | some reached =>
    obtain ⟨step, next⟩ := reached
    obtain ⟨rfl, rfl, rfl⟩ := advance?_length hleaf hsecond
    rw [walk_eq_after hsecond]
    cases rest with
    | nil => exact .length [.field i]
    | cons third rest => exact .behind [.field i] (.cons (advance?_field hfield) (.cons hsecond (.nil _)))

theorem fieldAt_beside (m : Model) (n : Nat) (hne : path ≠ []) :
    Beside m path n (m.fieldAt n path) (walk .sensitive (.model m) path) := by
  induction path generalizing m n with
  | nil => exact absurd rfl hne
  | cons segment rest ih =>
    cases hfield : m.field? .sensitive segment with
    | none =>
      rw [fieldAt, hfield, walk, advance?_model rfl, hfield]
      exact .unknown [] List.not_mem_nil (.nil _)
    | some found =>
      obtain ⟨i, f⟩ := found
      rw [walk_eq_after (advance?_field hfield), fieldAt, hfield]
      cases rest with
      | nil => exact .field (by simp) (field?_get hfield)
      | cons second rest =>
        by_cases hinner : ∃ inner, f.type.underlying = .model inner
        · obtain ⟨inner, hinner⟩ := hinner
          have hrest := ih inner (n + 1) (List.cons_ne_nil _ _)
          rw [walk_model hinner (List.cons_ne_nil _ _)]
          simpa [hinner] using hrest.cons hfield hinner
        · have hleaf := not_exists.mp hinner
          have hstop := Beside.leaf (n := n) hfield hleaf second rest
          simpa [hleaf] using hstop

/-! ## Looking up and resolving -/

theorem segments_ne_nil (path : String) : segments path ≠ [] := by
  simp [segments, Text.split, Text.pieces_ne_nil]

theorem descriptor_eq_ok {path : String} : m.descriptor path = .ok f ↔ m.fieldAt 0 (segments path) = .ok f := by
  unfold descriptor
  cases m.fieldAt 0 (segments path) <;> simp

theorem fieldAt_of_descriptor {path : String} {v : UnknownSegment} (h : m.descriptor path = .error v) :
    m.fieldAt 0 (segments path) = .error (v.depth, v.segment) ∧ v.path = path := by
  unfold descriptor at h
  split at h
  · cases h
  · rename_i hfind
    cases h
    exact ⟨hfind, rfl⟩

theorem walk_of_resolve {mode : Text.Case} {u : UnknownSegment} (hne : path ≠ []) (h : m.resolve mode path = .error u) :
    walk mode (.model m) path = .error (u.depth, u.segment) ∧ u.path = Text.dotted path := by
  unfold resolve at h
  rw [if_neg (by simpa using hne)] at h
  split at h
  · rename_i hwalk
    cases h
    exact ⟨hwalk, rfl⟩
  · cases h

/-- What a path resolves to are the steps by which its segments lead. -/
theorem Leads.steps_eq {q : Resolved} (h : Leads (.model m) path steps)
    (hq : m.resolve .sensitive path = .ok q) : q.steps = steps := by
  obtain ⟨p, hp, rfl⟩ := h
  obtain ⟨-, p', hp', rfl⟩ := resolve_eq_ok.mp hq
  cases hp.symm.trans hp'
  rfl

/-- A field at the end of a path is what the path leads to. -/
theorem walk_of_descriptor {path : String} (h : m.descriptor path = .ok f) :
    ∃ steps, walk .sensitive (.model m) (segments path) = .ok ⟨f.type, steps⟩ ∧ .length ∉ steps ∧
      m.fieldBy steps = some f := by
  have hbeside := fieldAt_beside m 0 (segments_ne_nil path)
  rw [descriptor_eq_ok.mp h] at hbeside
  generalize walk .sensitive (.model m) (segments path) = y at hbeside ⊢
  cases hbeside with
  | @field _ steps hlength hf => exact ⟨steps, rfl, hlength, hf⟩

/-- Where both fail, they do at one segment and without a length before it, or else the look-up does at a length and
resolving behind it. -/
theorem errors_beside {path : String} {u v : UnknownSegment} (hu : m.resolve .sensitive (segments path) = .error u)
    (hv : m.descriptor path = .error v) :
    (u = v ∧ ∃ steps, .length ∉ steps ∧ Leads (.model m) ((segments path).take u.depth) steps) ∨
    v.segment = lengthMember ∧ u.depth = v.depth + 1 ∧
      ∃ steps, steps.length = v.depth ∧ Leads (.model m) ((segments path).take u.depth) (steps ++ [.length]) := by
  have hne := segments_ne_nil path
  obtain ⟨hwalk, hpath⟩ := walk_of_resolve hne hu
  obtain ⟨hfind, hpath'⟩ := fieldAt_of_descriptor hv
  rw [Text.dotted_segments] at hpath
  have hbeside := fieldAt_beside m 0 hne
  rw [hwalk, hfind] at hbeside
  obtain ⟨segment, depth, text⟩ := u
  obtain ⟨segment', depth', text'⟩ := v
  dsimp only at hpath hpath' hbeside ⊢
  subst hpath hpath'
  cases hbeside with
  | unknown steps hlength hleads => exact .inl ⟨by rw [Nat.zero_add], steps, hlength, hleads⟩
  | behind steps hleads => exact .inr ⟨rfl, by rw [Nat.zero_add], steps, (Nat.zero_add _).symm, hleads⟩

/-- **One walk or the other.** The field that looking up a path gives is the one that the path resolves to: resolving
succeeds without a length just when looking up does, and gives the type of the field, with null behind more segments
than one. Where both fail it is at the same segment, but for a path that resolving follows over a length: there the
look-up fails at the length and resolving at the segment behind it. -/
theorem descriptor_resolve (m : Model) (path : String) :
    (∀ f, m.descriptor path = .ok f → ∃ q, m.resolve .sensitive (segments path) = .ok q ∧ .length ∉ q.steps ∧
      m.fieldBy q.steps = some f ∧ q.type = f.type.orNullIf (1 < (segments path).length)) ∧
    (∀ q, m.resolve .sensitive (segments path) = .ok q → .length ∉ q.steps →
      ∃ f, m.descriptor path = .ok f ∧ m.fieldBy q.steps = some f) ∧
    ∀ u v, m.resolve .sensitive (segments path) = .error u → m.descriptor path = .error v →
      ((∀ q, m.resolve .sensitive ((segments path).take u.depth) = .ok q → .length ∉ q.steps) → u = v) ∧
      ∀ q, m.resolve .sensitive ((segments path).take u.depth) = .ok q → .length ∈ q.steps →
        v.segment = lengthMember ∧ u.depth = v.depth + 1 ∧ q.steps[v.depth]? = some .length := by
  have hne := segments_ne_nil path
  refine ⟨fun f hf => ?_, fun q hq hlength => ?_, fun u v hu hv => ?_⟩
  · obtain ⟨steps, hwalk, hlength, hby⟩ := walk_of_descriptor hf
    exact ⟨_, resolve_eq_ok.mpr ⟨hne, _, hwalk, rfl⟩, hlength, hby, rfl⟩
  · obtain ⟨-, p, hp, rfl⟩ := resolve_eq_ok.mp hq
    have hbeside := fieldAt_beside m 0 hne
    rw [hp] at hbeside
    generalize hfind : m.fieldAt 0 (segments path) = x at hbeside
    cases hbeside with
    | field _ hf => exact ⟨_, descriptor_eq_ok.mpr hfind, hf⟩
    | length => simp at hlength
  · obtain ⟨rfl, steps, hlength, hleads⟩ | ⟨hsegment, hdepth, steps, hsteps, hleads⟩ := errors_beside hu hv
    · refine ⟨fun _ => rfl, fun q hq hmem => ?_⟩
      rw [hleads.steps_eq hq] at hmem
      exact absurd hmem hlength
    · refine ⟨fun hnone => ?_, fun q hq _ => ⟨hsegment, hdepth, ?_⟩⟩
      · obtain ⟨p, hp, hlast⟩ := hleads
        have hpart : (segments path).take u.depth ≠ [] := by simp [hne, hdepth]
        refine absurd ?_ (hnone _ (resolve_eq_ok.mpr ⟨hpart, p, hp, rfl⟩))
        simp [hlast]
      · rw [hleads.steps_eq hq, ← hsteps]
        simp

end Model

end RecordLogic
