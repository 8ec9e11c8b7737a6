import RecordLogic.Engine.Rule
import RecordLogic.Proofs.Descriptors
import RecordLogic.Proofs.LetterCase

/-!
# Targets of required fields

A field may be required only if its own type allows null. What the check of a target does not see is the way there:
behind the first segment a record may be absent, and every field of an absent record reads null.
-/

namespace RecordLogic

open Text (segments dotted)

variable {C : Catalogue} {r : Record} {path field : String} {rule : RequiredIf} {f : Field} {v : Value} {k : Nat}

/-! ## Reading at dotted paths -/

namespace Record

theorem read?_eq_some : r.read? path = some v ↔
    ∃ q, r.model.resolve .sensitive (segments path) = .ok q ∧ r.follow q.steps = v := by
  unfold read?
  cases r.model.resolve .sensitive (segments path) <;> simp

theorem read?_eq_follow {q : Resolved} (h : r.model.resolve .sensitive (segments path) = .ok q) :
    r.read? path = some (r.follow q.steps) := read?_eq_some.mpr ⟨q, h, rfl⟩

theorem exists_read? (hf : r.model.descriptor path = .ok f) : ∃ v, r.read? path = some v := by
  obtain ⟨steps, hwalk, -, -⟩ := Model.walk_of_descriptor hf
  exact ⟨_, read?_eq_follow (Model.resolve_eq_ok.mpr ⟨Model.segments_ne_nil path, _, hwalk, rfl⟩)⟩

theorem read?_take {p : Resolved} (h : Model.walk .sensitive (.model r.model) (segments path) = .ok p) (hk : 0 < k) :
    r.read? (dotted ((segments path).take k)) = some (r.follow (p.steps.take k)) := by
  obtain ⟨q, hq, hsteps⟩ := Model.walk_take h k
  have hne : (segments path).take k ≠ [] := by
    simp [Model.segments_ne_nil, Nat.ne_of_gt hk]
  have hsegments : segments (dotted ((segments path).take k)) = (segments path).take k := by
    apply Text.segments_dotted hne
    intro a ha
    exact Text.not_mem_of_mem_segments (List.mem_of_mem_take ha)
  rw [read?_eq_some, hsegments]
  refine ⟨_, Model.resolve_eq_ok.mpr ⟨hne, q, hq, rfl⟩, ?_⟩
  rw [hsteps]

/-- A field that is not nullable itself reads null just where something on the way to it does. -/
theorem Built.read?_null_iff (hr : r.Built C) (hf : r.model.descriptor path = .ok f) (hnull : f.type.isNullable = false) :
    r.read? path = some .null ↔
      ∃ k, 0 < k ∧ k < (segments path).length ∧ r.read? (dotted ((segments path).take k)) = some .null := by
  obtain ⟨steps, hwalk, hlength, -⟩ := Model.walk_of_descriptor hf
  have hread : r.read? path = some (r.follow steps) :=
    read?_eq_follow (Model.resolve_eq_ok.mpr ⟨Model.segments_ne_nil path, _, hwalk, rfl⟩)
  rw [hread, Option.some.injEq]
  refine ⟨fun h => ?_, fun ⟨k, hk, _, h⟩ => ?_⟩
  · obtain ⟨k, hk, hpart⟩ | hconf := hr.normalAs.follow_present hwalk hlength
    · have hpos : 0 < k := by
        apply Nat.pos_of_ne_zero
        rintro rfl
        cases hpart
      refine ⟨k, hpos, hk, ?_⟩
      rw [read?_take hwalk hpos]
      exact congrArg some hpart
    · unfold follow at h
      rw [h] at hconf
      simp [Value.conform_null_iff, hnull] at hconf
  · rw [read?_take hwalk hk] at h
    exact Value.follow_of_take (Option.some.inj h)

end Record

/-! ## The check of a target -/

namespace RequiredIf

variable {m : Model} {t : ValueType}

theorem checkTarget_cases (rule : RequiredIf) (m : Model) (field : String) :
    (∃ u, m.descriptor field = .error u ∧ rule.checkTarget m field = .error (.rejected ⟨field, .unknown u⟩)) ∨
    (∃ f, m.descriptor field = .ok f ∧ f.type.isNullable = false ∧ rule.checkTarget m field = .error (.misuse f.type)) ∨
    ∃ f, m.descriptor field = .ok f ∧ f.type.isNullable = true ∧ rule.checkTarget m field = .ok () := by
  unfold checkTarget
  cases hf : m.descriptor field with
  | error u => exact .inl ⟨u, rfl, rfl⟩
  | ok f =>
    by_cases hnull : f.type.isNullable
    · exact .inr (.inr ⟨f, rfl, hnull, by simp [hnull]⟩)
    · exact .inr (.inl ⟨f, rfl, by simpa using hnull, by simp [hnull]⟩)

theorem descriptor_of_misuse (h : rule.checkTarget m field = .error (.misuse t)) :
    ∃ f, m.descriptor field = .ok f ∧ f.type = t ∧ t.isNullable = false := by
  obtain ⟨u, -, hcheck⟩ | ⟨f, hf, hnull, hcheck⟩ | ⟨f, -, -, hcheck⟩ := rule.checkTarget_cases m field
  · simp [hcheck] at h
  · obtain rfl : f.type = t := by simpa [hcheck] using h
    exact ⟨f, hf, rfl, hnull⟩
  · simp [hcheck] at h

/-- **Refused targets.** The target of a rule that is refused as one of a type without null can be read in every
record that was built. It reads null just where a field on the way to it does: never if it is a field of the model
itself, but always where the record that it belongs to is absent. -/
theorem refused_target (hr : r.Built C) (h : rule.checkTarget r.model field = .error (.misuse t)) :
    (∃ v, r.read? field = some v) ∧
      (r.read? field = some .null ↔
        ∃ k, 0 < k ∧ k < (segments field).length ∧ r.read? (dotted ((segments field).take k)) = some .null) := by
  obtain ⟨f, hf, rfl, hnull⟩ := descriptor_of_misuse h
  exact ⟨Record.exists_read? hf, hr.read?_null_iff hf hnull⟩

/-- A person's house number, of a person without a home. -/
theorem refused_target_number :
    let home : Model := ⟨1, "Address", [⟨"Number", .number .i32, none⟩]⟩
    let m : Model := ⟨0, "Person", [⟨"Home", .model home, none⟩]⟩
    let rule : RequiredIf := ⟨"true", false⟩
    Record.ofValues m [.null] = .ok ⟨m, [.null]⟩ ∧
      rule.checkTarget m "Home.Number" = .error (.misuse (.number .i32)) ∧
      ((Record.mk m [.null]).read? "Home.Number" = some .null ↔
        ∃ k, 0 < k ∧ k < 2 ∧ (Record.mk m [.null]).read? (dotted (["Home", "Number"].take k)) = some .null) := by
  intro home m rule
  let C : Catalogue :=
    { Has := fun n => n = m ∨ n = home
      unique := by
        rintro k n (rfl | rfl) (rfl | rfl) hid
        · rfl
        · cases hid
        · cases hid
        · rfl
      nested := by
        rintro k (rfl | rfl) f hf n hn
        · obtain rfl := List.mem_singleton.mp hf
          cases hn
          exact .inr rfl
        · obtain rfl := List.mem_singleton.mp hf
          cases hn }
  have hr : Record.ofValues m [.null] = .ok ⟨m, [.null]⟩ := rfl
  have hbuilt : Record.Built C ⟨m, [.null]⟩ := by
    refine .ofValues (.inl rfl) ?_ hr
    intro v hv q hq
    obtain rfl := List.mem_singleton.mp hv
    cases hq
  have hcheck : rule.checkTarget m "Home.Number" = .error (.misuse (.number .i32)) := rfl
  exact ⟨hr, hcheck, (refused_target hbuilt hcheck).2⟩

/-- A field is refused as never absent, although it is absent from the record. -/
theorem refused_target_absent :
    let home : Model := ⟨1, "Address", [⟨"Number", .number .i32, none⟩]⟩
    let m : Model := ⟨0, "Person", [⟨"Home", .model home, none⟩]⟩
    let rule : RequiredIf := ⟨"true", false⟩
    ∃ r, Record.ofValues m [.null] = .ok r ∧ r.model = m ∧
      rule.checkTarget m "Home.Number" = .error (.misuse (.number .i32)) ∧ r.read? "Home.Number" = some .null := by
  intro home m rule
  exact ⟨⟨m, [.null]⟩, rfl, rfl, rfl, rfl⟩

end RequiredIf

end RecordLogic
