import Mathlib.Data.List.Forall2
import RecordLogic.Proofs.NormalForm
import RecordLogic.Proofs.RecordSound

/-!
# Reading along paths

In a record that was built every value conforms as it is to the type of its field. So what a path reads conforms as
it is to the type at the end of the path: null where something on the way is absent, which the type allows behind
the first segment, and otherwise the value of a field or a length.
-/

namespace RecordLogic

inductive Record.Normal : Record → Prop
  | intro {r : Record} : List.Forall₂ (fun f v => v.conform f.type = .ok v) r.model.fields r.values →
      (∀ q, .record q ∈ r.values → Normal q) → Normal r

inductive Value.Inside : Value → Value → Prop
  | self (v : Value) : Inside v v
  | item {items : List Value} {v w : Value} : w ∈ items → Inside v w → Inside v (.array items)
  | field {r : Record} {v w : Value} : w ∈ r.values → Inside v w → Inside v (.record r)

def Record.Short (r : Record) : Prop := ∀ v : Value, v.Inside (.record r) → v.size < Number.twoTo 31

/-! ## Normal records -/

theorem conformAll_normal {fs : List Field} {vs ws : List Value} (hlen : vs.length = fs.length)
    (h : conformAll fs vs = .ok ws) : List.Forall₂ (fun f w => w.conform f.type = .ok w) fs ws := by
  induction fs generalizing vs ws with
  | nil =>
    cases h
    exact .nil
  | cons f fs ih =>
    cases vs with
    | nil => cases hlen
    | cons v vs =>
      unfold conformAll at h
      split at h
      · cases h
      · rename_i w hw
        obtain ⟨us, hus, rfl⟩ := map_eq_ok.mp h
        exact .cons (Value.conform_idem f.type hw) (ih (Nat.succ.inj hlen) hus)

theorem inherited_normal (C : Catalogue) : Record.Inherited C Record.Normal := by
  intro m values r _ hv h
  unfold Record.ofValues at h
  split at h
  · cases h
  rename_i hlen
  obtain ⟨ws, hws, rfl⟩ := map_eq_ok.mp h
  refine .intro (conformAll_normal (by simpa using hlen) hws) fun q hq => ?_
  obtain ⟨i, hi⟩ := List.mem_iff_getElem?.mp hq
  obtain ⟨f, v, -, hmem, hconf⟩ := conformAll_get hws hi
  obtain ⟨rfl, -⟩ := Value.conform_record hconf
  exact hv _ hmem q (.record q)

theorem Record.Normal.get {r : Record} (hr : r.Normal) {i : Nat} {f : Field} (hf : r.model.fields[i]? = some f) :
    ∃ w, r.values[i]? = some w ∧ w.conform f.type = .ok w ∧ ∀ q, w = .record q → q.Normal := by
  cases hr with
  | intro hfields hrecords =>
    obtain ⟨hi, hget⟩ := List.getElem?_eq_some_iff.mp hf
    have hi' : i < r.values.length := hfields.length_eq ▸ hi
    have hconf := hfields.get hi hi'
    refine ⟨r.values[i], List.getElem?_eq_getElem hi', ?_, fun q hq => hrecords q (hq ▸ List.getElem_mem hi')⟩
    simpa [hget] using hconf

/-! ## Steps and their prefixes -/

theorem Value.follow_of_take {k : Nat} {steps : List Step} {v : Value} (h : follow (steps.take k) v = .null) :
    follow steps v = .null := by
  induction steps generalizing k v with
  | nil => simpa using h
  | cons step rest ih =>
    cases k with
    | zero =>
      rw [List.take_zero, follow] at h
      rw [h, follow_null]
    | succ k =>
      rw [List.take_succ_cons] at h
      cases step with
      | length =>
        cases v with
        | array items => cases h
        | string s => cases h
        | _ => rfl
      | field i =>
        cases v with
        | record r =>
          rw [follow] at h ⊢
          cases hw : r.values[i]? with
          | none => rfl
          | some w =>
            rw [hw] at h
            exact ih h
        | _ => rfl

namespace Model

variable {mode : Text.Case} {path : List String} {t : ValueType} {q : Resolved}

theorem walk_take (h : walk mode t path = .ok q) (k : Nat) :
    ∃ p, walk mode t (path.take k) = .ok p ∧ p.steps = q.steps.take k := by
  induction path generalizing t q k with
  | nil =>
    cases h
    rw [List.take_nil]
    exact ⟨_, rfl, by simp⟩
  | cons segment rest ih =>
    obtain ⟨step, next, p, hadvance, hp, rfl⟩ := walk_cons h
    cases k with
    | zero => exact ⟨⟨t, []⟩, rfl, rfl⟩
    | succ k =>
      obtain ⟨p', hp', hsteps⟩ := ih hp k
      refine ⟨⟨p'.type, step :: p'.steps⟩, ?_, by rw [List.take_succ_cons, ← hsteps]⟩
      rw [List.take_succ_cons, walk, hadvance]
      dsimp only
      rw [hp']

theorem walk_length (h : walk mode t path = .ok q) : q.steps.length = path.length := by
  induction path generalizing t q with
  | nil =>
    cases h
    rfl
  | cons segment rest ih =>
    obtain ⟨step, next, p, -, hp, rfl⟩ := walk_cons h
    rw [List.length_cons, List.length_cons, ih hp]

theorem resolve_eq_ok {m : Model} : m.resolve mode path = .ok q ↔
    path ≠ [] ∧ ∃ p, walk mode (.model m) path = .ok p ∧
      q = ⟨p.type.orNullIf (1 < path.length), p.steps⟩ := by
  unfold resolve
  cases path with
  | nil => simp
  | cons segment rest =>
    cases hwalk : walk mode (.model m) (segment :: rest) with
    | error e => simp
    | ok p => simp [walk_length hwalk, eq_comm]

end Model

/-! ## What is at the end -/

namespace Value

/-- A value of the type as it is, and no record but a normal and sound one of the type's model. -/
structure NormalAs (v : Value) (t : ValueType) : Prop where
  proper : v.Proper t
  conforms : v.conform t = .ok v
  normal : ∀ q, v = .record q → q.Normal

inductive Reads (v : Value) : ValueType → Value → Prop
  | absent (t : ValueType) : Reads v t .null
  | value {t : ValueType} {w : Value} (h : w.conform t = .ok w) : Reads v t w
  | length {u : Value} (h : u.Inside v) : Reads v (.number .i32) (.int u.size)

variable {v w : Value} {t : ValueType}

theorem Reads.field {r : Record} {u : Value} (h : w.Reads t u) (hw : w ∈ r.values) : (Value.record r).Reads t u := by
  cases h with
  | absent => exact .absent t
  | value h => exact .value h
  | length h => exact .length (.field hw h)

/-- A value of a model's type is null, or a record with a value like that in each field. -/
theorem NormalAs.field {m : Model} {i : Nat} {f : Field} (hv : v.NormalAs t) (ht : t.underlying = .model m)
    (hf : m.fields[i]? = some f) :
    v = .null ∨ ∃ r w, v = .record r ∧ r.values[i]? = some w ∧ w.NormalAs f.type := by
  obtain rfl | hs := hv.proper.1
  · exact .inl rfl
  rw [ValueType.shape_of_underlying ht] at hs
  obtain ⟨r, rfl⟩ := shape_eq_record.mp hs
  obtain ⟨w, hw, -, hfollow⟩ := hv.proper.field ht hf
  obtain rfl : m = r.model := by
    rw [(hv.proper.2 r rfl).1] at ht
    cases ht
    rfl
  obtain ⟨w', hget, hconf, hnormal⟩ := (hv.normal r rfl).get hf
  obtain rfl : w' = w := by simpa [follow, hget] using hfollow []
  exact .inr ⟨r, w', rfl, hget, hw, hconf, hnormal⟩

theorem NormalAs.follow {mode : Text.Case} {path : List String} {q : Resolved} (hv : v.NormalAs t)
    (h : Model.walk mode t path = .ok q) : v.Reads q.type (Value.follow q.steps v) := by
  induction path generalizing t v q with
  | nil =>
    cases h
    exact .value hv.conforms
  | cons segment rest ih =>
    obtain ⟨step, next, p, hadvance, hp, rfl⟩ := Model.walk_cons h
    obtain ⟨m, i, f, hm, hf, rfl, rfl⟩ | ⟨hshape, rfl, rfl⟩ := Model.advance?_cases hadvance
    · obtain rfl | ⟨r, w, rfl, hget, hw⟩ := hv.field hm hf
      · rw [follow_null]
        exact .absent _
      · rw [Value.follow, hget]
        exact (ih hw hp).field (List.mem_of_getElem? hget)
    · rw [Model.walk_number hp]
      obtain h | h := follow_length hv.proper.1 hshape p.steps
      · rw [h]
        exact .absent _
      · rw [h]
        exact .length (.self v)

/-- Without a length on it the path ends at the value of a field, unless it reads null before its end. -/
theorem NormalAs.follow_present {mode : Text.Case} {path : List String} {q : Resolved} (hv : v.NormalAs t)
    (h : Model.walk mode t path = .ok q) (hlength : .length ∉ q.steps) :
    (∃ k < path.length, Value.follow (q.steps.take k) v = .null) ∨
      (Value.follow q.steps v).conform q.type = .ok (Value.follow q.steps v) := by
  induction path generalizing t v q with
  | nil =>
    cases h
    exact .inr hv.conforms
  | cons segment rest ih =>
    obtain ⟨step, next, p, hadvance, hp, rfl⟩ := Model.walk_cons h
    obtain ⟨hstep, hrest⟩ := not_or.mp (mt List.mem_cons.mpr hlength)
    obtain ⟨m, i, f, hm, hf, rfl, rfl⟩ | ⟨-, rfl, -⟩ := Model.advance?_cases hadvance
    · obtain rfl | ⟨r, w, rfl, hget, hw⟩ := hv.field hm hf
      · exact .inl ⟨0, Nat.succ_pos _, rfl⟩
      obtain ⟨k, hk, hnull⟩ | hconf := ih hw hp hrest
      · refine .inl ⟨k + 1, Nat.succ_lt_succ hk, ?_⟩
        rwa [List.take_succ_cons, Value.follow, hget]
      · refine .inr ?_
        rwa [Value.follow, hget]
    · exact absurd rfl hstep

theorem NormalAs.follow_fields {mode : Text.Case} {path : List String} {q : Resolved} (hv : v.NormalAs t)
    (h : Model.walk mode t path = .ok q) (hlength : .length ∉ q.steps) :
    Value.follow q.steps v = .null ∨ (Value.follow q.steps v).conform q.type = .ok (Value.follow q.steps v) := by
  obtain ⟨k, -, hnull⟩ | hconf := hv.follow_present h hlength
  · exact .inl (follow_of_take hnull)
  · exact .inr hconf

theorem Reads.conform_orNull (h : v.Reads t w) (hshort : ∀ u : Value, u.Inside v → u.size < Number.twoTo 31) :
    w.conform t.orNull = .ok w := by
  cases h with
  | absent => exact conform_orNull_null t
  | value h => exact Value.conform_orNull h
  | @length u hu =>
    have hfits : NumericKind.i32.fits u.size := NumericKind.fits_i32 (by simpa using hshort u hu)
    exact Value.conform_orNull (OfKind.conform ⟨rfl, hfits⟩)

end Value

variable {C : Catalogue} {r : Record} {mode : Text.Case} {path : List String} {q : Resolved}

theorem Record.Built.normalAs (hr : r.Built C) : (Value.record r).NormalAs (.model r.model) := by
  have hnormal := hr.inherited (inherited_normal C)
  refine ⟨⟨.inr rfl, ?_⟩, ?_, ?_⟩
  · intro q hq
    cases hq
    exact ⟨rfl, hr.sound.2⟩
  · rw [Value.conform, if_pos rfl]
  · intro q hq
    cases hq
    exact hnormal

theorem Record.Built.follow_fields (hr : r.Built C) (h : r.model.resolve mode path = .ok q)
    (hlength : .length ∉ q.steps) : r.follow q.steps = .null ∨
      ∃ t, q.type = t.orNullIf (1 < path.length) ∧ (r.follow q.steps).conform t = .ok (r.follow q.steps) := by
  obtain ⟨-, p, hp, rfl⟩ := Model.resolve_eq_ok.mp h
  obtain hnull | hconf := hr.normalAs.follow_fields hp hlength
  · exact .inl hnull
  · exact .inr ⟨p.type, rfl, hconf⟩

theorem Record.Normal.follow_single (hr : r.Normal) {segment : String} {p : Resolved}
    (h : Model.walk mode (.model r.model) [segment] = .ok p) : (r.follow p.steps).conform p.type = .ok (r.follow p.steps) := by
  obtain ⟨step, next, p', hadvance, hp, rfl⟩ := Model.walk_cons h
  cases hp
  obtain ⟨m, i, f, hm, hf, rfl, rfl⟩ | ⟨hshape, -, -⟩ := Model.advance?_cases hadvance
  · cases hm
    obtain ⟨w, hget, hconf, -⟩ := hr.get hf
    have hfollow : r.follow [.field i] = w := by
      rw [Record.follow, Value.follow, hget]
      rfl
    rwa [hfollow]
  · obtain h | h := hshape <;> cases h

/-- **Paths read what they promise.** In a record that was built, what a resolved path reads conforms as it is to
the type of the path. It is null only where the type is nullable, and it is null where the path reads null after
fewer segments. -/
theorem Record.Built.follow_conforms (hr : r.Built C) (hshort : r.Short) (h : r.model.resolve mode path = .ok q) :
    (r.follow q.steps).conform q.type = .ok (r.follow q.steps) ∧
    (q.type.isNullable = false → r.follow q.steps ≠ .null) ∧
    ∀ k, 0 < k → k < path.length → ∃ p, r.model.resolve mode (path.take k) = .ok p ∧
      (r.follow p.steps = .null → r.follow q.steps = .null) := by
  obtain ⟨hne, p, hp, rfl⟩ := Model.resolve_eq_ok.mp h
  have hconf : (r.follow p.steps).conform (p.type.orNullIf (1 < path.length)) = .ok (r.follow p.steps) := by
    by_cases hlong : 1 < path.length
    · have hnull : (r.follow p.steps).conform p.type.orNull = .ok (r.follow p.steps) :=
        (hr.normalAs.follow hp).conform_orNull hshort
      simpa [ValueType.orNullIf, hlong] using hnull
    · obtain ⟨segment, rfl⟩ : ∃ segment, path = [segment] := by
        apply List.length_eq_one_iff.mp
        have hpos := List.length_pos_iff.mpr hne
        omega
      exact (hr.inherited (inherited_normal C)).follow_single hp
  refine ⟨hconf, fun hnullable hnull => ?_, fun k hk _ => ?_⟩
  · dsimp only at hnull hnullable
    rw [hnull] at hconf
    obtain ⟨htrue, -⟩ := Value.conform_null_iff.mp hconf
    rw [hnullable] at htrue
    cases htrue
  · obtain ⟨p', hp', hsteps⟩ := Model.walk_take hp k
    have htake : path.take k ≠ [] := by
      rw [ne_eq, List.take_eq_nil_iff]
      exact fun h => h.elim (by omega) hne
    refine ⟨_, Model.resolve_eq_ok.mpr ⟨htake, p', hp', rfl⟩, fun hnull => ?_⟩
    unfold Record.follow at hnull ⊢
    rw [hsteps] at hnull
    exact Value.follow_of_take hnull

/-- The length of the street of a person's home, which is null with the home. -/
theorem Record.Built.follow_conforms_street :
    let home : Model := ⟨1, "Address", [⟨"Street", .string, none⟩]⟩
    let m : Model := ⟨0, "Person", [⟨"Home", .model home, none⟩]⟩
    let r : Record := ⟨m, [.record ⟨home, [.string "Main"]⟩]⟩
    ∃ q, m.resolve .sensitive ["Home", "Street", "Length"] = .ok q ∧ q.type.isNullable ∧
      (r.follow q.steps).conform q.type = .ok (r.follow q.steps) ∧
      ∃ p, m.resolve .sensitive ["Home"] = .ok p ∧ (r.follow p.steps = .null → r.follow q.steps = .null) := by
  intro home m r
  let C : Catalogue :=
    { Has := fun n => n = m ∨ n = home
      unique := by
        intro k n hk hn hid
        rcases hk with rfl | rfl <;> rcases hn with rfl | rfl
        · rfl
        · cases hid
        · cases hid
        · rfl
      nested := by
        intro k hk f hf n hn
        rcases hk with rfl | rfl
        · obtain rfl := List.mem_singleton.mp hf
          cases hn
          exact .inr rfl
        · obtain rfl := List.mem_singleton.mp hf
          cases hn }
  have hvalues : Record.ofValues home [.string "Main"] = .ok ⟨home, [.string "Main"]⟩ := rfl
  have hhome : Record.Built C ⟨home, [.string "Main"]⟩ := by
    refine .ofValues (.inr rfl) (fun v hv q hq => ?_) hvalues
    obtain rfl := List.mem_singleton.mp hv
    cases hq
  have hr : Record.ofValues m [.record ⟨home, [.string "Main"]⟩] = .ok r := rfl
  have hbuilt : r.Built C := by
    refine .ofValues (.inl rfl) (fun v hv q hq => ?_) hr
    obtain rfl := List.mem_singleton.mp hv
    cases hq
    exact hhome
  have hshort : r.Short := by
    intro v hv
    cases hv with
    | self => decide
    | field hw hv =>
      obtain rfl := List.mem_singleton.mp hw
      cases hv with
      | self => decide
      | field hw hv =>
        obtain rfl := List.mem_singleton.mp hw
        cases hv
        decide
  have hresolve : m.resolve .sensitive ["Home", "Street", "Length"] =
      .ok ⟨.nullable (.number .i32), [.field 0, .field 0, .length]⟩ := rfl
  obtain ⟨hconf, -, hprefix⟩ := hbuilt.follow_conforms hshort hresolve
  exact ⟨_, hresolve, rfl, hconf, hprefix 1 (by decide) (by decide)⟩

end RecordLogic
