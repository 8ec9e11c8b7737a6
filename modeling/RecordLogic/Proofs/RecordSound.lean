import RecordLogic.Proofs.Shape
import RecordLogic.Value.OfJson

/-!
# Records keep to their models

However a record is built, the values of its fields have the shapes of the fields' types and its records are those
of the fields' models, all the way down. So a path that resolves reads what its type promises.
-/

namespace RecordLogic

inductive ValueType.Mentions : ValueType → Model → Prop
  | model (m : Model) : Mentions (.model m) m
  | array {t : ValueType} {m : Model} : Mentions t m → Mentions (.array t) m
  | nullable {t : ValueType} {m : Model} : Mentions t m → Mentions (.nullable t) m

structure Catalogue where
  Has : Model → Prop
  unique : ∀ {m n : Model}, Has m → Has n → m.id = n.id → m = n
  nested : ∀ {m : Model}, Has m → ∀ f ∈ m.fields, ∀ n, f.type.Mentions n → Has n

inductive Value.Holds : Value → Record → Prop
  | record (r : Record) : Holds (.record r) r
  | item {items : List Value} {v : Value} {r : Record} : v ∈ items → Holds v r → Holds (.array items) r

/-- The records of models in the catalogue, built in one of the three ways from values that hold such records. -/
inductive Record.Built (C : Catalogue) : Record → Prop
  | ofValues {m : Model} {values : List Value} {r : Record} : C.Has m →
      (∀ v ∈ values, ∀ q, v.Holds q → Built C q) → Record.ofValues m values = .ok r → Built C r
  | builder {m : Model} {sets : List (String × Value)} {r : Record} : C.Has m →
      (∀ s ∈ sets, ∀ q, s.2.Holds q → Built C q) →
      (sets.foldl (fun b s => b.set s.1 s.2) (RecordBuilder.start m)).build = .ok r → Built C r
  | ofJson {m : Model} {j : Json} {r : Record} : C.Has m → Record.ofJson m j = .ok r → Built C r

inductive Record.Sound : Record → Prop
  | intro {r : Record} :
      (∀ (i : Nat) (v : Value), r.values[i]? = some v → ∃ f : Field, r.model.fields[i]? = some f ∧ v.Fits f.type ∧
        ∀ q, v = .record q → f.type.underlying = .model q.model) →
      (∀ q, .record q ∈ r.values → Sound q) → Sound r

/-! ## Conforming keeps records -/

theorem ValueType.mentions_of_underlying {t : ValueType} {m : Model} (h : t.underlying = .model m) : t.Mentions m := by
  induction t using underlying.induct with
  | case1 t ih =>
    rw [underlying] at h
    exact .nullable (ih h)
  | case2 t ht =>
    rw [underlying.eq_2 t ht] at h
    subst h
    exact .model m

theorem Value.holds_of_conform {v w : Value} {r : Record} (hw : w.Holds r) :
    ∀ {t : ValueType}, v.conform t = .ok w → v.Holds r := by
  induction hw generalizing v with
  | record r =>
    intro t h
    obtain ⟨rfl, -⟩ := conform_record h
    exact .record r
  | item hmem _ ih =>
    intro t h
    obtain hn | ⟨-, hs, -⟩ | ⟨u, items, values, -, rfl, hall, hv⟩ | ⟨_, _, -, -, -, hr⟩ := conform_ok h
    · cases hn
    · exact absurd rfl hs
    · cases hv
      obtain ⟨x, hx, hconf⟩ := mem_of_mapM_eq_ok hall hmem
      exact .item hx (ih hconf)
    · cases hr

theorem conformAll_get {fs : List Field} {vs ws : List Value} (h : conformAll fs vs = .ok ws) {i : Nat} {w : Value}
    (hw : ws[i]? = some w) : ∃ f v, fs[i]? = some f ∧ v ∈ vs ∧ v.conform f.type = .ok w := by
  induction fs generalizing vs ws i with
  | nil =>
    cases h
    cases hw
  | cons g fs ih =>
    cases vs with
    | nil =>
      cases h
      cases hw
    | cons v vs =>
      unfold conformAll at h
      split at h
      · cases h
      · rename_i u hu
        obtain ⟨us, hus, rfl⟩ := map_eq_ok.mp h
        cases i with
        | zero =>
          cases hw
          exact ⟨g, v, rfl, .head _, hu⟩
        | succ i =>
          obtain ⟨f, x, hf, hx, hconf⟩ := ih hus hw
          exact ⟨f, x, hf, .tail _ hx, hconf⟩

/-! ## The three ways of building -/

section
variable {C : Catalogue} {m : Model} {r : Record}

/-- Building from values passes the property on from the records in the values to the whole. -/
def Record.Inherited (C : Catalogue) (P : Record → Prop) : Prop :=
  ∀ (m : Model) (values : List Value) (r : Record), C.Has m → (∀ v ∈ values, ∀ q, v.Holds q → P q) →
    Record.ofValues m values = .ok r → P r

def Record.SoundIn (C : Catalogue) (r : Record) : Prop := C.Has r.model ∧ r.Sound

theorem inherited_sound : Record.Inherited C (Record.SoundIn C) := by
  intro m values r hm hv h
  unfold Record.ofValues at h
  split at h
  · cases h
  obtain ⟨ws, hws, rfl⟩ := map_eq_ok.mp h
  refine ⟨hm, .intro ?_ ?_⟩
  · intro i w hw
    obtain ⟨f, v, hf, hmem, hconf⟩ := conformAll_get hws hw
    refine ⟨f, hf, Value.conform_fits hconf, ?_⟩
    intro q hq
    subst hq
    obtain ⟨rfl, n, hn, hid⟩ := Value.conform_record hconf
    have hhas := C.nested hm f (List.mem_of_getElem? hf) n (ValueType.mentions_of_underlying hn)
    rw [hn, C.unique (hv _ hmem q (.record q)).1 hhas hid]
  · intro q hq
    obtain ⟨i, hi⟩ := List.mem_iff_getElem?.mp hq
    obtain ⟨f, v, -, hmem, hconf⟩ := conformAll_get hws hi
    obtain ⟨rfl, -⟩ := Value.conform_record hconf
    exact (hv _ hmem q (.record q)).2

theorem set_holds {b : RecordBuilder} {s : String × Value} {P : Value → Prop}
    (hb : ∀ values, b.values = .ok values → ∀ v ∈ values, P v) (hs : P s.2) {values : List Value}
    (h : (b.set s.1 s.2).values = .ok values) : ∀ v ∈ values, P v := by
  unfold RecordBuilder.set at h
  obtain ⟨old, hold, h⟩ := bind_eq_ok.mp h
  split at h
  · cases h
    intro v hv
    obtain hv | rfl := List.mem_or_eq_of_mem_set hv
    · exact hb old hold v hv
    · exact hs
  · cases h

theorem foldl_set_holds {sets : List (String × Value)} {P : Value → Prop} (hs : ∀ s ∈ sets, P s.2) {b : RecordBuilder}
    (hb : ∀ values, b.values = .ok values → ∀ v ∈ values, P v) :
    (sets.foldl (fun b s => b.set s.1 s.2) b).model = b.model ∧
      ∀ values, (sets.foldl (fun b s => b.set s.1 s.2) b).values = .ok values → ∀ v ∈ values, P v := by
  induction sets generalizing b with
  | nil => exact ⟨rfl, hb⟩
  | cons s sets ih =>
    have hnext := ih (fun t ht => hs t (.tail _ ht)) (b := b.set s.1 s.2)
      fun values h => set_holds hb (hs s (.head _)) h
    exact hnext

variable {P : Record → Prop}

theorem build_inherited (hP : Record.Inherited C P) {sets : List (String × Value)} (hm : C.Has m)
    (hs : ∀ s ∈ sets, ∀ q, s.2.Holds q → P q)
    (h : (sets.foldl (fun b s => b.set s.1 s.2) (RecordBuilder.start m)).build = .ok r) : P r := by
  have hstart : ∀ values, (RecordBuilder.start m).values = .ok values → ∀ v ∈ values, ∀ q, v.Holds q → P q := by
    intro values hvalues v hv q hq
    cases hvalues
    obtain ⟨f, -, rfl⟩ := List.mem_map.mp hv
    cases hq
  obtain ⟨hmodel, hholds⟩ := foldl_set_holds (P := fun v => ∀ q, v.Holds q → P q) hs hstart
  unfold RecordBuilder.build at h
  obtain ⟨values, hvalues, h⟩ := bind_eq_ok.mp h
  rw [hmodel] at h
  exact hP m values r hm (hholds values hvalues) h

namespace Value

theorem IsScalar.not_holds {v : Value} (hv : v.IsScalar) {q : Record} : ¬ v.Holds q := by
  intro h
  cases h with
  | record => exact hv.2 rfl
  | item => exact hv.1 rfl

theorem isScalar_of_map {α : Type} {f : α → Value} (hf : ∀ a, (f a).IsScalar) {o : Option α} {v : Value}
    (h : o.map f = some v) : v.IsScalar := by
  obtain ⟨a, -, rfl⟩ := Option.map_eq_some_iff.mp h
  exact hf a

theorem ofText?_isScalar {t : ValueType} {text : String} {v : Value} (h : ofText? t text = some v) : v.IsScalar := by
  unfold ofText? at h
  split at h
  case h_1 =>
    cases h
    exact ⟨nofun, nofun⟩
  case h_6 => cases h
  all_goals
    refine isScalar_of_map ?_ h
    exact fun _ => ⟨nofun, nofun⟩

theorem ofNumber?_isScalar {t : ValueType} {j : Json} {v : Value} (h : ofNumber? t j = some v) : v.IsScalar := by
  unfold ofNumber? at h
  split at h
  case h_2 =>
    split at h <;> cases h <;> exact ⟨nofun, nofun⟩
  case h_5 => cases h
  all_goals
    refine isScalar_of_map ?_ h
    exact fun _ => ⟨nofun, nofun⟩

theorem getD_eq_ok {o : Option Value} {e : Misfit} {v : Value} (h : (o.map Except.ok).getD (.error e) = .ok v) :
    o = some v := by
  cases o with
  | none => cases h
  | some w =>
    cases h
    rfl

theorem decode_isScalar {shown t : ValueType} {j : Json} {v : Value} (hn : ∀ u, t ≠ .nullable u)
    (ha : ∀ u, t ≠ .array u) (hm : ∀ m, t ≠ .model m) (h : decode shown t j = .ok v) : v.IsScalar := by
  unfold decode at h
  split at h
  · exact absurd rfl (hn _)
  · exact absurd rfl (ha _)
  · exact absurd rfl (hm _)
  split at h
  · cases h
    exact ⟨nofun, nofun⟩
  · cases h
    exact ⟨nofun, nofun⟩
  · split at h <;> cases h
    exact ⟨nofun, nofun⟩
  · exact ofText?_isScalar (getD_eq_ok h)
  · exact ofNumber?_isScalar (getD_eq_ok h)
  · exact ofNumber?_isScalar (getD_eq_ok h)
  · cases h

theorem decode_array {shown t : ValueType} {j : Json} {v : Value} (h : decode shown (.array t) j = .ok v) :
    v = .null ∨ ∃ (items : List Json) (values : List Value),
      (items.mapM fun item => decode t t item >>= conform t) = .ok values ∧ v = .array values := by
  cases j with
  | null =>
    rw [decode] at h
    cases h
    exact .inl rfl
  | array items =>
    rw [decode] at h
    obtain ⟨values, hvalues, h⟩ := bind_eq_ok.mp h
    cases h
    exact .inr ⟨items, values, hvalues, rfl⟩
  | _ =>
    simp only [decode, reduceCtorEq] at h

theorem decode_model {shown : ValueType} {m : Model} {j : Json} {v : Value} (h : decode shown (.model m) j = .ok v) :
    v = .null ∨ ∃ members r, decodeRecord m members = .ok r ∧ v = .record r := by
  cases j with
  | null =>
    rw [decode] at h
    cases h
    exact .inl rfl
  | object members =>
    rw [decode] at h
    split at h
    · rename_i r hr
      cases h
      exact .inr ⟨members, r, hr, rfl⟩
    · cases h
  | _ =>
    simp only [decode, reduceCtorEq] at h

mutual

theorem decode_inherited (hP : Record.Inherited C P) : ∀ (shown type : ValueType) (j : Json) {v : Value},
    decode shown type j = .ok v → (∀ n, type.Mentions n → C.Has n) → ∀ q, v.Holds q → P q
  | shown, .nullable inner, j, v, h, hm, q, hq => by
    rw [decode] at h
    exact decode_inherited hP shown inner j h (fun n hn => hm n (.nullable hn)) q hq
  | shown, .array element, j, v, h, hm, q, hq => by
    obtain rfl | ⟨items, values, hvalues, rfl⟩ := decode_array h
    · cases hq
    · cases hq with
      | item hmem hx =>
        obtain ⟨item, -, hitem⟩ := mem_of_mapM_eq_ok hvalues hmem
        obtain ⟨u, hu, hconf⟩ := bind_eq_ok.mp hitem
        have hmentions : ∀ n, element.Mentions n → C.Has n := fun n hn => hm n (.array hn)
        exact decode_inherited hP element element item hu hmentions q (holds_of_conform hx hconf)
  | shown, .model m, j, v, h, hm, q, hq => by
    obtain rfl | ⟨members, r, hr, rfl⟩ := decode_model h
    · cases hq
    · cases hq
      exact decodeRecord_inherited hP m members hr (hm m (.model m))
  | _, .null, _, _, h, _, _, hq | _, .bool, _, _, h, _, _, hq | _, .number _, _, _, h, _, _, hq
  | _, .string, _, _, h, _, _, hq | _, .dateTime, _, _, h, _, _, hq | _, .timeSpan, _, _, h, _, _, hq
  | _, .guid, _, _, h, _, _, hq | _, .enum _, _, _, h, _, _, hq => by
    have hv := decode_isScalar (by simp) (by simp) (by simp) h
    exact absurd hq hv.not_holds
termination_by structural _ type => type

theorem decodeRecord_inherited (hP : Record.Inherited C P) : ∀ (m : Model) (members : List (String × Json)) {r : Record},
    decodeRecord m members = .ok r → C.Has m → P r
  | ⟨id, name, fields⟩, members, r, h, hm => by
    rw [decodeRecord] at h
    obtain ⟨values, hvalues, h⟩ := bind_eq_ok.mp h
    exact hP _ values r hm (decodeFields_inherited hP fields members hvalues (C.nested hm)) h
termination_by structural m => m

theorem decodeFields_inherited (hP : Record.Inherited C P) : ∀ (fields : List Field) (members : List (String × Json))
    {values : List Value}, decodeFields fields members = .ok values →
      (∀ f ∈ fields, ∀ n, f.type.Mentions n → C.Has n) → ∀ v ∈ values, ∀ q, v.Holds q → P q
  | [], _, _, h, _, v, hv, _, _ => by
    cases h
    cases hv
  | ⟨name, type, _⟩ :: rest, members, values, h, hm, v, hv, q, hq => by
    rw [decodeFields] at h
    split at h
    · cases h
    · rename_i w hw
      obtain ⟨ws, hws, rfl⟩ := map_eq_ok.mp h
      rcases List.mem_cons.mp hv with rfl | hv
      · obtain ⟨u, hu, hconf⟩ := bind_eq_ok.mp hw
        exact decode_inherited hP type type _ hu (hm _ (.head _)) q (holds_of_conform hq hconf)
      · exact decodeFields_inherited hP rest members hws (fun f hf => hm f (.tail _ hf)) v hv q hq
termination_by structural fields => fields

end

end Value

theorem ofJson_inherited (hP : Record.Inherited C P) {j : Json} (hm : C.Has m) (h : Record.ofJson m j = .ok r) : P r := by
  unfold Record.ofJson at h
  split at h
  · exact Value.decodeRecord_inherited hP m _ h hm
  · cases h

/-- Every way of building a record ends in building it from values. -/
theorem Record.Built.inherited (hP : Record.Inherited C P) (h : r.Built C) : P r := by
  induction h with
  | ofValues hm _ h ih => exact hP _ _ _ hm ih h
  | builder hm _ h ih => exact build_inherited hP hm ih h
  | ofJson hm h => exact ofJson_inherited hP hm h

theorem Record.Built.sound (h : r.Built C) : r.SoundIn C := h.inherited inherited_sound

end

/-! ## Following paths -/

def Value.Proper (v : Value) (t : ValueType) : Prop :=
  v.Fits t ∧ ∀ q, v = .record q → t.underlying = .model q.model ∧ q.Sound

theorem Value.proper_null (t : ValueType) : Value.null.Proper t := ⟨fits_null t, nofun⟩

theorem Value.follow_null (steps : List Step) : Value.follow steps .null = .null := by
  cases steps with
  | nil => rfl
  | cons step rest => cases step <;> rfl

theorem Model.field?_get {m : Model} {mode : Text.Case} {name : String} {i : Nat} {f : Field}
    (h : m.field? mode name = some (i, f)) : m.fields[i]? = some f := by
  unfold Model.field? at h
  obtain ⟨j, -, h⟩ := Option.bind_eq_some_iff.mp h
  obtain ⟨g, hg, h⟩ := Option.bind_eq_some_iff.mp h
  cases h
  exact hg

theorem Value.Proper.field {v : Value} {t : ValueType} {m : Model} {i : Nat} {f : Field} (hv : v.Proper t)
    (ht : t.underlying = .model m) (hf : m.fields[i]? = some f) :
    ∃ w : Value, w.Proper f.type ∧ (w = .null ∨ ∃ r, v = .record r ∧ r.model = m ∧ r.values[i]? = some w) ∧
      ∀ rest, Value.follow (.field i :: rest) v = Value.follow rest w := by
  obtain ⟨rfl | hs, hsound⟩ := hv
  -- From null every step leads to null, and so does a step to a value that is not there.
  · exact ⟨.null, proper_null _, .inl rfl, fun rest => (follow_null rest).symm⟩
  rw [ValueType.shape_of_underlying ht] at hs
  obtain ⟨r, rfl⟩ := shape_eq_record.mp hs
  obtain ⟨htype, hr⟩ := hsound r rfl
  obtain rfl : m = r.model := by
    rw [ht] at htype
    cases htype
    rfl
  cases hw : r.values[i]? with
  | none =>
    refine ⟨.null, proper_null _, .inl rfl, fun rest => ?_⟩
    rw [follow_null, Value.follow, hw]
  | some w =>
    refine ⟨w, ?_, .inr ⟨r, rfl, rfl, hw⟩, fun rest => by rw [Value.follow, hw]⟩
    cases hr with
    | intro hfields hrecords =>
      obtain ⟨g, hg, hfits, hmodel⟩ := hfields i w hw
      obtain rfl : f = g := Option.some.inj (hf.symm.trans hg)
      refine ⟨hfits, fun q hq => ⟨hmodel q hq, ?_⟩⟩
      subst hq
      exact hrecords q (List.mem_of_getElem? hw)

def Value.size : Value → Nat
  | .array items => items.length
  | .string s => s.length
  | _ => 0

theorem Value.follow_length {v : Value} {t : ValueType} (hv : v.Fits t) (ht : t.shape = .array ∨ t.shape = .string)
    (rest : List Step) : Value.follow (.length :: rest) v = .null ∨ Value.follow (.length :: rest) v = .int v.size := by
  obtain rfl | hs := hv
  · exact .inl rfl
  obtain h | h := ht
  · obtain ⟨items, rfl⟩ := shape_eq_array.mp (hs.trans h)
    exact .inr rfl
  · obtain ⟨text, rfl⟩ := shape_eq_string.mp (hs.trans h)
    exact .inr rfl

theorem Model.walk_number {mode : Text.Case} {k : NumericKind} {path : List String} {q : Resolved}
    (h : walk mode (.number k) path = .ok q) : q.type = .number k := by
  cases path with
  | nil =>
    cases h
    rfl
  | cons => cases h

namespace Model

variable {mode : Text.Case} {path : List String} {segment : String} {t : ValueType} {q : Resolved}

theorem walk_cons (h : walk mode t (segment :: path) = .ok q) :
    ∃ step next p, advance? mode t segment = some (step, next) ∧ walk mode next path = .ok p ∧
      q = ⟨p.type, step :: p.steps⟩ := by
  unfold walk at h
  split at h
  · cases h
  rename_i step next hadvance
  split at h
  · cases h
  rename_i p hp
  cases h
  exact ⟨step, next, p, hadvance, hp, rfl⟩

theorem advance?_cases {step : Step} {next : ValueType} (h : advance? mode t segment = some (step, next)) :
    (∃ m i f, t.underlying = .model m ∧ m.fields[i]? = some f ∧ step = .field i ∧ next = f.type) ∨
    (t.shape = .array ∨ t.shape = .string) ∧ step = .length ∧ next = .number .i32 := by
  unfold advance? at h
  split at h
  · rename_i m hm
    obtain ⟨⟨i, f⟩, hfield, heq⟩ := Option.map_eq_some_iff.mp h
    cases heq
    exact .inl ⟨m, i, f, hm, field?_get hfield, rfl, rfl⟩
  · rename_i u hu
    split at h <;> cases h
    exact .inr ⟨.inl (ValueType.shape_of_underlying hu), rfl, rfl⟩
  · rename_i hu
    split at h <;> cases h
    exact .inr ⟨.inr (ValueType.shape_of_underlying hu), rfl, rfl⟩
  · cases h

end Model

theorem Value.Proper.follow {mode : Text.Case} {path : List String} {t : ValueType} {v : Value} {q : Resolved}
    (hv : v.Proper t) (h : Model.walk mode t path = .ok q) : (Value.follow q.steps v).Fits q.type := by
  induction path generalizing t v q with
  | nil =>
    cases h
    exact hv.1
  | cons segment rest ih =>
    obtain ⟨step, next, p, hadvance, hp, rfl⟩ := Model.walk_cons h
    obtain ⟨m, i, f, hm, hf, rfl, rfl⟩ | ⟨hshape, rfl, rfl⟩ := Model.advance?_cases hadvance
    · obtain ⟨w, hw, -, hfollow⟩ := hv.field hm hf
      rw [hfollow]
      exact ih hw hp
    -- A length is a number, from which no segment leads on: the path ends here.
    · rw [Model.walk_number hp]
      obtain h | h := follow_length hv.1 hshape p.steps
      · exact .inl h
      · rw [h]
        exact .inr rfl

theorem Record.Sound.follow {r : Record} {mode : Text.Case} {path : List String} {q : Resolved} (hr : r.Sound)
    (h : r.model.resolve mode path = .ok q) : (r.follow q.steps).Fits q.type := by
  unfold Model.resolve at h
  split at h
  · cases h
  split at h
  · cases h
  rename_i p hp
  cases h
  have hproper : (Value.record r).Proper (.model r.model) := by
    refine ⟨.inr rfl, ?_⟩
    intro q hq
    cases hq
    exact ⟨rfl, hr⟩
  exact (hproper.follow hp).congr (ValueType.shape_orNullIf _ _).symm

end RecordLogic
