import Mathlib.Data.List.Nodup
import RecordLogic.Model.Enums
import RecordLogic.Proofs.RecordSound

/-!
# The enumerations of a model

An identity stands for one model and no model stands in itself, so a model that was visited before has either been
searched to the end or does not come again. To skip it loses nothing: every name that a field leads to is found once,
with the first enumeration of that name.
-/

namespace RecordLogic

/-- `t.Reaches e`: the enumeration stands in the type or in a field of a model that does. -/
inductive ValueType.Reaches : ValueType → EnumType → Prop
  | enum (e : EnumType) : Reaches (.enum e) e
  | array {t : ValueType} {e : EnumType} : Reaches t e → Reaches (.array t) e
  | nullable {t : ValueType} {e : EnumType} : Reaches t e → Reaches (.nullable t) e
  | field {m : Model} {f : Field} {e : EnumType} : f ∈ m.fields → Reaches f.type e → Reaches (.model m) e

inductive ValueType.Nests : ValueType → Model → Prop
  | model (m : Model) : Nests (.model m) m
  | array {t : ValueType} {m : Model} : Nests t m → Nests (.array t) m
  | nullable {t : ValueType} {m : Model} : Nests t m → Nests (.nullable t) m
  | field {m n : Model} {f : Field} : f ∈ m.fields → Nests f.type n → Nests (.model m) n

def Model.Nests (m n : Model) : Prop := ∃ f ∈ m.fields, f.type.Nests n

mutual

def ValueType.occurrences : ValueType → List EnumType
  | .enum e => [e]
  | .array t => t.occurrences
  | .nullable t => t.occurrences
  | .model m => m.occurrences
  | _ => []

def Model.occurrences : Model → List EnumType
  | ⟨_, _, fields⟩ => Field.occurrencesOfAll fields

def Field.occurrencesOfAll : List Field → List EnumType
  | [] => []
  | ⟨_, t, _⟩ :: fs => t.occurrences ++ Field.occurrencesOfAll fs

end

mutual

theorem ValueType.mem_occurrences {e : EnumType} : ∀ t : ValueType, e ∈ t.occurrences ↔ t.Reaches e
  | .enum d => by
    rw [ValueType.occurrences, List.mem_singleton]
    constructor
    · rintro rfl
      exact .enum e
    · rintro ⟨⟩
      rfl
  | .array t => by
    rw [ValueType.occurrences, ValueType.mem_occurrences t]
    exact ⟨.array, fun | .array h => h⟩
  | .nullable t => by
    rw [ValueType.occurrences, ValueType.mem_occurrences t]
    exact ⟨.nullable, fun | .nullable h => h⟩
  | .model m => by
    rw [ValueType.occurrences, Model.mem_occurrences m]
    exact ⟨fun ⟨_, hf, h⟩ => .field hf h, fun | .field hf h => ⟨_, hf, h⟩⟩
  | .null | .bool | .number _ | .string | .dateTime | .timeSpan | .guid => by
    simp only [ValueType.occurrences]
    exact ⟨fun h => absurd h List.not_mem_nil, fun h => nomatch h⟩

theorem Model.mem_occurrences {e : EnumType} : ∀ m : Model, e ∈ m.occurrences ↔ ∃ f ∈ m.fields, f.type.Reaches e
  | ⟨_, _, fields⟩ => by
    rw [Model.occurrences]
    exact Field.mem_occurrencesOfAll fields

theorem Field.mem_occurrencesOfAll {e : EnumType} : ∀ fs : List Field,
    e ∈ Field.occurrencesOfAll fs ↔ ∃ f ∈ fs, f.type.Reaches e
  | [] => by simp [Field.occurrencesOfAll]
  | ⟨_, t, _⟩ :: fs => by
    simp [Field.occurrencesOfAll, ValueType.mem_occurrences t, Field.mem_occurrencesOfAll fs]

end

/-! ## The first of each name -/

namespace EnumType

variable {e : EnumType} {es found : List EnumType} {name : String}

def addFirst (found : List EnumType) (e : EnumType) : List EnumType :=
  if found.any (·.name == e.name) then found else found ++ [e]

theorem any_name : found.any (·.name == name) ↔ name ∈ found.map EnumType.name := by
  simp

theorem addFirst_of_mem (h : e.name ∈ found.map EnumType.name) : addFirst found e = found := if_pos (any_name.mpr h)

theorem addFirst_of_not_mem (h : e.name ∉ found.map EnumType.name) : addFirst found e = found ++ [e] :=
  if_neg (mt any_name.mp h)

theorem names_addFirst :
    name ∈ (addFirst found e).map EnumType.name ↔ name ∈ found.map EnumType.name ∨ name = e.name := by
  by_cases h : e.name ∈ found.map EnumType.name
  · rw [addFirst_of_mem h]
    constructor
    · exact .inl
    · rintro (hname | rfl)
      · exact hname
      · exact h
  · simp [addFirst_of_not_mem h]

theorem nodup_addFirst (h : (found.map EnumType.name).Nodup) : ((addFirst found e).map EnumType.name).Nodup := by
  by_cases he : e.name ∈ found.map EnumType.name
  · rw [addFirst_of_mem he]
    exact h
  · rw [addFirst_of_not_mem he, List.map_append, List.map_singleton]
    exact List.nodup_append.mpr ⟨h, List.pairwise_singleton _ _, by simpa using he⟩

theorem find?_addFirst : (addFirst found e).find? (·.name == name) = (found ++ [e]).find? (·.name == name) := by
  by_cases h : e.name ∈ found.map EnumType.name
  · rw [addFirst_of_mem h, List.find?_append]
    -- The new one is not looked at, since there is one of its name before it.
    by_cases hname : e.name = name
    · subst hname
      obtain ⟨d, hd, hdname⟩ := List.mem_map.mp h
      have hsome : (found.find? (·.name == e.name)).isSome := List.find?_isSome.mpr ⟨d, hd, by simpa using hdname⟩
      rw [Option.or_of_isSome hsome]
    · simp [hname]
  · rw [addFirst_of_not_mem h]

theorem sublist_addFirst : (addFirst found e).Sublist (found ++ [e]) := by
  unfold addFirst
  split
  · exact List.sublist_append_left _ _
  · exact List.Sublist.refl _

def addAllFirst (found es : List EnumType) : List EnumType := es.foldl addFirst found

theorem addAllFirst_append (es ds : List EnumType) :
    addAllFirst found (es ++ ds) = addAllFirst (addAllFirst found es) ds := List.foldl_append

theorem addAllFirst_of_forall_mem (h : ∀ e ∈ es, e.name ∈ found.map EnumType.name) : addAllFirst found es = found := by
  induction es with
  | nil => rfl
  | cons e es ih =>
    show addAllFirst (addFirst found e) es = found
    rw [addFirst_of_mem (h e (.head _))]
    exact ih fun d hd => h d (.tail _ hd)

theorem names_addAllFirst : name ∈ (addAllFirst found es).map EnumType.name ↔
    name ∈ found.map EnumType.name ∨ name ∈ es.map EnumType.name := by
  induction es generalizing found with
  | nil => simp [addAllFirst]
  | cons e es ih =>
    show name ∈ (addAllFirst (addFirst found e) es).map EnumType.name ↔ _
    rw [ih, names_addFirst, List.map_cons, List.mem_cons, or_assoc]

theorem nodup_addAllFirst (h : (found.map EnumType.name).Nodup) : ((addAllFirst found es).map EnumType.name).Nodup := by
  induction es generalizing found with
  | nil => exact h
  | cons e es ih => exact ih (nodup_addFirst h)

theorem find?_addAllFirst :
    (addAllFirst found es).find? (·.name == name) = (found ++ es).find? (·.name == name) := by
  induction es generalizing found with
  | nil => simp [addAllFirst]
  | cons e es ih =>
    show (addAllFirst (addFirst found e) es).find? (·.name == name) = _
    rw [ih, List.find?_append, find?_addFirst, ← List.find?_append, List.append_assoc]
    rfl

theorem sublist_addAllFirst : (addAllFirst found es).Sublist (found ++ es) := by
  induction es generalizing found with
  | nil => simp [addAllFirst]
  | cons e es ih =>
    have hstep : (addAllFirst (addFirst found e) es).Sublist (found ++ [e] ++ es) :=
      ih.trans (sublist_addFirst.append_right es)
    rwa [List.append_assoc] at hstep

theorem find?_self_of_nodup (h : (es.map EnumType.name).Nodup) (he : e ∈ es) :
    es.find? (·.name == e.name) = some e := by
  have hsome : (es.find? (·.name == e.name)).isSome := List.find?_isSome.mpr ⟨e, he, by simp⟩
  obtain ⟨d, hd⟩ := Option.isSome_iff_exists.mp hsome
  have hname : d.name = e.name := by simpa using List.find?_some hd
  rw [hd, List.inj_on_of_nodup_map h (List.mem_of_find?_eq_some hd) he hname]

end EnumType

/-! ## Nested models -/

namespace ValueType.Nests

variable {t : ValueType} {m n : Model}

theorem has {C : Catalogue} (h : t.Nests n) (ht : ∀ k, t.Mentions k → C.Has k) : C.Has n := by
  induction h with
  | model m => exact ht m (.model m)
  | array _ ih => exact ih fun k hk => ht k (.array hk)
  | nullable _ ih => exact ih fun k hk => ht k (.nullable hk)
  | field hf _ ih => exact ih (C.nested (ht _ (.model _)) _ hf)

theorem sizeOf_lt (h : t.Nests n) : sizeOf n < sizeOf t := by
  induction h with
  | model m =>
    rw [ValueType.model.sizeOf_spec]
    omega
  | array _ ih =>
    rw [ValueType.array.sizeOf_spec]
    omega
  | nullable _ ih =>
    rw [ValueType.nullable.sizeOf_spec]
    omega
  | @field m _ f hf _ ih =>
    obtain ⟨id, name, fields⟩ := m
    obtain ⟨fieldName, t, display⟩ := f
    have hmem := List.sizeOf_lt_of_mem hf
    rw [Field.mk.sizeOf_spec] at hmem
    rw [ValueType.model.sizeOf_spec, Model.mk.sizeOf_spec]
    dsimp only at ih hmem
    omega

theorem occurrences_subset (h : t.Nests n) : n.occurrences ⊆ t.occurrences := by
  induction h with
  | model m =>
    rw [ValueType.occurrences]
    exact List.Subset.refl _
  | array _ ih | nullable _ ih =>
    rw [ValueType.occurrences]
    exact ih
  | field hf _ ih =>
    intro e he
    rw [ValueType.occurrences]
    exact (Model.mem_occurrences _).mpr ⟨_, hf, (ValueType.mem_occurrences _).mp (ih he)⟩

end ValueType.Nests

theorem Model.not_nests_self (m : Model) : ¬ m.Nests m := by
  rintro ⟨f, hf, h⟩
  have hself : (ValueType.model m).Nests m := .field hf h
  obtain ⟨id, name, fields⟩ := m
  obtain ⟨fieldName, t, display⟩ := f
  have hlt := h.sizeOf_lt
  have hmem := List.sizeOf_lt_of_mem hf
  rw [Field.mk.sizeOf_spec] at hmem
  rw [Model.mk.sizeOf_spec] at hlt
  dsimp only at hlt hmem
  omega

/-! ## The search -/

namespace EnumSearch

open EnumType

variable {C : Catalogue} {s s' s'' : EnumSearch} {t : ValueType} {m n : Model} {fs : List Field}

def Covers (s : EnumSearch) (t : ValueType) : Prop :=
  ∀ n, t.Nests n → n.id ∈ s.visited → ∀ e ∈ n.occurrences, e.name ∈ s.found.map EnumType.name

/-- What a search over the enumerations `es` under the models `P` adds. -/
structure Adds (s s' : EnumSearch) (es : List EnumType) (P : Model → Prop) : Prop where
  found : s'.found = addAllFirst s.found es
  visited : ∀ i ∈ s'.visited, i ∈ s.visited ∨ ∃ n, P n ∧ n.id = i

theorem found_note (s : EnumSearch) (e : EnumType) : (s.note e).found = addAllFirst s.found [e] := by
  show _ = addFirst s.found e
  unfold note addFirst
  split <;> rfl

theorem visited_note (s : EnumSearch) (e : EnumType) : (s.note e).visited = s.visited := by
  unfold note
  split <;> rfl

namespace Adds

theorem refl (s : EnumSearch) (P : Model → Prop) : s.Adds s [] P := ⟨rfl, fun _ hi => .inl hi⟩

theorem mono {es : List EnumType} {P Q : Model → Prop} (h : s.Adds s' es P) (hPQ : ∀ n, P n → Q n) :
    s.Adds s' es Q := by
  refine ⟨h.found, fun i hi => ?_⟩
  obtain hi | ⟨n, hn, hid⟩ := h.visited i hi
  · exact .inl hi
  · exact .inr ⟨n, hPQ n hn, hid⟩

theorem trans {es ds : List EnumType} {P : Model → Prop} (h : s.Adds s' es P) (h' : s'.Adds s'' ds P) :
    s.Adds s'' (es ++ ds) P := by
  refine ⟨?_, fun i hi => ?_⟩
  · rw [addAllFirst_append, ← h.found, h'.found]
  · obtain hi | hi := h'.visited i hi
    · exact h.visited i hi
    · exact .inr hi

theorem covers (h : s.Adds s' t.occurrences t.Nests) {u : ValueType} (hu : s.Covers u)
    (ht : ∀ n, t.Nests n → C.Has n) (hC : ∀ n, u.Nests n → C.Has n) : s'.Covers u := by
  intro n hn hid e he
  rw [h.found, names_addAllFirst]
  obtain hid | ⟨k, hk, hkid⟩ := h.visited _ hid
  · exact .inl (hu n hn hid e he)
  · obtain rfl := C.unique (ht k hk) (hC n hn) hkid
    exact .inr (List.mem_map_of_mem (hk.occurrences_subset he))

end Adds

theorem Covers.enter (hm : s.Covers (.model m)) (hC : ∀ n, (ValueType.model m).Nests n → C.Has n) {f : Field}
    (hf : f ∈ m.fields) : Covers { s with visited := s.visited ++ [m.id] } f.type := by
  intro n hn hid e he
  have hnest : (ValueType.model m).Nests n := .field hf hn
  obtain hid | hid := List.mem_append.mp hid
  · exact hm n hnest hid e he
  · obtain rfl := C.unique (hC n hnest) (hC m (.model m)) (List.mem_singleton.mp hid)
    exact absurd ⟨f, hf, hn⟩ n.not_nests_self

mutual

theorem inType_adds : ∀ (t : ValueType) {s : EnumSearch}, (∀ n, t.Nests n → C.Has n) → s.Covers t →
    s.Adds (s.inType t) t.occurrences t.Nests
  | .enum e, s, _, _ => by
    rw [inType, ValueType.occurrences]
    exact ⟨found_note s e, fun i hi => .inl (visited_note s e ▸ hi)⟩
  | .array t, s, hC, hs => by
    rw [inType, ValueType.occurrences]
    have ht := inType_adds t (fun n hn => hC n (.array hn)) fun n hn => hs n (.array hn)
    exact ht.mono fun _ => .array
  | .nullable t, s, hC, hs => by
    rw [inType, ValueType.occurrences]
    have ht := inType_adds t (fun n hn => hC n (.nullable hn)) fun n hn => hs n (.nullable hn)
    exact ht.mono fun _ => .nullable
  | .model m, s, hC, hs => by
    rw [inType, ValueType.occurrences]
    split
    · rename_i hvisited
      have hknown := hs m (.model m) (List.contains_iff_mem.mp hvisited)
      exact ⟨(addAllFirst_of_forall_mem hknown).symm, fun _ hi => .inl hi⟩
    · have hfields := inModel_adds m (fun n ⟨_, hf, hn⟩ => hC n (.field hf hn)) fun _ hf => hs.enter hC hf
      refine ⟨hfields.found, fun i hi => ?_⟩
      obtain hi | ⟨n, ⟨f, hf, hn⟩, hid⟩ := hfields.visited i hi
      · obtain hi | hi := List.mem_append.mp hi
        · exact .inl hi
        · exact .inr ⟨m, .model m, (List.mem_singleton.mp hi).symm⟩
      · exact .inr ⟨n, .field hf hn, hid⟩
  | .null, s, _, _ | .bool, s, _, _ | .number _, s, _, _ | .string, s, _, _ | .dateTime, s, _, _
  | .timeSpan, s, _, _ | .guid, s, _, _ => by
    simp only [inType, ValueType.occurrences]
    exact .refl s _

theorem inModel_adds : ∀ (m : Model) {s : EnumSearch}, (∀ n, m.Nests n → C.Has n) → (∀ f ∈ m.fields, s.Covers f.type) →
    s.Adds (s.inModel m) m.occurrences m.Nests
  | ⟨_, _, fields⟩, s, hC, hs => by
    rw [inModel, Model.occurrences]
    exact inFields_adds fields hC hs

theorem inFields_adds : ∀ (fs : List Field) {s : EnumSearch}, (∀ n, (∃ f ∈ fs, f.type.Nests n) → C.Has n) →
    (∀ f ∈ fs, s.Covers f.type) → s.Adds (s.inFields fs) (Field.occurrencesOfAll fs) fun n => ∃ f ∈ fs, f.type.Nests n
  | [], s, _, _ => by
    rw [inFields, Field.occurrencesOfAll]
    exact .refl s _
  | ⟨_, t, _⟩ :: fs, s, hC, hs => by
    rw [inFields, inField, Field.occurrencesOfAll]
    have ht : ∀ n, t.Nests n → C.Has n := fun n hn => hC n ⟨_, .head _, hn⟩
    have hfirst := inType_adds t ht (hs _ (.head _))
    -- What the first field adds covers the others.
    have hrest := inFields_adds fs (fun n ⟨g, hg, hn⟩ => hC n ⟨g, .tail _ hg, hn⟩) fun g hg =>
      hfirst.covers (hs g (.tail _ hg)) ht fun n hn => hC n ⟨g, .tail _ hg, hn⟩
    exact (hfirst.mono fun n hn => ⟨_, .head _, hn⟩).trans (hrest.mono fun n ⟨g, hg, hn⟩ => ⟨g, .tail _ hg, hn⟩)

end

end EnumSearch

/-- The search that visits each model once finds what one without that finds. -/
theorem Model.enums_eq {C : Catalogue} {m : Model} (hm : C.Has m) :
    m.enums = EnumType.addAllFirst [] m.occurrences := by
  have hC : ∀ n, (ValueType.model m).Nests n → C.Has n := by
    intro n hn
    refine hn.has fun k hk => ?_
    obtain ⟨⟩ := hk
    exact hm
  have hstart : EnumSearch.Covers ⟨[], []⟩ (.model m) := fun _ _ hid => nomatch hid
  exact (EnumSearch.inModel_adds m (fun n ⟨_, hf, hn⟩ => hC n (.field hf hn)) fun _ hf => hstart.enter hC hf).found

/-- **The enumerations of a model.** Among them is one of a name just where the fields reach one, through wrappers,
arrays and nested models. No two share a name, each is the first of its name in the order of the fields, and they stand
in that order. -/
theorem Model.enums_first_reached {C : Catalogue} {m : Model} (hm : C.Has m) :
    (∀ name, (∃ e ∈ m.enums, e.name = name) ↔ ∃ e, (ValueType.model m).Reaches e ∧ e.name = name) ∧
    (m.enums.map EnumType.name).Nodup ∧
    (∀ e ∈ m.enums, m.occurrences.find? (·.name == e.name) = some e) ∧
    m.enums.Sublist m.occurrences := by
  have hnames : (m.enums.map EnumType.name).Nodup := by
    rw [Model.enums_eq hm]
    exact EnumType.nodup_addAllFirst List.nodup_nil
  refine ⟨fun name => ?_, hnames, fun e he => ?_, ?_⟩
  · have hiff : (∃ e ∈ m.enums, e.name = name) ↔ ∃ e ∈ m.occurrences, e.name = name := by
      rw [Model.enums_eq hm, ← List.mem_map, EnumType.names_addAllFirst, List.map_nil, List.mem_map]
      simp only [List.not_mem_nil, false_or]
    have hreach : ∀ e, e ∈ m.occurrences ↔ (ValueType.model m).Reaches e := by
      intro e
      rw [← ValueType.mem_occurrences, ValueType.occurrences]
    simpa only [hreach] using hiff
  · have hfirst := EnumType.find?_self_of_nodup hnames he
    rwa [Model.enums_eq hm, EnumType.find?_addAllFirst, List.nil_append] at hfirst
  · rw [Model.enums_eq hm]
    exact EnumType.sublist_addAllFirst

/-- An address is met twice, and the enumeration in it has the name of another. -/
theorem Model.enums_first_reached_country :
    let country : EnumType := ⟨"Country", [("Poland", 1)]⟩
    let address : Model := ⟨1, "Address", [⟨"Country", .nullable (.enum country), none⟩]⟩
    let citizenship : EnumType := ⟨"Country", [("Germany", 2)]⟩
    let m : Model := ⟨0, "Person", [⟨"Home", .model address, none⟩, ⟨"Former", .array (.model address), none⟩,
      ⟨"Citizen", .enum citizenship, none⟩]⟩
    m.occurrences = [country, country, citizenship] ∧ m.enums = [country] ∧
      (∃ e ∈ m.enums, e.name = "Country") ∧ m.occurrences.find? (·.name == country.name) = some country := by
  intro country address citizenship m
  let C : Catalogue :=
    { Has := fun n => n = m ∨ n = address
      unique := by
        rintro _ _ (rfl | rfl) (rfl | rfl) hid
        · rfl
        · cases hid
        · cases hid
        · rfl
      nested := by
        intro n hn f hf k hk
        obtain rfl | rfl := hn
        · simp only [m, List.mem_cons, List.not_mem_nil, or_false] at hf
          obtain rfl | rfl | rfl := hf
          · obtain ⟨⟩ := hk
            exact .inr rfl
          · obtain ⟨⟩ | ⟨⟨⟩⟩ := hk
            exact .inr rfl
          · cases hk
        · obtain rfl := List.mem_singleton.mp hf
          obtain ⟨⟩ | ⟨⟨⟩⟩ | ⟨⟨⟩⟩ := hk }
  have hm : C.Has m := .inl rfl
  obtain ⟨hreached, -, hfirst, -⟩ := Model.enums_first_reached hm
  have henums : m.enums = [country] := rfl
  refine ⟨rfl, henums, (hreached "Country").mpr ⟨citizenship, ?_, rfl⟩, hfirst country (henums ▸ .head _)⟩
  exact .field (.tail _ (.tail _ (.head _))) (.enum citizenship)

end RecordLogic
