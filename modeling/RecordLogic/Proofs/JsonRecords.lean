import Mathlib.Data.List.Forall2
import RecordLogic.Proofs.NormalForm
import RecordLogic.Proofs.RecordSound

/-!
# Records from Json, field by field

An object gives a record just when it gives every field a value, and the record holds these values as they are. Else the
first field without one is named. Members under other names are passed over, in the object and in all objects inside.
-/

namespace RecordLogic

/-! ## Lists side by side -/

section
variable {α β ε : Type}

theorem exists_forall₂ {R : α → β → Prop} {l : List α} :
    (∃ bs, List.Forall₂ R l bs) ↔ ∀ a ∈ l, ∃ b, R a b := by
  induction l with
  | nil => simp
  | cons a l ih =>
    rw [List.forall_mem_cons, ← ih]
    constructor
    · rintro ⟨bs, h⟩
      obtain ⟨b, cs, hb, hcs, -⟩ := List.forall₂_cons_left_iff.mp h
      exact ⟨⟨b, hb⟩, cs, hcs⟩
    · rintro ⟨⟨b, hb⟩, bs, hbs⟩
      exact ⟨b :: bs, .cons hb hbs⟩

theorem mapM_congr_forall₂ {R : α → α → Prop} {f : α → Except ε β} (hf : ∀ a b, R a b → f a = f b)
    {as bs : List α} (h : List.Forall₂ R as bs) : as.mapM f = bs.mapM f := by
  induction h with
  | nil => rfl
  | cons hab _ ih => rw [List.mapM_cons, List.mapM_cons, hf _ _ hab, ih]

end

/-! ## What an object gives a field -/

namespace Field

def member (f : Field) (members : List (String × Json)) : Json := (Json.find? f.name members).getD .null

def ofJson (f : Field) (members : List (String × Json)) : Except Misfit Value := Value.ofJson f.type (f.member members)

theorem conform_of_ofJson {f : Field} {members : List (String × Json)} {v : Value} (h : f.ofJson members = .ok v) :
    v.conform f.type = .ok v := by
  obtain ⟨u, -, hu⟩ := bind_eq_ok.mp h
  exact Value.conform_idem f.type hu

end Field

/-- Two values that agree as values of a type: objects in the members under the names of fields, at every depth. -/
inductive Json.AgreeFor : ValueType → Json → Json → Prop
  | refl (t : ValueType) (j : Json) : AgreeFor t j j
  | nullable {t : ValueType} {i j : Json} : AgreeFor t i j → AgreeFor (.nullable t) i j
  | array {t : ValueType} {is js : List Json} : is.length = js.length →
      (∀ i j, (i, j) ∈ is.zip js → AgreeFor t i j) → AgreeFor (.array t) (.array is) (.array js)
  | object {m : Model} {as bs : List (String × Json)} :
      (∀ f ∈ m.fields, AgreeFor f.type (f.member as) (f.member bs)) → AgreeFor (.model m) (.object as) (.object bs)

namespace Value

variable {members as bs : List (String × Json)} {fields : List Field} {values : List Value} {m : Model}

/-! ## Field by field -/

theorem decodeFields_cons (f : Field) (fields : List Field) (members : List (String × Json)) :
    decodeFields (f :: fields) members =
      match f.ofJson members with
      | .error reason => .error ⟨f.name, reason⟩
      | .ok v => (decodeFields fields members).map (v :: ·) := by
  obtain ⟨name, type, display⟩ := f
  rw [decodeFields]
  rfl

theorem decodeFields_eq_ok :
    decodeFields fields members = .ok values ↔ List.Forall₂ (fun f v => f.ofJson members = .ok v) fields values := by
  induction fields generalizing values with
  | nil =>
    rw [decodeFields, List.forall₂_nil_left_iff]
    simp [eq_comm]
  | cons f fields ih =>
    rw [decodeFields_cons, List.forall₂_cons_left_iff]
    cases hf : f.ofJson members with
    | error reason => simp
    | ok v =>
      simp only [map_eq_ok, ih]
      simp [eq_comm, and_comm]

theorem decodeFields_eq_error {e : Rejection} :
    decodeFields fields members = .error e ↔
      ∃ before f after, fields = before ++ f :: after ∧ (∀ g ∈ before, ∃ v, g.ofJson members = .ok v) ∧
        f.ofJson members = .error e.reason ∧ e.field = f.name := by
  induction fields with
  | nil => simp [decodeFields]
  | cons f fields ih =>
    rw [decodeFields_cons]
    cases hf : f.ofJson members with
    | error reason =>
      constructor
      · intro h
        cases h
        exact ⟨[], f, fields, rfl, by simp, hf, rfl⟩
      · rintro ⟨before, g, after, heq, hbefore, hg, hname⟩
        cases before with
        | nil =>
          cases heq
          obtain ⟨name, misfit⟩ := e
          cases hname
          cases hf.symm.trans hg
          rfl
        | cons b before =>
          cases heq
          obtain ⟨v, hv⟩ := hbefore f (.head _)
          simp [hf] at hv
    | ok v =>
      simp only [map_eq_error, ih]
      constructor
      · rintro ⟨before, g, after, rfl, hbefore, hg, hname⟩
        refine ⟨f :: before, g, after, rfl, ?_, hg, hname⟩
        simpa [hf] using hbefore
      · rintro ⟨before, g, after, heq, hbefore, hg, hname⟩
        cases before with
        | nil =>
          cases heq
          simp [hf] at hg
        | cons b before =>
          cases heq
          exact ⟨before, g, after, rfl, fun x hx => hbefore x (.tail _ hx), hg, hname⟩

/-! ## The second time -/

theorem conformAll_eq_self (h : List.Forall₂ (fun f v => v.conform f.type = .ok v) fields values) :
    conformAll fields values = .ok values := by
  induction h with
  | nil => rfl
  | cons hf _ ih =>
    rw [conformAll, hf, ih]
    rfl

theorem ofValues_of_ofJson (h : List.Forall₂ (fun f v => f.ofJson members = .ok v) m.fields values) :
    Record.ofValues m values = .ok ⟨m, values⟩ := by
  have hconform := h.imp fun _ _ => Field.conform_of_ofJson
  unfold Record.ofValues
  rw [if_neg (by simp [h.length_eq]), conformAll_eq_self hconform]
  rfl

theorem decodeRecord_eq (m : Model) (members : List (String × Json)) :
    decodeRecord m members = (decodeFields m.fields members).map (⟨m, ·⟩) := by
  have hbind : decodeRecord m members = decodeFields m.fields members >>= Record.ofValues m := by
    obtain ⟨id, name, fields⟩ := m
    rw [decodeRecord]
  rw [hbind]
  cases h : decodeFields m.fields members with
  | error e => rfl
  | ok values => exact ofValues_of_ofJson (decodeFields_eq_ok.mp h)

/-! ## Members without a field -/

mutual

theorem decode_congr : ∀ (shown type : ValueType) {i j : Json}, Json.AgreeFor type i j →
    decode shown type i = decode shown type j
  | shown, .nullable inner, i, j, h => by
    cases h with
    | refl => rfl
    | nullable h =>
      rw [decode, decode]
      exact decode_congr shown inner h
  | shown, .array element, i, j, h => by
    cases h with
    | refl => rfl
    | @array _ is js hlength hitems =>
      have hall : List.Forall₂ (Json.AgreeFor element) is js := List.forall₂_iff_zip.mpr ⟨hlength, hitems _ _⟩
      have hstep : ∀ i j, Json.AgreeFor element i j →
          decode element element i >>= conform element = decode element element j >>= conform element := by
        intro i j hij
        rw [decode_congr element element hij]
      rw [decode, decode, mapM_congr_forall₂ hstep hall]
  | shown, .model m, i, j, h => by
    cases h with
    | refl => rfl
    | object h =>
      rw [decode, decode, decodeRecord_congr m h]
  | _, .null, _, _, h | _, .bool, _, _, h | _, .number _, _, _, h | _, .string, _, _, h | _, .dateTime, _, _, h
  | _, .timeSpan, _, _, h | _, .guid, _, _, h | _, .enum _, _, _, h => by
    cases h
    rfl
termination_by structural _ type => type

theorem decodeRecord_congr : ∀ (m : Model) {as bs : List (String × Json)},
    (∀ f ∈ m.fields, Json.AgreeFor f.type (f.member as) (f.member bs)) → decodeRecord m as = decodeRecord m bs
  | ⟨id, name, fields⟩, as, bs, h => by
    rw [decodeRecord, decodeRecord, decodeFields_congr fields h]
termination_by structural m => m

theorem decodeFields_congr : ∀ (fields : List Field) {as bs : List (String × Json)},
    (∀ f ∈ fields, Json.AgreeFor f.type (f.member as) (f.member bs)) → decodeFields fields as = decodeFields fields bs
  | [], _, _, _ => rfl
  | ⟨name, type, display⟩ :: rest, as, bs, h => by
    have hfirst : Json.AgreeFor type ((Json.find? name as).getD .null) ((Json.find? name bs).getD .null) :=
      h ⟨name, type, display⟩ (.head _)
    have hrest := decodeFields_congr rest fun f hf => h f (.tail _ hf)
    rw [decodeFields, decodeFields, decode_congr type type hfirst, hrest]
termination_by structural fields => fields

end

end Value

namespace Json

theorem find?_insert_of_ne {name other : String} (h : name ≠ other) (j : Json) (members : List (String × Json)) :
    find? other (insert name j members) = find? other members := by
  induction members with
  | nil => simp [insert, find?, h]
  | cons p rest ih =>
    obtain ⟨n, v⟩ := p
    unfold insert
    split
    · rename_i hn
      simp [find?, ← hn, h]
    · split
      · simp [find?, h]
      · unfold find? at ih ⊢
        by_cases hother : n = other
        · simp [hother]
        · simpa [hother] using ih

theorem AgreeFor.insert {m : Model} {name : String} (h : ∀ f ∈ m.fields, name ≠ f.name) (j : Json)
    (members : List (String × Json)) : AgreeFor (.model m) (.object members) (.object (Json.insert name j members)) := by
  refine .object fun f hf => ?_
  have hmember : f.member (Json.insert name j members) = f.member members := by
    unfold Field.member
    rw [find?_insert_of_ne (h f hf)]
  rw [hmember]
  exact .refl f.type _

end Json

/-- **Records from Json.** An object gives a record if and only if it gives every field a value. The record holds these
values in the order of the fields, and conforming them again changes none. An object that gives no record is turned away
at the first field that it gives no value. What stands under names that no field has is not looked at, at any depth. -/
theorem Record.ofJson_field_by_field (m : Model) (members : List (String × Json)) :
    ((∃ r, Record.ofJson m (.object members) = .ok r) ↔ ∀ f ∈ m.fields, ∃ v, f.ofJson members = .ok v) ∧
    (∀ r, Record.ofJson m (.object members) = .ok r ↔
      r.model = m ∧ List.Forall₂ (fun f v => f.ofJson members = .ok v) m.fields r.values) ∧
    (∀ values, List.Forall₂ (fun f v => f.ofJson members = .ok v) m.fields values →
      Record.ofValues m values = .ok ⟨m, values⟩) ∧
    (∀ e, Record.ofJson m (.object members) = .error e ↔
      ∃ before f after, m.fields = before ++ f :: after ∧ (∀ g ∈ before, ∃ v, g.ofJson members = .ok v) ∧
        f.ofJson members = .error e.reason ∧ e.field = f.name) ∧
    ∀ others, Json.AgreeFor (.model m) (.object members) (.object others) →
      Record.ofJson m (.object others) = Record.ofJson m (.object members) := by
  have hrecord : Record.ofJson m (.object members) = (Value.decodeFields m.fields members).map (⟨m, ·⟩) :=
    Value.decodeRecord_eq m members
  have hok : ∀ r, Record.ofJson m (.object members) = .ok r ↔
      r.model = m ∧ List.Forall₂ (fun f v => f.ofJson members = .ok v) m.fields r.values := by
    intro r
    rw [hrecord, map_eq_ok]
    simp only [Value.decodeFields_eq_ok]
    constructor
    · rintro ⟨values, hvalues, rfl⟩
      exact ⟨rfl, hvalues⟩
    · rintro ⟨hmodel, hvalues⟩
      obtain ⟨n, values⟩ := r
      obtain rfl : n = m := hmodel
      exact ⟨values, hvalues, rfl⟩
  refine ⟨?_, hok, fun values => Value.ofValues_of_ofJson, ?_, ?_⟩
  · rw [← exists_forall₂]
    constructor
    · rintro ⟨r, hr⟩
      exact ⟨r.values, ((hok r).mp hr).2⟩
    · rintro ⟨values, hvalues⟩
      exact ⟨⟨m, values⟩, (hok _).mpr ⟨rfl, hvalues⟩⟩
  · intro e
    rw [hrecord, map_eq_error, Value.decodeFields_eq_error]
  · intro others h
    have hsame : Value.decodeRecord m members = Value.decodeRecord m others := by
      cases h with
      | refl => rfl
      | object h => exact Value.decodeRecord_congr m h
    exact hsame.symm

/-- Homes of a person, with an age of the person and a code of the home that no field takes. -/
theorem Record.ofJson_field_by_field_homes :
    let address : Model := ⟨1, "Address", [⟨"Number", .number .i32, none⟩]⟩
    let m : Model := ⟨0, "Person", [⟨"Name", .string, none⟩, ⟨"Homes", .array (.model address), none⟩]⟩
    let home := [("Number", Json.integer 3)]
    let members := [("Homes", Json.array [.object home])]
    let r : Record := ⟨m, [.null, .array [.record ⟨address, [.int 3]⟩]]⟩
    Record.ofJson m (.object members) = .ok r ∧
      Record.ofJson m (.object [("Age", .integer 7), ("Homes", .array [.object (Json.insert "Code" .null home)])]) =
        .ok r := by
  intro address m home members r
  have hcode : ∀ f ∈ address.fields, "Code" ≠ f.name := by decide
  obtain ⟨-, hok, -, -, hothers⟩ := Record.ofJson_field_by_field m members
  have hmembers : Record.ofJson m (.object members) = .ok r := (hok r).mpr ⟨rfl, .cons rfl (.cons rfl .nil)⟩
  have hhomes : Json.AgreeFor (.array (.model address)) (.array [.object home])
      (.array [.object (Json.insert "Code" .null home)]) := by
    refine .array rfl fun i j hij => ?_
    obtain ⟨rfl, rfl⟩ := Prod.mk.inj (List.mem_singleton.mp hij)
    exact .insert hcode .null home
  refine ⟨hmembers, (hothers _ (.object ?_)).trans hmembers⟩
  rw [List.forall_mem_cons, List.forall_mem_singleton]
  exact ⟨.refl .string .null, hhomes⟩

end RecordLogic
