import Mathlib.Data.List.Find
import RecordLogic.Proofs.Inclusion
import RecordLogic.Proofs.Noninterference
import RecordLogic.Proofs.PathReads

/-!
# Expressions whatever the case of their names

Where names that are equal up to case are equal, a name that is written exactly finds the same first entry of a list
either way. Only a field can come before a member of an enumeration when case is ignored, and it does no harm where
it is of an enumeration, since no path leads on from there.
-/

namespace RecordLogic

namespace Text

/-! ## Segments of dotted paths -/

theorem not_mem_of_mem_pieces {sep : Char} {p : List Char} : ∀ {cs : List Char}, p ∈ pieces sep cs → sep ∉ p
  | [], h => by
    obtain rfl := List.mem_singleton.mp h
    exact List.not_mem_nil
  | c :: cs, h => by
    have ih := @not_mem_of_mem_pieces sep p cs
    unfold pieces at h
    by_cases hc : c = sep
    · simp only [hc, ↓reduceIte, List.mem_cons] at h
      obtain rfl | h := h
      · exact List.not_mem_nil
      · exact ih h
    · simp only [hc, ↓reduceIte] at h
      cases hp : pieces sep cs with
      | nil => exact absurd hp (pieces_ne_nil sep cs)
      | cons q qs =>
        have ihq := @not_mem_of_mem_pieces sep q cs (by simp [hp])
        rw [hp] at h ih
        obtain rfl | h := List.mem_cons.mp h
        · simp [Ne.symm hc, ihq]
        · exact ih (.tail _ h)

theorem pieces_append {sep : Char} {p : List Char} (h : sep ∉ p) (cs : List Char) :
    pieces sep (p ++ sep :: cs) = p :: pieces sep cs := by
  induction p with
  | nil => simp [pieces]
  | cons c p ih =>
    obtain ⟨hc, hp⟩ := List.ne_and_not_mem_of_not_mem_cons h
    rw [List.cons_append, pieces, if_neg hc.symm, ih hp]

theorem pieces_eq_singleton {sep : Char} {p : List Char} (h : sep ∉ p) : pieces sep p = [p] := by
  induction p with
  | nil => rfl
  | cons c p ih =>
    obtain ⟨hc, hp⟩ := List.ne_and_not_mem_of_not_mem_cons h
    rw [pieces, if_neg hc.symm, ih hp]

theorem pieces_joined {sep : Char} : ∀ {ps : List (List Char)}, ps ≠ [] → (∀ p ∈ ps, sep ∉ p) →
    pieces sep (joined sep ps) = ps
  | [p], _, h => pieces_eq_singleton (h p (.head _))
  | p :: q :: ps, _, h => by
    rw [joined, pieces_append (h p (.head _)), pieces_joined (List.cons_ne_nil q ps) fun r hr => h r (.tail _ hr)]
    exact List.cons_ne_nil q ps

theorem not_mem_of_mem_segments {text segment : String} (h : segment ∈ segments text) : '.' ∉ segment.toList := by
  obtain ⟨p, hp, rfl⟩ := List.mem_map.mp h
  rw [String.toList_ofList]
  exact not_mem_of_mem_pieces hp

theorem segments_dotted {path : List String} (hne : path ≠ []) (h : ∀ a ∈ path, '.' ∉ a.toList) :
    segments (dotted path) = path := by
  have htext : (dotted path).toList = joined '.' (path.map String.toList) := by
    unfold dotted
    rw [String.toList_intercalate, joined_eq_intercalate]
    rfl
  unfold segments split
  rw [htext, pieces_joined (by simpa using hne) (by simpa using h)]
  simp [Function.comp_def]

/-! ## Names -/

def Unambiguous (names : List String) : Prop := ∀ a ∈ names, ∀ b ∈ names, sameLetters a b → a = b

instance (names : List String) : Decidable (Unambiguous names) :=
  inferInstanceAs (Decidable (∀ a ∈ names, ∀ b ∈ names, sameLetters a b → a = b))

theorem sameLetters_refl (a : String) : sameLetters a a := by
  simp [sameLetters]

theorem agree_ignored {a b : String} (h : Case.sensitive.agree a b) : Case.ignored.agree a b := by
  obtain rfl : a = b := by simpa [Case.agree] using h
  exact sameLetters_refl a

theorem Unambiguous.agree_eq {names : List String} (h : Unambiguous names) {a name : String} (ha : a ∈ names)
    (hname : name ∈ names) : Case.ignored.agree a name = Case.sensitive.agree a name := by
  unfold Case.agree
  rw [Bool.eq_iff_iff, beq_iff_eq]
  refine ⟨h a ha name hname, fun heq => ?_⟩
  rw [heq]
  exact sameLetters_refl name

end Text

open Text

/-! ## First matches -/

section
variable {α : Type} {l : List α} {name : α → String} {x : α} {text : String}

theorem agree_eq_of_mem (h : Unambiguous (l.map name)) (hx : x ∈ l) (htext : name x = text) :
    ∀ y ∈ l, Case.ignored.agree (name y) text = Case.sensitive.agree (name y) text := by
  intro y hy
  rw [← htext]
  exact h.agree_eq (List.mem_map_of_mem hy) (List.mem_map_of_mem hx)

theorem find?_ignored (h : Unambiguous (l.map name))
    (hfind : (l.find? fun y => Case.sensitive.agree (name y) text) = some x) :
    (l.find? fun y => Case.ignored.agree (name y) text) = some x := by
  have hname : name x = text := by simpa [Case.agree] using List.find?_some hfind
  rw [← hfind]
  exact List.find?_congr (agree_eq_of_mem h (List.mem_of_find?_eq_some hfind) hname)

theorem findIdx?_ignored {i : Nat} (h : Unambiguous (l.map name))
    (hfind : (l.findIdx? fun y => Case.sensitive.agree (name y) text) = some i) :
    (l.findIdx? fun y => Case.ignored.agree (name y) text) = some i := by
  rw [List.findIdx?_eq_some_iff_getElem] at hfind ⊢
  obtain ⟨hi, hmatch, hfirst⟩ := hfind
  have hagree := agree_eq_of_mem h (List.getElem_mem hi) (by simpa [Case.agree] using hmatch)
  refine ⟨hi, ?_, fun j hj => ?_⟩
  · rw [hagree _ (List.getElem_mem hi)]
    exact hmatch
  · rw [hagree _ (List.getElem_mem (Nat.lt_trans hj hi))]
    exact hfirst j hj

end

theorem EnumType.valueOf?_ignored {e : EnumType} {member : String} {n : Int}
    (he : Unambiguous (e.members.map Prod.fst)) (h : e.valueOf? .sensitive member = some n) :
    e.valueOf? .ignored member = some n := by
  unfold valueOf? at h ⊢
  obtain ⟨m, hm, rfl⟩ := Option.map_eq_some_iff.mp h
  rw [find?_ignored he hm]
  rfl

theorem Registry.resolve?_ignored {g : Registry} {name : String} {args : List (Option CoarseType)} {f : Signature}
    (hg : Unambiguous (g.signatures.map Signature.name)) (h : g.resolve? .sensitive name args = some f) :
    g.resolve? .ignored name args = some f := by
  unfold resolve? at h ⊢
  have hmem := List.mem_of_find?_eq_some h
  unfold overloads at h hmem ⊢
  obtain ⟨hmem, hname⟩ := List.mem_filter.mp hmem
  rw [List.filter_congr (agree_eq_of_mem hg hmem (by simpa [Case.agree] using hname))]
  exact h

/-! ## Paths -/

inductive ValueType.LeadsTo : ValueType → Model → Prop
  | here {t : ValueType} {m : Model} : t.underlying = .model m → LeadsTo t m
  | field {t : ValueType} {m n : Model} {f : Field} : t.underlying = .model m → f ∈ m.fields → LeadsTo f.type n →
      LeadsTo t n

namespace Model

variable {m : Model} {t next : ValueType} {name segment : String} {path : List String} {step : Step} {q : Resolved}

theorem field?_ignored {i : Nat} {f : Field} (hm : Unambiguous (m.fields.map Field.name))
    (h : m.field? .sensitive name = some (i, f)) : m.field? .ignored name = some (i, f) := by
  unfold field? at h ⊢
  obtain ⟨j, hj, h⟩ := Option.bind_eq_some_iff.mp h
  exact Option.bind_eq_some_iff.mpr ⟨j, findIdx?_ignored hm hj, h⟩

theorem advance?_ignored (ht : ∀ m, t.LeadsTo m → Unambiguous (m.fields.map Field.name))
    (h : advance? .sensitive t segment = some (step, next)) : advance? .ignored t segment = some (step, next) := by
  unfold advance? at h ⊢
  split at h
  · rename_i m hm
    obtain ⟨⟨i, f⟩, hfield, hstep⟩ := Option.map_eq_some_iff.mp h
    exact Option.map_eq_some_iff.mpr ⟨(i, f), field?_ignored (ht m (.here hm)) hfield, hstep⟩
  · split at h
    · rename_i hlength
      rwa [if_pos (agree_ignored hlength)]
    · cases h
  · split at h
    · rename_i hlength
      rwa [if_pos (agree_ignored hlength)]
    · cases h
  · cases h

theorem leadsTo_of_advance (h : advance? .sensitive t segment = some (step, next)) (hnext : next.LeadsTo m) :
    t.LeadsTo m := by
  obtain ⟨k, i, f, hk, hf, -, rfl⟩ | ⟨-, -, rfl⟩ := advance?_cases h
  · exact .field hk (List.mem_of_getElem? hf) hnext
  · cases hnext with
    | here h => cases h
    | field h => cases h

theorem field?_agree {mode : Case} {i : Nat} {f : Field} (h : m.field? mode name = some (i, f)) :
    f ∈ m.fields ∧ mode.agree f.name name := by
  unfold field? at h
  obtain ⟨j, hj, h⟩ := Option.bind_eq_some_iff.mp h
  obtain ⟨g, hg, h⟩ := Option.bind_eq_some_iff.mp h
  cases h
  obtain ⟨hi, hmatch, -⟩ := List.findIdx?_eq_some_iff_getElem.mp hj
  obtain ⟨-, rfl⟩ := List.getElem?_eq_some_iff.mp hg
  exact ⟨List.getElem_mem hi, hmatch⟩

theorem walk_enum {mode : Case} {f : Field} {i : Nat} {rest : List String} (hf : m.field? mode name = some (i, f))
    (henum : ∃ e, f.type.underlying = .enum e) : ∀ q, walk mode (.model m) (name :: segment :: rest) ≠ .ok q := by
  intro q h
  obtain ⟨step, next, p, hadvance, hp, -⟩ := walk_cons h
  obtain ⟨step', next', -, hadvance', -⟩ := walk_cons hp
  unfold advance? at hadvance
  simp only [ValueType.underlying, hf, Option.map_some, Option.some.injEq, Prod.mk.injEq] at hadvance
  obtain ⟨-, rfl⟩ := hadvance
  -- No path leads on from an enumeration.
  obtain ⟨e, he⟩ := henum
  unfold advance? at hadvance'
  rw [he] at hadvance'
  cases hadvance'

theorem walk_ignored (ht : ∀ m, t.LeadsTo m → Unambiguous (m.fields.map Field.name))
    (h : walk .sensitive t path = .ok q) : walk .ignored t path = .ok q := by
  induction path generalizing t q with
  | nil => exact h
  | cons segment rest ih =>
    obtain ⟨step, next, p, hadvance, hp, rfl⟩ := walk_cons h
    have hrest := ih (fun m hm => ht m (leadsTo_of_advance hadvance hm)) hp
    rw [walk, advance?_ignored ht hadvance]
    dsimp only
    rw [hrest]

theorem resolve_ignored (hm : ∀ n, (ValueType.model m).LeadsTo n → Unambiguous (n.fields.map Field.name))
    (h : m.resolve .sensitive path = .ok q) : m.resolve .ignored path = .ok q := by
  obtain ⟨hne, p, hp, rfl⟩ := resolve_eq_ok.mp h
  exact resolve_eq_ok.mpr ⟨hne, p, walk_ignored hm hp, rfl⟩

end Model

/-! ## Scopes -/

structure Scope.Within (s s' : Scope) : Prop where
  model : s.model = s'.model
  field : ∀ {path : List String} {l : Location} {t : Typed}, Written path → Lowering.field s path l = .ok t →
    Lowering.field s' path l = .ok t
  call : ∀ {name : String} {args : List Typed} {l : Location} {t : Typed}, Lowering.call s name args l = .ok t →
    Lowering.call s' name args l = .ok t

namespace Scope.Within

variable {s s' : Scope}

theorem compile_eq_ok (h : s.Within s') {source : String} {p : Predicate}
    (hp : s.compile source = .ok p) : s'.compile source = .ok p := by
  unfold Scope.compile at hp ⊢
  split at hp
  · cases hp
  rename_i e he
  have hlower : ∀ t, Lowering.lower s e = .ok t → Lowering.lower s' e = .ok t := fun t =>
    Lowering.lower_mono (fun _ _ _ => h.field) (fun _ _ _ _ => h.call) (written_of_parse he)
  exact Scope.compileTree_mono h.model hlower hp

end Scope.Within

/-- Names of one kind are apart up to case, and a root field whose name could be taken for the beginning of the name of
an enumeration is of an enumeration. -/
structure Scope.Unambiguous (s : Scope) : Prop where
  fields : ∀ m, (ValueType.model s.model).LeadsTo m → Text.Unambiguous (m.fields.map Field.name)
  enums : Text.Unambiguous (s.model.enums.map EnumType.name)
  members : ∀ e ∈ s.model.enums, Text.Unambiguous (e.members.map Prod.fst)
  functions : Text.Unambiguous (s.registry.signatures.map Signature.name)
  roots : ∀ f ∈ s.model.fields, ∀ e ∈ s.model.enums, ∀ first ∈ (segments e.name).head?, sameLetters f.name first →
    ∃ e', f.type.underlying = .enum e'

namespace Scope.Unambiguous

variable {s : Scope} {path : List String} {t : Typed}

theorem member_ignored (hs : s.Unambiguous) (h : Lowering.member? { s with mode := .sensitive } path = some t) :
    Lowering.member? { s with mode := .ignored } path = some t := by
  obtain ⟨member, e, n, hlast, hne, he, hn, rfl⟩ := Lowering.member?_eq_some.mp h
  have hmem := List.mem_of_find?_eq_some he
  exact Lowering.member?_eq_some.mpr ⟨member, e, n, hlast, hne, find?_ignored hs.enums he,
    EnumType.valueOf?_ignored (hs.members e hmem) hn, rfl⟩

theorem resolve_ne_ok (hs : s.Unambiguous) (hpath : Written path)
    (h : Lowering.member? { s with mode := .sensitive } path = some t) :
    ∀ q, s.model.resolve .ignored path ≠ .ok q := by
  obtain ⟨member, e, -, hlast, hne, he, -, -⟩ := Lowering.member?_eq_some.mp h
  have hmem := List.mem_of_find?_eq_some he
  have hname : e.name = dotted path.dropLast := by simpa [Case.agree] using List.find?_some he
  -- The path begins as the name does, so a field that it could begin with is of an enumeration.
  obtain ⟨raw, hraw⟩ := hpath
  have hsegments : segments e.name = path.dropLast := by
    rw [hname]
    refine segments_dotted hne fun a ha => ?_
    have hsegment : a ∈ segments raw := hraw ▸ List.dropLast_subset path ha
    exact not_mem_of_mem_segments hsegment
  intro q hq
  obtain ⟨-, p, hp, -⟩ := Model.resolve_eq_ok.mp hq
  cases hdrop : path.dropLast with
  | nil => exact absurd hdrop hne
  | cons first middle =>
    have hwhole := List.dropLast_append_getLast? member hlast
    obtain ⟨segment, rest, hrest⟩ := List.exists_cons_of_ne_nil (by simp : middle ++ [member] ≠ [])
    rw [hdrop, List.cons_append, hrest] at hwhole
    rw [← hwhole] at hp
    obtain ⟨step, next, -, hadvance, -⟩ := Model.walk_cons hp
    obtain ⟨⟨i, f⟩, hfield, -⟩ := Option.map_eq_some_iff.mp hadvance
    obtain ⟨hf, hagree⟩ := Model.field?_agree hfield
    exact Model.walk_enum hfield (hs.roots f hf e hmem first (by rw [hsegments, hdrop]; rfl) hagree) p hp

theorem within (hs : s.Unambiguous) : Scope.Within { s with mode := .sensitive } { s with mode := .ignored } where
  model := rfl
  field := by
    intro path l t hpath h
    unfold Lowering.field at h ⊢
    dsimp only at h ⊢
    split at h
    · rename_i q hq
      rw [Model.resolve_ignored hs.fields hq]
      exact h
    · split at h
      · rename_i u hu
        cases h
        -- A field would be taken before the member.
        rw [hs.member_ignored hu]
        split
        · rename_i q hq
          exact absurd hq (hs.resolve_ne_ok hpath hu q)
        · rfl
      · cases h
  call := by
    intro name args l t h
    unfold Lowering.call at h ⊢
    dsimp only at h ⊢
    split at h
    · rename_i f hf
      rw [Registry.resolve?_ignored hs.functions hf]
      exact h
    · split at h <;> cases h

end Scope.Unambiguous

/-- **Case can be ignored.** Where names are apart up to case, what compiles when case counts compiles to the very same
predicate when it is ignored, so with the same dependencies and the same answer on every record. -/
theorem Scope.compile_ignored {s : Scope} (hs : s.Unambiguous) {source : String} {p : Predicate}
    (hp : { s with mode := .sensitive }.compile source = .ok p) :
    { s with mode := .ignored }.compile source = .ok p := hs.within.compile_eq_ok hp

/-- The field `color` comes before the enumeration `Color` when case is ignored. -/
theorem Scope.compile_ignored_color :
    let color : EnumType := ⟨"Color", [("Red", 0), ("Green", 1)]⟩
    let m : Model := ⟨0, "Car", [⟨"color", .nullable (.enum color), none⟩]⟩
    let s : Scope := ⟨m, .empty, .sensitive⟩
    s.Unambiguous ∧ ∃ p, s.compile "color==Color.Red" = .ok p ∧ p.dependencies = ["color"] ∧
      { s with mode := .ignored }.compile "color==Color.Red" = .ok p := by
  intro color m s
  have hs : s.Unambiguous :=
    { fields := by
        intro n hn
        cases hn with
        | here h =>
          cases h
          decide
        | field h hf hn =>
          cases h
          obtain rfl := List.mem_singleton.mp hf
          cases hn with
          | here h => cases h
          | field h => cases h
      enums := by decide
      members := by decide
      functions := by decide
      roots := by
        intro f hf _ _ _ _ _
        obtain rfl := List.mem_singleton.mp hf
        exact ⟨color, rfl⟩ }
  have htokens : tokenize "color==Color.Red" = .ok [⟨.name, none, "color", ⟨1, 1⟩⟩, ⟨.equal, none, "==", ⟨1, 6⟩⟩,
      ⟨.name, none, "Color.Red", ⟨1, 8⟩⟩, ⟨.stop, none, "", ⟨1, 17⟩⟩] := rfl
  have hparse : parse "color==Color.Red" = .ok (.binary (.relation .equal)
      (.field (segments "color") ⟨1, 1⟩) (.field (segments "Color.Red") ⟨1, 8⟩) ⟨1, 6⟩) :=
    parse_eq_ok.mpr ⟨_, htokens, 1, by decide, .binary (.operand (.operand (.operator
      (.operand (.operand (.operand (.operand (.unary (.operand (.field rfl))))))) .equal
      (.operand (.operand (.operand (.unary (.operand (.field rfl)))))))))⟩
  obtain ⟨p, hp, hpaths⟩ : ∃ p, s.compile "color==Color.Red" = .ok p ∧ p.dependencies = ["color"] := by
    unfold Scope.compile
    rw [hparse]
    exact ⟨_, rfl, rfl⟩
  exact ⟨hs, p, hp, hpaths, Scope.compile_ignored hs hp⟩

end RecordLogic
