import Mathlib.Data.List.Induction
import Mathlib.Data.List.TakeWhile
import RecordLogic.Proofs.Lexemes
import RecordLogic.Proofs.ParserExact
import RecordLogic.Proofs.ScannerLossless
import RecordLogic.Proofs.Sites

/-!
# Diagnostics point at the text

A diagnostic stands where a word of the text begins, or at the end of the text. For an unknown segment and a function
that cannot be called what is reported is the text there, and the line that a message shows goes on from there. The
scanner counts lines and columns forwards, a message splits the text into lines again, and the two agree.
-/

namespace RecordLogic

open Text

/-! ## Lines and columns -/

namespace Text

variable {sep : Char}

def lastPiece (sep : Char) (cs : List Char) : List Char := (cs.reverse.takeWhile (· ≠ sep)).reverse

theorem pieces_cons_ne {c : Char} {cs p : List Char} {ps : List (List Char)} (hc : c ≠ sep)
    (h : pieces sep cs = p :: ps) : pieces sep (c :: cs) = (c :: p) :: ps := by
  simp [pieces, hc, h]

theorem pieces_eq_cons (sep : Char) (cs : List Char) : ∃ ps, pieces sep cs = cs.takeWhile (· ≠ sep) :: ps := by
  induction cs with
  | nil => exact ⟨[], rfl⟩
  | cons c cs ih =>
    obtain ⟨ps, hps⟩ := ih
    by_cases hc : c = sep
    · exact ⟨pieces sep cs, by simp [pieces, hc]⟩
    · exact ⟨ps, by rw [pieces_cons_ne hc hps, List.takeWhile_cons_of_pos (by simpa using hc)]⟩

/-- After as many separators as there are in front, the pieces are those of the rest, the first one with what
stands between the last separator and the rest. -/
theorem drop_pieces (before : List Char) {after p : List Char} {ps : List (List Char)}
    (h : pieces sep after = p :: ps) :
    (pieces sep (before ++ after)).drop (before.count sep) = (lastPiece sep before ++ p) :: ps := by
  induction before using List.reverseRecOn generalizing after p ps with
  | nil => simpa [lastPiece] using h
  | append_singleton before c ih =>
    rw [List.append_assoc, List.singleton_append, List.count_append]
    by_cases hc : c = sep
    · subst hc
      have hsep : pieces c (c :: after) = [] :: pieces c after := by simp [pieces]
      have hdrop := ih hsep
      rw [List.count_singleton_self, ← List.drop_drop, hdrop]
      simpa [lastPiece] using h
    · have hcount : [c].count sep = 0 := List.count_eq_zero.mpr (by simpa using Ne.symm hc)
      rw [hcount, Nat.add_zero, ih (pieces_cons_ne hc h)]
      simp [lastPiece, hc]

theorem getLast?_pieces (cs : List Char) : (pieces sep cs).getLast? = some (lastPiece sep cs) := by
  have hnil : pieces sep [] = [[]] := rfl
  have hdrop := drop_pieces cs hnil
  rw [List.append_nil, List.append_nil] at hdrop
  rw [← List.take_append_drop (cs.count sep) (pieces sep cs), hdrop]
  simp

end Text

namespace Location

theorem behind_column (cs : List Char) : (behind cs).column = 1 + (lastPiece '\n' cs).length := by
  simp [behind, lastPiece]

theorem endOf_eq_behind (source : String) : endOf source = behind source.toList := by
  have hlast : ((split '\n' source).getLast?.getD "").length = (lastPiece '\n' source.toList).length := by
    simp [split, getLast?_pieces]
  unfold endOf
  rw [hlast]
  simp only [behind, lastPiece, List.length_reverse, Location.mk.injEq]
  omega

theorem past_behind (as bs : List Char) : (behind as).past bs = behind (as ++ bs) := by
  rw [← past_start, ← past_start, past_append]

/-- On one line the column grows by the length. -/
theorem behind_append_line (as : List Char) {bs : List Char} (h : '\n' ∉ bs) :
    behind (as ++ bs) = ⟨(behind as).line, (behind as).column + bs.length⟩ := by
  have hall : ∀ c ∈ bs.reverse, decide (c ≠ '\n') = true := by
    intro c hc
    have hmem : c ∈ bs := List.mem_reverse.mp hc
    exact decide_eq_true fun heq => h (heq ▸ hmem)
  have hcount : bs.count '\n' = 0 := List.count_eq_zero.mpr h
  unfold behind
  rw [List.reverse_append, List.takeWhile_append_of_pos hall, List.count_append, hcount, List.length_append,
    List.length_reverse]
  simp only [Location.mk.injEq]
  omega

theorem behind_append_ne (as : List Char) {bs : List Char} (h : bs ≠ []) : behind (as ++ bs) ≠ behind as := by
  intro heq
  by_cases hline : '\n' ∈ bs
  · have hpos : 0 < bs.count '\n' := List.count_pos_iff.mpr hline
    have hlines := congrArg Location.line heq
    simp only [behind, List.count_append] at hlines
    omega
  · have hpos : 0 < bs.length := List.length_pos_iff.mpr h
    rw [behind_append_line as hline] at heq
    have hcolumns := congrArg Location.column heq
    simp only at hcolumns
    omega

/-- A place of a text is given by its line and its column. -/
theorem eq_of_behind_eq {as bs cs ds : List Char} (h : as ++ bs = cs ++ ds) (heq : behind as = behind cs) :
    as = cs := by
  rcases List.append_eq_append_iff.mp h with ⟨x, rfl, -⟩ | ⟨x, rfl, -⟩
  · rcases eq_or_ne x [] with rfl | hx
    · exact (List.append_nil as).symm
    · exact absurd heq.symm (behind_append_ne as hx)
  · rcases eq_or_ne x [] with rfl | hx
    · exact List.append_nil cs
    · exact absurd heq (behind_append_ne cs hx)

end Location

/-! ## What a message shows -/

def withoutReturns (cs : List Char) : List Char := (cs.reverse.dropWhile (· == '\r')).reverse

theorem withoutReturns_append (as : List Char) {bs : List Char} (h : withoutReturns bs ≠ []) :
    withoutReturns (as ++ bs) = as ++ withoutReturns bs := by
  have hne : (bs.reverse.dropWhile (· == '\r')).isEmpty = false := by simpa [withoutReturns] using h
  unfold withoutReturns
  rw [List.reverse_append, List.dropWhile_append, hne]
  simp

theorem withoutReturns_cons_ne_nil {c : Char} (hc : c ≠ '\r') (cs : List Char) : withoutReturns (c :: cs) ≠ [] := by
  unfold withoutReturns
  rw [List.reverse_cons, List.dropWhile_append]
  split <;> simp [hc]

theorem length_withoutReturns_le (cs : List Char) : (withoutReturns cs).length ≤ cs.length := by
  have hle := (List.dropWhile_sublist (· == '\r') (l := cs.reverse)).length_le
  simpa [withoutReturns] using hle

def restOfLine (cs : List Char) : List Char := withoutReturns (cs.takeWhile (· ≠ '\n'))

theorem restOfLine_eq_nil {cs : List Char} (h : ∀ c ∈ cs.head?, isBlank c = false) : restOfLine cs = [] ↔ cs = [] := by
  cases cs with
  | nil => exact ⟨fun _ => rfl, fun _ => rfl⟩
  | cons c cs =>
    have hc : isBlank c = false := h c rfl
    have hline : c ≠ '\n' := by
      rintro rfl
      cases hc
    have hreturn : c ≠ '\r' := by
      rintro rfl
      cases hc
    unfold restOfLine
    rw [List.takeWhile_cons_of_pos (by simpa using hline)]
    simp [withoutReturns_cons_ne_nil hreturn]

theorem contextAt_behind {source : String} {before after : List Char} (hsource : source.toList = before ++ after)
    (hafter : ∀ c ∈ after.head?, isBlank c = false) : contextAt (.behind before) source = restOfLine after := by
  obtain ⟨ps, hps⟩ := pieces_eq_cons '\n' after
  have hline : (pieces '\n' source.toList)[(Location.behind before).line - 1]? =
      some (lastPiece '\n' before ++ after.takeWhile (· ≠ '\n')) := by
    have hindex : (Location.behind before).line - 1 = before.count '\n' := by simp [Location.behind]
    rw [hsource, hindex, ← List.head?_drop, drop_pieces before hps]
    rfl
  have hcolumn : (Location.behind before).column - 1 = (lastPiece '\n' before).length := by
    rw [Location.behind_column]
    omega
  have hcontext : contextAt (.behind before) source =
      (withoutReturns (lastPiece '\n' before ++ after.takeWhile (· ≠ '\n'))).drop (lastPiece '\n' before).length := by
    unfold contextAt
    rw [hline, hcolumn]
    rfl
  rw [hcontext]
  by_cases hnil : after = []
  · subst hnil
    have hle := length_withoutReturns_le (lastPiece '\n' before)
    simpa [restOfLine, withoutReturns] using hle
  · rw [withoutReturns_append _ fun h => hnil ((restOfLine_eq_nil hafter).mp h), List.drop_left]
    rfl

/-! ## Words in the text -/

/-- The location is a place of the text that goes on with these characters, no blank first, or it is the end. -/
def Points (source : String) (l : Location) (after : List Char) : Prop :=
  ∃ before, source.toList = before ++ after ∧ l = .behind before ∧ ∀ c ∈ after.head?, isBlank c = false

theorem points_end (source : String) : Points source (.behind source.toList) [] :=
  ⟨source.toList, (List.append_nil _).symm, rfl, by simp⟩

structure Token.Stands (source : String) (t : Token) : Prop where
  faithful : t.Faithful
  points : ∃ after, Points source t.location (t.raw.toList ++ after)

theorem Token.Stands.word {source : String} {t : Token} (ht : t.Stands source) :
    ∃ after, Points source t.location after ∧ t.raw.toList <+: after := by
  obtain ⟨after, hafter⟩ := ht.points
  exact ⟨_, hafter, List.prefix_append _ _⟩

theorem Site.points {source : String} {stop l : Location} (hstop : ∃ after, Points source stop after)
    (h : Site (Token.Stands source) stop l) : ∃ after, Points source l after := by
  obtain rfl | ⟨t, ht, rfl⟩ := h
  · exact hstop
  · obtain ⟨after, hafter, -⟩ := ht.word
    exact ⟨after, hafter⟩

namespace Scanner

def At (source : String) (s : Scanner) : Prop :=
  ∃ before, source.toList = before ++ s.rest ∧ s.location = .behind before

variable {source : String} {s s' : Scanner}

theorem At.points_skipBlanks (h : s.At source) : Points source s.skipBlanks.location s.skipBlanks.rest := by
  obtain ⟨before, hsource, hlocation⟩ := h
  have hrest : s.rest.takeWhile isBlank ++ s.rest.dropWhile isBlank = s.rest := List.takeWhile_append_dropWhile
  refine ⟨before ++ s.rest.takeWhile isBlank, ?_, ?_, fun c hc => ?_⟩
  · rw [List.append_assoc]
    show _ = before ++ (_ ++ s.rest.dropWhile isBlank)
    rw [hrest, hsource]
  · rw [← Location.past_behind, ← hlocation]
    rfl
  · have hhead := List.head?_dropWhile_not isBlank s.rest
    have hc : (s.rest.dropWhile isBlank).head? = some c := hc
    rw [hc] at hhead
    exact hhead

theorem At.next (h : s.At source) :
    Yields (fun m => ∃ after, Points source m.location after) (fun t => t.Stands source ∧ s.next.2.At source)
      s.next.1 := by
  have hpoints := h.points_skipBlanks
  unfold Scanner.next
  generalize s.skipBlanks = u at hpoints
  obtain ⟨rest, location⟩ := u
  dsimp only at hpoints ⊢
  cases rest with
  | nil =>
    obtain ⟨before, hsource, hlocation, -⟩ := hpoints
    exact .ok ⟨⟨trivial, [], before, hsource, hlocation, by simp⟩, before, hsource, hlocation⟩
  | cons c cs =>
    dsimp only
    split
    · rename_i kind literal raw rest hmunch
      have htakes := munch_takes hmunch
      rw [htakes.append_eq] at hpoints
      obtain ⟨before, hsource, hlocation, hblank⟩ := hpoints
      refine .ok ⟨⟨htakes.faithful _, rest, before, by simpa using hsource, hlocation, by simpa using hblank⟩, ?_⟩
      refine ⟨before ++ raw, by rw [hsource, List.append_assoc], ?_⟩
      rw [← Location.past_behind, ← hlocation]
    · exact .error ⟨_, hpoints⟩

theorem At.tokensWithin {fuel : Nat} (h : s.At source) :
    Yields (fun m => ∃ after, Points source m.location after) (fun ts => ∀ t ∈ ts, t.Stands source)
      (s.tokensWithin fuel) := by
  induction fuel generalizing s with
  | zero => exact .ok (by simp)
  | succ fuel ih =>
    have hnext := h.next
    rw [Scanner.tokensWithin]
    generalize s.next = x at hnext
    obtain ⟨m | t, s'⟩ := x
    · exact .error hnext.of_error
    · obtain ⟨ht, hs'⟩ := hnext.of_ok
      dsimp only
      split
      · exact .ok (by simpa using ht)
      · have hmore := ih hs'
        generalize s'.tokensWithin fuel = y at hmore
        obtain m | ts := y
        · exact .error hmore.of_error
        · exact .ok (List.forall_mem_cons.mpr ⟨ht, hmore.of_ok⟩)

end Scanner

theorem tokenize_stands (source : String) :
    Yields (fun m => ∃ after, Points source m.location after) (fun ts => ∀ t ∈ ts, t.Stands source)
      (tokenize source) :=
  Scanner.At.tokensWithin ⟨[], rfl, rfl⟩

theorem Parser.ofTokens_points {source : String} {tokens : List Token} (h : ∀ t ∈ tokens, t.Stands source) :
    ∃ after, Points source (Parser.ofTokens tokens source).stop after := by
  unfold Parser.ofTokens
  dsimp only
  cases hfind : tokens.find? (·.kind = .stop) with
  | none => exact ⟨[], Location.endOf_eq_behind source ▸ points_end source⟩
  | some t =>
    obtain ⟨after, hafter, -⟩ := (h t (List.mem_of_find?_eq_some hfind)).word
    exact ⟨after, hafter⟩

/-- A text that is no expression is at fault where a word begins or at its end, and the parts of a tree stand where
their words do. -/
theorem parse_stands (source : String) :
    Yields (fun m => ∃ after, Points source m.location after) (Expr.ReadAt (Token.Stands source)) (parse source) := by
  refine (tokenize_stands source).bind fun tokens htokens => ?_
  have hkept : ∀ t ∈ (Parser.ofTokens tokens source).tokens, t.Stands source :=
    fun t ht => htokens t ((List.takeWhile_prefix _).subset ht)
  have hwhole := Parser.whole_sited hkept
  generalize ((Parser.ofTokens tokens source).whole).1 = x at hwhole
  obtain m | e := x
  · exact .error (Site.points (Parser.ofTokens_points htokens) hwhole.of_error)
  · exact .ok hwhole.of_ok

/-! ## Segments of a path -/

theorem Text.joined_eq_of_getElem? {sep : Char} {ps : List (List Char)} {i : Nat} {p : List Char}
    (h : ps[i]? = some p) :
    ∃ tail, joined sep ps = (ps.take i).flatMap (· ++ [sep]) ++ (p ++ tail) := by
  induction ps generalizing i with
  | nil => cases h
  | cons q ps ih =>
    cases i with
    | zero =>
      cases h
      cases ps with
      | nil => exact ⟨[], by simp [joined]⟩
      | cons r rs => exact ⟨sep :: joined sep (r :: rs), by simp [joined]⟩
    | succ i =>
      cases ps with
      | nil => cases h
      | cons r rs =>
        obtain ⟨tail, htail⟩ := ih h
        refine ⟨tail, ?_⟩
        rw [joined, htail]
        · simp
        · exact List.cons_ne_nil r rs

theorem Lowering.foldl_columns (column : Nat) (ps : List (List Char)) :
    (ps.map String.ofList).foldl (fun column s => column + s.length + 1) column =
      column + (ps.flatMap (· ++ ['.'])).length := by
  induction ps generalizing column with
  | nil => rfl
  | cons p ps ih =>
    rw [List.map_cons, List.foldl_cons, ih, List.flatMap_cons, List.length_append, List.length_append,
      String.length_ofList, List.length_singleton]
    omega

theorem Lowering.segmentLocation_eq (l : Location) (ps : List (List Char)) (i : Nat) :
    segmentLocation l (ps.map String.ofList) i =
      ⟨l.line, l.column + ((ps.take i).flatMap (· ++ ['.'])).length⟩ := by
  unfold segmentLocation
  rw [← List.map_take, foldl_columns]

theorem Token.Faithful.segments {t : Token} (h : t.Faithful) (hk : t.kind = .name) :
    ∀ p ∈ pieces '.' t.raw.toList, IsSegment p := by
  intro p hp
  unfold Faithful at h
  rw [hk] at h
  have hsegment := h (String.ofList p) (List.mem_map_of_mem hp)
  rwa [String.toList_ofList] at hsegment

/-- No segment has a line break in it, so a path stays on its line. -/
theorem newline_not_mem_segments {ps : List (List Char)} (h : ∀ p ∈ ps, IsSegment p) :
    '\n' ∉ ps.flatMap (· ++ ['.']) := by
  intro hmem
  obtain ⟨p, hp, hmem⟩ := List.mem_flatMap.mp hmem
  rcases List.mem_append.mp hmem with hmem | hmem
  · have hcontinues := (h p hp).continuesName '\n' hmem
    revert hcontinues
    decide
  · simp at hmem

/-- A segment of a path begins where the lengths of those before it put it. -/
theorem Token.Stands.segment {source segment : String} {t : Token} {i : Nat} (ht : t.Stands source)
    (hk : t.kind = .name) (h : (Text.segments t.raw)[i]? = some segment) :
    ∃ after, Points source (Lowering.segmentLocation t.location (Text.segments t.raw) i) after ∧
      segment.toList <+: after := by
  have hsegments := ht.faithful.segments hk
  have hraw : joined '.' (pieces '.' t.raw.toList) = t.raw.toList := joined_pieces _ _
  have hpath : Text.segments t.raw = (pieces '.' t.raw.toList).map String.ofList := rfl
  obtain ⟨after, before, hsource, hlocation, -⟩ := ht.points
  rw [hpath] at h ⊢
  generalize pieces '.' t.raw.toList = ps at hsegments hraw h
  rw [List.getElem?_map] at h
  obtain ⟨p, hp, rfl⟩ := Option.map_eq_some_iff.mp h
  obtain ⟨tail, htail⟩ := joined_eq_of_getElem? hp
  refine ⟨p ++ (tail ++ after), ⟨before ++ (ps.take i).flatMap (· ++ ['.']), ?_, ?_, ?_⟩, ?_⟩
  · rw [hsource, ← hraw, htail]
    simp
  · have hline : '\n' ∉ (ps.take i).flatMap (· ++ ['.']) :=
      newline_not_mem_segments fun q hq => hsegments q (List.mem_of_mem_take hq)
    rw [Location.behind_append_line before hline, ← hlocation]
    exact Lowering.segmentLocation_eq _ _ _
  · obtain ⟨c, ds, rfl, hc, -⟩ := hsegments p (List.mem_of_getElem? hp)
    rintro d ⟨⟩
    exact Scanner.isBlank_of_startsName hc
  · rw [String.toList_ofList]
    exact List.prefix_append _ _

/-! ## Diagnostics -/

def Problem.reported? : Problem → Option String
  | .unknownField u => some u.segment
  | .noOverload name _ | .noFunction name _ => some name
  | _ => none

theorem Objection.Sited.points {source : String} {o : Objection} (h : o.Sited (Token.Stands source)) :
    ∃ after, Points source o.location after ∧ ∀ name ∈ o.problem.reported?, name.toList <+: after := by
  obtain ⟨problem, location⟩ := o
  cases problem with
  | unknownField u =>
    obtain ⟨t, ht, hk, hsegment, rfl⟩ := h
    obtain ⟨after, hafter, hprefix⟩ := ht.segment hk hsegment
    refine ⟨after, hafter, ?_⟩
    rintro name ⟨⟩
    exact hprefix
  | noOverload name _ | noFunction name _ =>
    obtain ⟨t, ht, rfl, rfl⟩ := h
    obtain ⟨after, hafter, hprefix⟩ := ht.word
    refine ⟨after, hafter, ?_⟩
    rintro name ⟨⟩
    exact hprefix
  | _ =>
    obtain ⟨t, ht, rfl⟩ := h
    obtain ⟨after, hafter, -⟩ := ht.word
    exact ⟨after, hafter, nofun⟩

theorem Scope.compile_error {s : Scope} {source : String} {e : Error} (h : s.compile source = .error e) :
    ∃ problem location after, e = .located ⟨problem, location, source⟩ ∧ Points source location after ∧
      ∀ name ∈ problem.reported?, name.toList <+: after := by
  have hparse := parse_stands source
  unfold Scope.compile at h
  cases hp : parse source with
  | error m =>
    rw [hp] at h hparse
    cases h
    obtain ⟨after, hafter⟩ := hparse.of_error
    exact ⟨_, _, after, rfl, hafter, nofun⟩
  | ok tree =>
    rw [hp] at h hparse
    have hlower := Lowering.lower_sited (s := s) hparse.of_ok
    dsimp only at h
    unfold Scope.compileTree at h
    cases hl : Lowering.lower s tree with
    | error o =>
      rw [hl] at h hlower
      cases h
      obtain ⟨after, hafter, hreported⟩ := hlower.of_error.points
      exact ⟨_, _, after, rfl, hafter, hreported⟩
    | ok t =>
      rw [hl] at h
      dsimp only at h
      split at h
      · cases h
      · cases h
        obtain ⟨u, hu, hlocation⟩ := hparse.of_ok.location
        obtain ⟨after, hafter, -⟩ := hu.word
        exact ⟨_, _, after, rfl, hlocation ▸ hafter, nofun⟩

def atLastColumn (line : Nat) (message : String) : String := s!"Parse error on line {line}, last column: {message}"

def atSnippet (line column : Nat) (snippet message : String) : String :=
  s!"Parse error on line {line}, column {column}:\n... {snippet} ...\n    ^--- {message}"

/-- The two part at the third character behind the line: one goes on with the column, the other with the last. -/
theorem atSnippet_ne_atLastColumn (line column : Nat) (snippet message message' : String) :
    atSnippet line column snippet message ≠ atLastColumn line message' := by
  intro h
  have hchars := congrArg String.toList h
  unfold atSnippet atLastColumn at hchars
  simp only [String.toList_append] at hchars
  simp only [List.append_assoc] at hchars
  rw [List.append_cancel_left_eq, List.append_cancel_left_eq] at hchars
  have hthird := congrArg (fun cs => cs[2]?) hchars
  cases hthird

theorem showAt_points {source : String} {l : Location} {after : List Char} (h : Points source l after)
    (message : String) : showAt l message source =
      if after = [] then atLastColumn l.line message
      else atSnippet l.line l.column (String.ofList ((restOfLine after).take contextWidth)) message := by
  obtain ⟨before, hsource, rfl, hblank⟩ := h
  unfold showAt
  rw [contextAt_behind hsource hblank]
  have hempty : (restOfLine after).isEmpty = true ↔ after = [] := by
    rw [List.isEmpty_iff, restOfLine_eq_nil hblank]
  by_cases hnil : after = []
  · rw [if_pos (hempty.mpr hnil), if_pos hnil]
    rfl
  · rw [if_neg (fun h => hnil (hempty.mp h)), if_neg hnil]
    rfl

/-- **Diagnostics point at the text.** A located diagnostic carries the text. Its location is a place of the text, the
end or one where no blank stands, and the text goes on there with the segment or the function that is reported. The
message is the one for the last column exactly at the end of the text, and shows elsewhere the rest of the line, up to a
hundred characters. -/
theorem Scope.compile_points {s : Scope} {source : String} {d : Diagnostic}
    (h : s.compile source = .error (.located d)) :
    d.source = source ∧ ∃ before after, source.toList = before ++ after ∧ d.location = .behind before ∧
      (d.location = .behind source.toList ↔ after = []) ∧ (∀ c ∈ after.head?, isBlank c = false) ∧
      (∀ u, d.problem = .unknownField u → u.segment.toList <+: after) ∧
      (∀ name args, d.problem = .noOverload name args → name.toList <+: after) ∧
      (∀ name count, d.problem = .noFunction name count → name.toList <+: after) ∧
      (d.text = atLastColumn d.location.line d.problem.message ↔ d.location = .behind source.toList) ∧
      (d.location ≠ .behind source.toList → d.text = atSnippet d.location.line d.location.column
        (String.ofList ((restOfLine after).take (min 100 (restOfLine after).length))) d.problem.message) := by
  obtain ⟨problem, location, after, hd, hpoints, hreported⟩ := compile_error h
  cases hd
  have htext := showAt_points hpoints problem.message
  obtain ⟨before, hsource, hlocation, hblank⟩ := hpoints
  have hend : location = .behind source.toList ↔ after = [] := by
    refine ⟨fun heq => ?_, fun hnil => ?_⟩
    · have hsame : before = source.toList :=
        Location.eq_of_behind_eq (hsource.symm.trans (List.append_nil _).symm) (hlocation.symm.trans heq)
      rw [hsame] at hsource
      simpa using hsource
    · rw [hlocation, hsource, hnil, List.append_nil]
  have htake : (restOfLine after).take (min 100 (restOfLine after).length) = (restOfLine after).take contextWidth := by
    rw [← List.take_take, List.take_length]
    rfl
  refine ⟨rfl, before, after, hsource, hlocation, hend, hblank, ?_, ?_, ?_, ?_, ?_⟩
  · rintro u rfl
    exact hreported _ rfl
  · rintro name args rfl
    exact hreported _ rfl
  · rintro name count rfl
    exact hreported _ rfl
  · show showAt location problem.message source = _ ↔ _
    rw [htext, hend]
    by_cases hnil : after = []
    · simp [hnil]
    · simp [hnil, atSnippet_ne_atLastColumn]
  · intro hne
    show showAt location problem.message source = _
    rw [htext, if_neg (fun hnil => hne (hend.mpr hnil)), htake]

/-- The second segment of a path on the second line. -/
theorem Scope.compile_points_nested :
    let inner : Model := ⟨1, "Person", [⟨"Age", .number .i32, none⟩]⟩
    let s : Scope := ⟨⟨0, "Account", [⟨"Own", .model inner, none⟩]⟩, .empty, .sensitive⟩
    let source := "\n Own.Ags \r\n"
    ∃ d before after, s.compile source = .error (.located d) ∧ d.location = ⟨2, 6⟩ ∧
      source.toList = before ++ after ∧ d.location = .behind before ∧ "Ags".toList <+: after ∧
      (d.location ≠ .behind source.toList → d.text = atSnippet d.location.line d.location.column
        (String.ofList ((restOfLine after).take (min 100 (restOfLine after).length))) d.problem.message) := by
  intro inner s source
  have htokens : tokenize "\n Own.Ags \r\n" = .ok [⟨.name, none, "Own.Ags", ⟨2, 2⟩⟩, ⟨.stop, none, "", ⟨3, 1⟩⟩] :=
    rfl
  have hparse := parse_name htokens rfl rfl
  have hd : s.compile source = .error (.located ⟨.unknownField ⟨"Ags", 1, "Own.Ags"⟩, ⟨2, 6⟩, source⟩) := by
    unfold Scope.compile
    rw [hparse]
    rfl
  obtain ⟨-, before, after, hsource, hlocation, -, -, hsegment, -, -, -, hshown⟩ := Scope.compile_points hd
  exact ⟨_, before, after, hd, rfl, hsource, hlocation, hsegment _ rfl, hshown⟩

end RecordLogic
